import DriverHeader.Proofs.IncludeOrder
import Mathlib.Data.Finset.Card
import Mathlib.Data.List.Induction

/-! # Runs of insertions

An include list is kept as two lists of paths. Seen from outside it is a set of headers that
remembers the order of first insertion: an insertion tells whether its header is new, and the list
shows every header that was ever inserted, once, the standard ones before the others.
-/
namespace DriverHeader

/-- The headers of one origin, each where it comes first. -/
def firstOf (origin : HeaderOrigin) (headers : List Include) : List Include :=
  (headers.filter fun header => header.origin = origin).eraseDups

theorem mem_firstOf {origin : HeaderOrigin} {headers : List Include} {header : Include} :
    header ∈ firstOf origin headers ↔ header ∈ headers ∧ header.origin = origin := by
  simp [firstOf, List.mem_eraseDups]

theorem firstOf_concat (origin : HeaderOrigin) (headers : List Include) (header : Include) :
    firstOf origin (headers ++ [header]) =
      if header.origin = origin ∧ header ∉ headers then firstOf origin headers ++ [header]
      else firstOf origin headers := by
  unfold firstOf
  rw [List.filter_append]
  by_cases ho : header.origin = origin
  · have hone : [header].filter (fun h => h.origin = origin) = [header] := by simp [ho]
    have hmem : header ∈ headers.filter (fun h => h.origin = origin) ↔ header ∈ headers := by
      simp [ho]
    rw [hone, eraseDups_concat]
    by_cases hin : header ∈ headers
    · rw [if_pos (hmem.mpr hin), if_neg fun h => h.2 hin]
    · rw [if_neg (mt hmem.mp hin), if_pos ⟨ho, hin⟩]
  · have hnone : [header].filter (fun h => h.origin = origin) = [] := by simp [ho]
    rw [hnone, List.append_nil, if_neg fun h => ho h.1]

/-- Headers of one origin come in the order of their first insertion. -/
theorem pairwise_firstOf (origin : HeaderOrigin) (headers : List Include) :
    (firstOf origin headers).Pairwise fun a b => headers.idxOf a < headers.idxOf b := by
  induction headers using List.reverseRecOn with
  | nil => exact List.Pairwise.nil
  | append_singleton headers header ih =>
    -- a header that was there keeps its place, and the new one comes after all of them
    have hplace : ∀ {a}, a ∈ firstOf origin headers →
        (headers ++ [header]).idxOf a = headers.idxOf a := fun ha =>
      List.idxOf_append_of_mem (mem_firstOf.mp ha).1
    have hkept : (firstOf origin headers).Pairwise fun a b =>
        (headers ++ [header]).idxOf a < (headers ++ [header]).idxOf b :=
      ih.imp_of_mem fun ha hb hlt => by rwa [hplace ha, hplace hb]
    rw [firstOf_concat]
    split
    · next hnew =>
      refine List.pairwise_append.mpr ⟨hkept, List.pairwise_singleton _ _, fun a ha b hb => ?_⟩
      obtain rfl := List.mem_singleton.mp hb
      rw [hplace ha, List.idxOf_append_of_notMem hnew.2]
      exact Nat.lt_add_right _ (List.idxOf_lt_length_of_mem (mem_firstOf.mp ha).1)
    · exact hkept

theorem map_eraseDups {α β : Type} [BEq α] [LawfulBEq α] [BEq β] [LawfulBEq β] {f : α → β}
    (hf : ∀ a b, f a = f b → a = b) (l : List α) : l.eraseDups.map f = (l.map f).eraseDups := by
  induction l using List.reverseRecOn with
  | nil => rfl
  | append_singleton l a ih =>
    have hmem : f a ∈ l.map f ↔ a ∈ l := by
      rw [List.mem_map]
      exact ⟨fun ⟨b, hb, heq⟩ => hf b a heq ▸ hb, fun ha => ⟨a, ha, rfl⟩⟩
    rw [List.map_append, List.map_singleton, eraseDups_concat, eraseDups_concat, ← ih]
    by_cases ha : a ∈ l
    · rw [if_pos ha, if_pos (hmem.mpr ha)]
    · rw [if_neg ha, if_neg (mt hmem.mp ha), List.map_append, List.map_singleton]

theorem mem_pathsOf {header : Include} {headers : List Include} :
    header.path ∈ pathsOf header.origin headers ↔ header ∈ headers := by
  simp only [pathsOf, List.mem_map, List.mem_filter, decide_eq_true_eq]
  constructor
  · rintro ⟨⟨origin, path⟩, ⟨hmem, rfl⟩, rfl⟩
    exact hmem
  · exact fun hmem => ⟨header, ⟨hmem, rfl⟩, rfl⟩

theorem map_mk_pathsOf (origin : HeaderOrigin) (headers : List Include) :
    (pathsOf origin headers).map (Include.mk origin) =
      headers.filter fun header => header.origin = origin := by
  rw [pathsOf, List.map_map]
  refine (List.map_congr_left fun header hmem => ?_).trans (List.map_id _)
  obtain ⟨_, ho⟩ := List.mem_filter.mp hmem
  obtain rfl := of_decide_eq_true ho
  rfl

namespace IncludeSet

def answers (set : IncludeSet) : List Include → List Bool
  | [] => []
  | header :: headers => (set.insert header).1 :: (set.insert header).2.answers headers

variable {set : IncludeSet} {headers : List Include}

/-- A header is new if and only if it was not inserted before. -/
theorem Holds.insert_fst (h : set.Holds headers) (header : Include) :
    (set.insert header).1 = decide (header ∉ headers) := by
  have hmem : header.path ∈ set.paths header.origin ↔ header ∈ headers :=
    h.mem_paths.trans mem_pathsOf
  unfold IncludeSet.insert
  by_cases hin : header.path ∈ set.paths header.origin
  · rw [if_pos hin, decide_eq_false (not_not.mpr (hmem.mp hin))]
  · rw [if_neg hin, decide_eq_true (mt hmem.mpr hin)]

theorem Holds.answers (h : set.Holds headers) (more : List Include) (i : Nat) :
    (set.answers more)[i]? =
      more[i]?.map fun header => decide (header ∉ headers ++ more.take i) := by
  induction more generalizing set headers i with
  | nil => simp [IncludeSet.answers]
  | cons header more ih =>
    cases i with
    | zero => simp [IncludeSet.answers, h.insert_fst header]
    | succ i => simpa [IncludeSet.answers] using ih (h.insert header) i

theorem Holds.toList_eq (h : set.Holds headers) :
    set.toList = firstOf .standard headers ++ firstOf .generated headers := by
  have hgroup : ∀ origin, (set.paths origin).map (Include.mk origin) = firstOf origin headers := by
    intro origin
    rw [h origin, map_eraseDups fun _ _ heq => (Include.mk.inj heq).2, map_mk_pathsOf, firstOf]
  rw [← hgroup .standard, ← hgroup .generated]
  rfl

theorem Holds.mem_toList (h : set.Holds headers) {header : Include} :
    header ∈ set.toList ↔ header ∈ headers := by
  rw [h.toList_eq, List.mem_append, mem_firstOf, mem_firstOf, ← and_or_left]
  refine and_iff_left ?_
  cases header.origin with
  | standard => exact Or.inl rfl
  | generated => exact Or.inr rfl

theorem length_toList (set : IncludeSet) : set.toList.length = set.size := by
  rw [toList, List.length_append, List.length_map, List.length_map, size]

theorem Holds.size_eq_card (h : set.Holds headers) : set.size = headers.toFinset.card := by
  have hset : headers.toFinset = set.toList.toFinset := by
    ext header
    rw [List.mem_toFinset, List.mem_toFinset, h.mem_toList]
  rw [hset, List.toFinset_card_of_nodup h.nodup_toList, length_toList]

theorem Holds.isEmpty_iff (h : set.Holds headers) : set.isEmpty = true ↔ headers = [] := by
  rw [isEmpty, beq_iff_eq, ← length_toList, List.length_eq_zero_iff,
    List.eq_nil_iff_forall_not_mem, List.eq_nil_iff_forall_not_mem]
  simp only [h.mem_toList]

/-- After any run of insertions into an empty list: each of them has told whether its header had
not been inserted before; the list shows the standard headers and then the generated ones, all
that were inserted, in the order of first insertion and without repetition; its size is the number
of different headers, and it is empty only after no insertion; and its lines are distinct. -/
theorem insertions_keep_first_of_each (headers : List Include) :
    (∀ i, (empty.answers headers)[i]? =
      headers[i]?.map fun header => decide (header ∉ headers.take i)) ∧
    (empty.insertAll headers).toList =
      firstOf .standard headers ++ firstOf .generated headers ∧
    (∀ origin, (∀ header, header ∈ firstOf origin headers ↔
        header ∈ headers ∧ header.origin = origin) ∧
      (firstOf origin headers).Pairwise fun a b => headers.idxOf a < headers.idxOf b) ∧
    (empty.insertAll headers).toList.Nodup ∧
    (empty.insertAll headers).size = headers.toFinset.card ∧
    ((empty.insertAll headers).isEmpty = true ↔ headers = []) ∧
    (empty.insertAll headers).lines.Nodup := by
  have h : (empty.insertAll headers).Holds headers := holds_empty.insertAll headers
  refine ⟨holds_empty.answers headers, h.toList_eq, fun origin => ?_, h.nodup_toList,
    h.size_eq_card, h.isEmpty_iff, h.nodup_lines⟩
  exact ⟨fun _ => mem_firstOf, pairwise_firstOf origin headers⟩

end IncludeSet
end DriverHeader
