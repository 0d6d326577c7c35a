import DriverHeader.Header

/-! # Include lists hold every header once

After any run of insertions each group holds the paths inserted under its origin, once each and in
the order of their first insertion. The lines of a list are therefore distinct, standard headers
first.
-/
namespace DriverHeader

def pathsOf (origin : HeaderOrigin) (headers : List Include) : List Text :=
  (headers.filter fun header => header.origin = origin).map Include.path

theorem pathsOf_append (origin : HeaderOrigin) (headers headers' : List Include) :
    pathsOf origin (headers ++ headers') = pathsOf origin headers ++ pathsOf origin headers' := by
  simp [pathsOf]

theorem pathsOf_map_mk (origin : HeaderOrigin) (paths : List Text) :
    pathsOf origin (paths.map (Include.mk origin)) = paths := by
  induction paths with
  | nil => rfl
  | cons path paths ih => simpa [pathsOf] using ih

theorem pathsOf_map_mk_of_ne {origin origin' : HeaderOrigin} (h : origin' ≠ origin)
    (paths : List Text) : pathsOf origin (paths.map (Include.mk origin')) = [] := by
  simp [pathsOf, h]

section

variable {α : Type} [BEq α] [LawfulBEq α]

theorem eraseDups_concat (l : List α) (a : α) :
    (l ++ [a]).eraseDups = if a ∈ l then l.eraseDups else l.eraseDups ++ [a] := by
  rw [List.eraseDups_append]
  split
  · next h => simp [List.removeAll, h]
  · next h => simp [List.removeAll, h, List.eraseDups_cons]

theorem nodup_eraseDups (l : List α) : l.eraseDups.Nodup := by
  -- from the right: the last element is kept only where it is not among the earlier ones
  suffices h : ∀ l : List α, l.reverse.eraseDups.Nodup by
    simpa using h l.reverse
  intro l
  induction l with
  | nil => simp
  | cons a l ih =>
    rw [List.reverse_cons, eraseDups_concat]
    split
    · exact ih
    · next h =>
      rw [List.nodup_append]
      refine ⟨ih, by simp, ?_⟩
      intro b hb c hc hbc
      obtain rfl : c = a := by simpa using hc
      exact h (List.mem_eraseDups.mp (hbc ▸ hb))

end

namespace IncludeSet

def Holds (set : IncludeSet) (headers : List Include) : Prop :=
  ∀ origin, set.paths origin = (pathsOf origin headers).eraseDups

theorem holds_empty : empty.Holds [] := by
  intro origin
  cases origin <;> rfl

theorem Holds.mem_paths {set : IncludeSet} {headers : List Include} (h : set.Holds headers)
    {origin : HeaderOrigin} {path : Text} :
    path ∈ set.paths origin ↔ path ∈ pathsOf origin headers := by
  rw [h origin, List.mem_eraseDups]

theorem Holds.insert {set : IncludeSet} {headers : List Include} (h : set.Holds headers)
    (header : Include) : (set.insert header).2.Holds (headers ++ [header]) := by
  intro origin
  rw [pathsOf_append]
  by_cases ho : header.origin = origin
  · subst ho
    have hone : pathsOf header.origin [header] = [header.path] := by simp [pathsOf]
    rw [hone, eraseDups_concat, ← h header.origin]
    unfold IncludeSet.insert
    by_cases hin : header.path ∈ set.paths header.origin
    · rw [if_pos hin, if_pos (h.mem_paths.mp hin)]
    · rw [if_neg hin, if_neg (mt h.mem_paths.mpr hin)]
      cases hh : header.origin <;> rfl
  · have hnone : pathsOf origin [header] = [] := by simp [pathsOf, ho]
    rw [hnone, List.append_nil, ← h origin]
    unfold IncludeSet.insert
    split
    · rfl
    · cases hh : header.origin <;> cases origin <;> first | rfl | exact absurd hh ho

theorem Holds.insertAll {set : IncludeSet} {headers : List Include} (h : set.Holds headers)
    (more : List Include) : (set.insertAll more).Holds (headers ++ more) := by
  induction more generalizing set headers with
  | nil => simpa [IncludeSet.insertAll] using h
  | cons header more ih =>
    have hstep := ih (h.insert header)
    rw [List.append_assoc] at hstep
    exact hstep

end IncludeSet

namespace Include

theorem line_standard (path : Text) :
    line ⟨.standard, path⟩ = "#include <" ++ path ++ ".h>" := rfl

theorem line_generated (path : Text) :
    line ⟨.generated, path⟩ = "#include \"" ++ path ++ ".h\"" := rfl

theorem line_standard_ne_generated (p q : Text) : line ⟨.standard, p⟩ ≠ line ⟨.generated, q⟩ := by
  intro h
  rw [line_standard, line_generated] at h
  simp only [String.reduceToList, List.cons_append, List.cons.injEq] at h
  -- the tenth character tells the two kinds apart
  exact absurd h.2.2.2.2.2.2.2.2.2.1 (by decide)

theorem line_injective {a b : Include} (h : a.line = b.line) : a = b := by
  rcases a with ⟨_ | _, p⟩ <;> rcases b with ⟨_ | _, q⟩
  · exact congrArg _ (List.append_cancel_left (List.append_cancel_right h))
  · exact absurd h (line_standard_ne_generated p q)
  · exact absurd h.symm (line_standard_ne_generated q p)
  · exact congrArg _ (List.append_cancel_left (List.append_cancel_right h))

end Include

namespace IncludeSet

theorem Holds.nodup_toList {set : IncludeSet} {headers : List Include} (h : set.Holds headers) :
    set.toList.Nodup := by
  have hgroup : ∀ origin, ((set.paths origin).map (Include.mk origin)).Nodup := by
    intro origin
    rw [h origin]
    exact List.pairwise_map.mpr ((nodup_eraseDups _).imp fun hne heq => hne (Include.mk.inj heq).2)
  rw [toList, List.nodup_append]
  refine ⟨hgroup .standard, hgroup .generated, ?_⟩
  intro a ha b hb hab
  obtain ⟨p, _, rfl⟩ := List.mem_map.mp ha
  obtain ⟨q, _, rfl⟩ := List.mem_map.mp hb
  cases hab

theorem Holds.nodup_lines {set : IncludeSet} {headers : List Include} (h : set.Holds headers) :
    set.lines.Nodup :=
  List.pairwise_map.mpr (h.nodup_toList.imp fun hne heq => hne (Include.line_injective heq))

end IncludeSet

namespace Header

theorem includes_holds (imports : List Text) (target : Target) :
    (includes imports target).Holds
      ((imports.map fileStem).map (Include.mk .generated) ++ standardIncludes target) := by
  have h := IncludeSet.holds_empty.insertAll
    ((imports.map fileStem).map (Include.mk .generated) ++ standardIncludes target)
  rw [List.map_map, List.nil_append] at h
  rw [List.map_map]
  exact h

theorem includes_generated (imports : List Text) (target : Target) :
    (includes imports target).generated = (imports.map fileStem).eraseDups := by
  have h := includes_holds imports target .generated
  have hstandard : pathsOf .generated (standardIncludes target) = [] := by cases target <;> rfl
  rw [pathsOf_append, pathsOf_map_mk, hstandard, List.append_nil] at h
  exact h

theorem includes_standard (imports : List Text) (target : Target) :
    (includes imports target).standard = pathsOf .standard (standardIncludes target) := by
  have h := includes_holds imports target .standard
  rw [pathsOf_append, pathsOf_map_mk_of_ne (by decide), List.nil_append] at h
  cases target <;> exact h

theorem includes_lines_inj {imports imports' : List Text} {target : Target} :
    (includes imports target).lines = (includes imports' target).lines ↔
      (imports.map fileStem).eraseDups = (imports'.map fileStem).eraseDups := by
  have hstandard : (includes imports target).standard = (includes imports' target).standard := by
    rw [includes_standard, includes_standard]
  rw [← includes_generated imports target, ← includes_generated imports' target, IncludeSet.lines,
    IncludeSet.lines, List.map_inj_right fun _ _ => Include.line_injective, IncludeSet.toList,
    IncludeSet.toList, hstandard, List.append_cancel_left_eq,
    List.map_inj_right fun _ _ heq => (Include.mk.inj heq).2]

theorem nodup_includes_lines (imports : List Text) (target : Target) :
    (includes imports target).lines.Nodup :=
  (includes_holds imports target).nodup_lines

end Header
end DriverHeader
