import DriverHeader.Proofs.SelfDelimiting

/-! # What is read fits below the limit

A reader gives up one level of its budget for every bracket on the way, and a type needs no more
brackets in its compact form than in the text it was read from. What is read from any text therefore
lies within the limit when it is written again, and is read back.
-/
namespace DriverHeader.Json

structure Yields (read : Reader α) (P : α → Prop) : Prop where
  holds : ∀ {s rest : Text} {value : α}, read s = .ok (value, rest) → P value

theorem yields_true (read : Reader α) : Yields read fun _ => True := ⟨fun _ => trivial⟩

theorem Yields.map {read : Reader α} {P : α → Prop} (h : Yields read P) {Q : β → Prop} {f : α → β}
    (hf : ∀ a, P a → Q (f a)) : Yields (fun s => (read s).map fun p => (f p.1, p.2)) Q := by
  refine ⟨fun {s rest value} hread => ?_⟩
  obtain ⟨⟨a, rest'⟩, ha, heq⟩ := map_eq_ok.mp hread
  cases heq
  exact hf a (h.holds ha)

theorem Yields.readOptional {read : Reader α} {P : α → Prop} (h : Yields read P) :
    Yields (readOptional read) fun value => ∀ a ∈ value, P a := by
  refine ⟨fun {s rest value} hread => ?_⟩
  unfold Json.readOptional at hread
  split at hread
  · obtain ⟨after, _, heq⟩ := map_eq_ok.mp hread
    cases heq
    exact nofun
  · obtain ⟨⟨a, after⟩, ha, heq⟩ := map_eq_ok.mp hread
    cases heq
    rintro _ ⟨⟩
    exact h.holds ha

theorem Yields.readElements {read : Reader α} {P : α → Prop} (h : Yields read P) (fuel : Nat)
    (first : Bool) : Yields (readElements read fuel first) fun values => ∀ a ∈ values, P a := by
  refine ⟨fun {s rest values} hread => ?_⟩
  induction fuel generalizing first s values with
  | zero => cases hread
  | succ fuel ih =>
    obtain ⟨⟨more, after⟩, _, hread⟩ := bind_eq_ok.mp hread
    cases more with
    | false =>
      cases hread
      exact nofun
    | true =>
      obtain ⟨⟨element, s₁⟩, helement, hread⟩ := bind_eq_ok.mp hread
      obtain ⟨⟨elements, s₂⟩, helements, hread⟩ := bind_eq_ok.mp hread
      cases hread
      exact List.forall_mem_cons.mpr ⟨h.holds helement, ih false helements⟩

theorem Yields.readList {read : Nat → Reader α} {P : α → Prop} {budget : Nat}
    (h : Yields (read budget) P) :
    Yields (readList read (budget + 1)) fun values => ∀ a ∈ values, P a := by
  refine ⟨fun {s rest values} hread => ?_⟩
  unfold Json.readList at hread
  split at hread
  · cases hread
  · exact (h.readElements _ true).holds hread
  · exact absurd hread (mismatch_ne_ok _ _ _)

theorem Field.yields_of {name : Text} {get : δ → Option β} {set : δ → β → δ}
    {read : Nat → Reader β} {P : β → Prop} {Q : δ → Prop} {budget : Nat} {draft : δ}
    (h : Yields (read budget) P) (hset : ∀ value, P value → Q (set draft value)) :
    Yields ((Field.of name get set read).read budget draft) Q :=
  h.map hset

namespace Record

section

variable {record : Record δ α} {budget : Nat} {Q : δ → Prop}
  (hfields : ∀ field ∈ record.fields, ∀ draft, Q draft → Yields (field.read budget draft) Q)
include hfields

theorem yields_readEntry {draft : δ} (hdraft : Q draft) (key : Text) :
    Yields (record.readEntry budget draft key) Q := by
  refine ⟨fun {s rest draft'} hread => ?_⟩
  unfold readEntry at hread
  split at hread
  · next field hfind =>
    split at hread
    · cases hread
    · obtain ⟨after, _, hvalue⟩ := bind_eq_ok.mp hread
      exact (hfields field (List.mem_of_find?_eq_some hfind) draft hdraft).holds hvalue
  · obtain ⟨after, _, heq⟩ := bind_eq_ok.mp hread
    cases heq
    exact hdraft

theorem yields_readEntries (fuel : Nat) (first : Bool) {draft : δ} (hdraft : Q draft) :
    Yields (record.readEntries budget fuel first draft) Q := by
  refine ⟨fun {s rest draft'} hread => ?_⟩
  induction fuel generalizing first draft s with
  | zero => cases hread
  | succ fuel ih =>
    obtain ⟨⟨key?, after⟩, _, hread⟩ := bind_eq_ok.mp hread
    cases key? with
    | none =>
      cases hread
      exact hdraft
    | some key =>
      obtain ⟨⟨draft₁, s₁⟩, hentry, hread⟩ := bind_eq_ok.mp hread
      exact ih false ((yields_readEntry hfields hdraft key).holds hentry) hread

theorem readFields_draft {fields : List (Field δ)} (hsub : fields ⊆ record.fields) {count : Nat}
    {draft : δ} (hdraft : Q draft) {s rest : Text} {value : α}
    (hread : record.readFields budget fields count draft s = .ok (value, rest)) :
    ∃ draft', Q draft' ∧ record.complete draft' = .ok value := by
  induction fields generalizing count draft s with
  | nil =>
    rw [readFields] at hread
    split at hread
    · next hvalue =>
      obtain ⟨after, _, heq⟩ := bind_eq_ok.mp hread
      cases heq
      exact ⟨draft, hdraft, hvalue⟩
    · cases hread
  | cons field fields ih =>
    obtain ⟨⟨more, after⟩, _, hread⟩ := bind_eq_ok.mp hread
    cases more with
    | false =>
      dsimp only at hread
      split at hread
      · next hvalue =>
        cases hread
        exact ⟨draft, hdraft, hvalue⟩
      · cases hread
    | true =>
      obtain ⟨⟨draft₁, s₁⟩, hfield, hread⟩ := bind_eq_ok.mp hread
      have hdraft₁ := (hfields field (hsub List.mem_cons_self) draft hdraft).holds hfield
      exact ih (fun f hf => hsub (List.mem_cons_of_mem _ hf)) hdraft₁ hread

/-- A record is completed from a draft that only its fields have changed. -/
theorem yields_read {P : α → Prop} (hblank : Q record.blank)
    (hcomplete : ∀ draft value, Q draft → record.complete draft = .ok value → P value) :
    Yields (record.read (budget + 1)) P := by
  refine ⟨fun {s rest value} hread => ?_⟩
  unfold Record.read at hread
  split at hread
  · cases hread
  · obtain ⟨⟨draft, after⟩, hentries, hread⟩ := bind_eq_ok.mp hread
    have hdraft := (yields_readEntries hfields _ true hblank).holds hentries
    dsimp only at hread
    split at hread
    · next hvalue =>
      cases hread
      exact hcomplete draft value hdraft hvalue
    · cases hread
  · obtain ⟨draft, hdraft, hvalue⟩ := readFields_draft hfields (List.Subset.refl _) hblank hread
    exact hcomplete draft value hdraft hvalue
  · exact absurd hread (mismatch_ne_ok _ _ _)

end
end Record

/-- What a property of the values with a given budget has to satisfy for the content of a variant. -/
def Content.Respects (P : Nat → α → Prop) : Content α → Prop
  | .nothing value => ∀ budget, P budget value
  | .text make => ∀ budget text, P (budget + 1) (make text)
  | .nested make => ∀ budget value, P budget value → P (budget + 1) (make value)

namespace Variant

variable {variants : List (Variant α)} {P : Nat → α → Prop}

theorem mem_of_select {word : Text} {variant : Variant α}
    (h : select variants word = .ok variant) : variant ∈ variants := by
  unfold select at h
  split at h
  · next hfind =>
    cases h
    exact List.mem_of_find?_eq_some hfind
  · cases h

theorem yields_readContent {nested : Reader α} {budget : Nat} (hnested : Yields nested (P budget))
    {content : Content α} (hcontent : content.Respects P) :
    Yields (readContent nested content) (P (budget + 1)) := by
  cases content with
  | nothing value =>
    refine ⟨fun {s rest value'} hread => ?_⟩
    obtain ⟨after, _, heq⟩ := map_eq_ok.mp hread
    cases heq
    exact hcontent (budget + 1)
  | text make => exact (yields_true readText).map fun text _ => hcontent budget text
  | nested make => exact hnested.map (hcontent budget)

theorem yields_readObject (h : ∀ variant ∈ variants, variant.content.Respects P)
    {nested : Reader α} {budget : Nat} (hnested : Yields nested (P budget)) :
    Yields (readObject variants nested) (P (budget + 1)) := by
  refine ⟨fun {s rest value} hread => ?_⟩
  obtain ⟨⟨word, s₁⟩, _, hread⟩ := bind_eq_ok.mp hread
  obtain ⟨variant, hvariant, hread⟩ := bind_eq_ok.mp hread
  obtain ⟨⟨value', s₂⟩, hvalue, hread⟩ := bind_eq_ok.mp hread
  obtain ⟨s₃, _, hread⟩ := bind_eq_ok.mp hread
  cases hread
  obtain ⟨s₁', _, hcontent⟩ := bind_eq_ok.mp hvalue
  exact (yields_readContent hnested (h variant (mem_of_select hvariant))).holds hcontent

theorem yields_readWord (h : ∀ variant ∈ variants, variant.content.Respects P) (budget : Nat) :
    Yields (readWord variants) (P budget) := by
  refine ⟨fun {s rest value} hread => ?_⟩
  obtain ⟨⟨word, s₁⟩, _, hread⟩ := bind_eq_ok.mp hread
  obtain ⟨variant, hvariant, hread⟩ := bind_eq_ok.mp hread
  have hrespects := h variant (mem_of_select hvariant)
  split at hread
  · next hcontent =>
    cases hread
    rw [hcontent] at hrespects
    exact hrespects budget
  · cases hread

theorem yields_read (h : ∀ variant ∈ variants, variant.content.Respects P) (budget : Nat) :
    Yields (Variant.read variants budget) (P budget) := by
  induction budget with
  | zero =>
    refine ⟨fun {s rest value} hread => ?_⟩
    rw [Variant.read] at hread
    split at hread
    · cases hread
    · exact (yields_readWord h 0).holds hread
    · cases hread
    · cases hread
  | succ budget ih =>
    refine ⟨fun {s rest value} hread => ?_⟩
    rw [Variant.read] at hread
    split at hread
    · cases hread
    · exact (yields_readWord h (budget + 1)).holds hread
    · exact (yields_readObject h ih).holds hread
    · cases hread

end Variant
end DriverHeader.Json

namespace DriverHeader

open Json

theorem required_eq_ok {name : Text} {given : Option α} {value : α} :
    required name given = .ok value ↔ given = some value := by
  cases given with
  | none => exact ⟨nofun, nofun⟩
  | some a => simp [required]

theorem exists_mem_of_mem_getD {given : Option (List α)} {a : α} (h : a ∈ given.getD []) :
    ∃ values ∈ given, a ∈ values := by
  cases given with
  | none => simp at h
  | some values => exact ⟨values, rfl, h⟩

/-- A type has no more levels than the brackets it was read from. -/
theorem DataType.yields_depth (budget : Nat) :
    Yields (DataType.read budget) fun type => type.depth ≤ budget := by
  have hvariants : ∀ variant ∈ variants,
      variant.content.Respects fun budget type => type.depth ≤ budget := by
    have hnothing : ∀ type : DataType, type.depth = 0 → ∀ budget, type.depth ≤ budget :=
      fun type htype budget => htype ▸ Nat.zero_le budget
    have hnamed : ∀ reference budget name, (named reference name).depth ≤ budget + 1 :=
      fun _ budget _ => Nat.succ_le_succ (Nat.zero_le budget)
    have hsequence : ∀ shape budget (element : DataType), element.depth ≤ budget →
        (sequence shape element).depth ≤ budget + 1 := fun _ _ _ h => Nat.succ_le_succ h
    unfold variants
    simp only [List.forall_mem_append, List.forall_mem_map, List.forall_mem_cons]
    exact ⟨fun s _ => hnothing (scalar s) rfl, hnothing string rfl, hnothing pointer rfl,
      hnamed .enum, hnamed .struct, hnamed .union, hsequence .array, hsequence .list,
      hnamed .interface, hnothing remoteService rfl, nofun⟩
  exact Variant.yields_read hvariants budget

theorem Parameter.yields_depth (budget : Nat) :
    Yields (Parameter.read (budget + 1)) fun parameter => parameter.type.depth ≤ budget := by
  let fits (draft : Draft) : Prop := ∀ type ∈ draft.type, type.depth ≤ budget
  refine Record.yields_read (Q := fits) ?_ nofun ?_
  · unfold record
    simp only [List.forall_mem_cons]
    refine ⟨fun draft h => Field.yields_of (yields_true _) fun _ _ => h,
      fun draft h => Field.yields_of (yields_true _) fun _ _ => h,
      fun draft _ => Field.yields_of (DataType.yields_depth budget) ?_, nofun⟩
    rintro type htype _ ⟨⟩
    exact htype
  · intro draft parameter hdraft hcomplete
    obtain ⟨name, _, hcomplete⟩ := bind_eq_ok.mp hcomplete
    obtain ⟨direction, _, hcomplete⟩ := bind_eq_ok.mp hcomplete
    obtain ⟨type, htype, hcomplete⟩ := bind_eq_ok.mp hcomplete
    cases hcomplete
    exact hdraft type (required_eq_ok.mp htype)

theorem Method.yields_depth (budget : Nat) :
    Yields (Method.read (budget + 3)) fun method => ∀ p ∈ method.params, p.type.depth ≤ budget := by
  let fits (draft : Draft) : Prop := ∀ params ∈ draft.params, ∀ p ∈ params, p.type.depth ≤ budget
  refine Record.yields_read (Q := fits) ?_ nofun ?_
  · unfold record
    simp only [List.forall_mem_cons]
    refine ⟨fun draft h => Field.yields_of (yields_true _) fun _ _ => h,
      fun draft _ => Field.yields_of (Parameter.yields_depth budget).readList ?_, nofun⟩
    rintro params hparams _ ⟨⟩
    exact hparams
  · intro draft method hdraft hcomplete
    obtain ⟨name, _, hcomplete⟩ := bind_eq_ok.mp hcomplete
    cases hcomplete
    intro p hp
    obtain ⟨params, hparams, hmem⟩ := exists_mem_of_mem_getD hp
    exact hdraft params hparams p hmem

theorem Interface.yields_depth (budget : Nat) :
    Yields (Interface.read (budget + 5)) fun interface =>
      ∀ type ∈ interface.parameterTypes, type.depth ≤ budget := by
  let fits (draft : Draft) : Prop :=
    ∀ methods ∈ draft.methods, ∀ m ∈ methods, ∀ p ∈ m.params, p.type.depth ≤ budget
  refine Record.yields_read (Q := fits) ?_ nofun ?_
  · unfold record
    simp only [List.forall_mem_cons]
    refine ⟨fun draft h => Field.yields_of (yields_true _) fun _ _ => h,
      fun draft h => Field.yields_of (yields_true _) fun _ _ => h,
      fun draft h => Field.yields_of (yields_true _) fun _ _ => h,
      fun draft h => Field.yields_of (yields_true _) fun _ _ => h,
      fun draft _ => Field.yields_of (Method.yields_depth budget).readList ?_, nofun⟩
    rintro methods hmethods _ ⟨⟩
    exact hmethods
  · intro draft interface hdraft hcomplete
    obtain ⟨package, _, hcomplete⟩ := bind_eq_ok.mp hcomplete
    obtain ⟨name, _, hcomplete⟩ := bind_eq_ok.mp hcomplete
    obtain ⟨version, _, hcomplete⟩ := bind_eq_ok.mp hcomplete
    cases hcomplete
    rw [forall_parameterTypes]
    intro m hm
    obtain ⟨methods, hmethods, hmem⟩ := exists_mem_of_mem_getD hm
    exact hdraft methods hmethods m hmem

namespace Document

theorem yields_depth (budget : Nat) :
    Yields (Document.read (budget + 6)) fun document =>
      ∀ type ∈ document.parameterTypes, type.depth ≤ budget := by
  let fits (draft : Draft) : Prop :=
    ∀ given ∈ draft.interface, ∀ i ∈ given, ∀ type ∈ i.parameterTypes, type.depth ≤ budget
  refine Record.yields_read (Q := fits) ?_ nofun ?_
  · unfold record
    simp only [List.forall_mem_cons]
    refine ⟨fun draft h => Field.yields_of (yields_true _) fun _ _ => h,
      fun draft h => Field.yields_of (yields_true _) fun _ _ => h,
      fun draft h => Field.yields_of (yields_true _) fun _ _ => h,
      fun draft _ => Field.yields_of (Interface.yields_depth budget).readOptional ?_, nofun⟩
    rintro given hgiven _ ⟨⟩
    exact hgiven
  · intro draft document hdraft hcomplete
    obtain ⟨kind, _, hcomplete⟩ := bind_eq_ok.mp hcomplete
    cases hcomplete
    rw [forall_parameterTypes]
    intro i hi
    cases hgiven : draft.interface with
    | none => simp [hgiven] at hi
    | some given => exact hdraft given hgiven i (by simpa [hgiven] using hi)

/-- What was read from any text is read back from its compact form: writing out the fields that the
text left to their defaults never takes it beyond the limit. -/
theorem parse_print_of_parse {s : Text} {document : Document} (h : parse s = .ok document) :
    (∀ type ∈ document.parameterTypes, type.depth + 6 ≤ nestingLimit) ∧
    parse document.print = .ok document := by
  obtain ⟨rest, hread, _⟩ := parse_eq_ok.mp h
  have hdepth : ∀ type ∈ document.parameterTypes, type.depth ≤ 121 :=
    (yields_depth 121).holds hread
  have hback := (document.read_print 121).ok hdepth [] delimited_nil
  rw [List.append_nil] at hback
  exact ⟨fun type htype => Nat.add_le_add_right (hdepth type htype) 6,
    parse_eq_ok.mpr ⟨[], hback, rfl⟩⟩

end Document

theorem clockText_parse_print :
    Document.parse clockText = .ok clockDocument ∧ clockText ≠ clockDocument.print ∧
      Document.parse clockDocument.print = .ok clockDocument :=
  ⟨parse_clockText, by decide +kernel, (Document.parse_print_of_parse parse_clockText).2⟩

end DriverHeader
