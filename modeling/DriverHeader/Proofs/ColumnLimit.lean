import DriverHeader.Proofs.SlotLayout

/-! # The column limit

A declaration is broken if it has parameters and its single line is wider than the limit, counted in
bytes. Breaking it makes every line narrower, though not always narrow enough: what is still too wide
is the head or a parameter, and neither is ever broken.
-/
namespace DriverHeader

theorem Text.byteLength_le_of_infix {s t : Text} (h : s <:+: t) : s.byteLength ≤ t.byteLength := by
  obtain ⟨before, after, rfl⟩ := h
  simp only [byteLength_append]
  omega

namespace Method

theorem newline_mem_slot_iff {method : Method} {owner indent : Text}
    (h : method.Unbroken owner indent) :
    '\n' ∈ method.slot owner indent ↔
      method.params ≠ [] ∧ lineWidth < (method.slotLine owner indent).byteLength := by
  rcases slot_cases h with ⟨hwhole, hno, _⟩ | ⟨hbroken, hwrapped, _⟩
  · refine iff_of_false hno ?_
    rintro ⟨hparams, hwidth⟩
    rcases hwhole with hnone | hfits
    · exact hparams hnone
    · omega
  · exact iff_of_true hwrapped hbroken

theorem line_cases {method : Method} {owner indent l : Text} (h : method.Unbroken owner indent)
    (hl : l ∈ (method.slot owner indent).splitOn '\n') :
    '\n' ∉ method.slot owner indent ∧ l = method.slotLine owner indent ∨
      '\n' ∈ method.slot owner indent ∧ (l = method.slotHead owner indent ++ "," ∨
        ∃ i p, method.params[i]? = some p ∧
          l = indent ++ tab ++ p.fragment ++ parameterEnd i method.params.length) := by
  rcases slot_cases h with ⟨_, hno, hslot⟩ | ⟨_, hwrapped, _⟩
  · rw [List.splitOn_eq_singleton hno, List.mem_singleton] at hl
    exact Or.inl ⟨hno, hl.trans hslot⟩
  · rw [splitOn_slot h hwrapped] at hl
    refine Or.inr ⟨hwrapped, ?_⟩
    rcases List.mem_cons.mp hl with hhead | hparam
    · exact Or.inl hhead
    · obtain ⟨i, hi, rfl⟩ := List.mem_mapIdx.mp hparam
      exact Or.inr ⟨i, method.params[i], List.getElem?_eq_getElem hi, rfl⟩

section Width
variable (method : Method) (owner indent : Text)

/-- The head of a declaration is the wider part: it begins with the indentation and goes on. -/
theorem byteLength_slotHead :
    indent.byteLength + 25 ≤ (method.slotHead owner indent).byteLength := by
  have hstatus : Text.byteLength "int32_t (*" = 10 := rfl
  have hself : Text.byteLength ")(struct " = 9 := rfl
  have hobject : Text.byteLength " *self" = 6 := rfl
  unfold slotHead
  simp only [Text.byteLength_append, hstatus, hself, hobject]
  omega

theorem byteLength_slotLine {p : Parameter} (hp : p ∈ method.params) :
    (method.slotHead owner indent).byteLength + p.fragment.byteLength + 4 ≤
      (method.slotLine owner indent).byteLength := by
  have hpiece := Text.byteLength_le_of_infix (fragment_infix_params hp)
  have hcomma : Text.byteLength ", " = 2 := rfl
  have hend : Text.byteLength ");" = 2 := rfl
  unfold slotLine slotWith
  simp only [Text.byteLength_append, hcomma, hend] at hpiece ⊢
  omega

theorem byteLength_parameterEnd (i count : Nat) : (parameterEnd i count).byteLength ≤ 2 := by
  unfold parameterEnd
  split <;> decide

end Width

variable {method : Method} {owner indent : Text}

theorem head_narrower (hparams : method.params ≠ []) :
    Text.byteLength (method.slotHead owner indent ++ ",") <
      (method.slotLine owner indent).byteLength := by
  obtain ⟨p, hp⟩ := List.exists_mem_of_ne_nil _ hparams
  have hline := byteLength_slotLine method owner indent hp
  have hcomma : Text.byteLength "," = 1 := rfl
  rw [Text.byteLength_append, hcomma]
  omega

theorem parameter_narrower {p : Parameter} (hp : p ∈ method.params) (i count : Nat) :
    Text.byteLength (indent ++ tab ++ p.fragment ++ parameterEnd i count) <
      (method.slotLine owner indent).byteLength := by
  have hhead := byteLength_slotHead method owner indent
  have hline := byteLength_slotLine method owner indent hp
  have hend := byteLength_parameterEnd i count
  have htab : tab.byteLength = 4 := rfl
  simp only [Text.byteLength_append, htab]
  omega

end Method

/-- A declaration breaks exactly if it can and its single line is too wide. Every line of it is then
narrower than the single one, and a line that is too wide all the same is one that is not broken: a
declaration without parameters, a head, or a single parameter. -/
theorem column_limit_policy {method : Method} {owner indent : Text}
    (h : method.Unbroken owner indent) :
    ('\n' ∈ method.slot owner indent ↔
      method.params ≠ [] ∧ 120 < (method.slotLine owner indent).byteLength) ∧
    ('\n' ∈ method.slot owner indent → ∀ l ∈ (method.slot owner indent).splitOn '\n',
      Text.byteLength l < (method.slotLine owner indent).byteLength) ∧
    ∀ l ∈ (method.slot owner indent).splitOn '\n', 120 < Text.byteLength l →
      method.params = [] ∧ l = method.slotHead owner indent ++ ");" ∨
      method.params ≠ [] ∧ l = method.slotHead owner indent ++ "," ∨
      ∃ i p, method.params[i]? = some p ∧
        l = indent ++ tab ++ p.fragment ++ parameterEnd i method.params.length := by
  have hbreaks := Method.newline_mem_slot_iff h
  refine ⟨hbreaks, fun hwrapped l hl => ?_, fun l hl hwide => ?_⟩
  · rcases Method.line_cases h hl with ⟨hno, _⟩ | ⟨_, rfl | ⟨i, p, hp, rfl⟩⟩
    · exact absurd hwrapped hno
    · exact Method.head_narrower (hbreaks.mp hwrapped).1
    · exact Method.parameter_narrower (List.mem_of_getElem? hp) i _
  · rcases Method.line_cases h hl with ⟨hno, rfl⟩ | ⟨hwrapped, hhead | hparam⟩
    · -- the line is too wide, so nothing but a lack of parameters can have kept it whole
      have hparams : method.params = [] :=
        Decidable.byContradiction fun hparams => hno (hbreaks.mpr ⟨hparams, hwide⟩)
      refine Or.inl ⟨hparams, ?_⟩
      rw [Method.slotLine, Method.slotWith, hparams, List.flatMap_nil, List.append_nil]
    · exact Or.inr (Or.inl ⟨(hbreaks.mp hwrapped).1, hhead⟩)
    · exact Or.inr (Or.inr hparam)

/-- A method whose name takes two bytes for each character. -/
def scaleMethod (count : Nat) : Method :=
  { name := List.replicate count 'ß', params := [⟨"rate", .input, .scalar .int⟩] }

/-- The 86 characters of a single line take 121 bytes, so it is broken; with a longer name the head
alone is too wide. -/
theorem scaleMethod_lines :
    ('\n' ∈ (scaleMethod 35).slot "IScale" tab ∧
      ∀ l ∈ ((scaleMethod 35).slot "IScale" tab).splitOn '\n', Text.byteLength l < 121) ∧
    ∀ l ∈ ((scaleMethod 50).slot "IScale" tab).splitOn '\n', 120 < Text.byteLength l →
      l = (scaleMethod 50).slotHead "IScale" tab ++ "," := by
  obtain ⟨hbreaks, hnarrower, _⟩ := column_limit_policy
    (show (scaleMethod 35).Unbroken "IScale" tab from ⟨by decide +kernel, by decide⟩)
  have hwidth : ((scaleMethod 35).slotLine "IScale" tab).byteLength = 121 := by decide +kernel
  have hwrapped := hbreaks.mpr ⟨by decide, by omega⟩
  refine ⟨⟨hwrapped, fun l hl => hwidth ▸ hnarrower hwrapped l hl⟩, fun l hl hwide => ?_⟩
  obtain ⟨_, _, hunbreakable⟩ := column_limit_policy
    (show (scaleMethod 50).Unbroken "IScale" tab from ⟨by decide +kernel, by decide⟩)
  rcases hunbreakable l hl hwide with ⟨hparams, _⟩ | ⟨_, hhead⟩ | ⟨i, p, hp, rfl⟩
  · cases hparams
  · exact hhead
  · cases i with
    | zero =>
      cases hp
      exact absurd hwide (by decide +kernel)
    | succ i => cases hp

end DriverHeader
