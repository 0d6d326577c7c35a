import DriverHeader.Proofs.CName
import DriverHeader.Proofs.HeaderLines

/-! # One declaration in two layouts

A declaration stands on one line, or on a line for its head and one for each parameter. As long as
no name breaks a line itself, the two layouts are the same text up to what stands between the
parameters: the line breaks can be found again, since nothing else holds a line feed.
-/
namespace DriverHeader

namespace Text

/-- A text with the occurrences of a pattern replaced from left to right. The first characters may
still belong to an occurrence before them. -/
def replaceFrom (pattern replacement : Text) : Nat → Text → Text
  | _, [] => []
  | covered + 1, _ :: rest => replaceFrom pattern replacement covered rest
  | 0, c :: rest =>
    if pattern.isPrefixOf (c :: rest) then
      replacement ++ replaceFrom pattern replacement (pattern.length - 1) rest
    else c :: replaceFrom pattern replacement 0 rest

def replaceAll (pattern replacement t : Text) : Text := replaceFrom pattern replacement 0 t

example : replaceAll "aba" "-" "ababacaba" = "-bac-" := by decide

theorem replaceFrom_length_append (pattern replacement covered rest : Text) :
    replaceFrom pattern replacement covered.length (covered ++ rest) =
      replaceAll pattern replacement rest := by
  induction covered with
  | nil => rfl
  | cons c covered ih => exact ih

theorem replaceAll_pattern_append (c : Char) (pattern replacement rest : Text) :
    replaceAll (c :: pattern) replacement (c :: pattern ++ rest) =
      replacement ++ replaceAll (c :: pattern) replacement rest := by
  have hprefix : (c :: pattern).isPrefixOf (c :: (pattern ++ rest)) = true :=
    List.isPrefixOf_iff_prefix.mpr (List.prefix_append (c :: pattern) rest)
  rw [List.cons_append, replaceAll, replaceFrom, if_pos hprefix, List.length_cons,
    Nat.add_sub_cancel, replaceFrom_length_append]

section Marked

-- a pattern whose second character stands nowhere else in the text
variable {c mark : Char} (pattern replacement : Text)

theorem replaceAll_append_of_not_mem {front rest : Text} (hfront : mark ∉ front)
    (hrest : rest.head? ≠ some mark) :
    replaceAll (c :: mark :: pattern) replacement (front ++ rest) =
      front ++ replaceAll (c :: mark :: pattern) replacement rest := by
  induction front with
  | nil => rfl
  | cons d front ih =>
    have hfront' := List.not_mem_of_not_mem_cons hfront
    have hhead : (front ++ rest).head? ≠ some mark := by
      cases front with
      | nil => exact hrest
      | cons e front => exact fun h => hfront' (Option.some.inj h ▸ List.mem_cons_self)
    have hno : (c :: mark :: pattern).isPrefixOf (d :: (front ++ rest)) = false := by
      rw [Bool.eq_false_iff, ne_eq, List.isPrefixOf_iff_prefix, List.cons_prefix_cons]
      rintro ⟨_, tail, htail⟩
      exact hhead (by rw [← htail]; rfl)
    rw [List.cons_append, List.cons_append, replaceAll, replaceFrom, hno, if_neg Bool.false_ne_true]
    exact congrArg (d :: ·) (ih hfront')

theorem replaceAll_separated (hc : c ≠ mark) {ending : Text} (hending : mark ∉ ending)
    {front : Text} (hfront : mark ∉ front) {pieces : List Text}
    (hpieces : ∀ piece ∈ pieces, mark ∉ piece) :
    replaceAll (c :: mark :: pattern) replacement
        (front ++ pieces.flatMap (c :: mark :: pattern ++ ·) ++ ending) =
      front ++ pieces.flatMap (replacement ++ ·) ++ ending := by
  -- the front grows into the next piece, so it is the text since the last occurrence
  induction pieces generalizing front with
  | nil =>
    have hwhole : replaceAll (c :: mark :: pattern) replacement (front ++ ending ++ []) =
        front ++ ending ++ [] :=
      replaceAll_append_of_not_mem pattern replacement (List.not_mem_append hfront hending) (by simp)
    simpa using hwhole
  | cons piece pieces ih =>
    have hrest := ih (hpieces piece List.mem_cons_self)
      fun p hp => hpieces p (List.mem_cons_of_mem _ hp)
    have hsplit : front ++ (piece :: pieces).flatMap (c :: mark :: pattern ++ ·) ++ ending =
        front ++ (c :: (mark :: pattern)
          ++ (piece ++ pieces.flatMap (c :: mark :: pattern ++ ·) ++ ending)) := by
      simp only [List.flatMap_cons, List.append_assoc]
    rw [hsplit, replaceAll_append_of_not_mem _ _ hfront (by simpa using hc), replaceAll_pattern_append,
      hrest]
    simp only [List.flatMap_cons, List.append_assoc]

end Marked

end Text

def parameterEnd (i count : Nat) : Text := if i + 1 = count then ");" else ","

theorem wrapped_eq_mapIdx (gap head : Text) {params : List Parameter} (h : params ≠ []) :
    wrapped gap head (params.map Parameter.fragment) =
      (head ++ ",") :: params.mapIdx fun i p =>
        gap ++ p.fragment ++ parameterEnd i params.length := by
  induction params generalizing head with
  | nil => exact absurd rfl h
  | cons p params ih =>
    cases params with
    | nil => rfl
    | cons next params =>
      have hend : ∀ i, parameterEnd (i + 1) (p :: next :: params).length =
          parameterEnd i (next :: params).length := by
        intro i
        simp [parameterEnd]
      have hfirst : parameterEnd 0 (p :: next :: params).length = "," := by simp [parameterEnd]
      rw [List.map_cons, wrapped, List.mapIdx_cons, ih _ (List.cons_ne_nil _ _)]
      simp only [hend, hfirst]

theorem newline_not_mem_wrapped {gap head : Text} (hgap : '\n' ∉ gap) (hhead : '\n' ∉ head)
    {fragments : List Text} (hfragments : ∀ fragment ∈ fragments, '\n' ∉ fragment) :
    ∀ l ∈ wrapped gap head fragments, '\n' ∉ l := by
  induction fragments generalizing head with
  | nil => simp [wrapped, hhead]
  | cons fragment fragments ih =>
    rw [List.forall_mem_cons] at hfragments
    rw [wrapped, List.forall_mem_cons]
    exact ⟨by simp [hhead], ih (by simp [hgap, hfragments.1]) hfragments.2⟩

namespace Method

/-- The names in a declaration and its indentation hold no line feed. -/
structure Unbroken (method : Method) (owner indent : Text) : Prop where
  names : ∀ name ∈ owner :: method.names, '\n' ∉ name
  indent : '\n' ∉ indent

namespace Unbroken

variable {method : Method} {owner indent : Text} (h : method.Unbroken owner indent)
include h

theorem fragment : ∀ p ∈ method.params, '\n' ∉ p.fragment := by
  intro p hp
  refine Parameter.newline_not_mem_fragment fun name hname => h.names name ?_
  exact List.mem_cons_of_mem _ (List.mem_cons_of_mem _ (List.mem_flatMap_of_mem hp hname))

theorem fragments : ∀ fragment ∈ method.params.map Parameter.fragment, '\n' ∉ fragment :=
  List.forall_mem_map.mpr h.fragment

theorem slotHead : '\n' ∉ method.slotHead owner indent := by
  have howner := h.names owner List.mem_cons_self
  have hname := h.names method.name (List.mem_cons_of_mem _ List.mem_cons_self)
  unfold Method.slotHead
  simp [h.indent, hname, howner]

theorem slotLine : '\n' ∉ method.slotLine owner indent := by
  unfold Method.slotLine slotWith
  simp only [List.mem_append, not_or, List.mem_flatMap, not_exists, not_and]
  exact ⟨⟨h.slotHead, fun p hp => ⟨by decide, h.fragment p hp⟩⟩, by decide⟩

end Unbroken

/-- A declaration stays on its line if that is short enough or cannot be broken. -/
theorem slot_cases {method : Method} {owner indent : Text} (h : method.Unbroken owner indent) :
    (method.params = [] ∨ (method.slotLine owner indent).byteLength ≤ lineWidth) ∧
        '\n' ∉ method.slot owner indent ∧
        method.slot owner indent = method.slotLine owner indent ∨
      (method.params ≠ [] ∧ lineWidth < (method.slotLine owner indent).byteLength) ∧
        '\n' ∈ method.slot owner indent ∧
        method.slot owner indent = method.slotWith owner indent (lineBreak indent) := by
  by_cases hwidth : (method.slotLine owner indent).byteLength ≤ lineWidth
  · have hslot : method.slot owner indent = method.slotLine owner indent := if_pos hwidth
    exact Or.inl ⟨Or.inr hwidth, hslot ▸ h.slotLine, hslot⟩
  · have hslot : method.slot owner indent = method.slotWith owner indent (lineBreak indent) :=
      if_neg hwidth
    by_cases hparams : method.params = []
    · have hline : method.slot owner indent = method.slotLine owner indent := by
        rw [hslot, Method.slotLine, slotWith, slotWith, hparams]
        rfl
      exact Or.inl ⟨Or.inl hparams, hline ▸ h.slotLine, hline⟩
    · refine Or.inr ⟨⟨hparams, Nat.lt_of_not_le hwidth⟩, ?_, hslot⟩
      obtain ⟨p, hp⟩ := List.exists_mem_of_ne_nil _ hparams
      have hbreak : '\n' ∈ lineBreak indent ++ p.fragment := by simp [lineBreak]
      rw [hslot, slotWith]
      exact List.mem_append_left _ (List.mem_append_right _ (List.mem_flatMap_of_mem hp hbreak))

/-- The lines of a wrapped declaration. -/
theorem splitOn_slot {method : Method} {owner indent : Text} (h : method.Unbroken owner indent)
    (hwrapped : '\n' ∈ method.slot owner indent) :
    (method.slot owner indent).splitOn '\n' =
      (method.slotHead owner indent ++ ",") :: method.params.mapIdx fun i p =>
        indent ++ tab ++ p.fragment ++ parameterEnd i method.params.length := by
  rcases slot_cases h with ⟨_, hno, _⟩ | ⟨⟨hparams, _⟩, _, hslot⟩
  · exact absurd hwrapped hno
  · have hgap : '\n' ∉ indent ++ tab := List.not_mem_append h.indent (by decide)
    have hlines := splitOn_lines (newline_not_mem_wrapped hgap h.slotHead h.fragments)
    have htext : method.slotWith owner indent (lineBreak indent) =
        method.slotHead owner indent ++ (method.params.map Parameter.fragment).flatMap
          (fun fragment => (",\n" : Text) ++ (indent ++ tab) ++ fragment) ++ ");" := by
      unfold slotWith lineBreak
      simp only [List.flatMap_map, List.append_assoc]
    rw [flatMap_wrapped, ← htext, ← hslot, splitOn_line] at hlines
    rw [← wrapped_eq_mapIdx _ _ hparams]
    exact List.append_cancel_right hlines

theorem replaceAll_slot {method : Method} {owner indent : Text} (h : method.Unbroken owner indent) :
    Text.replaceAll (lineBreak indent) ", " (method.slot owner indent) =
      method.slotLine owner indent := by
  have hpattern : lineBreak indent = ',' :: '\n' :: (indent ++ tab) := rfl
  rw [hpattern]
  rcases slot_cases h with ⟨_, hno, hslot⟩ | ⟨_, _, hslot⟩
  · have hwhole : Text.replaceAll (',' :: '\n' :: (indent ++ tab)) ", "
        (method.slot owner indent ++ []) = method.slot owner indent ++ [] :=
      Text.replaceAll_append_of_not_mem _ _ hno (by simp)
    simpa only [List.append_nil, hslot] using hwhole
  · have hending : '\n' ∉ (");" : Text) := by decide
    have hseparated := Text.replaceAll_separated (c := ',') (indent ++ tab) ", " (by decide) hending
      h.slotHead h.fragments
    rw [List.flatMap_map, List.flatMap_map] at hseparated
    rw [hslot]
    exact hseparated

theorem fragment_infix_params {params : List Parameter} {p : Parameter} (hp : p ∈ params) :
    (", " : Text) ++ p.fragment <:+: params.flatMap fun p => (", " : Text) ++ p.fragment :=
  List.infix_of_mem_flatten (List.mem_map_of_mem hp)

/-- A parameter stands whole on one line, in either layout. -/
theorem fragment_infix_line {method : Method} {owner indent : Text}
    (h : method.Unbroken owner indent) {p : Parameter} (hp : p ∈ method.params) :
    ∃ l ∈ (method.slot owner indent).splitOn '\n', p.fragment <:+: l := by
  rcases slot_cases h with ⟨_, hno, hslot⟩ | ⟨_, hwrapped, _⟩
  · refine ⟨_, List.splitOn_eq_singleton hno ▸ List.mem_singleton_self _, ?_⟩
    rw [hslot]
    exact (List.suffix_append _ _).isInfix.trans
      ((fragment_infix_params hp).trans (List.infix_append _ _ _))
  · obtain ⟨i, hi, rfl⟩ := List.mem_iff_getElem.mp hp
    rw [splitOn_slot h hwrapped]
    exact ⟨_, List.mem_cons_of_mem _ (List.mem_mapIdx.mpr ⟨i, hi, rfl⟩), List.infix_append _ _ _⟩

end Method

/-- Replacing the line breaks of a declaration gives its one-line form. Where it is wrapped, its
lines are the head and one line for each parameter; in either layout a parameter stands on one line
with the length that goes with it. -/
theorem wrapping_keeps_declaration {method : Method} {owner indent : Text}
    (h : method.Unbroken owner indent) :
    Text.replaceAll (",\n" ++ indent ++ tab) ", " (method.slot owner indent) =
      indent ++ "int32_t (*" ++ method.name ++ ")(struct " ++ owner ++ " *self"
        ++ method.params.flatMap (fun p => (", " : Text) ++ p.fragment) ++ ");" ∧
    ('\n' ∈ method.slot owner indent →
      (method.slot owner indent).splitOn '\n' =
        (indent ++ "int32_t (*" ++ method.name ++ ")(struct " ++ owner ++ " *self" ++ ",")
          :: method.params.mapIdx fun i p =>
            indent ++ tab ++ p.fragment ++ parameterEnd i method.params.length) ∧
    ∀ p ∈ method.params, ∃ l ∈ (method.slot owner indent).splitOn '\n', p.fragment <:+: l :=
  ⟨Method.replaceAll_slot h, Method.splitOn_slot h, fun _ => Method.fragment_infix_line h⟩

def reportMethod : Method :=
  { name := "RegisterReportCallbackWithExtendedInformation"
    params := [⟨"deviceIndex", .input, .scalar .uint⟩,
      ⟨"callbackObject", .input, .named .interface "IInputCallback"⟩,
      ⟨"left, right", .output, .string⟩] }

theorem reportMethod_lines :
    (reportMethod.slot "IInputInterfaces" tab).splitOn '\n' =
      (["    int32_t (*RegisterReportCallbackWithExtendedInformation)(struct IInputInterfaces *self,",
        "        uint32_t deviceIndex,",
        "        struct IInputCallback* callbackObject,",
        "        char* left, right, uint32_t left, rightLen);"] : List Text) ∧
    Text.replaceAll (",\n" ++ tab ++ tab) ", " (reportMethod.slot "IInputInterfaces" tab) =
      reportMethod.slotLine "IInputInterfaces" tab := by
  have hunbroken : reportMethod.Unbroken "IInputInterfaces" tab := ⟨by decide, by decide⟩
  obtain ⟨hreplace, hlines, _⟩ := wrapping_keeps_declaration hunbroken
  exact ⟨(hlines (by decide +kernel)).trans (by decide +kernel), hreplace⟩

end DriverHeader
