import DriverHeader.Proofs.CommandTable
import DriverHeader.Proofs.IncludePlacement

/-! # Headers that can be read line by line

Names that are C identifiers break no line, and neither do the macros made from them. Without a
license in front, cutting such a header at its line feeds gives back the list of its lines.
-/
namespace DriverHeader

def isPathChar (c : Char) : Bool := isNameChar c || c = '.' || c = '/'

theorem isPathChar_of_isNameChar {c : Char} (h : isNameChar c = true) : isPathChar c = true := by
  simp [isPathChar, h]

theorem all_isPathChar_of_isIdentifier {name : Text} (h : isIdentifier name = true) :
    name.all isPathChar = true :=
  List.all_eq_true.mpr fun c hc => isPathChar_of_isNameChar
    (List.all_eq_true.mp (all_isNameChar_of_isIdentifier h) c hc)

theorem isNameChar_or_dot_of_mem {name : Text} (h : isDottedName name = true) {c : Char}
    (hc : c ∈ name) : isNameChar c = true ∨ c = '.' := by
  have hpieces : List.intercalate ['.'] (name.splitOn '.') = name := List.intercalate_splitOn '.'
  rw [← hpieces] at hc
  rcases mem_intercalate hc with hdot | ⟨piece, hpiece, hmem⟩
  · exact Or.inr (List.mem_singleton.mp hdot)
  · have hname := all_isNameChar_of_isIdentifier (List.all_eq_true.mp h piece hpiece)
    exact Or.inl (List.all_eq_true.mp hname c hmem)

theorem all_isPathChar_of_isDottedName {name : Text} (h : isDottedName name = true) :
    name.all isPathChar = true := by
  refine List.all_eq_true.mpr fun c hc => ?_
  rcases isNameChar_or_dot_of_mem h hc with hname | rfl
  · exact isPathChar_of_isNameChar hname
  · decide

theorem slash_not_mem_of_isDottedName {name : Text} (h : isDottedName name = true) :
    '/' ∉ name := fun hmem =>
  absurd (isNameChar_or_dot_of_mem h hmem) (by decide)

/-- No two dots in a dotted name come together, and none is at an end. -/
theorem nil_not_mem_of_isDottedName {name : Text} (h : isDottedName name = true) :
    [] ∉ name.splitOn '.' := fun hmem =>
  absurd (List.all_eq_true.mp h [] hmem) (by decide)

theorem newline_not_mem_of_isDottedName {name : Text} (h : isDottedName name = true) :
    '\n' ∉ name :=
  not_mem_of_all (all_isPathChar_of_isDottedName h) (by decide)

/-- A document and an interface whose header can be read back: no license stands above it, and all
that is spelled in it is made of C identifiers. -/
structure Header.Readable (document : Document) (interface : Interface) : Prop where
  license : document.license = none
  imports : ∀ name ∈ document.imports, isDottedName name = true
  package : interface.package = [] ∨ isDottedName interface.package = true
  spellable : interface.isSpellable = true

namespace Header

theorem Readable.all_isPathChar_fullName {document : Document} {interface : Interface}
    (h : Readable document interface) : interface.fullName.all isPathChar = true := by
  have hname := all_isPathChar_of_isIdentifier (Interface.isSpellable_iff.mp h.spellable).1
  unfold Interface.fullName
  split
  · exact hname
  · next hne =>
    have hpackage := all_isPathChar_of_isDottedName (h.package.resolve_left hne)
    simp only [List.all_append, hname, hpackage]
    decide

theorem unbroken_openingLines {document : Document} {interface : Interface}
    (h : Readable document interface) (target : Target) :
    ∀ l ∈ openingLines document.imports interface target, '\n' ∉ l := by
  have hname : interface.name.all isNameChar = true :=
    all_isNameChar_of_isIdentifier (Interface.isSpellable_iff.mp h.spellable).1
  have hfull : '\n' ∉ interface.fullName := not_mem_of_all h.all_isPathChar_fullName (by decide)
  have hguard : '\n' ∉ guardMacro interface.fullName :=
    not_mem_of_all (all_isNameChar_guardMacro _) (by decide)
  have hupper : '\n' ∉ interface.name.map Char.toUpper :=
    not_mem_of_all (all_isNameChar_toUpper hname) (by decide)
  have hsnake : '\n' ∉ upperSnake interface.name :=
    not_mem_of_all (all_isNameChar_upperSnake hname) (by decide)
  have hcore : '\n' ∉ upperSnake (coreName interface.name) :=
    not_mem_of_all (all_isNameChar_upperSnake (all_isNameChar_coreName hname)) (by decide)
  have hdecimal : ∀ n : Nat, '\n' ∉ Text.decimal n := by
    intro n hmem
    have hdigit : '\n'.isDigit = true := Nat.isDigit_of_mem_toDigits (by decide) (by decide) hmem
    exact absurd hdigit (by decide)
  have hincludes := newline_not_mem_includes
    (fun name hmem => newline_not_mem_of_isDottedName (h.imports name hmem)) target
  intro l hl
  unfold openingLines at hl
  rw [List.mem_append, List.mem_append] at hl
  rcases hl with (hl | hl) | hl
  · simp only [List.mem_cons, List.not_mem_nil, or_false] at hl
    rcases hl with rfl | rfl | rfl
    · simp [hguard]
    · simp [hguard]
    · simp
  · exact hincludes l hl
  · simp only [List.mem_cons, List.not_mem_nil, or_false] at hl
    unfold descriptorText majorText minorText bufferSizeText descriptorMacro majorVersionMacro
      minorVersionMacro bufferSizeMacro remoteServiceName at hl
    rcases hl with rfl | rfl | rfl | rfl | rfl | rfl | rfl | rfl | rfl | rfl | rfl | rfl | rfl
    all_goals simp [hfull, hupper, hsnake, hcore, hdecimal]

theorem Readable.splitOn_text {document : Document} {interface : Interface}
    (h : Readable document interface) (target : Target) :
    (text document interface target).splitOn '\n' =
      lineList document.imports interface target ++ [[]] := by
  have hunbroken : ∀ l ∈ lineList document.imports interface target, '\n' ∉ l := by
    intro l hl
    rw [lineList_eq, List.mem_append, List.mem_cons] at hl
    rcases hl with hl | rfl | hl
    · exact unbroken_openingLines h target l hl
    · simp
    · exact unbroken_from_commands h.spellable target l hl
  rw [text_eq_lines, h.license, banner, List.nil_append, splitOn_lines hunbroken]

end Header
end DriverHeader
