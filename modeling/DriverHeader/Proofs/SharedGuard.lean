import DriverHeader.Proofs.PlainHeader
import DriverHeader.Proofs.ReadableHeader
import DriverHeader.Proofs.RoleInfluence
import DriverHeader.Proofs.SharedStem

/-! # Headers that share a guard

The guard of a header is its full name in upper case with an underscore for every dot, so it
forgets all case and which of its underscores were dots. The path forgets much less. Two headers
can therefore stand at different paths and open with one guard; they do so exactly where their full
names differ in nothing that a guard shows, but in something that a path does.
-/
namespace DriverHeader

def guardChar (c : Char) : Char := if c.isAlphanum then c.toUpper else '_'

theorem guardMacro_inj {a b : Text} :
    guardMacro a = guardMacro b ↔ a.map guardChar = b.map guardChar := by
  unfold guardMacro
  rw [List.append_cancel_right_eq]
  rfl

def IsJoint (c : Char) : Prop := c = '.' ∨ c = '_'

/-- Characters that a guard shows alike: up to case, or as an underscore. -/
def AlikeChars (c d : Char) : Prop := c.toLower = d.toLower ∨ IsJoint c ∧ IsJoint d

def AlikeInGuard (a b : Text) : Prop :=
  a.length = b.length ∧
    ∀ (i : Nat) (c d : Char), a[i]? = some c → b[i]? = some d → AlikeChars c d

/-- A character of a dotted name is one that a guard keeps, or a joint. -/
theorem isJoint_iff_isAlphanum {c : Char} (h : isNameChar c = true ∨ c = '.') :
    IsJoint c ↔ c.isAlphanum = false := by
  constructor
  · rintro (rfl | rfl) <;> decide
  · intro halphanum
    rcases h with h | rfl
    · exact Or.inr (by simpa [isNameChar, halphanum] using h)
    · exact Or.inl rfl

theorem guardChar_eq_line {c : Char} (h : isNameChar c = true ∨ c = '.') :
    guardChar c = '_' ↔ IsJoint c := by
  rw [isJoint_iff_isAlphanum h, guardChar]
  split
  · next halphanum =>
    refine iff_of_false (fun hline => ?_) (by simp [halphanum])
    rw [(toUpper_eq_iff (by decide)).mp hline] at halphanum
    exact absurd halphanum (by decide)
  · next halphanum => exact iff_of_true rfl (eq_false_of_ne_true halphanum)

theorem isJoint_of_toLower_eq {c d : Char} (h : c.toLower = d.toLower) (hd : IsJoint d) :
    IsJoint c := by
  rcases hd with rfl | rfl
  · exact Or.inl ((toLower_eq_iff (by decide)).mp h)
  · exact Or.inr ((toLower_eq_iff (by decide)).mp h)

theorem AlikeChars.isJoint_iff {c d : Char} (h : AlikeChars c d) : IsJoint c ↔ IsJoint d := by
  rcases h with h | h
  · exact ⟨isJoint_of_toLower_eq h.symm, isJoint_of_toLower_eq h⟩
  · exact iff_of_true h.1 h.2

theorem guardChar_inj {c d : Char} (hc : isNameChar c = true ∨ c = '.')
    (hd : isNameChar d = true ∨ d = '.') : guardChar c = guardChar d ↔ AlikeChars c d := by
  have hjoints : guardChar c = guardChar d → (IsJoint c ↔ IsJoint d) := fun h => by
    rw [← guardChar_eq_line hc, ← guardChar_eq_line hd, h]
  by_cases hsame : IsJoint c ↔ IsJoint d
  · by_cases hjoint : IsJoint c
    · have hline := (guardChar_eq_line hc).mpr hjoint
      have hline' := (guardChar_eq_line hd).mpr (hsame.mp hjoint)
      exact iff_of_true (hline.trans hline'.symm) (Or.inr ⟨hjoint, hsame.mp hjoint⟩)
    · have halphanum : c.isAlphanum = true := by simpa [isJoint_iff_isAlphanum hc] using hjoint
      have halphanum' : d.isAlphanum = true := by
        simpa [isJoint_iff_isAlphanum hd] using mt hsame.mpr hjoint
      rw [guardChar, guardChar, if_pos halphanum, if_pos halphanum', toUpper_eq_toUpper,
        AlikeChars, or_iff_left fun h => hjoint h.1]
  · exact iff_of_false (mt hjoints hsame) (mt AlikeChars.isJoint_iff hsame)

section

variable {a b : Text} (ha : isDottedName a = true) (hb : isDottedName b = true)
include ha hb

theorem guardMacro_eq_iff : guardMacro a = guardMacro b ↔ AlikeInGuard a b := by
  have hchars : ∀ {i : Nat} {c d : Char}, a[i]? = some c → b[i]? = some d →
      (guardChar c = guardChar d ↔ AlikeChars c d) := fun hc hd =>
    guardChar_inj (isNameChar_or_dot_of_mem ha (List.mem_of_getElem? hc))
      (isNameChar_or_dot_of_mem hb (List.mem_of_getElem? hd))
  rw [guardMacro_inj, map_eq_map_iff_getElem?]
  refine and_congr_right fun _ => ⟨fun h i c d hc hd => ?_, fun h i c d hc hd => ?_⟩
  · exact (hchars hc hd).mp (h i c d hc hd)
  · exact (hchars hc hd).mpr (h i c d hc hd)

/-- Where the guards are the same, an underscore never meets an upper-case letter. So the paths tell
all differences that are left, but for the case of the first two characters of a segment. -/
theorem fileStem_eq_iff_of_alikeInGuard (h : AlikeInGuard a b) :
    fileStem a = fileStem b ↔ AlikeInSegments a b := by
  have hline : ∀ {c d : Char}, AlikeChars c d → d = '_' → c.isUpper = false := by
    rintro c d halike rfl
    rcases halike.isJoint_iff.mpr (Or.inr rfl) with rfl | rfl <;> decide
  refine fileStemFrom_inj [] fun i c d hc hd => ?_
  have halike := h.2 i c d hc hd
  have hslash : ∀ {t : Text} {e : Char}, isDottedName t = true → t[i]? = some e → e ≠ '/' :=
    fun ht he heq => slash_not_mem_of_isDottedName ht (heq ▸ List.mem_of_getElem? he)
  exact ⟨hslash ha hc, hslash hb hd, hline (halike.imp Eq.symm And.symm), hline halike⟩

end

/-- A package of C identifiers, or none, and a C identifier for a name. -/
structure Interface.IsNamed (interface : Interface) : Prop where
  package : isPackage interface.package = true
  name : isIdentifier interface.name = true

namespace Interface.IsNamed

variable {interface : Interface} (h : interface.IsNamed)
include h

theorem isDottedName_fullName : isDottedName interface.fullName = true := by
  have hname : interface.name.splitOn '.' = [interface.name] :=
    List.splitOn_eq_singleton (not_mem_of_isIdentifier h.name (by decide))
  unfold fullName
  split
  · simp [isDottedName, hname, h.name]
  · next hne =>
    have hsplit : (interface.package ++ "." ++ interface.name).splitOn '.' =
        interface.package.splitOn '.' ++ interface.name.splitOn '.' := by
      rw [List.append_assoc]
      exact List.splitOn_append_cons_self _ _
    rw [isDottedName, hsplit, hname, List.all_append, Bool.and_eq_true]
    exact ⟨isDottedName_of_isPackage h.package hne, by simp [h.name]⟩

theorem not_opensAtRoot_fullName : ¬ OpensAtRoot interface.fullName := by
  have hdotted := h.isDottedName_fullName
  rintro (hdot | hslash)
  · exact nil_not_mem_of_isDottedName hdotted (nil_mem_splitOn_of_head? hdot)
  · exact slash_not_mem_of_isDottedName hdotted (List.mem_of_head? hslash)

theorem meetsAtDot : interface.MeetsAtDot := by
  by_cases hne : interface.package = []
  · exact Or.inl hne
  · refine Or.inr ⟨fun hlast => ?_, fun hfirst => ?_⟩
    · exact nil_not_mem_of_isDottedName (isDottedName_of_isPackage h.package hne)
        (nil_mem_splitOn_of_getLast? (Or.inr hlast))
    · exact not_mem_of_isIdentifier h.name (by decide) (List.mem_of_head? hfirst)

theorem headerPath_eq (root : Text) :
    headerPath (packageDirectory root interface.package) interface.name =
      joinPath root (fileStem interface.fullName ++ ".h") := by
  exact headerPath_of_meetsAtDot root h.meetsAtDot
    (slash_not_mem_of_isDottedName h.isDottedName_fullName)

theorem headerPath_inj {other : Interface} (h' : other.IsNamed) (root : Text) :
    headerPath (packageDirectory root interface.package) interface.name =
        headerPath (packageDirectory root other.package) other.name ↔
      fileStem interface.fullName = fileStem other.fullName := by
  have hrelative : ∀ {i : Interface}, i.IsNamed →
      (fileStem i.fullName ++ ".h").head? ≠ some '/' := fun hi =>
    mt head?_headerFile_eq_slash.mp hi.not_opensAtRoot_fullName
  rw [h.headerPath_eq root, h'.headerPath_eq root,
    joinPath_inj (Or.inr (iff_of_false (hrelative h) (hrelative h'))), List.append_cancel_right_eq]

end Interface.IsNamed

/-- A document is rendered to a header for its interface, which opens with the guard of the full
name below the license. -/
theorem Document.render_opening {document : Document} {interface : Interface}
    (hkind : document.kind = .interface ∨ document.kind = .callback)
    (hinterface : document.interface = some interface) (options : EmissionOptions) :
    ∃ header, document.render options = .ok header ∧
      header.path = headerPath (packageDirectory options.root interface.package) interface.name ∧
      ∃ rest, header.content =
        Header.banner document.license ++ Header.guardOpening interface.fullName ++ rest := by
  obtain ⟨shown, hshown, hlike⟩ := subject_of_some hkind hinterface
  obtain ⟨rest, htext⟩ := Header.text_eq_imports document shown options.target
  refine ⟨_, render_of_subject hshown options, ?_,
    "\n" ++ Header.importLines document.imports options.target ++ rest, ?_⟩
  · rw [RenderedHeader.path, hlike.package, hlike.name]
  · rw [htext, hlike.fullName]
    simp only [List.append_assoc]

/-- Two headers below one root open with the same guard if and only if their full names agree place
by place, up to case and with dots and underscores taken for one another. They stand at different
paths all the same if and only if the names are not alike up to the case of the first two characters
of their segments. -/
theorem headers_share_guard_iff {first second : Document} {a b : Interface}
    (hfirst : first.kind = .interface ∨ first.kind = .callback)
    (hsecond : second.kind = .interface ∨ second.kind = .callback)
    (ha : first.interface = some a) (hb : second.interface = some b)
    (hnamed : a.IsNamed) (hnamed' : b.IsNamed) (root : Text) (kernel kernel' : Bool) :
    ∃ header header', first.render ⟨kernel, root⟩ = .ok header ∧
      second.render ⟨kernel', root⟩ = .ok header' ∧
      (∃ rest, header.content =
        Header.banner first.license ++ Header.guardOpening a.fullName ++ rest) ∧
      (∃ rest, header'.content =
        Header.banner second.license ++ Header.guardOpening b.fullName ++ rest) ∧
      (guardMacro a.fullName = guardMacro b.fullName ↔ AlikeInGuard a.fullName b.fullName) ∧
      (header.path ≠ header'.path ∧ guardMacro a.fullName = guardMacro b.fullName ↔
        AlikeInGuard a.fullName b.fullName ∧ ¬ AlikeInSegments a.fullName b.fullName) := by
  obtain ⟨header, hrender, hpath, hopening⟩ := Document.render_opening hfirst ha ⟨kernel, root⟩
  obtain ⟨header', hrender', hpath', hopening'⟩ :=
    Document.render_opening hsecond hb ⟨kernel', root⟩
  have hdotted := hnamed.isDottedName_fullName
  have hdotted' := hnamed'.isDottedName_fullName
  have hguard := guardMacro_eq_iff hdotted hdotted'
  refine ⟨header, header', hrender, hrender', hopening, hopening', hguard, ?_⟩
  rw [hguard, and_comm]
  refine and_congr_right fun halike => not_congr ?_
  rw [hpath, hpath', hnamed.headerPath_inj hnamed' root]
  exact fileStem_eq_iff_of_alikeInGuard hdotted hdotted' halike

def lampDocument (package : Text) : Document :=
  { kind := .interface
    license := none
    imports := []
    interface := some
      { package, name := "ILamp", version := ⟨1, 0⟩, role := .normal, methods := [] } }

theorem lampHeaders_share_guard :
    ∃ header header', (lampDocument "hal.lamp.v1_0").render ⟨false, "out"⟩ = .ok header ∧
      (lampDocument "hal.lamp_v1_0").render ⟨true, "out"⟩ = .ok header' ∧
      header.path ≠ header'.path ∧
      guardMacro "hal.lamp.v1_0.ILamp" = guardMacro "hal.lamp_v1_0.ILamp" := by
  obtain ⟨header, header', hrender, hrender', _, _, hguard, hboth⟩ :=
    @headers_share_guard_iff (lampDocument "hal.lamp.v1_0") (lampDocument "hal.lamp_v1_0") _ _
      (Or.inl rfl) (Or.inl rfl) rfl rfl ⟨by decide, by decide⟩ ⟨by decide, by decide⟩ "out" false true
  refine ⟨header, header', hrender, hrender', hboth.mpr ⟨hguard.mp (by decide), fun halike => ?_⟩⟩
  -- the ninth character is a dot in one name and an underscore in the other
  exact absurd (halike.2 8 '.' '_' (by decide) (by decide)) (by decide)

/-- Different paths do not make for different guards: a package may have a dot where another one has
an underscore. -/
theorem paths_apart_under_one_guard :
    ¬ ∀ (root : Text) (a b : Interface),
      isDottedName a.package = true → isIdentifier a.name = true →
      isDottedName b.package = true → isIdentifier b.name = true →
      headerPath (packageDirectory root a.package) a.name ≠
        headerPath (packageDirectory root b.package) b.name →
      guardMacro a.fullName ≠ guardMacro b.fullName := by
  intro h
  exact h "out" ⟨"hal.lamp.v1_0", "ILamp", ⟨1, 0⟩, .normal, []⟩
    ⟨"hal.lamp_v1_0", "ILamp", ⟨1, 0⟩, .normal, []⟩ (by decide) (by decide) (by decide) (by decide)
    (by decide) (by decide)

end DriverHeader
