import DriverHeader.Proofs.CodeBrackets
import DriverHeader.Proofs.ReadableHeader
import Mathlib.Algebra.Group.Nat.Even

/-! # Nesting in a header

The include guard and the two blocks for C++ are conditionals; the brace that opens C linkage stands
in the first block and the one that closes it in the second. Both nestings are scans, one over the
characters of a header and one over its lines, and both return to where they started.
-/
namespace DriverHeader

def opensConditional (l : Text) : Bool :=
  ("#ifndef" : Text).isPrefixOf l || ("#ifdef" : Text).isPrefixOf l

def closesConditional (l : Text) : Bool := ("#endif" : Text).isPrefixOf l

/-- Reads one line inside `depth` conditionals; nothing can be closed where none is open. -/
def conditionalStep (depth : Nat) (l : Text) : Option Nat :=
  if opensConditional l then some (depth + 1)
  else if closesConditional l then
    match depth with
    | 0 => none
    | depth + 1 => some depth
  else some depth

def conditionalDepth (ls : List Text) : Option Nat := ls.foldlM conditionalStep 0

theorem conditionalStep_deeper {depth depth' : Nat} {l : Text}
    (h : conditionalStep depth l = some depth') :
    conditionalStep (depth + 1) l = some (depth' + 1) := by
  unfold conditionalStep at h ⊢
  split at h
  · next hopen =>
    rw [if_pos hopen, ← Option.some.inj h]
  · next hopen =>
    rw [if_neg hopen]
    split at h
    · next hclose =>
      rw [if_pos hclose]
      split at h
      · cases h
      · rw [← Option.some.inj h]
    · next hclose => rw [if_neg hclose, ← Option.some.inj h]

theorem scans_deeper {depth depth' : Nat} {ls : List Text}
    (h : Scans conditionalStep depth ls depth') :
    Scans conditionalStep (depth + 1) ls (depth' + 1) := by
  induction ls generalizing depth with
  | nil =>
    cases h
    rfl
  | cons l ls ih =>
    obtain ⟨next, hstep, hrest⟩ := Option.bind_eq_some_iff.mp h
    rw [Scans, List.foldlM_cons, conditionalStep_deeper hstep]
    exact ih hrest

/-- Lines that are nested by themselves stay inside the conditional around them. -/
theorem depth_pos_of_enclosed {first last : Text} (hfirst : opensConditional first = true)
    {ls : List Text} (h : Scans conditionalStep 0 ls 0) {n : Nat} (hpos : 0 < n)
    (hn : n < (first :: (ls ++ [last])).length) :
    ∃ depth, 0 < depth ∧ conditionalDepth ((first :: (ls ++ [last])).take n) = some depth := by
  obtain ⟨n, rfl⟩ := Nat.exists_eq_succ_of_ne_zero (Nat.ne_of_gt hpos)
  have hle : n ≤ ls.length := by
    simp only [List.length_cons, List.length_append, List.length_nil] at hn
    omega
  have hopen : conditionalStep 0 first = some 1 := by
    rw [conditionalStep, if_pos hfirst]
  rw [← List.take_append_drop n ls] at h
  obtain ⟨depth, hfront, -⟩ := h.of_append
  refine ⟨depth + 1, Nat.succ_pos depth, ?_⟩
  rw [Nat.succ_eq_add_one, List.take_succ_cons, List.take_append_of_le_length hle, conditionalDepth,
    List.foldlM_cons, hopen]
  exact scans_deeper hfront

structure Quoted (l : Text) : Prop where
  even : Even (l.count '"')
  kept : l.getLast? ≠ some '\r'

theorem conditionalStep_idle {l : Text} (hopens : opensConditional l = false)
    (hcloses : closesConditional l = false) (depth : Nat) :
    conditionalStep depth l = some depth := by
  unfold conditionalStep
  rw [hopens, hcloses]
  rfl

theorem count_quote_eq_zero {p : Char → Bool} (hp : p '"' = false) {t : Text}
    (h : t.all p = true) : t.count '"' = 0 :=
  List.count_eq_zero.mpr (not_mem_of_all h hp)

def isDirectiveChar (c : Char) : Bool := isPathChar c || ("# \"<>;*\n" : Text).contains c

theorem all_isDirectiveChar_of_isPathChar {t : Text} (h : t.all isPathChar = true) :
    t.all isDirectiveChar = true :=
  List.all_eq_true.mpr fun c hc => by
    rw [isDirectiveChar, List.all_eq_true.mp h c hc, Bool.true_or]

theorem all_isDirectiveChar_of_isNameChar {t : Text} (h : t.all isNameChar = true) :
    t.all isDirectiveChar = true :=
  all_isDirectiveChar_of_isPathChar <| List.all_eq_true.mpr fun c hc =>
    isPathChar_of_isNameChar (List.all_eq_true.mp h c hc)

theorem scans_line_of_isDirectiveChar {l : Text} (h : l.all isDirectiveChar = true)
    (awaited : List Char) : Scans bracketStep awaited (line l) awaited := by
  have hline : (line l).all isDirectiveChar = true := by
    rw [line, List.all_append, h]
    decide
  exact scans_of_no_bracket (by decide) hline awaited

theorem quoted_of_isDirectiveChar {l : Text} (h : l.all isDirectiveChar = true)
    (heven : Even (l.count '"')) : Quoted l :=
  ⟨heven, fun hlast => not_mem_of_all h (by decide) (List.mem_of_getLast? hlast)⟩

theorem quoted_of_isCodeChar {l : Text} (h : l.all isCodeChar = true) : Quoted l := by
  refine ⟨?_, fun hlast => not_mem_of_all h (by decide) (List.mem_of_getLast? hlast)⟩
  rw [count_quote_eq_zero (by decide) h]
  decide

/-- No line of code is a directive. -/
theorem conditionalStep_of_isCodeChar {l : Text} (h : l.all isCodeChar = true) (depth : Nat) :
    conditionalStep depth l = some depth := by
  have hdirective : ∀ rest : Text, ('#' :: rest).isPrefixOf l = false := by
    intro rest
    cases l with
    | nil => rfl
    | cons c l =>
      have hc : '#' ≠ c := by
        rintro rfl
        exact not_mem_of_all h (by decide) List.mem_cons_self
      rw [List.isPrefixOf_cons_cons, beq_false_of_ne hc, Bool.false_and]
  refine conditionalStep_idle ?_ (hdirective _) depth
  rw [opensConditional, Bool.or_eq_false_iff]
  exact ⟨hdirective _, hdirective _⟩

structure Inert (l : Text) : Prop where
  chars : l.all isDirectiveChar = true
  even : Even (l.count '"')
  opens_nothing : opensConditional l = false
  closes_nothing : closesConditional l = false

theorem inert_nil : Inert [] := ⟨rfl, by decide, rfl, rfl⟩

/-- Lines whose conditionals are nested and that turn the brackets `awaited` into `awaited'`. -/
structure LinesRun (awaited : List Char) (ls : List Text) (awaited' : List Char) : Prop where
  quoted : ∀ l ∈ ls, Quoted l
  conditionals : ∀ depth, Scans conditionalStep depth ls depth
  brackets : Scans bracketStep awaited (ls.flatMap line) awaited'

namespace LinesRun

variable {awaited awaited' awaited'' : List Char} {ls ls' : List Text}

theorem append (h : LinesRun awaited ls awaited') (h' : LinesRun awaited' ls' awaited'') :
    LinesRun awaited (ls ++ ls') awaited'' where
  quoted l hl := (List.mem_append.mp hl).elim (h.quoted l) (h'.quoted l)
  conditionals depth := (h.conditionals depth).append (h'.conditionals depth)
  brackets := by
    rw [List.flatMap_append]
    exact h.brackets.append h'.brackets

theorem of_inert (h : ∀ l ∈ ls, Inert l) (awaited : List Char) : LinesRun awaited ls awaited where
  quoted l hl := quoted_of_isDirectiveChar (h l hl).chars (h l hl).even
  conditionals depth := scans_of_idle fun l hl =>
    conditionalStep_idle (h l hl).opens_nothing (h l hl).closes_nothing depth
  brackets := scans_flatMap fun l hl => scans_line_of_isDirectiveChar (h l hl).chars awaited

theorem of_code (h : CodeRun awaited (ls.flatMap line) awaited') : LinesRun awaited ls awaited' := by
  have hchars : ∀ l ∈ ls, l.all isCodeChar = true := by
    intro l hl
    refine List.all_eq_true.mpr fun c hc => List.all_eq_true.mp h.chars c ?_
    exact List.mem_flatMap.mpr ⟨l, hl, List.mem_append_left _ hc⟩
  exact ⟨fun l hl => quoted_of_isCodeChar (hchars l hl),
    fun depth => scans_of_idle fun l hl => conditionalStep_of_isCodeChar (hchars l hl) depth,
    h.brackets⟩

/-- One section, and the others after an empty line. -/
theorem section_cons {next : List Text} {sections : List (List Text)}
    (h : LinesRun awaited ls awaited')
    (hrest : LinesRun awaited' (List.intercalate [[]] (next :: sections)) awaited'') :
    LinesRun awaited (List.intercalate [[]] (ls :: next :: sections)) awaited'' := by
  have hblank : LinesRun awaited' [[]] awaited' :=
    of_inert (List.forall_mem_singleton.mpr inert_nil) awaited'
  rw [List.intercalate_cons_cons]
  exact (h.append hblank).append hrest

end LinesRun

/-- The lines of a text whose line ends are single characters. -/
theorem lines_of_splitOn {t : Text} {ls : List Text} (h : t.splitOn '\n' = ls ++ [[]])
    (hkept : ∀ l ∈ ls, l.getLast? ≠ some '\r') : t.lines = ls := by
  have hreturn : ls.map Text.withoutReturn = ls := by
    conv_rhs => rw [← List.map_id ls]
    exact List.map_congr_left fun l hl => if_neg (hkept l hl)
  rw [Text.lines, h, List.reverse_append]
  simpa using hreturn

def guardedLines (guard : Text) (inner : List Text) : List Text :=
  ("#ifndef " ++ guard) :: ("#define " ++ guard) :: (inner ++ ["#endif // " ++ guard])

/-- A macro definition, once its name and its value are known to be harmless. -/
theorem inert_define {name value : Text} (hname : name.all isNameChar = true)
    (hvalue : value.all isDirectiveChar = true) (heven : Even (value.count '"')) :
    Inert ("#define " ++ name ++ value) := by
  refine ⟨?_, ?_, rfl, rfl⟩
  · simp only [List.all_append, all_isDirectiveChar_of_isNameChar hname, hvalue]
    decide
  · have hdefine : ("#define " : Text).count '"' = 0 := by decide
    rw [List.count_append, List.count_append, hdefine, count_quote_eq_zero (by decide) hname]
    simpa using heven

section Guard

variable {guard : Text} (hguard : guard.all isNameChar = true)
include hguard

theorem all_isDirectiveChar_guard {front : Text} (hfront : front.all isDirectiveChar = true) :
    (front ++ guard).all isDirectiveChar = true := by
  rw [List.all_append, hfront, all_isDirectiveChar_of_isNameChar hguard, Bool.and_self]

theorem quoted_guard {front : Text} (hfront : front.all isDirectiveChar = true)
    (heven : Even (front.count '"')) : Quoted (front ++ guard) := by
  refine quoted_of_isDirectiveChar (all_isDirectiveChar_guard hguard hfront) ?_
  rw [List.count_append, count_quote_eq_zero (by decide) hguard]
  exact heven

variable {inner : List Text} (hinner : LinesRun [] inner [])
include hinner

theorem linesRun_guard_body : LinesRun [] (("#define " ++ guard) :: inner) [] := by
  have hdefine : Inert ("#define " ++ guard) := by
    simpa using inert_define hguard (List.all_nil) Even.zero
  exact (LinesRun.of_inert (List.forall_mem_singleton.mpr hdefine) []).append hinner

theorem quoted_guardedLines : ∀ l ∈ guardedLines guard inner, Quoted l := by
  have hbody := (linesRun_guard_body hguard hinner).quoted
  intro l hl
  rcases List.mem_cons.mp hl with rfl | hl
  · exact quoted_guard hguard (by decide) (by decide)
  · rw [← List.cons_append, List.mem_append, List.mem_singleton] at hl
    rcases hl with hl | rfl
    · exact hbody l hl
    · exact quoted_guard hguard (by decide) (by decide)

theorem scans_guardedLines :
    Scans bracketStep [] ((guardedLines guard inner).flatMap line) [] := by
  have hbody := (linesRun_guard_body hguard hinner).brackets
  have hfirst : Scans bracketStep [] (line ("#ifndef " ++ guard)) [] :=
    scans_line_of_isDirectiveChar (all_isDirectiveChar_guard hguard (by decide)) []
  have hlast : Scans bracketStep [] (line ("#endif // " ++ guard)) [] :=
    scans_line_of_isDirectiveChar (all_isDirectiveChar_guard hguard (by decide)) []
  rw [guardedLines, List.flatMap_cons, ← List.cons_append, List.flatMap_append,
    List.flatMap_singleton]
  exact hfirst.append (hbody.append hlast)

theorem conditionalDepth_guardedLines : conditionalDepth (guardedLines guard inner) = some 0 := by
  have hfirst : Scans conditionalStep 0 ["#ifndef " ++ guard] 1 := rfl
  have hlast : Scans conditionalStep 1 ["#endif // " ++ guard] 0 := rfl
  have hbody := (linesRun_guard_body hguard hinner).conditionals 1
  exact hfirst.append (hbody.append hlast)

theorem depth_pos_guardedLines {n : Nat} (hpos : 0 < n)
    (hn : n < (guardedLines guard inner).length) :
    ∃ depth, 0 < depth ∧ conditionalDepth ((guardedLines guard inner).take n) = some depth :=
  depth_pos_of_enclosed rfl ((linesRun_guard_body hguard hinner).conditionals 0) hpos hn

end Guard

theorem isNameChar_toLower {c : Char} (h : isNameChar c = true) : isNameChar c.toLower = true := by
  rw [isNameChar_iff] at h
  rw [isNameChar_iff, toNat_toLower]
  split <;> omega

theorem all_isPathChar_fileStem {name : Text} (h : name.all isPathChar = true) :
    (fileStem name).all isPathChar = true := by
  refine List.all_eq_true.mpr fun c hc => ?_
  rcases mem_fileStemFrom hc with rfl | ⟨d, hd, rfl⟩
  · decide
  · have hpath := List.all_eq_true.mp h d hd
    simp only [isPathChar, Bool.or_eq_true, decide_eq_true_eq] at hpath
    unfold stemChar
    rcases hpath with (hname | rfl) | rfl
    · split
      · decide
      · exact isPathChar_of_isNameChar (isNameChar_toLower hname)
    · decide
    · decide

namespace Header

theorem inert_includes {imports : List Text} (h : ∀ name ∈ imports, name.all isPathChar = true)
    (target : Target) : ∀ l ∈ (includes imports target).lines, Inert l := by
  intro l hl
  obtain ⟨header, hheader, rfl⟩ := List.mem_map.mp hl
  rcases List.mem_append.mp hheader with hmem | hmem
  · obtain ⟨path, hpath, rfl⟩ := List.mem_map.mp hmem
    rw [includes_standard] at hpath
    have hplain : (pathsOf .standard (standardIncludes target)).all (·.all isPathChar) = true := by
      cases target <;> decide
    have hchars := List.all_eq_true.mp hplain path hpath
    refine ⟨?_, ?_, rfl, rfl⟩
    · simp only [Include.line_standard, List.all_append, all_isDirectiveChar_of_isPathChar hchars]
      decide
    · simp only [Include.line_standard, List.count_append, count_quote_eq_zero (by decide) hchars]
      decide
  · obtain ⟨path, hpath, rfl⟩ := List.mem_map.mp hmem
    rw [includes_generated, List.mem_eraseDups] at hpath
    obtain ⟨name, hname, rfl⟩ := List.mem_map.mp hpath
    have hchars := all_isPathChar_fileStem (h name hname)
    refine ⟨?_, ?_, rfl, rfl⟩
    · simp only [Include.line_generated, List.all_append, all_isDirectiveChar_of_isPathChar hchars]
      decide
    · simp only [Include.line_generated, List.count_append, count_quote_eq_zero (by decide) hchars]
      decide

theorem all_isPathChar_decimal (n : Nat) : (Text.decimal n).all isPathChar = true := by
  refine List.all_eq_true.mpr fun c hc => isPathChar_of_isNameChar ?_
  have hdigit : c.isDigit = true := Nat.isDigit_of_mem_toDigits (by decide) (by decide) hc
  rw [isNameChar, Char.isAlphanum, hdigit, Bool.or_true, Bool.true_or]

theorem inert_define_decimal {name : Text} (hname : name.all isNameChar = true) (n : Nat) :
    Inert ("#define " ++ name ++ " " ++ Text.decimal n) := by
  have hchars := all_isPathChar_decimal n
  have hvalue : (" " ++ Text.decimal n : Text).all isDirectiveChar = true := by
    simp only [List.all_append, all_isDirectiveChar_of_isPathChar hchars]
    decide
  have heven : Even ((" " ++ Text.decimal n : Text).count '"') := by
    simp only [List.count_append, count_quote_eq_zero (by decide) hchars]
    decide
  have hline := inert_define hname hvalue heven
  simpa only [List.append_assoc] using hline

/-- The brace of the linkage block is opened in one conditional and closed in another. -/
theorem linesRun_linkageOpening (awaited : List Char) :
    LinesRun awaited ["#ifdef __cplusplus", "extern \"C\" \x7b", "#endif /* __cplusplus */"]
      ('\x7d' :: awaited) := by
  refine ⟨?_, fun _ => rfl, rfl⟩
  simp only [List.forall_mem_cons]
  exact ⟨⟨by decide, by decide⟩, ⟨by decide, by decide⟩, ⟨by decide, by decide⟩, nofun⟩

theorem linesRun_linkageClosing (awaited : List Char) :
    LinesRun ('\x7d' :: awaited) ["#ifdef __cplusplus", "\x7d", "#endif /* __cplusplus */"]
      awaited := by
  refine ⟨?_, fun _ => rfl, rfl⟩
  simp only [List.forall_mem_cons]
  exact ⟨⟨by decide, by decide⟩, ⟨by decide, by decide⟩, ⟨by decide, by decide⟩, nofun⟩

theorem linesRun_bufferSizeText {interface : Interface}
    (hname : interface.name.all isNameChar = true) (awaited : List Char) :
    LinesRun awaited [bufferSizeText interface] awaited := by
  have hmacro : (bufferSizeMacro interface.name).all isNameChar = true := by
    unfold bufferSizeMacro
    simp only [List.all_append, all_isNameChar_upperSnake (all_isNameChar_coreName hname)]
    decide
  have hdefine : Scans bracketStep awaited ("#define " : Text) awaited := rfl
  have hvalue : Scans bracketStep awaited (line "    (4 * 1024) // 4KB") awaited := rfl
  have hbrackets := hdefine.append (scans_of_no_bracket (by decide) hmacro awaited)
  refine ⟨List.forall_mem_singleton.mpr ⟨?_, ?_⟩, fun depth => scans_of_idle ?_, ?_⟩
  · unfold bufferSizeText
    simp only [List.count_append, count_quote_eq_zero (by decide) hmacro]
    decide
  · have hlast : ("    (4 * 1024) // 4KB" : Text).getLast? = some 'B' := by decide
    unfold bufferSizeText
    rw [List.getLast?_append, hlast, Option.some_or]
    decide
  · exact List.forall_mem_singleton.mpr (conditionalStep_idle rfl rfl depth)
  · have htext : [bufferSizeText interface].flatMap line =
        ("#define " ++ bufferSizeMacro interface.name) ++ line "    (4 * 1024) // 4KB" := by
      unfold bufferSizeText
      exact (List.flatMap_singleton _ _).trans (List.append_assoc _ _ _)
    rw [htext]
    exact hbrackets.append hvalue

def innerSections (imports : List Text) (interface : Interface) (target : Target) :
    List (List Text) :=
  [(includes imports target).lines,
    ["#ifdef __cplusplus", "extern \"C\" \x7b", "#endif /* __cplusplus */"],
    ["struct " ++ remoteServiceName ++ ";"],
    [descriptorText interface],
    [majorText interface, minorText interface],
    [bufferSizeText interface],
    commandOpening :: (commandList interface ++ [blockEnd]),
    tableOpening interface.name :: (tableList interface target ++ [blockEnd]),
    (interface.lifecycle target).getters.lineList,
    (interface.lifecycle target).releases.lineList,
    ["#ifdef __cplusplus", "\x7d", "#endif /* __cplusplus */"]]

def innerLines (imports : List Text) (interface : Interface) (target : Target) : List Text :=
  [[]] ++ List.intercalate [[]] (innerSections imports interface target) ++ [[]]

theorem lineList_eq_guarded (imports : List Text) (interface : Interface) (target : Target) :
    lineList imports interface target =
      guardedLines (guardMacro interface.fullName) (innerLines imports interface target) := by
  unfold lineList sectionLines guardedLines innerLines innerSections
  simp only [List.intercalate_cons_cons, List.intercalate_singleton, List.cons_append,
    List.nil_append, List.append_assoc]

section

variable {document : Document} {interface : Interface} (h : Readable document interface)
include h

theorem Readable.inert_descriptorText : Inert (descriptorText interface) := by
  have hname := all_isNameChar_of_isIdentifier (Interface.isSpellable_iff.mp h.spellable).1
  have hfull := h.all_isPathChar_fullName
  have hmacro : (descriptorMacro interface.name).all isNameChar = true := by
    unfold descriptorMacro
    simp only [List.all_append, all_isNameChar_toUpper hname]
    decide
  have hvalue : (" \"" ++ interface.fullName ++ "\"" : Text).all isDirectiveChar = true := by
    simp only [List.all_append, all_isDirectiveChar_of_isPathChar hfull]
    decide
  have heven : Even ((" \"" ++ interface.fullName ++ "\"" : Text).count '"') := by
    simp only [List.count_append, count_quote_eq_zero (by decide) hfull]
    decide
  have hline := inert_define hmacro hvalue heven
  unfold descriptorText
  simpa only [List.append_assoc] using hline

theorem Readable.inert_versionTexts :
    ∀ l ∈ [majorText interface, minorText interface], Inert l := by
  have hname := all_isNameChar_of_isIdentifier (Interface.isSpellable_iff.mp h.spellable).1
  have hsnake := all_isNameChar_upperSnake hname
  have hmajor : (majorVersionMacro interface.name).all isNameChar = true := by
    unfold majorVersionMacro
    simp only [List.all_append, hsnake]
    decide
  have hminor : (minorVersionMacro interface.name).all isNameChar = true := by
    unfold minorVersionMacro
    simp only [List.all_append, hsnake]
    decide
  rw [List.forall_mem_cons, List.forall_mem_singleton]
  exact ⟨inert_define_decimal hmajor _, inert_define_decimal hminor _⟩

/-- All sections in their order, with the brackets that each of them leaves open. -/
theorem Readable.linesRun_innerSections (target : Target) :
    LinesRun [] (List.intercalate [[]] (innerSections document.imports interface target)) [] := by
  have hidentifier := (Interface.isSpellable_iff.mp h.spellable).1
  have hname := all_isNameChar_of_isIdentifier hidentifier
  have hincludes := inert_includes
    (fun name hmem => all_isPathChar_of_isDottedName (h.imports name hmem)) target
  have hremote : Inert ("struct " ++ remoteServiceName ++ ";") :=
    ⟨by decide, by decide, rfl, rfl⟩
  have hdescriptor := List.forall_mem_singleton.mpr h.inert_descriptorText
  have hcommands := codeRun_commandLines h.spellable ['\x7d']
  have htable := codeRun_methodTable h.spellable target ['\x7d']
  have hgetters := Interface.codeRun_getters hidentifier target ['\x7d']
  have hreleases := Interface.codeRun_releases hidentifier target ['\x7d']
  rw [commandLines_eq] at hcommands
  rw [methodTable_eq] at htable
  rw [getters_lines_eq] at hgetters
  rw [releases_lines_eq] at hreleases
  refine .section_cons (.of_inert hincludes []) ?_
  refine .section_cons (linesRun_linkageOpening []) ?_
  refine .section_cons (.of_inert (List.forall_mem_singleton.mpr hremote) _) ?_
  refine .section_cons (.of_inert hdescriptor _) ?_
  refine .section_cons (.of_inert h.inert_versionTexts _) ?_
  refine .section_cons (linesRun_bufferSizeText hname _) ?_
  refine .section_cons (.of_code hcommands) ?_
  refine .section_cons (.of_code htable) ?_
  refine .section_cons (.of_code hgetters) ?_
  refine .section_cons (.of_code hreleases) ?_
  rw [List.intercalate_singleton]
  exact linesRun_linkageClosing []

theorem Readable.linesRun_innerLines (target : Target) :
    LinesRun [] (innerLines document.imports interface target) [] := by
  have hblank : LinesRun [] [[]] [] := .of_inert (List.forall_mem_singleton.mpr inert_nil) []
  exact (hblank.append (h.linesRun_innerSections target)).append hblank

end

end Header

/-- All that is opened in a header under the given guard is closed in it. The depth is that of the
conditionals after each of the first `n` lines. -/
structure WellNested (guard t : Text) : Prop where
  brackets : isWellBracketed t = true
  quotes : ∀ l ∈ t.lines, Even (l.count '"')
  conditionals : conditionalDepth t.lines = some 0
  inside : ∀ n, 0 < n → n < t.lines.length →
    ∃ depth, 0 < depth ∧ conditionalDepth (t.lines.take n) = some depth
  guarded : ∃ between, t.lines =
    ("#ifndef " ++ guard) :: ("#define " ++ guard) :: (between ++ ["#endif // " ++ guard])

/-- Whatever an interface is called and however many methods, parameters and imports there are: no
header with C identifiers in it leaves a bracket, a quote or a conditional open, and all of it
stands inside the include guard. -/
theorem readable_header_is_wellNested {document : Document} {interface : Interface}
    (h : Header.Readable document interface) (target : Target) :
    WellNested (guardMacro interface.fullName) (Header.text document interface target) := by
  have hguard := all_isNameChar_guardMacro interface.fullName
  have hinner := h.linesRun_innerLines target
  have hlist := Header.lineList_eq_guarded document.imports interface target
  have htext : Header.text document interface target =
      (Header.lineList document.imports interface target).flatMap line := by
    rw [Header.text_eq_lines, h.license, Header.banner, List.nil_append]
  have hquoted := quoted_guardedLines hguard hinner
  have hlines : (Header.text document interface target).lines =
      guardedLines (guardMacro interface.fullName)
        (Header.innerLines document.imports interface target) := by
    have hsplit := h.splitOn_text target
    rw [hlist] at hsplit
    exact lines_of_splitOn hsplit fun l hl => (hquoted l hl).kept
  constructor
  · rw [isWellBracketed, htext, hlist, scans_guardedLines hguard hinner]
    rfl
  · rw [hlines]
    exact fun l hl => (hquoted l hl).even
  · rw [hlines]
    exact conditionalDepth_guardedLines hguard hinner
  · rw [hlines]
    exact fun n hpos hn => depth_pos_guardedLines hguard hinner hpos hn
  · exact ⟨_, hlines⟩

def gaugeService : Interface :=
  { package := "ohos.hdi.gauge.v1_0"
    name := "IGauge"
    version := ⟨1, 0⟩
    role := .normal
    methods :=
      [⟨"ReadCalibratedSamples",
          [⟨"requestedChannels", .input, .sequence .list (.scalar .uint)⟩,
            ⟨"calibration", .input, .named .struct "GaugeCalibration"⟩,
            ⟨"calibratedSamples", .output, .sequence .array (.named .union "GaugeSample")⟩]⟩,
        ⟨"Reset", []⟩] }

def gaugeDocument : Document :=
  { kind := .interface
    license := none
    imports := ["ohos.hdi.gauge.v1_0.GaugeTypes"]
    interface := some gaugeService }

theorem gaugeService_header_is_wellNested :
    Header.Readable gaugeDocument gaugeService ∧
      WellNested "OHOS_HDI_GAUGE_V1_0_IGAUGE_H" (Header.text gaugeDocument gaugeService .user) := by
  have hreadable : Header.Readable gaugeDocument gaugeService :=
    ⟨rfl, by decide, Or.inr (by decide), by decide⟩
  have hguard : guardMacro gaugeService.fullName = "OHOS_HDI_GAUGE_V1_0_IGAUGE_H" := by decide
  exact ⟨hreadable, hguard ▸ readable_header_is_wellNested hreadable .user⟩

end DriverHeader
