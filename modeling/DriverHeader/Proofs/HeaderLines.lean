import DriverHeader.Proofs.TextLines

/-! # The lines of a header

The text of a header is put together from sections. Here it is the same text as one list of lines:
a wrapped declaration takes one line for its head and one for each parameter, and an empty line
stands between two sections.
-/
namespace DriverHeader

def wrapped (gap : Text) : Text → List Text → List Text
  | head, [] => [head ++ ");"]
  | head, fragment :: fragments => (head ++ ",") :: wrapped gap (gap ++ fragment) fragments

theorem flatMap_wrapped (gap head : Text) (fragments : List Text) :
    (wrapped gap head fragments).flatMap line =
      line (head ++ fragments.flatMap (fun fragment => (",\n" : Text) ++ gap ++ fragment)
        ++ ");") := by
  induction fragments generalizing head with
  | nil => simp [wrapped]
  | cons fragment fragments ih =>
    rw [wrapped, List.flatMap_cons, ih]
    simp [line]

namespace Method

def slotLines (method : Method) (owner indent : Text) : List Text :=
  if (method.slotLine owner indent).byteLength ≤ lineWidth then [method.slotLine owner indent]
  else wrapped (indent ++ tab) (method.slotHead owner indent) (method.params.map Parameter.fragment)

theorem line_slot (method : Method) (owner indent : Text) :
    line (method.slot owner indent) = (method.slotLines owner indent).flatMap line := by
  unfold slot slotLines
  split
  · simp
  · rw [flatMap_wrapped, List.flatMap_map]
    unfold slotWith lineBreak
    simp only [List.append_assoc]

end Method

/-- The lines of a group; its separator is empty or ends an empty line. -/
def DeclarationGroup.lineList (group : DeclarationGroup) : List Text :=
  group.comment.toList ++
    if group.separator = [] then group.declarations.map Declaration.text
    else (group.declarations.map Declaration.text).intersperse []

theorem intercalate_newline_lines (ls : List Text) :
    List.intercalate "\n" (ls.map line) = (ls.intersperse []).flatMap line := by
  induction ls with
  | nil => rfl
  | cons l ls ih =>
    cases ls with
    | nil => simp
    | cons next ls =>
      rw [List.map_cons, List.map_cons, List.intercalate_cons_cons, ← List.map_cons, ih]
      simp [line]

theorem intercalate_nil_lines (ls : List Text) :
    List.intercalate [] (ls.map line) = ls.flatMap line := by
  induction ls with
  | nil => rfl
  | cons l ls ih =>
    cases ls with
    | nil => simp
    | cons next ls =>
      rw [List.map_cons, List.map_cons, List.intercalate_cons_cons, ← List.map_cons, ih]
      simp

theorem DeclarationGroup.lines_eq {group : DeclarationGroup}
    (h : group.separator = [] ∨ group.separator = "\n") :
    group.lines = group.lineList.flatMap line := by
  have hcomment : group.comment.elim [] line = group.comment.toList.flatMap line := by
    cases group.comment <;> simp
  have hmap : (group.declarations.map fun d => line d.text) =
      (group.declarations.map Declaration.text).map line := by
    rw [List.map_map]
    rfl
  rw [lines, lineList, List.flatMap_append, hcomment, hmap]
  congr 1
  rcases h with h | h
  · rw [h, if_pos rfl, intercalate_nil_lines]
  · rw [h, if_neg (by decide), intercalate_newline_lines]

namespace Header

def commandOpening : Text := "enum \x7b"

def tableOpening (name : Text) : Text := "struct " ++ name ++ " \x7b"

def commandList (interface : Interface) : List Text :=
  (tab ++ commandName interface.name versionMethod.name ++ " = 0,") ::
    interface.methods.map fun method => tab ++ commandName interface.name method.name ++ ","

def tableList (interface : Interface) (target : Target) : List Text :=
  interface.methods.flatMap (fun method => method.slotLines interface.name tab ++ [[]])
    ++ versionMethod.slotLines interface.name tab
    ++ (interface.lifecycle target).objectAccessor.elim [] (fun slot => [[], tab ++ slot])

theorem commandLines_eq (interface : Interface) :
    commandLines interface =
      (commandOpening :: (commandList interface ++ [blockEnd])).flatMap line := by
  unfold commandLines commandList commandOpening blockEnd
  simp [List.flatMap_map]

theorem flatMap_tableList (interface : Interface) (target : Target) :
    (tableList interface target).flatMap line =
      interface.methods.flatMap (fun method => line (line (method.slot interface.name tab)))
        ++ line (versionMethod.slot interface.name tab)
        ++ (interface.lifecycle target).objectAccessor.elim []
          (fun slot => line [] ++ line (tab ++ slot)) := by
  have hslot : ∀ method : Method, line (line (method.slot interface.name tab)) =
      (method.slotLines interface.name tab ++ [[]]).flatMap line := by
    intro method
    rw [Method.line_slot, List.flatMap_append]
    rfl
  have haccessor : (interface.lifecycle target).objectAccessor.elim []
        (fun slot => line [] ++ line (tab ++ slot)) =
      ((interface.lifecycle target).objectAccessor.elim []
        (fun slot => [[], tab ++ slot])).flatMap line := by
    cases (interface.lifecycle target).objectAccessor <;> simp
  unfold tableList
  rw [haccessor, Method.line_slot]
  simp only [hslot, List.flatMap_append, List.flatMap_assoc]

theorem methodTable_eq (interface : Interface) (target : Target) :
    methodTable interface target =
      (tableOpening interface.name :: (tableList interface target ++ [blockEnd])).flatMap line := by
  rw [List.flatMap_cons, List.flatMap_append, flatMap_tableList]
  unfold methodTable tableOpening
  simp only [List.flatMap_cons, List.flatMap_nil, List.append_nil, List.append_assoc]
  rfl

theorem getters_lines_eq (interface : Interface) (target : Target) :
    (interface.lifecycle target).getters.lines =
      (interface.lifecycle target).getters.lineList.flatMap line := by
  cases target with
  | kernel => exact DeclarationGroup.lines_eq (Or.inr rfl)
  | user => exact DeclarationGroup.lines_eq (Or.inl rfl)

theorem releases_lines_eq (interface : Interface) (target : Target) :
    (interface.lifecycle target).releases.lines =
      (interface.lifecycle target).releases.lineList.flatMap line := by
  cases target <;> exact DeclarationGroup.lines_eq (Or.inl rfl)

def descriptorText (interface : Interface) : Text :=
  "#define " ++ descriptorMacro interface.name ++ " \"" ++ interface.fullName ++ "\""

def majorText (interface : Interface) : Text :=
  "#define " ++ majorVersionMacro interface.name ++ " "
    ++ Text.decimal interface.version.major.toNat

def minorText (interface : Interface) : Text :=
  "#define " ++ minorVersionMacro interface.name ++ " "
    ++ Text.decimal interface.version.minor.toNat

def bufferSizeText (interface : Interface) : Text :=
  "#define " ++ bufferSizeMacro interface.name ++ "    (4 * 1024) // 4KB"

def sectionLines (imports : List Text) (interface : Interface) (target : Target) :
    List (List Text) :=
  [["#ifndef " ++ guardMacro interface.fullName, "#define " ++ guardMacro interface.fullName],
    (includes imports target).lines,
    ["#ifdef __cplusplus", "extern \"C\" \x7b", "#endif /* __cplusplus */"],
    ["struct " ++ remoteServiceName ++ ";"],
    [descriptorText interface],
    [majorText interface, minorText interface],
    [bufferSizeText interface],
    commandOpening :: (commandList interface ++ [blockEnd]),
    tableOpening interface.name :: (tableList interface target ++ [blockEnd]),
    (interface.lifecycle target).getters.lineList,
    (interface.lifecycle target).releases.lineList,
    ["#ifdef __cplusplus", "\x7d", "#endif /* __cplusplus */"],
    ["#endif // " ++ guardMacro interface.fullName]]

def lineList (imports : List Text) (interface : Interface) (target : Target) : List Text :=
  List.intercalate [[]] (sectionLines imports interface target)

theorem sections_eq (imports : List Text) (interface : Interface) (target : Target) :
    sections imports interface target =
      (sectionLines imports interface target).map (List.flatMap line) := by
  unfold sections sectionLines
  rw [commandLines_eq, methodTable_eq, getters_lines_eq, releases_lines_eq]
  unfold guardOpening importLines linkageOpening remoteServiceDeclaration descriptorLine
    versionLines bufferSizeLine linkageClosing guardClosing
    descriptorText majorText minorText bufferSizeText
  simp only [List.map_cons, List.map_nil, List.flatMap_cons, List.flatMap_nil, List.append_nil,
    List.append_assoc]

theorem flatMap_intercalate_blank (sections : List (List Text)) :
    (List.intercalate [[]] sections).flatMap line =
      List.intercalate "\n" (sections.map (List.flatMap line)) := by
  induction sections with
  | nil => rfl
  | cons first sections ih =>
    cases sections with
    | nil => simp
    | cons next sections =>
      rw [List.intercalate_cons_cons, List.map_cons, List.map_cons, List.intercalate_cons_cons,
        ← List.map_cons, ← ih]
      simp [line]

theorem text_eq_lines (document : Document) (interface : Interface) (target : Target) :
    text document interface target =
      banner document.license ++ (lineList document.imports interface target).flatMap line := by
  rw [text, sections_eq, lineList, flatMap_intercalate_blank]

def openingLines (imports : List Text) (interface : Interface) (target : Target) : List Text :=
  ["#ifndef " ++ guardMacro interface.fullName, "#define " ++ guardMacro interface.fullName, []]
    ++ (includes imports target).lines
    ++ ([[], "#ifdef __cplusplus", "extern \"C\" \x7b", "#endif /* __cplusplus */",
      [], "struct " ++ remoteServiceName ++ ";",
      [], descriptorText interface,
      [], majorText interface, minorText interface,
      [], bufferSizeText interface] : List Text)

def closingLines (interface : Interface) (target : Target) : List Text :=
  [] :: ((interface.lifecycle target).getters.lineList
    ++ [] :: ((interface.lifecycle target).releases.lineList
    ++ ([[], "#ifdef __cplusplus", "\x7d", "#endif /* __cplusplus */",
      [], "#endif // " ++ guardMacro interface.fullName] : List Text)))

theorem lineList_eq (imports : List Text) (interface : Interface) (target : Target) :
    lineList imports interface target =
      openingLines imports interface target
        ++ [] :: commandOpening :: (commandList interface
        ++ blockEnd :: [] :: tableOpening interface.name :: (tableList interface target
        ++ blockEnd :: closingLines interface target)) := by
  unfold lineList sectionLines openingLines closingLines
  simp only [List.intercalate_cons_cons, List.intercalate_singleton, List.cons_append,
    List.nil_append, List.append_assoc]

end Header
end DriverHeader
