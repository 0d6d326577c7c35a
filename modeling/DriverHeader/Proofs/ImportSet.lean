import DriverHeader.Proofs.IncludePlacement
import Mathlib.Data.List.Nodup

/-! # Imports are a set

A document lists its imports, but its header depends on them only through the set of files that they
name, apart from the order of the include lines. An import that names a file once more changes nothing,
and no import is taken for a standard header.
-/
namespace DriverHeader

theorem eraseDups_perm {paths paths' : List Text} (h : paths.Perm paths') :
    paths.eraseDups.Perm paths'.eraseDups := by
  rw [List.perm_ext_iff_of_nodup (nodup_eraseDups paths) (nodup_eraseDups paths')]
  intro path
  rw [List.mem_eraseDups, List.mem_eraseDups, h.mem_iff]

theorem eraseDups_append_cons {earlier : List Text} {path : Text} (h : path ∈ earlier)
    (later : List Text) :
    (earlier ++ path :: later).eraseDups = (earlier ++ later).eraseDups := by
  have hremoved : (path :: later).removeAll earlier = later.removeAll earlier := by
    simp [List.removeAll, h]
  rw [List.eraseDups_append, List.eraseDups_append, hremoved]

namespace Header

def standardLines : Target → List Text
  | .user => ["#include <stdint.h>", "#include <stdbool.h>"]
  | .kernel => []

/-- One line for each file that the imports name, in the order in which they first do. -/
def generatedLines (imports : List Text) : List Text :=
  (imports.map fileStem).eraseDups.map fun stem => "#include \"" ++ stem ++ ".h\""

theorem includes_lines_eq (imports : List Text) (target : Target) :
    (includes imports target).lines = standardLines target ++ generatedLines imports := by
  have hstandard : (pathsOf .standard (standardIncludes target)).map
      (Include.line ∘ Include.mk .standard) = standardLines target := by
    cases target <;> rfl
  rw [IncludeSet.lines, IncludeSet.toList, List.map_append, List.map_map, List.map_map,
    includes_standard, includes_generated, hstandard]
  rfl

theorem generatedLines_perm {imports imports' : List Text} (h : imports.Perm imports') :
    (generatedLines imports).Perm (generatedLines imports') :=
  (eraseDups_perm (h.map fileStem)).map _

theorem generatedLines_append_cons {earlier : List Text} {name : Text}
    (h : fileStem name ∈ earlier.map fileStem) (later : List Text) :
    generatedLines (earlier ++ name :: later) = generatedLines (earlier ++ later) := by
  rw [generatedLines, generatedLines, List.map_append, List.map_cons, eraseDups_append_cons h,
    List.map_append]

theorem mem_generatedLines {imports : List Text} {name : Text} (h : name ∈ imports) :
    ("#include \"" : Text) ++ fileStem name ++ ".h\"" ∈ generatedLines imports :=
  List.mem_map_of_mem (List.mem_eraseDups.mpr (List.mem_map_of_mem h))

def around (document : Document) (interface : Interface) (includeLines : List Text) (below : Text) :
    Text :=
  banner document.license ++ guardOpening interface.fullName ++ "\n" ++ includeLines.flatMap line
    ++ below

/-- The imports decide about the include lines of a header and about nothing else. -/
theorem text_eq_around (document : Document) (interface : Interface) (target : Target) :
    ∃ below : Text, ∀ imports : List Text,
      text { document with imports } interface target =
        around document interface (standardLines target ++ generatedLines imports) below := by
  refine ⟨"\n" ++ List.intercalate "\n" ((sections [] interface target).drop 2), ?_⟩
  intro imports
  rw [text, sections, List.intercalate_cons_cons, List.intercalate_cons_cons, importLines,
    includes_lines_eq, around]
  simp only [List.append_assoc]
  rfl

theorem nodup_lines (imports : List Text) (target : Target) :
    (standardLines target ++ generatedLines imports).Nodup :=
  includes_lines_eq imports target ▸ nodup_includes_lines imports target

/-- A generated header that has the name of a standard one is included beside it. -/
theorem count_standard_stem {imports : List Text} {name stem : Text} (hname : name ∈ imports)
    (hstem : stem ∈ (["stdint", "stdbool"] : List Text)) (hfile : fileStem name = stem) :
    (standardLines .user ++ generatedLines imports).count ("#include <" ++ stem ++ ".h>") = 1 ∧
    (standardLines .user ++ generatedLines imports).count ("#include \"" ++ stem ++ ".h\"") = 1 := by
  have hnodup := nodup_lines imports .user
  have hstandard : ("#include <" : Text) ++ stem ++ ".h>" ∈ standardLines .user := by
    simp only [List.mem_cons, List.not_mem_nil, or_false] at hstem
    rcases hstem with rfl | rfl <;> decide
  have hgenerated := mem_generatedLines hname
  rw [hfile] at hgenerated
  rw [hnodup.count, hnodup.count, if_pos (List.mem_append_left _ hstandard),
    if_pos (List.mem_append_right _ hgenerated)]
  exact ⟨rfl, rfl⟩

/-- The include lines of a header are distinct: the standard ones and one for each file that an import
names. They are also the lines of the section as a text, unless the name of an import breaks a line.
Another order of the imports only puts the generated lines in another order, and an import whose file
is named before it changes nothing. A file named like a standard header is included beside it. -/
theorem imports_form_a_set (document : Document) (interface : Interface) (target : Target) :
    ∃ below : Text,
      text document interface target =
        around document interface (standardLines target ++ generatedLines document.imports) below ∧
      (standardLines target ++ generatedLines document.imports).Nodup ∧
      ((∀ name ∈ document.imports, '\n' ∉ name) →
        ((standardLines target ++ generatedLines document.imports).flatMap line).splitOn '\n' =
          standardLines target ++ generatedLines document.imports ++ [[]]) ∧
      (∀ imports : List Text, imports.Perm document.imports →
        ∃ generated : List Text, generated.Perm (generatedLines document.imports) ∧
          text { document with imports } interface target =
            around document interface (standardLines target ++ generated) below) ∧
      (∀ (earlier later : List Text) (name : Text), document.imports = earlier ++ later →
        fileStem name ∈ earlier.map fileStem →
        text { document with imports := earlier ++ name :: later } interface target =
          text document interface target) ∧
      ∀ name ∈ document.imports, ∀ stem ∈ (["stdint", "stdbool"] : List Text), fileStem name = stem →
        target = .user →
        (standardLines target ++ generatedLines document.imports).count
          ("#include <" ++ stem ++ ".h>") = 1 ∧
        (standardLines target ++ generatedLines document.imports).count
          ("#include \"" ++ stem ++ ".h\"") = 1 := by
  obtain ⟨below, htext⟩ := text_eq_around document interface target
  refine ⟨below, htext document.imports, nodup_lines document.imports target, ?_, ?_, ?_, ?_⟩
  · intro hplain
    rw [← includes_lines_eq, splitOn_lines (newline_not_mem_includes hplain target)]
  · intro imports hperm
    exact ⟨generatedLines imports, generatedLines_perm hperm, htext imports⟩
  · intro earlier later name himports hstem
    rw [htext, generatedLines_append_cons hstem, ← himports]
    exact (htext document.imports).symm
  · rintro name hname stem hstem hfile rfl
    exact count_standard_stem hname hstem hfile

end Header

def clockImporter : Document :=
  { kind := .interface
    license := none
    imports := ["Stdint", "hal.IClock", "hal.iClock"]
    interface := none }

theorem clockImporter_lines :
    Header.standardLines .user ++ Header.generatedLines clockImporter.imports =
      (["#include <stdint.h>", "#include <stdbool.h>", "#include \"stdint.h\"",
        "#include \"hal/iclock.h\""] : List Text) ∧
    ∀ interface : Interface,
      Header.text { clockImporter with imports := ["Stdint", "hal.IClock"] } interface .user =
        Header.text clockImporter interface .user := by
  refine ⟨by decide, fun interface => ?_⟩
  obtain ⟨_, _, _, _, _, hagain, _⟩ := Header.imports_form_a_set
    { clockImporter with imports := ["Stdint", "hal.IClock"] } interface .user
  exact (hagain ["Stdint", "hal.IClock"] [] "hal.iClock" rfl (by decide)).symm

end DriverHeader
