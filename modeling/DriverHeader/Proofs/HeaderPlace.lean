import DriverHeader.Proofs.StagedFile

/-! # Where a header can land

A dot in a package or a name becomes a separator, so no dot is left over to climb with. The place
of a header below its root depends on package and name only; it leaves the root if and only if one
of the two opens with a separator.
-/
namespace DriverHeader

/-- A dotted name that opens with a separator: its stem is an absolute path. -/
def OpensAtRoot (name : Text) : Prop := name.head? = some '.' ∨ name.head? = some '/'

instance (name : Text) : Decidable (OpensAtRoot name) := inferInstanceAs (Decidable (_ ∨ _))

def placeBelowRoot (package name : Text) : Text := headerPath (packageDirectory [] package) name

theorem headerPath_eq_joinPath (root package name : Text) :
    headerPath (packageDirectory root package) name =
      joinPath root (placeBelowRoot package name) := by
  unfold placeBelowRoot headerPath packageDirectory
  split
  · rw [joinPath_nil]
  · next hpackage => rw [joinPath_nil, joinPath_assoc root (fileStem_ne_nil hpackage)]

theorem head?_fileStem_eq_slash {name : Text} :
    (fileStem name).head? = some '/' ↔ OpensAtRoot name := by
  rw [head?_fileStem, OpensAtRoot]
  cases name.head? with
  | none => simp
  | some c => simp [stemChar_eq_slash]

theorem head?_headerFile_eq_slash {name : Text} :
    (fileStem name ++ ".h").head? = some '/' ↔ OpensAtRoot name := by
  rw [← head?_fileStem_eq_slash]
  by_cases hstem : fileStem name = []
  · rw [hstem]
    decide
  · rw [List.head?_append_of_ne_nil _ hstem]

/-- A name that opens with a separator stands for itself. -/
theorem headerPath_of_opensAtRoot (directory : Text) {name : Text} (h : OpensAtRoot name) :
    headerPath directory name = fileStem name ++ ".h" :=
  joinPath_of_absolute directory (head?_headerFile_eq_slash.mpr h)

/-- The header's own name comes after the stem of the package, if there is one to come after. -/
theorem placeBelowRoot_cases (package name : Text) :
    (OpensAtRoot name ∨ package = []) ∧ placeBelowRoot package name = fileStem name ++ ".h" ∨
      ¬ OpensAtRoot name ∧ package ≠ [] ∧ placeBelowRoot package name =
        fileStem package ++ separatorAfter (fileStem package) ++ (fileStem name ++ ".h") := by
  by_cases hname : OpensAtRoot name
  · exact Or.inl ⟨Or.inl hname, headerPath_of_opensAtRoot _ hname⟩
  · by_cases hpackage : package = []
    · subst hpackage
      exact Or.inl ⟨Or.inr rfl, joinPath_nil _⟩
    · refine Or.inr ⟨hname, hpackage, ?_⟩
      rw [placeBelowRoot, packageDirectory, if_neg hpackage, joinPath_nil, headerPath,
        joinPath_of_relative _ (mt head?_headerFile_eq_slash.mp hname)]

theorem head?_placeBelowRoot {package name : Text} :
    (placeBelowRoot package name).head? = some '/' ↔ OpensAtRoot package ∨ OpensAtRoot name := by
  rcases placeBelowRoot_cases package name with ⟨hfree, heq⟩ | ⟨hname, hpackage, heq⟩
  · rw [heq, head?_headerFile_eq_slash]
    rcases hfree with hname | rfl
    · exact iff_of_true hname (Or.inr hname)
    · simp [OpensAtRoot]
  · rw [heq, List.append_assoc, List.head?_append_of_ne_nil _ (fileStem_ne_nil hpackage),
      head?_fileStem_eq_slash, or_iff_left hname]

theorem placeBelowRoot_eq_stem (package name : Text) :
    ∃ stem : Text, placeBelowRoot package name = stem ++ ".h" ∧ '.' ∉ stem := by
  have hname := dot_not_mem_fileStem name
  rcases placeBelowRoot_cases package name with ⟨_, heq⟩ | ⟨_, _, heq⟩
  · exact ⟨fileStem name, heq, hname⟩
  · refine ⟨fileStem package ++ separatorAfter (fileStem package) ++ fileStem name, ?_, ?_⟩
    · rw [heq]
      simp only [List.append_assoc]
    · have hseparator : '.' ∉ separatorAfter (fileStem package) := by
        unfold separatorAfter
        split <;> decide
      simp [dot_not_mem_fileStem package, hseparator, hname]

theorem piece_ne_dots {stem piece : Text} (hstem : '.' ∉ stem)
    (hpiece : piece ∈ (stem ++ ".h").splitOn '/') : piece ≠ "." ∧ piece ≠ ".." := by
  rcases mem_splitOn_headerName hstem hpiece with hdot | hlast
  · constructor <;> (rintro rfl; exact hdot (by decide))
  · constructor <;> (rintro rfl; exact absurd hlast (by decide))

theorem placeBelowRoot_ne_dots {package name piece : Text}
    (h : piece ∈ (placeBelowRoot package name).splitOn '/') : piece ≠ "." ∧ piece ≠ ".." := by
  obtain ⟨stem, heq, hstem⟩ := placeBelowRoot_eq_stem package name
  exact piece_ne_dots hstem (heq ▸ h)

theorem step_of_placeBelowRoot {package name : Text} {step : Step}
    (h : step ∈ Path.stepsOf (placeBelowRoot package name)) : ∃ piece, step = .name piece := by
  obtain ⟨stem, heq, hstem⟩ := placeBelowRoot_eq_stem package name
  obtain ⟨piece, hpiece, _⟩ := step_of_headerName hstem (heq ▸ h)
  exact ⟨piece, hpiece⟩

/-- A header lands below its root, along names, unless its package or its name opens with a
separator. Then its path is absolute and does not depend on what the separator cuts off; even so it
holds no dots to climb with. -/
theorem header_place_below_root (root package name : Text) :
    (¬ OpensAtRoot package → ¬ OpensAtRoot name →
      ∃ remainder : Text,
        headerPath (packageDirectory root package) name =
          root ++ separatorAfter root ++ remainder ∧
        remainder.head? ≠ some '/' ∧
        (∃ stem : Text, remainder = stem ++ ".h" ∧ '.' ∉ stem) ∧
        (∀ piece ∈ remainder.splitOn '/', piece ≠ "." ∧ piece ≠ "..") ∧
        ∃ steps, Path.stepsOf (headerPath (packageDirectory root package) name) =
          Path.stepsOf root ++ steps ∧ ∀ step ∈ steps, ∃ piece, step = .name piece) ∧
    (OpensAtRoot name →
      (headerPath (packageDirectory root package) name).head? = some '/' ∧
      (∀ piece ∈ (headerPath (packageDirectory root package) name).splitOn '/',
        piece ≠ "." ∧ piece ≠ "..") ∧
      ∀ root' package', headerPath (packageDirectory root' package') name =
        headerPath (packageDirectory root package) name) ∧
    (¬ OpensAtRoot name → OpensAtRoot package →
      (headerPath (packageDirectory root package) name).head? = some '/' ∧
      (∀ piece ∈ (headerPath (packageDirectory root package) name).splitOn '/',
        piece ≠ "." ∧ piece ≠ "..") ∧
      ∀ root', headerPath (packageDirectory root' package) name =
        headerPath (packageDirectory root package) name) := by
  refine ⟨fun hpackage hname => ?_, fun hname => ?_, fun _ hpackage => ?_⟩
  · have hrelative : (placeBelowRoot package name).head? ≠ some '/' :=
      mt head?_placeBelowRoot.mp (not_or.mpr ⟨hpackage, hname⟩)
    rw [headerPath_eq_joinPath]
    exact ⟨placeBelowRoot package name, joinPath_of_relative root hrelative, hrelative,
      placeBelowRoot_eq_stem package name, fun _ => placeBelowRoot_ne_dots,
      Path.stepsOf (placeBelowRoot package name), Path.stepsOf_joinPath hrelative,
      fun _ => step_of_placeBelowRoot⟩
  · rw [headerPath_of_opensAtRoot _ hname]
    exact ⟨head?_headerFile_eq_slash.mpr hname, fun _ => piece_ne_dots (dot_not_mem_fileStem name),
      fun _ _ => headerPath_of_opensAtRoot _ hname⟩
  · have habsolute := head?_placeBelowRoot.mpr (Or.inl hpackage : OpensAtRoot package ∨ OpensAtRoot name)
    have hplace : ∀ root', headerPath (packageDirectory root' package) name =
        placeBelowRoot package name :=
      fun root' => (headerPath_eq_joinPath root' package name).trans
        (joinPath_of_absolute root' habsolute)
    rw [hplace root]
    exact ⟨habsolute, fun _ => placeBelowRoot_ne_dots, hplace⟩

/-- Dots in a row stay below a root that climbs itself; one in front of a name leaves it. -/
theorem dotted_names_land :
    (∃ remainder : Text,
      headerPath (packageDirectory "../out" "ohos..hdi") "I..Foo" = "../out" ++ "/" ++ remainder ∧
        ∀ piece ∈ remainder.splitOn '/', piece ≠ "." ∧ piece ≠ "..") ∧
    (∀ root package, headerPath (packageDirectory root package) ".IFoo" = "/ifoo.h") ∧
    ∀ root, headerPath (packageDirectory root ".ohos.") "IFoo" = "/ohos/ifoo.h" := by
  refine ⟨?_, ?_, ?_⟩
  · obtain ⟨remainder, hpath, _, _, hpieces, _⟩ :=
      (header_place_below_root "../out" "ohos..hdi" "I..Foo").1 (by decide) (by decide)
    exact ⟨remainder, hpath, hpieces⟩
  · have hname := (header_place_below_root [] [] ".IFoo").2.1 (by decide)
    exact fun root package => (hname.2.2 root package).trans (by decide)
  · have hpackage := (header_place_below_root [] ".ohos." "IFoo").2.2 (by decide) (by decide)
    exact fun root => (hpackage.2.2 root).trans (by decide)

end DriverHeader
