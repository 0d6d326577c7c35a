import DriverHeader.Placement
import DriverHeader.Proofs.DirectoryCreation
import DriverHeader.Proofs.FileStem
import DriverHeader.Proofs.PathJoin
import Mathlib.Data.List.Nodup
import Mathlib.Data.List.Perm.Subperm

/-! # Writing a header beside its place

A header is written under a temporary name in its directory and then moved. The temporary name is
free, and the path of a header never leads through it: no step of the header's own name holds a
dot, save the last one, which ends in `.h`. So whatever the file tree, writing in two stages is the
same as replacing the header at once, and a failure leaves the tree as it was.
-/
namespace DriverHeader

theorem mem_splitOn_headerName {stem piece : Text} (hstem : '.' ∉ stem)
    (hpiece : piece ∈ (stem ++ ".h").splitOn '/') : '.' ∉ piece ∨ piece.getLast? = some 'h' := by
  induction stem generalizing piece with
  | nil =>
    right
    have hone : (([] : Text) ++ ".h").splitOn '/' = [(".h" : Text)] := by decide
    rw [hone, List.mem_singleton] at hpiece
    subst hpiece
    rfl
  | cons c stem ih =>
    have hc : '.' ≠ c := fun h => hstem (h ▸ List.mem_cons_self)
    have hrest : '.' ∉ stem := fun h => hstem (List.mem_cons_of_mem _ h)
    rw [List.cons_append, List.splitOn_cons_eq_if_modifyHead] at hpiece
    split at hpiece
    · rcases List.mem_cons.mp hpiece with rfl | hpiece
      · exact Or.inl List.not_mem_nil
      · exact ih hrest hpiece
    · obtain ⟨first, pieces, hsplit⟩ := List.exists_cons_of_ne_nil
        (List.splitOn_ne_nil '/' (stem ++ ".h"))
      rw [hsplit, List.modifyHead_cons] at hpiece
      rcases List.mem_cons.mp hpiece with rfl | hpiece
      · rcases ih hrest (hsplit ▸ List.mem_cons_self) with hdot | hlast
        · exact Or.inl (by simp [hc, hdot])
        · refine Or.inr ?_
          rw [List.getLast?_cons, hlast]
          rfl
      · exact ih hrest (hsplit ▸ List.mem_cons_of_mem _ hpiece)

/-- The steps of a header's own name are names, and none is that of a temporary file. -/
theorem step_of_headerName {stem : Text} (hstem : '.' ∉ stem) {step : Step}
    (h : step ∈ Path.stepsOf (stem ++ ".h")) :
    ∃ piece, step = .name piece ∧ ∀ n, piece ≠ LooseTree.temporaryName n := by
  obtain ⟨piece, hpiece, rfl⟩ := List.mem_map.mp h
  have hmem := (List.mem_filter.mp hpiece).1
  -- a text with a dot that does not end in `h`
  have hother : ∀ other : Text, '.' ∈ other → other.getLast? ≠ some 'h' → piece ≠ other := by
    rintro other hdot hlast rfl
    rcases mem_splitOn_headerName hstem hmem with hno | hend
    · exact hno hdot
    · exact hlast hend
  refine ⟨piece, ?_, ?_⟩
  · unfold Step.ofPiece
    rw [if_neg (hother _ (by decide) (by decide)), if_neg (hother _ (by decide) (by decide))]
  · intro n
    refine hother _ (by simp [LooseTree.temporaryName]) ?_
    obtain ⟨digits, last, hdigits⟩ := List.eq_nil_or_concat (Text.decimal n) |>.resolve_left
      Nat.toDigits_ne_nil
    have hlast : last.isDigit = true :=
      Nat.isDigit_of_mem_toDigits (by decide) (by decide)
        (show last ∈ Text.decimal n by rw [hdigits]; simp)
    rw [LooseTree.temporaryName, hdigits, List.concat_eq_append, ← List.append_assoc,
      List.getLast?_concat]
    rintro ⟨⟩
    exact absurd hlast (by decide)

theorem headerPath_cases (directory name : Text) :
    (headerPath directory name = fileStem name ++ ".h" ∧
      ((headerPath directory name).head? = some '/' ∨ directory = [])) ∨
    (directory ≠ [] ∧ (headerPath directory name).head? = directory.head? ∧
      Path.stepsOf (headerPath directory name) =
        Path.stepsOf directory ++ Path.stepsOf (fileStem name ++ ".h")) := by
  unfold headerPath
  by_cases habsolute : (fileStem name ++ ".h").head? = some '/'
  · rw [joinPath_of_absolute directory habsolute]
    exact Or.inl ⟨rfl, Or.inl habsolute⟩
  · by_cases hempty : directory = []
    · subst hempty
      exact Or.inl ⟨joinPath_nil _, Or.inr rfl⟩
    · refine Or.inr ⟨hempty, ?_, Path.stepsOf_joinPath habsolute⟩
      rw [joinPath_of_relative directory habsolute, List.append_assoc,
        List.head?_append_of_ne_nil directory hempty]

namespace LooseTree

/-- The header's own name is looked for from a directory. -/
theorem exists_base_of_headerPath {tree : LooseTree} {directory name : Text} {location : Location}
    {path : Path} (hdirectory : tree.stagingDirectory directory = .ok location)
    (hpath : Path.ofText (headerPath directory name) = .ok path) :
    ∃ front base, path.steps = front ++ Path.stepsOf (fileStem name ++ ".h") ∧
      front.foldlM tree.advance (tree.start path) = .ok base ∧
      tree.lookup? base = some .directory := by
  obtain ⟨_, _, _, rfl⟩ := Path.ofText_eq_ok hpath
  obtain ⟨_, hlocation, hfound⟩ := stagingDirectory_eq_ok hdirectory
  rcases headerPath_cases directory name with ⟨htext, habsolute | hempty⟩ | ⟨hne, hhead, hsteps⟩
  · refine ⟨[], [], by simp [htext], ?_, tree.lookup?_nil⟩
    simp [start, habsolute]
    rfl
  · rw [if_pos hempty] at hfound
    subst hfound
    by_cases habsolute : (headerPath directory name).head? = some '/'
    · refine ⟨[], [], by simp [htext], ?_, tree.lookup?_nil⟩
      simp [start, habsolute]
      rfl
    · refine ⟨[], tree.workingDirectory, by simp [htext], ?_, hlocation⟩
      simp [start, habsolute]
      rfl
  · rw [if_neg hne] at hfound
    obtain ⟨above, habove, hresolve⟩ := hfound
    obtain ⟨_, _, _, rfl⟩ := Path.ofText_eq_ok habove
    refine ⟨Path.stepsOf directory, location, hsteps, ?_, hlocation⟩
    have hstart : tree.start ⟨(headerPath directory name).head? = some '/',
        Path.stepsOf (headerPath directory name), (headerPath directory name).getLast? = some '/'⟩ =
        tree.start ⟨directory.head? = some '/', Path.stepsOf directory,
          directory.getLast? = some '/'⟩ := by
      simp only [start, hhead]
    rw [hstart]
    exact hresolve

/-- There is always a free name, since the tree has fewer entries than there are names to try. -/
theorem exists_freeName (tree : LooseTree) (location : Location) :
    ∃ n, tree.freeName? location = some (temporaryName n) ∧
      tree.lookup? (location ++ [temporaryName n]) = none := by
  cases hfree : tree.freeName? location with
  | some name =>
    have hmem := List.mem_of_find?_eq_some hfree
    have htest := List.find?_some hfree
    obtain ⟨n, _, rfl⟩ := List.mem_map.mp hmem
    exact ⟨n, rfl, by simpa using htest⟩
  | none =>
    exfalso
    let names := (List.range (tree.entries.size + 1)).map temporaryName
    have htaken : ∀ name ∈ names, location ++ [name] ∈ tree.entries.keys := by
      intro name hname
      have hsome : tree.lookup? (location ++ [name]) ≠ none := by
        simpa using List.find?_eq_none.mp hfree name hname
      rw [lookup?_of_ne_nil _ (by simp)] at hsome
      rw [Std.ExtTreeMap.mem_keys, Std.ExtTreeMap.mem_iff_isSome_getElem?]
      exact Option.isSome_iff_ne_none.mpr hsome
    have hnodup : (names.map fun name => location ++ [name]).Nodup := by
      rw [List.map_map]
      refine List.Nodup.map ?_ List.nodup_range
      intro m n heq
      have hname := List.append_cancel_left heq
      exact decimal_injective (List.append_cancel_left (List.cons.inj hname).1)
    have hsubset : (names.map fun name => location ++ [name]) ⊆ tree.entries.keys := by
      intro key hkey
      obtain ⟨name, hname, rfl⟩ := List.mem_map.mp hkey
      exact htaken name hname
    have hlength := (hnodup.subperm hsubset).length_le
    rw [Std.ExtTreeMap.length_keys] at hlength
    simp only [names, List.length_map, List.length_range] at hlength
    omega

section Staging

variable {tree : LooseTree} {temporary : Location} (hfree : tree.lookup? temporary = none)
include hfree

theorem temporary_ne_nil : temporary ≠ [] := by
  rintro rfl
  simp at hfree

theorem erase_put_put (a b : Entry) :
    ((tree.put temporary a).put temporary b).erase temporary = tree := by
  have habsent : tree.entries[temporary]? = none := by
    rw [← lookup?_of_ne_nil tree (temporary_ne_nil hfree)]
    exact hfree
  apply ext_entries
  · rfl
  · intro location
    rw [getElem?_erase, getElem?_put, getElem?_put]
    by_cases h : location = temporary
    · rw [if_pos h, h, habsent]
    · rw [if_neg h, if_neg h, if_neg h]

/-- Steps that keep away from a new file lead where they led before, and not to the file. -/
theorem follow_put {steps : List Step} (entry : Entry) {location : Location}
    (hlocation : location ≠ temporary)
    (hsteps : ∀ step ∈ steps, ∃ piece, step = .name piece ∧ temporary.getLast? ≠ some piece) :
    steps.foldlM (tree.put temporary entry).advance location =
        steps.foldlM tree.advance location ∧
      ∀ place, steps.foldlM tree.advance location = .ok place → place ≠ temporary := by
  induction steps generalizing location with
  | nil =>
    refine ⟨rfl, ?_⟩
    rintro place ⟨⟩
    exact hlocation
  | cons step steps ih =>
    obtain ⟨piece, rfl, hpiece⟩ := hsteps step List.mem_cons_self
    have hadvance : (tree.put temporary entry).advance location (.name piece) =
        tree.advance location (.name piece) := by
      apply advance_congr
      rw [lookup?_put tree (temporary_ne_nil hfree), if_neg hlocation]
    rw [List.foldlM_cons, List.foldlM_cons, hadvance]
    cases hnext : tree.advance location (.name piece) with
    | error cause =>
      refine ⟨rfl, ?_⟩
      rintro place ⟨⟩
    | ok next =>
      have hne : next ≠ temporary := by
        have hentry := directory_of_advance hnext
        simp only [advance, hentry] at hnext
        split at hnext
        · cases hnext
        · rintro rfl
          obtain rfl := Except.ok.inj hnext
          exact hpiece (by simp)
      exact ih hne (fun s hs => hsteps s (List.mem_cons_of_mem _ hs))

/-- A temporary file beside a header does not change where the header can be put. -/
theorem destination_put {directory name : Text} {location : Location} {n : Nat} {entry : Entry}
    (hdirectory : tree.stagingDirectory directory = .ok location)
    (htemporary : temporary = location ++ [temporaryName n]) :
    (tree.put temporary entry).destination (headerPath directory name) =
      tree.destination (headerPath directory name) := by
  unfold destination
  split
  · rfl
  · cases hpath : Path.ofText (headerPath directory name) with
    | error cause => rfl
    | ok path =>
      obtain ⟨front, base, hsteps, hbase, hentry⟩ := exists_base_of_headerPath hdirectory hpath
      have hkeeps : KeepsDirectories tree (tree.put temporary entry) :=
        keepsDirectories_put tree (by simp [hfree])
      have hne : base ≠ temporary := by
        rintro rfl
        rw [hfree] at hentry
        cases hentry
      have hnames : ∀ step ∈ Path.stepsOf (fileStem name ++ ".h"),
          ∃ piece, step = .name piece ∧ temporary.getLast? ≠ some piece := by
        intro step hstep
        obtain ⟨piece, rfl, hpiece⟩ := step_of_headerName (dot_not_mem_fileStem _) hstep
        refine ⟨piece, rfl, ?_⟩
        rw [htemporary, List.getLast?_concat]
        rintro ⟨⟩
        exact hpiece n rfl
      obtain ⟨hsame, hplace⟩ := follow_put hfree entry hne hnames
      have hresolve : tree.resolve path =
          (Path.stepsOf (fileStem name ++ ".h")).foldlM tree.advance base := by
        rw [resolve, hsteps, List.foldlM_append, hbase]
        rfl
      have hresolve' : (tree.put temporary entry).resolve path =
          (Path.stepsOf (fileStem name ++ ".h")).foldlM tree.advance base := by
        rw [← hsame, resolve, hsteps, List.foldlM_append]
        have hfront : front.foldlM (tree.put temporary entry).advance
            ((tree.put temporary entry).start path) = .ok base := hkeeps.follow hbase
        rw [hfront]
        rfl
      simp only [bind, Except.bind, hresolve, hresolve']
      cases hfound : (Path.stepsOf (fileStem name ++ ".h")).foldlM tree.advance base with
      | error cause => rfl
      | ok place =>
        simp only [lookup?_put tree (temporary_ne_nil hfree), if_neg (hplace place hfound)]

end Staging

/-- Writing a header beside its place and moving it is the same as replacing it at once. -/
theorem placeFile_of_stagingDirectory {tree : LooseTree} {directory : Text} {location : Location}
    (hdirectory : tree.stagingDirectory directory = .ok location) (name : Text)
    (content : FileContent) :
    tree.placeFile directory (headerPath directory name) content =
      match tree.destination (headerPath directory name) with
      | .ok place => (tree.put place (.file content), none)
      | .error cause => (tree, some cause) := by
  obtain ⟨n, hname, hfree⟩ := exists_freeName tree location
  let temporary := location ++ [temporaryName n]
  let written := (tree.put temporary (.file (.text []))).put temporary (.file content)
  have hcreate : tree.createTemporary directory =
      .ok (temporary, tree.put temporary (.file (.text []))) := by
    simp only [createTemporary, hdirectory, bind, Except.bind, hname, temporary]
  have hwritten : written = tree.put temporary (.file content) := by
    apply ext_entries
    · rfl
    · intro other
      rw [getElem?_put, getElem?_put, getElem?_put]
      split <;> rfl
  have hdestination : written.destination (headerPath directory name) =
      tree.destination (headerPath directory name) := by
    rw [hwritten]
    exact destination_put hfree hdirectory rfl
  have hentry : written.lookup? temporary = some (.file content) :=
    lookup?_put_self _ (temporary_ne_nil hfree) _
  have herase : written.erase temporary = tree := erase_put_put hfree _ _
  have hmove : written.move temporary (headerPath directory name) =
      (tree.destination (headerPath directory name)).map (tree.put · (.file content)) := by
    rw [move, hdestination]
    cases tree.destination (headerPath directory name) with
    | error cause => rfl
    | ok place =>
      simp only [bind, Except.bind, hentry, herase]
      rfl
  unfold placeFile
  rw [hcreate]
  dsimp only
  rw [hmove, herase]
  cases tree.destination (headerPath directory name) with
  | error cause => rfl
  | ok place => rfl

theorem placeFile_of_error {tree : LooseTree} {directory : Text} {cause : Cause}
    (hdirectory : tree.stagingDirectory directory = .error cause) (path : Text)
    (content : FileContent) : tree.placeFile directory path content = (tree, some cause) := by
  simp only [placeFile, createTemporary, hdirectory, bind, Except.bind]

theorem KeepsDirectories.stagingDirectory {before after : LooseTree}
    (h : KeepsDirectories before after) {directory : Text} {location : Location}
    (hdirectory : before.stagingDirectory directory = .ok location) :
    after.stagingDirectory directory = .ok location := by
  obtain ⟨hfits, hlocation, hfound⟩ := stagingDirectory_eq_ok hdirectory
  unfold LooseTree.stagingDirectory
  rw [if_pos hfits]
  refine bind_eq_ok.mpr ⟨location, ?_, advance_here (h.directory location hlocation)⟩
  split at hfound
  · next hempty =>
    rw [if_pos hempty, hfound, h.workingDirectory]
  · next hempty =>
    obtain ⟨path, hpath, hresolve⟩ := hfound
    rw [if_neg hempty]
    exact bind_eq_ok.mpr ⟨path, hpath, h.resolve hresolve⟩

end LooseTree
end DriverHeader
