import DriverHeader.FileTree.WellFormed

/-! # What making directories does to a file tree

A path leads to a location through directories only, so it leads there in every tree that keeps
them. Making a directory with all above it therefore only adds directories, each where some of the
first steps of the path lead; this holds of one attempt, hence of the whole descent, whether it
succeeds or stops half-way.
-/
namespace DriverHeader

def Path.upTo (path : Path) (n : Nat) : Path := { path with steps := path.steps.take n }

namespace LooseTree

theorem ext_entries {a b : LooseTree} (hworking : a.workingDirectory = b.workingDirectory)
    (hentries : ∀ location : Location, a.entries[location]? = b.entries[location]?) : a = b := by
  obtain ⟨entries, working⟩ := a
  obtain ⟨entries', working'⟩ := b
  obtain rfl : entries = entries' := Std.ExtTreeMap.ext_getElem? hentries
  obtain rfl : working = working' := hworking
  rfl

theorem put_eq_self {tree : LooseTree} {location : Location} {entry : Entry} (hne : location ≠ [])
    (h : tree.lookup? location = some entry) : tree.put location entry = tree := by
  apply ext_entries
  · rfl
  · intro other
    rw [getElem?_put]
    split
    · next heq => rw [heq, ← lookup?_of_ne_nil tree hne, h]
    · rfl

theorem advance_congr {tree tree' : LooseTree} {location : Location}
    (h : tree'.lookup? location = tree.lookup? location) (step : Step) :
    tree'.advance location step = tree.advance location step := by
  unfold advance
  rw [h]

/-- Both trees have the same working directory, and the directories of one are also in the
other. -/
structure KeepsDirectories (before after : LooseTree) : Prop where
  workingDirectory : after.workingDirectory = before.workingDirectory
  directory : ∀ location, before.lookup? location = some .directory →
    after.lookup? location = some .directory

namespace KeepsDirectories

variable {before after : LooseTree} (h : KeepsDirectories before after)
include h

theorem advance {location location' : Location} {step : Step}
    (hstep : before.advance location step = .ok location') :
    after.advance location step = .ok location' := by
  have hbefore := directory_of_advance hstep
  have hafter := h.directory location hbefore
  rw [advance_congr (hafter.trans hbefore.symm), hstep]

theorem follow {steps : List Step} {location location' : Location}
    (hsteps : steps.foldlM before.advance location = .ok location') :
    steps.foldlM after.advance location = .ok location' := by
  induction steps generalizing location with
  | nil => exact hsteps
  | cons step steps ih =>
    rw [List.foldlM_cons] at hsteps ⊢
    obtain ⟨next, hnext, hrest⟩ := bind_eq_ok.mp hsteps
    exact bind_eq_ok.mpr ⟨next, h.advance hnext, ih hrest⟩

theorem resolve {path : Path} {location : Location}
    (hpath : before.resolve path = .ok location) : after.resolve path = .ok location := by
  have hstart : after.start path = before.start path := by
    unfold start
    rw [h.workingDirectory]
  unfold LooseTree.resolve at hpath ⊢
  rw [hstart]
  exact h.follow hpath

end KeepsDirectories

theorem keepsDirectories_put (tree : LooseTree) {location : Location} {entry : Entry}
    (h : tree.lookup? location ≠ some .directory) :
    KeepsDirectories tree (tree.put location entry) := by
  refine ⟨rfl, ?_⟩
  intro other hother
  have hne : other ≠ location := by
    rintro rfl
    exact h hother
  rw [lookup?_put tree (ne_nil_of_lookup?_ne h), if_neg hne, hother]

theorem isDirectory_iff {tree : LooseTree} {path : Path} :
    tree.isDirectory path = true ↔
      ∃ location, tree.resolve path = .ok location ∧ tree.lookup? location = some .directory := by
  unfold isDirectory find
  cases hpath : tree.resolve path with
  | error cause => simp [bind, Except.bind]
  | ok location =>
    simp only [bind, Except.bind, Except.ok.injEq, exists_eq_left']
    cases hentry : tree.lookup? location with
    | none => simp
    | some entry =>
      cases entry with
      | directory => simp
      | file content => by_cases hasks : path.asksDirectory <;> simp [hasks]

theorem KeepsDirectories.isDirectory {before after : LooseTree} (h : KeepsDirectories before after)
    {path : Path} (hpath : before.isDirectory path = true) : after.isDirectory path = true := by
  obtain ⟨location, hresolve, hentry⟩ := isDirectory_iff.mp hpath
  exact isDirectory_iff.mpr ⟨location, h.resolve hresolve, h.directory location hentry⟩

def OnTheWay (tree : LooseTree) (path : Path) (location : Location) : Prop :=
  ∃ n, tree.resolve (path.upTo n) = .ok location

theorem KeepsDirectories.onTheWay {before after : LooseTree} (h : KeepsDirectories before after)
    {path : Path} {location : Location} (hway : before.OnTheWay path location) :
    after.OnTheWay path location := by
  obtain ⟨n, hn⟩ := hway
  exact ⟨n, h.resolve hn⟩

/-- Steps that stay in place can be put back before a step that leads on. -/
theorem follow_here {tree : LooseTree} {steps : List Step} {location location' : Location}
    (hne : steps ≠ []) (h : steps.foldlM tree.advance location = .ok location') :
    (Step.here :: steps).foldlM tree.advance location = .ok location' := by
  obtain ⟨step, rest, rfl⟩ := List.exists_cons_of_ne_nil hne
  rw [List.foldlM_cons] at h
  obtain ⟨next, hnext, _⟩ := bind_eq_ok.mp h
  rw [List.foldlM_cons]
  exact bind_eq_ok.mpr ⟨location, advance_here (directory_of_advance hnext), h⟩

theorem exists_take_of_follow_filter {tree : LooseTree} {steps : List Step} {n : Nat}
    {location location' : Location} (hn : 0 < n) (hlength : n ≤ (steps.filter (· ≠ .here)).length)
    (h : ((steps.filter (· ≠ .here)).take n).foldlM tree.advance location = .ok location') :
    ∃ m, steps.take m ≠ [] ∧ (steps.take m).foldlM tree.advance location = .ok location' := by
  induction steps generalizing n location with
  | nil => simp at hlength; omega
  | cons step steps ih =>
    by_cases hstep : step = .here
    · subst hstep
      have hfilter : (Step.here :: steps).filter (· ≠ .here) = steps.filter (· ≠ .here) := by simp
      rw [hfilter] at hlength h
      obtain ⟨m, hne, hm⟩ := ih hn hlength h
      exact ⟨m + 1, by simp, follow_here hne hm⟩
    · have hfilter : (step :: steps).filter (· ≠ .here) = step :: steps.filter (· ≠ .here) := by
        simp [hstep]
      rw [hfilter] at hlength h
      obtain ⟨n, rfl⟩ := Nat.exists_eq_add_one_of_ne_zero (Nat.ne_of_gt hn)
      rw [List.take_succ_cons, List.foldlM_cons] at h
      obtain ⟨next, hnext, hrest⟩ := bind_eq_ok.mp h
      rcases Nat.eq_zero_or_pos n with rfl | hpos
      · refine ⟨1, by simp, ?_⟩
        rw [List.take_succ_cons, List.foldlM_cons]
        exact bind_eq_ok.mpr ⟨next, hnext, hrest⟩
      · simp only [List.length_cons] at hlength
        obtain ⟨m, _, hm⟩ := ih hpos (by omega) hrest
        refine ⟨m + 1, by simp, ?_⟩
        rw [List.take_succ_cons, List.foldlM_cons]
        exact bind_eq_ok.mpr ⟨next, hnext, hm⟩

/-- The directories above a path are on its way. -/
theorem onTheWay_of_mem_ancestors {tree : LooseTree} {path above : Path} {location : Location}
    (hmem : above ∈ path :: path.ancestors) (h : tree.resolve above = .ok location) :
    tree.OnTheWay path location := by
  rcases List.mem_cons.mp hmem with rfl | hmem
  · refine ⟨above.steps.length, ?_⟩
    rw [Path.upTo, List.take_length]
    exact h
  · obtain ⟨n, hn, rfl⟩ := List.mem_map.mp hmem
    rw [List.mem_reverse, List.mem_range'_1] at hn
    obtain ⟨m, _, hm⟩ := exists_take_of_follow_filter (by omega) (by omega) h
    exact ⟨m, hm⟩

/-- All on the way of a directory are directories. -/
theorem directory_of_onTheWay {tree : LooseTree} {path : Path} {location : Location}
    (h : tree.isDirectory path = true) (hway : tree.OnTheWay path location) :
    tree.lookup? location = some .directory := by
  obtain ⟨target, hresolve, hentry⟩ := isDirectory_iff.mp h
  obtain ⟨n, hn⟩ := hway
  have hsplit : (path.steps.take n ++ path.steps.drop n).foldlM tree.advance (tree.start path) =
      .ok target := by
    rw [List.take_append_drop]
    exact hresolve
  rw [List.foldlM_append] at hsplit
  obtain ⟨middle, hmiddle, hrest⟩ := bind_eq_ok.mp hsplit
  obtain rfl : middle = location := Except.ok.inj (hmiddle.symm.trans hn)
  cases hdrop : path.steps.drop n with
  | nil =>
    rw [hdrop] at hrest
    obtain rfl : middle = target := Except.ok.inj hrest
    exact hentry
  | cons step rest =>
    rw [hdrop, List.foldlM_cons] at hrest
    obtain ⟨next, hnext, _⟩ := bind_eq_ok.mp hrest
    exact directory_of_advance hnext

/-- A tree after directories were added at some of the given locations, and nothing else. -/
structure Grows (before after : LooseTree) (new : Location → Prop) : Prop where
  workingDirectory : after.workingDirectory = before.workingDirectory
  lookup? : ∀ location, after.lookup? location = before.lookup? location ∨
    before.lookup? location = none ∧ after.lookup? location = some .directory ∧ new location

namespace Grows

variable {before middle after : LooseTree} {P Q R : Location → Prop}

theorem refl (tree : LooseTree) (P : Location → Prop) : Grows tree tree P :=
  ⟨rfl, fun _ => Or.inl rfl⟩

theorem keepsDirectories (h : Grows before after P) : KeepsDirectories before after := by
  refine ⟨h.workingDirectory, ?_⟩
  intro location hl
  rcases h.lookup? location with heq | ⟨hnone, _⟩
  · exact heq.trans hl
  · rw [hnone] at hl
    cases hl

theorem mono (h : Grows before after P) (hP : ∀ location, P location → Q location) :
    Grows before after Q :=
  ⟨h.workingDirectory, fun location => (h.lookup? location).imp_right
    fun ⟨hnone, hdir, hnew⟩ => ⟨hnone, hdir, hP location hnew⟩⟩

theorem trans (h : Grows before middle P) (h' : Grows middle after Q)
    (hP : ∀ location, P location → R location) (hQ : ∀ location, Q location → R location) :
    Grows before after R := by
  refine ⟨h'.workingDirectory.trans h.workingDirectory, ?_⟩
  intro location
  rcases h.lookup? location with heq | ⟨hnone, hdir, hnew⟩
  · rcases h'.lookup? location with heq' | ⟨hnone', hdir', hnew'⟩
    · exact Or.inl (heq'.trans heq)
    · exact Or.inr ⟨heq.symm.trans hnone', hdir', hQ location hnew'⟩
  · exact Or.inr ⟨hnone, h'.keepsDirectories.directory location hdir, hP location hnew⟩

end Grows

theorem ensureDirectory_grows (tree : LooseTree) (path : Path) :
    Grows tree (tree.ensureDirectory path).1
      fun location => (tree.ensureDirectory path).1.resolve path = .ok location := by
  rcases ensureDirectory_cases tree path with ⟨location, hpath, hfree, heq⟩ | ⟨_, heq⟩ | ⟨_, _, heq⟩
  · have hne : tree.lookup? location ≠ some .directory := by simp [hfree]
    rw [heq]
    refine ⟨rfl, ?_⟩
    intro other
    rw [lookup?_put tree (ne_nil_of_lookup?_ne hne)]
    by_cases hother : other = location
    · subst hother
      rw [if_pos rfl]
      exact Or.inr ⟨hfree, rfl, (keepsDirectories_put tree hne).resolve hpath⟩
    · rw [if_neg hother]
      exact Or.inl rfl
  · rw [heq]
    exact Grows.refl tree _
  · rw [heq]
    exact Grows.refl tree _

theorem isDirectory_ensureDirectory {tree : LooseTree} {path : Path}
    (h : (tree.ensureDirectory path).2 = none) :
    (tree.ensureDirectory path).1.isDirectory path = true := by
  rcases ensureDirectory_cases tree path with
    ⟨location, hpath, hfree, heq⟩ | ⟨hdir, heq⟩ | ⟨cause, _, heq⟩
  · have hne : tree.lookup? location ≠ some .directory := by simp [hfree]
    rw [heq]
    exact isDirectory_iff.mpr ⟨location, (keepsDirectories_put tree hne).resolve hpath,
      lookup?_put_self tree (ne_nil_of_lookup?_ne hne) _⟩
  · rw [heq]
    exact hdir
  · rw [heq] at h
    cases h

/-- Making directories adds directories where the paths lead, and nothing else. -/
theorem ensureFirst_grows (tree : LooseTree) (paths : List Path) :
    Grows tree (tree.ensureFirst paths).1
      fun location => ∃ path ∈ paths, (tree.ensureFirst paths).1.resolve path = .ok location := by
  induction paths with
  | nil => exact Grows.refl tree _
  | cons path above ih =>
    rcases ensureFirst_cons tree path above with heq | ⟨cause, heq, _⟩ | ⟨_, heq⟩
    · rw [heq]
      exact (ensureDirectory_grows tree path).mono fun location hl =>
        ⟨path, List.mem_cons_self, hl⟩
    · rw [heq]
      exact ih.mono fun location ⟨other, hother, hl⟩ => ⟨other, List.mem_cons_of_mem _ hother, hl⟩
    · rw [heq]
      have hlast := ensureDirectory_grows (tree.ensureFirst above).1 path
      apply ih.trans hlast
      · rintro location ⟨other, hother, hl⟩
        exact ⟨other, List.mem_cons_of_mem _ hother, hlast.keepsDirectories.resolve hl⟩
      · intro location hl
        exact ⟨path, List.mem_cons_self, hl⟩

theorem isDirectory_ensureFirst {tree : LooseTree} {path : Path} {above : List Path}
    (h : (tree.ensureFirst (path :: above)).2 = none) :
    (tree.ensureFirst (path :: above)).1.isDirectory path = true := by
  rcases ensureFirst_cons tree path above with heq | ⟨cause, heq, hcause⟩ | ⟨_, heq⟩
  · rw [heq] at h ⊢
    exact isDirectory_ensureDirectory h
  · rw [heq, hcause] at h
    cases h
  · rw [heq] at h ⊢
    exact isDirectory_ensureDirectory h

def OnTheWayTo (tree : LooseTree) (text : Text) (location : Location) : Prop :=
  ∃ path, Path.ofText text = .ok path ∧ tree.OnTheWay path location

theorem createDirectories_grows (tree : LooseTree) (directory : Text) :
    Grows tree (tree.createDirectories directory).1
      ((tree.createDirectories directory).1.OnTheWayTo directory) := by
  unfold createDirectories
  split
  · exact Grows.refl tree _
  · cases hpath : Path.ofText directory with
    | error cause => exact Grows.refl tree _
    | ok path =>
      refine (ensureFirst_grows tree (path :: path.ancestors)).mono ?_
      rintro location ⟨above, hmem, hl⟩
      exact ⟨path, hpath, onTheWay_of_mem_ancestors hmem hl⟩

/-- A path that was made leads to a directory; only the empty path is not looked at. -/
theorem isDirectory_createDirectories {tree : LooseTree} {directory : Text}
    (h : (tree.createDirectories directory).2 = none) (hne : directory ≠ []) :
    ∃ path, Path.ofText directory = .ok path ∧
      (tree.createDirectories directory).1.isDirectory path = true := by
  unfold createDirectories at h ⊢
  rw [if_neg hne] at h ⊢
  cases hpath : Path.ofText directory with
  | error cause =>
    rw [hpath] at h
    cases h
  | ok path =>
    rw [hpath] at h
    exact ⟨path, rfl, isDirectory_ensureFirst h⟩

/-- Where the directory is there, nothing is made. -/
theorem createDirectories_of_isDirectory {tree : LooseTree} {directory : Text} {path : Path}
    (hpath : Path.ofText directory = .ok path) (h : tree.isDirectory path = true) :
    tree.createDirectories directory = (tree, none) := by
  have hensure : tree.ensureDirectory path = (tree, none) := by
    rcases ensureDirectory_cases tree path with ⟨location, hl, hfree, _⟩ | ⟨_, heq⟩ | ⟨_, hnot, _⟩
    · obtain ⟨location', hl', hentry⟩ := isDirectory_iff.mp h
      obtain rfl : location = location' := Except.ok.inj (hl.symm.trans hl')
      rw [hfree] at hentry
      cases hentry
    · exact heq
    · rw [h] at hnot
      cases hnot
  unfold createDirectories
  split
  · rfl
  · simp [hpath, ensureFirst, hensure]

end LooseTree
end DriverHeader
