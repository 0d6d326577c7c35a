import Mathlib.Data.List.Forall2
import Mathlib.Data.List.Induction
import Mathlib.Tactic.ByContra
import DriverHeader.Proofs.DirectoryCreation

/-! # Making directories along plain names

In a file tree every entry is in a directory, so below a missing one there is nothing. A descent
along names only then has a simple description: it passes what is there, makes what is missing, and
stops at the first file or overlong name. What it makes and why it stops depends on the tree only
by the files on its way.
-/
namespace DriverHeader

def Path.ofNames (names : List Text) : Path := ⟨false, names.map Step.name, false⟩

namespace LooseTree

/-- Below a missing entry there is nothing. -/
theorem WellFormed.lookup?_below {tree : LooseTree} (h : WellFormed tree) {location : Location}
    (hnone : tree.lookup? location = none) (below : Location) :
    tree.lookup? (location ++ below) = none := by
  induction below using List.reverseRecOn with
  | nil => rw [List.append_nil, hnone]
  | append_singleton below name ih =>
    by_contra hsome
    rw [← List.append_assoc] at hsome
    rw [h _ name hsome] at ih
    cases ih

theorem ensureDirectory_of_error {tree : LooseTree} {path : Path} {cause : Cause}
    (h : tree.resolve path = .error cause) : tree.ensureDirectory path = (tree, some cause) := by
  have hnot : tree.isDirectory path = false := by
    by_contra hdir
    obtain ⟨_, hok, _⟩ := isDirectory_iff.mp (Bool.not_eq_false _ ▸ hdir)
    rw [h] at hok
    cases hok
  simp [ensureDirectory, makeDirectory, h, hnot, bind, Except.bind]

theorem ensureDirectory_of_ok {tree : LooseTree} {path : Path} {location : Location}
    (h : tree.resolve path = .ok location) :
    tree.ensureDirectory path =
      match tree.lookup? location with
      | none => (tree.put location .directory, none)
      | some .directory => (tree, none)
      | some (.file _) => (tree, some .alreadyExists) := by
  cases hentry : tree.lookup? location with
  | none => simp [ensureDirectory, makeDirectory, h, hentry, bind, Except.bind]
  | some entry =>
    cases entry with
    | directory =>
      have hdir : tree.isDirectory path = true := isDirectory_iff.mpr ⟨location, h, hentry⟩
      simp [ensureDirectory, makeDirectory, h, hentry, hdir, bind, Except.bind]
    | file content =>
      have hnot : tree.isDirectory path = false := by
        by_contra hdir
        obtain ⟨location', hok, hdirectory⟩ := isDirectory_iff.mp (Bool.not_eq_false _ ▸ hdir)
        obtain rfl : location = location' := Except.ok.inj (h.symm.trans hok)
        rw [hentry] at hdirectory
        cases hdirectory
      simp [ensureDirectory, makeDirectory, h, hentry, hnot, bind, Except.bind]

theorem ensureDirectory_congr {tree : LooseTree} {path path' : Path}
    (h : tree.resolve path = tree.resolve path') :
    tree.ensureDirectory path = tree.ensureDirectory path' := by
  cases hpath : tree.resolve path with
  | error cause =>
    rw [ensureDirectory_of_error hpath, ensureDirectory_of_error (h.symm.trans hpath)]
  | ok location => rw [ensureDirectory_of_ok hpath, ensureDirectory_of_ok (h.symm.trans hpath)]

theorem ensureFirst_congr {paths paths' : List Path}
    (h : List.Forall₂ (fun path path' => ∀ tree : LooseTree, tree.resolve path = tree.resolve path')
      paths paths') (tree : LooseTree) : tree.ensureFirst paths = tree.ensureFirst paths' := by
  induction h with
  | nil => rfl
  | cons hpath _ ih =>
    rw [ensureFirst, ensureFirst, ih, ensureDirectory_congr (hpath tree)]
    split
    · split
      · next made _ => exact ensureDirectory_congr (hpath made)
      · rfl
    · rfl

def hasFile (tree : LooseTree) (location : Location) : Bool :=
  match tree.lookup? location with
  | some (.file _) => true
  | _ => false

theorem hasFile_put_directory {tree : LooseTree} {location : Location} (hne : location ≠ [])
    (hno : tree.hasFile location = false) (other : Location) :
    (tree.put location .directory).hasFile other = tree.hasFile other := by
  by_cases hother : other = location
  · subst hother
    rw [hno, hasFile, lookup?_put_self _ hne]
  · rw [hasFile, hasFile, lookup?_put _ hne, if_neg hother]

theorem advance_name {tree : LooseTree} {location : Location}
    (h : tree.lookup? location = some .directory) (name : Text) :
    tree.advance location (.name name) =
      if nameLimit < name.byteLength then .error .nameTooLong else .ok (location ++ [name]) := by
  simp only [advance, h]

theorem advance_missing {tree : LooseTree} {location : Location} (h : tree.lookup? location = none)
    (step : Step) : tree.advance location step = .error .noEntry := by
  simp only [advance, h]

theorem advance_file {tree : LooseTree} {location : Location} {content : FileContent}
    (h : tree.lookup? location = some (.file content)) (step : Step) :
    tree.advance location step = .error .notDirectory := by
  simp only [advance, h]

def Leads (tree : LooseTree) (front : List Text) (base : Location) : Prop :=
  tree.resolve (Path.ofNames front) = .ok base ∧ tree.lookup? base = some .directory

section Leads

variable {tree : LooseTree} {front : List Text} {base : Location} (h : tree.Leads front base)
include h

theorem Leads.resolve (names : List Text) :
    tree.resolve (Path.ofNames (front ++ names)) =
      (names.map Step.name).foldlM tree.advance base := by
  have hfront := h.1
  unfold LooseTree.resolve at hfront ⊢
  simp only [Path.ofNames, List.map_append, List.foldlM_append] at hfront ⊢
  rw [start] at hfront ⊢
  rw [hfront]
  rfl

theorem Leads.resolve_cons (name : Text) (names : List Text) :
    tree.resolve (Path.ofNames (front ++ name :: names)) =
      if nameLimit < name.byteLength then .error .nameTooLong
      else (names.map Step.name).foldlM tree.advance (base ++ [name]) := by
  rw [h.resolve, List.map_cons, List.foldlM_cons, advance_name h.2]
  split <;> rfl

theorem Leads.concat {name : Text} (hname : ¬ nameLimit < name.byteLength)
    (hentry : tree.lookup? (base ++ [name]) = some .directory) :
    tree.Leads (front ++ [name]) (base ++ [name]) := by
  refine ⟨?_, hentry⟩
  rw [h.resolve_cons, if_neg hname]
  rfl

theorem Leads.put {location : Location} {entry : Entry}
    (hfree : tree.lookup? location ≠ some .directory) :
    (tree.put location entry).Leads front base := by
  have hkeeps : KeepsDirectories tree (tree.put location entry) := keepsDirectories_put tree hfree
  exact ⟨hkeeps.resolve h.1, hkeeps.directory base h.2⟩

end Leads

/-- The directories that a descent along names from a location leaves behind, and what stops it: an
overlong name, or a file that is in the way or in the place of the last directory. -/
def descent (tree : LooseTree) : Location → List Text → List Location × Option Cause
  | _, [] => ([], none)
  | base, name :: names =>
    if nameLimit < name.byteLength then ([], some .nameTooLong)
    else if tree.hasFile (base ++ [name]) then
      ([], some (if names = [] then .alreadyExists else .notDirectory))
    else
      let (locations, failure) := tree.descent (base ++ [name]) names
      ((base ++ [name]) :: locations, failure)

def putDirectories (tree : LooseTree) (locations : List Location) : LooseTree :=
  locations.foldl (fun tree location => tree.put location .directory) tree

def chain (front : List Text) : List Text → List Path
  | [] => []
  | name :: names => chain (front ++ [name]) names ++ [Path.ofNames (front ++ [name])]

theorem chain_eq_cons (front : List Text) {names : List Text} (h : names ≠ []) :
    ∃ above, chain front names = Path.ofNames (front ++ names) :: above := by
  induction names generalizing front with
  | nil => exact absurd rfl h
  | cons name names ih =>
    by_cases hnames : names = []
    · subst hnames
      exact ⟨[], rfl⟩
    · obtain ⟨above, habove⟩ := ih (front ++ [name]) hnames
      refine ⟨above ++ [Path.ofNames (front ++ [name])], ?_⟩
      rw [chain, habove, List.append_assoc]
      rfl

theorem mem_chain {front names : List Text} {path : Path} (h : path ∈ chain front names) :
    ∃ name rest, path = Path.ofNames (front ++ name :: rest) := by
  induction names generalizing front with
  | nil => cases h
  | cons name names ih =>
    rcases List.mem_append.mp h with hmem | hmem
    · obtain ⟨name', rest, hpath⟩ := ih hmem
      exact ⟨name, name' :: rest, by rw [hpath, List.append_assoc]; rfl⟩
    · exact ⟨name, [], List.mem_singleton.mp hmem⟩

theorem chain_eq_map (front names : List Text) :
    chain front names =
      (List.range' 1 names.length).reverse.map fun n => Path.ofNames (front ++ names.take n) := by
  induction names generalizing front with
  | nil => rfl
  | cons name names ih =>
    have hshift : List.range' 2 names.length = (List.range' 1 names.length).map (1 + ·) :=
      (List.map_add_range' 1 names.length 1).symm
    rw [chain, ih, List.length_cons, List.range'_succ, hshift, List.reverse_cons, List.map_append,
      ← List.map_reverse, List.map_map]
    congr 1
    apply List.map_congr_left
    intro n _
    simp [Nat.add_comm 1 n]

def climb : Attempt → List Path → Attempt
  | attempt, [] => attempt
  | (made, none), path :: paths => climb (made.ensureDirectory path) paths
  | (made, some cause), _ :: _ => (made, some cause)

theorem climb_append (attempt : Attempt) (paths paths' : List Path) :
    climb attempt (paths ++ paths') = climb (climb attempt paths) paths' := by
  induction paths generalizing attempt with
  | nil => rfl
  | cons path paths ih =>
    obtain ⟨made, failure⟩ := attempt
    cases failure with
    | none => exact ih _
    | some cause =>
      cases paths' with
      | nil => rfl
      | cons path' paths' => rfl

/-- Where the first paths of a list all miss their parent, they are made after the others. -/
theorem ensureFirst_append_of_missing {tree : LooseTree} {paths : List Path}
    (h : ∀ path ∈ paths, tree.ensureDirectory path = (tree, some .noEntry)) (above : List Path) :
    tree.ensureFirst (paths ++ above) = climb (tree.ensureFirst above) paths.reverse := by
  induction paths with
  | nil => rfl
  | cons path paths ih =>
    have hrest := ih fun p hp => h p (List.mem_cons_of_mem _ hp)
    rw [List.cons_append, ensureFirst, h path List.mem_cons_self, List.reverse_cons, climb_append,
      ← hrest]
    cases tree.ensureFirst (paths ++ above) with
    | mk made failure =>
      cases failure with
      | none => rfl
      | some cause => rfl

theorem ensureFirst_of_stopped {tree : LooseTree} {path : Path} {cause : Cause}
    (h : tree.ensureDirectory path = (tree, some cause)) (hcause : cause ≠ .noEntry)
    (above : List Path) : tree.ensureFirst (path :: above) = (tree, some cause) := by
  rw [ensureFirst, h]
  split
  · next heq => cases heq; exact absurd rfl hcause
  · rfl

/-- Only the files on the way decide about a descent. -/
theorem descent_congr {tree tree' : LooseTree} {base : Location} {names : List Text}
    (h : ∀ n, tree'.hasFile (base ++ names.take (n + 1)) =
      tree.hasFile (base ++ names.take (n + 1))) :
    tree'.descent base names = tree.descent base names := by
  induction names generalizing base with
  | nil => rfl
  | cons name names ih =>
    have hfirst : tree'.hasFile (base ++ [name]) = tree.hasFile (base ++ [name]) := by
      simpa using h 0
    have hrest : tree'.descent (base ++ [name]) names = tree.descent (base ++ [name]) names := by
      apply ih
      intro n
      simpa using h (n + 1)
    rw [descent, descent, hfirst, hrest]

theorem descent_put_directory {tree : LooseTree} {location : Location} (hne : location ≠ [])
    (hno : tree.hasFile location = false) (base : Location) (names : List Text) :
    (tree.put location .directory).descent base names = tree.descent base names :=
  descent_congr fun _ => hasFile_put_directory hne hno _

theorem descent_cons {tree : LooseTree} {base : Location} {name : Text} (names : List Text)
    (hname : ¬ nameLimit < name.byteLength) (hno : tree.hasFile (base ++ [name]) = false) :
    tree.descent base (name :: names) =
      ((base ++ [name]) :: (tree.descent (base ++ [name]) names).1,
        (tree.descent (base ++ [name]) names).2) := by
  rw [descent, if_neg hname, hno]
  rfl

theorem putDirectories_cons (tree : LooseTree) (location : Location) (locations : List Location) :
    tree.putDirectories (location :: locations) =
      (tree.put location .directory).putDirectories locations := rfl

/-- Where nothing is at the first name or below it, all names are made in turn. -/
theorem climb_chain {tree : LooseTree} {front : List Text} {base : Location}
    (h : tree.Leads front base) {names : List Text}
    (hbelow : ∀ name ∈ names.head?, ∀ below, tree.lookup? (base ++ name :: below) = none) :
    climb (tree, none) (chain front names).reverse =
      (tree.putDirectories (tree.descent base names).1, (tree.descent base names).2) := by
  induction names generalizing tree front base with
  | nil => rfl
  | cons name names ih =>
    have hfree : tree.lookup? (base ++ [name]) = none := hbelow name rfl []
    have hno : tree.hasFile (base ++ [name]) = false := by rw [hasFile, hfree]
    have hresolve := h.resolve_cons name []
    rw [chain, List.reverse_append, List.reverse_singleton, List.singleton_append, climb]
    by_cases hlong : nameLimit < name.byteLength
    · rw [if_pos hlong] at hresolve
      rw [ensureDirectory_of_error hresolve, descent, if_pos hlong]
      cases (chain (front ++ [name]) names).reverse with
      | nil => rfl
      | cons path paths => rfl
    · rw [if_neg hlong] at hresolve
      let made := tree.put (base ++ [name]) .directory
      have hmade : tree.ensureDirectory (Path.ofNames (front ++ [name])) = (made, none) := by
        rw [ensureDirectory_of_ok hresolve, hfree]
      have hleads : made.Leads (front ++ [name]) (base ++ [name]) :=
        (h.put (by simp [hfree])).concat hlong (lookup?_put_self tree (by simp) _)
      have hbelow' : ∀ next ∈ names.head?, ∀ below,
          made.lookup? (base ++ [name] ++ next :: below) = none := by
        intro next _ below
        rw [lookup?_put _ (by simp), if_neg (by simp), List.append_assoc]
        exact hbelow name rfl (next :: below)
      rw [hmade, ih hleads hbelow', descent_put_directory (by simp) hno,
        descent_cons names hlong hno, putDirectories_cons]

/-- A descent in a well-formed tree passes what is there and makes what is missing. -/
theorem ensureFirst_chain {tree : LooseTree} (hwf : tree.WellFormed) {front : List Text}
    {base : Location} (h : tree.Leads front base) {names : List Text} (hne : names ≠ [])
    (above : List Path) :
    tree.ensureFirst (chain front names ++ above) =
      (tree.putDirectories (tree.descent base names).1, (tree.descent base names).2) := by
  induction names generalizing front base above with
  | nil => exact absurd rfl hne
  | cons name names ih =>
    obtain ⟨paths, hchain⟩ := chain_eq_cons front hne
    have hresolve := h.resolve_cons name names
    by_cases hlong : nameLimit < name.byteLength
    · rw [if_pos hlong] at hresolve
      rw [hchain, List.cons_append, descent, if_pos hlong]
      exact ensureFirst_of_stopped (ensureDirectory_of_error hresolve) (by simp) _
    · rw [if_neg hlong] at hresolve
      cases hentry : tree.lookup? (base ++ [name]) with
      | none =>
        -- the deeper paths miss their parent, so the descent starts at the first name
        have hmissing : ∀ path ∈ chain (front ++ [name]) names,
            tree.ensureDirectory path = (tree, some .noEntry) := by
          intro path hpath
          obtain ⟨next, rest, rfl⟩ := mem_chain hpath
          apply ensureDirectory_of_error
          rw [List.append_assoc, List.singleton_append, h.resolve_cons, if_neg hlong,
            List.map_cons, List.foldlM_cons, advance_missing hentry]
          rfl
        have hfirst : tree.ensureFirst (Path.ofNames (front ++ [name]) :: above) =
            tree.ensureDirectory (Path.ofNames (front ++ [name])) := by
          have hone := h.resolve_cons name []
          rw [if_neg hlong] at hone
          rw [ensureFirst, ensureDirectory_of_ok hone, hentry]
        have hbelow : ∀ next ∈ (name :: names).head?, ∀ below,
            tree.lookup? (base ++ next :: below) = none := by
          rintro _ ⟨⟩ below
          simpa using hwf.lookup?_below hentry below
        rw [← climb_chain h hbelow, chain, List.append_assoc, List.singleton_append,
          ensureFirst_append_of_missing hmissing, hfirst, List.reverse_append,
          List.reverse_singleton, List.singleton_append, climb]
      | some entry =>
        cases entry with
        | file content =>
          have hfile : tree.hasFile (base ++ [name]) = true := by rw [hasFile, hentry]
          rw [descent, if_neg hlong, if_pos hfile, hchain, List.cons_append]
          by_cases hnames : names = []
          · subst hnames
            have hone : tree.ensureDirectory (Path.ofNames (front ++ [name])) =
                (tree, some .alreadyExists) := by
              rw [ensureDirectory_of_ok hresolve, hentry]
            exact ensureFirst_of_stopped hone (by simp) _
          · obtain ⟨next, rest, rfl⟩ := List.exists_cons_of_ne_nil hnames
            rw [List.map_cons, List.foldlM_cons, advance_file hentry] at hresolve
            exact ensureFirst_of_stopped (ensureDirectory_of_error hresolve) (by simp) _
        | directory =>
          have hno : tree.hasFile (base ++ [name]) = false := by rw [hasFile, hentry]
          rw [descent_cons names hlong hno, putDirectories_cons, put_eq_self (by simp) hentry,
            chain, List.append_assoc, List.singleton_append]
          by_cases hnames : names = []
          · subst hnames
            have hone : tree.ensureDirectory (Path.ofNames (front ++ [name])) = (tree, none) := by
              rw [ensureDirectory_of_ok hresolve, hentry]
            rw [chain, List.nil_append, ensureFirst, hone]
            rfl
          · exact ih (h.concat hlong hentry) hnames _

theorem hasFile_of_mem_descent {tree : LooseTree} {base : Location} {names : List Text}
    {location : Location} (h : location ∈ (tree.descent base names).1) :
    tree.hasFile location = false ∧ ∃ n < names.length, location = base ++ names.take (n + 1) := by
  induction names generalizing base with
  | nil => cases h
  | cons name names ih =>
    by_cases hlong : nameLimit < name.byteLength
    · rw [descent, if_pos hlong] at h
      cases h
    · cases hfile : tree.hasFile (base ++ [name]) with
      | true =>
        rw [descent, if_neg hlong, if_pos hfile] at h
        cases h
      | false =>
        rw [descent_cons names hlong hfile] at h
        rcases List.mem_cons.mp h with rfl | hrest
        · exact ⟨hfile, 0, by simp, by simp⟩
        · obtain ⟨hno, n, hn, rfl⟩ := ih hrest
          exact ⟨hno, n + 1, by simpa using hn, by simp⟩

/-- A descent that nothing stops makes a way. -/
theorem leads_descent {tree : LooseTree} {front : List Text} {base : Location}
    (h : tree.Leads front base) {names : List Text} (hdone : (tree.descent base names).2 = none) :
    (tree.putDirectories (tree.descent base names).1).Leads (front ++ names) (base ++ names) := by
  induction names generalizing tree front base with
  | nil =>
    rw [List.append_nil, List.append_nil]
    exact h
  | cons name names ih =>
    by_cases hlong : nameLimit < name.byteLength
    · rw [descent, if_pos hlong] at hdone
      cases hdone
    · cases hfile : tree.hasFile (base ++ [name]) with
      | true =>
        rw [descent, if_neg hlong, if_pos hfile] at hdone
        cases hdone
      | false =>
        rw [descent_cons names hlong hfile] at hdone ⊢
        have hleads : (tree.put (base ++ [name]) .directory).Leads (front ++ [name])
            (base ++ [name]) := by
          have hmade : (tree.put (base ++ [name]) .directory).lookup? (base ++ [name]) =
              some .directory := lookup?_put_self tree (by simp) _
          by_cases hthere : tree.lookup? (base ++ [name]) = some .directory
          · rw [put_eq_self (by simp) hthere]
            exact h.concat hlong hthere
          · exact (h.put hthere).concat hlong hmade
        rw [← descent_put_directory (by simp) hfile] at hdone
        rw [putDirectories_cons, ← descent_put_directory (by simp) hfile]
        simpa using ih hleads hdone

theorem leads_nil {tree : LooseTree} (h : tree.lookup? tree.workingDirectory = some .directory) :
    tree.Leads [] tree.workingDirectory := ⟨rfl, h⟩

theorem exists_cause_of_ne_directory {tree : LooseTree} {location : Location}
    (h : tree.lookup? location ≠ some .directory) :
    ∃ cause, ∀ step, tree.advance location step = .error cause := by
  cases hentry : tree.lookup? location with
  | none => exact ⟨_, advance_missing hentry⟩
  | some entry =>
    cases entry with
    | directory => exact absurd hentry h
    | file content => exact ⟨_, advance_file hentry⟩

theorem climb_of_failure (made : LooseTree) (cause : Cause) (paths : List Path) :
    climb (made, some cause) paths = (made, some cause) := by
  cases paths with
  | nil => rfl
  | cons path paths => rfl

theorem ensureFirst_of_errors {tree : LooseTree} {cause : Cause} {paths : List Path}
    (hne : paths ≠ []) (h : ∀ path ∈ paths, tree.resolve path = .error cause) :
    tree.ensureFirst paths = (tree, some cause) := by
  have hall : ∀ path ∈ paths, tree.ensureDirectory path = (tree, some cause) :=
    fun path hpath => ensureDirectory_of_error (h path hpath)
  by_cases hcause : cause = .noEntry
  · subst hcause
    have hclimb := ensureFirst_append_of_missing hall []
    obtain ⟨front, last, rfl⟩ := (List.eq_nil_or_concat paths).resolve_left hne
    rw [List.append_nil, ensureFirst, List.concat_eq_append, List.reverse_concat, climb,
      hall last (by simp), climb_of_failure] at hclimb
    rw [List.concat_eq_append]
    exact hclimb
  · obtain ⟨path, above, rfl⟩ := List.exists_cons_of_ne_nil hne
    exact ensureFirst_of_stopped (hall path List.mem_cons_self) hcause above

end LooseTree

/-- A path from the working directory along names, perhaps with a step in place in front. -/
structure Path.Along (path : Path) (names : List Text) : Prop where
  relative : path.absolute = false
  steps : path.steps = names.map .name ∧ names ≠ [] ∨ path.steps = .here :: names.map .name

theorem Path.along_ofNames {names : List Text} (h : names ≠ []) : (Path.ofNames names).Along names :=
  ⟨rfl, Or.inl ⟨rfl, h⟩⟩

namespace Path.Along

open LooseTree

variable {path : Path} {names : List Text} (h : path.Along names)
include h

theorem steps_filter : path.steps.filter (· ≠ .here) = names.map .name := by
  have hnames : (names.map Step.name).filter (· ≠ .here) = names.map .name := by
    simp [List.filter_eq_self]
  rcases h.steps with ⟨hsteps, _⟩ | hsteps
  · rw [hsteps, hnames]
  · rw [hsteps, List.filter_cons_of_neg (by simp), hnames]

theorem exists_steps : ∃ step steps, path.steps = step :: steps := by
  rcases h.steps with ⟨hsteps, hne⟩ | hsteps
  · obtain ⟨name, rest, rfl⟩ := List.exists_cons_of_ne_nil hne
    exact ⟨_, _, hsteps⟩
  · exact ⟨_, _, hsteps⟩

theorem start_eq (tree : LooseTree) : tree.start path = tree.workingDirectory := by
  rw [start, h.relative]
  rfl

theorem resolve_of_directory {tree : LooseTree}
    (hwork : tree.lookup? tree.workingDirectory = some .directory) :
    tree.resolve path = tree.resolve (Path.ofNames names) := by
  unfold resolve
  rw [h.start_eq]
  rcases h.steps with ⟨hsteps, _⟩ | hsteps
  · rw [hsteps]
    rfl
  · rw [hsteps, List.foldlM_cons, advance_here hwork]
    rfl

theorem resolve_of_error {tree : LooseTree} {cause : Cause}
    (hcause : ∀ step, tree.advance tree.workingDirectory step = .error cause) :
    tree.resolve path = .error cause := by
  obtain ⟨step, steps, hsteps⟩ := h.exists_steps
  unfold resolve
  rw [h.start_eq, hsteps, List.foldlM_cons, hcause]
  rfl

theorem resolve_of_ne_nil (hne : names ≠ []) (tree : LooseTree) :
    tree.resolve path = tree.resolve (Path.ofNames names) := by
  by_cases hwork : tree.lookup? tree.workingDirectory = some .directory
  · exact h.resolve_of_directory hwork
  · obtain ⟨cause, hcause⟩ := exists_cause_of_ne_directory hwork
    rw [h.resolve_of_error hcause, (Path.along_ofNames hne).resolve_of_error hcause]

/-- A path and the directories above it are the chain of its names. -/
theorem chain (hne : names ≠ []) :
    List.Forall₂ (fun path path' => ∀ tree : LooseTree, tree.resolve path = tree.resolve path')
      (path :: path.ancestors) (LooseTree.chain [] names) := by
  obtain ⟨k, hk⟩ := Nat.exists_eq_succ_of_ne_zero (mt List.length_eq_zero_iff.mp hne)
  rw [chain_eq_map, hk, List.range'_1_concat, List.reverse_concat, List.map_cons]
  refine List.Forall₂.cons ?_ ?_
  · intro tree
    rw [h.resolve_of_ne_nil hne, Nat.add_comm 1 k, List.nil_append, List.take_of_length_le (Nat.le_of_eq hk)]
  · rw [ancestors, h.steps_filter]
    simp only [List.length_map, hk, Nat.succ_sub_one, List.forall₂_map_left_iff,
      List.forall₂_map_right_iff, List.forall₂_same]
    intro n _ tree
    simp only [resolve, start, h.relative, Path.ofNames, List.nil_append, List.map_take]

/-- Making the directories of a path along names is a descent from the working directory. -/
theorem createDirectories {tree : LooseTree} (hwf : tree.WellFormed)
    (hwork : tree.lookup? tree.workingDirectory = some .directory) {text : Text}
    (htext : Path.ofText text = .ok path) :
    tree.createDirectories text =
      (tree.putDirectories (tree.descent tree.workingDirectory names).1,
        (tree.descent tree.workingDirectory names).2) := by
  have hnonempty : text ≠ [] := by
    rintro rfl
    cases htext
  rw [LooseTree.createDirectories, if_neg hnonempty, htext]
  by_cases hne : names = []
  · subst hne
    have hone : tree.ensureDirectory path = (tree, none) := by
      have hresolve : tree.resolve path = .ok tree.workingDirectory :=
        h.resolve_of_directory hwork
      rw [ensureDirectory_of_ok hresolve, hwork]
    change tree.ensureFirst (path :: path.ancestors) = (tree, none)
    rw [ensureFirst, hone]
  · have hchain := ensureFirst_chain hwf (leads_nil hwork) hne []
    rw [List.append_nil, ← ensureFirst_congr (h.chain hne)] at hchain
    exact hchain

theorem createDirectories_of_error {tree : LooseTree} {cause : Cause}
    (hcause : ∀ step, tree.advance tree.workingDirectory step = .error cause) {text : Text}
    (htext : Path.ofText text = .ok path) : tree.createDirectories text = (tree, some cause) := by
  have hnonempty : text ≠ [] := by
    rintro rfl
    cases htext
  rw [LooseTree.createDirectories, if_neg hnonempty, htext]
  by_cases hne : names = []
  · subst hne
    apply ensureFirst_of_errors (List.cons_ne_nil _ _)
    rw [ancestors, h.steps_filter]
    intro above habove
    obtain rfl : above = path := List.mem_singleton.mp habove
    exact h.resolve_of_error hcause
  · change tree.ensureFirst (path :: path.ancestors) = (tree, some cause)
    obtain ⟨above, habove⟩ := chain_eq_cons [] hne
    rw [ensureFirst_congr (h.chain hne)]
    apply ensureFirst_of_errors (by simp [habove])
    intro above habove
    obtain ⟨name, rest, rfl⟩ := mem_chain habove
    exact (along_ofNames (List.cons_ne_nil name rest)).resolve_of_error hcause

end Path.Along
end DriverHeader
