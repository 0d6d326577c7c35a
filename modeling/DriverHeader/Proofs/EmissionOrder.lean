import DriverHeader.CommandLine.Run
import DriverHeader.Proofs.PlainHeader
import Mathlib.Data.List.Pairwise
import Mathlib.Data.List.Perm.Basic

/-! # Emissions in any order

Writing a header along plain names changes a tree by a list of entries. Which entries they are
depends on the tree only by the files on the way and by what is in the header's place. Headers with
different paths leave both alone for each other, and their entries agree wherever they meet. So the
order in which headers are written is of no account.
-/
namespace DriverHeader

open LooseTree

/-- The entries that an emission puts into a tree, and its result. -/
structure Change where
  entries : List (Location × Entry)
  result : Except EmissionFault Text

namespace LooseTree

def putAll (tree : LooseTree) (entries : List (Location × Entry)) : LooseTree :=
  entries.foldl (fun tree entry => tree.put entry.1 entry.2) tree

theorem putAll_append (tree : LooseTree) (entries entries' : List (Location × Entry)) :
    tree.putAll (entries ++ entries') = (tree.putAll entries).putAll entries' :=
  List.foldl_append

theorem putAll_directories (tree : LooseTree) (locations : List Location) :
    tree.putAll (locations.map (·, .directory)) = tree.putDirectories locations :=
  List.foldl_map

theorem lookup?_putAll (tree : LooseTree) {entries : List (Location × Entry)}
    (hne : ∀ entry ∈ entries, entry.1 ≠ []) (location : Location) :
    (tree.putAll entries).lookup? location = tree.lookup? location ∨
      ∃ entry, (location, entry) ∈ entries ∧
        (tree.putAll entries).lookup? location = some entry := by
  induction entries generalizing tree with
  | nil => exact Or.inl rfl
  | cons first entries ih =>
    have hput := lookup?_put tree (hne first List.mem_cons_self) first.2 location
    rcases ih (tree.put first.1 first.2) fun entry hentry =>
      hne entry (List.mem_cons_of_mem _ hentry) with hsame | ⟨entry, hmem, hentry⟩
    · split at hput
      · next heq =>
        subst heq
        exact Or.inr ⟨first.2, List.mem_cons_self, hsame.trans hput⟩
      · exact Or.inl (hsame.trans hput)
    · exact Or.inr ⟨entry, List.mem_cons_of_mem _ hmem, hentry⟩

theorem put_comm (tree : LooseTree) {location location' : Location} {entry entry' : Entry}
    (h : location = location' → entry = entry') :
    (tree.put location entry).put location' entry' =
      (tree.put location' entry').put location entry := by
  apply ext_entries
  · rfl
  · intro other
    simp only [getElem?_put]
    split
    · next hother =>
      split
      · next hother' => rw [h (hother'.symm.trans hother)]
      · rfl
    · rfl

/-- Entries that agree wherever they meet can be put in any order. -/
theorem putAll_perm (tree : LooseTree) {entries entries' : List (Location × Entry)}
    (hperm : entries.Perm entries')
    (hagree : ∀ x ∈ entries, ∀ y ∈ entries, x.1 = y.1 → x.2 = y.2) :
    tree.putAll entries = tree.putAll entries' := by
  apply hperm.foldl_eq'
  intro x hx y hy z
  exact put_comm z fun heq => hagree x hx y hy heq

@[simp] theorem workingDirectory_putAll (tree : LooseTree) (entries : List (Location × Entry)) :
    (tree.putAll entries).workingDirectory = tree.workingDirectory := by
  induction entries generalizing tree with
  | nil => rfl
  | cons first entries ih => exact ih (tree.put first.1 first.2)

/-- What keeps a file from its place in a directory. -/
def obstacle? (tree : LooseTree) (path : Text) (directory : Location) (file : Text) : Option Cause :=
  if '\x00' ∈ path then some .invalidArgument
  else
    match Path.ofText path with
    | .error cause => some cause
    | .ok _ =>
      if nameLimit < file.byteLength then some .nameTooLong
      else if tree.lookup? (directory ++ [file]) = some .directory then some .isDirectory
      else none

theorem obstacle?_congr {tree tree' : LooseTree} {directory : Location} {file : Text}
    (h : tree'.lookup? (directory ++ [file]) = some .directory ↔
      tree.lookup? (directory ++ [file]) = some .directory) (path : Text) :
    tree'.obstacle? path directory file = tree.obstacle? path directory file := by
  simp only [obstacle?, h]

theorem destination_eq {tree : LooseTree} {names : List Text} {base : Location}
    (hleads : tree.Leads names base)
    (hwork : tree.lookup? tree.workingDirectory = some .directory) {text file : Text}
    (halong : GoesAlong text) (hnames : plainNames text = names ++ [file]) :
    tree.destination text =
      match tree.obstacle? text base file with
      | some cause => .error cause
      | none => .ok (base ++ [file]) := by
  unfold destination obstacle?
  split
  · rfl
  · cases hpath : Path.ofText text with
    | error cause => rfl
    | ok path =>
      obtain ⟨hway, hasks⟩ := halong.along hpath
      have hresolve := hway.resolve_of_directory hwork
      rw [hnames, hleads.resolve_cons] at hresolve
      simp only [bind, Except.bind, hresolve, hasks, Bool.false_eq_true, false_or]
      by_cases hlong : nameLimit < file.byteLength
      · rw [if_pos hlong, if_pos hlong]
      · rw [if_neg hlong, if_neg hlong]
        by_cases hplace : tree.lookup? (base ++ [file]) = some .directory
        · simp [pure, Except.pure, hplace]
        · simp [pure, Except.pure, hplace]

end LooseTree

namespace RenderedHeader

def way (header : RenderedHeader) (tree : LooseTree) : List Location × Option Cause :=
  tree.descent tree.workingDirectory (plainNames header.directory)

def place (header : RenderedHeader) (tree : LooseTree) : Location :=
  tree.workingDirectory ++ header.placeNames

def obstacle? (header : RenderedHeader) (tree : LooseTree) : Option Cause :=
  if fitsTemporary header.directory then
    tree.obstacle? header.path (tree.workingDirectory ++ plainNames header.directory)
      (headerFile header.interfaceName)
  else some .nameTooLong

def change (header : RenderedHeader) (tree : LooseTree) : Change :=
  let made := (header.way tree).1.map (·, Entry.directory)
  match Path.ofText header.directory >>= fun _ => tree.advance tree.workingDirectory .here with
  | .error cause => ⟨[], .error (.directory header.directory cause)⟩
  | .ok _ =>
    match (header.way tree).2, header.obstacle? tree with
    | some cause, _ => ⟨made, .error (.directory header.directory cause)⟩
    | none, some cause => ⟨made, .error (.write header.path cause)⟩
    | none, none => ⟨made ++ [(header.place tree, .file (.text header.content))], .ok header.path⟩

/-- The four ways in which writing a header ends. -/
theorem change_cases (header : RenderedHeader) (tree : LooseTree) :
    (∃ cause, (Path.ofText header.directory >>= fun _ =>
        tree.advance tree.workingDirectory .here) = .error cause ∧
      header.change tree = ⟨[], .error (.directory header.directory cause)⟩) ∨
    ∃ path, Path.ofText header.directory = .ok path ∧
      tree.lookup? tree.workingDirectory = some .directory ∧
      ((∃ cause, (header.way tree).2 = some cause ∧
          header.change tree = ⟨(header.way tree).1.map (·, .directory),
            .error (.directory header.directory cause)⟩) ∨
        (header.way tree).2 = none ∧
          ((∃ cause, header.obstacle? tree = some cause ∧
              header.change tree = ⟨(header.way tree).1.map (·, .directory),
                .error (.write header.path cause)⟩) ∨
            header.obstacle? tree = none ∧
              header.change tree = ⟨(header.way tree).1.map (·, .directory) ++
                [(header.place tree, .file (.text header.content))], .ok header.path⟩)) := by
  unfold change
  cases hstart : Path.ofText header.directory >>= fun _ =>
      tree.advance tree.workingDirectory .here with
  | error cause => exact Or.inl ⟨cause, rfl, rfl⟩
  | ok base =>
    obtain ⟨path, hpath, hhere⟩ := bind_eq_ok.mp hstart
    refine Or.inr ⟨path, hpath, directory_of_advance hhere, ?_⟩
    cases hway : (header.way tree).2 with
    | some cause => exact Or.inl ⟨cause, rfl, rfl⟩
    | none =>
      refine Or.inr ⟨rfl, ?_⟩
      cases hobstacle : header.obstacle? tree with
      | some cause => exact Or.inl ⟨cause, rfl, rfl⟩
      | none => exact Or.inr ⟨rfl, rfl⟩

theorem mem_entries_change {header : RenderedHeader} {tree : LooseTree} {location : Location}
    {entry : Entry} (h : (location, entry) ∈ (header.change tree).entries) :
    (entry = .directory ∧ location ∈ (header.way tree).1) ∨
      entry = .file (.text header.content) ∧ location = header.place tree := by
  have hmade : (location, entry) ∈ (header.way tree).1.map (·, Entry.directory) →
      entry = .directory ∧ location ∈ (header.way tree).1 := by
    intro hmem
    obtain ⟨made, hlocation, heq⟩ := List.mem_map.mp hmem
    cases heq
    exact ⟨rfl, hlocation⟩
  rcases header.change_cases tree with ⟨cause, _, hchange⟩ | ⟨path, _, _, hrest⟩
  · rw [hchange] at h
    cases h
  · rcases hrest with ⟨cause, _, hchange⟩ | ⟨_, ⟨cause, _, hchange⟩ | ⟨_, hchange⟩⟩
    · rw [hchange] at h
      exact Or.inl (hmade h)
    · rw [hchange] at h
      exact Or.inl (hmade h)
    · rw [hchange] at h
      rcases List.mem_append.mp h with h | h
      · exact Or.inl (hmade h)
      · cases List.mem_singleton.mp h
        exact Or.inr ⟨rfl, rfl⟩

/-- What is on the way lies between the working directory and the header's place. -/
theorem length_of_mem_way {header : RenderedHeader} {tree : LooseTree} {location : Location}
    (h : location ∈ (header.way tree).1) :
    tree.workingDirectory.length < location.length ∧
      location.length < (header.place tree).length := by
  obtain ⟨_, n, hn, rfl⟩ := hasFile_of_mem_descent h
  simp only [place, placeNames, List.length_append, List.length_take, List.length_singleton]
  omega

theorem place_not_mem_way (header : RenderedHeader) (tree : LooseTree) :
    header.place tree ∉ (header.way tree).1 :=
  fun hway => Nat.lt_irrefl _ (length_of_mem_way hway).2

theorem length_of_mem_entries {header : RenderedHeader} {tree : LooseTree}
    {entry : Location × Entry} (h : entry ∈ (header.change tree).entries) :
    tree.workingDirectory.length < entry.1.length := by
  rcases mem_entries_change h with ⟨_, hway⟩ | ⟨_, hplace⟩
  · exact (length_of_mem_way hway).1
  · rw [hplace, place, placeNames]
    simp

theorem ne_nil_of_mem_entries {header : RenderedHeader} {tree : LooseTree}
    (entry : Location × Entry) (h : entry ∈ (header.change tree).entries) : entry.1 ≠ [] :=
  List.ne_nil_of_length_pos (Nat.zero_lt_of_lt (length_of_mem_entries h))

theorem place_eq (header : RenderedHeader) (tree : LooseTree) :
    header.place tree = tree.workingDirectory ++ plainNames header.directory ++
      [headerFile header.interfaceName] := by
  rw [place, placeNames, List.append_assoc]

def cleared (header : RenderedHeader) (tree : LooseTree) : LooseTree :=
  tree.putDirectories (header.way tree).1

theorem lookup?_cleared (header : RenderedHeader) (tree : LooseTree) (location : Location) :
    (header.cleared tree).lookup? location = tree.lookup? location ∨
      location ∈ (header.way tree).1 ∧ (header.cleared tree).lookup? location = some .directory := by
  have hne : ∀ entry ∈ (header.way tree).1.map (·, Entry.directory), entry.1 ≠ [] := by
    intro entry hentry
    obtain ⟨location, hlocation, rfl⟩ := List.mem_map.mp hentry
    exact List.ne_nil_of_length_pos (Nat.zero_lt_of_lt (length_of_mem_way hlocation).1)
  rw [cleared, ← putAll_directories]
  rcases lookup?_putAll tree hne location with hsame | ⟨entry, hentry, hlookup⟩
  · exact Or.inl hsame
  · obtain ⟨other, hother, heq⟩ := List.mem_map.mp hentry
    cases heq
    exact Or.inr ⟨hother, hlookup⟩

/-- The directories on the way to a header leave its place alone. -/
theorem lookup?_cleared_place (header : RenderedHeader) (tree : LooseTree) :
    (header.cleared tree).lookup? (header.place tree) = tree.lookup? (header.place tree) := by
  rcases header.lookup?_cleared tree (header.place tree) with hsame | ⟨hway, _⟩
  · exact hsame
  · exact absurd hway (header.place_not_mem_way tree)

theorem workingDirectory_cleared (header : RenderedHeader) (tree : LooseTree) :
    (header.cleared tree).workingDirectory = tree.workingDirectory := by
  rw [cleared, ← putAll_directories, workingDirectory_putAll]

theorem obstacle?_cleared (header : RenderedHeader) (tree : LooseTree)
    (hfits : fitsTemporary header.directory = true) :
    (header.cleared tree).obstacle? header.path
        (tree.workingDirectory ++ plainNames header.directory) (headerFile header.interfaceName) =
      header.obstacle? tree := by
  rw [RenderedHeader.obstacle?, if_pos hfits]
  apply obstacle?_congr
  rw [← place_eq, lookup?_cleared_place]

section

variable {header : RenderedHeader} {tree : LooseTree}
  (hwork : tree.lookup? tree.workingDirectory = some .directory)
  (hdone : (header.way tree).2 = none)
include hwork hdone

theorem leads_cleared :
    (header.cleared tree).Leads (plainNames header.directory)
      (tree.workingDirectory ++ plainNames header.directory) :=
  leads_descent (leads_nil hwork) hdone

theorem destination_cleared {root : Text} {names : List Text} (h : header.Below root names)
    (hfits : fitsTemporary header.directory = true) :
    (header.cleared tree).destination header.path =
      match header.obstacle? tree with
      | some cause => .error cause
      | none => .ok (header.place tree) := by
  have hthere : (header.cleared tree).lookup? (header.cleared tree).workingDirectory =
      some .directory := by
    rw [workingDirectory_cleared]
    rcases header.lookup?_cleared tree tree.workingDirectory with hsame | ⟨_, hdirectory⟩
    · rw [hsame, hwork]
    · exact hdirectory
  rw [destination_eq (leads_cleared hwork hdone) hthere h.goesAlong_path h.plainNames_path,
    obstacle?_cleared header tree hfits, place_eq]

end

theorem stagingDirectory_cleared {header : RenderedHeader} {tree : LooseTree}
    (hmade : tree.createDirectories header.directory = (header.cleared tree, none))
    (hdirectory : GoesAlong header.directory) (hfits : fitsTemporary header.directory = true) :
    ∃ location, (header.cleared tree).stagingDirectory header.directory = .ok location := by
  have hne : header.directory ≠ [] := hdirectory.ne_nil
  obtain ⟨path, hpath, hthere⟩ := isDirectory_createDirectories (by rw [hmade]) hne
  rw [hmade] at hthere
  obtain ⟨location, hresolve, hlookup⟩ := isDirectory_iff.mp hthere
  refine ⟨location, ?_⟩
  rw [stagingDirectory, if_pos hfits, if_neg hne, hpath]
  exact bind_eq_ok.mpr ⟨location, hresolve, advance_here hlookup⟩

/-- Once the way to a header is made, it is put in its place unless something keeps it from there. -/
theorem placeFile_cleared {header : RenderedHeader} {tree : LooseTree}
    (hwork : tree.lookup? tree.workingDirectory = some .directory)
    (hdone : (header.way tree).2 = none)
    (hmade : tree.createDirectories header.directory = (header.cleared tree, none))
    {root : Text} {names : List Text} (h : header.Below root names) :
    (header.cleared tree).placeFile header.directory header.path (.text header.content) =
      match header.obstacle? tree with
      | some cause => (header.cleared tree, some cause)
      | none => ((header.cleared tree).put (header.place tree) (.file (.text header.content)), none) := by
  cases hfits : fitsTemporary header.directory with
  | false =>
    have hlong : (header.cleared tree).stagingDirectory header.directory = .error .nameTooLong := by
      rw [stagingDirectory, hfits]
      rfl
    rw [placeFile_of_error hlong, RenderedHeader.obstacle?, hfits]
    rfl
  | true =>
    obtain ⟨location, hlocation⟩ := stagingDirectory_cleared hmade h.goesAlong_directory hfits
    rw [RenderedHeader.path, placeFile_of_stagingDirectory hlocation, ← RenderedHeader.path,
      destination_cleared hwork hdone h hfits]
    cases header.obstacle? tree with
    | none => rfl
    | some cause => rfl

/-- Where the way cannot start, nothing is made. -/
theorem createDirectories_of_start {header : RenderedHeader} {tree : LooseTree} {cause : Cause}
    (hdirectory : GoesAlong header.directory)
    (hstart : (Path.ofText header.directory >>= fun _ =>
      tree.advance tree.workingDirectory .here) = .error cause) :
    tree.createDirectories header.directory = (tree, some cause) := by
  cases hpath : Path.ofText header.directory with
  | error cause' =>
    rw [hpath] at hstart
    obtain rfl : cause' = cause := Except.error.inj hstart
    rw [createDirectories, if_neg hdirectory.ne_nil, hpath]
  | ok path =>
    rw [hpath] at hstart
    have hhere : tree.advance tree.workingDirectory .here = .error cause := hstart
    have hwork : tree.lookup? tree.workingDirectory ≠ some .directory := by
      intro hwork
      rw [advance_here hwork] at hhere
      cases hhere
    obtain ⟨cause', hcause⟩ := exists_cause_of_ne_directory hwork
    obtain rfl : cause' = cause := Except.error.inj ((hcause .here).symm.trans hhere)
    exact (hdirectory.along hpath).1.createDirectories_of_error hcause hpath

theorem write_eq_change {header : RenderedHeader} {tree : FileTree} {root : Text}
    {names : List Text} (h : header.Below root names) :
    (header.write tree).result = (header.change tree).result ∧
      (header.write tree).tree = tree.putAll (header.change tree).entries := by
  have hdirectory := h.goesAlong_directory
  rcases header.change_cases tree with ⟨cause, hstart, hchange⟩ | ⟨path, hpath, hwork, hrest⟩
  · have hcreate := createDirectories_of_start hdirectory hstart
    have hwrite := header.write_of_stopped tree (by rw [hcreate])
    rw [prepared, hcreate] at hwrite
    rw [hchange]
    exact hwrite
  · have hcreate : tree.toLooseTree.createDirectories header.directory =
        (header.cleared tree, (header.way tree).2) :=
      (hdirectory.along hpath).1.createDirectories tree.wellFormed hwork hpath
    have hprepared : header.prepared tree = header.cleared tree := by rw [prepared, hcreate]
    rcases hrest with ⟨cause, hstop, hchange⟩ | ⟨hdone, hrest⟩
    · have hwrite := header.write_of_stopped tree (by rw [hcreate, hstop])
      rw [hprepared] at hwrite
      rw [hchange, putAll_directories]
      exact hwrite
    · rw [hdone] at hcreate
      have hwrite := header.write_of_made tree (by rw [hcreate])
      rw [hprepared, placeFile_cleared hwork hdone hcreate h] at hwrite
      rcases hrest with ⟨cause, hobstacle, hchange⟩ | ⟨hfree, hchange⟩
      · rw [hobstacle] at hwrite
        rw [hchange, putAll_directories]
        exact hwrite
      · rw [hfree] at hwrite
        rw [hchange, putAll_append, putAll_directories]
        exact hwrite

/-- The entries of two headers agree if neither header is on the other's way. -/
theorem entries_agree_of_place {header other : RenderedHeader} {tree : LooseTree}
    (hplace : other.place tree ∉ (header.way tree).1)
    (hplace' : header.place tree ∉ (other.way tree).1)
    (hcontent : header.place tree = other.place tree → header.content = other.content) :
    ∀ x ∈ (header.change tree).entries, ∀ y ∈ (other.change tree).entries, x.1 = y.1 → x.2 = y.2 := by
  rintro ⟨location, entry⟩ hx ⟨location', entry'⟩ hy rfl
  rcases mem_entries_change hx with ⟨rfl, hway⟩ | ⟨rfl, rfl⟩
  · rcases mem_entries_change hy with ⟨rfl, _⟩ | ⟨_, rfl⟩
    · rfl
    · exact absurd hway hplace
  · rcases mem_entries_change hy with ⟨_, hway⟩ | ⟨rfl, heq⟩
    · exact absurd hway hplace'
    · exact congrArg (Entry.file <| .text ·) (hcontent heq)

namespace Below

variable {header other : RenderedHeader} {root : Text} {names names' : List Text}
  (h : header.Below root names) (h' : other.Below root names') (tree : LooseTree)
include h h'

theorem not_mem_way : other.place tree ∉ (header.way tree).1 := by
  intro hmem
  obtain ⟨_, n, _, heq⟩ := hasFile_of_mem_descent hmem
  exact h'.take_ne_placeNames h (n + 1) (List.append_cancel_left heq).symm

theorem place_ne (hpath : header.path ≠ other.path) : header.place tree ≠ other.place tree :=
  fun heq => h.placeNames_ne h' hpath (List.append_cancel_left heq)

end Below

section

variable (header : RenderedHeader) (tree : LooseTree)

/-- A change keeps what is a file and what is not, save in the header's place. -/
theorem hasFile_putAll_change {location : Location} (hne : location ≠ header.place tree) :
    (tree.putAll (header.change tree).entries).hasFile location = tree.hasFile location := by
  rcases lookup?_putAll tree ne_nil_of_mem_entries location with hsame | ⟨entry, hmem, hlookup⟩
  · rw [hasFile, hsame, hasFile]
  · rcases mem_entries_change hmem with ⟨rfl, hway⟩ | ⟨_, heq⟩
    · rw [hasFile, hlookup, (hasFile_of_mem_descent hway).1]
    · exact absurd heq hne

theorem lookup?_putAll_change {location : Location} (hne : location ≠ header.place tree)
    (hway : location ∉ (header.way tree).1) :
    (tree.putAll (header.change tree).entries).lookup? location = tree.lookup? location := by
  rcases lookup?_putAll tree ne_nil_of_mem_entries location with hsame | ⟨entry, hmem, _⟩
  · exact hsame
  · rcases mem_entries_change hmem with ⟨_, hmem⟩ | ⟨_, heq⟩
    · exact absurd hmem hway
    · exact absurd heq hne

theorem lookup?_workingDirectory_putAll_change :
    (tree.putAll (header.change tree).entries).lookup? tree.workingDirectory =
      tree.lookup? tree.workingDirectory := by
  apply lookup?_putAll_change
  · intro heq
    have hlength := congrArg List.length heq
    simp [place, placeNames] at hlength
  · exact fun hway => Nat.lt_irrefl _ (length_of_mem_way hway).1

end

/-- What one header does is the same before and after another one. -/
theorem Below.change_putAll {header other : RenderedHeader} {root : Text}
    {names names' : List Text} (h : header.Below root names) (h' : other.Below root names')
    (hpath : header.path ≠ other.path) (tree : LooseTree) :
    other.change (tree.putAll (header.change tree).entries) = other.change tree := by
  let after := tree.putAll (header.change tree).entries
  have hwork : after.workingDirectory = tree.workingDirectory := workingDirectory_putAll _ _
  have hplace : other.place after = other.place tree := by rw [place, hwork, place]
  have hhere : after.advance tree.workingDirectory .here =
      tree.advance tree.workingDirectory .here :=
    advance_congr (header.lookup?_workingDirectory_putAll_change tree) _
  have hway : other.way after = other.way tree := by
    rw [way, hwork, way]
    apply descent_congr
    intro n
    apply hasFile_putAll_change
    intro heq
    exact h.take_ne_placeNames h' (n + 1) (List.append_cancel_left heq)
  have hobstacle : other.obstacle? after = other.obstacle? tree := by
    unfold RenderedHeader.obstacle?
    rw [hwork, obstacle?_congr]
    rw [← place_eq, header.lookup?_putAll_change tree (h.place_ne h' tree hpath).symm
      (h.not_mem_way h' tree)]
  change other.change after = other.change tree
  unfold change
  rw [hwork, hhere, hway, hobstacle, hplace]

end RenderedHeader

namespace Document

def change (document : Document) (options : EmissionOptions) (tree : LooseTree) : Change :=
  match document.render options with
  | .error fault => ⟨[], .error fault⟩
  | .ok header => header.change tree

/-- The header of a document, if it has one, goes along names below the root. -/
def Plain (document : Document) (options : EmissionOptions) : Prop :=
  ∀ header, document.render options = .ok header → ∃ names, header.Below options.root names

def Apart (options : EmissionOptions) (document other : Document) : Prop :=
  ∀ header ∈ (document.render options).toOption, ∀ header' ∈ (other.render options).toOption,
    header.path ≠ header'.path

instance (options : EmissionOptions) (document other : Document) :
    Decidable (document.Apart options other) :=
  inferInstanceAs (Decidable (∀ header ∈ (document.render options).toOption, ∀ header' ∈
    (other.render options).toOption, header.path ≠ header'.path))

instance (options : EmissionOptions) : Std.Symm (Apart options) where
  symm _ _ h header hheader header' hheader' := (h header' hheader' header hheader).symm

theorem Apart.path_ne {options : EmissionOptions} {document other : Document}
    (h : document.Apart options other) {header header' : RenderedHeader}
    (hheader : document.render options = .ok header)
    (hheader' : other.render options = .ok header') : header.path ≠ header'.path :=
  h header (by rw [hheader]; rfl) header' (by rw [hheader']; rfl)

theorem plain_of_names {document : Document} {options : EmissionOptions}
    (hroot : options.root = "." ∨ isPlainPath options.root = true)
    (hnames : ∀ interface ∈ document.interface,
      isPackage interface.package = true ∧ isIdentifier interface.name = true) :
    document.Plain options := by
  intro header hheader
  rcases document.render_cases options with
    ⟨hrender, _⟩ | ⟨hrender, _⟩ | ⟨interface, header', _, hnode, hrender, hdirectory, hname⟩
  · rw [hrender] at hheader
    cases hheader
  · rw [hrender] at hheader
    cases hheader
  · obtain rfl : header' = header := Except.ok.inj (hrender.symm.trans hheader)
    obtain ⟨hpackage, hidentifier⟩ := hnames interface hnode
    exact ⟨_, RenderedHeader.below_of_package (goesAlong_root hroot) hpackage
      (hname ▸ hidentifier) hdirectory⟩

variable {document other : Document} {options : EmissionOptions}

theorem emit_eq_change (tree : FileTree) (hplain : document.Plain options) :
    (document.emit options tree).result = (document.change options tree).result ∧
      (document.emit options tree).tree = tree.putAll (document.change options tree).entries := by
  cases hrender : document.render options with
  | error fault =>
    rw [document.emit_of_error hrender, change, hrender]
    exact ⟨rfl, rfl⟩
  | ok header =>
    obtain ⟨names, hbelow⟩ := hplain header hrender
    obtain ⟨hresult, htree⟩ := document.emit_of_render hrender tree
    rw [hresult, htree, change, hrender]
    exact RenderedHeader.write_eq_change hbelow

variable {tree : LooseTree}

theorem change_putAll (hplain : document.Plain options) (hplain' : other.Plain options)
    (hapart : document.Apart options other) :
    other.change options (tree.putAll (document.change options tree).entries) =
      other.change options tree := by
  cases hrender : document.render options with
  | error fault =>
    simp only [change, hrender]
    rfl
  | ok header =>
    cases hrender' : other.render options with
    | error fault => simp only [change, hrender']
    | ok header' =>
      obtain ⟨_, hbelow⟩ := hplain header hrender
      obtain ⟨_, hbelow'⟩ := hplain' header' hrender'
      simp only [change, hrender, hrender']
      exact hbelow.change_putAll hbelow' (hapart.path_ne hrender hrender') tree

theorem entries_agree (hplain : document.Plain options) (hplain' : other.Plain options)
    (hapart : document ≠ other → document.Apart options other) :
    ∀ x ∈ (document.change options tree).entries, ∀ y ∈ (other.change options tree).entries,
      x.1 = y.1 → x.2 = y.2 := by
  cases hrender : document.render options with
  | error fault => simp only [change, hrender, List.not_mem_nil, false_implies, implies_true]
  | ok header =>
    cases hrender' : other.render options with
    | error fault => simp only [change, hrender', List.not_mem_nil, false_implies, implies_true]
    | ok header' =>
      simp only [change, hrender, hrender']
      by_cases hsame : document = other
      · subst hsame
        obtain rfl : header = header' := Except.ok.inj (hrender.symm.trans hrender')
        exact RenderedHeader.entries_agree_of_place (header.place_not_mem_way tree)
          (header.place_not_mem_way tree) fun _ => rfl
      · obtain ⟨_, hbelow⟩ := hplain header hrender
        obtain ⟨_, hbelow'⟩ := hplain' header' hrender'
        have hne := hbelow.place_ne hbelow' tree ((hapart hsame).path_ne hrender hrender')
        exact RenderedHeader.entries_agree_of_place (hbelow.not_mem_way hbelow' tree)
          (hbelow'.not_mem_way hbelow tree) fun heq => absurd heq hne

def emitNext (options : EmissionOptions) (document : Document) (tree : FileTree) :
    Except EmissionFault Text × FileTree :=
  ((document.emit options tree).result, (document.emit options tree).tree)

/-- Each document that is emitted in turn does what it would do alone. -/
theorem runJobs_emitNext {documents : List Document} (tree : FileTree)
    (hplain : ∀ document ∈ documents, document.Plain options)
    (hapart : documents.Pairwise (Apart options)) :
    let run := runJobs (emitNext options) documents tree
    run.1 = (documents.map fun document => (document.change options tree).result) ∧
      run.2 = tree.putAll (documents.flatMap fun document => (document.change options tree).entries) := by
  induction documents generalizing tree with
  | nil => exact ⟨rfl, rfl⟩
  | cons document documents ih =>
    obtain ⟨hfirst, hrest⟩ := List.pairwise_cons.mp hapart
    have hdocument := hplain document List.mem_cons_self
    have hplain' : ∀ other ∈ documents, other.Plain options :=
      fun other hother => hplain other (List.mem_cons_of_mem _ hother)
    obtain ⟨hresult, htree⟩ := emit_eq_change tree hdocument
    have hsame : ∀ other ∈ documents,
        other.change options (document.emit options tree).tree = other.change options tree := by
      intro other hother
      rw [htree]
      exact change_putAll hdocument (hplain' other hother) (hfirst other hother)
    obtain ⟨hresults, hfinal⟩ := ih (document.emit options tree).tree hplain' hrest
    constructor
    · rw [List.map_cons, ← hresult]
      refine congrArg _ (hresults.trans (List.map_congr_left fun other hother => ?_))
      rw [hsame other hother]
    · have hentries := List.flatMap_congr fun other hother =>
        congrArg Change.entries (hsame other hother)
      rw [hentries, htree, ← putAll_append] at hfinal
      exact hfinal

end Document

/-- Emissions with different header paths do the same in every order: each document gets the result
that it gets alone, and in the end the tree is the same. -/
theorem independent_emissions_commute {options : EmissionOptions} {documents : List Document}
    {tree : FileTree} (hroot : options.root = "." ∨ isPlainPath options.root = true)
    (hnames : ∀ document ∈ documents, ∀ interface ∈ document.interface,
      isPackage interface.package = true ∧ isIdentifier interface.name = true)
    (hpaths : documents.Pairwise (Document.Apart options)) :
    ∃ final, ∀ order : List Document, order.Perm documents →
      runJobs (Document.emitNext options) order tree =
        (order.map fun document => (document.emit options tree).result, final) := by
  have hplain : ∀ document ∈ documents, document.Plain options :=
    fun document hdocument => Document.plain_of_names hroot (hnames document hdocument)
  let entries := fun order : List Document =>
    order.flatMap fun document => (document.change options tree).entries
  refine ⟨(runJobs (Document.emitNext options) documents tree).2, ?_⟩
  intro order horder
  have hplain' : ∀ document ∈ order, document.Plain options :=
    fun document hdocument => hplain document (horder.subset hdocument)
  have hpaths' : order.Pairwise (Document.Apart options) :=
    (horder.pairwise_iff (Std.Symm.symm _ _)).mpr hpaths
  have hagree : ∀ x ∈ entries order, ∀ y ∈ entries order, x.1 = y.1 → x.2 = y.2 := by
    intro x hx y hy
    obtain ⟨document, hdocument, hx⟩ := List.mem_flatMap.mp hx
    obtain ⟨other, hother, hy⟩ := List.mem_flatMap.mp hy
    exact Document.entries_agree (hplain' document hdocument) (hplain' other hother)
      (hpaths'.forall hdocument hother) x hx y hy
  have hfinal : tree.putAll (entries order) = tree.putAll (entries documents) :=
    putAll_perm tree (horder.flatMap_right _) hagree
  have hresults : (order.map fun document => (document.change options tree).result) =
      order.map fun document => (document.emit options tree).result :=
    List.map_congr_left fun document hdocument =>
      (Document.emit_eq_change tree (hplain' document hdocument)).1.symm
  obtain ⟨hrun, htree⟩ := Document.runJobs_emitNext tree hplain' hpaths'
  obtain ⟨_, htree'⟩ := Document.runJobs_emitNext tree hplain hpaths
  exact Prod.ext (hrun.trans hresults) (FileTree.ext_loose (htree.trans (hfinal.trans htree'.symm)))

def blockedTree : FileTree := (FileTree.empty.createDirectories "hdi/light/ilight_callback.h").1

/-- The second of these documents finds its place taken, and the third one has no header. -/
theorem light_emissions_commute :
    let options : EmissionOptions := ⟨true, "."⟩
    let documents := [lightDocument .interface "ILight", lightDocument .callback "ILightCallback",
      lightDocument .types "ILight"]
    (documents.map fun document => (document.emit options blockedTree).result) =
        [.ok "./hdi/light/ilight.h",
          .error (.write "./hdi/light/ilight_callback.h" .isDirectory),
          .error (.unsupportedKind .types)] ∧
      ∃ final, ∀ order : List Document, order.Perm documents →
        runJobs (Document.emitNext options) order blockedTree =
          (order.map fun document => (document.emit options blockedTree).result, final) := by
  intro options documents
  exact ⟨by decide +kernel, independent_emissions_commute (Or.inl rfl) (by decide +kernel)
    (by decide +kernel)⟩

end DriverHeader
