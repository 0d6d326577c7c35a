import DriverHeader.FileTree.Loose
import DriverHeader.Outcome

/-! # Entries that stand in directories

In a well-formed tree every entry stands in a directory. A path leads through directories only, so
what it leads to has one above it, and an entry can be put there. Every operation keeps the tree
well-formed, because it adds entries at the end of a path and takes away only what has nothing below.
-/
namespace DriverHeader

theorem Path.stepsOf_ne_nil {t : Text} (hne : t ≠ []) (hhead : t.head? ≠ some '/') :
    Path.stepsOf t ≠ [] := by
  cases t with
  | nil => exact absurd rfl hne
  | cons c t =>
    have hc : (c == '/') = false := by simpa using hhead
    obtain ⟨piece, pieces, hsplit⟩ := List.exists_cons_of_ne_nil (List.splitOn_ne_nil '/' t)
    simp [stepsOf, List.splitOn_cons_eq_if_modifyHead, hc, hsplit]

theorem Path.ofText_eq_ok {t : Text} {path : Path} (h : Path.ofText t = .ok path) :
    '\x00' ∉ t ∧ t.byteLength < byteLimit ∧ t ≠ [] ∧
      path = ⟨t.head? = some '/', stepsOf t, t.getLast? = some '/'⟩ := by
  unfold ofText at h
  split at h
  · cases h
  · next hnul =>
    split at h
    · cases h
    · next hlength =>
      split at h
      · cases h
      · next hne => exact ⟨hnul, Nat.lt_of_not_le hlength, hne, (Except.ok.inj h).symm⟩

def Path.IsProper (path : Path) : Prop := path.absolute = true ∨ path.steps ≠ []

theorem Path.isProper_of_ofText {t : Text} {path : Path} (h : Path.ofText t = .ok path) :
    path.IsProper := by
  obtain ⟨_, _, hne, rfl⟩ := ofText_eq_ok h
  by_cases hhead : t.head? = some '/'
  · exact Or.inl (by simp [hhead])
  · exact Or.inr (stepsOf_ne_nil hne hhead)

theorem Path.isProper_of_mem_ancestors {path above : Path} (h : above ∈ path.ancestors) :
    above.IsProper := by
  obtain ⟨n, hn, rfl⟩ := List.mem_map.mp h
  rw [List.mem_reverse, List.mem_range'_1] at hn
  refine Or.inr fun hnil => ?_
  have hlength := congrArg List.length hnil
  simp only [List.length_take, List.length_nil] at hlength
  omega

def Step.after (location : Location) : Step → Location
  | .here => location
  | .up => location.dropLast
  | .name piece => location ++ [piece]

namespace LooseTree

@[simp] theorem lookup?_nil (tree : LooseTree) : tree.lookup? [] = some .directory := if_pos rfl

theorem lookup?_of_ne_nil (tree : LooseTree) {location : Location} (h : location ≠ []) :
    tree.lookup? location = tree.entries[location]? := if_neg h

theorem ne_nil_of_lookup?_ne {tree : LooseTree} {location : Location}
    (h : tree.lookup? location ≠ some .directory) : location ≠ [] := by
  rintro rfl
  exact h tree.lookup?_nil

theorem getElem?_put (tree : LooseTree) (location other : Location) (entry : Entry) :
    (tree.put location entry).entries[other]? =
      if other = location then some entry else tree.entries[other]? := by
  simp only [put, Std.ExtTreeMap.getElem?_insert, Std.LawfulEqCmp.compare_eq_iff_eq,
    eq_comm (a := location)]

theorem lookup?_put (tree : LooseTree) {location : Location} (h : location ≠ []) (entry : Entry)
    (other : Location) :
    (tree.put location entry).lookup? other =
      if other = location then some entry else tree.lookup? other := by
  by_cases hother : other = []
  · subst hother
    rw [if_neg h.symm, lookup?_nil, lookup?_nil]
  · rw [lookup?_of_ne_nil _ hother, lookup?_of_ne_nil _ hother, getElem?_put]

theorem lookup?_put_self (tree : LooseTree) {location : Location} (h : location ≠ [])
    (entry : Entry) : (tree.put location entry).lookup? location = some entry := by
  rw [lookup?_put _ h, if_pos rfl]

theorem getElem?_erase (tree : LooseTree) (location other : Location) :
    (tree.erase location).entries[other]? =
      if other = location then none else tree.entries[other]? := by
  simp only [erase, Std.ExtTreeMap.getElem?_erase, Std.LawfulEqCmp.compare_eq_iff_eq,
    eq_comm (a := location)]

theorem lookup?_erase_self (tree : LooseTree) {location : Location} (h : location ≠ []) :
    (tree.erase location).lookup? location = none := by
  rw [lookup?_of_ne_nil _ h, getElem?_erase, if_pos rfl]

theorem lookup?_erase_of_ne (tree : LooseTree) {location other : Location} (h : other ≠ location) :
    (tree.erase location).lookup? other = tree.lookup? other := by
  by_cases hother : other = []
  · subst hother
    rw [lookup?_nil, lookup?_nil]
  · rw [lookup?_of_ne_nil _ hother, lookup?_of_ne_nil _ hother, getElem?_erase, if_neg h]

theorem lookup?_clear (tree : LooseTree) (location : Location) {other : Location} (h : other ≠ []) :
    (tree.clear location).lookup? other =
      if other = location ∨ ¬ location <+: other then tree.lookup? other else none := by
  rw [lookup?_of_ne_nil _ h, lookup?_of_ne_nil _ h, clear, Std.ExtTreeMap.getElem?_filter']
  have htest : (decide (other = location) || !location.isPrefixOf other) =
      decide (other = location ∨ ¬ location <+: other) := by
    simp [← List.isPrefixOf_iff_prefix]
  rw [htest]
  cases tree.entries[other]? with
  | none => simp
  | some entry => simp [Option.filter_some]

theorem directory_of_advance {tree : LooseTree} {location location' : Location} {step : Step}
    (h : tree.advance location step = .ok location') : tree.lookup? location = some .directory := by
  unfold advance at h
  split at h
  · cases h
  · cases h
  · assumption

theorem advance_here {tree : LooseTree} {location : Location}
    (h : tree.lookup? location = some .directory) : tree.advance location .here = .ok location := by
  unfold advance
  rw [h]

theorem eq_of_advance {tree : LooseTree} {location location' : Location} {step : Step}
    (h : tree.advance location step = .ok location') : location' = step.after location := by
  have hdirectory := directory_of_advance h
  cases step with
  | here => simpa [advance, hdirectory, Step.after] using h.symm
  | up => simpa [advance, hdirectory, Step.after] using h.symm
  | name name =>
    simp only [advance, hdirectory] at h
    split at h
    · cases h
    · exact (Except.ok.inj h).symm

/-- Steps lead to one place in whatever trees they can be taken. -/
theorem follow_unique {tree tree' : LooseTree} {steps : List Step} {start a b : Location}
    (ha : steps.foldlM tree.advance start = .ok a) (hb : steps.foldlM tree'.advance start = .ok b) :
    a = b := by
  induction steps generalizing start with
  | nil => exact Except.ok.inj (ha.symm.trans hb)
  | cons step steps ih =>
    rw [List.foldlM_cons] at ha hb
    obtain ⟨next, hnext, ha⟩ := bind_eq_ok.mp ha
    obtain ⟨next', hnext', hb⟩ := bind_eq_ok.mp hb
    obtain rfl : next = next' := (eq_of_advance hnext).trans (eq_of_advance hnext').symm
    exact ih ha hb

theorem destination_eq_ok {tree : LooseTree} {text : Text} {place : Location} :
    tree.destination text = .ok place ↔
      '\x00' ∉ text ∧ ∃ path, Path.ofText text = .ok path ∧ tree.resolve path = .ok place ∧
        path.asksDirectory = false ∧ tree.lookup? place ≠ some .directory := by
  unfold destination
  by_cases hnul : '\x00' ∈ text
  · simp [hnul]
  · rw [if_neg hnul]
    constructor
    · intro h
      obtain ⟨path, hpath, hrest⟩ := bind_eq_ok.mp h
      obtain ⟨location, hlocation, hlast⟩ := bind_eq_ok.mp hrest
      split at hlast
      · cases hlast
      · next hnot =>
        obtain rfl := Except.ok.inj hlast
        rw [not_or, Bool.not_eq_true] at hnot
        exact ⟨hnul, path, hpath, hlocation, hnot⟩
    · rintro ⟨_, path, hpath, hlocation, hasks, hentry⟩
      refine bind_eq_ok.mpr ⟨path, hpath, bind_eq_ok.mpr ⟨place, hlocation, ?_⟩⟩
      simp [hasks, hentry]

theorem stagingDirectory_eq_ok {tree : LooseTree} {directory : Text} {location : Location}
    (h : tree.stagingDirectory directory = .ok location) :
    fitsTemporary directory = true ∧ tree.lookup? location = some .directory ∧
      if directory = [] then location = tree.workingDirectory
      else ∃ path, Path.ofText directory = .ok path ∧ tree.resolve path = .ok location := by
  unfold stagingDirectory at h
  split at h
  · next hfits =>
    obtain ⟨found, hfound, hhere⟩ := bind_eq_ok.mp h
    have hdirectory := directory_of_advance hhere
    obtain rfl : found = location := Except.ok.inj ((advance_here hdirectory).symm.trans hhere)
    refine ⟨hfits, hdirectory, ?_⟩
    split at hfound
    · next hempty =>
      rw [if_pos hempty]
      exact (Except.ok.inj hfound).symm
    · next hempty =>
      rw [if_neg hempty]
      exact bind_eq_ok.mp hfound
  · cases h

/-- What one attempt to make a directory does. -/
theorem ensureDirectory_cases (tree : LooseTree) (path : Path) :
    (∃ location, tree.resolve path = .ok location ∧ tree.lookup? location = none ∧
      tree.ensureDirectory path = (tree.put location .directory, none)) ∨
    (tree.isDirectory path = true ∧ tree.ensureDirectory path = (tree, none)) ∨
    ∃ cause, tree.isDirectory path = false ∧ tree.ensureDirectory path = (tree, some cause) := by
  have hfailed : ∀ cause, tree.makeDirectory path = .error cause →
      (tree.isDirectory path = true ∧ tree.ensureDirectory path = (tree, none)) ∨
      ∃ cause, tree.isDirectory path = false ∧ tree.ensureDirectory path = (tree, some cause) := by
    intro cause hcause
    cases hdir : tree.isDirectory path with
    | true => exact Or.inl ⟨rfl, by simp [ensureDirectory, hcause, hdir]⟩
    | false => exact Or.inr ⟨cause, rfl, by simp [ensureDirectory, hcause, hdir]⟩
  cases hpath : tree.resolve path with
  | error cause => exact Or.inr (hfailed cause (by simp [makeDirectory, hpath, bind, Except.bind]))
  | ok location =>
    cases hentry : tree.lookup? location with
    | none =>
      have hmade : tree.makeDirectory path = .ok (tree.put location .directory) := by
        simp [makeDirectory, hpath, hentry, bind, Except.bind]
      exact Or.inl ⟨location, rfl, hentry, by simp [ensureDirectory, hmade]⟩
    | some entry =>
      exact Or.inr (hfailed .alreadyExists
        (by simp [makeDirectory, hpath, hentry, bind, Except.bind]))

/-- The three ways in which the descent to the first path of a list ends. -/
theorem ensureFirst_cons (tree : LooseTree) (path : Path) (above : List Path) :
    tree.ensureFirst (path :: above) = tree.ensureDirectory path ∨
    (∃ cause, tree.ensureFirst (path :: above) = tree.ensureFirst above ∧
      (tree.ensureFirst above).2 = some cause) ∨
    ((tree.ensureFirst above).2 = none ∧
      tree.ensureFirst (path :: above) = (tree.ensureFirst above).1.ensureDirectory path) := by
  rw [ensureFirst]
  split
  · split
    · next heq => exact Or.inr (Or.inr ⟨by rw [heq], by rw [heq]⟩)
    · next hstopped =>
      cases habove : tree.ensureFirst above with
      | mk made failure =>
        cases failure with
        | none => exact absurd habove (hstopped made)
        | some cause => exact Or.inr (Or.inl ⟨cause, rfl, rfl⟩)
  · exact Or.inl rfl

/-- Every entry stands in a directory. -/
def WellFormed (tree : LooseTree) : Prop :=
  ∀ location name, tree.lookup? (location ++ [name]) ≠ none →
    tree.lookup? location = some .directory

theorem wellFormed_empty : WellFormed empty := by
  intro location name h
  rw [lookup?_of_ne_nil _ (by simp)] at h
  exact absurd Std.ExtTreeMap.getElem?_empty h

namespace WellFormed

variable {tree : LooseTree} (h : tree.WellFormed)
include h

theorem parent {location : Location} (hentry : tree.lookup? location ≠ none) :
    tree.lookup? location.dropLast = some .directory := by
  rcases List.eq_nil_or_concat location with rfl | ⟨above, name, rfl⟩
  · exact tree.lookup?_nil
  · rw [List.concat_eq_append, List.dropLast_concat]
    rw [List.concat_eq_append] at hentry
    exact h above name hentry

theorem put {location : Location} {entry : Entry} (hne : location ≠ [])
    (hparent : tree.lookup? location.dropLast = some .directory)
    (hentry : entry = .directory ∨ tree.lookup? location ≠ some .directory) :
    (tree.put location entry).WellFormed := by
  intro other name hother
  rw [lookup?_put _ hne] at hother ⊢
  have hdirectory : tree.lookup? other = some .directory := by
    split at hother
    · next heq =>
      subst heq
      rwa [List.dropLast_concat] at hparent
    · exact h other name hother
  split
  · next heq =>
    subst heq
    rcases hentry with rfl | hno
    · rfl
    · exact absurd hdirectory hno
  · exact hdirectory

theorem erase {location : Location} (hbelow : ∀ name, tree.lookup? (location ++ [name]) = none) :
    (tree.erase location).WellFormed := by
  intro other name hother
  have hkept : other ++ [name] ≠ location := by
    rintro rfl
    exact hother (lookup?_erase_self tree (by simp))
  rw [lookup?_erase_of_ne _ hkept] at hother
  have hne : other ≠ location := by
    rintro rfl
    exact hother (hbelow name)
  rw [lookup?_erase_of_ne _ hne]
  exact h other name hother

theorem erase_file {location : Location} {content : FileContent}
    (hfile : tree.lookup? location = some (.file content)) : (tree.erase location).WellFormed := by
  apply h.erase
  intro name
  cases hentry : tree.lookup? (location ++ [name]) with
  | none => rfl
  | some entry =>
    have hdirectory := h location name (by simp [hentry])
    rw [hfile] at hdirectory
    cases hdirectory

theorem clear (location : Location) : (tree.clear location).WellFormed := by
  intro other name hother
  rw [lookup?_clear _ _ (by simp)] at hother
  split at hother
  · next hkept =>
    have hdirectory := h other name hother
    by_cases hroot : other = []
    · subst hroot
      exact lookup?_nil _
    · rw [lookup?_clear _ _ hroot]
      split
      · exact hdirectory
      · next hdropped =>
        -- what is dropped lies below the location, and so does all below it
        rw [not_or, Classical.not_not] at hdropped
        rcases hkept with rfl | hkept
        · have hlength := hdropped.2.length_le
          rw [List.length_append, List.length_singleton] at hlength
          omega
        · exact absurd (hdropped.2.trans (List.prefix_append other [name])) hkept
  · exact absurd rfl hother

/-- What a path leads to has a directory above it. -/
theorem follow {steps : List Step} {start location : Location} (hne : steps ≠ [])
    (hsteps : steps.foldlM tree.advance start = .ok location) :
    tree.lookup? location.dropLast = some .directory := by
  induction steps generalizing start with
  | nil => exact absurd rfl hne
  | cons step steps ih =>
    rw [List.foldlM_cons] at hsteps
    obtain ⟨next, hnext, hrest⟩ := bind_eq_ok.mp hsteps
    by_cases hlast : steps = []
    · subst hlast
      obtain rfl : next = location := Except.ok.inj hrest
      have hdirectory := directory_of_advance hnext
      have habove := h.parent (by simp [hdirectory] : tree.lookup? start ≠ none)
      rw [eq_of_advance hnext]
      cases step with
      | here => exact habove
      | up => exact h.parent (by simp [Step.after, habove])
      | name name => simpa [Step.after] using hdirectory
    · exact ih hlast hrest

theorem resolve {path : Path} {location : Location} (hpath : path.IsProper)
    (hresolve : tree.resolve path = .ok location) :
    tree.lookup? location.dropLast = some .directory := by
  by_cases hsteps : path.steps = []
  · have habsolute := hpath.resolve_right (not_not_intro hsteps)
    simp only [LooseTree.resolve, hsteps, start, habsolute, ↓reduceIte, List.foldlM_nil] at hresolve
    obtain rfl : [] = location := Except.ok.inj hresolve
    exact tree.lookup?_nil
  · exact h.follow hsteps hresolve

theorem put_destination {text : Text} {place : Location} (content : FileContent)
    (hplace : tree.destination text = .ok place) :
    (tree.put place (.file content)).WellFormed := by
  obtain ⟨_, path, hpath, hresolve, _, hfree⟩ := destination_eq_ok.mp hplace
  exact h.put (ne_nil_of_lookup?_ne hfree) (h.resolve (Path.isProper_of_ofText hpath) hresolve)
    (Or.inr hfree)

theorem replaceFile {text : Text} {content : FileContent} {replaced : LooseTree}
    (hreplace : tree.replaceFile text content = .ok replaced) : replaced.WellFormed := by
  obtain ⟨place, hplace, hput⟩ := bind_eq_ok.mp hreplace
  obtain rfl := Except.ok.inj hput
  exact h.put_destination content hplace

theorem ensureDirectory {path : Path} (hpath : path.IsProper) :
    (tree.ensureDirectory path).1.WellFormed := by
  rcases ensureDirectory_cases tree path with
    ⟨location, hresolve, hfree, heq⟩ | ⟨_, heq⟩ | ⟨cause, _, heq⟩
  · have hne : tree.lookup? location ≠ some .directory := by simp [hfree]
    rw [heq]
    exact h.put (ne_nil_of_lookup?_ne hne) (h.resolve hpath hresolve) (Or.inl rfl)
  · rw [heq]
    exact h
  · rw [heq]
    exact h

omit h in
theorem ensureFirst {paths : List Path} (hpaths : ∀ path ∈ paths, path.IsProper)
    (h : tree.WellFormed) : (tree.ensureFirst paths).1.WellFormed := by
  induction paths with
  | nil => exact h
  | cons path above ih =>
    have hpath := hpaths path List.mem_cons_self
    have habove := ih fun other hother => hpaths other (List.mem_cons_of_mem _ hother)
    rcases ensureFirst_cons tree path above with heq | ⟨cause, heq, _⟩ | ⟨_, heq⟩
    · rw [heq]
      exact h.ensureDirectory hpath
    · rw [heq]
      exact habove
    · rw [heq]
      exact habove.ensureDirectory hpath

theorem createDirectories (text : Text) : (tree.createDirectories text).1.WellFormed := by
  unfold LooseTree.createDirectories
  split
  · exact h
  · cases hpath : Path.ofText text with
    | error cause => exact h
    | ok path =>
      apply h.ensureFirst
      intro above habove
      rcases List.mem_cons.mp habove with rfl | habove
      · exact Path.isProper_of_ofText hpath
      · exact Path.isProper_of_mem_ancestors habove

theorem createTemporary {directory : Text} {temporary : Location} {created : LooseTree}
    (hcreate : tree.createTemporary directory = .ok (temporary, created)) :
    created.WellFormed ∧ created.lookup? temporary = some (.file (.text [])) := by
  obtain ⟨location, hlocation, hrest⟩ := bind_eq_ok.mp hcreate
  have hdirectory := (stagingDirectory_eq_ok hlocation).2.1
  split at hrest
  · cases hrest
  · next name hname =>
    obtain ⟨rfl, rfl⟩ := Prod.mk.inj (Except.ok.inj hrest)
    have hfree : tree.lookup? (location ++ [name]) = none := by simpa using List.find?_some hname
    exact ⟨h.put (by simp) (by rwa [List.dropLast_concat]) (Or.inr (by simp [hfree])),
      lookup?_put_self tree (by simp) _⟩

theorem move {source : Location} {text : Text} {content : FileContent} {moved : LooseTree}
    (hsource : tree.lookup? source = some (.file content))
    (hmove : tree.move source text = .ok moved) : moved.WellFormed := by
  obtain ⟨place, hplace, hrest⟩ := bind_eq_ok.mp hmove
  rw [hsource] at hrest
  obtain rfl := Except.ok.inj hrest
  obtain ⟨_, path, hpath, hresolve, _, hfree⟩ := destination_eq_ok.mp hplace
  have hparent := h.resolve (Path.isProper_of_ofText hpath) hresolve
  have hkept : ∀ other, tree.lookup? other = some .directory → other ≠ source := by
    rintro other hother rfl
    rw [hsource] at hother
    cases hother
  refine (h.erase_file hsource).put (ne_nil_of_lookup?_ne hfree) ?_ (Or.inr ?_)
  · rw [lookup?_erase_of_ne _ (hkept _ hparent), hparent]
  · by_cases hsame : place = source
    · subst hsame
      rw [lookup?_erase_self _ (ne_nil_of_lookup?_ne hfree)]
      simp
    · rwa [lookup?_erase_of_ne _ hsame]

theorem placeFile (directory text : Text) (content : FileContent) :
    (tree.placeFile directory text content).1.WellFormed := by
  unfold LooseTree.placeFile
  split
  · exact h
  · next temporary created hcreate =>
    obtain ⟨hcreated, hempty⟩ := h.createTemporary hcreate
    have hnot : created.lookup? temporary ≠ some .directory := by simp [hempty]
    have hne := ne_nil_of_lookup?_ne hnot
    have hwritten : (created.put temporary (.file content)).WellFormed :=
      hcreated.put hne (hcreated.parent (by simp [hempty])) (Or.inr hnot)
    have hfile := lookup?_put_self created hne (.file content)
    dsimp only
    split
    · next hmoved => exact hwritten.move hfile hmoved
    · exact hwritten.erase_file hfile

theorem remove (text : Text) : (tree.remove text).1.WellFormed := by
  unfold LooseTree.remove
  simp only
  split
  · exact h
  · next path location _ hfound =>
    have hresolve : tree.resolve path = .ok location := by
      obtain ⟨parsed, _, hrest⟩ := bind_eq_ok.mp hfound
      obtain ⟨reached, hreached, hrest⟩ := bind_eq_ok.mp hrest
      obtain ⟨entry, _, hrest⟩ := bind_eq_ok.mp hrest
      cases Except.ok.inj hrest
      exact hreached
    have hcleared := h.clear location
    split
    · next removed hremoved =>
      obtain ⟨reached, hreached, hrest⟩ := bind_eq_ok.mp hremoved
      obtain rfl : location = reached := follow_unique hresolve hreached
      split at hrest
      · obtain rfl := Except.ok.inj hrest
        apply hcleared.erase
        intro name
        rw [lookup?_clear _ _ (by simp), if_neg (by simp)]
      · cases hrest
    · exact hcleared
    · exact hcleared

omit h in
theorem addWay {location : Location} (names : List Text)
    (hlocation : tree.lookup? location = some .directory) (h : tree.WellFormed) :
    (tree.addWay location names).WellFormed := by
  induction names generalizing tree location with
  | nil => exact h
  | cons name names ih =>
    apply ih
    · exact lookup?_put_self tree (by simp) _
    · exact h.put (by simp) (by rwa [List.dropLast_concat]) (Or.inl rfl)

end WellFormed

theorem wellFormed_startingAt (location : Location) : (startingAt location).WellFormed := by
  apply WellFormed.addWay
  · exact lookup?_nil _
  · exact wellFormed_empty

end LooseTree
end DriverHeader
