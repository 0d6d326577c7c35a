import DriverHeader.Emission
import DriverHeader.Proofs.StagedFile

/-! # What an emission does to a file tree

An emission fails before it touches the tree, or makes directories on the way to the header and
then fails, or puts the header in its place. In the first two cases no file is touched; in the last
one the header is all that changes besides the directories, and a second emission finds everything
in place.
-/
namespace DriverHeader

open LooseTree

/-- A document is refused for its kind or for want of an interface, or it has a header that is
placed by package and name. -/
theorem Document.render_cases (document : Document) (options : EmissionOptions) :
    (document.render options = .error (.unsupportedKind document.kind) ∧
      (document.kind = .types ∨ document.kind = .sequenceable)) ∨
    (document.render options = .error (.missingInterface document.kind) ∧
      (document.kind = .interface ∨ document.kind = .callback) ∧ document.interface = none) ∨
    ∃ interface header, (document.kind = .interface ∨ document.kind = .callback) ∧
      document.interface = some interface ∧ document.render options = .ok header ∧
      header.directory = packageDirectory options.root interface.package ∧
      header.interfaceName = interface.name := by
  obtain ⟨kind, license, imports, node⟩ := document
  cases kind with
  | types => exact Or.inl ⟨rfl, Or.inl rfl⟩
  | sequenceable => exact Or.inl ⟨rfl, Or.inr rfl⟩
  | interface =>
    cases node with
    | none => exact Or.inr (Or.inl ⟨rfl, Or.inl rfl, rfl⟩)
    | some interface => exact Or.inr (Or.inr ⟨interface, _, Or.inl rfl, rfl, rfl, rfl, rfl⟩)
  | callback =>
    cases node with
    | none => exact Or.inr (Or.inl ⟨rfl, Or.inr rfl, rfl⟩)
    | some interface => exact Or.inr (Or.inr ⟨interface, _, Or.inr rfl, rfl, rfl, rfl, rfl⟩)

theorem Document.emit_of_error {document : Document} {options : EmissionOptions}
    {fault : EmissionFault} (h : document.render options = .error fault) (tree : FileTree) :
    document.emit options tree = { result := .error fault, tree, log := [] } := by
  simp only [emit, h]

theorem Document.emit_of_render {document : Document} {options : EmissionOptions}
    {header : RenderedHeader} (h : document.render options = .ok header) (tree : FileTree) :
    (document.emit options tree).result = (header.write tree).result ∧
      (document.emit options tree).tree = (header.write tree).tree := by
  simp only [emit, h, and_self]

namespace RenderedHeader

def prepared (header : RenderedHeader) (tree : LooseTree) : LooseTree :=
  (tree.createDirectories header.directory).1

theorem prepared_grows (header : RenderedHeader) (tree : LooseTree) :
    Grows tree (header.prepared tree) ((header.prepared tree).OnTheWayTo header.directory) :=
  createDirectories_grows tree header.directory

variable (header : RenderedHeader) (tree : FileTree)

theorem write_of_stopped {cause : Cause}
    (h : (tree.toLooseTree.createDirectories header.directory).2 = some cause) :
    (header.write tree).result = .error (.directory header.directory cause) ∧
      (header.write tree).tree = header.prepared tree := by
  simp only [write, FileTree.createDirectories, h, prepared, and_self]

theorem write_of_made (h : (tree.toLooseTree.createDirectories header.directory).2 = none) :
    let attempt := (header.prepared tree).placeFile header.directory header.path
      (.text header.content)
    (header.write tree).result = (match attempt.2 with
      | some cause => .error (.write header.path cause)
      | none => .ok header.path) ∧
    (header.write tree).tree = attempt.1 := by
  intro attempt
  have hattempt : (tree.toLooseTree.createDirectories header.directory).1.placeFile
      header.directory header.path (.text header.content) = attempt := rfl
  simp only [write, FileTree.createDirectories, h, FileTree.placeFile, hattempt]
  cases attempt.2 with
  | none => exact ⟨rfl, rfl⟩
  | some cause => exact ⟨rfl, rfl⟩

/-- The header is put in its place where its directory is there and the place is not taken by a
directory. -/
theorem write_of_destination (h : (tree.toLooseTree.createDirectories header.directory).2 = none)
    {location place : Location}
    (hdirectory : (header.prepared tree).stagingDirectory header.directory = .ok location)
    (hplace : (header.prepared tree).destination header.path = .ok place) :
    (header.write tree).result = .ok header.path ∧
      (header.write tree).tree = (header.prepared tree).put place (.file (.text header.content)) := by
  have hwrite := header.write_of_made tree h
  have hfile := placeFile_of_stagingDirectory hdirectory header.interfaceName (.text header.content)
  rw [← RenderedHeader.path, hplace] at hfile
  rw [hfile] at hwrite
  exact hwrite

/-- The three ways in which writing a header ends. -/
theorem write_cases :
    ((header.write tree).tree = header.prepared tree ∧
      ∃ cause, (header.write tree).result = .error (.directory header.directory cause)) ∨
    ((header.write tree).tree = header.prepared tree ∧
      ∃ cause, (header.write tree).result = .error (.write header.path cause)) ∨
    ∃ location place, (tree.toLooseTree.createDirectories header.directory).2 = none ∧
      (header.prepared tree).stagingDirectory header.directory = .ok location ∧
      (header.prepared tree).destination header.path = .ok place := by
  cases hmade : (tree.toLooseTree.createDirectories header.directory).2 with
  | some cause =>
    obtain ⟨hresult, htree⟩ := header.write_of_stopped tree hmade
    exact Or.inl ⟨htree, cause, hresult⟩
  | none =>
    have hwrite := header.write_of_made tree hmade
    cases hdirectory : (header.prepared tree).stagingDirectory header.directory with
    | error cause =>
      rw [placeFile_of_error hdirectory] at hwrite
      obtain ⟨hresult, htree⟩ := hwrite
      exact Or.inr (Or.inl ⟨htree, cause, hresult⟩)
    | ok location =>
      cases hplace : (header.prepared tree).destination header.path with
      | ok place => exact Or.inr (Or.inr ⟨location, place, rfl, rfl, rfl⟩)
      | error cause =>
        have hfile := placeFile_of_stagingDirectory hdirectory header.interfaceName
          (.text header.content)
        rw [← RenderedHeader.path, hplace] at hfile
        rw [hfile] at hwrite
        obtain ⟨hresult, htree⟩ := hwrite
        exact Or.inr (Or.inl ⟨htree, cause, hresult⟩)

theorem write_error {fault : EmissionFault} (h : (header.write tree).result = .error fault) :
    (∃ cause, fault = .directory header.directory cause ∨ fault = .write header.path cause) ∧
      (header.write tree).tree = header.prepared tree := by
  rcases header.write_cases tree with ⟨htree, cause, hresult⟩ | ⟨htree, cause, hresult⟩ |
    ⟨location, place, hmade, hdirectory, hplace⟩
  · exact ⟨⟨cause, Or.inl (Except.error.inj (h.symm.trans hresult))⟩, htree⟩
  · exact ⟨⟨cause, Or.inr (Except.error.inj (h.symm.trans hresult))⟩, htree⟩
  · rw [(header.write_of_destination tree hmade hdirectory hplace).1] at h
    cases h

theorem write_ok {path : Text} (h : (header.write tree).result = .ok path) :
    header.path = path ∧
      ∃ location place, (tree.toLooseTree.createDirectories header.directory).2 = none ∧
        (header.prepared tree).stagingDirectory header.directory = .ok location ∧
        (header.prepared tree).destination header.path = .ok place := by
  rcases header.write_cases tree with ⟨_, cause, hfault⟩ | ⟨_, cause, hfault⟩ |
    ⟨location, place, hmade, hdirectory, hplace⟩
  · rw [hfault] at h
    cases h
  · rw [hfault] at h
    cases h
  · rw [(header.write_of_destination tree hmade hdirectory hplace).1] at h
    exact ⟨Except.ok.inj h, location, place, hmade, hdirectory, hplace⟩

end RenderedHeader

namespace Document

variable (document : Document) (options : EmissionOptions) (tree : FileTree)

theorem emit_unsupportedKind_iff (kind : DocumentKind) :
    (document.emit options tree).result = .error (.unsupportedKind kind) ↔
      document.kind = kind ∧ (kind = .types ∨ kind = .sequenceable) := by
  rcases document.render_cases options with
    ⟨hrender, hkind⟩ | ⟨hrender, hkind, _⟩ | ⟨_, header, hkind, _, hrender, _⟩
  · rw [document.emit_of_error hrender]
    constructor
    · rintro ⟨⟩
      exact ⟨rfl, hkind⟩
    · rintro ⟨rfl, _⟩
      rfl
  · rw [document.emit_of_error hrender]
    constructor
    · rintro ⟨⟩
    · rintro ⟨rfl, hother⟩
      rcases hkind with hk | hk <;> rw [hk] at hother <;> simp at hother
  · rw [(document.emit_of_render hrender tree).1]
    constructor
    · intro h
      obtain ⟨⟨cause, hfault | hfault⟩, _⟩ := header.write_error tree h <;> cases hfault
    · rintro ⟨rfl, hother⟩
      rcases hkind with hk | hk <;> rw [hk] at hother <;> simp at hother

theorem emit_missingInterface_iff (kind : DocumentKind) :
    (document.emit options tree).result = .error (.missingInterface kind) ↔
      document.kind = kind ∧ (kind = .interface ∨ kind = .callback) ∧ document.interface = none := by
  rcases document.render_cases options with
    ⟨hrender, hkind⟩ | ⟨hrender, hkind, hnone⟩ | ⟨interface, header, _, hnode, hrender, _⟩
  · rw [document.emit_of_error hrender]
    constructor
    · rintro ⟨⟩
    · rintro ⟨rfl, hother, _⟩
      rcases hkind with hk | hk <;> rw [hk] at hother <;> simp at hother
  · rw [document.emit_of_error hrender]
    constructor
    · rintro ⟨⟩
      exact ⟨rfl, hkind, hnone⟩
    · rintro ⟨rfl, _⟩
      rfl
  · rw [(document.emit_of_render hrender tree).1]
    constructor
    · intro h
      obtain ⟨⟨cause, hfault | hfault⟩, _⟩ := header.write_error tree h <;> cases hfault
    · rintro ⟨_, _, hnone⟩
      rw [hnode] at hnone
      cases hnone

end Document

/-- A document without a header is refused and leaves tree and log alone. Any other failure is one
of making the directory or of writing the header, and adds at most directories on the way of the
package directory. -/
theorem failed_emission_keeps_files (document : Document) (options : EmissionOptions)
    (tree : FileTree) :
    (∀ kind, (document.emit options tree).result = .error (.unsupportedKind kind) ↔
      document.kind = kind ∧ (kind = .types ∨ kind = .sequenceable)) ∧
    (∀ kind, (document.emit options tree).result = .error (.missingInterface kind) ↔
      document.kind = kind ∧ (kind = .interface ∨ kind = .callback) ∧ document.interface = none) ∧
    ∀ fault, (document.emit options tree).result = .error fault →
      ((∃ kind, fault = .unsupportedKind kind ∨ fault = .missingInterface kind) ∧
        (document.emit options tree).tree = tree ∧ (document.emit options tree).log = []) ∨
      ∃ interface cause, document.interface = some interface ∧
        (fault = .directory (packageDirectory options.root interface.package) cause ∨
          fault = .write (headerPath (packageDirectory options.root interface.package)
            interface.name) cause) ∧
        Grows tree (document.emit options tree).tree
          ((document.emit options tree).tree.OnTheWayTo
            (packageDirectory options.root interface.package)) := by
  refine ⟨document.emit_unsupportedKind_iff options tree,
    document.emit_missingInterface_iff options tree, ?_⟩
  intro fault hfault
  rcases document.render_cases options with
    ⟨hrender, _⟩ | ⟨hrender, _⟩ | ⟨interface, header, _, hnode, hrender, hdirectory, hname⟩
  · rw [document.emit_of_error hrender] at hfault ⊢
    exact Or.inl ⟨⟨_, Or.inl (Except.error.inj hfault).symm⟩, rfl, rfl⟩
  · rw [document.emit_of_error hrender] at hfault ⊢
    exact Or.inl ⟨⟨_, Or.inr (Except.error.inj hfault).symm⟩, rfl, rfl⟩
  · obtain ⟨hresult, htree⟩ := document.emit_of_render hrender tree
    rw [hresult] at hfault
    obtain ⟨⟨cause, hcause⟩, hleft⟩ := header.write_error tree hfault
    have hgrows := header.prepared_grows tree
    rw [← hleft, ← htree, hdirectory] at hgrows
    rw [RenderedHeader.path, hdirectory, hname] at hcause
    exact Or.inr ⟨interface, cause, hnode, hcause, hgrows⟩

/-- A tree after a header was put in its place and the missing directories on the way to it were
made. -/
structure Receives (before after : LooseTree) (header : RenderedHeader) (place : Location) :
    Prop where
  workingDirectory : after.workingDirectory = before.workingDirectory
  /-- The path of the header leads to its place. -/
  leads : ∃ path, Path.ofText header.path = .ok path ∧ after.resolve path = .ok place
  /-- The header is complete; it may replace a file but no directory. -/
  file : after.lookup? place = some (.file (.text header.content))
  free : before.lookup? place ≠ some .directory
  /-- On the way to the header are directories, which were there or are new. -/
  way : ∀ location, after.OnTheWayTo header.directory location →
    after.lookup? location = some .directory ∧
      (before.lookup? location = some .directory ∨ before.lookup? location = none)
  /-- All else is as it was. -/
  rest : ∀ location, location ≠ place → ¬ after.OnTheWayTo header.directory location →
    after.lookup? location = before.lookup? location

namespace RenderedHeader

variable {header : RenderedHeader} {tree : LooseTree} {location place : Location}
  (hmade : (tree.createDirectories header.directory).2 = none)
  (hdirectory : (header.prepared tree).stagingDirectory header.directory = .ok location)
  (hplace : (header.prepared tree).destination header.path = .ok place)

include hplace in
theorem keepsDirectories_place :
    KeepsDirectories (header.prepared tree)
      ((header.prepared tree).put place (.file (.text header.content))) := by
  obtain ⟨_, _, _, _, _, hfree⟩ := destination_eq_ok.mp hplace
  exact keepsDirectories_put _ hfree

include hmade hplace in
theorem receives_place :
    Receives tree ((header.prepared tree).put place (.file (.text header.content))) header place := by
  obtain ⟨_, path, hpath, hresolve, _, hfree⟩ := destination_eq_ok.mp hplace
  have hkeeps := keepsDirectories_place hplace
  have hgrows := header.prepared_grows tree
  have hne : place ≠ [] := ne_nil_of_lookup?_ne hfree
  have hlookup := lookup?_put (header.prepared tree) hne (.file (.text header.content))
  refine ⟨hgrows.workingDirectory, ⟨path, hpath, hkeeps.resolve hresolve⟩, ?_, ?_, ?_, ?_⟩
  · exact lookup?_put_self _ hne _
  · intro hbefore
    exact hfree (hgrows.keepsDirectories.directory place hbefore)
  · rintro other ⟨above, habove, hway⟩
    have hnonempty : header.directory ≠ [] := (Path.ofText_eq_ok habove).2.2.1
    obtain ⟨above', habove', hisDirectory⟩ := isDirectory_createDirectories hmade hnonempty
    obtain rfl : above = above' := Except.ok.inj (habove.symm.trans habove')
    have hafter := directory_of_onTheWay (hkeeps.isDirectory hisDirectory) hway
    refine ⟨hafter, ?_⟩
    have hother : other ≠ place := by
      rintro rfl
      rw [hlookup, if_pos rfl] at hafter
      cases hafter
    rw [hlookup, if_neg hother] at hafter
    rcases hgrows.lookup? other with heq | ⟨hnone, _⟩
    · exact Or.inl (heq.symm.trans hafter)
    · exact Or.inr hnone
  · intro other hother hoff
    rw [hlookup, if_neg hother]
    rcases hgrows.lookup? other with heq | ⟨_, _, above, habove, hway⟩
    · exact heq
    · exact absurd ⟨above, habove, hkeeps.onTheWay hway⟩ hoff

include hmade hdirectory hplace in
/-- Once a header is in its place, writing it again changes nothing. -/
theorem write_place_again {after : FileTree}
    (hafter : after = (header.prepared tree).put place (.file (.text header.content))) :
    (header.write after).result = .ok header.path ∧ (header.write after).tree = after := by
  have hkeeps := keepsDirectories_place hplace
  have hfile := (receives_place hmade hplace).file
  rw [← hafter] at hkeeps hfile
  have hthere : after.toLooseTree.createDirectories header.directory = (↑after, none) := by
    by_cases hempty : header.directory = []
    · rw [createDirectories, if_pos hempty]
    · obtain ⟨path, hpath, hisDirectory⟩ := isDirectory_createDirectories hmade hempty
      exact createDirectories_of_isDirectory hpath (hkeeps.isDirectory hisDirectory)
  have hprepared : header.prepared after = after := by rw [prepared, hthere]
  have hagain : after.destination header.path = .ok place := by
    obtain ⟨hnul, path, hpath, hresolve, hasks, _⟩ := destination_eq_ok.mp hplace
    refine destination_eq_ok.mpr ⟨hnul, path, hpath, hkeeps.resolve hresolve, hasks, ?_⟩
    rw [hfile]
    simp
  obtain ⟨hresult, htree⟩ := header.write_of_destination after (by rw [hthere])
    (by rw [hprepared]; exact hkeeps.stagingDirectory hdirectory) (by rw [hprepared]; exact hagain)
  obtain ⟨_, _, _, _, _, hfree⟩ := destination_eq_ok.mp hplace
  rw [hprepared, put_eq_self (ne_nil_of_lookup?_ne hfree) hfile] at htree
  exact ⟨hresult, FileTree.ext_loose htree⟩

end RenderedHeader

theorem LooseTree.read_eq_ok {tree : LooseTree} {text content : Text} {path : Path}
    {place : Location} (hpath : Path.ofText text = .ok path) (hasks : path.asksDirectory = false)
    (hresolve : tree.resolve path = .ok place)
    (hfile : tree.lookup? place = some (.file (.text content))) : tree.read text = .ok content := by
  simp only [LooseTree.read, find, bind, Except.bind, hpath, hresolve, hfile, hasks,
    Bool.false_eq_true, ↓reduceIte]

/-- A header that was written can be read at its path. -/
theorem RenderedHeader.read_of_write {header : RenderedHeader} {tree : FileTree} {path : Text}
    (h : (header.write tree).result = .ok path) :
    (header.write tree).tree.read path = .ok header.content := by
  obtain ⟨rfl, location, place, hmade, hdirectory, hplace⟩ := header.write_ok tree h
  obtain ⟨_, parsed, hparsed, hresolve, hasks, _⟩ := destination_eq_ok.mp hplace
  rw [(header.write_of_destination tree hmade hdirectory hplace).2]
  exact read_eq_ok hparsed hasks ((keepsDirectories_place hplace).resolve hresolve)
    (receives_place hmade hplace).file

/-- A successful emission gives the path of the rendered header and changes the tree by it and by
the directories on the way to it, and emitting once more changes nothing. -/
theorem emission_changes_only_header {document : Document} {options : EmissionOptions}
    {tree : FileTree} {path : Text} (h : (document.emit options tree).result = .ok path) :
    ∃ header place, document.render options = .ok header ∧ path = header.path ∧
      (document.emit options tree).tree.read path = .ok header.content ∧
      Receives tree (document.emit options tree).tree header place ∧
      (document.emit options (document.emit options tree).tree).result = .ok path ∧
      (document.emit options (document.emit options tree).tree).tree =
        (document.emit options tree).tree := by
  cases hrender : document.render options with
  | error fault =>
    rw [document.emit_of_error hrender] at h
    cases h
  | ok header =>
    obtain ⟨hresult, htree⟩ := document.emit_of_render hrender tree
    rw [hresult] at h
    have hread := header.read_of_write h
    obtain ⟨rfl, location, place, hmade, hdirectory, hplace⟩ := header.write_ok tree h
    have hafter := (header.write_of_destination tree hmade hdirectory hplace).2
    have hreceives := RenderedHeader.receives_place hmade hplace
    rw [← htree] at hread hafter
    rw [← hafter] at hreceives
    obtain ⟨hresult', htree'⟩ := RenderedHeader.write_place_again hmade hdirectory hplace hafter
    obtain ⟨hagain, hagain'⟩ := document.emit_of_render hrender (document.emit options tree).tree
    refine ⟨header, place, rfl, rfl, hread, hreceives, ?_, ?_⟩
    · rw [hagain, hresult']
    · rw [hagain', htree']

def lightDocument (kind : DocumentKind) (name : Text) : Document :=
  { kind
    license := none
    imports := []
    interface := some
      { package := "hdi.light"
        name
        version := ⟨1, 0⟩
        role := .normal
        methods := [⟨"TurnOn", [⟨"level", .input, .scalar .int⟩]⟩] } }

theorem light_emission_replaces_stale_header :
    let tree := ((FileTree.empty.createDirectories "out/hdi/light").1.placeFile "out/hdi/light"
      "out/hdi/light/ilight.h" (.text "stale")).1
    let emission := (lightDocument .interface "ILight").emit ⟨false, "out"⟩ tree
    let path : Text := "out/hdi/light/ilight.h"
    emission.result = .ok path ∧
      ∃ header place, path = header.path ∧ emission.tree.read path = .ok header.content ∧
        Receives tree emission.tree header place ∧
        ((lightDocument .interface "ILight").emit ⟨false, "out"⟩ emission.tree).tree =
          emission.tree := by
  intro tree emission path
  have h : emission.result = .ok path := by decide +kernel
  obtain ⟨header, place, _, hpath, hread, hreceives, _, hagain⟩ := emission_changes_only_header h
  exact ⟨h, header, place, hpath, hread, hreceives, hagain⟩

end DriverHeader
