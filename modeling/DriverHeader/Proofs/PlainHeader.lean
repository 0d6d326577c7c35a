import DriverHeader.Proofs.CName
import DriverHeader.Proofs.EmissionEffect
import DriverHeader.Proofs.PlainDescent

/-! # Headers along plain names

From a root without odd pieces, a package of C identifiers and the name of an interface come a
directory and a header whose paths go along names only. The name of a header has a dot and that of
a package's directory has none, so no header can be where another one needs a directory.
-/
namespace DriverHeader

def IsPlainName (piece : Text) : Prop := piece ≠ [] ∧ piece ≠ "." ∧ piece ≠ ".."

instance (piece : Text) : Decidable (IsPlainName piece) := inferInstanceAs (Decidable (_ ∧ _))

def isPlainPath (path : Text) : Bool := (path.splitOn '/').all fun piece => IsPlainName piece

def GoesAlong (path : Text) : Prop :=
  ∃ names, (path.splitOn '/' = names ∨ path.splitOn '/' = ("." : Text) :: names) ∧
    ∀ name ∈ names, IsPlainName name

def plainNames (path : Text) : List Text := (path.splitOn '/').filter (· ≠ ".")

theorem goesAlong_root {root : Text} (h : root = "." ∨ isPlainPath root = true) :
    GoesAlong root := by
  rcases h with rfl | h
  · exact ⟨[], Or.inr (by decide), by simp⟩
  · refine ⟨_, Or.inl rfl, ?_⟩
    simpa [isPlainPath] using h

theorem GoesAlong.append {path longer : Text} (h : GoesAlong path) {names : List Text}
    (hlonger : longer.splitOn '/' = path.splitOn '/' ++ names)
    (hnames : ∀ name ∈ names, IsPlainName name) : GoesAlong longer := by
  obtain ⟨front, hsplit, hfront⟩ := h
  refine ⟨front ++ names, ?_, ?_⟩
  · rcases hsplit with hsplit | hsplit
    · exact Or.inl (by rw [hlonger, hsplit])
    · exact Or.inr (by rw [hlonger, hsplit, List.cons_append])
  · intro name hname
    rcases List.mem_append.mp hname with hname | hname
    · exact hfront name hname
    · exact hnames name hname

theorem filter_dot_of_plain {names : List Text} (h : ∀ name ∈ names, IsPlainName name) :
    names.filter (· ≠ ("." : Text)) = names := by
  rw [List.filter_eq_self]
  intro name hname
  simpa using (h name hname).2.1

theorem plainNames_append {path longer : Text} {names : List Text}
    (hlonger : longer.splitOn '/' = path.splitOn '/' ++ names)
    (hnames : ∀ name ∈ names, IsPlainName name) :
    plainNames longer = plainNames path ++ names := by
  rw [plainNames, hlonger, List.filter_append, filter_dot_of_plain hnames, plainNames]

theorem GoesAlong.nil_not_mem {path : Text} (h : GoesAlong path) : [] ∉ path.splitOn '/' := by
  obtain ⟨names, hsplit, hnames⟩ := h
  intro hmem
  rcases hsplit with hsplit | hsplit
  · rw [hsplit] at hmem
    exact (hnames _ hmem).1 rfl
  · rw [hsplit] at hmem
    rcases List.mem_cons.mp hmem with heq | hmem
    · cases heq
    · exact (hnames _ hmem).1 rfl

theorem nil_mem_splitOn_of_head? {path : Text} {separator : Char}
    (h : path.head? = some separator) : [] ∈ path.splitOn separator := by
  obtain ⟨rest, rfl⟩ := List.head?_eq_some_iff.mp h
  rw [← List.nil_append (separator :: rest), List.splitOn_append_cons_self]
  exact List.mem_append_left _ (by simp)

theorem nil_mem_splitOn_of_getLast? {path : Text} {separator : Char}
    (h : path = [] ∨ path.getLast? = some separator) : [] ∈ path.splitOn separator := by
  rcases h with rfl | h
  · simp
  · obtain ⟨front, rfl⟩ := List.getLast?_eq_some_iff.mp h
    rw [List.splitOn_append_cons_self]
    exact List.mem_append_right _ (by simp)

theorem splitOn_joinPath {base path : Text} (hbase : [] ∉ base.splitOn '/')
    (hpath : [] ∉ path.splitOn '/') :
    (joinPath base path).splitOn '/' = base.splitOn '/' ++ path.splitOn '/' := by
  rw [joinPath, if_neg (mt nil_mem_splitOn_of_head? hpath),
    if_neg (mt nil_mem_splitOn_of_getLast? hbase), List.append_assoc]
  change (base ++ '/' :: path).splitOn '/' = _
  rw [List.splitOn_append_cons_self]

theorem GoesAlong.ne_nil {path : Text} (h : GoesAlong path) : path ≠ [] :=
  fun hnil => h.nil_not_mem (nil_mem_splitOn_of_getLast? (Or.inl hnil))

theorem map_ofPiece_of_plain {names : List Text} (h : ∀ name ∈ names, IsPlainName name) :
    (names.filter (· ≠ [])).map Step.ofPiece = names.map .name := by
  have hkept : names.filter (· ≠ []) = names := by
    rw [List.filter_eq_self]
    intro name hname
    simpa using (h name hname).1
  rw [hkept]
  apply List.map_congr_left
  intro name hname
  rw [Step.ofPiece, if_neg (h name hname).2.1, if_neg (h name hname).2.2]

/-- A path that goes along names is resolved along them. -/
theorem GoesAlong.along {text : Text} (h : GoesAlong text) {path : Path}
    (hpath : Path.ofText text = .ok path) :
    path.Along (plainNames text) ∧ path.asksDirectory = false := by
  obtain ⟨_, _, _, rfl⟩ := Path.ofText_eq_ok hpath
  have hno := h.nil_not_mem
  refine ⟨⟨by simpa using mt nil_mem_splitOn_of_head? hno, ?_⟩,
    by simpa using fun hlast => hno (nil_mem_splitOn_of_getLast? (Or.inr hlast))⟩
  obtain ⟨names, hsplit, hnames⟩ := h
  have hsteps := map_ofPiece_of_plain hnames
  have hkept := filter_dot_of_plain hnames
  rcases hsplit with hsplit | hsplit
  · refine Or.inl ⟨?_, ?_⟩
    · rw [Path.stepsOf, plainNames, hsplit, hsteps, hkept]
    · rw [plainNames, hsplit, hkept, ← hsplit]
      exact List.splitOn_ne_nil _ _
  · refine Or.inr ?_
    rw [Path.stepsOf, plainNames, hsplit, List.filter_cons_of_pos (by simp),
      List.filter_cons_of_neg (by simp), List.map_cons, hsteps, hkept]
    rfl

theorem slash_not_mem_fileStem {name : Text} (h : isIdentifier name = true) :
    '/' ∉ fileStem name := by
  intro hmem
  rcases mem_fileStemFrom hmem with hc | ⟨c, hc, hslash⟩
  · exact absurd hc (by decide)
  · rcases stemChar_eq_slash.mp hslash.symm with rfl | rfl
    · exact not_mem_of_isIdentifier h (by decide) hc
    · exact not_mem_of_isIdentifier h (by decide) hc

theorem fileStem_ne_nil_of_isIdentifier {name : Text} (h : isIdentifier name = true) :
    fileStem name ≠ [] := by
  apply fileStem_ne_nil
  rintro rfl
  cases h

def packageNames (package : Text) : List Text :=
  if package = [] then [] else (package.splitOn '.').map fileStem

def isPackage (package : Text) : Bool := package = [] ∨ isDottedName package = true

theorem isDottedName_of_isPackage {package : Text} (h : isPackage package = true)
    (hne : package ≠ []) : isDottedName package = true := by
  simpa [isPackage, hne] using h

theorem splitOn_fileStem_intercalate {parts : List Text} (hne : parts ≠ [])
    (h : ∀ part ∈ parts, isIdentifier part = true) :
    (fileStem (['.'].intercalate parts)).splitOn '/' = parts.map fileStem := by
  induction parts with
  | nil => exact absurd rfl hne
  | cons part parts ih =>
    have hone : (fileStem part).splitOn '/' = [fileStem part] :=
      List.splitOn_eq_singleton (slash_not_mem_fileStem (h part List.mem_cons_self))
    cases parts with
    | nil => simpa using hone
    | cons next parts =>
      have hrest := ih (List.cons_ne_nil _ _) fun p hp => h p (List.mem_cons_of_mem _ hp)
      have hstem : fileStem (part ++ ['.'] ++ ['.'].intercalate (next :: parts)) =
          fileStem part ++ ['/'] ++ fileStem (['.'].intercalate (next :: parts)) :=
        fileStem_append_dot part _
      rw [List.intercalate_cons_cons, hstem, List.append_assoc, List.singleton_append,
        List.splitOn_append_cons_self, hone, hrest]
      rfl

theorem splitOn_fileStem {package : Text} (h : isDottedName package = true) :
    (fileStem package).splitOn '/' = (package.splitOn '.').map fileStem := by
  have hparts : ∀ part ∈ package.splitOn '.', isIdentifier part = true :=
    List.all_eq_true.mp h
  have hsplit := splitOn_fileStem_intercalate (List.splitOn_ne_nil '.' package) hparts
  rwa [List.intercalate_splitOn] at hsplit

/-- The names for a package are plain and have no dot. -/
theorem plain_packageNames {package : Text} (h : isPackage package = true) {name : Text}
    (hname : name ∈ packageNames package) : IsPlainName name ∧ '.' ∉ name := by
  unfold packageNames at hname
  split at hname
  · cases hname
  · next hne =>
    obtain ⟨part, hpart, rfl⟩ := List.mem_map.mp hname
    have hdotted := isDottedName_of_isPackage h hne
    have hnodot := dot_not_mem_fileStem part
    refine ⟨⟨?_, ?_, ?_⟩, hnodot⟩
    · exact fileStem_ne_nil_of_isIdentifier (List.all_eq_true.mp hdotted part hpart)
    · exact fun heq => hnodot (heq ▸ by decide)
    · exact fun heq => hnodot (heq ▸ by decide)

theorem splitOn_packageDirectory {root package : Text} (hroot : GoesAlong root)
    (h : isPackage package = true) :
    (packageDirectory root package).splitOn '/' = root.splitOn '/' ++ packageNames package := by
  unfold packageDirectory packageNames
  split
  · rw [List.append_nil]
  · next hne =>
    have hstem := splitOn_fileStem (isDottedName_of_isPackage h hne)
    rw [← hstem]
    apply splitOn_joinPath hroot.nil_not_mem
    rw [hstem]
    intro hmem
    exact (plain_packageNames h (by rwa [packageNames, if_neg hne])).1.1 rfl

def headerFile (name : Text) : Text := fileStem name ++ ".h"

theorem dot_mem_headerFile (name : Text) : '.' ∈ headerFile name :=
  List.mem_append_right _ (by decide)

theorem plain_headerFile (name : Text) : IsPlainName (headerFile name) := by
  have hlast : (headerFile name).getLast? = some 'h' := by
    rw [headerFile, List.getLast?_append]
    rfl
  refine ⟨?_, ?_, ?_⟩ <;> intro heq <;> rw [heq] at hlast <;> exact absurd hlast (by decide)

theorem splitOn_headerPath {directory name : Text} (hdirectory : GoesAlong directory)
    (hname : isIdentifier name = true) :
    (headerPath directory name).splitOn '/' = directory.splitOn '/' ++ [headerFile name] := by
  have hone : (headerFile name).splitOn '/' = [headerFile name] := by
    apply List.splitOn_eq_singleton
    rw [headerFile, List.mem_append, not_or]
    exact ⟨slash_not_mem_fileStem hname, by decide⟩
  have hno : [] ∉ (headerFile name).splitOn '/' := by
    rw [hone, List.mem_singleton]
    exact (plain_headerFile name).1.symm
  have hjoin := splitOn_joinPath hdirectory.nil_not_mem hno
  rwa [hone] at hjoin

namespace RenderedHeader

def placeNames (header : RenderedHeader) : List Text :=
  plainNames header.directory ++ [headerFile header.interfaceName]

/-- A header in a directory for a package below a root, with plain names all the way. -/
structure Below (header : RenderedHeader) (root : Text) (names : List Text) : Prop where
  along : GoesAlong root
  directory : header.directory.splitOn '/' = root.splitOn '/' ++ names
  path : header.path.splitOn '/' = header.directory.splitOn '/' ++ [headerFile header.interfaceName]
  plain : ∀ name ∈ names, IsPlainName name ∧ '.' ∉ name

theorem below_of_package {header : RenderedHeader} {root package : Text} (hroot : GoesAlong root)
    (hpackage : isPackage package = true) (hname : isIdentifier header.interfaceName = true)
    (hdirectory : header.directory = packageDirectory root package) :
    header.Below root (packageNames package) := by
  have hsplit := splitOn_packageDirectory hroot hpackage
  rw [← hdirectory] at hsplit
  have hplain : ∀ name ∈ packageNames package, IsPlainName name ∧ '.' ∉ name :=
    fun _ => plain_packageNames hpackage
  have halong := hroot.append hsplit fun name hname => (hplain name hname).1
  exact ⟨hroot, hsplit, splitOn_headerPath halong hname, hplain⟩

namespace Below

variable {header : RenderedHeader} {root : Text} {names : List Text} (h : header.Below root names)
include h

theorem goesAlong_directory : GoesAlong header.directory :=
  h.along.append h.directory fun name hname => (h.plain name hname).1

theorem goesAlong_path : GoesAlong header.path :=
  h.goesAlong_directory.append h.path (by simpa using plain_headerFile header.interfaceName)

theorem plainNames_directory : plainNames header.directory = plainNames root ++ names :=
  plainNames_append h.directory fun name hname => (h.plain name hname).1

theorem plainNames_path : plainNames header.path = header.placeNames :=
  plainNames_append h.path (by simpa using plain_headerFile header.interfaceName)

variable {other : RenderedHeader} {names' : List Text} (h' : other.Below root names')
include h'

/-- No header is where another one needs a directory, for its name has a dot. -/
theorem take_ne_placeNames (n : Nat) :
    (plainNames other.directory).take n ≠ header.placeNames := by
  intro heq
  have hway := List.take_append_drop n (plainNames other.directory)
  rw [heq, placeNames, h.plainNames_directory, h'.plainNames_directory, List.append_assoc,
    List.append_assoc] at hway
  have hnames' := List.append_cancel_left hway
  have hmem : headerFile header.interfaceName ∈ names' := by
    rw [← hnames']
    simp
  exact (h'.plain _ hmem).2 (dot_mem_headerFile _)

/-- Headers with different paths have different places. -/
theorem placeNames_ne (hpath : header.path ≠ other.path) : header.placeNames ≠ other.placeNames := by
  intro heq
  rw [placeNames, placeNames, h.plainNames_directory, h'.plainNames_directory, List.append_assoc,
    List.append_assoc] at heq
  have hnames := List.append_cancel_left heq
  apply hpath
  have hsplit : header.path.splitOn '/' = other.path.splitOn '/' := by
    rw [h.path, h'.path, h.directory, h'.directory, List.append_assoc, List.append_assoc, hnames]
  have hjoin := congrArg (['/'].intercalate ·) hsplit
  simpa only [List.intercalate_splitOn] using hjoin

end Below
end RenderedHeader
end DriverHeader
