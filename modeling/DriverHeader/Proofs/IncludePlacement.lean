import DriverHeader.Emission
import DriverHeader.Proofs.FileStem
import DriverHeader.Proofs.IncludeOrder
import DriverHeader.Proofs.PathJoin
import DriverHeader.Proofs.RoleInfluence
import DriverHeader.Proofs.TextLines

/-! # Include lines point at the headers that are written

The include line of an imported interface is made from its full name in one pass, the path of its
header from package and name in two. Both meet in the stem of the full name, because a dot between
package and name becomes the separator that joining the two paths adds.
-/
namespace DriverHeader

theorem joinPath_joinPath (root : Text) {a b : Text} (ha : a ≠ []) (hlast : a.getLast? ≠ some '/')
    (hhead : b.head? ≠ some '/') :
    joinPath (joinPath root a) b = joinPath root (a ++ "/" ++ b) := by
  rw [joinPath_assoc root ha, joinPath_of_relative a hhead, separatorAfter,
    if_neg (not_or.mpr ⟨ha, hlast⟩)]

/-- The path of a header, from the stem of its full name. -/
theorem headerPath_packageDirectory (root : Text) (interface : Interface)
    (hpackage : ∀ c ∈ interface.package.getLast?, c ≠ '.' ∧ c ≠ '/')
    (hname : ∀ c ∈ interface.name.head?, c ≠ '.' ∧ c ≠ '/') :
    headerPath (packageDirectory root interface.package) interface.name =
      joinPath root (fileStem interface.fullName ++ ".h") := by
  unfold headerPath packageDirectory Interface.fullName
  split
  · rfl
  · next hne =>
    have hlast : (fileStem interface.package).getLast? ≠ some '/' := by
      rw [fileStem, getLast?_fileStemFrom]
      intro h
      obtain ⟨c, hc, hslash⟩ := Option.map_eq_some_iff.mp h
      have hc' := hpackage c hc
      rcases stemChar_eq_slash.mp hslash with h | h
      · exact hc'.1 h
      · exact hc'.2 h
    have hhead : (fileStem interface.name ++ ".h").head? ≠ some '/' := by
      rw [List.head?_append, head?_fileStem]
      cases hn : interface.name.head? with
      | none => decide
      | some c =>
        have hc := hname c hn
        simp only [Option.map_some, Option.some_or, ne_eq, Option.some.injEq]
        exact fun hslash => (stemChar_eq_slash.mp hslash).elim hc.1 hc.2
    rw [joinPath_joinPath root (fileStem_ne_nil hne) hlast hhead, fileStem_append_dot]
    simp only [List.append_assoc]

/-- Rendering an interface places its header by package and name, whatever the document adds. -/
theorem render_path {document : Document} {interface : Interface} (options : EmissionOptions)
    (hkind : document.kind = .interface ∨ document.kind = .callback)
    (hinterface : document.interface = some interface) :
    ∃ header, document.render options = .ok header ∧
      header.path = headerPath (packageDirectory options.root interface.package) interface.name := by
  obtain ⟨shown, hshown, hlike⟩ := Document.subject_of_some hkind hinterface
  refine ⟨_, Document.render_of_subject hshown options, ?_⟩
  rw [RenderedHeader.path, hlike.package, hlike.name]

namespace Header

theorem generated_line_mem {imports : List Text} {name : Text} (h : name ∈ imports)
    (target : Target) :
    ("#include \"" : Text) ++ (fileStem name ++ ".h") ++ "\"" ∈ (includes imports target).lines := by
  have hstem : fileStem name ∈ (includes imports target).generated := by
    rw [includes_generated, List.mem_eraseDups]
    exact List.mem_map_of_mem h
  have hmem : (⟨.generated, fileStem name⟩ : Include) ∈ (includes imports target).toList :=
    List.mem_append_right _ (List.mem_map_of_mem hstem)
  have hline : Include.line ⟨.generated, fileStem name⟩ ∈ (includes imports target).lines :=
    List.mem_map_of_mem hmem
  rw [Include.line_generated] at hline
  simpa only [List.append_assoc, String.reduceToList, List.cons_append, List.nil_append] using hline

theorem newline_not_mem_includes {imports : List Text} (h : ∀ name ∈ imports, '\n' ∉ name)
    (target : Target) : ∀ l ∈ (includes imports target).lines, '\n' ∉ l := by
  intro l hl
  obtain ⟨header, hheader, rfl⟩ := List.mem_map.mp hl
  rcases List.mem_append.mp hheader with hmem | hmem
  · obtain ⟨path, hpath, rfl⟩ := List.mem_map.mp hmem
    rw [includes_standard] at hpath
    have hplain : ∀ p ∈ pathsOf .standard (standardIncludes target), '\n' ∉ p := by
      cases target <;> decide
    have := hplain path hpath
    rw [Include.line_standard]
    simpa using this
  · obtain ⟨path, hpath, rfl⟩ := List.mem_map.mp hmem
    rw [includes_generated, List.mem_eraseDups] at hpath
    obtain ⟨name, hname, rfl⟩ := List.mem_map.mp hpath
    have := newline_not_mem_fileStem (h name hname)
    rw [Include.line_generated]
    simpa using this

/-- The imports are the second section of a header. -/
theorem text_eq_imports (document : Document) (interface : Interface) (target : Target) :
    ∃ rest, text document interface target =
      banner document.license ++ guardOpening interface.fullName ++ "\n"
        ++ importLines document.imports target ++ rest := by
  refine ⟨"\n" ++ List.intercalate "\n" ((sections document.imports interface target).drop 2), ?_⟩
  rw [text, sections, List.intercalate_cons_cons, List.intercalate_cons_cons]
  simp only [List.append_assoc, List.drop_succ_cons, List.drop_zero]

end Header

/-- An imported interface is included by the path of its header below the output root. In every header
that is rendered for the importing document the imports follow the guard, and there the line stands
once among the include lines, and once among the lines of the section as a text unless an imported
name breaks a line. -/
theorem include_line_names_header (interface : Interface) (document : Document)
    (hpackage : ∀ c ∈ interface.package.getLast?, c ≠ '.' ∧ c ≠ '/')
    (hname : ∀ c ∈ interface.name.head?, c ≠ '.' ∧ c ≠ '/')
    (himport : interface.fullName ∈ document.imports) :
    (∃ path : Text,
      (∀ (source : Document) (options : EmissionOptions),
        (source.kind = .interface ∨ source.kind = .callback) → source.interface = some interface →
        ∃ header, source.render options = .ok header ∧ header.path = joinPath options.root path) ∧
      (∀ (options : EmissionOptions) (header : RenderedHeader), document.render options = .ok header →
        ∃ owner rest, document.subject = .ok owner ∧ header.content =
          Header.banner document.license ++ Header.guardOpening owner.fullName ++ "\n"
            ++ Header.importLines document.imports options.target ++ rest) ∧
      ∀ (owner : Interface) (target : Target),
        (∃ rest, Header.text document owner target =
          Header.banner document.license ++ Header.guardOpening owner.fullName ++ "\n"
            ++ Header.importLines document.imports target ++ rest) ∧
        Header.importLines document.imports target =
          (Header.includes document.imports target).lines.flatMap line ∧
        (Header.includes document.imports target).lines.count ("#include \"" ++ path ++ "\"") = 1 ∧
        ((∀ name ∈ document.imports, '\n' ∉ name) →
          ((Header.importLines document.imports target).splitOn '\n').count
            ("#include \"" ++ path ++ "\"") = 1)) ∧
    ∀ a b : Text, fileStem (a ++ "." ++ b) = fileStem a ++ "/" ++ fileStem b := by
  refine ⟨⟨fileStem interface.fullName ++ ".h", ?_, ?_, ?_⟩, fileStem_append_dot⟩
  · intro source options hkind hinterface
    obtain ⟨header, hrender, hpath⟩ := render_path options hkind hinterface
    exact ⟨header, hrender, hpath.trans
      (headerPath_packageDirectory options.root interface hpackage hname)⟩
  · intro options header hrender
    obtain ⟨owner, howner, hcontent⟩ := Document.content_of_render hrender
    obtain ⟨rest, htext⟩ := Header.text_eq_imports document owner options.target
    exact ⟨owner, rest, howner, hcontent.trans htext⟩
  · intro owner target
    have hcount : (Header.includes document.imports target).lines.count
        ("#include \"" ++ (fileStem interface.fullName ++ ".h") ++ "\"") = 1 := by
      rw [(Header.nodup_includes_lines document.imports target).count,
        if_pos (Header.generated_line_mem himport target)]
    refine ⟨Header.text_eq_imports document owner target, rfl, hcount, ?_⟩
    intro hplain
    rw [Header.importLines, splitOn_lines (Header.newline_not_mem_includes hplain target),
      List.count_append, hcount]
    simp

def fooCallback : Interface :=
  { package := "ohos.hdi.foo.v1_0"
    name := "IFooCallback"
    version := ⟨1, 0⟩
    role := .callback
    methods := [] }

def fooImporter : Document :=
  { kind := .interface
    license := none
    imports := ["ohos.hdi.foo.v1_0.FooTypes", "ohos.hdi.foo.v1_0.IFooCallback"]
    interface := some
      { package := "ohos.hdi.foo.v1_0"
        name := "IFoo"
        version := ⟨1, 0⟩
        role := .normal
        methods := [⟨"SetCallback", [⟨"callback", .input, .named .interface "IFooCallback"⟩]⟩] } }

theorem fooImporter_includes_fooCallback :
    ∃ (path : Text) (header : RenderedHeader),
      joinPath "out" path = "out/ohos/hdi/foo/v1_0/ifoo_callback.h" ∧
      fooImporter.render ⟨false, "out"⟩ = .ok header ∧
      (∃ opening rest : Text, header.content =
        opening ++ Header.importLines fooImporter.imports .user ++ rest) ∧
      ((Header.importLines fooImporter.imports .user).splitOn '\n').count
        ("#include \"" ++ path ++ "\"") = 1 := by
  have hpackage : fooCallback.package.getLast? = some '0' := by decide
  have hname : fooCallback.name.head? = some 'I' := by decide
  obtain ⟨⟨path, hrender, hcontent, hlines⟩, _⟩ := include_line_names_header fooCallback fooImporter
    (by rw [hpackage]; rintro c ⟨⟩; decide) (by rw [hname]; rintro c ⟨⟩; decide) (by decide)
  obtain ⟨written, hwritten, hpath⟩ := hrender ⟨.callback, none, [], some fooCallback⟩
    ⟨false, "out"⟩ (Or.inr rfl) rfl
  obtain ⟨owner, rest, _, hheader⟩ := hcontent ⟨false, "out"⟩ _ rfl
  have hplain : ∀ name ∈ fooImporter.imports, '\n' ∉ name := by decide
  refine ⟨path, _, ?_, rfl, ⟨_, rest, hheader⟩, (hlines fooCallback .user).2.2.2 hplain⟩
  rw [← hpath, ← Except.ok.inj hwritten]
  decide

end DriverHeader
