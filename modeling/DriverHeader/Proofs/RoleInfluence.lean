import DriverHeader.Emission

/-! # What role and kind decide about a header

The role of an interface reaches its header only through the functions that create and release its
objects, and kernel code has the same ones for every role. The kind of a document stands for a role
where it is a callback, and for nothing else. So much is a statement about two documents: if they
agree in all other things, their headers are compared part by part.
-/
namespace DriverHeader

structure Interface.AlikeButRole (a b : Interface) : Prop where
  package : a.package = b.package
  name : a.name = b.name
  version : a.version = b.version
  methods : a.methods = b.methods

structure Document.AlikeButRole (a b : Document) : Prop where
  license : a.license = b.license
  imports : a.imports = b.imports
  interface : Option.Rel Interface.AlikeButRole a.interface b.interface

namespace Interface.AlikeButRole

variable {a b c : Interface}

theorem withRole (interface : Interface) (role : Role) :
    AlikeButRole { interface with role } interface :=
  ⟨rfl, rfl, rfl, rfl⟩

theorem symm (h : AlikeButRole a b) : AlikeButRole b a :=
  ⟨h.package.symm, h.name.symm, h.version.symm, h.methods.symm⟩

theorem trans (h : AlikeButRole a b) (h' : AlikeButRole b c) : AlikeButRole a c :=
  ⟨h.package.trans h'.package, h.name.trans h'.name, h.version.trans h'.version,
    h.methods.trans h'.methods⟩

theorem fullName (h : AlikeButRole a b) : a.fullName = b.fullName := by
  rw [Interface.fullName, Interface.fullName, h.package, h.name]

/-- The functions of a kernel object are named after its interface and nothing else. -/
theorem kernelLifecycle (h : AlikeButRole a b) : a.lifecycle .kernel = b.lifecycle .kernel := by
  unfold lifecycle Interface.kernelLifecycle getter release instanceParameter
  simp only [h.name]

/-- All that a header shows of a role is the life cycle of the objects. -/
theorem sections (h : AlikeButRole a b) {target : Target}
    (hlifecycle : a.lifecycle target = b.lifecycle target) (imports : List Text) :
    Header.sections imports a target = Header.sections imports b target := by
  unfold Header.sections Header.descriptorLine Header.versionLines Header.bufferSizeLine
    Header.commandLines Header.methodTable
  rw [hlifecycle, h.fullName, h.name, h.version, h.methods]

end Interface.AlikeButRole

namespace Document

theorem AlikeButRole.text {a b : Document} (h : a.AlikeButRole b) {i j : Interface}
    (hinterface : i.AlikeButRole j) {target : Target}
    (hlifecycle : i.lifecycle target = j.lifecycle target) :
    Header.text a i target = Header.text b j target := by
  rw [Header.text, Header.text, h.license, h.imports, hinterface.sections hlifecycle]

section

variable {document : Document} (hkind : document.kind = .interface ∨ document.kind = .callback)
include hkind

theorem subject_of_some {interface : Interface} (hinterface : document.interface = some interface) :
    ∃ shown, document.subject = .ok shown ∧ shown.AlikeButRole interface := by
  rcases hkind with hkind | hkind
  · exact ⟨interface, by rw [subject, hkind, hinterface], .withRole interface interface.role⟩
  · exact ⟨_, by rw [subject, hkind, hinterface], .withRole interface .callback⟩

theorem render_of_none (hinterface : document.interface = none) (options : EmissionOptions) :
    document.render options = .error (.missingInterface document.kind) := by
  rcases hkind with hkind | hkind
  · rw [render, subject, hkind, hinterface]
    rfl
  · rw [render, subject, hkind, hinterface]
    rfl

end

/-- What rendering makes of the interface that a document is about. -/
theorem render_of_subject {document : Document} {shown : Interface}
    (h : document.subject = .ok shown) (options : EmissionOptions) :
    document.render options = .ok
      { directory := packageDirectory options.root shown.package
        interfaceName := shown.name
        content := Header.text document shown options.target } := by
  rw [render, h]
  rfl

theorem content_of_render {document : Document} {options : EmissionOptions}
    {header : RenderedHeader} (h : document.render options = .ok header) :
    ∃ shown, document.subject = .ok shown ∧
      header.content = Header.text document shown options.target := by
  cases hsubject : document.subject with
  | error fault =>
    rw [render, hsubject] at h
    cases h
  | ok shown =>
    rw [render_of_subject hsubject] at h
    exact ⟨shown, rfl, congrArg RenderedHeader.content (Except.ok.inj h).symm⟩

/-- On the kernel target the two documents cannot be told apart by their headers. -/
theorem AlikeButRole.render_kernel {a b : Document} (h : a.AlikeButRole b)
    (ha : a.kind = .interface ∨ a.kind = .callback) (hb : b.kind = .interface ∨ b.kind = .callback)
    {i j : Interface} (hi : a.interface = some i) (hj : b.interface = some j)
    {options : EmissionOptions} (hkernel : options.kernel = true) :
    ∃ header, a.render options = .ok header ∧ b.render options = .ok header := by
  obtain ⟨shown, hshown, hlike⟩ := subject_of_some ha hi
  obtain ⟨shown', hshown', hlike'⟩ := subject_of_some hb hj
  have hnodes : i.AlikeButRole j := by
    have hrel := h.interface
    rw [hi, hj] at hrel
    cases hrel with
    | some hrel => exact hrel
  have hinterfaces : shown.AlikeButRole shown' := (hlike.trans hnodes).trans hlike'.symm
  have htarget : options.target = .kernel := by
    rw [EmissionOptions.target, hkernel]
    rfl
  have htext : Header.text a shown options.target = Header.text b shown' options.target := by
    rw [htarget]
    exact h.text hinterfaces hinterfaces.kernelLifecycle
  refine ⟨_, render_of_subject hshown options, ?_⟩
  rw [render_of_subject hshown' options, htext, hinterfaces.package, hinterfaces.name]

/-- The document with its interface made a callback by its own role instead of by the kind. -/
def withCallbackRole (document : Document) : Document :=
  { document with
    kind := .interface
    interface := document.interface.map fun interface => { interface with role := .callback } }

theorem render_callback {document : Document} (hkind : document.kind = .callback)
    {interface : Interface} (hinterface : document.interface = some interface)
    (options : EmissionOptions) :
    ∃ header, document.render options = .ok header ∧
      document.withCallbackRole.render options = .ok header := by
  have hshown : document.subject = .ok { interface with role := .callback } := by
    rw [subject, hkind, hinterface]
  have hshown' : document.withCallbackRole.subject = .ok { interface with role := .callback } := by
    rw [subject, withCallbackRole, hinterface]
    rfl
  exact ⟨_, render_of_subject hshown options, render_of_subject hshown' options⟩

end Document

/-- Rendered for the kernel, documents that differ at most in kind and role have the same header. On
either target, a callback document has the header of the interface document whose interface is a
callback. Without an interface none of them has a header. -/
theorem alike_documents_render_alike :
    (∀ (a b : Document) (options : EmissionOptions), options.kernel = true → a.AlikeButRole b →
      (a.kind = .interface ∨ a.kind = .callback) → (b.kind = .interface ∨ b.kind = .callback) →
      (a.interface ≠ none → ∃ header, a.render options = .ok header ∧
        b.render options = .ok header) ∧
      (a.interface = none → a.render options = .error (.missingInterface a.kind) ∧
        b.render options = .error (.missingInterface b.kind))) ∧
    (∀ (document : Document) (options : EmissionOptions), document.kind = .callback →
      (document.interface ≠ none → ∃ header, document.render options = .ok header ∧
        document.withCallbackRole.render options = .ok header) ∧
      (document.interface = none →
        document.render options = .error (.missingInterface .callback) ∧
        document.withCallbackRole.render options = .error (.missingInterface .interface))) := by
  constructor
  · intro a b options hkernel h ha hb
    have hrel := h.interface
    constructor
    · intro hsome
      obtain ⟨i, hi⟩ := Option.ne_none_iff_exists'.mp hsome
      rw [hi] at hrel
      cases hj : b.interface with
      | none =>
        rw [hj] at hrel
        cases hrel
      | some j => exact h.render_kernel ha hb hi hj hkernel
    · intro hnone
      rw [hnone] at hrel
      cases hj : b.interface with
      | none => exact ⟨Document.render_of_none ha hnone options, Document.render_of_none hb hj options⟩
      | some j =>
        rw [hj] at hrel
        cases hrel
  · intro document options hkind
    constructor
    · intro hsome
      obtain ⟨interface, hinterface⟩ := Option.ne_none_iff_exists'.mp hsome
      exact Document.render_callback hkind hinterface options
    · intro hnone
      have hcallback := Document.render_of_none (Or.inr hkind) hnone options
      have hinterface : document.withCallbackRole.interface = none := by
        rw [Document.withCallbackRole, hnone]
        rfl
      rw [hkind] at hcallback
      exact ⟨hcallback, Document.render_of_none (Or.inl rfl) hinterface options⟩

def relayDocument (kind : DocumentKind) (role : Role) : Document :=
  { kind
    license := some "// relay\n"
    imports := ["ohos.hdi.relay.v1_0.Types"]
    interface := some
      { package := "ohos.hdi.relay.v1_0"
        name := "IRelay"
        version := ⟨1, 0⟩
        role
        methods := [⟨"Notify", [⟨"value", .inOut, .scalar .int⟩]⟩] } }

theorem relayDocument_headers :
    (∃ header, (relayDocument .interface .serializable).render ⟨true, "out"⟩ = .ok header ∧
      (relayDocument .callback .normal).render ⟨true, "out"⟩ = .ok header) ∧
    ∃ header, (relayDocument .callback .serializable).render ⟨false, "out"⟩ = .ok header ∧
      (relayDocument .interface .callback).render ⟨false, "out"⟩ = .ok header := by
  obtain ⟨hkernel, hcallback⟩ := alike_documents_render_alike
  have halike : (relayDocument .interface .serializable).AlikeButRole (relayDocument .callback .normal) :=
    ⟨rfl, rfl, .some ⟨rfl, rfl, rfl, rfl⟩⟩
  exact ⟨(hkernel _ _ ⟨true, "out"⟩ rfl halike (Or.inl rfl) (Or.inr rfl)).1 nofun,
    (hcallback (relayDocument .callback .serializable) ⟨false, "out"⟩ rfl).1 nofun⟩

end DriverHeader
