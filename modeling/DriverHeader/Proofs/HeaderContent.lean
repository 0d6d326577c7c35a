import DriverHeader.Proofs.ReadableHeader

/-! # What a header determines

Two headers with the same text agree line by line, and since the lists of include lines, commands
and slots end at the first line of another kind, they agree part by part. Each part gives back what
it was made from; only what C has no word for is lost.
-/
namespace DriverHeader

theorem Declaration.parameterList_eq_of_text_eq {d e : Declaration} (h : d.text = e.text)
    (hresult : d.result = e.result) (hname : d.name = e.name) :
    d.parameterList = e.parameterList := by
  unfold text at h
  rw [hresult, hname] at h
  exact List.append_cancel_left (List.append_cancel_right h)

namespace Interface

theorem package_eq_of_fullName_eq {a b : Interface} (hname : a.name = b.name)
    (h : a.fullName = b.fullName) : a.package = b.package := by
  have hlength : ∀ {package name : Text}, name ≠ package ++ "." ++ name := by
    intro package name heq
    have := congrArg List.length heq
    simp only [List.length_append, String.reduceToList, List.length_cons, List.length_nil] at this
    omega
  unfold fullName at h
  rw [hname] at h
  split at h
  · next ha =>
    split at h
    · next hb => rw [ha, hb]
    · exact absurd h hlength
  · split at h
    · exact absurd h.symm hlength
    · exact List.append_cancel_right (List.append_cancel_right h)

theorem callMode_eq_of_getterComment_eq {a b : Interface} (h : a.getterComment = b.getterComment) :
    a.role.callMode = b.role.callMode := by
  unfold getterComment at h
  cases ha : a.role.callMode <;> cases hb : b.role.callMode <;> rw [ha, hb] at h
  · exact absurd h (by decide)
  · exact absurd h (by decide)

theorem userReleases_callback_ne_normal {a b : Interface} (hname : a.name = b.name)
    (ha : a.role = .callback) (hb : b.role = .normal) :
    (a.userReleases.map Declaration.text)[0]? ≠ (b.userReleases.map Declaration.text)[0]? := by
  have hinstance : a.instanceParameter = b.instanceParameter := by
    unfold instanceParameter
    rw [hname]
  have hone : (a.release "Release" [a.instanceParameter]).parameterList =
      List.intercalate ", " [a.instanceParameter] := rfl
  have htwo : (b.release "Release" [b.instanceParameter, isStubParameter]).parameterList =
      List.intercalate ", " [b.instanceParameter, isStubParameter] := rfl
  unfold userReleases
  rw [ha, hb]
  intro h
  have hlist := Declaration.parameterList_eq_of_text_eq (Option.some.inj h) rfl
    (congrArg (· ++ "Release".toList) hname)
  rw [hone, htwo, List.intercalate_singleton, List.intercalate_cons_cons,
    List.intercalate_singleton, hinstance] at hlist
  -- the second parameter makes the list longer
  have hlength := congrArg List.length hlist
  simp only [List.length_append, String.reduceToList, List.length_cons, List.length_nil] at hlength
  omega

end Interface

namespace Header

theorem lineList_eq_of_text_eq {document document' : Document} {interface interface' : Interface}
    {target : Target} (h : Readable document interface) (h' : Readable document' interface')
    (htext : text document interface target = text document' interface' target) :
    lineList document.imports interface target = lineList document'.imports interface' target := by
  have hlines := congrArg (List.splitOn '\n') htext
  rw [h.splitOn_text target, h'.splitOn_text target] at hlines
  exact List.append_cancel_right hlines

theorem nil_not_mem_includes_lines (imports : List Text) (target : Target) :
    [] ∉ (includes imports target).lines := by
  intro hmem
  obtain ⟨⟨origin, path⟩, _, hline⟩ := List.mem_map.mp hmem
  cases origin with
  | standard => exact List.cons_ne_nil _ _ hline
  | generated => exact List.cons_ne_nil _ _ hline

/-- Two headers agree in the parts that say more than a name and fixed words. -/
structure SameParts (imports imports' : List Text) (interface interface' : Interface)
    (target : Target) : Prop where
  includes_lines : (includes imports target).lines = (includes imports' target).lines
  descriptor : descriptorText interface = descriptorText interface'
  major : majorText interface = majorText interface'
  minor : minorText interface = minorText interface'
  opening : tableOpening interface.name = tableOpening interface'.name
  table : tableList interface target = tableList interface' target
  closing : closingLines interface target = closingLines interface' target

theorem sameParts_of_lineList_eq {imports imports' : List Text} {interface interface' : Interface}
    {target : Target} (h : interface.isSpellable = true) (h' : interface'.isSpellable = true)
    (hlines : lineList imports interface target = lineList imports' interface' target) :
    SameParts imports imports' interface interface' target := by
  have hcommands : ∀ {interface : Interface}, interface.isSpellable = true →
      blockEnd ∉ commandList interface :=
    fun h hmem => (plainLine_commandList h _ hmem).ends_nothing rfl
  have htable : ∀ {interface : Interface}, interface.isSpellable = true →
      blockEnd ∉ tableList interface target :=
    fun h hmem => (plainLine_tableList h target _ hmem).ends_nothing rfl
  rw [lineList_eq, lineList_eq] at hlines
  unfold openingLines at hlines
  simp only [List.cons_append, List.nil_append, List.append_assoc, List.cons.injEq, true_and]
    at hlines
  obtain ⟨_, _, hlines⟩ := hlines
  obtain ⟨hincludes, hlines⟩ := append_cons_inj (nil_not_mem_includes_lines imports target)
    (nil_not_mem_includes_lines imports' target) hlines
  simp only [List.cons.injEq, true_and] at hlines
  obtain ⟨hdescriptor, hmajor, hminor, _, hlines⟩ := hlines
  obtain ⟨_, hlines⟩ := append_cons_inj (hcommands h) (hcommands h') hlines
  simp only [List.cons.injEq, true_and] at hlines
  obtain ⟨hopening, hlines⟩ := hlines
  obtain ⟨htables, hclosing⟩ := append_cons_inj (htable h) (htable h') hlines
  exact ⟨hincludes, hdescriptor, hmajor, hminor, hopening, htables, hclosing⟩

namespace SameParts
variable {imports imports' : List Text} {interface interface' : Interface} {target : Target}
  (h : SameParts imports imports' interface interface' target)
include h

theorem name : interface.name = interface'.name := by
  have hopening := h.opening
  unfold tableOpening at hopening
  exact List.append_cancel_left (List.append_cancel_right hopening)

theorem package : interface.package = interface'.package := by
  have hdescriptor := h.descriptor
  unfold descriptorText at hdescriptor
  rw [h.name] at hdescriptor
  exact Interface.package_eq_of_fullName_eq h.name
    (List.append_cancel_left (List.append_cancel_right hdescriptor))

theorem version : interface.version = interface'.version := by
  have hmajor := h.major
  have hminor := h.minor
  unfold majorText at hmajor
  unfold minorText at hminor
  rw [h.name] at hmajor hminor
  have hmajor' := UInt32.toNat_inj.mp (decimal_injective (List.append_cancel_left hmajor))
  have hminor' := UInt32.toNat_inj.mp (decimal_injective (List.append_cancel_left hminor))
  have hpair : Version.mk interface.version.major interface.version.minor =
      Version.mk interface'.version.major interface'.version.minor := by
    rw [hmajor', hminor']
  exact hpair

theorem prototypes (hspelled : interface.isSpellable = true)
    (hspelled' : interface'.isSpellable = true) :
    interface.methods.map (·.prototype interface.name) =
      interface'.methods.map (·.prototype interface.name) := by
  have hread := congrArg (fun table => Prototype.readAll (table.flatMap line)) h.table
  simp only [Prototype.readAll_tableList hspelled, Prototype.readAll_tableList hspelled'] at hread
  unfold Interface.prototypes at hread
  rw [← h.name] at hread
  exact List.append_cancel_right hread

end SameParts

theorem closingLines_user_comment (interface : Interface) :
    (closingLines interface .user)[1]? = some interface.getterComment :=
  rfl

theorem closingLines_user_release {interface : Interface}
    (h : interface.role.callMode = .dual) :
    (closingLines interface .user)[6]? = (interface.userReleases.map Declaration.text)[0]? := by
  obtain ⟨package, name, version, role, methods⟩ := interface
  cases role with
  | serializable => cases (show CallMode.ipcOnly = CallMode.dual from h)
  | callback => rfl
  | normal => rfl

theorem role_eq_of_closingLines_eq {a b : Interface} (hname : a.name = b.name)
    (h : closingLines a .user = closingLines b .user) : a.role = b.role := by
  have hmode : a.role.callMode = b.role.callMode := by
    have hcomment := congrArg (·[1]?) h
    simp only [closingLines_user_comment] at hcomment
    exact Interface.callMode_eq_of_getterComment_eq (Option.some.inj hcomment)
  have hrelease : a.role.callMode = .dual →
      (a.userReleases.map Declaration.text)[0]? = (b.userReleases.map Declaration.text)[0]? := by
    intro hdual
    rw [← closingLines_user_release hdual, ← closingLines_user_release (hmode ▸ hdual), h]
  cases ha : a.role with
  | serializable =>
    rw [ha] at hmode
    cases hb : b.role with
    | serializable => rfl
    | callback => rw [hb] at hmode; cases hmode
    | normal => rw [hb] at hmode; cases hmode
  | callback =>
    have hsame := hrelease (by rw [ha]; rfl)
    rw [ha] at hmode
    cases hb : b.role with
    | serializable => rw [hb] at hmode; cases hmode
    | callback => rfl
    | normal => exact absurd hsame (Interface.userReleases_callback_ne_normal hname ha hb)
  | normal =>
    have hsame := hrelease (by rw [ha]; rfl)
    rw [ha] at hmode
    cases hb : b.role with
    | serializable => rw [hb] at hmode; cases hmode
    | callback =>
      exact absurd hsame.symm (Interface.userReleases_callback_ne_normal hname.symm hb ha)
    | normal => rfl

end Header

/-- Headers with the same text come from interfaces with the same package, name, version and
methods, in documents with the same include names. Of a parameter the header keeps its C spelling,
and of the role only what the user target shows. -/
theorem header_text_determines_content {document document' : Document}
    {interface interface' : Interface} {target : Target}
    (h : Header.Readable document interface) (h' : Header.Readable document' interface')
    (htext : Header.text document interface target = Header.text document' interface' target) :
    interface.package = interface'.package ∧
    interface.name = interface'.name ∧
    interface.version = interface'.version ∧
    (document.imports.map fileStem).eraseDups = (document'.imports.map fileStem).eraseDups ∧
    interface.methods.map Method.name = interface'.methods.map Method.name ∧
    interface.methods.map (fun method => method.params.flatMap Parameter.items) =
      interface'.methods.map (fun method => method.params.flatMap Parameter.items) ∧
    (target = .user → interface.role = interface'.role) := by
  have hparts := Header.sameParts_of_lineList_eq h.spellable h'.spellable
    (Header.lineList_eq_of_text_eq h h' htext)
  have hprototypes := hparts.prototypes h.spellable h'.spellable
  refine ⟨hparts.package, hparts.name, hparts.version,
    Header.includes_lines_inj.mp hparts.includes_lines, ?_, ?_, ?_⟩
  · have hnames := congrArg (List.map Prototype.name) hprototypes
    rwa [List.map_map, List.map_map] at hnames
  · have hparams := congrArg (List.map fun prototype => prototype.params.tail) hprototypes
    rwa [List.map_map, List.map_map] at hparams
  · rintro rfl
    exact Header.role_eq_of_closingLines_eq hparts.name hparts.closing

def pulseService (role : Role) (sequence : Sequence) : Interface :=
  { package := "ohos.hdi.pulse.v1_2"
    name := "IPulse"
    version := ⟨1, 2⟩
    role
    methods := [⟨"Send", [⟨"samples", .input, .sequence sequence (.scalar .ushort)⟩]⟩] }

theorem pulseService_header_content :
    Header.text ⟨.interface, none, ["ohos.Types", "ohos.Types"], none⟩
        (pulseService .normal .array) .kernel =
      Header.text ⟨.callback, none, ["ohos.Types"], none⟩ (pulseService .callback .list) .kernel ∧
    (pulseService .normal .array).methods.map (fun method => method.params.flatMap Parameter.items) =
      (pulseService .callback .list).methods.map
        (fun method => method.params.flatMap Parameter.items) := by
  have htext : Header.text ⟨.interface, none, ["ohos.Types", "ohos.Types"], none⟩
        (pulseService .normal .array) .kernel =
      Header.text ⟨.callback, none, ["ohos.Types"], none⟩ (pulseService .callback .list)
        .kernel := by
    decide +kernel
  obtain ⟨_, _, _, _, _, hparams, _⟩ := header_text_determines_content
    ⟨rfl, by decide, by decide, by decide⟩ ⟨rfl, by decide, by decide, by decide⟩ htext
  exact ⟨htext, hparams⟩

end DriverHeader
