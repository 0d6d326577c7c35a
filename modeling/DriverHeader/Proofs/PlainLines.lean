import DriverHeader.Proofs.Prototype
import DriverHeader.Proofs.SlotLayout

/-! # Lines that belong to no block boundary

The command enumeration and the method table are the last two blocks of a header. Their lines are
indented or empty and nothing below them opens a block, so both can be cut out of the text, whatever
license, package and imports stand above.
-/
namespace DriverHeader

structure PlainLine (l : Text) : Prop where
  unbroken : '\n' ∉ l
  opens_nothing : l.getLast? ≠ some '\x7b'
  ends_nothing : l ≠ blockEnd

theorem PlainLine.ne_opening {l opening : Text} (h : PlainLine l)
    (hopening : opening.getLast? = some '\x7b') : opening ≠ l :=
  fun heq => h.opens_nothing (heq ▸ hopening)

theorem plainLine_nil : PlainLine [] := ⟨by simp, by simp, by decide⟩

theorem plainLine_append {s finish : Text} (hs : '\n' ∉ s) (hfinish : '\n' ∉ finish) {c : Char}
    (hlast : finish.getLast? = some c) (hc : c ≠ '\x7b') (hne : s ++ finish ≠ blockEnd) :
    PlainLine (s ++ finish) := by
  refine ⟨by simp [hs, hfinish], ?_, hne⟩
  rw [List.getLast?_append, hlast]
  simpa using hc

theorem cons_blank_ne_blockEnd (t : Text) : ' ' :: t ≠ blockEnd := by
  intro h
  exact absurd (List.cons.inj h).1 (by decide)

theorem plainLine_wrapped {gap head : Text} (hgap : '\n' ∉ gap) (hhead : '\n' ∉ head)
    {fragments : List Text} (hfragments : ∀ fragment ∈ fragments, '\n' ∉ fragment) :
    ∀ l ∈ wrapped (' ' :: gap) (' ' :: head) fragments, PlainLine l := by
  have hend : ∀ {t : Text} (finish : Text) {c : Char}, '\n' ∉ t → '\n' ∉ finish →
      finish.getLast? = some c → c ≠ '\x7b' → PlainLine (' ' :: t ++ finish) := by
    intro t finish c ht hfinish hlast hc
    exact plainLine_append (by simpa using ht) hfinish hlast hc (cons_blank_ne_blockEnd _)
  induction fragments generalizing head with
  | nil =>
    intro l hl
    rw [List.mem_singleton.mp hl]
    exact hend ");" hhead (by decide) rfl (by decide)
  | cons fragment fragments ih =>
    intro l hl
    rcases List.mem_cons.mp hl with rfl | hl
    · exact hend "," hhead (by decide) rfl (by decide)
    · have hnext : '\n' ∉ gap ++ fragment := by
        simp [hgap, hfragments fragment List.mem_cons_self]
      exact ih hnext (fun f hf => hfragments f (List.mem_cons_of_mem _ hf)) l hl

theorem Method.unbroken_of_isSpellable {method : Method} (hmethod : method.isSpellable = true)
    {owner : Text} (howner : isIdentifier owner = true) {indent : Text} (hindent : '\n' ∉ indent) :
    method.Unbroken owner indent := by
  rw [isSpellable_iff] at hmethod
  refine ⟨fun name hname => newline_not_mem_of_isIdentifier ?_, hindent⟩
  rcases List.mem_cons.mp hname with rfl | hname
  · exact howner
  · rcases List.mem_cons.mp hname with rfl | hname
    · exact hmethod.1
    · obtain ⟨p, hp, hname⟩ := List.mem_flatMap.mp hname
      exact Parameter.isIdentifier_names (hmethod.2 p hp) name hname

theorem Method.plainLine_slotLines {method : Method} (hmethod : method.isSpellable = true)
    {owner : Text} (howner : isIdentifier owner = true) :
    ∀ l ∈ method.slotLines owner tab, PlainLine l := by
  have hunbroken := unbroken_of_isSpellable hmethod howner (show '\n' ∉ tab by decide)
  unfold slotLines
  split
  · intro l hl
    have hlast : (method.slotLine owner tab).getLast? = some ';' := List.getLast?_append
    rw [List.mem_singleton.mp hl]
    exact ⟨hunbroken.slotLine, by rw [hlast]; decide, cons_blank_ne_blockEnd _⟩
  · have hhead := unbroken_of_isSpellable hmethod howner (show '\n' ∉ ("   " : Text) by decide)
    exact plainLine_wrapped (by decide) hhead.slotHead hunbroken.fragments

theorem Declaration.Spelled.plainLine_text {declaration : Declaration} (h : declaration.Spelled) :
    PlainLine declaration.text := by
  have hresult : '\n' ∉ declaration.result := not_mem_of_all h.result (by decide)
  have hname : '\n' ∉ declaration.name := not_mem_of_all h.name (by decide)
  have hlist : '\n' ∉ declaration.parameterList := by
    unfold parameterList
    split
    · decide
    · intro hmem
      rcases mem_intercalate hmem with hsep | ⟨p, hp, hc⟩
      · exact absurd hsep (by decide)
      · exact not_mem_of_all (h.params p hp) (by decide) hc
  have hparen : '(' ∈ declaration.text := by simp [text]
  refine plainLine_append (by simp [hresult, hname, hlist]) (by decide) rfl (by decide) ?_
  intro h
  have heq : declaration.text = blockEnd := h
  rw [heq] at hparen
  exact absurd hparen (by decide)

theorem DeclarationGroup.plainLine_lineList {group : DeclarationGroup}
    (hcomment : ∀ comment ∈ group.comment, PlainLine comment)
    (hdeclarations : ∀ d ∈ group.declarations, PlainLine d.text) :
    ∀ l ∈ group.lineList, PlainLine l := by
  have htexts : ∀ l ∈ group.declarations.map Declaration.text, PlainLine l := by
    intro l hl
    obtain ⟨d, hd, rfl⟩ := List.mem_map.mp hl
    exact hdeclarations d hd
  have hspaced : ∀ {ls : List Text}, (∀ l ∈ ls, PlainLine l) →
      ∀ l ∈ ls.intersperse [], PlainLine l := by
    intro ls
    induction ls with
    | nil => exact fun h l hl => h l hl
    | cons first ls ih =>
      cases ls with
      | nil => exact fun h l hl => h l hl
      | cons next ls =>
        intro h l hl
        rw [List.intersperse_cons_cons] at hl
        rcases List.mem_cons.mp hl with rfl | hl
        · exact h l List.mem_cons_self
        · rcases List.mem_cons.mp hl with rfl | hl
          · exact plainLine_nil
          · exact ih (fun l hl => h l (List.mem_cons_of_mem _ hl)) l hl
  intro l hl
  rcases List.mem_append.mp hl with hl | hl
  · exact hcomment l (Option.mem_toList.mp hl)
  · split at hl
    · exact htexts l hl
    · exact hspaced htexts l hl

namespace Interface

theorem objectAccessor_user (interface : Interface) :
    (interface.lifecycle .user).objectAccessor =
      some ("struct " ++ remoteServiceName ++ "* (*AsObject)(struct " ++ interface.name
        ++ " *self);") :=
  rfl

variable {interface : Interface} (hname : isIdentifier interface.name = true)
include hname

theorem plainLine_getters (target : Target) :
    ∀ l ∈ (interface.lifecycle target).getters.lineList, PlainLine l := by
  apply DeclarationGroup.plainLine_lineList
  · intro comment hcomment
    cases target with
    | kernel => cases (show (none : Option Text) = some comment from hcomment)
    | user =>
      rw [← Option.some.inj hcomment]
      unfold getterComment
      split <;> exact ⟨by decide, by decide, by decide⟩
  · exact fun d hd => (spelled_getters hname target d hd).plainLine_text

theorem plainLine_releases (target : Target) :
    ∀ l ∈ (interface.lifecycle target).releases.lineList, PlainLine l := by
  apply DeclarationGroup.plainLine_lineList
  · intro comment hcomment
    cases target with
    | kernel => cases (show (none : Option Text) = some comment from hcomment)
    | user =>
      rw [← Option.some.inj hcomment]
      exact ⟨by decide, by decide, by decide⟩
  · exact fun d hd => (spelled_releases hname target d hd).plainLine_text

end Interface

namespace Header

theorem getLast?_commandOpening : commandOpening.getLast? = some '\x7b' := by decide

theorem getLast?_tableOpening (name : Text) : (tableOpening name).getLast? = some '\x7b' := by
  unfold tableOpening
  rw [List.getLast?_append]
  rfl

variable {interface : Interface} (h : interface.isSpellable = true)
include h

theorem plainLine_commandList : ∀ l ∈ commandList interface, PlainLine l := by
  rw [Interface.isSpellable_iff] at h
  have hcommand : ∀ {method finish : Text} {c : Char}, isIdentifier method = true → '\n' ∉ finish →
      finish.getLast? = some c → c ≠ '\x7b' →
      PlainLine (tab ++ commandName interface.name method ++ finish) := by
    intro method finish c hmethod hfinish hlast hc
    have hname := newline_not_mem_of_isIdentifier (isIdentifier_commandName h.1 hmethod)
    refine plainLine_append ?_ hfinish hlast hc (cons_blank_ne_blockEnd _)
    unfold tab
    simp [hname]
  intro l hl
  rcases List.mem_cons.mp hl with rfl | hl
  · exact hcommand (by decide) (by decide) rfl (by decide)
  · obtain ⟨method, hmethod, rfl⟩ := List.mem_map.mp hl
    have hspelled := (Method.isSpellable_iff.mp (h.2 method hmethod)).1
    exact hcommand hspelled (by decide) rfl (by decide)

theorem plainLine_tableList (target : Target) : ∀ l ∈ tableList interface target, PlainLine l := by
  rw [Interface.isSpellable_iff] at h
  have hname := newline_not_mem_of_isIdentifier h.1
  intro l hl
  rcases List.mem_append.mp hl with hl | hl
  · rcases List.mem_append.mp hl with hl | hl
    · obtain ⟨method, hmethod, hl⟩ := List.mem_flatMap.mp hl
      rcases List.mem_append.mp hl with hl | hl
      · exact Method.plainLine_slotLines (h.2 method hmethod) h.1 l hl
      · rw [List.mem_singleton.mp hl]
        exact plainLine_nil
    · exact Method.plainLine_slotLines (by decide) h.1 l hl
  · cases target with
    | kernel => cases hl
    | user =>
      simp only [Interface.objectAccessor_user, Option.elim_some, List.mem_cons, List.not_mem_nil,
        or_false] at hl
      rcases hl with rfl | rfl
      · exact plainLine_nil
      · rw [← List.append_assoc]
        refine plainLine_append ?_ (by decide) rfl (by decide) (cons_blank_ne_blockEnd _)
        unfold tab remoteServiceName
        simp [hname]

theorem plainLine_closingLines (target : Target) :
    ∀ l ∈ closingLines interface target, PlainLine l := by
  rw [Interface.isSpellable_iff] at h
  have hguard : PlainLine ("#endif // " ++ guardMacro interface.fullName) := by
    have hguardName : '\n' ∉ guardMacro interface.fullName :=
      not_mem_of_all (all_isNameChar_guardMacro _) (by decide)
    refine ⟨by simp [hguardName], ?_, fun heq => absurd (List.cons.inj heq).1 (by decide)⟩
    rw [guardMacro, ← List.append_assoc, List.getLast?_append]
    simp
  intro l hl
  unfold closingLines at hl
  rcases List.mem_cons.mp hl with rfl | hl
  · exact plainLine_nil
  · rcases List.mem_append.mp hl with hl | hl
    · exact Interface.plainLine_getters h.1 target l hl
    · rcases List.mem_cons.mp hl with rfl | hl
      · exact plainLine_nil
      · rcases List.mem_append.mp hl with hl | hl
        · exact Interface.plainLine_releases h.1 target l hl
        · simp only [List.mem_cons, List.not_mem_nil, or_false] at hl
          rcases hl with rfl | rfl | rfl | rfl | rfl | rfl
          · exact plainLine_nil
          · exact ⟨by decide, by decide, by decide⟩
          · exact ⟨by decide, by decide, by decide⟩
          · exact ⟨by decide, by decide, by decide⟩
          · exact plainLine_nil
          · exact hguard

end Header
end DriverHeader
