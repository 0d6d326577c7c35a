import DriverHeader.Proofs.HeaderLines
import DriverHeader.Proofs.Prototype

/-! # Brackets in the code of a header

A scan reads a list from left to right and may fail at any element. Brackets are scanned with the
closing ones still to come, innermost first. Between its opening lines and the last lines a header
consists of code: the command enumeration, the method table and the functions for the life cycle.
Each of them is followed through the scan in the order in which it is written, piece by piece, so a
bracket may well be opened in one piece and closed in another.
-/
namespace DriverHeader

section
variable {σ α : Type} {step : σ → α → Option σ} {s s' s'' : σ}

def Scans (step : σ → α → Option σ) (s : σ) (xs : List α) (s' : σ) : Prop :=
  xs.foldlM step s = some s'

theorem Scans.append {xs ys : List α} (hxs : Scans step s xs s') (hys : Scans step s' ys s'') :
    Scans step s (xs ++ ys) s'' := by
  rw [Scans, List.foldlM_append, hxs]
  exact hys

theorem Scans.of_append {xs ys : List α} (h : Scans step s (xs ++ ys) s'') :
    ∃ s', Scans step s xs s' ∧ Scans step s' ys s'' := by
  rw [Scans, List.foldlM_append] at h
  exact Option.bind_eq_some_iff.mp h

theorem scans_of_idle {xs : List α} (h : ∀ x ∈ xs, step s x = some s) : Scans step s xs s := by
  induction xs with
  | nil => rfl
  | cons x xs ih =>
    rw [Scans, List.foldlM_cons, h x List.mem_cons_self]
    exact ih fun y hy => h y (List.mem_cons_of_mem x hy)

theorem scans_flatMap {β : Type} {xs : List β} {f : β → List α}
    (h : ∀ x ∈ xs, Scans step s (f x) s) : Scans step s (xs.flatMap f) s := by
  induction xs with
  | nil => rfl
  | cons x xs ih =>
    rw [List.flatMap_cons]
    exact (h x List.mem_cons_self).append (ih fun y hy => h y (List.mem_cons_of_mem x hy))

end

/-- Reads one character of C code while the closing brackets `awaited` are still to come, the
innermost first. -/
def bracketStep (awaited : List Char) (c : Char) : Option (List Char) :=
  if c = '(' then some (')' :: awaited)
  else if c = '\x7b' then some ('\x7d' :: awaited)
  else if c = ')' || c = '\x7d' then
    if awaited.head? = some c then some awaited.tail else none
  else some awaited

def isWellBracketed (t : Text) : Bool := t.foldlM bracketStep [] == some []

theorem scans_of_no_bracket {p : Char → Bool}
    (hp : ("()\x7b\x7d" : Text).all (fun c => !p c) = true) {t : Text} (ht : t.all p = true)
    (awaited : List Char) : Scans bracketStep awaited t awaited := by
  have hne : ∀ {c d : Char}, c ∈ t → d ∈ ("()\x7b\x7d" : Text) → c ≠ d := by
    rintro c _ hc hd rfl
    have hreject := List.all_eq_true.mp hp c hd
    rw [List.all_eq_true.mp ht c hc] at hreject
    exact Bool.noConfusion hreject
  apply scans_of_idle
  intro c hc
  have hopenRound : c ≠ '(' := hne hc (by decide)
  have hcloseRound : c ≠ ')' := hne hc (by decide)
  have hopen : c ≠ '\x7b' := hne hc (by decide)
  have hclose : c ≠ '\x7d' := hne hc (by decide)
  unfold bracketStep
  simp only [hopenRound, hcloseRound, hopen, hclose, if_false, decide_false, Bool.or_self,
    Bool.false_eq_true]

def isProseChar (c : Char) : Bool := isSpellingChar c || c = ',' || c = '/'

/-- The characters of a header between its macros and its last lines. No quote and no number sign
is among them. -/
def isCodeChar (c : Char) : Bool := isProseChar c || ("\n;=()\x7b\x7d" : Text).contains c

/-- Code that turns the brackets `awaited` into `awaited'`. -/
structure CodeRun (awaited : List Char) (t : Text) (awaited' : List Char) : Prop where
  chars : t.all isCodeChar = true
  brackets : Scans bracketStep awaited t awaited'

namespace CodeRun

variable {awaited awaited' awaited'' : List Char} {s t : Text}

theorem append (hs : CodeRun awaited s awaited') (ht : CodeRun awaited' t awaited'') :
    CodeRun awaited (s ++ t) awaited'' :=
  ⟨by rw [List.all_append, hs.chars, ht.chars]; rfl, hs.brackets.append ht.brackets⟩

theorem line (h : CodeRun awaited t awaited') : CodeRun awaited (line t) awaited' :=
  h.append ⟨by decide, rfl⟩

theorem nil : CodeRun awaited [] awaited := ⟨rfl, rfl⟩

theorem comma (awaited : List Char) : CodeRun awaited ", " awaited := ⟨by decide, rfl⟩

theorem of_prose (h : t.all isProseChar = true) (awaited : List Char) :
    CodeRun awaited t awaited := by
  refine ⟨List.all_eq_true.mpr fun c hc => ?_, scans_of_no_bracket (by decide) h awaited⟩
  rw [isCodeChar, List.all_eq_true.mp h c hc, Bool.true_or]

theorem of_spelling (h : t.all isSpellingChar = true) (awaited : List Char) :
    CodeRun awaited t awaited := by
  refine of_prose (List.all_eq_true.mpr fun c hc => ?_) awaited
  rw [isProseChar, List.all_eq_true.mp h c hc, Bool.true_or, Bool.true_or]

theorem of_isIdentifier (h : isIdentifier t = true) (awaited : List Char) :
    CodeRun awaited t awaited :=
  of_spelling (all_isSpellingChar_of_isIdentifier h) awaited

theorem flatMap {α : Type} {xs : List α} {f : α → Text}
    (h : ∀ x ∈ xs, CodeRun awaited (f x) awaited) : CodeRun awaited (xs.flatMap f) awaited := by
  refine ⟨?_, scans_flatMap fun x hx => (h x hx).brackets⟩
  rw [List.all_flatMap, List.all_eq_true]
  exact fun x hx => (h x hx).chars

theorem intercalate {separator : Text} (hseparator : CodeRun awaited separator awaited)
    {ts : List Text} (h : ∀ t ∈ ts, CodeRun awaited t awaited) :
    CodeRun awaited (List.intercalate separator ts) awaited := by
  induction ts with
  | nil => exact nil
  | cons t ts ih =>
    have hrest := ih fun u hu => h u (List.mem_cons_of_mem t hu)
    have ht := h t List.mem_cons_self
    cases ts with
    | nil => simpa using ht
    | cons next ts =>
      rw [List.intercalate_cons_cons]
      exact (ht.append hseparator).append hrest

end CodeRun

theorem Parameter.codeRun_fragment {parameter : Parameter} (h : parameter.isSpellable = true)
    (awaited : List Char) : CodeRun awaited parameter.fragment awaited :=
  .intercalate (.comma awaited) fun item hitem =>
    .of_spelling (all_isSpellingChar_of_isSpelling (isSpelling_items h item hitem)) awaited

namespace Method

variable {method : Method} (hmethod : method.isSpellable = true) {owner : Text}
  (howner : isIdentifier owner = true)
include hmethod howner

/-- The parenthesis around the parameters is opened before the first and closed after the last of
them, whatever stands between two. -/
theorem codeRun_slotWith {separator : Text} {awaited : List Char}
    (hseparator : CodeRun (')' :: awaited) separator (')' :: awaited)) :
    CodeRun awaited (method.slotWith owner tab separator) awaited := by
  rw [isSpellable_iff] at hmethod
  have hhead : CodeRun awaited (tab ++ "int32_t (*") (')' :: awaited) := ⟨by decide, rfl⟩
  have hname : CodeRun (')' :: awaited) method.name (')' :: awaited) :=
    .of_isIdentifier hmethod.1 _
  have hstruct : CodeRun (')' :: awaited) ")(struct " (')' :: awaited) := ⟨by decide, rfl⟩
  have howner : CodeRun (')' :: awaited) owner (')' :: awaited) := .of_isIdentifier howner _
  have hself : CodeRun (')' :: awaited) " *self" (')' :: awaited) := ⟨by decide, rfl⟩
  have hparams : CodeRun (')' :: awaited)
      (method.params.flatMap fun p => separator ++ p.fragment) (')' :: awaited) :=
    .flatMap fun p hp => hseparator.append (Parameter.codeRun_fragment (hmethod.2 p hp) _)
  have hclose : CodeRun (')' :: awaited) ");" awaited := ⟨by decide, rfl⟩
  unfold slotWith slotHead
  exact (((((hhead.append hname).append hstruct).append howner).append hself).append
    hparams).append hclose

theorem codeRun_slot (awaited : List Char) :
    CodeRun awaited (method.slot owner tab) awaited := by
  unfold slot
  split
  · exact codeRun_slotWith hmethod howner (.comma _)
  · exact codeRun_slotWith hmethod howner ⟨by decide, rfl⟩

end Method

theorem Declaration.Spelled.codeRun_text {declaration : Declaration} (h : declaration.Spelled)
    (awaited : List Char) : CodeRun awaited declaration.text awaited := by
  have hopen : CodeRun awaited "(" (')' :: awaited) := ⟨by decide, rfl⟩
  have hparams : CodeRun (')' :: awaited) declaration.parameterList (')' :: awaited) := by
    unfold parameterList
    split
    · exact ⟨by decide, rfl⟩
    · exact .intercalate (.comma _) fun p hp => .of_spelling (h.params p hp) _
  have hclose : CodeRun (')' :: awaited) ");" awaited := ⟨by decide, rfl⟩
  have hfront := (CodeRun.of_spelling h.result awaited).append (.of_spelling h.name awaited)
  exact ((hfront.append hopen).append hparams).append hclose

theorem DeclarationGroup.codeRun_lines {group : DeclarationGroup} {awaited : List Char}
    (hcomment : ∀ comment ∈ group.comment, CodeRun awaited comment awaited)
    (hseparator : CodeRun awaited group.separator awaited)
    (hdeclarations : ∀ d ∈ group.declarations, d.Spelled) :
    CodeRun awaited group.lines awaited := by
  have hfront : CodeRun awaited (group.comment.elim [] line) awaited := by
    cases h : group.comment with
    | none => exact .nil
    | some comment => exact (hcomment comment h).line
  refine hfront.append (.intercalate hseparator fun t ht => ?_)
  obtain ⟨d, hd, rfl⟩ := List.mem_map.mp ht
  exact ((hdeclarations d hd).codeRun_text awaited).line

namespace Interface

variable {interface : Interface} (hname : isIdentifier interface.name = true)
include hname

theorem codeRun_getters (target : Target) (awaited : List Char) :
    CodeRun awaited (interface.lifecycle target).getters.lines awaited := by
  have hspelled := spelled_getters hname target
  cases target with
  | kernel =>
    have hseparator : CodeRun awaited "\n" awaited := ⟨by decide, rfl⟩
    exact DeclarationGroup.codeRun_lines nofun hseparator hspelled
  | user =>
    refine DeclarationGroup.codeRun_lines ?_ .nil hspelled
    rintro comment ⟨⟩
    unfold getterComment
    split <;> exact .of_prose (by decide) awaited

theorem codeRun_releases (target : Target) (awaited : List Char) :
    CodeRun awaited (interface.lifecycle target).releases.lines awaited := by
  have hspelled := spelled_releases hname target
  cases target with
  | kernel => exact DeclarationGroup.codeRun_lines nofun .nil hspelled
  | user =>
    refine DeclarationGroup.codeRun_lines ?_ .nil hspelled
    rintro comment ⟨⟩
    exact .of_prose (by decide) awaited

end Interface

namespace Header

variable {interface : Interface} (h : interface.isSpellable = true)
include h

theorem codeRun_commandLines (awaited : List Char) :
    CodeRun awaited (commandLines interface) awaited := by
  rw [Interface.isSpellable_iff] at h
  have hopen : CodeRun awaited (line "enum \x7b") ('\x7d' :: awaited) := ⟨by decide, rfl⟩
  have hcommand : ∀ {method finish : Text}, isIdentifier method = true →
      CodeRun ('\x7d' :: awaited) finish ('\x7d' :: awaited) →
      CodeRun ('\x7d' :: awaited) (line (tab ++ commandName interface.name method ++ finish))
        ('\x7d' :: awaited) := by
    intro method finish hmethod hfinish
    have htab : CodeRun ('\x7d' :: awaited) tab ('\x7d' :: awaited) := ⟨by decide, rfl⟩
    have hname := CodeRun.of_isIdentifier (isIdentifier_commandName h.1 hmethod) ('\x7d' :: awaited)
    exact ((htab.append hname).append hfinish).line
  have hcommands : CodeRun ('\x7d' :: awaited) (interface.methods.flatMap fun method =>
      line (tab ++ commandName interface.name method.name ++ ",")) ('\x7d' :: awaited) :=
    .flatMap fun method hmethod =>
      hcommand (Method.isSpellable_iff.mp (h.2 method hmethod)).1 ⟨by decide, rfl⟩
  have hclose : CodeRun ('\x7d' :: awaited) (line "\x7d;") awaited := ⟨by decide, rfl⟩
  have hversion : isIdentifier versionMethod.name = true := by decide
  have hzero : CodeRun ('\x7d' :: awaited) " = 0," ('\x7d' :: awaited) := ⟨by decide, rfl⟩
  exact ((hopen.append (hcommand hversion hzero)).append hcommands).append hclose

theorem codeRun_accessor (target : Target) (awaited : List Char) :
    CodeRun awaited ((interface.lifecycle target).objectAccessor.elim []
      (fun slot => line [] ++ line (tab ++ slot))) awaited := by
  rw [Interface.isSpellable_iff] at h
  cases target with
  | kernel => exact .nil
  | user =>
    have hblank : CodeRun awaited (line []) awaited := ⟨by decide, rfl⟩
    have htab : CodeRun awaited tab awaited := ⟨by decide, rfl⟩
    have hopen : CodeRun awaited ("struct " ++ remoteServiceName ++ "* (*AsObject)(struct ")
      (')' :: awaited) := ⟨by decide, rfl⟩
    have hname := CodeRun.of_isIdentifier h.1 (')' :: awaited)
    have hclose : CodeRun (')' :: awaited) " *self);" awaited := ⟨by decide, rfl⟩
    exact hblank.append (htab.append ((hopen.append hname).append hclose)).line

theorem codeRun_methodTable (target : Target) (awaited : List Char) :
    CodeRun awaited (methodTable interface target) awaited := by
  have haccessor := codeRun_accessor h target ('\x7d' :: awaited)
  rw [Interface.isSpellable_iff] at h
  have hstruct : CodeRun awaited "struct " awaited := ⟨by decide, rfl⟩
  have hname := CodeRun.of_isIdentifier h.1 awaited
  have hopen : CodeRun awaited " \x7b" ('\x7d' :: awaited) := ⟨by decide, rfl⟩
  have hslots : CodeRun ('\x7d' :: awaited) (interface.methods.flatMap fun method =>
      line (line (method.slot interface.name tab))) ('\x7d' :: awaited) :=
    .flatMap fun method hmethod => (Method.codeRun_slot (h.2 method hmethod) h.1 _).line.line
  have hversion : CodeRun ('\x7d' :: awaited) (versionMethod.slot interface.name tab)
      ('\x7d' :: awaited) := Method.codeRun_slot (by decide) h.1 _
  have hclose : CodeRun ('\x7d' :: awaited) (line "\x7d;") awaited := ⟨by decide, rfl⟩
  have hhead := ((hstruct.append hname).append hopen).line
  exact (((hhead.append hslots).append hversion.line).append haccessor).append hclose

end Header
end DriverHeader
