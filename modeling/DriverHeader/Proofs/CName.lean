import DriverHeader.Identifier
import DriverHeader.Lifecycle
import DriverHeader.MethodSlot
import DriverHeader.Proofs.Letters

/-! # C identifiers in a document

What a header can be read back from depends on the names in it. Where they are C identifiers,
macros and commands are made of letters, digits and underscores, and a parameter adds only blanks
and stars, so none of them holds a character that structures the header.
-/
namespace DriverHeader

def isNameChar (c : Char) : Bool := c.isAlphanum || c = '_'

def isIdentifier : Text → Bool
  | [] => false
  | c :: rest => isNameChar c && !c.isDigit && rest.all isNameChar

def isDottedName (name : Text) : Bool := (name.splitOn '.').all isIdentifier

def isSpellingChar (c : Char) : Bool := isNameChar c || c = ' ' || c = '*'

/-- Names, blanks and stars, as in the declaration of one C parameter; no blank in front. -/
def isSpelling : Text → Bool
  | [] => false
  | c :: rest => isNameChar c && rest.all isSpellingChar

def DataType.names : DataType → List Text
  | scalar _ | string | pointer | remoteService => []
  | named _ name => [name]
  | sequence _ element => element.names

def Parameter.names (parameter : Parameter) : List Text := parameter.name :: parameter.type.names

def Method.names (method : Method) : List Text :=
  method.name :: method.params.flatMap Parameter.names

def DataType.isSpellable : DataType → Bool
  | scalar _ | string | pointer | remoteService => true
  | named _ name => isIdentifier name
  | sequence _ element => element.isSpellable

def Parameter.isSpellable (parameter : Parameter) : Bool :=
  isIdentifier parameter.name && parameter.type.isSpellable

def Method.isSpellable (method : Method) : Bool :=
  isIdentifier method.name && method.params.all Parameter.isSpellable

/-- The names of an interface, of its methods and of their parameters and types are C
identifiers. -/
def Interface.isSpellable (interface : Interface) : Bool :=
  isIdentifier interface.name && interface.methods.all Method.isSpellable

theorem Method.isSpellable_iff {method : Method} :
    method.isSpellable = true ↔
      isIdentifier method.name = true ∧ ∀ p ∈ method.params, p.isSpellable = true := by
  simp only [isSpellable, Bool.and_eq_true, List.all_eq_true]

theorem Interface.isSpellable_iff {interface : Interface} :
    interface.isSpellable = true ↔
      isIdentifier interface.name = true ∧
        ∀ method ∈ interface.methods, method.isSpellable = true := by
  simp only [isSpellable, Bool.and_eq_true, List.all_eq_true]

theorem not_mem_of_all {p : Char → Bool} {t : Text} (h : t.all p = true) {c : Char}
    (hc : p c = false) : c ∉ t := by
  intro hmem
  rw [List.all_eq_true.mp h c hmem] at hc
  exact Bool.noConfusion hc

theorem all_isNameChar_of_isIdentifier {t : Text} (h : isIdentifier t = true) :
    t.all isNameChar = true := by
  cases t with
  | nil => rfl
  | cons c rest =>
    simp only [isIdentifier, Bool.and_eq_true] at h
    simp only [List.all_cons, Bool.and_eq_true]
    exact ⟨h.1.1, h.2⟩

theorem not_mem_of_isIdentifier {name : Text} (h : isIdentifier name = true) {c : Char}
    (hc : isNameChar c = false) : c ∉ name :=
  not_mem_of_all (all_isNameChar_of_isIdentifier h) hc

theorem isIdentifier_append {s t : Text} (hs : isIdentifier s = true)
    (ht : t.all isNameChar = true) : isIdentifier (s ++ t) = true := by
  cases s with
  | nil => exact Bool.noConfusion hs
  | cons c rest =>
    simp only [isIdentifier, Bool.and_eq_true, List.cons_append, List.all_append] at hs ⊢
    exact ⟨hs.1, hs.2, ht⟩

theorem isSpellingChar_of_isNameChar {c : Char} (h : isNameChar c = true) :
    isSpellingChar c = true := by
  simp [isSpellingChar, h]

theorem all_isSpellingChar_of_isIdentifier {t : Text} (h : isIdentifier t = true) :
    t.all isSpellingChar = true :=
  List.all_eq_true.mpr fun c hc => isSpellingChar_of_isNameChar
    (List.all_eq_true.mp (all_isNameChar_of_isIdentifier h) c hc)

theorem all_isSpellingChar_of_isSpelling {t : Text} (h : isSpelling t = true) :
    t.all isSpellingChar = true := by
  cases t with
  | nil => rfl
  | cons c rest =>
    simp only [isSpelling, Bool.and_eq_true] at h
    simp only [List.all_cons, Bool.and_eq_true]
    exact ⟨isSpellingChar_of_isNameChar h.1, h.2⟩

theorem isSpelling_append {s t : Text} (hs : isSpelling s = true)
    (ht : t.all isSpellingChar = true) : isSpelling (s ++ t) = true := by
  cases s with
  | nil => exact Bool.noConfusion hs
  | cons c rest =>
    simp only [isSpelling, Bool.and_eq_true, List.cons_append, List.all_append] at hs ⊢
    exact ⟨hs.1, hs.2, ht⟩

theorem isNameChar_iff {c : Char} :
    isNameChar c = true ↔
      (65 ≤ c.toNat ∧ c.toNat ≤ 90) ∨ (97 ≤ c.toNat ∧ c.toNat ≤ 122) ∨
        (48 ≤ c.toNat ∧ c.toNat ≤ 57) ∨ c.toNat = 95 := by
  have hline : c = '_' ↔ c.toNat = 95 := by
    rw [← Char.toNat_inj]
    rfl
  simp only [isNameChar, Bool.or_eq_true, isAlphanum_iff, decide_eq_true_eq, hline, or_assoc]

theorem isNameChar_toUpper {c : Char} (h : isNameChar c = true) : isNameChar c.toUpper = true := by
  rw [isNameChar_iff] at h
  rw [isNameChar_iff, toNat_toUpper]
  split <;> omega

theorem all_isNameChar_toUpper {name : Text} (h : name.all isNameChar = true) :
    (name.map Char.toUpper).all isNameChar = true := by
  rw [List.all_map]
  exact List.all_eq_true.mpr fun c hc => isNameChar_toUpper (List.all_eq_true.mp h c hc)

theorem all_isNameChar_upperSnake {name : Text} (h : name.all isNameChar = true) :
    (upperSnake name).all isNameChar = true := by
  rw [List.all_eq_true] at h ⊢
  intro c hc
  rcases List.mem_append.mp hc with hc | hc
  · obtain ⟨d, hd, rfl⟩ := List.mem_map.mp hc
    exact isNameChar_toUpper (h d (List.mem_of_mem_take hd))
  · obtain ⟨d, hd, hstep⟩ := List.mem_flatMap.mp hc
    have hd' := h d (List.mem_of_mem_drop hd)
    unfold upperSnakeStep at hstep
    split at hstep
    · simp only [List.mem_cons, List.not_mem_nil, or_false] at hstep
      rcases hstep with rfl | rfl
      · rfl
      · exact hd'
    · rw [List.mem_singleton.mp hstep]
      exact isNameChar_toUpper hd'

theorem all_isNameChar_coreName {name : Text} (h : name.all isNameChar = true) :
    (coreName name).all isNameChar = true := by
  unfold coreName
  split
  · simp only [List.all_cons, Bool.and_eq_true] at h ⊢
    split <;> simp [h]
  · exact h

theorem isIdentifier_commandName {interface method : Text}
    (hinterface : isIdentifier interface = true) (hmethod : isIdentifier method = true) :
    isIdentifier (commandName interface method) = true := by
  have hfirst := all_isNameChar_upperSnake
    (all_isNameChar_coreName (all_isNameChar_of_isIdentifier hinterface))
  have hsecond := all_isNameChar_upperSnake (all_isNameChar_of_isIdentifier hmethod)
  unfold commandName
  exact isIdentifier_append (isIdentifier_append (isIdentifier_append (by decide) hfirst)
    (by decide)) hsecond

theorem all_isNameChar_guardMacro (fullName : Text) :
    (guardMacro fullName).all isNameChar = true := by
  rw [guardMacro, List.all_append, List.all_map, Bool.and_eq_true]
  refine ⟨List.all_eq_true.mpr fun c _ => ?_, by decide⟩
  simp only [Function.comp_apply]
  split
  · next h => exact isNameChar_toUpper (by simp [isNameChar, h])
  · rfl

section Closed

-- what a spelling keeps, if a star at the end and a `const` in front keep it
variable {P : Text → Prop} (hstar : ∀ t : Text, P t → P (t ++ "*"))
  (hconst : ∀ t : Text, P t → P ("const " ++ t))
include hstar

theorem byValue_closed {type : Text} (h : P type) (position : Position) :
    P (byValue type position) := by
  cases position with
  | bare => exact h
  | input => exact h
  | output => exact hstar _ h

include hconst

theorem toElements_closed {type : Text} (h : P type) (position : Position) :
    P (toElements type position) := by
  cases position with
  | bare => exact hstar _ h
  | input => exact hstar _ (hconst _ h)
  | output => exact hstar _ h

theorem byReference_closed {type : Text} (h : P type) (position : Position) :
    P (byReference type position) := by
  cases position with
  | bare => exact h
  | input => exact hstar _ (hconst _ h)
  | output => exact hstar _ h

theorem DataType.spelling_closed (hword : ∀ {t : Text}, isSpelling t = true → P t)
    (type : DataType) (hnamed : ∀ {tag name : Text}, isSpelling tag = true → name ∈ type.names →
      P (tag ++ name)) (position : Position) : P (type.spelling position) := by
  induction type generalizing position with
  | scalar s => exact byValue_closed hstar (hword (by cases s <;> decide)) position
  | string => exact toElements_closed hstar hconst (hword (by decide)) position
  | pointer => exact byValue_closed hstar (hword (by decide)) position
  | named tag name =>
    have hname := List.mem_singleton_self name
    cases tag with
    | enum => exact byValue_closed hstar (hnamed (by decide) hname) position
    | struct => exact byReference_closed hstar hconst (hnamed (by decide) hname) position
    | union => exact byReference_closed hstar hconst (hnamed (by decide) hname) position
    | interface => exact byValue_closed hstar (hstar _ (hnamed (by decide) hname)) position
  | sequence shape element ih => exact toElements_closed hstar hconst (ih hnamed .bare) position
  | remoteService => exact byValue_closed hstar (hword (by decide)) position

end Closed

theorem DataType.isIdentifier_names {type : DataType} (h : type.isSpellable = true) :
    ∀ name ∈ type.names, isIdentifier name = true := by
  induction type with
  | named tag name => exact fun _ hmem => List.mem_singleton.mp hmem ▸ h
  | sequence shape element ih => exact ih h
  | scalar | string | pointer | remoteService => exact fun _ hmem => absurd hmem List.not_mem_nil

theorem Parameter.isIdentifier_names {parameter : Parameter} (h : parameter.isSpellable = true) :
    ∀ name ∈ parameter.names, isIdentifier name = true := by
  simp only [isSpellable, Bool.and_eq_true] at h
  exact List.forall_mem_cons.mpr ⟨h.1, DataType.isIdentifier_names h.2⟩

theorem DataType.isSpelling_spelling {type : DataType} (h : type.isSpellable = true)
    (position : Position) : isSpelling (type.spelling position) = true := by
  refine DataType.spelling_closed (P := fun t => isSpelling t = true)
    (fun _ ht => isSpelling_append ht (by decide))
    (fun _ ht => isSpelling_append (by decide) (all_isSpellingChar_of_isSpelling ht)) id type ?_
    position
  intro tag name htag hname
  exact isSpelling_append htag (all_isSpellingChar_of_isIdentifier (isIdentifier_names h name hname))

theorem Parameter.isSpelling_lengthType {parameter : Parameter} :
    ∀ type ∈ parameter.lengthType?, isSpelling type = true := by
  intro type htype
  unfold lengthType? at htype
  split at htype <;> simp only [Option.mem_def, Option.some.injEq, reduceCtorEq] at htype
  all_goals exact htype ▸ by decide

theorem Parameter.isSpelling_items {parameter : Parameter} (h : parameter.isSpellable = true) :
    ∀ item ∈ parameter.items, isSpelling item = true := by
  simp only [isSpellable, Bool.and_eq_true] at h
  obtain ⟨hname, htype⟩ := h
  have hspaced : ∀ {type : Text}, isSpelling type = true →
      isSpelling (type ++ " " ++ parameter.name) = true := fun htype =>
    isSpelling_append (isSpelling_append htype (by decide)) (all_isSpellingChar_of_isIdentifier hname)
  intro item hitem
  rcases List.mem_cons.mp hitem with rfl | hlength
  · exact hspaced (DataType.isSpelling_spelling htype _)
  · obtain ⟨type, hmem, rfl⟩ := Option.map_eq_some_iff.mp (Option.mem_toList.mp hlength)
    exact isSpelling_append (hspaced (isSpelling_lengthType type hmem)) (by decide)

/-- A text of names, blanks and stars and of the given other names. -/
def MadeOf (names : List Text) (t : Text) : Prop :=
  ∀ c ∈ t, isSpellingChar c = true ∨ ∃ name ∈ names, c ∈ name

namespace MadeOf

variable {names : List Text} {s t : Text}

theorem of_all (h : t.all isSpellingChar = true) : MadeOf names t :=
  fun c hc => Or.inl (List.all_eq_true.mp h c hc)

theorem of_mem (h : t ∈ names) : MadeOf names t := fun _ hc => Or.inr ⟨t, h, hc⟩

theorem append (hs : MadeOf names s) (ht : MadeOf names t) : MadeOf names (s ++ t) := by
  intro c hc
  rcases List.mem_append.mp hc with hc | hc
  · exact hs c hc
  · exact ht c hc

theorem mono {names' : List Text} (h : MadeOf names t) (hsub : names ⊆ names') : MadeOf names' t := by
  intro c hc
  rcases h c hc with hspelling | ⟨name, hname, hmem⟩
  · exact Or.inl hspelling
  · exact Or.inr ⟨name, hsub hname, hmem⟩

theorem not_mem (h : MadeOf names t) {c : Char} (hc : isSpellingChar c = false)
    (hnames : ∀ name ∈ names, c ∉ name) : c ∉ t := by
  intro hmem
  rcases h c hmem with hspelling | ⟨name, hname, hin⟩
  · rw [hc] at hspelling
    cases hspelling
  · exact hnames name hname hin

end MadeOf

theorem DataType.madeOf_spelling (type : DataType) (position : Position) :
    MadeOf type.names (type.spelling position) := by
  have hword : ∀ {t : Text}, isSpelling t = true → MadeOf type.names t := fun ht =>
    MadeOf.of_all (all_isSpellingChar_of_isSpelling ht)
  refine DataType.spelling_closed (fun _ ht => ht.append (MadeOf.of_all (by decide)))
    (fun _ ht => (hword (by decide)).append ht) hword type ?_ position
  intro tag name htag hname
  exact (hword htag).append (MadeOf.of_mem hname)

theorem Parameter.madeOf_items (parameter : Parameter) :
    ∀ item ∈ parameter.items, MadeOf parameter.names item := by
  have hspaced : ∀ {type : Text}, MadeOf parameter.names type →
      MadeOf parameter.names (type ++ " " ++ parameter.name) := fun htype =>
    (htype.append (MadeOf.of_all (by decide))).append (MadeOf.of_mem List.mem_cons_self)
  intro item hitem
  rcases List.mem_cons.mp hitem with rfl | hlength
  · exact hspaced ((parameter.type.madeOf_spelling _).mono (List.subset_cons_self _ _))
  · obtain ⟨type, hmem, rfl⟩ := Option.map_eq_some_iff.mp (Option.mem_toList.mp hlength)
    have htype := all_isSpellingChar_of_isSpelling (isSpelling_lengthType type hmem)
    exact (hspaced (MadeOf.of_all htype)).append (MadeOf.of_all (by decide))

theorem mem_intercalate {separator : Text} {ts : List Text} {c : Char}
    (h : c ∈ List.intercalate separator ts) : c ∈ separator ∨ ∃ t ∈ ts, c ∈ t := by
  induction ts with
  | nil => simp at h
  | cons t ts ih =>
    cases ts with
    | nil => exact Or.inr ⟨t, List.mem_cons_self, by simpa using h⟩
    | cons next ts =>
      rw [List.intercalate_cons_cons, List.append_assoc, List.mem_append, List.mem_append] at h
      rcases h with h | h | h
      · exact Or.inr ⟨t, List.mem_cons_self, h⟩
      · exact Or.inl h
      · rcases ih h with h | ⟨u, hu, hc⟩
        · exact Or.inl h
        · exact Or.inr ⟨u, List.mem_cons_of_mem _ hu, hc⟩

theorem Parameter.newline_not_mem_fragment {parameter : Parameter}
    (h : ∀ name ∈ parameter.names, '\n' ∉ name) : '\n' ∉ parameter.fragment := by
  intro hmem
  rcases mem_intercalate hmem with hseparator | ⟨item, hitem, hc⟩
  · exact absurd hseparator (by decide)
  · exact (parameter.madeOf_items item hitem).not_mem (by decide) h hc

theorem newline_not_mem_of_isIdentifier {name : Text} (h : isIdentifier name = true) :
    '\n' ∉ name :=
  not_mem_of_isIdentifier h (by decide)

structure Declaration.Spelled (declaration : Declaration) : Prop where
  result : declaration.result.all isSpellingChar = true
  name : declaration.name.all isSpellingChar = true
  params : ∀ p ∈ declaration.params, p.all isSpellingChar = true

namespace Interface

variable {interface : Interface} (hname : isIdentifier interface.name = true)
include hname

theorem spelled_getter {suffix : Text} {params : List Text}
    (hsuffix : suffix.all isSpellingChar = true)
    (hparams : ∀ p ∈ params, p.all isSpellingChar = true) :
    (interface.getter suffix params).Spelled := by
  have hspelled := all_isSpellingChar_of_isIdentifier hname
  refine ⟨?_, ?_, hparams⟩
  · unfold getter
    simp only [List.all_append, hspelled]
    decide
  · unfold getter
    simp only [List.all_append, hspelled, hsuffix, Bool.and_self]

theorem spelled_release {suffix : Text} {params : List Text}
    (hsuffix : suffix.all isSpellingChar = true)
    (hparams : params ⊆ [interface.instanceParameter, isStubParameter, serviceNameParameter]) :
    (interface.release suffix params).Spelled := by
  have hspelled := all_isSpellingChar_of_isIdentifier hname
  have hvoid : ("void " : Text).all isSpellingChar = true := by decide
  refine ⟨hvoid, ?_, fun p hp => ?_⟩
  · unfold release
    simp only [List.all_append, hspelled, hsuffix, Bool.and_self]
  · have hp' := hparams hp
    simp only [List.mem_cons, List.not_mem_nil, or_false] at hp'
    rcases hp' with rfl | rfl | rfl
    · unfold instanceParameter
      simp only [List.all_append, hspelled]
      decide
    · decide
    · decide

theorem spelled_getters (target : Target) :
    ∀ d ∈ (interface.lifecycle target).getters.declarations, d.Spelled := by
  have hget : ∀ {params : List Text}, (∀ p ∈ params, p.all isSpellingChar = true) →
      (interface.getter "Get" params).Spelled := spelled_getter hname (by decide)
  have hinstance : ∀ {params : List Text}, (∀ p ∈ params, p.all isSpellingChar = true) →
      (interface.getter "GetInstance" params).Spelled := spelled_getter hname (by decide)
  cases target with
  | kernel =>
    show ∀ d ∈ [_, _], Declaration.Spelled d
    rw [List.forall_mem_cons, List.forall_mem_singleton]
    exact ⟨hget (by decide), hinstance (by decide)⟩
  | user =>
    show ∀ d ∈ interface.userGetters, Declaration.Spelled d
    unfold userGetters
    split
    · rw [List.forall_mem_singleton]
      exact hget (by decide)
    · rw [List.forall_mem_cons, List.forall_mem_singleton]
      exact ⟨hget (by decide), hinstance (by decide)⟩
    · rw [List.forall_mem_cons, List.forall_mem_singleton]
      exact ⟨hget (by decide), hinstance (by decide)⟩

theorem spelled_releases (target : Target) :
    ∀ d ∈ (interface.lifecycle target).releases.declarations, d.Spelled := by
  have hrelease : ∀ {params : List Text},
      params ⊆ [interface.instanceParameter, isStubParameter, serviceNameParameter] →
      (interface.release "Release" params).Spelled := spelled_release hname (by decide)
  cases target with
  | kernel =>
    show ∀ d ∈ [_], Declaration.Spelled d
    rw [List.forall_mem_singleton]
    exact hrelease (by simp)
  | user =>
    show ∀ d ∈ interface.userReleases, Declaration.Spelled d
    unfold userReleases
    split
    · rw [List.forall_mem_singleton]
      exact hrelease (by simp)
    · rw [List.forall_mem_singleton]
      exact hrelease (by simp)
    · rw [List.forall_mem_cons, List.forall_mem_singleton]
      exact ⟨hrelease (by simp), spelled_release hname (by decide) (by simp)⟩

end Interface
end DriverHeader
