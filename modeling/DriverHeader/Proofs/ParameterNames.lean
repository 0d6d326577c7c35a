import DriverHeader.Proofs.Prototype
import Mathlib.Data.List.DropRight
import Mathlib.Data.List.Nodup
import Mathlib.Data.List.Perm.Basic

/-! # Names in a parameter list

In the declaration of a method the names of its parameters stand among names that nobody wrote: the
object itself and the lengths. All of them are read back from the text of the declaration. They clash
just where two parameters share a name, or where a parameter takes a name that is already spoken for.
-/
namespace DriverHeader

def lastIdentifier (t : Text) : Text := t.rtakeWhile isNameChar

def Prototype.parameterNames (prototype : Prototype) : List Text :=
  prototype.params.map lastIdentifier

theorem lastIdentifier_append (front : Text) {c : Char} (hc : isNameChar c = false) {name : Text}
    (hname : name.all isNameChar = true) : lastIdentifier (front ++ c :: name) = name := by
  have hreverse : ∀ d ∈ name.reverse, isNameChar d = true :=
    fun d hd => List.all_eq_true.mp hname d (List.mem_reverse.mp hd)
  rw [lastIdentifier, List.rtakeWhile, List.reverse_append, List.reverse_cons, List.append_assoc,
    List.takeWhile_append_of_pos hreverse, List.singleton_append,
    List.takeWhile_cons_of_neg (by simp [hc]), List.append_nil, List.reverse_reverse]

theorem lastIdentifier_cons {c : Char} (hc : isNameChar c = false) (t : Text) :
    lastIdentifier (c :: t) = lastIdentifier t := by
  rw [lastIdentifier, lastIdentifier, List.rtakeWhile, List.rtakeWhile, List.reverse_cons,
    List.takeWhile_append]
  split
  · next hwhole =>
    rw [List.takeWhile_cons_of_neg (by simp [hc]), List.append_nil,
      (List.takeWhile_prefix isNameChar).eq_of_length hwhole]
  · rfl

theorem lastIdentifier_dropWhile_isGap (t : Text) :
    lastIdentifier (t.dropWhile Prototype.isGap) = lastIdentifier t := by
  induction t with
  | nil => rfl
  | cons c t ih =>
    by_cases hc : Prototype.isGap c = true
    · have hname : isNameChar c = false := by
        rw [Prototype.isGap, Bool.or_eq_true, decide_eq_true_eq, decide_eq_true_eq] at hc
        rcases hc with rfl | rfl <;> decide
      rw [List.dropWhile_cons_of_pos hc, ih, lastIdentifier_cons hname]
    · rw [List.dropWhile_cons_of_neg hc]

namespace Parameter

/-- A length goes with every sequence, and with a string unless it is only an input. -/
def carriesLength (parameter : Parameter) : Bool :=
  match parameter.type with
  | .sequence _ _ => true
  | .string => parameter.direction ≠ .input
  | _ => false

def lengthNames (parameter : Parameter) : List Text :=
  if parameter.carriesLength then [parameter.name ++ "Len"] else []

theorem isSome_lengthType (parameter : Parameter) :
    parameter.lengthType?.isSome = parameter.carriesLength := by
  obtain ⟨name, direction, type⟩ := parameter
  cases type <;> cases direction <;> rfl

theorem lastIdentifier_pieces {parameter : Parameter} (h : parameter.isSpellable = true)
    (gap : Text) :
    (parameter.pieces gap).map lastIdentifier = parameter.name :: parameter.lengthNames := by
  simp only [isSpellable, Bool.and_eq_true] at h
  have hname := all_isNameChar_of_isIdentifier h.1
  have hlength : (parameter.name ++ "Len").all isNameChar = true := by
    rw [List.all_append, hname]
    decide
  -- an item is a type, a blank and a name
  have hitem : ∀ (before : Text) {name : Text}, name.all isNameChar = true →
      lastIdentifier (before ++ " " ++ name) = name := by
    intro before name hname
    rw [List.append_assoc]
    exact lastIdentifier_append before (by decide) hname
  have hfirst : lastIdentifier
      (gap ++ (parameter.type.spelling parameter.direction.position ++ " " ++ parameter.name)) =
      parameter.name := by
    rw [← List.append_assoc, ← List.append_assoc]
    exact hitem _ hname
  have hcarries := parameter.isSome_lengthType
  rw [pieces, items]
  cases htype : parameter.lengthType? with
  | none =>
    rw [htype] at hcarries
    simp only [Option.map_none, Option.toList_none, List.map_cons, List.map_nil, hfirst, lengthNames,
      ← hcarries, Option.isSome_none, Bool.false_eq_true, ↓reduceIte]
  | some type =>
    rw [htype] at hcarries
    have hsecond : lastIdentifier (' ' :: (type ++ " " ++ parameter.name ++ "Len")) =
        parameter.name ++ "Len" := by
      rw [lastIdentifier_cons (by decide), List.append_assoc]
      exact hitem _ hlength
    simp only [Option.map_some, Option.toList_some, List.map_cons, List.map_nil, hfirst, hsecond,
      lengthNames, ← hcarries, Option.isSome_some, ↓reduceIte]

end Parameter

section Distinct

variable (params : List Parameter)

/-- The names that the author of a method chose come apart from those of the lengths. -/
theorem names_perm :
    List.Perm (params.flatMap fun p => p.name :: p.lengthNames)
      (params.map Parameter.name ++ params.flatMap Parameter.lengthNames) := by
  have hperm := List.flatMap_append_perm params (fun p => [p.name]) Parameter.lengthNames
  rw [← List.map_eq_flatMap] at hperm
  exact hperm.symm

theorem mem_lengthNames {name : Text} :
    name ∈ params.flatMap Parameter.lengthNames ↔
      ∃ q ∈ params, q.carriesLength = true ∧ name = q.name ++ "Len" := by
  rw [List.mem_flatMap]
  refine exists_congr fun q => and_congr_right fun _ => ?_
  unfold Parameter.lengthNames
  split
  · next h => simp [h]
  · next h => simp [h]

theorem lengthNames_sublist :
    List.Sublist (params.flatMap Parameter.lengthNames)
      ((params.map Parameter.name).map (· ++ "Len")) := by
  induction params with
  | nil => exact List.Sublist.slnil
  | cons p params ih =>
    rw [List.flatMap_cons, List.map_cons, List.map_cons]
    unfold Parameter.lengthNames
    split
    · exact ih.cons_cons _
    · exact ih.cons _

theorem self_not_mem_lengthNames : ("self" : Text) ∉ params.flatMap Parameter.lengthNames := by
  rw [mem_lengthNames]
  rintro ⟨q, _, _, hname⟩
  -- the last letters differ
  have hlast := congrArg List.getLast? hname
  rw [List.getLast?_append_of_ne_nil _ (by decide)] at hlast
  exact absurd hlast (by decide)

theorem nodup_names_iff :
    (("self" : Text) :: params.flatMap fun p => p.name :: p.lengthNames).Nodup ↔
      (params.map Parameter.name).Nodup ∧ ("self" : Text) ∉ params.map Parameter.name ∧
        ∀ p ∈ params, ∀ q ∈ params, q.carriesLength = true → p.name ≠ q.name ++ "Len" := by
  rw [List.nodup_cons, (names_perm params).mem_iff, (names_perm params).nodup_iff, List.mem_append,
    List.nodup_append]
  constructor
  · rintro ⟨hself, hnames, _, hapart⟩
    refine ⟨hnames, fun h => hself (Or.inl h), ?_⟩
    intro p hp q hq hlength
    have hmem := (mem_lengthNames params).mpr ⟨q, hq, hlength, rfl⟩
    exact hapart p.name (List.mem_map_of_mem hp) _ hmem
  · rintro ⟨hnames, hself, hapart⟩
    -- two lengths share a name only with their parameters
    have hlengths : (params.flatMap Parameter.lengthNames).Nodup :=
      (hnames.map (List.append_left_injective _)).sublist (lengthNames_sublist params)
    refine ⟨not_or.mpr ⟨hself, self_not_mem_lengthNames params⟩, hnames, hlengths, ?_⟩
    intro a ha b hb
    obtain ⟨p, hp, rfl⟩ := List.mem_map.mp ha
    obtain ⟨q, hq, hlength, rfl⟩ := (mem_lengthNames params).mp hb
    exact hapart p hp q hq hlength

end Distinct

namespace Method

variable {method : Method} (hmethod : method.isSpellable = true) {owner : Text}
include hmethod

theorem lastIdentifier_pieces (gap : Text) :
    (method.pieces owner gap).map lastIdentifier =
      ("self" : Text) :: method.params.flatMap fun p => p.name :: p.lengthNames := by
  have hself : lastIdentifier (selfParameter owner) = "self" := by
    have hstar : selfParameter owner = ("struct " ++ owner ++ " ") ++ '*' :: "self" := by
      unfold selfParameter
      simp
    rw [hstar, lastIdentifier_append _ (by decide) (by decide)]
  have hparams : method.params.map (fun p => (p.pieces gap).map lastIdentifier) =
      method.params.map fun p => p.name :: p.lengthNames :=
    List.map_congr_left fun p hp =>
      Parameter.lastIdentifier_pieces ((isSpellable_iff.mp hmethod).2 p hp) gap
  rw [pieces, List.map_cons, hself, List.map_flatMap, List.flatMap_def, hparams, List.flatMap_def]

/-- The function pointer that a declaration is read as, in either layout. -/
theorem read?_slot (howner : isIdentifier owner = true) {indent : Text}
    (hindent : ∀ c ∈ indent, c ≠ '(' ∧ c ≠ ')' ∧ c ≠ ',') :
    ∃ gap, Prototype.read? (method.slot owner indent) =
      some ⟨method.name, (method.pieces owner gap).map (List.dropWhile Prototype.isGap)⟩ := by
  have hopen : '(' ∉ indent := fun h => (hindent _ h).1 rfl
  have hread : ∀ gap : Text, (∀ c ∈ gap, c ≠ '(' ∧ c ≠ ')' ∧ c ≠ ',') →
      Prototype.read? (method.slotWith owner indent (',' :: gap)) =
        some ⟨method.name, (method.pieces owner gap).map (List.dropWhile Prototype.isGap)⟩ := by
    intro gap hgap
    have hafter := read?_slotWith hmethod howner hopen hgap (List.not_mem_nil : '(' ∉ ([] : Text))
    rwa [List.append_nil] at hafter
  unfold slot
  split
  · exact ⟨_, hread " " (by simp)⟩
  · refine ⟨_, hread ('\n' :: (indent ++ tab)) ?_⟩
    rw [List.forall_mem_cons, List.forall_mem_append]
    exact ⟨by decide, hindent, by simp [tab]⟩

end Method

/-- The names of the C parameters, read from the declaration of a method: the object, then each
parameter with the length that goes with it. They are distinct just where the parameters have
distinct names, none of which is taken by the object or by a length. -/
theorem parameter_names_distinct_iff {method : Method} (hmethod : method.isSpellable = true)
    {owner : Text} (howner : isIdentifier owner = true) {indent : Text}
    (hindent : ∀ c ∈ indent, c ≠ '(' ∧ c ≠ ')' ∧ c ≠ ',') :
    ∃ prototype, Prototype.read? (method.slot owner indent) = some prototype ∧
      prototype.parameterNames =
        ("self" : Text) :: method.params.flatMap (fun p =>
          p.name :: if p.carriesLength then [p.name ++ "Len"] else []) ∧
      (prototype.parameterNames.Nodup ↔
        (method.params.map Parameter.name).Nodup ∧
        ("self" : Text) ∉ method.params.map Parameter.name ∧
        ∀ p ∈ method.params, ∀ q ∈ method.params, q.carriesLength = true →
          p.name ≠ q.name ++ "Len") := by
  obtain ⟨gap, hread⟩ := Method.read?_slot hmethod howner hindent
  have hnames : (⟨method.name, (method.pieces owner gap).map (List.dropWhile Prototype.isGap)⟩ :
      Prototype).parameterNames =
      ("self" : Text) :: method.params.flatMap fun p => p.name :: p.lengthNames := by
    rw [Prototype.parameterNames, List.map_map]
    refine (List.map_congr_left fun piece _ => ?_).trans
      (Method.lastIdentifier_pieces hmethod gap)
    exact lastIdentifier_dropWhile_isGap piece
  refine ⟨_, hread, hnames, ?_⟩
  rw [hnames, nodup_names_iff]

/-- A method with distinct parameter names, one of which is also the name of a length. Its declaration
takes more than one line. -/
def copyMethod : Method :=
  { name := "CopyLabelled"
    params := [⟨"data", .input, .sequence .array (.scalar .uchar)⟩,
      ⟨"label", .input, .string⟩,
      ⟨"dataLen", .input, .scalar .uint⟩] }

theorem copyMethod_names :
    ∃ prototype, Prototype.read? (copyMethod.slot "ICopier" tab) = some prototype ∧
      prototype.parameterNames = (["self", "data", "dataLen", "label", "dataLen"] : List Text) ∧
      ¬ prototype.parameterNames.Nodup := by
  obtain ⟨prototype, hread, hnames, hnodup⟩ := parameter_names_distinct_iff
    (by decide : copyMethod.isSpellable = true) (by decide : isIdentifier "ICopier" = true)
    (by simp [tab] : ∀ c ∈ tab, c ≠ '(' ∧ c ≠ ')' ∧ c ≠ ',')
  refine ⟨prototype, hread, hnames, fun h => ?_⟩
  obtain ⟨_, _, hapart⟩ := hnodup.mp h
  exact hapart ⟨"dataLen", .input, .scalar .uint⟩ (by decide)
    ⟨"data", .input, .sequence .array (.scalar .uchar)⟩ (by decide) rfl rfl

end DriverHeader
