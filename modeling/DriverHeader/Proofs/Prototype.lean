import DriverHeader.Proofs.CName
import DriverHeader.Proofs.TextLines

/-! # Function pointers read from their declarations

A reader of the method table looks at parentheses, commas and semicolons only, so blanks and line
ends between two parameters make no difference to it. It gets back the name of a method and the C
parameters of its declaration, wrapped or not.
-/
namespace DriverHeader

structure Prototype where
  name : Text
  params : List Text
  deriving DecidableEq

namespace Prototype

def isGap (c : Char) : Bool := c = ' ' || c = '\n'

/-- Reads `result (*name)(first, second)`. -/
def read? (declaration : Text) : Option Prototype :=
  match (declaration.splitOn '(').tail with
  | ['*' :: pointer, params] =>
    some
      { name := pointer.takeWhile (· ≠ ')')
        params := ((params.takeWhile (· ≠ ')')).splitOn ',').map (List.dropWhile isGap) }
  | _ => none

def readAll (t : Text) : List Prototype := (t.splitOn ';').filterMap read?

theorem read?_declaration_append {before name params after : Text} (hbefore : '(' ∉ before)
    (hname : '(' ∉ name) (hname' : ')' ∉ name) (hparams : '(' ∉ params) (hparams' : ')' ∉ params)
    (hafter : '(' ∉ after) :
    read? (before ++ "(*" ++ name ++ ")(" ++ params ++ ")" ++ after) =
      some ⟨name, (params.splitOn ',').map (List.dropWhile isGap)⟩ := by
  have hpieces : (before ++ "(*" ++ name ++ ")(" ++ params ++ ")" ++ after : Text).splitOn '(' =
      [before, '*' :: (name ++ ")"), params ++ ")" ++ after] := by
    have htext : (before ++ "(*" ++ name ++ ")(" ++ params ++ ")" ++ after : Text) =
        before ++ '(' :: ('*' :: (name ++ ")") ++ '(' :: (params ++ ")" ++ after)) := by simp
    rw [htext, List.splitOn_append_cons_self_of_not_mem hbefore,
      List.splitOn_append_cons_self_of_not_mem (by simpa using hname),
      List.splitOn_eq_singleton (by simp [hparams, hafter])]
  have hname'' : (name ++ ")").takeWhile (· ≠ ')') = name := takeWhile_ne_append hname' []
  have hparams'' : (params ++ ")" ++ after).takeWhile (· ≠ ')') = params := by
    rw [List.append_assoc]
    exact takeWhile_ne_append hparams' after
  rw [read?, hpieces]
  simp only [List.tail_cons, hname'', hparams'']

theorem read?_declaration {before name params : Text} (hbefore : '(' ∉ before) (hname : '(' ∉ name)
    (hname' : ')' ∉ name) (hparams : '(' ∉ params) (hparams' : ')' ∉ params) :
    read? (before ++ "(*" ++ name ++ ")(" ++ params ++ ")") =
      some ⟨name, (params.splitOn ',').map (List.dropWhile isGap)⟩ := by
  have hread := read?_declaration_append hbefore hname hname' hparams hparams'
    (List.not_mem_nil : '(' ∉ ([] : Text))
  rwa [List.append_nil] at hread

theorem read?_cons {c : Char} (hc : c ≠ '(') (declaration : Text) :
    read? (c :: declaration) = read? declaration := by
  have hpieces : ((c :: declaration).splitOn '(').tail = (declaration.splitOn '(').tail := by
    rw [List.splitOn_cons_eq_if_modifyHead, if_neg (by simpa using hc), List.tail_modifyHead]
  rw [read?, read?, hpieces]

theorem readAll_append {declaration : Text} (h : ';' ∉ declaration) (rest : Text) :
    readAll (declaration ++ ";" ++ rest) = (read? declaration).toList ++ readAll rest := by
  have htext : declaration ++ ";" ++ rest = declaration ++ ';' :: rest := by simp
  rw [readAll, htext, List.splitOn_append_cons_self_of_not_mem h, List.filterMap_cons]
  cases read? declaration <;> rfl

theorem readAll_cons {c : Char} (hc : c ≠ ';') (hc' : c ≠ '(') (t : Text) :
    readAll (c :: t) = readAll t := by
  rw [readAll, readAll, List.splitOn_cons_eq_if_modifyHead, if_neg (by simpa using hc)]
  cases t.splitOn ';' with
  | nil => rfl
  | cons first rest => rw [List.modifyHead_cons, List.filterMap_cons, List.filterMap_cons, read?_cons hc']

end Prototype

theorem dropWhile_isGap_cons {gap : Text} (hgap : gap.all Prototype.isGap = true) {c : Char}
    (hc : isNameChar c = true) (rest : Text) :
    (gap ++ c :: rest).dropWhile Prototype.isGap = c :: rest := by
  have hc' : Prototype.isGap c = false := by
    rw [Prototype.isGap, Bool.or_eq_false_iff, decide_eq_false_iff_not, decide_eq_false_iff_not]
    constructor <;> (rintro rfl; exact absurd hc (by decide))
  rw [List.dropWhile_append_of_pos (List.all_eq_true.mp hgap), List.dropWhile_cons,
    if_neg (by simp [hc'])]

theorem dropWhile_isGap_append {gap item : Text} (hgap : gap.all Prototype.isGap = true)
    (hitem : isSpelling item = true) : (gap ++ item).dropWhile Prototype.isGap = item := by
  cases item with
  | nil => exact Bool.noConfusion hitem
  | cons c rest =>
    simp only [isSpelling, Bool.and_eq_true] at hitem
    exact dropWhile_isGap_cons hgap hitem.1 rest

namespace Parameter

def pieces (parameter : Parameter) (gap : Text) : List Text :=
  match parameter.items with
  | [] => []
  | item :: companions => (gap ++ item) :: companions.map (' ' :: ·)

theorem fragment_eq_pieces (parameter : Parameter) (gap : Text) :
    ',' :: (gap ++ parameter.fragment) = (parameter.pieces gap).flatMap (',' :: ·) := by
  have hjoin : ∀ (items : List Text) (item : Text),
      List.intercalate ", " (item :: items) = item ++ (items.map (' ' :: ·)).flatMap (',' :: ·) := by
    intro items
    induction items with
    | nil => intro item; simp
    | cons next items ih =>
      intro item
      rw [List.intercalate_cons_cons, ih next]
      simp
  rw [fragment, pieces, items, hjoin]
  simp

theorem dropWhile_pieces {parameter : Parameter} (h : parameter.isSpellable = true) {gap : Text}
    (hgap : gap.all Prototype.isGap = true) :
    (parameter.pieces gap).map (List.dropWhile Prototype.isGap) = parameter.items := by
  have hitems := isSpelling_items h
  rw [pieces]
  split
  · next heq => rw [heq]; rfl
  · next item companions heq =>
    rw [heq] at hitems ⊢
    rw [List.map_cons, dropWhile_isGap_append hgap (hitems item List.mem_cons_self), List.map_map]
    congr 1
    refine (List.map_congr_left fun companion hmem => ?_).trans (List.map_id _)
    have hblank : (" " : Text).all Prototype.isGap = true := by decide
    exact dropWhile_isGap_append hblank (hitems companion (List.mem_cons_of_mem _ hmem))

theorem not_mem_pieces {parameter : Parameter} (h : parameter.isSpellable = true) {gap : Text}
    {c : Char} (hc : isSpellingChar c = false) (hgap : c ∉ gap) :
    ∀ piece ∈ parameter.pieces gap, c ∉ piece := by
  have hitems : ∀ item ∈ parameter.items, c ∉ item := fun item hmem =>
    not_mem_of_all (all_isSpellingChar_of_isSpelling (isSpelling_items h item hmem)) hc
  have hblank : c ≠ ' ' := by
    rintro rfl
    exact absurd hc (by decide)
  intro piece hpiece
  rw [pieces] at hpiece
  split at hpiece
  · simp at hpiece
  · next item companions heq =>
    rw [heq] at hitems
    rcases List.mem_cons.mp hpiece with rfl | hmem
    · simp [hgap, hitems item List.mem_cons_self]
    · obtain ⟨companion, hcompanion, rfl⟩ := List.mem_map.mp hmem
      simp [hblank, hitems companion (List.mem_cons_of_mem _ hcompanion)]

end Parameter

def selfParameter (owner : Text) : Text := "struct " ++ owner ++ " *self"

theorem isSpelling_selfParameter {owner : Text} (h : isIdentifier owner = true) :
    isSpelling (selfParameter owner) = true :=
  isSpelling_append (isSpelling_append (by decide) (all_isSpellingChar_of_isIdentifier h)) (by decide)

namespace Method

def prototype (method : Method) (owner : Text) : Prototype :=
  { name := method.name
    params := selfParameter owner :: method.params.flatMap Parameter.items }

/-- What stands between the parentheses of a declaration, `gap` after each comma between two
parameters of the method. -/
def parameterList (method : Method) (owner gap : Text) : Text :=
  selfParameter owner ++ method.params.flatMap fun p => ',' :: (gap ++ p.fragment)

theorem slotWith_eq (method : Method) (owner indent gap : Text) :
    method.slotWith owner indent (',' :: gap) =
      (indent ++ "int32_t ") ++ "(*" ++ method.name ++ ")(" ++ method.parameterList owner gap ++ ")"
        ++ ";" := by
  unfold slotWith slotHead parameterList selfParameter
  simp

def pieces (method : Method) (owner gap : Text) : List Text :=
  selfParameter owner :: method.params.flatMap (Parameter.pieces · gap)

theorem parameterList_eq_pieces (method : Method) (owner gap : Text) :
    method.parameterList owner gap =
      selfParameter owner ++ (method.params.flatMap (Parameter.pieces · gap)).flatMap (',' :: ·) := by
  unfold parameterList
  simp only [List.flatMap_assoc, Parameter.fragment_eq_pieces]

section Read
variable {method : Method} (hmethod : method.isSpellable = true) {owner : Text}
  (howner : isIdentifier owner = true) {gap : Text}
include hmethod howner

theorem not_mem_pieces {c : Char} (hc : isSpellingChar c = false) (hgap : c ∉ gap) :
    ∀ piece ∈ method.pieces owner gap, c ∉ piece := by
  intro piece hpiece
  rcases List.mem_cons.mp hpiece with rfl | hpiece
  · exact not_mem_of_all (all_isSpellingChar_of_isSpelling (isSpelling_selfParameter howner)) hc
  · obtain ⟨p, hp, hmem⟩ := List.mem_flatMap.mp hpiece
    exact Parameter.not_mem_pieces ((isSpellable_iff.mp hmethod).2 p hp) hc hgap piece hmem

theorem not_mem_parameterList {c : Char} (hc : isSpellingChar c = false) (hgap : c ∉ gap)
    (hcomma : c ≠ ',') : c ∉ method.parameterList owner gap := by
  have hplain := not_mem_pieces hmethod howner hc hgap
  rw [parameterList_eq_pieces, List.mem_append, List.mem_flatMap]
  rintro (hmem | ⟨piece, hpiece, hmem⟩)
  · exact hplain _ List.mem_cons_self hmem
  · rcases List.mem_cons.mp hmem with rfl | hmem
    · exact hcomma rfl
    · exact hplain piece (List.mem_cons_of_mem _ hpiece) hmem

theorem splitOn_parameterList (hgap : ',' ∉ gap) :
    (method.parameterList owner gap).splitOn ',' = method.pieces owner gap := by
  have hplain := List.forall_mem_cons.mp (not_mem_pieces hmethod howner (by decide) hgap)
  rw [parameterList_eq_pieces, splitOn_flatMap_cons hplain.1 hplain.2, pieces]

/-- A declaration is read whatever stands in its gaps, if it does not structure the declaration. -/
theorem read?_slotWith {indent after : Text} (hindent : '(' ∉ indent)
    (hgap : ∀ c ∈ gap, c ≠ '(' ∧ c ≠ ')' ∧ c ≠ ',') (hafter : '(' ∉ after) :
    Prototype.read? (method.slotWith owner indent (',' :: gap) ++ after) =
      some ⟨method.name, (method.pieces owner gap).map (List.dropWhile Prototype.isGap)⟩ := by
  have hname := (isSpellable_iff.mp hmethod).1
  have hopen : '(' ∉ gap := fun h => (hgap _ h).1 rfl
  have hclose : ')' ∉ gap := fun h => (hgap _ h).2.1 rfl
  have hcomma : ',' ∉ gap := fun h => (hgap _ h).2.2 rfl
  have htext : method.slotWith owner indent (',' :: gap) ++ after =
      (indent ++ "int32_t ") ++ "(*" ++ method.name ++ ")(" ++ method.parameterList owner gap ++ ")"
        ++ (";" ++ after) := by
    rw [slotWith_eq, List.append_assoc]
  rw [htext, Prototype.read?_declaration_append (by simp [hindent])
    (not_mem_of_isIdentifier hname (by decide)) (not_mem_of_isIdentifier hname (by decide))
    (not_mem_parameterList hmethod howner (by decide) hopen (by decide))
    (not_mem_parameterList hmethod howner (by decide) hclose (by decide)) (by simp [hafter]),
    splitOn_parameterList hmethod howner hcomma]

variable (hgap : gap.all Prototype.isGap = true)
include hgap

theorem dropWhile_pieces :
    (method.pieces owner gap).map (List.dropWhile Prototype.isGap) =
      (method.prototype owner).params := by
  have hfirst := dropWhile_isGap_append List.all_nil (isSpelling_selfParameter howner)
  have hrest : method.params.map (fun p => (p.pieces gap).map (List.dropWhile Prototype.isGap)) =
      method.params.map Parameter.items :=
    List.map_congr_left fun p hp =>
      Parameter.dropWhile_pieces ((isSpellable_iff.mp hmethod).2 p hp) hgap
  rw [List.nil_append] at hfirst
  rw [pieces, List.map_cons, hfirst, List.map_flatMap, List.flatMap_def, hrest, prototype,
    List.flatMap_def]

theorem readAll_slotWith {indent : Text} (hindent : indent.all Prototype.isGap = true)
    (rest : Text) :
    Prototype.readAll (method.slotWith owner indent (',' :: gap) ++ rest) =
      method.prototype owner :: Prototype.readAll rest := by
  have hname := (isSpellable_iff.mp hmethod).1
  have hplain : ∀ {c : Char}, isSpellingChar c = false → Prototype.isGap c = false → c ≠ ',' →
      c ∉ indent ∧ c ∉ method.name ∧ c ∉ method.parameterList owner gap := by
    intro c hc hc' hcomma
    exact ⟨not_mem_of_all hindent hc', not_mem_of_all (all_isSpellingChar_of_isIdentifier hname) hc,
      not_mem_parameterList hmethod howner hc (not_mem_of_all hgap hc') hcomma⟩
  have hopen := hplain (c := '(') (by decide) (by decide) (by decide)
  have hclose := hplain (c := ')') (by decide) (by decide) (by decide)
  have hsemicolon := hplain (c := ';') (by decide) (by decide) (by decide)
  rw [slotWith_eq, Prototype.readAll_append (by simp [hsemicolon]),
    Prototype.read?_declaration (by simp [hopen]) hopen.2.1 hclose.2.1 hopen.2.2 hclose.2.2,
    splitOn_parameterList hmethod howner (not_mem_of_all hgap (by decide)),
    dropWhile_pieces hmethod howner hgap]
  rfl

end Read

theorem readAll_slot {method : Method} (hmethod : method.isSpellable = true) {owner : Text}
    (howner : isIdentifier owner = true) {indent : Text}
    (hindent : indent.all Prototype.isGap = true) (rest : Text) :
    Prototype.readAll (method.slot owner indent ++ rest) =
      method.prototype owner :: Prototype.readAll rest := by
  unfold slot
  split
  · exact readAll_slotWith hmethod howner (by decide) hindent rest
  · have hgap : ('\n' :: (indent ++ tab)).all Prototype.isGap = true := by
      simp only [List.all_cons, List.all_append, hindent]
      decide
    exact readAll_slotWith hmethod howner hgap hindent rest

end Method
end DriverHeader
