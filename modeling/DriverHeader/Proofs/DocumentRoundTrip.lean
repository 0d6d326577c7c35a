import DriverHeader.Document.Parser
import DriverHeader.Document.Printer
import DriverHeader.Proofs.ReadBackComposite

/-! # Documents are read back from their compact form

A document, its interface, a method and a parameter are objects inside each other, with the lists
of methods and of parameters between them. Six levels are open where the type of a parameter
starts, so the type itself may use the 121 levels that are left.
-/
namespace DriverHeader

open Json

theorem DocumentKind.read_word (kind : DocumentKind) (budget : Nat) :
    ReadsBack (DocumentKind.read budget) (quote kind.word) True kind := by
  cases kind <;> exact Variant.read_word rfl budget

theorem Role.read_word (role : Role) (budget : Nat) :
    ReadsBack (Role.read budget) (quote role.word) True role := by
  cases role <;> exact Variant.read_word rfl budget

theorem Direction.read_word (direction : Direction) (budget : Nat) :
    ReadsBack (Direction.read budget) (quote direction.word) True direction := by
  cases direction <;> exact Variant.read_word rfl budget

namespace DataType

theorem read_scalar (s : Scalar) (budget : Nat) :
    ReadsBack (DataType.read budget) (quote s.word) True (scalar s) := by
  cases s <;> exact Variant.read_word rfl budget

theorem find_reference (reference : Reference) :
    variants.find? (·.word = reference.word) = some ⟨reference.word, .text (named reference)⟩ := by
  cases reference <;> rfl

theorem find_sequence (s : Sequence) :
    variants.find? (·.word = s.word) = some ⟨s.word, .nested (sequence s)⟩ := by
  cases s <;> rfl

/-- A type takes one level for each object it is written with. -/
theorem read_print (type : DataType) (budget : Nat) :
    ReadsBack (DataType.read budget) type.print (type.depth ≤ budget) type := by
  induction type generalizing budget with
  | scalar s => exact (read_scalar s budget).congr (by simp [depth])
  | string => exact (Variant.read_word rfl budget).congr (by simp [depth])
  | pointer => exact (Variant.read_word rfl budget).congr (by simp [depth])
  | remoteService => exact (Variant.read_word rfl budget).congr (by simp [depth])
  | named reference name =>
    cases budget with
    | zero => exact (Variant.read_object_refused _ _ _).congr (by simp [depth])
    | succ budget =>
      have hname := (readText_quote name).map (named reference)
      exact (Variant.read_object (find_reference reference) hname).congr (by simp [depth])
  | sequence s element ih =>
    cases budget with
    | zero => exact (Variant.read_object_refused _ _ _).congr (by simp [depth])
    | succ budget =>
      have helement := (ih budget).map (sequence s)
      exact (Variant.read_object (find_sequence s) helement).congr (by simp [depth])

end DataType

namespace Parameter

def entries (parameter : Parameter) (budget : Nat) : List (WrittenField Draft) :=
  [⟨"name", quote parameter.name, True, fun d => { d with name := some parameter.name }⟩,
    ⟨"direction", quote parameter.direction.word, True,
      fun d => { d with direction := some parameter.direction }⟩,
    ⟨"type", parameter.type.print, parameter.type.depth ≤ budget,
      fun d => { d with type := some parameter.type }⟩]

theorem read_print (parameter : Parameter) (budget : Nat) :
    ReadsBack (Parameter.read (budget + 1)) parameter.print (parameter.type.depth ≤ budget)
      parameter := by
  have hentries : record.TakesAll budget record.blank (parameter.entries budget) :=
    ⟨⟨_, rfl, rfl, Field.of_readsBack (readText_quote parameter.name) _⟩,
      ⟨_, rfl, rfl, Field.of_readsBack (Direction.read_word parameter.direction budget) _⟩,
      ⟨_, rfl, rfl, Field.of_readsBack (DataType.read_print parameter.type budget) _⟩,
      trivial⟩
  exact (Record.read_object hentries rfl).congr (by simp [entries])

end Parameter

namespace Method

def entries (method : Method) (budget : Nat) : List (WrittenField Draft) :=
  [⟨"name", quote method.name, True, fun d => { d with name := some method.name }⟩,
    ⟨"params", array (method.params.map Parameter.print),
      ∀ p ∈ method.params, p.type.depth ≤ budget,
      fun d => { d with params := some method.params }⟩]

theorem read_print (method : Method) (budget : Nat) :
    ReadsBack (Method.read (budget + 3)) method.print
      (∀ p ∈ method.params, p.type.depth ≤ budget) method := by
  have hparams : ReadsBack (readList Parameter.read (budget + 2))
      (array (method.params.map Parameter.print)) (∀ p ∈ method.params, p.type.depth ≤ budget)
      method.params :=
    readList_array (fun p _ => p.read_print budget) (fun p _ => opens_object _)
  have hentries : record.TakesAll (budget + 2) record.blank (method.entries budget) :=
    ⟨⟨_, rfl, rfl, Field.of_readsBack (readText_quote method.name) _⟩,
      ⟨_, rfl, rfl, Field.of_readsBack hparams _⟩,
      trivial⟩
  exact (Record.read_object hentries rfl).congr (by simp [entries])

end Method

namespace Version

def entries (version : Version) : List (WrittenField Draft) :=
  [⟨"major", Text.decimal version.major.toNat, True,
      fun d => { d with major := some version.major }⟩,
    ⟨"minor", Text.decimal version.minor.toNat, True,
      fun d => { d with minor := some version.minor }⟩]

theorem read_print (version : Version) (budget : Nat) :
    ReadsBack (Version.read (budget + 1)) version.print True version := by
  have hentries : record.TakesAll budget record.blank version.entries :=
    ⟨⟨_, rfl, rfl, Field.of_readsBack (readWordNumber_decimal version.major) _⟩,
      ⟨_, rfl, rfl, Field.of_readsBack (readWordNumber_decimal version.minor) _⟩,
      trivial⟩
  exact (Record.read_object hentries rfl).congr (by simp [entries])

end Version

namespace Interface

def parameterTypes (interface : Interface) : List DataType :=
  interface.methods.flatMap fun method => method.params.map (·.type)

theorem forall_parameterTypes {interface : Interface} {P : DataType → Prop} :
    (∀ type ∈ interface.parameterTypes, P type) ↔
      ∀ m ∈ interface.methods, ∀ p ∈ m.params, P p.type := by
  constructor
  · intro h m hm p hp
    exact h _ (List.mem_flatMap.mpr ⟨m, hm, List.mem_map.mpr ⟨p, hp, rfl⟩⟩)
  · intro h type htype
    obtain ⟨m, hm, hmap⟩ := List.mem_flatMap.mp htype
    obtain ⟨p, hp, rfl⟩ := List.mem_map.mp hmap
    exact h m hm p hp

def entries (interface : Interface) (budget : Nat) : List (WrittenField Draft) :=
  [⟨"package", quote interface.package, True, fun d => { d with package := some interface.package }⟩,
    ⟨"name", quote interface.name, True, fun d => { d with name := some interface.name }⟩,
    ⟨"version", interface.version.print, True,
      fun d => { d with version := some interface.version }⟩,
    ⟨"role", quote interface.role.word, True, fun d => { d with role := some interface.role }⟩,
    ⟨"methods", array (interface.methods.map Method.print),
      ∀ m ∈ interface.methods, ∀ p ∈ m.params, p.type.depth ≤ budget,
      fun d => { d with methods := some interface.methods }⟩]

theorem read_print (interface : Interface) (budget : Nat) :
    ReadsBack (Interface.read (budget + 5)) interface.print
      (∀ type ∈ interface.parameterTypes, type.depth ≤ budget) interface := by
  have hmethods : ReadsBack (readList Method.read (budget + 4))
      (array (interface.methods.map Method.print))
      (∀ m ∈ interface.methods, ∀ p ∈ m.params, p.type.depth ≤ budget) interface.methods :=
    readList_array (fun m _ => m.read_print budget) (fun m _ => opens_object _)
  have hentries : record.TakesAll (budget + 4) record.blank (interface.entries budget) :=
    ⟨⟨_, rfl, rfl, Field.of_readsBack (readText_quote interface.package) _⟩,
      ⟨_, rfl, rfl, Field.of_readsBack (readText_quote interface.name) _⟩,
      ⟨_, rfl, rfl, Field.of_readsBack (interface.version.read_print (budget + 3)) _⟩,
      ⟨_, rfl, rfl, Field.of_readsBack (Role.read_word interface.role (budget + 4)) _⟩,
      ⟨_, rfl, rfl, Field.of_readsBack hmethods _⟩,
      trivial⟩
  exact (Record.read_object hentries rfl).congr (by simp [entries, forall_parameterTypes])

end Interface

namespace Document

def parameterTypes (document : Document) : List DataType :=
  document.interface.toList.flatMap Interface.parameterTypes

theorem forall_parameterTypes {document : Document} {P : DataType → Prop} :
    (∀ type ∈ document.parameterTypes, P type) ↔
      ∀ i ∈ document.interface, ∀ type ∈ i.parameterTypes, P type := by
  cases h : document.interface with
  | none => simp [parameterTypes, h]
  | some interface => simp [parameterTypes, h]

def entries (document : Document) (budget : Nat) : List (WrittenField Draft) :=
  [⟨"kind", quote document.kind.word, True, fun d => { d with kind := some document.kind }⟩,
    ⟨"license", optional quote document.license, ∀ t ∈ document.license, True,
      fun d => { d with license := some document.license }⟩,
    ⟨"imports", array (document.imports.map quote), ∀ t ∈ document.imports, True,
      fun d => { d with imports := some document.imports }⟩,
    ⟨"interface", optional Interface.print document.interface,
      ∀ i ∈ document.interface, ∀ type ∈ i.parameterTypes, type.depth ≤ budget,
      fun d => { d with interface := some document.interface }⟩]

theorem read_print (document : Document) (budget : Nat) :
    ReadsBack (Document.read (budget + 6)) document.print
      (∀ type ∈ document.parameterTypes, type.depth ≤ budget) document := by
  have hlicense := readOptional_optional document.license (fun t _ => readText_quote t)
    (fun t _ => opens_quote t)
  have himports : ReadsBack (readList (fun _ => readText) (budget + 5))
      (array (document.imports.map quote)) (∀ t ∈ document.imports, True) document.imports :=
    readList_array (fun t _ => readText_quote t) (fun t _ => opens_quote t)
  have hinterface := readOptional_optional document.interface
    (fun i _ => i.read_print budget) (fun i _ => opens_object _)
  have hentries : record.TakesAll (budget + 5) record.blank (document.entries budget) :=
    ⟨⟨_, rfl, rfl, Field.of_readsBack (DocumentKind.read_word document.kind (budget + 5)) _⟩,
      ⟨_, rfl, rfl, Field.of_readsBack hlicense _⟩,
      ⟨_, rfl, rfl, Field.of_readsBack himports _⟩,
      ⟨_, rfl, rfl, Field.of_readsBack hinterface _⟩,
      trivial⟩
  exact (Record.read_object hentries rfl).congr (by simp [entries, forall_parameterTypes])

/-- Reading undoes writing for every document whose parameter types have at most 121 levels of
their own; any other document is refused for its nesting. -/
theorem parse_print (document : Document) :
    (Document.parse document.print =
      if ∀ type ∈ document.parameterTypes, type.depth ≤ 121 then .ok document
      else .error .tooDeep) ∧
    Fault.tooDeep.category = .malformed ∧ Fault.tooDeep.message = "recursion limit exceeded" := by
  refine ⟨?_, rfl, rfl⟩
  have h := document.read_print 121
  rw [parse, readWhole, ← List.append_nil document.print]
  split
  · next hfits =>
    rw [nestingLimit, h.ok hfits [] delimited_nil]
    rfl
  · next hfits =>
    rw [nestingLimit, h.refused hfits [] delimited_nil]
    rfl

end Document
end DriverHeader
