import DriverHeader.Document
import DriverHeader.Json.Composite

/-! # Reading documents

Documents are read directly into their types, so the first fault from the left is reported,
whether it is about the form of the text or about its data. For each record there is a draft
that holds the fields read so far.
-/
namespace DriverHeader

open Json

/-- The number of lists and objects that may be open at once. -/
def nestingLimit : Nat := 127

def required (name : Text) : Option α → Except Text α
  | some value => .ok value
  | none => .error name

def DocumentKind.read : Nat → Reader DocumentKind := Variant.read (Variant.ofWords word all)

def Role.read : Nat → Reader Role := Variant.read (Variant.ofWords word all)

def Direction.read : Nat → Reader Direction := Variant.read (Variant.ofWords word all)

namespace DataType

def variants : List (Variant DataType) :=
  Scalar.all.map (fun s => ⟨s.word, .nothing (scalar s)⟩)
    ++ [⟨"string", .nothing string⟩,
      ⟨"pointer", .nothing pointer⟩,
      ⟨Reference.enum.word, .text (named .enum)⟩,
      ⟨Reference.struct.word, .text (named .struct)⟩,
      ⟨Reference.union.word, .text (named .union)⟩,
      ⟨Sequence.array.word, .nested (sequence .array)⟩,
      ⟨Sequence.list.word, .nested (sequence .list)⟩,
      ⟨Reference.interface.word, .text (named .interface)⟩,
      ⟨"remote_service", .nothing remoteService⟩]

def read : Nat → Reader DataType := Variant.read variants

def parse (s : Text) : Except Fault DataType := readWhole (read nestingLimit) s

end DataType

namespace Parameter

structure Draft where
  name : Option Text := none
  direction : Option Direction := none
  type : Option DataType := none

def Draft.complete (draft : Draft) : Except Text Parameter := do
  let name ← required "name" draft.name
  let direction ← required "direction" draft.direction
  let type ← required "type" draft.type
  .ok { name, direction, type }

def record : Record Draft Parameter :=
  { title := "Parameter"
    fields :=
      [Field.of "name" (·.name) (fun draft v => { draft with name := some v }) (fun _ => readText),
        Field.of "direction" (·.direction) (fun draft v => { draft with direction := some v })
          Direction.read,
        Field.of "type" (·.type) (fun draft v => { draft with type := some v }) DataType.read]
    blank := {}
    complete := Draft.complete }

def read : Nat → Reader Parameter := record.read

def parse (s : Text) : Except Fault Parameter := readWhole (read nestingLimit) s

end Parameter

namespace Method

structure Draft where
  name : Option Text := none
  params : Option (List Parameter) := none

def Draft.complete (draft : Draft) : Except Text Method := do
  let name ← required "name" draft.name
  .ok { name, params := draft.params.getD [] }

def record : Record Draft Method :=
  { title := "Method"
    fields :=
      [Field.of "name" (·.name) (fun draft v => { draft with name := some v }) (fun _ => readText),
        Field.of "params" (·.params) (fun draft v => { draft with params := some v })
          (readList Parameter.read)]
    blank := {}
    complete := Draft.complete }

def read : Nat → Reader Method := record.read

def parse (s : Text) : Except Fault Method := readWhole (read nestingLimit) s

end Method

namespace Version

structure Draft where
  major : Option UInt32 := none
  minor : Option UInt32 := none

def Draft.complete (draft : Draft) : Except Text Version := do
  let major ← required "major" draft.major
  let minor ← required "minor" draft.minor
  .ok { major, minor }

def record : Record Draft Version :=
  { title := "Version"
    fields :=
      [Field.of "major" (·.major) (fun draft v => { draft with major := some v })
          (fun _ => readWordNumber),
        Field.of "minor" (·.minor) (fun draft v => { draft with minor := some v })
          (fun _ => readWordNumber)]
    blank := {}
    complete := Draft.complete }

def read : Nat → Reader Version := record.read

end Version

namespace Interface

structure Draft where
  package : Option Text := none
  name : Option Text := none
  version : Option Version := none
  role : Option Role := none
  methods : Option (List Method) := none

def Draft.complete (draft : Draft) : Except Text Interface := do
  let package ← required "package" draft.package
  let name ← required "name" draft.name
  let version ← required "version" draft.version
  .ok { package, name, version, role := draft.role.getD .normal, methods := draft.methods.getD [] }

def record : Record Draft Interface :=
  { title := "Interface"
    fields :=
      [Field.of "package" (·.package) (fun draft v => { draft with package := some v })
          (fun _ => readText),
        Field.of "name" (·.name) (fun draft v => { draft with name := some v }) (fun _ => readText),
        Field.of "version" (·.version) (fun draft v => { draft with version := some v })
          Version.read,
        Field.of "role" (·.role) (fun draft v => { draft with role := some v }) Role.read,
        Field.of "methods" (·.methods) (fun draft v => { draft with methods := some v })
          (readList Method.read)]
    blank := {}
    complete := Draft.complete }

def read : Nat → Reader Interface := record.read

def parse (s : Text) : Except Fault Interface := readWhole (read nestingLimit) s

end Interface

namespace Document

structure Draft where
  kind : Option DocumentKind := none
  license : Option (Option Text) := none
  imports : Option (List Text) := none
  interface : Option (Option Interface) := none

def Draft.complete (draft : Draft) : Except Text Document := do
  let kind ← required "kind" draft.kind
  .ok
    { kind
      license := draft.license.getD none
      imports := draft.imports.getD []
      interface := draft.interface.getD none }

def record : Record Draft Document :=
  { title := "AstFile"
    fields :=
      [Field.of "kind" (·.kind) (fun draft v => { draft with kind := some v }) DocumentKind.read,
        Field.of "license" (·.license) (fun draft v => { draft with license := some v })
          (fun _ => readOptional readText),
        Field.of "imports" (·.imports) (fun draft v => { draft with imports := some v })
          (readList fun _ => readText),
        Field.of "interface" (·.interface) (fun draft v => { draft with interface := some v })
          (fun budget => readOptional (Interface.read budget))]
    blank := {}
    complete := Draft.complete }

def read : Nat → Reader Document := record.read

def parse (s : Text) : Except Fault Document := readWhole (read nestingLimit) s

end Document
end DriverHeader
