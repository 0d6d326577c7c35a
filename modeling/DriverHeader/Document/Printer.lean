import DriverHeader.Document
import DriverHeader.Json.Quote

/-! # Documents as JSON

Every field is written, in a fixed order. A value without content is written as its word; a
type with content is an object from its word to the content.
-/
namespace DriverHeader

open Json

def DataType.print : DataType → Text
  | scalar s => quote s.word
  | string => quote "string"
  | pointer => quote "pointer"
  | named reference name => object [(reference.word, quote name)]
  | sequence s element => object [(s.word, element.print)]
  | remoteService => quote "remote_service"

def Parameter.print (parameter : Parameter) : Text :=
  object [("name", quote parameter.name), ("direction", quote parameter.direction.word),
    ("type", parameter.type.print)]

def Method.print (method : Method) : Text :=
  object [("name", quote method.name), ("params", array (method.params.map Parameter.print))]

def Version.print (version : Version) : Text :=
  object [("major", Text.decimal version.major.toNat), ("minor", Text.decimal version.minor.toNat)]

def Interface.print (interface : Interface) : Text :=
  object [("package", quote interface.package), ("name", quote interface.name),
    ("version", interface.version.print), ("role", quote interface.role.word),
    ("methods", array (interface.methods.map Method.print))]

def Document.print (document : Document) : Text :=
  object [("kind", quote document.kind.word), ("license", optional quote document.license),
    ("imports", array (document.imports.map quote)),
    ("interface", optional Interface.print document.interface)]

end DriverHeader
