import DriverHeader.Identifier
import DriverHeader.IncludeSet
import DriverHeader.Lifecycle
import DriverHeader.MethodSlot
import DriverHeader.Text.Blank

/-! # The header of an interface

A header is a fixed sequence of sections, one blank line between each two of them: the include
guard, the imports, the opening of the C linkage block, the macros, the command enumeration, the
method table, the life-cycle functions and the closing lines. A license text comes before all of
them.
-/
namespace DriverHeader

def line (t : Text) : Text := t ++ "\n"

def DeclarationGroup.lines (group : DeclarationGroup) : Text :=
  (group.comment.elim [] line)
    ++ List.intercalate group.separator (group.declarations.map fun d => line d.text)

namespace Header

def guardOpening (fullName : Text) : Text :=
  line ("#ifndef " ++ guardMacro fullName) ++ line ("#define " ++ guardMacro fullName)

/-- Standard headers that user code needs; kernel code has its own fixed-width types. -/
def standardIncludes : Target → List Include
  | .user => [⟨.standard, "stdint"⟩, ⟨.standard, "stdbool"⟩]
  | .kernel => []

def includes (imports : List Text) (target : Target) : IncludeSet :=
  IncludeSet.empty.insertAll
    (imports.map (fun name => ⟨.generated, fileStem name⟩) ++ standardIncludes target)

def importLines (imports : List Text) (target : Target) : Text :=
  (includes imports target).lines.flatMap line

def linkageOpening : Text :=
  line "#ifdef __cplusplus" ++ line "extern \"C\" \x7b" ++ line "#endif /* __cplusplus */"

def remoteServiceDeclaration : Text := line ("struct " ++ remoteServiceName ++ ";")

def descriptorLine (interface : Interface) : Text :=
  line ("#define " ++ descriptorMacro interface.name ++ " \"" ++ interface.fullName ++ "\"")

def versionLines (interface : Interface) : Text :=
  line ("#define " ++ majorVersionMacro interface.name ++ " "
      ++ Text.decimal interface.version.major.toNat)
    ++ line ("#define " ++ minorVersionMacro interface.name ++ " "
      ++ Text.decimal interface.version.minor.toNat)

def bufferSizeLine (interface : Interface) : Text :=
  line ("#define " ++ bufferSizeMacro interface.name ++ "    (4 * 1024) // 4KB")

def commandLines (interface : Interface) : Text :=
  line "enum \x7b"
    ++ line (tab ++ commandName interface.name versionMethod.name ++ " = 0,")
    ++ interface.methods.flatMap
      (fun method => line (tab ++ commandName interface.name method.name ++ ","))
    ++ line "\x7d;"

/-- The method table: the declared methods, the version method, and the remote object where the
target has one, with a blank line between each two of them. -/
def methodTable (interface : Interface) (target : Target) : Text :=
  line ("struct " ++ interface.name ++ " \x7b")
    ++ interface.methods.flatMap
      (fun method => line (line (method.slot interface.name tab)))
    ++ line (versionMethod.slot interface.name tab)
    ++ (interface.lifecycle target).objectAccessor.elim [] (fun slot => line [] ++ line (tab ++ slot))
    ++ line "\x7d;"

def linkageClosing : Text :=
  line "#ifdef __cplusplus" ++ line "\x7d" ++ line "#endif /* __cplusplus */"

def guardClosing (fullName : Text) : Text := line ("#endif // " ++ guardMacro fullName)

def sections (imports : List Text) (interface : Interface) (target : Target) : List Text :=
  [guardOpening interface.fullName,
    importLines imports target,
    linkageOpening,
    remoteServiceDeclaration,
    descriptorLine interface,
    versionLines interface,
    bufferSizeLine interface,
    commandLines interface,
    methodTable interface target,
    (interface.lifecycle target).getters.lines,
    (interface.lifecycle target).releases.lines,
    linkageClosing,
    guardClosing interface.fullName]

/-- The license above a header, without white space at its end and with a blank line after
it. -/
def banner (license : Option Text) : Text :=
  match license with
  | none => []
  | some text => if text.trimEnd = [] then [] else text.trimEnd ++ "\n\n"

def text (document : Document) (interface : Interface) (target : Target) : Text :=
  banner document.license
    ++ List.intercalate "\n" (sections document.imports interface target)

end Header
end DriverHeader
