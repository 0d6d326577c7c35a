import DriverHeader.CType

/-! # Construction and release of interface objects

Which functions create and release an object depends on the target and on the role. Kernel code
has no process boundary, so there every role has the same functions and none of them mentions a
mode or a remote handle.
-/
namespace DriverHeader

inductive Target
  | kernel
  | user
  deriving DecidableEq

namespace Target

def ofKernelFlag (kernel : Bool) : Target := if kernel then .kernel else .user

def label : Target → Text
  | kernel => "Kernel"
  | user => "User"

end Target

inductive CallMode
  | ipcOnly
  | dual
  deriving DecidableEq

namespace CallMode

def label : CallMode → Text
  | ipcOnly => "IpcOnly"
  | dual => "Dual"

end CallMode

def Role.callMode : Role → CallMode
  | serializable => .ipcOnly
  | normal => .dual
  | callback => .dual

/-- A function declared outside the method table. The result type is spelled with whatever
separates it from the name. -/
structure Declaration where
  result : Text
  name : Text
  params : List Text
  deriving DecidableEq

def Declaration.parameterList (declaration : Declaration) : Text :=
  if declaration.params = [] then "void" else List.intercalate ", " declaration.params

def Declaration.text (declaration : Declaration) : Text :=
  declaration.result ++ declaration.name ++ "(" ++ declaration.parameterList ++ ");"

/-- A run of declarations under one comment, with `separator` between consecutive lines. -/
structure DeclarationGroup where
  comment : Option Text
  declarations : List Declaration
  separator : Text
  deriving DecidableEq

structure Lifecycle where
  getters : DeclarationGroup
  releases : DeclarationGroup
  /-- The slot that answers with the remote object, without indentation. -/
  objectAccessor : Option Text
  deriving DecidableEq

def isStubParameter : Text := "bool isStub"

def serviceNameParameter : Text := "const char *serviceName"

namespace Interface

def instanceParameter (interface : Interface) : Text :=
  "struct " ++ interface.name ++ " *instance"

def getter (interface : Interface) (suffix : Text) (params : List Text) : Declaration :=
  { result := "struct " ++ interface.name ++ " *", name := interface.name ++ suffix, params }

def release (interface : Interface) (suffix : Text) (params : List Text) : Declaration :=
  { result := "void ", name := interface.name ++ suffix, params }

def kernelLifecycle (interface : Interface) : Lifecycle :=
  { getters :=
      { comment := none
        declarations :=
          [interface.getter "Get" [],
            interface.getter "GetInstance" ["const char *instanceName"]]
        separator := "\n" }
    releases :=
      { comment := none
        declarations := [interface.release "Release" [interface.instanceParameter]]
        separator := "" }
    objectAccessor := none }

def getterComment (interface : Interface) : Text :=
  match interface.role.callMode with
  | .ipcOnly => "// no external method used to create client object, it only support ipc mode"
  | .dual =>
    "// external method used to create client object, it support ipc and passthrough mode"

def releaseComment : Text :=
  "// external method used to release client object, it support ipc and passthrough mode"

def userGetters (interface : Interface) : List Declaration :=
  match interface.role with
  | .serializable => [interface.getter "Get" ["struct " ++ remoteServiceName ++ " *remote"]]
  | .callback | .normal =>
    [interface.getter "Get" [isStubParameter],
      interface.getter "GetInstance" [serviceNameParameter, isStubParameter]]

def userReleases (interface : Interface) : List Declaration :=
  match interface.role with
  | .callback => [interface.release "Release" [interface.instanceParameter]]
  | .serializable =>
    [interface.release "Release" [interface.instanceParameter, isStubParameter]]
  | .normal =>
    [interface.release "Release" [interface.instanceParameter, isStubParameter],
      interface.release "ReleaseInstance"
        [serviceNameParameter, interface.instanceParameter, isStubParameter]]

def userLifecycle (interface : Interface) : Lifecycle :=
  { getters :=
      { comment := some interface.getterComment
        declarations := interface.userGetters
        separator := "" }
    releases :=
      { comment := some releaseComment
        declarations := interface.userReleases
        separator := "" }
    objectAccessor :=
      some ("struct " ++ remoteServiceName ++ "* (*AsObject)(struct " ++ interface.name
        ++ " *self);") }

def lifecycle (interface : Interface) : Target → Lifecycle
  | .kernel => interface.kernelLifecycle
  | .user => interface.userLifecycle

end Interface
end DriverHeader
