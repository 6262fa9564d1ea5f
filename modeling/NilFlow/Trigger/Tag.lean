/-!
# The kinds of consuming places

Each kind has a name, under which it is stored and reported.
-/

namespace NilFlow

/-- A kind of place that consumes a value. -/
inductive Tag where
  /-- A value is dereferenced. -/
  | ptrLoad
  /-- A map is read at a key. -/
  | mapAccess
  /-- A map is written at a key. -/
  | mapWrittenTo
  /-- A slice or array is sliced or indexed. -/
  | sliceAccess
  /-- A field of the value is accessed. -/
  | fldAccess
  /-- A channel that may not be initialised is used. -/
  | chanAccess
  /-- A value is stored in a container without a deep annotation. -/
  | deepAssignPrimitive
  /-- A value is stored in a local variable of deeply non-nil type. -/
  | localVarAssignDeep
  /-- A value is returned as the error of a function. -/
  | useAsErrorResult
  /-- A value is assigned to a field. -/
  | fldAssign
  /-- A field of a struct is passed with the struct to a call. -/
  | argFldPass
  /-- A value is assigned to a package-level variable. -/
  | globalVarAssign
  /-- A value is passed as an argument. -/
  | argPass
  /-- A value is the receiver of a call. -/
  | recvPass
  /-- A result of a method leaves through the interface method it implements. -/
  | interfaceResultFromImplementation
  /-- An argument of an interface method enters the method that implements it. -/
  | methodParamFromInterface
  /-- A value is returned from a function. -/
  | useAsReturn
  /-- A field of a struct is returned with the struct. -/
  | useAsFldOfReturn
  /-- A value is stored in a slice of deeply non-nil type. -/
  | sliceAssign
  /-- A value is stored in an array of deeply non-nil type. -/
  | arrayAssign
  /-- A value is stored through a pointer of deeply non-nil type. -/
  | ptrAssign
  /-- A value is stored in a map of deeply non-nil type. -/
  | mapAssign
  /-- A value is sent on a channel of deeply non-nil type. -/
  | chanSend
  /-- A value is stored deeply in a parameter. -/
  | paramAssignDeep
  /-- A value is stored deeply in a result. -/
  | funcRetAssignDeep
  /-- A value is stored in a variadic parameter. -/
  | variadicParamAssignDeep
  /-- A value is stored deeply in a field. -/
  | fieldAssignDeep
  /-- A value is stored deeply in a package-level variable. -/
  | globalVarAssignDeep
  /-- A field leaves its function with its struct. -/
  | fldEscape
  /-- A result is returned that is valid only if the error result is nil. -/
  | useAsNonErrorRetDependentOnErrorRetNilability
  /-- An error result is returned that is not settled on all paths. -/
  | useAsErrorRetWithNilabilityUnknown
  deriving DecidableEq

namespace Tag

/-- Every kind, in the order in which kinds are listed. -/
def all : List Tag :=
  [.ptrLoad, .mapAccess, .mapWrittenTo, .sliceAccess, .fldAccess, .chanAccess, .deepAssignPrimitive,
    .localVarAssignDeep, .useAsErrorResult, .fldAssign, .argFldPass, .globalVarAssign, .argPass,
    .recvPass, .interfaceResultFromImplementation, .methodParamFromInterface, .useAsReturn,
    .useAsFldOfReturn, .sliceAssign, .arrayAssign, .ptrAssign, .mapAssign, .chanSend,
    .paramAssignDeep, .funcRetAssignDeep, .variadicParamAssignDeep, .fieldAssignDeep,
    .globalVarAssignDeep, .fldEscape,
    .useAsNonErrorRetDependentOnErrorRetNilability, .useAsErrorRetWithNilabilityUnknown]

/-- The name of a kind. -/
def name : Tag → String
  | .ptrLoad => "PtrLoad"
  | .mapAccess => "MapAccess"
  | .mapWrittenTo => "MapWrittenTo"
  | .sliceAccess => "SliceAccess"
  | .fldAccess => "FldAccess"
  | .chanAccess => "ChanAccess"
  | .deepAssignPrimitive => "DeepAssignPrimitive"
  | .localVarAssignDeep => "LocalVarAssignDeep"
  | .useAsErrorResult => "UseAsErrorResult"
  | .fldAssign => "FldAssign"
  | .argFldPass => "ArgFldPass"
  | .globalVarAssign => "GlobalVarAssign"
  | .argPass => "ArgPass"
  | .recvPass => "RecvPass"
  | .interfaceResultFromImplementation => "InterfaceResultFromImplementation"
  | .methodParamFromInterface => "MethodParamFromInterface"
  | .useAsReturn => "UseAsReturn"
  | .useAsFldOfReturn => "UseAsFldOfReturn"
  | .sliceAssign => "SliceAssign"
  | .arrayAssign => "ArrayAssign"
  | .ptrAssign => "PtrAssign"
  | .mapAssign => "MapAssign"
  | .chanSend => "ChanSend"
  | .paramAssignDeep => "ParamAssignDeep"
  | .funcRetAssignDeep => "FuncRetAssignDeep"
  | .variadicParamAssignDeep => "VariadicParamAssignDeep"
  | .fieldAssignDeep => "FieldAssignDeep"
  | .globalVarAssignDeep => "GlobalVarAssignDeep"
  | .fldEscape => "FldEscape"
  | .useAsNonErrorRetDependentOnErrorRetNilability =>
    "UseAsNonErrorRetDependentOnErrorRetNilability"
  | .useAsErrorRetWithNilabilityUnknown => "UseAsErrorRetWithNilabilityUnknown"

/-- The kind of a name. -/
def ofName? (s : String) : Option Tag :=
  all.find? (·.name == s)

end Tag

end NilFlow
