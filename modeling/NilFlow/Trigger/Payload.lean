import NilFlow.Trigger.Tag

/-!
# Payloads

A payload holds what a report says about a consuming place: the kind, and the names and positions
that its text mentions. It does not point back into declarations, so it can be stored and compared
on its own.

The text of a payload is built from pieces; names that come from declarations stand between
backticks.
-/

namespace NilFlow

/-- What a report says about a consuming place. -/
inductive Payload where
  | ptrLoad
  | mapAccess
  | mapWrittenTo
  | sliceAccess
  | fldAccess
  | chanAccess
  | deepAssignPrimitive
  | localVarAssignDeep (var : String)
  | useAsErrorResult (index : Nat) (func : String) (named : Bool) (name : String)
  | fldAssign (field : String)
  | argFldPass (field func : String) (index : Nat) (receiver : Bool)
  | globalVarAssign (var : String)
  | argPass (param func : String)
  | recvPass (func : String)
  | interfaceResultFromImplementation (index : Nat) (interface implementing : String)
  | methodParamFromInterface (param implementing interface : String)
  | useAsReturn (func : String) (index : Nat) (named : Bool) (name : String)
  | useAsFldOfReturn (func field : String) (index : Nat)
  | sliceAssign (type : String)
  | arrayAssign (type : String)
  | ptrAssign (type : String)
  | mapAssign (type : String)
  | chanSend (type : String)
  | paramAssignDeep (param func : String)
  | funcRetAssignDeep (func : String) (index : Nat)
  | variadicParamAssignDeep (param func : String)
  | fieldAssignDeep (field : String)
  | globalVarAssignDeep (var : String)
  | fldEscape (field : String)
  | useAsNonErrorRetDependentOnErrorRetNilability (func : String) (index : Nat) (name : String)
      (errorIndex : Nat) (named : Bool)
  | useAsErrorRetWithNilabilityUnknown (func : String) (index : Nat) (named : Bool) (name : String)
  deriving DecidableEq

/-- A piece of a text. -/
inductive Piece where
  /-- Words of the text itself. -/
  | words (s : String)
  /-- A declared name, shown between backticks. -/
  | name (s : String)
  /-- A label, shown as it is. -/
  | label (s : String)
  | number (n : Nat)
  deriving DecidableEq

/-- How a piece is shown. -/
def Piece.text : Piece → String
  | .words s => s
  | .name s => "`" ++ s ++ "`"
  | .label s => s
  | .number n => toString n

namespace Payload

/-- The kind of a payload. -/
def tag : Payload → Tag
  | .ptrLoad => .ptrLoad
  | .mapAccess => .mapAccess
  | .mapWrittenTo => .mapWrittenTo
  | .sliceAccess => .sliceAccess
  | .fldAccess => .fldAccess
  | .chanAccess => .chanAccess
  | .deepAssignPrimitive => .deepAssignPrimitive
  | .localVarAssignDeep .. => .localVarAssignDeep
  | .useAsErrorResult .. => .useAsErrorResult
  | .fldAssign .. => .fldAssign
  | .argFldPass .. => .argFldPass
  | .globalVarAssign .. => .globalVarAssign
  | .argPass .. => .argPass
  | .recvPass .. => .recvPass
  | .interfaceResultFromImplementation .. => .interfaceResultFromImplementation
  | .methodParamFromInterface .. => .methodParamFromInterface
  | .useAsReturn .. => .useAsReturn
  | .useAsFldOfReturn .. => .useAsFldOfReturn
  | .sliceAssign .. => .sliceAssign
  | .arrayAssign .. => .arrayAssign
  | .ptrAssign .. => .ptrAssign
  | .mapAssign .. => .mapAssign
  | .chanSend .. => .chanSend
  | .paramAssignDeep .. => .paramAssignDeep
  | .funcRetAssignDeep .. => .funcRetAssignDeep
  | .variadicParamAssignDeep .. => .variadicParamAssignDeep
  | .fieldAssignDeep .. => .fieldAssignDeep
  | .globalVarAssignDeep .. => .globalVarAssignDeep
  | .fldEscape .. => .fldEscape
  | .useAsNonErrorRetDependentOnErrorRetNilability .. =>
    .useAsNonErrorRetDependentOnErrorRetNilability
  | .useAsErrorRetWithNilabilityUnknown .. => .useAsErrorRetWithNilabilityUnknown

/-- The word for the kind of a payload, as logs have it. -/
def siteKind : Payload → String
  | .ptrLoad => "PtrLoad"
  | .mapAccess => "MapAccess"
  | .mapWrittenTo => "MapWrittenTo"
  | .sliceAccess => "SliceAccess"
  | .fldAccess => "FldAccess"
  | .chanAccess => "ChanAccess"
  | .deepAssignPrimitive => "DeepAssignPrimitive"
  | .localVarAssignDeep .. => "LocalVarAssignDeep"
  | .useAsErrorResult .. => "UseAsErrorResult"
  | .fldAssign .. => "FldAssign"
  | .argFldPass .. => "ArgFldPass"
  | .globalVarAssign .. => "GlobalVarAssign"
  | .argPass .. => "ArgPass"
  | .recvPass .. => "RecvPass"
  | .interfaceResultFromImplementation .. => "InterfaceResultFromImplementation"
  | .methodParamFromInterface .. => "MethodParamFromInterface"
  | .useAsReturn .. => "UseAsReturn"
  | .useAsFldOfReturn .. => "UseAsFldOfReturn"
  | .sliceAssign .. => "SliceAssign"
  | .arrayAssign .. => "ArrayAssign"
  | .ptrAssign .. => "PtrAssign"
  | .mapAssign .. => "MapAssign"
  | .chanSend .. => "ChanSend"
  | .paramAssignDeep .. => "ParamAssignDeep"
  | .funcRetAssignDeep .. => "FuncRetAssignDeep"
  | .variadicParamAssignDeep .. => "VariadicParamAssignDeep"
  | .fieldAssignDeep .. => "FieldAssignDeep"
  | .globalVarAssignDeep .. => "GlobalVarAssignDeep"
  | .fldEscape .. => "FldEscape"
  | .useAsNonErrorRetDependentOnErrorRetNilability .. =>
    "UseAsNonErrorRetDependentOnErrorRetNilability"
  | .useAsErrorRetWithNilabilityUnknown .. => "UseAsErrorRetWithNilabilityUnknown"

/-- Logs have the name of the kind. -/
theorem siteKind_eq (p : Payload) : p.siteKind = p.tag.name := by
  cases p <;> rfl

/-- The pieces of the text. The text completes the sentence "it flows to a place where it is
...". -/
def pieces : Payload → List Piece
  | .ptrLoad => [.words "dereferenced"]
  | .mapAccess => [.words "keyed into"]
  | .mapWrittenTo => [.words "written to at an index"]
  | .sliceAccess => [.words "sliced into"]
  | .fldAccess => [.words "passed to a field access"]
  | .chanAccess => [.words "of uninitialized channel"]
  | .deepAssignPrimitive => [.words "assigned into a deep type without nilability Annotation"]
  | .localVarAssignDeep var =>
    [.words "assigned deeply into the local variable ", .name var, .words " of deeply non-nil type"]
  | .useAsErrorResult index func named name =>
    if named then
      [.words "returned as the named error return value ", .name name, .words " in position ",
        .number index, .words " of function ", .name func]
    else
      [.words "returned as the error result ", .number index, .words " of function ", .name func]
  | .fldAssign field => [.words "assigned into the field ", .name field]
  | .argFldPass field func index receiver =>
    if receiver then
      [.words "of the field ", .name field, .words " of receiver of call to function ", .name func]
    else
      [.words "of the field ", .name field, .words " of argument ", .number index,
        .words " to call to function ", .name func]
  | .globalVarAssign var => [.words "assigned into the global variable ", .name var]
  | .argPass param func => [.words "passed as ", .label param, .words " to func ", .name func]
  | .recvPass func => [.words "used as a receiver to call method ", .name func]
  | .interfaceResultFromImplementation index interface implementing =>
    [.words "could be returned as result ", .number index, .words " from the interface method ",
      .name interface, .words " (implemented by method ", .name implementing, .words ")"]
  | .methodParamFromInterface param implementing interface =>
    [.words "could be passed as param ", .name param, .words " to the method ", .name implementing,
      .words " (implementing interface method ", .name interface, .words ")"]
  | .useAsReturn func index named name =>
    if named then
      [.words "returned from the function ", .name func, .words " via the named return value ",
        .name name, .words " in position ", .number index]
    else
      [.words "returned from the function ", .name func, .words " in position ", .number index]
  | .useAsFldOfReturn func field index =>
    [.words "of the field ", .name field, .words " of return of the function ", .name func,
      .words " in position ", .number index]
  | .sliceAssign type => [.words "assigned into a slice of deeply non-nil type ", .name type]
  | .arrayAssign type => [.words "assigned into an array of deeply non-nil type ", .name type]
  | .ptrAssign type => [.words "assigned into a pointer of deeply non-nil type ", .name type]
  | .mapAssign type => [.words "assigned into a map of deeply non-nil type ", .name type]
  | .chanSend type => [.words "sent to a channel of deeply non-nil type ", .name type]
  | .paramAssignDeep param func =>
    [.words "assigned deeply into deeply nonnil ", .label param, .words " of function ", .name func]
  | .funcRetAssignDeep func index =>
    [.words "assigned deeply into the result of function ", .name func, .words " in position ",
      .number index]
  | .variadicParamAssignDeep param func =>
    [.words "assigned deeply into deeply nonnil variadic ", .name param, .words " of function ",
      .name func]
  | .fieldAssignDeep field =>
    [.words "assigned deeply into a field ", .name field, .words " of deeply non-nil type"]
  | .globalVarAssignDeep var =>
    [.words "assigned deeply into the global variable ", .name var,
      .words " of deeply non-nil type"]
  | .fldEscape field => [.words "escaped field ", .name field]
  | .useAsNonErrorRetDependentOnErrorRetNilability func index name errorIndex named =>
    if named then
      [.words "returned from the function ", .name func, .words " via the named return value ",
        .name name, .words " in position ", .number index,
        .words " when the error return in position ", .number errorIndex,
        .words " is not guaranteed to be non-nil through all paths"]
    else
      [.words "returned from the function ", .name func, .words " in position ", .number index,
        .words " when the error return in position ", .number errorIndex,
        .words " is not guaranteed to be non-nil through all paths"]
  | .useAsErrorRetWithNilabilityUnknown func index named name =>
    if named then
      [.words "found in at least one path of the function ", .name func,
        .words " for the named return ", .name name, .words " in position ", .number index]
    else
      [.words "found in at least one path of the function ", .name func,
        .words " for the return in position ", .number index]

/-- The text of a payload. -/
def text (p : Payload) : String :=
  String.join (p.pieces.map Piece.text)

end Payload

end NilFlow
