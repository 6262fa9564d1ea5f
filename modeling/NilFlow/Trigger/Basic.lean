import NilFlow.Trigger.Behavior
import NilFlow.Trigger.Payload

/-!
# Triggers

A trigger is a classified place that consumes a value. It holds the site it depends on, if any, with
the shape that its kind needs; behavior, payload and position are computed from that, so they cannot
disagree with it.

Four kinds concern a `return` of the site's own function. Two concern an interface method and a
method that implements it. One concerns the variadic parameter of a function. Their sites carry the
proof.

Two triggers are the same when they agree in behavior, payload and the declarations behind them, the
latter compared by id; `Trigger.id` keeps just that.
-/

namespace NilFlow

/-- The two sides of an interface method's implementation. -/
inductive Role where
  | interface
  | implementing
  deriving DecidableEq

/-- The word for a role. -/
def Role.text : Role → String
  | .interface => "interface"
  | .implementing => "implementing"

/-- Why declarations do not make up a trigger. -/
inductive TriggerError where
  | notVariadic (func : String)
  | foreignReturn (stmt : StmtId) (func : String)
  | affiliationMismatch (site : String) (role : Role) (expected : String)
  deriving DecidableEq

/-- The wording of a trigger error. -/
def TriggerError.message : TriggerError → String
  | .notVariadic func => "function `" ++ func ++ "` is not variadic"
  | .foreignReturn stmt func =>
    "return statement " ++ stmt.text ++ " does not belong to function `" ++ func ++ "`"
  | .affiliationMismatch site role expected =>
    "site function `" ++ site ++ "` is not the " ++ role.text ++ " method `" ++ expected
      ++ "` of the affiliation"

/-- An interface method and a method that implements it. -/
structure Affiliation where
  interface : FuncDecl
  implementing : FuncDecl
  deriving DecidableEq

/-- A result returned by a statement of its own function. -/
structure ReturnSite where
  result : ResultSite
  stmt : ReturnStmt
  /-- Whether the result is returned through its name, by a bare `return`. -/
  named : Bool
  owned : stmt.func = result.func.id

/-- A result at a return statement, if the statement belongs to the function. -/
def ReturnSite.of (result : ResultSite) (stmt : ReturnStmt) (named : Bool) :
    Except TriggerError ReturnSite :=
  if h : stmt.func = result.func.id then .ok ⟨result, stmt, named, h⟩
  else .error (.foreignReturn stmt.id result.func.name)

/-- A result of the interface method of an affiliation. -/
structure AffiliatedResult where
  result : ResultSite
  affiliation : Affiliation
  isInterface : result.func.id = affiliation.interface.id

/-- A result in an affiliation, if it is one of the interface method. -/
def AffiliatedResult.of (result : ResultSite) (affiliation : Affiliation) :
    Except TriggerError AffiliatedResult :=
  if h : result.func.id = affiliation.interface.id then .ok ⟨result, affiliation, h⟩
  else .error (.affiliationMismatch result.func.name .interface affiliation.interface.name)

/-- A parameter of the implementing method of an affiliation. -/
structure AffiliatedParam where
  param : ParamSite
  affiliation : Affiliation
  isImplementing : param.func.id = affiliation.implementing.id

/-- A parameter in an affiliation, if it is one of the implementing method. -/
def AffiliatedParam.of (param : ParamSite) (affiliation : Affiliation) :
    Except TriggerError AffiliatedParam :=
  if h : param.func.id = affiliation.implementing.id then .ok ⟨param, affiliation, h⟩
  else .error (.affiliationMismatch param.func.name .implementing affiliation.implementing.name)

/-- A variadic parameter. -/
structure VariadicSite where
  param : ParamSite
  isVariadic : param.isVariadic = true

/-- A parameter, if it is variadic. -/
def VariadicSite.of (param : ParamSite) : Except TriggerError VariadicSite :=
  if h : param.isVariadic = true then .ok ⟨param, h⟩ else .error (.notVariadic param.func.name)

/-- A place that consumes a value, of one of the kinds of `Tag`. -/
inductive Trigger where
  | ptrLoad
  | mapAccess
  | mapWrittenTo
  | sliceAccess
  | fldAccess
  | chanAccess
  | deepAssignPrimitive
  | localVarAssignDeep (var : VarDecl)
  | useAsErrorResult (site : ReturnSite)
  | fldAssign (field : FieldDecl)
  | argFldPass (site : ArgumentFieldSite)
  | globalVarAssign (site : GlobalSite)
  | argPass (site : ParamSite)
  | recvPass (site : ReceiverSite)
  | interfaceResultFromImplementation (site : AffiliatedResult)
  | methodParamFromInterface (site : AffiliatedParam)
  | useAsReturn (site : ReturnSite)
  | useAsFldOfReturn (site : ResultFieldSite)
  | sliceAssign (elem : TypeDecl)
  | arrayAssign (elem : TypeDecl)
  | ptrAssign (elem : TypeDecl)
  | mapAssign (elem : TypeDecl)
  | chanSend (elem : TypeDecl)
  | paramAssignDeep (site : ParamSite)
  | funcRetAssignDeep (site : ResultSite)
  | variadicParamAssignDeep (site : VariadicSite)
  | fieldAssignDeep (field : FieldDecl)
  | globalVarAssignDeep (site : GlobalSite)
  | fldEscape (field : FieldDecl)
  | useAsNonErrorRetDependentOnErrorRetNilability (site : ReturnSite)
  | useAsErrorRetWithNilabilityUnknown (site : ReturnSite)

/-- The declarations behind a trigger that its site and payload do not show, by id. -/
inductive ContextId where
  | plain
  | returning (stmt : StmtId) (named : Bool)
  | affiliation (interface implementing : FuncId)
  | localVar (var : VarId)
  deriving DecidableEq

/-- The identity of a trigger. -/
structure TriggerId where
  behavior : Behavior SiteId
  payload : Payload
  context : ContextId
  deriving DecidableEq

namespace Trigger

/-- The kind of a trigger. -/
def tag : Trigger → Tag
  | .ptrLoad => .ptrLoad
  | .mapAccess => .mapAccess
  | .mapWrittenTo => .mapWrittenTo
  | .sliceAccess => .sliceAccess
  | .fldAccess => .fldAccess
  | .chanAccess => .chanAccess
  | .deepAssignPrimitive => .deepAssignPrimitive
  | .localVarAssignDeep _ => .localVarAssignDeep
  | .useAsErrorResult _ => .useAsErrorResult
  | .fldAssign _ => .fldAssign
  | .argFldPass _ => .argFldPass
  | .globalVarAssign _ => .globalVarAssign
  | .argPass _ => .argPass
  | .recvPass _ => .recvPass
  | .interfaceResultFromImplementation _ => .interfaceResultFromImplementation
  | .methodParamFromInterface _ => .methodParamFromInterface
  | .useAsReturn _ => .useAsReturn
  | .useAsFldOfReturn _ => .useAsFldOfReturn
  | .sliceAssign _ => .sliceAssign
  | .arrayAssign _ => .arrayAssign
  | .ptrAssign _ => .ptrAssign
  | .mapAssign _ => .mapAssign
  | .chanSend _ => .chanSend
  | .paramAssignDeep _ => .paramAssignDeep
  | .funcRetAssignDeep _ => .funcRetAssignDeep
  | .variadicParamAssignDeep _ => .variadicParamAssignDeep
  | .fieldAssignDeep _ => .fieldAssignDeep
  | .globalVarAssignDeep _ => .globalVarAssignDeep
  | .fldEscape _ => .fldEscape
  | .useAsNonErrorRetDependentOnErrorRetNilability _ =>
    .useAsNonErrorRetDependentOnErrorRetNilability
  | .useAsErrorRetWithNilabilityUnknown _ => .useAsErrorRetWithNilabilityUnknown

/-- When the trigger fires. Locals carry no annotation of their own, and a variadic parameter has no
deep one, so its shallow annotation decides. -/
def behavior : Trigger → Behavior Site
  | .ptrLoad | .mapAccess | .mapWrittenTo | .sliceAccess | .fldAccess | .chanAccess
  | .deepAssignPrimitive | .localVarAssignDeep _ => .always
  | .useAsErrorResult s | .useAsReturn s | .useAsNonErrorRetDependentOnErrorRetNilability s
  | .useAsErrorRetWithNilabilityUnknown s => .ifNonNil (.result s.result)
  | .fldAssign f => .ifNonNil (.field f)
  | .argFldPass s => .ifNonNil (.argumentField s)
  | .globalVarAssign s => .ifNonNil (.global s)
  | .argPass s => .ifNonNil (.param s)
  | .recvPass s => .ifNonNil (.receiver s)
  | .interfaceResultFromImplementation s => .ifNonNil (.result s.result)
  | .methodParamFromInterface s => .ifNonNil (.param s.param)
  | .useAsFldOfReturn s => .ifNonNil (.resultField s)
  | .variadicParamAssignDeep s => .ifNonNil (.param s.param)
  | .fldEscape f => .ifNonNil (.escapingField f)
  | .sliceAssign t | .arrayAssign t | .ptrAssign t | .mapAssign t | .chanSend t =>
    .ifDeepNonNil (.typeName t)
  | .paramAssignDeep s => .ifDeepNonNil (.param s)
  | .funcRetAssignDeep s => .ifDeepNonNil (.result s)
  | .fieldAssignDeep f => .ifDeepNonNil (.field f)
  | .globalVarAssignDeep s => .ifDeepNonNil (.global s)

/-- What a report says about the trigger. -/
def payload : Trigger → Payload
  | .ptrLoad => .ptrLoad
  | .mapAccess => .mapAccess
  | .mapWrittenTo => .mapWrittenTo
  | .sliceAccess => .sliceAccess
  | .fldAccess => .fldAccess
  | .chanAccess => .chanAccess
  | .deepAssignPrimitive => .deepAssignPrimitive
  | .localVarAssignDeep v => .localVarAssignDeep v.name
  | .useAsErrorResult s => .useAsErrorResult s.result.index s.result.func.name s.named s.result.name
  | .fldAssign f => .fldAssign f.name
  | .argFldPass s =>
    .argFldPass s.field.name s.argument.func.name (s.argument.index?.getD 0)
      s.argument.index?.isNone
  | .globalVarAssign s => .globalVarAssign s.var.name
  | .argPass s => .argPass s.label s.func.name
  | .recvPass s => .recvPass s.func.name
  | .interfaceResultFromImplementation s =>
    .interfaceResultFromImplementation s.result.index s.result.func.qualifiedName
      s.affiliation.implementing.qualifiedName
  | .methodParamFromInterface s =>
    .methodParamFromInterface s.param.nameText s.param.func.qualifiedName
      s.affiliation.interface.qualifiedName
  | .useAsReturn s => .useAsReturn s.result.func.name s.result.index s.named s.result.name
  | .useAsFldOfReturn s => .useAsFldOfReturn s.result.func.name s.field.name s.result.index
  | .sliceAssign t => .sliceAssign t.name
  | .arrayAssign t => .arrayAssign t.name
  | .ptrAssign t => .ptrAssign t.name
  | .mapAssign t => .mapAssign t.name
  | .chanSend t => .chanSend t.name
  | .paramAssignDeep s => .paramAssignDeep s.label s.func.name
  | .funcRetAssignDeep s => .funcRetAssignDeep s.func.name s.index
  | .variadicParamAssignDeep s => .variadicParamAssignDeep s.param.nameText s.param.func.name
  | .fieldAssignDeep f => .fieldAssignDeep f.name
  | .globalVarAssignDeep s => .globalVarAssignDeep s.var.name
  | .fldEscape f => .fldEscape f.name
  | .useAsNonErrorRetDependentOnErrorRetNilability s =>
    .useAsNonErrorRetDependentOnErrorRetNilability s.result.func.name s.result.index s.result.name
      s.result.errorIndex s.named
  | .useAsErrorRetWithNilabilityUnknown s =>
    .useAsErrorRetWithNilabilityUnknown s.result.func.name s.result.index s.named s.result.name

/-- The return statement behind the trigger. -/
def returnSite? : Trigger → Option ReturnSite
  | .useAsErrorResult s | .useAsReturn s | .useAsNonErrorRetDependentOnErrorRetNilability s
  | .useAsErrorRetWithNilabilityUnknown s => some s
  | _ => none

/-- The interface method and its implementation behind the trigger. -/
def affiliation? : Trigger → Option Affiliation
  | .interfaceResultFromImplementation s => some s.affiliation
  | .methodParamFromInterface s => some s.affiliation
  | _ => none

/-- The declarations behind the trigger, by id. -/
def context : Trigger → ContextId
  | .localVarAssignDeep v => .localVar v.id
  | .useAsErrorResult s | .useAsReturn s | .useAsNonErrorRetDependentOnErrorRetNilability s
  | .useAsErrorRetWithNilabilityUnknown s => .returning s.stmt.id s.named
  | .interfaceResultFromImplementation s =>
    .affiliation s.affiliation.interface.id s.affiliation.implementing.id
  | .methodParamFromInterface s =>
    .affiliation s.affiliation.interface.id s.affiliation.implementing.id
  | _ => .plain

/-- The identity of a trigger. -/
def id (t : Trigger) : TriggerId :=
  ⟨t.behavior.map Site.id, t.payload, t.context⟩

/-- The site that the trigger depends on. -/
def site? (t : Trigger) : Option Site :=
  t.behavior.site?

/-- How firing depends on annotations. -/
def firing (t : Trigger) : Firing :=
  t.behavior.firing

/-- Whether a nil value at the place is an error under the annotations of a snapshot. -/
def fires (t : Trigger) (m : Snapshot) : Bool :=
  t.behavior.fires m

/-- The text of a trigger. -/
def text (t : Trigger) : String :=
  t.payload.text

/-- Where to report, if not at the expression. A named result becomes nil at the bare `return`. -/
def position? (t : Trigger) : Option Span :=
  match t.returnSite? with
  | some s => if s.named then some s.stmt.span else none
  | none => none

/-- The payload of a trigger tells the kind of the trigger. -/
theorem tag_payload (t : Trigger) : t.payload.tag = t.tag := by
  cases t <;> rfl

end Trigger

end NilFlow
