import NilFlow.Trigger.Basic

/-!
# Building triggers

A trigger is built from its kind and the parts that the kind needs: declarations, a slot, a return
statement, an affiliation. First the site is checked, then whether the other parts fit it.
-/

namespace NilFlow

/-- Why no trigger is built. -/
inductive BuildError where
  /-- There is no such site. -/
  | site (e : SiteError)
  /-- The site does not fit the other parts. -/
  | trigger (e : TriggerError)
  deriving DecidableEq

namespace BuildError

variable {α : Type}

/-- The outcome of a check of the site. -/
def ofSite (r : Except SiteError α) : Except BuildError α :=
  r.mapError .site

/-- The outcome of a check of the parts against the site. -/
def ofTrigger (r : Except TriggerError α) : Except BuildError α :=
  r.mapError .trigger

end BuildError

open BuildError

/-- What triggers of a kind are built from. Where a position is optional, its absence means the
receiver; the truth value of a return tells whether the result is returned through its name. -/
abbrev Tag.Parts : Tag → Type
  | .ptrLoad | .mapAccess | .mapWrittenTo | .sliceAccess | .fldAccess | .chanAccess
  | .deepAssignPrimitive => Unit
  | .localVarAssignDeep | .globalVarAssign | .globalVarAssignDeep => VarDecl
  | .fldAssign | .fieldAssignDeep | .fldEscape => FieldDecl
  | .sliceAssign | .arrayAssign | .ptrAssign | .mapAssign | .chanSend => TypeDecl
  | .recvPass => FuncDecl
  | .argPass | .paramAssignDeep | .variadicParamAssignDeep | .funcRetAssignDeep => FuncDecl × Nat
  | .argFldPass => FuncDecl × Option Nat × FieldDecl
  | .useAsFldOfReturn => FuncDecl × Nat × FieldDecl
  | .useAsErrorResult | .useAsReturn | .useAsNonErrorRetDependentOnErrorRetNilability |
    .useAsErrorRetWithNilabilityUnknown => FuncDecl × Nat × ReturnStmt × Bool
  | .interfaceResultFromImplementation | .methodParamFromInterface => FuncDecl × Nat × Affiliation

/-- The result at a return statement. -/
def ReturnSite.build (parts : FuncDecl × Nat × ReturnStmt × Bool) :
    Except BuildError ReturnSite := do
  let (func, index, stmt, named) := parts
  let result ← ofSite (ResultSite.of func index)
  ofTrigger (ReturnSite.of result stmt named)

/-- The trigger of a kind from its parts. -/
def Trigger.build : (tag : Tag) → tag.Parts → Except BuildError Trigger
  | .ptrLoad, () => .ok .ptrLoad
  | .mapAccess, () => .ok .mapAccess
  | .mapWrittenTo, () => .ok .mapWrittenTo
  | .sliceAccess, () => .ok .sliceAccess
  | .fldAccess, () => .ok .fldAccess
  | .chanAccess, () => .ok .chanAccess
  | .deepAssignPrimitive, () => .ok .deepAssignPrimitive
  | .localVarAssignDeep, var => .ok (.localVarAssignDeep var)
  | .useAsErrorResult, parts => .useAsErrorResult <$> ReturnSite.build parts
  | .fldAssign, field => .ok (.fldAssign field)
  | .argFldPass, (func, index, field) => do
    let argument ← ofSite (Argument.of func index)
    return .argFldPass ⟨argument, field⟩
  | .globalVarAssign, var => .globalVarAssign <$> ofSite (GlobalSite.of var)
  | .argPass, (func, index) => .argPass <$> ofSite (ParamSite.of func index)
  | .recvPass, func => .recvPass <$> ofSite (ReceiverSite.of func)
  | .interfaceResultFromImplementation, (func, index, affiliation) => do
    let result ← ofSite (ResultSite.of func index)
    .interfaceResultFromImplementation <$> ofTrigger (AffiliatedResult.of result affiliation)
  | .methodParamFromInterface, (func, index, affiliation) => do
    let param ← ofSite (ParamSite.of func index)
    .methodParamFromInterface <$> ofTrigger (AffiliatedParam.of param affiliation)
  | .useAsReturn, parts => .useAsReturn <$> ReturnSite.build parts
  | .useAsFldOfReturn, (func, index, field) => do
    let result ← ofSite (ResultSite.of func index)
    return .useAsFldOfReturn ⟨result, field⟩
  | .sliceAssign, elem => .ok (.sliceAssign elem)
  | .arrayAssign, elem => .ok (.arrayAssign elem)
  | .ptrAssign, elem => .ok (.ptrAssign elem)
  | .mapAssign, elem => .ok (.mapAssign elem)
  | .chanSend, elem => .ok (.chanSend elem)
  | .paramAssignDeep, (func, index) => .paramAssignDeep <$> ofSite (ParamSite.of func index)
  | .funcRetAssignDeep, (func, index) => .funcRetAssignDeep <$> ofSite (ResultSite.of func index)
  | .variadicParamAssignDeep, (func, index) => do
    let param ← ofSite (ParamSite.of func index)
    .variadicParamAssignDeep <$> ofTrigger (VariadicSite.of param)
  | .fieldAssignDeep, field => .ok (.fieldAssignDeep field)
  | .globalVarAssignDeep, var => .globalVarAssignDeep <$> ofSite (GlobalSite.of var)
  | .fldEscape, field => .ok (.fldEscape field)
  | .useAsNonErrorRetDependentOnErrorRetNilability, parts =>
    .useAsNonErrorRetDependentOnErrorRetNilability <$> ReturnSite.build parts
  | .useAsErrorRetWithNilabilityUnknown, parts =>
    .useAsErrorRetWithNilabilityUnknown <$> ReturnSite.build parts

end NilFlow
