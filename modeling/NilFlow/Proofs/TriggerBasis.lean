import Mathlib.Data.List.Basic
import NilFlow.Proofs.Outcome
import NilFlow.Record
import NilFlow.Trigger.Build
import NilFlow.Trigger.PayloadCodec

/-!
# Triggers agree with what they are built from

The parts that a trigger is built from amount to a `Basis`: the site that it is to depend on, and
what is given beside the site.  The same can be read off from the trigger (`Trigger.basis`).  A
trigger that is built keeps its parts (`parts_of_build`), so the two are the same
(`basis_of_build`).  Everything else is then about the trigger alone: its kind decides how it fires
(`firing_eq`), the return statement decides where it is reported (`Record.position_eq`), and each
field of its payload tells what its name says (`tells_payload`).

What the name of a field says is laid down by `Basis.Tells`, whatever kind the field belongs to;
only a parameter is told in one way for some kinds and in another for others.
-/

namespace NilFlow

/-! ### The basis of a trigger -/

/-- What the parts of a trigger amount to. -/
structure Basis where
  /-- The site that the trigger depends on. -/
  site? : Option Site := none
  localVar? : Option VarDecl := none
  /-- The return statement, and whether the result is returned through its name. -/
  returning? : Option (ReturnStmt × Bool) := none
  affiliation? : Option Affiliation := none

/-- What the parts of a kind amount to, if they make up a site. -/
def Tag.basis : (tag : Tag) → tag.Parts → Except SiteError Basis
  | .ptrLoad, () | .mapAccess, () | .mapWrittenTo, () | .sliceAccess, () | .fldAccess, ()
  | .chanAccess, () | .deepAssignPrimitive, () => .ok {}
  | .localVarAssignDeep, var => .ok { localVar? := some var }
  | .globalVarAssign, var | .globalVarAssignDeep, var => do
    return { site? := some (.global (← GlobalSite.of var)) }
  | .fldAssign, field | .fieldAssignDeep, field => .ok { site? := some (.field field) }
  | .fldEscape, field => .ok { site? := some (.escapingField field) }
  | .sliceAssign, elem | .arrayAssign, elem | .ptrAssign, elem | .mapAssign, elem
  | .chanSend, elem => .ok { site? := some (.typeName elem) }
  | .recvPass, func => do return { site? := some (.receiver (← ReceiverSite.of func)) }
  | .argPass, (func, index) | .paramAssignDeep, (func, index)
  | .variadicParamAssignDeep, (func, index) => do
    return { site? := some (.param (← ParamSite.of func index)) }
  | .funcRetAssignDeep, (func, index) => do
    return { site? := some (.result (← ResultSite.of func index)) }
  | .argFldPass, (func, index, field) => do
    return { site? := some (.argumentField ⟨← Argument.of func index, field⟩) }
  | .useAsFldOfReturn, (func, index, field) => do
    return { site? := some (.resultField ⟨← ResultSite.of func index, field⟩) }
  | .useAsErrorResult, (func, index, stmt, named) | .useAsReturn, (func, index, stmt, named)
  | .useAsNonErrorRetDependentOnErrorRetNilability, (func, index, stmt, named)
  | .useAsErrorRetWithNilabilityUnknown, (func, index, stmt, named) => do
    let result ← ResultSite.of func index
    return { site? := some (.result result), returning? := some (stmt, named) }
  | .interfaceResultFromImplementation, (func, index, pair) => do
    return { site? := some (.result (← ResultSite.of func index)), affiliation? := some pair }
  | .methodParamFromInterface, (func, index, pair) => do
    return { site? := some (.param (← ParamSite.of func index)), affiliation? := some pair }

namespace Trigger

/-- The local variable behind a trigger. -/
def localVar? : Trigger → Option VarDecl
  | .localVarAssignDeep var => some var
  | _ => none

/-- What a trigger is built from, as far as it can be seen. -/
def basis (t : Trigger) : Basis where
  site? := t.site?
  localVar? := t.localVar?
  returning? := t.returnSite?.map fun s => (s.stmt, s.named)
  affiliation? := t.affiliation?

end Trigger

/-! ### Steps of a build -/

section Steps

variable {α : Type}

/-- A site that is checked for a trigger is a site. -/
lemma ofSite_eq_ok {x : Except SiteError α} {a : α} : BuildError.ofSite x = .ok a ↔ x = .ok a := by
  cases x <;> simp [BuildError.ofSite, Except.mapError]

/-- Parts that are checked for a trigger fit its site. -/
lemma ofTrigger_eq_ok {x : Except TriggerError α} {a : α} :
    BuildError.ofTrigger x = .ok a ↔ x = .ok a := by
  cases x <;> simp [BuildError.ofTrigger, Except.mapError]

end Steps

namespace Trigger

/-- The parts that a trigger is built from. -/
def parts : (t : Trigger) → t.tag.Parts
  | .ptrLoad | .mapAccess | .mapWrittenTo | .sliceAccess | .fldAccess | .chanAccess
  | .deepAssignPrimitive => ()
  | .localVarAssignDeep var => var
  | .globalVarAssign s | .globalVarAssignDeep s => s.var
  | .fldAssign field | .fieldAssignDeep field | .fldEscape field => field
  | .sliceAssign elem | .arrayAssign elem | .ptrAssign elem | .mapAssign elem
  | .chanSend elem => elem
  | .recvPass s => s.func
  | .argPass s | .paramAssignDeep s => (s.func, s.index)
  | .variadicParamAssignDeep s => (s.param.func, s.param.index)
  | .funcRetAssignDeep s => (s.func, s.index)
  | .argFldPass s => (s.argument.func, s.argument.index?, s.field)
  | .useAsFldOfReturn s => (s.result.func, s.result.index, s.field)
  | .useAsErrorResult s | .useAsReturn s | .useAsNonErrorRetDependentOnErrorRetNilability s
  | .useAsErrorRetWithNilabilityUnknown s => (s.result.func, s.result.index, s.stmt, s.named)
  | .interfaceResultFromImplementation s => (s.result.func, s.result.index, s.affiliation)
  | .methodParamFromInterface s => (s.param.func, s.param.index, s.affiliation)

/-- A trigger that is built has the kind that is asked for, and its parts are those given. -/
lemma parts_of_build {tag : Tag} {parts : tag.Parts} {t : Trigger}
    (h : Trigger.build tag parts = .ok t) : ∃ htag : t.tag = tag, htag ▸ t.parts = parts := by
  cases tag with
  | ptrLoad | mapAccess | mapWrittenTo | sliceAccess | fldAccess | chanAccess | deepAssignPrimitive
  | localVarAssignDeep | fldAssign | fieldAssignDeep | fldEscape | sliceAssign | arrayAssign
  | ptrAssign | mapAssign | chanSend =>
    cases h
    exact ⟨rfl, rfl⟩
  | globalVarAssign | globalVarAssignDeep | recvPass =>
    obtain ⟨s, hs, rfl⟩ := map_eq_ok.mp h
    obtain ⟨-, rfl⟩ := dite_eq_ok.mp (ofSite_eq_ok.mp hs)
    exact ⟨rfl, rfl⟩
  | argPass | paramAssignDeep | funcRetAssignDeep =>
    obtain ⟨func, index⟩ := parts
    obtain ⟨s, hs, rfl⟩ := map_eq_ok.mp h
    obtain ⟨-, rfl⟩ := dite_eq_ok.mp (ofSite_eq_ok.mp hs)
    exact ⟨rfl, rfl⟩
  | variadicParamAssignDeep =>
    obtain ⟨func, index⟩ := parts
    obtain ⟨param, hparam, h⟩ := bind_eq_ok.mp h
    obtain ⟨s, hs, rfl⟩ := map_eq_ok.mp h
    obtain ⟨-, rfl⟩ := dite_eq_ok.mp (ofTrigger_eq_ok.mp hs)
    obtain ⟨-, rfl⟩ := dite_eq_ok.mp (ofSite_eq_ok.mp hparam)
    exact ⟨rfl, rfl⟩
  | argFldPass =>
    obtain ⟨func, index, field⟩ := parts
    obtain ⟨argument, hargument, h⟩ := bind_eq_ok.mp h
    cases h
    cases index with
    | none =>
      obtain ⟨s, hs, rfl⟩ := map_eq_ok.mp (ofSite_eq_ok.mp hargument)
      obtain ⟨-, rfl⟩ := dite_eq_ok.mp hs
      exact ⟨rfl, rfl⟩
    | some index =>
      obtain ⟨s, hs, rfl⟩ := map_eq_ok.mp (ofSite_eq_ok.mp hargument)
      obtain ⟨-, rfl⟩ := dite_eq_ok.mp hs
      exact ⟨rfl, rfl⟩
  | useAsFldOfReturn =>
    obtain ⟨func, index, field⟩ := parts
    obtain ⟨s, hs, h⟩ := bind_eq_ok.mp h
    cases h
    obtain ⟨-, rfl⟩ := dite_eq_ok.mp (ofSite_eq_ok.mp hs)
    exact ⟨rfl, rfl⟩
  | useAsErrorResult | useAsReturn | useAsNonErrorRetDependentOnErrorRetNilability
  | useAsErrorRetWithNilabilityUnknown =>
    obtain ⟨func, index, stmt, named⟩ := parts
    obtain ⟨s, hs, rfl⟩ := map_eq_ok.mp h
    obtain ⟨result, hresult, hs⟩ := bind_eq_ok.mp hs
    obtain ⟨-, rfl⟩ := dite_eq_ok.mp (ofTrigger_eq_ok.mp hs)
    obtain ⟨-, rfl⟩ := dite_eq_ok.mp (ofSite_eq_ok.mp hresult)
    exact ⟨rfl, rfl⟩
  | interfaceResultFromImplementation | methodParamFromInterface =>
    obtain ⟨func, index, affiliation⟩ := parts
    obtain ⟨site, hsite, h⟩ := bind_eq_ok.mp h
    obtain ⟨s, hs, rfl⟩ := map_eq_ok.mp h
    obtain ⟨-, rfl⟩ := dite_eq_ok.mp (ofTrigger_eq_ok.mp hs)
    obtain ⟨-, rfl⟩ := dite_eq_ok.mp (ofSite_eq_ok.mp hsite)
    exact ⟨rfl, rfl⟩

end Trigger

/-- The argument of a call is that at its position. -/
lemma Argument.of_index? (argument : Argument) :
    Argument.of argument.func argument.index? = .ok argument := by
  cases argument with
  | param s => exact congrArg (Argument.param <$> ·) (dif_pos s.inRange)
  | receiver s => exact congrArg (Argument.receiver <$> ·) (dif_pos s.isMethod)

namespace Trigger

/-- A trigger that is built has the kind that is asked for and is based on the parts given. -/
lemma basis_of_build {tag : Tag} {parts : tag.Parts} {t : Trigger}
    (h : Trigger.build tag parts = .ok t) : t.tag = tag ∧ tag.basis parts = .ok t.basis := by
  obtain ⟨rfl, rfl⟩ := parts_of_build h
  refine ⟨rfl, ?_⟩
  cases t with
  | ptrLoad | mapAccess | mapWrittenTo | sliceAccess | fldAccess | chanAccess | deepAssignPrimitive
  | localVarAssignDeep | fldAssign | fieldAssignDeep | fldEscape | sliceAssign | arrayAssign
  | ptrAssign | mapAssign | chanSend => rfl
  | globalVarAssign s | globalVarAssignDeep s => exact bind_eq_ok.mpr ⟨s, dif_pos s.isGlobal, rfl⟩
  | recvPass s => exact bind_eq_ok.mpr ⟨s, dif_pos s.isMethod, rfl⟩
  | argPass s | paramAssignDeep s | funcRetAssignDeep s =>
    exact bind_eq_ok.mpr ⟨s, dif_pos s.inRange, rfl⟩
  | variadicParamAssignDeep s | methodParamFromInterface s =>
    exact bind_eq_ok.mpr ⟨s.param, dif_pos s.param.inRange, rfl⟩
  | argFldPass s => exact bind_eq_ok.mpr ⟨s.argument, s.argument.of_index?, rfl⟩
  | useAsFldOfReturn s | useAsErrorResult s | useAsReturn s
  | useAsNonErrorRetDependentOnErrorRetNilability s | useAsErrorRetWithNilabilityUnknown s
  | interfaceResultFromImplementation s =>
    exact bind_eq_ok.mpr ⟨s.result, dif_pos s.result.inRange, rfl⟩

end Trigger

/-! ### Firing and position -/

namespace Tag

/-- The kinds that fire whatever the annotations are. -/
def unconditional : List Tag :=
  [.ptrLoad, .mapAccess, .mapWrittenTo, .sliceAccess, .fldAccess, .chanAccess, .deepAssignPrimitive,
    .localVarAssignDeep]

/-- The kinds that depend on a deep annotation. -/
def deep : List Tag :=
  [.sliceAssign, .arrayAssign, .ptrAssign, .mapAssign, .chanSend, .paramAssignDeep,
    .funcRetAssignDeep, .fieldAssignDeep, .globalVarAssignDeep]

/-- How triggers of a kind fire. -/
def firing (tag : Tag) : Firing :=
  if tag ∈ unconditional then .always else if tag ∈ deep then .deepConditional else .conditional

/-- No kind that always fires depends on a deep annotation. -/
lemma not_mem_unconditional_of_mem_deep : ∀ tag ∈ deep, tag ∉ unconditional := by
  decide

/-- The kinds that always fire. -/
lemma firing_eq_always_iff {tag : Tag} : tag.firing = .always ↔ tag ∈ unconditional := by
  rw [firing]
  split_ifs <;> simp_all

/-- The kinds that fire depending on a deep annotation. -/
lemma firing_eq_deepConditional_iff {tag : Tag} : tag.firing = .deepConditional ↔ tag ∈ deep := by
  have hdeep := not_mem_unconditional_of_mem_deep tag
  rw [firing]
  split_ifs <;> simp_all

/-- All other kinds fire depending on a shallow annotation. -/
lemma firing_eq_conditional_iff {tag : Tag} :
    tag.firing = .conditional ↔ tag ∉ unconditional ∧ tag ∉ deep := by
  rw [firing]
  split_ifs <;> simp_all

end Tag

/-- The kind of a trigger decides how it fires. -/
lemma Trigger.firing_eq (t : Trigger) : t.firing = t.tag.firing := by
  cases t <;> rfl

/-- A record is reported at the return statement if a result is returned through its name, and else
at the expression. -/
lemma Record.position_eq (r : Record) :
    r.position =
      match r.trigger.basis.returning? with
      | some (stmt, true) => stmt.span
      | _ => r.expr.span := by
  rw [position, Trigger.position?, Trigger.basis]
  rcases r.trigger.returnSite? with _ | ⟨result, stmt, _ | _, howned⟩ <;> rfl

/-! ### What the fields of a payload tell -/

namespace Site

/-- The function that a site belongs to. -/
def func? : Site → Option FuncDecl
  | .param s => some s.func
  | .receiver s => some s.func
  | .result s => some s.func
  | .argumentField s => some s.argument.func
  | .resultField s => some s.result.func
  | .field _ | .escapingField _ | .global _ | .typeName _ => none

/-- The position of a site among the parameters or results of its function. -/
def index? : Site → Option Nat
  | .param s => some s.index
  | .result s => some s.index
  | .argumentField s => s.argument.index?
  | .resultField s => some s.result.index
  | .receiver _ | .field _ | .escapingField _ | .global _ | .typeName _ => none

/-- The field that a site is about. -/
def field? : Site → Option FieldDecl
  | .field f => some f
  | .escapingField f => some f
  | .argumentField s => some s.field
  | .resultField s => some s.field
  | .param _ | .receiver _ | .result _ | .global _ | .typeName _ => none

end Site

namespace Slot

/-- A slot told by its name, or by its position if it is unnamed or blank. -/
def told (slot : Slot) (index : Nat) : String :=
  if slot.name = "" ∨ slot.name = "_" then toString index else slot.name

/-- A parameter told in the words of a report. -/
def toldAsParam (slot : Slot) (index : Nat) : String :=
  if slot.name = "" ∨ slot.name = "_" then "param " ++ toString index
  else "param `" ++ slot.name ++ "`"

end Slot

namespace Basis

/-- The function of the site. -/
def func? (b : Basis) : Option FuncDecl :=
  b.site?.bind Site.func?

/-- The position of the site. -/
def index? (b : Basis) : Option Nat :=
  b.site?.bind Site.index?

/-- The field of the site. -/
def field? (b : Basis) : Option FieldDecl :=
  b.site?.bind Site.field?

/-- What a field of the payload has to hold, given its name.  Positions are in range for the
function of the site.  The receiver counts as position zero, and then the function is a method.
Only parameters are told in two ways, depending on the kind. -/
inductive Tells (tag : Tag) (b : Basis) : String → Json → Prop where
  | func {f : FuncDecl} (hf : b.func? = some f) : Tells tag b "func_name" (.string f.name)
  | returningFunc {f : FuncDecl} (hf : b.func? = some f) :
      Tells tag b "returning_func" (.string f.name)
  | result {f : FuncDecl} {n : Nat} (hf : b.func? = some f) (hn : b.index? = some n)
      (hrange : n < f.results.length) : Tells tag b "ret_num" (.number (.ofNat n))
  | resultName {f : FuncDecl} {n : Nat} {slot : Slot} (hf : b.func? = some f)
      (hn : b.index? = some n) (hslot : f.results[n]? = some slot) :
      Tells tag b "ret_name" (.string slot.name)
  /-- The error is the last result. -/
  | errorResult {f : FuncDecl} {n : Nat} (hf : b.func? = some f)
      (hlast : n + 1 = f.results.length) : Tells tag b "err_ret_num" (.number (.ofNat n))
  | named {stmt : ReturnStmt} {named : Bool} (hr : b.returning? = some (stmt, named)) :
      Tells tag b "is_named_return" (.bool named)
  | argument {f : FuncDecl} {n : Nat} (hf : b.func? = some f) (hn : b.index? = some n)
      (hrange : n < f.params.length) : Tells tag b "param_num" (.number (.ofNat n))
  | receiver {f : FuncDecl} (hf : b.func? = some f) (hn : b.index? = none)
      (hmethod : f.isMethod = true) : Tells tag b "param_num" (.number (.ofNat 0))
  | isReceiver : Tells tag b "is_receiver" (.bool b.index?.isNone)
  | param {f : FuncDecl} {n : Nat} {slot : Slot} (hf : b.func? = some f) (hn : b.index? = some n)
      (hslot : f.params[n]? = some slot)
      (htag : tag = .methodParamFromInterface ∨ tag = .variadicParamAssignDeep) :
      Tells tag b "param_name" (.string (slot.told n))
  | paramInWords {f : FuncDecl} {n : Nat} {slot : Slot} (hf : b.func? = some f)
      (hn : b.index? = some n) (hslot : f.params[n]? = some slot)
      (htag : tag = .argPass ∨ tag = .paramAssignDeep) :
      Tells tag b "param_name" (.string (slot.toldAsParam n))
  | field {f : FieldDecl} (hf : b.field? = some f) : Tells tag b "field_name" (.string f.name)
  | global {s : GlobalSite} (hs : b.site? = some (.global s)) :
      Tells tag b "var_name" (.string s.var.name)
  | localVar {v : VarDecl} (hv : b.localVar? = some v) : Tells tag b "var_name" (.string v.name)
  | type {t : TypeDecl} (ht : b.site? = some (.typeName t)) :
      Tells tag b "type_name" (.string t.name)
  /-- A result in an affiliation is one of the interface method. -/
  | resultInterface {s : ResultSite} {a : Affiliation} (hs : b.site? = some (.result s))
      (ha : b.affiliation? = some a) (hid : s.func.id = a.interface.id) :
      Tells tag b "int_name" (.string s.func.qualifiedName)
  | resultImplementing {s : ResultSite} {a : Affiliation} (hs : b.site? = some (.result s))
      (ha : b.affiliation? = some a) :
      Tells tag b "impl_name" (.string a.implementing.qualifiedName)
  /-- A parameter in an affiliation is one of the implementing method. -/
  | paramImplementing {s : ParamSite} {a : Affiliation} (hs : b.site? = some (.param s))
      (ha : b.affiliation? = some a) (hid : s.func.id = a.implementing.id) :
      Tells tag b "impl_name" (.string s.func.qualifiedName)
  | paramInterface {s : ParamSite} {a : Affiliation} (hs : b.site? = some (.param s))
      (ha : b.affiliation? = some a) :
      Tells tag b "int_name" (.string a.interface.qualifiedName)

end Basis

/-- The fields of a payload with their names, as they are written. -/
def Payload.members (p : Payload) : List (String × Json) :=
  p.tag.schema.members p.fields

/-- A parameter has a usable name unless its slot is unnamed or blank. -/
lemma ParamSite.name?_eq (s : ParamSite) :
    s.name? = if s.slot.name = "" ∨ s.slot.name = "_" then none else some s.slot.name := by
  rw [name?, Slot.isNamed]
  by_cases hempty : s.slot.name = ""
  · simp [hempty]
  · by_cases hblank : s.slot.name = "_" <;> simp [hempty, hblank]

/-- The bare text of a parameter is read off from its slot. -/
lemma ParamSite.nameText_eq (s : ParamSite) : s.nameText = s.slot.told s.index := by
  rw [nameText, name?_eq, Slot.told]
  by_cases h : s.slot.name = "" ∨ s.slot.name = "_"
  · rw [if_pos h, if_pos h]
  · rw [if_neg h, if_neg h]

/-- The label of a parameter is read off from its slot. -/
lemma ParamSite.label_eq (s : ParamSite) : s.label = s.slot.toldAsParam s.index := by
  rw [label, name?_eq, Slot.toldAsParam]
  by_cases h : s.slot.name = "" ∨ s.slot.name = "_"
  · rw [if_pos h, if_pos h]
  · rw [if_neg h, if_neg h]

/-- The error of a function with results is its last one. -/
lemma ResultSite.errorIndex_add_one (s : ResultSite) : s.errorIndex + 1 = s.func.results.length :=
  Nat.sub_add_cancel (Nat.one_le_of_lt s.inRange)

namespace Basis

variable {tag : Tag} {b : Basis}

/-- The function is that of the site. -/
lemma func?_eq {s : Site} (hs : b.site? = some s) : b.func? = s.func? := by
  rw [func?, hs, Option.bind_some]

/-- The position is that of the site. -/
lemma index?_eq {s : Site} (hs : b.site? = some s) : b.index? = s.index? := by
  rw [index?, hs, Option.bind_some]

namespace Tells

/-- A parameter is told by its bare text where it has to be. -/
lemma ofNameText {s : ParamSite} (hs : b.site? = some (.param s))
    (htag : tag = .methodParamFromInterface ∨ tag = .variadicParamAssignDeep) :
    Tells tag b "param_name" (.string s.nameText) := by
  rw [s.nameText_eq]
  exact .param (func?_eq hs) (index?_eq hs) (List.getElem?_eq_getElem s.inRange) htag

/-- A parameter is told by its label where it has to be. -/
lemma ofLabel {s : ParamSite} (hs : b.site? = some (.param s))
    (htag : tag = .argPass ∨ tag = .paramAssignDeep) :
    Tells tag b "param_name" (.string s.label) := by
  rw [s.label_eq]
  exact .paramInWords (func?_eq hs) (index?_eq hs) (List.getElem?_eq_getElem s.inRange) htag

/-- A result is told by the name of its slot. -/
lemma ofResultName {s : ResultSite} (hs : b.site? = some (.result s)) :
    Tells tag b "ret_name" (.string s.name) :=
  .resultName (func?_eq hs) (index?_eq hs) (List.getElem?_eq_getElem s.inRange)

/-- An argument is told by its position, and the receiver by zero. -/
lemma ofArgument {s : ArgumentFieldSite} (hs : b.site? = some (.argumentField s)) :
    Tells tag b "param_num" (.number (.ofNat (s.argument.index?.getD 0))) := by
  obtain ⟨argument, field⟩ := s
  cases argument with
  | param p => exact .argument (func?_eq hs) (index?_eq hs) p.inRange
  | receiver r => exact .receiver (func?_eq hs) (index?_eq hs) r.isMethod

end Tells

end Basis

namespace Trigger

/-- Every field of the payload of a trigger tells what its name says. -/
lemma tells_payload (t : Trigger) : ∀ m ∈ t.payload.members, t.basis.Tells t.tag m.1 m.2 := by
  rw [← List.forall_iff_forall_mem]
  cases t with
  | ptrLoad | mapAccess | mapWrittenTo | sliceAccess | fldAccess | chanAccess
  | deepAssignPrimitive => trivial
  | localVarAssignDeep var => exact .localVar rfl
  | globalVarAssign s | globalVarAssignDeep s => exact .global rfl
  | fldAssign f | fieldAssignDeep f | fldEscape f => exact .field rfl
  | sliceAssign elem | arrayAssign elem | ptrAssign elem | mapAssign elem | chanSend elem =>
    exact .type rfl
  | recvPass s => exact .func rfl
  | argPass s => exact ⟨.ofLabel rfl (.inl rfl), .func rfl⟩
  | paramAssignDeep s => exact ⟨.ofLabel rfl (.inr rfl), .func rfl⟩
  | variadicParamAssignDeep s => exact ⟨.ofNameText rfl (.inr rfl), .func rfl⟩
  | funcRetAssignDeep s => exact ⟨.func rfl, .result rfl rfl s.inRange⟩
  | argFldPass s => exact ⟨.field rfl, .func rfl, .ofArgument rfl, .isReceiver⟩
  | useAsFldOfReturn s => exact ⟨.func rfl, .field rfl, .result rfl rfl s.result.inRange⟩
  | useAsReturn s | useAsErrorRetWithNilabilityUnknown s =>
    exact ⟨.func rfl, .result rfl rfl s.result.inRange, .named rfl, .ofResultName rfl⟩
  | useAsErrorResult s =>
    exact ⟨.result rfl rfl s.result.inRange, .returningFunc rfl, .named rfl, .ofResultName rfl⟩
  | useAsNonErrorRetDependentOnErrorRetNilability s =>
    exact ⟨.func rfl, .result rfl rfl s.result.inRange, .ofResultName rfl,
      .errorResult rfl s.result.errorIndex_add_one, .named rfl⟩
  | interfaceResultFromImplementation s =>
    exact ⟨.result rfl rfl s.result.inRange, .resultInterface rfl rfl s.isInterface,
      .resultImplementing rfl rfl⟩
  | methodParamFromInterface s =>
    exact ⟨.ofNameText rfl (.inl rfl), .paramImplementing rfl rfl s.isImplementing,
      .paramInterface rfl rfl⟩

/-- A trigger that is built never disagrees with what it is built from.  It has the kind asked for,
also in the word that logs have for it, and depends on the site that the parts make up.  It fires
always exactly if it has no site, which is so for eight kinds; it depends on a deep annotation for
nine kinds, and on a shallow one for all others.  Each field of its payload tells what its name says
about the parts.  A record on it is reported at the return statement if a result is returned through
its name, and else at the expression. -/
theorem build_agrees_with_parts (tag : Tag) (parts : tag.Parts) (t : Trigger)
    (h : Trigger.build tag parts = .ok t) :
    ∃ b, tag.basis parts = .ok b ∧ t.payload.tag = tag ∧ t.payload.siteKind = tag.name ∧
      t.site? = b.site? ∧
      (t.firing = .always ↔ t.site? = none) ∧ (t.firing = .always ↔ tag ∈ Tag.unconditional) ∧
      (t.firing = .deepConditional ↔ tag ∈ Tag.deep) ∧
      (t.firing = .conditional ↔ tag ∉ Tag.unconditional ∧ tag ∉ Tag.deep) ∧
      (∀ m ∈ t.payload.members, b.Tells tag m.1 m.2) ∧
      ∀ r : Record, r.trigger = t → r.position =
        match b.returning? with
        | some (stmt, true) => stmt.span
        | _ => r.expr.span := by
  obtain ⟨rfl, hbasis⟩ := basis_of_build h
  have hkind : t.payload.siteKind = t.tag.name := by
    rw [Payload.siteKind_eq, tag_payload]
  refine ⟨t.basis, hbasis, t.tag_payload, hkind, rfl, Behavior.firing_eq_always_iff, ?_, ?_, ?_,
    t.tells_payload, ?_⟩
  · rw [firing_eq, Tag.firing_eq_always_iff]
  · rw [firing_eq, Tag.firing_eq_deepConditional_iff]
  · rw [firing_eq, Tag.firing_eq_conditional_iff]
  · rintro r rfl
    exact r.position_eq

/-- A result that is returned through its name beside an error: the error is the second result, and
the report goes to the bare `return`. -/
theorem build_agrees_of_named_result :
    let tag : Tag := .useAsNonErrorRetDependentOnErrorRetNilability
    let func : FuncDecl :=
      { FuncDecl.plain ⟨1⟩ "load" with results := [⟨"conf", "*Config"⟩, ⟨"err", "error"⟩] }
    let stmt : ReturnStmt := ⟨⟨4⟩, ⟨1⟩, .point "load.go" 9 2⟩
    let result : ResultSite := ⟨func, 0, by decide⟩
    let t : Trigger := .useAsNonErrorRetDependentOnErrorRetNilability ⟨result, stmt, true, rfl⟩
    Trigger.build tag (func, 0, stmt, true) = .ok t ∧
      t.payload.siteKind = "UseAsNonErrorRetDependentOnErrorRetNilability" ∧
      t.firing = .conditional ∧
      Basis.Tells tag { site? := some (.result result), returning? := some (stmt, true) }
        "err_ret_num" (.number (.ofNat 1)) ∧
      ∀ expr, (Record.unguarded t expr).position = stmt.span := by
  intro tag func stmt result t
  have hbuild : Trigger.build tag (func, 0, stmt, true) = .ok t := rfl
  obtain ⟨b, hb, -, hkind, -, -, -, -, hconditional, htells, hposition⟩ :=
    build_agrees_with_parts tag (func, 0, stmt, true) t hbuild
  cases hb
  refine ⟨hbuild, hkind, hconditional.mpr (by decide), ?_, fun expr => hposition _ rfl⟩
  exact htells _ (.tail _ (.tail _ (.tail _ (.head _))))

end Trigger

end NilFlow
