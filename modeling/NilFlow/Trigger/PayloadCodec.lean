import NilFlow.Json.Schema
import NilFlow.Json.Buffer
import NilFlow.Trigger.Payload

/-!
# Payloads as JSON

A payload is an object with its kind under `kind` and the fields of that kind; the kind may stand
anywhere among them. It is also read from an array of its kind and its fields in order. The whole
value is read before its fields are looked at, which limits how deep it may be nested.
-/

namespace NilFlow

namespace Tag

/-- What the fields of a kind hold, in their order. -/
abbrev Fields : Tag → Type
  | .ptrLoad | .mapAccess | .mapWrittenTo | .sliceAccess | .fldAccess | .chanAccess
  | .deepAssignPrimitive => Unit
  | .localVarAssignDeep | .fldAssign | .globalVarAssign | .recvPass | .sliceAssign | .arrayAssign |
    .ptrAssign | .mapAssign | .chanSend | .fieldAssignDeep | .globalVarAssignDeep | .fldEscape =>
    String × Unit
  | .useAsErrorResult => Nat × String × Bool × String × Unit
  | .argFldPass => String × String × Nat × Bool × Unit
  | .argPass | .paramAssignDeep | .variadicParamAssignDeep => String × String × Unit
  | .interfaceResultFromImplementation => Nat × String × String × Unit
  | .methodParamFromInterface => String × String × String × Unit
  | .useAsReturn | .useAsErrorRetWithNilabilityUnknown => String × Nat × Bool × String × Unit
  | .useAsFldOfReturn => String × String × Nat × Unit
  | .funcRetAssignDeep => String × Nat × Unit
  | .useAsNonErrorRetDependentOnErrorRetNilability => String × Nat × String × Nat × Bool × Unit

/-- The fields of a kind. All have to be given. -/
def schema : (t : Tag) → Schema t.Fields
  | .ptrLoad => .nil
  | .mapAccess => .nil
  | .mapWrittenTo => .nil
  | .sliceAccess => .nil
  | .fldAccess => .nil
  | .chanAccess => .nil
  | .deepAssignPrimitive => .nil
  | .localVarAssignDeep => .required "var_name" .text .nil
  | .useAsErrorResult =>
    .required "ret_num" .position <| .required "returning_func" .text <|
      .required "is_named_return" .bool <| .required "ret_name" .text .nil
  | .fldAssign => .required "field_name" .text .nil
  | .argFldPass =>
    .required "field_name" .text <| .required "func_name" .text <|
      .required "param_num" .position <| .required "is_receiver" .bool .nil
  | .globalVarAssign => .required "var_name" .text .nil
  | .argPass => .required "param_name" .text <| .required "func_name" .text .nil
  | .recvPass => .required "func_name" .text .nil
  | .interfaceResultFromImplementation =>
    .required "ret_num" .position <| .required "int_name" .text <| .required "impl_name" .text .nil
  | .methodParamFromInterface =>
    .required "param_name" .text <| .required "impl_name" .text <| .required "int_name" .text .nil
  | .useAsReturn =>
    .required "func_name" .text <| .required "ret_num" .position <|
      .required "is_named_return" .bool <| .required "ret_name" .text .nil
  | .useAsFldOfReturn =>
    .required "func_name" .text <| .required "field_name" .text <|
      .required "ret_num" .position .nil
  | .sliceAssign => .required "type_name" .text .nil
  | .arrayAssign => .required "type_name" .text .nil
  | .ptrAssign => .required "type_name" .text .nil
  | .mapAssign => .required "type_name" .text .nil
  | .chanSend => .required "type_name" .text .nil
  | .paramAssignDeep => .required "param_name" .text <| .required "func_name" .text .nil
  | .funcRetAssignDeep => .required "func_name" .text <| .required "ret_num" .position .nil
  | .variadicParamAssignDeep => .required "param_name" .text <| .required "func_name" .text .nil
  | .fieldAssignDeep => .required "field_name" .text .nil
  | .globalVarAssignDeep => .required "var_name" .text .nil
  | .fldEscape => .required "field_name" .text .nil
  | .useAsNonErrorRetDependentOnErrorRetNilability =>
    .required "func_name" .text <| .required "ret_num" .position <| .required "ret_name" .text <|
      .required "err_ret_num" .position <| .required "is_named_return" .bool .nil
  | .useAsErrorRetWithNilabilityUnknown =>
    .required "func_name" .text <| .required "ret_num" .position <|
      .required "is_named_return" .bool <| .required "ret_name" .text .nil

/-- Decodes the name of a kind. -/
def decode : Json → Except Problem Tag
  | .string s =>
    match ofName? s with
    | some t => .ok t
    | none => .error (.shape (.unknownKind s (all.map name)))
  | v => .error (v.unexpected .kind)

end Tag

namespace Payload

/-- The payload of a kind with the given fields. -/
def ofFields : (t : Tag) → t.Fields → Payload
  | .ptrLoad, () => .ptrLoad
  | .mapAccess, () => .mapAccess
  | .mapWrittenTo, () => .mapWrittenTo
  | .sliceAccess, () => .sliceAccess
  | .fldAccess, () => .fldAccess
  | .chanAccess, () => .chanAccess
  | .deepAssignPrimitive, () => .deepAssignPrimitive
  | .localVarAssignDeep, (var, ()) => .localVarAssignDeep var
  | .useAsErrorResult, (index, func, named, name, ()) => .useAsErrorResult index func named name
  | .fldAssign, (field, ()) => .fldAssign field
  | .argFldPass, (field, func, index, receiver, ()) => .argFldPass field func index receiver
  | .globalVarAssign, (var, ()) => .globalVarAssign var
  | .argPass, (param, func, ()) => .argPass param func
  | .recvPass, (func, ()) => .recvPass func
  | .interfaceResultFromImplementation, (index, interface, implementing, ()) =>
    .interfaceResultFromImplementation index interface implementing
  | .methodParamFromInterface, (param, implementing, interface, ()) =>
    .methodParamFromInterface param implementing interface
  | .useAsReturn, (func, index, named, name, ()) => .useAsReturn func index named name
  | .useAsFldOfReturn, (func, field, index, ()) => .useAsFldOfReturn func field index
  | .sliceAssign, (type, ()) => .sliceAssign type
  | .arrayAssign, (type, ()) => .arrayAssign type
  | .ptrAssign, (type, ()) => .ptrAssign type
  | .mapAssign, (type, ()) => .mapAssign type
  | .chanSend, (type, ()) => .chanSend type
  | .paramAssignDeep, (param, func, ()) => .paramAssignDeep param func
  | .funcRetAssignDeep, (func, index, ()) => .funcRetAssignDeep func index
  | .variadicParamAssignDeep, (param, func, ()) => .variadicParamAssignDeep param func
  | .fieldAssignDeep, (field, ()) => .fieldAssignDeep field
  | .globalVarAssignDeep, (var, ()) => .globalVarAssignDeep var
  | .fldEscape, (field, ()) => .fldEscape field
  | .useAsNonErrorRetDependentOnErrorRetNilability, (func, index, name, errorIndex, named, ()) =>
    .useAsNonErrorRetDependentOnErrorRetNilability func index name errorIndex named
  | .useAsErrorRetWithNilabilityUnknown, (func, index, named, name, ()) =>
    .useAsErrorRetWithNilabilityUnknown func index named name

/-- The fields of a payload. -/
def fields : (p : Payload) → p.tag.Fields
  | .ptrLoad => ()
  | .mapAccess => ()
  | .mapWrittenTo => ()
  | .sliceAccess => ()
  | .fldAccess => ()
  | .chanAccess => ()
  | .deepAssignPrimitive => ()
  | .localVarAssignDeep var => (var, ())
  | .useAsErrorResult index func named name => (index, func, named, name, ())
  | .fldAssign field => (field, ())
  | .argFldPass field func index receiver => (field, func, index, receiver, ())
  | .globalVarAssign var => (var, ())
  | .argPass param func => (param, func, ())
  | .recvPass func => (func, ())
  | .interfaceResultFromImplementation index interface implementing =>
    (index, interface, implementing, ())
  | .methodParamFromInterface param implementing interface => (param, implementing, interface, ())
  | .useAsReturn func index named name => (func, index, named, name, ())
  | .useAsFldOfReturn func field index => (func, field, index, ())
  | .sliceAssign type => (type, ())
  | .arrayAssign type => (type, ())
  | .ptrAssign type => (type, ())
  | .mapAssign type => (type, ())
  | .chanSend type => (type, ())
  | .paramAssignDeep param func => (param, func, ())
  | .funcRetAssignDeep func index => (func, index, ())
  | .variadicParamAssignDeep param func => (param, func, ())
  | .fieldAssignDeep field => (field, ())
  | .globalVarAssignDeep var => (var, ())
  | .fldEscape field => (field, ())
  | .useAsNonErrorRetDependentOnErrorRetNilability func index name errorIndex named =>
    (func, index, name, errorIndex, named, ())
  | .useAsErrorRetWithNilabilityUnknown func index named name => (func, index, named, name, ())

/-- A payload is made up of its tag and its fields. -/
theorem ofFields_fields (p : Payload) : ofFields p.tag p.fields = p := by
  cases p <;> rfl

/-- The key of the kind. -/
def kindKey : String := "kind"

/-- The levels of nesting allowed within a payload's own brackets. -/
def maxNesting : Nat := 126

/-- Reads the members of an object, the kind apart from the others. -/
def gather : Option Tag → List (String × Json) → Members →
    Except Problem (Tag × List (String × Json))
  | none, _, .done => .error (.shape (.missingField kindKey))
  | some t, others, .done => .ok (t, others.reverse)
  | kind, others, .cons (.text key) v rest =>
    if key = kindKey then
      match kind with
      | some _ => .error (.shape (.duplicateField kindKey))
      | none => do
        let t ← Tag.decode v
        gather (some t) others rest
    else
      match v.readFault maxNesting with
      | some f => .error (.text f)
      | none => gather kind ((key, v) :: others) rest
  | _, _, .cons (.flawed f) _ _ => .error (.text f)
  | _, _, .cut f _ => .error (.text f)
  | _, _, .stray _ => .error (.text .malformed)

/-- Decodes the fields of a kind from the elements of an array. Elements may neither lack nor be
left over. -/
def ofItems (t : Tag) (items : Items) : Except Problem Payload := do
  let (fields, rest) ←
    t.schema.takeItems (.fields ("variant Prestring::" ++ t.name) t.schema.width) 0 items
  match rest.toList.length with
  | 0 => return ofFields t fields
  | n => throw (.shape (.invalidLength (t.schema.width + n) (.elements t.schema.width)))

/-- Decodes a payload. -/
def decode : Json → Except Problem Payload
  | .object members => do
    let (t, others) ← gather none [] members
    let fields ← t.schema.ofMembers (Members.ofList others)
    return ofFields t fields
  | .array .done => .error (.shape (.missingField kindKey))
  | .array (.cut f _) => .error (.text f)
  | .array (.cons v rest) => do
    let t ← Tag.decode v
    match rest.readFault maxNesting with
    | some f => throw (.text f)
    | none => ofItems t rest
  | v => .error (v.unexpected (.tagged "Prestring"))

/-- Payloads. -/
def codec : Codec Payload where
  decode := decode
  encode p := .ofMembers ((kindKey, .string p.tag.name) :: p.tag.schema.members p.fields)

end Payload

end NilFlow
