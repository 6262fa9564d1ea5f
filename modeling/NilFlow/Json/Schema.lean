import NilFlow.Json.Codec

/-!
# Records

A schema lists the fields of a record in order, each with its name, its codec and perhaps a default.
A record is written as an object of all its fields. It is read from an object with its members in
any order, where keys that name no field are passed over, or from an array of its fields in order,
where fields at the end that have a default may be left out.

Fields are decoded as they are met, so the first problem in text order is the one reported. A field
given twice is noticed at its second key, before the value there is read; a missing field is noticed
at the closing brace.
-/

namespace NilFlow

/-- The fields of a record, whose values together form a `ρ`. -/
inductive Schema : Type → Type 1 where
  | nil : Schema Unit
  | field {α ρ : Type} (name : String) (codec : Codec α) (default : Option α) (rest : Schema ρ) :
      Schema (α × ρ)

namespace Schema

/-- A field that has to be given. -/
def required {α ρ : Type} (name : String) (codec : Codec α) (rest : Schema ρ) : Schema (α × ρ) :=
  .field name codec none rest

/-- A field that may be left out. -/
def optional {α ρ : Type} (name : String) (codec : Codec α) (default : α) (rest : Schema ρ) :
    Schema (α × ρ) :=
  .field name codec (some default) rest

/-- The names of the fields, in order. -/
def names : {ρ : Type} → Schema ρ → List String
  | _, .nil => []
  | _, .field name _ _ rest => name :: rest.names

/-- The number of fields. -/
def width {ρ : Type} (s : Schema ρ) : Nat :=
  s.names.length

/-- The fields that have been met so far. -/
def Draft : {ρ : Type} → Schema ρ → Type
  | _, .nil => Unit
  | _, @Schema.field α _ _ _ _ rest => Option α × rest.Draft

/-- Nothing met yet. -/
def blank : {ρ : Type} → (s : Schema ρ) → s.Draft
  | _, .nil => ()
  | _, .field _ _ _ rest => (none, rest.blank)

/-- Takes one member of an object. -/
def put : {ρ : Type} → (s : Schema ρ) → s.Draft → String → Json → Except Problem s.Draft
  | _, .nil, _, _, v =>
    match v.skipFault with
    | some f => .error (.text f)
    | none => .ok ()
  | _, .field name codec _ rest, draft, key, v =>
    if key = name then
      match draft.1 with
      | some _ => .error (.shape (.duplicateField name))
      | none => do
        let a ← codec.decode v
        return (some a, draft.2)
    else do
      let others ← rest.put draft.2 key v
      return (draft.1, others)

/-- Takes the members of an object in order. -/
def putAll {ρ : Type} (s : Schema ρ) : s.Draft → Members → Except Problem s.Draft
  | draft, .done => .ok draft
  | draft, .cons (.text key) v rest => do
    let draft ← s.put draft key v
    s.putAll draft rest
  | _, .cons (.flawed f) _ _ => .error (.text f)
  | _, .cut f _ => .error (.text f)
  | _, .stray _ => .error (.text .malformed)

/-- The record, once every member has been met. -/
def finish : {ρ : Type} → (s : Schema ρ) → s.Draft → Except Problem ρ
  | _, .nil, _ => .ok ()
  | _, .field name _ default rest, draft =>
    match draft.1.or default with
    | none => .error (.shape (.missingField name))
    | some a => do
      let r ← rest.finish draft.2
      return (a, r)

/-- Decodes the members of an object. -/
def ofMembers {ρ : Type} (s : Schema ρ) (members : Members) : Except Problem ρ := do
  let draft ← s.putAll s.blank members
  s.finish draft

/-- Takes the fields in order from the elements of an array, the first of them at position `index`,
and gives back the elements that are left. -/
def takeItems : {ρ : Type} → Schema ρ → Wanted → Nat → Items → Except Problem (ρ × Items)
  | _, .nil, _, _, items => .ok ((), items)
  | _, .field _ codec _ rest, wanted, index, .cons v items => do
    let a ← codec.decode v
    let (r, items) ← rest.takeItems wanted (index + 1) items
    return ((a, r), items)
  | _, .field _ _ default rest, wanted, index, .done =>
    match default with
    | none => .error (.shape (.invalidLength index wanted))
    | some a => do
      let (r, items) ← rest.takeItems wanted (index + 1) .done
      return ((a, r), items)
  | _, .field _ _ _ _, _, _, .cut f _ => .error (.text f)

/-- The closing bracket has to come now. -/
def close : Items → Except Problem Unit
  | .done => .ok ()
  | .cons _ _ => .error (.text .malformed)
  | .cut f afterComma => .error (.text (if afterComma then .malformed else f))

/-- Decodes the elements of an array. -/
def ofItems {ρ : Type} (s : Schema ρ) (wanted : Wanted) (items : Items) : Except Problem ρ := do
  let (r, items) ← s.takeItems wanted 0 items
  close items
  return r

/-- The members of the object that a record is written as. -/
def members : {ρ : Type} → Schema ρ → ρ → List (String × Json)
  | _, .nil, () => []
  | _, .field name codec _ rest, (a, r) => (name, codec.encode a) :: rest.members r

/-- The codec of the records called `name`. -/
def record {ρ β : Type} (s : Schema ρ) (name : String) (ofFields : ρ → β) (toFields : β → ρ) :
    Codec β where
  decode
    | .object members => ofFields <$> s.ofMembers members
    | .array items => ofFields <$> s.ofItems (.fields name s.width) items
    | v => .error (v.unexpected (.record name))
  encode b := .ofMembers (s.members (toFields b))

end Schema

end NilFlow
