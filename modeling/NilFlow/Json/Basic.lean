/-!
# JSON texts, as far as they can be read

A text that breaks off or goes wrong still has a readable beginning, and whoever decodes it may find
an earlier problem there: a number where a name belongs is noticed before a bracket that is never
closed. `Json` is therefore a tree that keeps what was read and marks the place where reading had to
stop. A tree without such marks is `Whole`; it is then an ordinary JSON value, with members in text
order and repeated keys kept.

Some flaws are met only by a decoder that needs the value. Skipping an unwanted value looks at
brackets and quotes alone, so `Flaw.whenRead` and `Flaw.whenSkipped` may differ.
-/

namespace NilFlow

/-- Why a text is not JSON. -/
inductive Fault where
  /-- A character stands where the grammar has none like it. -/
  | malformed
  /-- The text ends too early. -/
  | truncated
  deriving DecidableEq

/-- A number as written: sign, integer part, digits after the point, and exponent with its sign. -/
structure Numeral where
  negative : Bool
  whole : Nat
  fraction : List Nat
  exponent : Option (Bool × Nat)
  deriving DecidableEq

/-- The numeral of a natural number. -/
def Numeral.ofNat (n : Nat) : Numeral where
  negative := false
  whole := n
  fraction := []
  exponent := none

/-- What stands in the place of a scalar that cannot be read. -/
inductive Flaw where
  /-- The text ends where a value should begin. -/
  | missing
  /-- No value begins with the character found. -/
  | stray
  /-- One of the words `null`, `true`, `false`, broken off or misspelt. -/
  | word (fault : Fault)
  /-- A number that breaks off or goes wrong; skipping does not tell the two apart. -/
  | number (fault : Fault)
  /-- A string that cannot be read. Skipping one does not pair its surrogates, and so may pass. -/
  | string (read : Fault) (skipped : Option Fault)
  deriving DecidableEq

/-- The fault met by a decoder that needs the value. -/
def Flaw.whenRead : Flaw → Fault
  | .missing => .truncated
  | .stray => .malformed
  | .word f => f
  | .number f => f
  | .string f _ => f

/-- The fault met when the value is passed over, if any. -/
def Flaw.whenSkipped : Flaw → Option Fault
  | .missing => some .truncated
  | .stray => some .malformed
  | .word f => some f
  | .number _ => some .malformed
  | .string _ f => f

/-- A member's key. Unreadable keys pass when the object is skipped. -/
inductive Key where
  | text (s : String)
  | flawed (fault : Fault)
  deriving DecidableEq

mutual

/-- A JSON value as far as its text could be read. -/
inductive Json where
  | null
  | bool (b : Bool)
  | number (n : Numeral)
  | string (s : String)
  | array (items : Items)
  | object (members : Members)
  | flawed (f : Flaw)

/-- The elements of an array, in order. -/
inductive Items where
  /-- The closing bracket. -/
  | done
  | cons (value : Json) (rest : Items)
  /-- The text goes wrong after an element, or after the comma that follows it. -/
  | cut (fault : Fault) (afterComma : Bool)

/-- The members of an object, in order. -/
inductive Members where
  /-- The closing brace. -/
  | done
  | cons (key : Key) (value : Json) (rest : Members)
  /-- The text goes wrong after a member, or after the comma that follows it. -/
  | cut (fault : Fault) (afterComma : Bool)
  /-- Something other than a string stands where the first key should. -/
  | stray (value : Json)

end

namespace Items

/-- The elements of a complete array. -/
def ofList : List Json → Items
  | [] => .done
  | v :: vs => .cons v (ofList vs)

/-- The elements that were read. -/
def toList : Items → List Json
  | .done => []
  | .cons v rest => v :: rest.toList
  | .cut _ _ => []

/-- Elements made from a list are those of the list. -/
@[simp] theorem toList_ofList (vs : List Json) : (ofList vs).toList = vs := by
  induction vs with
  | nil => rfl
  | cons v vs ih => simp [ofList, toList, ih]

end Items

namespace Members

/-- The members of a complete object. -/
def ofList : List (String × Json) → Members
  | [] => .done
  | (k, v) :: ms => .cons (.text k) v (ofList ms)

/-- The members that were read and have a readable key. -/
def toList : Members → List (String × Json)
  | .done => []
  | .cons (.text k) v rest => (k, v) :: rest.toList
  | .cons (.flawed _) _ rest => rest.toList
  | .cut _ _ => []
  | .stray _ => []

/-- Members made from a list are those of the list. -/
@[simp] theorem toList_ofList (ms : List (String × Json)) : (ofList ms).toList = ms := by
  induction ms with
  | nil => rfl
  | cons m ms ih => simp [ofList, toList, ih]

end Members

mutual

/-- No flaw anywhere: an ordinary JSON value. -/
def Json.Whole : Json → Prop
  | .null | .bool _ | .number _ | .string _ => True
  | .array items => items.Whole
  | .object members => members.Whole
  | .flawed _ => False

/-- Every element is whole and the array is closed. -/
def Items.Whole : Items → Prop
  | .done => True
  | .cons v rest => v.Whole ∧ rest.Whole
  | .cut _ _ => False

/-- Every key is readable, every value is whole, and the object is closed. -/
def Members.Whole : Members → Prop
  | .done => True
  | .cons (.text _) v rest => v.Whole ∧ rest.Whole
  | .cons (.flawed _) _ _ => False
  | .cut _ _ => False
  | .stray _ => False

end

mutual

/-- The first fault met when the value is passed over. Nesting has no limit here. -/
def Json.skipFault : Json → Option Fault
  | .null | .bool _ | .number _ | .string _ => none
  | .array items => items.skipFault
  | .object members => members.skipFault
  | .flawed f => f.whenSkipped

/-- The first fault among the elements, or at the array's end. -/
def Items.skipFault : Items → Option Fault
  | .done => none
  | .cons v rest => v.skipFault.or rest.skipFault
  | .cut f _ => some f

/-- The first fault among the values, or at the object's end. -/
def Members.skipFault : Members → Option Fault
  | .done => none
  | .cons _ v rest => v.skipFault.or rest.skipFault
  | .cut f _ => some f
  | .stray _ => some .malformed

end

namespace Json

/-- The array of the given values. -/
def ofItems (vs : List Json) : Json :=
  .array (Items.ofList vs)

/-- The object with the given members, in this order. -/
def ofMembers (ms : List (String × Json)) : Json :=
  .object (Members.ofList ms)

/-- The value of a key, if the value is an object that has it. -/
def get? (v : Json) (key : String) : Option Json :=
  match v with
  | .object members => (members.toList.find? (·.1 == key)).map (·.2)
  | _ => none

/-- The elements of an array; other values have none. -/
def elements : Json → List Json
  | .array items => items.toList
  | _ => []

end Json

/-- A text read from its beginning: one value, and a fault if something other than blanks follows
it. -/
structure Document where
  value : Json
  trailing : Option Fault

end NilFlow
