import NilFlow.Json.Quantity

/-!
# Values that are read before they are decoded

Some shapes can be told only after the whole value has been read. Such reading needs every string
and every number of the value, and it goes only so many brackets deep.
-/

namespace NilFlow

mutual

/-- The first fault met when a value is read whole, with `depth` levels of nesting left. -/
def Json.readFault (depth : Nat) : Json → Option Fault
  | .null | .bool _ | .string _ => none
  | .number n => if n.quantity?.isSome then none else some .malformed
  | .array items =>
    match depth with
    | 0 => some .malformed
    | depth + 1 => items.readFault depth
  | .object members =>
    match depth with
    | 0 => some .malformed
    | depth + 1 => members.readFault depth
  | .flawed f => some f.whenRead

/-- The first fault among the elements, or at the array's end. -/
def Items.readFault (depth : Nat) : Items → Option Fault
  | .done => none
  | .cons v rest => (v.readFault depth).or (rest.readFault depth)
  | .cut f _ => some f

/-- The first fault among the keys and values, or at the object's end. -/
def Members.readFault (depth : Nat) : Members → Option Fault
  | .done => none
  | .cons (.text _) v rest => (v.readFault depth).or (rest.readFault depth)
  | .cons (.flawed f) _ _ => some f
  | .cut f _ => some f
  | .stray _ => some .malformed

end

end NilFlow
