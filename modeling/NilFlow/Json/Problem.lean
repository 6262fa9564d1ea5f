import NilFlow.Json.Quantity
import NilFlow.Decimal.Shortest
import NilFlow.Text.Quoted

/-!
# What can go wrong when JSON is decoded

Either the text is no JSON (`Problem.text`), or it is JSON so far but not of the wanted shape
(`Problem.shape`). Causes are data; their wording is in `Mismatch.message` and `Problem.message?`.
-/

namespace NilFlow

/-- A value that was found where another kind was wanted. -/
inductive Found where
  | null
  | boolean (b : Bool)
  | integer (i : Int)
  | real (x : Float)
  | text (s : String)
  | sequence
  | map

/-- What was wanted. -/
inductive Wanted where
  | text
  | boolean
  | sequence
  | unit
  /-- An unsigned word of 32 bits. -/
  | word32
  /-- An unsigned word of 64 bits. -/
  | word64
  /-- A position in a list, or a length. -/
  | position
  | record (name : String)
  /-- The fields of a record, given by position. -/
  | fields (record : String) (count : Nat)
  /-- No more elements than these. -/
  | elements (count : Nat)
  | tuple (size : Nat)
  /-- A record whose kind is one of its members. -/
  | tagged (name : String)
  /-- The name of a kind. -/
  | kind

/-- A shape that does not fit. -/
inductive Mismatch where
  | invalidType (found : Found) (wanted : Wanted)
  | invalidValue (found : Found) (wanted : Wanted)
  | invalidLength (given : Nat) (wanted : Wanted)
  | missingField (name : String)
  | duplicateField (name : String)
  | unknownKind (name : String) (known : List String)

/-- The first problem met when a text is decoded. -/
inductive Problem where
  | text (fault : Fault)
  | shape (mismatch : Mismatch)

/-- Doubles in messages are positional while the point stands within sixteen digits, or fewer than
five places before them. Exponents always show a sign. -/
def Found.realStyle : Decimal.Style where
  maxPoint := 16
  minPoint := -5
  plusSign := true

namespace Found

/-- How a found value is described. -/
def describe : Found → String
  | .null => "null"
  | .boolean true => "boolean `true`"
  | .boolean false => "boolean `false`"
  | .integer i => "integer `" ++ toString i ++ "`"
  | .real x => "floating point `" ++ String.ofList (realStyle.writeDouble x) ++ "`"
  | .text s => "string " ++ Text.quote s
  | .sequence => "sequence"
  | .map => "map"

end Found

/-- A counted noun, in the singular for one. -/
def counted (n : Nat) (noun : String) : String :=
  if n = 1 then "1 " ++ noun else toString n ++ " " ++ noun ++ "s"

/-- How a wanted value is described. -/
def Wanted.describe : Wanted → String
  | .text => "a string"
  | .boolean => "a boolean"
  | .sequence => "a sequence"
  | .unit => "unit"
  | .word32 => "u32"
  | .word64 => "u64"
  | .position => "usize"
  | .record name => "struct " ++ name
  | .fields name n => "struct " ++ name ++ " with " ++ counted n "element"
  | .elements n => counted n "element" ++ " in sequence"
  | .tuple n => "a tuple of size " ++ toString n
  | .tagged name => "internally tagged enum " ++ name
  | .kind => "variant identifier"

/-- The wording of a mismatch. -/
def Mismatch.message : Mismatch → String
  | .invalidType found wanted =>
    "invalid type: " ++ found.describe ++ ", expected " ++ wanted.describe
  | .invalidValue found wanted =>
    "invalid value: " ++ found.describe ++ ", expected " ++ wanted.describe
  | .invalidLength n wanted => "invalid length " ++ toString n ++ ", expected " ++ wanted.describe
  | .missingField name => "missing field `" ++ name ++ "`"
  | .duplicateField name => "duplicate field `" ++ name ++ "`"
  | .unknownKind name known =>
    "unknown variant `" ++ name ++ "`, expected one of "
      ++ ", ".intercalate (known.map fun k => "`" ++ k ++ "`")

/-- The wording of a problem. Only the kind of fault is kept of a text that is no JSON, which has no
wording of its own. -/
def Problem.message? : Problem → Option String
  | .text _ => none
  | .shape mismatch => some ("JSON error: " ++ mismatch.message)

/-- The problem of a value that is not of the wanted kind. A scalar has to be read before it can be
named; a bracket tells the kind at once. -/
def Json.unexpected (v : Json) (wanted : Wanted) : Problem :=
  match v with
  | .null => .shape (.invalidType .null wanted)
  | .bool b => .shape (.invalidType (.boolean b) wanted)
  | .number n =>
    match n.quantity? with
    | none => .text .malformed
    | some (.natural k) => .shape (.invalidType (.integer k) wanted)
    | some (.negative k) => .shape (.invalidType (.integer (-(k : Int))) wanted)
    | some (.real x) => .shape (.invalidType (.real x) wanted)
  | .string s => .shape (.invalidType (.text s) wanted)
  | .array _ => .shape (.invalidType .sequence wanted)
  | .object _ => .shape (.invalidType .map wanted)
  | .flawed f => .text f.whenRead

end NilFlow
