import NilFlow.Json.Basic

/-!
# Writing JSON texts

`Json.render` writes a whole value without blanks, members in their order. Quotes, backslashes and
controls in strings are escaped, everything else stands as it is. Flaws are written as nothing.
-/

namespace NilFlow

namespace Printer

/-- A hexadecimal digit, in lower case. -/
def hexChar (n : Nat) : Char :=
  if n < 10 then Char.ofNat ('0'.toNat + n) else Char.ofNat ('a'.toNat + (n - 10))

/-- How one character stands in a string. -/
def escapeChar (c : Char) : List Char :=
  if c = '"' then ['\\', '"']
  else if c = '\\' then ['\\', '\\']
  else if c = '\x08' then ['\\', 'b']
  else if c = '\x0c' then ['\\', 'f']
  else if c = '\n' then ['\\', 'n']
  else if c = '\r' then ['\\', 'r']
  else if c = '\t' then ['\\', 't']
  else if c < ' ' then ['\\', 'u', '0', '0', hexChar (c.toNat / 16), hexChar (c.toNat % 16)]
  else [c]

/-- A string with its quotes. -/
def string (s : String) : List Char :=
  '"' :: s.toList.flatMap escapeChar ++ ['"']

/-- A number. -/
def numeral (n : Numeral) : List Char :=
  let sign := if n.negative then ['-'] else []
  let fraction := if n.fraction.isEmpty then [] else '.' :: n.fraction.map Nat.digitChar
  let exponent := match n.exponent with
    | none => []
    | some (true, e) => 'e' :: '-' :: Nat.toDigits 10 e
    | some (false, e) => 'e' :: Nat.toDigits 10 e
  sign ++ Nat.toDigits 10 n.whole ++ fraction ++ exponent

mutual

/-- A value. -/
def value : Json → List Char
  | .null => ['n', 'u', 'l', 'l']
  | .bool true => ['t', 'r', 'u', 'e']
  | .bool false => ['f', 'a', 'l', 's', 'e']
  | .number n => numeral n
  | .string s => string s
  | .array vs => '[' :: items true vs
  | .object ms => '\x7b' :: members true ms
  | .flawed _ => []

/-- The elements and the closing bracket, with a comma before each element but the first. -/
def items (first : Bool) : Items → List Char
  | .done => [']']
  | .cons v rest => (if first then [] else [',']) ++ (value v ++ items false rest)
  | .cut _ _ => []

/-- The members and the closing brace, with a comma before each member but the first. -/
def members (first : Bool) : Members → List Char
  | .done => ['\x7d']
  | .cons (.text k) v rest =>
    (if first then [] else [',']) ++ (string k ++ ':' :: (value v ++ members false rest))
  | .cons (.flawed _) _ _ => []
  | .cut _ _ => []
  | .stray _ => []

end

end Printer

/-- The text of a value. -/
def Json.render (v : Json) : String :=
  String.ofList (Printer.value v)

end NilFlow
