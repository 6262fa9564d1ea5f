import NilFlow.Decimal.Shortest

/-!
# Unquoted TOML scalars

Truth values, numbers, dates and times are told apart by their form: `ofToken?` reads a token, and
`none` means that it has no form of a scalar. Dates and times have to exist in the calendar and on
the clock.

A number of good form need not stand for anything. It may lack digits, have digits that are none, or
be too large: an integer has to fit 128 bits, signed or unsigned, and a float must not round to
infinity. Whether it has a value (`isValued`) is asked only of numbers that are used.
-/

namespace NilFlow.Toml

/-- A single value. -/
inductive Scalar where
  | boolean (b : Bool)
  | text (s : String)
  /-- An integer of a base, without sign and underscores. -/
  | integer (negative : Bool) (base : Nat) (digits : List Char)
  | float (negative : Bool) (magnitude : Decimal.Scientific)
  /-- An infinity, or what is not a number. -/
  | special (token : String)
  /-- A date, a time, or both, perhaps with an offset. -/
  | moment (token : String)
  deriving DecidableEq

/-- The value of a hexadecimal digit. -/
def hexDigit? (c : Char) : Option Nat :=
  if c.isDigit then some (c.toNat - '0'.toNat)
  else if 'a' ≤ c ∧ c ≤ 'f' then some (c.toNat - 'a'.toNat + 10)
  else if 'A' ≤ c ∧ c ≤ 'F' then some (c.toNat - 'A'.toNat + 10)
  else none

namespace Scalar

/-! ### Digits and signs -/

/-- A digit of a base between two and sixteen. -/
def isDigitOf (base : Nat) (c : Char) : Bool :=
  (hexDigit? c).any (· < base)

/-- The number that digits spell. Other characters count as zero. -/
def valueOf (base : Nat) (ds : List Char) : Nat :=
  ds.foldl (fun n c => base * n + (hexDigit? c).getD 0) 0

/-- Whether each underscore has a digit right before and after it. `before` says whether one stands
before the text. -/
def isGrouped (isDigit : Char → Bool) (before : Bool) : List Char → Bool
  | [] => true
  | c :: cs =>
    if c = '_' then before && cs.head?.any isDigit && isGrouped isDigit false cs
    else isGrouped isDigit (isDigit c) cs

/-- The text without its underscores. -/
def ungrouped (cs : List Char) : List Char :=
  cs.filter (· ≠ '_')

/-- The sign before a text, if there is one: whether it is a minus. -/
def sign? : List Char → Option Bool
  | '+' :: _ => some false
  | '-' :: _ => some true
  | _ => none

/-- The text without a sign before it. -/
def unsigned : List Char → List Char
  | '+' :: cs => cs
  | '-' :: cs => cs
  | cs => cs

/-! ### Integers -/

/-- An integer with a base mark, from after the mark. -/
def radix? (base : Nat) (cs : List Char) : Option Scalar :=
  if cs.all (fun c => isDigitOf base c || c = '_') && isGrouped (isDigitOf base) false cs then
    some (.integer false base (ungrouped cs))
  else none

/-- A decimal integer: digits to its end or to its first underscore, and no zero that leads
others. -/
def integer? (cs : List Char) : Option Scalar :=
  let body := unsigned cs
  let leads := match body.dropWhile Char.isDigit with
    | [] => !body.isEmpty
    | c :: _ => c = '_'
  if leads && (body == ['0'] || body.head? != some '0') && isGrouped (isDigitOf 16) false body then
    some (.integer ((sign? cs).getD false) 10 (ungrouped body))
  else none

/-! ### Floats -/

/-- Characters of a run of digits. -/
def inRun (c : Char) : Bool :=
  c.isDigit || c = '_'

/-- The digits of a run at the beginning, at least one, and the text after it. -/
def run? (cs : List Char) : Option (List Char × List Char) :=
  match ungrouped (cs.takeWhile inRun) with
  | [] => none
  | ds => some (ds, cs.dropWhile inRun)

/-- The digits after a point, if one comes first, and the text after them. -/
def fraction? : List Char → Option (List Char × List Char)
  | '.' :: cs => run? cs
  | cs => some ([], cs)

/-- The exponent that is all that is left; without one it is zero. -/
def exponent? : List Char → Option Int
  | [] => some 0
  | c :: cs => do
    let (ds, rest) ← run? (unsigned cs)
    let e : Int := valueOf 10 ds
    if (c = 'e' ∨ c = 'E') ∧ rest = [] then
      return if sign? cs = some true then -e else e
    else none

/-- A float with a fraction, an exponent or both. No zero leads other digits. -/
def float? (cs : List Char) : Option Scalar := do
  let body := unsigned cs
  let (whole, rest) ← run? body
  let (fraction, rest) ← fraction? rest
  let e ← exponent? rest
  if (whole.length = 1 ∨ body.head? ≠ some '0') ∧ isGrouped Char.isDigit false body then
    return .float ((sign? cs).getD false) ⟨valueOf 10 (whole ++ fraction), e - fraction.length⟩
  else none

/-- The marks of a fraction and an exponent. -/
def isFloatMark (c : Char) : Bool :=
  c = '.' || c = 'e' || c = 'E'

/-! ### Dates and times -/

/-- The number that `n` digits at the beginning spell, and the text after them. -/
def number? (n : Nat) (cs : List Char) : Option (Nat × List Char) :=
  let ds := cs.take n
  if ds.length = n ∧ ds.all Char.isDigit then some (valueOf 10 ds, cs.drop n) else none

/-- The text after one given character. -/
def after? (c : Char) : List Char → Option (List Char)
  | d :: cs => if c = d then some cs else none
  | [] => none

/-- The days of a month. -/
def daysIn (year month : Nat) : Nat :=
  if month = 2 then
    if year % 4 = 0 ∧ (year % 100 ≠ 0 ∨ year % 400 = 0) then 29 else 28
  else if month = 4 ∨ month = 6 ∨ month = 9 ∨ month = 11 then 30
  else 31

/-- The text after a date. -/
def date? (cs : List Char) : Option (List Char) := do
  let (year, cs) ← number? 4 cs
  let cs ← after? '-' cs
  let (month, cs) ← number? 2 cs
  let cs ← after? '-' cs
  let (day, cs) ← number? 2 cs
  if 1 ≤ month ∧ month ≤ 12 ∧ 1 ≤ day ∧ day ≤ daysIn year month then some cs else none

/-- The text after seconds with their mark, and after a fraction of them. A minute may have a leap
second. -/
def seconds? (cs : List Char) : Option (List Char) := do
  let cs ← after? ':' cs
  let (second, cs) ← number? 2 cs
  if second ≤ 60 then
    match cs with
    | '.' :: cs =>
      if (cs.takeWhile Char.isDigit).isEmpty then none else some (cs.dropWhile Char.isDigit)
    | cs => some cs
  else none

/-- The text after a time of day. Seconds may be left out. -/
def time? (cs : List Char) : Option (List Char) := do
  let (hour, cs) ← number? 2 cs
  let cs ← after? ':' cs
  let (minute, cs) ← number? 2 cs
  if hour ≤ 23 ∧ minute ≤ 59 then
    if cs.head? = some ':' then seconds? cs else some cs
  else none

/-- Whether an offset from universal time is all that is left. -/
def isOffset : List Char → Bool
  | ['Z'] | ['z'] => true
  | c :: cs =>
    (c = '+' || c = '-') &&
      match number? 2 cs with
      | some (hour, ':' :: cs) =>
        match number? 2 cs with
        | some (minute, []) => hour ≤ 23 && minute ≤ 59
        | _ => false
      | _ => false
  | [] => false

/-- The character between a date and a time. -/
def isTimeMark (c : Char) : Bool :=
  c = 'T' || c = 't' || c = ' '

/-- A date, a time, or a date and a time perhaps with an offset. -/
def isMoment (cs : List Char) : Bool :=
  match date? cs with
  | some [] => true
  | some (c :: cs) =>
    isTimeMark c &&
      match time? cs with
      | some rest => rest.isEmpty || isOffset rest
      | none => false
  | none => time? cs == some []

/-! ### Tokens -/

/-- Blanks, line ends and the marks around values. -/
def delimiters : List Char :=
  ['=', ',', '[', ']', '\x7b', '\x7d', '#', ' ', '\t', '\r', '\n']

/-- Characters of unquoted scalars. -/
def inScalar (c : Char) : Bool :=
  c ∉ delimiters

/-- The text of an unquoted scalar and the text after it. A date takes a time after a single
blank. -/
def span (cs : List Char) : List Char × List Char :=
  let token := cs.takeWhile inScalar
  let rest := cs.dropWhile inScalar
  match date? token, rest with
  | some [], ' ' :: c :: rest' =>
    if c.isDigit then
      (token ++ ' ' :: (c :: rest').takeWhile inScalar, (c :: rest').dropWhile inScalar)
    else (token, rest)
  | _, _ => (token, rest)

/-- The scalar that a number spells. A base mark comes after no sign. -/
def ofNumeral? : List Char → Option Scalar
  | '0' :: 'x' :: cs => radix? 16 cs
  | '0' :: 'o' :: cs => radix? 8 cs
  | '0' :: 'b' :: cs => radix? 2 cs
  | cs => if cs.any isFloatMark then float? cs else integer? cs

/-- The scalar that a token spells. -/
def ofToken? (cs : List Char) : Option Scalar :=
  if cs = ['t', 'r', 'u', 'e'] then some (.boolean true)
  else if cs = ['f', 'a', 'l', 's', 'e'] then some (.boolean false)
  else if unsigned cs ∈ [['i', 'n', 'f'], ['n', 'a', 'n']] then some (.special (String.ofList cs))
  else if isMoment cs then some (.moment (String.ofList cs))
  else ofNumeral? cs

/-! ### Values -/

/-- The largest integer plus one. -/
def integerBound : Nat := Nat.pow 2 128

/-- The magnitude of the least integer. -/
def leastMagnitude : Nat := Nat.pow 2 127

/-- The least magnitude that rounds to infinity: half a step above the largest double. -/
def floatBound : Nat := Nat.pow 2 1024 - Nat.pow 2 970

/-- Whether a decimal rounds to a finite double. A number of at most 308 integer digits does and one
of more than 309 does not, so that only the others need to be computed. -/
def isFinite (d : Decimal.Scientific) : Bool :=
  let places : Int := (Nat.toDigits 10 d.digits).length + d.exponent
  d.digits = 0 || places ≤ 308 ||
    (places ≤ 309 &&
      d.digits * Nat.pow 10 d.exponent.toNat < floatBound * Nat.pow 10 (-d.exponent).toNat)

/-- Whether a scalar stands for a value. -/
def isValued : Scalar → Bool
  | .integer negative base digits =>
    !digits.isEmpty && digits.all (isDigitOf base) &&
      if negative then valueOf base digits ≤ leastMagnitude else valueOf base digits < integerBound
  | .float _ magnitude => isFinite magnitude
  | .boolean _ | .text _ | .special _ | .moment _ => true

end Scalar

end NilFlow.Toml
