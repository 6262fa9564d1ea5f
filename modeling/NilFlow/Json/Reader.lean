import NilFlow.Json.Basic

/-!
# Reading JSON texts

`Document.read` turns any text into a tree. Reading goes from left to right and stops at the first
place that even skipping cannot pass; everything before it is kept.

Strings are scanned one character at a time into pieces, escapes resolved but surrogates still
apart; `join` then pairs the surrogates. The functions for values carry a budget that is never used
up: three steps for each character are enough, since of any three in a row one takes a character.
-/

namespace NilFlow

namespace Reader

/-- Blanks between tokens. -/
def isBlank (c : Char) : Bool :=
  c = ' ' || c = '\t' || c = '\n' || c = '\r'

/-- The text after its leading blanks. -/
def skipBlanks (cs : List Char) : List Char :=
  cs.dropWhile isBlank

/-- The value of a hexadecimal digit of either case. -/
def hexDigit? (c : Char) : Option Nat :=
  if '0' ≤ c ∧ c ≤ '9' then some (c.toNat - '0'.toNat)
  else if 'a' ≤ c ∧ c ≤ 'f' then some (c.toNat - 'a'.toNat + 10)
  else if 'A' ≤ c ∧ c ≤ 'F' then some (c.toNat - 'A'.toNat + 10)
  else none

/-! ### Strings -/

/-- One unit of a string's content. -/
inductive Piece where
  /-- A character, written as itself or by a one-letter escape. -/
  | char (c : Char)
  /-- A 16-bit unit, written by its four hexadecimal digits. -/
  | unit (n : Nat)
  deriving DecidableEq

/-- How the scan of a string ends. -/
inductive Ending where
  /-- At the closing quote, with the text after it. -/
  | closed (rest : List Char)
  | broken (fault : Fault)
  deriving DecidableEq

/-- Where the scan stands between two characters. -/
inductive Mode where
  | plain
  /-- After a backslash. -/
  | escape
  /-- Inside an escape by number: digits still owed, and the value so far. -/
  | hex (owed value : Nat)
  deriving DecidableEq

/-- The character that a one-letter escape stands for. -/
def shortEscape? : Char → Option Char
  | '"' => some '"'
  | '\\' => some '\\'
  | '/' => some '/'
  | 'b' => some '\x08'
  | 'f' => some '\x0c'
  | 'n' => some '\n'
  | 'r' => some '\r'
  | 't' => some '\t'
  | _ => none

/-- Whether the text still has `n` bytes. -/
def hasBytes : Nat → List Char → Bool
  | 0, _ => true
  | _ + 1, [] => false
  | n + 1, c :: cs => hasBytes (n + 1 - c.utf8Size) cs

/-- The pieces of a string, from after its opening quote, and how it ends. An escape by number is
cut off if fewer than four bytes follow it, whatever they are. -/
def scan : Mode → List Char → List Piece × Ending
  | _, [] => ([], .broken .truncated)
  | .plain, c :: cs =>
    if c = '"' then ([], .closed cs)
    else if c = '\\' then scan .escape cs
    else if c < ' ' then ([], .broken .malformed)
    else
      let (ps, e) := scan .plain cs
      (.char c :: ps, e)
  | .escape, c :: cs =>
    if c = 'u' then
      if hasBytes 4 cs then scan (.hex 4 0) cs else ([], .broken .truncated)
    else
      match shortEscape? c with
      | some d =>
        let (ps, e) := scan .plain cs
        (.char d :: ps, e)
      | none => ([], .broken .malformed)
  | .hex owed value, c :: cs =>
    match hexDigit? c with
    | none => ([], .broken .malformed)
    | some d =>
      if owed ≤ 1 then
        let (ps, e) := scan .plain cs
        (.unit (16 * value + d) :: ps, e)
      else scan (.hex (owed - 1) (16 * value + d)) cs

/-- The fault of an unpaired first surrogate: a text that ends there might still have brought the
second. -/
def Ending.afterFirstSurrogate : Ending → Fault
  | .closed _ => .malformed
  | .broken f => f

/-- The characters that the pieces spell, with each pair of surrogates made one character. The first
unpaired surrogate is a fault; else the string is as good as its ending. -/
def join : List Piece → Ending → Except Fault (List Char)
  | [], .closed _ => .ok []
  | [], .broken f => .error f
  | .char c :: ps, e => do
    let cs ← join ps e
    return c :: cs
  | .unit n :: ps, e =>
    if n < 0xD800 || 0xDFFF < n then do
      let cs ← join ps e
      return Char.ofNat n :: cs
    else if 0xDC00 ≤ n then .error .malformed
    else
      match ps with
      | [] => .error e.afterFirstSurrogate
      | .char _ :: _ => .error .malformed
      | .unit m :: ps =>
        if m < 0xDC00 || 0xDFFF < m then .error .malformed
        else do
          let cs ← join ps e
          return Char.ofNat (0x10000 + (n - 0xD800) * 0x400 + (m - 0xDC00)) :: cs

/-! ### Numbers -/

/-- The digits at the beginning of a text, and the text after them. -/
def digits (cs : List Char) : List Nat × List Char :=
  ((cs.takeWhile Char.isDigit).map fun c => c.toNat - '0'.toNat, cs.dropWhile Char.isDigit)

/-- The number that a list of decimal digits spells. -/
def ofDigits (ds : List Nat) : Nat :=
  ds.foldl (fun n d => 10 * n + d) 0

/-- What is missing where a digit should stand. -/
def digitFault : List Char → Fault
  | [] => .truncated
  | _ :: _ => .malformed

/-- The integer part: a zero alone, or digits that do not begin with one. -/
def readWhole (cs : List Char) : Except Fault (Nat × List Char) :=
  match digits cs with
  | ([], rest) => .error (digitFault rest)
  | (0 :: _ :: _, _) => .error .malformed
  | (ds, rest) => .ok (ofDigits ds, rest)

/-- The digits after a point, if there is one. -/
def readFraction : List Char → Except Fault (List Nat × List Char)
  | '.' :: cs =>
    match digits cs with
    | ([], rest) => .error (digitFault rest)
    | (ds, rest) => .ok (ds, rest)
  | cs => .ok ([], cs)

/-- The sign of an exponent. -/
def readSign : List Char → Bool × List Char
  | '+' :: cs => (false, cs)
  | '-' :: cs => (true, cs)
  | cs => (false, cs)

/-- The exponent, if there is one. -/
def readExponent : List Char → Except Fault (Option (Bool × Nat) × List Char)
  | [] => .ok (none, [])
  | c :: cs =>
    if c = 'e' || c = 'E' then
      let (negative, cs) := readSign cs
      match digits cs with
      | ([], rest) => .error (digitFault rest)
      | (ds, rest) => .ok (some (negative, ofDigits ds), rest)
    else .ok (none, c :: cs)

/-- A number at the beginning of a text. -/
def readNumeral (cs : List Char) : Except Fault (Numeral × List Char) := do
  let (negative, cs) := match cs with
    | '-' :: cs => (true, cs)
    | cs => (false, cs)
  let (whole, cs) ← readWhole cs
  let (fraction, cs) ← readFraction cs
  let (exponent, cs) ← readExponent cs
  return (⟨negative, whole, fraction, exponent⟩, cs)

/-! ### Values -/

/-- The rest of a word, after its first letter. -/
def readWord (value : Json) : List Char → List Char → Json × Option (List Char)
  | [], cs => (value, some cs)
  | _ :: _, [] => (.flawed (.word .truncated), none)
  | w :: ws, c :: cs => if w = c then readWord value ws cs else (.flawed (.word .malformed), none)

/-- A string, from after its opening quote. -/
def readString (cs : List Char) : Json × Option (List Char) :=
  let (ps, e) := scan .plain cs
  match join ps e, e with
  | .ok s, .closed rest => (.string (String.ofList s), some rest)
  | .ok _, .broken f => (.flawed (.string f (some f)), none)
  | .error f, .closed rest => (.flawed (.string f none), some rest)
  | .error f, .broken g => (.flawed (.string f (some g)), none)

mutual

/-- The value at the beginning of a text, and the text after it unless reading stops there. -/
def value (budget : Nat) (cs : List Char) : Json × Option (List Char) :=
  match budget with
  | 0 => (.flawed .missing, none)
  | budget + 1 =>
    match skipBlanks cs with
    | [] => (.flawed .missing, none)
    | c :: rest =>
      if c = '"' then readString rest
      else if c = '[' then
        let (items, rest) := items budget true rest
        (.array items, rest)
      else if c = '\x7b' then
        let (members, rest) := members budget true rest
        (.object members, rest)
      else if c = 'n' then readWord .null ['u', 'l', 'l'] rest
      else if c = 't' then readWord (.bool true) ['r', 'u', 'e'] rest
      else if c = 'f' then readWord (.bool false) ['a', 'l', 's', 'e'] rest
      else if c = '-' || c.isDigit then
        match readNumeral (c :: rest) with
        | .ok (n, rest) => (.number n, some rest)
        | .error f => (.flawed (.number f), none)
      else (.flawed .stray, none)

/-- The elements that follow, from after the opening bracket (`first`) or after an element. -/
def items (budget : Nat) (first : Bool) (cs : List Char) : Items × Option (List Char) :=
  match budget with
  | 0 => (.cut .truncated false, none)
  | budget + 1 =>
    match skipBlanks cs with
    | [] => (.cut .truncated false, none)
    | c :: rest =>
      if c = ']' then (.done, some rest)
      else if first then element budget (c :: rest)
      else if c = ',' then
        match skipBlanks rest with
        | [] => (.cut .truncated true, none)
        | d :: rest => if d = ']' then (.cut .malformed true, none) else element budget (d :: rest)
      else (.cut .malformed false, none)

/-- One element and those after it. -/
def element (budget : Nat) (cs : List Char) : Items × Option (List Char) :=
  match budget with
  | 0 => (.cut .truncated false, none)
  | budget + 1 =>
    match value budget cs with
    | (v, none) => (.cons v (.cut .truncated false), none)
    | (v, some rest) =>
      let (vs, rest) := items budget false rest
      (.cons v vs, rest)

/-- The members that follow, from after the opening brace (`first`) or after a member. -/
def members (budget : Nat) (first : Bool) (cs : List Char) : Members × Option (List Char) :=
  match budget with
  | 0 => (.cut .truncated false, none)
  | budget + 1 =>
    match skipBlanks cs with
    | [] => (.cut .truncated false, none)
    | c :: rest =>
      if c = '\x7d' then (.done, some rest)
      else if first then
        if c = '"' then member budget rest
        else (.stray (value budget (c :: rest)).1, none)
      else if c = ',' then
        match skipBlanks rest with
        | [] => (.cut .truncated true, none)
        | d :: rest => if d = '"' then member budget rest else (.cut .malformed true, none)
      else (.cut .malformed false, none)

/-- One member, from after the opening quote of its key, and those after it. -/
def member (budget : Nat) (cs : List Char) : Members × Option (List Char) :=
  match budget with
  | 0 => (.cut .truncated false, none)
  | budget + 1 =>
    let (ps, e) := scan .plain cs
    let key := match join ps e with
      | .ok s => Key.text (String.ofList s)
      | .error f => Key.flawed f
    match e with
    | .broken f => (.cons key (.flawed (.string f (some f))) (.cut f false), none)
    | .closed rest =>
      match skipBlanks rest with
      | [] => (.cons key (.flawed .missing) (.cut .truncated false), none)
      | c :: rest =>
        if c = ':' then
          match value budget rest with
          | (v, none) => (.cons key v (.cut .truncated false), none)
          | (v, some rest) =>
            let (ms, rest) := members budget false rest
            (.cons key v ms, rest)
        else (.cons key (.flawed .stray) (.cut .malformed false), none)

end

end Reader

/-- Reads a text. -/
def Document.read (text : String) : Document :=
  let cs := text.toList
  match Reader.value (3 * cs.length + 3) cs with
  | (v, none) => ⟨v, none⟩
  | (v, some rest) => ⟨v, if (Reader.skipBlanks rest).isEmpty then none else some .malformed⟩

end NilFlow
