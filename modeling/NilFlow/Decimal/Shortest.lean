/-!
# The shortest decimal that reads back as a given double

A finite positive double is `m · 2 ^ q`. The reals that round to it form an interval around it,
whose ends belong to it when `m` is even. For one digit, two digits and so on the two neighbours of
the double on that decimal grid are tried; the first grid with a neighbour in the interval gives the
answer, and of two such neighbours the nearer. All comparisons are between natural numbers.
-/

namespace NilFlow.Decimal

/-- A positive double as an integer times a power of two. -/
structure Binary where
  mantissa : Nat
  exponent : Int
  /-- The double just below is only half as far away as the one just above. -/
  closeBelow : Bool

/-- The leading digit of a mantissa, which a double does not store. -/
def hidden : Nat := Nat.pow 2 52

/-- The magnitude of a finite double, or `none` for zero. -/
def Binary.ofBits? (bits : UInt64) : Option Binary :=
  let biased : Nat := (bits.toNat / hidden) % Nat.pow 2 11
  let fraction : Nat := bits.toNat % hidden
  if biased = 0 then
    if fraction = 0 then none else some ⟨fraction, -1074, false⟩
  else some ⟨hidden + fraction, (biased : Int) - 1075, fraction = 0 && 1 < biased⟩

/-- Decimal digits `digits` times ten to the power `exponent`. -/
structure Scientific where
  digits : Nat
  exponent : Int
  deriving DecidableEq

namespace Binary

/-- Factors `(a, b)` such that `c · 10 ^ s` compares with `x` quarters of `2 ^ q` as `c · a` with
`x · b`. -/
def scale (v : Binary) (s : Int) : Nat × Nat :=
  let p := v.exponent - 2
  (Nat.pow 10 s.toNat * Nat.pow 2 (-p).toNat, Nat.pow 2 p.toNat * Nat.pow 10 (-s).toNat)

/-- The least `k` with the double below `10 ^ k`. -/
def magnitude (v : Binary) : Int :=
  let below (i : Nat) : Bool :=
    let (a, b) := v.scale ((i : Int) - 330)
    4 * v.mantissa * b < a
  ((List.range 680).find? below).elim 350 fun i => (i : Int) - 330

/-- Whether `c · 10 ^ s` rounds to the double. -/
def covers (v : Binary) (s : Int) (c : Nat) : Bool :=
  let (a, b) := v.scale s
  let low := (4 * v.mantissa - if v.closeBelow then 1 else 2) * b
  let high := (4 * v.mantissa + 2) * b
  if v.mantissa % 2 = 0 then low ≤ c * a && c * a ≤ high else low < c * a && c * a < high

/-- The better of the two neighbours on the grid of `n` digits, if one of them rounds to the double.
A tie goes to the even one. -/
def onGrid? (v : Binary) (n : Nat) : Option Scientific :=
  let s := v.magnitude - n
  let (a, b) := v.scale s
  let value := 4 * v.mantissa * b
  let lower := value / a
  let below := value - lower * a
  let above := (lower + 1) * a - value
  let nearer := if below < above || (below = above && lower % 2 = 0) then lower else lower + 1
  let farther := if nearer = lower then lower + 1 else lower
  if v.covers s nearer then some ⟨nearer, s⟩
  else if v.covers s farther then some ⟨farther, s⟩
  else none

end Binary

/-- The digits without their trailing zeros; each zero dropped raises the exponent by one. -/
def Scientific.trim (budget : Nat) (d : Scientific) : Scientific :=
  match budget with
  | 0 => d
  | budget + 1 =>
    if d.digits ≠ 0 ∧ d.digits % 10 = 0 then trim budget ⟨d.digits / 10, d.exponent + 1⟩ else d

/-- The shortest decimal that rounds to the double; seventeen digits always suffice. -/
def Binary.shortest (v : Binary) : Scientific :=
  (((List.range 17).findSome? fun i => v.onGrid? (i + 1)).getD ⟨v.mantissa, v.exponent⟩).trim 20

/-- How a decimal is written: positionally while the point stands in a window, else with an
exponent. -/
structure Style where
  /-- The point stands after at most this many digits. -/
  maxPoint : Int
  /-- The point stands before the first digit by fewer than this many places. -/
  minPoint : Int
  /-- A plus sign stands before exponents that are not negative. -/
  plusSign : Bool

/-- `n` in decimal digits. -/
def natText (n : Nat) : List Char :=
  Nat.toDigits 10 n

/-- Writes a decimal. Positional numbers always show a point. -/
def Style.write (st : Style) (d : Scientific) : List Char :=
  let ds := natText d.digits
  let point : Int := ds.length + d.exponent
  if 0 ≤ d.exponent ∧ point ≤ st.maxPoint then
    ds ++ List.replicate d.exponent.toNat '0' ++ ['.', '0']
  else if 0 < point ∧ point ≤ st.maxPoint then
    ds.take point.toNat ++ '.' :: ds.drop point.toNat
  else if st.minPoint < point ∧ point ≤ 0 then
    '0' :: '.' :: List.replicate (-point).toNat '0' ++ ds
  else
    let mark := if ds.length ≤ 1 then ds else ds.take 1 ++ '.' :: ds.drop 1
    let e := point - 1
    let sign := if e < 0 then ['-'] else if st.plusSign then ['+'] else []
    mark ++ 'e' :: sign ++ natText e.natAbs

/-- Writes a finite double with the fewest digits that read back. -/
def Style.writeDouble (st : Style) (x : Float) : List Char :=
  let bits := x.toBits
  let sign := if bits.toNat / Nat.pow 2 63 = 1 then ['-'] else []
  match Binary.ofBits? bits with
  | none => sign ++ ['0', '.', '0']
  | some v => sign ++ st.write v.shortest

end NilFlow.Decimal
