import Mathlib.Data.List.Basic
import NilFlow.Json.Codec

/-!
# Reading printed texts

What `Json.render` writes is read back as the value that was written, if the value is whole and the
numbers in it are made of decimal digits (`Json.Plain`); this is `Json.read_render`.

Strings come back character by character: however a character is escaped, it is scanned as one piece
that spells it (`exists_scan_escapeChar`).  A number ends where the text goes on with a comma or a
closing bracket, or ends itself (`Ends`), and each of its parts is read back before the next one.
Values, elements and members are then treated together, along the tree.  The budget of the reader is
three steps for each character printed.
-/

namespace NilFlow

/-- The digits after the point are decimal digits. -/
def Numeral.Decimal (n : Numeral) : Prop :=
  ∀ d ∈ n.fraction, d < 10

/-- A whole number has no digits after the point. -/
lemma Numeral.decimal_ofNat (n : Nat) : (Numeral.ofNat n).Decimal := nofun

mutual

/-- No flaw anywhere, and only numbers of decimal digits. -/
def Json.Plain : Json → Prop
  | .null | .bool _ | .string _ => True
  | .number n => n.Decimal
  | .array items => items.Plain
  | .object members => members.Plain
  | .flawed _ => False

/-- Every element is plain and the array is closed. -/
def Items.Plain : Items → Prop
  | .done => True
  | .cons v rest => v.Plain ∧ rest.Plain
  | .cut _ _ => False

/-- Every key is readable, every value is plain, and the object is closed. -/
def Members.Plain : Members → Prop
  | .done => True
  | .cons (.text _) v rest => v.Plain ∧ rest.Plain
  | .cons (.flawed _) _ _ => False
  | .cut _ _ => False
  | .stray _ => False

end

mutual

/-- Plain values are whole. -/
theorem Json.Plain.whole : (v : Json) → v.Plain → v.Whole
  | .null, _ | .bool _, _ | .number _, _ | .string _, _ => by rw [Json.Whole]; trivial
  | .array items, h => by
    rw [Json.Plain] at h
    rw [Json.Whole]
    exact Items.Plain.whole items h
  | .object ms, h => by
    rw [Json.Plain] at h
    rw [Json.Whole]
    exact Members.Plain.whole ms h
  | .flawed _, h => by
    rw [Json.Plain] at h
    exact h.elim

/-- Plain elements are whole. -/
theorem Items.Plain.whole : (items : Items) → items.Plain → items.Whole
  | .done, _ => by rw [Items.Whole]; trivial
  | .cons v rest, h => by
    rw [Items.Plain] at h
    rw [Items.Whole]
    exact ⟨Json.Plain.whole v h.1, Items.Plain.whole rest h.2⟩
  | .cut _ _, h => by
    rw [Items.Plain] at h
    exact h.elim

/-- Plain members are whole. -/
theorem Members.Plain.whole : (ms : Members) → ms.Plain → ms.Whole
  | .done, _ => by rw [Members.Whole]; trivial
  | .cons (.text _) v rest, h => by
    rw [Members.Plain] at h
    rw [Members.Whole]
    exact ⟨Json.Plain.whole v h.1, Members.Plain.whole rest h.2⟩
  | .cons (.flawed _) _ _, h | .cut _ _, h | .stray _, h => by
    rw [Members.Plain] at h
    exact h.elim

end

/-- An array of plain values is plain. -/
lemma Json.plain_ofItems {vs : List Json} (hvs : ∀ v ∈ vs, v.Plain) : (Json.ofItems vs).Plain := by
  rw [ofItems, Json.Plain]
  induction vs with
  | nil =>
    rw [Items.ofList, Items.Plain]
    trivial
  | cons v vs ih =>
    obtain ⟨hv, hvs⟩ := List.forall_mem_cons.mp hvs
    rw [Items.ofList, Items.Plain]
    exact ⟨hv, ih hvs⟩

/-- An object of plain values is plain. -/
lemma Json.plain_ofMembers {ms : List (String × Json)} (hms : ∀ m ∈ ms, m.2.Plain) :
    (Json.ofMembers ms).Plain := by
  rw [ofMembers, Json.Plain]
  induction ms with
  | nil =>
    rw [Members.ofList, Members.Plain]
    trivial
  | cons m ms ih =>
    obtain ⟨hm, hms⟩ := List.forall_mem_cons.mp hms
    rw [Members.ofList, Members.Plain]
    exact ⟨hm, ih hms⟩

/-! ### Strings -/

namespace Reader

open Printer (hexChar escapeChar)

/-- A hexadecimal digit is read back. -/
lemma hexDigit?_hexChar : ∀ d < 16, hexDigit? (hexChar d) = some d := by
  decide

/-- A hexadecimal digit is one byte. -/
lemma utf8Size_hexChar : ∀ d < 16, (hexChar d).utf8Size = 1 := by
  decide

/-- A control character is scanned as the unit with its number. -/
lemma scan_control {c : Char} (hc : c < ' ') (cs : List Char) :
    scan .plain
        ('\\' :: 'u' :: '0' :: '0' :: hexChar (c.toNat / 16) :: hexChar (c.toNat % 16) :: cs) =
      (.unit c.toNat :: (scan .plain cs).1, (scan .plain cs).2) := by
  have hlt : c.toNat < 32 := hc
  have hhigh : c.toNat / 16 < 16 := by omega
  have hlow : c.toNat % 16 < 16 := by omega
  have hzero : hexDigit? '0' = some 0 := by decide
  have hsize : '0'.utf8Size = 1 := by decide
  have hvalue : 16 * (c.toNat / 16) + c.toNat % 16 = c.toNat := by omega
  simp [scan, hasBytes, utf8Size_hexChar _ hhigh, utf8Size_hexChar _ hlow,
    hexDigit?_hexChar _ hhigh, hexDigit?_hexChar _ hlow, hzero, hsize, hvalue]

/-- A unit below the surrogates spells a character by itself. -/
lemma join_unit {n : Nat} (hn : n < 0xD800) (ps : List Piece) (e : Ending) :
    join (.unit n :: ps) e = (Char.ofNat n :: ·) <$> join ps e := by
  have hunit : (decide (n < 0xD800) || decide (0xDFFF < n)) = true := by simp [hn]
  rw [join.eq_def]
  exact if_pos hunit

/-- However a character is escaped, it is scanned as one piece that spells it. -/
lemma exists_scan_escapeChar (c : Char) : ∃ p : Piece,
    (∀ cs, scan .plain (escapeChar c ++ cs) = (p :: (scan .plain cs).1, (scan .plain cs).2)) ∧
      ∀ ps e, join (p :: ps) e = (c :: ·) <$> join ps e := by
  -- The cases are those of `escapeChar`: seven short escapes, the other controls, and the rest.
  rw [escapeChar]
  split_ifs with hquote hslash hback hfeed hline hreturn htab hcontrol
  iterate 7
    · subst c
      exact ⟨.char _, fun cs => rfl, fun ps e => rfl⟩
  · have hlt : c.toNat < 32 := hcontrol
    refine ⟨.unit c.toNat, scan_control hcontrol, fun ps e => ?_⟩
    rw [join_unit (by omega), Char.ofNat_toNat]
  · refine ⟨.char c, fun cs => ?_, fun ps e => rfl⟩
    simp [scan, hquote, hslash, hcontrol]

/-- An escaped string is scanned up to its closing quote, and its pieces spell it. -/
lemma exists_scan_string (cs rest : List Char) : ∃ ps : List Piece,
    scan .plain (cs.flatMap escapeChar ++ '"' :: rest) = (ps, .closed rest) ∧
      join ps (.closed rest) = .ok cs := by
  induction cs with
  | nil => exact ⟨[], rfl, rfl⟩
  | cons c cs ih =>
    obtain ⟨ps, hscan, hjoin⟩ := ih
    obtain ⟨p, hscan', hjoin'⟩ := exists_scan_escapeChar c
    refine ⟨p :: ps, ?_, ?_⟩
    · rw [List.flatMap_cons, List.append_assoc, hscan', hscan]
    · rw [hjoin', hjoin]
      rfl

/-- A printed string is read back. -/
lemma readString_print (s : String) (rest : List Char) :
    readString (s.toList.flatMap escapeChar ++ '"' :: rest) = (.string s, some rest) := by
  obtain ⟨ps, hscan, hjoin⟩ := exists_scan_string s.toList rest
  simp only [readString, hscan, hjoin, String.ofList_toList]

/-! ### Numbers -/

/-- The digits at the beginning of a text are all of its digits up to the first other character. -/
lemma digits_append {cs rest : List Char} (hcs : ∀ c ∈ cs, c.isDigit = true)
    (hrest : ∀ c ∈ rest.head?, c.isDigit = false) :
    digits (cs ++ rest) = (cs.map fun c => c.toNat - '0'.toNat, rest) := by
  have htake : rest.takeWhile Char.isDigit = [] := by
    cases rest with
    | nil => rfl
    | cons c rest => simp [hrest c rfl]
  have hdrop : rest.dropWhile Char.isDigit = rest := by
    cases rest with
    | nil => rfl
    | cons c rest => simp [hrest c rfl]
  rw [digits, List.takeWhile_append_of_pos hcs, List.dropWhile_append_of_pos hcs, htake, hdrop,
    List.append_nil]

/-- Only the character zero has the value zero. -/
lemma eq_zero_of_digit {c : Char} (hc : c.isDigit = true) (hzero : c.toNat - '0'.toNat = 0) :
    c = '0' := by
  have hlow : '0'.toNat ≤ c.toNat := by
    simp only [Char.isDigit, Bool.and_eq_true, decide_eq_true_eq] at hc
    exact hc.1
  exact Char.toNat_inj.mp (by omega)

/-- A number is written with digits only. -/
lemma isDigit_toDigits (n : Nat) : ∀ c ∈ Nat.toDigits 10 n, c.isDigit = true :=
  fun _ => Nat.isDigit_of_mem_toDigits (by decide) (by decide)

/-- A number is written with at least one digit. -/
lemma exists_toDigits (n : Nat) : ∃ c cs, Nat.toDigits 10 n = c :: cs ∧ c.isDigit = true := by
  cases hn : Nat.toDigits 10 n with
  | nil => exact absurd hn Nat.toDigits_ne_nil
  | cons c cs => exact ⟨c, cs, rfl, isDigit_toDigits n c (hn ▸ List.mem_cons_self)⟩

/-- The digits of a number spell it. -/
lemma ofDigits_toDigits (n : Nat) :
    ofDigits ((Nat.toDigits 10 n).map fun c => c.toNat - '0'.toNat) = n := by
  rw [ofDigits, List.foldl_map, ← Nat.ofDigitChars_eq_foldl, Nat.ofDigitChars_ten_toDigits]

/-- The digits of a number end at the first other character, so they tell the number and what
follows it. -/
lemma toDigits_append_inj {m n : Nat} {cs ds : List Char} (hcs : ∀ c ∈ cs.head?, c.isDigit = false)
    (hds : ∀ c ∈ ds.head?, c.isDigit = false)
    (h : Nat.toDigits 10 m ++ cs = Nat.toDigits 10 n ++ ds) : m = n ∧ cs = ds := by
  have hread := congrArg digits h
  rw [digits_append (isDigit_toDigits m) hcs, digits_append (isDigit_toDigits n) hds,
    Prod.mk.injEq] at hread
  refine ⟨?_, hread.2⟩
  rw [← ofDigits_toDigits m, hread.1, ofDigits_toDigits]

/-- Only zero begins with a zero. -/
lemma head_toDigits_ne_zero {n : Nat} (hn : 0 < n) : '0' ∉ (Nat.toDigits 10 n).head? := by
  induction n using Nat.strongRecOn with
  | ind n ih =>
    rw [Nat.toDigits_eq_if (by decide)]
    split
    · simpa [eq_comm, Nat.digitChar_eq_zero] using Nat.ne_of_gt hn
    · have hhead := ih (n / 10) (by omega) (by omega)
      rwa [List.head?_append_of_ne_nil _ Nat.toDigits_ne_nil]

/-- An integer part is read from its digits, unless it begins with a zero that is not all of it. -/
lemma readWhole_eq_ok {cs rest : List Char} {d : Nat} {ds : List Nat}
    (h : digits cs = (d :: ds, rest)) (hd : d = 0 → ds = []) :
    readWhole cs = .ok (ofDigits (d :: ds), rest) := by
  rw [readWhole, h]
  cases d with
  | zero =>
    obtain rfl := hd rfl
    rfl
  | succ d => rfl

/-- A printed integer part is read back. -/
lemma readWhole_print (n : Nat) {rest : List Char} (hrest : ∀ c ∈ rest.head?, c.isDigit = false) :
    readWhole (Nat.toDigits 10 n ++ rest) = .ok (n, rest) := by
  have hdigits := digits_append (isDigit_toDigits n) hrest
  have hvalue := ofDigits_toDigits n
  obtain ⟨c, cs, hn, hc⟩ := exists_toDigits n
  rw [hn, List.map_cons] at hdigits hvalue
  rw [hn, readWhole_eq_ok hdigits, hvalue]
  -- If the first digit is zero, so is the number, and there is no other digit.
  intro hzero
  obtain rfl := eq_zero_of_digit hc hzero
  rcases Nat.eq_zero_or_pos n with rfl | hpos
  · rw [Nat.toDigits_zero, List.cons.injEq] at hn
    rw [← hn.2, List.map_nil]
  · have hhead := head_toDigits_ne_zero hpos
    rw [hn] at hhead
    exact absurd rfl hhead

/-- The digits after the point, with the point. -/
def fractionText (ds : List Nat) : List Char :=
  if ds.isEmpty then [] else '.' :: ds.map Nat.digitChar

/-- The exponent, with its letter. -/
def exponentText : Option (Bool × Nat) → List Char
  | none => []
  | some (true, e) => 'e' :: '-' :: Nat.toDigits 10 e
  | some (false, e) => 'e' :: Nat.toDigits 10 e

/-- A numeral is a sign, the whole part, the fraction and the exponent. -/
lemma numeral_eq (n : Numeral) : Printer.numeral n = (if n.negative then ['-'] else []) ++
    (Nat.toDigits 10 n.whole ++ (fractionText n.fraction ++ exponentText n.exponent)) := by
  simp only [Printer.numeral, List.append_assoc]
  rfl

/-- The text of a fraction begins with the point, if with anything. -/
lemma head_fractionText {ds : List Nat} {rest : List Char} {c : Char}
    (h : c ∈ (fractionText ds ++ rest).head?) : c = '.' ∨ c ∈ rest.head? := by
  cases ds with
  | nil => exact .inr h
  | cons d ds => exact .inl (Option.some_inj.mp h).symm

/-- The text of an exponent begins with its letter, if with anything. -/
lemma head_exponentText {e : Option (Bool × Nat)} {rest : List Char} {c : Char}
    (h : c ∈ (exponentText e ++ rest).head?) : c = 'e' ∨ c ∈ rest.head? := by
  match e with
  | none => exact .inr h
  | some (true, _) | some (false, _) => exact .inl (Option.some_inj.mp h).symm

/-- Digits have the values that they were printed for. -/
lemma map_digitChar {ds : List Nat} (hds : ∀ d ∈ ds, d < 10) :
    (ds.map Nat.digitChar).map (fun c => c.toNat - '0'.toNat) = ds := by
  have hvalue : ∀ d ∈ ds, d.digitChar.toNat - '0'.toNat = d := by
    intro d hd
    rw [Nat.toNat_digitChar_of_lt_ten (hds d hd)]
    exact Nat.add_sub_cancel_left ..
  rw [List.map_map]
  exact (List.map_congr_left hvalue).trans (List.map_id' ds)

/-- Printed digits after the point are read back. -/
lemma readFraction_print {ds : List Nat} (hds : ∀ d ∈ ds, d < 10) {rest : List Char}
    (hrest : ∀ c ∈ rest.head?, c.isDigit = false ∧ c ≠ '.') :
    readFraction (fractionText ds ++ rest) = .ok (ds, rest) := by
  cases ds with
  | nil =>
    cases rest with
    | nil => rfl
    | cons c rest =>
      have hpoint : c ≠ '.' := (hrest c rfl).2
      rw [fractionText, if_pos List.isEmpty_nil, List.nil_append, readFraction]
      intro cs hcs
      exact hpoint (List.cons.inj hcs).1
  | cons d ds =>
    have hdigit : ∀ c ∈ (d :: ds).map Nat.digitChar, c.isDigit = true := by
      intro c hc
      obtain ⟨k, hk, rfl⟩ := List.mem_map.mp hc
      rw [Nat.isDigit_digitChar, decide_eq_true_eq]
      exact hds k hk
    have hdigits := digits_append hdigit fun c hc => (hrest c hc).1
    rw [map_digitChar hds] at hdigits
    show readFraction ('.' :: ((d :: ds).map Nat.digitChar ++ rest)) = _
    rw [readFraction, hdigits]

/-- A sign is not taken from a digit. -/
lemma readSign_digit {c : Char} (hc : c.isDigit = true) (cs : List Char) :
    readSign (c :: cs) = (false, c :: cs) := by
  rw [readSign]
  · rintro _ ⟨⟩
    cases hc
  · rintro _ ⟨⟩
    cases hc

/-- An exponent is read from its sign and its digits. -/
lemma readExponent_eq_ok {cs cs' rest : List Char} {negative : Bool} {d : Nat} {ds : List Nat}
    (hsign : readSign cs = (negative, cs')) (hdigits : digits cs' = (d :: ds, rest)) :
    readExponent ('e' :: cs) = .ok (some (negative, ofDigits (d :: ds)), rest) := by
  simp [readExponent, hsign, hdigits]

/-- A printed exponent is read back. -/
lemma readExponent_print (e : Option (Bool × Nat)) {rest : List Char}
    (hrest : ∀ c ∈ rest.head?, c.isDigit = false ∧ c ≠ 'e' ∧ c ≠ 'E') :
    readExponent (exponentText e ++ rest) = .ok (e, rest) := by
  match e with
  | none =>
    cases rest with
    | nil => rfl
    | cons c rest =>
      have hletter := (hrest c rfl).2
      simp [exponentText, readExponent, hletter]
  | some (negative, n) =>
    have hdigits := digits_append (isDigit_toDigits n) fun c hc => (hrest c hc).1
    have hvalue := ofDigits_toDigits n
    obtain ⟨c, cs, hn, hc⟩ := exists_toDigits n
    rw [hn, List.map_cons] at hdigits hvalue
    cases negative with
    | true =>
      have hsign : readSign ('-' :: (c :: cs ++ rest)) = (true, c :: cs ++ rest) := rfl
      have hread := readExponent_eq_ok hsign hdigits
      rwa [hvalue, ← hn] at hread
    | false =>
      have hread := readExponent_eq_ok (readSign_digit hc (cs ++ rest)) hdigits
      rwa [hvalue, ← List.cons_append, ← hn] at hread

/-- A number from after its sign. -/
def readUnsigned (negative : Bool) (cs : List Char) : Except Fault (Numeral × List Char) := do
  let (whole, cs) ← readWhole cs
  let (fraction, cs) ← readFraction cs
  let (exponent, cs) ← readExponent cs
  return (⟨negative, whole, fraction, exponent⟩, cs)

/-- After a minus sign comes an unsigned numeral. -/
lemma readNumeral_minus (cs : List Char) : readNumeral ('-' :: cs) = readUnsigned true cs := rfl

/-- A numeral that starts with a digit has no sign. -/
lemma readNumeral_digit {c : Char} (hc : c.isDigit = true) (cs : List Char) :
    readNumeral (c :: cs) = readUnsigned false (c :: cs) := by
  have hminus : c ≠ '-' := by
    rintro rfl
    cases hc
  simp [readNumeral, hminus, readUnsigned]

/-- A text in which nothing printed goes on: it has come to its end, or to a comma or a closing
bracket. -/
def Ends (rest : List Char) : Prop :=
  ∀ c ∈ rest.head?, c = ',' ∨ c = ']' ∨ c = '\x7d'

/-- The parts of a printed number are read back. -/
lemma readUnsigned_print {n : Numeral} (hn : n.Decimal) {rest : List Char} (hrest : Ends rest) :
    readUnsigned n.negative (Nat.toDigits 10 n.whole ++
      (fractionText n.fraction ++ (exponentText n.exponent ++ rest))) = .ok (n, rest) := by
  have hends : ∀ c ∈ rest.head?, c.isDigit = false ∧ c ≠ 'e' ∧ c ≠ 'E' ∧ c ≠ '.' := by
    intro c hc
    rcases hrest c hc with rfl | rfl | rfl <;> decide
  have hexponent := readExponent_print n.exponent fun c hc =>
    ⟨(hends c hc).1, (hends c hc).2.1, (hends c hc).2.2.1⟩
  have hpoint : ∀ c ∈ (exponentText n.exponent ++ rest).head?, c.isDigit = false ∧ c ≠ '.' := by
    intro c hc
    rcases head_exponentText hc with rfl | hc
    · decide
    · exact ⟨(hends c hc).1, (hends c hc).2.2.2⟩
  have hfraction := readFraction_print hn hpoint
  have hdigit : ∀ c ∈ (fractionText n.fraction ++ (exponentText n.exponent ++ rest)).head?,
      c.isDigit = false := by
    intro c hc
    rcases head_fractionText hc with rfl | hc
    · decide
    · exact (hpoint c hc).1
  have hwhole := readWhole_print n.whole hdigit
  simp only [readUnsigned, hwhole, hfraction, hexponent, bind, Except.bind, pure, Except.pure]

/-- A printed number is read back. -/
lemma readNumeral_print {n : Numeral} (hn : n.Decimal) {rest : List Char} (hrest : Ends rest) :
    readNumeral (Printer.numeral n ++ rest) = .ok (n, rest) := by
  have hparts := readUnsigned_print hn hrest
  rw [numeral_eq, List.append_assoc, List.append_assoc, List.append_assoc]
  cases hsign : n.negative with
  | true =>
    rw [hsign] at hparts
    exact (readNumeral_minus _).trans hparts
  | false =>
    rw [hsign] at hparts
    obtain ⟨c, cs, hwhole, hc⟩ := exists_toDigits n.whole
    rw [hwhole] at hparts ⊢
    exact (readNumeral_digit hc _).trans hparts

/-! ### Values -/

/-- There are no blanks to skip before another character. -/
lemma skipBlanks_cons {c : Char} (hc : isBlank c = false) (cs : List Char) :
    skipBlanks (c :: cs) = c :: cs := by
  simp [skipBlanks, hc]

/-- Numbers begin with a minus or a digit. -/
lemma exists_numeral (n : Numeral) :
    ∃ c cs, Printer.numeral n = c :: cs ∧ (c = '-' || c.isDigit) = true := by
  rw [numeral_eq]
  cases n.negative with
  | true => exact ⟨'-', _, rfl, rfl⟩
  | false =>
    obtain ⟨c, cs, hwhole, hc⟩ := exists_toDigits n.whole
    rw [hwhole]
    exact ⟨c, _, rfl, by rw [hc, Bool.or_true]⟩

/-- The first character of a number is none that other things begin with. -/
lemma ne_of_numeral {c d : Char} (hc : (c = '-' || c.isDigit) = true)
    (hd : (d = '-' || d.isDigit) = false) : c ≠ d := by
  rintro rfl
  exact Bool.noConfusion (hc.symm.trans hd)

/-- No numeral starts with a blank. -/
lemma isBlank_numeral {c : Char} (hc : (c = '-' || c.isDigit) = true) : isBlank c = false := by
  have hne : ∀ d, (d = '-' || d.isDigit) = false → c ≠ d := fun _ => ne_of_numeral hc
  simp [isBlank, hne]

/-- A value that is a number is read as one. -/
lemma value_numeral {c : Char} (hc : (c = '-' || c.isDigit) = true) {cs rest : List Char}
    {n : Numeral} (hread : readNumeral (c :: cs) = .ok (n, rest)) (budget : Nat) :
    value (budget + 1) (c :: cs) = (.number n, some rest) := by
  have hne : ∀ d, (d = '-' || d.isDigit) = false → c ≠ d := fun _ => ne_of_numeral hc
  rw [value, skipBlanks_cons (isBlank_numeral hc)]
  simp [hne, hc, hread]

/-- Printed values do not begin with a blank or a closing bracket. -/
lemma exists_value {v : Json} (hv : v.Plain) :
    ∃ c cs, Printer.value v = c :: cs ∧ isBlank c = false ∧ c ≠ ']' := by
  cases v with
  | number n =>
    obtain ⟨c, cs, hn, hc⟩ := exists_numeral n
    exact ⟨c, cs, by rw [Printer.value, hn], isBlank_numeral hc, ne_of_numeral hc rfl⟩
  | bool b => cases b <;> exact ⟨_, _, rfl, rfl, by decide⟩
  | flawed _ =>
    rw [Json.Plain] at hv
    exact hv.elim
  | _ => exact ⟨_, _, rfl, rfl, by decide⟩

/-- Printed elements go on with a comma or come to the closing bracket. -/
lemma exists_items {items : Items} (hitems : items.Plain) :
    ∃ c cs, Printer.items false items = c :: cs ∧ (c = ',' ∨ c = ']') := by
  cases items with
  | done => exact ⟨']', _, rfl, .inr rfl⟩
  | cons v rest => exact ⟨',', _, rfl, .inl rfl⟩
  | cut _ _ =>
    rw [Items.Plain] at hitems
    exact hitems.elim

/-- Printed members go on with a comma or come to the closing brace. -/
lemma exists_members {ms : Members} (hms : ms.Plain) :
    ∃ c cs, Printer.members false ms = c :: cs ∧ (c = ',' ∨ c = '\x7d') := by
  match ms with
  | .done => exact ⟨'\x7d', _, rfl, .inr rfl⟩
  | .cons (.text k) v rest => exact ⟨',', _, rfl, .inl rfl⟩
  | .cons (.flawed _) _ _ | .cut _ _ | .stray _ =>
    rw [Members.Plain] at hms
    exact hms.elim

/-- An array is read from its elements. -/
lemma value_array {budget : Nat} {cs : List Char} {vs : Items} {r : Option (List Char)}
    (hvs : items budget true cs = (vs, r)) : value (budget + 1) ('[' :: cs) = (.array vs, r) := by
  have hopen : skipBlanks ('[' :: cs) = '[' :: cs := rfl
  simp [value, hopen, hvs]

/-- An object is read from its members. -/
lemma value_object {budget : Nat} {cs : List Char} {ms : Members} {r : Option (List Char)}
    (hms : members budget true cs = (ms, r)) :
    value (budget + 1) ('\x7b' :: cs) = (.object ms, r) := by
  have hopen : skipBlanks ('\x7b' :: cs) = '\x7b' :: cs := rfl
  simp [value, hopen, hms]

/-- After the opening bracket an element follows, or after an element and a comma. -/
lemma items_open {c : Char} (hblank : isBlank c = false) (hclose : c ≠ ']') (first : Bool)
    (budget : Nat) (cs : List Char) :
    items (budget + 1) first ((if first then [] else [',']) ++ c :: cs) =
      element budget (c :: cs) := by
  have hcomma : skipBlanks (',' :: c :: cs) = ',' :: c :: cs := rfl
  cases first with
  | true => simp [items, skipBlanks_cons hblank, hclose]
  | false => simp [items, hcomma, skipBlanks_cons hblank, hclose]

/-- An element is read, and then those after it. -/
lemma element_eq {budget : Nat} {cs rest : List Char} {v : Json} {vs : Items}
    {r : Option (List Char)} (hv : value budget cs = (v, some rest))
    (hvs : items budget false rest = (vs, r)) :
    element (budget + 1) cs = (.cons v vs, r) := by
  rw [element, hv]
  simp only [hvs]

/-- After the opening brace a key follows, or after a member and a comma. -/
lemma members_open (first : Bool) (budget : Nat) (cs : List Char) :
    members (budget + 1) first ((if first then [] else [',']) ++ '"' :: cs) = member budget cs := by
  cases first <;> rfl

/-- A member is read, and then those after it. -/
lemma member_eq {budget : Nat} {cs rest : List Char} {v : Json} {ms : Members}
    {r : Option (List Char)} (key : String) (hv : value budget cs = (v, some rest))
    (hms : members budget false rest = (ms, r)) :
    member (budget + 1) (key.toList.flatMap escapeChar ++ '"' :: ':' :: cs) =
      (.cons (.text key) v ms, r) := by
  obtain ⟨ps, hscan, hjoin⟩ := exists_scan_string key.toList (':' :: cs)
  have hcolon : skipBlanks (':' :: cs) = ':' :: cs := rfl
  simp only [member, hscan, hjoin, hcolon, if_pos, hv, hms, String.ofList_toList]

mutual

/-- A printed value is read back. -/
theorem value_print : (v : Json) → v.Plain → ∀ (budget : Nat) (rest : List Char),
    3 * (Printer.value v).length ≤ budget → Ends rest →
      value budget (Printer.value v ++ rest) = (v, some rest)
  | v, hv, 0, rest, hbudget, hrest => by
    obtain ⟨c, cs, hvalue, -⟩ := exists_value hv
    rw [hvalue, List.length_cons] at hbudget
    omega
  | .null, _, _ + 1, _, _, _ | .bool true, _, _ + 1, _, _, _ | .bool false, _, _ + 1, _, _, _ => rfl
  | .number n, hv, budget + 1, rest, _, hrest => by
    rw [Json.Plain] at hv
    have hread := readNumeral_print hv hrest
    obtain ⟨c, cs, hn, hc⟩ := exists_numeral n
    rw [hn] at hread
    rw [Printer.value, hn]
    exact value_numeral hc hread budget
  | .string s, _, budget + 1, rest, _, _ => by
    rw [Printer.value, Printer.string, List.append_assoc]
    exact readString_print s rest
  | .array items, hv, budget + 1, rest, hbudget, _ => by
    rw [Json.Plain] at hv
    rw [Printer.value, List.length_cons] at hbudget
    have hitems := items_print items hv true budget rest (by omega)
    exact value_array hitems
  | .object ms, hv, budget + 1, rest, hbudget, _ => by
    rw [Json.Plain] at hv
    rw [Printer.value, List.length_cons] at hbudget
    have hms := members_print ms hv true budget rest (by omega)
    exact value_object hms
  | .flawed _, hv, _ + 1, _, _, _ => by
    rw [Json.Plain] at hv
    exact hv.elim

/-- Printed elements are read back. -/
theorem items_print : (vs : Items) → vs.Plain → ∀ (first : Bool) (budget : Nat) (rest : List Char),
    3 * (Printer.items first vs).length ≤ budget →
      items budget first (Printer.items first vs ++ rest) = (vs, some rest)
  | .done, _, first, budget, rest, hbudget => by
    rw [Printer.items, List.length_singleton] at hbudget
    obtain ⟨budget, rfl⟩ := Nat.exists_eq_add_of_le' (show 1 ≤ budget by omega)
    rfl
  | .cons v vs, h, first, budget, rest, hbudget => by
    rw [Items.Plain] at h
    obtain ⟨c, cs, hc, hblank, hclose⟩ := exists_value h.1
    obtain ⟨d, ds, hd, hends⟩ := exists_items h.2
    rw [Printer.items, List.length_append, List.length_append] at hbudget
    have hcpos : 0 < (Printer.value v).length := by rw [hc]; exact Nat.succ_pos _
    have hdpos : 0 < (Printer.items false vs).length := by rw [hd]; exact Nat.succ_pos _
    -- Two steps lead to the value, and what is printed after it pays for them.
    obtain ⟨budget, rfl⟩ := Nat.exists_eq_add_of_le' (show 2 ≤ budget by omega)
    have hrest : Ends (Printer.items false vs ++ rest) := by
      rw [hd]
      rintro _ ⟨⟩
      exact hends.imp_right .inl
    have hv := value_print v h.1 budget _ (by omega) hrest
    have hvs := items_print vs h.2 false budget rest (by omega)
    rw [Printer.items, List.append_assoc, List.append_assoc, ← element_eq hv hvs, hc]
    exact items_open hblank hclose first (budget + 1) _
  | .cut _ _, h, _, _, _, _ => by
    rw [Items.Plain] at h
    exact h.elim

/-- Printed members are read back. -/
theorem members_print : (ms : Members) → ms.Plain →
    ∀ (first : Bool) (budget : Nat) (rest : List Char),
      3 * (Printer.members first ms).length ≤ budget →
      members budget first (Printer.members first ms ++ rest) = (ms, some rest)
  | .done, _, first, budget, rest, hbudget => by
    rw [Printer.members, List.length_singleton] at hbudget
    obtain ⟨budget, rfl⟩ := Nat.exists_eq_add_of_le' (show 1 ≤ budget by omega)
    rfl
  | .cons (.text key) v ms, h, first, budget, rest, hbudget => by
    rw [Members.Plain] at h
    obtain ⟨d, ds, hd, hends⟩ := exists_members h.2
    rw [Printer.members, Printer.string] at hbudget
    simp only [List.length_append, List.length_cons, List.length_nil] at hbudget
    -- Again two steps lead to the value, and here the quotes of the key pay for them.
    obtain ⟨budget, rfl⟩ := Nat.exists_eq_add_of_le' (show 2 ≤ budget by omega)
    have hrest : Ends (Printer.members false ms ++ rest) := by
      rw [hd]
      rintro _ ⟨⟩
      exact hends.imp_right .inr
    have hv := value_print v h.1 budget _ (by omega) hrest
    have hms := members_print ms h.2 false budget rest (by omega)
    rw [Printer.members, Printer.string, ← member_eq key hv hms, ← members_open first]
    simp only [List.append_assoc, List.cons_append, List.nil_append]
  | .cons (.flawed _) _ _, h, _, _, _, _ | .cut _ _, h, _, _, _, _ | .stray _, h, _, _, _, _ => by
    rw [Members.Plain] at h
    exact h.elim

end

end Reader

/-- The text of a plain value is read back. -/
theorem Json.read_render {v : Json} (hv : v.Plain) : Document.read v.render = ⟨v, none⟩ := by
  have hread := Reader.value_print v hv (3 * (Printer.value v).length + 3) [] (by omega) nofun
  rw [List.append_nil] at hread
  rw [Document.read, Json.render, String.toList_ofList, hread]
  rfl

end NilFlow
