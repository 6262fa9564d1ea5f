import NilFlow.Json.Problem
import NilFlow.Json.Reader
import NilFlow.Json.Printer

/-!
# Codecs

A codec says how a type is carried by JSON: how a value is decoded, with the first problem in text
order as the error, and how it is written. `decodeText` decodes a whole text; what follows the value
is looked at last.
-/

namespace NilFlow

/-- Decoding and encoding of one type. -/
structure Codec (α : Type) where
  decode : Json → Except Problem α
  encode : α → Json

namespace Codec

variable {α β : Type}

/-- Reading back what was written gives the same value. -/
def Lawful (c : Codec α) : Prop :=
  ∀ a, c.decode (c.encode a) = .ok a

/-- Decodes a text. -/
def decodeText (c : Codec α) (text : String) : Except Problem α := do
  let doc := Document.read text
  let a ← c.decode doc.value
  match doc.trailing with
  | some f => throw (.text f)
  | none => return a

/-- The text of a value. -/
def encodeText (c : Codec α) (a : α) : String :=
  (c.encode a).render

/-- A codec for another type, along a correspondence. -/
def imap (c : Codec α) (f : α → β) (g : β → α) : Codec β where
  decode v := f <$> c.decode v
  encode b := c.encode (g b)

/-- A correspondence keeps lawfulness. -/
theorem Lawful.imap {c : Codec α} (h : c.Lawful) {f : α → β} {g : β → α} (hfg : ∀ b, f (g b) = b) :
    (c.imap f g).Lawful := by
  intro b
  simp [Codec.imap, h (g b), hfg, Functor.map, Except.map]

/-- Texts. -/
def text : Codec String where
  decode
    | .string s => .ok s
    | v => .error (v.unexpected .text)
  encode := .string

/-- Texts are read back. -/
theorem text_lawful : text.Lawful := fun _ => rfl

/-- Truth values. -/
def bool : Codec Bool where
  decode
    | .bool b => .ok b
    | v => .error (v.unexpected .boolean)
  encode := .bool

/-- Truth values are read back. -/
theorem bool_lawful : bool.Lawful := fun _ => rfl

/-- Natural numbers below `bound`. -/
def below (bound : Nat) (wanted : Wanted) : Codec Nat where
  decode
    | .number n =>
      match n.quantity? with
      | some (.natural k) =>
        if k < bound then .ok k else .error (.shape (.invalidValue (.integer k) wanted))
      | some (.negative k) => .error (.shape (.invalidValue (.integer (-(k : Int))) wanted))
      | _ => .error ((Json.number n).unexpected wanted)
    | v => .error (v.unexpected wanted)
  encode k := .number (.ofNat k)

/-- Words of 32 bits. -/
def word32 : Codec UInt32 :=
  (below UInt32.size .word32).imap Nat.toUInt32 UInt32.toNat

/-- Words of 64 bits. -/
def word64 : Codec UInt64 :=
  (below UInt64.size .word64).imap Nat.toUInt64 UInt64.toNat

/-- Positions in lists. -/
def position : Codec Nat :=
  below UInt64.size .position

/-- Decodes elements in order, up to the closing bracket. -/
def decodeItems (c : Codec α) : Items → Except Problem (List α)
  | .done => .ok []
  | .cons v rest => do
    let a ← c.decode v
    let as ← c.decodeItems rest
    return a :: as
  | .cut f _ => .error (.text f)

/-- Lists, as arrays. -/
def list (c : Codec α) : Codec (List α) where
  decode
    | .array items => c.decodeItems items
    | v => .error (v.unexpected .sequence)
  encode as := .ofItems (as.map c.encode)

/-- An optional value, with `null` for none. -/
def option (c : Codec α) : Codec (Option α) where
  decode
    | .null => .ok none
    | v => some <$> c.decode v
  encode
    | none => .null
    | some a => c.encode a

end Codec

end NilFlow
