import NilFlow.Json.Codec

/-!
# Guards

A guard nonce records that a consumption was seen under a matched safety check, such as the `ok` of
`v, ok := m[k]`. Nonces are words of 64 bits; a minter hands them out one after the other and starts
over after the last.

A guard set is a finite set of nonces, kept in ascending order, so that equal sets are equal values.
-/

namespace NilFlow

/-- A guard token. -/
structure Nonce where
  raw : UInt64
  deriving DecidableEq

namespace Nonce

/-- The token in decimal digits. -/
def text (g : Nonce) : String :=
  toString g.raw.toNat

/-- Tokens, as bare numbers. -/
def codec : Codec Nonce :=
  Codec.word64.imap Nonce.mk Nonce.raw

/-- Of two different nonces one has the smaller word. -/
theorem raw_lt_of_not_lt {a b : Nonce} (h : ¬ a.raw < b.raw) (hne : a ≠ b) : b.raw < a.raw := by
  rw [UInt64.lt_iff_toNat_lt] at *
  have hraw : a.raw.toNat ≠ b.raw.toNat := fun e => hne (by
    cases a; cases b; simpa using UInt64.toNat_inj.1 e)
  omega

end Nonce

/-- The source of fresh nonces: the one to be handed out next. -/
structure Minter where
  next : UInt64
  deriving DecidableEq

/-- Starts with the least nonce. -/
def Minter.start : Minter := ⟨0⟩

/-- Starts with a given nonce, after those that were handed out elsewhere. -/
def Minter.startingAt (first : UInt64) : Minter := ⟨first⟩

/-- Hands out a nonce. -/
def Minter.mint (m : Minter) : Nonce × Minter :=
  (⟨m.next⟩, ⟨m.next + 1⟩)

/-- Hands out several nonces. -/
def Minter.mintMany : Nat → Minter → List Nonce × Minter
  | 0, m => ([], m)
  | n + 1, m =>
    let (g, m) := m.mint
    let (gs, m) := mintMany n m
    (g :: gs, m)

/-- Nonces in strictly ascending order. -/
def Ascending (gs : List Nonce) : Prop :=
  gs.Pairwise fun a b => a.raw < b.raw

/-- An ascending list with one nonce added. -/
def insertNonce (g : Nonce) : List Nonce → List Nonce
  | [] => [g]
  | x :: xs =>
    if g.raw < x.raw then g :: x :: xs
    else if g = x then x :: xs
    else x :: insertNonce g xs

/-- A nonce is in the list afterwards if it is the new one or was there before. -/
theorem mem_insertNonce {g x : Nonce} {gs : List Nonce} :
    x ∈ insertNonce g gs ↔ x = g ∨ x ∈ gs := by
  induction gs with
  | nil => simp [insertNonce]
  | cons y ys ih =>
    unfold insertNonce
    split
    · simp
    · split
      · rename_i h
        subst h
        simp
      · simp only [List.mem_cons, ih]
        exact or_left_comm

/-- Adding a nonce keeps the order. -/
theorem Ascending.insertNonce {g : Nonce} {gs : List Nonce} (h : Ascending gs) :
    Ascending (insertNonce g gs) := by
  induction gs with
  | nil => simp [NilFlow.insertNonce, Ascending]
  | cons y ys ih =>
    obtain ⟨hy, hys⟩ := List.pairwise_cons.1 h
    unfold NilFlow.insertNonce
    split
    · rename_i hlt
      refine List.pairwise_cons.2 ⟨fun b hb => ?_, h⟩
      rcases List.mem_cons.1 hb with rfl | hb
      · exact hlt
      · exact UInt64.lt_trans hlt (hy b hb)
    · split
      · exact h
      · rename_i hge hne
        refine List.pairwise_cons.2 ⟨fun b hb => ?_, ih hys⟩
        rcases mem_insertNonce.1 hb with rfl | hb
        · exact Nonce.raw_lt_of_not_lt hge hne
        · exact hy b hb

/-- A finite set of nonces. -/
structure GuardSet where
  toList : List Nonce
  ascending : Ascending toList
  deriving DecidableEq

namespace GuardSet

/-- No guards. -/
def empty : GuardSet := ⟨[], List.Pairwise.nil⟩

/-- The set with one nonce added. -/
def insert (s : GuardSet) (g : Nonce) : GuardSet :=
  ⟨insertNonce g s.toList, s.ascending.insertNonce⟩

/-- The set with several nonces added. -/
def add (s : GuardSet) (gs : List Nonce) : GuardSet :=
  gs.foldl insert s

/-- The set of the nonces of a list. -/
def ofList (gs : List Nonce) : GuardSet :=
  empty.add gs

/-- Whether a nonce is in the set. -/
def contains (s : GuardSet) (g : Nonce) : Bool :=
  decide (g ∈ s.toList)

/-- The nonces of both sets. -/
def inter (s t : GuardSet) : GuardSet :=
  ⟨s.toList.filter t.contains, List.Pairwise.filter _ s.ascending⟩

/-- Whether the first set has every nonce of the second. -/
def isSuperset (s t : GuardSet) : Bool :=
  t.toList.all s.contains

/-- The number of nonces. -/
def size (s : GuardSet) : Nat :=
  s.toList.length

/-- Whether there is no nonce. -/
def isEmpty (s : GuardSet) : Bool :=
  s.toList.isEmpty

/-- The nonces between braces. -/
def text (s : GuardSet) : String :=
  "\x7b" ++ ", ".intercalate (s.toList.map Nonce.text) ++ "\x7d"

/-- Guard sets, as arrays; written in ascending order, read in any order and with repetitions. -/
def codec : Codec GuardSet :=
  (Codec.list Nonce.codec).imap ofList toList

/-- A nonce is in a set if it is in its list. -/
instance : Membership Nonce GuardSet where
  mem s g := g ∈ s.toList

/-- Membership is spelled in the set, not in its list. -/
@[simp] theorem mem_toList {s : GuardSet} {g : Nonce} : g ∈ s.toList ↔ g ∈ s := Iff.rfl

/-- The test decides membership. -/
@[simp] theorem contains_iff {s : GuardSet} {g : Nonce} : s.contains g = true ↔ g ∈ s := by
  simp [contains]

/-- No nonce is in the empty set. -/
@[simp] theorem mem_empty {g : Nonce} : ¬ g ∈ empty := List.not_mem_nil

/-- The nonces after one was added. -/
@[simp] theorem mem_insert {s : GuardSet} {g x : Nonce} : x ∈ s.insert g ↔ x = g ∨ x ∈ s :=
  mem_insertNonce

/-- The nonces after several were added, whatever their order. -/
@[simp] theorem mem_add {s : GuardSet} {gs : List Nonce} {x : Nonce} :
    x ∈ s.add gs ↔ x ∈ s ∨ x ∈ gs := by
  induction gs generalizing s with
  | nil => simp [add]
  | cons g gs ih =>
    have h : s.add (g :: gs) = (s.insert g).add gs := rfl
    rw [h, ih, mem_insert, List.mem_cons, or_comm (a := x = g), or_assoc]

/-- The nonces of an intersection. -/
@[simp] theorem mem_inter {s t : GuardSet} {x : Nonce} : x ∈ s.inter t ↔ x ∈ s ∧ x ∈ t := by
  show x ∈ s.toList.filter t.contains ↔ _
  simp

end GuardSet

end NilFlow
