import NilFlow.Proofs.Indexing
import NilFlow.Proofs.PrintedText
import NilFlow.Proofs.RecordFormat

/-!
# Programs as texts

The text of a program is decoded to the program again, for all programs.  A codec is `Faithful` if
this holds of all its values: they are written as plain values, and these are decoded to what was
written.  Words, texts and truth values are carried faithfully, and faithful codecs are put together
to faithful ones, for lists, for what may be absent, and for records (`Schema.record_faithful`),
where each field finds exactly its own member among those that were written.
-/

namespace NilFlow

namespace Codec

variable {α β : Type}

/-- A value is decoded from what is written for it. -/
def Carries (c : Codec α) (a : α) : Prop :=
  c.decode (c.encode a) = .ok a

/-- A text is decoded as the value that it is the text of. -/
lemma decodeText_of_read (c : Codec α) {text : String} {v : Json}
    (h : Document.read text = ⟨v, none⟩) : c.decodeText text = c.decode v := by
  rw [decodeText, h]
  cases c.decode v <;> rfl

/-- What is written is plain, and is decoded to what was written. -/
structure Faithful (c : Codec α) : Prop where
  plain : ∀ a, (c.encode a).Plain
  lawful : c.Lawful

/-- Faithful codecs decode the texts that they write. -/
lemma Faithful.decodeText_encodeText {c : Codec α} (h : c.Faithful) (a : α) :
    c.decodeText (c.encodeText a) = .ok a :=
  (c.decodeText_of_read (Json.read_render (h.plain a))).trans (h.lawful a)

/-- Texts are written as strings. -/
lemma text_faithful : text.Faithful where
  plain _ := by
    rw [text, Json.Plain]
    trivial
  lawful := text_lawful

/-- Truth values are written as themselves. -/
lemma bool_faithful : bool.Faithful where
  plain _ := by
    rw [bool, Json.Plain]
    trivial
  lawful := bool_lawful

/-- Words are written in digits. -/
lemma word32_faithful : word32.Faithful where
  plain n := by
    rw [word32, imap, below, Json.Plain]
    exact Numeral.decimal_ofNat n.toNat
  lawful n := by
    have hwhole : (word32.encode n).Whole := by
      rw [word32, imap, below, Json.Whole]
      trivial
    exact (word32_fits _ hwhole n).mpr rfl

/-- A correspondence keeps faithfulness. -/
lemma Faithful.imap {c : Codec α} (h : c.Faithful) {f : α → β} {g : β → α}
    (hfg : ∀ b, f (g b) = b) : (c.imap f g).Faithful where
  plain b := h.plain (g b)
  lawful := h.lawful.imap hfg

/-- Ids are written as words. -/
lemma id_faithful {table : Table} : (@Id.codec table).Faithful :=
  word32_faithful.imap fun _ => rfl

/-- If nothing is written as `null`, then `null` can be written for nothing. -/
lemma Faithful.option {c : Codec α} (h : c.Faithful) (hnull : ∀ a, c.encode a ≠ .null) :
    c.option.Faithful where
  plain a := by
    cases a with
    | none =>
      rw [Codec.option, Json.Plain]
      trivial
    | some a => exact h.plain a
  lawful a := by
    cases a with
    | none => rfl
    | some a =>
      have hdecode : c.option.decode (c.encode a) = some <$> c.decode (c.encode a) := by
        cases hv : c.encode a with
        | null => exact absurd hv (hnull a)
        | _ => rfl
      rw [h.lawful a] at hdecode
      exact hdecode

/-- The elements that were written are decoded in order. -/
lemma Lawful.decodeItems {c : Codec α} (h : c.Lawful) (as : List α) :
    c.decodeItems (Items.ofList (as.map c.encode)) = .ok as := by
  induction as with
  | nil => rfl
  | cons a as ih =>
    rw [List.map_cons, Items.ofList, Codec.decodeItems, h a, ih]
    rfl

/-- Lists are written element by element. -/
lemma Faithful.list {c : Codec α} (h : c.Faithful) : c.list.Faithful where
  plain as := by
    refine Json.plain_ofItems fun v hv => ?_
    obtain ⟨a, -, rfl⟩ := List.mem_map.mp hv
    exact h.plain a
  lawful as := h.lawful.decodeItems as

/-- Forms are written as their names. -/
lemma form_faithful : ExprKind.codec.Faithful where
  plain k := by
    rw [ExprKind.codec, Json.Plain]
    trivial
  lawful k := by
    cases k <;> rfl

end Codec

/-! ### Records -/

namespace Schema

variable {ρ : Type} {s : Schema ρ}

/-- The codec of each field is faithful. -/
inductive Faithful : {ρ : Type} → Schema ρ → Prop where
  | nil : Faithful .nil
  | field {α ρ : Type} {name : String} {codec : Codec α} {default : Option α} {rest : Schema ρ}
      (hcodec : codec.Faithful) (hrest : Faithful rest) : Faithful (.field name codec default rest)

/-- The keys that a record is written with are the names of its fields. -/
lemma keys_members (s : Schema ρ) (r : ρ) : (s.members r).map (·.1) = s.names := by
  induction s with
  | nil => rfl
  | field name codec default rest ih => exact congrArg (name :: ·) (ih r.2)

/-- The values that a record is written with are plain. -/
lemma Faithful.plain_members (hs : s.Faithful) (r : ρ) : ∀ m ∈ s.members r, m.2.Plain := by
  induction hs with
  | nil => nofun
  | field hcodec _ ih => exact List.forall_mem_cons.mpr ⟨hcodec.plain r.1, ih r.2⟩

/-- Every field of a record is decoded from what is written for it. -/
def Carries : {ρ : Type} → Schema ρ → ρ → Prop
  | _, .nil, _ => True
  | _, .field _ codec _ rest, r => codec.Carries r.1 ∧ rest.Carries r.2

/-- Faithful fields are decoded from what is written for them. -/
lemma Faithful.carries (hs : s.Faithful) (r : ρ) : s.Carries r := by
  induction hs with
  | nil => trivial
  | field hcodec _ ih => exact ⟨hcodec.lawful r.1, ih r.2⟩

/-- Each field takes what was written for it, if the values given for it are those written. -/
lemma Carries.takes_members {r : ρ} (h : s.Carries r) (hnames : s.names.Nodup)
    {given : Nat → String → List Json}
    (hgiven : ∀ i, ∀ name ∈ s.names, given i name = valuesOf name (s.members r)) :
    s.Takes given r := by
  induction s generalizing given with
  | nil => trivial
  | field name codec default rest ih =>
    obtain ⟨a, r⟩ := r
    obtain ⟨hname, hrest⟩ := List.nodup_cons.mp hnames
    have hothers : valuesOf name (rest.members r) = [] :=
      valuesOf_eq_nil_iff.mpr (rest.keys_members r ▸ hname)
    have hone : given 0 name = [codec.encode a] := by
      rw [hgiven 0 name List.mem_cons_self, members, valuesOf_cons_self, hothers]
    refine ⟨?_, ih h.2 hrest fun i n hn => ?_⟩
    · show codec.Takes default (given 0 name) a
      rw [hone]
      exact h.1
    · have hne : name ≠ n := fun h => hname (h ▸ hn)
      rw [hgiven (i + 1) n (List.mem_cons_of_mem name hn), members, valuesOf_cons_of_ne _ hne]

/-- A record is read from members that have the values written for each field, whatever else they
have. -/
lemma Carries.ofMembers_eq_ok {r : ρ} (h : s.Carries r) (hnames : s.names.Nodup)
    {ms : List (String × Json)} (hplain : ∀ m ∈ ms, m.2.Plain)
    (hgiven : ∀ name ∈ s.names, valuesOf name ms = valuesOf name (s.members r)) :
    s.ofMembers (Members.ofList ms) = .ok r := by
  have hwhole : (Json.ofMembers ms).Whole := Json.Plain.whole _ (Json.plain_ofMembers hplain)
  rw [Json.ofMembers, Json.Whole] at hwhole
  rw [ofMembers_eq_ok_iff hnames hwhole, Members.toList_ofList]
  exact h.takes_members hnames fun _ name hname => hgiven name hname

/-- Records of faithful fields with different names are carried faithfully. -/
lemma record_faithful {β : Type} {ofFields : ρ → β} {toFields : β → ρ} (hs : s.Faithful)
    (hnames : s.names.Nodup) (name : String) (hof : ∀ b, ofFields (toFields b) = b) :
    (s.record name ofFields toFields).Faithful where
  plain b := Json.plain_ofMembers (hs.plain_members (toFields b))
  lawful b := by
    have hmembers : s.ofMembers (Members.ofList (s.members (toFields b))) = .ok (toFields b) :=
      (hs.carries (toFields b)).ofMembers_eq_ok hnames (hs.plain_members (toFields b))
        fun _ _ => rfl
    show ofFields <$> s.ofMembers (Members.ofList (s.members (toFields b))) = .ok b
    rw [hmembers]
    exact congrArg Except.ok (hof b)

end Schema

/-! ### Programs -/

section Programs

open Codec Schema

/-- Spans are faithful, field by field. -/
lemma Span.codec_faithful : Span.codec.Faithful :=
  record_faithful (.field text_faithful <| .field word32_faithful <| .field word32_faithful <|
    .field word32_faithful <| .field word32_faithful .nil) (by decide) _ fun _ => rfl

/-- Parameters and results are faithful, field by field. -/
lemma Slot.codec_faithful : Slot.codec.Faithful :=
  record_faithful (.field text_faithful <| .field text_faithful .nil) (by decide) _ fun _ => rfl

/-- Functions are faithful, field by field. -/
lemma FuncDecl.codec_faithful : FuncDecl.codec.Faithful :=
  record_faithful (.field id_faithful <| .field text_faithful <| .field text_faithful <|
    .field (text_faithful.option nofun) <| .field Slot.codec_faithful.list <|
      .field Slot.codec_faithful.list <| .field bool_faithful .nil) (by decide) _ fun _ => rfl

/-- Fields are faithful, field by field. -/
lemma FieldDecl.codec_faithful : FieldDecl.codec.Faithful :=
  record_faithful (.field id_faithful <| .field text_faithful <| .field text_faithful .nil)
    (by decide) _ fun _ => rfl

/-- Variables are faithful, field by field. -/
lemma VarDecl.codec_faithful : VarDecl.codec.Faithful :=
  record_faithful (.field id_faithful <| .field text_faithful <| .field bool_faithful .nil)
    (by decide) _ fun _ => rfl

/-- Types are faithful, field by field. -/
lemma TypeDecl.codec_faithful : TypeDecl.codec.Faithful :=
  record_faithful (.field id_faithful <| .field text_faithful .nil) (by decide) _ fun _ => rfl

/-- Return statements are faithful, field by field. -/
lemma ReturnStmt.codec_faithful : ReturnStmt.codec.Faithful :=
  record_faithful (.field id_faithful <| .field id_faithful <| .field Span.codec_faithful .nil)
    (by decide) _ fun _ => rfl

/-- Expressions are faithful, field by field. -/
lemma Expr.codec_faithful : Expr.codec.Faithful :=
  record_faithful (.field id_faithful <| .field form_faithful <| .field Span.codec_faithful .nil)
    (by decide) _ fun _ => rfl

/-- Programs are faithful, table by table. -/
lemma Program.codec_faithful : Program.codec.Faithful :=
  record_faithful (.field text_faithful <| .field FuncDecl.codec_faithful.list <|
    .field FieldDecl.codec_faithful.list <| .field VarDecl.codec_faithful.list <|
      .field TypeDecl.codec_faithful.list <| .field ReturnStmt.codec_faithful.list <|
        .field Expr.codec_faithful.list .nil) (by decide) _ fun _ => rfl

end Programs

namespace Program

/-- The text of a program is decoded to the program itself.  So in each order of the return
statements, what is decoded has the same outcome of indexing as the program.  Also in two different
orders it has, except that of several missing functions each may name another one.  The text is that
of one JSON value, with nothing after it, that has the format of programs. -/
theorem text_round_trip (p : Program) :
    codec.decodeText (codec.encodeText p) = .ok p ∧
      (∀ q, codec.decodeText (codec.encodeText p) = .ok q → ∀ order order',
        q.index order = p.index order ∧
        (q.index order = p.index order' ∨
          ∃ s s', p.Dangling s ∧ p.Dangling s' ∧ s.func ≠ s'.func ∧
            q.index order = .error (.unknownId .func s.func.raw) ∧
            p.index order' = .error (.unknownId .func s'.func.raw))) ∧
      ∃ v, Document.read (codec.encodeText p) = ⟨v, none⟩ ∧ Shape.record format v p := by
  have hdecode := codec_faithful.decodeText_encodeText p
  have hplain := codec_faithful.plain p
  have hshape : Shape.record format (codec.encode p) p :=
    (codec_follows.fits _ (Json.Plain.whole _ hplain) p).mp (codec_faithful.lawful p)
  refine ⟨hdecode, fun q hq order order' => ?_, _, Json.read_render hplain, hshape⟩
  obtain rfl : p = q := Except.ok.inj (hdecode.symm.trans hq)
  exact ⟨rfl, p.index_orders order order'⟩

/-- Two return statements lack their functions.  The program that is decoded has both of them, and
names the one or the other, as the program does in the same order. -/
theorem text_round_trip_of_two_missing :
    let returned : ReturnStmt := ⟨⟨1⟩, ⟨41⟩, .point "a.go" 3 2⟩
    let returned' : ReturnStmt := ⟨⟨2⟩, ⟨42⟩, .point "b.go" 5 2⟩
    let p : Program := { Program.empty with returns := [returned, returned'] }
    ∃ q, codec.decodeText (codec.encodeText p) = .ok q ∧
      q.index .asInserted = .error (.unknownId .func 41) ∧
      q.index (.first returned') = .error (.unknownId .func 42) := by
  intro returned returned' p
  obtain ⟨hdecode, hindex, -⟩ := text_round_trip p
  refine ⟨p, hdecode, ?_, ?_⟩
  · exact (hindex p hdecode .asInserted .asInserted).1.trans rfl
  · exact (hindex p hdecode (.first returned') .asInserted).1.trans rfl

end Program

end NilFlow
