import Mathlib.Data.List.Forall2
import Mathlib.Data.List.Nodup
import NilFlow.Program.Codec
import NilFlow.Proofs.SchemaReading

/-!
# The format of programs

What the records of a program look like as JSON is laid down without reference to how they are
decoded.  A `Shape` says which values a JSON value stands for.  A `Format` lists the fields of a
record in order, each with its name, its shape, perhaps a default, and its place in the record; the
shape of the record follows from it (`Shape.record`), for objects and for arrays.  Records hold
lists of records, and so do their formats, from `Span.format` up to `Program.format`.

Decoding accepts exactly what has the right shape, and gives what it stands for (`Codec.Fits`).  For
records this comes from the reading of their schemas (`Schema.Describes`), and everything else about
them is then a matter of the format: which fields may be left out, and that neither the order of
members nor unknown keys nor a default written out make a difference (`Codec.Follows`).
-/

namespace NilFlow

/-- Which values a JSON value stands for. -/
abbrev Shape (α : Type) : Type :=
  Json → α → Prop

/-! ### Formats -/

namespace Format

/-- A field of the records of a type. -/
structure Field (β : Type) where
  {α : Type}
  name : String
  shape : Shape α
  /-- What the field holds if it is left out. -/
  default : Option α
  get : β → α

namespace Field

variable {α β : Type}

/-- A field that has to be given. -/
def required (name : String) (shape : Shape α) (get : β → α) : Field β :=
  ⟨name, shape, none, get⟩

/-- A field that may be left out. -/
def optional (name : String) (shape : Shape α) (default : α) (get : β → α) : Field β :=
  ⟨name, shape, some default, get⟩

/-- What a field takes from the values given for it: its default if there is none, and else the one
value that there is. -/
def Takes (f : Field β) : List Json → f.α → Prop
  | [], a => f.default = some a
  | [v], a => f.shape v a
  | _ :: _ :: _, _ => False

/-- A field takes something exactly if at most one value is given for it, the value is of its shape,
and there is one unless the field has a default. -/
lemma exists_takes_iff {f : Field β} {vs : List Json} :
    (∃ a, f.Takes vs a) ↔
      vs.length ≤ 1 ∧ (∀ v ∈ vs, ∃ a, f.shape v a) ∧ (f.default = none → vs ≠ []) := by
  match vs with
  | [] => cases h : f.default <;> simp [Takes, h]
  | [v] => simp [Takes]
  | v :: v' :: vs => simp [Takes]

end Field

end Format

/-- The fields of a record, in order. -/
abbrev Format (β : Type) : Type 1 :=
  List (Format.Field β)

/-! ### Shapes -/

namespace Shape

variable {α β : Type}

/-- A text stands for itself. -/
def text : Shape String := fun v s => v = .string s

/-- A truth value stands for itself. -/
def bool : Shape Bool := fun v b => v = .bool b

/-- A word is written in digits, without sign, point or exponent. -/
def word32 : Shape UInt32 := fun v n => v = .number (.ofNat n.toNat)

/-- An id is written as a word. -/
def id {table : Table} : Shape (Id table) := fun v i => word32 v i.raw

/-- Nothing is written as `null`. -/
def option (S : Shape α) : Shape (Option α)
  | v, none => v = .null
  | v, some a => S v a

/-- A list is written as an array, element by element. -/
def list (S : Shape α) : Shape (List α) := fun v as =>
  ∃ items, v = .array items ∧ List.Forall₂ S items.toList as

/-- A form is written as its name, or as an object with its name for the only key and `null` for the
value.  Names that are not known stand for the unknown form. -/
def form : Shape ExprKind := fun v k =>
  ∃ name, k = .ofName name ∧ (v = .string name ∨ v = .ofMembers [(name, .null)])

/-- A record is written as an object, where each field takes what its key has, or as an array with
no more elements than there are fields, where each field takes what stands at its position. -/
def record (format : Format β) : Shape β
  | .object ms, b => ∀ f ∈ format, f.Takes (valuesOf f.name ms.toList) (f.get b)
  | .array items, b => items.toList.length ≤ format.length ∧
      ∀ (i : Nat) (f : Format.Field β), format[i]? = some f →
        f.Takes items.toList[i]?.toList (f.get b)
  | _, _ => False

/-- A null is no text. -/
@[simp] lemma not_text_null {s : String} : ¬ text .null s := nofun

/-- A null is no truth value. -/
@[simp] lemma not_bool_null {b : Bool} : ¬ bool .null b := nofun

/-- A null is no word. -/
@[simp] lemma not_word32_null {n : UInt32} : ¬ word32 .null n := nofun

/-- A null is no id. -/
@[simp] lemma not_id_null {table : Table} {i : Id table} : ¬ id .null i := nofun

/-- A null stands for nothing. -/
@[simp] lemma exists_option_null {S : Shape α} : ∃ a, option S .null a :=
  ⟨none, rfl⟩

/-- A null is no list. -/
@[simp] lemma not_list_null {S : Shape α} {as : List α} : ¬ list S .null as := nofun

/-- A null is no form. -/
@[simp] lemma not_form_null {k : ExprKind} : ¬ form .null k := by
  rintro ⟨_, _, h | h⟩ <;> nomatch h

/-- A null is no record. -/
@[simp] lemma not_record_null {format : Format β} {b : β} : ¬ record format .null b := nofun

end Shape

/-! ### Codecs and shapes -/

namespace Codec

variable {α : Type}

/-- Decoding accepts the whole values of a shape, and gives what they stand for. -/
def Fits (c : Codec α) (S : Shape α) : Prop :=
  ∀ v : Json, v.Whole → ∀ a, c.decode v = .ok a ↔ S v a

/-- A value of a shape that fits stands for one thing only. -/
lemma Fits.unique {c : Codec α} {S : Shape α} (h : c.Fits S) {v : Json} (hv : v.Whole) {a b : α}
    (ha : S v a) (hb : S v b) : a = b := by
  have heq : (Except.ok a : Except Problem α) = .ok b := by
    rw [← (h v hv a).mpr ha, (h v hv b).mpr hb]
  exact Except.ok.inj heq

/-- Texts are decoded from strings. -/
lemma text_fits : text.Fits .text := by
  intro v _ s
  cases v <;> simp [text, Shape.text]

/-- Truth values are decoded from `true` and `false`. -/
lemma bool_fits : bool.Fits .bool := by
  intro v _ b
  cases v <;> simp [bool, Shape.bool]

/-- A number is a natural one exactly if it is written in digits alone and fits a word of 64
bits. -/
lemma quantity?_eq_natural_iff {n : Numeral} {k : Nat} :
    n.quantity? = some (.natural k) ↔ n = .ofNat k ∧ k ≤ Numeral.maxWord := by
  constructor
  · intro h
    have hreal : n.toDouble?.map Quantity.real ≠ some (.natural k) := by
      cases n.toDouble? <;> simp
    obtain ⟨negative, whole, fraction, exponent⟩ := n
    rw [Numeral.quantity?] at h
    split_ifs at h with hplain hnatural hnegative
    · obtain ⟨rfl⟩ := h
      obtain ⟨hsign, hk⟩ := hnatural
      obtain rfl : fraction = [] := List.isEmpty_iff.mp hplain.1
      obtain rfl : exponent = none := Option.isNone_iff_eq_none.mp hplain.2
      obtain rfl : negative = false := Bool.not_eq_true _ ▸ hsign
      exact ⟨rfl, hk⟩
    · cases h
    · exact absurd h hreal
    · exact absurd h hreal
  · rintro ⟨rfl, hk⟩
    simp [Numeral.quantity?, Numeral.ofNat, hk]

/-- The naturals below a bound that fits a word of 64 bits are written in digits alone. -/
lemma below_eq_ok_iff {bound : Nat} (hbound : bound ≤ UInt64.size) {wanted : Wanted} {v : Json}
    {k : Nat} : (below bound wanted).decode v = .ok k ↔ v = .number (.ofNat k) ∧ k < bound := by
  have hmax : Numeral.maxWord + 1 = UInt64.size := rfl
  cases v with
  | number n =>
    constructor
    · intro h
      simp only [below] at h
      split at h
      · next m hm =>
        obtain ⟨rfl, -⟩ := quantity?_eq_natural_iff.mp hm
        split_ifs at h with hlt
        cases h
        exact ⟨rfl, hlt⟩
      · cases h
      · cases h
    · rintro ⟨h, hlt⟩
      cases h
      have hquantity : (Numeral.ofNat k).quantity? = some (.natural k) :=
        quantity?_eq_natural_iff.mpr ⟨rfl, by omega⟩
      simp only [below, hquantity, if_pos hlt]
  | null | bool _ | string _ | array _ | object _ | flawed _ => simp [below]

/-- Words are decoded from digits, if the number is in range. -/
lemma word32_fits : word32.Fits .word32 := by
  intro v _ n
  rw [word32, imap, map_eq_ok]
  constructor
  · rintro ⟨k, hk, rfl⟩
    obtain ⟨rfl, hlt⟩ := (below_eq_ok_iff (by decide)).mp hk
    rw [Shape.word32, Nat.toUInt32, UInt32.toNat_ofNat_of_lt' hlt]
  · rintro rfl
    exact ⟨n.toNat, (below_eq_ok_iff (by decide)).mpr ⟨rfl, n.toNat_lt⟩, UInt32.ofNat_toNat⟩

/-- Along a correspondence, a shape is carried over. -/
lemma Fits.imap {β : Type} {c : Codec α} {S : Shape α} (h : c.Fits S) {f : α → β} {g : β → α}
    (hfg : ∀ b, f (g b) = b) (hgf : ∀ a, g (f a) = a) : (c.imap f g).Fits fun v b => S v (g b) := by
  intro v hv b
  rw [Codec.imap, map_eq_ok]
  constructor
  · rintro ⟨a, ha, rfl⟩
    rw [hgf]
    exact (h v hv a).mp ha
  · intro hb
    exact ⟨g b, (h v hv _).mpr hb, hfg b⟩

/-- Ids are words. -/
lemma id_fits {table : Table} : (@Id.codec table).Fits .id :=
  word32_fits.imap (fun _ => rfl) fun _ => rfl

/-- If no value of a shape is `null`, then `null` can stand for nothing. -/
lemma Fits.option {c : Codec α} {S : Shape α} (h : c.Fits S) (hS : ∀ a, ¬ S .null a) :
    c.option.Fits S.option := by
  intro v hv a
  by_cases hnull : v = .null
  · subst hnull
    cases a with
    | none => exact iff_of_true rfl rfl
    | some a => exact iff_of_false nofun (hS a)
  · have hdecode : c.option.decode v = some <$> c.decode v := by
      cases v with
      | null => exact absurd rfl hnull
      | bool _ | number _ | string _ | array _ | object _ | flawed _ => rfl
    rw [hdecode, map_eq_ok]
    cases a with
    | none => exact iff_of_false (by simp) hnull
    | some a => simp [Shape.option, h v hv]

/-- Elements are decoded one by one. -/
lemma Fits.decodeItems_eq_ok_iff {c : Codec α} {S : Shape α} (h : c.Fits S) {vs : List Json}
    (hvs : ∀ v ∈ vs, v.Whole) {as : List α} :
    c.decodeItems (Items.ofList vs) = .ok as ↔ List.Forall₂ S vs as := by
  induction vs generalizing as with
  | nil => simp [Items.ofList, decodeItems, eq_comm]
  | cons v vs ih =>
    obtain ⟨hv, hvs⟩ := List.forall_mem_cons.mp hvs
    rw [Items.ofList, decodeItems, bind_eq_ok, List.forall₂_cons_left_iff]
    simp only [bind_eq_ok, ih hvs, h v hv]
    constructor
    · rintro ⟨a, ha, as', has', heq⟩
      cases heq
      exact ⟨a, as', ha, has', rfl⟩
    · rintro ⟨a, as', ha, has', rfl⟩
      exact ⟨a, ha, as', has', rfl⟩

/-- Lists are decoded from arrays, element by element. -/
lemma Fits.list {c : Codec α} {S : Shape α} (h : c.Fits S) : c.list.Fits S.list := by
  intro v hv as
  cases v with
  | array items =>
    rw [Json.Whole] at hv
    obtain ⟨hlist, hitems⟩ := items.whole_iff.mp hv
    have hdecode : c.decodeItems (Items.ofList items.toList) = .ok as ↔
        List.Forall₂ S items.toList as := h.decodeItems_eq_ok_iff hitems
    rw [hlist] at hdecode
    simp [Codec.list, Shape.list, hdecode]
  | null | bool _ | number _ | string _ | object _ | flawed _ => simp [Codec.list, Shape.list]

/-- Beside the name of a form there is only `null`. -/
lemma decodeNull_eq_ok_iff {v : Json} : ExprKind.decodeNull v = .ok () ↔ v = .null := by
  cases v <;> simp [ExprKind.decodeNull]

/-- The object of a form has no other member. -/
lemma closeObject_eq_ok_iff {ms : Members} : ExprKind.closeObject ms = .ok () ↔ ms = .done := by
  cases ms with
  | cut f afterComma => cases afterComma <;> simp [ExprKind.closeObject]
  | done | cons _ _ _ | stray _ => simp [ExprKind.closeObject]

/-- Forms are decoded from their names, alone or as the key of a null. -/
lemma form_fits : ExprKind.codec.Fits .form := by
  intro v hv k
  cases v with
  | string s => simp [ExprKind.codec, ExprKind.decode, Shape.form, Json.ofMembers, eq_comm]
  | object ms =>
    cases ms with
    | cons key v rest =>
      cases key with
      | text key =>
        constructor
        · intro h
          obtain ⟨⟨⟩, hnull, h⟩ := bind_eq_ok.mp h
          obtain ⟨⟨⟩, hclose, h⟩ := bind_eq_ok.mp h
          cases h
          rw [decodeNull_eq_ok_iff.mp hnull, closeObject_eq_ok_iff.mp hclose]
          exact ⟨key, rfl, .inr rfl⟩
        · rintro ⟨name, rfl, h | h⟩
          · cases h
          · cases h
            rfl
      | flawed f =>
        simp [ExprKind.codec, ExprKind.decode, Shape.form, Json.ofMembers, Members.ofList]
    | done | cut _ _ | stray _ =>
      simp [ExprKind.codec, ExprKind.decode, Shape.form, Json.ofMembers, Members.ofList]
  | flawed f =>
    rw [Json.Whole] at hv
    exact hv.elim
  | null | bool _ | number _ | array _ =>
    simp [ExprKind.codec, ExprKind.decode, Shape.form, Json.ofMembers]

end Codec

/-! ### Schemas and formats -/

/-- A schema that lists the fields of a format, given how the fields are found in a record. -/
inductive Schema.Describes {β : Type} : {ρ : Type} → Schema ρ → (β → ρ) → Format β → Prop where
  | nil {get : β → Unit} : Describes .nil get []
  | field {α ρ : Type} {name : String} {codec : Codec α} {default : Option α} {rest : Schema ρ}
      {get : β → α × ρ} {shape : Shape α} {format : Format β} (hcodec : codec.Fits shape)
      (hrest : Describes rest (fun b => (get b).2) format) :
      Describes (.field name codec default rest) get
        (⟨name, shape, default, fun b => (get b).1⟩ :: format)

namespace Schema.Describes

variable {β ρ : Type} {s : Schema ρ} {get : β → ρ} {format : Format β}

/-- Schema and format have the same names in the same order. -/
lemma names_eq (h : s.Describes get format) : s.names = format.map (·.name) := by
  induction h with
  | nil => rfl
  | field hcodec hrest ih => rw [names, ih, List.map_cons]

/-- A value that is given for a field stands for one thing only. -/
lemma unique (h : s.Describes get format) : ∀ f ∈ format, ∀ v : Json, v.Whole →
    ∀ a a', f.shape v a → f.shape v a' → a = a' := by
  induction h with
  | nil => exact fun f hf => nomatch hf
  | field hcodec hrest ih =>
    refine List.forall_mem_cons.mpr ⟨fun v hv a a' ha ha' => ?_, ih⟩
    exact hcodec.unique hv ha ha'

/-- What holds for the fields at all positions holds for the first field and for the others. -/
lemma forall_cons_iff {f : Format.Field β} {P : Nat → Format.Field β → Prop} :
    (∀ (i : Nat) (g : Format.Field β), (f :: format)[i]? = some g → P i g) ↔
      P 0 f ∧ ∀ (i : Nat) (g : Format.Field β), format[i]? = some g → P (i + 1) g := by
  constructor
  · exact fun h => ⟨h 0 f rfl, fun i g hg => h (i + 1) g hg⟩
  · rintro ⟨hf, hformat⟩ i g hg
    cases i with
    | zero =>
      cases hg
      exact hf
    | succ i => exact hformat i g hg

/-- A field takes the same from whole values by its shape as by its codec. -/
lemma takes_iff {α : Type} {codec : Codec α} {shape : Shape α} (h : codec.Fits shape)
    {name : String} {default : Option α} {g : β → α} {vs : List Json} (hvs : ∀ v ∈ vs, v.Whole)
    {a : α} :
    codec.Takes default vs a ↔ (⟨name, shape, default, g⟩ : Format.Field β).Takes vs a := by
  match vs with
  | [] => exact Iff.rfl
  | [v] => exact h v (hvs v List.mem_cons_self) a
  | v :: v' :: vs => exact Iff.rfl

variable {given : Nat → String → List Json}

/-- A record takes what each of its fields takes. -/
lemma record_takes_iff (h : s.Describes get format) (hgiven : ∀ i name, ∀ v ∈ given i name, v.Whole)
    {b : β} : s.Takes given (get b) ↔
      ∀ (i : Nat) (f : Format.Field β), format[i]? = some f →
        f.Takes (given i f.name) (f.get b) := by
  induction h generalizing given with
  | nil => exact iff_of_true trivial fun i f hf => nomatch hf
  | field hcodec hrest ih =>
    rw [Schema.Takes, forall_cons_iff, ih fun i => hgiven (i + 1)]
    exact and_congr_left fun _ => takes_iff hcodec (hgiven 0 _)

/-- Something can be taken for a record exactly if something can be taken for each field. -/
lemma exists_takes_iff (h : s.Describes get format)
    (hgiven : ∀ i name, ∀ v ∈ given i name, v.Whole) :
    (∃ r, s.Takes given r) ↔ ∀ (i : Nat) (f : Format.Field β), format[i]? = some f →
      ∃ a, f.Takes (given i f.name) a := by
  induction h generalizing given with
  | nil => exact iff_of_true ⟨(), trivial⟩ fun i f hf => nomatch hf
  | field hcodec hrest ih =>
    rw [forall_cons_iff, ← ih fun i => hgiven (i + 1)]
    constructor
    · rintro ⟨⟨a, r⟩, ha, hr⟩
      exact ⟨⟨a, (takes_iff hcodec (hgiven 0 _)).mp ha⟩, r, hr⟩
    · rintro ⟨⟨a, ha⟩, r, hr⟩
      exact ⟨(a, r), (takes_iff hcodec (hgiven 0 _)).mpr ha, hr⟩

end Schema.Describes

/-! ### What makes no difference -/

section Differences

variable {β : Type} {format : Format β} {b : β}

/-- A field takes the same from rearranged values. -/
lemma Format.Field.takes_perm {f : Format.Field β} {vs vs' : List Json} (h : vs.Perm vs')
    {a : f.α} : f.Takes vs a ↔ f.Takes vs' a := by
  match vs with
  | [] => rw [List.nil_perm.mp h]
  | [v] => rw [List.singleton_perm.mp h]
  | v :: w :: vs =>
    match vs' with
    | [] => simpa using h.length_eq
    | [v'] => simpa using h.length_eq
    | v' :: w' :: vs' => exact Iff.rfl

/-- A field takes its default, whether that is written out or not. -/
lemma Format.Field.takes_default {f : Format.Field β} {v : Json} {d : f.α}
    (hd : f.default = some d) (hv : f.shape v d) (hunique : ∀ a, f.shape v a → a = d) {a : f.α} :
    f.Takes [v] a ↔ f.Takes [] a := by
  rw [Takes, Takes, hd, Option.some_inj]
  constructor
  · exact fun ha => (hunique a ha).symm
  · rintro rfl
    exact hv

namespace Shape

/-- A record as an object with the given members. -/
lemma record_ofMembers {ms : List (String × Json)} :
    record format (.ofMembers ms) b ↔ ∀ f ∈ format, f.Takes (valuesOf f.name ms) (f.get b) := by
  rw [Json.ofMembers, record, Members.toList_ofList]

/-- A record as an array with the given elements. -/
lemma record_ofItems {vs : List Json} :
    record format (.ofItems vs) b ↔ vs.length ≤ format.length ∧
      ∀ (i : Nat) (f : Format.Field β), format[i]? = some f → f.Takes vs[i]?.toList (f.get b) := by
  rw [Json.ofItems, record, Items.toList_ofList]

/-- The order of members makes no difference. -/
lemma record_perm {ms ms' : List (String × Json)} (h : ms.Perm ms') :
    record format (.ofMembers ms) b ↔ record format (.ofMembers ms') b := by
  rw [record_ofMembers, record_ofMembers]
  exact forall₂_congr fun f _ => Format.Field.takes_perm ((h.filter _).map _)

/-- A member that names no field makes no difference. -/
lemma record_unknown {before after : List (String × Json)} {key : String} {v : Json}
    (hkey : key ∉ format.map (·.name)) :
    record format (.ofMembers (before ++ (key, v) :: after)) b ↔
      record format (.ofMembers (before ++ after)) b := by
  rw [record_ofMembers, record_ofMembers]
  refine forall₂_congr fun f hf => ?_
  have hne : key ≠ f.name := fun h => hkey (List.mem_map.mpr ⟨f, hf, h.symm⟩)
  rw [valuesOf_append, valuesOf_cons_of_ne v hne, ← valuesOf_append]

/-- A default that is written out as a member makes no difference. -/
lemma record_default_member (hnames : (format.map (·.name)).Nodup) {f : Format.Field β}
    (hf : f ∈ format) {v : Json} {d : f.α} (hd : f.default = some d) (hv : f.shape v d)
    (hunique : ∀ a, f.shape v a → a = d) {before after : List (String × Json)}
    (habsent : f.name ∉ (before ++ after).map (·.1)) :
    record format (.ofMembers (before ++ (f.name, v) :: after)) b ↔
      record format (.ofMembers (before ++ after)) b := by
  rw [record_ofMembers, record_ofMembers]
  refine forall₂_congr fun g hg => ?_
  by_cases hname : f.name = g.name
  · obtain rfl := List.inj_on_of_nodup_map hnames hf hg hname
    have hnone : valuesOf f.name (before ++ after) = [] := valuesOf_eq_nil_iff.mpr habsent
    have hone : valuesOf f.name (before ++ (f.name, v) :: after) = [v] := by
      rw [valuesOf_append, List.append_eq_nil_iff] at hnone
      rw [valuesOf_append, valuesOf_cons_self, hnone.1, hnone.2, List.nil_append]
    rw [hnone, hone]
    exact Format.Field.takes_default hd hv hunique
  · rw [valuesOf_append, valuesOf_cons_of_ne v hname, ← valuesOf_append]

/-- A default that is written out as the next element makes no difference. -/
lemma record_default_element {vs : List Json} {f : Format.Field β}
    (hf : format[vs.length]? = some f) {v : Json} {d : f.α} (hd : f.default = some d)
    (hv : f.shape v d) (hunique : ∀ a, f.shape v a → a = d) :
    record format (.ofItems (vs ++ [v])) b ↔ record format (.ofItems vs) b := by
  have hlength : vs.length < format.length := (List.getElem?_eq_some_iff.mp hf).1
  rw [record_ofItems, record_ofItems, List.length_append, List.length_singleton]
  refine and_congr (iff_of_true hlength (Nat.le_of_lt hlength)) (forall₃_congr fun i g hg => ?_)
  rcases Nat.lt_trichotomy i vs.length with hlt | rfl | hgt
  · rw [List.getElem?_append_left hlt]
  · obtain rfl : f = g := Option.some_inj.mp (hf.symm.trans hg)
    rw [List.getElem?_concat_length, List.getElem?_eq_none (Nat.le_refl _)]
    exact Format.Field.takes_default hd hv hunique
  · rw [List.getElem?_eq_none (Nat.le_of_lt hgt), List.getElem?_eq_none]
    rw [List.length_append, List.length_singleton]
    exact hgt

end Shape

end Differences

/-! ### Decoding by a format -/

/-- Decoding follows a format. -/
structure Codec.Follows {β : Type} (c : Codec β) (format : Format β) : Prop where
  /-- A value is decoded exactly if it has the shape of a record.  Each field that is present then
  holds what its value stands for, and each that is absent holds its default. -/
  fits : c.Fits (.record format)
  /-- An object is decoded exactly if every key that names a field occurs at most once, with a value
  of the shape of the field, and every field without a default is present. -/
  object : ∀ ms : Members, ms.Whole → ((∃ b, c.decode (.object ms) = .ok b) ↔
    ∀ f ∈ format, (ms.toList.map (·.1)).count f.name ≤ 1 ∧
      (∀ v, (f.name, v) ∈ ms.toList → ∃ a, f.shape v a) ∧
      (f.default = none → f.name ∈ ms.toList.map (·.1)))
  /-- An array is decoded exactly if it has no more elements than there are fields, each of the
  shape of the field at its position, and every field past the end has a default. -/
  array : ∀ items : Items, items.Whole → ((∃ b, c.decode (.array items) = .ok b) ↔
    items.toList.length ≤ format.length ∧
      ∀ (i : Nat) (f : Format.Field β), format[i]? = some f →
        (∀ v, items.toList[i]? = some v → ∃ a, f.shape v a) ∧
        (items.toList.length ≤ i → f.default ≠ none))
  /-- Nothing else is decoded. -/
  other : ∀ v : Json, (∀ ms, v ≠ .object ms) → (∀ items, v ≠ .array items) →
    ∃ e, c.decode v = .error e
  /-- The order of members makes no difference. -/
  reorder : ∀ ms ms' : List (String × Json), ms.Perm ms' → (∀ m ∈ ms, m.2.Whole) →
    ∀ b, c.decode (.ofMembers ms) = .ok b ↔ c.decode (.ofMembers ms') = .ok b
  /-- A member whose key names no field makes no difference. -/
  unknown : ∀ (before after : List (String × Json)) (key : String) (v : Json),
    key ∉ format.map (·.name) → v.Whole → (∀ m ∈ before ++ after, m.2.Whole) →
    ∀ b, c.decode (.ofMembers (before ++ (key, v) :: after)) = .ok b ↔
      c.decode (.ofMembers (before ++ after)) = .ok b
  /-- A default that is written out as a member makes no difference. -/
  defaultMember : ∀ f ∈ format, ∀ (d : f.α) (v : Json) (before after : List (String × Json)),
    f.default = some d → f.shape v d → v.Whole → (∀ m ∈ before ++ after, m.2.Whole) →
    f.name ∉ (before ++ after).map (·.1) →
    ∀ b, c.decode (.ofMembers (before ++ (f.name, v) :: after)) = .ok b ↔
      c.decode (.ofMembers (before ++ after)) = .ok b
  /-- A default that is written out as the next element makes no difference. -/
  defaultElement : ∀ (vs : List Json) (f : Format.Field β) (d : f.α) (v : Json),
    format[vs.length]? = some f → f.default = some d → f.shape v d → v.Whole →
    (∀ w ∈ vs, w.Whole) →
    ∀ b, c.decode (.ofItems (vs ++ [v])) = .ok b ↔ c.decode (.ofItems vs) = .ok b

section Records

variable {β ρ : Type} {s : Schema ρ} {ofFields : ρ → β} {toFields : β → ρ} {format : Format β}

/-- If fields and records correspond to each other, a record is decoded exactly if its fields
are. -/
lemma map_ofFields_eq_ok_iff (hof : ∀ b, ofFields (toFields b) = b)
    (hto : ∀ r, toFields (ofFields r) = r) {x : Except Problem ρ} {b : β} :
    ofFields <$> x = .ok b ↔ x = .ok (toFields b) := by
  rw [map_eq_ok]
  constructor
  · rintro ⟨r, hr, rfl⟩
    rw [hto, hr]
  · intro hx
    exact ⟨toFields b, hx, hof b⟩

/-- A function can be applied to an outcome exactly if there is one. -/
lemma exists_map_eq_ok {x : Except Problem ρ} : (∃ b, ofFields <$> x = .ok b) ↔ ∃ r, x = .ok r := by
  cases x <;> simp [Functor.map, Except.map]

/-- The fields at all positions are the fields. -/
lemma forall_getElem?_iff {P : Format.Field β → Prop} :
    (∀ (i : Nat) (f : Format.Field β), format[i]? = some f → P f) ↔ ∀ f ∈ format, P f := by
  simp only [List.mem_iff_getElem?]
  exact ⟨fun h f ⟨i, hi⟩ => h i f hi, fun h i f hi => h f ⟨i, hi⟩⟩

/-- The values of a key in a whole object are whole. -/
lemma whole_of_mem_valuesOf {ms : Members} (hms : ms.Whole) (key : String) :
    ∀ v ∈ valuesOf key ms.toList, v.Whole := by
  intro v hv
  exact (ms.whole_iff.mp hms).2 _ (mem_valuesOf.mp hv)

/-- The element at a position of a whole array is whole. -/
lemma whole_of_mem_getElem? {items : Items} (hitems : items.Whole) (i : Nat) :
    ∀ v ∈ items.toList[i]?.toList, v.Whole := by
  intro v hv
  exact (items.whole_iff.mp hitems).2 v (List.mem_of_getElem? (Option.mem_toList.mp hv))

/-- Records are decoded by the format that their schema describes. -/
lemma record_fits (h : s.Describes toFields format) (hnames : s.names.Nodup) (name : String)
    (hof : ∀ b, ofFields (toFields b) = b) (hto : ∀ r, toFields (ofFields r) = r) :
    (s.record name ofFields toFields).Fits (.record format) := by
  intro v hv b
  cases v with
  | object ms =>
    rw [Json.Whole] at hv
    rw [Schema.record, map_ofFields_eq_ok_iff hof hto, Schema.ofMembers_eq_ok_iff hnames hv,
      h.record_takes_iff fun _ => whole_of_mem_valuesOf hv, Shape.record]
    exact forall_getElem?_iff
  | array items =>
    rw [Json.Whole] at hv
    rw [Schema.record, map_ofFields_eq_ok_iff hof hto, Schema.ofItems_eq_ok_iff hv,
      h.record_takes_iff fun i _ => whole_of_mem_getElem? hv i, Shape.record, Schema.width,
      h.names_eq, List.length_map]
  | null | bool _ | number _ | string _ | flawed _ => simp [Schema.record, Shape.record]

/-- An object is decoded exactly if something can be taken for each field. -/
lemma exists_decode_object_iff (h : s.Describes toFields format) (hnames : s.names.Nodup)
    (name : String) {ms : Members} (hms : ms.Whole) :
    (∃ b, (s.record name ofFields toFields).decode (.object ms) = .ok b) ↔
      ∀ f ∈ format, (ms.toList.map (·.1)).count f.name ≤ 1 ∧
        (∀ v, (f.name, v) ∈ ms.toList → ∃ a, f.shape v a) ∧
        (f.default = none → f.name ∈ ms.toList.map (·.1)) := by
  have htakes := h.exists_takes_iff fun _ => whole_of_mem_valuesOf hms
  simp only [Schema.record, exists_map_eq_ok, Schema.ofMembers_eq_ok_iff hnames hms, htakes]
  rw [forall_getElem?_iff (P := fun f => ∃ a, f.Takes (valuesOf f.name ms.toList) a)]
  refine forall₂_congr fun f _ => ?_
  rw [Format.Field.exists_takes_iff, length_valuesOf, Ne, valuesOf_eq_nil_iff, not_not]
  simp only [mem_valuesOf]

/-- An array is decoded exactly if something can be taken for each field. -/
lemma exists_decode_array_iff (h : s.Describes toFields format) (name : String) {items : Items}
    (hitems : items.Whole) :
    (∃ b, (s.record name ofFields toFields).decode (.array items) = .ok b) ↔
      items.toList.length ≤ format.length ∧
        ∀ (i : Nat) (f : Format.Field β), format[i]? = some f →
          (∀ v, items.toList[i]? = some v → ∃ a, f.shape v a) ∧
          (items.toList.length ≤ i → f.default ≠ none) := by
  have htakes := h.exists_takes_iff fun i _ => whole_of_mem_getElem? hitems i
  simp only [Schema.record, exists_map_eq_ok, Schema.ofItems_eq_ok_iff hitems, exists_and_left,
    htakes, Schema.width, h.names_eq, List.length_map]
  refine and_congr_right fun _ => forall₃_congr fun i f _ => ?_
  rw [Format.Field.exists_takes_iff]
  cases hv : items.toList[i]? with
  | none => simp [List.getElem?_eq_none_iff.mp hv]
  | some v =>
    have hi : i < items.toList.length := (List.getElem?_eq_some_iff.mp hv).1
    simp [Nat.not_le.mpr hi]

/-- Records follow the format that their schema describes. -/
lemma record_follows (h : s.Describes toFields format) (hnames : s.names.Nodup) (name : String)
    (hof : ∀ b, ofFields (toFields b) = b) (hto : ∀ r, toFields (ofFields r) = r) :
    (s.record name ofFields toFields).Follows format := by
  have hfits := record_fits h hnames name hof hto
  have hobject : ∀ {ms ms' : List (String × Json)} {b : β}, (∀ m ∈ ms, m.2.Whole) →
      (∀ m ∈ ms', m.2.Whole) →
      (Shape.record format (.ofMembers ms) b ↔ Shape.record format (.ofMembers ms') b) →
      ((s.record name ofFields toFields).decode (.ofMembers ms) = .ok b ↔
        (s.record name ofFields toFields).decode (.ofMembers ms') = .ok b) := by
    intro ms ms' b hms hms' hiff
    rw [hfits _ (Json.whole_ofMembers.mpr hms), hfits _ (Json.whole_ofMembers.mpr hms'), hiff]
  have hinsert : ∀ {m : String × Json} {before after : List (String × Json)}, m.2.Whole →
      (∀ n ∈ before ++ after, n.2.Whole) → ∀ n ∈ before ++ m :: after, n.2.Whole := by
    intro m before after hm hothers n hn
    rcases List.mem_cons.mp (List.perm_middle.mem_iff.mp hn) with rfl | hn
    · exact hm
    · exact hothers n hn
  refine ⟨hfits, fun ms hms => exists_decode_object_iff h hnames name hms,
    fun items hitems => exists_decode_array_iff h name hitems, ?_, ?_, ?_, ?_, ?_⟩
  · intro v hobject harray
    cases v with
    | object ms => exact absurd rfl (hobject ms)
    | array items => exact absurd rfl (harray items)
    | null | bool _ | number _ | string _ | flawed _ => exact ⟨_, rfl⟩
  · intro ms ms' hperm hms b
    exact hobject hms (fun m hm => hms m (hperm.mem_iff.mpr hm)) (Shape.record_perm hperm)
  · intro before after key v hkey hv hothers b
    exact hobject (hinsert hv hothers) hothers (Shape.record_unknown hkey)
  · intro f hf d v before after hd hv hwhole hothers habsent b
    refine hobject (hinsert hwhole hothers) hothers ?_
    refine Shape.record_default_member (h.names_eq ▸ hnames) hf hd hv ?_ habsent
    exact fun a ha => h.unique f hf v hwhole a d ha hv
  · intro vs f d v hf hd hv hwhole hvs b
    have happend : ∀ w ∈ vs ++ [v], w.Whole :=
      List.forall_mem_append.mpr ⟨hvs, List.forall_mem_singleton.mpr hwhole⟩
    rw [hfits _ (Json.whole_ofItems.mpr happend), hfits _ (Json.whole_ofItems.mpr hvs)]
    refine Shape.record_default_element hf hd hv fun a ha => ?_
    exact h.unique f (List.mem_of_getElem? hf) v hwhole a d ha hv

end Records

/-! ### The records of a program -/

/-- Spans; the end may be left out. -/
def Span.format : Format Span :=
  [.required "file" .text (·.file),
    .required "start_line" .word32 (·.startLine),
    .required "start_col" .word32 (·.startCol),
    .optional "end_line" .word32 0 (·.endLine),
    .optional "end_col" .word32 0 (·.endCol)]

/-- Slots of signatures; the name may be left out. -/
def Slot.format : Format Slot :=
  [.optional "name" .text "" (·.name),
    .required "type_name" .text (·.typeName)]

/-- Functions and methods; only id and name have to be given. -/
def FuncDecl.format : Format FuncDecl :=
  [.required "id" .id (·.id),
    .required "name" .text (·.name),
    .optional "package" .text "" (·.package),
    .optional "receiver" (.option .text) none (·.receiver),
    .optional "params" (.list (.record Slot.format)) [] (·.params),
    .optional "results" (.list (.record Slot.format)) [] (·.results),
    .optional "variadic" .bool false (·.variadic)]

/-- Struct fields; the owner may be left out. -/
def FieldDecl.format : Format FieldDecl :=
  [.required "id" .id (·.id),
    .required "name" .text (·.name),
    .optional "owner" .text "" (·.owner)]

/-- Variables; they are local unless they say otherwise. -/
def VarDecl.format : Format VarDecl :=
  [.required "id" .id (·.id),
    .required "name" .text (·.name),
    .optional "is_global" .bool false (·.isGlobal)]

/-- Named types. -/
def TypeDecl.format : Format TypeDecl :=
  [.required "id" .id (·.id),
    .required "name" .text (·.name)]

/-- Return statements. -/
def ReturnStmt.format : Format ReturnStmt :=
  [.required "id" .id (·.id),
    .required "func" .id (·.func),
    .required "span" (.record Span.format) (·.span)]

/-- Expressions. -/
def Expr.format : Format Expr :=
  [.required "id" .id (·.id),
    .required "kind" .form (·.kind),
    .required "span" (.record Span.format) (·.span)]

/-- Programs; each table may be left out. -/
def Program.format : Format Program :=
  [.optional "package" .text "" (·.package),
    .optional "funcs" (.list (.record FuncDecl.format)) [] (·.funcs),
    .optional "fields" (.list (.record FieldDecl.format)) [] (·.fields),
    .optional "vars" (.list (.record VarDecl.format)) [] (·.vars),
    .optional "types" (.list (.record TypeDecl.format)) [] (·.types),
    .optional "returns" (.list (.record ReturnStmt.format)) [] (·.returns),
    .optional "exprs" (.list (.record Expr.format)) [] (·.exprs)]

section Follows

open Codec

/-- The codec of spans follows their format. -/
lemma Span.codec_follows : Span.codec.Follows Span.format :=
  record_follows (.field text_fits <| .field word32_fits <| .field word32_fits <|
    .field word32_fits <| .field word32_fits .nil) (by decide) _ (fun _ => rfl) fun _ => rfl

/-- The codec of parameters and results follows their format. -/
lemma Slot.codec_follows : Slot.codec.Follows Slot.format :=
  record_follows (.field text_fits <| .field text_fits .nil) (by decide) _ (fun _ => rfl)
    fun _ => rfl

/-- The codec of functions follows their format. -/
lemma FuncDecl.codec_follows : FuncDecl.codec.Follows FuncDecl.format :=
  record_follows (.field id_fits <| .field text_fits <| .field text_fits <|
    .field (text_fits.option nofun) <| .field Slot.codec_follows.fits.list <|
      .field Slot.codec_follows.fits.list <| .field bool_fits .nil)
    (by decide) _ (fun _ => rfl) fun _ => rfl

/-- The codec of fields follows their format. -/
lemma FieldDecl.codec_follows : FieldDecl.codec.Follows FieldDecl.format :=
  record_follows (.field id_fits <| .field text_fits <| .field text_fits .nil) (by decide) _
    (fun _ => rfl) fun _ => rfl

/-- The codec of variables follows their format. -/
lemma VarDecl.codec_follows : VarDecl.codec.Follows VarDecl.format :=
  record_follows (.field id_fits <| .field text_fits <| .field bool_fits .nil) (by decide) _
    (fun _ => rfl) fun _ => rfl

/-- The codec of types follows their format. -/
lemma TypeDecl.codec_follows : TypeDecl.codec.Follows TypeDecl.format :=
  record_follows (.field id_fits <| .field text_fits .nil) (by decide) _ (fun _ => rfl) fun _ => rfl

/-- The codec of return statements follows their format. -/
lemma ReturnStmt.codec_follows : ReturnStmt.codec.Follows ReturnStmt.format :=
  record_follows (.field id_fits <| .field id_fits <| .field Span.codec_follows.fits .nil)
    (by decide) _ (fun _ => rfl) fun _ => rfl

/-- The codec of expressions follows their format. -/
lemma Expr.codec_follows : Expr.codec.Follows Expr.format :=
  record_follows (.field id_fits <| .field form_fits <| .field Span.codec_follows.fits .nil)
    (by decide) _ (fun _ => rfl) fun _ => rfl

/-- The codec of programs follows their format. -/
lemma Program.codec_follows : Program.codec.Follows Program.format :=
  record_follows (.field text_fits <| .field FuncDecl.codec_follows.fits.list <|
    .field FieldDecl.codec_follows.fits.list <| .field VarDecl.codec_follows.fits.list <|
      .field TypeDecl.codec_follows.fits.list <| .field ReturnStmt.codec_follows.fits.list <|
        .field Expr.codec_follows.fits.list .nil) (by decide) _ (fun _ => rfl) fun _ => rfl

end Follows

/-- The types of records that programs are made of. -/
inductive RecordType where
  | program
  | func
  | slot
  | field
  | var
  | type
  | returnStmt
  | expr
  | span

namespace RecordType

/-- The records of a type. -/
abbrev Value : RecordType → Type
  | .program => Program
  | .func => FuncDecl
  | .slot => Slot
  | .field => FieldDecl
  | .var => VarDecl
  | .type => TypeDecl
  | .returnStmt => ReturnStmt
  | .expr => Expr
  | .span => Span

/-- How the records of a type are decoded. -/
def codec : (t : RecordType) → Codec t.Value
  | .program => Program.codec
  | .func => FuncDecl.codec
  | .slot => Slot.codec
  | .field => FieldDecl.codec
  | .var => VarDecl.codec
  | .type => TypeDecl.codec
  | .returnStmt => ReturnStmt.codec
  | .expr => Expr.codec
  | .span => Span.codec

/-- The format of the records of a type. -/
def format : (t : RecordType) → Format t.Value
  | .program => Program.format
  | .func => FuncDecl.format
  | .slot => Slot.format
  | .field => FieldDecl.format
  | .var => VarDecl.format
  | .type => TypeDecl.format
  | .returnStmt => ReturnStmt.format
  | .expr => Expr.format
  | .span => Span.format

/-- Only a receiver can be `null`. -/
lemma shape_null_iff (t : RecordType) :
    ∀ f ∈ t.format, (∃ a, f.shape .null a) ↔ t = .func ∧ f.name = "receiver" := by
  cases t with
  | func => simp [format, FuncDecl.format, Format.Field.required, Format.Field.optional]
  | _ =>
    simp [format, Program.format, Slot.format, FieldDecl.format, VarDecl.format, TypeDecl.format,
      ReturnStmt.format, Expr.format, Span.format, Format.Field.required, Format.Field.optional]

/-- The records of a program are decoded by their formats: exactly those values are accepted that
the format admits, and each field gets the value that is given for it, or else its default.  Neither
the order of members nor unknown keys nor defaults that are written out make a difference.  Only a
receiver can be `null`. -/
theorem decoding_follows_format (t : RecordType) :
    t.codec.Follows t.format ∧
      ∀ f ∈ t.format, (∃ a, f.shape .null a) ↔ t = .func ∧ f.name = "receiver" := by
  refine ⟨?_, t.shape_null_iff⟩
  cases t with
  | program => exact Program.codec_follows
  | func => exact FuncDecl.codec_follows
  | slot => exact Slot.codec_follows
  | field => exact FieldDecl.codec_follows
  | var => exact VarDecl.codec_follows
  | type => exact TypeDecl.codec_follows
  | returnStmt => exact ReturnStmt.codec_follows
  | expr => exact Expr.codec_follows
  | span => exact Span.codec_follows

/-- A span in another order, with a key of its own, one default written out and the other left out;
and a receiver that is `null`. -/
theorem decoding_of_rearranged_span :
    Span.codec.decode (.ofMembers [("start_col", .number (.ofNat 7)), ("note", .ofItems [.null]),
        ("end_line", .number (.ofNat 0)), ("file", .string "a.go"),
        ("start_line", .number (.ofNat 3))]) = .ok ⟨"a.go", 3, 7, 0, 0⟩ ∧
      ∃ f ∈ FuncDecl.format, f.name = "receiver" ∧ ∃ a, f.shape .null a := by
  constructor
  · refine ((decoding_follows_format .span).1.fits _ ?_ _).mpr ?_
    · simp [Json.whole_ofMembers, Json.whole_ofItems, Json.Whole]
    · simp [Shape.record_ofMembers, format, Span.format, Format.Field.required,
        Format.Field.optional, Format.Field.Takes, valuesOf, Shape.text, Shape.word32]
  · have hf : FuncDecl.format[3]? =
        some (.optional "receiver" (.option .text) none (·.receiver)) := rfl
    have hmem := List.mem_of_getElem? hf
    exact ⟨_, hmem, rfl, ((decoding_follows_format .func).2 _ hmem).mpr ⟨rfl, rfl⟩⟩

end RecordType

end NilFlow
