import Mathlib.Data.List.Basic
import NilFlow.Json.Schema
import NilFlow.Proofs.Outcome

/-!
# How records are read from whole values

A record can be read from an object or from an array.  Either way, what counts is which values are
given for each field: the values of its key, or the element at its position, if there is one.  A
field with one value takes that value, one without takes its default, and no field takes two
(`Codec.Takes`); and a record is read exactly if all its fields can be (`Schema.Takes`).  This is
`ofMembers_eq_ok_iff` for objects and `ofItems_eq_ok_iff` for arrays, and the order of members plays
no part in it.

Objects are read one member at a time, with a draft of the record.  `Schema.Fills` tells the draft
after some members from the draft before them, field by field.
-/

namespace NilFlow

/-! ### Whole values -/

mutual

/-- A whole value can be passed over. -/
theorem Json.skipFault_of_whole : (v : Json) → v.Whole → v.skipFault = none
  | .null, _ | .bool _, _ | .number _, _ | .string _, _ => by rw [Json.skipFault]
  | .array items, h => by
    rw [Json.Whole] at h
    rw [Json.skipFault, items.skipFault_of_whole h]
  | .object members, h => by
    rw [Json.Whole] at h
    rw [Json.skipFault, members.skipFault_of_whole h]
  | .flawed _, h => by
    rw [Json.Whole] at h
    exact h.elim

/-- Whole elements can be passed over. -/
theorem Items.skipFault_of_whole : (items : Items) → items.Whole → items.skipFault = none
  | .done, _ => by rw [Items.skipFault]
  | .cons v rest, h => by
    rw [Items.Whole] at h
    rw [Items.skipFault, v.skipFault_of_whole h.1, rest.skipFault_of_whole h.2, Option.or_none]
  | .cut _ _, h => by
    rw [Items.Whole] at h
    exact h.elim

/-- Whole members can be passed over. -/
theorem Members.skipFault_of_whole : (ms : Members) → ms.Whole → ms.skipFault = none
  | .done, _ => by rw [Members.skipFault]
  | .cons (.text _) v rest, h => by
    rw [Members.Whole] at h
    rw [Members.skipFault, v.skipFault_of_whole h.1, rest.skipFault_of_whole h.2, Option.or_none]
  | .cons (.flawed _) _ _, h | .cut _ _, h | .stray _, h => by
    rw [Members.Whole] at h
    exact h.elim

end

/-- Whole elements are a list of whole values. -/
theorem Items.whole_iff : (items : Items) →
    (items.Whole ↔ ofList items.toList = items ∧ ∀ v ∈ items.toList, v.Whole)
  | .done => by simp [Items.Whole, toList, ofList]
  | .cons v rest => by
    rw [Items.Whole, rest.whole_iff, toList, ofList, List.forall_mem_cons, cons.injEq]
    tauto
  | .cut _ _ => by simp [Items.Whole, toList, ofList]

/-- Whole members are a list of keys with whole values. -/
theorem Members.whole_iff : (ms : Members) →
    (ms.Whole ↔ ofList ms.toList = ms ∧ ∀ m ∈ ms.toList, m.2.Whole)
  | .done => by simp [Members.Whole, toList, ofList]
  | .cons (.text k) v rest => by
    rw [Members.Whole, rest.whole_iff, toList, ofList, List.forall_mem_cons, cons.injEq]
    tauto
  | .cons (.flawed _) v rest => by
    rw [Members.Whole, toList, false_iff]
    rintro ⟨h, -⟩
    cases hrest : rest.toList <;> simp [hrest, ofList] at h
  | .cut _ _ => by simp [Members.Whole, toList, ofList]
  | .stray _ => by simp [Members.Whole, toList, ofList]

namespace Json

/-- An array of whole values is whole. -/
lemma whole_ofItems {vs : List Json} : (ofItems vs).Whole ↔ ∀ v ∈ vs, v.Whole := by
  rw [ofItems, Json.Whole, Items.whole_iff, Items.toList_ofList]
  exact and_iff_right rfl

/-- An object of whole values is whole. -/
lemma whole_ofMembers {ms : List (String × Json)} :
    (ofMembers ms).Whole ↔ ∀ m ∈ ms, m.2.Whole := by
  rw [ofMembers, Json.Whole, Members.whole_iff, Members.toList_ofList]
  exact and_iff_right rfl

end Json

/-! ### The values given for a field -/

/-- The values of a key, in order. -/
def valuesOf (key : String) (ms : List (String × Json)) : List Json :=
  (ms.filter (·.1 = key)).map (·.2)

section Values

variable {key : String} {ms : List (String × Json)}

/-- A member adds its value to those of its key. -/
lemma valuesOf_cons_self (v : Json) : valuesOf key ((key, v) :: ms) = v :: valuesOf key ms := by
  simp [valuesOf]

/-- A member adds nothing to the values of another key. -/
lemma valuesOf_cons_of_ne {k : String} (v : Json) (h : k ≠ key) :
    valuesOf key ((k, v) :: ms) = valuesOf key ms := by
  simp [valuesOf, h]

/-- The values of a key in two lists of members. -/
lemma valuesOf_append (ms' : List (String × Json)) :
    valuesOf key (ms ++ ms') = valuesOf key ms ++ valuesOf key ms' := by
  simp [valuesOf]

/-- The values of a key are those that stand with it. -/
lemma mem_valuesOf {v : Json} : v ∈ valuesOf key ms ↔ (key, v) ∈ ms := by
  simp [valuesOf]

/-- A key without values is not there. -/
lemma valuesOf_eq_nil_iff : valuesOf key ms = [] ↔ key ∉ ms.map (·.1) := by
  rw [List.eq_nil_iff_forall_not_mem, List.mem_map]
  simp [mem_valuesOf]

/-- A key has as many values as there are members with it. -/
lemma length_valuesOf : (valuesOf key ms).length = (ms.map (·.1)).count key := by
  induction ms with
  | nil => rfl
  | cons m ms ih =>
    obtain ⟨k, v⟩ := m
    by_cases h : k = key
    · subst h
      rw [valuesOf_cons_self, List.map_cons, List.count_cons_self, List.length_cons, ih]
    · rw [valuesOf_cons_of_ne v h, List.map_cons, List.count_cons_of_ne h, ih]

end Values

section Slots

variable {α : Type}

/-- What a field takes from the values given for it: its default if there is none, and else the one
value that there is. -/
def Codec.Takes (c : Codec α) (default : Option α) : List Json → α → Prop
  | [], a => default = some a
  | [v], a => c.decode v = .ok a
  | _ :: _ :: _, _ => False

/-- The place of a field in a draft before and after the values given for it. -/
def Codec.Fills (c : Codec α) (x : Option α) : List Json → Option α → Prop
  | [], x' => x' = x
  | [v], x' => x = none ∧ ∃ a, c.decode v = .ok a ∧ x' = some a
  | _ :: _ :: _, _ => False

variable {c : Codec α} {x x' : Option α}

/-- Places are filled by values one after the other. -/
lemma Codec.fills_append {vs ws : List Json} :
    c.Fills x (vs ++ ws) x' ↔ ∃ y, c.Fills x vs y ∧ c.Fills y ws x' := by
  match vs with
  | [] => simp [Fills]
  | [v] =>
    match ws with
    | [] => simp [Fills]
    | [w] => simp [Fills]
    | w :: w' :: ws => simp [Fills]
  | v :: v' :: vs => simp [Fills]

/-- A field takes what fills its place, or else its default. -/
lemma Codec.exists_fills_iff_takes {default : Option α} {vs : List Json} {a : α} :
    (∃ x, c.Fills none vs x ∧ x.or default = some a) ↔ c.Takes default vs a := by
  match vs with
  | [] => simp [Fills, Takes]
  | [v] => simp [Fills, Takes]
  | v :: v' :: vs => simp [Fills, Takes]

end Slots

namespace Schema

/-- What the fields of a record take from the values given for them.  The values given for a field
may depend on its position and on its name. -/
def Takes : {ρ : Type} → Schema ρ → (Nat → String → List Json) → ρ → Prop
  | _, .nil, _, _ => True
  | _, .field name codec default rest, given, r =>
    codec.Takes default (given 0 name) r.1 ∧ rest.Takes (fun i => given (i + 1)) r.2

/-! ### Objects -/

/-- A draft before and after some members of an object. -/
def Fills : {ρ : Type} → (s : Schema ρ) → s.Draft → List (String × Json) → s.Draft → Prop
  | _, .nil, _, _, _ => True
  | _, .field name codec _ rest, draft, ms, draft' =>
    codec.Fills draft.1 (valuesOf name ms) draft'.1 ∧ rest.Fills draft.2 ms draft'.2

/-- Members whose keys name no field leave a draft as it is. -/
lemma fills_of_unknown {ρ : Type} {s : Schema ρ} {ms : List (String × Json)}
    (h : ∀ name ∈ s.names, valuesOf name ms = []) (draft draft' : s.Draft) :
    s.Fills draft ms draft' ↔ draft' = draft := by
  induction s with
  | nil => exact iff_of_true trivial rfl
  | field name codec default rest ih =>
    have hname : valuesOf name ms = [] := h name List.mem_cons_self
    have hrest := ih (fun n hn => h n (List.mem_cons_of_mem name hn)) draft.2 draft'.2
    rw [Fills, hname, hrest, Codec.Fills]
    exact Prod.ext_iff.symm

/-- A draft is filled by members one after the other. -/
lemma fills_append {ρ : Type} {s : Schema ρ} (draft draft' : s.Draft)
    (ms ms' : List (String × Json)) :
    s.Fills draft (ms ++ ms') draft' ↔ ∃ d, s.Fills draft ms d ∧ s.Fills d ms' draft' := by
  induction s with
  | nil => exact iff_of_true trivial ⟨(), trivial, trivial⟩
  | field name codec default rest ih =>
    simp only [Fills, valuesOf_append, Codec.fills_append, ih]
    constructor
    · rintro ⟨⟨x, hx, hx'⟩, d, hd, hd'⟩
      exact ⟨(x, d), ⟨hx, hd⟩, hx', hd'⟩
    · rintro ⟨d, ⟨hx, hd⟩, hx', hd'⟩
      exact ⟨⟨d.1, hx, hx'⟩, d.2, hd, hd'⟩

section Field

variable {α ρ : Type} {name : String} {codec : Codec α} {default : Option α} {rest : Schema ρ}
  {draft draft' : (field name codec default rest).Draft}

/-- A member with the name of the first field is for that field. -/
lemma put_self_eq_ok_iff {v : Json} :
    (field name codec default rest).put draft name v = .ok draft' ↔
      codec.Fills draft.1 [v] draft'.1 ∧ draft'.2 = draft.2 := by
  obtain ⟨x, d⟩ := draft
  obtain ⟨x', d'⟩ := draft'
  cases x with
  | some a =>
    have hput : (field name codec default rest).put (some a, d) name v =
        .error (.shape (.duplicateField name)) := if_pos rfl
    rw [hput]
    simp [Codec.Fills]
  | none =>
    have hput : (field name codec default rest).put (none, d) name v =
        codec.decode v >>= fun a => .ok (some a, d) := if_pos rfl
    rw [hput]
    simp only [Codec.Fills, true_and]
    refine bind_eq_ok.trans ⟨?_, ?_⟩
    · rintro ⟨a, ha, h⟩
      cases h
      exact ⟨⟨a, ha, rfl⟩, rfl⟩
    · rintro ⟨⟨a, ha, rfl⟩, rfl⟩
      exact ⟨a, ha, rfl⟩

/-- A member with another name is for the other fields. -/
lemma put_of_ne_eq_ok_iff {key : String} {v : Json} (h : key ≠ name) :
    (field name codec default rest).put draft key v = .ok draft' ↔
      draft'.1 = draft.1 ∧ rest.put draft.2 key v = .ok draft'.2 := by
  obtain ⟨x, d⟩ := draft
  obtain ⟨x', d'⟩ := draft'
  have hput : (field name codec default rest).put (x, d) key v =
      rest.put d key v >>= fun d' => .ok (x, d') := if_neg h
  rw [hput]
  refine bind_eq_ok.trans ⟨?_, ?_⟩
  · rintro ⟨d₁, hd₁, h⟩
    cases h
    exact ⟨rfl, hd₁⟩
  · rintro ⟨rfl, hd'⟩
    exact ⟨d', hd', rfl⟩

end Field

/-- One member is put into a draft exactly if it fills it. -/
lemma put_eq_ok_iff {ρ : Type} {s : Schema ρ} (hs : s.names.Nodup) {key : String} {v : Json}
    (hv : v.skipFault = none) (draft draft' : s.Draft) :
    s.put draft key v = .ok draft' ↔ s.Fills draft [(key, v)] draft' := by
  induction s with
  | nil =>
    rw [put, hv]
    exact iff_of_true rfl trivial
  | field name codec default rest ih =>
    obtain ⟨hname, hrest⟩ := List.nodup_cons.mp hs
    rw [Fills]
    by_cases hkey : key = name
    · subst hkey
      -- The other fields have other names, so they are left alone.
      have hothers : ∀ n ∈ rest.names, valuesOf n [(key, v)] = [] := fun n hn =>
        valuesOf_cons_of_ne v fun h => hname (h ▸ hn)
      rw [put_self_eq_ok_iff, fills_of_unknown hothers, valuesOf_cons_self]
      rfl
    · rw [put_of_ne_eq_ok_iff hkey, ih hrest, valuesOf_cons_of_ne v hkey]
      rfl

/-- The members of an object are put into a draft exactly if they fill it. -/
lemma putAll_eq_ok_iff {ρ : Type} {s : Schema ρ} (hs : s.names.Nodup) {ms : List (String × Json)}
    (hms : ∀ m ∈ ms, m.2.skipFault = none) (draft draft' : s.Draft) :
    s.putAll draft (Members.ofList ms) = .ok draft' ↔ s.Fills draft ms draft' := by
  induction ms generalizing draft with
  | nil =>
    rw [Members.ofList, putAll, fills_of_unknown (fun _ _ => rfl), Except.ok.injEq, eq_comm]
  | cons m ms ih =>
    obtain ⟨key, v⟩ := m
    obtain ⟨hv, hms⟩ := List.forall_mem_cons.mp hms
    rw [Members.ofList, putAll, bind_eq_ok, ← List.singleton_append, fills_append]
    simp only [put_eq_ok_iff hs hv, ih hms]

/-- A draft is finished if each field has a value or a default. -/
lemma finish_field_eq_ok_iff {α ρ : Type} {name : String} {codec : Codec α} {default : Option α}
    {rest : Schema ρ} {draft : (field name codec default rest).Draft} {r : α × ρ} :
    (field name codec default rest).finish draft = .ok r ↔
      draft.1.or default = some r.1 ∧ rest.finish draft.2 = .ok r.2 := by
  obtain ⟨a, r⟩ := r
  rw [finish]
  cases draft.1.or default with
  | none => simp
  | some b =>
    simp only [bind_eq_ok, Option.some_inj]
    constructor
    · rintro ⟨r', hr', h⟩
      cases h
      exact ⟨rfl, hr'⟩
    · rintro ⟨rfl, hr⟩
      exact ⟨r, hr, rfl⟩

/-- The draft that the members leave can be finished exactly if the fields take their values. -/
lemma exists_fills_iff_takes {ρ : Type} {s : Schema ρ} {ms : List (String × Json)} {r : ρ} :
    (∃ d, s.Fills s.blank ms d ∧ s.finish d = .ok r) ↔
      s.Takes (fun _ name => valuesOf name ms) r := by
  induction s with
  | nil => exact iff_of_true ⟨(), trivial, rfl⟩ trivial
  | field name codec default rest ih =>
    rw [Takes, ← ih, ← Codec.exists_fills_iff_takes]
    constructor
    · rintro ⟨⟨x, d⟩, ⟨hx, hd⟩, h⟩
      obtain ⟨ha, hr⟩ := finish_field_eq_ok_iff.mp h
      exact ⟨⟨x, hx, ha⟩, d, hd, hr⟩
    · rintro ⟨⟨x, hx, ha⟩, d, hd, hr⟩
      exact ⟨(x, d), ⟨hx, hd⟩, finish_field_eq_ok_iff.mpr ⟨ha, hr⟩⟩

/-- A record is read from an object exactly if each field takes what its key has. -/
lemma ofMembers_eq_ok_iff {ρ : Type} {s : Schema ρ} (hs : s.names.Nodup) {ms : Members}
    (hms : ms.Whole) {r : ρ} :
    s.ofMembers ms = .ok r ↔ s.Takes (fun _ name => valuesOf name ms.toList) r := by
  obtain ⟨hlist, hvalues⟩ := ms.whole_iff.mp hms
  have hskip : ∀ m ∈ ms.toList, m.2.skipFault = none := fun m hm =>
    m.2.skipFault_of_whole (hvalues m hm)
  rw [← exists_fills_iff_takes, ofMembers, bind_eq_ok, ← hlist]
  simp only [putAll_eq_ok_iff hs hskip, Members.toList_ofList]

/-! ### Arrays -/

/-- The fields of a record are taken from the elements of an array exactly if each takes what stands
at its position. -/
lemma takeItems_eq_ok_iff {ρ : Type} {s : Schema ρ} {wanted : Wanted} {index : Nat} {vs : List Json}
    {r : ρ} {left : Items} :
    s.takeItems wanted index (Items.ofList vs) = .ok (r, left) ↔
      s.Takes (fun i _ => vs[i]?.toList) r ∧ left = Items.ofList (vs.drop s.width) := by
  induction s generalizing index vs with
  | nil =>
    rw [takeItems, Except.ok.injEq, Prod.mk.injEq, eq_comm (a := Items.ofList vs)]
    exact and_congr_left fun _ => iff_of_true rfl trivial
  | field name codec default rest ih =>
    obtain ⟨a, r⟩ := r
    cases vs with
    | nil =>
      have hrest := @ih (index + 1) [] r
      rw [List.drop_nil] at hrest
      cases default with
      | none => exact iff_of_false nofun fun h => nomatch h.1.1
      | some b =>
        refine bind_eq_ok.trans ⟨?_, ?_⟩
        · rintro ⟨⟨r', left'⟩, htake, h⟩
          cases h
          obtain ⟨hr, hleft⟩ := hrest.mp htake
          exact ⟨⟨rfl, hr⟩, hleft⟩
        · rintro ⟨⟨hb, hr⟩, hleft⟩
          cases hb
          exact ⟨(r, left), hrest.mpr ⟨hr, hleft⟩, rfl⟩
    | cons v vs =>
      refine bind_eq_ok.trans ⟨?_, ?_⟩
      · rintro ⟨b, hb, h⟩
        obtain ⟨⟨r', left'⟩, htake, h⟩ := bind_eq_ok.mp h
        cases h
        obtain ⟨hr, hleft⟩ := ih.mp htake
        exact ⟨⟨hb, hr⟩, hleft⟩
      · rintro ⟨⟨ha, hr⟩, hleft⟩
        exact ⟨a, ha, bind_eq_ok.mpr ⟨(r, left), ih.mpr ⟨hr, hleft⟩, rfl⟩⟩

/-- The array has to be at its end when the record is. -/
lemma close_ofList_eq_ok_iff {vs : List Json} : close (Items.ofList vs) = .ok () ↔ vs = [] := by
  cases vs <;> simp [Items.ofList, close]

/-- A record is read from an array exactly if the array has no more elements than the record has
fields, and each field takes what stands at its position. -/
lemma ofItems_eq_ok_iff {ρ : Type} {s : Schema ρ} {wanted : Wanted} {items : Items}
    (hitems : items.Whole) {r : ρ} :
    s.ofItems wanted items = .ok r ↔
      items.toList.length ≤ s.width ∧ s.Takes (fun i _ => items.toList[i]?.toList) r := by
  have hlist : Items.ofList items.toList = items := (items.whole_iff.mp hitems).1
  rw [ofItems, bind_eq_ok, ← hlist, Items.toList_ofList]
  simp only [bind_eq_ok]
  constructor
  · rintro ⟨⟨r', left⟩, htake, ⟨⟩, hclose, h⟩
    cases h
    obtain ⟨hr, rfl⟩ := takeItems_eq_ok_iff.mp htake
    exact ⟨List.drop_eq_nil_iff.mp (close_ofList_eq_ok_iff.mp hclose), hr⟩
  · rintro ⟨hlength, hr⟩
    have hdrop : items.toList.drop s.width = [] := List.drop_eq_nil_iff.mpr hlength
    exact ⟨(r, _), takeItems_eq_ok_iff.mpr ⟨hr, rfl⟩, (), close_ofList_eq_ok_iff.mpr hdrop, rfl⟩

end Schema

end NilFlow
