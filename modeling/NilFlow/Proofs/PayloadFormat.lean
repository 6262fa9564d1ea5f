import NilFlow.Proofs.RoundTrip
import NilFlow.Trigger.PayloadCodec

/-!
# Payloads as texts

A payload is decoded from its text, and from every other way in which its kind and its fields can be
given: as members in any order, with the kind anywhere among them and with unknown keys beside them,
or as an array.

A decoder meets the members before it can know which of them are fields, since the kind may come
last.  It sets them aside and picks the kind out (`gather_ofList`); the fields are then found among
the others by their keys (`Sized.ofMembers`).  Setting a value aside means to read it whole, which
scalars survive (`Scalar`).  The fields of payloads are scalars themselves, as long as their
positions are words (`Sized`).
-/

namespace NilFlow

/-! ### Scalars -/

/-- A string, a truth value, `null`, or an integer of 64 bits, unsigned or, below zero, signed. -/
inductive Json.Scalar : Json → Prop where
  | null : Scalar .null
  | bool (b : Bool) : Scalar (.bool b)
  | string (s : String) : Scalar (.string s)
  | natural {n : Nat} (h : n < UInt64.size) : Scalar (.number (.ofNat n))
  | negative {n : Nat} (hpos : 0 < n) (h : n ≤ UInt64.size / 2) :
      Scalar (.number { Numeral.ofNat n with negative := true })

namespace Json.Scalar

variable {v : Json}

/-- Scalars are plain values. -/
lemma plain (h : v.Scalar) : v.Plain := by
  cases h with
  | null | bool _ | string _ =>
    rw [Json.Plain]
    trivial
  | natural _ | negative _ _ =>
    rw [Json.Plain]
    exact nofun

/-- Scalars can be read at any depth of nesting. -/
lemma readFault (h : v.Scalar) (depth : Nat) : v.readFault depth = none := by
  cases h with
  | null | bool _ | string _ => rw [Json.readFault]
  | @natural n h =>
    have hn : n ≤ Numeral.maxWord := Nat.le_pred_of_lt h
    have hquantity : (Numeral.ofNat n).quantity?.isSome = true := by
      simp [Numeral.quantity?, Numeral.ofNat, hn]
    rw [Json.readFault, if_pos hquantity]
  | @negative n hpos h =>
    have hquantity :
        ({ Numeral.ofNat n with negative := true } : Numeral).quantity?.isSome = true := by
      simp [Numeral.quantity?, Numeral.ofNat, hpos, h]
    rw [Json.readFault, if_pos hquantity]

end Json.Scalar

/-- An array of scalars can be read at any depth of nesting. -/
lemma Items.readFault_of_scalar {vs : List Json} (hvs : ∀ v ∈ vs, v.Scalar) (depth : Nat) :
    (Items.ofList vs).readFault depth = none := by
  induction vs with
  | nil => rw [Items.ofList, Items.readFault]
  | cons v vs ih =>
    obtain ⟨hv, hvs⟩ := List.forall_mem_cons.mp hvs
    rw [Items.ofList, Items.readFault, hv.readFault depth, ih hvs]
    rfl

/-! ### Texts of a value -/

/-- A value is decoded from its printed text, and from every other text of it, whatever the blanks
and escapes in it. -/
structure Codec.Reads {α : Type} (c : Codec α) (v : Json) (a : α) : Prop where
  printed : c.decodeText v.render = .ok a
  given : ∀ text, Document.read text = ⟨v, none⟩ → c.decodeText text = .ok a

/-- A plain value has a text, and each of its texts is decoded as the value is. -/
lemma Codec.Reads.of_decode {α : Type} {c : Codec α} {v : Json} {a : α} (hv : v.Plain)
    (h : c.decode v = .ok a) : c.Reads v a where
  printed := (c.decodeText_of_read (Json.read_render hv)).trans h
  given _ htext := (c.decodeText_of_read htext).trans h

/-! ### Fields in any order -/

/-- A key that occurs at most once has the same values in any order of the members. -/
lemma valuesOf_eq_of_perm {key : String} {ms ms' : List (String × Json)} (h : ms.Perm ms')
    (hone : (ms'.map (·.1)).count key ≤ 1) : valuesOf key ms = valuesOf key ms' := by
  have hperm : (valuesOf key ms).Perm (valuesOf key ms') := (h.filter _).map _
  rw [← length_valuesOf] at hone
  match hvs : valuesOf key ms' with
  | [] => rwa [hvs, List.perm_nil] at hperm
  | [v] => rwa [hvs, List.perm_singleton] at hperm
  | v :: v' :: vs =>
    rw [hvs, List.length_cons, List.length_cons] at hone
    omega

namespace Schema

variable {ρ : Type} {s : Schema ρ} {r : ρ}

/-- Each field is decoded from its own value among the values of all fields in order. -/
lemma Carries.takes_values (h : s.Carries r) :
    s.Takes (fun i _ => ((s.members r).map (·.2))[i]?.toList) r := by
  induction s with
  | nil => trivial
  | field name codec default rest ih =>
    obtain ⟨a, r⟩ := r
    exact ⟨h.1, ih h.2⟩

end Schema

/-! ### Kinds -/

namespace Tag

/-- Every tag is in the list of all tags. -/
lemma mem_all (t : Tag) : t ∈ all := by
  cases t <;> decide

/-- A kind is found by its name, since no two kinds have the same one. -/
lemma ofName?_name (t : Tag) : ofName? t.name = some t := by
  have hnames : (all.map name).Nodup := by decide +kernel
  cases h : ofName? t.name with
  | none => exact absurd (beq_self_eq_true t.name) (List.find?_eq_none.mp h t t.mem_all)
  | some u =>
    have hname : u.name = t.name := by simpa using List.find?_some h
    have hu : u ∈ all := List.mem_of_find?_eq_some h
    rw [List.inj_on_of_nodup_map hnames hu t.mem_all hname]

/-- The name of a kind is decoded to the kind. -/
lemma decode_name (t : Tag) : decode (.string t.name) = .ok t := by
  rw [decode, t.ofName?_name]

/-- No kind has two fields of the same name. -/
lemma nodup_names (t : Tag) : t.schema.names.Nodup := by
  cases t <;> decide

/-- No field has the key of the kind for its name. -/
lemma kindKey_not_mem_names (t : Tag) : Payload.kindKey ∉ t.schema.names := by
  cases t <;> decide

end Tag

namespace Payload

/-- The positions that a payload mentions. -/
def positions : Payload → List Nat
  | .useAsErrorResult index _ _ _ => [index]
  | .argFldPass _ _ index _ => [index]
  | .interfaceResultFromImplementation index _ _ => [index]
  | .useAsReturn _ index _ _ => [index]
  | .useAsFldOfReturn _ _ index => [index]
  | .funcRetAssignDeep _ index => [index]
  | .useAsNonErrorRetDependentOnErrorRetNilability _ index _ errorIndex _ => [index, errorIndex]
  | .useAsErrorRetWithNilabilityUnknown _ index _ _ => [index]
  | _ => []

/-- All positions fit a word of 64 bits. -/
def Sized (p : Payload) : Prop :=
  ∀ n ∈ p.positions, n < UInt64.size

/-- The fields of a payload with their names, in order. -/
def fieldMembers (p : Payload) : List (String × Json) :=
  p.tag.schema.members p.fields

/-- Texts are decoded from what is written for them. -/
@[simp] lemma text_carries (t : String) : Codec.text.Carries t := rfl

/-- Truth values are decoded from what is written for them. -/
@[simp] lemma bool_carries (b : Bool) : Codec.bool.Carries b := rfl

/-- Positions are decoded from what is written for them if they fit a word. -/
@[simp] lemma position_carries {n : Nat} : Codec.position.Carries n ↔ n < UInt64.size := by
  have hdecode : Codec.position.decode (.number (.ofNat n)) = .ok n ↔
      Json.number (.ofNat n) = .number (.ofNat n) ∧ n < UInt64.size :=
    Codec.below_eq_ok_iff (Nat.le_refl _)
  exact hdecode.trans (and_iff_right rfl)

/-- The fields of a payload are decoded from what is written for them exactly if its positions fit a
word. -/
lemma carries_fields {p : Payload} : p.tag.schema.Carries p.fields ↔ p.Sized := by
  cases p <;> simp [Sized, positions, tag, Tag.schema, Schema.required, Schema.Carries, fields]

/-- The fields of a payload are written as scalars. -/
lemma Sized.scalar {p : Payload} (hp : p.Sized) : ∀ m ∈ p.fieldMembers, m.2.Scalar := by
  cases p <;> simp_all [Sized, positions, fieldMembers, tag, Tag.schema, Schema.required,
    Schema.members, fields, Codec.text, Codec.bool, Codec.position, Codec.below, Json.Scalar.string,
    Json.Scalar.bool, Json.Scalar.natural]

/-! ### Members set aside -/

section Gathering

variable {t : Tag} {before after ms : List (String × Json)}

/-- After the kind, all members are set aside. -/
lemma gather_some (others : List (String × Json)) (hkeys : ∀ m ∈ ms, m.1 ≠ kindKey)
    (hvalues : ∀ m ∈ ms, m.2.Scalar) :
    gather (some t) others (Members.ofList ms) = .ok (t, others.reverse ++ ms) := by
  induction ms generalizing others with
  | nil =>
    rw [Members.ofList, gather, List.append_nil]
  | cons m ms ih =>
    obtain ⟨key, v⟩ := m
    obtain ⟨hkey, hkeys⟩ := List.forall_mem_cons.mp hkeys
    obtain ⟨hv, hvalues⟩ := List.forall_mem_cons.mp hvalues
    rw [Members.ofList, gather, if_neg hkey, hv.readFault maxNesting]
    simp only [ih _ hkeys hvalues, List.reverse_cons, List.append_assoc, List.singleton_append]

/-- The kind is picked out from among the members, and the others are set aside in their order. -/
lemma gather_ofList (others : List (String × Json))
    (hkeys : ∀ m ∈ before ++ after, m.1 ≠ kindKey) (hvalues : ∀ m ∈ before ++ after, m.2.Scalar) :
    gather none others (Members.ofList (before ++ (kindKey, .string t.name) :: after)) =
      .ok (t, others.reverse ++ (before ++ after)) := by
  induction before generalizing others with
  | nil =>
    rw [List.nil_append, Members.ofList, gather, if_pos rfl, t.decode_name]
    exact gather_some others hkeys hvalues
  | cons m before ih =>
    obtain ⟨key, v⟩ := m
    obtain ⟨hkey, hkeys⟩ := List.forall_mem_cons.mp hkeys
    obtain ⟨hv, hvalues⟩ := List.forall_mem_cons.mp hvalues
    rw [List.cons_append, Members.ofList, gather, if_neg hkey, hv.readFault maxNesting]
    simp only [ih _ hkeys hvalues, List.reverse_cons, List.append_assoc, List.cons_append,
      List.nil_append]

end Gathering

/-! ### Decoding -/

section Decoding

variable {p : Payload}

/-- The keys of the fields are their names. -/
lemma keys_fieldMembers (p : Payload) : p.fieldMembers.map (·.1) = p.tag.schema.names :=
  p.tag.schema.keys_members p.fields

/-- The fields are found among members that are those of the fields and others in any order. -/
lemma Sized.ofMembers (hp : p.Sized) {extras ms : List (String × Json)}
    (hextras : ∀ m ∈ extras, m.1 ∉ p.tag.schema.names) (hvalues : ∀ m ∈ ms, m.2.Scalar)
    (hms : ms.Perm (p.fieldMembers ++ extras)) :
    p.tag.schema.ofMembers (Members.ofList ms) = .ok p.fields := by
  refine (carries_fields.mpr hp).ofMembers_eq_ok p.tag.nodup_names
    (fun m hm => (hvalues m hm).plain) fun name hname => ?_
  -- The others do not have the name, and the fields have it once.
  have hothers : valuesOf name extras = [] := by
    refine valuesOf_eq_nil_iff.mpr fun hmem => ?_
    obtain ⟨m, hm, rfl⟩ := List.mem_map.mp hmem
    exact hextras m hm hname
  have hsame : valuesOf name (p.fieldMembers ++ extras) = valuesOf name p.fieldMembers := by
    rw [valuesOf_append, hothers, List.append_nil]
  have hone : ((p.fieldMembers ++ extras).map (·.1)).count name ≤ 1 := by
    rw [← length_valuesOf, hsame, length_valuesOf, keys_fieldMembers]
    exact List.nodup_iff_count_le_one.mp p.tag.nodup_names name
  rw [valuesOf_eq_of_perm hms hone, hsame]
  rfl

/-- All values are scalars among the kind, the fields and scalars beside them. -/
lemma Sized.scalar_of_perm (hp : p.Sized) {extras ms : List (String × Json)}
    (hextras : ∀ m ∈ extras, m.2.Scalar)
    (hms : ms.Perm ((kindKey, .string p.siteKind) :: p.fieldMembers ++ extras)) :
    ∀ m ∈ ms, m.2.Scalar := by
  intro m hm
  rcases List.mem_cons.mp (hms.mem_iff.mp hm) with rfl | hm
  · exact .string p.siteKind
  · rcases List.mem_append.mp hm with hm | hm
    · exact hp.scalar m hm
    · exact hextras m hm

/-- A payload is decoded from its kind and its fields in any order, with others beside them. -/
lemma Sized.decode_ofMembers (hp : p.Sized) {extras ms : List (String × Json)}
    (hextras : ∀ m ∈ extras, m.1 ≠ kindKey ∧ m.1 ∉ p.tag.schema.names ∧ m.2.Scalar)
    (hms : ms.Perm ((kindKey, .string p.siteKind) :: p.fieldMembers ++ extras)) :
    codec.decode (.ofMembers ms) = .ok p := by
  have hscalar := hp.scalar_of_perm (fun m hm => (hextras m hm).2.2) hms
  have hkind : (kindKey, .string p.siteKind) ∈ ms := hms.mem_iff.mpr List.mem_cons_self
  obtain ⟨before, after, rfl⟩ := List.append_of_mem hkind
  have hothers : (before ++ after).Perm (p.fieldMembers ++ extras) :=
    (List.perm_middle.symm.trans hms).cons_inv
  have hkeys : ∀ m ∈ before ++ after, m.1 ≠ kindKey := by
    intro m hm
    rcases List.mem_append.mp (hothers.mem_iff.mp hm) with hm | hm
    · have hname : m.1 ∈ p.tag.schema.names := p.keys_fieldMembers ▸ List.mem_map_of_mem hm
      intro hkey
      exact p.tag.kindKey_not_mem_names (hkey ▸ hname)
    · exact (hextras m hm).1
  have hvalues : ∀ m ∈ before ++ after, m.2.Scalar := fun m hm =>
    hscalar m (List.perm_middle.mem_iff.mpr (List.mem_cons_of_mem _ hm))
  have hgather :
      gather none [] (Members.ofList (before ++ (kindKey, .string p.siteKind) :: after)) =
        .ok (p.tag, before ++ after) := by
    rw [siteKind_eq]
    exact gather_ofList [] hkeys hvalues
  have hfields : p.tag.schema.ofMembers (Members.ofList (before ++ after)) = .ok p.fields :=
    hp.ofMembers (fun m hm => (hextras m hm).2.1) hvalues hothers
  have hdecode : codec.decode (.ofMembers (before ++ (kindKey, .string p.siteKind) :: after)) =
      .ok (ofFields p.tag p.fields) := by
    simp only [codec, Json.ofMembers, decode, hgather, bind, Except.bind, hfields]
    rfl
  rw [hdecode, ofFields_fields]

/-- The fields are taken from their values in order, and no value is left. -/
lemma Sized.takeItems (hp : p.Sized) (wanted : Wanted) :
    p.tag.schema.takeItems wanted 0 (Items.ofList (p.fieldMembers.map (·.2))) =
      .ok (p.fields, .done) := by
  have hlength : (p.fieldMembers.map (·.2)).length = p.tag.schema.width := by
    rw [List.length_map, ← List.length_map (·.1), keys_fieldMembers]
    rfl
  refine Schema.takeItems_eq_ok_iff.mpr ⟨(carries_fields.mpr hp).takes_values, ?_⟩
  rw [← hlength, List.drop_length]
  rfl

/-- A payload is decoded from the array of its kind and its fields. -/
lemma Sized.decode_ofItems (hp : p.Sized) :
    codec.decode (.ofItems (.string p.siteKind :: p.fieldMembers.map (·.2))) = .ok p := by
  have hread : (Items.ofList (p.fieldMembers.map (·.2))).readFault maxNesting = none := by
    refine Items.readFault_of_scalar (fun v hv => ?_) maxNesting
    obtain ⟨m, hm, rfl⟩ := List.mem_map.mp hv
    exact hp.scalar m hm
  have hkind : Tag.decode (.string p.siteKind) = .ok p.tag := by
    rw [siteKind_eq, Tag.decode_name]
  have hitems : ofItems p.tag (Items.ofList (p.fieldMembers.map (·.2))) =
      .ok (ofFields p.tag p.fields) := by
    simp only [ofItems, hp.takeItems, bind, Except.bind]
    rfl
  have hdecode : codec.decode (.ofItems (.string p.siteKind :: p.fieldMembers.map (·.2))) =
      .ok (ofFields p.tag p.fields) := by
    simp only [codec, Json.ofItems, Items.ofList, decode, hkind, bind, Except.bind, hread, hitems]
  rw [hdecode, ofFields_fields]

/-- What is written is the kind that logs have, and the fields after it. -/
lemma encode_eq (p : Payload) :
    codec.encode p = .ofMembers ((kindKey, .string p.siteKind) :: p.fieldMembers) := by
  rw [siteKind_eq]
  rfl

end Decoding

/-- A payload is decoded from its text.  It is also decoded from its kind and its fields as members
in any order, with scalars beside them under any other keys, and as an array.  The kind that is
written is the one that logs have. -/
theorem json_round_trip (p : Payload) (hp : p.Sized) :
    codec.decodeText (codec.encodeText p) = .ok p ∧
      (∀ extras ms : List (String × Json),
        (∀ m ∈ extras, m.1 ≠ kindKey ∧ m.1 ∉ p.tag.schema.names ∧ m.2.Scalar) →
        ms.Perm ((kindKey, .string p.siteKind) :: p.fieldMembers ++ extras) →
        codec.Reads (.ofMembers ms) p) ∧
      codec.Reads (.ofItems (.string p.siteKind :: p.fieldMembers.map (·.2))) p ∧
      codec.encode p = .ofMembers ((kindKey, .string p.siteKind) :: p.fieldMembers) := by
  have hmembers : ∀ extras ms : List (String × Json),
      (∀ m ∈ extras, m.1 ≠ kindKey ∧ m.1 ∉ p.tag.schema.names ∧ m.2.Scalar) →
      ms.Perm ((kindKey, .string p.siteKind) :: p.fieldMembers ++ extras) →
      codec.Reads (.ofMembers ms) p := by
    intro extras ms hextras hms
    have hscalar := hp.scalar_of_perm (fun m hm => (hextras m hm).2.2) hms
    have hplain : (Json.ofMembers ms).Plain := Json.plain_ofMembers fun m hm => (hscalar m hm).plain
    exact .of_decode hplain (hp.decode_ofMembers hextras hms)
  have hplain : (Json.ofItems (.string p.siteKind :: p.fieldMembers.map (·.2))).Plain := by
    refine Json.plain_ofItems (List.forall_mem_cons.mpr ⟨(Json.Scalar.string _).plain, ?_⟩)
    exact List.forall_mem_map.mpr fun m hm => (hp.scalar m hm).plain
  refine ⟨?_, hmembers, .of_decode hplain hp.decode_ofItems, p.encode_eq⟩
  -- The members that are written are those of the payload with none beside them.
  have hwritten := hmembers [] _ nofun (List.Perm.of_eq (List.append_nil _).symm)
  rw [Codec.encodeText, p.encode_eq]
  exact hwritten.printed

/-- The kind may come last, keys that are not known may come first and more than once, and positions
and integers may be as large as they can be. -/
theorem json_round_trip_kind_last :
    let p : Payload :=
      .useAsNonErrorRetDependentOnErrorRetNilability "f\"\n" (UInt64.size - 1) "é" 0 true
    let least : Json := .number { Numeral.ofNat (UInt64.size / 2) with negative := true }
    p.Sized ∧ least.Scalar ∧
      codec.decodeText (Json.ofMembers
        [("note", least), ("note", .null), ("is_named_return", .bool true),
          ("err_ret_num", .number (.ofNat 0)), ("ret_name", .string "é"),
          ("ret_num", .number (.ofNat (UInt64.size - 1))), ("func_name", .string "f\"\n"),
          ("kind", .string "UseAsNonErrorRetDependentOnErrorRetNilability")]).render = .ok p := by
  intro p least
  have hsized : p.Sized :=
    List.forall_mem_cons.mpr ⟨by decide, List.forall_mem_cons.mpr ⟨by decide, nofun⟩⟩
  have hleast : least.Scalar := .negative (by decide) (by decide)
  have hextras : ∀ m ∈ [("note", Json.null), ("note", least)],
      m.1 ≠ kindKey ∧ m.1 ∉ p.tag.schema.names ∧ m.2.Scalar :=
    List.forall_mem_cons.mpr ⟨⟨by decide, by decide, .null⟩,
      List.forall_mem_cons.mpr ⟨⟨by decide, by decide, hleast⟩, nofun⟩⟩
  obtain ⟨-, hmembers, -, -⟩ := json_round_trip p hsized
  exact ⟨hsized, hleast, (hmembers _ _ hextras (List.reverse_perm _)).printed⟩

end Payload

end NilFlow
