import Mathlib.Data.Set.Card
import NilFlow.Proofs.Guards
import NilFlow.Proofs.RoundTrip

/-!
# Guard sets as finite sets

`GuardSet.Built` says how guard sets come about, and which nonces each of them is to have: those of
a list, more of them, those of two sets, or those of a text that is decoded.  However a set was
built, its members are these nonces and nothing else is kept of how it was built
(`GuardSet.Built.mem_iff`).  So two sets are the same if their members are, and what is asked of a
set is a matter of its members.

Both written forms tell the members as well.  A set is decoded from the text that is written for it,
and the form for reports is read from the left: each number ends at a comma or at the closing brace
(`listed_injective`).
-/

namespace NilFlow

/-! ### Lists of words as texts -/

namespace Codec

variable {α β : Type}

/-- Texts are decoded along with the values that they are the texts of. -/
lemma decodeText_map {c : Codec α} {d : Codec β} {f : α → β}
    (h : ∀ v, d.decode v = f <$> c.decode v) (text : String) :
    d.decodeText text = f <$> c.decodeText text := by
  rw [decodeText, decodeText, h]
  cases c.decode (Document.read text).value with
  | error e => rfl
  | ok a => cases (Document.read text).trailing <;> rfl

/-- Elements are decoded one by one. -/
theorem decodeItems_map {c : Codec α} {d : Codec β} {f : α → β}
    (h : ∀ v, d.decode v = f <$> c.decode v) :
    (items : Items) → d.decodeItems items = List.map f <$> c.decodeItems items
  | .done => rfl
  | .cut _ _ => rfl
  | .cons v rest => by
    rw [decodeItems, decodeItems, decodeItems_map h rest, h]
    cases c.decode v with
    | error e => rfl
    | ok a => cases c.decodeItems rest <;> rfl

/-- Lists are decoded along with their elements. -/
lemma decode_list_map {c : Codec α} {d : Codec β} {f : α → β}
    (h : ∀ v, d.decode v = f <$> c.decode v) (v : Json) :
    d.list.decode v = List.map f <$> c.list.decode v := by
  cases v with
  | array items => exact decodeItems_map h items
  | null | bool _ | number _ | string _ | object _ | flawed _ => rfl

/-- Words of 64 bits are written in digits. -/
lemma word64_faithful : word64.Faithful where
  plain n := by
    rw [word64, imap, below, Json.Plain]
    exact Numeral.decimal_ofNat n.toNat
  lawful n := by
    have hbelow : (below UInt64.size .word64).decode (.number (.ofNat n.toNat)) = .ok n.toNat :=
      (below_eq_ok_iff (Nat.le_refl _)).mpr ⟨rfl, n.toNat_lt⟩
    exact map_eq_ok.mpr ⟨n.toNat, hbelow, UInt64.ofNat_toNat⟩

end Codec

namespace GuardSet

/-! ### What a set was built from -/

/-- How a guard set may be built, and the nonces that it is to have. -/
inductive Built : GuardSet → Set Nonce → Prop where
  | ofList (gs : List Nonce) : Built (.ofList gs) {g | g ∈ gs}
  | add {s : GuardSet} {A : Set Nonce} (hs : Built s A) (gs : List Nonce) :
      Built (s.add gs) (A ∪ {g | g ∈ gs})
  | inter {s t : GuardSet} {A B : Set Nonce} (hs : Built s A) (ht : Built t B) :
      Built (s.inter t) (A ∩ B)
  /-- The text is that of a list of words, in any order and with repetitions. -/
  | decoded {text : String} {words : List UInt64} {s : GuardSet}
      (hwords : (Codec.list Codec.word64).decodeText text = .ok words)
      (hs : codec.decodeText text = .ok s) : Built s {g | g.raw ∈ words}

/-- The nonces of a list are the members of its set. -/
@[simp] lemma mem_ofList {gs : List Nonce} {g : Nonce} : g ∈ ofList gs ↔ g ∈ gs := by
  rw [ofList, mem_add, or_iff_right mem_empty]

/-- A set is that of its members in ascending order. -/
lemma ofList_toList (s : GuardSet) : ofList s.toList = s := by
  ext g
  rw [mem_ofList, mem_toList]

/-- Texts are decoded to guard sets if they are texts of lists of words, whose set is then taken. -/
lemma decodeText_eq (text : String) :
    codec.decodeText text =
      (fun words => ofList (words.map Nonce.mk)) <$> (Codec.list Codec.word64).decodeText text := by
  refine Codec.decodeText_map (fun v => ?_) text
  have hlist : (Codec.list Nonce.codec).decode v =
      List.map Nonce.mk <$> (Codec.list Codec.word64).decode v :=
    Codec.decode_list_map (fun _ => rfl) v
  show ofList <$> (Codec.list Nonce.codec).decode v = _
  rw [hlist]
  cases (Codec.list Codec.word64).decode v <;> rfl

/-- A set has the nonces that it was built to have. -/
lemma Built.mem_iff {s : GuardSet} {A : Set Nonce} (h : Built s A) (g : Nonce) : g ∈ s ↔ g ∈ A := by
  induction h with
  | ofList gs => exact mem_ofList
  | add _ gs ih => rw [mem_add, ih, Set.mem_union, Set.mem_ofPred_eq]
  | inter _ _ ihs iht => rw [mem_inter, ihs, iht, Set.mem_inter_iff]
  | @decoded text words s hwords hs =>
    rw [decodeText_eq, hwords] at hs
    cases hs
    rw [mem_ofList, List.mem_map, Set.mem_ofPred_eq]
    constructor
    · rintro ⟨word, hword, rfl⟩
      exact hword
    · exact fun hg => ⟨g.raw, hg, rfl⟩

/-- The nonces that a set was built to have, as a set. -/
lemma Built.eq_setOf {s : GuardSet} {A : Set Nonce} (h : Built s A) : A = {g | g ∈ s.toList} := by
  ext g
  exact (h.mem_iff g).symm

/-- Two sets are the same if they were built to have the same nonces. -/
lemma Built.eq_iff {s t : GuardSet} {A B : Set Nonce} (hs : Built s A) (ht : Built t B) :
    s = t ↔ A = B := by
  rw [Set.ext_iff, GuardSet.ext_iff]
  simp only [hs.mem_iff, ht.mem_iff]

/-! ### Questions about the members -/

/-- The size is the number of members. -/
lemma size_eq_ncard (s : GuardSet) : s.size = {g | g ∈ s.toList}.ncard := by
  rw [← List.coe_toFinset, Set.ncard_coe_finset, List.toFinset_card_of_nodup s.nodup_toList, size]

/-- A set is empty if it has no members. -/
lemma isEmpty_iff {s : GuardSet} : s.isEmpty = true ↔ ∀ g, g ∉ s := by
  rw [isEmpty, List.isEmpty_iff, List.eq_nil_iff_forall_not_mem]
  rfl

/-- A set includes another one if it has all members of it. -/
lemma isSuperset_iff {s t : GuardSet} : s.isSuperset t = true ↔ ∀ g, g ∈ t → g ∈ s := by
  rw [isSuperset, List.all_eq_true]
  simp only [contains_iff, mem_toList]

/-! ### The form for reports -/

/-- What stands after a number in the form for reports, if other numbers follow it. -/
def listed : List Nonce → List Char
  | [] => ['\x7d']
  | g :: gs => ',' :: ' ' :: (Nat.toDigits 10 g.raw.toNat ++ listed gs)

/-- Numbers separated by commas. -/
lemma intercalate_append_brace (g : Nonce) (gs : List Nonce) :
    [',', ' '].intercalate ((g :: gs).map fun g => Nat.toDigits 10 g.raw.toNat) ++ ['\x7d'] =
      Nat.toDigits 10 g.raw.toNat ++ listed gs := by
  induction gs generalizing g with
  | nil => rw [List.map_singleton, List.intercalate_singleton, listed]
  | cons g' gs ih =>
    rw [List.map_cons, List.map_cons, List.intercalate_cons_cons, List.append_assoc,
      ← List.map_cons (f := fun g : Nonce => Nat.toDigits 10 g.raw.toNat), ih, listed,
      List.append_assoc]
    rfl

/-- The form for reports, between its braces. -/
lemma toList_text (s : GuardSet) :
    s.text.toList = '\x7b' ::
      ([',', ' '].intercalate (s.toList.map fun g => Nat.toDigits 10 g.raw.toNat) ++ ['\x7d']) := by
  have hdigits : s.toList.map (fun g => (Nonce.text g).toList) =
      s.toList.map fun g => Nat.toDigits 10 g.raw.toNat :=
    List.map_congr_left fun g _ => by
      rw [Nonce.text, Nat.toString_eq_ofList_toDigits, String.toList_ofList]
  rw [text, String.toList_append, String.toList_append, String.toList_intercalate, List.map_map,
    ← hdigits]
  rfl

/-- What follows a number is not a digit. -/
lemma head_listed (gs : List Nonce) : ∀ c ∈ (listed gs).head?, c.isDigit = false := by
  cases gs with
  | nil | cons g gs =>
    rintro _ ⟨⟩
    rfl

/-- The numbers can be read from the left, one after the other. -/
lemma listed_injective {gs hs : List Nonce} (h : listed gs = listed hs) : gs = hs := by
  induction gs generalizing hs with
  | nil =>
    cases hs with
    | nil => rfl
    | cons g hs => cases h
  | cons g gs ih =>
    cases hs with
    | nil => cases h
    | cons g' hs =>
      have hnumber := (List.cons.inj (List.cons.inj h).2).2
      obtain ⟨hg, hrest⟩ := Reader.toDigits_append_inj (head_listed gs) (head_listed hs) hnumber
      have hraw : g = g' := by
        obtain ⟨word⟩ := g
        obtain ⟨word'⟩ := g'
        rw [show word = word' from UInt64.toNat_inj.mp hg]
      rw [hraw, ih hrest]

/-- The form for reports tells the set. -/
lemma text_injective : Function.Injective GuardSet.text := by
  -- A set without members has the closing brace where all others have a digit.
  have hfirst : ∀ (g : Nonce) (gs : List Nonce),
      Nat.toDigits 10 g.raw.toNat ++ listed gs ≠ ['\x7d'] := by
    intro g gs h
    obtain ⟨c, cs, hcs, hc⟩ := Reader.exists_toDigits g.raw.toNat
    rw [hcs, List.cons_append] at h
    rw [(List.cons.inj h).1] at hc
    cases hc
  intro s t h
  have hchars := congrArg String.toList h
  rw [toList_text, toList_text] at hchars
  have hinner := (List.cons.inj hchars).2
  suffices hlist : s.toList = t.toList by
    rw [← ofList_toList s, hlist, ofList_toList]
  cases hs : s.toList with
  | nil =>
    cases ht : t.toList with
    | nil => rfl
    | cons g gs =>
      rw [hs, ht, intercalate_append_brace] at hinner
      exact absurd hinner.symm (hfirst g gs)
  | cons g gs =>
    cases ht : t.toList with
    | nil =>
      rw [hs, ht, intercalate_append_brace] at hinner
      exact absurd hinner (hfirst g gs)
    | cons g' gs' =>
      rw [hs, ht, intercalate_append_brace, intercalate_append_brace] at hinner
      exact listed_injective (congrArg (fun cs => ',' :: ' ' :: cs) hinner)

/-! ### The form in texts -/

/-- Guard sets are carried faithfully. -/
lemma codec_faithful : codec.Faithful :=
  (Codec.word64_faithful.imap (f := Nonce.mk) (g := Nonce.raw) fun _ => rfl).list.imap ofList_toList

/-- The text of a set tells the set. -/
lemma encodeText_injective : Function.Injective codec.encodeText := by
  intro s t h
  have hs := codec_faithful.decodeText_encodeText s
  rw [h, codec_faithful.decodeText_encodeText t] at hs
  cases hs
  rfl

/-! ### Sets, members and written forms -/

/-- However they were built, guard sets are finite sets.  A set lists its nonces in strictly
ascending order, and they are those that it was built to have; what is asked of a set, or of two
sets, is answered by their members.  Two sets are equal exactly if they have the same members, and
then, and only then, their forms for reports are the same, and their texts are.  A text is decoded
to a set exactly if it is that of a list of words, and the text of a set is decoded to the set. -/
theorem canonical_finite_set {s t : GuardSet} {A B : Set Nonce} (hs : Built s A) (ht : Built t B) :
    s.toList.Pairwise (fun a b => a.raw < b.raw) ∧
      (∀ g, g ∈ s.toList ↔ g ∈ A) ∧ (∀ g, s.contains g = true ↔ g ∈ A) ∧
      A.Finite ∧ s.size = A.ncard ∧ (s.isEmpty = true ↔ A = ∅) ∧ (s.isSuperset t = true ↔ B ⊆ A) ∧
      (s = t ↔ A = B) ∧ (s.text = t.text ↔ A = B) ∧
      (codec.encodeText s = codec.encodeText t ↔ A = B) ∧
      codec.decodeText (codec.encodeText s) = .ok s ∧
      ∀ text, (∃ u, codec.decodeText text = .ok u) ↔
        ∃ words, (Codec.list Codec.word64).decodeText text = .ok words := by
  have hmem : ∀ g, g ∈ s ↔ g ∈ A := hs.mem_iff
  have heq : s = t ↔ A = B := hs.eq_iff ht
  refine ⟨s.ascending, hmem, fun g => contains_iff.trans (hmem g), ?_, ?_, ?_, ?_, heq, ?_, ?_,
    codec_faithful.decodeText_encodeText s, fun text => ?_⟩
  · rw [hs.eq_setOf]
    exact s.toList.finite_toSet
  · rw [size_eq_ncard, hs.eq_setOf]
  · rw [isEmpty_iff, Set.eq_empty_iff_forall_notMem]
    simp only [hmem]
  · rw [isSuperset_iff, Set.subset_def]
    simp only [hmem, ht.mem_iff]
  · rw [text_injective.eq_iff, heq]
  · rw [encodeText_injective.eq_iff, heq]
  · rw [decodeText_eq]
    simp only [map_eq_ok]
    constructor
    · rintro ⟨_, words, hwords, -⟩
      exact ⟨words, hwords⟩
    · rintro ⟨words, hwords⟩
      exact ⟨_, words, hwords, rfl⟩

/-- Two ways to one set: a text that lists its nonces out of order and twice, and an
intersection. -/
theorem canonical_finite_set_of_two_builds :
    let t : GuardSet :=
      ((GuardSet.ofList [⟨9⟩, ⟨7⟩]).add [⟨2⟩, ⟨7⟩]).inter (.ofList [⟨7⟩, ⟨5⟩, ⟨2⟩])
    ∃ s, codec.decodeText "[7,2,7]" = .ok s ∧ s = t ∧ s.text = "\x7b2, 7\x7d" ∧
      codec.encodeText s = "[2,7]" ∧ codec.decodeText "[2,7]" = .ok t := by
  intro t
  have hlisted : (Codec.list Codec.word64).encodeText [7, 2, 7] = "[7,2,7]" := by decide +kernel
  have hwords : (Codec.list Codec.word64).decodeText "[7,2,7]" = .ok [7, 2, 7] := by
    rw [← hlisted, Codec.word64_faithful.list.decodeText_encodeText]
  have hdecoded : codec.decodeText "[7,2,7]" = .ok (.ofList [⟨7⟩, ⟨2⟩, ⟨7⟩]) := by
    rw [decodeText_eq, hwords]
    rfl
  have hs := Built.decoded hwords hdecoded
  have ht := Built.inter (.add (.ofList [⟨9⟩, ⟨7⟩]) [⟨2⟩, ⟨7⟩]) (.ofList [⟨7⟩, ⟨5⟩, ⟨2⟩])
  obtain ⟨-, -, -, -, -, -, -, heq, htext, hencoded, hback, -⟩ := canonical_finite_set hs ht
  have hsame : {g : Nonce | g.raw ∈ [7, 2, 7]} =
      ({g | g ∈ [⟨9⟩, ⟨7⟩]} ∪ {g | g ∈ [⟨2⟩, ⟨7⟩]}) ∩ {g | g ∈ [⟨7⟩, ⟨5⟩, ⟨2⟩]} := by
    ext ⟨word⟩
    simp only [Set.mem_ofPred_eq, Set.mem_inter_iff, Set.mem_union, List.mem_cons, List.not_mem_nil,
      Nonce.mk.injEq, or_false]
    grind
  have hprinted : t.text = "\x7b2, 7\x7d" := by decide +kernel
  have hwritten : codec.encodeText t = "[2,7]" := by decide +kernel
  refine ⟨_, hdecoded, heq.mpr hsame, (htext.mpr hsame).trans hprinted,
    (hencoded.mpr hsame).trans hwritten, ?_⟩
  rw [← hwritten, ← hencoded.mpr hsame, hback, heq.mpr hsame]

end GuardSet

end NilFlow
