import NilFlow.Proofs.Comparison

/-!
# The arrangement of merges does not matter

`SameJoins` relates two lists of records that no merge tells apart: they have the same obligations
in order of first occurrence and, for every obligation, the same join of all records.  It is kept by
concatenation (`SameJoins.append`), and a merge is related to the concatenation of its sides
(`sameJoins_merge`).  So every tree of merges is related to the concatenation of its leaves
(`sameJoins_result`), whatever its shape.

Up to order, the records of a merge depend on even less: on which identities occur on its sides
(`mem_ids_merge_of_ids`).
-/

namespace NilFlow

namespace RecordSet

/-- No merge tells two lists of records apart. -/
structure SameJoins (rs ss : RecordSet) : Prop where
  /-- The obligations first occur in the same order. -/
  obligations : rs.obligations.eraseDups = ss.obligations.eraseDups
  /-- The records of an obligation have the same join. -/
  joins : ∀ k, Record.joinAll (rs.occurrences k) = Record.joinAll (ss.occurrences k)

namespace SameJoins

variable {rs rs' ss ss' ts : RecordSet}

/-- Every list has the same joins as itself. -/
lemma refl (rs : RecordSet) : SameJoins rs rs :=
  ⟨rfl, fun _ => rfl⟩

/-- Lists with the same joins as a third one have the same joins. -/
lemma trans (h : SameJoins rs ss) (h' : SameJoins ss ts) : SameJoins rs ts :=
  ⟨h.obligations.trans h'.obligations, fun k => (h.joins k).trans (h'.joins k)⟩

/-- Concatenation keeps the relation on both sides. -/
lemma append (h : SameJoins rs rs') (h' : SameJoins ss ss') :
    SameJoins (rs ++ ss) (rs' ++ ss') where
  obligations := by
    rw [obligations_append, obligations_append, eraseDups_append, eraseDups_append, h.obligations,
      h'.obligations]
  joins k := by
    rw [occurrences_append, occurrences_append, Record.joinAll_append, Record.joinAll_append,
      h.joins k, h'.joins k]

/-- Sides with the same joins are merged to the same list. -/
lemma merge_eq (h : SameJoins (rs ++ ss) (rs' ++ ss')) : merge rs ss = merge rs' ss' := by
  refine (distinct_merge rs ss).ext ?_ fun k => ?_
  · rw [obligations_merge, obligations_merge, h.obligations]
  · rw [lookup_merge, lookup_merge, h.joins k]

end SameJoins

/-- Where no obligation is repeated, the join of its records is the one record that has it. -/
lemma Distinct.joinAll_occurrences {rs : RecordSet} (h : rs.Distinct) (k : Obligation) :
    Record.joinAll (rs.occurrences k) = rs.lookup k := by
  induction rs with
  | nil => rfl
  | cons r rs ih =>
    obtain ⟨hr, hrs⟩ := List.nodup_cons.mp h
    by_cases hk : r.obligation = k
    · have hnone : occurrences rs k = [] := by
        refine List.filter_eq_nil_iff.mpr fun s hs => ?_
        simpa using fun he => hr (mem_obligations.mpr ⟨s, hs, he.trans hk.symm⟩)
      rw [occurrences_cons_of_eq hk, hnone]
      simp [lookup, hk, Record.joinAll]
    · rw [occurrences_cons_of_ne hk, ih hrs]
      simp [lookup, hk]

/-- A merge has the same joins as its sides one after the other. -/
lemma sameJoins_merge (left right : RecordSet) : SameJoins (merge left right) (left ++ right) where
  obligations := by
    rw [eraseDups_eq_self (distinct_merge left right), obligations_merge]
  joins k := by
    rw [(distinct_merge left right).joinAll_occurrences k, lookup_merge]

/-- What all records satisfy by their identities depends only on which identities there are. -/
lemma forall_mem_congr {rs ss : RecordSet} (h : ∀ i, i ∈ rs.ids ↔ i ∈ ss.ids)
    (P : RecordId → Prop) : (∀ r ∈ rs, P r.id) ↔ ∀ s ∈ ss, P s.id := by
  have hids : (∀ i ∈ rs.ids, P i) ↔ ∀ i ∈ ss.ids, P i := by simp only [h]
  simpa [ids] using hids

/-- Which identities a merge has depends only on which identities its sides have. -/
lemma mem_ids_merge_of_ids {a b c d : RecordSet} (h : ∀ i, i ∈ (a ++ b).ids ↔ i ∈ (c ++ d).ids)
    {i : RecordId} (hi : i ∈ (merge a b).ids) : i ∈ (merge c d).ids := by
  obtain ⟨s, hs, rfl⟩ := mem_ids.mp hi
  have hobl : s.obligation ∈ (merge c d).obligations := by
    have hab : s.obligation ∈ (merge a b).obligations := mem_obligations.mpr ⟨s, hs, rfl⟩
    rw [obligations_merge, List.mem_eraseDups, mem_obligations] at hab ⊢
    obtain ⟨r, hr, hrs⟩ := hab
    obtain ⟨r', hr', hid⟩ := mem_ids.mp ((h r.id).mp (mem_ids.mpr ⟨r, hr, rfl⟩))
    exact ⟨r', hr', (congrArg RecordId.obligation hid).trans hrs⟩
  obtain ⟨t, ht, hts⟩ := mem_obligations.mp hobl
  have hguards : t.guards = s.guards := by
    ext g
    rw [mem_guards_of_mem_merge ht, mem_guards_of_mem_merge hs, hts]
    exact (forall_mem_congr h fun i => i.obligation = s.obligation → g ∈ i.guards).symm
  have hmatched : t.matched = s.matched := by
    rw [Bool.eq_iff_iff, matched_of_mem_merge ht, matched_of_mem_merge hs, hts]
    exact (forall_mem_congr h fun i => i.obligation = s.obligation → i.matched = true).symm
  exact mem_ids.mpr ⟨t, ht, by rw [Record.id, Record.id, hts, hguards, hmatched]⟩

end RecordSet

/-! ### Trees of merges -/

/-- An arrangement of merges: record sets at the leaves, a merge at every node. -/
inductive MergeTree where
  | leaf (records : RecordSet)
  | node (left right : MergeTree)

namespace MergeTree

open RecordSet

/-- The record set at the root. -/
def result : MergeTree → RecordSet
  | .leaf rs => rs
  | .node left right => merge left.result right.result

/-- The record sets at the leaves, from left to right. -/
def leaves : MergeTree → List RecordSet
  | .leaf rs => [rs]
  | .node left right => left.leaves ++ right.leaves

/-- The number of merges. -/
def merges : MergeTree → Nat
  | .leaf _ => 0
  | .node left right => left.merges + right.merges + 1

/-- Every nonempty leaf of `t` is one of `u`, as far as the identities of its records go. -/
def Covers (t u : MergeTree) : Prop :=
  ∀ rs ∈ t.leaves, rs ≠ [] → ∃ ss ∈ u.leaves, ss.ids = rs.ids

/-- A tree covers another one that has the very same nonempty leaves, and maybe more. -/
lemma Covers.of_subset {t u : MergeTree} (h : ∀ rs ∈ t.leaves, rs ≠ [] → rs ∈ u.leaves) :
    t.Covers u :=
  fun rs hrs hne => ⟨rs, h rs hrs hne, rfl⟩

/-- A tree of merges has the same joins as its leaves one after the other. -/
lemma sameJoins_result (t : MergeTree) : SameJoins t.result t.leaves.flatten := by
  induction t with
  | leaf rs =>
    rw [leaves, List.flatten_singleton]
    exact .refl rs
  | node left right ihl ihr =>
    rw [leaves, List.flatten_append]
    exact (sameJoins_merge left.result right.result).trans (ihl.append ihr)

/-- With at least one merge, the result is that of merging all leaves at once. -/
lemma result_eq_merge_flatten {t : MergeTree} (h : 0 < t.merges) :
    t.result = merge t.leaves.flatten [] := by
  cases t with
  | leaf rs => simp [merges] at h
  | node left right =>
    refine SameJoins.merge_eq ?_
    rw [List.append_nil, leaves, List.flatten_append]
    exact (sameJoins_result left).append (sameJoins_result right)

/-- A leaf that is covered has its identities among those of the other tree. -/
lemma Covers.mem_ids {t u : MergeTree} (h : t.Covers u) {i : RecordId}
    (hi : i ∈ ids t.leaves.flatten) : i ∈ ids u.leaves.flatten := by
  obtain ⟨r, hr, rfl⟩ := RecordSet.mem_ids.mp hi
  obtain ⟨rs, hrs, hrrs⟩ := List.mem_flatten.mp hr
  obtain ⟨ss, hss, hids⟩ := h rs hrs (List.ne_nil_of_mem hrrs)
  have hmem : r.id ∈ ss.ids := hids ▸ RecordSet.mem_ids.mpr ⟨r, hrrs, rfl⟩
  obtain ⟨s, hs, hsr⟩ := RecordSet.mem_ids.mp hmem
  exact RecordSet.mem_ids.mpr ⟨s, List.mem_flatten.mpr ⟨ss, hss, hs⟩, hsr⟩

/-- The arrangement of merges does not matter.  Trees whose nonempty leaves agree from left to right
have the same result, as a list; trees whose nonempty leaves agree as a set, in any order and
number, have results that compare as equal. -/
theorem result_independent_of_arrangement (t u : MergeTree) (ht : 0 < t.merges)
    (hu : 0 < u.merges) :
    (t.leaves.filter (!·.isEmpty) = u.leaves.filter (!·.isEmpty) → t.result = u.result) ∧
      (t.Covers u → u.Covers t → equal t.result u.result = .ok true) := by
  rw [result_eq_merge_flatten ht, result_eq_merge_flatten hu]
  constructor
  · intro hleaves
    rw [← List.flatten_filter_not_isEmpty, hleaves, List.flatten_filter_not_isEmpty]
  · intro htu hut
    have hids : ∀ i, i ∈ ids (t.leaves.flatten ++ []) ↔ i ∈ ids (u.leaves.flatten ++ []) := by
      intro i
      rw [List.append_nil, List.append_nil]
      exact ⟨htu.mem_ids, hut.mem_ids⟩
    refine equal_eq_ok_true (distinct_merge _ _) (distinct_merge _ _) fun i => ?_
    exact ⟨mem_ids_merge_of_ids hids, mem_ids_merge_of_ids fun j => (hids j).symm⟩

/-- Three arrangements of two record sets: the first two differ in shape and in empty leaves, the
third one also in order and repetition. -/
theorem result_of_three_arrangements :
    let a : MergeTree := .leaf [.deref 1 [1, 2] true, .deref 2 [] false]
    let b : MergeTree := .leaf [.deref 1 [2] true, .deref 3 [4] true]
    let t : MergeTree := .node a (.node b (.leaf []))
    let u : MergeTree := .node (.node (.leaf []) a) b
    let v : MergeTree := .node (.node b a) b
    t.result = u.result ∧ equal t.result v.result = .ok true := by
  intro a b t u v
  have htv : t.Covers v := Covers.of_subset (by simp [t, v, a, b, leaves])
  have hvt : v.Covers t := Covers.of_subset (by simp [t, v, a, b, leaves])
  exact ⟨(result_independent_of_arrangement t u (by decide) (by decide)).1 rfl,
    (result_independent_of_arrangement t v (by decide) (by decide)).2 htv hvt⟩

end MergeTree

end NilFlow
