import Mathlib.Algebra.Order.BigOperators.Group.Finset
import Mathlib.Data.Set.Card
import NilFlow.Proofs.FixedPoint

/-!
# Accumulated merges come to rest

A propagation that merges one set of records after the other into a set changes it only so often.
What can still happen to an obligation is measured by its `weight` in the set: an obligation that
is not there weighs most, and one that is there weighs as much as its record claims
(`Record.claims`), that is its guards and its match, up to the same limit.

A merge makes no obligation heavier (`weight_merge_le`), since it weakens every record.  If it
changes the set, it makes one lighter (`exists_weight_merge_lt`): the obligation of a new record
that was not below the set.  The limit is `U.card + 2`, where `U` has the guards of the new records,
so that after the merge the obligation is below the limit, whatever guards it held before.
-/

namespace NilFlow

namespace Record

/-- How much a record claims: the number of its guards, and one more if it is matched. -/
def claims (r : Record) : ℕ :=
  r.guards.size + r.matched.toNat

/-- A record whose guards are among finitely many claims no more than all of them and a match. -/
lemma claims_le {r : Record} {U : Finset Nonce} (h : ∀ g ∈ r.guards, g ∈ U) :
    r.claims ≤ U.card + 1 := by
  have hsize : r.guards.size ≤ U.card := by
    rw [GuardSet.size, ← List.toFinset_card_of_nodup r.guards.nodup_toList]
    exact Finset.card_le_card fun g hg => h g (List.mem_toFinset.mp hg)
  have hflag : r.matched.toNat ≤ 1 := Bool.toNat_le r.matched
  rw [claims]
  omega

/-- A weaker record claims no more. -/
lemma Weakens.claims_le {s r : Record} (h : s.Weakens r) : s.claims ≤ r.claims := by
  have hsize : s.guards.size ≤ r.guards.size :=
    (List.subperm_of_subset s.guards.nodup_toList h.guards).length_le
  have hflag : s.matched.toNat ≤ r.matched.toNat := Bool.toNat_le_toNat h.matched
  rw [claims, claims]
  omega

/-- A weaker record that claims as much is not weaker. -/
lemma Weakens.symm_of_claims_le {s r : Record} (h : s.Weakens r) (hle : r.claims ≤ s.claims) :
    r.Weakens s := by
  have hsub : s.guards.toList.Subperm r.guards.toList :=
    List.subperm_of_subset s.guards.nodup_toList h.guards
  have hsize : s.guards.size ≤ r.guards.size := hsub.length_le
  have hflag : s.matched.toNat ≤ r.matched.toNat := Bool.toNat_le_toNat h.matched
  rw [claims, claims] at hle
  have hperm : s.guards.toList.Perm r.guards.toList :=
    hsub.perm_of_length_le (by change r.guards.size ≤ s.guards.size; omega)
  have hmatched : r.matched.toNat ≤ s.matched.toNat := by omega
  refine ⟨h.obligation.symm, fun g hg => hperm.symm.subset hg, fun hm => ?_⟩
  rw [hm] at hmatched
  cases hs : s.matched with
  | true => rfl
  | false =>
    rw [hs] at hmatched
    exact absurd hmatched (by decide)

end Record

namespace RecordSet

/-- What can still happen to an obligation of a set, as far as guards among `U` go. -/
def weight (U : Finset Nonce) (rs : RecordSet) (k : Obligation) : ℕ :=
  match rs.lookup k with
  | some r => min r.claims (U.card + 2)
  | none => U.card + 2

/-- What can still happen to the obligations of a set that are among `O`. -/
def potential (O : Finset Obligation) (U : Finset Nonce) (rs : RecordSet) : ℕ :=
  ∑ k ∈ O, rs.weight U k

/-- The set after the first `n` of the sets `y 0`, `y 1`, ... have been merged into `x`. -/
def accumulate (x : RecordSet) (y : ℕ → RecordSet) : ℕ → RecordSet
  | 0 => x
  | n + 1 => merge (accumulate x y n) (y n)

/-- No obligation weighs more than the limit. -/
lemma weight_le (U : Finset Nonce) (rs : RecordSet) (k : Obligation) :
    rs.weight U k ≤ U.card + 2 := by
  rw [weight]
  split
  · exact min_le_right _ _
  · exact le_rfl

/-- The obligation of a record weighs what the record claims, up to the limit. -/
lemma Distinct.weight_eq {rs : RecordSet} (h : rs.Distinct) {r : Record} (hr : r ∈ rs)
    (U : Finset Nonce) : rs.weight U r.obligation = min r.claims (U.card + 2) := by
  rw [weight, h.mem_iff_lookup.mp hr]

/-- An obligation that a set does not have weighs as much as the limit. -/
lemma weight_of_not_mem {rs : RecordSet} {k : Obligation} (h : k ∉ rs.obligations)
    (U : Finset Nonce) : rs.weight U k = U.card + 2 := by
  have hnone : rs.lookup k = none := by
    refine List.find?_eq_none.mpr fun r hr => ?_
    simpa using fun hk => h (mem_obligations.mpr ⟨r, hr, hk⟩)
  rw [weight, hnone]

/-- The potential is at most the limit for each obligation. -/
lemma potential_le (O : Finset Obligation) (U : Finset Nonce) (rs : RecordSet) :
    rs.potential O U ≤ O.card * (U.card + 2) :=
  Finset.sum_le_card_nsmul O _ _ fun k _ => rs.weight_le U k

/-! ### One merge -/

/-- A merge makes no obligation heavier. -/
lemma weight_merge_le {x : RecordSet} (hx : x.Distinct) (y : RecordSet) (U : Finset Nonce)
    (k : Obligation) : (merge x y).weight U k ≤ x.weight U k := by
  by_cases hk : k ∈ x.obligations
  · obtain ⟨r, hr, rfl⟩ := mem_obligations.mp hk
    obtain ⟨s, hs, hsr⟩ := below_merge_left x y r hr
    have hsweight := (distinct_merge x y).weight_eq hs U
    rw [hsr.obligation] at hsweight
    rw [hsweight, hx.weight_eq hr]
    exact min_le_min_right _ hsr.claims_le
  · rw [weight_of_not_mem hk]
    exact weight_le U _ k

/-- A merge of records that are not below the set makes an obligation of them lighter. -/
lemma exists_weight_merge_lt {x y : RecordSet} (hx : x.Distinct) {U : Finset Nonce}
    (hU : ∀ r ∈ y, ∀ g ∈ r.guards, g ∈ U) (hy : ¬ y.Below x) :
    ∃ k ∈ y.obligations, (merge x y).weight U k < x.weight U k := by
  obtain ⟨t, ht, hnew⟩ : ∃ t ∈ y, ∀ r ∈ x, ¬ r.Weakens t := by
    simpa [Below] using hy
  obtain ⟨s, hs, hst⟩ := below_merge_right x y t ht
  -- The merged record holds guards of `t` only, so it claims less than the limit.
  have hlimit : s.claims ≤ U.card + 1 := Record.claims_le fun g hg => hU t ht g (hst.guards g hg)
  have hsweight := (distinct_merge x y).weight_eq hs U
  refine ⟨t.obligation, mem_obligations.mpr ⟨t, ht, rfl⟩, ?_⟩
  rw [← hst.obligation, hsweight]
  by_cases hk : s.obligation ∈ x.obligations
  · obtain ⟨r, hr, hrs⟩ := mem_obligations.mp hk
    have hsr : s.Weakens r := weakens_of_mem_merge hs (List.mem_append_left y hr) hrs
    have hlt : s.claims < r.claims := by
      by_contra hle
      exact hnew r hr ((hsr.symm_of_claims_le (not_lt.mp hle)).trans hst)
    rw [← hrs, hx.weight_eq hr]
    omega
  · rw [weight_of_not_mem hk]
    omega

/-- A merge does not raise the potential. -/
lemma potential_merge_le {x : RecordSet} (hx : x.Distinct) (y : RecordSet) (O : Finset Obligation)
    (U : Finset Nonce) : (merge x y).potential O U ≤ x.potential O U :=
  Finset.sum_le_sum fun k _ => weight_merge_le hx y U k

/-- A merge that changes the set lowers the potential. -/
lemma potential_merge_lt {x y : RecordSet} (hx : x.Distinct) {O : Finset Obligation}
    {U : Finset Nonce} (hO : ∀ k ∈ y.obligations, k ∈ O) (hU : ∀ r ∈ y, ∀ g ∈ r.guards, g ∈ U)
    (h : equal (merge x y) x ≠ .ok true) : (merge x y).potential O U < x.potential O U := by
  have hy : ¬ y.Below x := by
    intro hy
    refine h ((equal_eq_ok_true_iff_below (distinct_merge x y) hx).mpr ?_)
    exact ⟨(merge_below_iff hx y).mpr hy, below_merge_left x y⟩
  obtain ⟨k, hk, hlt⟩ := exists_weight_merge_lt hx hU hy
  exact Finset.sum_lt_sum (fun j _ => weight_merge_le hx y U j) ⟨k, hO k hk, hlt⟩

/-! ### A run of merges -/

/-- Obligations stay pairwise different along a run. -/
lemma Distinct.accumulate {x : RecordSet} (hx : x.Distinct) (y : ℕ → RecordSet) (n : ℕ) :
    (accumulate x y n).Distinct := by
  cases n with
  | zero => exact hx
  | succ n => exact distinct_merge _ _

/-- The potential does not rise along a run. -/
lemma antitone_potential {x : RecordSet} (hx : x.Distinct) (y : ℕ → RecordSet)
    (O : Finset Obligation) (U : Finset Nonce) :
    Antitone fun n => (accumulate x y n).potential O U :=
  antitone_nat_of_succ_le fun n => potential_merge_le (hx.accumulate y n) (y n) O U

/-- A quantity that never rises falls at most as often as it is high at first. -/
lemma ncard_descents_le {f : ℕ → ℕ} (hf : Antitone f) :
    {n | f (n + 1) < f n}.Finite ∧ {n | f (n + 1) < f n}.ncard ≤ f 0 := by
  -- The values to which it falls are pairwise different and smaller than the first one.
  have hmaps : ∀ n ∈ {n | f (n + 1) < f n}, f (n + 1) ∈ (Finset.range (f 0) : Set ℕ) := by
    intro n hn
    exact Finset.mem_coe.mpr (Finset.mem_range.mpr (hn.trans_le (hf n.zero_le)))
  have hstrict : StrictAntiOn (fun n => f (n + 1)) {n | f (n + 1) < f n} := by
    intro n _ m hm hnm
    exact hm.trans_le (hf hnm)
  have hfinite : (Finset.range (f 0) : Set ℕ).Finite := Finset.finite_toSet _
  refine ⟨hfinite.of_injOn hmaps hstrict.injOn, ?_⟩
  have hcard := Set.ncard_le_ncard_of_injOn _ hmaps hstrict.injOn hfinite
  rwa [Set.ncard_coe_finset, Finset.card_range] at hcard

/-- Accumulated merges come to rest.  If a sequence of record sets has obligations among `O` and
guards among `U`, merging its sets one after the other into a set without repeated obligations
changes that set at most `O.length * (U.card + 2)` times, whatever other obligations and guards it
has at the start. -/
theorem accumulate_stabilises (O : List Obligation) (U : Finset Nonce) (x : RecordSet)
    (y : ℕ → RecordSet) (hx : x.Distinct) (hO : ∀ n, ∀ k ∈ (y n).obligations, k ∈ O)
    (hU : ∀ n, ∀ r ∈ y n, ∀ g ∈ r.guards, g ∈ U) :
    {n | equal (accumulate x y (n + 1)) (accumulate x y n) ≠ .ok true}.Finite ∧
      {n | equal (accumulate x y (n + 1)) (accumulate x y n) ≠ .ok true}.ncard ≤
        O.length * (U.card + 2) := by
  obtain ⟨hfinite, hcard⟩ := ncard_descents_le (antitone_potential hx y O.toFinset U)
  have hsub : {n | equal (accumulate x y (n + 1)) (accumulate x y n) ≠ .ok true} ⊆
      {n | (accumulate x y (n + 1)).potential O.toFinset U <
        (accumulate x y n).potential O.toFinset U} := by
    intro n hn
    exact potential_merge_lt (hx.accumulate y n) (fun k hk => List.mem_toFinset.mpr (hO n k hk))
      (hU n) hn
  refine ⟨hfinite.subset hsub, ?_⟩
  calc _ ≤ _ := Set.ncard_le_ncard hsub hfinite
    _ ≤ x.potential O.toFinset U := hcard
    _ ≤ O.toFinset.card * (U.card + 2) := potential_le O.toFinset U x
    _ ≤ O.length * (U.card + 2) := Nat.mul_le_mul_right _ O.toFinset_card_le

/-- Two sets take turns.  The first merge drops a guard that none of them has, the second one adds
an obligation and drops another guard, and at most ten merges change anything. -/
theorem accumulate_stabilises_of_turns :
    let x : RecordSet := [.deref 1 [1, 2, 9] true]
    let a : RecordSet := [.deref 1 [1, 2] true]
    let b : RecordSet := [.deref 1 [2, 3] true, .deref 2 [] false]
    let U : Finset Nonce := {⟨1⟩, ⟨2⟩, ⟨3⟩}
    let y : ℕ → RecordSet := fun n => if n % 2 = 0 then a else b
    let changes := {n | equal (accumulate x y (n + 1)) (accumulate x y n) ≠ .ok true}
    (∀ n, ∀ r ∈ y n, ∀ g ∈ r.guards, g ∈ U) ∧ 0 ∈ changes ∧ 1 ∈ changes ∧ changes.Finite ∧
      changes.ncard ≤ 10 := by
  intro x a b U y changes
  have hfirst : equal (accumulate x y 1) (accumulate x y 0) = .ok false := rfl
  have hsecond : equal (accumulate x y 2) (accumulate x y 1) = .ok false := rfl
  have hy : ∀ n, y n = a ∨ y n = b := fun n => ite_eq_or_eq _ _ _
  have hO : ∀ n, ∀ k ∈ (y n).obligations, k ∈ b.obligations := by
    intro n
    rcases hy n with h | h <;> rw [h] <;> decide
  have hU : ∀ n, ∀ r ∈ y n, ∀ g ∈ r.guards, g ∈ U := by
    intro n
    rcases hy n with h | h <;> rw [h] <;> decide
  obtain ⟨hfinite, hcard⟩ := accumulate_stabilises b.obligations U x y (by decide) hO hU
  refine ⟨hU, ?_, ?_, hfinite, hcard.trans (by decide)⟩
  · change equal _ _ ≠ _
    rw [hfirst]
    simp
  · change equal _ _ ≠ _
    rw [hsecond]
    simp

end RecordSet

end NilFlow
