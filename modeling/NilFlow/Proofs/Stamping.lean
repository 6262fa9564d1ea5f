import NilFlow.Proofs.Guards
import NilFlow.RecordSet.Join

/-!
# Stamping and merging

Guards may be stamped before two paths meet or after, with the same list as the outcome.  On the way
there the two differ: stamping first makes guard sets grow before they are intersected, and clears
flags before they are compared.  What settles it is that stamping respects the join of two records
(`Record.withGuards_join`): adding guards distributes over the intersection of guard sets, and
neither side leaves a flag set.

Every map on records that keeps obligations and respects joins commutes with taking in one record
(`map_absorb`), with taking in a list of records (`map_foldl_absorb`), and so with a merge.
-/

namespace NilFlow

/-- Adding nonces distributes over the intersection. -/
lemma GuardSet.add_inter (s t : GuardSet) (gs : List Nonce) :
    (s.inter t).add gs = (s.add gs).inter (t.add gs) := by
  ext g
  rw [mem_add, mem_inter, mem_inter, mem_add, mem_add]
  exact and_or_right

/-- Guards may be added to two records before they are joined or after. -/
lemma Record.withGuards_join (r s : Record) (gs : List Nonce) :
    (r.join s).withGuards gs = (r.withGuards gs).join (s.withGuards gs) := by
  have hguards : (r.join s).guards.add gs = (r.guards.add gs).inter (s.guards.add gs) :=
    GuardSet.add_inter r.guards s.guards gs
  unfold withGuards
  rw [hguards]
  rfl

namespace RecordSet

section Maps

variable {f : Record → Record} (hobl : ∀ r, (f r).obligation = r.obligation)
  (hjoin : ∀ r s : Record, f (r.join s) = (f r).join (f s))

include hobl hjoin

/-- One more record is taken in before the map or after. -/
lemma map_absorb (rs : RecordSet) (r : Record) :
    (rs.absorb r).map f = absorb (rs.map f) (f r) := by
  induction rs with
  | nil => rfl
  | cons s rs ih =>
    -- The map does not change whether `r` meets the record of its obligation here.
    have hmeet : (f s).obligation = (f r).obligation ↔ s.obligation = r.obligation := by
      rw [hobl s, hobl r]
    rw [List.map_cons]
    unfold absorb
    by_cases h : s.obligation = r.obligation
    · rw [if_pos h, if_pos (hmeet.mpr h), List.map_cons, hjoin]
    · rw [if_neg h, if_neg (mt hmeet.mp h), List.map_cons, ih]

/-- A list of records is taken in before the map or after. -/
lemma map_foldl_absorb (acc rs : RecordSet) :
    (rs.foldl absorb acc).map f = (rs.map f).foldl absorb (acc.map f) := by
  induction rs generalizing acc with
  | nil => rfl
  | cons r rs ih => rw [List.map_cons, List.foldl_cons, List.foldl_cons, ih, map_absorb hobl hjoin]

/-- Two sets are merged before the map or after. -/
lemma map_merge (left right : RecordSet) :
    (merge left right).map f = merge (left.map f) (right.map f) := by
  have hfold := map_foldl_absorb hobl hjoin [] (left ++ right)
  rw [List.map_append] at hfold
  exact hfold

end Maps

/-- Stamping commutes with merging, for all record lists: whether guards are stamped on the merge or
on both sides of it, the outcome is the same list of the same records, with the same handles, guard
sets and flags. -/
theorem stamp_merge (gs : List Nonce) (left right : RecordSet) :
    stamp gs (merge left right) = merge (stamp gs left) (stamp gs right) := by
  have hobl : ∀ r : Record, (r.withGuards gs).obligation = r.obligation :=
    fun r => r.obligation_withGuards gs
  have hjoin : ∀ r s : Record,
      (r.join s).withGuards gs = (r.withGuards gs).join (s.withGuards gs) :=
    fun r s => r.withGuards_join s gs
  exact map_merge hobl hjoin left right

end RecordSet

end NilFlow
