import NilFlow.Proofs.Merge

/-!
# Record sets as a dataflow framework

A record weakens another one if it stands for the same obligation and claims no more: its guards are
among those of the other, and it is matched only if the other is.  One record set is below another
one if each of its records is weakened by a record there (`RecordSet.Below`); so a set rises in this
order by gaining obligations and by losing guards and matches.

Merging gives the least upper bound (`below_merge_left`, `below_merge_right`, `merge_below`).  What
a set meets between two merges is a `Crossing`: guards are stamped on its records or a guard is
matched.  Both act on each record by itself (`Crossing.apply_eq_map`) and are monotone
(`Below.apply`).
-/

namespace NilFlow

namespace Record

/-- `s` weakens `r`: it has the same obligation, holds no other guards and is matched only if `r`
is. -/
structure Weakens (s r : Record) : Prop where
  obligation : s.obligation = r.obligation
  guards : ∀ g ∈ s.guards, g ∈ r.guards
  matched : s.matched = true → r.matched = true

/-- Guard sets are finite, so weakening can be tested. -/
instance (s r : Record) : Decidable (s.Weakens r) :=
  decidable_of_iff
    (s.obligation = r.obligation ∧ (∀ g ∈ s.guards.toList, g ∈ r.guards.toList) ∧
      (s.matched = true → r.matched = true))
    ⟨fun ⟨ho, hg, hm⟩ => ⟨ho, hg, hm⟩, fun ⟨ho, hg, hm⟩ => ⟨ho, hg, hm⟩⟩

/-- Every record weakens itself. -/
lemma Weakens.refl (r : Record) : r.Weakens r :=
  ⟨rfl, fun _ hg => hg, fun hm => hm⟩

/-- What weakens a weaker record weakens the record. -/
lemma Weakens.trans {t s r : Record} (h : t.Weakens s) (h' : s.Weakens r) : t.Weakens r :=
  ⟨h.obligation.trans h'.obligation, fun g hg => h'.guards g (h.guards g hg),
    fun hm => h'.matched (h.matched hm)⟩

end Record

/-- What a record set meets between two merges: guards that are stamped on it, or the match of a
guard. -/
inductive Crossing where
  | stamp (guards : List Nonce)
  | matchGuard (guard : Nonce)

namespace Crossing

/-- The record set afterwards. -/
def apply : Crossing → RecordSet → RecordSet
  | .stamp gs, rs => RecordSet.stamp gs rs
  | .matchGuard g, rs => RecordSet.matchGuard g rs

/-- A single record afterwards. -/
def onRecord : Crossing → Record → Record
  | .stamp gs, r => r.withGuards gs
  | .matchGuard g, r => if r.guards.contains g then r.markMatched else r

/-- The guards that are stamped. -/
def stamped : Crossing → List Nonce
  | .stamp gs => gs
  | .matchGuard _ => []

/-- Every record is treated by itself. -/
lemma apply_eq_map (c : Crossing) (rs : RecordSet) : c.apply rs = rs.map c.onRecord := by
  cases c <;> rfl

/-- The obligation of a record stays the same. -/
@[simp] lemma obligation_onRecord (c : Crossing) (r : Record) :
    (c.onRecord r).obligation = r.obligation := by
  cases c with
  | stamp gs => rfl
  | matchGuard g =>
    rw [onRecord]
    split <;> rfl

/-- A crossing leaves the handles of a record alone. -/
lemma handles_onRecord (c : Crossing) (r : Record) :
    (c.onRecord r).trigger = r.trigger ∧ (c.onRecord r).expr = r.expr := by
  cases c with
  | stamp gs => exact ⟨rfl, rfl⟩
  | matchGuard g =>
    rw [onRecord]
    split <;> exact ⟨rfl, rfl⟩

/-- A record keeps its guards and gets those that are stamped. -/
@[simp] lemma mem_guards_onRecord (c : Crossing) (r : Record) (g : Nonce) :
    g ∈ (c.onRecord r).guards ↔ g ∈ r.guards ∨ g ∈ c.stamped := by
  cases c with
  | stamp gs => simp [onRecord, stamped, Record.withGuards]
  | matchGuard h =>
    have hguards : (onRecord (.matchGuard h) r).guards = r.guards := by
      rw [onRecord]
      split <;> rfl
    simp [hguards, stamped]

/-- A record is not matched after a stamp. -/
lemma matched_onRecord_stamp (gs : List Nonce) (r : Record) :
    (onRecord (.stamp gs) r).matched = false :=
  rfl

/-- A record is matched after the match of a guard if it was before or holds the guard. -/
lemma matched_onRecord_matchGuard (g : Nonce) (r : Record) :
    (onRecord (.matchGuard g) r).matched = true ↔ r.matched = true ∨ g ∈ r.guards := by
  by_cases hg : g ∈ r.guards
  · simp [onRecord, hg, Record.markMatched]
  · simp [onRecord, hg]

/-- The obligations of a record set stay the same. -/
@[simp] lemma obligations_apply (c : Crossing) (rs : RecordSet) :
    (c.apply rs).obligations = rs.obligations := by
  rw [apply_eq_map, RecordSet.obligations, RecordSet.obligations, List.map_map]
  exact List.map_congr_left fun r _ => c.obligation_onRecord r

end Crossing

/-- A crossing repeats no obligation that was not repeated before. -/
lemma RecordSet.Distinct.apply {rs : RecordSet} (h : rs.Distinct) (c : Crossing) :
    (c.apply rs).Distinct := by
  rw [RecordSet.Distinct, c.obligations_apply]
  exact h

/-- A crossing treats a weaker record in a weaker way. -/
lemma Record.Weakens.onRecord {s r : Record} (h : s.Weakens r) (c : Crossing) :
    (c.onRecord s).Weakens (c.onRecord r) where
  obligation := by
    rw [c.obligation_onRecord, c.obligation_onRecord, h.obligation]
  guards g hg := by
    rw [c.mem_guards_onRecord] at hg ⊢
    exact hg.imp_left (h.guards g)
  matched hm := by
    cases c with
    | stamp gs =>
      rw [Crossing.matched_onRecord_stamp] at hm
      exact absurd hm Bool.false_ne_true
    | matchGuard g =>
      rw [Crossing.matched_onRecord_matchGuard] at hm ⊢
      exact hm.imp h.matched (h.guards g)

namespace RecordSet

/-- Every record of `a` is weakened by one of `b`. -/
def Below (a b : RecordSet) : Prop :=
  ∀ r ∈ a, ∃ s ∈ b, s.Weakens r

/-- Record sets are finite, so the order can be tested. -/
instance (a b : RecordSet) : Decidable (a.Below b) :=
  inferInstanceAs (Decidable (∀ r ∈ a, ∃ s ∈ b, s.Weakens r))

/-- Every set is below itself. -/
lemma Below.refl (a : RecordSet) : a.Below a :=
  fun r hr => ⟨r, hr, .refl r⟩

/-- What is below a set is below every set above it. -/
lemma Below.trans {a b c : RecordSet} (hab : a.Below b) (hbc : b.Below c) : a.Below c := by
  intro r hr
  obtain ⟨s, hs, hsr⟩ := hab r hr
  obtain ⟨t, ht, hts⟩ := hbc s hs
  exact ⟨t, ht, hts.trans hsr⟩

/-- A merge weakens every record of its sides. -/
lemma weakens_of_mem_merge {a b : RecordSet} {s r : Record} (hs : s ∈ merge a b) (hr : r ∈ a ++ b)
    (h : r.obligation = s.obligation) : s.Weakens r where
  obligation := h.symm
  guards g hg := (mem_guards_of_mem_merge hs g).mp hg r hr h
  matched hm := (matched_of_mem_merge hs).mp hm r hr h

/-- A merge has a record for every record of its sides. -/
lemma append_below_merge (a b : RecordSet) : (a ++ b).Below (merge a b) := by
  intro r hr
  have hk : r.obligation ∈ (merge a b).obligations := by
    rw [obligations_merge, List.mem_eraseDups]
    exact mem_obligations.mpr ⟨r, hr, rfl⟩
  obtain ⟨s, hs, hsr⟩ := mem_obligations.mp hk
  exact ⟨s, hs, weakens_of_mem_merge hs hr hsr.symm⟩

/-- The left side is below the merge. -/
lemma below_merge_left (a b : RecordSet) : a.Below (merge a b) :=
  fun r hr => append_below_merge a b r (List.mem_append_left b hr)

/-- The right side is below the merge. -/
lemma below_merge_right (a b : RecordSet) : b.Below (merge a b) :=
  fun r hr => append_below_merge a b r (List.mem_append_right a hr)

/-- The merge is below every set without repeated obligations that both sides are below. -/
lemma merge_below {a b c : RecordSet} (hc : c.Distinct) (ha : a.Below c) (hb : b.Below c) :
    (merge a b).Below c := by
  have hab : (a ++ b).Below c := by
    intro r hr
    exact (List.mem_append.mp hr).elim (ha r) (hb r)
  intro s hs
  have hk : s.obligation ∈ (a ++ b).obligations := by
    rw [← List.mem_eraseDups, ← obligations_merge]
    exact mem_obligations.mpr ⟨s, hs, rfl⟩
  obtain ⟨r, hr, hrs⟩ := mem_obligations.mp hk
  obtain ⟨t, ht, htr⟩ := hab r hr
  have hts : t.obligation = s.obligation := htr.obligation.trans hrs
  -- All records that `s` joins are weakened by the same `t`, since `c` has the obligation once.
  have hall : ∀ u ∈ a ++ b, u.obligation = s.obligation → t.Weakens u := by
    intro u hu hus
    obtain ⟨t', ht', htu'⟩ := hab u hu
    have htt' : t' = t :=
      hc.eq_of_obligation_eq ht' ht (htu'.obligation.trans (hus.trans hts.symm))
    exact htt' ▸ htu'
  refine ⟨t, ht, hts, fun g hg => ?_, fun hm => ?_⟩
  · exact (mem_guards_of_mem_merge hs g).mpr fun u hu hus => (hall u hu hus).guards g hg
  · exact (matched_of_mem_merge hs).mpr fun u hu hus => (hall u hu hus).matched hm

/-- Crossings are monotone. -/
lemma Below.apply {a b : RecordSet} (h : a.Below b) (c : Crossing) :
    (c.apply a).Below (c.apply b) := by
  rw [c.apply_eq_map, c.apply_eq_map]
  intro r' hr'
  obtain ⟨r, hr, rfl⟩ := List.mem_map.mp hr'
  obtain ⟨s, hs, hsr⟩ := h r hr
  exact ⟨c.onRecord s, List.mem_map_of_mem hs, hsr.onRecord c⟩

/-- Record sets form a monotone dataflow framework: merging gives the least upper bound, and
stamping guards and matching a guard are monotone. -/
theorem monotone_framework (a b : RecordSet) :
    a.Below (merge a b) ∧ b.Below (merge a b) ∧
      (∀ c : RecordSet, c.Distinct → a.Below c → b.Below c → (merge a b).Below c) ∧
      (a.Below b → ∀ gs, (stamp gs a).Below (stamp gs b)) ∧
      (a.Below b → ∀ g, (matchGuard g a).Below (matchGuard g b)) :=
  ⟨below_merge_left a b, below_merge_right a b, fun _ hc ha hb => merge_below hc ha hb,
    fun h gs => h.apply (.stamp gs), fun h g => h.apply (.matchGuard g)⟩

/-- A branch on which a guard was matched, one on which it was not, and a set above both. -/
theorem monotone_framework_of_branches :
    let a : RecordSet := [.deref 1 [1, 2] true]
    let b : RecordSet := [.deref 1 [2] false, .deref 2 [3] true]
    let c : RecordSet := [.deref 2 [] false, .deref 1 [] false, .deref 3 [5] true]
    c.Distinct ∧ a.Below c ∧ b.Below c ∧ (merge a b).Below c ∧
      a.Below b ∧ (stamp [⟨7⟩] a).Below (stamp [⟨7⟩] b) ∧
      (matchGuard ⟨2⟩ a).Below (matchGuard ⟨2⟩ b) := by
  intro a b c
  have hc : c.Distinct := by decide
  have hac : a.Below c := by decide
  have hbc : b.Below c := by decide
  have hab : a.Below b := by decide
  obtain ⟨-, -, hleast, hstamp, hmatch⟩ := monotone_framework a b
  exact ⟨hc, hac, hbc, hleast c hc hac hbc, hab, hstamp hab _, hmatch hab _⟩

end RecordSet

end NilFlow
