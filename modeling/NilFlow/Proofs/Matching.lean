import Mathlib.Data.List.Forall2
import NilFlow.Proofs.DataflowOrder

/-!
# Matching and merging

Matching a guard does not commute with a merge as stamping does.  If the paths meet first, a record
ends up matched if all records of its obligation were matched, or if all of them hold the guard
(`matched_of_mem_matchGuard_merge`).  If the guard is matched first, each of these records has to be
matched or to hold the guard, some of them in one way and some in the other
(`matched_of_mem_merge_matchGuard`).  So to match after the merge is the more cautious order, and
the two orders differ on an obligation exactly if all its records would be matched, but neither by
the flag alone nor by the guard alone.

Nothing else depends on the order: the obligations come in the same order, and their records have
the same handles (`handles_of_mem_merge`) and the same guards.
-/

namespace NilFlow

namespace Record

/-- `r` and `s` are the same record, except that `s` may be matched where `r` is not. -/
structure MoreCautious (r s : Record) : Prop where
  trigger : r.trigger = s.trigger
  expr : r.expr = s.expr
  guards : r.guards = s.guards
  matched : r.matched = true → s.matched = true

/-- Two records that are the same up to their flags are the same if the flags agree. -/
lemma MoreCautious.eq {r s : Record} (h : r.MoreCautious s)
    (hmatched : s.matched = true → r.matched = true) : r = s := by
  obtain ⟨htrigger, hexpr, hguards, hflag⟩ := h
  have hflags : r.matched = s.matched := Bool.eq_iff_iff.mpr ⟨hflag, hmatched⟩
  cases r
  cases s
  simp_all

end Record

namespace RecordSet

/-- Sets with the same obligations in the same order are related entry by entry, if all their
records of the same obligation are. -/
lemma forall₂_of_obligations_eq {R : Record → Record → Prop} {a b : RecordSet}
    (h : a.obligations = b.obligations)
    (hR : ∀ s ∈ a, ∀ t ∈ b, s.obligation = t.obligation → R s t) : List.Forall₂ R a b := by
  have hlength : a.length = b.length := by
    simpa [obligations] using congrArg List.length h
  refine List.forall₂_iff_get.mpr ⟨hlength, fun i hi hj => ?_⟩
  have hobl : a[i].obligation = b[i].obligation := by
    simpa [obligations, hi, hj] using congrArg (·[i]?) h
  exact hR _ (List.getElem_mem hi) _ (List.getElem_mem hj) hobl

/-! ### The two orders -/

section Orders

variable {g : Nonce} {left right : RecordSet} {s t : Record}

/-- Of two sets one after the other, each is treated by itself. -/
lemma matchGuard_append (g : Nonce) (left right : RecordSet) :
    matchGuard g (left ++ right) = matchGuard g left ++ matchGuard g right :=
  List.map_append

/-- The record that is found for an obligation is treated like all others. -/
lemma lookup_matchGuard (g : Nonce) (rs : RecordSet) (k : Obligation) :
    (matchGuard g rs).lookup k = (rs.lookup k).map (Crossing.matchGuard g).onRecord := by
  have hmap : matchGuard g rs = rs.map (Crossing.matchGuard g).onRecord := rfl
  have hobl : (fun r : Record => decide (r.obligation = k)) ∘ (Crossing.matchGuard g).onRecord =
      fun r => decide (r.obligation = k) := by
    funext r
    rw [Function.comp_apply, Crossing.obligation_onRecord]
  rw [hmap, lookup, List.find?_map, hobl, lookup]

/-- What holds of all records of an obligation after the match of a guard, in terms of the records
before. -/
lemma forall_mem_matchGuard {p : Record → Prop} {k : Obligation} :
    (∀ r ∈ matchGuard g left ++ matchGuard g right, r.obligation = k → p r) ↔
      ∀ r ∈ (left ++ right).occurrences k, p ((Crossing.matchGuard g).onRecord r) := by
  have hmap : matchGuard g (left ++ right) = (left ++ right).map (Crossing.matchGuard g).onRecord :=
    rfl
  rw [← matchGuard_append, hmap, List.forall_mem_map]
  simp only [Crossing.obligation_onRecord, mem_occurrences, and_imp]

/-- Matching a guard keeps the obligations. -/
lemma obligations_matchGuard (g : Nonce) (rs : RecordSet) :
    (matchGuard g rs).obligations = rs.obligations :=
  Crossing.obligations_apply (.matchGuard g) rs

/-- A record that comes out if the merge comes first is a record of the merge, treated by itself. -/
lemma exists_mem_merge (hs : s ∈ matchGuard g (merge left right)) :
    ∃ u ∈ merge left right, (Crossing.matchGuard g).onRecord u = s :=
  List.mem_map.mp hs

/-- If the merge comes first, a record is matched if all records of the obligation were matched, or
if all of them hold the guard. -/
lemma matched_of_mem_matchGuard_merge (hs : s ∈ matchGuard g (merge left right)) :
    s.matched = true ↔ (∀ r ∈ (left ++ right).occurrences s.obligation, r.matched = true) ∨
      ∀ r ∈ (left ++ right).occurrences s.obligation, g ∈ r.guards := by
  obtain ⟨u, hu, rfl⟩ := exists_mem_merge hs
  rw [Crossing.matched_onRecord_matchGuard, matched_of_mem_merge hu, mem_guards_of_mem_merge hu,
    Crossing.obligation_onRecord]
  simp only [mem_occurrences, and_imp]

/-- If the guard is matched first, a record is matched if each record of the obligation was matched
or holds the guard. -/
lemma matched_of_mem_merge_matchGuard (ht : t ∈ merge (matchGuard g left) (matchGuard g right)) :
    t.matched = true ↔
      ∀ r ∈ (left ++ right).occurrences t.obligation, r.matched = true ∨ g ∈ r.guards := by
  rw [matched_of_mem_merge ht, forall_mem_matchGuard]
  simp only [Crossing.matched_onRecord_matchGuard]

section Counterparts

variable (hs : s ∈ matchGuard g (merge left right))
  (ht : t ∈ merge (matchGuard g left) (matchGuard g right)) (hst : s.obligation = t.obligation)

include hs ht hst

/-- In both orders a record gets the same guards: all those that every record of its obligation
holds. -/
lemma guards_eq_of_mem : s.guards = t.guards := by
  obtain ⟨u, hu, rfl⟩ := exists_mem_merge hs
  rw [Crossing.obligation_onRecord] at hst
  ext g'
  rw [Crossing.mem_guards_onRecord, mem_guards_of_mem_merge hu, mem_guards_of_mem_merge ht,
    forall_mem_matchGuard, hst]
  simp [Crossing.stamped]

/-- In both orders a record gets the handles of the first record of its obligation. -/
lemma handles_eq_of_mem : s.trigger = t.trigger ∧ s.expr = t.expr := by
  obtain ⟨u, hu, rfl⟩ := exists_mem_merge hs
  rw [Crossing.obligation_onRecord] at hst
  obtain ⟨first, hfirst, htrigger, hexpr⟩ := handles_of_mem_merge hu
  obtain ⟨first', hfirst', htrigger', hexpr'⟩ := handles_of_mem_merge ht
  rw [← matchGuard_append, lookup_matchGuard, ← hst, hfirst, Option.map_some, Option.some_inj]
    at hfirst'
  -- The match of the guard leaves the handles of the first record alone, and those of the merge.
  obtain ⟨hu₁, hu₂⟩ := (Crossing.matchGuard g).handles_onRecord u
  obtain ⟨hfirst₁, hfirst₂⟩ := (Crossing.matchGuard g).handles_onRecord first
  constructor
  · rw [hu₁, htrigger, htrigger', ← hfirst', hfirst₁]
  · rw [hu₂, hexpr, hexpr', ← hfirst', hfirst₂]

/-- To match after the merge is the more cautious order, record by record. -/
lemma moreCautious_of_mem : s.MoreCautious t := by
  obtain ⟨htrigger, hexpr⟩ := handles_eq_of_mem hs ht hst
  refine ⟨htrigger, hexpr, guards_eq_of_mem hs ht hst, ?_⟩
  rw [matched_of_mem_matchGuard_merge hs, matched_of_mem_merge_matchGuard ht, hst]
  rintro (hmatched | hheld)
  · exact fun r hr => .inl (hmatched r hr)
  · exact fun r hr => .inr (hheld r hr)

end Counterparts

end Orders

/-- Both orders give the same obligations in the same order. -/
lemma obligations_matchGuard_merge (g : Nonce) (left right : RecordSet) :
    (matchGuard g (merge left right)).obligations =
      (merge (matchGuard g left) (matchGuard g right)).obligations := by
  rw [obligations_matchGuard, obligations_merge, obligations_merge, ← matchGuard_append,
    obligations_matchGuard]

/-- The two orders agree exactly if no obligation has records that would all be matched, but neither
by the flag alone nor by the guard alone. -/
lemma matchGuard_merge_eq_iff (g : Nonce) (left right : RecordSet) :
    matchGuard g (merge left right) = merge (matchGuard g left) (matchGuard g right) ↔
      ∀ k, (∀ r ∈ (left ++ right).occurrences k, r.matched = true ∨ g ∈ r.guards) →
        (∀ r ∈ (left ++ right).occurrences k, r.matched = true) ∨
          ∀ r ∈ (left ++ right).occurrences k, g ∈ r.guards := by
  constructor
  · intro heq k hall
    by_cases hk : k ∈ (left ++ right).obligations
    · have hout : k ∈ (matchGuard g (merge left right)).obligations := by
        rw [obligations_matchGuard, obligations_merge, List.mem_eraseDups]
        exact hk
      obtain ⟨s, hs, rfl⟩ := mem_obligations.mp hout
      have hs' : s ∈ merge (matchGuard g left) (matchGuard g right) := by
        rw [← heq]
        exact hs
      have hmatched : s.matched = true := (matched_of_mem_merge_matchGuard hs').mpr hall
      exact (matched_of_mem_matchGuard_merge hs).mp hmatched
    · refine .inl fun r hr => ?_
      obtain ⟨hmem, hrk⟩ := mem_occurrences.mp hr
      exact absurd (mem_obligations.mpr ⟨r, hmem, hrk⟩) hk
  · intro hcond
    have hsame : List.Forall₂ Eq (matchGuard g (merge left right))
        (merge (matchGuard g left) (matchGuard g right)) := by
      refine forall₂_of_obligations_eq (obligations_matchGuard_merge g left right) ?_
      intro s hs t ht hst
      refine (moreCautious_of_mem hs ht hst).eq fun hmatched => ?_
      rw [matched_of_mem_merge_matchGuard ht] at hmatched
      rw [matched_of_mem_matchGuard_merge hs, hst]
      exact hcond t.obligation hmatched
    rwa [List.forall₂_eq_eq_eq] at hsame

/-- Matching a guard after a merge is conservative.  Whether the guard is matched on the merge or on
both sides of it, the outcome has the same records at the same positions, with the same handles and
guards, and what is matched in the first case is matched in the second.  The outcomes are the same
list exactly if, for each obligation, records that are all matched or hold the guard are all matched
or all hold the guard; so they are if the guard is held by all records of an obligation or by
none. -/
theorem matching_after_merge (g : Nonce) (left right : RecordSet) :
    List.Forall₂ Record.MoreCautious (matchGuard g (merge left right))
        (merge (matchGuard g left) (matchGuard g right)) ∧
      (matchGuard g (merge left right) = merge (matchGuard g left) (matchGuard g right) ↔
        ∀ k, (∀ r ∈ (left ++ right).occurrences k, r.matched = true ∨ g ∈ r.guards) →
          (∀ r ∈ (left ++ right).occurrences k, r.matched = true) ∨
            ∀ r ∈ (left ++ right).occurrences k, g ∈ r.guards) ∧
      ((∀ k, (∀ r ∈ (left ++ right).occurrences k, g ∈ r.guards) ∨
          ∀ r ∈ (left ++ right).occurrences k, g ∉ r.guards) →
        matchGuard g (merge left right) = merge (matchGuard g left) (matchGuard g right)) := by
  refine ⟨?_, matchGuard_merge_eq_iff g left right, fun huniform => ?_⟩
  · refine forall₂_of_obligations_eq (obligations_matchGuard_merge g left right) ?_
    intro s hs t ht hst
    exact moreCautious_of_mem hs ht hst
  · rw [matchGuard_merge_eq_iff]
    intro k hall
    rcases huniform k with hheld | hfree
    · exact .inr hheld
    · exact .inl fun r hr => (hall r hr).resolve_right (hfree r hr)

/-- Guard 1 is held by both records of the first expression and by none of the second, so the order
makes no difference.  If one branch is matched already and only the other one holds the guard, it
does. -/
theorem matching_after_merge_of_branches :
    let left : RecordSet := [.deref 1 [1, 2] false, .deref 2 [3] true]
    let right : RecordSet := [.deref 1 [1] false, .deref 2 [] false]
    let before : RecordSet := [.deref 1 [] true]
    let under : RecordSet := [.deref 1 [1] false]
    (∀ k, (∀ r ∈ (left ++ right).occurrences k, (⟨1⟩ : Nonce) ∈ r.guards) ∨
        ∀ r ∈ (left ++ right).occurrences k, (⟨1⟩ : Nonce) ∉ r.guards) ∧
      matchGuard ⟨1⟩ (merge left right) = merge (matchGuard ⟨1⟩ left) (matchGuard ⟨1⟩ right) ∧
      matchGuard ⟨1⟩ (merge before under) ≠
        merge (matchGuard ⟨1⟩ before) (matchGuard ⟨1⟩ under) := by
  intro left right before under
  let k₁ : Obligation := (Record.deref 1 [] false).obligation
  have hheld : ∀ r ∈ left ++ right, r.obligation = k₁ → r.guards.contains ⟨1⟩ = true := by decide
  have hfree : ∀ r ∈ left ++ right, r.obligation ≠ k₁ → ¬ r.guards.contains ⟨1⟩ = true := by decide
  simp only [GuardSet.contains_iff] at hheld hfree
  have huniform : ∀ k, (∀ r ∈ (left ++ right).occurrences k, (⟨1⟩ : Nonce) ∈ r.guards) ∨
      ∀ r ∈ (left ++ right).occurrences k, (⟨1⟩ : Nonce) ∉ r.guards := by
    intro k
    by_cases hk : k = k₁
    · refine .inl fun r hr => ?_
      obtain ⟨hmem, hr₁⟩ := mem_occurrences.mp hr
      exact hheld r hmem (hr₁.trans hk)
    · refine .inr fun r hr => ?_
      obtain ⟨hmem, rfl⟩ := mem_occurrences.mp hr
      exact hfree r hmem hk
  refine ⟨huniform, (matching_after_merge ⟨1⟩ left right).2.2 huniform, ?_⟩
  obtain ⟨-, hexact, -⟩ := matching_after_merge ⟨1⟩ before under
  have hmixed : ∀ r ∈ (before ++ under).occurrences k₁,
      r.matched = true ∨ r.guards.contains ⟨1⟩ = true := by decide
  have hflag : ¬ ∀ r ∈ (before ++ under).occurrences k₁, r.matched = true := by decide
  have hguard : ¬ ∀ r ∈ (before ++ under).occurrences k₁, r.guards.contains ⟨1⟩ = true := by decide
  simp only [GuardSet.contains_iff] at hmixed hguard
  intro heq
  exact (hexact.mp heq k₁ hmixed).elim hflag hguard

end RecordSet

end NilFlow
