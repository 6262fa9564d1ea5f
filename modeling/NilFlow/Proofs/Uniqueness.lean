import NilFlow.Proofs.Comparison
import NilFlow.Proofs.DataflowOrder
import NilFlow.RecordSet.Store

/-!
# Obligations stay unique along a run

A propagation is a run of steps on a store of named record sets.  If no set of the store repeats an
obligation (`Store.AllDistinct`), no set does after one step (`AllDistinct.apply`), nor after a
whole run (`AllDistinct.run`): a merge has every obligation once, whatever its sides have, and
stamping guards and matching a guard leave the obligations alone.

The invariant speaks of obligations and not of records.  That no record is repeated would not be
kept by a stamp, which clears the flag and may add the very guard in which two records of one
obligation differ.
-/

namespace NilFlow

namespace Store

/-- No set of the store, under whatever name, repeats an obligation. -/
def AllDistinct (s : Store RecordSet) : Prop :=
  ∀ name, (s.getD name []).Distinct

/-- A store in which nothing is set repeats nothing. -/
lemma allDistinct_empty : (empty : Store RecordSet).AllDistinct :=
  fun _ => List.nodup_nil

/-- A set without repeated obligations may be put under any name. -/
lemma AllDistinct.set {s : Store RecordSet} (h : s.AllDistinct) (name : String) {rs : RecordSet}
    (hrs : rs.Distinct) : (s.set name rs).AllDistinct := by
  intro other
  by_cases hother : other = name
  · rw [hother, getD_set_self]
    exact hrs
  · rw [getD_set_ne s rs [] hother]
    exact h other

end Store

namespace RecordSet.Step

/-- The store after a run of steps, the first one first. -/
def run (s : Store RecordSet) (steps : List Step) : Store RecordSet :=
  steps.foldl Step.apply s

/-- The result of a step on such a store repeats no obligation. -/
lemma distinct_result {s : Store RecordSet} (h : s.AllDistinct) (step : Step) :
    (step.result s).Distinct := by
  cases step with
  -- What the store has under the two names does not matter here.
  | merge left right into => exact distinct_merge (s.getD left []) (s.getD right [])
  | stamp source gs into => exact (h source).apply (.stamp gs)
  | matchGuard source g into => exact (h source).apply (.matchGuard g)

/-- Records, unlike obligations, may become repeated: these two differ in a guard and in the flag,
until the guard is stamped on both. -/
example :
    let rs : RecordSet := [.deref 1 [1] true, .deref 1 [] false]
    rs.ids.Nodup ∧ ¬ (RecordSet.stamp [⟨1⟩] rs).ids.Nodup := by
  decide

end RecordSet.Step

open RecordSet

/-- One step repeats no obligation in any set. -/
lemma Store.AllDistinct.apply {s : Store RecordSet} (h : s.AllDistinct) (step : Step) :
    (step.apply s).AllDistinct :=
  h.set step.target (Step.distinct_result h step)

/-- A run of steps repeats no obligation in any set. -/
lemma Store.AllDistinct.run {s : Store RecordSet} (h : s.AllDistinct) (steps : List Step) :
    (Step.run s steps).AllDistinct := by
  induction steps generalizing s with
  | nil => exact h
  | cons step steps ih => exact ih (h.apply step)

namespace RecordSet.Step

/-- From a store without repeated obligations, every run of steps leads to such a store.  A merge
has no repeated obligations even if its sides have, and the comparison of any two sets of the store
has an answer. -/
theorem run_keeps_distinct (s : Store RecordSet) (h : s.AllDistinct) (steps : List Step) :
    (run s steps).AllDistinct ∧
      (∀ left right : RecordSet, (RecordSet.merge left right).Distinct) ∧
      ∀ a b : String, ∃ answer : Bool,
        equal ((run s steps).getD a []) ((run s steps).getD b []) = .ok answer := by
  have hrun : (run s steps).AllDistinct := h.run steps
  refine ⟨hrun, distinct_merge, fun a b => ?_⟩
  exact ⟨_, equal_eq_ok (hrun a).nodup_ids (hrun b).nodup_ids⟩

/-- Two branches are merged, and the merge is guarded and put in the place of a branch. -/
theorem run_keeps_distinct_of_branches :
    let left : RecordSet := [.deref 1 [1, 2] true, .deref 2 [] false]
    let right : RecordSet := [.deref 2 [3] false, .deref 1 [2] true]
    let s : Store RecordSet := (Store.empty.set "left" left).set "right" right
    let steps : List Step :=
      [.merge "left" "right" "join", .stamp "join" [⟨7⟩] "left", .matchGuard "left" ⟨7⟩ "right"]
    s.AllDistinct ∧ (run s steps).AllDistinct ∧
      ∃ answer : Bool,
        equal ((run s steps).getD "left" []) ((run s steps).getD "right" []) = .ok answer := by
  intro left right s steps
  have hleft : left.Distinct := by decide
  have hright : right.Distinct := by decide
  have hs : s.AllDistinct := (Store.allDistinct_empty.set "left" hleft).set "right" hright
  obtain ⟨hrun, -, hequal⟩ := run_keeps_distinct s hs steps
  exact ⟨hs, hrun, hequal "left" "right"⟩

end RecordSet.Step

end NilFlow
