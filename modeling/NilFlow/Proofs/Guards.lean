import Mathlib.Data.List.Sort
import Mathlib.Tactic.Lemma
import NilFlow.Guard

/-!
# Laws of guard sets

A guard set keeps its nonces in strictly ascending order.  So no nonce is there twice
(`GuardSet.nodup_toList`), and a set is determined by its members (`GuardSet.ext`).  An equation
between sets is therefore shown nonce by nonce, as for the associativity of intersection
(`GuardSet.inter_assoc`).
-/

namespace NilFlow

/-- Nonces ordered by their words. -/
instance : Std.Irrefl fun a b : Nonce => a.raw < b.raw where
  irrefl a := UInt64.lt_irrefl a.raw

/-- No two nonces precede each other. -/
instance : Std.Antisymm fun a b : Nonce => a.raw < b.raw where
  antisymm _ _ hab hba := absurd (UInt64.lt_trans hab hba) (UInt64.lt_irrefl _)

namespace GuardSet

/-- A guard set is determined by its members. -/
@[ext] theorem ext {s t : GuardSet} (h : ∀ g, g ∈ s ↔ g ∈ t) : s = t := by
  have hlist : s.toList = t.toList := List.Pairwise.eq_of_mem_iff s.ascending t.ascending h
  cases s
  cases t
  simpa using hlist

/-- No nonce is in the list twice. -/
lemma nodup_toList (s : GuardSet) : s.toList.Nodup :=
  List.Pairwise.nodup s.ascending

/-- Intersection is associative. -/
lemma inter_assoc (s t u : GuardSet) : (s.inter t).inter u = s.inter (t.inter u) := by
  ext g
  simp only [mem_inter, and_assoc]

end GuardSet

end NilFlow
