import NilFlow.RecordSet.Join

/-!
# Named values

A store keeps values under names; a name that was never set has a default. The propagation of
records is a run of steps on a store of record sets, each of which puts its result under a name.
-/

namespace NilFlow

/-- Values under names, the latest first. -/
structure Store (α : Type) where
  entries : List (String × α)

namespace Store

variable {α : Type}

/-- Nothing set yet. -/
def empty : Store α := ⟨[]⟩

/-- The value under a name, or else a default. -/
def getD (s : Store α) (name : String) (default : α) : α :=
  match s.entries.find? (·.1 = name) with
  | some (_, a) => a
  | none => default

/-- The store with a value put under a name. -/
def set (s : Store α) (name : String) (a : α) : Store α :=
  ⟨(name, a) :: s.entries.filter (·.1 ≠ name)⟩

/-- There is nothing in the empty store. -/
@[simp] theorem getD_empty (name : String) (d : α) : (empty : Store α).getD name d = d := rfl

/-- What was put under a name is there. -/
@[simp] theorem getD_set_self (s : Store α) (name : String) (a d : α) :
    (s.set name a).getD name d = a := by
  simp [getD, set]

/-- What is under the other names stays. -/
theorem getD_set_ne (s : Store α) {name other : String} (a d : α) (h : other ≠ name) :
    (s.set name a).getD other d = s.getD other d := by
  have hf : (s.set name a).entries.find? (·.1 = other) = s.entries.find? (·.1 = other) := by
    rw [set, List.find?_cons_of_neg (by simpa using Ne.symm h), List.find?_filter]
    congr 1
    funext e
    by_cases he : e.1 = other <;> simp [he, h]
  rw [getD, hf, getD]

end Store

namespace RecordSet

/-- One step of propagation on named record sets. -/
inductive Step where
  | merge (left right into : String)
  | stamp (source : String) (guards : List Nonce) (into : String)
  | matchGuard (source : String) (guard : Nonce) (into : String)

namespace Step

/-- The name under which a step puts its result. -/
def target : Step → String
  | .merge _ _ into => into
  | .stamp _ _ into => into
  | .matchGuard _ _ into => into

/-- The result of a step. -/
def result (s : Store RecordSet) : Step → RecordSet
  | .merge left right _ => RecordSet.merge (s.getD left []) (s.getD right [])
  | .stamp source gs _ => RecordSet.stamp gs (s.getD source [])
  | .matchGuard source g _ => RecordSet.matchGuard g (s.getD source [])

/-- What is told about a step. -/
def events (s : Store RecordSet) : Step → List Event
  | .merge left right _ => mergeEvents (s.getD left []) (s.getD right [])
  | .stamp .. | .matchGuard .. => []

/-- The store after a step. -/
def apply (s : Store RecordSet) (step : Step) : Store RecordSet :=
  s.set step.target (step.result s)

end Step

end RecordSet

end NilFlow
