import NilFlow.Event

/-!
# Record sets through control flow

Records travel backwards. Where two paths meet, their record sets are merged: records of the same
obligation become one, which keeps the guards held on both paths and is matched if both are. Where a
check guards a path, every record on it is stamped with the guards of the check; where a guard is
matched, the records that carry it are marked.

The order of a merge is that of first occurrence, left before right. `mergeEvents` tells what a
merge dropped.
-/

namespace NilFlow

/-- The records of one point of a program, in order. -/
abbrev RecordSet := List Record

namespace RecordSet

/-- Takes one more record into a set: it joins the record of its obligation, or else comes last. -/
def absorb : RecordSet → Record → RecordSet
  | [], r => [r]
  | s :: rest, r => if s.obligation = r.obligation then s.join r :: rest else s :: absorb rest r

/-- The set after two paths meet. -/
def merge (left right : RecordSet) : RecordSet :=
  (left ++ right).foldl absorb []

/-- Adds guards to every record. -/
def stamp (gs : List Nonce) (rs : RecordSet) : RecordSet :=
  rs.map (·.withGuards gs)

/-- Marks every record that carries a guard. -/
def matchGuard (g : Nonce) (rs : RecordSet) : RecordSet :=
  rs.map fun r => if r.guards.contains g then r.markMatched else r

/-- Marks every record. -/
def markAll (rs : RecordSet) : RecordSet :=
  rs.map (·.markMatched)

/-- What is told when a set takes in one more record: guards that one of two joined records lacks
are dropped. -/
def absorbEvents (rs : RecordSet) (r : Record) : List Event :=
  match rs.find? (·.obligation = r.obligation) with
  | none => []
  | some s =>
    let kept := s.guards.inter r.guards
    if kept = s.guards ∧ kept = r.guards then [] else [.guardsDropped s kept]

/-- What is told when a set takes in records in order. -/
def dropEvents : RecordSet → List Record → List Event
  | _, [] => []
  | rs, r :: rest => absorbEvents rs r ++ dropEvents (absorb rs r) rest

/-- What is told about a merge. -/
def mergeEvents (left right : RecordSet) : List Event :=
  dropEvents [] (left ++ right) ++ [.merged left.length right.length (merge left right).length]

end RecordSet

end NilFlow
