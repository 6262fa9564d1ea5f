import NilFlow.FiniteMap
import NilFlow.Json.Schema
import NilFlow.Site

/-!
# Annotations and snapshots

An annotation says whether the value at a site may be nil, and whether something reachable through
it may. A snapshot is a finite map from sites to annotations. Sites with the same identity are one
key; a site that is not in the snapshot has no annotation, which is different from any annotation.
-/

namespace NilFlow

/-- Shallow and deep nilability of the value at a site. -/
structure Annotation where
  isNilable : Bool
  isDeepNilable : Bool
  deriving DecidableEq

namespace Annotation

/-- Neither the value nor anything reachable through it may be nil. -/
def nonNil : Annotation := ⟨false, false⟩

/-- Both the value and what is reachable through it may be nil. -/
def nilable : Annotation := ⟨true, true⟩

/-- The fields of an annotation. -/
def schema : Schema (Bool × Bool × Unit) :=
  .required "is_nilable" .bool <| .required "is_deep_nilable" .bool .nil

/-- Annotations. -/
def codec : Codec Annotation :=
  schema.record "Annotation" (fun (isNilable, isDeepNilable, ()) => ⟨isNilable, isDeepNilable⟩)
    fun a => (a.isNilable, a.isDeepNilable, ())

end Annotation

/-- The annotations of one evaluation pass. -/
structure Snapshot where
  annotations : FiniteMap SiteId Annotation

namespace Snapshot

/-- No annotations. -/
def empty : Snapshot := ⟨.empty⟩

/-- The annotation of a site. -/
def lookup (m : Snapshot) (site : Site) : Option Annotation :=
  m.annotations.get? site.id

/-- The annotation that a site had, and the snapshot with another one set. -/
def exchange (m : Snapshot) (site : Site) (a : Annotation) : Option Annotation × Snapshot :=
  (m.annotations.exchange site.id a).map id (⟨·⟩)

/-- The snapshot with the annotation of one site set. -/
def insert (m : Snapshot) (site : Site) (a : Annotation) : Snapshot :=
  ⟨m.annotations.insert site.id a⟩

/-- The number of annotated sites. -/
def size (m : Snapshot) : Nat :=
  m.annotations.size

/-- Whether no site is annotated. -/
def isEmpty (m : Snapshot) : Bool :=
  m.annotations.isEmpty

/-- The snapshot of a list of annotations; of several for one site the last counts. -/
def ofList (l : List (Site × Annotation)) : Snapshot :=
  l.foldl (fun m (site, a) => m.insert site a) empty

/-- The empty snapshot has no annotation for any site. -/
@[simp] theorem lookup_empty (site : Site) : empty.lookup site = none := rfl

/-- A snapshot has the same annotation for sites of the same identity. -/
theorem lookup_eq_of_id_eq (m : Snapshot) {s t : Site} (h : s.id = t.id) :
    m.lookup s = m.lookup t := by
  rw [lookup, lookup, h]

/-- Setting the annotation of a site changes that of the sites with its identity and of no other. -/
theorem lookup_insert (m : Snapshot) (site other : Site) (a : Annotation) :
    (m.insert site a).lookup other = if other.id = site.id then some a else m.lookup other :=
  m.annotations.get?_insert site.id other.id a

/-- An exchange gives back the annotation that the site had, and sets the other one. -/
theorem exchange_eq (m : Snapshot) (site : Site) (a : Annotation) :
    m.exchange site a = (m.lookup site, m.insert site a) := by
  rw [exchange, FiniteMap.exchange_eq]
  rfl

end Snapshot

end NilFlow
