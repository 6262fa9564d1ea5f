import NilFlow.FiniteMap
import NilFlow.RecordSet.Compare

/-!
# Records by site

When one annotation changes, only the records that depend on its site can change their verdict. A
site index has the records of each site under its identity, and keeps those apart that depend on
none. The sites are also listed in the order of their first record, since a map has no order of its
own to run through.
-/

namespace NilFlow

/-- Records by the site they depend on. -/
structure SiteIndex where
  /-- The records that depend on no site. -/
  always : RecordSet
  /-- The records of each site. -/
  bySite : FiniteMap SiteId RecordSet
  /-- The sites, in the order of their first record. -/
  sites : List Site
  /-- Exactly the sites that have records are listed, each once. -/
  inStep : (sites.map Site.id).Perm bySite.keys

namespace SiteIndex

/-- No records. -/
def empty : SiteIndex := ⟨[], .empty, [], .refl []⟩

/-- The records that depend on a site. -/
def dependents (ix : SiteIndex) (site : Site) : RecordSet :=
  (ix.bySite.get? site.id).getD []

/-- A site that is listed if it is new stays in step with its records. -/
theorem inStep_insert (ix : SiteIndex) (site : Site) (rs : RecordSet) :
    ((if ix.bySite.contains site.id then ix.sites else ix.sites ++ [site]).map Site.id).Perm
      (ix.bySite.insert site.id rs).keys := by
  rw [FiniteMap.keys_insert]
  by_cases h : site.id ∈ ix.bySite.keys
  · rw [if_pos (FiniteMap.contains_iff.2 h), if_pos h]
    exact ix.inStep
  · rw [if_neg (mt FiniteMap.contains_iff.1 h), if_neg h, List.map_append]
    exact ix.inStep.append_right [site.id]

/-- The index with one record added. -/
def insert (ix : SiteIndex) (r : Record) : SiteIndex :=
  match r.trigger.site? with
  | none => { ix with always := ix.always ++ [r] }
  | some site =>
    { always := ix.always
      bySite := ix.bySite.insert site.id (ix.dependents site ++ [r])
      sites := if ix.bySite.contains site.id then ix.sites else ix.sites ++ [site]
      inStep := ix.inStep_insert site (ix.dependents site ++ [r]) }

/-- The index of the records of a set. -/
def build (rs : RecordSet) : SiteIndex :=
  rs.foldl insert empty

/-- The records that depend on some site, site by site. -/
def keyed (ix : SiteIndex) : RecordSet :=
  ix.sites.flatMap ix.dependents

/-- The records that fire under a snapshot, the unconditional ones first. -/
def firing (ix : SiteIndex) (m : Snapshot) : RecordSet :=
  ix.always ++ ix.keyed.filter (·.fires m)

/-- The number of records. -/
def size (ix : SiteIndex) : Nat :=
  ix.always.length + (ix.bySite.values.map List.length).foldr (· + ·) 0

/-- Whether there are no records. -/
def isEmpty (ix : SiteIndex) : Bool :=
  ix.size = 0

/-- What is told when an index has been built. -/
def buildEvents (ix : SiteIndex) : List Event :=
  [.indexBuilt ix.sites.length ix.always.length]

/-- What is told when the firing records are looked for; unconditional records are not evaluated. -/
def firingEvents (ix : SiteIndex) (m : Snapshot) : List Event :=
  RecordSet.verdictEvents m ix.keyed

end SiteIndex

end NilFlow
