import NilFlow.Proofs.FirstOccurrence
import NilFlow.SiteIndex

/-!
# What a site index holds

An index keeps the records of a list apart by the site they depend on.  `SiteIndex.Represents` says
what it has to be for a given list: the records without a site in order, the sites in order of first
occurrence, and under each of them the records of the site in order.  The empty index represents the
empty list, and inserting a record extends the list by it (`Represents.insert`), so the index that
is built represents its list (`represents_build`).  All look-ups are read off from this.

That no record is lost or doubled is said by `records`, everything that an index holds.  The sites
are listed in step with the map, each once, so inserting a record adds it once (`records_insert`)
and as many records are held as the map counts (`length_records`).  What is held is a rearrangement
of the list (`records_build`); the records that fire are selected from it (`firing_build`).
-/

namespace NilFlow

namespace Record

/-- The identity of the site that a record depends on. -/
def siteId? (r : Record) : Option SiteId :=
  r.trigger.site?.map Site.id

/-- A record without a site fires always. -/
lemma fires_of_siteId?_eq_none {r : Record} (h : r.siteId? = none) (m : Snapshot) :
    r.fires m = true := by
  rw [siteId?, Option.map_eq_none_iff, Trigger.site?] at h
  rw [fires, Trigger.fires]
  cases hb : r.trigger.behavior with
  | always => rfl
  | ifNonNil s => simp [hb, Behavior.site?] at h
  | ifDeepNonNil s => simp [hb, Behavior.site?] at h

end Record

namespace RecordSet

/-- The sites of the records, each once and as it first occurs. -/
def sites : RecordSet → List Site
  | [] => []
  | r :: rs =>
    match r.trigger.site? with
    | none => sites rs
    | some s => s :: (sites rs).filter (·.id ≠ s.id)

/-- The identities of the sites, in order of first occurrence. -/
def siteIds (rs : RecordSet) : List SiteId :=
  (rs.filterMap Record.siteId?).eraseDups

/-- The records that depend on a site. -/
def onSite (rs : RecordSet) (i : SiteId) : RecordSet :=
  rs.filter (·.siteId? = some i)

/-- A record without a site adds none. -/
lemma sites_cons_of_none {r : Record} (h : r.trigger.site? = none) (rs : RecordSet) :
    sites (r :: rs) = rs.sites := by
  rw [sites, h]

/-- The site of the first record comes first, and no other of its identity after it. -/
lemma sites_cons_of_some {r : Record} {s : Site} (h : r.trigger.site? = some s) (rs : RecordSet) :
    sites (r :: rs) = s :: rs.sites.filter (·.id ≠ s.id) := by
  rw [sites, h]

/-- The sites of a list with one more record. -/
lemma siteIds_concat (rs : RecordSet) {r : Record} {i : SiteId} (h : r.siteId? = some i) :
    siteIds (rs ++ [r]) = if i ∈ rs.siteIds then rs.siteIds else rs.siteIds ++ [i] := by
  simp only [siteIds, List.filterMap_append, List.filterMap_cons_some h, List.filterMap_nil,
    eraseDups_concat, List.mem_eraseDups]

/-- A record without a site adds none. -/
lemma siteIds_concat_of_none (rs : RecordSet) {r : Record} (h : r.siteId? = none) :
    siteIds (rs ++ [r]) = rs.siteIds := by
  rw [siteIds, List.filterMap_append, List.filterMap_cons_none h, List.filterMap_nil,
    List.append_nil, siteIds]

/-- A last record without a site adds none. -/
lemma sites_concat_of_none (rs : RecordSet) {r : Record} (h : r.trigger.site? = none) :
    sites (rs ++ [r]) = rs.sites := by
  induction rs with
  | nil => exact sites_cons_of_none h []
  | cons q rs ih => rw [List.cons_append, sites, ih, sites]

/-- The site of a last record comes last, unless it is listed already. -/
lemma sites_concat (rs : RecordSet) {r : Record} {s : Site} (h : r.trigger.site? = some s) :
    sites (rs ++ [r]) = rs.sites ++ if s.id ∈ rs.siteIds then [] else [s] := by
  induction rs with
  | nil => exact sites_cons_of_some h []
  | cons q rs ih =>
    rw [List.cons_append]
    cases hq : q.trigger.site? with
    | none =>
      have hids : siteIds (q :: rs) = siteIds rs := by simp [siteIds, Record.siteId?, hq]
      rw [sites_cons_of_none hq, sites_cons_of_none hq, ih, hids]
    | some t =>
      have hmem : s.id ∈ siteIds (q :: rs) ↔ s.id = t.id ∨ s.id ∈ siteIds rs := by
        simp [siteIds, Record.siteId?, hq]
      -- What the rest adds is kept exactly if the site of `q` is another one.
      have hkept : (if s.id ∈ siteIds rs then [] else [s]).filter (·.id ≠ t.id) =
          if s.id ∈ siteIds (q :: rs) then [] else [s] := by
        by_cases hs : s.id ∈ siteIds rs
        · rw [if_pos hs, if_pos (hmem.mpr (.inr hs)), List.filter_nil]
        · by_cases hst : s.id = t.id
          · rw [if_neg hs, if_pos (hmem.mpr (.inl hst)), List.filter_cons_of_neg (by simp [hst]),
              List.filter_nil]
          · rw [if_neg hs, if_neg (mt hmem.mp (not_or.mpr ⟨hst, hs⟩)),
              List.filter_cons_of_pos (by simp [hst]), List.filter_nil]
      rw [sites_cons_of_some hq, sites_cons_of_some hq, ih, List.filter_append, hkept,
        List.cons_append]

/-- One more record is the last one of its site. -/
lemma onSite_concat (rs : RecordSet) (r : Record) (i : SiteId) :
    onSite (rs ++ [r]) i = if r.siteId? = some i then rs.onSite i ++ [r] else rs.onSite i := by
  by_cases h : r.siteId? = some i <;> simp [onSite, h]

/-- There are no records of a site that does not occur. -/
lemma onSite_of_not_mem {rs : RecordSet} {i : SiteId} (h : i ∉ rs.siteIds) : rs.onSite i = [] := by
  refine List.filter_eq_nil_iff.mpr fun r hr => ?_
  simpa using fun hi => h (List.mem_eraseDups.mpr (List.mem_filterMap.mpr ⟨r, hr, hi⟩))

end RecordSet

namespace SiteIndex

/-! ### What the index of a list has to be -/

/-- `ix` is what the index of the records of `rs` has to be. -/
structure Represents (ix : SiteIndex) (rs : RecordSet) : Prop where
  always : ix.always = rs.filter (·.siteId? = none)
  sites : ix.sites = rs.sites
  bySite : ∀ i, ix.bySite.get? i = if i ∈ rs.siteIds then some (rs.onSite i) else none

/-- No records at all. -/
lemma represents_empty : empty.Represents [] :=
  ⟨rfl, rfl, fun _ => rfl⟩

/-- The dependents of a site are the records on it. -/
lemma Represents.dependents {ix : SiteIndex} {rs : RecordSet} (h : ix.Represents rs) (k : Site) :
    ix.dependents k = rs.onSite k.id := by
  rw [SiteIndex.dependents, h.bySite]
  split
  · rfl
  · next hk => exact (RecordSet.onSite_of_not_mem hk).symm

/-- An index has records for the sites that occur. -/
lemma Represents.contains_iff {ix : SiteIndex} {rs : RecordSet} (h : ix.Represents rs)
    {i : SiteId} : ix.bySite.contains i = true ↔ i ∈ rs.siteIds := by
  rw [FiniteMap.contains, h.bySite]
  split <;> simp_all

/-- A record with a site comes last among the records of the site, and a new site is listed last. -/
lemma insert_of_site (ix : SiteIndex) {r : Record} {site : Site} (h : r.trigger.site? = some site) :
    ix.insert r = ⟨ix.always, ix.bySite.insert site.id (ix.dependents site ++ [r]), _,
      ix.inStep_insert site (ix.dependents site ++ [r])⟩ := by
  rw [insert, h]

/-- Inserting a record extends the list by it. -/
lemma Represents.insert {ix : SiteIndex} {rs : RecordSet} (h : ix.Represents rs) (r : Record) :
    (ix.insert r).Represents (rs ++ [r]) := by
  cases hs : r.trigger.site? with
  | none =>
    have hid : r.siteId? = none := by simp [Record.siteId?, hs]
    have hinsert : ix.insert r = { ix with always := ix.always ++ [r] } := by
      rw [SiteIndex.insert, hs]
    rw [hinsert]
    refine ⟨?_, ?_, fun i => ?_⟩
    · simp [h.always, hid]
    · rw [RecordSet.sites_concat_of_none rs hs]
      exact h.sites
    · simp [h.bySite, RecordSet.siteIds_concat_of_none rs hid, RecordSet.onSite_concat, hid]
  | some site =>
    have hid : r.siteId? = some site.id := by simp [Record.siteId?, hs]
    rw [ix.insert_of_site hs]
    refine ⟨?_, ?_, fun i => ?_⟩
    · simp [h.always, hid]
    · simp only [RecordSet.sites_concat rs hs, h.sites, h.contains_iff]
      split <;> simp
    · simp only [FiniteMap.get?_insert, h.bySite, h.dependents, RecordSet.siteIds_concat rs hid,
        RecordSet.onSite_concat, hid, Option.some.injEq]
      by_cases hi : i = site.id
      · subst hi
        by_cases hmem : site.id ∈ rs.siteIds <;> simp [hmem]
      · have hne : site.id ≠ i := Ne.symm hi
        by_cases hmem : site.id ∈ rs.siteIds <;> simp [hmem, hi, hne]

/-- The index that is built represents its list. -/
lemma represents_build (rs : RecordSet) : (build rs).Represents rs := by
  induction rs using List.reverseRecOn with
  | nil => exact represents_empty
  | append_singleton rs r ih =>
    rw [build, List.foldl_concat]
    exact ih.insert r

/-- The dependents of a site are the records on it. -/
lemma dependents_build (rs : RecordSet) (k : Site) : (build rs).dependents k = rs.onSite k.id :=
  (represents_build rs).dependents k

/-- The records with a site are kept site by site. -/
lemma keyed_build (rs : RecordSet) : (build rs).keyed = rs.sites.flatMap (build rs).dependents := by
  rw [keyed, (represents_build rs).sites]

/-! ### Everything that an index holds -/

/-- All records of an index, the unconditional ones first. -/
def records (ix : SiteIndex) : RecordSet :=
  ix.always ++ ix.keyed

/-- No site is listed twice. -/
lemma nodup_sites (ix : SiteIndex) : (ix.sites.map Site.id).Nodup :=
  ix.inStep.nodup_iff.mpr ix.bySite.nodup_keys

/-- A record with a site is added to the dependents of the site, and to no others. -/
lemma dependents_insert (ix : SiteIndex) {r : Record} {site : Site}
    (h : r.trigger.site? = some site) (k : Site) :
    (ix.insert r).dependents k =
      if k.id = site.id then ix.dependents k ++ [r] else ix.dependents k := by
  rw [ix.insert_of_site h, dependents, dependents, dependents, FiniteMap.get?_insert]
  split
  · next hk => rw [hk, Option.getD_some]
  · rfl

section Groups

variable {sites : List Site} {f g : Site → RecordSet} {i : SiteId} {r : Record}

/-- Sites of another identity have the same records as before. -/
lemma flatMap_of_not_mem (hg : ∀ s, g s = if s.id = i then f s ++ [r] else f s)
    (hi : i ∉ sites.map Site.id) : sites.flatMap g = sites.flatMap f := by
  have hsame : ∀ s ∈ sites, g s = f s := by
    intro s hs
    rw [hg, if_neg fun hid => hi (List.mem_map.mpr ⟨s, hs, hid⟩)]
  rw [List.flatMap_def, List.flatMap_def, List.map_congr_left hsame]

/-- Sites that are listed once take in a record once. -/
lemma flatMap_of_mem (hg : ∀ s, g s = if s.id = i then f s ++ [r] else f s)
    (hnodup : (sites.map Site.id).Nodup) (hi : i ∈ sites.map Site.id) :
    (sites.flatMap g).Perm (r :: sites.flatMap f) := by
  induction sites with
  | nil => cases hi
  | cons s sites ih =>
    obtain ⟨hs, hrest⟩ := List.nodup_cons.mp hnodup
    rw [List.flatMap_cons, List.flatMap_cons, hg s]
    by_cases hid : s.id = i
    · rw [if_pos hid, flatMap_of_not_mem hg (hid ▸ hs), List.append_assoc, List.singleton_append]
      exact List.perm_middle
    · have hmem : i ∈ sites.map Site.id := (List.mem_cons.mp hi).resolve_left (Ne.symm hid)
      rw [if_neg hid]
      exact ((ih hrest hmem).append_left (f s)).trans List.perm_middle

end Groups

/-- The records with a site take in a record once. -/
lemma keyed_insert (ix : SiteIndex) {r : Record} {site : Site} (h : r.trigger.site? = some site) :
    (ix.insert r).keyed.Perm (r :: ix.keyed) := by
  have hdependents := ix.dependents_insert h
  have hsites : (ix.insert r).sites =
      if ix.bySite.contains site.id then ix.sites else ix.sites ++ [site] := by
    rw [ix.insert_of_site h]
  rw [keyed, keyed, hsites]
  by_cases hmem : site.id ∈ ix.bySite.keys
  · rw [if_pos (FiniteMap.contains_iff.mpr hmem)]
    exact flatMap_of_mem hdependents ix.nodup_sites (ix.inStep.mem_iff.mpr hmem)
  · -- The site is new: it has no records yet, and none of the sites listed has its identity.
    have hnone : ix.dependents site = [] := by
      rw [dependents, FiniteMap.get?_eq_none_iff.mpr hmem, Option.getD_none]
    rw [if_neg (mt FiniteMap.contains_iff.mp hmem), List.flatMap_append,
      flatMap_of_not_mem hdependents (mt ix.inStep.mem_iff.mp hmem), List.flatMap_singleton,
      hdependents, if_pos rfl, hnone, List.nil_append]
    exact List.perm_append_singleton r _

/-- Inserting a record adds it once. -/
lemma records_insert (ix : SiteIndex) (r : Record) :
    (ix.insert r).records.Perm (r :: ix.records) := by
  cases h : r.trigger.site? with
  | none =>
    have hinsert : ix.insert r = { ix with always := ix.always ++ [r] } := by
      rw [insert, h]
    rw [hinsert, records, records, List.append_assoc, List.singleton_append]
    exact List.perm_middle
  | some site =>
    have halways : (ix.insert r).always = ix.always := by
      rw [ix.insert_of_site h]
    rw [records, records, halways]
    exact ((ix.keyed_insert h).append_left ix.always).trans List.perm_middle

/-- As many records are held as the map counts. -/
lemma length_records (ix : SiteIndex) : ix.records.length = ix.size := by
  have hkeyed : ix.keyed.length =
      (((ix.sites.map Site.id).map ix.bySite.get?).map fun rs? => (rs?.getD []).length).sum := by
    rw [keyed, List.length_flatMap, List.map_map, List.map_map]
    rfl
  have hvalues : ((ix.bySite.keys.map ix.bySite.get?).map fun rs? => (rs?.getD []).length) =
      ix.bySite.values.map List.length := by
    rw [FiniteMap.map_get?_keys, List.map_map]
    rfl
  rw [records, List.length_append, hkeyed, ((ix.inStep.map _).map _).sum_nat, hvalues]
  rfl

/-- The index that is built holds the records of its list. -/
lemma records_build (rs : RecordSet) : (build rs).records.Perm rs := by
  induction rs using List.reverseRecOn with
  | nil => exact .refl _
  | append_singleton rs r ih =>
    rw [build, List.foldl_concat]
    exact ((records_insert _ r).trans (ih.cons r)).trans (List.perm_append_singleton r rs).symm

/-- The records that fire are selected from all records: the unconditional ones fire anyway. -/
lemma firing_build (rs : RecordSet) (m : Snapshot) :
    (build rs).firing m = (build rs).records.filter (·.fires m) := by
  have halways : (build rs).always.filter (·.fires m) = (build rs).always := by
    refine List.filter_eq_self.mpr fun r hr => ?_
    rw [(represents_build rs).always] at hr
    exact Record.fires_of_siteId?_eq_none (by simpa using (List.mem_filter.mp hr).2) m
  rw [firing, records, List.filter_append, halways]

/-- The index that is built agrees with its list.  The dependents of a site are the records with a
site of its identity, and the unconditional records are those without a site, both in the order of
the list and with all repetitions; and as many records are held as are listed.  The records that
fire are the unconditional ones and then, site by site in order of first occurrence, the dependents
that fire: a rearrangement of the records of the list that fire. -/
theorem build_agrees_with_list (rs : RecordSet) :
    (∀ k : Site, (build rs).dependents k = rs.filter (·.siteId? = some k.id)) ∧
      (build rs).always = rs.filter (·.siteId? = none) ∧
      (build rs).size = rs.length ∧
      ∀ m : Snapshot,
        (build rs).firing m = (build rs).always ++
          rs.sites.flatMap (fun s => ((build rs).dependents s).filter (·.fires m)) ∧
        ((build rs).firing m).Perm (rs.filter (·.fires m)) := by
  refine ⟨dependents_build rs, (represents_build rs).always, ?_, fun m => ⟨?_, ?_⟩⟩
  · rw [← length_records, (records_build rs).length_eq]
  · rw [firing, keyed_build, List.filter_flatMap]
  · rw [firing_build]
    exact (records_build rs).filter _

end SiteIndex

end NilFlow
