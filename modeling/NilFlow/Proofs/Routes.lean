import NilFlow.Proofs.DataflowOrder

/-!
# The result of a propagation over all routes

A propagation starts with record sets, takes them through crossings and merges them.  It can be read
in two ways: as one record set at its end (`Propagation.result`), or as the list of its routes, each
of which leads from a starting set to the end through crossings only (`Propagation.routes`).  The
records that arrive along the routes, unmerged, are its `arrivals`.

`Summary` says how the result sums up the arrivals: it has each of their obligations once, holds a
guard exactly if all arrivals of the obligation do, and weakens each of them.  The match is a bound
in one direction only: of a guard that only one side of a merge holds, the later match is seen on
the routes of that side and not in the result.  A summary is kept by merges (`Summary.merge`) and by
crossings (`Summary.cross`).
-/

namespace NilFlow

/-! ### Summaries -/

/-- `out` sums up the records that arrive. -/
structure Summary (out arrivals : RecordSet) : Prop where
  distinct : out.Distinct
  obligations : ∀ k, k ∈ out.obligations ↔ k ∈ arrivals.obligations
  guards : ∀ s ∈ out, ∀ g,
    g ∈ s.guards ↔ ∀ r ∈ arrivals, r.obligation = s.obligation → g ∈ r.guards
  weakens : ∀ s ∈ out, ∀ r ∈ arrivals, r.obligation = s.obligation → s.Weakens r

namespace Summary

open RecordSet

variable {a b arrA arrB : RecordSet}

/-- An arriving record has a record of its obligation in the summary. -/
lemma exists_mem (h : Summary a arrA) {r : Record} (hr : r ∈ arrA) :
    ∃ s ∈ a, r.obligation = s.obligation := by
  have hk : r.obligation ∈ a.obligations := by
    rw [h.obligations]
    exact mem_obligations.mpr ⟨r, hr, rfl⟩
  obtain ⟨s, hs, hsr⟩ := mem_obligations.mp hk
  exact ⟨s, hs, hsr.symm⟩

/-- A guard is held for an obligation throughout the summary exactly if it is throughout the
arrivals. -/
lemma forall_mem_guards (h : Summary a arrA) (k : Obligation) (g : Nonce) :
    (∀ s ∈ a, s.obligation = k → g ∈ s.guards) ↔ ∀ r ∈ arrA, r.obligation = k → g ∈ r.guards := by
  constructor
  · intro hall r hr hrk
    obtain ⟨s, hs, hrs⟩ := h.exists_mem hr
    exact (h.guards s hs g).mp (hall s hs (hrs.symm.trans hrk)) r hr hrs
  · intro hall s hs hsk
    exact (h.guards s hs g).mpr fun r hr hrs => hall r hr (hrs.trans hsk)

/-- A set without repeated obligations sums up itself. -/
lemma refl {rs : RecordSet} (h : rs.Distinct) : Summary rs rs := by
  refine ⟨h, fun _ => Iff.rfl, fun s hs g => ⟨fun hg r hr hrs => ?_, fun hall => hall s hs rfl⟩,
    fun s hs r hr hrs => ?_⟩
  · rw [h.eq_of_obligation_eq hr hs hrs]
    exact hg
  · rw [h.eq_of_obligation_eq hr hs hrs]
    exact .refl s

/-- Where routes meet, the merge sums up what arrives on both sides. -/
lemma merge (ha : Summary a arrA) (hb : Summary b arrB) : Summary (merge a b) (arrA ++ arrB) where
  distinct := distinct_merge a b
  obligations k := by
    rw [mem_obligations_merge, ha.obligations, hb.obligations, obligations_append, List.mem_append]
  guards s hs g := by
    rw [mem_guards_of_mem_merge hs]
    simp only [List.forall_mem_append, ha.forall_mem_guards, hb.forall_mem_guards]
  weakens s hs r hr hrs := by
    have harr : ∃ u ∈ a ++ b, u.Weakens r := by
      rcases List.mem_append.mp hr with hr | hr
      · obtain ⟨u, hu, hru⟩ := ha.exists_mem hr
        exact ⟨u, List.mem_append_left b hu, ha.weakens u hu r hr hru⟩
      · obtain ⟨u, hu, hru⟩ := hb.exists_mem hr
        exact ⟨u, List.mem_append_right a hu, hb.weakens u hu r hr hru⟩
    obtain ⟨u, hu, hur⟩ := harr
    exact (weakens_of_mem_merge hs hu (hur.obligation.trans hrs)).trans hur

/-- A crossing of the summary sums up the crossing of each arrival. -/
lemma cross (h : Summary a arrA) (c : Crossing) : Summary (c.apply a) (c.apply arrA) where
  distinct := h.distinct.apply c
  obligations k := by
    rw [c.obligations_apply, c.obligations_apply]
    exact h.obligations k
  guards s' hs' g := by
    rw [c.apply_eq_map] at hs' ⊢
    obtain ⟨s, hs, rfl⟩ := List.mem_map.mp hs'
    simp only [List.forall_mem_map, c.obligation_onRecord, c.mem_guards_onRecord]
    -- A stamped guard is held everywhere; any other one is held as before.
    by_cases hg : g ∈ c.stamped
    · simp [hg]
    · simpa [hg] using h.guards s hs g
  weakens s' hs' r' hr' hrs := by
    rw [c.apply_eq_map] at hs' hr'
    obtain ⟨s, hs, rfl⟩ := List.mem_map.mp hs'
    obtain ⟨r, hr, rfl⟩ := List.mem_map.mp hr'
    rw [c.obligation_onRecord, c.obligation_onRecord] at hrs
    exact (h.weakens s hs r hr hrs).onRecord c

end Summary

/-! ### Routes -/

/-- A route of a propagation: a starting set and the crossings on the way to the end. -/
structure Route where
  start : RecordSet
  crossings : List Crossing

namespace Route

/-- The route with one more crossing at its end. -/
def extend (p : Route) (c : Crossing) : Route :=
  ⟨p.start, p.crossings ++ [c]⟩

/-- A record set after all crossings of the route, in order. -/
def run (p : Route) (rs : RecordSet) : RecordSet :=
  p.crossings.foldl (fun acc c => c.apply acc) rs

/-- A single record after all crossings of the route. -/
def onRecord (p : Route) (r : Record) : Record :=
  p.crossings.foldl (fun acc c => c.onRecord acc) r

/-- All guards that are stamped on the route. -/
def stamped (p : Route) : List Nonce :=
  p.crossings.flatMap Crossing.stamped

/-- One more crossing comes after all others. -/
lemma run_extend (p : Route) (c : Crossing) (rs : RecordSet) :
    (p.extend c).run rs = c.apply (p.run rs) := by
  rw [run, extend, List.foldl_append]
  rfl

/-- Every record goes through the crossings by itself. -/
lemma run_eq_map (p : Route) (rs : RecordSet) : p.run rs = rs.map p.onRecord := by
  obtain ⟨start, cs⟩ := p
  simp only [run]
  induction cs generalizing rs with
  | nil => exact (List.map_id rs).symm
  | cons c cs ih =>
    rw [List.foldl_cons, ih, c.apply_eq_map, List.map_map]
    rfl

/-- The obligation of a record stays the same on the whole route. -/
@[simp] lemma obligation_onRecord (p : Route) (r : Record) :
    (p.onRecord r).obligation = r.obligation := by
  obtain ⟨start, cs⟩ := p
  simp only [onRecord]
  induction cs generalizing r with
  | nil => rfl
  | cons c cs ih => rw [List.foldl_cons, ih, c.obligation_onRecord]

/-- At the end of the route a record holds its own guards and all that were stamped. -/
@[simp] lemma mem_guards_onRecord (p : Route) (r : Record) (g : Nonce) :
    g ∈ (p.onRecord r).guards ↔ g ∈ r.guards ∨ g ∈ p.stamped := by
  obtain ⟨start, cs⟩ := p
  simp only [onRecord, stamped]
  induction cs generalizing r with
  | nil => simp
  | cons c cs ih =>
    rw [List.foldl_cons, ih, c.mem_guards_onRecord, List.flatMap_cons, List.mem_append, or_assoc]

end Route

/-! ### Propagations -/

/-- A propagation of record sets.  In the sets that it starts with, no obligation is repeated. -/
inductive Propagation where
  | start (records : RecordSet) (distinct : records.Distinct)
  | merge (left right : Propagation)
  | cross (crossing : Crossing) (body : Propagation)

namespace Propagation

/-- The record set at the end. -/
def result : Propagation → RecordSet
  | .start rs _ => rs
  | .merge left right => RecordSet.merge left.result right.result
  | .cross c body => c.apply body.result

/-- The routes from every starting set to the end. -/
def routes : Propagation → List Route
  | .start rs _ => [⟨rs, []⟩]
  | .merge left right => left.routes ++ right.routes
  | .cross c body => body.routes.map (·.extend c)

/-- The records that arrive along all routes. -/
def arrivals (t : Propagation) : RecordSet :=
  t.routes.flatMap fun p => p.run p.start

/-- Both sides of a merge contribute their arrivals. -/
lemma arrivals_merge (left right : Propagation) :
    (merge left right).arrivals = left.arrivals ++ right.arrivals :=
  List.flatMap_append

/-- A crossing is the last one for all arrivals. -/
lemma arrivals_cross (c : Crossing) (body : Propagation) :
    (cross c body).arrivals = c.apply body.arrivals := by
  have hrun : ∀ p : Route,
      (p.extend c).run (p.extend c).start = (p.run p.start).map c.onRecord := by
    intro p
    rw [p.run_extend, c.apply_eq_map]
    rfl
  simp only [arrivals, routes, List.flatMap_map, hrun, c.apply_eq_map, List.map_flatMap]

/-- What holds of all arrivals holds at the end of all routes, for all records they start with. -/
lemma forall_arrivals (t : Propagation) (P : Record → Prop) :
    (∀ u ∈ t.arrivals, P u) ↔ ∀ p ∈ t.routes, ∀ r ∈ p.start, P (p.onRecord r) := by
  simp only [arrivals, List.forall_mem_flatMap, Route.run_eq_map, List.forall_mem_map]

/-- The arrivals have the obligations that the routes start with. -/
lemma mem_obligations_arrivals (t : Propagation) (k : Obligation) :
    k ∈ t.arrivals.obligations ↔ ∃ p ∈ t.routes, k ∈ p.start.obligations := by
  constructor
  · intro hk
    obtain ⟨u, hu, huk⟩ := RecordSet.mem_obligations.mp hk
    obtain ⟨p, hp, hup⟩ := List.mem_flatMap.mp hu
    rw [p.run_eq_map] at hup
    obtain ⟨r, hr, rfl⟩ := List.mem_map.mp hup
    rw [p.obligation_onRecord] at huk
    exact ⟨p, hp, RecordSet.mem_obligations.mpr ⟨r, hr, huk⟩⟩
  · rintro ⟨p, hp, hk⟩
    obtain ⟨r, hr, hrk⟩ := RecordSet.mem_obligations.mp hk
    have hrun : p.onRecord r ∈ p.run p.start := by
      rw [p.run_eq_map]
      exact List.mem_map_of_mem hr
    exact RecordSet.mem_obligations.mpr
      ⟨p.onRecord r, List.mem_flatMap.mpr ⟨p, hp, hrun⟩, (p.obligation_onRecord r).trans hrk⟩

/-- The result of a propagation sums up its arrivals. -/
lemma summary (t : Propagation) : Summary t.result t.arrivals := by
  induction t with
  | start rs h =>
    have harr : (start rs h).arrivals = rs := List.flatMap_singleton _ _
    rw [harr]
    exact .refl h
  | merge left right ihl ihr =>
    rw [arrivals_merge]
    exact ihl.merge ihr
  | cross c body ih =>
    rw [arrivals_cross]
    exact ih.cross c

/-- The result of a propagation has one record for every obligation that some route starts with.
Its guards are those that every route of the obligation brings, from the start or by a stamp, and it
is matched only if the record that such a route starts with is, once it has gone through the
crossings of that route alone. -/
theorem result_over_all_routes (t : Propagation) :
    t.result.Distinct ∧
      (∀ k, k ∈ t.result.obligations ↔ ∃ p ∈ t.routes, k ∈ p.start.obligations) ∧
      ∀ s ∈ t.result,
        (∀ g, g ∈ s.guards ↔ ∀ p ∈ t.routes, ∀ r ∈ p.start, r.obligation = s.obligation →
          g ∈ r.guards ∨ g ∈ p.stamped) ∧
        (s.matched = true → ∀ p ∈ t.routes, ∀ r ∈ p.start, r.obligation = s.obligation →
          ∃ u, p.run [r] = [u] ∧ u.matched = true) := by
  refine ⟨t.summary.distinct, fun k => ?_, fun s hs => ⟨fun g => ?_, fun hm p hp r hr hrs => ?_⟩⟩
  · rw [t.summary.obligations, t.mem_obligations_arrivals]
  · rw [t.summary.guards s hs,
      t.forall_arrivals fun u => u.obligation = s.obligation → g ∈ u.guards]
    simp only [Route.obligation_onRecord, Route.mem_guards_onRecord]
  · have hweakens := (t.forall_arrivals fun u => u.obligation = s.obligation → s.Weakens u).mp
      (t.summary.weakens s hs) p hp r hr ((p.obligation_onRecord r).trans hrs)
    exact ⟨p.onRecord r, p.run_eq_map [r], hweakens.matched hm⟩

/-- A guard is stamped and matched on one branch, and was held and matched before on the other. -/
theorem result_over_two_routes :
    let read : Propagation := .start [.deref 1 [1] false] (by decide)
    let checked : Propagation := .cross (.matchGuard ⟨5⟩) (.cross (.stamp [⟨5⟩, ⟨6⟩]) read)
    let other : Propagation := .start [.deref 2 [] false, .deref 1 [1, 5] true] (by decide)
    let t : Propagation := .merge checked other
    let joined : Record := .deref 1 [1, 5] true
    joined ∈ t.result ∧
      ∀ p ∈ t.routes, ∀ r ∈ p.start, r.obligation = joined.obligation →
        ∃ u, p.run [r] = [u] ∧ u.matched = true := by
  intro read checked other t joined
  have hs : joined ∈ t.result := by
    have hresult : t.result = [joined, .deref 2 [] false] := rfl
    rw [hresult]
    exact List.mem_cons_self
  exact ⟨hs, ((result_over_all_routes t).2.2 _ hs).2 rfl⟩

end Propagation

end NilFlow
