import NilFlow.Proofs.Merge

/-!
# Verdicts and merges

Whether a record fires under a snapshot is decided by its obligation: the trigger depends on a site,
and a snapshot finds the annotation of a site by the site's identity.  So two records of one
obligation have the same verdict, whatever handles carry them (`Record.fires_eq_of_obligation_eq`).

A merge may therefore be taken before or after the records that do not fire are left out.  This
holds of every selection of records by their obligation: one more record is taken in alike
(`filter_absorb`), and so is a list of records (`filter_foldl_absorb`).
-/

namespace NilFlow

/-! ### Verdicts by identity -/

/-- Behaviors that depend in the same way on sites of the same identity fire together. -/
lemma Behavior.fires_eq_of_map_id_eq (m : Snapshot) {b c : Behavior Site}
    (h : b.map Site.id = c.map Site.id) : b.fires m = c.fires m := by
  cases b <;> cases c <;> simp only [map, reduceCtorEq, ifNonNil.injEq, ifDeepNonNil.injEq] at h
  case always.always => rfl
  case ifNonNil.ifNonNil => rw [fires, fires, m.lookup_eq_of_id_eq h]
  case ifDeepNonNil.ifDeepNonNil => rw [fires, fires, m.lookup_eq_of_id_eq h]

/-- Records of one obligation fire together. -/
lemma Record.fires_eq_of_obligation_eq (m : Snapshot) {r s : Record}
    (h : r.obligation = s.obligation) : r.fires m = s.fires m :=
  Behavior.fires_eq_of_map_id_eq m (congrArg (fun k : Obligation => k.trigger.behavior) h)

namespace RecordSet

/-! ### Selecting records by their obligation -/

section Selection

variable {p : Record → Bool} (hp : ∀ r s : Record, r.obligation = s.obligation → p r = p s)

include hp

/-- A record that is selected is taken in after the selection; any other one makes no difference. -/
lemma filter_absorb (rs : RecordSet) (r : Record) :
    (rs.absorb r).filter p = if p r then absorb (rs.filter p) r else rs.filter p := by
  induction rs with
  | nil => by_cases hr : p r = true <;> simp [absorb, hr]
  | cons s rs ih =>
    by_cases hsr : s.obligation = r.obligation
    -- The two records and their join are selected together, or none of them is.
    · have hs : p s = p r := hp s r hsr
      have hjoin : p (s.join r) = p r := (hp (s.join r) s (s.obligation_join r)).trans hs
      by_cases hr : p r = true <;> simp [absorb, hsr, hs, hjoin, hr]
    · by_cases hs : p s = true <;> by_cases hr : p r = true <;> simp [absorb, hsr, hs, hr, ih]

/-- Taking in a list of records commutes with the selection. -/
lemma filter_foldl_absorb (acc rs : RecordSet) :
    (rs.foldl absorb acc).filter p = (rs.filter p).foldl absorb (acc.filter p) := by
  induction rs generalizing acc with
  | nil => rfl
  | cons r rs ih =>
    rw [List.foldl_cons, ih, filter_absorb hp]
    by_cases hr : p r = true
    · rw [if_pos hr, List.filter_cons_of_pos hr, List.foldl_cons]
    · rw [if_neg hr, List.filter_cons_of_neg hr]

/-- Merging commutes with the selection. -/
lemma filter_merge (left right : RecordSet) :
    (merge left right).filter p = merge (left.filter p) (right.filter p) := by
  rw [merge, filter_foldl_absorb hp, List.filter_append]
  rfl

end Selection

/-- Merging commutes with evaluation: the records of a merge that fire are the merge of the records
that fire on its sides, as a list.  The merge has the obligations of its sides, and the verdict on
each of them is that of every record with it. -/
theorem merge_keeps_verdicts (m : Snapshot) (left right : RecordSet) :
    (merge left right).filter (·.fires m) =
        merge (left.filter (·.fires m)) (right.filter (·.fires m)) ∧
      (∀ k, k ∈ (merge left right).obligations ↔ k ∈ left.obligations ∨ k ∈ right.obligations) ∧
      ∀ s ∈ merge left right, ∀ r ∈ left ++ right, r.obligation = s.obligation →
        s.fires m = r.fires m := by
  refine ⟨?_, fun k => mem_obligations_merge, ?_⟩
  · exact filter_merge (fun r s hrs => Record.fires_eq_of_obligation_eq m hrs) left right
  · intro s _ r _ hrs
    exact Record.fires_eq_of_obligation_eq m hrs.symm

/-- One parameter through two handles of its function, which differ in package, receiver and
variadicity.  Both records fire, and so does their join; a field without annotation does not. -/
theorem merge_keeps_verdicts_of_two_handles :
    let f : FuncDecl := ⟨⟨7⟩, "Find", "store", none, [⟨"key", "*Key"⟩], [], false⟩
    let f' : FuncDecl := ⟨⟨7⟩, "Find", "", some "Store", [⟨"key", "*Key"⟩], [], true⟩
    let r : Record := { Record.deref 1 [1, 2] true with trigger := .argPass ⟨f, 0, by decide⟩ }
    let r' : Record := { Record.deref 1 [2, 3] true with trigger := .argPass ⟨f', 0, by decide⟩ }
    let other : Record := { Record.deref 2 [] false with trigger := .fldAssign ⟨⟨4⟩, "conn", "Db"⟩ }
    let m : Snapshot := .ofList [(.param ⟨f', 0, by decide⟩, .nonNil)]
    r'.obligation = (r.join r').obligation ∧ r'.fires m = true ∧ other.fires m = false ∧
      (merge [r, other] [r']).filter (·.fires m) =
        merge ([r, other].filter (·.fires m)) ([r'].filter (·.fires m)) ∧
      (r.join r').fires m = r'.fires m := by
  intro f f' r r' other m
  have hobl : r'.obligation = (r.join r').obligation := rfl
  have hfires : r'.fires m = true := by decide
  have hother : other.fires m = false := by decide
  have hjoin : r.join r' ∈ merge [r, other] [r'] := by
    have hmerge : merge [r, other] [r'] = [r.join r', other] := rfl
    rw [hmerge]
    exact List.mem_cons_self
  obtain ⟨hfilter, -, hverdict⟩ := merge_keeps_verdicts m [r, other] [r']
  exact ⟨hobl, hfires, hother, hfilter, hverdict _ hjoin r' (by simp) hobl⟩

end RecordSet

end NilFlow
