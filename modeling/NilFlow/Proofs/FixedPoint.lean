import NilFlow.Proofs.Comparison
import NilFlow.Proofs.DataflowOrder

/-!
# Detecting a fixed point

A propagation that merges more and more records into a set has come to an end when a merge changes
nothing.  This is asked through the comparison of record sets, whereas the order of
`NilFlow.Proofs.DataflowOrder` says what it means: the new records are already below the set.  The
two agree.  The order is antisymmetric up to identity (`Weakens.id_eq`), so that on sets without
repeated obligations two sets compare as equal exactly if each is below the other
(`equal_eq_ok_true_iff_below`); and a merge is always above its sides.
-/

namespace NilFlow

namespace Record

/-- Records of the same identity weaken each other. -/
lemma weakens_of_id_eq {s r : Record} (h : s.id = r.id) : s.Weakens r where
  obligation := congrArg RecordId.obligation h
  guards g hg := by
    have hguards : s.guards = r.guards := congrArg RecordId.guards h
    rw [← hguards]
    exact hg
  matched hm := by
    have hmatched : s.matched = r.matched := congrArg RecordId.matched h
    rw [← hmatched]
    exact hm

/-- Records that weaken each other have the same identity. -/
lemma Weakens.id_eq {s r : Record} (h : s.Weakens r) (h' : r.Weakens s) : s.id = r.id := by
  have hguards : s.guards = r.guards := by
    ext g
    exact ⟨h.guards g, h'.guards g⟩
  have hmatched : s.matched = r.matched := by
    rw [Bool.eq_iff_iff]
    exact ⟨h.matched, h'.matched⟩
  rw [Record.id, Record.id, h.obligation, hguards, hmatched]

end Record

namespace RecordSet

/-- A set is below every set that has all its identities. -/
lemma below_of_ids {a b : RecordSet} (h : ∀ i ∈ a.ids, i ∈ b.ids) : a.Below b := by
  intro r hr
  obtain ⟨s, hs, hsr⟩ := mem_ids.mp (h r.id (mem_ids.mpr ⟨r, hr, rfl⟩))
  exact ⟨s, hs, Record.weakens_of_id_eq hsr⟩

/-- A set without repeated obligations has its identities in every set that is above and below
it. -/
lemma Distinct.mem_ids_of_below {a b : RecordSet} (ha : a.Distinct) (hab : a.Below b)
    (hba : b.Below a) {i : RecordId} (hi : i ∈ a.ids) : i ∈ b.ids := by
  obtain ⟨r, hr, rfl⟩ := mem_ids.mp hi
  obtain ⟨s, hs, hsr⟩ := hab r hr
  obtain ⟨t, ht, hts⟩ := hba s hs
  -- Going up and down again ends at the same record, the only one of its obligation.
  have htr : t = r := ha.eq_of_obligation_eq ht hr (hts.obligation.trans hsr.obligation)
  exact mem_ids.mpr ⟨s, hs, hsr.id_eq (htr ▸ hts)⟩

/-- Sets without repeated obligations compare as equal exactly if each is below the other. -/
lemma equal_eq_ok_true_iff_below {a b : RecordSet} (ha : a.Distinct) (hb : b.Distinct) :
    equal a b = .ok true ↔ a.Below b ∧ b.Below a := by
  constructor
  · intro hequal
    have hperm : b.ids.Perm a.ids :=
      ((equal_eq_ok_iff_perm ha.nodup_ids hb.nodup_ids true).mp hequal).mp rfl
    exact ⟨below_of_ids fun i hi => hperm.symm.subset hi, below_of_ids fun i hi => hperm.subset hi⟩
  · rintro ⟨hab, hba⟩
    exact equal_eq_ok_true ha hb fun i =>
      ⟨ha.mem_ids_of_below hab hba, hb.mem_ids_of_below hba hab⟩

/-- A merge is below a set without repeated obligations exactly if what is merged into that set
is. -/
lemma merge_below_iff {x : RecordSet} (hx : x.Distinct) (y : RecordSet) :
    (merge x y).Below x ↔ y.Below x := by
  constructor
  · exact (below_merge_right x y).trans
  · exact merge_below hx (.refl x)

/-- A fixed point is detected exactly: a set without repeated obligations can be compared with its
merge with any records, and the two are equal exactly if the records are already below the set. -/
theorem fixed_point_detected_exactly (x y : RecordSet) (hx : x.Distinct) :
    (∃ answer, equal (merge x y) x = .ok answer) ∧
      (equal (merge x y) x = .ok true ↔ y.Below x) := by
  have hmerge : (merge x y).Distinct := distinct_merge x y
  refine ⟨⟨_, equal_eq_ok hmerge.nodup_ids hx.nodup_ids⟩, ?_⟩
  rw [equal_eq_ok_true_iff_below hmerge hx, merge_below_iff hx,
    and_iff_left (below_merge_left x y)]

/-- Two more records of one obligation change nothing: each holds the guards of the set's record and
is matched.  A third one, which lacks a guard, changes the set. -/
theorem fixed_point_detected_of_stronger_records :
    let x : RecordSet := [.deref 1 [1, 2] true, .deref 2 [] false]
    let y : RecordSet := [.deref 1 [1, 2, 3] true, .deref 1 [1, 2] true, .deref 2 [5] true]
    let y' : RecordSet := .deref 1 [2, 3] true :: y
    x.Distinct ∧ equal (merge x y) x = .ok true ∧
      (∃ answer, equal (merge x y') x = .ok answer) ∧ equal (merge x y') x ≠ .ok true := by
  intro x y y'
  have hx : x.Distinct := by decide
  have hy : y.Below x := by decide
  have hy' : ¬ y'.Below x := by decide
  obtain ⟨-, hfixed⟩ := fixed_point_detected_exactly x y hx
  obtain ⟨hanswer, hfixed'⟩ := fixed_point_detected_exactly x y' hx
  exact ⟨hx, hfixed.mpr hy, hanswer, mt hfixed'.mp hy'⟩

end RecordSet

end NilFlow
