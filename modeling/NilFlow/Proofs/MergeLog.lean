import NilFlow.Proofs.Merge

/-!
# What a merge tells

A merge tells of every join that loses guards.  Which joins these are can be said without following
the merge: a record of the two sides loses guards, or makes others lose them, if earlier records
have its obligation and its guards are not the ones that all of these hold (`dropAfter`).  The
record told of is what the earlier ones had become, and the guards kept are those that the new one
holds as well.

The set built so far has, for each obligation, the join of the records taken in
(`lookup_foldl_absorb`), so that one more record tells exactly this (`absorbEvents_eq`).  Both the
log and the list of losses are then followed record by record, from the end (`dropEvents_concat`,
`losses_concat`).
-/

namespace NilFlow

/-- Two guard sets lose nothing in their intersection exactly if they are the same. -/
lemma GuardSet.inter_eq_both_iff {s t : GuardSet} : s.inter t = s ∧ s.inter t = t ↔ s = t := by
  constructor
  · rintro ⟨hs, ht⟩
    exact hs.symm.trans ht
  · rintro rfl
    have hself : s.inter s = s := by
      ext g
      rw [mem_inter, and_self_iff]
    exact ⟨hself, hself⟩

namespace Record

/-- The guards that a record and all records of a list hold. -/
def commonGuards (first : Record) (rest : List Record) : GuardSet :=
  rest.foldl (fun held r => held.inter r.guards) first.guards

/-- What a record and those of a list after it become where their paths join. -/
def joined (first : Record) (rest : List Record) : Record :=
  { first with
    guards := commonGuards first rest
    matched := (first :: rest).all (·.matched) }

/-- The common guards are held by every record. -/
lemma mem_commonGuards {first : Record} {rest : List Record} {g : Nonce} :
    g ∈ commonGuards first rest ↔ ∀ r ∈ first :: rest, g ∈ r.guards := by
  have hfold : ∀ held : GuardSet,
      g ∈ rest.foldl (fun held r => held.inter r.guards) held ↔
        g ∈ held ∧ ∀ r ∈ rest, g ∈ r.guards := by
    induction rest with
    | nil => simp
    | cons r rest ih =>
      intro held
      rw [List.foldl_cons, ih, GuardSet.mem_inter, and_assoc, List.forall_mem_cons]
  rw [commonGuards, hfold, List.forall_mem_cons]

/-- One more record leaves the common guards that it holds itself. -/
lemma commonGuards_concat (first : Record) (rest : List Record) (r : Record) :
    commonGuards first (rest ++ [r]) = (commonGuards first rest).inter r.guards := by
  rw [commonGuards, List.foldl_append]
  rfl

/-- Records with the same guards have just these in common. -/
lemma commonGuards_of_forall_eq {first : Record} {rest : List Record}
    (h : ∀ r ∈ rest, r.guards = first.guards) : commonGuards first rest = first.guards := by
  ext g
  rw [mem_commonGuards, List.forall_mem_cons]
  constructor
  · exact fun hg => hg.1
  · intro hg
    refine ⟨hg, fun r hr => ?_⟩
    rwa [h r hr]

/-- Records become this when they are joined from the first to the last. -/
lemma joinAll_eq_joined (first : Record) (rest : List Record) :
    joinAll (first :: rest) = some (joined first rest) := by
  cases hjoin : joinAll (first :: rest) with
  | none =>
    rw [joinAll, Option.merge_eq_none_iff] at hjoin
    exact absurd hjoin.1 (Option.some_ne_none first)
  | some s =>
    have hguards : s.guards = commonGuards first rest := by
      ext g
      rw [mem_guards_of_joinAll hjoin, mem_commonGuards]
    obtain ⟨htrigger, hexpr⟩ := handles_of_joinAll hjoin
    have hmatched := matched_of_joinAll hjoin
    obtain ⟨trigger, expr, guards, matched⟩ := s
    simp only at htrigger hexpr hguards hmatched
    rw [htrigger, hexpr, hguards, hmatched]
    rfl

end Record

namespace RecordSet

open Record (commonGuards joined)

/-- What a record tells when it comes after the records of a list: nothing if it is the first with
its obligation, or if its guards are those that all earlier records of the obligation hold. -/
def dropAfter (before : List Record) (r : Record) : Option Event :=
  match occurrences before r.obligation with
  | [] => none
  | first :: rest =>
    if r.guards = commonGuards first rest then none
    else some (.guardsDropped (joined first rest) (commonGuards first (rest ++ [r])))

/-- The losses of guards when the records of a list are joined, one for each record that comes with
other guards than the earlier ones of its obligation hold, in order. -/
def losses (rs : List Record) : List Event :=
  (List.range rs.length).filterMap fun i => rs[i]?.bind (dropAfter (rs.take i))

/-- All records of an obligation have the same guards. -/
def Uniform (rs : List Record) : Prop :=
  ∀ r ∈ rs, ∀ s ∈ rs, r.obligation = s.obligation → r.guards = s.guards

/-- Uniformity can be tested. -/
instance : DecidablePred Uniform := fun rs =>
  inferInstanceAs
    (Decidable (∀ r ∈ rs, ∀ s ∈ rs, r.obligation = s.obligation → r.guards = s.guards))

/-! ### One more record -/

/-- A record that is taken in tells what it tells after the records taken in before it. -/
lemma absorbEvents_eq (before : List Record) (r : Record) :
    absorbEvents (before.foldl absorb []) r = (dropAfter before r).toList := by
  have hfound : (before.foldl absorb []).find? (·.obligation = r.obligation) =
      Record.joinAll (occurrences before r.obligation) := by
    have hlookup := lookup_foldl_absorb [] before r.obligation
    rw [show lookup [] r.obligation = none from rfl, Option.merge_none_left] at hlookup
    exact hlookup
  rw [absorbEvents, hfound, dropAfter]
  cases occurrences before r.obligation with
  | nil => rfl
  | cons first rest =>
    rw [Record.joinAll_eq_joined]
    simp only [GuardSet.inter_eq_both_iff, Record.commonGuards_concat]
    by_cases hguards : r.guards = commonGuards first rest
    · rw [if_pos hguards, if_pos (show (joined first rest).guards = r.guards from hguards.symm)]
      rfl
    · rw [if_neg hguards, if_neg fun h : (joined first rest).guards = r.guards => hguards h.symm]
      rfl

/-- The log of a list of records goes on with what one more record tells. -/
lemma dropEvents_concat (acc : RecordSet) (rs : List Record) (r : Record) :
    dropEvents acc (rs ++ [r]) = dropEvents acc rs ++ absorbEvents (rs.foldl absorb acc) r := by
  induction rs generalizing acc with
  | nil => simp [dropEvents]
  | cons s rs ih =>
    rw [List.cons_append, dropEvents, ih, dropEvents, List.foldl_cons, List.append_assoc]

/-- The losses of a list of records go on with that of one more record. -/
lemma losses_concat (rs : List Record) (r : Record) :
    losses (rs ++ [r]) = losses rs ++ (dropAfter rs r).toList := by
  rw [losses, List.length_append, List.length_singleton, List.range_succ, List.filterMap_append]
  congr 1
  · -- Positions within the list see nothing of the new record.
    refine List.filterMap_congr fun i hi => ?_
    have hlt : i < rs.length := List.mem_range.mp hi
    rw [List.getElem?_append_left hlt, List.take_append_of_le_length hlt.le]
  · have hlast : (rs ++ [r])[rs.length]?.bind (dropAfter ((rs ++ [r]).take rs.length)) =
        dropAfter rs r := by
      rw [List.getElem?_concat_length, List.take_left, Option.bind_some]
    rw [List.filterMap_cons, hlast]
    cases dropAfter rs r <;> rfl

/-! ### A whole list -/

/-- What is told while records are taken in are the losses. -/
lemma dropEvents_eq_losses (rs : List Record) : dropEvents [] rs = losses rs := by
  induction rs using List.reverseRecOn with
  | nil => rfl
  | append_singleton rs r ih => rw [dropEvents_concat, losses_concat, ih, absorbEvents_eq]

/-- A loss is told as guards that are dropped. -/
lemma exists_of_mem_losses {rs : List Record} {e : Event} (h : e ∈ losses rs) :
    ∃ r kept, e = .guardsDropped r kept := by
  obtain ⟨i, -, hi⟩ := List.mem_filterMap.mp h
  obtain ⟨r, -, hr⟩ := Option.bind_eq_some_iff.mp hi
  rw [dropAfter] at hr
  split at hr
  · cases hr
  · split at hr
    · cases hr
    · cases hr
      exact ⟨_, _, rfl⟩

/-! ### Nothing lost -/

/-- The guards of an obligation stay the same with one more record if its guards are the same. -/
lemma uniform_concat_iff {rs : List Record} {r : Record} :
    Uniform (rs ++ [r]) ↔
      Uniform rs ∧ ∀ s ∈ rs, s.obligation = r.obligation → s.guards = r.guards := by
  constructor
  · intro h
    refine ⟨fun s hs t ht => h s (List.mem_append_left _ hs) t (List.mem_append_left _ ht), ?_⟩
    exact fun s hs => h s (List.mem_append_left _ hs) r List.mem_concat_self
  · rintro ⟨hrs, hr⟩ s hs t ht hst
    rcases List.mem_append.mp hs with hs' | hs' <;> rcases List.mem_append.mp ht with ht' | ht'
    · exact hrs s hs' t ht' hst
    · obtain rfl := List.mem_singleton.mp ht'
      exact hr s hs' hst
    · obtain rfl := List.mem_singleton.mp hs'
      exact (hr t ht' hst.symm).symm
    · rw [List.mem_singleton.mp hs', List.mem_singleton.mp ht']

/-- After records that agree, a record tells nothing exactly if it agrees with them. -/
lemma Uniform.dropAfter_eq_none_iff {before : List Record} (h : Uniform before) (r : Record) :
    dropAfter before r = none ↔
      ∀ s ∈ before, s.obligation = r.obligation → s.guards = r.guards := by
  have hmem : ∀ s, s ∈ occurrences before r.obligation ↔ s ∈ before ∧ s.obligation = r.obligation :=
    fun s => mem_occurrences
  rw [dropAfter]
  cases hocc : occurrences before r.obligation with
  | nil =>
    rw [hocc] at hmem
    refine iff_of_true rfl fun s hs hsr => ?_
    exact absurd ((hmem s).mpr ⟨hs, hsr⟩) List.not_mem_nil
  | cons first rest =>
    rw [hocc] at hmem
    obtain ⟨hfirst, hfirstr⟩ := (hmem first).mp List.mem_cons_self
    -- The earlier records agree, so what they have in common are the guards of the first one.
    have hcommon : commonGuards first rest = first.guards := by
      refine Record.commonGuards_of_forall_eq fun s hs => ?_
      obtain ⟨hs, hsr⟩ := (hmem s).mp (List.mem_cons_of_mem first hs)
      exact h s hs first hfirst (hsr.trans hfirstr.symm)
    simp only [hcommon, ite_eq_left_iff, reduceCtorEq, imp_false, not_not]
    constructor
    · intro hr s hs hsr
      rw [hr]
      exact h s hs first hfirst (hsr.trans hfirstr.symm)
    · intro hr
      exact (hr first hfirst hfirstr).symm

/-- Nothing is lost exactly if all records of an obligation have the same guards. -/
lemma losses_eq_nil_iff (rs : List Record) : losses rs = [] ↔ Uniform rs := by
  induction rs using List.reverseRecOn with
  | nil => exact iff_of_true rfl fun r hr => absurd hr List.not_mem_nil
  | append_singleton rs r ih =>
    rw [losses_concat, List.append_eq_nil_iff, Option.toList_eq_nil_iff, ih, uniform_concat_iff]
    exact and_congr_right fun h => h.dropAfter_eq_none_iff r

/-- Where all records of an obligation have the same guards, the merge has these guards. -/
lemma Uniform.guards_of_mem_merge {left right : RecordSet} (h : Uniform (left ++ right))
    {s r : Record} (hs : s ∈ merge left right) (hr : r ∈ left ++ right)
    (hrs : r.obligation = s.obligation) : s.guards = r.guards := by
  ext g
  rw [mem_guards_of_mem_merge hs]
  constructor
  · exact fun hg => hg r hr hrs
  · intro hg t ht hts
    rwa [h t ht r hr (hts.trans hrs.symm)]

/-! ### The log of a merge -/

/-- A merge tells of each record that comes after others of its obligation with guards that are not
those which all of them hold, in the order of the records, and what is kept are the guards that the
record shares with them; at the end, and only there, it tells the sizes of both sides and of the
result.  So it tells of no loss exactly if all records of an obligation have the same guards, and
then these are the guards that the result has for it. -/
theorem merge_tells_losses (left right : RecordSet) :
    mergeEvents left right =
        losses (left ++ right) ++ [.merged left.length right.length (merge left right).length] ∧
      ((∀ e ∈ mergeEvents left right, e.message ≠ "guards not held on both paths dropped at join") ↔
        Uniform (left ++ right)) ∧
      (Uniform (left ++ right) → ∀ s ∈ merge left right, ∀ r ∈ left ++ right,
        r.obligation = s.obligation → s.guards = r.guards) := by
  have hlog : mergeEvents left right =
      losses (left ++ right) ++ [.merged left.length right.length (merge left right).length] := by
    rw [mergeEvents, dropEvents_eq_losses]
  refine ⟨hlog, ?_, fun h s hs r hr hrs => h.guards_of_mem_merge hs hr hrs⟩
  rw [hlog, ← losses_eq_nil_iff]
  constructor
  · intro hquiet
    refine List.eq_nil_iff_forall_not_mem.mpr fun e he => ?_
    obtain ⟨r, kept, rfl⟩ := exists_of_mem_losses he
    exact hquiet _ (List.mem_append_left _ he) rfl
  · intro hnil e he
    rw [hnil, List.nil_append, List.mem_singleton] at he
    subst he
    exact (by decide : "merged record sets" ≠ "guards not held on both paths dropped at join")

/-- The second record drops a guard of the first one.  The third one has the guards of the first one
again, which is told although nothing more is lost, and the fourth one has what is left. -/
theorem merge_tells_losses_of_four :
    let left : RecordSet := [.deref 1 [1, 2] true, .deref 1 [2] true]
    let right : RecordSet := [.deref 1 [1, 2] true, .deref 2 [1] true, .deref 1 [2] false]
    let kept : GuardSet := .ofList [⟨2⟩]
    mergeEvents left right =
        [.guardsDropped (.deref 1 [1, 2] true) kept, .guardsDropped (.deref 1 [2] true) kept,
          .merged 2 3 2] ∧
      ¬ Uniform (left ++ right) ∧
      Uniform (left.drop 1 ++ right.drop 1) ∧
      (∀ s ∈ merge (left.drop 1) (right.drop 1),
        s.obligation = (Record.deref 1 [2] true).obligation → s.guards = kept) := by
  intro left right kept
  have huniform : Uniform (left.drop 1 ++ right.drop 1) := by decide +kernel
  refine ⟨(merge_tells_losses left right).1, by decide +kernel, huniform, ?_⟩
  intro s hs hobligation
  exact (merge_tells_losses _ _).2.2 huniform s hs (.deref 1 [2] true) List.mem_cons_self
    hobligation.symm

end RecordSet

end NilFlow
