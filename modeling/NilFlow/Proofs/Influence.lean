import NilFlow.Proofs.SiteGroups

/-!
# Which records an annotation can affect

Two snapshots agree off a site if they differ at most in its annotation (`Snapshot.AgreeOff`).  A
record that does not depend on the site has the same verdict under both
(`Record.fires_eq_of_agreeOff`), and one that does depend on it has different verdicts under some
such pair (`Record.exists_fires_ne`): it does not fire without any annotation, and it fires once the
site is annotated as non-nil.  Sites count by identity throughout, so it does not matter through
which handles they are reached.

So the dependents that a site index has for a site are the records that its annotation can affect,
neither more nor less.

A snapshot tightens another one if it has every site as non-nil that the other one has, shallowly
and deeply each by itself (`Snapshot.Tightens`).  To be annotated as nilable and not to be annotated
at all count alike for this, as they do for a verdict, so what fires goes on firing
(`Behavior.fires_of_tightens`).
-/

namespace NilFlow

namespace Snapshot

/-- Two snapshots agree on every site other than `k`. -/
def AgreeOff (k : Site) (m m' : Snapshot) : Prop :=
  ∀ s : Site, s.id ≠ k.id → m.lookup s = m'.lookup s

/-- Setting one annotation leaves all others alone. -/
lemma agreeOff_insert (m : Snapshot) (k : Site) (a : Annotation) : AgreeOff k m (m.insert k a) := by
  intro s hs
  rw [lookup_insert, if_neg hs]

end Snapshot

namespace Behavior

/-- A behavior depends on the annotation of its site only. -/
lemma fires_congr {b : Behavior Site} {m m' : Snapshot}
    (h : ∀ s, b.site? = some s → m.lookup s = m'.lookup s) : b.fires m = b.fires m' := by
  cases b with
  | always => rfl
  | ifNonNil s => rw [fires, fires, h s rfl]
  | ifDeepNonNil s => rw [fires, fires, h s rfl]

/-- A behavior with a site tests the annotation of the site, and non-nil passes the test. -/
lemma exists_test {b : Behavior Site} {s : Site} (hs : b.site? = some s) :
    ∃ test : Annotation → Bool, test .nonNil = true ∧ ∀ m, b.fires m = (m.lookup s).any test := by
  cases b with
  | always => cases hs
  | ifNonNil t =>
    cases hs
    exact ⟨fun a => !a.isNilable, rfl, fun m => rfl⟩
  | ifDeepNonNil t =>
    cases hs
    exact ⟨fun a => !a.isDeepNilable, rfl, fun m => rfl⟩

end Behavior

namespace Record

/-- A record that does not depend on a site is not affected by its annotation. -/
lemma fires_eq_of_agreeOff {r : Record} {k : Site} {m m' : Snapshot} (hr : r.siteId? ≠ some k.id)
    (h : m.AgreeOff k m') : r.fires m = r.fires m' := by
  refine Behavior.fires_congr fun s hs => h s fun hk => hr ?_
  rw [siteId?, Trigger.site?, hs, Option.map_some, hk]

/-- A record that depends on a site is affected by its annotation. -/
lemma exists_fires_ne {r : Record} {k : Site} (hr : r.siteId? = some k.id) :
    ∃ m m' : Snapshot, m.AgreeOff k m' ∧ r.fires m ≠ r.fires m' := by
  obtain ⟨s, hs, hk⟩ := Option.map_eq_some_iff.mp hr
  obtain ⟨test, hnonNil, hfires⟩ := Behavior.exists_test hs
  have hbefore : r.fires .empty = false := by
    rw [fires, Trigger.fires, hfires, Snapshot.lookup_empty, Option.any_none]
  have hafter : r.fires (Snapshot.empty.insert k .nonNil) = true := by
    rw [fires, Trigger.fires, hfires, Snapshot.lookup_insert, if_pos hk, Option.any_some, hnonNil]
  refine ⟨.empty, Snapshot.empty.insert k .nonNil, Snapshot.agreeOff_insert _ _ _, ?_⟩
  rw [hbefore, hafter]
  exact Bool.false_ne_true

end Record

namespace SiteIndex

/-- The dependents of a site are the records that its annotation can affect.  A record of the list
is among them exactly if its verdict differs under two snapshots that agree on all other sites; and
setting the annotation of the site changes nothing about which of the other records fire, nor in
which order. -/
theorem dependents_exactly_affected (rs : RecordSet) (k : Site) :
    (∀ r, r ∈ (build rs).dependents k ↔
      r ∈ rs ∧ ∃ m m' : Snapshot, m.AgreeOff k m' ∧ r.fires m ≠ r.fires m') ∧
    ∀ (m : Snapshot) (a : Annotation),
      ((build rs).firing m).filter (·.siteId? ≠ some k.id) =
        ((build rs).firing (m.insert k a)).filter (·.siteId? ≠ some k.id) := by
  constructor
  · intro r
    rw [dependents_build, RecordSet.onSite, List.mem_filter, decide_eq_true_iff]
    refine and_congr_right fun _ => ⟨Record.exists_fires_ne, ?_⟩
    rintro ⟨m, m', hagree, hne⟩
    by_contra hr
    exact hne (Record.fires_eq_of_agreeOff hr hagree)
  · intro m a
    rw [firing_build, firing_build, List.filter_filter, List.filter_filter]
    refine List.filter_congr fun r _ => ?_
    by_cases hr : r.siteId? = some k.id
    · simp [hr]
    · rw [Record.fires_eq_of_agreeOff hr (m.agreeOff_insert k a)]

end SiteIndex

/-! ### Annotations that say more -/

/-- `m'` has every site as non-nil that `m` has, shallowly and deeply each by itself. -/
structure Snapshot.Tightens (m' m : Snapshot) : Prop where
  shallow : ∀ s a, m.lookup s = some a → a.isNilable = false →
    ∃ a', m'.lookup s = some a' ∧ a'.isNilable = false
  deep : ∀ s a, m.lookup s = some a → a.isDeepNilable = false →
    ∃ a', m'.lookup s = some a' ∧ a'.isDeepNilable = false

/-- A site passes the test of a flag if it is annotated and the flag is not set. -/
lemma Snapshot.any_lookup_iff {m : Snapshot} {s : Site} {flag : Annotation → Bool} :
    ((m.lookup s).any fun a => !flag a) = true ↔ ∃ a, m.lookup s = some a ∧ flag a = false := by
  simp only [Option.any_eq_true, Bool.not_eq_true']

/-- What fires goes on firing as annotations say more: each behavior looks at one of the two flags,
and that one stays as it is. -/
lemma Behavior.fires_of_tightens {b : Behavior Site} {m m' : Snapshot} (h : m'.Tightens m)
    (hb : b.fires m = true) : b.fires m' = true := by
  cases b with
  | always => rfl
  | ifNonNil s =>
    unfold fires at hb ⊢
    rw [Snapshot.any_lookup_iff] at hb ⊢
    obtain ⟨a, ha, hnonNil⟩ := hb
    exact h.shallow s a ha hnonNil
  | ifDeepNonNil s =>
    unfold fires at hb ⊢
    rw [Snapshot.any_lookup_iff] at hb ⊢
    obtain ⟨a, ha, hnonNil⟩ := hb
    exact h.deep s a ha hnonNil

namespace SiteIndex

/-- Firing is monotone in the annotations.  If a snapshot has every site as non-nil that another one
has, shallowly and deeply, then what fires under the other one is a sublist of what fires under it:
the same records in the same order, less those that do not fire under the other one. -/
theorem firing_monotone (rs : RecordSet) (m m' : Snapshot) (h : m'.Tightens m) :
    ((build rs).firing m).Sublist ((build rs).firing m') ∧
      (build rs).firing m = ((build rs).firing m').filter (·.fires m) := by
  have hmono : ∀ r : Record, r.fires m = true → r.fires m' = true := by
    intro r hr
    exact Behavior.fires_of_tightens h hr
  rw [firing_build, firing_build]
  constructor
  · exact List.monotone_filter_right _ hmono
  · rw [List.filter_filter]
    refine List.filter_congr fun r _ => ?_
    cases hr : r.fires m with
    | false => rfl
    | true => rw [hmono r hr, Bool.and_true]

/-- A variadic parameter that is first known to be non-nil shallowly and then deeply too.  The
record that needs the deep annotation comes to fire between the two that need the shallow one; it
does not matter that the annotation of a type as nilable is withdrawn. -/
theorem firing_monotone_of_variadic :
    let f : FuncDecl :=
      { FuncDecl.plain ⟨3⟩ "Dial" with params := [⟨"opts", "*Opt"⟩], variadic := true }
    let opts : ParamSite := ⟨f, 0, by decide⟩
    let opt : TypeDecl := ⟨⟨5⟩, "Opt"⟩
    let e : Expr := ⟨⟨1⟩, .ident, .point "dial.go" 7 2⟩
    let passed : Record := .unguarded (.argPass opts) e
    let stored : Record := .unguarded (.paramAssignDeep opts) e
    let spread : Record := .unguarded (.variadicParamAssignDeep ⟨opts, rfl⟩) e
    let kept : Record := .unguarded (.sliceAssign opt) e
    let rs : RecordSet := [kept, passed, stored, spread]
    let m : Snapshot := .ofList [(.param opts, ⟨false, true⟩), (.typeName opt, .nilable)]
    let m' : Snapshot := .ofList [(.param opts, .nonNil)]
    m'.Tightens m ∧ (build rs).firing m = [passed, spread] ∧
      (build rs).firing m' = [passed, stored, spread] ∧
      ((build rs).firing m).Sublist ((build rs).firing m') := by
  intro f opts opt e passed stored spread kept rs m m'
  have hm : ∀ s, m.lookup s = if s.id = (Site.typeName opt).id then some .nilable
      else if s.id = (Site.param opts).id then some ⟨false, true⟩ else none := by
    intro s
    simp only [m, Snapshot.ofList, List.foldl_cons, List.foldl_nil, Snapshot.lookup_insert,
      Snapshot.lookup_empty]
  have hm' : ∀ s, m'.lookup s = if s.id = (Site.param opts).id then some .nonNil else none := by
    intro s
    simp only [m', Snapshot.ofList, List.foldl_cons, List.foldl_nil, Snapshot.lookup_insert,
      Snapshot.lookup_empty]
  -- Of the two sites of `m` only the parameter is non-nil, and only shallowly.
  have htightens : m'.Tightens m := by
    constructor
    · intro s a ha hnonNil
      rw [hm] at ha
      split_ifs at ha with htype hparam
      · cases ha
        cases hnonNil
      · exact ⟨.nonNil, by rw [hm', if_pos hparam], rfl⟩
    · intro s a ha hnonNil
      rw [hm] at ha
      split_ifs at ha with htype hparam
      · cases ha
        cases hnonNil
      · cases ha
        cases hnonNil
  exact ⟨htightens, rfl, rfl, (firing_monotone rs m m' htightens).1⟩

end SiteIndex

end NilFlow
