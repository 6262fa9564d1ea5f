import NilFlow.Proofs.FirstOccurrence
import NilFlow.Proofs.Guards
import NilFlow.RecordSet.Join

/-!
# What a merge computes

A record set is read through two views: its `obligations`, in order, and the record that it has for
an obligation (`lookup`).  Taking one more record into a set changes the first view by at most one
last entry (`obligations_absorb`) and the second view at one obligation only (`lookup_absorb`).
Along a whole list of records this says that the obligations are kept in order of first occurrence
(`obligations_foldl_absorb`) and that each of them gets the join of all its records, left to right
(`lookup_foldl_absorb`).

`joinAll` is that join.  It takes concatenation to the join of the two parts (`joinAll_append`),
since joining two records is associative.
-/

namespace NilFlow

namespace Record

/-- Joining is associative: either way the handles are those of the first record. -/
lemma join_assoc (r s t : Record) : (r.join s).join t = r.join (s.join t) := by
  simp only [join, GuardSet.inter_assoc, Bool.and_assoc]

/-- Joining is associative, for folds over it. -/
instance : Std.Associative Record.join := ⟨join_assoc⟩

/-- The join of records, from the first to the last; there is none of no records. -/
def joinAll : List Record → Option Record
  | [] => none
  | r :: rs => (some r).merge Record.join (joinAll rs)

/-- The records of two lists are joined by joining what is left of each list. -/
lemma joinAll_append (rs ss : List Record) :
    joinAll (rs ++ ss) = (joinAll rs).merge Record.join (joinAll ss) := by
  induction rs with
  | nil => simp [joinAll]
  | cons r rs ih =>
    rw [List.cons_append, joinAll, ih, joinAll]
    exact ((Option.associative_merge Record.join).assoc _ _ _).symm

/-- A join of several records is the first record alone, or its join to the join of the others. -/
lemma joinAll_cons_cases {r s : Record} {rs : List Record} (h : joinAll (r :: rs) = some s) :
    (rs = [] ∧ s = r) ∨ ∃ u, joinAll rs = some u ∧ s = r.join u := by
  cases rs with
  | nil => exact .inl ⟨rfl, (Option.some_inj.mp h).symm⟩
  | cons r' rs =>
    rw [joinAll] at h
    cases hrest : joinAll (r' :: rs) with
    | none =>
      rw [joinAll, Option.merge_eq_none_iff] at hrest
      exact absurd hrest.1 (Option.some_ne_none r')
    | some u =>
      rw [hrest, Option.merge_some_some, Option.some_inj] at h
      exact .inr ⟨u, rfl, h.symm⟩

/-- A join keeps the handles of the first record. -/
lemma handles_of_joinAll {r s : Record} {rs : List Record} (h : joinAll (r :: rs) = some s) :
    s.trigger = r.trigger ∧ s.expr = r.expr := by
  obtain ⟨-, rfl⟩ | ⟨u, -, rfl⟩ := joinAll_cons_cases h
  · exact ⟨rfl, rfl⟩
  · exact ⟨rfl, rfl⟩

/-- A join holds the guards that all its records hold. -/
lemma mem_guards_of_joinAll {s : Record} {rs : List Record} (h : joinAll rs = some s) (g : Nonce) :
    g ∈ s.guards ↔ ∀ r ∈ rs, g ∈ r.guards := by
  induction rs generalizing s with
  | nil => simp [joinAll] at h
  | cons r rs ih =>
    obtain ⟨rfl, rfl⟩ | ⟨u, hu, rfl⟩ := joinAll_cons_cases h
    · rw [List.forall_mem_singleton]
    · rw [List.forall_mem_cons, ← ih hu]
      exact GuardSet.mem_inter

/-- A join is matched if all its records are. -/
lemma matched_of_joinAll {s : Record} {rs : List Record} (h : joinAll rs = some s) :
    s.matched = rs.all (·.matched) := by
  induction rs generalizing s with
  | nil => simp [joinAll] at h
  | cons r rs ih =>
    obtain ⟨rfl, rfl⟩ | ⟨u, hu, rfl⟩ := joinAll_cons_cases h
    · simp
    · rw [List.all_cons, ← ih hu]
      rfl

/-- What is left of a record `first` and of the records `rest` after it once they are joined. -/
structure IsJoin (first : Record) (rest : List Record) (s : Record) : Prop where
  trigger : s.trigger = first.trigger
  expr : s.expr = first.expr
  /-- The guards are the intersection of all guard sets. -/
  guards : ∀ g, g ∈ s.guards ↔ ∀ r ∈ first :: rest, g ∈ r.guards
  /-- The flag is the conjunction of all flags. -/
  matched : s.matched = (first :: rest).all (·.matched)
  /-- A record with nothing to be joined to stays as it is. -/
  alone : rest = [] → s = first

/-- `joinAll` joins records in this sense. -/
lemma isJoin_of_joinAll {first s : Record} {rest : List Record}
    (h : joinAll (first :: rest) = some s) : IsJoin first rest s where
  trigger := (handles_of_joinAll h).1
  expr := (handles_of_joinAll h).2
  guards := mem_guards_of_joinAll h
  matched := matched_of_joinAll h
  alone hrest := by
    subst hrest
    exact (Option.some_inj.mp h).symm

/-- The dereference of an expression, on which guards are held. -/
def deref (expr : UInt32) (guards : List UInt64) (matched : Bool) : Record :=
  ⟨.ptrLoad, ⟨⟨expr⟩, .ident, .point "main.go" expr 1⟩, .ofList (guards.map Nonce.mk), matched⟩

end Record

namespace RecordSet

/-- The obligations of the records, in order. -/
def obligations (rs : RecordSet) : List Obligation :=
  rs.map Record.obligation

/-- No two records have the same obligation. -/
def Distinct (rs : RecordSet) : Prop :=
  rs.obligations.Nodup

/-- Distinctness can be tested. -/
instance : DecidablePred Distinct := fun rs => inferInstanceAs (Decidable rs.obligations.Nodup)

/-- The first record with an obligation. -/
def lookup (rs : RecordSet) (k : Obligation) : Option Record :=
  rs.find? (·.obligation = k)

/-- All records with an obligation, in order. -/
def occurrences (rs : RecordSet) (k : Obligation) : List Record :=
  rs.filter (·.obligation = k)

/-- A record occurs under its own obligation only. -/
@[simp] lemma mem_occurrences {rs : RecordSet} {k : Obligation} {r : Record} :
    r ∈ rs.occurrences k ↔ r ∈ rs ∧ r.obligation = k := by
  simp [occurrences]

/-- A first record with the obligation is its first occurrence. -/
lemma occurrences_cons_of_eq {r : Record} {k : Obligation} (h : r.obligation = k)
    (rs : RecordSet) : occurrences (r :: rs) k = r :: rs.occurrences k := by
  simp [occurrences, h]

/-- A first record with another obligation is no occurrence. -/
lemma occurrences_cons_of_ne {r : Record} {k : Obligation} (h : r.obligation ≠ k)
    (rs : RecordSet) : occurrences (r :: rs) k = rs.occurrences k := by
  simp [occurrences, h]

/-- Occurrences in two sets one after the other. -/
lemma occurrences_append (rs ss : RecordSet) (k : Obligation) :
    occurrences (rs ++ ss) k = rs.occurrences k ++ ss.occurrences k :=
  List.filter_append ..

/-- An obligation is one of a set if a record has it. -/
lemma mem_obligations {rs : RecordSet} {k : Obligation} :
    k ∈ rs.obligations ↔ ∃ r ∈ rs, r.obligation = k :=
  List.mem_map

/-- The obligations of two sets one after the other. -/
lemma obligations_append (rs ss : RecordSet) :
    obligations (rs ++ ss) = rs.obligations ++ ss.obligations :=
  List.map_append

/-- In a set without repeated obligations the records are exactly those that are found. -/
lemma Distinct.mem_iff_lookup {rs : RecordSet} (h : rs.Distinct) {s : Record} :
    s ∈ rs ↔ rs.lookup s.obligation = some s := by
  constructor
  · intro hs
    induction rs with
    | nil => simp at hs
    | cons r rs ih =>
      obtain ⟨hr, hrs⟩ := List.nodup_cons.mp h
      rcases List.mem_cons.mp hs with rfl | hs
      · simp [lookup]
      · have hne : r.obligation ≠ s.obligation := by
          intro he
          exact hr (mem_obligations.mpr ⟨s, hs, he.symm⟩)
        simpa [lookup, hne] using ih hrs hs
  · exact List.mem_of_find?_eq_some

/-- In a set without repeated obligations a record is determined by its obligation. -/
lemma Distinct.eq_of_obligation_eq {rs : RecordSet} (h : rs.Distinct) {r s : Record} (hr : r ∈ rs)
    (hs : s ∈ rs) (hrs : r.obligation = s.obligation) : r = s :=
  List.inj_on_of_nodup_map h hr hs hrs

/-- Two sets without repeated obligations are the same list if both views of them agree. -/
lemma Distinct.ext {rs ss : RecordSet} (h : rs.Distinct) (hk : rs.obligations = ss.obligations)
    (hl : ∀ k, rs.lookup k = ss.lookup k) : rs = ss := by
  have hss : ss.Distinct := by
    rw [Distinct, ← hk]
    exact h
  have hlen : rs.length = ss.length := by
    simpa [obligations] using congrArg List.length hk
  refine List.ext_getElem hlen fun i hi hj => ?_
  -- At each position the obligations agree, so both lists have what they find for it there.
  have hobl : rs[i].obligation = ss[i].obligation := by
    simpa [obligations, hi, hj] using congrArg (·[i]?) hk
  have hfind : rs.lookup rs[i].obligation = some rs[i] := h.mem_iff_lookup.mp (List.getElem_mem hi)
  rw [hl, hobl, hss.mem_iff_lookup.mp (List.getElem_mem hj)] at hfind
  exact (Option.some_inj.mp hfind).symm

/-! ### Taking in one record -/

/-- Taking in a record adds its obligation as the last one, unless it is there already. -/
lemma obligations_absorb (rs : RecordSet) (r : Record) :
    (rs.absorb r).obligations =
      if r.obligation ∈ rs.obligations then rs.obligations
      else rs.obligations ++ [r.obligation] := by
  induction rs with
  | nil => simp [absorb, obligations]
  | cons s rs ih =>
    by_cases hsr : s.obligation = r.obligation
    · simp [absorb, obligations, hsr]
    · have hrs : r.obligation ≠ s.obligation := Ne.symm hsr
      simp only [obligations] at ih
      by_cases hmem : r.obligation ∈ rs.map Record.obligation
      · simp [absorb, obligations, hsr, ih, hmem]
      · simp [absorb, obligations, hsr, hrs, ih, hmem]

/-- Taking in a record joins it to the record of its obligation and leaves all others alone. -/
lemma lookup_absorb (rs : RecordSet) (r : Record) (k : Obligation) :
    (rs.absorb r).lookup k =
      if r.obligation = k then (rs.lookup k).merge Record.join (some r) else rs.lookup k := by
  induction rs with
  | nil => by_cases hrk : r.obligation = k <;> simp [absorb, lookup, hrk]
  | cons s rs ih =>
    simp only [lookup] at ih
    by_cases hsr : s.obligation = r.obligation
    · by_cases hrk : r.obligation = k
      · simp [absorb, lookup, hsr, hrk]
      · simp [absorb, lookup, hsr, hrk]
    · by_cases hsk : s.obligation = k
      · have hrk : r.obligation ≠ k := fun h => hsr (hsk.trans h.symm)
        simp [absorb, lookup, hsk, Ne.symm hrk, hrk]
      · simp [absorb, lookup, hsr, hsk, ih]

/-! ### Taking in a list of records -/

/-- Records are taken in in the order in which their obligations first occur.  The invariant relates
the set built so far to the obligations `ks` of the records already taken in. -/
lemma obligations_foldl_absorb (ks : List Obligation) {acc : RecordSet}
    (h : acc.obligations = ks.eraseDups) (rs : List Record) :
    (rs.foldl absorb acc).obligations = (ks ++ obligations rs).eraseDups := by
  induction rs generalizing acc ks with
  | nil => simpa [obligations] using h
  | cons r rs ih =>
    have hstep : (acc.absorb r).obligations = (ks ++ [r.obligation]).eraseDups := by
      rw [obligations_absorb, eraseDups_concat, h]
      simp only [List.mem_eraseDups]
    have hrun := ih _ hstep
    rw [List.append_assoc] at hrun
    exact hrun

/-- Each obligation gets the join of the record found so far with all its records in the list. -/
lemma lookup_foldl_absorb (acc : RecordSet) (rs : List Record) (k : Obligation) :
    lookup (rs.foldl absorb acc) k =
      (acc.lookup k).merge Record.join (Record.joinAll (occurrences rs k)) := by
  induction rs generalizing acc with
  | nil => simp [occurrences, Record.joinAll]
  | cons r rs ih =>
    rw [List.foldl_cons, ih, lookup_absorb]
    by_cases hrk : r.obligation = k
    · rw [if_pos hrk, occurrences_cons_of_eq hrk, Record.joinAll]
      exact (Option.associative_merge Record.join).assoc _ _ _
    · rw [if_neg hrk, occurrences_cons_of_ne hrk]

/-! ### Merging -/

/-- A merge has the obligations of both sides, in order of first occurrence. -/
lemma obligations_merge (left right : RecordSet) :
    (merge left right).obligations = (left ++ right).obligations.eraseDups :=
  obligations_foldl_absorb [] rfl (left ++ right)

/-- A merge has each obligation once, whatever its sides have. -/
lemma distinct_merge (left right : RecordSet) : (merge left right).Distinct := by
  rw [Distinct, obligations_merge]
  exact nodup_eraseDups _

/-- A merge has, for each obligation, the join of all its records on both sides. -/
lemma lookup_merge (left right : RecordSet) (k : Obligation) :
    (merge left right).lookup k = Record.joinAll ((left ++ right).occurrences k) := by
  have h := lookup_foldl_absorb [] (left ++ right) k
  rw [show lookup [] k = none from rfl, Option.merge_none_left] at h
  exact h

/-- The records of a merge are the joins of all records with their obligation. -/
lemma mem_merge {left right : RecordSet} {s : Record} :
    s ∈ merge left right ↔ Record.joinAll ((left ++ right).occurrences s.obligation) = some s := by
  rw [(distinct_merge left right).mem_iff_lookup, lookup_merge]

/-- A merge has the obligations that one of its sides has. -/
lemma mem_obligations_merge {left right : RecordSet} {k : Obligation} :
    k ∈ (merge left right).obligations ↔ k ∈ left.obligations ∨ k ∈ right.obligations := by
  rw [obligations_merge, List.mem_eraseDups, obligations_append, List.mem_append]

/-- A guard is held after a merge if all records of the obligation hold it. -/
lemma mem_guards_of_mem_merge {left right : RecordSet} {s : Record} (hs : s ∈ merge left right)
    (g : Nonce) :
    g ∈ s.guards ↔ ∀ r ∈ left ++ right, r.obligation = s.obligation → g ∈ r.guards := by
  rw [Record.mem_guards_of_joinAll (mem_merge.mp hs)]
  simp only [mem_occurrences, and_imp]

/-- A record is matched after a merge if all records of the obligation are. -/
lemma matched_of_mem_merge {left right : RecordSet} {s : Record} (hs : s ∈ merge left right) :
    s.matched = true ↔ ∀ r ∈ left ++ right, r.obligation = s.obligation → r.matched = true := by
  rw [Record.matched_of_joinAll (mem_merge.mp hs), List.all_eq_true]
  simp only [mem_occurrences, and_imp]

/-- A record of a merge has the handles of the first record with its obligation. -/
lemma handles_of_mem_merge {left right : RecordSet} {s : Record} (hs : s ∈ merge left right) :
    ∃ first, (left ++ right).lookup s.obligation = some first ∧ s.trigger = first.trigger ∧
      s.expr = first.expr := by
  have hjoin := mem_merge.mp hs
  have hfirst : (left ++ right).lookup s.obligation =
      ((left ++ right).occurrences s.obligation).head? := (List.head?_filter ..).symm
  cases hocc : (left ++ right).occurrences s.obligation with
  | nil =>
    rw [hocc] at hjoin
    cases hjoin
  | cons first rest =>
    rw [hocc] at hjoin hfirst
    exact ⟨first, hfirst, Record.handles_of_joinAll hjoin⟩

/-- A merge lists every obligation of the two sides once, in order of first occurrence, and its
record for an obligation is the join of all records with it, those of the left side first. -/
theorem merge_joins_occurrences (left right : RecordSet) :
    (merge left right).obligations = (left ++ right).obligations.eraseDups ∧
      (merge left right).Distinct ∧
      ∀ s ∈ merge left right, ∃ first rest,
        (left ++ right).occurrences s.obligation = first :: rest ∧ Record.IsJoin first rest s := by
  refine ⟨obligations_merge left right, distinct_merge left right, ?_⟩
  intro s hs
  have hjoin := mem_merge.mp hs
  cases hocc : (left ++ right).occurrences s.obligation with
  | nil =>
    rw [hocc] at hjoin
    simp [Record.joinAll] at hjoin
  | cons first rest =>
    rw [hocc] at hjoin
    exact ⟨first, rest, rfl, Record.isJoin_of_joinAll hjoin⟩

/-- Three records of one obligation, two of them on the same side, become one. -/
theorem merge_joins_occurrences_of_three :
    let left : RecordSet := [.deref 1 [1, 2, 4] true, .deref 2 [] false, .deref 1 [2, 4] true]
    let right : RecordSet := [.deref 1 [2, 3] false]
    let joined : Record := .deref 1 [2] false
    joined ∈ merge left right ∧
      ∃ first rest, (left ++ right).occurrences joined.obligation = first :: rest ∧
        Record.IsJoin first rest joined := by
  intro left right joined
  have hs : joined ∈ merge left right := by
    have hmerge : merge left right = [joined, .deref 2 [] false] := rfl
    rw [hmerge]
    exact List.mem_cons_self
  exact ⟨hs, (merge_joins_occurrences left right).2.2 _ hs⟩

end RecordSet

end NilFlow
