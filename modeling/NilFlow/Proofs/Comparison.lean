import NilFlow.Proofs.Merge
import NilFlow.RecordSet.Compare

/-!
# Comparing record sets by identity

Two record sets are compared through the identities of their records (`ids`).  A record that is
repeated on one side (`Repeats`) is an error, and the error is the first such record, the left side
being looked at first (`equal_eq_error_iff`).  If no record is repeated, the comparison has an
answer (`equal_eq_ok`), which tells whether the identities of one side are a rearrangement of those
of the other (`sameRecords_iff_perm`).  The records of the left side are looked for on the right
only; since they are pairwise different and the lengths agree, nothing else can be there.

Sets without repeated obligations have no repeated identities either, so on them only membership
counts (`equal_eq_ok_true`).
-/

namespace NilFlow

namespace RecordSet

/-- The identities of the records, in order. -/
def ids (rs : RecordSet) : List RecordId :=
  rs.map Record.id

/-- An identity is one of a set if a record has it. -/
lemma mem_ids {rs : RecordSet} {i : RecordId} : i ∈ rs.ids ↔ ∃ r ∈ rs, r.id = i :=
  List.mem_map

/-- The identities of a set with one more record at the front. -/
lemma ids_cons (r : Record) (rs : RecordSet) : ids (r :: rs) = r.id :: rs.ids :=
  rfl

/-! ### Repeated records -/

/-- The record at position `i` comes again at a later position. -/
def RepeatsAt (rs : RecordSet) (i : Nat) : Prop :=
  ∃ j r s, i < j ∧ rs[i]? = some r ∧ rs[j]? = some s ∧ r.id = s.id

/-- Two different positions hold the same record. -/
def Repeats (rs : RecordSet) : Prop :=
  ∃ i, rs.RepeatsAt i

/-- `r` is the first record that comes again later. -/
def FirstRepeated (rs : RecordSet) (r : Record) : Prop :=
  ∃ i, rs[i]? = some r ∧ rs.RepeatsAt i ∧ ∀ k < i, ¬ rs.RepeatsAt k

/-- The record at the front comes again exactly if its identity is one of the others. -/
lemma repeatsAt_cons_zero {r : Record} {rs : RecordSet} :
    RepeatsAt (r :: rs) 0 ↔ r.id ∈ rs.ids := by
  rw [mem_ids]
  constructor
  · rintro ⟨j, r', s, hj, hr', hs, hid⟩
    obtain rfl : r = r' := Option.some_inj.mp hr'
    obtain ⟨j, rfl⟩ := Nat.exists_eq_add_one.mpr hj
    exact ⟨s, List.mem_of_getElem? hs, hid.symm⟩
  · rintro ⟨s, hs, hid⟩
    obtain ⟨j, hj⟩ := List.mem_iff_getElem?.mp hs
    exact ⟨j + 1, r, s, Nat.succ_pos j, rfl, hj, hid.symm⟩

/-- A record put at the front does not change which of the others come again. -/
lemma repeatsAt_cons_succ {r : Record} {rs : RecordSet} {i : Nat} :
    RepeatsAt (r :: rs) (i + 1) ↔ rs.RepeatsAt i := by
  constructor
  · rintro ⟨j, r', s, hj, hr', hs, hid⟩
    obtain ⟨j, rfl⟩ := Nat.exists_eq_add_one.mpr (Nat.zero_lt_of_lt hj)
    exact ⟨j, r', s, Nat.lt_of_succ_lt_succ hj, hr', hs, hid⟩
  · rintro ⟨j, r', s, hj, hr', hs, hid⟩
    exact ⟨j + 1, r', s, Nat.succ_lt_succ hj, hr', hs, hid⟩

/-- A record is repeated exactly if its identity is. -/
lemma repeats_iff_not_nodup {rs : RecordSet} : rs.Repeats ↔ ¬ rs.ids.Nodup := by
  induction rs with
  | nil => simp [Repeats, RepeatsAt, ids]
  | cons r rs ih =>
    rw [ids_cons, List.nodup_cons, not_and_or, not_not, ← ih, ← repeatsAt_cons_zero]
    constructor
    · rintro ⟨i, hi⟩
      cases i with
      | zero => exact .inl hi
      | succ i => exact .inr ⟨i, repeatsAt_cons_succ.mp hi⟩
    · rintro (h | ⟨i, hi⟩)
      · exact ⟨0, h⟩
      · exact ⟨i + 1, repeatsAt_cons_succ.mpr hi⟩

/-- No record is repeated exactly if the identities are pairwise different. -/
lemma not_repeats_iff_nodup {rs : RecordSet} : ¬ rs.Repeats ↔ rs.ids.Nodup := by
  rw [repeats_iff_not_nodup, not_not]

/-- The first repeated record is the one at the front, if that comes again, and else the first
repeated record of the others. -/
lemma firstRepeated_cons {r s : Record} {rs : RecordSet} :
    FirstRepeated (s :: rs) r ↔
      (s.id ∈ rs.ids ∧ s = r) ∨ (s.id ∉ rs.ids ∧ rs.FirstRepeated r) := by
  constructor
  · rintro ⟨i, hi, hrep, hfirst⟩
    cases i with
    | zero => exact .inl ⟨repeatsAt_cons_zero.mp hrep, Option.some_inj.mp hi⟩
    | succ i =>
      refine .inr ⟨fun hs => hfirst 0 i.succ_pos (repeatsAt_cons_zero.mpr hs), i, hi,
        repeatsAt_cons_succ.mp hrep, fun k hk hk' => ?_⟩
      exact hfirst (k + 1) (Nat.succ_lt_succ hk) (repeatsAt_cons_succ.mpr hk')
  · rintro (⟨hs, rfl⟩ | ⟨hs, i, hi, hrep, hfirst⟩)
    · exact ⟨0, rfl, repeatsAt_cons_zero.mpr hs, fun k hk => absurd hk k.not_lt_zero⟩
    · refine ⟨i + 1, hi, repeatsAt_cons_succ.mpr hrep, fun k hk hk' => ?_⟩
      cases k with
      | zero => exact hs (repeatsAt_cons_zero.mp hk')
      | succ k => exact hfirst k (Nat.lt_of_succ_lt_succ hk) (repeatsAt_cons_succ.mp hk')

/-- The search for a duplicate looks at the front first. -/
lemma firstDuplicate_cons (r : Record) (rs : RecordSet) :
    firstDuplicate (r :: rs) = if r.id ∈ rs.ids then some r else firstDuplicate rs := by
  have hany : rs.any (·.id = r.id) = true ↔ r.id ∈ rs.ids := by
    simp [mem_ids]
  simp only [firstDuplicate, hany]

/-- The search for a duplicate finds the first repeated record. -/
lemma firstDuplicate_eq_some_iff {rs : RecordSet} {r : Record} :
    firstDuplicate rs = some r ↔ rs.FirstRepeated r := by
  induction rs with
  | nil => simp [firstDuplicate, FirstRepeated]
  | cons s rs ih =>
    rw [firstDuplicate_cons, firstRepeated_cons, ← ih]
    by_cases h : s.id ∈ ids rs
    · simp [h]
    · simp [h]

/-- The search for a duplicate fails exactly on sets whose identities are pairwise different. -/
lemma firstDuplicate_eq_none_iff {rs : RecordSet} : firstDuplicate rs = none ↔ rs.ids.Nodup := by
  induction rs with
  | nil => simp [firstDuplicate, ids]
  | cons r rs ih =>
    rw [ids_cons, List.nodup_cons, ← ih, firstDuplicate_cons]
    by_cases h : r.id ∈ ids rs
    · simp [h]
    · simp [h]

/-! ### Answers -/

/-- On a set without repeated identities the records are the same exactly if the identities are, up
to order. -/
lemma sameRecords_iff_perm {left right : RecordSet} (h : left.ids.Nodup) :
    sameRecords left right = true ↔ left.ids.Perm right.ids := by
  have hiff : sameRecords left right = true ↔
      left.ids.length = right.ids.length ∧ ∀ i ∈ left.ids, i ∈ right.ids := by
    simp [sameRecords, ids]
  rw [hiff]
  constructor
  · rintro ⟨hlen, hsub⟩
    exact (List.subperm_of_subset h hsub).perm_of_length_le hlen.ge
  · intro hperm
    exact ⟨hperm.length_eq, fun i hi => hperm.subset hi⟩

/-- Sets without repeated identities can be compared. -/
lemma equal_eq_ok {left right : RecordSet} (hl : left.ids.Nodup) (hr : right.ids.Nodup) :
    equal left right = .ok (sameRecords left right) := by
  have hdup : duplicate? left right = none := by
    rw [duplicate?, firstDuplicate_eq_none_iff.mpr hl, firstDuplicate_eq_none_iff.mpr hr]
    rfl
  rw [equal, hdup]

/-- Records with different obligations have different identities. -/
lemma Distinct.nodup_ids {rs : RecordSet} (h : rs.Distinct) : rs.ids.Nodup := by
  have hmap : rs.obligations = rs.ids.map RecordId.obligation := by
    simp only [obligations, ids, List.map_map]
    rfl
  rw [Distinct, hmap] at h
  exact List.Nodup.of_map _ h

/-- Sets without repeated obligations are equal if their records have the same identities. -/
lemma equal_eq_ok_true {left right : RecordSet} (hl : left.Distinct) (hr : right.Distinct)
    (h : ∀ i, i ∈ left.ids ↔ i ∈ right.ids) : equal left right = .ok true := by
  have hperm : left.ids.Perm right.ids :=
    (List.perm_ext_iff_of_nodup hl.nodup_ids hr.nodup_ids).mpr h
  rw [equal_eq_ok hl.nodup_ids hr.nodup_ids, (sameRecords_iff_perm hl.nodup_ids).mpr hperm]

/-- A comparison fails with the first repeated record of the left side or, if there is none, of the
right side. -/
lemma equal_eq_error_iff {left right : RecordSet} {r : Record} :
    equal left right = .error r ↔
      left.FirstRepeated r ∨ (¬ left.Repeats ∧ right.FirstRepeated r) := by
  have hdup : equal left right = .error r ↔ duplicate? left right = some r := by
    rw [equal]
    cases duplicate? left right <;> simp
  rw [hdup, duplicate?, Option.or_eq_some_iff, firstDuplicate_eq_some_iff,
    firstDuplicate_eq_some_iff, firstDuplicate_eq_none_iff, not_repeats_iff_nodup]

/-- A comparison fails exactly if a side repeats a record. -/
lemma exists_equal_eq_error_iff {left right : RecordSet} :
    (∃ r, equal left right = .error r) ↔ left.Repeats ∨ right.Repeats := by
  rw [repeats_iff_not_nodup, repeats_iff_not_nodup, ← not_and_or, ← firstDuplicate_eq_none_iff,
    ← firstDuplicate_eq_none_iff, ← Option.or_eq_none_iff, ← duplicate?, equal]
  cases duplicate? left right <;> simp

/-- Of sets without repeated records, the comparison tells whether one is a permutation of the
other. -/
lemma equal_eq_ok_iff_perm {left right : RecordSet} (hl : left.ids.Nodup) (hr : right.ids.Nodup)
    (answer : Bool) :
    equal left right = .ok answer ↔ (answer = true ↔ right.ids.Perm left.ids) := by
  rw [equal_eq_ok hl hr, Except.ok.injEq, Bool.eq_iff_iff, sameRecords_iff_perm hl,
    List.perm_comm]
  exact iff_comm

/-- On sets without repeated records, being compared as equal is an equivalence. -/
lemma equivalence_equal :
    Equivalence fun a b : {rs : RecordSet // ¬ rs.Repeats} => equal a.1 b.1 = .ok true := by
  have hnodup (a : {rs : RecordSet // ¬ rs.Repeats}) : a.1.ids.Nodup :=
    not_repeats_iff_nodup.mp a.2
  have hperm (a b : {rs : RecordSet // ¬ rs.Repeats}) :
      equal a.1 b.1 = .ok true ↔ b.1.ids.Perm a.1.ids := by
    simpa using equal_eq_ok_iff_perm (hnodup a) (hnodup b) true
  refine ⟨fun a => ?_, fun {a b} hab => ?_, fun {a b c} hab hbc => ?_⟩
  · exact (hperm a a).mpr (List.Perm.refl _)
  · exact (hperm b a).mpr ((hperm a b).mp hab).symm
  · exact (hperm a c).mpr (((hperm b c).mp hbc).trans ((hperm a b).mp hab))

/-- The order of the records does not matter for a comparison. -/
lemma equal_eq_of_perm {left left' right right' : RecordSet} (hl : left.ids.Nodup)
    (hr : right.ids.Nodup) (h : left'.Perm left) (h' : right'.Perm right) :
    equal left' right' = equal left right := by
  have hleft : left'.ids.Perm left.ids := h.map Record.id
  have hright : right'.ids.Perm right.ids := h'.map Record.id
  rw [equal_eq_ok hl hr, equal_eq_ok_iff_perm (hleft.nodup_iff.mpr hl) (hright.nodup_iff.mpr hr),
    sameRecords_iff_perm hl]
  constructor
  · intro hperm
    exact (hright.trans hperm.symm).trans hleft.symm
  · intro hperm
    exact (hleft.symm.trans hperm.symm).trans hright

/-- A failed comparison tells the text of the record that it fails with. -/
lemma message_of_equal {left right : RecordSet} {message : String} :
    (equal left right).mapError duplicateMessage = .error message ↔
      ∃ r, equal left right = .error r ∧
        message = "duplicate obligation in record set: " ++ r.text := by
  cases equal left right with
  | error r =>
    constructor
    · intro h
      exact ⟨r, rfl, (Except.error.inj h).symm⟩
    · rintro ⟨s, hs, rfl⟩
      rw [Except.error.inj hs]
      rfl
  | ok answer => simp [Except.mapError]

/-- What a comparison answers.  It fails exactly if a side repeats a record, and then with the first
repeated record of the left side or, if there is none, of the right side, whose text it tells.
Otherwise it tells whether one side is a permutation of the other, by identity; so, on sets without
repeated records, it is an equivalence and does not depend on the order of the records. -/
theorem comparison_exact (left right : RecordSet) :
    ((∃ r, equal left right = .error r) ↔ left.Repeats ∨ right.Repeats) ∧
      (∀ r, equal left right = .error r ↔
        left.FirstRepeated r ∨ (¬ left.Repeats ∧ right.FirstRepeated r)) ∧
      (∀ message, (equal left right).mapError duplicateMessage = .error message ↔
        ∃ r, (left.FirstRepeated r ∨ (¬ left.Repeats ∧ right.FirstRepeated r)) ∧
          message = "duplicate obligation in record set: " ++ r.text) ∧
      (¬ left.Repeats → ¬ right.Repeats →
        (equal left right = .ok true ↔ right.ids.Perm left.ids) ∧
        (equal left right = .ok false ↔ ¬ right.ids.Perm left.ids) ∧
        ∀ left' right' : RecordSet, left'.Perm left → right'.Perm right →
          equal left' right' = equal left right) ∧
      Equivalence fun a b : {rs : RecordSet // ¬ rs.Repeats} => equal a.1 b.1 = .ok true := by
  refine ⟨exists_equal_eq_error_iff, fun _ => equal_eq_error_iff, fun message => ?_,
    fun hl hr => ?_, equivalence_equal⟩
  · simp only [message_of_equal, equal_eq_error_iff]
  · rw [not_repeats_iff_nodup] at hl hr
    refine ⟨?_, ?_, fun _ _ h h' => equal_eq_of_perm hl hr h h'⟩
    · simpa using equal_eq_ok_iff_perm hl hr true
    · simpa using equal_eq_ok_iff_perm hl hr false

/-- A set and a rotation of it, and a set that has its first record twice, the second time with
another form of the expression. -/
theorem comparison_exact_of_rotation :
    let a : Record := .deref 1 [1, 2] false
    let b : Record := .deref 2 [] true
    let c : Record := .deref 3 [4] false
    let again : Record := { a with expr := ⟨⟨1⟩, .paren, .point "main.go" 9 9⟩ }
    ¬ Repeats [a, b, c] ∧ ¬ Repeats [c, a, b] ∧ equal [a, b, c] [c, a, b] = .ok true ∧
      FirstRepeated [a, b, again] a ∧ equal [a, b, again] [a, b, c] = .error a := by
  intro a b c again
  have hleft : ¬ Repeats [a, b, c] := not_repeats_iff_nodup.mpr (by decide)
  have hright : ¬ Repeats [c, a, b] := not_repeats_iff_nodup.mpr (by decide)
  have hperm : (ids [c, a, b]).Perm (ids [a, b, c]) := by decide
  have hfirst : FirstRepeated [a, b, again] a :=
    ⟨0, rfl, ⟨2, a, again, by decide, rfl, rfl, rfl⟩, fun k hk => absurd hk k.not_lt_zero⟩
  obtain ⟨-, -, -, hanswer, -⟩ := comparison_exact [a, b, c] [c, a, b]
  obtain ⟨-, herror, -⟩ := comparison_exact [a, b, again] [a, b, c]
  exact ⟨hleft, hright, (hanswer hleft hright).1.mpr hperm, hfirst, (herror a).mpr (.inl hfirst)⟩

end RecordSet

end NilFlow
