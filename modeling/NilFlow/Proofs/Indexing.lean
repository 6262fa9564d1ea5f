import Mathlib.Data.List.Nodup
import NilFlow.Program.Index
import NilFlow.Proofs.Outcome

/-!
# What indexing a program decides

A program is indexed exactly if it is `Sound`: the ids of each table are pairwise different, and
every return statement belongs to a function of the program.  Filling a table keeps the entries in
their order and stops at the first one whose id is there already (`IdTable.fill_cases`).  So the
tables of an index have the entries of the program (`Program.values_of_index`) and answer each
look-up from them (`Program.answers_of_index`).

A program that is not sound may have several defects at once, and `Reports` says which of them may
be named.  The tables come in the order of `Table.all`, and the first one with a repeated id
decides; within that table it is the earliest id that repeats one before it (`EarliestRepeat`).  A
return statement without its function is named only if no table has a repeated id.  Which one that
is depends on the order in which the return statements are run through
(`Program.index_of_dangling`), and nothing else does (`Program.index_orders`).
-/

namespace NilFlow

/-! ### Repeated ids -/

section Repeats

variable {α : Type}

/-- `a` is the earliest entry of a list that repeats one before it. -/
def EarliestRepeat (as : List α) (a : α) : Prop :=
  ∃ before after, as = before ++ a :: after ∧ before.Nodup ∧ a ∈ before

/-- A list with a repeated entry is not free of repetitions. -/
lemma EarliestRepeat.not_nodup {as : List α} {a : α} (h : EarliestRepeat as a) : ¬ as.Nodup := by
  obtain ⟨before, after, rfl, -, ha⟩ := h
  intro hnodup
  have hdisjoint := (List.nodup_append.mp hnodup).2.2
  exact hdisjoint a ha a List.mem_cons_self rfl

/-- Nothing comes between a repeated entry and the end of a list without repetitions. -/
lemma eq_of_repeat_of_nodup {before between after after' : List α} {a b : α} (ha : a ∈ before)
    (hnodup : (before ++ between).Nodup) (hsplit : a :: after = between ++ b :: after') :
    a = b := by
  cases between with
  | nil => exact (List.cons.inj hsplit).1
  | cons c between =>
    obtain rfl : a = c := (List.cons.inj hsplit).1
    exact absurd rfl ((List.nodup_append.mp hnodup).2.2 a ha a List.mem_cons_self)

/-- There is only one earliest repeated entry. -/
lemma EarliestRepeat.unique {as : List α} {a b : α} (ha : EarliestRepeat as a)
    (hb : EarliestRepeat as b) : a = b := by
  obtain ⟨before, after, rfl, hnodup, hmem⟩ := ha
  obtain ⟨before', after', hsplit, hnodup', hmem'⟩ := hb
  rcases List.append_eq_append_iff.mp hsplit with ⟨between, rfl, htail⟩ | ⟨between, rfl, htail⟩
  · exact eq_of_repeat_of_nodup hmem hnodup' htail
  · exact (eq_of_repeat_of_nodup hmem' hnodup htail).symm

end Repeats

/-! ### Tables -/

/-- A look-up that finds the entries of a table by their ids, and reports every other id as
unknown. -/
structure Answers {α : Type} {table : Table} (find : Id table → Except IndexError α)
    (idOf : α → Id table) (entries : List α) : Prop where
  found : ∀ id a, find id = .ok a ↔ a ∈ entries ∧ idOf a = id
  unknown : ∀ id e, find id = .error e ↔ e = .unknownId table id.raw ∧ ∀ a ∈ entries, idOf a ≠ id

namespace IdTable

variable {table : Table} (t : IdTable table) {a : table.Entry} {id : Id table}

/-- The ids of the entries are the keys that they stand under. -/
lemma map_idOf_values : t.values.map table.idOf = t.map.keys := by
  rw [values, FiniteMap.values, FiniteMap.keys, List.map_map]
  exact List.map_congr_left t.keyed

/-- No id stands for two entries. -/
lemma nodup_ids : (t.values.map table.idOf).Nodup := by
  rw [map_idOf_values]
  exact t.map.nodup

/-- A table contains the ids of its entries. -/
lemma contains_iff : t.contains id = true ↔ id ∈ t.values.map table.idOf := by
  rw [map_idOf_values]
  exact FiniteMap.contains_iff

/-- The size of a table is the number of its entries. -/
lemma size_eq : t.size = t.values.length := by
  rw [values, FiniteMap.values, List.length_map]
  rfl

/-- The entry under an id is the one that has it. -/
lemma get?_eq_some_iff : t.map.get? id = some a ↔ a ∈ t.values ∧ table.idOf a = id := by
  rw [FiniteMap.get?_eq_some_iff, values, FiniteMap.values, List.mem_map]
  constructor
  · intro h
    exact ⟨⟨(id, a), h, rfl⟩, t.keyed _ h⟩
  · rintro ⟨⟨e, he, rfl⟩, rfl⟩
    rw [t.keyed e he]
    exact he

/-- There is nothing under an id that no entry has. -/
lemma get?_eq_none_iff : t.map.get? id = none ↔ ∀ a ∈ t.values, table.idOf a ≠ id := by
  rw [FiniteMap.get?_eq_none_iff, ← map_idOf_values, List.mem_map, not_exists]
  simp only [not_and, ne_eq]

/-- Look-ups are answered from the entries. -/
lemma lookUp_answers : Answers t.lookUp table.idOf t.values := by
  constructor
  · intro id a
    rw [← get?_eq_some_iff, lookUp]
    cases t.map.get? id <;> simp
  · intro id e
    rw [← get?_eq_none_iff, lookUp]
    cases t.map.get? id <;> simp [eq_comm]

/-- An entry whose id is not in the table displaces nothing, and comes last. -/
lemma exchange_of_not_mem (h : table.idOf a ∉ t.values.map table.idOf) :
    ∃ t', t.exchange a = (none, t') ∧ t'.values = t.values ++ [a] := by
  rw [map_idOf_values] at h
  have hnone : (t.map.exchange (table.idOf a) a).1 = none := by
    rw [FiniteMap.exchange_eq]
    exact FiniteMap.get?_eq_none_iff.mpr h
  have hvalues : (t.map.insert (table.idOf a) a).values = t.map.values ++ [a] := by
    rw [FiniteMap.values, FiniteMap.entries_insert_of_not_mem a h, List.map_append]
    rfl
  exact ⟨_, Prod.ext hnone rfl, hvalues⟩

/-- An entry whose id is in the table displaces another one. -/
lemma exchange_of_mem (h : table.idOf a ∈ t.values.map table.idOf) :
    ∃ b t', t.exchange a = (some b, t') := by
  rw [map_idOf_values, ← FiniteMap.contains_iff] at h
  obtain ⟨b, hb⟩ := Option.isSome_iff_exists.mp h
  have hsome : (t.map.exchange (table.idOf a) a).1 = some b := by
    rw [FiniteMap.exchange_eq]
    exact hb
  exact ⟨b, _, Prod.ext hsome rfl⟩

/-- Entries that are put into a table come after those that are there, unless one of them is the
first to have an id that is there already. -/
lemma fill_cases (as : List table.Entry) :
    (∃ t', t.fill as = .ok t' ∧ t'.values = t.values ++ as) ∨
      ∃ id, EarliestRepeat ((t.values ++ as).map table.idOf) id ∧
        t.fill as = .error (.duplicateId table id.raw) := by
  induction as generalizing t with
  | nil => exact .inl ⟨t, rfl, (List.append_nil _).symm⟩
  | cons a as ih =>
    unfold fill
    by_cases hid : table.idOf a ∈ t.values.map table.idOf
    · obtain ⟨b, t', hexchange⟩ := t.exchange_of_mem hid
      refine .inr ⟨table.idOf a, ⟨_, _, List.map_append, t.nodup_ids, hid⟩, ?_⟩
      rw [hexchange]
    · obtain ⟨t', hexchange, hvalues⟩ := t.exchange_of_not_mem hid
      have happend : t.values ++ a :: as = t'.values ++ as := by
        rw [hvalues, List.append_assoc, List.singleton_append]
      rw [hexchange, happend]
      exact ih t'

end IdTable

/-! ### Orders of return statements -/

/-- The order in which a chosen value comes first, if it is there. -/
def Shuffle.first {α : Type} [DecidableEq α] (a : α) : Shuffle α where
  arrange as := if a ∈ as then a :: as.erase a else as
  perm as := by
    split
    · rename_i ha
      exact (List.perm_cons_erase ha).symm
    · exact .refl as

/-- The chosen value comes first, and all others after it. -/
lemma Shuffle.arrange_first {α : Type} [DecidableEq α] {a : α} {as : List α} (h : a ∈ as) :
    (first a).arrange as = a :: as.erase a :=
  if_pos h

namespace Tables

variable (t : Tables)

/-- Tables whose return statements have their functions make up an index.  Otherwise one that lacks
its function is named. -/
lemma checkOwners_cases (order : Shuffle ReturnStmt) :
    (∃ howned, t.checkOwners order = .ok ⟨t, howned⟩) ∨
      ∃ s ∈ t.returns.values, t.funcs.contains s.func = false ∧
        t.checkOwners order = .error (.unknownId .func s.func.raw) := by
  unfold checkOwners
  split
  · next s hs =>
    have hmem : s ∈ t.returns.values :=
      (order.perm _).mem_iff.mp (List.mem_of_find?_eq_some hs)
    exact .inr ⟨s, hmem, by simpa using List.find?_some hs, rfl⟩
  · next hnone => exact .inl ⟨owned_of_find?_eq_none hnone, rfl⟩

/-- A return statement that lacks its function is named if it comes first. -/
lemma checkOwners_first {s : ReturnStmt} (hs : s ∈ t.returns.values)
    (hmissing : t.funcs.contains s.func = false) :
    t.checkOwners (.first s) = .error (.unknownId .func s.func.raw) := by
  have hfind : ((Shuffle.first s).arrange t.returns.values).find?
      (fun s => !t.funcs.contains s.func) = some s := by
    rw [Shuffle.arrange_first hs, List.find?_cons_of_pos (by simp [hmissing])]
  unfold checkOwners
  split
  · next s' hs' => rw [Option.some_inj.mp (hs'.symm.trans hfind)]
  · next hnone => cases hnone.symm.trans hfind

end Tables

/-! ### Sound programs and reports -/

/-- The tables, in the order in which they are checked. -/
def Table.all : List Table :=
  [.func, .field, .var, .type, .stmt, .expr]

/-- Of two tables one comes before the other. -/
lemma Table.before_or_before {t u : Table} (h : t ≠ u) :
    t ∈ all.takeWhile (· ≠ u) ∨ u ∈ all.takeWhile (· ≠ t) := by
  revert h
  cases t <;> cases u <;> decide

namespace Program

/-- The ids of one table, in order. -/
def ids (p : Program) (table : Table) : List (Id table) :=
  (p.entries table).map table.idOf

/-- The ids of each table are pairwise different, and every return statement belongs to a function
of the program. -/
structure Sound (p : Program) : Prop where
  unique : ∀ table, (p.ids table).Nodup
  owned : ∀ s ∈ p.returns, s.func ∈ p.ids .func

/-- A return statement lacks its function. -/
structure Dangling (p : Program) (s : ReturnStmt) : Prop where
  mem : s ∈ p.returns
  missing : s.func ∉ p.ids .func

/-- An id is the earliest repeated one of its table, and no table before it has a repeated id. -/
structure FirstRepeat (p : Program) {table : Table} (id : Id table) : Prop where
  earliest : EarliestRepeat (p.ids table) id
  before : ∀ t ∈ Table.all.takeWhile (· ≠ table), (p.ids t).Nodup

/-- What is reported about a program that is not sound. -/
inductive Reports (p : Program) : IndexError → Prop where
  /-- An id that is repeated in a table, if no table before it has a repeated id. -/
  | duplicate {table : Table} {id : Id table} (h : p.FirstRepeat id) :
      Reports p (.duplicateId table id.raw)
  /-- A function that a return statement lacks, if no table has a repeated id. -/
  | dangling {s : ReturnStmt} (hs : p.Dangling s) (hunique : ∀ table, (p.ids table).Nodup) :
      Reports p (.unknownId .func s.func.raw)

variable {p : Program} {e : IndexError} {order order' : Shuffle ReturnStmt}

/-- Nothing is reported about a sound program. -/
lemma Sound.not_reports (h : p.Sound) : ¬ p.Reports e := by
  rintro (hfirst | ⟨hs, -⟩)
  · exact hfirst.earliest.not_nodup (h.unique _)
  · exact hs.missing (h.owned _ hs.mem)

/-! ### Filling the tables -/

section Tables

variable {table : Table} {t : Tables}

/-- A table that is filled has the entries of the program. -/
lemma values_of_fillTable {t : IdTable table} (h : p.fillTable table = .ok t) :
    t.values = p.entries table := by
  unfold fillTable at h
  rcases IdTable.empty.fill_cases (p.entries table) with ⟨t', ht', hvalues⟩ | ⟨id, -, herror⟩
  · obtain rfl : t = t' := Except.ok.inj (h.symm.trans ht')
    exact hvalues
  · cases h.symm.trans herror

/-- If a table is filled, it has no repeated id. -/
lemma nodup_of_fillTable {t : IdTable table} (h : p.fillTable table = .ok t) :
    (p.ids table).Nodup := by
  rw [ids, ← values_of_fillTable h]
  exact t.nodup_ids

/-- If filling a table fails, the error names its first repeated id. -/
lemma firstRepeat_of_fillTable (h : p.fillTable table = .error e)
    (hbefore : (Table.all.takeWhile (· ≠ table)).Forall fun t => (p.ids t).Nodup) :
    ∃ (table : Table) (id : Id table), p.FirstRepeat id ∧ e = .duplicateId table id.raw := by
  unfold fillTable at h
  rcases IdTable.empty.fill_cases (p.entries table) with ⟨t', ht', -⟩ | ⟨id, hid, herror⟩
  · cases h.symm.trans ht'
  · exact ⟨table, id, ⟨hid, List.forall_iff_forall_mem.mp hbefore⟩,
      Except.error.inj (h.symm.trans herror)⟩

/-- If filling the tables fails, the error names the first repeated id. -/
lemma firstRepeat_of_tables (h : p.tables = .error e) :
    ∃ (table : Table) (id : Id table), p.FirstRepeat id ∧ e = .duplicateId table id.raw := by
  unfold tables at h
  -- Each table that is filled is one more without repeated ids before the next one.
  rcases bind_eq_error.mp h with h | ⟨_, hfuncs, h⟩
  · exact firstRepeat_of_fillTable h trivial
  have hfuncs := nodup_of_fillTable hfuncs
  rcases bind_eq_error.mp h with h | ⟨_, hfields, h⟩
  · exact firstRepeat_of_fillTable h hfuncs
  have hfields := nodup_of_fillTable hfields
  rcases bind_eq_error.mp h with h | ⟨_, hvars, h⟩
  · exact firstRepeat_of_fillTable h ⟨hfuncs, hfields⟩
  have hvars := nodup_of_fillTable hvars
  rcases bind_eq_error.mp h with h | ⟨_, htypes, h⟩
  · exact firstRepeat_of_fillTable h ⟨hfuncs, hfields, hvars⟩
  have htypes := nodup_of_fillTable htypes
  rcases bind_eq_error.mp h with h | ⟨_, hreturns, h⟩
  · exact firstRepeat_of_fillTable h ⟨hfuncs, hfields, hvars, htypes⟩
  have hreturns := nodup_of_fillTable hreturns
  rcases bind_eq_error.mp h with h | ⟨_, -, h⟩
  · exact firstRepeat_of_fillTable h ⟨hfuncs, hfields, hvars, htypes, hreturns⟩
  · cases h

/-- Tables that are filled have the entries of the program. -/
lemma values_of_tables (h : p.tables = .ok t) (table : Table) :
    (t.at table).values = p.entries table := by
  unfold tables at h
  obtain ⟨_, hfuncs, h⟩ := bind_eq_ok.mp h
  obtain ⟨_, hfields, h⟩ := bind_eq_ok.mp h
  obtain ⟨_, hvars, h⟩ := bind_eq_ok.mp h
  obtain ⟨_, htypes, h⟩ := bind_eq_ok.mp h
  obtain ⟨_, hreturns, h⟩ := bind_eq_ok.mp h
  obtain ⟨_, hexprs, h⟩ := bind_eq_ok.mp h
  cases h
  cases table with
  | func => exact values_of_fillTable hfuncs
  | field => exact values_of_fillTable hfields
  | var => exact values_of_fillTable hvars
  | type => exact values_of_fillTable htypes
  | stmt => exact values_of_fillTable hreturns
  | expr => exact values_of_fillTable hexprs

/-- If the tables are filled, none has a repeated id. -/
lemma nodup_of_tables (h : p.tables = .ok t) (table : Table) : (p.ids table).Nodup := by
  rw [ids, ← values_of_tables h]
  exact (t.at table).nodup_ids

/-- If no table has a repeated id, they are filled. -/
lemma exists_tables (hunique : ∀ table, (p.ids table).Nodup) : ∃ t, p.tables = .ok t := by
  cases h : p.tables with
  | ok t => exact ⟨t, rfl⟩
  | error e =>
    obtain ⟨table, id, hid, -⟩ := firstRepeat_of_tables h
    exact absurd (hunique table) hid.earliest.not_nodup

end Tables

/-! ### Checking the owners -/

/-- A return statement dangles if the tables do not have its function. -/
lemma dangling_iff {t : Tables} (h : p.tables = .ok t) {s : ReturnStmt} :
    p.Dangling s ↔ s ∈ t.returns.values ∧ t.funcs.contains s.func = false := by
  have hreturns : t.returns.values = p.returns := values_of_tables h .stmt
  have hfuncs : t.funcs.values = p.funcs := values_of_tables h .func
  rw [hreturns, ← Bool.not_eq_true, IdTable.contains_iff, hfuncs]
  exact ⟨fun hs => ⟨hs.mem, hs.missing⟩, fun hs => ⟨hs.1, hs.2⟩⟩

/-- What indexing comes to once the tables are filled. -/
lemma index_of_tables {t : Tables} (h : p.tables = .ok t) (order : Shuffle ReturnStmt) :
    p.index order = t.checkOwners order := by
  rw [index, h]
  rfl

/-- Indexing fails with what is to be reported. -/
lemma reports_of_index (h : p.index order = .error e) : p.Reports e := by
  cases ht : p.tables with
  | error e' =>
    obtain ⟨table, id, hid, rfl⟩ := firstRepeat_of_tables ht
    rw [index, ht] at h
    cases h
    exact .duplicate hid
  | ok t =>
    rw [index_of_tables ht] at h
    rcases t.checkOwners_cases order with ⟨_, hok⟩ | ⟨s, hs, hmissing, herror⟩
    · cases h.symm.trans hok
    · obtain rfl : e = _ := Except.error.inj (h.symm.trans herror)
      exact .dangling ((dangling_iff ht).mpr ⟨hs, hmissing⟩) (nodup_of_tables ht)

/-- A sound program is indexed, in whatever order its return statements are run through. -/
lemma Sound.exists_index (h : p.Sound) (order : Shuffle ReturnStmt) :
    ∃ ix, p.index order = .ok ix := by
  cases hix : p.index order with
  | ok ix => exact ⟨ix, rfl⟩
  | error e => exact absurd (reports_of_index hix) h.not_reports

/-- An index is made of the tables of the program. -/
lemma tables_of_index {ix : Index} (h : p.index order = .ok ix) : p.tables = .ok ix.toTables := by
  obtain ⟨t, ht, hix⟩ := bind_eq_ok.mp h
  rcases t.checkOwners_cases order with ⟨_, hok⟩ | ⟨_, -, -, herror⟩
  · obtain rfl : ix = _ := Except.ok.inj (hix.symm.trans hok)
    exact ht
  · cases hix.symm.trans herror

/-- The tables of an index have the entries of the program. -/
lemma values_of_index {ix : Index} (h : p.index order = .ok ix) (table : Table) :
    (ix.at table).values = p.entries table :=
  values_of_tables (tables_of_index h) table

/-- The tables of an index answer look-ups from the entries of the program. -/
lemma answers_of_index {ix : Index} (h : p.index order = .ok ix) (table : Table) :
    Answers (ix.at table).lookUp table.idOf (p.entries table) := by
  rw [← values_of_index h]
  exact (ix.at table).lookUp_answers

/-- A program that is indexed is sound. -/
lemma sound_of_index {ix : Index} (h : p.index order = .ok ix) : p.Sound where
  unique := nodup_of_tables (tables_of_index h)
  owned s hs := by
    have hreturns : ix.returns.values = p.returns := values_of_index h .stmt
    have hfuncs : ix.funcs.values = p.funcs := values_of_index h .func
    rw [← hreturns] at hs
    have hcontains := ix.funcs.contains_iff.mp (ix.owned s hs)
    rw [hfuncs] at hcontains
    exact hcontains

/-! ### Which error is named -/

/-- A first repeated id is the only one. -/
lemma FirstRepeat.unique {table table' : Table} {id : Id table} {id' : Id table'}
    (h : p.FirstRepeat id) (h' : p.FirstRepeat id') :
    IndexError.duplicateId table id.raw = .duplicateId table' id'.raw := by
  by_cases htable : table = table'
  · subst htable
    rw [h.earliest.unique h'.earliest]
  · rcases Table.before_or_before htable with hbefore | hbefore
    · exact absurd (h'.before table hbefore) h.earliest.not_nodup
    · exact absurd (h.before table' hbefore) h'.earliest.not_nodup

/-- A first repeated id is named, in whatever order the return statements are run through. -/
lemma index_of_firstRepeat {table : Table} {id : Id table} (h : p.FirstRepeat id)
    (order : Shuffle ReturnStmt) : p.index order = .error (.duplicateId table id.raw) := by
  cases ht : p.tables with
  | ok t => exact absurd (nodup_of_tables ht table) h.earliest.not_nodup
  | error e =>
    obtain ⟨table', id', hid', rfl⟩ := firstRepeat_of_tables ht
    rw [index, ht, h.unique hid']
    rfl

/-- A return statement that lacks its function is named if it comes first, unless there is a
repeated id. -/
lemma index_of_dangling {s : ReturnStmt} (hs : p.Dangling s)
    (hunique : ∀ table, (p.ids table).Nodup) :
    p.index (.first s) = .error (.unknownId .func s.func.raw) := by
  obtain ⟨t, ht⟩ := exists_tables hunique
  obtain ⟨hmem, hmissing⟩ := (dangling_iff ht).mp hs
  rw [index_of_tables ht]
  exact t.checkOwners_first hmem hmissing

/-- The order in which the return statements are run through makes no difference, except that of
several missing functions each may be named. -/
lemma index_orders (p : Program) (order order' : Shuffle ReturnStmt) :
    p.index order = p.index order' ∨
      ∃ s s', p.Dangling s ∧ p.Dangling s' ∧ s.func ≠ s'.func ∧
        p.index order = .error (.unknownId .func s.func.raw) ∧
        p.index order' = .error (.unknownId .func s'.func.raw) := by
  cases ht : p.tables with
  | error e =>
    left
    rw [index, index, ht]
    rfl
  | ok t =>
    rw [index_of_tables ht, index_of_tables ht]
    rcases t.checkOwners_cases order with ⟨howned, hok⟩ | ⟨s, hs, hmissing, herror⟩
    · rcases t.checkOwners_cases order' with ⟨_, hok'⟩ | ⟨s', hs', hmissing', -⟩
      · exact .inl (hok.trans hok'.symm)
      · exact absurd (howned s' hs') (by simp [hmissing'])
    · rcases t.checkOwners_cases order' with ⟨howned', -⟩ | ⟨s', hs', hmissing', herror'⟩
      · exact absurd (howned' s hs) (by simp [hmissing])
      · rw [herror, herror']
        by_cases hfunc : s.func = s'.func
        · exact .inl (by rw [hfunc])
        · exact .inr ⟨s, s', (dangling_iff ht).mpr ⟨hs, hmissing⟩,
            (dangling_iff ht).mpr ⟨hs', hmissing'⟩, hfunc, rfl, rfl⟩

/-- Exactly the sound programs are indexed, in whatever order the return statements are run through.
Each look-up in the index gives the one entry of the table that has the id, and reports the id as
unknown, under the name of the table, if there is none.  The index has as many functions and
expressions as the program, and the function of each of its return statements can be looked up.

If a program is not indexed, the report is about the first table with a repeated id and names the
earliest id there that repeats one before it; only if there is no such table, it names the missing
function of a return statement, and each of these in some order. -/
theorem index_decides_soundness (p : Program) :
    (∀ order, (∃ ix, p.index order = .ok ix) ↔ p.Sound) ∧
    (∀ order ix, p.index order = .ok ix →
      Answers ix.func (·.id) p.funcs ∧ Answers ix.field (·.id) p.fields ∧
      Answers ix.var (·.id) p.vars ∧ Answers ix.typeDecl (·.id) p.types ∧
      Answers ix.returnStmt (·.id) p.returns ∧ Answers ix.expr (·.id) p.exprs ∧
      ix.funcCount = p.funcs.length ∧ ix.exprCount = p.exprs.length ∧
      ∀ id s, ix.returnStmt id = .ok s → ∃ f, ix.func s.func = .ok f) ∧
    (∀ e, (∃ order, p.index order = .error e) ↔ p.Reports e) ∧
    Table.all.map Table.noun =
      ["function", "field", "variable", "type", "return statement", "expression"] := by
  refine ⟨fun order => ⟨?_, fun hsound => hsound.exists_index order⟩, ?_, fun e => ⟨?_, ?_⟩, rfl⟩
  · rintro ⟨ix, hix⟩
    exact sound_of_index hix
  · intro order ix hix
    have hfunc : Answers ix.func (·.id) p.funcs := answers_of_index hix .func
    have hreturn : Answers ix.returnStmt (·.id) p.returns := answers_of_index hix .stmt
    have hfuncCount : ix.funcCount = p.funcs.length :=
      ix.funcs.size_eq.trans (congrArg List.length (values_of_index hix .func))
    have hexprCount : ix.exprCount = p.exprs.length :=
      ix.exprs.size_eq.trans (congrArg List.length (values_of_index hix .expr))
    refine ⟨hfunc, answers_of_index hix .field, answers_of_index hix .var,
      answers_of_index hix .type, hreturn, answers_of_index hix .expr, hfuncCount, hexprCount, ?_⟩
    intro id s hs
    obtain ⟨hmem, -⟩ := (hreturn.found id s).mp hs
    obtain ⟨f, hf, hid⟩ := List.mem_map.mp ((sound_of_index hix).owned s hmem)
    exact ⟨f, (hfunc.found s.func f).mpr ⟨hf, hid⟩⟩
  · rintro ⟨order, h⟩
    exact reports_of_index h
  · rintro (hfirst | ⟨hs, hunique⟩)
    · exact ⟨.asInserted, index_of_firstRepeat hfirst .asInserted⟩
    · exact ⟨.first _, index_of_dangling hs hunique⟩

/-- Two types have id 5, and then two have id 3; two expressions share an id; and a return statement
lacks its function.  Named is the type with id 5, which is the first to repeat one before it. -/
theorem index_reports_of_three_defects :
    let p : Program := { Program.empty with
      types := [⟨⟨3⟩, "A"⟩, ⟨⟨5⟩, "B"⟩, ⟨⟨5⟩, "C"⟩, ⟨⟨3⟩, "D"⟩]
      returns := [⟨⟨1⟩, ⟨9⟩, .point "a.go" 4 2⟩]
      exprs := [⟨⟨2⟩, .ident, .point "a.go" 4 9⟩, ⟨⟨2⟩, .call, .point "a.go" 5 9⟩] }
    p.index .asInserted = .error (.duplicateId .type 5) ∧ p.Reports (.duplicateId .type 5) ∧
      ¬ p.Sound := by
  intro p
  have hindex : p.index .asInserted = .error (.duplicateId .type 5) := rfl
  obtain ⟨hsound, -, hreports, -⟩ := index_decides_soundness p
  refine ⟨hindex, (hreports _).mp ⟨_, hindex⟩, fun h => ?_⟩
  obtain ⟨ix, hix⟩ := (hsound .asInserted).mpr h
  cases hindex.symm.trans hix

end Program

end NilFlow
