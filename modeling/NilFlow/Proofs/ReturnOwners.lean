import NilFlow.Proofs.TriggerIdentity

/-!
# Returns and their functions

Four kinds of triggers concern a result at a return statement (`ReturnKind`).  They differ in what
they report, but are built alike (`ReturnKind.build_eq`): first the result has to exist, then the
statement has to belong to the function of the result.  So there are three outcomes, and the slot
decides before the statement does (`build_of_le`, `build_of_ne`, `build_of_eq`).

The function of a statement is given by its id.  In an index ids are unique and no statement lacks
its function, so exactly one function of the index has that id, and it is the one that the id
resolves to (`Index.Gives.eq_iff_of_func`).
-/

namespace NilFlow

/-- The kinds of triggers on a result at a return statement. -/
inductive ReturnKind where
  | useAsReturn
  | useAsErrorResult
  | useAsNonErrorRetDependentOnErrorRetNilability
  | useAsErrorRetWithNilabilityUnknown

namespace ReturnKind

/-- The trigger of the kind on a result at a return statement. -/
def trigger : ReturnKind → ReturnSite → Trigger
  | .useAsReturn => .useAsReturn
  | .useAsErrorResult => .useAsErrorResult
  | .useAsNonErrorRetDependentOnErrorRetNilability => .useAsNonErrorRetDependentOnErrorRetNilability
  | .useAsErrorRetWithNilabilityUnknown => .useAsErrorRetWithNilabilityUnknown

/-- Builds the trigger of the kind for the result of a function at a position and a statement that
returns it, through its name or not. -/
def build (func : FuncDecl) (index : Nat) (stmt : ReturnStmt) (named : Bool) :
    ReturnKind → Except BuildError Trigger
  | .useAsReturn => Trigger.build .useAsReturn (func, index, stmt, named)
  | .useAsErrorResult => Trigger.build .useAsErrorResult (func, index, stmt, named)
  | .useAsNonErrorRetDependentOnErrorRetNilability =>
    Trigger.build .useAsNonErrorRetDependentOnErrorRetNilability (func, index, stmt, named)
  | .useAsErrorRetWithNilabilityUnknown =>
    Trigger.build .useAsErrorRetWithNilabilityUnknown (func, index, stmt, named)

variable {func : FuncDecl} {index : Nat} {stmt : ReturnStmt} {named : Bool} (kind : ReturnKind)

/-- All four kinds are built in the same way. -/
lemma build_eq : kind.build func index stmt named =
    kind.trigger <$> ReturnSite.build (func, index, stmt, named) := by
  cases kind <;> rfl

/-- A function without such a result is rejected, whatever the statement is. -/
lemma build_of_le (hindex : func.results.length ≤ index) :
    kind.build func index stmt named =
      .error (.site (.resultOutOfRange func.name index func.results.length)) := by
  have hsite : ResultSite.of func index =
      .error (.resultOutOfRange func.name index func.results.length) :=
    dif_neg (Nat.not_lt.mpr hindex)
  rw [build_eq, ReturnSite.build, hsite]
  rfl

/-- A function with such a result is checked against the statement. -/
lemma build_of_lt (hindex : index < func.results.length) :
    kind.build func index stmt named =
      kind.trigger <$> BuildError.ofTrigger (ReturnSite.of ⟨func, index, hindex⟩ stmt named) := by
  have hsite : ResultSite.of func index = .ok ⟨func, index, hindex⟩ := dif_pos hindex
  rw [build_eq, ReturnSite.build, hsite]
  rfl

/-- A statement of another function is rejected. -/
lemma build_of_ne (hindex : index < func.results.length) (hstmt : stmt.func ≠ func.id) :
    kind.build func index stmt named = .error (.trigger (.foreignReturn stmt.id func.name)) := by
  have hreturn : ReturnSite.of ⟨func, index, hindex⟩ stmt named =
      .error (.foreignReturn stmt.id func.name) := dif_neg hstmt
  rw [build_of_lt kind hindex, hreturn]
  rfl

/-- A statement of the function itself is accepted. -/
lemma build_of_eq (hindex : index < func.results.length) (hstmt : stmt.func = func.id) :
    kind.build func index stmt named =
      .ok (kind.trigger ⟨⟨func, index, hindex⟩, stmt, named, hstmt⟩) := by
  have hreturn : ReturnSite.of ⟨func, index, hindex⟩ stmt named =
      .ok ⟨⟨func, index, hindex⟩, stmt, named, hstmt⟩ := dif_pos hstmt
  rw [build_of_lt kind hindex, hreturn]
  rfl

/-- A trigger is built exactly if the result exists and the statement belongs to its function. -/
lemma exists_build_iff : (∃ t, kind.build func index stmt named = .ok t) ↔
    index < func.results.length ∧ stmt.func = func.id := by
  constructor
  · rintro ⟨t, ht⟩
    by_cases hindex : index < func.results.length
    · by_cases hstmt : stmt.func = func.id
      · exact ⟨hindex, hstmt⟩
      · rw [build_of_ne kind hindex hstmt] at ht
        cases ht
    · rw [build_of_le kind (Nat.not_lt.mp hindex)] at ht
      cases ht
  · rintro ⟨hindex, hstmt⟩
    exact ⟨_, build_of_eq kind hindex hstmt⟩

end ReturnKind

namespace Index

variable {p : Program} {order : Shuffle ReturnStmt} {ix : Index}

/-- Every return statement of an index has its function there. -/
lemma exists_owner (hix : p.index order = .ok ix) {s : ReturnStmt} (hs : ix.Gives .stmt s) :
    ∃ owner, ix.func s.func = .ok owner := by
  have hmem : s ∈ p.returns := hs.mem_entries hix
  obtain ⟨owner, howner, hid⟩ := List.mem_map.mp ((Program.sound_of_index hix).owned s hmem)
  exact ⟨owner, ((Program.answers_of_index hix .func).found _ _).mpr ⟨howner, hid⟩⟩

/-- Of the functions of an index, the one with an id is the one that the id resolves to. -/
lemma Gives.eq_iff_of_func {owner : FuncDecl} (hix : p.index order = .ok ix) {id : FuncId}
    (howner : ix.func id = .ok owner) {f : FuncDecl} (hf : ix.Gives .func f) :
    f = owner ↔ id = f.id := by
  have hid : owner.id = id := (((Program.answers_of_index hix .func).found _ _).mp howner).2
  constructor
  · rintro rfl
    exact hid.symm
  · intro h
    exact hf.eq_of_id_eq hix (.func howner) (h.symm.trans hid.symm)

/-- Return triggers attach to exactly one function of a program.  The function of a return statement
resolves to one function of the index.  A trigger of each of the four kinds is built for a result of
a function of the index and that statement exactly if the function has such a result and is that
one.  If it has no such result, the error says so, whatever the statement is; and otherwise, for
another function, the error names the statement and the function. -/
theorem returns_attach_to_owner (p : Program) (order : Shuffle ReturnStmt) (ix : Index)
    (hix : p.index order = .ok ix) (s : ReturnStmt) (hs : ix.Gives .stmt s) :
    ∃! owner, ix.func s.func = .ok owner ∧
      ∀ f, ix.Gives .func f → ∀ (kind : ReturnKind) (n : Nat) (named : Bool),
        ((∃ t, kind.build f n s named = .ok t) ↔ n < f.results.length ∧ f = owner) ∧
        (f.results.length ≤ n → kind.build f n s named =
          .error (.site (.resultOutOfRange f.name n f.results.length))) ∧
        (n < f.results.length → f ≠ owner → kind.build f n s named =
          .error (.trigger (.foreignReturn s.id f.name))) := by
  obtain ⟨owner, howner⟩ := exists_owner hix hs
  refine ⟨owner, ⟨howner, ?_⟩, ?_⟩
  · intro f hf kind n named
    have hown : f = owner ↔ s.func = f.id := hf.eq_iff_of_func hix howner
    refine ⟨?_, kind.build_of_le, ?_⟩
    · rw [kind.exists_build_iff, hown]
    · intro hn hne
      exact kind.build_of_ne hn (mt hown.mpr hne)
  · rintro owner' ⟨howner', -⟩
    exact Except.ok.inj (howner'.symm.trans howner)

/-- Two functions of the same name.  The statement belongs to the second one, which has one result;
for the first one, which has two, a third result is missing before the statement is foreign. -/
theorem returns_attach_of_namesakes :
    let get : FuncDecl :=
      { FuncDecl.plain ⟨1⟩ "Get" with results := [⟨"", "*User"⟩, ⟨"err", "error"⟩] }
    let cached : FuncDecl :=
      { FuncDecl.plain ⟨2⟩ "Get" with receiver := some "Cache", results := [⟨"user", "*User"⟩] }
    let s : ReturnStmt := ⟨⟨9⟩, ⟨2⟩, .point "cache.go" 14 2⟩
    let p : Program := { Program.empty with funcs := [get, cached], returns := [s] }
    ∃ ix, p.index .asInserted = .ok ix ∧
      ix.Gives .stmt s ∧ ix.Gives .func get ∧ ix.Gives .func cached ∧
      (∃ t, ReturnKind.useAsReturn.build cached 0 s true = .ok t) ∧
      ReturnKind.useAsErrorResult.build get 1 s false =
        .error (.trigger (.foreignReturn ⟨9⟩ "Get")) ∧
      ReturnKind.useAsErrorResult.build get 2 s false =
        .error (.site (.resultOutOfRange "Get" 2 2)) := by
  intro get cached s p
  obtain ⟨ix, hix, hnine, hone, htwo⟩ : ∃ ix, p.index .asInserted = .ok ix ∧
      ix.returnStmt ⟨9⟩ = .ok s ∧ ix.func ⟨1⟩ = .ok get ∧ ix.func ⟨2⟩ = .ok cached :=
    ⟨_, rfl, rfl, rfl, rfl⟩
  have hs : ix.Gives .stmt s := .returnStmt hnine
  have hget : ix.Gives .func get := .func hone
  have hcached : ix.Gives .func cached := .func htwo
  obtain ⟨owner, ⟨howner, hbuild⟩, -⟩ := returns_attach_to_owner p .asInserted ix hix s hs
  obtain rfl : cached = owner := Except.ok.inj (htwo.symm.trans howner)
  have hne : get ≠ cached := by decide
  refine ⟨ix, hix, hs, hget, hcached, ?_, ?_, ?_⟩
  · exact (hbuild cached hcached .useAsReturn 0 true).1.mpr ⟨by decide, rfl⟩
  · exact (hbuild get hget .useAsErrorResult 1 false).2.2 (by decide) hne
  · exact (hbuild get hget .useAsErrorResult 2 false).2.1 (by decide)

end Index

end NilFlow
