import NilFlow.Proofs.Indexing

/-!
# Functions by name

A function is looked up by its qualified name, and the answer depends on which functions of the
program have the name: none, one or several (`answer_cases`).  Names are qualified in three ways, so
they may collide across methods, functions of a package and functions without one; no assumption is
made about that.

The functions of an index come in no order that a look-up could rely on.  The search through them
stops at the first match and then counts those that follow.  It gives the answer for all matches
(`findNamed_eq`), and that does not depend on their order (`answer_eq_of_perm`).  So the answer is
that for the functions of the program (`Index.funcNamed_eq`).  A program stays sound if its
functions are listed in another order (`Sound.of_perm`), so the table may be rearranged as well.
-/

namespace NilFlow

/-- No method has its bare name as its qualified name: the latter is longer. -/
lemma FuncDecl.qualifiedName_ne_name {f : FuncDecl} (h : f.isMethod = true) :
    f.qualifiedName ≠ f.name := by
  unfold isMethod at h
  obtain ⟨receiver, hreceiver⟩ := Option.isSome_iff_exists.mp h
  have hname : f.qualifiedName = receiver ++ "." ++ f.name := by
    unfold qualifiedName
    rw [hreceiver]
  intro heq
  have hlength : (receiver ++ "." ++ f.name).length = f.name.length := by
    rw [← hname, heq]
  rw [String.length_append, String.length_append] at hlength
  have hdot : ".".length = 1 := rfl
  omega

/-! ### The functions that have a name -/

/-- The functions of a list that have a name. -/
def namesakes (name : String) (fs : List FuncDecl) : List FuncDecl :=
  fs.filter (·.qualifiedName = name)

/-- The answer to a look-up if these functions have the name. -/
def answer (name : String) : List FuncDecl → Except IndexError (Option FuncDecl)
  | [] => .ok none
  | [f] => .ok (some f)
  | fs => .error (.ambiguousName name fs.length)

section Matches

variable {name : String} {fs gs : List FuncDecl} {f : FuncDecl}

/-- A function is a match if it is one of the list and has the name. -/
lemma mem_namesakes : f ∈ namesakes name fs ↔ f ∈ fs ∧ f.qualifiedName = name := by
  rw [namesakes, List.mem_filter, decide_eq_true_iff]

/-- There are none, one, or more matches. -/
lemma answer_cases (name : String) (fs : List FuncDecl) :
    (fs = [] ∧ answer name fs = .ok none) ∨ (∃ f, fs = [f] ∧ answer name fs = .ok (some f)) ∨
      (2 ≤ fs.length ∧ answer name fs = .error (.ambiguousName name fs.length)) := by
  match fs with
  | [] => exact .inl ⟨rfl, rfl⟩
  | [f] => exact .inr (.inl ⟨f, rfl, rfl⟩)
  | f :: g :: fs => exact .inr (.inr ⟨Nat.le_add_left 2 fs.length, rfl⟩)

/-- No function is given exactly if there is no match. -/
lemma answer_eq_none_iff : answer name fs = .ok none ↔ fs = [] := by
  rcases answer_cases name fs with ⟨rfl, hanswer⟩ | ⟨g, rfl, hanswer⟩ | ⟨hfs, hanswer⟩
  · simp [hanswer]
  · simp [hanswer]
  · have hne : fs ≠ [] := by
      rintro rfl
      exact Nat.not_lt_zero 1 hfs
    simp [hanswer, hne]

/-- A function is given exactly if it is the only match. -/
lemma answer_eq_some_iff : answer name fs = .ok (some f) ↔ fs = [f] := by
  rcases answer_cases name fs with ⟨rfl, hanswer⟩ | ⟨g, rfl, hanswer⟩ | ⟨hfs, hanswer⟩
  · simp [hanswer]
  · simp [hanswer]
  · have hne : fs ≠ [f] := by
      rintro rfl
      exact Nat.lt_irrefl 1 hfs
    simp [hanswer, hne]

/-- The look-up fails exactly if there are several matches, and tells how many. -/
lemma answer_eq_error_iff {e : IndexError} :
    answer name fs = .error e ↔ 2 ≤ fs.length ∧ e = .ambiguousName name fs.length := by
  rcases answer_cases name fs with ⟨rfl, hanswer⟩ | ⟨g, rfl, hanswer⟩ | ⟨hfs, hanswer⟩
  · simp [hanswer]
  · simp [hanswer]
  · rw [hanswer, Except.error.injEq, eq_comm]
    exact ⟨fun he => ⟨hfs, he⟩, And.right⟩

/-- The order of the matches does not matter. -/
lemma answer_eq_of_perm (h : fs.Perm gs) : answer name fs = answer name gs := by
  rcases answer_cases name fs with ⟨rfl, hanswer⟩ | ⟨f, rfl, hanswer⟩ | ⟨hfs, hanswer⟩
  · rw [h.nil_eq]
  · rw [h.singleton_eq]
  · have hgs : 2 ≤ gs.length := h.length_eq ▸ hfs
    rw [hanswer, eq_comm, answer_eq_error_iff]
    exact ⟨hgs, by rw [h.length_eq]⟩

end Matches

/-- A list without repetitions has one entry exactly if it has that entry and no other. -/
lemma eq_singleton_iff_of_nodup {α : Type} {as : List α} {a : α} (h : as.Nodup) :
    as = [a] ↔ a ∈ as ∧ ∀ b ∈ as, b = a := by
  rw [← List.perm_singleton, List.perm_ext_iff_of_nodup h (List.nodup_singleton a)]
  simp only [List.mem_singleton]
  constructor
  · intro hmem
    exact ⟨(hmem a).mpr rfl, fun b hb => (hmem b).mp hb⟩
  · rintro ⟨ha, hall⟩ b
    exact ⟨hall b, fun hb => hb ▸ ha⟩

/-! ### Searching in some order -/

/-- The search gives the answer for all matches, though it looks at the first one and only counts
the others. -/
lemma findNamed_eq (name : String) (order : List FuncDecl) :
    findNamed name order = answer name (namesakes name order) := by
  induction order with
  | nil => rfl
  | cons f rest ih =>
    unfold findNamed
    by_cases hf : f.qualifiedName = name
    · have hcons : namesakes name (f :: rest) = f :: namesakes name rest :=
        List.filter_cons_of_pos (decide_eq_true hf)
      have hcount : rest.countP (·.qualifiedName = name) = (namesakes name rest).length :=
        List.countP_eq_length_filter
      rw [if_pos hf, hcons, hcount]
      -- `f` is the first match, so all that is left to know is whether it is the only one.
      cases namesakes name rest with
      | nil => rfl
      | cons g others => rfl
    · have hcons : namesakes name (f :: rest) = namesakes name rest :=
        List.filter_cons_of_neg (by simpa using hf)
      rw [if_neg hf, hcons, ih]

/-- In whatever order the functions come, the search gives the same answer. -/
lemma findNamed_eq_of_perm {order fs : List FuncDecl} (h : order.Perm fs) (name : String) :
    findNamed name order = answer name (namesakes name fs) := by
  rw [findNamed_eq]
  exact answer_eq_of_perm (h.filter _)

namespace Index

variable {p : Program} {returns : Shuffle ReturnStmt} {ix : Index}

/-- In whatever order an index is searched, a look-up gives the answer for the functions of the
program that have the name. -/
lemma funcNamed_eq (hix : p.index returns = .ok ix) (order : Shuffle FuncDecl) (name : String) :
    ix.funcNamed order name = answer name (namesakes name p.funcs) := by
  have hvalues : ix.funcs.values = p.funcs := Program.values_of_index hix .func
  have hperm : (order.arrange ix.funcs.values).Perm p.funcs := hvalues ▸ order.perm _
  exact findNamed_eq_of_perm hperm name

/-- A function that is found by a name is one of the functions that have it. -/
lemma mem_namesakes_of_funcNamed (hix : p.index returns = .ok ix) {order : Shuffle FuncDecl}
    {name : String} {f : FuncDecl} (h : ix.funcNamed order name = .ok (some f)) :
    f ∈ namesakes name p.funcs := by
  rw [funcNamed_eq hix, answer_eq_some_iff] at h
  rw [h]
  exact List.mem_singleton_self f

end Index

/-! ### Rearranged programs -/

namespace Program

variable {p : Program}

/-- A sound program stays sound if its functions are listed in another order. -/
lemma Sound.of_perm (h : p.Sound) {fs : List FuncDecl} (hperm : fs.Perm p.funcs) :
    Sound { p with funcs := fs } where
  unique
    | .func => (hperm.map _).nodup_iff.mpr (h.unique .func)
    | .field => h.unique .field
    | .var => h.unique .var
    | .type => h.unique .type
    | .stmt => h.unique .stmt
    | .expr => h.unique .expr
  owned s hs := (hperm.map _).mem_iff.mpr (h.owned s hs)

end Program

/-- Look-up by name is exact.  Nothing is found exactly if no function of the program has the
qualified name, a function is found exactly if it is the only one that has it, and otherwise the
look-up fails and tells how many have it.  The answer is the same if the functions of the program
are listed in any other order, and if they are searched in any order.  A method is never found by
its bare name. -/
theorem Index.funcNamed_exact (p : Program) (returns : Shuffle ReturnStmt) (ix : Index)
    (hix : p.index returns = .ok ix) (order : Shuffle FuncDecl) (name : String) :
    (ix.funcNamed order name = .ok none ↔ ∀ f ∈ p.funcs, f.qualifiedName ≠ name) ∧
    (∀ f, ix.funcNamed order name = .ok (some f) ↔
      f ∈ p.funcs ∧ f.qualifiedName = name ∧ ∀ g ∈ p.funcs, g.qualifiedName = name → g = f) ∧
    (∀ e, ix.funcNamed order name = .error e ↔
      2 ≤ p.funcs.countP (·.qualifiedName = name) ∧
        e = .ambiguousName name (p.funcs.countP (·.qualifiedName = name))) ∧
    (∀ fs, fs.Perm p.funcs → ∀ returns' order',
      ∃ ix', Program.index { p with funcs := fs } returns' = .ok ix' ∧
        ix'.funcNamed order' name = ix.funcNamed order name) ∧
    (∀ order', ix.funcNamed order' name = ix.funcNamed order name) ∧
    (∀ fs, fs.Perm p.funcs → findNamed name fs = ix.funcNamed order name) ∧
    ∀ f, f.isMethod = true → ix.funcNamed order f.name ≠ .ok (some f) := by
  have hsound := Program.sound_of_index hix
  have hcount : p.funcs.countP (·.qualifiedName = name) = (namesakes name p.funcs).length :=
    List.countP_eq_length_filter
  have hnodup : (namesakes name p.funcs).Nodup :=
    (List.Nodup.of_map _ (hsound.unique .func)).filter _
  rw [funcNamed_eq hix]
  refine ⟨?_, fun f => ?_, fun e => ?_, ?_, ?_, ?_, ?_⟩
  · rw [answer_eq_none_iff, List.eq_nil_iff_forall_not_mem]
    simp only [mem_namesakes, not_and]
  · rw [answer_eq_some_iff, eq_singleton_iff_of_nodup hnodup]
    simp only [mem_namesakes, and_imp, and_assoc]
  · rw [answer_eq_error_iff, hcount]
  · intro fs hperm returns' order'
    obtain ⟨ix', hix'⟩ := (hsound.of_perm hperm).exists_index returns'
    refine ⟨ix', hix', ?_⟩
    rw [funcNamed_eq hix']
    exact answer_eq_of_perm (hperm.filter _)
  · intro order'
    rw [funcNamed_eq hix]
  · intro fs hperm
    exact findNamed_eq_of_perm hperm name
  · intro f hmethod hfound
    have hmem := mem_namesakes_of_funcNamed hix hfound
    exact f.qualifiedName_ne_name hmethod (mem_namesakes.mp hmem).2

/-- A method, a function of a package and a function without one share a qualified name, each in its
own way.  All three are counted, whichever comes first, and none of them is found by the bare name
of the method. -/
theorem Index.funcNamed_exact_of_namesakes :
    let method : FuncDecl := { FuncDecl.plain ⟨1⟩ "Write" with receiver := some "File" }
    let packaged : FuncDecl := { FuncDecl.plain ⟨2⟩ "Write" with package := "File" }
    let dotted : FuncDecl := FuncDecl.plain ⟨3⟩ "File.Write"
    let p : Program := { Program.empty with funcs := [method, packaged, dotted] }
    ∃ ix, p.index .asInserted = .ok ix ∧
      (∀ order, ix.funcNamed order "File.Write" = .error (.ambiguousName "File.Write" 3)) ∧
      findNamed "File.Write" [dotted, method, packaged] = ix.funcNamed .asInserted "File.Write" ∧
      ix.funcNamed .asInserted "Write" = .ok none := by
  intro method packaged dotted p
  obtain ⟨ix, hix⟩ : ∃ ix, p.index .asInserted = .ok ix := ⟨_, rfl⟩
  have hcount : 2 ≤ p.funcs.countP (·.qualifiedName = "File.Write") ∧
      IndexError.ambiguousName "File.Write" 3 =
        .ambiguousName "File.Write" (p.funcs.countP (·.qualifiedName = "File.Write")) := by
    decide
  refine ⟨ix, hix, fun order => ?_, ?_, ?_⟩
  · obtain ⟨-, -, herror, -⟩ := funcNamed_exact p .asInserted ix hix order "File.Write"
    exact (herror _).mpr hcount
  · obtain ⟨-, -, -, -, -, horder, -⟩ :=
      funcNamed_exact p .asInserted ix hix .asInserted "File.Write"
    exact horder _ (by decide)
  · obtain ⟨hnone, -⟩ := funcNamed_exact p .asInserted ix hix .asInserted "Write"
    exact hnone.mpr (by decide)

end NilFlow
