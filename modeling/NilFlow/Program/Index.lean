import NilFlow.FiniteMap
import NilFlow.Program.Decl

/-!
# Indexed programs

`Program.index` puts the tables of a program into maps, each entry under its id, and gives them back
as an `Index`: ids are unique within each table, and every return statement belongs to a function of
the program. The values of a map come in no particular order, so whatever runs through all of them
is given an order.
-/

namespace NilFlow

/-- Why a program cannot be indexed, or a look-up fails. -/
inductive IndexError where
  | duplicateId (table : Table) (id : UInt32)
  | unknownId (table : Table) (id : UInt32)
  | ambiguousName (name : String) (count : Nat)
  deriving DecidableEq

/-- The wording of an index error. -/
def IndexError.message : IndexError → String
  | .duplicateId table id => "duplicate " ++ table.noun ++ " id " ++ toString id.toNat
  | .unknownId table id => "unknown " ++ table.noun ++ " id " ++ toString id.toNat
  | .ambiguousName name count => "name `" ++ name ++ "` matches " ++ toString count ++ " functions"

/-! ## Entries by id -/

/-- What a table lists. -/
abbrev Table.Entry : Table → Type
  | .func => FuncDecl
  | .field => FieldDecl
  | .var => VarDecl
  | .type => TypeDecl
  | .stmt => ReturnStmt
  | .expr => Expr

/-- The id of an entry. -/
def Table.idOf : (table : Table) → table.Entry → Id table
  | .func, f => f.id
  | .field, f => f.id
  | .var, v => v.id
  | .type, t => t.id
  | .stmt, s => s.id
  | .expr, e => e.id

/-- The entries of one table, in order. -/
def Program.entries (p : Program) : (table : Table) → List table.Entry
  | .func => p.funcs
  | .field => p.fields
  | .var => p.vars
  | .type => p.types
  | .stmt => p.returns
  | .expr => p.exprs

/-- Entries of a table, each under its id. -/
structure IdTable (table : Table) where
  map : FiniteMap (Id table) table.Entry
  keyed : ∀ e ∈ map.entries, table.idOf e.2 = e.1

namespace IdTable

variable {table : Table}

/-- No entries. -/
def empty : IdTable table := ⟨.empty, nofun⟩

/-- The entries, in the order in which they were put in. -/
def values (t : IdTable table) : List table.Entry :=
  t.map.values

/-- The number of entries. -/
def size (t : IdTable table) : Nat :=
  t.map.size

/-- Whether there is an entry with an id. -/
def contains (t : IdTable table) (id : Id table) : Bool :=
  t.map.contains id

/-- An entry that is put under its id leaves all entries under theirs. -/
theorem keyed_insert (t : IdTable table) (a : table.Entry) :
    ∀ e ∈ (t.map.insert (table.idOf a) a).entries, table.idOf e.2 = e.1 := by
  intro e he
  rcases FiniteMap.mem_entries_insert he with rfl | he
  · rfl
  · exact t.keyed e he

/-- The entry that had the id of another one, and the table with that one in its place. -/
def exchange (t : IdTable table) (a : table.Entry) : Option table.Entry × IdTable table :=
  let p := t.map.exchange (table.idOf a) a
  (p.1, ⟨p.2, t.keyed_insert a⟩)

/-- Puts entries into a table one after the other, until one of them displaces another. -/
def fill (t : IdTable table) : List table.Entry → Except IndexError (IdTable table)
  | [] => .ok t
  | a :: as =>
    match t.exchange a with
    | (some _, _) => .error (.duplicateId table (table.idOf a).raw)
    | (none, t) => t.fill as

/-- The entry with the given id. -/
def lookUp (t : IdTable table) (id : Id table) : Except IndexError table.Entry :=
  match t.map.get? id with
  | some a => .ok a
  | none => .error (.unknownId table id.raw)

end IdTable

/-! ## The index of a program -/

/-- The tables of a program, with their entries by id. -/
structure Tables where
  funcs : IdTable .func
  fields : IdTable .field
  vars : IdTable .var
  types : IdTable .type
  returns : IdTable .stmt
  exprs : IdTable .expr

/-- One of the tables. -/
def Tables.at (t : Tables) : (table : Table) → IdTable table
  | .func => t.funcs
  | .field => t.fields
  | .var => t.vars
  | .type => t.types
  | .stmt => t.returns
  | .expr => t.exprs

/-- Tables in which every return statement has its function. -/
structure Index extends Tables where
  owned : ∀ s ∈ returns.values, funcs.contains s.func = true

/-- Fills one table. -/
def Program.fillTable (p : Program) (table : Table) : Except IndexError (IdTable table) :=
  IdTable.empty.fill (p.entries table)

/-- Fills the tables, one after the other. -/
def Program.tables (p : Program) : Except IndexError Tables := do
  let funcs ← p.fillTable .func
  let fields ← p.fillTable .field
  let vars ← p.fillTable .var
  let types ← p.fillTable .type
  let returns ← p.fillTable .stmt
  let exprs ← p.fillTable .expr
  return { funcs, fields, vars, types, returns, exprs }

/-- In whatever order no return statement is found that lacks its function, all have theirs. -/
theorem Tables.owned_of_find?_eq_none {t : Tables} {order : Shuffle ReturnStmt}
    (h : (order.arrange t.returns.values).find? (fun s => !t.funcs.contains s.func) = none) :
    ∀ s ∈ t.returns.values, t.funcs.contains s.func = true := by
  intro s hs
  have hmem : s ∈ order.arrange t.returns.values := (order.perm _).mem_iff.2 hs
  simpa using List.find?_eq_none.1 h s hmem

/-- Runs through the return statements in an order, until one of them lacks its function. -/
def Tables.checkOwners (t : Tables) (order : Shuffle ReturnStmt) : Except IndexError Index :=
  match h : (order.arrange t.returns.values).find? (fun s => !t.funcs.contains s.func) with
  | some s => .error (.unknownId .func s.func.raw)
  | none => .ok ⟨t, owned_of_find?_eq_none h⟩

/-- Indexes a program. The owners of returns are checked last, in some order of the returns. -/
def Program.index (p : Program) (order : Shuffle ReturnStmt) : Except IndexError Index := do
  let tables ← p.tables
  tables.checkOwners order

/-- The search for a name through functions that come in some order: it takes the first match,
unless there are others after it. -/
def findNamed (name : String) : List FuncDecl → Except IndexError (Option FuncDecl)
  | [] => .ok none
  | f :: rest =>
    if f.qualifiedName = name then
      let others := rest.countP (·.qualifiedName = name)
      if 0 < others then .error (.ambiguousName name (others + 1)) else .ok (some f)
    else findNamed name rest

namespace Index

/-- The function with the given id. -/
def func (ix : Index) (id : FuncId) : Except IndexError FuncDecl :=
  ix.funcs.lookUp id

/-- The field with the given id. -/
def field (ix : Index) (id : FieldId) : Except IndexError FieldDecl :=
  ix.fields.lookUp id

/-- The variable with the given id. -/
def var (ix : Index) (id : VarId) : Except IndexError VarDecl :=
  ix.vars.lookUp id

/-- The type with the given id. -/
def typeDecl (ix : Index) (id : TypeId) : Except IndexError TypeDecl :=
  ix.types.lookUp id

/-- The return statement with the given id. -/
def returnStmt (ix : Index) (id : StmtId) : Except IndexError ReturnStmt :=
  ix.returns.lookUp id

/-- The expression with the given id. -/
def expr (ix : Index) (id : ExprId) : Except IndexError Expr :=
  ix.exprs.lookUp id

/-- The function with the given qualified name, if there is just one. The functions are searched in
some order. -/
def funcNamed (ix : Index) (order : Shuffle FuncDecl) (name : String) :
    Except IndexError (Option FuncDecl) :=
  findNamed name (order.arrange ix.funcs.values)

/-- The number of functions. -/
def funcCount (ix : Index) : Nat :=
  ix.funcs.size

/-- The number of expressions. -/
def exprCount (ix : Index) : Nat :=
  ix.exprs.size

end Index

end NilFlow
