import NilFlow.Toml.Reader

/-!
# TOML tables

The lines of a text build up one table of tables. No key is given twice and no table is defined
twice: how a table came about (`Standing`) decides what may still be added to it. `read?` gives the
finished table, or `none` if the text is not TOML.
-/

namespace NilFlow.Toml

/-- How a table came about. -/
inductive Standing where
  /-- By its own header, or as the root. -/
  | header
  /-- On the way to a table with a header. -/
  | implied
  /-- On the way of a key with several names. -/
  | dotted
  /-- Written as a value; nothing can be added. -/
  | inline
  deriving DecidableEq

/-- A value in its table. -/
inductive Node where
  | scalar (s : Scalar)
  | array (items : List Node)
  /-- An array of tables with headers, at least one. -/
  | tables (elements : List (List (String × Node)))
  | table (standing : Standing) (entries : List (String × Node))

/-- The entries of a table, in the order of their definition. -/
abbrev Entries := List (String × Node)

namespace Entries

/-- The value of a key. -/
def get? (es : Entries) (key : String) : Option Node :=
  (es.find? (·.1 == key)).map (·.2)

/-- Changes or adds the value of a key; `none` where that is not allowed. -/
def alter? (key : String) (f : Option Node → Option Node) : Entries → Option Entries
  | [] => (f none).map fun n => [(key, n)]
  | (k, n) :: es =>
    if k = key then (f (some n)).map fun n => (k, n) :: es
    else (alter? key f es).map ((k, n) :: ·)

/-- Changes the last of several tables. -/
def alterLast? (f : Entries → Option Entries) : List Entries → Option (List Entries)
  | [] => none
  | [es] => (f es).map ([·])
  | es :: rest => (alterLast? f rest).map (es :: ·)

/-- Changes the table that a header path leads to. Tables on the way are made if missing, and of an
array of tables the last element is meant. -/
def within? (f : Entries → Option Entries) : List String → Entries → Option Entries
  | [], es => f es
  | k :: ks, es =>
    es.alter? k fun
      | none => (within? f ks []).map (.table .implied)
      | some (.table .inline _) => none
      | some (.table standing es) => (within? f ks es).map (.table standing)
      | some (.tables elements) => (alterLast? (within? f ks) elements).map .tables
      | some _ => none

/-- Assigns a value to a key. The tables on its way are made if missing; others can be passed only
if no header and no value defined them, and of an array of tables the last element is meant. The
last one has to be of such keys' own making. -/
def assign? (v : Node) : List String → Entries → Option Entries
  | [], _ => none
  | [k], es => es.alter? k fun
    | none => some v
    | some _ => none
  | k :: ks, es =>
    es.alter? k fun
      | none => (assign? v ks []).map (.table .dotted)
      | some (.table .dotted es) => (assign? v ks es).map (.table .dotted)
      | some (.table .implied es) =>
        if 2 ≤ ks.length then (assign? v ks es).map (.table .implied) else none
      | some (.tables elements) =>
        if 2 ≤ ks.length then (alterLast? (assign? v ks) elements).map .tables else none
      | some _ => none

/-- Defines the table of a header. -/
def openTable? (path : List String) (es : Entries) : Option Entries := do
  let key ← path.getLast?
  within? (alter? key fun
    | none => some (.table .header [])
    | some (.table .implied es) => some (.table .header es)
    | some _ => none) path.dropLast es

/-- Adds an element to an array of tables. -/
def openElement? (path : List String) (es : Entries) : Option Entries := do
  let key ← path.getLast?
  within? (alter? key fun
    | none => some (.tables [[]])
    | some (.tables elements) => some (.tables (elements ++ [[]]))
    | some _ => none) path.dropLast es

end Entries

mutual

/-- Whether every number in a value stands for one. -/
def Node.isValued : Node → Bool
  | .scalar s => s.isValued
  | .array items => Node.allValued items
  | .tables elements => Entries.allValued elements
  | .table _ entries => Entries.isValued entries

/-- Whether every number in several values stands for one. -/
def Node.allValued : List Node → Bool
  | [] => true
  | n :: ns => n.isValued && Node.allValued ns

/-- Whether every number in a table stands for one. -/
def Entries.isValued : List (String × Node) → Bool
  | [] => true
  | (_, n) :: es => n.isValued && Entries.isValued es

/-- Whether every number in several tables stands for one. -/
def Entries.allValued : List (List (String × Node)) → Bool
  | [] => true
  | es :: rest => Entries.isValued es && Entries.allValued rest

end

mutual

/-- The value of a term. -/
def Term.resolve? : Term → Option Node
  | .scalar s => some (.scalar s)
  | .array items => items.resolve?.map .array
  | .table bindings => (bindings.resolve? []).map (.table .inline)

/-- The values of the elements of an array. -/
def Terms.resolve? : Terms → Option (List Node)
  | .nil => some []
  | .cons t rest => do
    let n ← t.resolve?
    let ns ← rest.resolve?
    return n :: ns

/-- The entries of an inline table, added to those before. -/
def Bindings.resolve? : Bindings → Entries → Option Entries
  | .nil, es => some es
  | .cons path t rest, es => do
    let n ← t.resolve?
    let es ← es.assign? n path
    rest.resolve? es

end

/-- A root table being built, and the header path of the table that assignments go to. -/
structure Builder where
  root : Entries
  current : List String

/-- Takes one line. -/
def Builder.add? (b : Builder) : Line → Option Builder
  | .assign path t => do
    let n ← t.resolve?
    let root ← b.root.within? (Entries.assign? n path) b.current
    return { b with root }
  | .header path => do
    let root ← b.root.openTable? path
    return ⟨root, path⟩
  | .arrayHeader path => do
    let root ← b.root.openElement? path
    return ⟨root, path⟩

/-- The root table of a text. -/
def read? (text : String) : Option Entries := do
  let lines ← Line.readAll? text
  let b ← lines.foldlM Builder.add? ⟨[], []⟩
  return b.root

end NilFlow.Toml
