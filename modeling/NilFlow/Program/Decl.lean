/-!
# Declarations and expressions of one Go package

Every entry carries a stable id, and two entries name the same program entity when their ids agree,
whatever their other fields say. Ids of different tables have different types. The tables of a
package form a `Program`.
-/

namespace NilFlow

/-- The tables of a program. -/
inductive Table where
  | func
  | field
  | var
  | type
  | stmt
  | expr
  deriving DecidableEq

/-- What an entry of the table is called in messages. -/
def Table.noun : Table → String
  | .func => "function"
  | .field => "field"
  | .var => "variable"
  | .type => "type"
  | .stmt => "return statement"
  | .expr => "expression"

/-- The id of an entry of one table. -/
structure Id (table : Table) where
  raw : UInt32
  deriving DecidableEq

/-- The id in decimal digits. -/
def Id.text {table : Table} (id : Id table) : String :=
  toString id.raw.toNat

/-- Ids of functions. -/
abbrev FuncId := Id .func

/-- Ids of fields. -/
abbrev FieldId := Id .field

/-- Ids of variables. -/
abbrev VarId := Id .var

/-- Ids of types. -/
abbrev TypeId := Id .type

/-- Ids of return statements. -/
abbrev StmtId := Id .stmt

/-- Ids of expressions. -/
abbrev ExprId := Id .expr

/-- A stretch of source text, from its first character to just past its last. -/
structure Span where
  file : String
  startLine : UInt32
  startCol : UInt32
  endLine : UInt32
  endCol : UInt32
  deriving DecidableEq

namespace Span

/-- A single point. -/
def point (file : String) (line col : UInt32) : Span :=
  ⟨file, line, col, line, col⟩

/-- From one `(line, column)` to another. -/
def range (file : String) (start stop : UInt32 × UInt32) : Span :=
  ⟨file, start.1, start.2, stop.1, stop.2⟩

/-- `line:column`. -/
def placeText (line col : UInt32) : String :=
  toString line.toNat ++ ":" ++ toString col.toNat

/-- Where the span starts. -/
def startText (s : Span) : String :=
  placeText s.startLine s.startCol

/-- Where the span ends. -/
def endText (s : Span) : String :=
  placeText s.endLine s.endCol

/-- The file and where the span starts in it. -/
def text (s : Span) : String :=
  s.file ++ ":" ++ s.startText

end Span

/-- A parameter or result of a signature. Unnamed slots have an empty name. -/
structure Slot where
  name : String
  typeName : String
  deriving DecidableEq

/-- Unnamed and blank (`_`) slots have no usable name. -/
def Slot.isNamed (s : Slot) : Bool :=
  s.name ≠ "" && s.name ≠ "_"

/-- A function, or a method of its receiver's type. -/
structure FuncDecl where
  id : FuncId
  name : String
  package : String
  receiver : Option String
  params : List Slot
  results : List Slot
  variadic : Bool
  deriving DecidableEq

namespace FuncDecl

/-- A function without package, parameters and results. -/
def plain (id : FuncId) (name : String) : FuncDecl where
  id := id
  name := name
  package := ""
  receiver := none
  params := []
  results := []
  variadic := false

/-- The function in a package. -/
def inPackage (f : FuncDecl) (package : String) : FuncDecl :=
  { f with package }

/-- The function as a method of a type. -/
def withReceiver (f : FuncDecl) (receiver : String) : FuncDecl :=
  { f with receiver := some receiver }

/-- The function with other parameters. -/
def withParams (f : FuncDecl) (params : List Slot) : FuncDecl :=
  { f with params }

/-- The function with other results. -/
def withResults (f : FuncDecl) (results : List Slot) : FuncDecl :=
  { f with results }

/-- The function with its last parameter taking all further arguments. -/
def asVariadic (f : FuncDecl) : FuncDecl :=
  { f with variadic := true }

/-- Whether it is a method. -/
def isMethod (f : FuncDecl) : Bool :=
  f.receiver.isSome

/-- The name with the receiver's type before it, or else with the package before it if there is
one. -/
def qualifiedName (f : FuncDecl) : String :=
  match f.receiver with
  | some r => r ++ "." ++ f.name
  | none => if f.package = "" then f.name else f.package ++ "." ++ f.name

end FuncDecl

/-- A field of the struct type `owner`. -/
structure FieldDecl where
  id : FieldId
  name : String
  owner : String
  deriving DecidableEq

/-- A variable, of the package or local to a function. -/
structure VarDecl where
  id : VarId
  name : String
  isGlobal : Bool
  deriving DecidableEq

/-- A named type. -/
structure TypeDecl where
  id : TypeId
  name : String
  deriving DecidableEq

/-- A `return` of the function `func`. -/
structure ReturnStmt where
  id : StmtId
  func : FuncId
  span : Span
  deriving DecidableEq

/-- The form of an expression. -/
inductive ExprKind where
  | ident
  | selector
  | call
  | index
  | slice
  | star
  | unary
  | binary
  | compositeLit
  | funcLit
  | typeAssert
  | paren
  | basicLit
  | keyValue
  | unknown
  deriving DecidableEq

namespace ExprKind

/-- Every form, the unknown one last. -/
def all : List ExprKind :=
  [.ident, .selector, .call, .index, .slice, .star, .unary, .binary, .compositeLit, .funcLit,
    .typeAssert, .paren, .basicLit, .keyValue, .unknown]

/-- The name of the form in program texts. -/
def name : ExprKind → String
  | .ident => "Ident"
  | .selector => "Selector"
  | .call => "Call"
  | .index => "Index"
  | .slice => "Slice"
  | .star => "Star"
  | .unary => "Unary"
  | .binary => "Binary"
  | .compositeLit => "CompositeLit"
  | .funcLit => "FuncLit"
  | .typeAssert => "TypeAssert"
  | .paren => "Paren"
  | .basicLit => "BasicLit"
  | .keyValue => "KeyValue"
  | .unknown => "Unknown"

/-- The form of a name; names that are not known stand for the unknown form. -/
def ofName (s : String) : ExprKind :=
  (all.find? (·.name == s)).getD .unknown

/-- The name of the form in reports. -/
def text : ExprKind → String
  | .ident => "Ident"
  | .selector => "SelectorExpr"
  | .call => "CallExpr"
  | .index => "IndexExpr"
  | .slice => "SliceExpr"
  | .star => "StarExpr"
  | .unary => "UnaryExpr"
  | .binary => "BinaryExpr"
  | .compositeLit => "CompositeLit"
  | .funcLit => "FuncLit"
  | .typeAssert => "TypeAssertExpr"
  | .paren => "ParenExpr"
  | .basicLit => "BasicLit"
  | .keyValue => "KeyValueExpr"
  | .unknown => "Expr"

end ExprKind

/-- An expression. -/
structure Expr where
  id : ExprId
  kind : ExprKind
  span : Span
  deriving DecidableEq

/-- The tables of one package. -/
structure Program where
  package : String
  funcs : List FuncDecl
  fields : List FieldDecl
  vars : List VarDecl
  types : List TypeDecl
  returns : List ReturnStmt
  exprs : List Expr
  deriving DecidableEq

/-- No declarations at all. -/
def Program.empty : Program :=
  ⟨"", [], [], [], [], [], []⟩

end NilFlow
