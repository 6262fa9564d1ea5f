import NilFlow.Json.Schema
import NilFlow.Program.Decl

/-!
# Programs as JSON

Each entry of a table is a record whose fields stand in the order of its schema. A form of
expression is written as its name; it is also read from an object whose only key is the name and
whose value is `null`.
-/

namespace NilFlow

/-- Ids, as bare numbers. -/
def Id.codec {table : Table} : Codec (Id table) :=
  Codec.word32.imap Id.mk Id.raw

namespace Span

/-- The fields of a span; the end may be left out. -/
def schema : Schema (String × UInt32 × UInt32 × UInt32 × UInt32 × Unit) :=
  .required "file" .text <| .required "start_line" .word32 <| .required "start_col" .word32 <|
    .optional "end_line" .word32 0 <| .optional "end_col" .word32 0 .nil

/-- Spans. -/
def codec : Codec Span :=
  schema.record "Span" (fun (file, l, c, l', c', ()) => ⟨file, l, c, l', c'⟩)
    fun s => (s.file, s.startLine, s.startCol, s.endLine, s.endCol, ())

/-- The parts of a place. -/
def placeSchema : Schema (UInt32 × UInt32 × Unit) :=
  .required "line" .word32 <| .required "column" .word32 .nil

/-- Places in a file, as pairs of a line and a column. -/
def place : Codec (UInt32 × UInt32) where
  decode
    | .array items => do
      let (line, col, ()) ← placeSchema.ofItems (.tuple 2) items
      return (line, col)
    | v => .error (v.unexpected (.tuple 2))
  encode p := .ofItems [Codec.word32.encode p.1, Codec.word32.encode p.2]

end Span

namespace Slot

/-- The fields of a slot; the name may be left out. -/
def schema : Schema (String × String × Unit) :=
  .optional "name" .text "" <| .required "type_name" .text .nil

/-- Slots of signatures. -/
def codec : Codec Slot :=
  schema.record "Slot" (fun (name, type, ()) => ⟨name, type⟩) fun s => (s.name, s.typeName, ())

end Slot

namespace FuncDecl

/-- The fields of a function; only id and name have to be given. -/
def schema :
    Schema (FuncId × String × String × Option String × List Slot × List Slot × Bool × Unit) :=
  .required "id" Id.codec <| .required "name" .text <| .optional "package" .text "" <|
    .optional "receiver" (.option .text) none <| .optional "params" (.list Slot.codec) [] <|
      .optional "results" (.list Slot.codec) [] <| .optional "variadic" .bool false .nil

/-- Functions and methods. -/
def codec : Codec FuncDecl :=
  schema.record "FuncDecl"
    (fun (id, name, package, receiver, params, results, variadic, ()) =>
      ⟨id, name, package, receiver, params, results, variadic⟩)
    fun f => (f.id, f.name, f.package, f.receiver, f.params, f.results, f.variadic, ())

end FuncDecl

namespace FieldDecl

/-- The fields of a struct field; the owner may be left out. -/
def schema : Schema (FieldId × String × String × Unit) :=
  .required "id" Id.codec <| .required "name" .text <| .optional "owner" .text "" .nil

/-- Struct fields. -/
def codec : Codec FieldDecl :=
  schema.record "FieldDecl" (fun (id, name, owner, ()) => ⟨id, name, owner⟩)
    fun f => (f.id, f.name, f.owner, ())

end FieldDecl

namespace VarDecl

/-- The fields of a variable; it is local unless it says otherwise. -/
def schema : Schema (VarId × String × Bool × Unit) :=
  .required "id" Id.codec <| .required "name" .text <| .optional "is_global" .bool false .nil

/-- Variables. -/
def codec : Codec VarDecl :=
  schema.record "VarDecl" (fun (id, name, isGlobal, ()) => ⟨id, name, isGlobal⟩)
    fun v => (v.id, v.name, v.isGlobal, ())

end VarDecl

namespace TypeDecl

/-- The fields of a named type. -/
def schema : Schema (TypeId × String × Unit) :=
  .required "id" Id.codec <| .required "name" .text .nil

/-- Named types. -/
def codec : Codec TypeDecl :=
  schema.record "TypeDecl" (fun (id, name, ()) => ⟨id, name⟩) fun t => (t.id, t.name, ())

end TypeDecl

namespace ReturnStmt

/-- The fields of a return statement. -/
def schema : Schema (StmtId × FuncId × Span × Unit) :=
  .required "id" Id.codec <| .required "func" Id.codec <| .required "span" Span.codec .nil

/-- Return statements. -/
def codec : Codec ReturnStmt :=
  schema.record "ReturnStmt" (fun (id, func, span, ()) => ⟨id, func, span⟩)
    fun s => (s.id, s.func, s.span, ())

end ReturnStmt

namespace ExprKind

/-- The value beside the name has to be `null`. -/
def decodeNull : Json → Except Problem Unit
  | .null => .ok ()
  | v => .error (v.unexpected .unit)

/-- The closing brace has to come now. -/
def closeObject : Members → Except Problem Unit
  | .done => .ok ()
  | .cut f false => .error (.text f)
  | _ => .error (.text .malformed)

/-- Decodes a form. Whatever is neither a string nor an object counts as a misplaced character, and
so does whatever stands in the place of the key and is no string. -/
def decode : Json → Except Problem ExprKind
  | .string s => .ok (ofName s)
  | .object (.cons (.text key) v rest) => do
    decodeNull v
    closeObject rest
    return ofName key
  | .object (.cons (.flawed f) _ _) => .error (.text f)
  | .object (.cut f _) => .error (.text f)
  | .flawed .missing => .error (.text .truncated)
  | .flawed (.string f _) => .error (.text f)
  | _ => .error (.text .malformed)

/-- Forms of expressions. -/
def codec : Codec ExprKind where
  decode := decode
  encode k := .string k.name

end ExprKind

namespace Expr

/-- The fields of an expression. -/
def schema : Schema (ExprId × ExprKind × Span × Unit) :=
  .required "id" Id.codec <| .required "kind" ExprKind.codec <| .required "span" Span.codec .nil

/-- Expressions. -/
def codec : Codec Expr :=
  schema.record "Expr" (fun (id, kind, span, ()) => ⟨id, kind, span⟩)
    fun e => (e.id, e.kind, e.span, ())

end Expr

namespace Program

/-- The tables of a program; each may be left out. -/
def schema : Schema (String × List FuncDecl × List FieldDecl × List VarDecl × List TypeDecl ×
    List ReturnStmt × List Expr × Unit) :=
  .optional "package" .text "" <| .optional "funcs" (.list FuncDecl.codec) [] <|
    .optional "fields" (.list FieldDecl.codec) [] <| .optional "vars" (.list VarDecl.codec) [] <|
      .optional "types" (.list TypeDecl.codec) [] <|
        .optional "returns" (.list ReturnStmt.codec) [] <|
          .optional "exprs" (.list Expr.codec) [] .nil

/-- Programs. -/
def codec : Codec Program :=
  schema.record "Program"
    (fun (package, funcs, fields, vars, types, returns, exprs, ()) =>
      ⟨package, funcs, fields, vars, types, returns, exprs⟩)
    fun p => (p.package, p.funcs, p.fields, p.vars, p.types, p.returns, p.exprs, ())

end Program

end NilFlow
