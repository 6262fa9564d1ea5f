import NilFlow.Program.Decl

/-!
# Annotatable sites

A site is a place of a program whose nilability can be annotated: a parameter, a receiver, a result,
a struct field (as such, of an argument, of a result, or escaping), a package-level variable or a
named type. A site that exists is a real one: its slot is in range, its function has the receiver,
its variable is global.

Two sites are the same when they have the same shape, the same declaration ids and the same slot;
`Site.id` keeps just that.
-/

namespace NilFlow

/-- Why a declaration has no such site. -/
inductive SiteError where
  | paramOutOfRange (func : String) (index count : Nat)
  | resultOutOfRange (func : String) (index count : Nat)
  | notAMethod (func : String)
  | notGlobal (var : String)
  deriving DecidableEq

/-- The wording of a site error. -/
def SiteError.message : SiteError → String
  | .paramOutOfRange func index count =>
    "function `" ++ func ++ "` has no parameter " ++ toString index
      ++ " (" ++ toString count ++ " declared)"
  | .resultOutOfRange func index count =>
    "function `" ++ func ++ "` has no result " ++ toString index
      ++ " (" ++ toString count ++ " declared)"
  | .notAMethod func => "function `" ++ func ++ "` has no receiver"
  | .notGlobal var => "variable `" ++ var ++ "` is not a package-level variable"

/-- A parameter. -/
structure ParamSite where
  func : FuncDecl
  index : Nat
  inRange : index < func.params.length

namespace ParamSite

/-- The parameter of a function at a position. -/
def of (func : FuncDecl) (index : Nat) : Except SiteError ParamSite :=
  if h : index < func.params.length then .ok ⟨func, index, h⟩
  else .error (.paramOutOfRange func.name index func.params.length)

/-- The declared slot. -/
def slot (s : ParamSite) : Slot :=
  s.func.params.get ⟨s.index, s.inRange⟩

/-- The declared name, if it is usable. -/
def name? (s : ParamSite) : Option String :=
  if s.slot.isNamed then some s.slot.name else none

/-- The parameter by its name, or else by its position. -/
def label (s : ParamSite) : String :=
  match s.name? with
  | some name => "param `" ++ name ++ "`"
  | none => "param " ++ toString s.index

/-- The bare name, or else the position. -/
def nameText (s : ParamSite) : String :=
  match s.name? with
  | some name => name
  | none => toString s.index

/-- Whether it is the last parameter of a variadic function. -/
def isVariadic (s : ParamSite) : Bool :=
  s.func.variadic && s.index + 1 = s.func.params.length

end ParamSite

/-- The receiver of a method. -/
structure ReceiverSite where
  func : FuncDecl
  isMethod : func.isMethod = true

/-- The receiver of a function, if it is a method. -/
def ReceiverSite.of (func : FuncDecl) : Except SiteError ReceiverSite :=
  if h : func.isMethod = true then .ok ⟨func, h⟩ else .error (.notAMethod func.name)

/-- A result. -/
structure ResultSite where
  func : FuncDecl
  index : Nat
  inRange : index < func.results.length

namespace ResultSite

/-- The result of a function at a position. -/
def of (func : FuncDecl) (index : Nat) : Except SiteError ResultSite :=
  if h : index < func.results.length then .ok ⟨func, index, h⟩
  else .error (.resultOutOfRange func.name index func.results.length)

/-- The declared name, empty if there is none. -/
def name (s : ResultSite) : String :=
  (s.func.results.get ⟨s.index, s.inRange⟩).name

/-- The position of the last result, where an error is returned. -/
def errorIndex (s : ResultSite) : Nat :=
  s.func.results.length - 1

end ResultSite

/-- What a call passes: an argument for a parameter, or the receiver. -/
inductive Argument where
  | param (site : ParamSite)
  | receiver (site : ReceiverSite)

namespace Argument

/-- The function called. -/
def func : Argument → FuncDecl
  | .param s => s.func
  | .receiver s => s.func

/-- The position of the parameter; the receiver has none. -/
def index? : Argument → Option Nat
  | .param s => some s.index
  | .receiver _ => none

/-- The argument at a position, or the receiver if no position is given. -/
def of (func : FuncDecl) : Option Nat → Except SiteError Argument
  | some index => .param <$> ParamSite.of func index
  | none => .receiver <$> ReceiverSite.of func

end Argument

/-- A field of a struct that a call passes. -/
structure ArgumentFieldSite where
  argument : Argument
  field : FieldDecl

/-- A field of a struct that a function returns. -/
structure ResultFieldSite where
  result : ResultSite
  field : FieldDecl

/-- A package-level variable. -/
structure GlobalSite where
  var : VarDecl
  isGlobal : var.isGlobal = true

/-- The site of a variable, if it is package-level. -/
def GlobalSite.of (var : VarDecl) : Except SiteError GlobalSite :=
  if h : var.isGlobal = true then .ok ⟨var, h⟩ else .error (.notGlobal var.name)

/-- Any annotatable site. -/
inductive Site where
  | param (site : ParamSite)
  | receiver (site : ReceiverSite)
  | result (site : ResultSite)
  | field (field : FieldDecl)
  | argumentField (site : ArgumentFieldSite)
  | resultField (site : ResultFieldSite)
  | escapingField (field : FieldDecl)
  | global (site : GlobalSite)
  | typeName (type : TypeDecl)

/-- The identity of a site: its shape, the ids of its declarations and its slot. -/
inductive SiteId where
  | param (func : FuncId) (index : Nat)
  | receiver (func : FuncId)
  | result (func : FuncId) (index : Nat)
  | field (field : FieldId)
  | argumentField (func : FuncId) (index : Option Nat) (field : FieldId)
  | resultField (func : FuncId) (index : Nat) (field : FieldId)
  | escapingField (field : FieldId)
  | global (var : VarId)
  | typeName (type : TypeId)
  deriving DecidableEq

namespace Site

/-- The identity of a site. -/
def id : Site → SiteId
  | .param s => .param s.func.id s.index
  | .receiver s => .receiver s.func.id
  | .result s => .result s.func.id s.index
  | .field f => .field f.id
  | .argumentField s => .argumentField s.argument.func.id s.argument.index? s.field.id
  | .resultField s => .resultField s.result.func.id s.result.index s.field.id
  | .escapingField f => .escapingField f.id
  | .global s => .global s.var.id
  | .typeName t => .typeName t.id

/-- How a site is called in reports. -/
def text : Site → String
  | .param s => s.label ++ " of `" ++ s.func.name ++ "`"
  | .receiver s => "receiver of `" ++ s.func.name ++ "`"
  | .result s => "result " ++ toString s.index ++ " of `" ++ s.func.name ++ "`"
  | .field f => "field `" ++ f.name ++ "`"
  | .argumentField s =>
    let place := match s.argument.index? with
      | some index => "param " ++ toString index
      | none => "receiver"
    "field `" ++ s.field.name ++ "` of " ++ place ++ " of `" ++ s.argument.func.name ++ "`"
  | .resultField s =>
    "field `" ++ s.field.name ++ "` of result " ++ toString s.result.index ++ " of `"
      ++ s.result.func.name ++ "`"
  | .escapingField f => "escaping field `" ++ f.name ++ "`"
  | .global s => "global `" ++ s.var.name ++ "`"
  | .typeName t => "type `" ++ t.name ++ "`"

end Site

end NilFlow
