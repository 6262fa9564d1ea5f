import NilFlow.Proofs.NameLookup
import NilFlow.Proofs.TriggerBasis

/-!
# Triggers of one program, by identity

Triggers and records are compared by identity: declarations count by their ids, whatever else they
say.  Within one program that is no loss.  An id stands for one entry of its table, so two handles
that an index gives (`Index.Gives`) are the same entry if their ids agree (`Gives.eq_of_id_eq`).

The identity of a trigger tells what the trigger was built from, declarations by id: the kind is
that of the payload, and the ids and slots can be read back from site and context
(`call?_of_build`).  So no two builds give the same identity unless they ask for the same, and then
the handles behind them are the same too (`parts_eq_of_refs_eq`), and with them the triggers.
-/

namespace NilFlow

/-! ### Handles of an index -/

/-- The entries that the look-ups of an index give. -/
inductive Index.Gives (ix : Index) : (table : Table) → table.Entry → Prop where
  | func {id : FuncId} {f : FuncDecl} (h : ix.func id = .ok f) : Gives ix .func f
  | funcNamed {order : Shuffle FuncDecl} {name : String} {f : FuncDecl}
      (h : ix.funcNamed order name = .ok (some f)) : Gives ix .func f
  | field {id : FieldId} {f : FieldDecl} (h : ix.field id = .ok f) : Gives ix .field f
  | var {id : VarId} {v : VarDecl} (h : ix.var id = .ok v) : Gives ix .var v
  | typeDecl {id : TypeId} {t : TypeDecl} (h : ix.typeDecl id = .ok t) : Gives ix .type t
  | returnStmt {id : StmtId} {s : ReturnStmt} (h : ix.returnStmt id = .ok s) : Gives ix .stmt s
  | expr {id : ExprId} {e : Expr} (h : ix.expr id = .ok e) : Gives ix .expr e

namespace Index.Gives

variable {p : Program} {order : Shuffle ReturnStmt} {ix : Index} {table : Table}
  {a b : table.Entry}

/-- What a look-up gives is an entry of the program. -/
lemma mem_entries (hix : p.index order = .ok ix) (h : ix.Gives table a) :
    a ∈ p.entries table := by
  have hfound := fun table => (Program.answers_of_index hix table).found
  cases h with
  | func h => exact ((hfound .func _ _).mp h).1
  | funcNamed h => exact (mem_namesakes.mp (mem_namesakes_of_funcNamed hix h)).1
  | field h => exact ((hfound .field _ _).mp h).1
  | var h => exact ((hfound .var _ _).mp h).1
  | typeDecl h => exact ((hfound .type _ _).mp h).1
  | returnStmt h => exact ((hfound .stmt _ _).mp h).1
  | expr h => exact ((hfound .expr _ _).mp h).1

/-- Two handles of an index are the same entry if their ids agree. -/
lemma eq_of_id_eq (hix : p.index order = .ok ix) (ha : ix.Gives table a) (hb : ix.Gives table b)
    (hid : table.idOf a = table.idOf b) : a = b :=
  List.inj_on_of_nodup_map ((Program.sound_of_index hix).unique table) (ha.mem_entries hix)
    (hb.mem_entries hix) hid

end Index.Gives

/-! ### What is asked for -/

/-- The parts of a kind, declarations by id. -/
abbrev Tag.Refs : Tag → Type
  | .ptrLoad | .mapAccess | .mapWrittenTo | .sliceAccess | .fldAccess | .chanAccess
  | .deepAssignPrimitive => Unit
  | .localVarAssignDeep | .globalVarAssign | .globalVarAssignDeep => VarId
  | .fldAssign | .fieldAssignDeep | .fldEscape => FieldId
  | .sliceAssign | .arrayAssign | .ptrAssign | .mapAssign | .chanSend => TypeId
  | .recvPass => FuncId
  | .argPass | .paramAssignDeep | .variadicParamAssignDeep | .funcRetAssignDeep => FuncId × Nat
  | .argFldPass => FuncId × Option Nat × FieldId
  | .useAsFldOfReturn => FuncId × Nat × FieldId
  | .useAsErrorResult | .useAsReturn | .useAsNonErrorRetDependentOnErrorRetNilability
  | .useAsErrorRetWithNilabilityUnknown => FuncId × Nat × StmtId × Bool
  | .interfaceResultFromImplementation | .methodParamFromInterface =>
    FuncId × Nat × FuncId × FuncId

/-- A kind together with its parts, declarations by id. -/
abbrev Call : Type :=
  (tag : Tag) × tag.Refs

namespace Tag

/-- The parts of a kind with their declarations replaced by ids. -/
def refs : (tag : Tag) → tag.Parts → tag.Refs
  | .ptrLoad, () | .mapAccess, () | .mapWrittenTo, () | .sliceAccess, () | .fldAccess, ()
  | .chanAccess, () | .deepAssignPrimitive, () => ()
  | .localVarAssignDeep, var | .globalVarAssign, var | .globalVarAssignDeep, var => var.id
  | .fldAssign, field | .fieldAssignDeep, field | .fldEscape, field => field.id
  | .sliceAssign, elem | .arrayAssign, elem | .ptrAssign, elem | .mapAssign, elem
  | .chanSend, elem => elem.id
  | .recvPass, func => func.id
  | .argPass, (func, index) | .paramAssignDeep, (func, index)
  | .variadicParamAssignDeep, (func, index) | .funcRetAssignDeep, (func, index) => (func.id, index)
  | .argFldPass, (func, index, field) => (func.id, index, field.id)
  | .useAsFldOfReturn, (func, index, field) => (func.id, index, field.id)
  | .useAsErrorResult, (func, index, stmt, named) | .useAsReturn, (func, index, stmt, named)
  | .useAsNonErrorRetDependentOnErrorRetNilability, (func, index, stmt, named)
  | .useAsErrorRetWithNilabilityUnknown, (func, index, stmt, named) =>
    (func.id, index, stmt.id, named)
  | .interfaceResultFromImplementation, (func, index, pair)
  | .methodParamFromInterface, (func, index, pair) =>
    (func.id, index, pair.interface.id, pair.implementing.id)

/-- The parts of a kind, declarations by id, as the identities of site and context tell them. -/
def refs? : (tag : Tag) → Option SiteId → ContextId → Option tag.Refs
  | .ptrLoad, _, _ | .mapAccess, _, _ | .mapWrittenTo, _, _ | .sliceAccess, _, _
  | .fldAccess, _, _ | .chanAccess, _, _ | .deepAssignPrimitive, _, _ => some ()
  | .localVarAssignDeep, _, .localVar var => some var
  | .globalVarAssign, some (.global var), _ | .globalVarAssignDeep, some (.global var), _ =>
    some var
  | .fldAssign, some (.field field), _ | .fieldAssignDeep, some (.field field), _ => some field
  | .fldEscape, some (.escapingField field), _ => some field
  | .sliceAssign, some (.typeName elem), _ | .arrayAssign, some (.typeName elem), _
  | .ptrAssign, some (.typeName elem), _ | .mapAssign, some (.typeName elem), _
  | .chanSend, some (.typeName elem), _ => some elem
  | .recvPass, some (.receiver func), _ => some func
  | .argPass, some (.param func index), _ | .paramAssignDeep, some (.param func index), _
  | .variadicParamAssignDeep, some (.param func index), _ => some (func, index)
  | .funcRetAssignDeep, some (.result func index), _ => some (func, index)
  | .argFldPass, some (.argumentField func index field), _ => some (func, index, field)
  | .useAsFldOfReturn, some (.resultField func index field), _ => some (func, index, field)
  | .useAsErrorResult, some (.result func index), .returning stmt named
  | .useAsReturn, some (.result func index), .returning stmt named
  | .useAsNonErrorRetDependentOnErrorRetNilability, some (.result func index),
    .returning stmt named
  | .useAsErrorRetWithNilabilityUnknown, some (.result func index), .returning stmt named =>
    some (func, index, stmt, named)
  | .interfaceResultFromImplementation, some (.result func index),
    .affiliation interface implementing => some (func, index, interface, implementing)
  | .methodParamFromInterface, some (.param func index), .affiliation interface implementing =>
    some (func, index, interface, implementing)
  | _, _, _ => none

end Tag

/-- What a trigger was built from, as its identity tells it. -/
def TriggerId.call? (id : TriggerId) : Option Call :=
  (id.payload.tag.refs? id.behavior.site? id.context).map fun refs => ⟨id.payload.tag, refs⟩

/-- The identity of a trigger tells which kind it was asked to be, and from what. -/
lemma Trigger.call?_of_build {tag : Tag} {parts : tag.Parts} {t : Trigger}
    (h : Trigger.build tag parts = .ok t) : t.id.call? = some ⟨tag, tag.refs parts⟩ := by
  obtain ⟨rfl, rfl⟩ := parts_of_build h
  cases t <;> rfl

/-! ### Builds from the handles of an index -/

/-- Every declaration among the parts is a handle of the index. -/
def Index.GivesParts (ix : Index) : (tag : Tag) → tag.Parts → Prop
  | .ptrLoad, () | .mapAccess, () | .mapWrittenTo, () | .sliceAccess, () | .fldAccess, ()
  | .chanAccess, () | .deepAssignPrimitive, () => True
  | .localVarAssignDeep, var | .globalVarAssign, var | .globalVarAssignDeep, var =>
    ix.Gives .var var
  | .fldAssign, field | .fieldAssignDeep, field | .fldEscape, field => ix.Gives .field field
  | .sliceAssign, elem | .arrayAssign, elem | .ptrAssign, elem | .mapAssign, elem
  | .chanSend, elem => ix.Gives .type elem
  | .recvPass, func => ix.Gives .func func
  | .argPass, (func, _) | .paramAssignDeep, (func, _) | .variadicParamAssignDeep, (func, _)
  | .funcRetAssignDeep, (func, _) => ix.Gives .func func
  | .argFldPass, (func, _, field) | .useAsFldOfReturn, (func, _, field) =>
    ix.Gives .func func ∧ ix.Gives .field field
  | .useAsErrorResult, (func, _, stmt, _) | .useAsReturn, (func, _, stmt, _)
  | .useAsNonErrorRetDependentOnErrorRetNilability, (func, _, stmt, _)
  | .useAsErrorRetWithNilabilityUnknown, (func, _, stmt, _) =>
    ix.Gives .func func ∧ ix.Gives .stmt stmt
  | .interfaceResultFromImplementation, (func, _, pair)
  | .methodParamFromInterface, (func, _, pair) =>
    ix.Gives .func func ∧ ix.Gives .func pair.interface ∧ ix.Gives .func pair.implementing

section Builds

variable {p : Program} {order : Shuffle ReturnStmt} {ix : Index}

/-- Handles of an index make up the same parts if they do so by id. -/
lemma parts_eq_of_refs_eq (hix : p.index order = .ok ix) {tag : Tag} {parts parts' : tag.Parts}
    (h : ix.GivesParts tag parts) (h' : ix.GivesParts tag parts')
    (hrefs : tag.refs parts = tag.refs parts') : parts = parts' := by
  cases tag with
  | ptrLoad | mapAccess | mapWrittenTo | sliceAccess | fldAccess | chanAccess
  | deepAssignPrimitive => rfl
  | localVarAssignDeep | globalVarAssign | globalVarAssignDeep | fldAssign | fieldAssignDeep
  | fldEscape | sliceAssign | arrayAssign | ptrAssign | mapAssign | chanSend | recvPass =>
    exact Index.Gives.eq_of_id_eq hix h h' hrefs
  | argPass | paramAssignDeep | variadicParamAssignDeep | funcRetAssignDeep =>
    obtain ⟨hfunc, hindex⟩ := Prod.mk.inj hrefs
    exact Prod.ext (h.eq_of_id_eq hix h' hfunc) hindex
  | argFldPass | useAsFldOfReturn =>
    obtain ⟨hfunc, hrefs⟩ := Prod.mk.inj hrefs
    obtain ⟨hindex, hfield⟩ := Prod.mk.inj hrefs
    exact Prod.ext (h.1.eq_of_id_eq hix h'.1 hfunc)
      (Prod.ext hindex (h.2.eq_of_id_eq hix h'.2 hfield))
  | useAsErrorResult | useAsReturn | useAsNonErrorRetDependentOnErrorRetNilability
  | useAsErrorRetWithNilabilityUnknown =>
    obtain ⟨hfunc, hrefs⟩ := Prod.mk.inj hrefs
    obtain ⟨hindex, hrefs⟩ := Prod.mk.inj hrefs
    obtain ⟨hstmt, hnamed⟩ := Prod.mk.inj hrefs
    exact Prod.ext (h.1.eq_of_id_eq hix h'.1 hfunc)
      (Prod.ext hindex (Prod.ext (h.2.eq_of_id_eq hix h'.2 hstmt) hnamed))
  | interfaceResultFromImplementation | methodParamFromInterface =>
    obtain ⟨hfunc, hrefs⟩ := Prod.mk.inj hrefs
    obtain ⟨hindex, hrefs⟩ := Prod.mk.inj hrefs
    obtain ⟨hinterface, himplementing⟩ := Prod.mk.inj hrefs
    have hpair : parts.2.2 = parts'.2.2 :=
      congrArg₂ Affiliation.mk (h.2.1.eq_of_id_eq hix h'.2.1 hinterface)
        (h.2.2.eq_of_id_eq hix h'.2.2 himplementing)
    exact Prod.ext (h.1.eq_of_id_eq hix h'.1 hfunc) (Prod.ext hindex hpair)

variable {tag tag' : Tag} {parts : tag.Parts} {parts' : tag'.Parts} {t t' : Trigger}

/-- Builds that ask for the same, by id, give the same trigger. -/
lemma Trigger.eq_of_call_eq (hix : p.index order = .ok ix) (hparts : ix.GivesParts tag parts)
    (hparts' : ix.GivesParts tag' parts') (ht : Trigger.build tag parts = .ok t)
    (ht' : Trigger.build tag' parts' = .ok t')
    (hcall : (⟨tag, tag.refs parts⟩ : Call) = ⟨tag', tag'.refs parts'⟩) : t = t' := by
  obtain ⟨rfl, hrefs⟩ := Sigma.mk.inj hcall
  obtain rfl := parts_eq_of_refs_eq hix hparts hparts' (eq_of_heq hrefs)
  exact Except.ok.inj (ht.symm.trans ht')

/-- Builds of the same identity have asked for the same, by id. -/
lemma Trigger.call_eq_of_id_eq (ht : Trigger.build tag parts = .ok t)
    (ht' : Trigger.build tag' parts' = .ok t') (hid : t.id = t'.id) :
    (⟨tag, tag.refs parts⟩ : Call) = ⟨tag', tag'.refs parts'⟩ := by
  have hcall : some (⟨tag, tag.refs parts⟩ : Call) = some ⟨tag', tag'.refs parts'⟩ := by
    rw [← Trigger.call?_of_build ht, ← Trigger.call?_of_build ht', hid]
  exact Option.some_inj.mp hcall

end Builds

namespace Trigger

/-- Within one program, identity is equality.  Two triggers that are built from handles of an index
have the same identity exactly if they are of the same kind and their parts have the same ids and
slots; and then they are the same trigger, so nothing that can be asked about them differs.  Two
records on them, on expressions of the index, have the same identity exactly if they are the same
record. -/
theorem identity_within_program (p : Program) (order : Shuffle ReturnStmt) (ix : Index)
    (hix : p.index order = .ok ix) (tag tag' : Tag) (parts : tag.Parts) (parts' : tag'.Parts)
    (t t' : Trigger) (hparts : ix.GivesParts tag parts) (hparts' : ix.GivesParts tag' parts')
    (ht : Trigger.build tag parts = .ok t) (ht' : Trigger.build tag' parts' = .ok t') :
    (t.id = t'.id ↔ (⟨tag, tag.refs parts⟩ : Call) = ⟨tag', tag'.refs parts'⟩) ∧
    (t.id = t'.id → t = t' ∧ t.text = t'.text ∧ t.position? = t'.position? ∧
      t.firing = t'.firing ∧ t.site? = t'.site? ∧ ∀ m, t.fires m = t'.fires m) ∧
    ∀ r r' : Record, r.trigger = t → r'.trigger = t' →
      ix.Gives .expr r.expr → ix.Gives .expr r'.expr → (r.id = r'.id ↔ r = r') := by
  have heq : t.id = t'.id → t = t' := fun hid =>
    eq_of_call_eq hix hparts hparts' ht ht' (call_eq_of_id_eq ht ht' hid)
  refine ⟨⟨call_eq_of_id_eq ht ht', fun hcall => ?_⟩, fun hid => ?_, ?_⟩
  · rw [eq_of_call_eq hix hparts hparts' ht ht' hcall]
  · obtain rfl := heq hid
    exact ⟨rfl, rfl, rfl, rfl, rfl, fun _ => rfl⟩
  · intro r r' hr hr' hexpr hexpr'
    refine ⟨fun hid => ?_, fun h => h ▸ rfl⟩
    obtain ⟨hobligation, hguards, hmatched⟩ := RecordId.mk.inj hid
    obtain ⟨htrigger, hid⟩ := Obligation.mk.inj hobligation
    have hsame : r.trigger = r'.trigger := by
      rw [hr, hr'] at htrigger ⊢
      exact heq htrigger
    cases r with
    | mk trigger expr guards matched =>
      obtain rfl := Index.Gives.eq_of_id_eq hix hexpr hexpr' hid
      obtain rfl : trigger = r'.trigger := hsame
      obtain rfl : guards = r'.guards := hguards
      obtain rfl : matched = r'.matched := hmatched
      rfl

/-- Two methods of the same name, of different types.  The triggers on their receivers have the same
text, and yet they are told apart, and so are the records on them. -/
theorem identity_of_namesakes :
    let file : FuncDecl := { FuncDecl.plain ⟨1⟩ "Close" with receiver := some "File" }
    let conn : FuncDecl := { FuncDecl.plain ⟨2⟩ "Close" with receiver := some "Conn" }
    let expr : Expr := ⟨⟨1⟩, .ident, .point "main.go" 7 2⟩
    let p : Program := { Program.empty with funcs := [file, conn], exprs := [expr] }
    let t : Trigger := .recvPass ⟨file, rfl⟩
    let t' : Trigger := .recvPass ⟨conn, rfl⟩
    ∃ ix, p.index .asInserted = .ok ix ∧
      ix.GivesParts .recvPass file ∧ ix.GivesParts .recvPass conn ∧
      Trigger.build .recvPass file = .ok t ∧ Trigger.build .recvPass conn = .ok t' ∧
      t.text = t'.text ∧ t.id ≠ t'.id ∧
      (Record.unguarded t expr).id ≠ (Record.unguarded t' expr).id := by
  intro file conn expr p t t'
  obtain ⟨ix, hix, hfunc, hnamed, hident⟩ : ∃ ix, p.index .asInserted = .ok ix ∧
      ix.func ⟨1⟩ = .ok file ∧ ix.funcNamed .asInserted "Conn.Close" = .ok (some conn) ∧
      ix.expr ⟨1⟩ = .ok expr := ⟨_, rfl, rfl, rfl, rfl⟩
  have hfile : ix.GivesParts .recvPass file := .func hfunc
  have hconn : ix.GivesParts .recvPass conn := .funcNamed hnamed
  have hexpr : ix.Gives .expr expr := .expr hident
  obtain ⟨hiff, -, hrecords⟩ :=
    identity_within_program p .asInserted ix hix .recvPass .recvPass file conn t t' hfile hconn
      rfl rfl
  refine ⟨ix, hix, hfile, hconn, rfl, rfl, rfl, ?_, ?_⟩
  · rw [Ne, hiff]
    intro h
    have hid : file.id = conn.id := eq_of_heq (Sigma.mk.inj h).2
    exact absurd hid (by decide)
  · rw [Ne, hrecords _ _ rfl rfl hexpr hexpr]
    intro h
    have hfunc : file = conn := ReceiverSite.mk.inj (Trigger.recvPass.inj (Record.mk.inj h).1)
    exact absurd hfunc (by decide)

end Trigger

end NilFlow
