import NilFlow.Guard
import NilFlow.Trigger.Basic

/-!
# Consumption records

A record is the obligation that a value reaching an expression be non-nil, together with the guards
seen on the way back from the consuming place. The obligation is the trigger and the expression, by
identity; two records are the same when their obligations, guards and flags agree.
-/

namespace NilFlow

/-- A trigger on the expression whose value it consumes. -/
structure Record where
  trigger : Trigger
  expr : Expr
  guards : GuardSet
  /-- Whether a guard arose and was matched along every path back to the place. -/
  matched : Bool

/-- What has to be non-nil, whatever the guards. -/
structure Obligation where
  trigger : TriggerId
  expr : ExprId
  deriving DecidableEq

/-- The identity of a record. -/
structure RecordId where
  obligation : Obligation
  guards : GuardSet
  matched : Bool
  deriving DecidableEq

namespace Record

/-- A record without guards. -/
def unguarded (trigger : Trigger) (expr : Expr) : Record :=
  ⟨trigger, expr, .empty, false⟩

/-- A field flows out with a returned struct. -/
def ofResultField (site : ResultFieldSite) (expr : Expr) : Record :=
  unguarded (.useAsFldOfReturn site) expr

/-- A field leaves its function with its struct. -/
def ofEscapingField (field : FieldDecl) (expr : Expr) : Record :=
  unguarded (.fldEscape field) expr

/-- A field flows into a call with a struct. -/
def ofArgumentField (site : ArgumentFieldSite) (expr : Expr) : Record :=
  unguarded (.argFldPass site) expr

/-- The obligation of a record. -/
def obligation (r : Record) : Obligation :=
  ⟨r.trigger.id, r.expr.id⟩

/-- The identity of a record. -/
def id (r : Record) : RecordId :=
  ⟨r.obligation, r.guards, r.matched⟩

/-- Whether the obligation is an error under the annotations of a snapshot, if nil reaches it. -/
def fires (r : Record) (m : Snapshot) : Bool :=
  r.trigger.fires m

/-- Where the obligation is reported. -/
def position (r : Record) : Span :=
  r.trigger.position?.getD r.expr.span

/-- The record with guards added. Its match no longer counts. -/
def withGuards (r : Record) (gs : List Nonce) : Record :=
  { r with guards := r.guards.add gs, matched := false }

/-- The record with its guards matched. -/
def markMatched (r : Record) : Record :=
  { r with matched := true }

/-- What is left of a record where its path joins another path with the same obligation: the guards
held on both, matched if they are on both. -/
def join (r s : Record) : Record :=
  { r with guards := r.guards.inter s.guards, matched := r.matched && s.matched }

/-- The text of a record. -/
def text (r : Record) : String :=
  let guards := if r.guards.isEmpty then "" else r.guards.text ++ "-GuardMatched "
  "\x7b(" ++ guards ++ r.expr.kind.text ++ "@" ++ r.expr.span.startText ++ "-"
    ++ r.expr.span.endText ++ " " ++ r.trigger.text ++ ")\x7d"

/-- Stamping leaves the obligation as it is. -/
@[simp] theorem obligation_withGuards (r : Record) (gs : List Nonce) :
    (r.withGuards gs).obligation = r.obligation := rfl

/-- A joined record has the obligation of the first one. -/
@[simp] theorem obligation_join (r s : Record) : (r.join s).obligation = r.obligation := rfl

end Record

end NilFlow
