import NilFlow.Snapshot

/-!
# When a consuming place is an error

A behavior says when a nil value that reaches a place is an error: always, or only if a site is
annotated as non-nil, shallowly or deeply. A site without annotation has not been shown to be
non-nil, so nothing that depends on it fires.
-/

namespace NilFlow

/-- When a place fires, depending on a site of type `σ`. -/
inductive Behavior (σ : Type) where
  | always
  /-- Fires if the site is annotated and its value is not nilable. -/
  | ifNonNil (site : σ)
  /-- Fires if the site is annotated and nothing reachable through its value is nilable. -/
  | ifDeepNonNil (site : σ)
  deriving DecidableEq

/-- How firing depends on annotations, whatever the site. -/
inductive Firing where
  | always
  | conditional
  | deepConditional
  deriving DecidableEq

namespace Firing

/-- How it is shown in reports. -/
def text : Firing → String
  | .always => "always"
  | .conditional => "conditional"
  | .deepConditional => "deep-conditional"

/-- How it is written as JSON. -/
def encode : Firing → Json
  | .always => .string "Always"
  | .conditional => .string "Conditional"
  | .deepConditional => .string "DeepConditional"

end Firing

namespace Behavior

variable {σ τ : Type}

/-- The same behavior on the image of the site. -/
def map (f : σ → τ) : Behavior σ → Behavior τ
  | .always => .always
  | .ifNonNil s => .ifNonNil (f s)
  | .ifDeepNonNil s => .ifDeepNonNil (f s)

/-- The site that the behavior depends on. -/
def site? : Behavior σ → Option σ
  | .always => none
  | .ifNonNil s | .ifDeepNonNil s => some s

/-- How firing depends on annotations. -/
def firing : Behavior σ → Firing
  | .always => .always
  | .ifNonNil _ => .conditional
  | .ifDeepNonNil _ => .deepConditional

/-- The name of the behavior. -/
def name : Behavior σ → String
  | .always => "Tautology"
  | .ifNonNil _ => "IfNonNil"
  | .ifDeepNonNil _ => "IfDeepNonNil"

/-- Whether a nil value is an error under the annotations of a snapshot. -/
def fires (m : Snapshot) : Behavior Site → Bool
  | .always => true
  | .ifNonNil s => (m.lookup s).any fun a => !a.isNilable
  | .ifDeepNonNil s => (m.lookup s).any fun a => !a.isDeepNilable

/-- A place fires unconditionally exactly if it depends on no site. -/
theorem firing_eq_always_iff {b : Behavior σ} : b.firing = .always ↔ b.site? = none := by
  cases b <;> simp [firing, site?]

end Behavior

end NilFlow
