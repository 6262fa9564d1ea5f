import NilFlow.Proofs.DataflowOrder
import NilFlow.RecordSet.Store

/-!
# Fresh nonces along a run

An analysis has a minter and named record sets.  Its runs mint nonces and take steps on the sets, in
any order.  A run may stamp only what it knows: nonces that it has minted, and nonces that a record
has held (`Analysis.StampsKnown`).  Then a nonce that is minted is always new, as long as the minter
does not start over.

No step on record sets makes up a guard: a record has the guards of the records that it comes from
and those that were stamped on it.  So whatever holds of all guards of a store and of all nonces
that are stamped holds of all guards afterwards (`Store.GuardsIn.apply`).  Two such properties are
enough.  All guards are below the next nonce (`Analysis.guardsIn_run`), hence a nonce that is minted
is on no record; and no guard is a given nonce, hence one that is not stamped stays off all records.
-/

namespace NilFlow

/-! ### Guards of records -/

namespace RecordSet

/-- Every guard of every record has a property. -/
def GuardsIn (P : Nonce → Prop) (rs : RecordSet) : Prop :=
  ∀ r ∈ rs, ∀ g ∈ r.guards, P g

variable {P : Nonce → Prop}

/-- A merge has no other guards than its sides. -/
lemma GuardsIn.merge {left right : RecordSet} (hleft : left.GuardsIn P)
    (hright : right.GuardsIn P) : (merge left right).GuardsIn P := by
  intro s hs g hg
  have hk : s.obligation ∈ (left ++ right).obligations := by
    rw [← List.mem_eraseDups, ← obligations_merge]
    exact mem_obligations.mpr ⟨s, hs, rfl⟩
  obtain ⟨r, hr, hrs⟩ := mem_obligations.mp hk
  have hgr : g ∈ r.guards := (mem_guards_of_mem_merge hs g).mp hg r hr hrs
  rcases List.mem_append.mp hr with hr | hr
  · exact hleft r hr g hgr
  · exact hright r hr g hgr

/-- A crossing adds no other guards than those that it stamps. -/
lemma GuardsIn.cross {rs : RecordSet} (h : rs.GuardsIn P) (c : Crossing)
    (hc : ∀ g ∈ c.stamped, P g) : (c.apply rs).GuardsIn P := by
  rw [c.apply_eq_map]
  intro r' hr' g hg
  obtain ⟨r, hr, rfl⟩ := List.mem_map.mp hr'
  rcases (c.mem_guards_onRecord r g).mp hg with hg | hg
  · exact h r hr g hg
  · exact hc g hg

/-- The match of a guard that no record carries changes nothing. -/
lemma matchGuard_eq_self {rs : RecordSet} {g : Nonce} (h : rs.GuardsIn (· ≠ g)) :
    matchGuard g rs = rs := by
  have hrecord : ∀ r ∈ rs, (if r.guards.contains g then r.markMatched else r) = r := by
    intro r hr
    have hg : ¬ r.guards.contains g = true := fun hg => h r hr g (GuardSet.contains_iff.mp hg) rfl
    exact if_neg hg
  exact (List.map_congr_left hrecord).trans (List.map_id' rs)

/-- The nonces that a step stamps. -/
def Step.stamped : Step → List Nonce
  | .stamp _ gs _ => gs
  | .merge .. | .matchGuard .. => []

end RecordSet

namespace Store

/-- Every guard of every stored record has a property. -/
def GuardsIn (P : Nonce → Prop) (s : Store RecordSet) : Prop :=
  ∀ name, (s.getD name []).GuardsIn P

/-- Some stored record carries a nonce. -/
def Holds (s : Store RecordSet) (g : Nonce) : Prop :=
  ∃ name, ∃ r ∈ s.getD name [], g ∈ r.guards

variable {P Q : Nonce → Prop} {s : Store RecordSet}

/-- A store in which nothing is set has no guards. -/
lemma guardsIn_empty : (empty : Store RecordSet).GuardsIn P := by
  intro name
  rw [getD_empty]
  exact fun r hr => absurd hr List.not_mem_nil

/-- What holds of all guards holds of one that a record carries. -/
lemma GuardsIn.of_holds (h : s.GuardsIn P) {g : Nonce} (hg : s.Holds g) : P g := by
  obtain ⟨name, r, hr, hg⟩ := hg
  exact h name r hr g hg

/-- A property of all guards may be weakened. -/
lemma GuardsIn.mono (h : s.GuardsIn P) (hPQ : ∀ g, P g → Q g) : s.GuardsIn Q :=
  fun name r hr g hg => hPQ g (h name r hr g hg)

/-- A record set may be put under any name. -/
lemma GuardsIn.set (h : s.GuardsIn P) (name : String) {rs : RecordSet} (hrs : rs.GuardsIn P) :
    (s.set name rs).GuardsIn P := by
  intro other
  by_cases hother : other = name
  · rw [hother, getD_set_self]
    exact hrs
  · rw [getD_set_ne s rs [] hother]
    exact h other

/-- One step adds no other guards than those that it stamps. -/
lemma GuardsIn.apply (h : s.GuardsIn P) (step : RecordSet.Step) (hstep : ∀ g ∈ step.stamped, P g) :
    (step.apply s).GuardsIn P := by
  refine h.set step.target ?_
  cases step with
  | merge left right into => exact (h left).merge (h right)
  | stamp source gs into => exact (h source).cross (.stamp gs) hstep
  | matchGuard source g into => exact (h source).cross (.matchGuard g) nofun

end Store

/-! ### Runs -/

/-- An analysis under way: the source of its nonces, and its record sets. -/
structure Analysis where
  minter : Minter
  sets : Store RecordSet

namespace Analysis

/-- What an analysis does next: it mints a nonce, or takes a step on the record sets. -/
inductive Action where
  | mint
  | step (s : RecordSet.Step)

/-- The nonces that an action stamps. -/
def Action.stamped : Action → List Nonce
  | .mint => []
  | .step s => s.stamped

/-- The nonce that is minted next. -/
def next (a : Analysis) : Nonce :=
  a.minter.mint.1

/-- The analysis after an action. -/
def act (a : Analysis) : Action → Analysis
  | .mint => { a with minter := a.minter.mint.2 }
  | .step s => { a with sets := s.apply a.sets }

/-- The analysis after a run of actions, the first one first. -/
def run (a : Analysis) (actions : List Action) : Analysis :=
  actions.foldl act a

/-- The nonces that a run mints, in order. -/
def minted : Analysis → List Action → List Nonce
  | _, [] => []
  | a, .mint :: actions => a.next :: (a.act .mint).minted actions
  | a, .step s :: actions => (a.act (.step s)).minted actions

/-- Every nonce that a run stamps has been minted by then, or some stored record carries it or has
carried it before. -/
def StampsKnown (a : Analysis) (actions : List Action) : Prop :=
  ∀ before action after, actions = before ++ action :: after → ∀ g ∈ action.stamped,
    g ∈ a.minted before ∨ ∃ earlier, earlier <+: before ∧ (a.run earlier).sets.Holds g

variable {a : Analysis} {actions : List Action}

/-- A run goes on where its first part ended. -/
lemma run_append (a : Analysis) (before after : List Action) :
    a.run (before ++ after) = (a.run before).run after :=
  List.foldl_append

/-- A run mints what its first part mints, and then what its second part does. -/
lemma minted_append (a : Analysis) (before after : List Action) :
    a.minted (before ++ after) = a.minted before ++ (a.run before).minted after := by
  induction before generalizing a with
  | nil => rfl
  | cons action before ih =>
    cases action with
    | mint => exact congrArg (a.next :: ·) (ih (a.act .mint))
    | step s => exact ih (a.act (.step s))

/-- The longer a run, the more it has minted. -/
lemma length_minted_le {before : List Action} (h : before <+: actions) :
    (a.minted before).length ≤ (a.minted actions).length := by
  obtain ⟨after, rfl⟩ := h
  rw [minted_append, List.length_append]
  exact Nat.le_add_right ..

/-- What is known of the stamps of a run is known of those of its first part. -/
lemma StampsKnown.of_prefix (h : a.StampsKnown actions) {before : List Action}
    (hbefore : before <+: actions) : a.StampsKnown before := by
  obtain ⟨rest, rfl⟩ := hbefore
  rintro earlier action after rfl
  exact h earlier action (after ++ rest) (by simp)

/-- One more action may stamp what is known by then. -/
lemma StampsKnown.concat (h : a.StampsKnown actions) (action : Action)
    (haction : ∀ g ∈ action.stamped,
      g ∈ a.minted actions ∨ ∃ earlier, earlier <+: actions ∧ (a.run earlier).sets.Holds g) :
    a.StampsKnown (actions ++ [action]) := by
  intro before action' after heq
  rcases List.eq_nil_or_concat' after with rfl | ⟨after, last, rfl⟩
  · obtain ⟨rfl, hlast⟩ := List.append_inj' heq rfl
    obtain rfl := List.singleton_inj.mp hlast
    exact haction
  · rw [← List.cons_append, ← List.append_assoc] at heq
    exact h before action' after (List.append_inj' heq rfl).1

/-! ### The counter -/

/-- The next nonce is as far from the first one as nonces have been minted, unless the minter has
started over. -/
lemma next_run (hroom : a.next.raw.toNat + (a.minted actions).length < UInt64.size) :
    (a.run actions).next.raw.toNat = a.next.raw.toNat + (a.minted actions).length := by
  induction actions generalizing a with
  | nil => rfl
  | cons action actions ih =>
    cases action with
    | step s => exact ih hroom
    | mint =>
      have hlength : (a.minted (.mint :: actions)).length =
          ((a.act .mint).minted actions).length + 1 := rfl
      have hnext : (a.act .mint).next.raw.toNat = a.next.raw.toNat + 1 := by
        have hadd : (a.act .mint).next.raw.toNat = (a.next.raw.toNat + 1) % UInt64.size := rfl
        rw [hadd, Nat.mod_eq_of_lt (by omega)]
      have hrun := @ih (a.act .mint) (by omega)
      have hsame : a.run (.mint :: actions) = (a.act .mint).run actions := rfl
      rw [hsame, hrun, hnext, hlength]
      omega

/-- What a run has minted is below what it will mint next. -/
lemma minted_lt (hroom : a.next.raw.toNat + (a.minted actions).length ≤ UInt64.size) :
    ∀ g ∈ a.minted actions, g.raw.toNat < a.next.raw.toNat + (a.minted actions).length := by
  induction actions using List.reverseRecOn with
  | nil => nofun
  | append_singleton actions action ih =>
    rw [minted_append, List.length_append] at hroom ⊢
    intro g hg
    rcases List.mem_append.mp hg with hg | hg
    · have hlt := ih (by omega) g hg
      omega
    · cases action with
      | step s => cases hg
      | mint =>
        -- The last nonce is the next one of the run before it.
        have hone : (a.run actions).minted [.mint] = [(a.run actions).next] := rfl
        rw [hone, List.length_singleton] at hroom ⊢
        rw [hone, List.mem_singleton] at hg
        have hnext : (a.run actions).next.raw.toNat =
            a.next.raw.toNat + (a.minted actions).length := next_run (by omega)
        rw [hg, hnext]
        omega

/-! ### Guards along a run -/

/-- An action adds no other guards than those that it stamps. -/
lemma guardsIn_act {P : Nonce → Prop} (h : a.sets.GuardsIn P) (action : Action)
    (haction : ∀ g ∈ action.stamped, P g) : (a.act action).sets.GuardsIn P := by
  cases action with
  | mint => exact h
  | step s => exact h.apply s haction

/-- A run adds no other guards than those that it stamps. -/
lemma guardsIn_run_of_stamped {P : Nonce → Prop} (h : a.sets.GuardsIn P)
    (hstamped : ∀ action ∈ actions, ∀ g ∈ action.stamped, P g) :
    (a.run actions).sets.GuardsIn P := by
  induction actions generalizing a with
  | nil => exact h
  | cons action actions ih =>
    obtain ⟨haction, hactions⟩ := List.forall_mem_cons.mp hstamped
    exact ih (guardsIn_act h action haction) hactions

/-- All guards stay below the next nonce, if they are below it at the beginning and the run stamps
only what it knows. -/
lemma guardsIn_run (h : a.sets.GuardsIn (·.raw.toNat < a.next.raw.toNat))
    (hknown : a.StampsKnown actions)
    (hroom : a.next.raw.toNat + (a.minted actions).length ≤ UInt64.size) :
    (a.run actions).sets.GuardsIn
      (·.raw.toNat < a.next.raw.toNat + (a.minted actions).length) := by
  -- By induction on the length, since a stamped nonce may come from any earlier state of the run.
  induction hn : actions.length using Nat.strongRecOn generalizing actions with
  | ind n ih =>
    rcases List.eq_nil_or_concat' actions with rfl | ⟨before, action, rfl⟩
    · exact h
    have hbefore : ∀ earlier, earlier <+: before → (a.run earlier).sets.GuardsIn
        (·.raw.toNat < a.next.raw.toNat + (a.minted (before ++ [action])).length) := by
      intro earlier hearlier
      have hwhole : earlier <+: before ++ [action] := hearlier.trans (List.prefix_append ..)
      have hle : (a.minted earlier).length ≤ (a.minted (before ++ [action])).length :=
        length_minted_le hwhole
      have hlt : earlier.length < n := by
        have := hearlier.length_le
        rw [List.length_append, List.length_singleton] at hn
        omega
      refine (ih _ hlt (hknown.of_prefix hwhole) (by omega) rfl).mono fun g hg => ?_
      omega
    rw [run_append]
    refine guardsIn_act (hbefore before (List.prefix_refl _)) action fun g hg => ?_
    rcases hknown before action [] rfl g hg with hminted | ⟨earlier, hearlier, hheld⟩
    · refine minted_lt hroom g ?_
      rw [minted_append]
      exact List.mem_append_left _ hminted
    · exact (hbefore earlier hearlier).of_holds hheld

/-- An analysis with the given record sets, whose first nonce is the given one. -/
def startingAt (first : UInt64) (sets : Store RecordSet) : Analysis :=
  ⟨.startingAt first, sets⟩

/-- Nonces stay fresh.  Let all guards be below the first nonce, and let a run stamp only nonces
that it knows and mint no more nonces than there are from the first one on.  Then at every state of
the run all guards are below the first nonce plus the number of nonces minted so far.  Every nonce
that is minted is new: it was not minted before, and no stored record carries it.  As long as it is
not stamped, its match changes no stored set. -/
theorem nonces_stay_fresh (first : UInt64) (sets : Store RecordSet) (actions : List Action)
    (hsets : sets.GuardsIn (·.raw.toNat < first.toNat))
    (hknown : (startingAt first sets).StampsKnown actions)
    (hroom : ((startingAt first sets).minted actions).length ≤ UInt64.size - first.toNat) :
    (∀ before, before <+: actions → ((startingAt first sets).run before).sets.GuardsIn
        (·.raw.toNat < first.toNat + ((startingAt first sets).minted before).length)) ∧
      ∀ before after, actions = before ++ .mint :: after →
        let a := (startingAt first sets).run before
        a.next ∉ (startingAt first sets).minted before ∧ ¬ a.sets.Holds a.next ∧
          ∀ later, later <+: after → (∀ action ∈ later, a.next ∉ action.stamped) → ∀ name,
            RecordSet.matchGuard a.next ((a.run (.mint :: later)).sets.getD name []) =
              (a.run (.mint :: later)).sets.getD name [] := by
  have hfirst : first.toNat < UInt64.size := first.toNat_lt
  have hstart : (startingAt first sets).next.raw.toNat = first.toNat := rfl
  have hguards : ∀ before, before <+: actions →
      ((startingAt first sets).run before).sets.GuardsIn
        (·.raw.toNat < first.toNat + ((startingAt first sets).minted before).length) := by
    intro before hbefore
    have hle : ((startingAt first sets).minted before).length ≤
        ((startingAt first sets).minted actions).length := length_minted_le hbefore
    exact guardsIn_run hsets (hknown.of_prefix hbefore) (by omega)
  refine ⟨hguards, ?_⟩
  rintro before after rfl
  intro a
  have hlength : ((startingAt first sets).minted before).length + 1 ≤
      ((startingAt first sets).minted (before ++ .mint :: after)).length := by
    rw [minted_append, List.length_append]
    exact Nat.add_le_add_left (Nat.le_add_left 1 _) _
  have hnext : a.next.raw.toNat = first.toNat + ((startingAt first sets).minted before).length :=
    next_run (by omega)
  have hunheld : a.sets.GuardsIn (· ≠ a.next) := by
    refine (hguards before (List.prefix_append ..)).mono fun g hg => ?_
    rintro rfl
    omega
  refine ⟨fun hminted => ?_, fun hheld => hunheld.of_holds hheld rfl, ?_⟩
  · have hlt := minted_lt (by omega) a.next hminted
    omega
  · intro later _ hlater name
    have hrun : (a.run (.mint :: later)).sets.GuardsIn (· ≠ a.next) := by
      refine guardsIn_run_of_stamped (a := a.act .mint) hunheld fun action haction g hg => ?_
      rintro rfl
      exact hlater action haction hg
    exact RecordSet.matchGuard_eq_self (hrun name)

/-- Two nonces are left.  The first one is minted, stamped beside an old one, and lost in a merge.
The second one is the largest of all; it was not minted before, no record carries it, and its match
finds nothing after the first one is stamped again. -/
theorem last_nonce_stays_fresh :
    let first : UInt64 := 0xfffffffffffffffe
    let left : RecordSet := [.deref 1 [3, 0xfffffffffffffffd] true, .deref 2 [] false]
    let right : RecordSet := [.deref 1 [3, 4] false]
    let sets : Store RecordSet := (Store.empty.set "left" left).set "right" right
    let before : List Action :=
      [.mint, .step (.stamp "left" [⟨first⟩, ⟨4⟩] "left"), .step (.merge "left" "right" "join")]
    let after : List Action := [.step (.stamp "join" [⟨first⟩] "right")]
    let a : Analysis := (startingAt first sets).run before
    let a' : Analysis := a.run (.mint :: after)
    sets.GuardsIn (·.raw.toNat < first.toNat) ∧
      (startingAt first sets).StampsKnown (before ++ .mint :: after) ∧
      ((startingAt first sets).minted (before ++ .mint :: after)).length =
        UInt64.size - first.toNat ∧
      a.next = ⟨0xffffffffffffffff⟩ ∧ a.next ∉ (startingAt first sets).minted before ∧
      ¬ a.sets.Holds a.next ∧
      RecordSet.matchGuard a.next (a'.sets.getD "right" []) = a'.sets.getD "right" [] := by
  intro first left right sets before after a a'
  have hleft : left.GuardsIn (·.raw.toNat < first.toNat) := by
    simp [left, first, RecordSet.GuardsIn, Record.deref, GuardSet.ofList]
  have hright : right.GuardsIn (·.raw.toNat < first.toNat) := by
    simp [right, first, RecordSet.GuardsIn, Record.deref, GuardSet.ofList]
  have hsets : sets.GuardsIn (·.raw.toNat < first.toNat) :=
    (Store.guardsIn_empty.set "left" hleft).set "right" hright
  have hheld : sets.Holds ⟨4⟩ :=
    ⟨"right", .deref 1 [3, 4] false, List.mem_cons_self, GuardSet.contains_iff.mp rfl⟩
  have hknown : (startingAt first sets).StampsKnown (before ++ .mint :: after) := by
    have hnone : (startingAt first sets).StampsKnown [] := by simp [StampsKnown]
    have hmint := hnone.concat .mint nofun
    have hstamp := hmint.concat (.step (.stamp "left" [⟨first⟩, ⟨4⟩] "left")) <|
      List.forall_mem_cons.mpr ⟨.inl List.mem_cons_self,
        List.forall_mem_singleton.mpr (.inr ⟨[], List.nil_prefix, hheld⟩)⟩
    have hmerge := hstamp.concat (.step (.merge "left" "right" "join")) nofun
    have hlast := hmerge.concat .mint nofun
    exact hlast.concat (.step (.stamp "join" [⟨first⟩] "right")) <|
      List.forall_mem_singleton.mpr (.inl List.mem_cons_self)
  have hlength : ((startingAt first sets).minted (before ++ .mint :: after)).length =
      UInt64.size - first.toNat := by
    have htwo : 2 = UInt64.size - first.toNat := by decide
    rw [← htwo]
    rfl
  have hnext : a.next = ⟨0xffffffffffffffff⟩ := rfl
  have hafter : ∀ action ∈ after, a.next ∉ action.stamped := by
    rw [hnext]
    decide
  obtain ⟨-, hfresh⟩ := nonces_stay_fresh first sets _ hsets hknown hlength.le
  obtain ⟨hminted, hunheld, hmatch⟩ := hfresh before after rfl
  exact ⟨hsets, hknown, hlength, hnext, hminted, hunheld,
    hmatch after (List.prefix_refl after) hafter "right"⟩

end Analysis

end NilFlow
