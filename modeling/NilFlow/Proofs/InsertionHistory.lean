import Mathlib.Data.Set.Card
import Mathlib.Logic.Relation
import NilFlow.Snapshot

/-!
# Snapshots after a history of insertions

Two sites are the same if they agree in shape, in the ids of their declarations and in the slot
(`Site.Same`); nothing else that their declarations say counts.  Identities compare just this
(`Site.same_iff_id_eq`), so a snapshot is a partial map on the classes of same sites
(`Snapshot.view`), and an insertion changes it at one class (`Snapshot.view_insert`).

What a history of insertions leaves is read off from the last one at each class
(`Snapshot.lookup_ofList`).  Insertions at different classes are updates at different places, so
they commute (`Snapshot.Swap.view_eq`), and neighbours may change places any number of times.
-/

namespace NilFlow

/-! ### Same sites -/

/-- The id of a declaration, along with the table it belongs to. -/
abbrev DeclId : Type :=
  Σ table : Table, Id table

namespace Site

/-- The shapes of sites. -/
inductive Shape where
  | param
  | receiver
  | result
  | field
  | argumentField
  | resultField
  | escapingField
  | global
  | typeName
  deriving DecidableEq

/-- The shape of a site. -/
def shape : Site → Shape
  | .param _ => .param
  | .receiver _ => .receiver
  | .result _ => .result
  | .field _ => .field
  | .argumentField _ => .argumentField
  | .resultField _ => .resultField
  | .escapingField _ => .escapingField
  | .global _ => .global
  | .typeName _ => .typeName

/-- The ids of the declarations that a site names. -/
def decls : Site → List DeclId
  | .param s => [⟨.func, s.func.id⟩]
  | .receiver s => [⟨.func, s.func.id⟩]
  | .result s => [⟨.func, s.func.id⟩]
  | .field f => [⟨.field, f.id⟩]
  | .argumentField s => [⟨.func, s.argument.func.id⟩, ⟨.field, s.field.id⟩]
  | .resultField s => [⟨.func, s.result.func.id⟩, ⟨.field, s.field.id⟩]
  | .escapingField f => [⟨.field, f.id⟩]
  | .global s => [⟨.var, s.var.id⟩]
  | .typeName t => [⟨.type, t.id⟩]

/-- The position of the parameter or result; a receiver has none. -/
def slot? : Site → Option Nat
  | .param s => some s.index
  | .result s => some s.index
  | .argumentField s => s.argument.index?
  | .resultField s => some s.result.index
  | .receiver _ | .field _ | .escapingField _ | .global _ | .typeName _ => none

/-- Two sites have the same shape, the same declaration ids and the same slot. -/
structure Same (s t : Site) : Prop where
  shape : s.shape = t.shape
  decls : s.decls = t.decls
  slot : s.slot? = t.slot?

end Site

/-- The shape, the declaration ids and the slot of an identity. -/
def SiteId.parts : SiteId → Site.Shape × List DeclId × Option Nat
  | .param f n => (.param, [⟨.func, f⟩], some n)
  | .receiver f => (.receiver, [⟨.func, f⟩], none)
  | .result f n => (.result, [⟨.func, f⟩], some n)
  | .field g => (.field, [⟨.field, g⟩], none)
  | .argumentField f n? g => (.argumentField, [⟨.func, f⟩, ⟨.field, g⟩], n?)
  | .resultField f n g => (.resultField, [⟨.func, f⟩, ⟨.field, g⟩], some n)
  | .escapingField g => (.escapingField, [⟨.field, g⟩], none)
  | .global v => (.global, [⟨.var, v⟩], none)
  | .typeName t => (.typeName, [⟨.type, t⟩], none)

/-- An identity has no other parts. -/
lemma SiteId.parts_injective : Function.Injective SiteId.parts := by
  intro i j h
  -- The shapes tell the constructors apart; of one constructor, all arguments are among the parts.
  cases i <;> cases j <;> cases h <;> rfl

namespace Site

/-- The identity of a site keeps its parts. -/
lemma parts_id (s : Site) : s.id.parts = (s.shape, s.decls, s.slot?) := by
  cases s <;> rfl

/-- Same sites are those of the same identity. -/
lemma same_iff_id_eq {s t : Site} : s.Same t ↔ s.id = t.id := by
  rw [← SiteId.parts_injective.eq_iff, parts_id, parts_id, Prod.mk.injEq, Prod.mk.injEq]
  exact ⟨fun h => ⟨h.shape, h.decls, h.slot⟩, fun h => ⟨h.1, h.2.1, h.2.2⟩⟩

/-- Sameness of sites can be tested. -/
instance : DecidableRel Same :=
  fun s t => decidable_of_iff (s.id = t.id) same_iff_id_eq.symm

/-- Sites count once for all handles of their declarations. -/
instance setoid : Setoid Site where
  r := Same
  iseqv :=
    { refl := fun _ => ⟨rfl, rfl, rfl⟩
      symm := fun h => ⟨h.shape.symm, h.decls.symm, h.slot.symm⟩
      trans := fun h h' => ⟨h.shape.trans h'.shape, h.decls.trans h'.decls, h.slot.trans h'.slot⟩ }

/-- A site, whatever the handles of its declarations. -/
abbrev Class : Type :=
  Quotient setoid

namespace Class

/-- The identity of the sites of a class. -/
def id : Class → SiteId :=
  Quotient.lift Site.id fun _ _ h => same_iff_id_eq.mp h

/-- Different classes have different identities. -/
lemma id_injective : Function.Injective Class.id := by
  rintro ⟨s⟩ ⟨t⟩ h
  exact Quotient.sound (same_iff_id_eq.mpr h)

/-- Classes are compared by their identities. -/
instance : DecidableEq Class :=
  fun c d => decidable_of_iff (c.id = d.id) id_injective.eq_iff

end Class

end Site

namespace Snapshot

/-! ### Snapshots as maps -/

/-- The annotations of a snapshot, by classes of sites. -/
def view (m : Snapshot) : Site.Class → Option Annotation :=
  Quotient.lift m.lookup fun _ _ h => m.lookup_eq_of_id_eq (Site.same_iff_id_eq.mp h)

/-- An insertion changes the annotation of one class. -/
lemma view_insert (m : Snapshot) (s : Site) (a : Annotation) :
    (m.insert s a).view = Function.update m.view ⟦s⟧ (some a) := by
  funext c
  induction c using Quotient.inductionOn with
  | h k =>
    have hlookup : (m.insert s a).view ⟦k⟧ = if k.id = s.id then some a else m.view ⟦k⟧ :=
      m.lookup_insert s k a
    have hclass : (⟦k⟧ : Site.Class) = ⟦s⟧ ↔ k.id = s.id :=
      Quotient.eq.trans Site.same_iff_id_eq
    rw [hlookup, Function.update_apply]
    simp only [hclass]

/-! ### What a history leaves -/

/-- A history with one more insertion. -/
lemma ofList_concat (l : List (Site × Annotation)) (e : Site × Annotation) :
    ofList (l ++ [e]) = (ofList l).insert e.1 e.2 := by
  rw [ofList, List.foldl_concat]
  rfl

/-- The annotation of a site is that of the last insertion at it. -/
lemma lookup_ofList (l : List (Site × Annotation)) (k : Site) :
    (ofList l).lookup k = (l.reverse.find? (·.1.Same k)).map (·.2) := by
  induction l using List.reverseRecOn with
  | nil => rfl
  | append_singleton l e ih =>
    rw [ofList_concat, lookup_insert, ih, List.reverse_concat, List.find?_cons]
    by_cases he : e.1.Same k
    · simp [he, (Site.same_iff_id_eq.mp he).symm]
    · have hid : k.id ≠ e.1.id := fun hid => he (Site.same_iff_id_eq.mpr hid.symm)
      simp [he, hid]

/-- A site has an annotation if that is inserted at the site and no other one is afterwards. -/
lemma lookup_ofList_eq_some_iff (l : List (Site × Annotation)) (k : Site) (a : Annotation) :
    (ofList l).lookup k = some a ↔
      ∃ before s after, l = before ++ (s, a) :: after ∧ s.Same k ∧ ∀ e ∈ after, ¬ e.1.Same k := by
  rw [lookup_ofList, Option.map_eq_some_iff]
  constructor
  · rintro ⟨⟨s, _⟩, hfind, rfl⟩
    -- The list is searched from its end, so what comes first in the search was inserted later.
    obtain ⟨hs, after, before, hl, hafter⟩ := List.find?_eq_some_iff_append.mp hfind
    refine ⟨before.reverse, s, after.reverse, ?_, by simpa using hs, by simpa using hafter⟩
    rw [← List.reverse_reverse l, hl]
    simp
  · rintro ⟨before, s, after, rfl, hs, hafter⟩
    refine ⟨(s, a), List.find?_eq_some_iff_append.mpr ?_, rfl⟩
    exact ⟨by simpa using hs, after.reverse, before.reverse, by simp, by simpa using hafter⟩

/-- A site has no annotation if none is inserted at it. -/
lemma lookup_ofList_eq_none_iff (l : List (Site × Annotation)) (k : Site) :
    (ofList l).lookup k = none ↔ ∀ e ∈ l, ¬ e.1.Same k := by
  rw [lookup_ofList, Option.map_eq_none_iff, List.find?_eq_none]
  simp

/-- The keys of the entries are the identities of the sites that were inserted. -/
lemma mem_keys_ofList {l : List (Site × Annotation)} {i : SiteId} :
    i ∈ (ofList l).annotations.keys ↔ ∃ e ∈ l, e.1.id = i := by
  induction l using List.reverseRecOn with
  | nil => simp [ofList, empty, FiniteMap.empty, FiniteMap.keys]
  | append_singleton l e ih =>
    rw [ofList_concat, insert, FiniteMap.mem_keys_insert, ih]
    simp only [List.mem_append, List.mem_singleton, or_and_right, exists_or, exists_eq_left]
    rw [or_comm, eq_comm]

/-- As many sites are annotated as classes of them were inserted. -/
lemma size_ofList (l : List (Site × Annotation)) :
    (ofList l).size = {c : Site.Class | ∃ e ∈ l, ⟦e.1⟧ = c}.ncard := by
  have hkeys : {i | i ∈ (ofList l).annotations.keys} =
      Site.Class.id '' {c | ∃ e ∈ l, ⟦e.1⟧ = c} := by
    ext i
    rw [Set.mem_ofPred_eq, mem_keys_ofList, Set.mem_image]
    constructor
    · rintro ⟨e, he, rfl⟩
      exact ⟨⟦e.1⟧, ⟨e, he, rfl⟩, rfl⟩
    · rintro ⟨_, ⟨e, he, rfl⟩, rfl⟩
      exact ⟨e, he, rfl⟩
  rw [← Set.ncard_image_of_injective _ Site.Class.id_injective, ← hkeys, ← List.coe_toFinset,
    Set.ncard_coe_finset, List.toFinset_card_of_nodup (ofList l).annotations.nodup_keys,
    FiniteMap.length_keys, size]

/-! ### What the insertions return -/

/-- What one insertion after the other returns, and the snapshot that they leave. -/
def exchangeAll (m : Snapshot) :
    List (Site × Annotation) → List (Option Annotation) × Snapshot
  | [] => ([], m)
  | e :: l =>
    let p := m.exchange e.1 e.2
    (p.2.exchangeAll l).map (p.1 :: ·) id

/-- The first insertion returns the annotation that its site has at the start. -/
lemma exchangeAll_cons (m : Snapshot) (e : Site × Annotation) (l : List (Site × Annotation)) :
    m.exchangeAll (e :: l) =
      ((m.insert e.1 e.2).exchangeAll l).map (m.lookup e.1 :: ·) id := by
  rw [exchangeAll, exchange_eq]

/-- Each insertion returns something. -/
lemma length_exchangeAll (m : Snapshot) (l : List (Site × Annotation)) :
    (m.exchangeAll l).1.length = l.length := by
  induction l generalizing m with
  | nil => rfl
  | cons e l ih =>
    rw [exchangeAll_cons, Prod.map_fst, List.length_cons, ih, List.length_cons]

/-- The insertions leave the snapshot that has their annotations. -/
lemma exchangeAll_snd (m : Snapshot) (l : List (Site × Annotation)) :
    (m.exchangeAll l).2 = l.foldl (fun m e => m.insert e.1 e.2) m := by
  induction l generalizing m with
  | nil => rfl
  | cons e l ih =>
    rw [exchangeAll_cons, Prod.map_snd, id, ih, List.foldl_cons]

/-- An insertion returns the annotation that its site has just before. -/
lemma exchangeAll_getElem? (m : Snapshot) (before after : List (Site × Annotation))
    (e : Site × Annotation) :
    (m.exchangeAll (before ++ e :: after)).1[before.length]? =
      some ((m.exchangeAll before).2.lookup e.1) := by
  induction before generalizing m with
  | nil =>
    rw [List.nil_append, exchangeAll_cons]
    rfl
  | cons d before ih =>
    rw [List.cons_append, exchangeAll_cons, exchangeAll_cons, Prod.map_fst, Prod.map_snd,
      List.length_cons, List.getElem?_cons_succ]
    exact ih (m.insert d.1 d.2)

/-! ### Insertions that change places -/

/-- A snapshot takes one update for each insertion. -/
lemma view_ofList (l : List (Site × Annotation)) :
    (ofList l).view =
      l.foldl (fun v e => Function.update v ⟦e.1⟧ (some e.2)) empty.view := by
  induction l using List.reverseRecOn with
  | nil => rfl
  | append_singleton l e ih => rw [ofList_concat, view_insert, ih, List.foldl_concat]

/-- Two neighbouring insertions of different sites have changed places. -/
inductive Swap : List (Site × Annotation) → List (Site × Annotation) → Prop where
  | neighbours (before after : List (Site × Annotation)) {d e : Site × Annotation}
      (h : ¬ d.1.Same e.1) : Swap (before ++ d :: e :: after) (before ++ e :: d :: after)

/-- The order of two neighbouring insertions of different sites makes no difference. -/
lemma Swap.view_eq {l l' : List (Site × Annotation)} (h : Swap l l') :
    (ofList l').view = (ofList l).view := by
  obtain @⟨before, after, d, e, hne⟩ := h
  have hclass : (⟦d.1⟧ : Site.Class) ≠ ⟦e.1⟧ := fun heq => hne (Quotient.exact heq)
  simp only [view_ofList, List.foldl_append, List.foldl_cons]
  rw [Function.update_comm hclass]

/-- Nor does it if neighbours change places again and again. -/
lemma view_eq_of_swaps {l l' : List (Site × Annotation)} (h : Relation.ReflTransGen Swap l l') :
    (ofList l').view = (ofList l).view := by
  induction h with
  | refl => rfl
  | tail _ hswap ih => exact hswap.view_eq.trans ih

/-! ### Snapshots as finite maps -/

/-- Snapshots are finite maps on sites, which count by shape, declaration ids and slot.  After any
history of insertions a site has the annotation of the last one at the same site, and none exactly
if there is no such insertion.  Each insertion has returned the annotation that its site had just
before; as many sites are annotated as different ones were inserted; and a history in which
neighbouring insertions of different sites have changed places leaves the same annotations. -/
theorem finite_map_modulo_identity (l : List (Site × Annotation)) :
    (∀ k a, (ofList l).lookup k = some a ↔
      ∃ before s after, l = before ++ (s, a) :: after ∧ s.Same k ∧ ∀ e ∈ after, ¬ e.1.Same k) ∧
    (∀ k, (ofList l).lookup k = none ↔ ∀ e ∈ l, ¬ e.1.Same k) ∧
    (empty.exchangeAll l).2 = ofList l ∧ (empty.exchangeAll l).1.length = l.length ∧
    (∀ before e after, l = before ++ e :: after →
      (empty.exchangeAll l).1[before.length]? = some ((ofList before).lookup e.1)) ∧
    (ofList l).size = {c : Site.Class | ∃ e ∈ l, ⟦e.1⟧ = c}.ncard ∧
    ∀ l', Relation.ReflTransGen Swap l l' → ∀ k, (ofList l').lookup k = (ofList l).lookup k := by
  have hleft : ∀ h, (empty.exchangeAll h).2 = ofList h := exchangeAll_snd empty
  refine ⟨lookup_ofList_eq_some_iff l, lookup_ofList_eq_none_iff l, hleft l,
    length_exchangeAll empty l, ?_, size_ofList l, ?_⟩
  · rintro before e after rfl
    rw [exchangeAll_getElem?, hleft]
  · intro l' h k
    exact congrFun (view_eq_of_swaps h) ⟦k⟧

/-- A function is described again as a method by another name, and its parameter stays the same
site.  A field and the escaping field are two sites, and so are a field of the receiver and that of
the first parameter, whose insertions change places. -/
theorem finite_map_of_redescribed_sites :
    let f : FuncDecl :=
      { FuncDecl.plain ⟨7⟩ "Find" with params := [⟨"id", "string"⟩, ⟨"n", "int"⟩] }
    let f' : FuncDecl := ⟨⟨7⟩, "Seek", "store", some "Db", [⟨"key", "*Key"⟩], [], true⟩
    let conn : FieldDecl := ⟨⟨4⟩, "conn", "Db"⟩
    let conn' : FieldDecl := ⟨⟨4⟩, "link", "Pool"⟩
    let start : List (Site × Annotation) :=
      [(.param ⟨f, 0, by decide⟩, .nonNil), (.field conn, .nilable), (.escapingField conn, .nonNil)]
    let received : Site × Annotation := (.argumentField ⟨.receiver ⟨f', rfl⟩, conn⟩, ⟨true, false⟩)
    let passed : Site × Annotation :=
      (.argumentField ⟨.param ⟨f', 0, by decide⟩, conn'⟩, ⟨false, true⟩)
    let last : Site × Annotation := (.param ⟨f', 0, by decide⟩, .nilable)
    let l := start ++ [received, passed, last]
    (ofList l).lookup (.param ⟨f, 0, by decide⟩) = some .nilable ∧
      (ofList l).lookup (.escapingField conn') = some .nonNil ∧
      (ofList l).lookup (.receiver ⟨f', rfl⟩) = none ∧
      (empty.exchangeAll l).1[5]? = some (some .nonNil) ∧
      {c : Site.Class | ∃ e ∈ l, ⟦e.1⟧ = c}.ncard = 5 ∧
      ∀ k, (ofList (start ++ [passed, received, last])).lookup k = (ofList l).lookup k := by
  intro f f' conn conn' start received passed last l
  obtain ⟨hsome, hnone, -, -, hreturned, hsize, hswaps⟩ := finite_map_modulo_identity l
  have hbefore : (ofList (start ++ [received, passed])).lookup last.1 = some .nonNil := rfl
  have hsites : (ofList l).size = 5 := rfl
  have hne : ¬ received.1.Same passed.1 := fun h => nomatch h.slot
  refine ⟨(hsome _ _).mpr ?_, (hsome _ _).mpr ?_, (hnone _).mpr ?_, ?_, hsize.symm.trans hsites, ?_⟩
  · exact ⟨start ++ [received, passed], last.1, [], rfl, ⟨rfl, rfl, rfl⟩, by simp⟩
  · exact ⟨start.take 2, .escapingField conn, [received, passed, last], rfl, ⟨rfl, rfl, rfl⟩,
      by decide⟩
  · decide
  · exact (hreturned (start ++ [received, passed]) last [] rfl).trans (congrArg some hbefore)
  · exact hswaps _ (.single (.neighbours start [last] hne))

end Snapshot

end NilFlow
