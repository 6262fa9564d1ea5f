/-!
# Finite maps

A finite map keeps its entries in a list in which no key stands twice. What is under a key does not
depend on the order of the entries (`FiniteMap.get?_eq_some_iff`). Their order shows only where all
values are run through, and nothing may rely on it there: such a run takes a `Shuffle`, which puts
the values into any order.
-/

namespace NilFlow

variable {κ α : Type}

/-- Values under keys, each key once. -/
structure FiniteMap (κ α : Type) where
  entries : List (κ × α)
  nodup : (entries.map (·.1)).Nodup

namespace FiniteMap

/-- No entries. -/
def empty : FiniteMap κ α := ⟨[], List.nodup_nil⟩

/-- The keys, in the order of the entries. -/
def keys (m : FiniteMap κ α) : List κ :=
  m.entries.map (·.1)

/-- The values, in the order of the entries. -/
def values (m : FiniteMap κ α) : List α :=
  m.entries.map (·.2)

/-- The number of entries. -/
def size (m : FiniteMap κ α) : Nat :=
  m.entries.length

/-- Whether there are no entries. -/
def isEmpty (m : FiniteMap κ α) : Bool :=
  m.entries.isEmpty

/-- No key stands twice. -/
theorem nodup_keys (m : FiniteMap κ α) : m.keys.Nodup := m.nodup

/-- There are as many keys as entries. -/
theorem length_keys (m : FiniteMap κ α) : m.keys.length = m.size := List.length_map _

end FiniteMap

variable [DecidableEq κ]

/-- The value that a key had, and the entries with another value under the key. -/
def exchangeEntry (key : κ) (a : α) : List (κ × α) → Option α × List (κ × α)
  | [] => (none, [(key, a)])
  | (k, b) :: es =>
    if k = key then (some b, (k, a) :: es) else (exchangeEntry key a es).map id ((k, b) :: ·)

/-- What is given back is what stood under the key. -/
theorem exchangeEntry_fst (key : κ) (a : α) (es : List (κ × α)) :
    (exchangeEntry key a es).1 = (es.find? (·.1 = key)).map (·.2) := by
  induction es with
  | nil => rfl
  | cons e es ih =>
    unfold exchangeEntry
    by_cases h : e.1 = key
    · simp [h]
    · simp [h, ih]

/-- A key that is new comes last. -/
theorem exchangeEntry_of_not_mem {key : κ} (a : α) {es : List (κ × α)} (h : key ∉ es.map (·.1)) :
    (exchangeEntry key a es).2 = es ++ [(key, a)] := by
  induction es with
  | nil => rfl
  | cons e es ih =>
    have hhead : ¬ e.1 = key := fun he => h (by simp [he])
    have htail : key ∉ es.map (·.1) := fun hmem => h (List.mem_cons_of_mem _ hmem)
    unfold exchangeEntry
    simp [hhead, ih htail]

/-- A key that is there already keeps its place. -/
theorem keys_exchangeEntry_of_mem {key : κ} (a : α) {es : List (κ × α)}
    (h : key ∈ es.map (·.1)) : (exchangeEntry key a es).2.map (·.1) = es.map (·.1) := by
  induction es with
  | nil => simp at h
  | cons e es ih =>
    unfold exchangeEntry
    by_cases he : e.1 = key
    · simp [he]
    · have htail : key ∈ es.map (·.1) := by
        rcases List.mem_cons.1 h with hhead | htail
        · exact absurd hhead.symm he
        · exact htail
      simp only [he, if_false, Prod.map_snd, List.map_cons, ih htail]

/-- The keys afterwards are those before, and the new one if it was not there. -/
theorem keys_exchangeEntry (key : κ) (a : α) (es : List (κ × α)) :
    (exchangeEntry key a es).2.map (·.1) =
      if key ∈ es.map (·.1) then es.map (·.1) else es.map (·.1) ++ [key] := by
  by_cases h : key ∈ es.map (·.1)
  · rw [if_pos h, keys_exchangeEntry_of_mem a h]
  · rw [if_neg h, exchangeEntry_of_not_mem a h, List.map_append]
    rfl

/-- No key comes to stand twice. -/
theorem nodup_keys_exchangeEntry {key : κ} {a : α} {es : List (κ × α)}
    (h : (es.map (·.1)).Nodup) : ((exchangeEntry key a es).2.map (·.1)).Nodup := by
  rw [keys_exchangeEntry]
  split
  · exact h
  · rename_i hkey
    refine List.nodup_append.2 ⟨h, List.nodup_cons.2 ⟨List.not_mem_nil, List.nodup_nil⟩, ?_⟩
    intro k hk k' hk' heq
    rw [heq, List.mem_singleton.1 hk'] at hk
    exact hkey hk

/-- The key has the new value, and every other key what it had. -/
theorem find?_exchangeEntry (key k : κ) (a : α) (es : List (κ × α)) :
    ((exchangeEntry key a es).2.find? (·.1 = k)).map (·.2) =
      if k = key then some a else (es.find? (·.1 = k)).map (·.2) := by
  induction es with
  | nil =>
    by_cases h : k = key
    · simp [exchangeEntry, h]
    · simp [exchangeEntry, h, Ne.symm h]
  | cons e es ih =>
    obtain ⟨k', b⟩ := e
    unfold exchangeEntry
    by_cases hk' : k' = key
    · subst hk'
      by_cases h : k = k'
      · simp [h]
      · simp [h, Ne.symm h]
    · by_cases h : k' = k
      · have hk : k ≠ key := fun hk => hk' (h.trans hk)
        simp [h, hk]
      · simp [hk', h, ih]

/-- An entry afterwards is the new one or was there before. -/
theorem mem_exchangeEntry {key : κ} {a : α} {es : List (κ × α)} {e : κ × α}
    (h : e ∈ (exchangeEntry key a es).2) : e = (key, a) ∨ e ∈ es := by
  induction es with
  | nil => exact .inl (List.mem_singleton.1 h)
  | cons d es ih =>
    unfold exchangeEntry at h
    by_cases hd : d.1 = key
    · rw [if_pos hd] at h
      rcases List.mem_cons.1 h with h | h
      · exact .inl (by rw [h, hd])
      · exact .inr (List.mem_cons_of_mem d h)
    · rw [if_neg hd] at h
      rcases List.mem_cons.1 h with h | h
      · exact .inr (by rw [h]; exact List.mem_cons_self)
      · exact (ih h).imp id (List.mem_cons_of_mem d)

/-- Where no key stands twice, what is found under a key is what some entry has there. -/
theorem find?_entry_eq_some_iff {key : κ} {a : α} {es : List (κ × α)}
    (h : (es.map (·.1)).Nodup) :
    (es.find? (·.1 = key)).map (·.2) = some a ↔ (key, a) ∈ es := by
  induction es with
  | nil => simp
  | cons e es ih =>
    obtain ⟨hhead, htail⟩ := List.nodup_cons.1 h
    by_cases he : e.1 = key
    · -- a second entry under this key would repeat it
      have hes : (key, a) ∉ es := fun hmem => hhead (List.mem_map.2 ⟨(key, a), hmem, he.symm⟩)
      obtain ⟨k, b⟩ := e
      obtain rfl : k = key := he
      simp [hes, eq_comm]
    · have hne : (key, a) ≠ e := fun heq => he (by rw [← heq])
      rw [List.find?_cons_of_neg (by simpa using he), ih htail, List.mem_cons, or_iff_right hne]

namespace FiniteMap

/-- The value under a key. -/
def get? (m : FiniteMap κ α) (key : κ) : Option α :=
  (m.entries.find? (·.1 = key)).map (·.2)

/-- Whether there is a value under a key. -/
def contains (m : FiniteMap κ α) (key : κ) : Bool :=
  (m.get? key).isSome

/-- The value that was under a key, and the map with another one there. -/
def exchange (m : FiniteMap κ α) (key : κ) (a : α) : Option α × FiniteMap κ α :=
  let p := exchangeEntry key a m.entries
  (p.1, ⟨p.2, nodup_keys_exchangeEntry m.nodup⟩)

/-- The map with a value put under a key. -/
def insert (m : FiniteMap κ α) (key : κ) (a : α) : FiniteMap κ α :=
  (m.exchange key a).2

/-- The key has the new value, and every other key what it had. -/
theorem get?_insert (m : FiniteMap κ α) (key k : κ) (a : α) :
    (m.insert key a).get? k = if k = key then some a else m.get? k :=
  find?_exchangeEntry key k a m.entries

/-- What an exchange gives back is what was under the key. -/
theorem exchange_eq (m : FiniteMap κ α) (key : κ) (a : α) :
    m.exchange key a = (m.get? key, m.insert key a) :=
  Prod.ext (exchangeEntry_fst key a m.entries) rfl

/-- The keys afterwards are those before, and the new one if it was not there. -/
theorem keys_insert (m : FiniteMap κ α) (key : κ) (a : α) :
    (m.insert key a).keys = if key ∈ m.keys then m.keys else m.keys ++ [key] :=
  keys_exchangeEntry key a m.entries

/-- A key is there afterwards if it is the new one or was there before. -/
theorem mem_keys_insert {m : FiniteMap κ α} {key k : κ} {a : α} :
    k ∈ (m.insert key a).keys ↔ k = key ∨ k ∈ m.keys := by
  rw [keys_insert]
  split
  · rename_i hkey
    refine ⟨.inr, fun hk => hk.elim (fun heq => ?_) id⟩
    rw [heq]
    exact hkey
  · rw [List.mem_append, List.mem_singleton, or_comm]

/-- An entry under a new key comes last. -/
theorem entries_insert_of_not_mem {m : FiniteMap κ α} {key : κ} (a : α) (h : key ∉ m.keys) :
    (m.insert key a).entries = m.entries ++ [(key, a)] :=
  exchangeEntry_of_not_mem a h

/-- An entry afterwards is the new one or was there before. -/
theorem mem_entries_insert {m : FiniteMap κ α} {key : κ} {a : α} {e : κ × α}
    (h : e ∈ (m.insert key a).entries) : e = (key, a) ∨ e ∈ m.entries :=
  mem_exchangeEntry h

/-- There is nothing under a key exactly if no entry has the key. -/
theorem get?_eq_none_iff {m : FiniteMap κ α} {key : κ} : m.get? key = none ↔ key ∉ m.keys := by
  rw [get?, Option.map_eq_none_iff, List.find?_eq_none, keys, List.mem_map]
  constructor
  · rintro h ⟨e, he, rfl⟩
    exact h e he (by simp)
  · intro h e he hkey
    exact h ⟨e, he, of_decide_eq_true hkey⟩

/-- A map has a key exactly if some entry does. -/
theorem contains_iff {m : FiniteMap κ α} {key : κ} : m.contains key = true ↔ key ∈ m.keys := by
  rw [contains, Option.isSome_iff_ne_none, Ne, get?_eq_none_iff, Decidable.not_not]

/-- A value is under a key exactly if the two make up an entry, wherever it stands. -/
theorem get?_eq_some_iff {m : FiniteMap κ α} {key : κ} {a : α} :
    m.get? key = some a ↔ (key, a) ∈ m.entries :=
  find?_entry_eq_some_iff m.nodup

/-- The values are what is under the keys. -/
theorem map_get?_keys (m : FiniteMap κ α) : m.keys.map m.get? = m.values.map some := by
  rw [keys, values, List.map_map, List.map_map]
  exact List.map_congr_left fun e he => get?_eq_some_iff.2 he

end FiniteMap

/-- A way to run through values: any list of them in some order. -/
structure Shuffle (α : Type) where
  arrange : List α → List α
  perm : ∀ as, (arrange as).Perm as

/-- Values in the order in which they were put in. -/
def Shuffle.asInserted : Shuffle α := ⟨id, List.Perm.refl⟩

end NilFlow
