import Mathlib.Data.List.Induction
import Mathlib.Data.List.Nodup

/-!
# Order of first occurrence

`List.eraseDups` keeps the first occurrence of every entry.  Records are taken into a set one after
the other, so the lemmas here look at a list from its end: one more entry counts only if it is new
(`eraseDups_concat`), and what holds of all lists is proved by induction on the last entry.
-/

namespace NilFlow

variable {α : Type} [DecidableEq α]

/-- Of a list with one more entry, the entry counts only if it is new. -/
lemma eraseDups_concat (ks : List α) (k : α) :
    (ks ++ [k]).eraseDups = if k ∈ ks then ks.eraseDups else ks.eraseDups ++ [k] := by
  rw [List.eraseDups_append]
  by_cases hk : k ∈ ks <;> simp [List.removeAll, List.eraseDups_cons, hk]

/-- The entries that are left are pairwise different. -/
lemma nodup_eraseDups (ks : List α) : ks.eraseDups.Nodup := by
  induction ks using List.reverseRecOn with
  | nil => simp
  | append_singleton ks k ih =>
    rw [eraseDups_concat]
    by_cases hk : k ∈ ks
    · rw [if_pos hk]
      exact ih
    · rw [if_neg hk]
      refine List.nodup_append.mpr ⟨ih, List.nodup_singleton k, ?_⟩
      intro a ha b hb hab
      rw [hab, List.mem_singleton.mp hb, List.mem_eraseDups] at ha
      exact hk ha

/-- A list without repetitions stays as it is. -/
lemma eraseDups_eq_self {ks : List α} (h : ks.Nodup) : ks.eraseDups = ks := by
  induction ks using List.reverseRecOn with
  | nil => rfl
  | append_singleton ks k ih =>
    obtain ⟨hks, -, hne⟩ := List.nodup_append.mp h
    have hk : k ∉ ks := fun hk => hne k hk k (List.mem_singleton_self k) rfl
    rw [eraseDups_concat, if_neg hk, ih hks]

/-- Repetitions may be dropped before or after filtering. -/
lemma eraseDups_filter (p : α → Bool) (ks : List α) :
    (ks.filter p).eraseDups = ks.eraseDups.filter p := by
  induction ks using List.reverseRecOn with
  | nil => rfl
  | append_singleton ks k ih =>
    by_cases hp : p k = true
    · by_cases hk : k ∈ ks <;> simp [eraseDups_concat, hp, hk, ih]
    · by_cases hk : k ∈ ks <;> simp [eraseDups_concat, hp, hk, ih]

/-- Of two lists one after the other, the second contributes what the first has not. -/
lemma eraseDups_append (js ks : List α) :
    (js ++ ks).eraseDups = js.eraseDups ++ ks.eraseDups.filter (· ∉ js.eraseDups) := by
  rw [List.eraseDups_append, ← eraseDups_filter]
  congr 2
  refine List.filter_congr fun k _ => ?_
  simp

end NilFlow
