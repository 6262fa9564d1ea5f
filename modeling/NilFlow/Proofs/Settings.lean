import Mathlib.Data.List.Basic
import NilFlow.Policy

/-!
# The nearest settings file decides

A reader takes a text for a table or rejects it; nothing is assumed about which texts it accepts.
Which switches a text then stands for is laid down without reference to how it is decoded
(`Config.Spells`): both are off unless the table `triggers` gives them.  Decoding a text gives
exactly these switches (`Config.ofText?_eq_some_iff`), and a text that stands for none is rejected.

Loading has four outcomes, and `Config.tryLoad_cases` says when each of them comes about.  All of
them depend on one file, the first one that the search finds.  The search asks about paths until one
is present and about no other (`Config.probes`), so what other file systems answer elsewhere cannot
matter: a file that is of no use hides those behind it.
-/

namespace NilFlow

namespace Config

/-! ### What a text stands for -/

/-- What an entry says about a switch: it is off if there is none, and else the entry is a truth
value. -/
inductive Sets : Option Toml.Node → Bool → Prop where
  | absent : Sets none false
  | given (b : Bool) : Sets (some (.scalar (.boolean b))) b

/-- What the entry `triggers` says about the two switches. -/
inductive Holds : Option Toml.Node → Config → Prop where
  /-- Both are off if there is no such entry. -/
  | absent : Holds none ⟨false, false⟩
  /-- A table has them under their names; the numbers in it have to stand for something. -/
  | table {standing : Toml.Standing} {entries : Toml.Entries} {mapRead structInit : Bool}
      (hvalued : Toml.Entries.isValued entries = true)
      (hmapRead : Sets (Toml.Entries.get? entries "error_on_nilable_map_read") mapRead)
      (hstructInit : Sets (Toml.Entries.get? entries "struct_init") structInit) :
      Holds (some (.table standing entries)) ⟨mapRead, structInit⟩
  /-- An array has them as its first two elements. -/
  | array {items : List Toml.Node} {mapRead structInit : Bool} (hmapRead : Sets items[0]? mapRead)
      (hstructInit : Sets items[1]? structInit) : Holds (some (.array items)) ⟨mapRead, structInit⟩
  /-- A date or a time has neither of them. -/
  | moment (token : String) : Holds (some (.scalar (.moment token))) ⟨false, false⟩

/-- The switches that a text stands for, if it is a valid one: it is read as a table, all numbers in
use stand for something, and its entry `triggers` gives the switches. -/
def Spells (read : String → Option Toml.Entries) (text : String) (c : Config) : Prop :=
  ∃ root, read text = some root ∧
    Toml.Entries.isValued (root.filter (·.1 != "triggers")) = true ∧
    Holds (Toml.Entries.get? root "triggers") c

/-- A switch is decoded to what its entry says. -/
lemma switch?_eq_some_iff {entry : Option Toml.Node} {b : Bool} :
    switch? entry = some b ↔ Sets entry b := by
  constructor
  · intro h
    unfold switch? at h
    split at h
    · cases h
      exact .absent
    · cases h
      exact .given b
    · cases h
  · rintro (_ | _) <;> rfl

/-- Two switches are decoded one after the other. -/
lemma switches_eq_some_iff {x y : Option Toml.Node} {c : Config} :
    (do return ⟨← switch? x, ← switch? y⟩ : Option Config) = some c ↔
      Sets x c.errorOnNilableMapRead ∧ Sets y c.structInit := by
  rw [← switch?_eq_some_iff, ← switch?_eq_some_iff]
  obtain ⟨mapRead, structInit⟩ := c
  cases switch? x <;> cases switch? y <;> simp

/-- What follows a check is reached if the check succeeds. -/
lemma guard_bind_eq_some_iff {α : Type} {p : Prop} [Decidable p] {x : Option α} {a : α} :
    (guard p >>= fun _ => x) = some a ↔ p ∧ x = some a := by
  by_cases hp : p
  · rw [guard, if_pos hp, and_iff_right hp]
    rfl
  · rw [guard, if_neg hp]
    exact iff_of_false nofun fun h => hp h.1

/-- The entry `triggers` is decoded to what it says. -/
lemma ofNode?_eq_some_iff {node : Toml.Node} {c : Config} :
    ofNode? node = some c ↔ Holds (some node) c := by
  cases node with
  | table standing entries =>
    have hnode : ofNode? (.table standing entries) =
        (guard (Toml.Entries.isValued entries = true) >>= fun _ =>
          do return ⟨← switch? (Toml.Entries.get? entries "error_on_nilable_map_read"),
            ← switch? (Toml.Entries.get? entries "struct_init")⟩) := rfl
    rw [hnode, guard_bind_eq_some_iff, switches_eq_some_iff]
    constructor
    · rintro ⟨hvalued, hmapRead, hstructInit⟩
      exact .table hvalued hmapRead hstructInit
    · rintro (_ | ⟨hvalued, hmapRead, hstructInit⟩)
      exact ⟨hvalued, hmapRead, hstructInit⟩
  | array items =>
    have hnode : ofNode? (.array items) =
        (do return ⟨← switch? items[0]?, ← switch? items[1]?⟩) := rfl
    rw [hnode, switches_eq_some_iff]
    constructor
    · rintro ⟨hmapRead, hstructInit⟩
      exact .array hmapRead hstructInit
    · rintro (_ | _ | ⟨hmapRead, hstructInit⟩)
      exact ⟨hmapRead, hstructInit⟩
  | tables elements => exact iff_of_false nofun nofun
  | scalar s =>
    cases s with
    | moment token =>
      constructor
      · rintro ⟨⟩
        exact .moment token
      · rintro ⟨⟩
        rfl
    | boolean _ | text _ | integer _ _ _ | float _ _ | special _ => exact iff_of_false nofun nofun

section Texts

variable {read : String → Option Toml.Entries} {text : String}

/-- A text is decoded to the switches that it stands for. -/
lemma ofText?_eq_some_iff {c : Config} : ofText? read text = some c ↔ Spells read text c := by
  unfold ofText? Spells
  rw [Option.bind_eq_bind, Option.bind_eq_some_iff]
  refine exists_congr fun root => and_congr_right fun _ => ?_
  rw [guard_bind_eq_some_iff]
  refine and_congr_right fun _ => ?_
  cases Toml.Entries.get? root "triggers" with
  | none =>
    constructor
    · rintro ⟨⟩
      exact .absent
    · rintro ⟨⟩
      rfl
  | some node => exact ofNode?_eq_some_iff

/-- A text is rejected exactly if it stands for no switches. -/
lemma ofText?_eq_none_iff : ofText? read text = none ↔ ¬ ∃ c, Spells read text c := by
  simp only [← ofText?_eq_some_iff, ← Option.isSome_iff_exists, Option.not_isSome_iff_eq_none]

end Texts

/-! ### What a search looks at -/

/-- The paths of a list that are asked about, up to the first one that is present. -/
def probed (fs : FileSystem) : List Path → List Path
  | [] => []
  | p :: ps => if fs.isPresent p then [p] else p :: probed fs ps

/-- The paths that the search for a settings file asks about, the last one being that of the file,
if one is found. -/
def probes (fs : FileSystem) (start : Path) : List Path :=
  probed fs (candidates start)

/-- Only the answers for these paths matter. -/
lemma find?_eq_of_probed {fs fs' : FileSystem} {ps : List Path}
    (h : ∀ p ∈ probed fs ps, fs'.isPresent p = fs.isPresent p) :
    ps.find? fs'.isPresent = ps.find? fs.isPresent := by
  induction ps with
  | nil => rfl
  | cons p ps ih =>
    unfold probed at h
    by_cases hp : fs.isPresent p = true
    · rw [if_pos hp] at h
      have hp' : fs'.isPresent p = true := (h p List.mem_cons_self).trans hp
      rw [List.find?_cons_of_pos hp', List.find?_cons_of_pos hp]
    · rw [if_neg hp] at h
      obtain ⟨hhead, htail⟩ := List.forall_mem_cons.mp h
      have hp' : ¬ fs'.isPresent p = true := by rwa [hhead]
      rw [List.find?_cons_of_neg hp', List.find?_cons_of_neg hp, ih htail]

/-! ### Loading -/

section Loading

variable {read : String → Option Toml.Entries} {fs fs' : FileSystem} {start : Path}

/-- The nearest file is of no use: there is none, or it is not text, or its text is rejected. -/
def Unusable (read : String → Option Toml.Entries) (fs : FileSystem) (start : Path) : Prop :=
  find? fs start = none ∨ ∃ file, find? fs start = some file ∧
    (fs.readText? file = none ∨ ∃ text, fs.readText? file = some text ∧ ¬ ∃ c, Spells read text c)

/-- The outcomes of loading, and when they come about. -/
lemma tryLoad_cases (read : String → Option Toml.Entries) (fs : FileSystem) (start : Path) :
    (find? fs start = none ∧ tryLoad read fs start = .ok ⟨false, false⟩) ∨
      ∃ file, find? fs start = some file ∧
        ((fs.readText? file = none ∧ tryLoad read fs start = .error (.unreadable file)) ∨
          ∃ text, fs.readText? file = some text ∧
            (((¬ ∃ c, Spells read text c) ∧ tryLoad read fs start = .error (.invalid file)) ∨
              ∃ c, Spells read text c ∧ tryLoad read fs start = .ok c)) := by
  unfold tryLoad
  cases find? fs start with
  | none => exact .inl ⟨rfl, rfl⟩
  | some file =>
    refine .inr ⟨file, rfl, ?_⟩
    cases hread : fs.readText? file with
    | none => exact .inl ⟨rfl, by simp only [hread]⟩
    | some text =>
      refine .inr ⟨text, rfl, ?_⟩
      cases htext : ofText? read text with
      | none => exact .inl ⟨ofText?_eq_none_iff.mp htext, by simp only [hread, htext]⟩
      | some c => exact .inr ⟨c, ofText?_eq_some_iff.mp htext, by simp only [hread, htext]⟩

/-- Loading fails exactly if a file is found that is not text or whose text is rejected, and the
error names the file. -/
lemma tryLoad_eq_error_iff {e : ConfigError} :
    tryLoad read fs start = .error e ↔ ∃ file, find? fs start = some file ∧
      ((fs.readText? file = none ∧ e = .unreadable file) ∨
        ∃ text, fs.readText? file = some text ∧ (¬ ∃ c, Spells read text c) ∧
          e = .invalid file) := by
  rcases tryLoad_cases read fs start with ⟨hfind, hload⟩ | ⟨file, hfind, hfile⟩
  · rw [hload, hfind]
    exact iff_of_false nofun nofun
  rcases hfile with ⟨hread, hload⟩ | ⟨text, hread, ⟨hreject, hload⟩ | ⟨c, hspells, hload⟩⟩
  · simp [hload, hfind, hread, eq_comm]
  · simp only [hload, hfind, hread, Option.some_inj, exists_eq_left', hreject, not_false_iff,
      true_and, reduceCtorEq, false_and, false_or, Except.error.injEq, eq_comm]
  · rw [hload, hfind]
    refine iff_of_false nofun ?_
    rintro ⟨file', hfile', hcause⟩
    obtain rfl := Option.some_inj.mp hfile'
    rw [hread] at hcause
    rcases hcause with ⟨hnone, -⟩ | ⟨text', htext', hreject, -⟩
    · cases hnone
    · obtain rfl := Option.some_inj.mp htext'
      exact hreject ⟨c, hspells⟩

/-- The switches of the file that is found are loaded, if it has some. -/
lemma tryLoad_eq_ok_of_spells {file : Path} {text : String} {c : Config}
    (hfind : find? fs start = some file) (hread : fs.readText? file = some text)
    (hspells : Spells read text c) : tryLoad read fs start = .ok c := by
  have htext : ofText? read text = some c := ofText?_eq_some_iff.mpr hspells
  unfold tryLoad
  simp only [hfind, hread, htext]

/-- Both switches are off if the nearest file is of no use. -/
lemma load_of_unusable (h : Unusable read fs start) : load read fs start = ⟨false, false⟩ := by
  unfold load
  rcases h with hfind | ⟨file, hfind, hfile⟩
  · have hload : tryLoad read fs start = .ok ⟨false, false⟩ := by
      unfold tryLoad
      rw [hfind]
      rfl
    rw [hload]
  · have herror : ∃ e, tryLoad read fs start = .error e := by
      rcases hfile with hread | ⟨text, hread, hreject⟩
      · exact ⟨_, tryLoad_eq_error_iff.mpr ⟨file, hfind, .inl ⟨hread, rfl⟩⟩⟩
      · exact ⟨_, tryLoad_eq_error_iff.mpr ⟨file, hfind, .inr ⟨text, hread, hreject, rfl⟩⟩⟩
    obtain ⟨e, he⟩ := herror
    rw [he]
    rfl

/-- File systems that give the same answers to the search and have the same file there load the same
switches. -/
lemma tryLoad_eq_of_agree (hprobes : ∀ p ∈ probes fs start, fs'.isPresent p = fs.isPresent p)
    (hread : ∀ file, find? fs start = some file → fs'.readText? file = fs.readText? file) :
    tryLoad read fs' start = tryLoad read fs start := by
  have hfind : find? fs' start = find? fs start := find?_eq_of_probed hprobes
  unfold tryLoad
  rw [hfind]
  cases hfile : find? fs start with
  | none => rfl
  | some file => simp only [hread file hfile]

end Loading

/-- Only the nearest settings file decides.  If there is none, or if it is not text, or if its text
is rejected, then both switches are off, and so are those of the policy; and otherwise they are the
switches that its text stands for.  Loading fails exactly in the second and in the third case, and
the error names the file.  Hence nothing matters but the answers that the search gets, up to the
file that it finds, and the content of this file. -/
theorem nearest_file_decides (read : String → Option Toml.Entries) (fs : FileSystem)
    (start : Path) :
    (Unusable read fs start →
        load read fs start = ⟨false, false⟩ ∧ Policy.discover read fs start = ⟨false, false⟩) ∧
      (∀ file text c, find? fs start = some file → fs.readText? file = some text →
        Spells read text c →
        tryLoad read fs start = .ok c ∧ load read fs start = c ∧
          Policy.discover read fs start = ⟨c.errorOnNilableMapRead, c.structInit⟩) ∧
      (∀ e, tryLoad read fs start = .error e ↔ ∃ file, find? fs start = some file ∧
        ((fs.readText? file = none ∧ e = .unreadable file) ∨
          ∃ text, fs.readText? file = some text ∧ (¬ ∃ c, Spells read text c) ∧
            e = .invalid file)) ∧
      ∀ fs' : FileSystem, (∀ p ∈ probes fs start, fs'.isPresent p = fs.isPresent p) →
        (∀ file, find? fs start = some file → fs'.readText? file = fs.readText? file) →
        tryLoad read fs' start = tryLoad read fs start ∧ load read fs' start = load read fs start ∧
          Policy.discover read fs' start = Policy.discover read fs start := by
  refine ⟨fun h => ?_, fun file text c hfind hread hspells => ?_, fun e => tryLoad_eq_error_iff, ?_⟩
  · have hload := load_of_unusable h
    refine ⟨hload, ?_⟩
    unfold Policy.discover
    rw [hload]
    rfl
  · have htry := tryLoad_eq_ok_of_spells hfind hread hspells
    have hload : load read fs start = c := by
      unfold load
      rw [htry]
    refine ⟨htry, hload, ?_⟩
    unfold Policy.discover
    rw [hload]
    rfl
  · intro fs' hprobes hread
    have htry : tryLoad read fs' start = tryLoad read fs start := tryLoad_eq_of_agree hprobes hread
    have hload : load read fs' start = load read fs start := by
      unfold load
      rw [htry]
    refine ⟨htry, hload, ?_⟩
    unfold Policy.discover
    rw [hload]

/-- A header that is not closed in the nearer file turns the switches off, whatever the farther file
says; from the root it is the farther file that decides. -/
theorem broken_nearer_file_decides :
    let tree (text : String) : FileTree :=
      ⟨[(["a", "nilgate.toml"], "[triggers\n".toUTF8), (["nilgate.toml"], text.toUTF8)],
        [["a", "b"]]⟩
    let fs : FileSystem := (tree "[triggers]\nstruct_init = true\n").toFileSystem
    let fs' : FileSystem := (tree "triggers = [true, true]").toFileSystem
    let start : Path := ⟨false, ["a", "b"]⟩
    let file : Path := ⟨false, ["a", "nilgate.toml"]⟩
    find? fs start = some file ∧ Unusable Toml.read? fs start ∧
      tryLoad Toml.read? fs start = .error (.invalid file) ∧
      Policy.discover Toml.read? fs start = ⟨false, false⟩ ∧
      Policy.discover Toml.read? fs' start = Policy.discover Toml.read? fs start ∧
      Policy.discover Toml.read? fs ⟨false, []⟩ = ⟨false, true⟩ := by
  intro tree fs fs' start file
  have hfind : find? fs start = some file := by decide +kernel
  have hread : fs.readText? file = some "[triggers\n" := by decide +kernel
  have hreject : ¬ ∃ c, Spells Toml.read? "[triggers\n" c :=
    ofText?_eq_none_iff.mp (by decide +kernel)
  have hunusable : Unusable Toml.read? fs start := .inr ⟨file, hfind, .inr ⟨_, hread, hreject⟩⟩
  obtain ⟨hoff, -, herror, hagree⟩ := nearest_file_decides Toml.read? fs start
  have hprobes : ∀ p ∈ probes fs start, fs'.isPresent p = fs.isPresent p := by decide +kernel
  have hsame : ∀ f, find? fs start = some f → fs'.readText? f = fs.readText? f := by
    intro f hf
    obtain rfl := Option.some_inj.mp (hfind.symm.trans hf)
    decide +kernel
  have hspells : Spells Toml.read? "[triggers]\nstruct_init = true\n" ⟨false, true⟩ :=
    ofText?_eq_some_iff.mp (by decide +kernel)
  have hroot := (nearest_file_decides Toml.read? fs ⟨false, []⟩).2.1 ⟨false, ["nilgate.toml"]⟩ _ _
    (by decide +kernel) (by decide +kernel) hspells
  exact ⟨hfind, hunusable, (herror _).mpr ⟨file, hfind, .inr ⟨_, hread, hreject, rfl⟩⟩,
    (hoff hunusable).2, (hagree fs' hprobes hsame).2.2, hroot.2.2⟩

end Config

end NilFlow
