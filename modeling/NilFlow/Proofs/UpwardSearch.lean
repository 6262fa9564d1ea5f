import NilFlow.Proofs.Settings

/-!
# The search for the nearest settings file

The search looks in a directory and goes on to the parent, until a file is found or there is no
parent (`Config.ascend`).  Each step drops one component (`Path.of_parent?_eq_some`), so their
number bounds the search, and what is proved of a path without parent and is handed down from a
parent holds of all paths (`Path.upward_induction`).  The directories looked in are the start and
its prefixes, one for each number of components (`Path.lineage_getElem?`).

Components are a matter of text.  Where they lead is up to the file system: most often it follows
the names on the way (`FileSystem.GoesByNames`, which holds of every `FileTree`), and then, if no
`..` turns the way, the prefixes of a path lead to the directories above it.
-/

namespace NilFlow

namespace Path

/-! ### Components -/

/-- The names on the way of a path: the segments that are not idle. -/
def names (p : Path) : List String :=
  p.segments.filter fun s => !isIdle s

/-- Whether a path starts with a `.` that counts. -/
def startsHere (p : Path) : Bool :=
  !p.anchored && p.segments.head? == some "."

/-- The components of a path: the names on its way, after the `.` that a relative path may start
with. -/
def components (p : Path) : List String :=
  if p.startsHere then "." :: p.names else p.names

/-- A path without segments has no components. -/
lemma components_nil (anchored : Bool) : components ⟨anchored, []⟩ = [] := by
  cases anchored <;> rfl

/-- A path with one more segment has one more component, unless the segment is skipped. -/
lemma components_concat (anchored : Bool) (before : List String) (s : String) :
    components ⟨anchored, before ++ [s]⟩ =
      if isSkipped anchored before.reverse s then components ⟨anchored, before⟩
      else components ⟨anchored, before⟩ ++ [s] := by
  cases before with
  | nil =>
    by_cases hempty : s = ""
    · subst hempty
      cases anchored <;> rfl
    · by_cases hdot : s = "."
      · subst hdot
        cases anchored <;> rfl
      · simp [components, startsHere, names, isSkipped, isIdle, hempty, hdot]
  | cons first rest =>
    have hstart :
        startsHere ⟨anchored, first :: rest ++ [s]⟩ = startsHere ⟨anchored, first :: rest⟩ := rfl
    have hskip : isSkipped anchored (first :: rest).reverse s = isIdle s := by simp [isSkipped]
    have hnames : names ⟨anchored, first :: rest ++ [s]⟩ =
        names ⟨anchored, first :: rest⟩ ++ [s].filter fun s => !isIdle s := List.filter_append ..
    rw [components, components, hstart, hskip, hnames]
    cases hidle : isIdle s <;> cases startsHere ⟨anchored, first :: rest⟩ <;> simp [hidle]

/-- The same for segments that are given last first. -/
lemma components_cons (anchored : Bool) (before : List String) (s : String) :
    components ⟨anchored, (s :: before).reverse⟩ =
      if isSkipped anchored before s then components ⟨anchored, before.reverse⟩
      else components ⟨anchored, before.reverse⟩ ++ [s] := by
  rw [List.reverse_cons, components_concat, List.reverse_reverse]

/-! ### Parents -/

section Parents

variable (anchored : Bool)

/-- Segments are trimmed at their end. -/
lemma trimRev_suffix (segments : List String) : trimRev anchored segments <:+ segments := by
  induction segments with
  | nil => exact List.suffix_rfl
  | cons s before ih =>
    rw [trimRev]
    split
    · exact ih.trans (List.suffix_cons s before)
    · exact List.suffix_rfl

/-- What is trimmed does not count. -/
lemma components_trimRev (segments : List String) :
    components ⟨anchored, (trimRev anchored segments).reverse⟩ =
      components ⟨anchored, segments.reverse⟩ := by
  induction segments with
  | nil => rfl
  | cons s before ih =>
    rw [trimRev]
    split
    · rename_i hskip
      rw [ih, components_cons, if_pos hskip]
    · rfl

/-- What is trimmed has no parents of its own. -/
lemma parentsRev_trimRev (segments : List String) :
    parentsRev anchored (trimRev anchored segments) = parentsRev anchored segments := by
  induction segments with
  | nil => rfl
  | cons s before ih =>
    rw [trimRev]
    split
    · rename_i hskip
      rw [ih, parentsRev, if_pos hskip]
    · rfl

/-- Segments are trimmed up to one that counts. -/
lemma isSkipped_of_trimRev {segments before : List String} {s : String}
    (h : trimRev anchored segments = s :: before) : isSkipped anchored before s = false := by
  induction segments with
  | nil => cases h
  | cons t rest ih =>
    rw [trimRev] at h
    split at h
    · exact ih h
    · rename_i hcounts
      obtain ⟨rfl, rfl⟩ := List.cons.inj h
      exact Bool.not_eq_true _ ▸ hcounts

end Parents

/-- A path without parent has no components, and no directories above it. -/
lemma of_parent?_eq_none {p : Path} (h : p.parent? = none) :
    p.components = [] ∧ p.lineage = [p] := by
  obtain ⟨anchored, segments⟩ := p
  have hcomponents := components_trimRev anchored segments.reverse
  have hparents := parentsRev_trimRev anchored segments.reverse
  rw [parent?] at h
  split at h
  · rename_i htrim
    rw [htrim, List.reverse_reverse, List.reverse_nil, components_nil] at hcomponents
    rw [htrim] at hparents
    refine ⟨hcomponents.symm, ?_⟩
    rw [lineage, ← hparents]
    rfl
  · cases h

/-- A parent is a prefix with one component less, and the directories above a path are its parent
and those above the parent. -/
lemma of_parent?_eq_some {p up : Path} (h : p.parent? = some up) :
    up.anchored = p.anchored ∧ up.segments <+: p.segments ∧
      (∃ c, p.components = up.components ++ [c]) ∧ p.lineage = p :: up.lineage := by
  obtain ⟨anchored, segments⟩ := p
  have hcomponents := components_trimRev anchored segments.reverse
  have hparents := parentsRev_trimRev anchored segments.reverse
  have hsuffix := trimRev_suffix anchored segments.reverse
  rw [parent?] at h
  split at h
  · cases h
  · rename_i c before htrim
    cases h
    have hcounts : ¬ isSkipped anchored before c = true := by
      rw [isSkipped_of_trimRev anchored htrim]
      exact Bool.false_ne_true
    rw [htrim, components_cons, if_neg hcounts, List.reverse_reverse] at hcomponents
    rw [htrim, parentsRev, if_neg hcounts] at hparents
    rw [htrim] at hsuffix
    refine ⟨rfl, ?_, ⟨c, ?_⟩, ?_⟩
    · rw [← List.reverse_suffix, List.reverse_reverse]
      exact ((trimRev_suffix anchored before).trans (List.suffix_cons c before)).trans hsuffix
    · rw [components_trimRev, hcomponents]
    · rw [lineage, lineage, List.reverse_reverse, parentsRev_trimRev, ← hparents]
      rfl

/-- A parent has fewer components. -/
lemma length_components_lt {p up : Path} (h : p.parent? = some up) :
    up.components.length < p.components.length := by
  obtain ⟨-, -, ⟨c, hcomponents⟩, -⟩ := of_parent?_eq_some h
  rw [hcomponents, List.length_append, List.length_singleton]
  exact Nat.lt_succ_self _

/-- What holds of paths without parent, and of every path whose parent it holds of, holds of all
paths. -/
@[elab_as_elim]
theorem upward_induction {motive : Path → Prop} (p : Path)
    (top : ∀ p, p.parent? = none → motive p)
    (step : ∀ p up, p.parent? = some up → motive up → motive p) : motive p :=
  match h : p.parent? with
  | none => top p h
  | some up => step p up h (upward_induction up top step)
termination_by p.components.length
decreasing_by exact length_components_lt h

/-- There are as many directories above a path as it has components. -/
lemma length_lineage (p : Path) : p.lineage.length = p.components.length + 1 := by
  induction p using upward_induction with
  | top p hp =>
    obtain ⟨hcomponents, hlineage⟩ := of_parent?_eq_none hp
    rw [hcomponents, hlineage]
    rfl
  | step p up hp ih =>
    obtain ⟨-, -, ⟨c, hcomponents⟩, hlineage⟩ := of_parent?_eq_some hp
    rw [hcomponents, hlineage, List.length_cons, ih, List.length_append, List.length_singleton]

/-- The directories above a path are its prefixes, one for each number of components. -/
lemma lineage_getElem? {p d : Path} {i : Nat} (h : p.lineage[i]? = some d) :
    d.anchored = p.anchored ∧ d.segments <+: p.segments ∧
      d.components = p.components.take (p.components.length - i) := by
  induction p using upward_induction generalizing i with
  | top p hp =>
    obtain ⟨hcomponents, hlineage⟩ := of_parent?_eq_none hp
    rw [hlineage, List.getElem?_singleton] at h
    split at h
    · cases h
      rw [hcomponents, List.take_nil]
      exact ⟨rfl, List.prefix_rfl, rfl⟩
    · cases h
  | step p up hp ih =>
    obtain ⟨hanchored, hsegments, ⟨c, hcomponents⟩, hlineage⟩ := of_parent?_eq_some hp
    rw [hlineage] at h
    cases i with
    | zero =>
      cases h
      rw [Nat.sub_zero, List.take_length]
      exact ⟨rfl, List.prefix_rfl, rfl⟩
    | succ i =>
      obtain ⟨hanchored', hsegments', hcomponents'⟩ := ih h
      refine ⟨hanchored'.trans hanchored, hsegments'.trans hsegments, ?_⟩
      rw [hcomponents', hcomponents, List.length_append, List.length_singleton,
        Nat.add_sub_add_right, List.take_append_of_le_length (Nat.sub_le ..)]

/-! ### Names -/

/-- The names on the way are the components that are not idle. -/
lemma names_eq_filter_components (p : Path) : p.names = p.components.filter fun s => !isIdle s := by
  have hnames : p.names.filter (fun s => !isIdle s) = p.names := by
    rw [names, List.filter_filter]
    simp only [Bool.and_self]
  rw [components]
  split
  · rw [List.filter_cons_of_neg (by decide), hnames]
  · exact hnames.symm

/-- For each of the names on its way, a path has a prefix that leads up to it. -/
lemma exists_lineage_names (p : Path) {j : Nat} (hj : j ≤ p.names.length) :
    ∃ (i : Nat) (d : Path), p.lineage[i]? = some d ∧ d.names = p.names.take j := by
  -- With a component for the start, `j` names make up `j + 1` components.
  have hinit : ∃ m ≤ p.components.length,
      (p.components.take m).filter (fun s => !isIdle s) = p.names.take j := by
    have hnames : (p.names.take j).filter (fun s => !isIdle s) = p.names.take j := by
      refine List.filter_eq_self.mpr fun s hs => ?_
      exact (List.mem_filter.mp (List.mem_of_mem_take hs)).2
    rw [components]
    split
    · refine ⟨j + 1, Nat.succ_le_succ hj, ?_⟩
      rw [List.take_succ_cons, List.filter_cons_of_neg (by decide), hnames]
    · exact ⟨j, hj, hnames⟩
  obtain ⟨m, hm, htake⟩ := hinit
  have hlt : p.components.length - m < p.lineage.length := by
    rw [length_lineage]
    omega
  refine ⟨p.components.length - m, p.lineage[p.components.length - m],
    List.getElem?_eq_getElem hlt, ?_⟩
  obtain ⟨-, -, hcomponents⟩ := lineage_getElem? (List.getElem?_eq_getElem hlt)
  rw [names_eq_filter_components, hcomponents, Nat.sub_sub_self hm, htake]

/-- A directory that is looked in later has no more names on its way. -/
lemma length_names_le_of_lineage {p d d' : Path} {i i' : Nat} (hi : i ≤ i')
    (h : p.lineage[i]? = some d) (h' : p.lineage[i']? = some d') :
    d'.names.length ≤ d.names.length := by
  obtain ⟨-, -, hd⟩ := lineage_getElem? h
  obtain ⟨-, -, hd'⟩ := lineage_getElem? h'
  have hinit : d'.components <+: d.components := by
    rw [hd, hd']
    exact List.take_prefix_take_left (by omega)
  rw [names_eq_filter_components, names_eq_filter_components]
  exact (hinit.filter _).length_le

/-- The names on the way to a directory above a path are those first on the way of the path. -/
lemma names_prefix_of_lineage {p d : Path} {i : Nat} (h : p.lineage[i]? = some d) :
    d.names <+: p.names := by
  obtain ⟨-, -, hcomponents⟩ := lineage_getElem? h
  rw [names_eq_filter_components, names_eq_filter_components p, hcomponents]
  exact (List.take_prefix ..).filter _

/-- An entry of a directory comes after the segments of the directory, less an empty one at the
end. -/
lemma exists_segments_join (p : Path) (name : String) :
    ∃ before, (p.join name).segments = before ++ [name] ∧ before <+: p.segments ∧
      (before.filter fun s => !isIdle s) = p.names := by
  rw [join]
  split
  · rename_i hlast
    have hsegments := List.dropLast_append_getLast? "" hlast
    refine ⟨p.segments.dropLast, rfl, List.dropLast_prefix _, ?_⟩
    rw [names, ← hsegments, List.dropLast_concat, List.filter_append]
    exact (List.append_nil _).symm
  · exact ⟨p.segments, rfl, List.prefix_rfl, rfl⟩

/-- An entry of a directory is one name further. -/
lemma names_join (p : Path) {name : String} (hname : isIdle name = false) :
    (p.join name).names = p.names ++ [name] := by
  obtain ⟨before, hsegments, -, hnames⟩ := p.exists_segments_join name
  rw [names, hsegments, List.filter_append, hnames, List.filter_cons_of_pos (by rw [hname]; rfl)]
  rfl

/-- An entry of a directory is found from where the directory is. -/
lemma anchored_join (p : Path) (name : String) : (p.join name).anchored = p.anchored := by
  rw [join]
  split <;> rfl

end Path

/-! ### File systems that go by names -/

/-- The file system goes by names: where no `..` turns the way and a name stands at its end, what a
path leads to depends on the names on the way alone.  `there` says which names lead to something,
from the top of the file system or from the working directory. -/
def FileSystem.GoesByNames (fs : FileSystem) (there : Bool → List String → Prop) : Prop :=
  ∀ p : Path, ".." ∉ p.segments → (∀ s ∈ p.segments.getLast?, Path.isIdle s = false) →
    (fs.isPresent p = true ↔ there p.anchored p.names)

namespace FileTree

/-- Names lead to a file or a directory of the tree. -/
def Has (t : FileTree) (names : List String) : Prop :=
  t.isDir names = true ∨ (t.content? names).isSome = true

/-- The directories of a tree: the root, those given, and those on the way to something. -/
lemma isDir_iff {t : FileTree} {names : List String} :
    t.isDir names = true ↔ names = [] ∨ (∃ dir ∈ t.dirs, names <+: dir) ∨
      ∃ file ∈ t.files, names <+: file.1 ∧ names ≠ file.1 := by
  simp only [isDir, Bool.or_eq_true, List.isEmpty_iff, List.any_eq_true, List.isPrefixOf_iff_prefix,
    Bool.and_eq_true, bne_iff_ne, or_assoc]

/-- What has something below it is a directory. -/
lemma Has.isDir {t : FileTree} {names more : List String} {name : String}
    (h : t.Has (names ++ name :: more)) : t.isDir names = true := by
  have habove : names <+: names ++ name :: more := List.prefix_append ..
  have hshorter : ∀ path, names ++ name :: more <+: path → names ≠ path := by
    rintro path hpath rfl
    have hlength := hpath.length_le
    rw [List.length_append, List.length_cons] at hlength
    omega
  rw [isDir_iff]
  rcases h with hdir | hfile
  · rcases isDir_iff.mp hdir with hnil | ⟨dir, hmem, hdir⟩ | ⟨file, hmem, hfile, -⟩
    · exact absurd hnil (List.append_ne_nil_of_right_ne_nil _ (List.cons_ne_nil _ _))
    · exact .inr (.inl ⟨dir, hmem, habove.trans hdir⟩)
    · exact .inr (.inr ⟨file, hmem, habove.trans hfile, hshorter _ hfile⟩)
  · rw [content?, Option.isSome_map, List.find?_isSome] at hfile
    obtain ⟨file, hmem, hfile⟩ := hfile
    rw [beq_iff_eq] at hfile
    refine .inr (.inr ⟨file, hmem, ?_, hshorter _ ?_⟩)
    · exact hfile ▸ habove
    · exact hfile ▸ List.prefix_rfl

/-- What has something further on is in the tree. -/
lemma Has.of_append {t : FileTree} {names more : List String} (h : t.Has (names ++ more)) :
    t.Has names := by
  cases more with
  | nil =>
    rw [List.append_nil] at h
    exact h
  | cons name more => exact .inl h.isDir

/-- A walk from something in the tree succeeds if the names on its way lead to something. -/
lemma isSome_walk_iff {t : FileTree} {names segments : List String} (hnames : t.Has names)
    (hturn : ".." ∉ segments) (hlast : ∀ s ∈ segments.getLast?, Path.isIdle s = false) :
    (t.walk names segments).isSome = true ↔
      t.Has (names ++ segments.filter fun s => !Path.isIdle s) := by
  induction segments generalizing names with
  | nil =>
    rw [walk, List.filter_nil, List.append_nil]
    exact iff_of_true rfl hnames
  | cons s rest ih =>
    obtain ⟨hs, hrest⟩ := List.ne_and_not_mem_of_not_mem_cons hturn
    have hlast' : ∀ x ∈ rest.getLast?, Path.isIdle x = false := by
      intro x hx
      exact hlast x (List.mem_getLast?_cons hx)
    rw [walk]
    by_cases hdir : t.isDir names = true
    · rw [if_pos hdir]
      by_cases hidle : Path.isIdle s = true
      · rw [if_pos hidle, List.filter_cons_of_neg (by simp [hidle]), ih hnames hrest hlast']
      · rw [if_neg hidle, if_neg (Ne.symm hs), List.filter_cons_of_pos (by simp [hidle]),
          List.append_cons names s (rest.filter _)]
        by_cases hnext : t.Has (names ++ [s])
        · rw [if_pos (Bool.or_eq_true _ _ ▸ hnext), ih hnext hrest hlast']
        · rw [if_neg (Bool.or_eq_true _ _ ▸ hnext)]
          exact iff_of_false nofun fun h => hnext h.of_append
    · -- Nothing is below what is no directory, and the name at the end would be.
      rw [if_neg hdir]
      have hname : (s :: rest).filter (fun s => !Path.isIdle s) ≠ [] := by
        have hend := List.getLast?_eq_some_getLast (List.cons_ne_nil s rest)
        refine List.ne_nil_of_mem
          (List.mem_filter.mpr ⟨List.getLast_mem (List.cons_ne_nil s rest), ?_⟩)
        rw [hlast _ hend]
        rfl
      obtain ⟨name, more, hfilter⟩ := List.exists_cons_of_ne_nil hname
      rw [hfilter]
      exact iff_of_false nofun fun h => hdir h.isDir

/-- Trees go by names. -/
lemma goesByNames (t : FileTree) : t.toFileSystem.GoesByNames fun _ names => t.Has names := by
  intro p hturn hlast
  exact isSome_walk_iff (.inl rfl) hturn hlast

end FileTree

namespace Config

/-! ### The search -/

/-- The search as it goes: it looks for the file in a directory, and if it is not there, it goes on
to the parent.  Beside the file found, it tells which paths were asked for. -/
def ascend (fs : FileSystem) (dir : Path) : List Path × Option Path :=
  let file := dir.join fileName
  if fs.isPresent file then ([file], some file)
  else
    match _h : dir.parent? with
    | none => ([file], none)
    | some up =>
      let (asked, found) := ascend fs up
      (file :: asked, found)
termination_by dir.components.length
decreasing_by exact Path.length_components_lt ‹_›

/-- The search asks for the candidates in their order, up to the first one that is present. -/
lemma ascend_eq (fs : FileSystem) (start : Path) :
    ascend fs start = (probes fs start, find? fs start) := by
  induction start using Path.upward_induction with
  | top p hp =>
    obtain ⟨-, hlineage⟩ := Path.of_parent?_eq_none hp
    rw [ascend, probes, find?, candidates, hlineage, List.map_singleton, probed, probed]
    by_cases hpresent : fs.isPresent (p.join fileName) = true
    · rw [if_pos hpresent, if_pos hpresent, List.find?_cons_of_pos hpresent]
    · rw [if_neg hpresent, if_neg hpresent, List.find?_cons_of_neg hpresent, List.find?_nil]
      split
      · rfl
      · rename_i hup
        rw [hp] at hup
        cases hup
  | step p up hp ih =>
    obtain ⟨-, -, -, hlineage⟩ := Path.of_parent?_eq_some hp
    rw [ascend, probes, find?, candidates, hlineage, List.map_cons, probed]
    by_cases hpresent : fs.isPresent (p.join fileName) = true
    · rw [if_pos hpresent, if_pos hpresent, List.find?_cons_of_pos hpresent]
    · rw [if_neg hpresent, if_neg hpresent, List.find?_cons_of_neg hpresent]
      split
      · rename_i hnone
        rw [hp] at hnone
        cases hnone
      · rename_i up' hup
        obtain rfl := Option.some_inj.mp (hp.symm.trans hup)
        rw [ih]
        rfl

/-- What is asked for ends with the first path that is present. -/
lemma probed_eq_take (fs : FileSystem) (ps : List Path) :
    probed fs ps = ps.take (ps.findIdx fs.isPresent + 1) := by
  induction ps with
  | nil => rfl
  | cons p ps ih =>
    rw [probed, List.findIdx_cons, List.take_succ_cons]
    split
    · rename_i hpresent
      rw [hpresent, cond_true, List.take_zero]
    · rename_i habsent
      rw [Bool.not_eq_true] at habsent
      rw [habsent, cond_false, ih]

/-- The file found is a candidate that is present, and those before it are not. -/
lemma find?_eq_some_iff {fs : FileSystem} {start file : Path} :
    find? fs start = some file ↔ ∃ (i : Nat) (d : Path), start.lineage[i]? = some d ∧
      file = d.join fileName ∧ fs.isPresent file = true ∧
        ∀ j < i, ∀ d', start.lineage[j]? = some d' → fs.isPresent (d'.join fileName) = false := by
  rw [find?, candidates, List.find?_eq_some_iff_getElem]
  constructor
  · rintro ⟨hpresent, i, hi, rfl, hbefore⟩
    rw [List.length_map] at hi
    refine ⟨i, start.lineage[i], List.getElem?_eq_getElem hi, List.getElem_map .., hpresent, ?_⟩
    intro j hj d' hd'
    obtain ⟨hj', rfl⟩ := List.getElem?_eq_some_iff.mp hd'
    have hnot := hbefore j hj
    rw [List.getElem_map] at hnot
    simpa using hnot
  · rintro ⟨i, d, hd, rfl, hpresent, hbefore⟩
    obtain ⟨hi, rfl⟩ := List.getElem?_eq_some_iff.mp hd
    refine ⟨hpresent, i, by rwa [List.length_map], List.getElem_map .., ?_⟩
    intro j hj
    rw [List.getElem_map, hbefore j hj _ (List.getElem?_eq_getElem (Nat.lt_trans hj hi))]
    rfl

/-- Nothing is found if no candidate is present. -/
lemma find?_eq_none_iff {fs : FileSystem} {start : Path} :
    find? fs start = none ↔ ∀ d ∈ start.lineage, fs.isPresent (d.join fileName) = false := by
  simp only [find?, candidates, List.find?_eq_none, List.forall_mem_map, Bool.not_eq_true]

section GoesByNames

variable {fs : FileSystem} {there : Bool → List String → Prop} {start : Path}

/-- Without `..` on the way, a candidate is present if the file is there in the directory that the
names lead to. -/
lemma isPresent_join_iff (hfs : fs.GoesByNames there) (hturn : ".." ∉ start.components) {d : Path}
    {i : Nat} (hd : start.lineage[i]? = some d) :
    fs.isPresent (d.join fileName) = true ↔ there start.anchored (d.names ++ [fileName]) := by
  obtain ⟨hanchored, hsegments, -⟩ := Path.lineage_getElem? hd
  obtain ⟨before, hjoin, hbefore, -⟩ := d.exists_segments_join fileName
  have hidle : Path.isIdle fileName = false := by decide
  have hstart : ".." ∉ start.segments := by
    intro hmem
    have hname : ".." ∈ start.names := List.mem_filter.mpr ⟨hmem, by decide⟩
    rw [Path.names_eq_filter_components] at hname
    exact hturn (List.mem_of_mem_filter hname)
  have hway : ".." ∉ (d.join fileName).segments := by
    rw [hjoin, List.mem_append, List.mem_singleton]
    rintro (hmem | hmem)
    · exact hstart ((hbefore.trans hsegments).subset hmem)
    · exact absurd hmem (by decide)
  have hend : ∀ s ∈ (d.join fileName).segments.getLast?, Path.isIdle s = false := by
    rw [hjoin, List.getLast?_concat]
    rintro s ⟨⟩
    exact hidle
  rw [hfs _ hway hend, d.names_join hidle, d.anchored_join, hanchored]

/-- Without `..` on the way, the file found is in a directory above the start, and no directory
nearer to the start has one. -/
lemma nearest_of_goesByNames (hfs : fs.GoesByNames there) (hturn : ".." ∉ start.components)
    {file : Path} (hfind : find? fs start = some file) :
    ∃ k ≤ start.names.length, file.names = start.names.take k ++ [fileName] ∧
      there start.anchored (start.names.take k ++ [fileName]) ∧
        ∀ j, k < j → j ≤ start.names.length →
          ¬ there start.anchored (start.names.take j ++ [fileName]) := by
  obtain ⟨i, d, hd, rfl, hpresent, hbefore⟩ := find?_eq_some_iff.mp hfind
  have hinit := Path.names_prefix_of_lineage hd
  have hnames : d.names = start.names.take d.names.length := List.prefix_iff_eq_take.mp hinit
  refine ⟨d.names.length, hinit.length_le, ?_, ?_, fun j hkj hj hthere => ?_⟩
  · rw [← hnames, d.names_join (by decide)]
  · rw [← hnames]
    exact (isPresent_join_iff hfs hturn hd).mp hpresent
  · -- The directory after `j` names is looked in before the one where the file is found.
    obtain ⟨i', d', hd', hnames'⟩ := start.exists_lineage_names hj
    rcases Nat.lt_or_ge i' i with hlt | hge
    · rw [← hnames', ← isPresent_join_iff hfs hturn hd', hbefore i' hlt d' hd'] at hthere
      cases hthere
    · have hlength := Path.length_names_le_of_lineage hge hd hd'
      rw [hnames', List.length_take_of_le hj] at hlength
      omega

end GoesByNames

/-- The search for a settings file looks in the start and then in each of its prefixes, which have
one component less every time; it ends, having asked for these paths up to the first that is
present, which is the file that is found, and nothing is found exactly if none of them is present.
If the file system goes by names and no `..` is on the way, then the file is in the start directory
or in one above it, and no directory nearer to the start has one. -/
theorem search_finds_nearest (fs : FileSystem) (start : Path) :
    start.lineage.length = start.components.length + 1 ∧ start.lineage[0]? = some start ∧
      (∀ i d, start.lineage[i]? = some d → d.anchored = start.anchored ∧
        d.segments <+: start.segments ∧
          d.components = start.components.take (start.components.length - i)) ∧
      ascend fs start =
        ((candidates start).take ((candidates start).findIdx fs.isPresent + 1), find? fs start) ∧
      (∀ file, find? fs start = some file ↔ ∃ (i : Nat) (d : Path), start.lineage[i]? = some d ∧
        file = d.join fileName ∧ fs.isPresent file = true ∧
          ∀ j < i, ∀ d', start.lineage[j]? = some d' → fs.isPresent (d'.join fileName) = false) ∧
      (find? fs start = none ↔ ∀ d ∈ start.lineage, fs.isPresent (d.join fileName) = false) ∧
      ∀ there, fs.GoesByNames there → ".." ∉ start.components → ∀ file, find? fs start = some file →
        ∃ k ≤ start.names.length, file.names = start.names.take k ++ [fileName] ∧
          there start.anchored (start.names.take k ++ [fileName]) ∧
            ∀ j, k < j → j ≤ start.names.length →
              ¬ there start.anchored (start.names.take j ++ [fileName]) :=
  ⟨start.length_lineage, rfl, fun _ _ h => Path.lineage_getElem? h,
    (ascend_eq fs start).trans (congrArg (·, _) (probed_eq_take ..)),
    fun _ => find?_eq_some_iff, find?_eq_none_iff,
    fun _ hfs hturn _ hfind => nearest_of_goesByNames hfs hturn hfind⟩

/-- From the directory `b` in `a`, the search finds the file in `a` and not the one at the top. -/
theorem search_finds_nearest_of_two :
    let tree : FileTree :=
      ⟨[(["nilgate.toml"], .empty), (["a", "nilgate.toml"], .empty)], [["a", "b"]]⟩
    let start : Path := ⟨false, [".", "a", "", "b"]⟩
    tree.toFileSystem.GoesByNames (fun _ names => tree.Has names) ∧ ".." ∉ start.components ∧
      find? tree.toFileSystem start = some ⟨false, [".", "a", "nilgate.toml"]⟩ ∧
        ∃ k ≤ start.names.length, ["a", "nilgate.toml"] = start.names.take k ++ [fileName] ∧
          tree.Has (start.names.take k ++ [fileName]) ∧
            ∀ j, k < j → j ≤ start.names.length →
              ¬ tree.Has (start.names.take j ++ [fileName]) := by
  intro tree start
  have hfind : find? tree.toFileSystem start = some ⟨false, [".", "a", "nilgate.toml"]⟩ := by
    decide +kernel
  have hturn : ".." ∉ start.components := by decide +kernel
  refine ⟨tree.goesByNames, hturn, hfind, ?_⟩
  exact (search_finds_nearest tree.toFileSystem start).2.2.2.2.2.2 _ tree.goesByNames hturn _ hfind

-- From `a/..`, which is the top, the search goes down to `a`.
example :
    find? (FileTree.toFileSystem ⟨[(["a", "nilgate.toml"], .empty)], []⟩) ⟨false, ["a", ".."]⟩ =
      some ⟨false, ["a", "nilgate.toml"]⟩ := by
  decide +kernel

end Config

end NilFlow
