import LiteralLint.Proofs.Discovery

/-!
# The files below a directory

A file system is a table of places. Where no place stands twice in it, and that of the root does
not, the table can be read in both directions: an entry is what its place leads to. So the files
below a directory are those at the places below its own, each of them once, and sorting makes them
ascend strictly. Such a table stays one when a file is replaced by another; then a file is in the way of
the same walks as before, and only the path to its place leads to something else.

## Main definitions

* `FileSystem.WellFormed`: a table in which every entry has a place of its own.

## Main results

* `FileSystem.WellFormed.mem_filesBelow`, `FileSystem.WellFormed.pairwise_filesBelow`: which files
  there are below a directory, and in which order.
* `FileSystem.entry_put_file`: **what other paths lead to** when a file is replaced.
-/

namespace LiteralLint

open FileSystem (Straight)

/-! ## Files by their places -/

namespace Path

theorem precedes_asymm {p q : Path} (hpq : p.precedes q = true) : ¬ q.precedes p = true := by
  rw [precedes, componentsPrecede_eq_decide, decide_eq_true_iff] at *
  exact lt_asymm hpq

end Path

namespace FileSystem

/-- Every entry has a place of its own, which is not that of the root, and files have proper
names. -/
structure WellFormed (fs : FileSystem) : Prop where
  named : fs.WellNamed
  places : ([] :: fs.entries.map Prod.fst).Nodup

variable {fs : FileSystem} {place : Place} {f : File}

namespace WellFormed

theorem at?_of_mem (h : fs.WellFormed) {e : Entry} (hmem : (place, e) ∈ fs.entries) :
    fs.at? place = some e := by
  obtain ⟨hroot, hnodup⟩ := List.nodup_cons.1 h.places
  cases place with
  | nil => exact absurd (List.mem_map_of_mem hmem) hroot
  | cons name rest => exact lookup_of_mem hnodup hmem

/-- A file that is replaced by another. -/
theorem put_file (h : fs.WellFormed) (hat : fs.at? place = some (.file f)) (g : File) :
    (fs.put place (.file g)).WellFormed := by
  have hmem := mem_entries_of_at? hat
  obtain ⟨hroot, hnodup⟩ := List.nodup_cons.1 h.places
  have hsub : (fs.entries.filter fun m => m.1 != place).Sublist fs.entries := List.filter_sublist
  refine ⟨⟨?_, h.named.current⟩, ?_⟩
  · intro there f' hmem'
    rcases List.mem_cons.1 hmem' with heq | hmem'
    · cases heq
      exact h.named.files place f hmem
    · exact h.named.files there f' (hsub.subset hmem')
  · show ([] :: place :: (fs.entries.filter fun m => m.1 != place).map Prod.fst).Nodup
    refine List.nodup_cons.2 ⟨?_, List.nodup_cons.2 ⟨?_, (hsub.map Prod.fst).nodup hnodup⟩⟩
    · rintro (_ | ⟨_, hin⟩)
      · exact hroot (List.mem_map_of_mem hmem)
      · exact hroot ((hsub.map Prod.fst).subset hin)
    · intro hin
      obtain ⟨m, hm, hplace⟩ := List.mem_map.1 hin
      have hne := (List.mem_filter.1 hm).2
      rw [hplace] at hne
      simp at hne

end WellFormed

/-- The path of a file at a place below a directory. -/
def pathBelow? (directory : Path) (m : Place × Entry) : Option Path :=
  match m.2 with
  | .directory => none
  | .file _ =>
    if directory.components.isPrefixOf m.1 then
      some { directory with
        components := directory.components ++ m.1.drop directory.components.length }
    else none

theorem pathBelow?_eq_some {directory p : Path} {m : Place × Entry}
    (h : pathBelow? directory m = some p) :
    p.components = m.1 ∧ p.start = directory.start ∧ directory.components <+: m.1 ∧
      ∃ f, m.2 = .file f := by
  obtain ⟨there, e⟩ := m
  cases e with
  | directory => cases h
  | file f =>
      unfold pathBelow? at h
      dsimp only at h
      split at h
      · rename_i hunder
        cases h
        obtain ⟨rest, rfl⟩ := List.isPrefixOf_iff_prefix.1 hunder
        exact ⟨by rw [List.drop_left], rfl, List.prefix_append _ _, f, rfl⟩
      · cases h

theorem pathBelow?_file {directory p : Path} (hstart : p.start = directory.start)
    (hbelow : directory.components <+: p.components) (f : File) :
    pathBelow? directory (p.components, .file f) = some p := by
  obtain ⟨rest, hrest⟩ := hbelow
  have hunder : directory.components.isPrefixOf p.components = true :=
    List.isPrefixOf_iff_prefix.2 ⟨rest, hrest⟩
  unfold pathBelow?
  dsimp only
  rw [hunder, ← hrest, List.drop_left, hrest, ← hstart]
  rfl

variable {directory : Path}

theorem filesBelow_eq (hroot : Straight directory) (hdirectory : fs.isDirectory directory = true) :
    fs.filesBelow directory =
      (fs.entries.filterMap (pathBelow? directory)).mergeSort fun p q => !q.precedes p := by
  unfold filesBelow
  rw [entry_of_isDirectory hdirectory, (locate_of_isDirectory hroot hdirectory).1]
  dsimp only
  refine congrArg (List.mergeSort · _) (congrArg (List.filterMap · fs.entries) (funext ?_))
  rintro ⟨there, _ | f⟩ <;> rfl

/-- **The files below a directory** are those at the places below its own. -/
theorem WellFormed.mem_filesBelow (h : fs.WellFormed) (hroot : Straight directory)
    (hdirectory : fs.isDirectory directory = true) {p : Path} :
    p ∈ fs.filesBelow directory ↔
      p.start = directory.start ∧ directory.components <+: p.components ∧
        ∃ f, fs.at? p.components = some (.file f) := by
  rw [filesBelow_eq hroot hdirectory, List.mem_mergeSort, List.mem_filterMap]
  constructor
  · rintro ⟨⟨there, e⟩, hmem, hp⟩
    obtain ⟨rfl, hstart, hbelow, f, rfl⟩ := pathBelow?_eq_some hp
    exact ⟨hstart, hbelow, f, h.at?_of_mem hmem⟩
  · rintro ⟨hstart, hbelow, f, hat⟩
    exact ⟨_, mem_entries_of_at? hat, pathBelow?_file hstart hbelow f⟩

/-- No file comes twice, so the sorted files ascend strictly. -/
theorem WellFormed.pairwise_filesBelow (h : fs.WellFormed) (hroot : Straight directory)
    (hdirectory : fs.isDirectory directory = true) :
    (fs.filesBelow directory).Pairwise fun p q => p.precedes q = true := by
  have hplaces : fs.entries.Pairwise fun m n => m.1 ≠ n.1 :=
    List.pairwise_map.1 (List.nodup_cons.1 h.places).2
  have hpaths : (fs.entries.filterMap (pathBelow? directory)).Pairwise
      fun p q => p.components ≠ q.components := by
    refine hplaces.filterMap _ fun m n hne p hp q hq => ?_
    rwa [(pathBelow?_eq_some hp).1, (pathBelow?_eq_some hq).1]
  rw [filesBelow_eq hroot hdirectory]
  have hne := ((List.mergeSort_perm _ fun p q => !q.precedes p).pairwise_iff fun hpq => hpq.symm).2
    hpaths
  refine ((Path.pairwise_mergeSort _).and hne).imp ?_
  rintro p q ⟨hle, hdistinct⟩
  rw [Path.precedes, Path.componentsPrecede_eq_decide]
  exact decide_eq_true (lt_of_le_of_ne hle hdistinct)

/-! ## One file replaced by another -/

section

variable {fs : FileSystem} {place : Place} {f : File}

/-- A file is in the way of every walk, whatever it holds. -/
theorem walk_put_file (hat : fs.at? place = some (.file f)) (g : File) (names : List Text) :
    ∀ start : Place, (fs.put place (.file g)).walk start names = fs.walk start names := by
  have hne : place ≠ [] := by
    rintro rfl
    cases hat
  induction names with
  | nil => exact fun _ => rfl
  | cons name names ih =>
      intro start
      rw [walk, walk]
      by_cases hstart : start = place
      · rw [hstart, at?_put_self hne, hat]
      · rw [at?_put_of_ne hstart]
        simp only [ih]

/-- **What other paths lead to** stays the same. -/
theorem entry_put_file (hat : fs.at? place = some (.file f)) (g : File) {p : Path}
    (hp : Straight p) (hne : p.components ≠ place) :
    (fs.put place (.file g)).entry p = fs.entry p := by
  have hlocate : (fs.put place (.file g)).locate p = fs.locate p := walk_put_file hat g _ _
  unfold entry
  rw [hlocate]
  cases htarget : fs.locate p with
  | error r => rfl
  | ok target =>
      rw [eq_of_locate hp htarget]
      simp only [bind, Except.bind, at?_put_of_ne hne]

theorem read_put_file (hat : fs.at? place = some (.file f)) (g : File) {p : Path}
    (hp : Straight p) (hne : p.components ≠ place) :
    (fs.put place (.file g)).read p = fs.read p := by
  unfold read
  rw [entry_put_file hat g hp hne]

theorem isDirectory_put_file (hat : fs.at? place = some (.file f)) (g : File) {p : Path}
    (hp : Straight p) (hdirectory : fs.isDirectory p = true) :
    (fs.put place (.file g)).isDirectory p = true := by
  have hne : p.components ≠ place := by
    intro heq
    rw [← heq, (locate_of_isDirectory hp hdirectory).2] at hat
    cases hat
  rw [isDirectory, entry?, entry_put_file hat g hp hne]
  exact hdirectory

/-- There are files at the same places. -/
theorem at?_put_file_iff (hat : fs.at? place = some (.file f)) (g : File) {q : Place} :
    (∃ f', (fs.put place (.file g)).at? q = some (.file f')) ↔
      ∃ f', fs.at? q = some (.file f') := by
  have hne : place ≠ [] := by
    rintro rfl
    cases hat
  by_cases hq : q = place
  · rw [hq, at?_put_self hne, hat]
    exact ⟨fun _ => ⟨f, rfl⟩, fun _ => ⟨g, rfl⟩⟩
  · rw [at?_put_of_ne hq]

end

end FileSystem

end LiteralLint
