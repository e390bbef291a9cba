import Mathlib.Data.List.Lex
import LiteralLint.Proofs.CacheStore
import LiteralLint.Scan

/-!
# Finding the same files again

A run leaves the file system as it is, but for the directory of its cache. The rules leave out all
that is there, so the next run finds what this one found: it reads the same ignore file, comes upon
the same files in the same order, and reads the same bytes in them. The order needs an argument of
its own, because the entries of a file system stand in the order in which they were made, and the
cache file is a new one: files are sorted before they are chosen, and only one order of given paths
is sorted.

## Main definitions

* `FileSystem.Apart`: two file systems that differ at a place and below it alone.
* `Scan.found`: the files that a run finds.

## Main results

* `FileSystem.Apart.entry_eq`: what other paths lead to.
* `Cache.does_save`: **what a save leaves behind** in a directory that takes the file.
* `Scan.found_apart`: **the same files are found** after a save.
-/

namespace LiteralLint

open FileSystem (Straight)
open Job (Does)

/-! ## The order of paths -/

theorem Text.lt_eq_decide (s t : Text) : Text.lt s t = decide (s < t) := by
  induction s generalizing t with
  | nil => cases t <;> simp [Text.lt]
  | cons a s ih =>
      cases t with
      | nil => simp [Text.lt]
      | cons b t =>
          rw [Text.lt, ih, Bool.eq_iff_iff, decide_eq_true_iff, List.cons_lt_cons_iff]
          rcases lt_trichotomy a b with h | h | h
          · simp [h]
          · simp [h]
          · simp [h, h.ne', not_lt_of_gt h]

namespace Path

theorem componentsPrecede_eq_decide (s t : List Text) :
    componentsPrecede s t = decide (s < t) := by
  induction s generalizing t with
  | nil => cases t <;> simp [componentsPrecede]
  | cons a s ih =>
      cases t with
      | nil => simp [componentsPrecede]
      | cons b t =>
          rw [componentsPrecede, Text.lt_eq_decide, Text.lt_eq_decide, ih, Bool.eq_iff_iff]
          simp only [decide_eq_true_eq, List.cons_lt_cons_iff]
          rcases lt_trichotomy a b with h | h | h
          · simp [h]
          · simp [h]
          · simp [h, h.ne', not_lt_of_gt h]

/-- Sorted paths ascend by their components. -/
theorem pairwise_mergeSort (ps : List Path) :
    (ps.mergeSort fun p q => !q.precedes p).Pairwise fun p q => p.components ≤ q.components := by
  have hle : ∀ p q : Path, (!q.precedes p) = decide (p.components ≤ q.components) := by
    intro p q
    rw [precedes, componentsPrecede_eq_decide, ← decide_not, decide_eq_decide, not_lt]
  simp only [hle]
  refine (List.pairwise_mergeSort ?_ ?_ ps).imp of_decide_eq_true
  · intro p q r hpq hqr
    exact decide_eq_true (le_trans (of_decide_eq_true hpq) (of_decide_eq_true hqr))
  · intro p q
    rw [Bool.or_eq_true, decide_eq_true_iff, decide_eq_true_iff]
    exact le_total _ _

/-- Among sorted paths with one start, those that are kept depend on the kept ones alone. -/
theorem filter_mergeSort_congr {ps qs : List Path} {start : PathRoot}
    (hps : ∀ p ∈ ps, p.start = start) (hqs : ∀ q ∈ qs, q.start = start) {keep : Path → Bool}
    (h : ps.filter keep = qs.filter keep) :
    (ps.mergeSort fun p q => !q.precedes p).filter keep =
      (qs.mergeSort fun p q => !q.precedes p).filter keep := by
  refine List.Perm.eq_of_pairwise ?_ ((pairwise_mergeSort ps).filter keep)
    ((pairwise_mergeSort qs).filter keep) ?_
  · intro p q hp hq hpq hqp
    have hpstart := hps p (List.mem_mergeSort.1 (List.mem_filter.1 hp).1)
    have hqstart := hqs q (List.mem_mergeSort.1 (List.mem_filter.1 hq).1)
    have hcomponents := le_antisymm hpq hqp
    cases p
    cases q
    simp_all
  · refine ((List.mergeSort_perm ps _).filter keep).trans ?_
    rw [h]
    exact ((List.mergeSort_perm qs _).filter keep).symm

/-- What is in a directory is not above it. -/
theorem not_child_prefix (p : Path) (name : Text) :
    ¬ (p.child name).components <+: p.components := by
  intro hprefix
  have hle := hprefix.length_le
  rw [child, List.length_append, List.length_singleton] at hle
  omega

end Path

/-! ## File systems that differ in one directory -/

theorem lookup_filter_of_pos {α β : Type} [BEq α] [LawfulBEq α] {keep : α × β → Bool} {a : α}
    (h : ∀ b, keep (a, b) = true) (l : List (α × β)) : (l.filter keep).lookup a = l.lookup a := by
  induction l with
  | nil => rfl
  | cons m l ih =>
      obtain ⟨k, b⟩ := m
      rw [List.filter_cons]
      split
      · rw [List.lookup_cons, List.lookup_cons, ih]
      · rename_i hdropped
        have hne : (a == k) = false := by
          refine beq_eq_false_iff_ne.2 ?_
          rintro rfl
          exact hdropped (h b)
        rw [ih, List.lookup_cons, hne]

namespace FileSystem

/-- The entries that are neither at a place nor below it. -/
def outside (fs : FileSystem) (place : Place) : List (Place × Entry) :=
  fs.entries.filter fun m => !place.isPrefixOf m.1

/-- Two file systems that differ at a place and below it alone. -/
structure Apart (place : Place) (fs fs' : FileSystem) : Prop where
  current : fs'.current = fs.current
  entries : fs'.outside place = fs.outside place

namespace Apart

variable {place : Place} {fs fs' : FileSystem}

theorem refl (place : Place) (fs : FileSystem) : Apart place fs fs := ⟨rfl, rfl⟩

/-- Whatever is put at the place or below it. -/
theorem put (h : Apart place fs fs') {q : Place} (hq : place <+: q) (e : Entry) :
    Apart place fs (fs'.put q e) := by
  refine ⟨h.current, ?_⟩
  rw [← h.entries]
  have hdropped : (!place.isPrefixOf q) = false := by
    rw [List.isPrefixOf_iff_prefix.2 hq]
    rfl
  unfold outside FileSystem.put
  rw [List.filter_cons_of_neg (by simp [hdropped]), List.filter_filter]
  refine List.filter_congr fun m _ => ?_
  by_cases hm : m.1 = q
  · rw [hm, hdropped]
    rfl
  · simp [hm]

theorem at?_eq (h : Apart place fs fs') {q : Place} (hq : ¬ place <+: q) :
    fs'.at? q = fs.at? q := by
  have hkept : ∀ e : Entry, (!place.isPrefixOf ((q, e) : Place × Entry).1) = true := by
    intro e
    rw [Bool.not_eq_true', Bool.eq_false_iff, Ne, List.isPrefixOf_iff_prefix]
    exact hq
  cases q with
  | nil => rfl
  | cons name rest =>
      have hentries := congrArg (List.lookup (name :: rest)) h.entries
      unfold outside at hentries
      rwa [lookup_filter_of_pos hkept, lookup_filter_of_pos hkept] at hentries

theorem walk_eq (h : Apart place fs fs') {names : List Text} :
    ∀ {start : Place}, Path.up ∉ names → ¬ place <+: start ++ names →
      fs'.walk start names = fs.walk start names := by
  induction names with
  | nil => exact fun _ _ => rfl
  | cons name names ih =>
      intro start hup hplace
      rw [List.mem_cons, not_or] at hup
      have hstart : ¬ place <+: start := fun habove =>
        hplace (habove.trans (List.prefix_append start _))
      rw [walk, walk, h.at?_eq hstart]
      split
      · rfl
      · rfl
      · rw [if_neg (Ne.symm hup.1)]
        refine ih hup.2 ?_
        rwa [List.append_assoc, List.singleton_append]

variable {p : Path}

theorem locate_eq (h : Apart place fs fs') (hp : Straight p) (hplace : ¬ place <+: p.components) :
    fs'.locate p = fs.locate p := by
  have hstart : ∀ fs : FileSystem, fs.startOf p = [] := fun fs => if_pos hp.isAbsolute
  unfold locate
  rw [hstart, hstart]
  exact h.walk_eq hp.up_not_mem hplace

/-- **A path that does not lead there leads to the same.** -/
theorem entry_eq (h : Apart place fs fs') (hp : Straight p) (hplace : ¬ place <+: p.components) :
    fs'.entry p = fs.entry p := by
  unfold entry
  rw [h.locate_eq hp hplace]
  cases hlocate : fs.locate p with
  | error r => rfl
  | ok target =>
      cases eq_of_locate hp hlocate
      simp only [bind, Except.bind, h.at?_eq hplace]

theorem read_eq (h : Apart place fs fs') (hp : Straight p) (hplace : ¬ place <+: p.components) :
    fs'.read p = fs.read p := by
  unfold read
  rw [h.entry_eq hp hplace]

theorem file?_eq (h : Apart place fs fs') (hp : Straight p) (hplace : ¬ place <+: p.components) :
    fs'.file? p = fs.file? p := by
  unfold file? entry?
  rw [h.entry_eq hp hplace]

end Apart

/-! ## Directories that are there -/

variable {fs : FileSystem}

theorem straight_child {p : Path} (hp : Straight p) {name : Text} (hname : name ≠ Path.up) :
    Straight (p.child name) := by
  refine ⟨hp.isAbsolute, ?_⟩
  show Path.up ∉ p.components ++ [name]
  rw [List.mem_append, not_or, List.mem_singleton]
  exact ⟨hp.up_not_mem, Ne.symm hname⟩

theorem entry_of_isDirectory {p : Path} (h : fs.isDirectory p = true) :
    fs.entry p = .ok .directory := by
  unfold isDirectory entry? at h
  cases hentry : fs.entry p with
  | error r => simp [hentry, Except.toOption] at h
  | ok e =>
      cases e with
      | directory => rfl
      | file f => simp [hentry, Except.toOption] at h

/-- The place of a directory with a straight path. -/
theorem locate_of_isDirectory {p : Path} (hp : Straight p) (h : fs.isDirectory p = true) :
    fs.locate p = .ok p.components ∧ fs.at? p.components = some .directory := by
  have hentry := entry_of_isDirectory h
  refine ⟨?_, at?_of_entry hp hentry⟩
  unfold entry at hentry
  cases hlocate : fs.locate p with
  | error r =>
      rw [hlocate] at hentry
      cases hentry
  | ok place => rw [eq_of_locate hp hlocate]

theorem isDirectory_of_at? {p : Path} {place : Place} (hlocate : fs.locate p = .ok place)
    (hat : fs.at? place = some .directory) : fs.isDirectory p = true := by
  have hentry : fs.entry p = .ok .directory := by
    unfold entry
    rw [hlocate]
    simp only [bind, Except.bind, hat]
    rfl
  unfold isDirectory entry?
  rw [hentry]
  rfl

theorem walk_append {names rest : List Text} :
    ∀ {start target : Place}, fs.walk start names = .ok target →
      fs.walk start (names ++ rest) = fs.walk target rest := by
  induction names with
  | nil =>
      intro start target h
      cases h
      rfl
  | cons name names ih =>
      intro start target h
      rw [walk] at h
      rw [List.cons_append, walk]
      split at h
      · cases h
      · cases h
      · exact ih h

/-- Whatever there is below a directory, a path leads there. -/
theorem locate_child {p : Path} (hp : Straight p) (h : fs.isDirectory p = true) {name : Text}
    (hname : name ≠ Path.up) : fs.locate (p.child name) = .ok (p.components ++ [name]) := by
  obtain ⟨hlocate, hat⟩ := locate_of_isDirectory hp h
  have hstart : fs.startOf (p.child name) = fs.startOf p := rfl
  unfold locate at hlocate ⊢
  rw [hstart, show (p.child name).components = p.components ++ [name] from rfl, walk_append hlocate,
    walk, hat]
  simp only [if_neg hname]
  rfl

/-- Where a walk leads to a directory, it starts at one. -/
theorem at?_of_walk {names : List Text} {start target : Place}
    (h : fs.walk start names = .ok target) (htarget : fs.at? target = some .directory) :
    fs.at? start = some .directory := by
  cases names with
  | nil =>
      cases h
      exact htarget
  | cons name names =>
      rw [walk] at h
      split at h
      · cases h
      · cases h
      · rename_i hdirectory
        exact hdirectory

/-- Along directories that are there, none is made. -/
theorem makeAlong_append {names rest : List Text} {target : Place}
    (htarget : fs.at? target = some .directory) :
    ∀ {start : Place}, fs.walk start names = .ok target →
      fs.makeAlong start (names ++ rest) = fs.makeAlong target rest := by
  induction names with
  | nil =>
      intro start h
      cases h
      rfl
  | cons name names ih =>
      intro start h
      have hstart := at?_of_walk h htarget
      rw [walk, hstart] at h
      have hnext := at?_of_walk h htarget
      rw [List.cons_append, makeAlong, hstart]
      simp only [hnext, Option.isSome_some, if_true]
      exact ih h

/-- One directory more is made if there is nothing in its place. -/
theorem makeAlong_singleton {place : Place} {name : Text} {made : FileSystem}
    (hplace : fs.at? place = some .directory) (hname : name ≠ Path.up)
    (h : fs.makeAlong place [name] = .ok made) :
    made.at? (place ++ [name]) = some .directory ∧
      (made = fs ∨ made = fs.put (place ++ [name]) .directory) := by
  rw [makeAlong, hplace] at h
  simp only [if_neg hname] at h
  have hne : place ++ [name] ≠ [] := by simp
  cases hold : fs.at? (place ++ [name]) with
  | none =>
      have hput : (fs.put (place ++ [name]) .directory).at? (place ++ [name]) = some .directory :=
        at?_put_self hne .directory
      rw [hold] at h
      simp only [Option.isSome_none, Bool.false_eq_true, if_false, makeAlong, hput] at h
      cases h
      exact ⟨hput, Or.inr rfl⟩
  | some e =>
      rw [hold] at h
      simp only [Option.isSome_some, if_true, makeAlong, hold] at h
      cases e with
      | directory =>
          cases h
          exact ⟨hold, Or.inl rfl⟩
      | file f => cases h

end FileSystem

/-! ## Saving a cache -/

namespace Cache

open FileSystem (Apart)

variable {fs made : FileSystem} {root : Path}

/-- The directory of a cache is made below a directory, and no other. -/
theorem apart_of_makeDirectories (hroot : Straight root) (hdirectory : fs.isDirectory root = true)
    (h : fs.makeDirectories (directoryOf root) = .ok made) :
    Apart (directoryOf root).components fs made ∧
      made.at? (directoryOf root).components = some .directory := by
  obtain ⟨hlocate, hat⟩ := FileSystem.locate_of_isDirectory hroot hdirectory
  have hwalk : fs.walk [] root.components = .ok root.components := by
    unfold FileSystem.locate at hlocate
    rwa [show fs.startOf root = [] from if_pos hroot.isAbsolute] at hlocate
  have hmake : fs.makeAlong root.components [".i18nlint"] = .ok made := by
    unfold FileSystem.makeDirectories at h
    rw [show fs.startOf (directoryOf root) = [] from if_pos hroot.isAbsolute,
      show (directoryOf root).components = root.components ++ [Text.ofString ".i18nlint"] from rfl,
      FileSystem.makeAlong_append hat hwalk] at h
    cases hmade : fs.makeAlong root.components [".i18nlint"] with
    | error r =>
        rw [hmade] at h
        cases h
    | ok fs' =>
        rw [hmade] at h
        cases h
        rfl
  obtain ⟨hmade, heq⟩ := FileSystem.makeAlong_singleton hat (by decide) hmake
  refine ⟨?_, hmade⟩
  rcases heq with rfl | rfl
  · exact Apart.refl _ _
  · exact (Apart.refl _ _).put (List.prefix_refl _) _

/-- A file system takes the file where the directory of the cache is there. -/
theorem accepts_of_isDirectory (hroot : Straight root)
    (hdirectory : fs.isDirectory (directoryOf root) = true)
    (hfile : fs.at? (pathOf root).components ≠ some .directory) : Accepts fs root := by
  have hstraight : Straight (directoryOf root) := FileSystem.straight_child hroot (by decide)
  obtain ⟨hlocate, hat⟩ := FileSystem.locate_of_isDirectory hstraight hdirectory
  have hmake : fs.makeDirectories (directoryOf root) = .ok fs := by
    have halong : fs.makeAlong (fs.startOf (directoryOf root)) ((directoryOf root).components ++ []) =
        fs.makeAlong (directoryOf root).components [] :=
      FileSystem.makeAlong_append hat hlocate
    rw [List.append_nil, FileSystem.makeAlong, hat] at halong
    unfold FileSystem.makeDirectories
    rw [halong]
    rfl
  have hplace : fs.locate (pathOf root) = .ok (pathOf root).components :=
    FileSystem.locate_child hstraight hdirectory (by decide)
  have habove : fs.at? (pathOf root).components.dropLast = some .directory := by
    rw [show (pathOf root).components.dropLast = (directoryOf root).components from
      List.dropLast_concat, hat]
  refine ⟨fs, fs.put (pathOf root).components (.file ⟨[], .zero false, true⟩),
    ⟨[], .zero false, true⟩, hmake, ?_⟩
  unfold FileSystem.write
  rw [hplace]
  simp only [habove]

/-- Once the file is there, the next one is taken as well. -/
theorem accepts_put (hroot : Straight root) (hdirectory : made.isDirectory root = true)
    (hmade : made.at? (directoryOf root).components = some .directory) (f : File) :
    Accepts (made.put (pathOf root).components (.file f)) root := by
  have hbelow : (directoryOf root).components <+: (pathOf root).components :=
    List.prefix_append _ _
  have hapart := (Apart.refl (directoryOf root).components made).put hbelow (.file f)
  have hthere : (made.put (pathOf root).components (.file f)).isDirectory root = true := by
    rw [FileSystem.isDirectory, FileSystem.entry?,
      hapart.entry_eq hroot (Path.not_child_prefix _ _)]
    exact hdirectory
  have hne : (directoryOf root).components ≠ (pathOf root).components := by
    intro heq
    refine Path.not_child_prefix (directoryOf root) "lint_cache.msgpack" ?_
    rw [heq]
    exact List.prefix_refl _
  refine accepts_of_isDirectory hroot (FileSystem.isDirectory_of_at?
    (FileSystem.locate_child hroot hthere (by decide)) ?_) ?_
  · exact (FileSystem.at?_put_of_ne hne _).trans hmade
  · rw [FileSystem.at?_put_self (by simp [pathOf, Path.child])]
    simp

/-- **What a save leaves behind** in a directory that takes the file: all that is not in the
directory of the cache is as before, and the next save is taken as well. -/
theorem does_save (hroot : Straight root) (hdirectory : fs.isDirectory root = true)
    (h : Accepts fs root) (c : Cache) :
    ∃ fs', Apart (directoryOf root).components fs fs' ∧ Accepts fs' root ∧
      fs'.read (pathOf root) = .ok (c.toValue.write.toOption.getD []) ∧
      Does (save root c) fs (match c.toValue.write with
        | .ok _ => .ok ()
        | .error u => .error (unwritable u)) fs' := by
  obtain ⟨made, hmake, hwrite, hsave⟩ := does_save_accepted hroot h
  obtain ⟨hapart, hmade⟩ := apart_of_makeDirectories hroot hdirectory hmake
  have hdirectory' : made.isDirectory root = true := by
    rw [FileSystem.isDirectory, FileSystem.entry?,
      hapart.entry_eq hroot (Path.not_child_prefix _ _)]
    exact hdirectory
  have hbelow : (directoryOf root).components <+: (pathOf root).components :=
    List.prefix_append _ _
  exact ⟨_, hapart.put hbelow _, accepts_put hroot hdirectory' hmade _,
    FileSystem.read_of_write (hwrite ⟨_, .zero false, true⟩) rfl, hsave c⟩

end Cache

/-! ## Finding files -/

namespace IgnoreRules

/-- The directory of the cache is left out by a rule that always holds. -/
theorem rejects_cache {patterns : List Text} (hpatterns : builtIn ⊆ patterns) {root p : Path}
    (h : (Cache.directoryOf root).components <+: p.components) :
    rejects patterns root p = true := by
  unfold rejects Path.relativeTo?
  split
  · rfl
  · rename_i rest hrest
    split at hrest
    · cases hrest
      obtain ⟨below, hbelow⟩ := h
      have hmem : Text.ofString ".i18nlint" ∈ p.components.drop root.components.length := by
        rw [← hbelow, show (Cache.directoryOf root).components =
          root.components ++ [Text.ofString ".i18nlint"] from rfl, List.append_assoc,
          List.drop_left]
        simp
      refine List.any_eq_true.2 ⟨".i18nlint", hpatterns (by decide), ?_⟩
      unfold concerns
      rw [if_neg (by decide)]
      exact List.any_eq_true.2 ⟨_, hmem, by simp⟩
    · cases hrest

/-- The patterns of the ignore file at the root of a scan. A file that cannot be read has none. -/
def ownPatterns (fs : FileSystem) (root : Path) : Except Failure (List Text) :=
  match fs.read (root.child fileName) with
  | .error _ => .ok []
  | .ok bytes =>
    match Utf8.decode? bytes with
    | .error f => .error (.notUtf8 f)
    | .ok contents => .ok (patternsOf (readLines contents))

theorem does_custom (fs : FileSystem) (root : Path) :
    Does (custom root) fs (ownPatterns fs root) fs := by
  unfold custom ownPatterns
  refine Does.after_files ?_
  dsimp only
  cases hread : fs.read (root.child fileName) with
  | error f =>
      split
      · exact Does.pure []
      · exact Does.after_tell _ (Does.pure [])
  | ok bytes =>
      obtain ⟨f, hf, -⟩ := FileSystem.file?_of_read hread
      have hexists : fs.exists (root.child fileName) = true := by
        rw [FileSystem.exists, FileSystem.entry?, FileSystem.entry_of_file? hf]
        rfl
      rw [hexists]
      simp only [Bool.not_true, Bool.false_eq_true, if_false]
      cases Utf8.decode? bytes with
      | error f => exact Does.throw _
      | ok contents => exact Does.bind (Does.tellAll _) (Does.pure _)

/-- All patterns of a scan, if the ignore file is a text. -/
def allPatterns (fs : FileSystem) (root : Path) (extra : List Text) : Except Failure (List Text) :=
  (ownPatterns fs root).map fun own => (builtIn ++ own ++ added extra).eraseDups

theorem does_load (fs : FileSystem) (root : Path) (extra : List Text) :
    Does (load root extra) fs (allPatterns fs root extra) fs := by
  unfold load
  refine Does.map (does_custom fs root) fun own _ => ?_
  dsimp only
  split
  · exact Does.after_tell _ (Does.pure _)
  · exact Does.pure _

end IgnoreRules

namespace Scan

open FileSystem (Apart)

/-- The files that a run over a directory finds, if the ignore file is a text. -/
def found (fs : FileSystem) (directory : Path) (ignore : List Text) :
    Except Failure (List Path) :=
  (IgnoreRules.allPatterns fs directory ignore).map fun patterns =>
    (fs.filesBelow directory).filter fun p =>
      isLintable p && !IgnoreRules.rejects patterns directory p

theorem does_discover_found (fs : FileSystem) (directory : Path) (ignore : List Text) :
    Does (discover directory ignore) fs (found fs directory ignore) fs :=
  Does.map (IgnoreRules.does_load fs directory ignore) fun _ _ =>
    Does.after_files (Does.pure _)

variable {fs fs' : FileSystem} {directory : Path} {ignore : List Text}

/-- What is found are the files of the languages that the patterns leave. -/
theorem found_of_lintable {sources paths : List Path} {patterns : List Text}
    (hsources : (fs.filesBelow directory).filter isLintable = sources)
    (hpatterns : IgnoreRules.allPatterns fs directory ignore = .ok patterns)
    (hpaths : sources.filter (fun p => !IgnoreRules.rejects patterns directory p) = paths) :
    found fs directory ignore = .ok paths := by
  unfold found
  rw [hpatterns, ← hpaths, ← hsources, List.filter_filter]
  simp only [Bool.and_comm (isLintable _)]
  rfl

/-- What is found goes by patterns among which are those that always hold. -/
theorem of_found {paths : List Path} (h : found fs directory ignore = .ok paths) :
    ∃ patterns, IgnoreRules.builtIn ⊆ patterns ∧
      paths = (fs.filesBelow directory).filter fun p =>
        isLintable p && !IgnoreRules.rejects patterns directory p := by
  unfold found IgnoreRules.allPatterns at h
  cases hown : IgnoreRules.ownPatterns fs directory with
  | error e =>
      rw [hown] at h
      cases h
  | ok own =>
      rw [hown] at h
      cases h
      exact ⟨_, fun t ht => List.mem_eraseDups.2 (by simp [ht]), rfl⟩

/-- What is found is below the directory and of a name that is linted, but not in the directory of
the cache. -/
theorem of_mem_found {paths : List Path} (h : found fs directory ignore = .ok paths) {p : Path}
    (hp : p ∈ paths) :
    p ∈ fs.filesBelow directory ∧ isLintable p = true ∧
      ¬ (Cache.directoryOf directory).components <+: p.components := by
  obtain ⟨patterns, hpatterns, rfl⟩ := of_found h
  obtain ⟨hmem, hkeep⟩ := List.mem_filter.1 hp
  obtain ⟨hlint, hkept⟩ := Bool.and_eq_true_iff.1 hkeep
  refine ⟨hmem, hlint, fun hbelow => ?_⟩
  rw [IgnoreRules.rejects_cache hpatterns hbelow] at hkept
  cases hkept

/-- No more is found than there is to lint. -/
theorem length_found_le {paths : List Path} (h : found fs directory ignore = .ok paths) :
    paths.length ≤ ((fs.filesBelow directory).filter isLintable).length := by
  obtain ⟨patterns, -, rfl⟩ := of_found h
  refine (List.monotone_filter_right _ fun p hp => ?_).length_le
  exact (Bool.and_eq_true_iff.1 hp).1

/-- What is dropped beforehand makes no difference, if it would not be kept later. -/
theorem filter_filterMap_filter {α β : Type} {f : α → Option β} {before : α → Bool}
    {keep : β → Bool} (h : ∀ a b, before a = false → f a = some b → keep b = false)
    (l : List α) : ((l.filter before).filterMap f).filter keep = (l.filterMap f).filter keep := by
  induction l with
  | nil => rfl
  | cons a l ih =>
      cases hbefore : before a with
      | true =>
          rw [List.filter_cons_of_pos hbefore]
          cases hf : f a with
          | none => rw [List.filterMap_cons_none hf, List.filterMap_cons_none hf, ih]
          | some b =>
              rw [List.filterMap_cons_some hf, List.filterMap_cons_some hf, List.filter_cons,
                List.filter_cons, ih]
      | false =>
          rw [List.filter_cons_of_neg (by simp [hbefore]), ih]
          cases hf : f a with
          | none => rw [List.filterMap_cons_none hf]
          | some b =>
              rw [List.filterMap_cons_some hf, List.filter_cons_of_neg (by simp [h a b hbefore hf])]

/-- Files that are chosen elsewhere are the same, in the same order. -/
theorem filter_filesBelow_apart (h : Apart (Cache.directoryOf directory).components fs fs')
    (hdirectory : Straight directory) {keep : Path → Bool}
    (hkeep : ∀ p, (Cache.directoryOf directory).components <+: p.components → keep p = false) :
    (fs'.filesBelow directory).filter keep = (fs.filesBelow directory).filter keep := by
  have hself := Path.not_child_prefix directory ".i18nlint"
  unfold FileSystem.filesBelow
  rw [h.entry_eq hdirectory hself, h.locate_eq hdirectory hself]
  split
  · rename_i place _ hplace
    cases FileSystem.eq_of_locate hdirectory hplace
    dsimp only
    generalize hpath : (fun m : Place × FileSystem.Entry => _) = path
    have hpaths : ∀ there e p, path (there, e) = some p →
        p.start = directory.start ∧ p.components = there := by
      intro there e p hp
      subst hpath
      cases e with
      | directory => cases hp
      | file f =>
          dsimp only at hp
          split at hp
          · rename_i hprefix
            cases hp
            obtain ⟨rest, rfl⟩ := List.isPrefixOf_iff_prefix.1 hprefix
            exact ⟨rfl, by rw [List.drop_left]⟩
          · cases hp
    have hstart : ∀ entries : List (Place × FileSystem.Entry), ∀ p ∈ entries.filterMap path,
        p.start = directory.start := by
      intro entries p hp
      obtain ⟨⟨there, e⟩, -, hm⟩ := List.mem_filterMap.1 hp
      exact (hpaths there e p hm).1
    have houtside : ∀ m p, (!(Cache.directoryOf directory).components.isPrefixOf m.1) = false →
        path m = some p → keep p = false := by
      rintro ⟨there, e⟩ p hthere hp
      rw [Bool.not_eq_false', List.isPrefixOf_iff_prefix] at hthere
      exact hkeep p ((hpaths there e p hp).2 ▸ hthere)
    refine Path.filter_mergeSort_congr (hstart _) (hstart _) ?_
    rw [← filter_filterMap_filter houtside fs'.entries, ← filter_filterMap_filter houtside fs.entries]
    exact congrArg (fun entries => (entries.filterMap path).filter keep) h.entries
  · rfl

/-- **The same files are found** in file systems that differ in the directory of the cache. -/
theorem found_apart (h : Apart (Cache.directoryOf directory).components fs fs')
    (hdirectory : Straight directory) : found fs' directory ignore = found fs directory ignore := by
  have hignore : ¬ (Cache.directoryOf directory).components <+:
      (directory.child IgnoreRules.fileName).components := by
    intro hprefix
    have heq := hprefix.eq_of_length (by simp [Cache.directoryOf, Path.child])
    have hname := List.append_cancel_left heq
    exact absurd hname (by decide)
  have hread := h.read_eq (FileSystem.straight_child hdirectory (by decide)) hignore
  have hown : IgnoreRules.ownPatterns fs' directory = IgnoreRules.ownPatterns fs directory := by
    unfold IgnoreRules.ownPatterns
    rw [hread]
  unfold found IgnoreRules.allPatterns
  rw [hown]
  cases IgnoreRules.ownPatterns fs directory with
  | error e => rfl
  | ok own =>
      refine congrArg Except.ok (filter_filesBelow_apart h hdirectory fun p hp => ?_)
      rw [IgnoreRules.rejects_cache (fun t ht => List.mem_eraseDups.2 (by simp [ht])) hp]
      simp

end Scan

end LiteralLint
