import LiteralLint.Proofs.Discovery
import LiteralLint.Proofs.IgnoredPaths

/-!
# The ignore file of a scan

An ignore file and patterns that a caller gives only add to those that always hold, and more patterns
leave out no less. The ignore file is a new file below the directory, but none that is linted. So a
scan with them finds some of the files that it finds without, in the same order.

What the file holds can end a scan in one way: what is read has to be UTF-8, and a fault in it is not
handled as one of the system is. A file that cannot be read adds nothing.

## Main results

* `FileSystem.of_write_child`: what there is around a new file.
* `FileSystem.filter_filesBelow_new`: a file that is not kept anyway makes no difference.
* `Scan.discover_ignoring`: **what a scan finds with an ignore file**, and when it fails.
-/

namespace LiteralLint

/-! ## A new file -/

namespace FileSystem

variable {fs fs' : FileSystem}

/-- The last step of a walk leads down from a directory. -/
theorem of_walk_concat {name : Text} (hname : name ≠ Path.up) {names : List Text} :
    ∀ {start target : Place}, fs.walk start (names ++ [name]) = .ok target →
      ∃ place, fs.walk start names = .ok place ∧ fs.at? place = some .directory ∧
        target = place ++ [name] := by
  induction names with
  | nil =>
      intro start target h
      rw [List.nil_append, walk] at h
      split at h
      · cases h
      · cases h
      · rename_i hdirectory
        rw [if_neg hname] at h
        cases h
        exact ⟨start, rfl, hdirectory, rfl⟩
  | cons next names ih =>
      intro start target h
      rw [List.cons_append, walk] at h
      rw [walk]
      split at h
      · cases h
      · cases h
      · exact ih h

/-- **What there is around a new file**: a directory that the path above leads to, and nothing at
the place where the file is put. -/
theorem of_write_child {p : Path} {name : Text} {f : File} (hname : name ≠ Path.up)
    (habsent : fs.exists (p.child name) = false) (h : fs.write (p.child name) f = .ok fs') :
    ∃ place, fs.locate p = .ok place ∧ fs.at? place = some .directory ∧
      fs.at? (place ++ [name]) = none ∧ fs' = fs.put (place ++ [name]) (.file f) := by
  obtain ⟨fault, hfault⟩ | ⟨target, -, hlocate, hput⟩ := write_eq fs (p.child name)
  · rw [hfault] at h
    cases h
  · obtain ⟨place, hplace, hdirectory, rfl⟩ := of_walk_concat hname hlocate
    rw [hput] at h
    cases h
    refine ⟨place, hplace, hdirectory, ?_, rfl⟩
    unfold «exists» entry? entry at habsent
    rw [hlocate] at habsent
    cases hat : fs.at? (place ++ [name]) with
    | none => rfl
    | some e =>
        simp only [bind, Except.bind, hat] at habsent
        cases habsent

/-- Nothing stands in the table for a place where there is nothing. -/
theorem entries_put_of_none {place : Place} (h : fs.at? place = none) (e : Entry) :
    (fs.put place e).entries = (place, e) :: fs.entries := by
  have hlookup : fs.entries.lookup place = none := by
    cases place with
    | nil => cases h
    | cons name rest => exact h
  have hothers : fs.entries.filter (fun m => m.1 != place) = fs.entries := by
    refine List.filter_eq_self.2 fun m hm => ?_
    have hne := List.lookup_eq_none_iff.1 hlookup m hm
    rw [bne, BEq.comm]
    simpa using hne
  exact congrArg ((place, e) :: ·) hothers

variable {directory : Path} {place : Place} {name : Text}

/-- **A new file in a directory** makes no difference to those below that are kept, if it is not
kept itself. -/
theorem filter_filesBelow_new (hlocate : fs.locate directory = .ok place)
    (hdirectory : fs.at? place = some .directory) (hnone : fs.at? (place ++ [name]) = none)
    (f : File) {keep : Path → Bool} (hkeep : keep (directory.child name) = false) :
    ((fs.put (place ++ [name]) (.file f)).filesBelow directory).filter keep =
      (fs.filesBelow directory).filter keep := by
  have hne : place ≠ place ++ [name] := by simp
  have hlocate' : (fs.put (place ++ [name]) (.file f)).locate directory = .ok place :=
    walk_put (by simp [hnone]) _ hlocate
  have hdirectory' : (fs.put (place ++ [name]) (.file f)).at? place = some .directory :=
    (at?_put_of_ne hne _).trans hdirectory
  unfold filesBelow
  rw [entry_of_isDirectory (isDirectory_of_at? hlocate hdirectory), hlocate,
    entry_of_isDirectory (isDirectory_of_at? hlocate' hdirectory'), hlocate',
    entries_put_of_none hnone]
  dsimp only
  generalize hpath : (fun m : Place × Entry => _) = path
  have hnew : path (place ++ [name], .file f) = some (directory.child name) := by
    subst hpath
    have hunder : place.isPrefixOf (place ++ [name]) = true :=
      List.isPrefixOf_iff_prefix.2 (List.prefix_append _ _)
    dsimp only
    rw [if_pos hunder, List.drop_left]
    rfl
  have hstart : ∀ entries : List (Place × Entry), ∀ p ∈ entries.filterMap path,
      p.start = directory.start := by
    intro entries p hp
    obtain ⟨⟨there, e⟩, -, hm⟩ := List.mem_filterMap.1 hp
    subst hpath
    cases e with
    | directory => cases hm
    | file g =>
        dsimp only at hm
        split at hm
        · cases hm
          rfl
        · cases hm
  refine Path.filter_mergeSort_congr (hstart _) (hstart _) ?_
  rw [List.filterMap_cons_some hnew, List.filter_cons_of_neg (by simp [hkeep])]

end FileSystem

/-! ## Patterns of the file and of a caller -/

namespace IgnoreRules

variable {fs : FileSystem} {root : Path} {extra patterns : List Text}

/-- An ignore file that is not there has no patterns. -/
theorem allPatterns_of_absent (h : fs.exists (root.child fileName) = false) (extra : List Text) :
    allPatterns fs root extra = .ok (builtIn ++ added extra).eraseDups := by
  have hread : ∃ fault, fs.read (root.child fileName) = .error fault := by
    cases hread : fs.read (root.child fileName) with
    | error fault => exact ⟨fault, rfl⟩
    | ok bytes =>
        obtain ⟨f, hf, -⟩ := FileSystem.file?_of_read hread
        rw [FileSystem.exists, FileSystem.entry?, FileSystem.entry_of_file? hf] at h
        cases h
  obtain ⟨fault, hfault⟩ := hread
  unfold allPatterns ownPatterns
  rw [hfault]
  show Except.ok (builtIn ++ [] ++ added extra).eraseDups = _
  rw [List.append_nil]

/-- The patterns of a scan hold those that always hold and those that are given. -/
theorem of_allPatterns (h : allPatterns fs root extra = .ok patterns) :
    builtIn ⊆ patterns ∧ ∀ p ∈ extra, trimSlashes p ≠ [] → trimSlashes p ∈ patterns := by
  unfold allPatterns at h
  cases hown : ownPatterns fs root with
  | error e =>
      rw [hown] at h
      cases h
  | ok own =>
      rw [hown] at h
      cases h
      refine ⟨fun t ht => List.mem_eraseDups.2 (by simp [ht]), fun p hp hne => ?_⟩
      have hadded : trimSlashes p ∈ added extra :=
        List.mem_filter.2 ⟨List.mem_map_of_mem hp, by simpa using hne⟩
      exact List.mem_eraseDups.2 (List.mem_append_right _ hadded)

section

variable {fs' : FileSystem} {f : File} (hwrite : fs.write (root.child fileName) f = .ok fs')
include hwrite

/-- The patterns of an ignore file, once it is written. -/
theorem ownPatterns_of_write :
    ownPatterns fs' root =
      if f.readable then
        match Utf8.decode? f.bytes with
        | .error fault => .error (.notUtf8 fault)
        | .ok contents => .ok (patternsOf (readLines contents))
      else .ok [] := by
  unfold ownPatterns FileSystem.read
  rw [FileSystem.entry_of_write hwrite]
  dsimp only
  cases f.readable <;> rfl

theorem allPatterns_of_fault {fault : Utf8.Fault} (hreadable : f.readable = true)
    (hdecode : Utf8.decode? f.bytes = .error fault) (extra : List Text) :
    allPatterns fs' root extra = .error (.notUtf8 fault) := by
  unfold allPatterns
  rw [ownPatterns_of_write hwrite, if_pos hreadable, hdecode]
  rfl

theorem exists_allPatterns_of_write
    (htext : f.readable = true → ∃ contents, Utf8.decode? f.bytes = .ok contents)
    (extra : List Text) : ∃ patterns, allPatterns fs' root extra = .ok patterns := by
  unfold allPatterns
  rw [ownPatterns_of_write hwrite]
  cases hreadable : f.readable with
  | false => exact ⟨_, rfl⟩
  | true =>
      obtain ⟨contents, hcontents⟩ := htext hreadable
      rw [if_pos rfl, hcontents]
      exact ⟨_, rfl⟩

end

end IgnoreRules

/-! ## Scans -/

namespace Scan

open Job

variable {fs fs' : FileSystem} {root : Path} {f : File}

/-- The ignore file has no extension of a language. -/
theorem not_isLintable_ignoreFile (root : Path) :
    isLintable (root.child IgnoreRules.fileName) = false := by
  have hname : (root.child IgnoreRules.fileName).name = IgnoreRules.fileName := by
    unfold Path.name
    rw [show (root.child IgnoreRules.fileName).components =
      root.components ++ [IgnoreRules.fileName] from rfl, List.getLast?_concat]
    rfl
  unfold isLintable Path.suffix
  rw [hname]
  decide

/-- With an ignore file and given patterns, no more is found. -/
theorem found_sublist (habsent : fs.exists (root.child IgnoreRules.fileName) = false)
    (hwrite : fs.write (root.child IgnoreRules.fileName) f = .ok fs') {extra : List Text}
    {paths : List Path} (h : found fs' root extra = .ok paths) :
    ∃ all, found fs root [] = .ok all ∧ paths.Sublist all := by
  have hplain := IgnoreRules.allPatterns_of_absent habsent []
  obtain ⟨patterns, hbuiltIn, rfl⟩ := of_found h
  obtain ⟨place, hlocate, hdirectory, hnone, rfl⟩ :=
    FileSystem.of_write_child (by decide) habsent hwrite
  unfold found
  rw [hplain]
  refine ⟨_, rfl, ?_⟩
  rw [FileSystem.filter_filesBelow_new hlocate hdirectory hnone f
    (by rw [not_isLintable_ignoreFile, Bool.false_and])]
  have hsub : (IgnoreRules.builtIn ++ IgnoreRules.added []).eraseDups ⊆ patterns := fun t ht =>
    hbuiltIn (by simpa [IgnoreRules.added] using List.mem_eraseDups.1 ht)
  refine List.monotone_filter_right _ fun p hp => ?_
  obtain ⟨hlint, hkept⟩ := Bool.and_eq_true_iff.1 hp
  exact Bool.and_eq_true_iff.2 ⟨hlint, IgnoreRules.kept_of_subset hsub hkept⟩

/-- **What a scan finds with an ignore file.** If the file can be read and is no UTF-8, its patterns
are not loaded and the scan fails with the fault. Otherwise the patterns of the scan hold those that
always hold and those that are given, and it finds some of the files that it finds without the ignore
file and without given patterns, in the same order. -/
theorem discover_ignoring (habsent : fs.exists (root.child IgnoreRules.fileName) = false)
    (hwrite : fs.write (root.child IgnoreRules.fileName) f = .ok fs') (extra : List Text) :
    (∀ fault, f.readable = true → Utf8.decode? f.bytes = .error fault →
        Does (IgnoreRules.load root extra) fs' (.error (.notUtf8 fault)) fs' ∧
          Does (discover root extra) fs' (.error (.notUtf8 fault)) fs') ∧
      ((f.readable = true → ∃ contents, Utf8.decode? f.bytes = .ok contents) →
        ∃ patterns paths all, Does (IgnoreRules.load root extra) fs' (.ok patterns) fs' ∧
          IgnoreRules.builtIn ⊆ patterns ∧
          (∀ p ∈ extra, IgnoreRules.trimSlashes p ≠ [] → IgnoreRules.trimSlashes p ∈ patterns) ∧
          Does (discover root extra) fs' (.ok paths) fs' ∧ Does (discover root []) fs (.ok all) fs ∧
          paths.Sublist all) := by
  refine ⟨fun fault hreadable hdecode => ?_, fun htext => ?_⟩
  · have hpatterns := IgnoreRules.allPatterns_of_fault hwrite hreadable hdecode extra
    have hfound : found fs' root extra = .error (.notUtf8 fault) := by
      unfold found
      rw [hpatterns]
      rfl
    exact ⟨hpatterns ▸ IgnoreRules.does_load fs' root extra,
      hfound ▸ does_discover_found fs' root extra⟩
  · obtain ⟨patterns, hpatterns⟩ := IgnoreRules.exists_allPatterns_of_write hwrite htext extra
    obtain ⟨hbuiltIn, hextra⟩ := IgnoreRules.of_allPatterns hpatterns
    have hfound : found fs' root extra = .ok ((fs'.filesBelow root).filter fun p =>
        isLintable p && !IgnoreRules.rejects patterns root p) := by
      unfold found
      rw [hpatterns]
      rfl
    obtain ⟨all, hall, hsublist⟩ := found_sublist habsent hwrite hfound
    exact ⟨patterns, _, all, hpatterns ▸ IgnoreRules.does_load fs' root extra, hbuiltIn, hextra,
      hfound ▸ does_discover_found fs' root extra, hall ▸ does_discover_found fs root [], hsublist⟩

/-- A directory with a source in it, and with one below. -/
def twoSources : FileSystem where
  current := ["w"]
  entries := [(["w"], .directory), (["w", "a.js"], .file ⟨[], .zero false, true⟩),
    (["w", "fixtures"], .directory), (["w", "fixtures", "b.js"], .file ⟨[], .zero false, true⟩)]

/-- The directory with an ignore file. -/
def ignoring (b : Bytes) : FileSystem :=
  twoSources.put ["w", IgnoreRules.fileName] (.file ⟨b, .zero false, true⟩)

theorem lintable_twoSources : (twoSources.filesBelow ⟨.current, []⟩).filter isLintable =
    [⟨.current, ["a.js"]⟩, ⟨.current, ["fixtures", "b.js"]⟩] := by
  have hbelow : twoSources.filesBelow ⟨.current, []⟩ =
      [⟨.current, ["a.js"]⟩, ⟨.current, ["fixtures", "b.js"]⟩] :=
    List.mergeSort_of_pairwise (by decide)
  rw [hbelow]
  decide

theorem lintable_ignoring : ((ignoring [35]).filesBelow ⟨.current, []⟩).filter isLintable =
    [⟨.current, ["a.js"]⟩, ⟨.current, ["fixtures", "b.js"]⟩] := by
  have hbelow : (ignoring [35]).filesBelow ⟨.current, []⟩ = [⟨.current, [IgnoreRules.fileName]⟩,
      ⟨.current, ["a.js"]⟩, ⟨.current, ["fixtures", "b.js"]⟩] :=
    List.mergeSort_of_pairwise (by decide)
  rw [hbelow]
  decide

/-- A comment in the ignore file, and a given pattern with slashes around it: one source is found,
and the other one is ignored. -/
theorem discover_ignoring_comment :
    ∃ patterns paths all, Does (IgnoreRules.load ⟨.current, []⟩ ["/fixtures/"]) (ignoring [35])
        (.ok patterns) (ignoring [35]) ∧ Text.ofString "fixtures" ∈ patterns ∧
      Does (discover ⟨.current, []⟩ ["/fixtures/"]) (ignoring [35]) (.ok paths) (ignoring [35]) ∧
      Does (discover ⟨.current, []⟩ []) twoSources (.ok all) twoSources ∧ paths.Sublist all ∧
      paths = [⟨.current, ["a.js"]⟩] ∧
      all = [⟨.current, ["a.js"]⟩, ⟨.current, ["fixtures", "b.js"]⟩] := by
  have habsent : twoSources.exists (Path.child ⟨.current, []⟩ IgnoreRules.fileName) = false := by
    decide
  have hwrite : twoSources.write (Path.child ⟨.current, []⟩ IgnoreRules.fileName)
      ⟨[35], .zero false, true⟩ = .ok (ignoring [35]) := rfl
  obtain ⟨patterns, paths, all, hload, -, hextra, hdiscover, hall, hsublist⟩ :=
    (discover_ignoring habsent hwrite ["/fixtures/"]).2 fun _ => ⟨[35], by decide⟩
  have htrim : IgnoreRules.trimSlashes "/fixtures/" = Text.ofString "fixtures" := by decide
  have hpatterns : IgnoreRules.allPatterns (ignoring [35]) ⟨.current, []⟩ ["/fixtures/"] =
      .ok (IgnoreRules.builtIn ++ [Text.ofString "fixtures"]) := rfl
  have hplain : IgnoreRules.allPatterns twoSources ⟨.current, []⟩ [] = .ok IgnoreRules.builtIn := rfl
  have hfound : found (ignoring [35]) ⟨.current, []⟩ ["/fixtures/"] =
      .ok [⟨.current, ["a.js"]⟩] :=
    found_of_lintable lintable_ignoring hpatterns (by cbv)
  have hfoundAll : found twoSources ⟨.current, []⟩ [] =
      .ok [⟨.current, ["a.js"]⟩, ⟨.current, ["fixtures", "b.js"]⟩] :=
    found_of_lintable lintable_twoSources hplain (by cbv)
  refine ⟨patterns, paths, all, hload, ?_, hdiscover, hall, hsublist, ?_, ?_⟩
  · rw [← htrim]
    exact hextra _ (List.mem_singleton_self _) (by decide)
  · exact Except.ok.inj (hdiscover.outcome_eq.symm.trans
      ((does_discover_found _ _ _).outcome_eq.trans hfound))
  · exact Except.ok.inj (hall.outcome_eq.symm.trans
      ((does_discover_found _ _ _).outcome_eq.trans hfoundAll))

/-- An octet that starts nothing ends the scan. -/
theorem load_stray_octet :
    (ignoring [0xff]).read (Path.child ⟨.current, []⟩ IgnoreRules.fileName) = .ok [0xff] ∧
      ((IgnoreRules.load ⟨.current, []⟩ []).runOn ⟨ignoring [0xff], []⟩).1 =
        .error (.notUtf8 ⟨.startByte, 0xff, 0, 1⟩) :=
  ⟨rfl, rfl⟩

end Scan

end LiteralLint
