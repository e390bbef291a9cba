import LiteralLint.Proofs.FilesBelow
import LiteralLint.Proofs.SecondRun

/-!
# Separate reports

A run over a directory reports on one file after the other, and a failure that could end it has to
come from one of them. No file that is chosen makes it fail: its name has an extension that is
known, also by the other rule by which a single file gets its language, and what reading or parsing
can come to is a reason to skip a file, which becomes its report. The report depends on nothing but
the bytes that are read and what the parser makes of them, so it stays as it is when another file is
replaced.

## Main definitions

* `Parsers.Ordinary`: parsers that fail in the ways that parsers may.
* `Scan.Answers`: what a report on a file says.
* `Scan.Listing`: the files that the patterns leave.

## Main results

* `Language.ofFileName?_of_suffix`: the two rules for an extension agree.
* `Scan.exists_answer`: every file that is chosen is reported on.
* `Scan.reportAnew_congr`: what a report depends on.
* `Scan.lintPaths_apart`: **one file has no bearing on the report of another.**
-/

namespace LiteralLint

open FileSystem (Straight)
open Job (Does)

/-! ## The language of a file -/

namespace Language

theorem ofExtension?_nil : ofExtension? [] = none := by decide

/-- The extension by which files are chosen and the one by which a language is chosen agree, where
there is a language for the first. -/
theorem ofFileName?_of_suffix {p : Path} {l : Language} (h : ofExtension? p.suffix = some l) :
    ofFileName? p.name = some l := by
  unfold Path.suffix at h
  unfold ofFileName?
  cases hname : p.name with
  | nil =>
      rw [hname] at h
      exact absurd (ofExtension?_nil.symm.trans h) nofun
  | cons c rest =>
      rw [hname, List.drop_one, List.tail_cons] at h
      rw [Path.fromLastStop?]
      cases hstop : Path.fromLastStop? rest with
      | none =>
          rw [hstop] at h
          exact absurd (ofExtension?_nil.symm.trans h) nofun
      | some t =>
          rw [hstop] at h
          dsimp only at h ⊢
          split at h
          · exact h
          · exact absurd (ofExtension?_nil.symm.trans h) nofun

theorem ofName?_name (l : Language) : ofName? l.name = some l := by cases l <;> decide

end Language

/-! ## Parsers that fail -/

namespace Parsers

/-- What the parser of a language makes of some bytes, if there is one. -/
def outcome (ps : Parsers) (l : Language) (bytes : Bytes) : Option Parsed :=
  (ps l).map fun parse => parse bytes

/-- Parsers that may fail because something is too large, refused or nested too deeply. -/
def Ordinary (ps : Parsers) : Prop :=
  ∀ l bytes f, ps.outcome l bytes = some (.failed f) →
    (∃ t, f = .tooLarge t) ∨ (∃ t, f = .refused t) ∨ f = .tooDeep

end Parsers

namespace Source

/-- What is found goes by what the parser makes of the bytes. -/
theorem lint_eq (ps : Parsers) (c : Configuration) (l : Language) (useTypes : Bool)
    (bytes : Bytes) :
    lint ps c l.name useTypes bytes =
      match ps.outcome l bytes with
      | none => .error (.unsupported (Text.cat ["tree-sitter binding not available: ", l.name]))
      | some (.failed f) => .error f
      | some (.tree t repaired) =>
        let aliases := if isTyped useTypes l then some (TypeAliases.ofTree bytes t) else none
        let converted := Conversion.convert ⟨bytes, aliases⟩ t
        .ok (judge c useTypes ⟨l, converted.tree,
          (if repaired then [.repaired l] else []) ++ converted.expansions.map .expanded⟩) := by
  unfold lint read Parsers.outcome
  rw [Language.ofName?_name]
  dsimp only
  cases ps l with
  | none => rfl
  | some parse =>
      dsimp only [Option.map_some]
      cases parse bytes <;> rfl

theorem lint_congr {ps ps' : Parsers} {l : Language} {bytes : Bytes}
    (h : ps'.outcome l bytes = ps.outcome l bytes) (c : Configuration) (useTypes : Bool) :
    lint ps' c l.name useTypes bytes = lint ps c l.name useTypes bytes := by
  rw [lint_eq, lint_eq, h]

theorem language_of_lint {ps : Parsers} {c : Configuration} {l : Language} {useTypes : Bool}
    {bytes : Bytes} {j : Judgement} (h : lint ps c l.name useTypes bytes = .ok j) :
    j.language = l := by
  rw [lint_eq] at h
  split at h
  · cases h
  · cases h
  · cases h
    rfl

/-- How linting can fail. -/
theorem failure_of_lint {ps : Parsers} (hps : ps.Ordinary) {c : Configuration} {l : Language}
    {useTypes : Bool} {bytes : Bytes} {f : Failure}
    (h : lint ps c l.name useTypes bytes = .error f) :
    f = .unsupported (Text.cat ["tree-sitter binding not available: ", l.name]) ∨
      (∃ t, f = .tooLarge t) ∨ (∃ t, f = .refused t) ∨ f = .tooDeep := by
  rw [lint_eq] at h
  split at h
  · cases h
    exact Or.inl rfl
  · rename_i f' hfailed
    cases h
    exact Or.inr (hps l bytes f hfailed)
  · cases h

end Source

/-! ## One file -/

namespace Scan

variable {m : Manner} {fs : FileSystem} {directory p : Path} {l : Language}

theorem languageName_of_suffix (h : Language.ofExtension? p.suffix = some l) :
    languageName p none = .ok l.name := by
  unfold languageName
  rw [Language.ofFileName?_of_suffix h]

/-- What a report on a file says: that the file cannot be read, that its bytes cannot be linted, or
what is found in them. -/
inductive Answers (m : Manner) (fs : FileSystem) (p : Path) (r : FileReport) : Prop
  | unread {fault : FileSystem.Fault} (hread : fs.read p = .error fault)
      (herror : r.error = some fault.message) (hfindings : r.findings = [])
  | unlinted {l : Language} {bytes : Bytes} {failure : Failure} {s : Skip}
      (hlanguage : Language.ofExtension? p.suffix = some l) (hread : fs.read p = .ok bytes)
      (hlint : Source.lint m.setting.parsers m.config l.name m.useTypes bytes = .error failure)
      (hskip : Skip.ofFailure? failure = some s)
      (herror : r.error = some s.message) (hfindings : r.findings = [])
  | linted {l : Language} {bytes : Bytes} {j : Source.Judgement}
      (hlanguage : Language.ofExtension? p.suffix = some l) (hread : fs.read p = .ok bytes)
      (hlint : Source.lint m.setting.parsers m.config l.name m.useTypes bytes = .ok j)
      (herror : r.error = none) (hnamed : r.language = some l.name)
      (hfindings : r.findings = j.findings)

theorem exists_skip {failure : Failure} {ps : Parsers} (hps : ps.Ordinary) {c : Configuration}
    {useTypes : Bool} {bytes : Bytes}
    (h : Source.lint ps c l.name useTypes bytes = .error failure) :
    ∃ s, Skip.ofFailure? failure = some s := by
  rcases Source.failure_of_lint hps h with rfl | ⟨t, rfl⟩ | ⟨t, rfl⟩ | rfl
  · exact ⟨_, rfl⟩
  · exact ⟨_, rfl⟩
  · exact ⟨_, rfl⟩
  · exact ⟨_, rfl⟩

/-- **Every file that is chosen is reported on.** -/
theorem exists_answer (hps : m.setting.parsers.Ordinary) (hlintable : isLintable p = true) :
    ∃ r, reportAnew m fs directory p = .ok r ∧ r.file = nameIn directory p ∧ Answers m fs p r := by
  obtain ⟨l, hl⟩ := Option.isSome_iff_exists.1 hlintable
  unfold reportAnew reportOn judge
  rw [languageName_of_suffix hl]
  dsimp only
  cases hread : fs.read p with
  | error fault => exact ⟨_, rfl, rfl, .unread hread rfl rfl⟩
  | ok bytes =>
      dsimp only
      cases hlint : Source.lint m.setting.parsers m.config l.name m.useTypes bytes with
      | error failure =>
          obtain ⟨s, hs⟩ := exists_skip hps hlint
          dsimp only
          rw [hs]
          exact ⟨_, rfl, rfl, .unlinted hl hread hlint hs rfl rfl⟩
      | ok j =>
          obtain rfl := Source.language_of_lint hlint
          exact ⟨_, rfl, rfl, .linted hl hread hlint rfl rfl rfl⟩

/-- Of the reasons to skip a file, only a language that is not supported can be put like an unknown
extension. -/
theorem Skip.eq_unsupported {s : Skip} {t : Text}
    (h : s.message = Text.cat ["Unknown extension: ", t]) :
    s = .unsupported (Text.cat ["Unknown extension: ", t]) := by
  have hhead : s.message.head? = some 85 := congrArg List.head? h
  cases s with
  | unsupported t' => exact congrArg _ h
  | system fault => rcases fault with ⟨_ | _, _⟩ <;> cases hhead
  | tooDeep => cases hhead
  | unconvertible t' => cases hhead

/-- No report on a file says that its extension is unknown. -/
theorem Answers.error_ne {r : FileReport} (h : Answers m fs p r)
    (hps : m.setting.parsers.Ordinary) (t : Text) :
    r.error ≠ some (Text.cat ["Unknown extension: ", t]) := by
  intro heq
  cases h with
  | unread hread herror hfindings =>
      rename_i fault
      cases Skip.eq_unsupported (s := .system fault) (Option.some.inj (herror.symm.trans heq))
  | unlinted hlanguage hread hlint hskip herror hfindings =>
      rename_i l bytes failure s
      rw [Skip.eq_unsupported (Option.some.inj (herror.symm.trans heq))] at hskip
      rcases Source.failure_of_lint hps hlint with rfl | ⟨t', rfl⟩ | ⟨t', rfl⟩ | rfl
      · have hhead : some (116 : CodePoint) = some 85 :=
          congrArg List.head? (Skip.unsupported.inj (Option.some.inj hskip))
        exact absurd hhead (by decide)
      · cases hskip
      · cases hskip
      · cases hskip
  | linted hlanguage hread hlint herror hnamed hfindings =>
      rw [herror] at heq
      cases heq

/-- **A report depends on what can be read and on what the parser makes of it**, and on nothing
else. -/
theorem reportAnew_congr {setting setting' : Setting} {c : Configuration} {useTypes : Bool}
    {fs' : FileSystem} (hl : Language.ofExtension? p.suffix = some l)
    (hread : fs'.read p = fs.read p)
    (hparsers : ∀ bytes, fs.read p = .ok bytes →
      setting'.parsers.outcome l bytes = setting.parsers.outcome l bytes) :
    reportAnew ⟨setting', c, useTypes⟩ fs' directory p =
      reportAnew ⟨setting, c, useTypes⟩ fs directory p := by
  unfold reportAnew reportOn judge
  rw [languageName_of_suffix hl, hread]
  dsimp only
  cases hbytes : fs.read p with
  | error fault => rfl
  | ok bytes =>
      dsimp only
      rw [Source.lint_congr (hparsers bytes hbytes)]

end Scan

/-! ## All files of a directory -/

namespace IgnoreRules

/-- Whether the ignore file of a directory, if it can be read, is a text. -/
def IsText (fs : FileSystem) (root : Path) : Prop :=
  ∀ bytes, fs.read (root.child fileName) = .ok bytes → ∃ t, Utf8.decode? bytes = .ok t

theorem exists_allPatterns {fs : FileSystem} {root : Path} (h : IsText fs root)
    (extra : List Text) : ∃ patterns, allPatterns fs root extra = .ok patterns := by
  unfold allPatterns ownPatterns
  cases hread : fs.read (root.child fileName) with
  | error fault => exact ⟨_, rfl⟩
  | ok bytes =>
      obtain ⟨t, ht⟩ := h bytes hread
      dsimp only
      rw [ht]
      exact ⟨_, rfl⟩

theorem allPatterns_congr {fs fs' : FileSystem} {root : Path}
    (h : fs'.read (root.child fileName) = fs.read (root.child fileName)) (extra : List Text) :
    allPatterns fs' root extra = allPatterns fs root extra := by
  unfold allPatterns ownPatterns
  rw [h]

end IgnoreRules

namespace Scan

/-- The files of a directory that some patterns leave: each once, in ascending order. -/
structure Listing (fs : FileSystem) (directory : Path) (patterns : List Text)
    (paths : List Path) : Prop where
  mem_iff : ∀ p, p ∈ paths ↔
    p.start = directory.start ∧ directory.components <+: p.components ∧
      (∃ f, fs.at? p.components = some (.file f)) ∧ isLintable p = true ∧
        IgnoreRules.rejects patterns directory p = false
  ascending : paths.Pairwise fun p q => p.precedes q = true

section

variable {fs fs' : FileSystem} {directory : Path} {patterns : List Text} {paths paths' : List Path}

/-- There is one such list. -/
theorem Listing.unique (h : Listing fs directory patterns paths)
    (h' : Listing fs' directory patterns paths')
    (hfiles : ∀ place, (∃ f, fs'.at? place = some (.file f)) ↔
      ∃ f, fs.at? place = some (.file f)) : paths' = paths := by
  have hirrefl : ∀ p q : Path, p.precedes q = true → p ≠ q := by
    rintro p q hpq rfl
    exact Path.precedes_asymm hpq hpq
  have hmem : ∀ p, p ∈ paths' ↔ p ∈ paths := by
    intro p
    rw [h.mem_iff, h'.mem_iff, hfiles]
  have hperm : List.Perm paths' paths :=
    (List.perm_ext_iff_of_nodup (h'.ascending.imp @hirrefl) (h.ascending.imp @hirrefl)).2 hmem
  refine hperm.eq_of_pairwise ?_ h'.ascending h.ascending
  exact fun p q _ _ hpq hqp => absurd hqp (Path.precedes_asymm hpq)

theorem Listing.straight (h : Listing fs directory patterns paths) (hfs : fs.WellFormed)
    (hroot : Straight directory) {p : Path} (hp : p ∈ paths) : Straight p := by
  obtain ⟨hstart, -, ⟨f, hat⟩, -, -⟩ := (h.mem_iff p).1 hp
  refine FileSystem.straight_of_names ?_
    (hfs.named.files p.components f (FileSystem.mem_entries_of_at? hat))
  rw [Path.isAbsolute, hstart]
  exact hroot.isAbsolute

/-- A run chooses the files that the patterns leave. -/
theorem exists_found (hfs : fs.WellFormed) (hroot : Straight directory)
    (hdirectory : fs.isDirectory directory = true) {ignore : List Text}
    (hpatterns : IgnoreRules.allPatterns fs directory ignore = .ok patterns) :
    ∃ paths, found fs directory ignore = .ok paths ∧ Listing fs directory patterns paths := by
  unfold found
  rw [hpatterns]
  refine ⟨_, rfl, ?_, (hfs.pairwise_filesBelow hroot hdirectory).filter _⟩
  intro p
  rw [List.mem_filter, hfs.mem_filesBelow hroot hdirectory, Bool.and_eq_true, Bool.not_eq_true']
  simp only [and_assoc]

theorem mapM_eq_map {α β : Type} {f : α → Except Failure β} {g : α → β} {items : List α}
    (h : ∀ a ∈ items, f a = .ok (g a)) : items.mapM f = .ok (items.map g) := by
  induction items with
  | nil => rfl
  | cons a items ih =>
      rw [List.mapM_cons, h a (by simp), ih fun b hb => h b (by simp [hb])]
      rfl

end

section

variable {setting : Setting} {o : Options} {config : Configuration} {ignore : List Text}
  {fs : FileSystem} {raw : Text}

/-- A run without a cache whose files can all be reported on. -/
theorem does_lintPaths_anew (hconfig : Configuration.ofOptions setting.characters o = .ok config)
    (hdirectory : fs.isDirectory (fs.resolve (Path.ofText raw)) = true) {useTypes : Bool}
    {paths : List Path} (hfound : found fs (fs.resolve (Path.ofText raw)) ignore = .ok paths)
    {report : Path → FileReport}
    (hreport : ∀ p ∈ paths,
      reportAnew ⟨setting, config, useTypes⟩ fs (fs.resolve (Path.ofText raw)) p =
        .ok (report p)) :
    Does (lintPaths setting o useTypes false ignore [raw]) fs
      (.ok ⟨paths.map report, [(fs.resolve (Path.ofText raw)).toText]⟩) fs := by
  have hfiles : Does (lintFound ⟨⟨setting, config, useTypes⟩, o, false, ignore⟩
      (fs.resolve (Path.ofText raw)) paths) fs _ fs := does_lintFound_anew rfl fs _ paths
  rw [mapM_eq_map hreport] at hfiles
  have hrun : Does (lintDirectory ⟨⟨setting, config, useTypes⟩, o, false, ignore⟩
      (fs.resolve (Path.ofText raw))) fs (.ok (paths.map report)) fs := by
    -- the plan is taken from the files; the rules to ignore alone do not determine it
    refine does_lintDirectory_of_found ?_ hfiles
    exact hfound
  have hflat : [paths.map report].flatten = paths.map report := List.append_nil _
  rw [← hflat]
  exact does_lintPaths setting hconfig (does_lintPath hdirectory hrun)

/-- **A run comes to its end with a report for every file**, whatever the files are. -/
theorem exists_reports (hfs : fs.WellFormed) (hparsers : setting.parsers.Ordinary)
    (hconfig : Configuration.ofOptions setting.characters o = .ok config)
    (hdirectory : fs.isDirectory (fs.resolve (Path.ofText raw)) = true) {patterns : List Text}
    (hpatterns : IgnoreRules.allPatterns fs (fs.resolve (Path.ofText raw)) ignore = .ok patterns)
    (useTypes : Bool) :
    ∃ (paths : List Path) (report : Path → FileReport),
      Listing fs (fs.resolve (Path.ofText raw)) patterns paths ∧
      Does (lintPaths setting o useTypes false ignore [raw]) fs
        (.ok ⟨paths.map report, [(fs.resolve (Path.ofText raw)).toText]⟩) fs ∧
      ∀ p ∈ paths, reportAnew ⟨setting, config, useTypes⟩ fs (fs.resolve (Path.ofText raw)) p =
        .ok (report p) := by
  have hroot := FileSystem.straight_resolve hfs.named raw
  obtain ⟨paths, hfound, hlisting⟩ := exists_found hfs hroot hdirectory hpatterns
  have hreports : ∀ p, ∃ r : FileReport, p ∈ paths →
      reportAnew ⟨setting, config, useTypes⟩ fs (fs.resolve (Path.ofText raw)) p = .ok r := by
    intro p
    by_cases hp : p ∈ paths
    · obtain ⟨r, hr, -⟩ := exists_answer (m := ⟨setting, config, useTypes⟩) hparsers
        ((hlisting.mem_iff p).1 hp).2.2.2.1
      exact ⟨r, fun _ => hr⟩
    · exact ⟨{ file := [] }, fun h => absurd h hp⟩
  choose report hreport using hreports
  exact ⟨paths, report, hlisting, does_lintPaths_anew hconfig hdirectory hfound hreport, hreport⟩

/-- What is read of the ignore file is the same when another file is replaced. -/
theorem allPatterns_put_file {directory : Path} (hroot : Straight directory) {place : Place}
    {f : File} (hat : fs.at? place = some (.file f)) (g : File)
    (hplace : place ≠ (directory.child IgnoreRules.fileName).components) :
    IgnoreRules.allPatterns (fs.put place (.file g)) directory ignore =
      IgnoreRules.allPatterns fs directory ignore :=
  IgnoreRules.allPatterns_congr (FileSystem.read_put_file hat g
    (FileSystem.straight_child hroot (by decide)) hplace.symm) ignore

/-- **One file has no bearing on the report of another.** A run over a directory, without a cache,
comes to its end with one report for each file that the patterns leave, in ascending order. A report
says that its file cannot be read or linted, or what is found in it. And another file in place of
one, with other bytes, or bytes that cannot be read, or bytes of which a parser makes something
else, changes no report but its own. (The ignore file has no report; it says which files have.) -/
theorem lintPaths_apart (hfs : fs.WellFormed) (hparsers : setting.parsers.Ordinary)
    (hconfig : Configuration.ofOptions setting.characters o = .ok config) {directory : Path}
    (hraw : fs.resolve (Path.ofText raw) = directory) (hdirectory : fs.isDirectory directory = true)
    (hignore : IgnoreRules.IsText fs directory) (useTypes : Bool) (ignore : List Text) :
    ∃ (patterns : List Text) (paths : List Path) (report : Path → FileReport),
      Does (IgnoreRules.load directory ignore) fs (.ok patterns) fs ∧
      Listing fs directory patterns paths ∧
      Does (lintPaths setting o useTypes false ignore [raw]) fs
        (.ok ⟨paths.map report, [directory.toText]⟩) fs ∧
      (∀ p ∈ paths, (report p).file = nameIn directory p ∧
        Answers ⟨setting, config, useTypes⟩ fs p (report p) ∧
        ∀ t, (report p).error ≠ some (Text.cat ["Unknown extension: ", t])) ∧
      ∀ (place : Place) (f g : File) (setting' : Setting), fs.at? place = some (.file f) →
        place ≠ (directory.child IgnoreRules.fileName).components →
        setting'.characters = setting.characters → setting'.parsers.Ordinary →
        (∀ p ∈ paths, p.components ≠ place → ∀ l bytes,
          Language.ofExtension? p.suffix = some l → fs.read p = .ok bytes →
          setting'.parsers.outcome l bytes = setting.parsers.outcome l bytes) →
        ∃ report' : Path → FileReport,
          Does (lintPaths setting' o useTypes false ignore [raw]) (fs.put place (.file g))
            (.ok ⟨paths.map report', [directory.toText]⟩) (fs.put place (.file g)) ∧
          ∀ p ∈ paths, p.components ≠ place → report' p = report p := by
  subst hraw
  have hroot := FileSystem.straight_resolve hfs.named raw
  obtain ⟨patterns, hpatterns⟩ := IgnoreRules.exists_allPatterns hignore ignore
  obtain ⟨paths, report, hlisting, hrun, hreport⟩ :=
    exists_reports hfs hparsers hconfig hdirectory hpatterns useTypes
  have hlintable : ∀ p ∈ paths, isLintable p = true :=
    fun p hp => ((hlisting.mem_iff p).1 hp).2.2.2.1
  refine ⟨patterns, paths, report, ?_, hlisting, hrun, ?_, ?_⟩
  · rw [← hpatterns]
    exact IgnoreRules.does_load fs _ ignore
  · intro p hp
    obtain ⟨r, hr, hfile, hanswers⟩ := exists_answer (m := ⟨setting, config, useTypes⟩) hparsers
      (hlintable p hp)
    obtain rfl := Except.ok.inj (hr.symm.trans (hreport p hp))
    exact ⟨hfile, hanswers, hanswers.error_ne hparsers⟩
  · intro place f g setting' hat hplace hcharacters hparsers' houtcomes
    have hconfig' : Configuration.ofOptions setting'.characters o = .ok config :=
      hcharacters ▸ hconfig
    have hresolve : (fs.put place (.file g)).resolve (Path.ofText raw) =
        fs.resolve (Path.ofText raw) := rfl
    have hdirectory' := FileSystem.isDirectory_put_file hat g hroot hdirectory
    have hpatterns' := (allPatterns_put_file hroot hat g hplace).trans hpatterns
    obtain ⟨paths', report', hlisting', hrun', hreport'⟩ :=
      exists_reports (hfs.put_file hat g) hparsers' hconfig' hdirectory' hpatterns' useTypes
    rw [hresolve] at hlisting' hrun' hreport'
    obtain rfl := hlisting.unique hlisting' fun q => FileSystem.at?_put_file_iff hat g
    refine ⟨report', hrun', fun p hp hne => ?_⟩
    obtain ⟨l, hl⟩ := Option.isSome_iff_exists.1 (hlintable p hp)
    have hread := FileSystem.read_put_file hat g (hlisting.straight hfs hroot hp) hne
    have hsame : reportAnew ⟨setting', config, useTypes⟩ (fs.put place (.file g))
          (fs.resolve (Path.ofText raw)) p =
        reportAnew ⟨setting, config, useTypes⟩ fs (fs.resolve (Path.ofText raw)) p :=
      reportAnew_congr hl hread fun bytes hbytes => houtcomes p hp hne l bytes hl hbytes
    exact Except.ok.inj ((hreport' p hp).symm.trans (hsame.trans (hreport p hp)))

end

/-- A directory with two files, of which the second cannot be read. -/
def twoFiles : FileSystem where
  current := ["w"]
  entries := [(["w"], .directory), (["w", "a.js"], .file ⟨[], .zero false, true⟩),
    (["w", "b.ts"], .file ⟨[], .zero false, false⟩)]

/-- Parsers for empty sources. -/
def plainSetting : Setting := ⟨(History.ofOneFile "a.js").parsers, [], Pattern.unnamed⟩

/-- The file that can be read is reported on in the same way, whether or not the other can be. -/
theorem lintPaths_apart_twoFiles :
    twoFiles.WellFormed ∧ plainSetting.parsers.Ordinary ∧
      twoFiles.isDirectory ⟨.root, ["w"]⟩ = true ∧ IgnoreRules.IsText twoFiles ⟨.root, ["w"]⟩ ∧
      ∃ report report' : Report, ∃ r ∈ report.files, ∃ s ∈ report.files,
        Does (lintPaths plainSetting {} false false [] ["."]) twoFiles (.ok report) twoFiles ∧
        Does (lintPaths plainSetting {} false false [] ["."])
          (twoFiles.put ["w", "b.ts"] (.file ⟨[], .zero false, true⟩)) (.ok report')
          (twoFiles.put ["w", "b.ts"] (.file ⟨[], .zero false, true⟩)) ∧
        r ∈ report'.files ∧ r.error = none ∧ s.error.isSome = true := by
  have hfs : twoFiles.WellFormed := by
    have hnames : Text.ofString "a.js" ≠ Text.ofString "b.ts" := by decide
    refine ⟨⟨?_, by decide⟩, by simp [twoFiles, hnames]⟩
    intro place f hmem
    rcases List.mem_cons.1 hmem with heq | hmem
    · cases heq
    · rcases List.mem_cons.1 hmem with heq | hmem
      · cases heq
        decide
      · cases List.mem_singleton.1 hmem
        decide
  have hparsers : plainSetting.parsers.Ordinary := by
    intro l bytes f h
    cases h
  have hdirectory : twoFiles.isDirectory ⟨.root, ["w"]⟩ = true := by decide
  have hignore : IgnoreRules.IsText twoFiles ⟨.root, ["w"]⟩ := by
    intro bytes h
    cases h
  have hraw : twoFiles.resolve (Path.ofText ".") = ⟨.root, ["w"]⟩ := by decide
  obtain ⟨config, hconfig⟩ := History.exists_plainConfiguration
  obtain ⟨patterns, paths, report, hload, hlisting, hrun, hreport, hchange⟩ :=
    lintPaths_apart hfs hparsers hconfig hraw hdirectory hignore false []
  have hpatterns : patterns = IgnoreRules.builtIn := by
    have hloaded : ((IgnoreRules.load ⟨.root, ["w"]⟩ []).runOn ⟨twoFiles, []⟩).1.toOption =
        some IgnoreRules.builtIn := by decide +kernel
    rw [hload.outcome_eq] at hloaded
    exact Option.some.inj hloaded
  have ha : ⟨.root, ["w", "a.js"]⟩ ∈ paths := by
    refine (hlisting.mem_iff _).2 ⟨rfl, ⟨_, rfl⟩, ⟨_, rfl⟩, by decide, ?_⟩
    rw [hpatterns]
    cbv
  have hb : ⟨.root, ["w", "b.ts"]⟩ ∈ paths := by
    refine (hlisting.mem_iff _).2 ⟨rfl, ⟨_, rfl⟩, ⟨_, rfl⟩, by decide, ?_⟩
    rw [hpatterns]
    cbv
  obtain ⟨report', hrun', hsame⟩ := hchange ["w", "b.ts"] _ ⟨[], .zero false, true⟩ plainSetting rfl
    (by decide) rfl hparsers fun _ _ _ _ _ _ _ => rfl
  refine ⟨hfs, hparsers, hdirectory, hignore, _, _, _, List.mem_map_of_mem ha, _,
    List.mem_map_of_mem hb, hrun, hrun', ?_, ?_, ?_⟩
  · rw [← hsame _ ha (by decide)]
    exact List.mem_map_of_mem ha
  · obtain ⟨j, hlint, -, -⟩ := History.lint_oneFile "a.js" config []
    cases (hreport _ ha).2.1 with
    | unread hread herror hfindings => cases hread
    | unlinted hlanguage hread hlint' hskip herror hfindings =>
        cases hread
        cases hlanguage
        cases hlint.symm.trans hlint'
    | linted hlanguage hread hlint' herror hnamed hfindings => exact herror
  · cases (hreport _ hb).2.1 with
    | unread hread herror hfindings =>
        rw [herror]
        rfl
    | unlinted hlanguage hread hlint hskip herror hfindings => cases hread
    | linted hlanguage hread hlint herror hnamed hfindings => cases hread

end Scan

end LiteralLint
