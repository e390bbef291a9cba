import LiteralLint.CommandLine
import LiteralLint.Proofs.Jobs
import LiteralLint.Proofs.JsonReading
import LiteralLint.Proofs.Utf8

/-!
# Reading options files

An options file can hold any bytes. They are read strictly, as UTF-8, as JSON and as a record of
options, and each of these can fail. A file that is not there, a text that is not JSON and a record
of the wrong shape are faults of the configuration, which the command tells of and ends with a
status of their own.

Two failures are not foreseen, and the command fails with them: bytes that are not UTF-8, and
numerals with more digits than are converted. Which of these it is, if any, is said here by the
bytes alone.

## Main definitions

* `Foreseen`: an outcome that is no failure, or a fault of the configuration.
* `CommandLine.TakesOptions`: the options file of a request.
* `CommandLine.unusable`: what the command makes of a failure to have options.

## Main results

* `OptionsFile.read_outcome`: **what an options file comes to, whatever it holds**.
* `CommandLine.does_check_unusable`: what the command does then.
-/

namespace LiteralLint

/-- An outcome that is no failure, or a fault of the configuration. -/
def Foreseen {α : Type} (out : Except Failure α) : Prop :=
  ∀ f, out = .error f → ∃ c, f = .configuration c

theorem Foreseen.ok {α : Type} (a : α) : Foreseen (.ok a) := fun _ h => nomatch h

theorem Foreseen.configuration {α : Type} (c : ConfigurationFault) :
    Foreseen (.error (.configuration c) : Except Failure α) := by
  rintro _ ⟨⟩
  exact ⟨c, rfl⟩

namespace OptionsFile

/-! ## Ends of lines -/

/-- Digits in front of a text with plain ends of lines are in front of the text itself. -/
theorem prefix_of_prefix_withPlainLineEnds {digits : Text}
    (hdigits : digits.all Text.isAsciiDigit = true) :
    ∀ t : Text, digits <+: withPlainLineEnds t → digits <+: t := by
  induction digits with
  | nil => exact fun t _ => List.nil_prefix
  | cons d digits ih =>
      obtain ⟨hd, hrest⟩ : Text.isAsciiDigit d = true ∧ digits.all Text.isAsciiDigit = true := by
        simpa only [List.all_cons, Bool.and_eq_true] using hdigits
      have hne : d ≠ 10 := by
        rintro rfl
        exact absurd hd (by decide)
      intro t h
      fun_cases withPlainLineEnds t with
      | case1 => exact h
      | case2 rest =>
          rw [withPlainLineEnds, List.cons_prefix_cons] at h
          exact absurd h.1 hne
      | case3 rest hcr =>
          rw [withPlainLineEnds, List.cons_prefix_cons] at h
          · exact absurd h.1 hne
          · exact hcr
      | case4 c rest hcr hcr' =>
          rw [withPlainLineEnds, List.cons_prefix_cons] at h
          · exact List.cons_prefix_cons.2 ⟨h.1, ih hrest rest h.2⟩
          all_goals assumption

/-- Digits that stand in a text with plain ends of lines stand in the text itself. -/
theorem hasDigits_of_withPlainLineEnds {n : Nat} {t : Text}
    (h : Text.HasDigits n (withPlainLineEnds t)) : Text.HasDigits n t := by
  obtain ⟨digits, hlength, hall, hinfix⟩ := h
  refine ⟨digits, hlength, hall, ?_⟩
  clear hlength
  fun_induction withPlainLineEnds t with
  | case1 => exact hinfix
  | case2 rest ih =>
      rcases List.infix_cons_iff.1 hinfix with hfront | hrest
      · refine (prefix_of_prefix_withPlainLineEnds hall _ ?_).isInfix
        rw [withPlainLineEnds]
        exact hfront
      · exact (ih hrest).trans ⟨[13, 10], [], by simp⟩
  | case3 rest hcr ih =>
      rcases List.infix_cons_iff.1 hinfix with hfront | hrest
      · refine (prefix_of_prefix_withPlainLineEnds hall _ ?_).isInfix
        rw [withPlainLineEnds]
        · exact hfront
        · exact hcr
      · exact (ih hrest).trans (List.suffix_cons _ _).isInfix
  | case4 c rest hcr hcr' ih =>
      rcases List.infix_cons_iff.1 hinfix with hfront | hrest
      · refine (prefix_of_prefix_withPlainLineEnds hall _ ?_).isInfix
        rw [withPlainLineEnds]
        · exact hfront
        all_goals assumption
      · exact (ih hrest).trans (List.suffix_cons _ _).isInfix

/-! ## Outcomes -/

variable {fs : FileSystem} {path : Path}

/-- Bytes that are not UTF-8 are not foreseen. -/
theorem read_of_not_utf8 {b : Bytes} (hread : fs.read path = .ok b)
    (hb : ¬ ∃ t : Text, t.all Text.isScalar = true ∧ b = Utf8.encode t) :
    ∃ fault, read fs path = .error (.notUtf8 fault) := by
  cases hdecode : Utf8.decode? b with
  | error fault => exact ⟨fault, by rw [read, hread]; simp only [hdecode]⟩
  | ok t => exact absurd ⟨t, Utf8.decode?_eq_ok.1 hdecode⟩ hb

/-- The bytes of a text come to what the text comes to, with plain ends of lines. -/
theorem read_of_utf8 {t : Text} (ht : t.all Text.isScalar = true)
    (hread : fs.read path = .ok (Utf8.encode t)) :
    read fs path = ofContents path.toText (withPlainLineEnds t) := by
  rw [read, hread]
  simp only [Utf8.decode?_encode ht]

/-- A text comes to something foreseen unless the reader of JSON stops at too many digits. -/
theorem foreseen_ofContents (name : Text) {contents : Text}
    (h : ∀ n, Json.read contents ≠ .error (.tooManyDigits n)) :
    Foreseen (ofContents name contents) := by
  unfold ofContents
  split
  · rename_i f hf
    cases f with
    | malformed c left => exact .configuration _
    | tooManyDigits n => exact absurd hf (h n)
  · rename_i v hv
    cases Options.ofJson v with
    | error faults => exact .configuration _
    | ok o => exact .ok o

/-- The bytes of a text come to something foreseen, or more digits than are converted stand in the
text next to each other, and the refusal says how many. -/
theorem foreseen_or_hasDigits {t : Text} (ht : t.all Text.isScalar = true)
    (hread : fs.read path = .ok (Utf8.encode t)) :
    Foreseen (read fs path) ∨
      ∃ n, Json.read (withPlainLineEnds t) = .error (.tooManyDigits n) ∧
        Text.decimalDigitLimit < n ∧ Text.HasDigits n t ∧
        read fs path =
          .error (.refused ((Json.ReadFault.tooManyDigits n).message (withPlainLineEnds t))) := by
  rw [read_of_utf8 ht hread]
  by_cases hdigits : ∃ n, Json.read (withPlainLineEnds t) = .error (.tooManyDigits n)
  · obtain ⟨n, hn⟩ := hdigits
    obtain ⟨hlimit, hhas⟩ := Json.hasDigits_of_read hn
    refine Or.inr ⟨n, hn, hlimit, hasDigits_of_withPlainLineEnds hhas, ?_⟩
    rw [ofContents, hn]
    rfl
  · exact Or.inl (foreseen_ofContents _ fun n hn => hdigits ⟨n, hn⟩)

end OptionsFile

namespace CommandLine

open Job (Does)

/-- The options file of a request: the one it names, or else the first that is found. -/
def TakesOptions (fs : FileSystem) (r : CheckRequest) (path : Path) : Prop :=
  r.config.map Path.ofText = some path ∨ r.config = none ∧ findOptions? fs r.paths = some path

theorem fileOptions_eq_read {fs : FileSystem} {r : CheckRequest} {path : Path}
    (h : TakesOptions fs r path) : fileOptions fs r = OptionsFile.read fs path := by
  unfold fileOptions
  rcases h with hnamed | ⟨hnone, hfound⟩
  · obtain ⟨name, hname, rfl⟩ := Option.map_eq_some_iff.1 hnamed
    rw [hname]
  · rw [hnone]
    simp only [hfound]

/-- What the command makes of a failure to have options: it tells of a fault of the configuration
and ends with a status of its own, and any other failure is its own as well. -/
def unusable : Failure → Except Failure Output
  | .configuration c => .ok (refusal c)
  | f => .error f

/-- **What the command does without options.** -/
theorem does_check_unusable (setting : Setting) {fs : FileSystem} {r : CheckRequest} {f : Failure}
    (h : fileOptions fs r = .error f) : Does (check setting r) fs (unusable f) fs := by
  have hchoose : chooseOptions fs r = .error f := by
    rw [chooseOptions, h]
  have hfails : Does (liftExcept (chooseOptions fs r)) fs (.error f) fs :=
    hchoose ▸ Does.lift (chooseOptions fs r)
  unfold check
  refine Does.tryCatch_error (Does.after_files (Does.bind_error _ hfails)) ?_
  cases f with
  | configuration c => exact Does.pure _
  | _ => exact Does.throw _

end CommandLine

namespace OptionsFile

open CommandLine (TakesOptions unusable)
open Job (Does)

/-- **What an options file comes to, whatever it holds.** Bytes that are not UTF-8 are refused as
such. The bytes of a text come to options or to a fault of the configuration, unless the reader of
JSON stops at a numeral, and then more digits than are converted stand in the text next to each
other. The command that takes its options from the file ends with a status of its own at a fault of
the configuration, and fails with any other failure. -/
theorem read_outcome (fs : FileSystem) (path : Path) {b : Bytes} (hread : fs.read path = .ok b) :
    ((¬ ∃ t : Text, t.all Text.isScalar = true ∧ b = Utf8.encode t) →
      ∃ fault, read fs path = .error (.notUtf8 fault)) ∧
    (∀ t : Text, t.all Text.isScalar = true → b = Utf8.encode t →
      Foreseen (read fs path) ∨
        ∃ n, Json.read (withPlainLineEnds t) = .error (.tooManyDigits n) ∧
          Text.decimalDigitLimit < n ∧ Text.HasDigits n t ∧
          read fs path =
            .error (.refused ((Json.ReadFault.tooManyDigits n).message (withPlainLineEnds t)))) ∧
    ∀ (setting : Setting) (r : CommandLine.CheckRequest), TakesOptions fs r path →
      ∀ f, read fs path = .error f → Does (CommandLine.check setting r) fs (unusable f) fs := by
  refine ⟨read_of_not_utf8 hread, fun t ht hb => ?_, fun setting r hr f hf => ?_⟩
  · exact foreseen_or_hasDigits ht (hb ▸ hread)
  · exact CommandLine.does_check_unusable setting
      ((CommandLine.fileOptions_eq_read hr).trans hf)

/-- A file system with one file. -/
def oneFile (b : Bytes) : FileSystem := { entries := [(["rc.json"], .file ⟨b, .zero false, true⟩)] }

/-- An empty record has no digits, so it comes to something foreseen. -/
theorem read_outcome_braces :
    (oneFile [123, 125]).read ⟨.root, ["rc.json"]⟩ = .ok [123, 125] ∧
      Foreseen (read (oneFile [123, 125]) ⟨.root, ["rc.json"]⟩) := by
  have hread : (oneFile [123, 125]).read ⟨.root, ["rc.json"]⟩ = .ok [123, 125] := by rfl
  refine ⟨hread, ?_⟩
  rcases (read_outcome _ _ hread).2.1 "{}" (by decide) (by decide) with h | ⟨n, -, hlimit, hhas, -⟩
  · exact h
  · obtain ⟨digits, rfl, -, hinfix⟩ := hhas
    have hlength : digits.length ≤ 2 := hinfix.length_le
    exact absurd (Nat.lt_of_lt_of_le hlimit hlength) (by decide)

/-- An octet that starts nothing is not foreseen. -/
theorem read_stray_octet :
    (oneFile [0xff]).read ⟨.root, ["rc.json"]⟩ = .ok [0xff] ∧
      ¬ Foreseen (read (oneFile [0xff]) ⟨.root, ["rc.json"]⟩) := by
  refine ⟨rfl, fun h => ?_⟩
  obtain ⟨c, hc⟩ := h (.notUtf8 ⟨.startByte, 0xff, 0, 1⟩) rfl
  cases hc

end OptionsFile

end LiteralLint
