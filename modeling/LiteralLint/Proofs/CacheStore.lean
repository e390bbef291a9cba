import LiteralLint.Proofs.CacheDocument
import LiteralLint.Proofs.Jobs
import LiteralLint.Proofs.Places

/-!
# Loading and saving caches

A cache file that holds the document of a cache is loaded as that cache for options with its
fingerprint, and ignored for others; an empty file, as a save that failed leaves it, is ignored too.
Saving puts one file in place and leaves all others alone. It fails just if the file system takes
the file and the document cannot be written.

## Main definitions

* `Cache.Accepts`: whether the file system takes the file of a cache.
* `Cache.known`: what the cache that is kept for some options is about.

## Main results

* `Cache.does_load`: what is loaded.
* `Cache.does_save_refused`, `Cache.does_save_accepted`: what a save does.
-/

namespace LiteralLint.Cache

open MessagePack (Value Key)
open FileSystem (Straight SameFiles)
open Job (Does)

variable {fs : FileSystem} {root : Path}

/-- The path of the cache of a directory. -/
theorem straight_pathOf (h : Straight root) : Straight (pathOf root) := by
  refine ⟨h.isAbsolute, ?_⟩
  show Path.up ∉ (root.components ++ [Text.ofString ".i18nlint"]) ++
    [Text.ofString "lint_cache.msgpack"]
  simp only [List.mem_append, not_or]
  exact ⟨⟨h.up_not_mem, by decide⟩, by decide⟩

/-! ## Loading -/

theorem does_unreadable (reason : Text) : Does (unreadable reason) fs (.ok none) fs :=
  Does.after_tell _ (Does.pure none)

/-- **What is loaded** from a file that is empty or holds the document of a cache of some kind. -/
theorem does_load {P : Cache → Prop} (hP : ∀ c, P c → c.WellMade) (hroot : Straight root)
    (fingerprint : Text)
    (hfile : ∀ f, fs.at? (pathOf root).components = some (.file f) →
      f.bytes = [] ∨ ∃ c, P c ∧ c.toValue.write = .ok f.bytes) :
    Does (load root fingerprint) fs (.ok none) fs ∨
      ∃ c, P c ∧ c.toValue.Writable ∧ c.fingerprint = fingerprint ∧
        Does (load root fingerprint) fs (.ok (some c)) fs := by
  unfold load
  by_cases hexists : (!fs.exists (pathOf root)) = true
  · refine Or.inl (Does.after_files ?_)
    rw [if_pos hexists]
    exact Does.pure none
  · cases hread : fs.read (pathOf root) with
    | error fault =>
        refine Or.inl (Does.after_files ?_)
        rw [if_neg hexists, hread]
        exact does_unreadable _
    | ok bytes =>
        obtain ⟨f, hf, rfl⟩ := FileSystem.file?_of_read hread
        have hat := FileSystem.at?_of_file? (straight_pathOf hroot) hf
        rcases hfile f hat with hempty | ⟨c, hc, hbytes⟩
        · refine Or.inl (Does.after_files ?_)
          rw [if_neg hexists, hread, hempty]
          exact does_unreadable _
        · have hversion := (hP c hc).version
          have hvalue := read_toValue (hP c hc) hbytes
          by_cases hfingerprint : fingerprint = c.fingerprint
          · refine Or.inr ⟨c, hc, ⟨_, hbytes⟩, hfingerprint.symm, Does.after_files ?_⟩
            rw [if_neg hexists, hread]
            simp only [hvalue, hfingerprint, ofValue_toValue hversion]
            exact Does.pure (some c)
          · refine Or.inl (Does.after_files ?_)
            rw [if_neg hexists, hread]
            simp only [hvalue, ofValue_toValue_of_ne hversion hfingerprint]
            exact Does.after_tell _ (Does.pure none)

/-- The keys of the cache that is kept for options with a fingerprint. -/
def known (fs : FileSystem) (root : Path) (fingerprint : Text) : List Key :=
  match (load root fingerprint).runOn ⟨fs, []⟩ with
  | (.ok (some c), _) => c.files.map Prod.fst
  | _ => []

theorem known_of_load {fingerprint : Text} {c : Cache}
    (h : Does (load root fingerprint) fs (.ok (some c)) fs) :
    known fs root fingerprint = c.files.map Prod.fst := by
  obtain ⟨events, hrun⟩ := h []
  rw [known, hrun]

theorem known_of_load_none {fingerprint : Text}
    (h : Does (load root fingerprint) fs (.ok none) fs) : known fs root fingerprint = [] := by
  obtain ⟨events, hrun⟩ := h []
  rw [known, hrun]

/-! ## Saving -/

/-- Whether a file system takes the file of the cache of a directory. -/
def Accepts (fs : FileSystem) (root : Path) : Prop :=
  ∃ fs₁ fs₂ f, fs.makeDirectories (directoryOf root) = .ok fs₁ ∧
    fs₁.write (pathOf root) f = .ok fs₂

theorem does_save_refused (h : ¬ Accepts fs root) (c : Cache) :
    ∃ fs', Does (save root c) fs (.ok ()) fs' ∧ SameFiles fs fs' := by
  unfold save
  cases hmake : fs.makeDirectories (directoryOf root) with
  | error fault =>
      refine ⟨fs, Does.after_files ?_, SameFiles.refl fs⟩
      rw [hmake]
      exact Does.tell _
  | ok made =>
      rcases FileSystem.write_eq made (pathOf root) with ⟨fault, hwrite⟩ | ⟨place, -, -, hwrite⟩
      · refine ⟨made, Does.after_files ?_, FileSystem.sameFiles_makeDirectories hmake⟩
        rw [hmake]
        refine Does.bind (Does.setFiles made) (Does.after_files ?_)
        simp only [hwrite]
        exact Does.tell _
      · exact absurd ⟨made, _, ⟨[], .zero false, true⟩, hmake, hwrite _⟩ h

/-- **A save that the file system takes** fails just if the document cannot be written, and the file
is empty then. -/
theorem does_save_accepted (hroot : Straight root) (h : Accepts fs root) :
    ∃ made, fs.makeDirectories (directoryOf root) = .ok made ∧
      (∀ f, made.write (pathOf root) f = .ok (made.put (pathOf root).components (.file f))) ∧
      ∀ c : Cache,
        Does (save root c) fs (match c.toValue.write with
          | .ok _ => .ok ()
          | .error u => .error (unwritable u))
          (made.put (pathOf root).components
            (.file ⟨c.toValue.write.toOption.getD [], .zero false, true⟩)) := by
  obtain ⟨made, fs₂, f, hmake, hwritten⟩ := h
  rcases FileSystem.write_eq made (pathOf root) with ⟨fault, hwrite⟩ | ⟨place, -, hplace, hwrite⟩
  · rw [hwrite] at hwritten
    cases hwritten
  · cases FileSystem.eq_of_locate (straight_pathOf hroot) hplace
    refine ⟨made, hmake, hwrite, fun c => ?_⟩
    unfold save
    refine Does.after_files ?_
    rw [hmake]
    refine Does.bind (Does.setFiles made) (Does.after_files ?_)
    simp only [hwrite]
    refine Does.bind (Does.setFiles _) ?_
    cases c.toValue.write with
    | ok b => exact Does.tell _
    | error u => exact Does.throw _

end LiteralLint.Cache
