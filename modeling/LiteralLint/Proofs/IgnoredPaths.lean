import Mathlib.Data.List.Basic
import LiteralLint.IgnoreRules
import LiteralLint.Proofs.Places

/-!
# What is below an ignored path

A pattern is about the components of a path or about the path as a whole. What it says about a
component it says about every path through that component, and a written path names all that is
below it as well. A glob for whole paths is another matter: it has to match a path to its end, and
what it matches may stop at a directory. Only a star as its last piece makes it go on, because a
star takes in slashes.

So a path below an ignored one is ignored, unless the ignored one is matched by nothing but globs
for whole paths that end in something other than a star.

## Main definitions

* `Path.below`: the path that names lead to from another one.
* `IgnoreRules.Encloses`: a pattern that leaves out a path with all that is below it.
* `IgnoreRules.StopsAt`: a pattern that leaves out a path, but not another one below it.

## Main results

* `Glob.matches_append_of_star`: a pattern that ends in a star matches every continuation.
* `IgnoreRules.concerns_below`: what a pattern encloses.
* `IgnoreRules.rejects_below`: **which paths are ignored with the one above them.**
-/

namespace LiteralLint

/-! ## Globs that end in a star -/

namespace Glob

/-- A star at the end takes in everything. -/
theorem matchesPieces_star (t : Text) : matchesPieces [.star] t = true := by
  induction t with
  | nil => simp [matchesPieces]
  | cons c t ih => simp [matchesPieces, ih]

/-- A star may stand for nothing. -/
theorem matchesPieces_cons_star {ps : List Piece} {t : Text} (h : matchesPieces ps t = true) :
    matchesPieces (.star :: ps) t = true := by
  cases t with
  | nil => simpa [matchesPieces] using h
  | cons c t => simp [matchesPieces, h]

/-- A star at the end of some pieces is at the end of those behind another piece. -/
theorem getLast?_of_cons {p : Piece} {more : List Piece}
    (h : (p :: more).getLast? = some .star) (hp : p ≠ .star) : more.getLast? = some .star := by
  cases more with
  | nil => exact absurd (Option.some.inj h) hp
  | cons q more => exact h

/-- Pieces that end in a star match every continuation of what they match. -/
theorem matchesPieces_append_of_star {ps : List Piece} (hstar : ps.getLast? = some .star)
    {t : Text} (h : matchesPieces ps t = true) (u : Text) : matchesPieces ps (t ++ u) = true := by
  fun_induction matchesPieces ps t with
  | case1 => cases hstar
  | case2 => cases hstar
  | case3 more ih =>
      cases more with
      | nil => exact matchesPieces_star _
      | cons p more => exact matchesPieces_cons_star (ih hstar h)
  | case4 more c rest ih ih' =>
      cases more with
      | nil => exact matchesPieces_star _
      | cons p more =>
          rw [List.cons_append, matchesPieces, Bool.or_eq_true]
          rcases Bool.or_eq_true_iff.1 h with h | h
          · exact Or.inl (ih hstar h)
          · exact Or.inr (ih' hstar h)
  | case5 => cases h
  | case6 more c rest ih =>
      rw [List.cons_append, matchesPieces]
      exact ih (getLast?_of_cons hstar nofun) h
  | case7 d more c rest ih =>
      obtain ⟨hc, hrest⟩ := Bool.and_eq_true_iff.1 h
      rw [List.cons_append, matchesPieces, Bool.and_eq_true]
      exact ⟨hc, ih (getLast?_of_cons hstar nofun) hrest⟩
  | case8 s more c rest ih =>
      obtain ⟨hc, hrest⟩ := Bool.and_eq_true_iff.1 h
      rw [List.cons_append, matchesPieces, Bool.and_eq_true]
      exact ⟨hc, ih (getLast?_of_cons hstar nofun) hrest⟩

/-- A pattern that ends in a star matches every continuation of what it matches. -/
theorem matches_append_of_star {pattern t : Text} (hstar : (read pattern).getLast? = some .star)
    (h : Glob.matches pattern t = true) (u : Text) : Glob.matches pattern (t ++ u) = true :=
  matchesPieces_append_of_star hstar h u

end Glob

/-! ## Paths below others -/

namespace Path

/-- The path that names lead to from another one. -/
def below (p : Path) (names : List Text) : Path := { p with components := p.components ++ names }

/-- Names that lead somewhere are the path to it. -/
theorem relativeTo?_below (root : Path) (names : List Text) :
    (root.below names).relativeTo? root = some ⟨.current, names⟩ :=
  relativeTo?_of_eq rfl rfl

/-- The text of a path goes on from that of the path above it. -/
theorem toText_append {names more : List Text} (hnames : names ≠ []) (hmore : more ≠ [])
    (h : ∀ n ∈ names ++ more, isComponent n = true) :
    toText ⟨.current, names ++ more⟩ = toText ⟨.current, names⟩ ++ slash :: joined more := by
  rw [toText_current (by simp [hnames]) h,
    toText_current hnames fun n hn => h n (List.mem_append_left _ hn)]
  exact Text.join_append hnames hmore

end Path

/-! ## Patterns about paths and what is below them -/

namespace IgnoreRules

/-- A pattern that leaves out all that is below a path: it is about some component of the path, or
it is the written form of the path or of one above it, or it matches the path as a whole and ends in
a star. -/
inductive Encloses (pattern : Text) (p : Path) : Prop
  | component (hpart : isWhole pattern = false) (hconcerns : concerns pattern p = true)
  | written (hwhole : isWhole pattern = true)
      (hstart : Text.startsWith (p.toText ++ [Path.slash]) (pattern ++ [Path.slash]) = true)
  | glob (hwhole : isWhole pattern = true) (hmatches : Glob.matches pattern p.toText = true)
      (hstar : (Glob.read pattern).getLast? = some .star)

/-- A pattern that leaves out a path `p`, but not a path `q` below it: a glob for whole paths that
matches `p`, is not its written form or that of a path above it, and does not end in a star. -/
structure StopsAt (pattern : Text) (p q : Path) : Prop where
  whole : isWhole pattern = true
  matches_above : Glob.matches pattern p.toText = true
  not_written : Text.startsWith (p.toText ++ [Path.slash]) (pattern ++ [Path.slash]) = false
  no_star : (Glob.read pattern).getLast? ≠ some .star
  not_below : Glob.matches pattern q.toText = false

variable {pattern : Text} {names more : List Text}

/-- A text that goes on starts with all that it started with. -/
theorem startsWith_append {t start : Text} (h : Text.startsWith t start = true) (rest : Text) :
    Text.startsWith (t ++ rest) start = true :=
  List.isPrefixOf_iff_prefix.2 ((List.isPrefixOf_iff_prefix.1 h).trans (List.prefix_append t rest))

/-- **What a pattern encloses**: it is about every path below. -/
theorem concerns_below (hnames : names ≠ []) (hmore : more ≠ [])
    (h : ∀ n ∈ names ++ more, Path.isComponent n = true)
    (hencloses : Encloses pattern ⟨.current, names⟩) :
    concerns pattern ⟨.current, names ++ more⟩ = true := by
  have htext := Path.toText_append hnames hmore h
  cases hencloses with
  | component hpart hconcerns =>
      unfold concerns at hconcerns ⊢
      rw [hpart] at hconcerns ⊢
      obtain ⟨c, hc, hmatch⟩ := List.any_eq_true.1 hconcerns
      exact List.any_eq_true.2 ⟨c, List.mem_append_left _ hc, hmatch⟩
  | written hwhole hstart =>
      unfold concerns
      rw [if_pos hwhole, htext, Bool.or_eq_true]
      refine Or.inr ?_
      rw [← List.singleton_append, ← List.append_assoc]
      exact startsWith_append hstart _
  | glob hwhole hmatches hstar =>
      unfold concerns
      rw [if_pos hwhole, htext, Bool.or_eq_true]
      exact Or.inl (Glob.matches_append_of_star hstar hmatches _)

/-- A pattern about a path encloses it, or is a glob that stops there. -/
theorem encloses_or_stopsAt {p q : Path} (hp : concerns pattern p = true)
    (hq : concerns pattern q = false) : Encloses pattern p ∨ StopsAt pattern p q := by
  cases hwhole : isWhole pattern with
  | false => exact Or.inl (.component hwhole hp)
  | true =>
      cases hwritten : Text.startsWith (p.toText ++ [Path.slash]) (pattern ++ [Path.slash]) with
      | true => exact Or.inl (.written hwhole hwritten)
      | false =>
          unfold concerns at hp hq
          rw [if_pos hwhole, Bool.or_eq_true] at hp
          rw [if_pos hwhole, Bool.or_eq_false_iff] at hq
          have hmatches : Glob.matches pattern p.toText = true := by
            refine hp.resolve_right fun hstart => ?_
            rw [startsWith_append hstart] at hwritten
            cases hwritten
          by_cases hstar : (Glob.read pattern).getLast? = some .star
          · exact Or.inl (.glob hwhole hmatches hstar)
          · exact Or.inr ⟨hwhole, hmatches, hwritten, hstar, hq.1⟩

/-! ## Ignored paths -/

variable {patterns patterns' : List Text}

theorem rejects_root_below (patterns : List Text) (root : Path) (names : List Text) :
    rejects patterns root (root.below names) =
      patterns.any fun pattern => concerns pattern ⟨.current, names⟩ := by
  unfold rejects
  rw [Path.relativeTo?_below]

/-- More patterns leave out no less. -/
theorem rejects_mono (hsub : patterns ⊆ patterns') {root path : Path}
    (h : rejects patterns root path = true) : rejects patterns' root path = true := by
  unfold rejects at h ⊢
  split at h
  · rfl
  · obtain ⟨pattern, hmem, hconcerns⟩ := List.any_eq_true.1 h
    exact List.any_eq_true.2 ⟨pattern, hsub hmem, hconcerns⟩

/-- What more patterns keep, fewer keep as well. -/
theorem kept_of_subset (hsub : patterns ⊆ patterns') {root path : Path}
    (h : (!rejects patterns' root path) = true) : (!rejects patterns root path) = true := by
  rw [Bool.not_eq_true'] at h ⊢
  refine Bool.eq_false_iff.2 fun hrejects => ?_
  rw [rejects_mono hsub hrejects] at h
  cases h

/-- **Which paths are ignored with the one above them**: all, if some pattern encloses that one; and
if it is ignored and some path below it is not, each pattern about it is a glob that stops there. More
patterns leave out no less. -/
theorem rejects_below (root : Path) (patterns : List Text) {names more : List Text}
    (hnames : names ≠ []) (hmore : more ≠ [])
    (h : ∀ n ∈ names ++ more, Path.isComponent n = true) :
    ((∃ pattern ∈ patterns, Encloses pattern ⟨.current, names⟩) →
        rejects patterns root (root.below (names ++ more)) = true) ∧
      (rejects patterns root (root.below names) = true →
        rejects patterns root (root.below (names ++ more)) = false →
        ∀ pattern ∈ patterns, concerns pattern ⟨.current, names⟩ = true →
          StopsAt pattern ⟨.current, names⟩ ⟨.current, names ++ more⟩) ∧
      ∀ patterns', patterns ⊆ patterns' → ∀ path, rejects patterns root path = true →
        rejects patterns' root path = true := by
  refine ⟨?_, ?_, fun patterns' hsub path => rejects_mono hsub⟩
  · rintro ⟨pattern, hmem, hencloses⟩
    rw [rejects_root_below]
    exact List.any_eq_true.2 ⟨pattern, hmem, concerns_below hnames hmore h hencloses⟩
  · intro _ hkept pattern hmem hconcerns
    rw [rejects_root_below, List.any_eq_false] at hkept
    have hnot : concerns pattern ⟨.current, names ++ more⟩ = false := by
      simpa using hkept pattern hmem
    refine (encloses_or_stopsAt hconcerns hnot).resolve_left fun hencloses => ?_
    rw [concerns_below hnames hmore h hencloses] at hnot
    cases hnot

/-- A directory below the root `/r`, written out and matched by a glob. -/
theorem rejects_below_generated :
    rejects ["src/gen"] (Path.ofText "/r") (Path.ofText "/r/src/gen/a.js") = true ∧
      StopsAt "src/ge?" ⟨.current, ["src", "gen"]⟩ ⟨.current, ["src", "gen", "a.js"]⟩ := by
  have hnames : ([Text.ofString "src", Text.ofString "gen"] : List Text) ≠ [] := by decide
  have hmore : ([Text.ofString "a.js"] : List Text) ≠ [] := by decide
  have h : ∀ n ∈ [Text.ofString "src", Text.ofString "gen"] ++ [Text.ofString "a.js"],
      Path.isComponent n = true := by decide
  constructor
  · have hwritten := rejects_below (Path.ofText "/r") ["src/gen"] hnames hmore h
    exact hwritten.1 ⟨_, List.mem_singleton_self _, .written (by decide) (by decide)⟩
  · have hglob := rejects_below (Path.ofText "/r") ["src/ge?"] hnames hmore h
    exact hglob.2.1 (by cbv) (by cbv) _ (List.mem_singleton_self _) (by cbv)

/-- A glob for whole paths that does not end in a star matches a directory, but nothing below it. -/
theorem rejects_generated_only :
    rejects ["src/ge?"] (Path.ofText "/r") (Path.ofText "/r/src/gen") = true ∧
      rejects ["src/ge?"] (Path.ofText "/r") (Path.ofText "/r/src/gen/a.js") = false := by
  constructor <;> cbv

end IgnoreRules

end LiteralLint
