import LiteralLint.Pattern

/-!
# Matching

A match is a search with backtracking. `Pattern.run` takes a cursor and what has to succeed after
the expression, and tries the ways to match in order of preference; it recurs on the expression,
and the rounds of a repetition are bounded by the least number of rounds plus what is left of the
text, because a round after the least number that makes no progress is the last one.

## Main definitions

* `Pattern.Cursor`: a place in a text with the texts of the groups.
* `Pattern.run`: the first way to match, and where it ends.
* `Pattern.search`: whether a pattern matches anywhere in a text.
-/

namespace LiteralLint.Pattern

/-- A place in a text, with the texts that the groups have matched so far. -/
structure Cursor where
  /-- The code points before the place, nearest first. -/
  before : Text
  after : Text
  /-- The number of code points before the place. -/
  pos : Nat
  /-- The texts of the groups, latest first. -/
  groups : List (Nat × Text)

namespace Cursor

/-- The start of a text. -/
def start (t : Text) : Cursor := ⟨[], t, 0, []⟩

/-- The text of a group. -/
def groupText? (k : Cursor) (n : Nat) : Option Text := k.groups.lookup n

/-- Some code points further. -/
def forward (k : Cursor) : Nat → Cursor
  | 0 => k
  | n + 1 =>
    match k.after with
    | [] => k
    | c :: rest => forward { k with before := c :: k.before, after := rest, pos := k.pos + 1 } n

/-- Some code points back, if there are as many. -/
def back? (k : Cursor) : Nat → Option Cursor
  | 0 => some k
  | n + 1 =>
    match k.before with
    | [] => none
    | c :: rest => back? { k with before := rest, after := c :: k.after, pos := k.pos - 1 } n

/-- Whether the code point before or after the place is a word code point. -/
def isWord (narrow : Bool) : Option CodePoint → Bool
  | some c => Category.holds narrow c .word
  | none => false

end Cursor

/-- Whether a place satisfies an anchor. An empty text has no word boundary, and no place that
is not one. -/
def Anchor.holds (k : Cursor) : Anchor → Bool
  | .textStart => k.before.isEmpty
  | .textEnd => k.after.isEmpty
  | .finalLineEnd => k.after.isEmpty || k.after == [10]
  | .lineStart => k.before.isEmpty || k.before.head? == some 10
  | .lineEnd => k.after.isEmpty || k.after.head? == some 10
  | .wordBoundary narrow negated =>
    if k.before.isEmpty && k.after.isEmpty then false
    else
      (Cursor.isWord narrow k.before.head? != Cursor.isWord narrow k.after.head?) != negated

/-- The result of the first alternative, or else of the second. -/
def orElse (first : Option Cursor) (second : Unit → Option Cursor) : Option Cursor :=
  match first with
  | some k => some k
  | none => second ()

/-- A way to match: from a cursor, with what has to succeed afterwards. -/
abbrev Step := Cursor → (Cursor → Option Cursor) → Option Cursor

/-- Whether one more round is allowed. -/
def belowMost (most : Option Nat) (count : Nat) : Bool :=
  match most with
  | some n => count < n
  | none => true

/-- As many rounds as possible, then fewer. `last` is where the last round after the least number
began: a round that starts there again would make no progress. -/
def greedyRounds (body : Step) (least : Nat) (most : Option Nat) (next : Cursor → Option Cursor) :
    Nat → Nat → Option Nat → Cursor → Option Cursor
  | 0, _, _, k => next k
  | bound + 1, count, last, k =>
    if count < least then
      body k (greedyRounds body least most next bound (count + 1) last)
    else if belowMost most count && last != some k.pos then
      orElse (body k (greedyRounds body least most next bound (count + 1) (some k.pos)))
        fun _ => next k
    else next k

/-- As few rounds as possible, then more. -/
def lazyRounds (body : Step) (least : Nat) (most : Option Nat) (next : Cursor → Option Cursor) :
    Nat → Nat → Option Nat → Cursor → Option Cursor
  | 0, _, _, k => next k
  | bound + 1, count, last, k =>
    if count < least then
      body k (lazyRounds body least most next bound (count + 1) last)
    else
      orElse (next k) fun _ =>
        if belowMost most count && last != some k.pos then
          body k (lazyRounds body least most next bound (count + 1) (some k.pos))
        else none

/-- As many rounds as possible, each settled for good. -/
def possessiveRounds (body : Step) (least : Nat) (most : Option Nat) :
    Nat → Nat → Option Nat → Cursor → Option Cursor
  | 0, _, _, k => some k
  | bound + 1, count, last, k =>
    if count < least then
      match body k some with
      | some k' => possessiveRounds body least most bound (count + 1) last k'
      | none => none
    else if belowMost most count && last != some k.pos then
      match body k some with
      | some k' => possessiveRounds body least most bound (count + 1) (some k.pos) k'
      | none => some k
    else some k

/-- Whether a text is, regardless of case, an initial segment of another. -/
def foldedInitial (f : Folding) : Text → Text → Bool
  | [], _ => true
  | _ :: _, [] => false
  | c :: s, d :: t => f.lower c == f.lower d && foldedInitial f s t

/-- The first way to match an expression at a cursor such that `next` succeeds afterwards. -/
def run : Pattern → Step
  | .empty, k, next => next k
  | .chars s, k, next =>
    match k.after with
    | [] => none
    | c :: rest =>
      if s.holds c then next { k with before := c :: k.before, after := rest, pos := k.pos + 1 }
      else none
  | .anchor a, k, next => if a.holds k then next k else none
  | .seq p q, k, next => run p k fun k' => run q k' next
  | .alt p q, k, next => orElse (run p k next) fun _ => run q k next
  | .rounds greed least most body, k, next =>
    let bound := least + k.after.length + 2
    match greed with
    | .greedy => greedyRounds (run body) least most next bound 0 none k
    | .lazily => lazyRounds (run body) least most next bound 0 none k
    | .possessive =>
      match possessiveRounds (run body) least most bound 0 none k with
      | some k' => next k'
      | none => none
  | .group n body, k, next =>
    run body k fun k' =>
      next { k' with groups := (n, k.after.take (k'.pos - k.pos)) :: k'.groups }
  | .atomic body, k, next =>
    match run body k some with
    | some k' => next k'
    | none => none
  | .look direction negated body, k, next =>
    let found :=
      match direction with
      | .ahead => run body k some
      | .behind width =>
        match k.back? width with
        | some k' => run body k' some
        | none => none
    match found with
    | some k' => if negated then none else next { k with groups := k'.groups }
    | none => if negated then next k else none
  | .again n f _, k, next =>
    match k.groupText? n with
    | none => none
    | some t => if foldedInitial f t k.after then next (k.forward t.length) else none
  | .ifGroup n yes no, k, next =>
    match k.groupText? n with
    | some _ => run yes k next
    | none => run no k next

/-- Whether a pattern matches at a place or further on. -/
def searchFrom (p : Pattern) (before : Text) (pos : Nat) : Text → Bool
  | [] => (run p ⟨before, [], pos, []⟩ some).isSome
  | c :: rest =>
    (run p ⟨before, c :: rest, pos, []⟩ some).isSome ||
      searchFrom p (c :: before) (pos + 1) rest

/-- Whether a pattern matches anywhere in a text. -/
def search (p : Pattern) (t : Text) : Bool := searchFrom p [] 0 t

end LiteralLint.Pattern
