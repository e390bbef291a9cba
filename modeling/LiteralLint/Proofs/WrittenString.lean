import Mathlib.Data.List.Chain
import Mathlib.Data.Nat.Digits.Defs
import LiteralLint.Source.StringLiteral

/-!
# Written strings

A string can be written in many ways: most characters stand for themselves, and each can be written
by an escape as well, by its number with two, four or any number of digits, by a letter, or after a
backslash as it is. A line can be continued after a backslash, which denotes nothing. Whatever the
way, decoding gives the characters that were meant.

The decoder finds the end of an escape by looking at the text that follows, so the elements of a
written string have to be told apart by it: the digits of a number are counted or end at a brace,
and a letter with a meaning is no other character. Only one pair of neighbours runs together, a
continued carriage return and a line feed of its own, which are one continued line end.

## Main definitions

* `StringLiteral.Element`: an element of a written string, with its source and its value.
* `StringLiteral.Element.Parted`: two elements that can stand next to each other.

## Main results

* `StringLiteral.unescape_source_append`: decoding one element at the start of a text.
* `StringLiteral.unescape_flatMap`: **decoding a list of elements**.
* `StringLiteral.value_written`: the value of a literal between quotes.
-/

namespace LiteralLint.StringLiteral

/-! ## Digits -/

/-- A hexadecimal digit as it is written: its value, and whether a letter is a capital. -/
structure HexDigit where
  value : Fin 16
  capital : Bool := false

namespace HexDigit

/-- The character of a digit. -/
def char (d : HexDigit) : CodePoint :=
  if d.value.val < 10 then 48 + d.value.val
  else if d.capital then 55 + d.value.val
  else 87 + d.value.val

/-- The characters of some digits. -/
def chars (ds : List HexDigit) : Text := ds.map char

/-- The number that digits denote, the most significant one first. -/
def number (ds : List HexDigit) : Nat := Nat.ofDigits 16 (ds.reverse.map fun d => d.value.val)

theorem hexDigit?_char (d : HexDigit) : Text.hexDigit? d.char = some d.value.val := by
  obtain ⟨v, capital⟩ := d
  revert v capital
  decide

theorem isSome_hexDigit?_char (d : HexDigit) : (Text.hexDigit? d.char).isSome = true := by
  rw [hexDigit?_char]
  rfl

theorem char_ne {c : CodePoint} (hc : Text.hexDigit? c = none) (d : HexDigit) : d.char ≠ c := by
  rintro rfl
  rw [hexDigit?_char] at hc
  cases hc

theorem length_chars (ds : List HexDigit) : (chars ds).length = ds.length :=
  List.length_map char

theorem take_chars (ds : List HexDigit) {n : Nat} (h : ds.length = n) (t : Text) :
    (chars ds ++ t).take n = chars ds :=
  List.take_left' ((length_chars ds).trans h)

theorem all_chars (ds : List HexDigit) :
    ((chars ds).all fun c => (Text.hexDigit? c).isSome) = true := by
  rw [chars, List.all_map, List.all_eq_true]
  exact fun d _ => isSome_hexDigit?_char d

/-- The number that is read is the number that is denoted. -/
theorem hexValue_chars (ds : List HexDigit) : Text.hexValue (chars ds) = number ds := by
  have hfold : ∀ n, (chars ds).foldl (fun n c => 16 * n + (Text.hexDigit? c).getD 0) n =
      number ds + 16 ^ ds.length * n := by
    induction ds with
    | nil => simp [chars, number]
    | cons d ds ih =>
        intro n
        have hnumber : number (d :: ds) = number ds + 16 ^ ds.length * d.value.val := by
          simp [number, Nat.ofDigits_append]
        rw [chars, List.map_cons, List.foldl_cons, hexDigit?_char, Option.getD_some]
        rw [← chars, ih, hnumber, List.length_cons, Nat.pow_succ]
        ring
  rw [Text.hexValue, hfold, Nat.mul_zero, Nat.add_zero]

end HexDigit

/-! ## Elements -/

/-- The characters that have a letter of their own. -/
inductive Control
  | lineFeed
  | tab
  | carriageReturn
  | backspace
  | formFeed
  | verticalTab
  | null
  deriving DecidableEq

namespace Control

/-- The letter after the backslash. -/
def letter : Control → CodePoint
  | .lineFeed => ('n' : Char)
  | .tab => ('t' : Char)
  | .carriageReturn => ('r' : Char)
  | .backspace => ('b' : Char)
  | .formFeed => ('f' : Char)
  | .verticalTab => ('v' : Char)
  | .null => ('0' : Char)

/-- The character that is denoted. -/
def value : Control → CodePoint
  | .lineFeed => 10
  | .tab => 9
  | .carriageReturn => 13
  | .backspace => 8
  | .formFeed => 12
  | .verticalTab => 11
  | .null => 0

end Control

/-- The ends of lines that can be continued. -/
inductive LineEnd
  | lineFeed
  | carriageReturn
  | both
  | lineSeparator
  | paragraphSeparator
  deriving DecidableEq

/-- The characters of the end of a line. -/
def LineEnd.text : LineEnd → Text
  | .lineFeed => [10]
  | .carriageReturn => [13]
  | .both => [13, 10]
  | .lineSeparator => [0x2028]
  | .paragraphSeparator => [0x2029]

/-- A character that has no meaning of its own after a backslash: it is not the letter of a control
character, it ends no line, it announces no number, and it is none of the digits that old programs
write octal numbers with. -/
structure IsOrdinary (c : CodePoint) : Prop where
  ne_letter : ∀ k : Control, c ≠ k.letter
  not_lineEnd : ∀ e : LineEnd, c ∉ e.text
  ne_u : c ≠ ('u' : Char)
  ne_x : c ≠ ('x' : Char)
  not_octal : ¬ (49 ≤ c ∧ c ≤ 57)

/-- The backslash. -/
def backslash : CodePoint := ('\\' : Char)

/-- An element of a written string. -/
inductive Element
  /-- A character that stands for itself. -/
  | plain (c : CodePoint) (h : c ≠ backslash)
  /-- A number of four digits. -/
  | four (a b c d : HexDigit)
  /-- A number of two digits. -/
  | two (a b : HexDigit)
  /-- A number of any digits in braces, of which there is at least one. -/
  | braced (d : HexDigit) (ds : List HexDigit)
  | control (k : Control)
  | continued (e : LineEnd)
  /-- Another character after a backslash. -/
  | escaped (c : CodePoint) (h : IsOrdinary c)

namespace Element

/-- How an element is written. -/
def source : Element → Text
  | .plain c _ => [c]
  | .four a b c d => backslash :: ('u' : Char) :: HexDigit.chars [a, b, c, d]
  | .two a b => backslash :: ('x' : Char) :: HexDigit.chars [a, b]
  | .braced d ds => backslash :: ('u' : Char) :: 123 :: (HexDigit.chars (d :: ds) ++ [125])
  | .control k => [backslash, k.letter]
  | .continued e => backslash :: e.text
  | .escaped c _ => [backslash, c]

/-- What an element denotes. A number beyond the last code point denotes the way it is written. -/
def value : Element → Text
  | .plain c _ => [c]
  | .four a b c d => [HexDigit.number [a, b, c, d]]
  | .two a b => [HexDigit.number [a, b]]
  | .braced d ds =>
    if HexDigit.number (d :: ds) ≤ Text.maxCodePoint then [HexDigit.number (d :: ds)]
    else source (.braced d ds)
  | .control k => [k.value]
  | .continued _ => []
  | .escaped c _ => [c]

/-- Two elements that can stand next to each other: a line feed of its own does not follow a
carriage return that is continued. -/
def Parted (e f : Element) : Prop :=
  e = .continued .carriageReturn → ∀ h, f ≠ .plain 10 h

end Element

/-! ## One escape -/

theorem escape_u {t : Text} (h : t.head? ≠ some 123) :
    escape (117 :: t) =
      if hasHexDigits 4 t then ([Text.hexValue (t.take 4)], 5) else single (117 :: t) := by
  cases t with
  | nil => rfl
  | cons c t =>
      have hc : c ≠ 123 := fun hc => h (by rw [hc]; rfl)
      rw [escape]
      simpa using hc

theorem escape_x (t : Text) :
    escape (120 :: t) =
      if hasHexDigits 2 t then ([Text.hexValue (t.take 2)], 3) else single (120 :: t) := by
  rfl

theorem escape_single {c : CodePoint} (hu : c ≠ 117) (hx : c ≠ 120) (t : Text) :
    escape (c :: t) = single (c :: t) := by
  rw [escape]
  · exact fun _ h => hu (List.cons.inj h).1
  · exact fun _ h => hu (List.cons.inj h).1
  · exact fun _ h => hx (List.cons.inj h).1

theorem hasHexDigits_chars (ds : List HexDigit) {n : Nat} (h : ds.length = n) (t : Text) :
    hasHexDigits n (HexDigit.chars ds ++ t) = true := by
  rw [hasHexDigits, HexDigit.take_chars ds h, HexDigit.all_chars, HexDigit.length_chars, h,
    beq_self_eq_true, Bool.and_self]

/-- The digits in braces end at the brace. -/
theorem bracedDigits?_chars (d : HexDigit) (ds : List HexDigit) (t : Text) :
    bracedDigits? (HexDigit.chars (d :: ds) ++ 125 :: t) = some (HexDigit.chars (d :: ds)) := by
  have hall := List.all_eq_true.1 (HexDigit.all_chars (d :: ds))
  have hdigits : (HexDigit.chars (d :: ds) ++ 125 :: t).takeWhile
      (fun c => (Text.hexDigit? c).isSome) = HexDigit.chars (d :: ds) := by
    rw [List.takeWhile_append_of_pos hall, List.takeWhile_cons_of_neg (by decide), List.append_nil]
  rw [bracedDigits?]
  simp only [hdigits, List.drop_left]
  rfl

/-- A simple escape, or a character as it is. -/
theorem single_cons {c : CodePoint} {t : Text} (h : c = 13 → t.head? ≠ some 10) :
    single (c :: t) = ((simpleEscapes.lookup c).getD [c], 1) := by
  rw [single]
  rintro rest rfl hrest
  rw [hrest] at h
  exact h rfl rfl

/-- A character without a meaning of its own is not among the simple escapes. -/
theorem lookup_of_isOrdinary {c : CodePoint} (h : IsOrdinary c) :
    simpleEscapes.lookup c = none := by
  refine List.lookup_eq_none_iff.2 fun m hm => ?_
  have hletters : ∀ m ∈ simpleEscapes,
      (∃ k : Control, m.1 = k.letter) ∨ ∃ e : LineEnd, m.1 ∈ e.text := by
    simp only [simpleEscapes, List.forall_mem_cons]
    exact ⟨.inl ⟨.lineFeed, rfl⟩, .inl ⟨.tab, rfl⟩, .inl ⟨.carriageReturn, rfl⟩,
      .inl ⟨.backspace, rfl⟩, .inl ⟨.formFeed, rfl⟩, .inl ⟨.verticalTab, rfl⟩, .inl ⟨.null, rfl⟩,
      .inr ⟨.lineFeed, by decide⟩, .inr ⟨.carriageReturn, by decide⟩,
      .inr ⟨.lineSeparator, by decide⟩, .inr ⟨.paragraphSeparator, by decide⟩, by simp⟩
  rw [bne_iff_ne]
  intro heq
  rcases hletters m hm with ⟨k, hk⟩ | ⟨e, he⟩
  · exact h.ne_letter k (heq.trans hk)
  · exact h.not_lineEnd e (heq ▸ he)

/-! ## Decoding -/

theorem unescape_plain {c : CodePoint} (h : c ≠ backslash) (t : Text) :
    unescape (c :: t) = c :: unescape t := by
  rw [unescape, if_neg (show c ≠ 92 from h)]

/-- An escape that takes up a part of the text is decoded, and the rest is decoded on its own. -/
theorem unescape_backslash {t rest v : Text} (h : escape (t ++ rest) = (v, t.length)) :
    unescape (backslash :: (t ++ rest)) = v ++ unescape rest := by
  rw [unescape, if_pos (show backslash = 92 from rfl), h, List.drop_left]

/-- A number of four digits. -/
theorem escape_four (a b c d : HexDigit) (t : Text) :
    escape (('u' : Char) :: (HexDigit.chars [a, b, c, d] ++ t)) =
      ([HexDigit.number [a, b, c, d]], 5) := by
  have hbrace : (HexDigit.chars [a, b, c, d] ++ t).head? ≠ some 123 := by
    intro hhead
    exact HexDigit.char_ne (by decide) a (Option.some.inj hhead)
  show escape (117 :: _) = _
  rw [escape_u hbrace, if_pos (hasHexDigits_chars (n := 4) [a, b, c, d] rfl t),
    HexDigit.take_chars (n := 4) [a, b, c, d] rfl, HexDigit.hexValue_chars]

/-- A number of two digits. -/
theorem escape_two (a b : HexDigit) (t : Text) :
    escape (('x' : Char) :: (HexDigit.chars [a, b] ++ t)) = ([HexDigit.number [a, b]], 3) := by
  show escape (120 :: _) = _
  rw [escape_x, if_pos (hasHexDigits_chars (n := 2) [a, b] rfl t),
    HexDigit.take_chars (n := 2) [a, b] rfl, HexDigit.hexValue_chars]

/-- A number in braces. -/
theorem escape_braced (d : HexDigit) (ds : List HexDigit) (t : Text) :
    escape (('u' : Char) :: 123 :: (HexDigit.chars (d :: ds) ++ 125 :: t)) =
      ((Element.braced d ds).value, ds.length + 4) := by
  have hread : escape (117 :: 123 :: (HexDigit.chars (d :: ds) ++ 125 :: t)) =
      braced (HexDigit.chars (d :: ds)) := by
    rw [escape, bracedDigits?_chars]
  refine hread.trans ?_
  have hlength : (HexDigit.chars (d :: ds)).length + 3 = ds.length + 4 := by
    rw [HexDigit.length_chars, List.length_cons]
  rw [braced, HexDigit.hexValue_chars, Element.value]
  by_cases hle : HexDigit.number (d :: ds) ≤ Text.maxCodePoint
  · rw [if_pos hle, if_neg (Nat.not_lt.2 hle), hlength]
  · rw [if_neg hle, if_pos (Nat.lt_of_not_le hle), hlength]
    rfl

/-- The letter of a control character. -/
theorem escape_control (k : Control) (t : Text) : escape (k.letter :: t) = ([k.value], 1) := by
  rw [escape_single (by cases k <;> decide) (by cases k <;> decide),
    single_cons (fun h => absurd h (by cases k <;> decide))]
  cases k <;> rfl

/-- The end of a line that is continued. -/
theorem escape_lineEnd (e : LineEnd) {t : Text} (h : e = .carriageReturn → t.head? ≠ some 10) :
    escape (e.text ++ t) = ([], e.text.length) := by
  cases e with
  | carriageReturn =>
      show escape (13 :: t) = _
      rw [escape_single (by decide) (by decide), single_cons fun _ => h rfl]
      rfl
  | both => rfl
  | lineFeed => rfl
  | lineSeparator => rfl
  | paragraphSeparator => rfl

/-- Any other character. -/
theorem escape_ordinary {c : CodePoint} (h : IsOrdinary c) (t : Text) :
    escape (c :: t) = ([c], 1) := by
  have hreturn : c ≠ 13 := fun heq => h.not_lineEnd .carriageReturn (by rw [heq]; decide)
  rw [escape_single h.ne_u h.ne_x, single_cons fun heq => absurd heq hreturn,
    lookup_of_isOrdinary h, Option.getD_none]

/-- **Decoding one element at the start of a text.** -/
theorem unescape_source_append (e : Element) {t : Text}
    (h : e = .continued .carriageReturn → t.head? ≠ some 10) :
    unescape (e.source ++ t) = e.value ++ unescape t := by
  cases e with
  | plain c hc => exact unescape_plain hc t
  | four a b c d =>
      exact unescape_backslash (t := ('u' : Char) :: HexDigit.chars [a, b, c, d])
        (escape_four a b c d t)
  | two a b =>
      exact unescape_backslash (t := ('x' : Char) :: HexDigit.chars [a, b]) (escape_two a b t)
  | braced d ds =>
      have hescape : ∀ body : Text,
          body = (('u' : Char) : CodePoint) :: 123 :: (HexDigit.chars (d :: ds) ++ [125]) →
          escape (body ++ t) = ((Element.braced d ds).value, body.length) := by
        rintro body rfl
        rw [List.cons_append, List.cons_append, List.append_assoc, List.singleton_append,
          escape_braced]
        simp [HexDigit.length_chars]
      exact unescape_backslash (hescape _ rfl)
  | control k => exact unescape_backslash (t := [k.letter]) (escape_control k t)
  | continued e =>
      exact unescape_backslash (escape_lineEnd e fun he => h (congrArg Element.continued he))
  | escaped c hc => exact unescape_backslash (t := [c]) (escape_ordinary hc t)

/-! ## Lists of elements -/

/-- The source of an element starts with a line feed only if it is a line feed of its own. -/
theorem head?_source_append {e : Element} {t : Text} (h : (e.source ++ t).head? = some 10) :
    ∃ hc, e = .plain 10 hc := by
  cases e with
  | plain c hc =>
      cases Option.some.inj h
      exact ⟨hc, rfl⟩
  | four => exact absurd (Option.some.inj h) (by decide)
  | two => exact absurd (Option.some.inj h) (by decide)
  | braced => exact absurd (Option.some.inj h) (by decide)
  | control => exact absurd (Option.some.inj h) (by decide)
  | continued => exact absurd (Option.some.inj h) (by decide)
  | escaped => exact absurd (Option.some.inj h) (by decide)

/-- **Decoding a list of elements.** -/
theorem unescape_flatMap {es : List Element} (h : es.IsChain Element.Parted) :
    unescape (es.flatMap Element.source) = es.flatMap Element.value := by
  induction es with
  | nil => rw [List.flatMap_nil, List.flatMap_nil, unescape]
  | cons e es ih =>
      rw [List.flatMap_cons, List.flatMap_cons, unescape_source_append, ih h.tail]
      intro he hhead
      cases es with
      | nil => cases hhead
      | cons f es =>
          rw [List.flatMap_cons] at hhead
          obtain ⟨hc, rfl⟩ := head?_source_append hhead
          exact (List.isChain_cons_cons.1 h).1 he hc rfl

/-- The text between two equal quotes, whatever it is. -/
theorem unquoted_quoted {q : CodePoint} (hq : isQuote q = true) (t : Text) :
    unquoted (q :: (t ++ [q])) = t := by
  rw [unquoted, hq, List.getLast?_concat, List.dropLast_concat, beq_self_eq_true]
  rfl

/-- **The value of a written string.** However it is written, a string between two equal quotes has
the characters that its elements denote as its value, one after the other: two halves of a surrogate
pair stay two characters, whichever way they are written. Without decoding, its value is its
source. -/
theorem value_written (es : List Element) (hes : es.IsChain Element.Parted) (q : CodePoint)
    (hq : isQuote q = true) :
    value (q :: (es.flatMap Element.source ++ [q])) = es.flatMap Element.value ∧
      plainValue (q :: (es.flatMap Element.source ++ [q])) = es.flatMap Element.source := by
  rw [value, plainValue, unquoted_quoted hq]
  exact ⟨unescape_flatMap hes, rfl⟩

/-- Two halves of a pair, the first with capitals; a number beyond the last code point; a quote and
a backslash after a backslash; and a continued line, with a line feed of its own after it. -/
def mixedString : List Element := [
  .four ⟨13, true⟩ ⟨8, false⟩ ⟨3, false⟩ ⟨13, true⟩,
  .four ⟨13, false⟩ ⟨14, false⟩ ⟨0, false⟩ ⟨0, false⟩,
  .braced ⟨1, false⟩ [⟨1, false⟩, ⟨0, false⟩, ⟨0, false⟩, ⟨0, false⟩, ⟨0, false⟩],
  .two ⟨4, false⟩ ⟨10, true⟩,
  .escaped 39 ⟨fun k => by cases k <;> decide, fun e => by cases e <;> decide, by decide, by decide,
    by decide⟩,
  .escaped 92 ⟨fun k => by cases k <;> decide, fun e => by cases e <;> decide, by decide, by decide,
    by decide⟩,
  .control .null, .continued .both, .plain 10 (by decide)]

theorem value_written_mixed :
    mixedString.IsChain Element.Parted ∧ isQuote 39 = true ∧
      (39 :: (mixedString.flatMap Element.source ++ [39]) : Text) =
        Text.cat ["'\\uD83D\\ude00\\u\x7b110000\x7d\\x4A\\'\\\\\\0\\\r\n\n'"] ∧
      value (39 :: (mixedString.flatMap Element.source ++ [39])) =
        [0xD83D, 0xDE00] ++ Text.cat ["\\u\x7b110000\x7dJ'\\\x00\n"] := by
  have hparted : mixedString.IsChain Element.Parted := by
    simp [mixedString, Element.Parted]
  refine ⟨hparted, by decide, by decide, ?_⟩
  rw [(value_written mixedString hparted 39 (by decide)).1]
  decide

end LiteralLint.StringLiteral
