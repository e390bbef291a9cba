import LiteralLint.Text

/-!
# Built-in allow-lists

These hold in every run; options can only add to them.
-/

namespace LiteralLint.Baseline

/-- Matches text without a letter or numeral: punctuation, decimal digits, blanks, underscores. -/
def noLetters : Text := "^[\\W\\d_]*$"

/-- Calls whose string arguments are never shown: event names, store messages, membership tests. -/
def popularCallees : List Text := [
  "addEventListener", "dispatch", "commit", "includes", "indexOf"]

/-- Calls that include a module. -/
def moduleCallees : List Text := ["require"]

/-- Calls that translate their arguments. -/
def translatorCallees : List Text := [
  "i18n", "i18next", "t", "T", "i18n.t", "i18next.t"]

/-- Tags of templates that are translated. -/
def translationTags : List Text := ["T", "t"]

/-- Components whose contents are translated. -/
def translationComponents : List Text := ["Trans", "Translation"]

/-- Markup attributes that never hold display text. -/
def attributes : List Text := [
  "className", "class", "styleName", "style", "id", "key", "type", "src", "srcSet", "width",
  "height", "htmlFor", "data-testid"]

/-- Attributes of vector graphics, for presentation and geometry. -/
def graphicsAttributes : List Text := [
  "viewBox", "xmlns", "version", "preserveAspectRatio", "d", "points", "transform", "x", "y",
  "x1", "y1", "x2", "y2", "cx", "cy", "r", "rx", "ry", "dx", "dy", "fx", "fy", "fill", "fillRule",
  "fill-rule", "fillOpacity", "fill-opacity", "clipRule", "clip-rule", "clipPath", "clip-path",
  "stroke", "strokeWidth", "stroke-width", "strokeLinecap", "stroke-linecap", "strokeLinejoin",
  "stroke-linejoin", "strokeDasharray", "stroke-dasharray", "strokeOpacity", "stroke-opacity",
  "opacity", "offset", "stopColor", "stop-color", "gradientUnits", "gradientTransform",
  "patternUnits", "mask", "filter", "pathLength"].map Text.ofString

/-- Whether a name or text follows the convention for constants: at least one code point, and
only upper-case ASCII letters, digits, underscores and hyphens. -/
def isUpperCase (t : Text) : Bool :=
  !t.isEmpty && t.all fun c =>
    (65 ≤ c && c ≤ 90) || Text.isAsciiDigit c || c == 95 || c == 45

/-- Whether a text has a place to fill in: a dollar sign and an opening brace, at least one code
point other than a closing brace, and later a closing brace. -/
def hasHole : Text → Bool
  | [] => false
  | 36 :: rest =>
    (match rest with
      | 123 :: c :: more => c != 125 && more.contains 125
      | _ => false) || hasHole rest
  | _ :: rest => hasHole rest

end LiteralLint.Baseline
