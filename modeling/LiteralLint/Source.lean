import LiteralLint.Failure
import LiteralLint.Lint
import LiteralLint.Source.Conversion
import LiteralLint.Source.Language

/-!
# Linting source text

Parsers are outside of this library: a program that uses it provides one for every language it can.
A parser is a function of the bytes of a source, and may fail on some of them.

## Main definitions

* `Parsers`: the parsers at hand.
* `Source.read`: the program tree of some bytes in a language.
* `Source.lint`: its findings.
-/

namespace LiteralLint

/-- What a parser makes of some bytes. -/
inductive Parsed
  /-- A parse tree, and whether the parser had to repair it. -/
  | tree (t : ParseTree) (repaired : Bool)
  | failed (f : Failure)

/-- The parsers at hand. -/
abbrev Parsers := Language → Option (Bytes → Parsed)

namespace Source

/-- Something worth telling a user who wants to know how a source was judged. -/
inductive Note
  | repaired (l : Language)
  | expanded (e : TypeAnnotation.Expansion)
  | judged (n : Lint.Note)
  | summary (nodes findings translation technical skipped : Nat)

/-- A program tree with the notes on reading it. -/
structure Program where
  language : Language
  tree : Tree Node
  notes : List Note

/-- Whether types of a language are taken into account. -/
def isTyped (useTypes : Bool) (l : Language) : Bool := useTypes && l.isTyped

/-- The program tree of some bytes in the language of a name. -/
def read (parsers : Parsers) (language : Text) (useTypes : Bool) (source : Bytes) :
    Except Failure Program :=
  match Language.ofName? language with
  | none => .error (.unsupported (Text.cat ["Unknown language: ", language]))
  | some l =>
    match parsers l with
    | none => .error (.unsupported (Text.cat ["tree-sitter binding not available: ", language]))
    | some parse =>
      match parse source with
      | .failed f => .error f
      | .tree t repaired =>
        let aliases := if isTyped useTypes l then some (TypeAliases.ofTree source t) else none
        let c := Conversion.convert ⟨source, aliases⟩ t
        .ok {
          language := l
          tree := c.tree
          notes := (if repaired then [.repaired l] else []) ++ c.expansions.map .expanded }

/-- What a program tree is found to hold. -/
structure Judgement where
  language : Language
  findings : List Finding
  notes : List Note

/-- Whether a note says that a node was skipped. -/
def isSkip : Lint.Note → Bool
  | .skipped _ _ _ => true
  | _ => false

/-- The findings of a program tree. -/
def judge (config : Configuration) (useTypes : Bool) (program : Program) : Judgement :=
  let p := LiteralLint.Program.ofTree program.tree
  let oracle := if isTyped useTypes program.language then some (Oracle.declared p) else none
  let r := Lint.run ⟨p, config, oracle⟩
  { language := program.language
    findings := r.findings
    notes := program.notes ++ r.notes.map .judged ++
      [.summary p.size r.findings.length r.marks.translation.length r.marks.technical.length
        (r.notes.countP isSkip)] }

/-- The findings of some bytes in the language of a name. -/
def lint (parsers : Parsers) (config : Configuration) (language : Text) (useTypes : Bool)
    (source : Bytes) : Except Failure Judgement :=
  (read parsers language useTypes source).map (judge config useTypes)

end Source

end LiteralLint
