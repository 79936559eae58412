import Bulletin.Element
import Bulletin.Problem

/-!
The parts of a document: texts, variables, and the directives that open and
close conditionals. A tag that is not well formed gives a complaint, and what is
left of it is skipped up to its end, or up to where text or another tag shows
that it has none.
-/

namespace Bulletin

/-- A part of a document, in the order of the source. `openBroken` is an `IF`
whose head was complained about; it still needs its `ENDIF`. -/
inductive Part where
  | complaint (c : Complaint)
  | text (text : String) (span : Span)
  | reference (name : String) (span : Span)
  | openIf (polarity : Polarity) (name : String) (nameSpan span : Span)
  | openBroken
  | close (span : Span)
  deriving DecidableEq, Repr

namespace Part

/-- A directive that lacks only its end. -/
inductive Directive where
  | ifName (polarity : Polarity) (name : String) (nameSpan : Span)
  | endIf
  deriving DecidableEq, Repr

namespace Directive

/-- The part that a directive is, once its tag is closed. -/
def finish (span : Span) : Directive → Part
  | ifName polarity name nameSpan => .openIf polarity name nameSpan span
  | endIf => .close span

/-- The part that a directive is if its tag has no proper end. The structure of
the document is kept: it opens or closes a conditional all the same. -/
def finishBroken (span : Span) : Directive → Part
  | ifName _ _ _ => .openBroken
  | endIf => .close span

end Directive

/-- Where a reader of lexemes stands: between tags, or inside a tag that began
at `opening`. `name` and `word` are the spans of what was read last. In
`skipping` the tag was complained about already, and the parts that it amounts
to are held back to its end. -/
inductive State where
  | outside
  | variableName (opening : Span)
  | variableEnd (opening : Span) (name : String) (nameSpan : Span)
  | directiveWord (opening : Span)
  | ifTest (opening word : Span)
  | ifNotTest (opening word : Span)
  | directiveEnd (opening : Span) (directive : Directive) (last : Span)
  | skipping (held : List Part)
  deriving DecidableEq, Repr

namespace State

/-- What the tag may go on with, the span that was read last, and the parts that
the tag amounts to if it goes on with something else. -/
def demand? : State → Option (Expectation × Span × List Part)
  | outside => none
  | skipping _ => none
  | variableName opening => some (.variableName, opening, [])
  | variableEnd _ _ nameSpan => some (.endOfVariable, nameSpan, [])
  | directiveWord opening => some (.ifOrEndIf, opening, [])
  | ifTest _ word => some (.variableName, word, [.openBroken])
  | ifNotTest _ word => some (.variableName, word, [.openBroken])
  | directiveEnd opening directive last =>
    some (.endOfDirective, last, [directive.finishBroken (opening.cover last)])

end State

/-- Reads a lexeme between tags. -/
def outsideStep (x : Lexeme) : List Part × State :=
  match x.kind with
  | .rawText => ([.text x.text x.span], .outside)
  | .beginTag .variable => ([], .variableName x.span)
  | .beginTag .directive => ([], .directiveWord x.span)
  | .unexpected | .unclosed _ _ => ([], .outside)
  | kind => ([.complaint ⟨.unexpectedToken kind, x.span⟩], .outside)

/-- Skips a lexeme of a tag that amounts to the parts held back. -/
def skipStep (held : List Part) (x : Lexeme) : List Part × State :=
  match x.kind with
  | .endTag _ => (held, .outside)
  | .rawText | .beginTag _ =>
    let (parts, next) := outsideStep x
    (held ++ parts, next)
  | _ => ([], .skipping held)

/-- Complains about a lexeme that does not fit, unless it is invalid by itself,
and leaves the tag. -/
def mismatchStep (wanted : Expectation) (held : List Part) (x : Lexeme) :
    List Part × State :=
  if x.kind.isInvalid then skipStep held x
  else
    let (parts, next) := skipStep held x
    (.complaint ⟨.expected wanted (some x.kind), x.span⟩ :: parts, next)

/-- Reads a lexeme that fits where the reader stands. -/
def fitStep? (s : State) (x : Lexeme) : Option (List Part × State) :=
  match s, x.kind with
  | .variableName opening, .identifier => some ([], .variableEnd opening x.text x.span)
  | .variableEnd opening name _, .endTag .variable =>
    some ([.reference name (opening.cover x.span)], .outside)
  | .directiveWord opening, .keyword .ifWord => some ([], .ifTest opening x.span)
  | .directiveWord opening, .keyword .endIfWord =>
    some ([], .directiveEnd opening .endIf x.span)
  | .directiveWord _, .keyword .elseWord =>
    some ([.complaint ⟨.elseUsed, x.span⟩], .skipping [])
  | .ifTest opening _, .identifier =>
    some ([], .directiveEnd opening (.ifName .whenTrue x.text x.span) x.span)
  | .ifTest opening _, .keyword .notWord => some ([], .ifNotTest opening x.span)
  | .ifNotTest opening _, .identifier =>
    some ([], .directiveEnd opening (.ifName .whenFalse x.text x.span) x.span)
  | .directiveEnd opening directive _, .endTag .directive =>
    some ([directive.finish (opening.cover x.span)], .outside)
  | _, _ => none

/-- Reads a lexeme inside a tag or between tags. -/
def step (s : State) (x : Lexeme) : List Part × State :=
  match s with
  | .outside => outsideStep x
  | .skipping held => skipStep held x
  | s =>
    match fitStep? s x with
    | some result => result
    | none =>
      match s.demand? with
      | some (wanted, _, held) => mismatchStep wanted held x
      | none => ([], s)

/-- What remains to be said at the end of the source, `stop` bytes from its
beginning. -/
def finish (stop : Nat) (s : State) : List Part :=
  match s with
  | .skipping held => held
  | s =>
    match s.demand? with
    | some (wanted, last, held) =>
      .complaint ⟨.expected wanted none, ⟨min last.stop stop, stop⟩⟩ :: held
    | none => []

/-- The parts that lexemes amount to, for a reader that stands in a state.
Whitespace means nothing, and a lexeme that is invalid by itself is complained
about first. -/
def ofLexemes (stop : Nat) (s : State) : List Lexeme → List Part
  | [] => finish stop s
  | x :: rest =>
    if x.kind = .whitespace then ofLexemes stop s rest
    else
      let (parts, next) := step s x
      (x.complaint?.map complaint).toList ++ parts ++ ofLexemes stop next rest

end Part

end Bulletin
