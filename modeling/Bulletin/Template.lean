import Bulletin.Engine
import Bulletin.Template.Part

/-!
Templates, the documents after reading. The parts of a source are put together
to a tree with a stack of the conditionals that still wait for their `ENDIF`.
-/

namespace Bulletin

open Text

/-- A conditional that waits for its `ENDIF`, with the elements of its body so
far, last one first. The body of a broken one is not kept. -/
inductive Scope where
  | conditional (polarity : Polarity) (name : String) (nameSpan span : Span)
      (body : List Element)
  | broken

/-- The tree as far as it was read: the open conditionals, innermost first, and
the elements outside of all of them, last one first. -/
structure Assembly where
  log : Log
  scopes : List Scope
  elements : List Element

namespace Assembly

def start (log : Log) : Assembly where
  log := log
  scopes := []
  elements := []

/-- Adds an element to the innermost open conditional. -/
def add (a : Assembly) (e : Element) : Assembly :=
  match a.scopes with
  | [] => { a with elements := e :: a.elements }
  | .broken :: _ => a
  | .conditional polarity name nameSpan span body :: outer =>
    { a with scopes := .conditional polarity name nameSpan span (e :: body) :: outer }

def enter (a : Assembly) (scope : Scope) : Assembly :=
  { a with scopes := scope :: a.scopes }

/-- Reports a complaint about the source, which ends the reading in bail-out
mode. -/
def report (mode : Mode) (source : List Char) (a : Assembly) (c : Complaint) :
    Except Error Assembly := do
  return { a with log := ← a.log.report mode source c }

/-- Closes the innermost open conditional with the `ENDIF` at the span. -/
def close (mode : Mode) (source : List Char) (a : Assembly) (span : Span) :
    Except Error Assembly :=
  match a.scopes with
  | [] => a.report mode source ⟨.strayEndIf, span⟩
  | .broken :: outer => .ok { a with scopes := outer }
  | .conditional polarity name nameSpan opening body :: outer =>
    .ok ({ a with scopes := outer }.add
      (.conditional polarity (.variable name nameSpan) body.reverse (opening.cover span)))

/-- Takes in the next part of the source. -/
def step (mode : Mode) (source : List Char) (a : Assembly) : Part → Except Error Assembly
  | .complaint c => a.report mode source c
  | .text text span => .ok (a.add (.literal text span))
  | .reference name span => .ok (a.add (.variable name span))
  | .openIf polarity name nameSpan span =>
    .ok (a.enter (.conditional polarity name nameSpan span []))
  | .openBroken => .ok (a.enter .broken)
  | .close span => a.close mode source span

/-- The complaint about a conditional that was never closed. A broken one was
complained about already. -/
def unclosed? : Scope → Option Complaint
  | .conditional _ name nameSpan _ _ => some ⟨.unclosedIf name, nameSpan⟩
  | .broken => none

/-- Ends the reading. The conditionals that are still open are reported from the
outermost in. -/
def finish (mode : Mode) (source : List Char) (a : Assembly) :
    Except Error (List Element × Log) := do
  let complaints := a.scopes.reverse.filterMap unclosed?
  let log ← complaints.foldlM (Log.report mode source) a.log
  return (a.elements.reverse, log)

end Assembly

/-- A document after reading. -/
structure Template where
  document : Document
  source : List Char
  elements : List Element

namespace Template

/-- Equality of templates: the same document, source and elements. -/
def equal (t t' : Template) : Bool :=
  t.document == t'.document && t.source == t'.source &&
    Element.equalAll t.elements t'.elements

instance : BEq Template := ⟨equal⟩

end Template

namespace Engine

/-- The parts of a source. -/
def parts (g : Engine) (source : List Char) : List Part :=
  Part.ofLexemes (byteLength source) .outside (g.markup.lexemes source)

/-- Reads a document and reports what is wrong with it to the log. In
accumulate mode reading never fails, and the template has what could be read. -/
def parseWith (g : Engine) (source : List Char) (log : Log) :
    Except Error Template × Log :=
  log.settle do
    let a ← (g.parts source).foldlM (Assembly.step g.mode source) (.start log)
    let (elements, log) ← a.finish g.mode source
    return (⟨log.document, source, elements⟩, log)

/-- Reads a document. Whatever is wrong with it is the error. -/
def parse (g : Engine) (source : List Char) (document : Document) :
    Except Error Template := do
  let (result, log) := g.parseWith source (.empty document)
  let template ← result
  let _ ← log.raise.1
  return template

end Engine

end Bulletin
