import Bulletin.Text.Columns
import Bulletin.Problem

/-!
Diagnostics: problems with the place where they were met. The place of a span is
found for any span whatever, whether or not it fits the source, and the caret
line below the excerpt has the width that the characters take on a display.
-/

namespace Bulletin

open Text

/-- Names the document that a message is about: a section of the forum, and the
number of a post in it where there is one. The names mean nothing here. -/
structure Document where
  area : String
  post? : Option Nat
  deriving DecidableEq, Repr

namespace Document

/-- The name of the document in messages. -/
def label (d : Document) : String :=
  match d.post? with
  | some post => s!"{d.area} post {post}"
  | none => d.area

end Document

/-- Where a diagnostic points. A place in a source has the offset that was asked
for, the line and the column of the character there, and an excerpt: the line
with carets below it. A control block that was read already is known by its
line numbers only. -/
inductive Place where
  | inSource (offset line column : Nat) (excerpt : String)
  | onLine (line : Nat)
  deriving DecidableEq, Repr

namespace Place

/-- The number of the line, counted from one, in which `text` ends. -/
def lineAfter (text : List Char) : Nat :=
  text.count '\n' + 1

/-- The part of the text after its last line break. -/
def lastLine (text : List Char) : List Char :=
  (text.reverse.takeWhile (· != '\n')).reverse

/-- The part of the text before its first line break. -/
def firstLine (text : List Char) : List Char :=
  text.takeWhile (· != '\n')

/-- A line without the carriage returns that end it. -/
def withoutReturns (line : List Char) : List Char :=
  (line.reverse.dropWhile (· == '\r')).reverse

/-- The number of carets below the text of a span: one for each column of its
first line, and at least one. A span that does not cover whole characters gets
one. -/
def carets (source : List Char) (span : Span) : Nat :=
  match slice? span source with
  | some text => max 1 (columns (firstLine text))
  | none => 1

/-- The place of a span in a source. An offset past the end counts as the end,
and one inside a character as the place before it. -/
def ofSpan (source : List Char) (span : Span) : Place :=
  let left := before span.start source
  let right := after span.start source
  let column := columns (lastLine left)
  let line := withoutReturns (lastLine left ++ firstLine right)
  let underline := List.replicate column ' ' ++ List.replicate (carets source span) '^'
  inSource span.start (lineAfter left) column (String.ofList (line ++ '\n' :: underline))

def offset? : Place → Option Nat
  | inSource offset _ _ _ => some offset
  | onLine _ => none

def line : Place → Nat
  | inSource _ line _ _ => line
  | onLine line => line

def column : Place → Nat
  | inSource _ _ column _ => column
  | onLine _ => 0

def excerpt? : Place → Option String
  | inSource _ _ _ excerpt => some excerpt
  | onLine _ => none

end Place

/-- A problem with the document and the place where it was met. -/
structure Diagnostic where
  problem : Problem
  document : Document
  place : Place
  deriving DecidableEq, Repr

namespace Diagnostic

/-- The diagnostic of a complaint about the source. -/
def ofComplaint (document : Document) (source : List Char) (c : Complaint) : Diagnostic where
  problem := c.problem
  document := document
  place := .ofSpan source c.span

def kind (d : Diagnostic) : ErrorKind := d.problem.kind

def message (d : Diagnostic) : String := d.problem.message

/-- The diagnostic as it is shown: where it is, what it says, and the excerpt
on the lines below. -/
def display (d : Diagnostic) : String :=
  let head := s!"{d.document.label} line {d.place.line}:{d.place.column} {d.message}"
  match d.place.excerpt? with
  | some excerpt => head ++ "\n" ++ excerpt
  | none => head

end Diagnostic

end Bulletin
