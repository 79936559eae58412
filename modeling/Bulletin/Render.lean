import Bulletin.Value
import Bulletin.Template

/-!
Writing a template out. First every conditional is decided, which leaves a
sequence of pieces; then the names among the pieces are replaced by the texts
of their values. The two steps may use different contexts.
-/

namespace Bulletin

/-- A piece of a template whose conditionals are decided. The span of a name is
that of its tag. -/
inductive Piece where
  | literal (text : String)
  | reference (name : String) (span : Span)
  deriving DecidableEq, Repr

namespace Template

/-- The error for a problem with the template's source. -/
def errorAt (t : Template) (problem : Problem) (span : Span) : Error :=
  .diagnosed (.ofComplaint t.document t.source ⟨problem, span⟩) []

/-- The value of a name. -/
def lookup (t : Template) (k : Context) (name : String) (span : Span) : Except Error Value :=
  match k.get? name with
  | some v => .ok v
  | none => .error (t.errorAt (.unresolved name) span)

/-- Whether the test of a conditional is true. A literal is true if it has
text; a conditional is no test. -/
def decideTest (t : Template) (k : Context) : Element → Except Error Bool
  | .variable name span => do return (← t.lookup k name span).isTruthy
  | .literal text _ => .ok (!text.isEmpty)
  | e@(.conditional _ _ _ _) => .error (.conditionalTest e)

/-- Goes on through the elements that wait, those of the innermost body that is
shown first. The pieces found so far are given last one first. Nothing inside a
conditional that is not shown plays a part. -/
def piecesFrom (t : Template) (k : Context) (found : List Piece) :
    List (List Element) → Except Error (List Piece)
  | [] => .ok found.reverse
  | [] :: outer => t.piecesFrom k found outer
  | (.literal text _ :: rest) :: outer => t.piecesFrom k (.literal text :: found) (rest :: outer)
  | (.variable name span :: rest) :: outer =>
    t.piecesFrom k (.reference name span :: found) (rest :: outer)
  | (.conditional polarity test body _ :: rest) :: outer => do
    if polarity.selects (← t.decideTest k test) then t.piecesFrom k found (body :: rest :: outer)
    else t.piecesFrom k found (rest :: outer)
termination_by waiting => sizeOf waiting

/-- Decides every conditional of the template. -/
def resolve (t : Template) (k : Context) : Except Error (List Piece) :=
  t.piecesFrom k [] [t.elements]

end Template

/-- Text that is written bit by bit. If something stops the writing, `stop?` says
what, and the chunks are what was written until then. -/
structure Writing where
  chunks : List String
  stop? : Option Error
  deriving Repr

namespace Writing

def nothing : Writing where
  chunks := []
  stop? := none

def text (s : String) : Writing where
  chunks := [s]
  stop? := none

def stopped (e : Error) : Writing where
  chunks := []
  stop? := some e

/-- Goes on with the second writing unless the first was stopped. -/
def append (w next : Writing) : Writing :=
  match w.stop? with
  | some _ => w
  | none => ⟨w.chunks ++ next.chunks, next.stop?⟩

instance : Append Writing := ⟨append⟩

/-- The whole text, or what stopped it. -/
def toString (w : Writing) : Except Error String :=
  match w.stop? with
  | some e => .error e
  | none => .ok ("".intercalate w.chunks)

end Writing

namespace Value

mutual

/-- Writes a value. The items of a list are separated by a comma and a space, and
no brackets are written. A map cannot be written, which is the error given. -/
def write (mapError : Error) : Value → Writing
  | nothing => .nothing
  | bool b => .text (if b then "true" else "false")
  | integer n => .text (toString n.toInt)
  | float x => .text x.text
  | text s => .text s
  | list items => writeItems mapError items
  | map _ => .stopped mapError

def writeItems (mapError : Error) : List Value → Writing
  | [] => .nothing
  | v :: rest => write mapError v ++ writeRest mapError rest

def writeRest (mapError : Error) : List Value → Writing
  | [] => .nothing
  | v :: rest => .text ", " ++ write mapError v ++ writeRest mapError rest

end

end Value

namespace Template

/-- Writes a piece. -/
def writePiece (t : Template) (k : Context) : Piece → Writing
  | .literal text => .text text
  | .reference name span =>
    match t.lookup k name span with
    | .error e => .stopped e
    | .ok v => v.write (t.errorAt (.mapRendered name) span)

/-- Writes pieces one after the other. -/
def write (t : Template) (k : Context) : List Piece → Writing
  | [] => .nothing
  | p :: rest => t.writePiece k p ++ t.write k rest

/-- The text of the pieces. -/
def renderPieces (t : Template) (k : Context) (pieces : List Piece) : Except Error String :=
  (t.write k pieces).toString

/-- The text of the template. -/
def render (t : Template) (k : Context) : Except Error String := do
  t.renderPieces k (← t.resolve k)

end Template

end Bulletin
