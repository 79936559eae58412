import Bulletin.Lexer
import Bulletin.Error

/-!
Tokens, which are lexemes with the line and the column where they begin, and
engines, which read sources: the markup and the mode are all that a source needs
to be cut into tokens. The tokens are handed out one by one or all at once, and
invalid ones are reported on the way. The place is carried along from lexeme to
lexeme, so that only the current line is looked at.
-/

namespace Bulletin

open Text

/-- A place in a source as a reader sees it: the number of the line, from one,
and the text of that line so far, last character first. -/
structure Position where
  line : Nat
  lineText : List Char

namespace Position

def start : Position where
  line := 1
  lineText := []

/-- The place after reading the text. -/
def advance (p : Position) (text : List Char) : Position :=
  text.foldl (fun p c =>
    if c = '\n' then ⟨p.line + 1, []⟩ else ⟨p.line, c :: p.lineText⟩) p

/-- The columns before this place on its line. -/
def column (p : Position) : Nat :=
  columns p.lineText.reverse

end Position

/-- A lexeme with the line and the column where it begins. -/
structure Token extends Lexeme where
  line : Nat
  column : Nat
  deriving DecidableEq, Repr

namespace Token

/-- Gives successive lexemes their lines and columns. -/
def locate (p : Position) : List Lexeme → List Token
  | [] => []
  | x :: rest => ⟨x, p.line, p.column⟩ :: locate (p.advance x.text.toList) rest

def complaint? (t : Token) : Option Complaint :=
  t.toLexeme.complaint?

def isWhitespace (t : Token) : Bool :=
  decide (t.kind = .whitespace)

end Token

/-- The way documents are read: how tags are written, and what happens to
problems. -/
structure Engine where
  markup : Markup
  mode : Mode
  deriving DecidableEq

/-- The tokens of a source that were not handed out yet: how the source is read,
where its reader stands, and the line and the column of that place. -/
structure TokenStream where
  engine : Engine
  source : List Char
  lexer : Lexer
  position : Position

namespace TokenStream

/-- A lexeme that begins where the stream stands. -/
def token (s : TokenStream) (x : Lexeme) : Token :=
  ⟨x, s.position.line, s.position.column⟩

/-- The stream behind a lexeme, where its reader goes on. -/
def onward (s : TokenStream) (x : Lexeme) (lexer : Lexer) : TokenStream :=
  { s with lexer, position := s.position.advance x.text.toList }

/-- The stream after giving up the rest of its source. -/
def exhausted (s : TokenStream) : TokenStream :=
  { s with lexer := s.lexer.exhausted }

/-- The next token, or nothing when none is left. A token that stands for
invalid input is reported to the log. If that ends the pass, the rest of the
source is given up and the log is empty. -/
def next (s : TokenStream) (log : Log) :
    Except Error (Option Token) × TokenStream × Log :=
  match s.lexer.step s.engine.markup with
  | none => (.ok none, s, log)
  | some (x, lexer) =>
    match x.complaint? with
    | none => (.ok (some (s.token x)), s.onward x lexer, log)
    | some c =>
      match log.report s.engine.mode s.source c with
      | .ok log => (.ok (some (s.token x)), s.onward x lexer, log)
      | .error e => (.error e, s.exhausted, log.cleared)

theorem next_remaining_lt {s onward : TokenStream} {log log' : Log} {t : Token}
    (hNext : s.next log = (.ok (some t), onward, log')) :
    onward.lexer.remaining < s.lexer.remaining := by
  unfold next at hNext
  split at hNext
  · cases hNext
  · next x lexer hStep =>
    have hLess := Lexer.step_remaining_lt hStep
    split at hNext
    · cases hNext
      exact hLess
    · split at hNext <;> cases hNext
      exact hLess

/-- The next token that is not whitespace. -/
def nextVisible (s : TokenStream) (log : Log) :
    Except Error (Option Token) × TokenStream × Log :=
  match _hNext : s.next log with
  | (.ok (some t), onward, log) =>
    if t.isWhitespace then onward.nextVisible log else (.ok (some t), onward, log)
  | last => last
termination_by s.lexer.remaining
decreasing_by exact next_remaining_lt _hNext

end TokenStream

namespace Engine

/-- The tokens of the source, whitespace included. -/
def tokens (g : Engine) (source : List Char) : List Token :=
  Token.locate .start (g.markup.lexemes source)

/-- Hands out the tokens of the source one by one. -/
def stream (g : Engine) (source : List Char) : TokenStream where
  engine := g
  source := source
  lexer := .start source
  position := .start

/-- Reads all tokens of the source and reports the invalid ones. -/
def tokenize (g : Engine) (source : List Char) (log : Log) :
    Except Error (List Token) × Log :=
  log.settle do
    let tokens := g.tokens source
    let log ← (tokens.filterMap Token.complaint?).foldlM (Log.report g.mode source) log
    return (tokens, log)

end Engine

end Bulletin
