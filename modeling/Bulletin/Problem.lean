import Bulletin.Lexer
import Bulletin.Control.Directive

/-!
Everything that can be wrong at a place of a document, with its sort and its
wording.
-/

namespace Bulletin

/-- The sort of an error. -/
inductive ErrorKind where
  | lexical
  | grammar
  | unsetTest
  | unresolvedBinding
  | directive
  | audit
  | render
  | serialize
  | output
  deriving DecidableEq, Repr

namespace ErrorKind

/-- The name of the kind in exported data. -/
def name : ErrorKind → String
  | lexical => "Lexical"
  | grammar => "Syntax"
  | unsetTest => "UnsetTest"
  | unresolvedBinding => "UnresolvedBinding"
  | directive => "Directive"
  | audit => "Audit"
  | render => "Render"
  | serialize => "Serialize"
  | output => "Io"

/-- The name of the kind in messages. -/
def describe : ErrorKind → String
  | lexical => "lexical error"
  | grammar => "syntax error"
  | unsetTest => "unset test"
  | unresolvedBinding => "unresolved binding"
  | directive => "directive error"
  | audit => "audit failure"
  | render => "render error"
  | serialize => "serialize error"
  | output => "io error"

end ErrorKind

/-- What may stand at a place inside a tag. -/
inductive Expectation where
  | variableName
  | endOfVariable
  | ifOrEndIf
  | endOfDirective
  deriving DecidableEq, Repr

namespace Expectation

def describe : Expectation → String
  | variableName => "a variable name"
  | endOfVariable => "end of variable"
  | ifOrEndIf => "`IF` or `ENDIF`"
  | endOfDirective => "end of directive"

end Expectation

/-- Something wrong at a place of a document. The last constructor is for
remarks that a caller words on its own. -/
inductive Problem where
  | unclosedTag (kind : TagKind)
  | unexpectedText (text : String)
  | unexpectedToken (found : TokenKind)
  | expected (wanted : Expectation) (found? : Option TokenKind)
  | elseUsed
  | strayEndIf
  | unclosedIf (test : String)
  | unresolved (name : String)
  | mapRendered (name : String)
  | control (fault : Control.Fault)
  | dangling (reference : Control.Reference)
  | remark (kind : ErrorKind) (text : String)
  deriving DecidableEq, Repr

namespace Problem

def kind : Problem → ErrorKind
  | unclosedTag _ | unexpectedText _ => .lexical
  | unexpectedToken _ | expected _ _ | elseUsed | strayEndIf | unclosedIf _ => .grammar
  | unresolved _ => .unresolvedBinding
  | mapRendered _ => .render
  | control _ => .directive
  | dangling _ => .audit
  | remark kind _ => kind

def message : Problem → String
  | unclosedTag .variable => "unclosed variable"
  | unclosedTag .directive => "unclosed directive"
  | unexpectedText text => s!"unexpected `{text}`"
  | unexpectedToken found => s!"unexpected {found.describe}"
  | expected wanted (some found) => s!"expected {wanted.describe}, found {found.describe}"
  | expected wanted none => s!"expected {wanted.describe}, found end of input"
  | elseUsed => "`ELSE` is not supported, use a separate `IF NOT` block"
  | strayEndIf => "unexpected `ENDIF`, there is no open `IF`"
  | unclosedIf test => s!"unclosed `IF` block testing `{test}`"
  | unresolved name => s!"unresolved binding `{name}`"
  | mapRendered name => s!"`{name}` is a map and cannot be rendered"
  | control fault => fault.message
  | dangling reference => reference.message
  | remark _ text => text

end Problem

/-- A problem with the part of the source it concerns. -/
structure Complaint where
  problem : Problem
  span : Span
  deriving DecidableEq, Repr

/-- What is wrong with the lexeme itself. A run of unexpected characters is
pointed at where it stands; a tag that was left open, where it begins. -/
def Lexeme.complaint? (x : Lexeme) : Option Complaint :=
  match x.kind with
  | .unexpected => some ⟨.unexpectedText x.text, x.span⟩
  | .unclosed kind opening => some ⟨.unclosedTag kind, opening⟩
  | _ => none

end Bulletin
