import Bulletin.Diagnostic
import Bulletin.Element
import Bulletin.Value.Serial

/-!
Why reading, rendering or converting can fail. An error is its cause; the
wording follows from it. The log of a pass over a document keeps the diagnostics
that no error has taken yet: one stays in the log until somebody takes it out,
alone or as part of an error, and is then gone. The mode of a reader says what
happens to a problem.
-/

namespace Bulletin

/-- Why output could not be written. Either the receiver refused with a reason
of its own, or it stopped taking anything. -/
inductive WriteFailure where
  | refused (reason : String)
  | stalled
  deriving DecidableEq, Repr

namespace WriteFailure

def message : WriteFailure → String
  | refused reason => reason
  | stalled => "failed to write whole buffer"

end WriteFailure

/-- Why something failed. Problems with a document come as diagnostics, of which
there is at least one. -/
inductive Error where
  | diagnosed (first : Diagnostic) (others : List Diagnostic)
  | unsetTest (polarity : Polarity) (start : Nat)
  | conditionalTest (test : Element)
  | unrepresentable (cause : Unrepresentable)
  | unwritten (cause : WriteFailure)
  deriving Repr

namespace Error

/-- The kind of the error, which for diagnostics is that of the first. -/
def kind : Error → ErrorKind
  | diagnosed first _ => first.kind
  | unsetTest _ _ => .unsetTest
  | conditionalTest _ => .render
  | unrepresentable _ => .serialize
  | unwritten _ => .output

def diagnostics : Error → List Diagnostic
  | diagnosed first others => first :: others
  | _ => []

/-- The whole message. Diagnostics are shown one below the other. -/
def message : Error → String
  | diagnosed first others => "\n".intercalate ((first :: others).map Diagnostic.display)
  | unsetTest polarity start =>
    s!"`{polarity.head}` conditional at byte {start} has no test element"
  | conditionalTest test =>
    s!"`{test.label}` cannot be used as the test of another conditional"
  | unrepresentable cause => cause.message
  | unwritten cause => s!"failed to write output: {cause.message}"

/-- The message below a line with the kind of the error. -/
def report (e : Error) : String :=
  s!"{e.kind.name} error\n{e.message}"

/-- The error for some diagnostics, if there are any. -/
def ofDiagnostics? : List Diagnostic → Option Error
  | [] => none
  | first :: others => some (diagnosed first others)

end Error

/-- How a reader treats what is wrong: it stops at the first problem, or keeps a
record and goes on. -/
inductive Mode where
  | bailOut
  | accumulate
  deriving DecidableEq, Repr

/-- The diagnostics about a document that nobody has taken yet, in the order in
which they were recorded. -/
structure Log where
  document : Document
  held : List Diagnostic
  deriving DecidableEq, Repr

namespace Log

def empty (document : Document) : Log where
  document := document
  held := []

def hasErrors (log : Log) : Bool :=
  !log.held.isEmpty

/-- Records a diagnostic. -/
def record (log : Log) (d : Diagnostic) : Log :=
  { log with held := log.held ++ [d] }

/-- Records a complaint about the source. -/
def complain (log : Log) (source : List Char) (c : Complaint) : Log :=
  log.record (.ofComplaint log.document source c)

/-- The log without its diagnostics. -/
def cleared (log : Log) : Log :=
  { log with held := [] }

/-- Takes all diagnostics out. -/
def drain (log : Log) : List Diagnostic × Log :=
  (log.held, log.cleared)

/-- Takes all diagnostics out as one error, if there are any. -/
def takeError (log : Log) : Option Error × Log :=
  (Error.ofDiagnostics? log.held, log.cleared)

/-- Fails with everything that is held, if there is anything. -/
def raise (log : Log) : Except Error Unit × Log :=
  match log.takeError with
  | (some e, log) => (.error e, log)
  | (none, log) => (.ok (), log)

/-- Records a complaint as the mode demands. In bail-out mode the complaint and
all that was held before become an error. -/
def report (mode : Mode) (source : List Char) (log : Log) (c : Complaint) :
    Except Error Log :=
  let log := log.complain source c
  match mode with
  | .accumulate => .ok log
  | .bailOut =>
    match log.takeError with
    | (some e, _) => .error e
    | (none, log) => .ok log

/-- The outcome of a pass that was given the log. A pass that failed has taken
out all that was held. -/
def settle {α : Type} (log : Log) : Except Error (α × Log) → Except Error α × Log
  | .ok (a, log) => (.ok a, log)
  | .error e => (.error e, log.cleared)

end Log

end Bulletin
