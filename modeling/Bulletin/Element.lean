import Bulletin.Text.Bytes

/-!
The tree of a document: texts, variables and conditionals, each with the part of
the source that it came from.
-/

namespace Bulletin

/-- Whether a conditional shows its body when its test is true or when it is
false. -/
inductive Polarity where
  | whenTrue
  | whenFalse
  deriving DecidableEq, Repr

namespace Polarity

/-- Whether a test with this outcome shows the body. -/
def selects (p : Polarity) (truthy : Bool) : Bool :=
  match p with
  | whenTrue => truthy
  | whenFalse => !truthy

/-- The head of a conditional up to its test. -/
def head : Polarity → String
  | whenTrue => "IF"
  | whenFalse => "IF NOT"

end Polarity

/-- A piece of a document. A variable covers its whole tag; the test of a
conditional is an element too, and covers the name only when it was read from a
document. -/
inductive Element where
  | literal (text : String) (span : Span)
  | variable (name : String) (span : Span)
  | conditional (polarity : Polarity) (test : Element) (body : List Element) (span : Span)
  deriving Repr

namespace Element

instance : Inhabited Element := ⟨literal "" ⟨0, 0⟩⟩

def span : Element → Span
  | .literal _ span => span
  | .variable _ span => span
  | .conditional _ _ _ span => span

/-- The element in messages: its text, its name, or the head of the
conditional. -/
def label : Element → String
  | .literal text _ => text
  | .variable name _ => name
  | .conditional polarity test _ _ => polarity.head ++ " " ++ test.label

mutual

/-- Equality of elements, spans included. -/
def equal : Element → Element → Bool
  | .literal t s, .literal t' s' => t == t' && s == s'
  | .variable n s, .variable n' s' => n == n' && s == s'
  | .conditional p t b s, .conditional p' t' b' s' =>
    p == p' && equal t t' && equalAll b b' && s == s'
  | _, _ => false

def equalAll : List Element → List Element → Bool
  | [], [] => true
  | e :: es, e' :: es' => equal e e' && equalAll es es'
  | _, _ => false

end

instance : BEq Element := ⟨equal⟩

end Element

end Bulletin
