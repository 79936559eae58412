import Bulletin.Error

/-!
Putting a conditional together by hand, element by element. The first element is
what it tests.
-/

namespace Bulletin

/-- A conditional that is being put together. The first element added is its
test, the others are its body. -/
structure Draft where
  polarity : Polarity
  span : Span
  test? : Option Element
  body : List Element

namespace Draft

/-- A conditional without a test, opened by the directive at the span. -/
def start (polarity : Polarity) (span : Span) : Draft where
  polarity := polarity
  span := span
  test? := none
  body := []

def add (d : Draft) (e : Element) : Draft :=
  match d.test? with
  | none => { d with test? := some e }
  | some _ => { d with body := d.body ++ [e] }

/-- The test, or an error if none was added yet. -/
def test (d : Draft) : Except Error Element :=
  match d.test? with
  | some e => .ok e
  | none => .error (.unsetTest d.polarity d.span.start)

/-- The finished conditional. It needs a test. -/
def build (d : Draft) : Except Error Element := do
  return .conditional d.polarity (← d.test) d.body d.span

/-- Once there is a test, what is added goes to the body. -/
theorem foldl_add_of_test {d : Draft} {test : Element} (hTest : d.test? = some test)
    (es : List Element) : es.foldl add d = { d with body := d.body ++ es } := by
  induction es generalizing d with
  | nil => simp
  | cons e rest ih =>
    have hAdd : d.add e = { d with body := d.body ++ [e] } := by simp [add, hTest]
    rw [List.foldl_cons, hAdd, ih (by exact hTest)]
    simp

/-- The first of the elements is the test and the others are the body, in their
order. Without elements there is no conditional. -/
theorem build_foldl_add (polarity : Polarity) (span : Span) (es : List Element) :
    (es.foldl add (start polarity span)).build = match es with
      | [] => .error (.unsetTest polarity span.start)
      | test :: body => .ok (.conditional polarity test body span) := by
  cases es with
  | nil => rfl
  | cons test body =>
    have hTest : ((start polarity span).add test).test? = some test := rfl
    rw [List.foldl_cons, foldl_add_of_test hTest]
    rfl

end Draft

end Bulletin
