/-!
Texts are lists of characters, and places in them are byte offsets of their
UTF-8 form; a span has two of them. An offset that falls inside a character is
moved down to where the character begins, so that `before` and `after` always
split the text.
-/

namespace Bulletin

/-- A region of a source text, given by the byte offsets of its two ends in
UTF-8. Nothing is assumed of the two numbers: a span that a caller makes up may
be reversed, may leave the text and may cut a character in half. -/
structure Span where
  start : Nat
  stop : Nat
  deriving DecidableEq, Repr

namespace Span

/-- Whether the span covers no bytes. A reversed span covers none. -/
def isEmpty (s : Span) : Bool :=
  decide (s.stop ≤ s.start)

/-- The least span that covers both. -/
def cover (s t : Span) : Span where
  start := min s.start t.start
  stop := max s.stop t.stop

end Span

namespace Text

/-- The number of bytes of a text in UTF-8. -/
def byteLength : List Char → Nat
  | [] => 0
  | c :: rest => c.utf8Size + byteLength rest

@[simp]
theorem byteLength_nil : byteLength [] = 0 := rfl

@[simp]
theorem byteLength_cons (c : Char) (rest : List Char) :
    byteLength (c :: rest) = c.utf8Size + byteLength rest := rfl

@[simp]
theorem byteLength_append (left right : List Char) :
    byteLength (left ++ right) = byteLength left + byteLength right := by
  induction left with
  | nil => simp
  | cons c rest ih => simp [ih, Nat.add_assoc]

theorem byteLength_pos {text : List Char} (hText : text ≠ []) : 0 < byteLength text := by
  cases text with
  | nil => exact absurd rfl hText
  | cons c rest => exact Nat.add_pos_left c.utf8Size_pos _

theorem length_le_byteLength (text : List Char) : text.length ≤ byteLength text := by
  induction text with
  | nil => exact Nat.le_refl 0
  | cons c text ih =>
      have := c.utf8Size_pos
      rw [List.length_cons, byteLength_cons]
      omega

/-- The longest beginning of the text that ends at or before the byte offset. -/
def before : Nat → List Char → List Char
  | _, [] => []
  | offset, c :: rest =>
    if c.utf8Size ≤ offset then c :: before (offset - c.utf8Size) rest else []

/-- What follows `before`. -/
def after : Nat → List Char → List Char
  | _, [] => []
  | offset, c :: rest =>
    if c.utf8Size ≤ offset then after (offset - c.utf8Size) rest else c :: rest

@[simp]
theorem before_append_after (offset : Nat) (text : List Char) :
    before offset text ++ after offset text = text := by
  fun_induction before offset text with
  | case1 => rfl
  | case2 offset c rest hFits ih => simp [after, hFits, ih]
  | case3 offset c rest hFits => simp [after, hFits]

theorem length_after_le (offset : Nat) (text : List Char) :
    (after offset text).length ≤ text.length := by
  have hSplit := congrArg List.length (before_append_after offset text)
  simp only [List.length_append] at hSplit
  omega

/-- A prefix of the text is what lies before its own length. -/
@[simp]
theorem before_byteLength (left right : List Char) :
    before (byteLength left) (left ++ right) = left := by
  induction left with
  | nil =>
    cases right with
    | nil => rfl
    | cons c rest => simp [before, Nat.not_le.mpr c.utf8Size_pos]
  | cons c rest ih => simp [before, ih]

@[simp]
theorem after_byteLength (left right : List Char) :
    after (byteLength left) (left ++ right) = right := by
  have hSplit := before_append_after (byteLength left) (left ++ right)
  rw [before_byteLength] at hSplit
  exact List.append_cancel_left hSplit

theorem byteLength_before_le (offset : Nat) (text : List Char) :
    byteLength (before offset text) ≤ offset := by
  fun_induction before offset text with
  | case1 => exact Nat.zero_le _
  | case2 offset c rest hFits ih => simp only [byteLength_cons]; omega
  | case3 => exact Nat.zero_le _

/-- Whether the offset is one of the places between two characters of the text,
its two ends included. -/
def isBoundary (offset : Nat) (text : List Char) : Bool :=
  byteLength (before offset text) == offset

/-- The text that a span covers, if it covers whole characters of the text. -/
def slice? (span : Span) (text : List Char) : Option (List Char) :=
  if span.start ≤ span.stop && isBoundary span.start text && isBoundary span.stop text then
    some (before (span.stop - span.start) (after span.start text))
  else none

/-- A span that covers the middle of three texts selects it. -/
theorem slice?_append (left middle right : List Char) :
    slice? ⟨byteLength left, byteLength left + byteLength middle⟩
      (left ++ (middle ++ right)) = some middle := by
  have hStop : before (byteLength left + byteLength middle) (left ++ (middle ++ right)) =
      left ++ middle := by
    rw [← List.append_assoc, ← byteLength_append, before_byteLength]
  simp [slice?, isBoundary, hStop]

/-- Whether the first text begins the second, and if so what remains of it. -/
def stripped? : List Char → List Char → Option (List Char)
  | [], text => some text
  | _ :: _, [] => none
  | p :: pattern, c :: text => if p = c then stripped? pattern text else none

theorem stripped?_eq_some_iff {pattern text rest : List Char} :
    stripped? pattern text = some rest ↔ text = pattern ++ rest := by
  fun_induction stripped? pattern text with
  | case1 text => simp [eq_comm]
  | case2 => simp
  | case3 pattern c text ih => simp [ih]
  | case4 p pattern c text hDiffer => simp [Ne.symm hDiffer]

end Text

end Bulletin
