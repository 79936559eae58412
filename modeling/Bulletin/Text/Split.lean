import Bulletin.Text.Bytes
import Bulletin.Text.CharSet

/-!
Blank characters and texts without them, and cutting a text at a separator.
-/

namespace Bulletin.Text

/-- The characters with the Unicode property White_Space. Control blocks ignore
them; inside a tag only the tab and the space count as blank. -/
def blankSet : CharSet where
  ranges :=
    [(0x0009, 0x000D), (0x0020, 0x0020), (0x0085, 0x0085), (0x00A0, 0x00A0),
     (0x1680, 0x1680), (0x2000, 0x200A), (0x2028, 0x2029), (0x202F, 0x202F),
     (0x205F, 0x205F), (0x3000, 0x3000)]

def isBlank (c : Char) : Bool :=
  blankSet.contains c

/-- A text without the blank characters at its two ends. -/
def trim (text : List Char) : List Char :=
  let fromLeft := text.dropWhile isBlank
  (fromLeft.reverse.dropWhile isBlank).reverse

/-- A text without any of its blank characters. -/
def squeeze (text : List Char) : List Char :=
  text.filter fun c => !isBlank c

/-- The parts of a text between the occurrences of a separator. There is always
one more part than there are separators. -/
def splitAll (separator : Char) : List Char → List (List Char)
  | [] => [[]]
  | c :: rest =>
    if c = separator then [] :: splitAll separator rest
    else
      match splitAll separator rest with
      | [] => [[c]]
      | part :: parts => (c :: part) :: parts

/-- There is always a part. -/
theorem splitAll_ne_nil (separator : Char) (text : List Char) : splitAll separator text ≠ [] := by
  fun_induction splitAll separator text <;> simp

/-- Putting the separator between the parts gives the text back. -/
theorem intercalate_splitAll (separator : Char) (text : List Char) :
    [separator].intercalate (splitAll separator text) = text := by
  fun_induction splitAll separator text with
  | case1 => rfl
  | case2 rest ih =>
    obtain ⟨part, parts, hParts⟩ := List.exists_cons_of_ne_nil (splitAll_ne_nil separator rest)
    rw [hParts] at ih ⊢
    simp_all [List.intercalate]
  | case3 c rest hOther hNone => exact absurd hNone (splitAll_ne_nil separator rest)
  | case4 c rest hOther part parts hParts ih =>
    rw [hParts] at ih
    cases parts <;> simp_all [List.intercalate]

/-- No part holds the separator. -/
theorem not_mem_of_mem_splitAll {separator : Char} {text part : List Char}
    (hPart : part ∈ splitAll separator text) : separator ∉ part := by
  fun_induction splitAll separator text generalizing part with
  | case1 => simp_all
  | case2 rest ih =>
    rcases List.mem_cons.mp hPart with rfl | hPart
    · simp
    · exact ih hPart
  | case3 c rest hOther hNone => exact absurd hNone (splitAll_ne_nil separator rest)
  | case4 c rest hOther first parts hParts ih =>
    rw [hParts] at ih
    rcases List.mem_cons.mp hPart with rfl | hPart
    · simp only [List.mem_cons, not_or]
      exact ⟨Ne.symm hOther, ih (List.mem_cons_self ..)⟩
    · exact ih (List.mem_cons_of_mem _ hPart)

/-- The parts of a text before and after the first separator, if it has one. -/
def splitFirst? (separator : Char) : List Char → Option (List Char × List Char)
  | [] => none
  | c :: rest =>
    if c = separator then some ([], rest)
    else (splitFirst? separator rest).map fun (left, right) => (c :: left, right)

theorem splitFirst?_eq_some_iff {separator : Char} {text left right : List Char} :
    splitFirst? separator text = some (left, right) ↔
      text = left ++ separator :: right ∧ separator ∉ left := by
  induction text generalizing left with
  | nil => simp [splitFirst?]
  | cons c rest ih =>
    by_cases hHere : c = separator
    · subst hHere
      cases left with
      | nil => simp [splitFirst?, eq_comm]
      | cons d left =>
        constructor
        · simp [splitFirst?]
        · rintro ⟨hText, hLeft⟩
          simp only [List.cons_append, List.cons.injEq] at hText
          simp only [List.mem_cons, not_or] at hLeft
          exact absurd hText.1 hLeft.1
    · cases left with
      | nil => simp [splitFirst?, hHere]
      | cons d left =>
        simp only [splitFirst?, if_neg hHere, Option.map_eq_some_iff, Prod.mk.injEq,
          List.cons.injEq, List.cons_append, List.mem_cons, not_or]
        constructor
        · rintro ⟨⟨l, r⟩, hSplit, ⟨rfl, rfl⟩, rfl⟩
          obtain ⟨hText, hLeft⟩ := ih.mp hSplit
          exact ⟨⟨rfl, hText⟩, Ne.symm hHere, hLeft⟩
        · rintro ⟨⟨rfl, hText⟩, _, hLeft⟩
          exact ⟨(left, right), ih.mpr ⟨hText, hLeft⟩, ⟨rfl, rfl⟩, rfl⟩

end Bulletin.Text
