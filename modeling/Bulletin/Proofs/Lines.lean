import Mathlib.Data.List.DropRight
import Mathlib.Data.List.Infix
import Bulletin.Control.Scan

/-! Where the lines of a control block stand in its text, and what each of them
says. A line is numbered by its position among the parts between line breaks, and
a place by the line breaks before it. The two agree, whatever ends the lines. -/
namespace Bulletin.Text

theorem before_byteLength_add (k : Nat) (left rest : List Char) :
    before (byteLength left + k) (left ++ rest) = left ++ before k rest := by
  induction left with
  | nil => simp
  | cons c left ih =>
      have hFits : c.utf8Size ≤ byteLength (c :: left) + k := by
        rw [byteLength_cons]
        omega
      have hLess : byteLength (c :: left) + k - c.utf8Size = byteLength left + k := by
        rw [byteLength_cons]
        omega
      rw [List.cons_append, before, if_pos hFits, hLess, ih, List.cons_append]

/-- An offset that does not leave the first text has nothing of the second
before it. -/
theorem before_append_isPrefix {k : Nat} {first : List Char} (hk : k ≤ byteLength first)
    (second : List Char) : before k (first ++ second) <+: first := by
  induction first generalizing k with
  | nil =>
      obtain rfl : k = 0 := Nat.le_zero.mp hk
      cases second with
      | nil => simp [before]
      | cons c rest => simp [before, Nat.not_le.mpr c.utf8Size_pos]
  | cons c first ih =>
      rw [byteLength_cons] at hk
      rw [List.cons_append, before]
      split
      · exact (List.prefix_cons_inj c).mpr (ih (by omega))
      · exact List.nil_prefix

/-- Trimming at the end does not touch the first character that is not blank. -/
theorem head?_trim (text : List Char) : (trim text).head? = (text.dropWhile isBlank).head? := by
  unfold trim
  cases hLeft : text.dropWhile isBlank with
  | nil => rfl
  | cons c rest =>
      have hc : isBlank c = false := by
        have hHead := List.head?_dropWhile_not isBlank text
        simpa [hLeft] using hHead
      simp only [List.reverse_cons, List.dropWhile_append]
      split <;> simp [hc]

end Bulletin.Text

namespace Bulletin.Control

open Text

/-- The line stands in the text, where its offset and its number say. -/
def Line.StandsIn (text : List Char) (line : Line) : Prop :=
  ∃ left right, text = left ++ (line.text ++ right) ∧ '\n' ∉ line.text ∧
    line.offset = byteLength left ∧ line.number = Place.lineAfter left

theorem withoutReturns_isPrefix (text : List Char) : Place.withoutReturns text <+: text :=
  List.rdropWhile_prefix (· == '\r') text

theorem lineAfter_append (left right : List Char) :
    Place.lineAfter (left ++ right) = Place.lineAfter left + right.count '\n' := by
  simp only [Place.lineAfter, List.count_append]
  omega

namespace Line

theorem standsIn_of_mem_enumerate {parts : List (List Char)} {left : List Char} {line : Line}
    (hParts : ∀ part ∈ parts, '\n' ∉ part)
    (hLine : line ∈ enumerate (Place.lineAfter left) (byteLength left) parts) :
    line.StandsIn (left ++ ['\n'].intercalate parts) := by
  induction parts generalizing left with
  | nil => simp [enumerate] at hLine
  | cons part rest ih =>
      have hPart : '\n' ∉ part := hParts part (List.mem_cons_self ..)
      obtain ⟨returns, hReturns⟩ := withoutReturns_isPrefix part
      obtain ⟨tail, hTail⟩ : ∃ tail, ['\n'].intercalate (part :: rest) = part ++ tail := by
        cases rest <;> simp [List.intercalate]
      rw [enumerate, List.mem_cons] at hLine
      rcases hLine with rfl | hLine
      · refine ⟨left, returns ++ tail, ?_, ?_, rfl, rfl⟩
        · rw [hTail, ← List.append_assoc _ returns, hReturns]
        · exact fun hBreak => hPart ((withoutReturns_isPrefix part).subset hBreak)
      · -- The next part begins behind the line break after this one.
        have hOffset : byteLength left + byteLength part + 1 =
            byteLength (left ++ (part ++ ['\n'])) := by
          have hBreak : '\n'.utf8Size = 1 := by decide
          simp only [byteLength_append, byteLength_cons, byteLength_nil, hBreak]
          omega
        have hNumber : Place.lineAfter left + 1 = Place.lineAfter (left ++ (part ++ ['\n'])) := by
          rw [lineAfter_append, List.count_append, List.count_eq_zero_of_not_mem hPart]
          rfl
        rw [hOffset, hNumber] at hLine
        have hStands := ih (fun p hp => hParts p (List.mem_cons_of_mem _ hp)) hLine
        cases rest with
        | nil => simp [enumerate] at hLine
        | cons next rest => simpa [List.intercalate] using hStands

theorem standsIn_of_mem_all {text : List Char} {line : Line} (hLine : line ∈ all text) :
    line.StandsIn text := by
  have hStands : line.StandsIn ([] ++ ['\n'].intercalate (splitAll '\n' text)) :=
    standsIn_of_mem_enumerate (fun _ hPart => not_mem_of_mem_splitAll hPart) hLine
  rwa [List.nil_append, intercalate_splitAll] at hStands

/-- The span begins on the line, or at its end. -/
def Holds (line : Line) (span : Span) : Prop :=
  line.offset ≤ span.start ∧ span.start ≤ line.offset + byteLength line.text

/-- The place of a span that a line holds has the number of the line. -/
theorem StandsIn.line_ofSpan {text : List Char} {line : Line} {span : Span}
    (hStands : line.StandsIn text) (hHolds : line.Holds span) :
    (Place.ofSpan text span).line = line.number := by
  obtain ⟨left, right, rfl, hBreak, hOffset, hNumber⟩ := hStands
  obtain ⟨hFrom, hTo⟩ := hHolds
  obtain ⟨k, hk⟩ := Nat.exists_eq_add_of_le hFrom
  have hFits : k ≤ byteLength line.text := by omega
  have hPrefix := before_append_isPrefix hFits right
  have hCount : (before k (line.text ++ right)).count '\n' = 0 :=
    List.count_eq_zero_of_not_mem fun h => hBreak (hPrefix.subset h)
  change Place.lineAfter (before span.start _) = _
  rw [hk, hOffset, before_byteLength_add, lineAfter_append, hCount, hNumber, Nat.add_zero]

theorem byteLength_takeWhile_le (p : Char → Bool) (text : List Char) :
    byteLength (text.takeWhile p) ≤ byteLength text := by
  have hSplit := congrArg byteLength (List.takeWhile_append_dropWhile (p := p) (l := text))
  rw [byteLength_append] at hSplit
  omega

theorem holds_trimmedSpan (line : Line) : line.Holds (trimmedSpan line.offset line.text) := by
  have hBlank := byteLength_takeWhile_le isBlank line.text
  simp only [Holds, trimmedSpan]
  omega

theorem holds_keySpan {line : Line} {key value : List Char}
    (hText : line.text = key ++ '=' :: value) : line.Holds (trimmedSpan line.offset key) := by
  have hBlank := byteLength_takeWhile_le isBlank key
  simp only [Holds, trimmedSpan, hText, byteLength_append]
  omega

theorem holds_valueSpan {line : Line} {key value : List Char}
    (hText : line.text = key ++ '=' :: value) :
    line.Holds (trimmedSpan (line.offset + byteLength key + 1) value) := by
  have hBlank := byteLength_takeWhile_le isBlank value
  have hEquals : '='.utf8Size = 1 := by decide
  simp only [Holds, trimmedSpan, hText, byteLength_append, byteLength_cons, hEquals]
  omega

/-- The line is blank, or a comment behind some blanks. -/
def IsSilent (line : Line) : Prop :=
  (∀ c ∈ line.text, isBlank c) ∨
    ∃ blanks comment, line.text = blanks ++ '#' :: comment ∧ ∀ c ∈ blanks, isBlank c

theorem isSilent_iff {line : Line} : line.IsSilent ↔
    (trim line.text).head? = none ∨ (trim line.text).head? = some '#' := by
  rw [head?_trim, IsSilent, List.head?_eq_none_iff, List.dropWhile_eq_nil_iff]
  refine or_congr Iff.rfl ?_
  constructor
  · intro ⟨blanks, comment, hText, hBlanks⟩
    rw [hText, List.dropWhile_append_of_pos hBlanks]
    rfl
  · intro hHead
    obtain ⟨comment, hRest⟩ := List.head?_eq_some_iff.mp hHead
    refine ⟨line.text.takeWhile isBlank, comment, ?_, fun c hc => List.mem_takeWhile_imp hc⟩
    rw [← hRest, List.takeWhile_append_dropWhile]

instance (line : Line) : Decidable line.IsSilent :=
  decidable_of_iff _ isSilent_iff.symm

/-- What a line says. If it is not silent, its first `=` separates the key from
the value. -/
theorem reading_eq (line : Line) : line.reading =
    if line.IsSilent then .nothing
    else
      match splitFirst? '=' line.text with
      | none => .noAssignment (trim line.text) (trimmedSpan line.offset line.text)
      | some (key, value) =>
        .assignment (squeeze key) (squeeze value) (trimmedSpan line.offset key)
          (trimmedSpan (line.offset + byteLength key + 1) value) := by
  unfold reading
  split
  · next hTrim => rw [if_pos (isSilent_iff.mpr (by simp [hTrim]))]
  · next hTrim => rw [if_pos (isSilent_iff.mpr (by simp [hTrim]))]
  · next hNil hComment =>
      have hLoud : ¬ line.IsSilent := by
        rw [isSilent_iff, List.head?_eq_none_iff, List.head?_eq_some_iff]
        rintro (hTrim | ⟨comment, hTrim⟩)
        · exact hNil hTrim
        · exact hComment comment hTrim
      cases splitFirst? '=' line.text <;> simp only [if_neg hLoud]

end Line

end Bulletin.Control
