import Mathlib.Data.List.Pairwise
import Mathlib.Logic.Relation
import Mathlib.Order.Monotone.Defs
import Bulletin.Proofs.Settings

/-! The layout of a control block: the blanks in its lines, and the lines that say
nothing. Texts that differ in their layout only say the same line by line, although
on lines of other numbers. -/
namespace Bulletin.Text

/-- A separator that is no blank cuts a text and the text without blanks at the same
place. -/
theorem splitFirst?_squeeze {separator : Char} (hBlank : isBlank separator = false)
    (text : List Char) : splitFirst? separator (squeeze text) =
      (splitFirst? separator text).map fun (left, right) => (squeeze left, squeeze right) := by
  induction text with
  | nil => rfl
  | cons c text ih =>
      cases hc : isBlank c with
      | true =>
          have hOther : c ≠ separator := by
            rintro rfl
            exact absurd (hc.symm.trans hBlank) (by decide)
          have hSame (left : List Char) : squeeze (c :: left) = squeeze left := by
            simp [squeeze, hc]
          simp only [hSame, ih, splitFirst?, if_neg hOther, Option.map_map, Function.comp_def]
      | false =>
          have hKept (left : List Char) : squeeze (c :: left) = c :: squeeze left :=
            squeeze_cons_of_not_blank hc left
          rw [hKept, splitFirst?, splitFirst?]
          split
          · rfl
          · simp only [ih, Option.map_map, Function.comp_def, hKept]

/-- A text without the blanks in its lines. The line breaks stay. -/
def bare (text : List Char) : List Char :=
  text.filter fun c => c == '\n' || !isBlank c

theorem bare_cons_blank {c : Char} (hBlank : isBlank c = true) (hBreak : c ≠ '\n')
    (text : List Char) : bare (c :: text) = bare text := by
  simp [bare, hBlank, hBreak]

@[simp]
theorem bare_append (left right : List Char) : bare (left ++ right) = bare left ++ bare right :=
  List.filter_append ..

theorem splitAll_bare (text : List Char) :
    splitAll '\n' (bare text) = (splitAll '\n' text).map squeeze := by
  induction text with
  | nil => rfl
  | cons c text ih =>
      by_cases hBreak : c = '\n'
      · subst hBreak
        have hKept : bare ('\n' :: text) = '\n' :: bare text := by simp [bare]
        rw [hKept, splitAll, if_pos rfl, ih, splitAll, if_pos rfl]
        rfl
      · obtain ⟨part, parts, hParts⟩ := List.exists_cons_of_ne_nil (splitAll_ne_nil '\n' text)
        rw [hParts] at ih
        cases hc : isBlank c with
        | true => simp [bare_cons_blank hc hBreak, ih, splitAll, hBreak, hParts, squeeze, hc]
        | false =>
            have hKept : bare (c :: text) = c :: bare text := by simp [bare, hc]
            simp [hKept, ih, splitAll, hBreak, hParts, squeeze_cons_of_not_blank hc]

end Bulletin.Text

namespace Bulletin.Control

open Text

/-- Whether a line says anything, told from what it is without its blanks. -/
def speaks : List Char → Bool
  | [] => false
  | c :: _ => c != '#'

/-- The lines of a text that say something. -/
def spoken (text : List Char) : List Line :=
  (Line.all text).filter fun line => ¬ line.IsSilent

/-- The numbers of the lines that say something. -/
def lineNumbers (text : List Char) : List Nat :=
  (spoken text).map Line.number

/-- What a line says, with its number. -/
def Line.note (line : Line) : Nat × List Char :=
  (line.number, squeeze line.text)

/-- Everything that a text says, with the numbers of the lines. -/
def notes (text : List Char) : List (Nat × List Char) :=
  (spoken text).map Line.note

namespace Line

theorem isSilent_iff_speaks {line : Line} :
    line.IsSilent ↔ speaks (squeeze line.text) = false := by
  have hHead : (trim line.text).head? = (squeeze line.text).head? := by
    rw [head?_trim, squeeze, List.head?_filter, List.find?_eq_head?_dropWhile_not]
    simp
  rw [isSilent_iff, hHead]
  cases squeeze line.text with
  | nil => simp [speaks]
  | cons c rest => simp [speaks]

/-- The lines are numbered one after the other. -/
theorem map_note_enumerate (first offset : Nat) (parts : List (List Char)) :
    (enumerate first offset parts).map note =
      (List.range' first parts.length).zip (parts.map squeeze) := by
  induction parts generalizing first offset with
  | nil => rfl
  | cons part rest ih =>
      simp [enumerate, note, ih, squeeze_withoutReturns, List.range'_succ]

end Line

/-- What a text says is told from its lines without their blanks. -/
theorem notes_eq (text : List Char) : notes text =
    ((List.range' 1 (splitAll '\n' (bare text)).length).zip
      (splitAll '\n' (bare text))).filter fun note => speaks note.2 := by
  have hSpeaks : (fun line : Line => decide ¬ line.IsSilent) =
      (fun note => speaks note.2) ∘ Line.note := by
    funext line
    simp [Line.isSilent_iff_speaks, Line.note]
  rw [notes, spoken, hSpeaks, ← List.filter_map, Line.all, Line.map_note_enumerate, splitAll_bare,
    List.length_map]

theorem map_fst_notes (text : List Char) : (notes text).map Prod.fst = lineNumbers text := by
  rw [notes, List.map_map]
  rfl

theorem map_snd_notes (text : List Char) :
    (notes text).map Prod.snd = (splitAll '\n' (bare text)).filter speaks := by
  have hRange : (splitAll '\n' (bare text)).length ≤
      (List.range' 1 (splitAll '\n' (bare text)).length).length := by simp
  calc (notes text).map Prod.snd
      = (((List.range' 1 (splitAll '\n' (bare text)).length).zip
          (splitAll '\n' (bare text))).map Prod.snd).filter speaks := by
        rw [notes_eq, List.filter_map]
        rfl
    _ = _ := by rw [List.map_snd_zip hRange]

/-- The numbers increase from line to line. -/
theorem pairwise_lineNumbers (text : List Char) : (lineNumbers text).Pairwise (· < ·) := by
  have hRange : (List.range' 1 (splitAll '\n' (bare text)).length).length ≤
      (splitAll '\n' (bare text)).length := by simp
  have hSublist : ((notes text).map Prod.fst).Sublist
      (((List.range' 1 (splitAll '\n' (bare text)).length).zip
        (splitAll '\n' (bare text))).map Prod.fst) := by
    rw [notes_eq]
    exact List.filter_sublist.map Prod.fst
  rw [map_fst_notes, List.map_fst_zip hRange] at hSublist
  exact (List.pairwise_lt_range' ..).sublist hSublist

/-- A change of the layout in one place: a blank inside a line, or a whole line that
says nothing, in front of a line or at the end. -/
inductive Edit : List Char → List Char → Prop where
  | blank {c : Char} (left right : List Char) (hBlank : isBlank c = true) (hBreak : c ≠ '\n') :
      Edit (left ++ right) (left ++ c :: right)
  | line {line : Line} (left right : List Char) (hSilent : line.IsSilent)
      (hBreak : '\n' ∉ line.text) (hLeft : left = [] ∨ ∃ before, left = before ++ ['\n']) :
      Edit (left ++ right) (left ++ (line.text ++ '\n' :: right))
  | lastLine {line : Line} (text : List Char) (hSilent : line.IsSilent)
      (hBreak : '\n' ∉ line.text) : Edit text (text ++ '\n' :: line.text)

/-- Texts that differ in their layout only: each comes from the other by edits and
by taking back edits, in any number and order. -/
def Relaid : List Char → List Char → Prop :=
  Relation.EqvGen Edit

theorem filter_speaks_append_cons (left right : List Char) :
    (splitAll '\n' (bare (left ++ '\n' :: right))).filter speaks =
      (splitAll '\n' (bare left)).filter speaks ++ (splitAll '\n' (bare right)).filter speaks := by
  have hBreak : bare ('\n' :: right) = '\n' :: bare right := by simp [bare]
  rw [bare_append, hBreak, splitAll_append_cons, List.filter_append]

/-- A line that says nothing adds nothing. -/
theorem filter_speaks_of_silent {line : Line} (hSilent : line.IsSilent)
    (hBreak : '\n' ∉ line.text) : (splitAll '\n' (bare line.text)).filter speaks = [] := by
  rw [splitAll_bare, splitAll_of_not_mem hBreak]
  simp [Line.isSilent_iff_speaks.mp hSilent]

theorem Edit.map_snd_notes {text text' : List Char} (hEdit : Edit text text') :
    (notes text).map Prod.snd = (notes text').map Prod.snd := by
  rw [Control.map_snd_notes, Control.map_snd_notes]
  cases hEdit with
  | blank left right hBlank hBreak =>
      rw [bare_append, bare_append, bare_cons_blank hBlank hBreak]
  | @line line left right hSilent hBreak hLeft =>
      rcases hLeft with rfl | ⟨before, rfl⟩
      · rw [List.nil_append, List.nil_append, filter_speaks_append_cons,
          filter_speaks_of_silent hSilent hBreak, List.nil_append]
      · simp only [List.append_assoc, List.singleton_append, filter_speaks_append_cons,
          filter_speaks_of_silent hSilent hBreak, List.nil_append]
  | lastLine _ hSilent hBreak =>
      rw [filter_speaks_append_cons, filter_speaks_of_silent hSilent hBreak, List.append_nil]

/-- Texts that differ in their layout say the same in the same order. -/
theorem Relaid.map_snd_notes {text text' : List Char} (hRelaid : Relaid text text') :
    (notes text).map Prod.snd = (notes text').map Prod.snd := by
  induction hRelaid with
  | rel text text' hEdit => exact hEdit.map_snd_notes
  | refl text => rfl
  | symm text text' _ ih => exact ih.symm
  | trans text middle text' _ _ ihFirst ihSecond => exact ihFirst.trans ihSecond

section Numbers

variable {text text' : List Char} {f : Nat → Nat}

theorem Relaid.notes_eq (hRelaid : Relaid text text')
    (hNumbers : (lineNumbers text).map f = lineNumbers text') :
    notes text' = (notes text).map (Prod.map f id) := by
  have hFirst : ((notes text).map (Prod.map f id)).map Prod.fst = lineNumbers text' := by
    rw [← hNumbers, ← map_fst_notes, List.map_map, List.map_map]
    rfl
  have hSecond : ((notes text).map (Prod.map f id)).map Prod.snd = (notes text').map Prod.snd := by
    rw [← hRelaid.map_snd_notes, List.map_map]
    rfl
  rw [List.zip_of_prod hFirst hSecond, ← map_fst_notes, ← List.zip_of_prod rfl rfl]

/-- Numbers that are all different can be replaced by any others. -/
theorem exists_map_eq {numbers numbers' : List Nat} (hNumbers : numbers.Nodup)
    (hLength : numbers.length = numbers'.length) : ∃ f : Nat → Nat, numbers.map f = numbers' := by
  induction numbers generalizing numbers' with
  | nil => exact ⟨id, (List.length_eq_zero_iff.mp hLength.symm).symm⟩
  | cons n numbers ih =>
      obtain ⟨n', numbers', rfl⟩ := List.exists_cons_of_length_eq_add_one hLength.symm
      obtain ⟨hFresh, hRest⟩ := List.nodup_cons.mp hNumbers
      obtain ⟨f, rfl⟩ := ih hRest (by simpa using hLength)
      refine ⟨fun k => if k = n then n' else f k, ?_⟩
      rw [List.map_cons, if_pos rfl]
      refine congrArg (n' :: ·) (List.map_congr_left fun k hk => if_neg ?_)
      rintro rfl
      exact hFresh hk

theorem Relaid.exists_renumbering (hRelaid : Relaid text text') :
    ∃ f : Nat → Nat, (lineNumbers text).map f = lineNumbers text' := by
  refine exists_map_eq ((pairwise_lineNumbers text).imp fun {a b} (hLess : a < b) => hLess.ne) ?_
  have hLength := congrArg List.length hRelaid.map_snd_notes
  simpa [← map_fst_notes] using hLength

/-- A renumbering of lines keeps their order. -/
theorem strictMonoOn_of_lineNumbers (hNumbers : (lineNumbers text).map f = lineNumbers text') :
    StrictMonoOn f { n | n ∈ lineNumbers text } := by
  have hImage := pairwise_lineNumbers text'
  rw [← hNumbers, List.pairwise_map] at hImage
  have hKept : (lineNumbers text).Pairwise fun a b => a < b → f a < f b :=
    hImage.imp fun {a b} hLess (_ : a < b) => hLess
  have hTurned : (lineNumbers text).Pairwise fun a b => b < a → f b < f a :=
    (pairwise_lineNumbers text).imp fun {a b} hLess (hMore : b < a) => absurd hMore hLess.asymm
  intro a ha b hb
  exact List.Pairwise.forall_of_forall_of_flip (fun _ _ hLess => absurd hLess (Nat.lt_irrefl _))
    hKept hTurned ha hb

end Numbers

/-- The text with a carriage return before each line break. -/
def withReturns (text : List Char) : List Char :=
  text.flatMap fun c => if c = '\n' then ['\r', '\n'] else [c]

theorem notes_withReturns (text : List Char) : notes (withReturns text) = notes text := by
  have hBare : bare (withReturns text) = bare text := by
    induction text with
    | nil => rfl
    | cons c text ih =>
        rw [withReturns, List.flatMap_cons, bare_append, ← withReturns, ih]
        by_cases hBreak : c = '\n'
        · subst hBreak
          rfl
        · rw [if_neg hBreak]
          exact (bare_append [c] text).symm
  rw [notes_eq, notes_eq, hBare]

end Bulletin.Control
