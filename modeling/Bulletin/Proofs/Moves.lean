import Mathlib.Data.List.TakeWhile
import Bulletin.Lexer
import Bulletin.Proofs.Openings

/-! What the reader of a source can do in one step. Everything that is proved
about lexemes goes through the cases of `Lexer.Move`. -/
namespace Bulletin

open Text

/-- The text does not begin with a character of the class. -/
def Text.Stops (p : Char → Bool) (text : List Char) : Prop :=
  ∀ c ∈ text.head?, p c = false

namespace Text

variable {p : Char → Bool} {left left' right right' : List Char}

theorem stops_dropWhile (p : Char → Bool) (text : List Char) : Stops p (text.dropWhile p) := by
  intro c hc
  have hHead := List.head?_dropWhile_not p text
  rw [Option.mem_def.mp hc] at hHead
  exact hHead

/-- A text has only one longest beginning in a class of characters. -/
theorem append_inj_of_stops (hText : left ++ right = left' ++ right')
    (hLeft : ∀ c ∈ left, p c = true) (hRight : Stops p right)
    (hLeft' : ∀ c ∈ left', p c = true) (hRight' : Stops p right') :
    left = left' ∧ right = right' := by
  induction left generalizing left' with
  | nil =>
      cases left' with
      | nil => exact ⟨rfl, hText⟩
      | cons c left' =>
          have hHead := hRight c (by simp [show right = _ from hText])
          simp [hLeft' c (by simp)] at hHead
  | cons c left ih =>
      cases left' with
      | nil =>
          have hHead := hRight' c (by simp [← show c :: left ++ right = right' from hText])
          simp [hLeft c (by simp)] at hHead
      | cons c' left' =>
          obtain ⟨rfl, hRest⟩ := List.cons.inj hText
          obtain ⟨rfl, rfl⟩ := ih hRest (fun d hd => hLeft d (by simp [hd]))
            (fun d hd => hLeft' d (by simp [hd]))
          exact ⟨rfl, rfl⟩

end Text

namespace Lexer

variable {m : Markup} {s next : Lexer} {x : Lexeme} {tag : Opening}

/-- A run of tabs and spaces, which may be empty. -/
def IsGapRun (text : List Char) : Prop :=
  ∀ c ∈ text, isGap c = true

/-- The reader remembers nothing wrong, and the tag it is in is one of its
markup. -/
structure Valid (m : Markup) (s : Lexer) : Prop where
  sightings : s.sightings.Valid m s.offset s.rest
  tag : ∀ tag ∈ s.tag?, m.delimiters? tag.kind = some tag.delimiters

theorem valid_start (m : Markup) (source : List Char) : (start source).Valid m :=
  ⟨Sightings.valid_unseen m 0 source, fun _ hTag => by cases hTag⟩

/-- The steps of a reader, each with all that has to hold for it. Outside of
tags it takes the text up to the next opening, or the opening. Inside it takes
the end of the tag wherever it stands, leaves the tag where the tag breaks off,
and otherwise takes a gap, a word or a run of characters that fit nowhere. -/
inductive Move (m : Markup) (s : Lexer) : Lexeme → Lexer → Prop where
  | text {text right : List Char} {sightings : Sightings} (hTag : s.tag? = none)
      (hRest : s.rest = text ++ right) (hText : text ≠ [])
      (hUntouched : m.Untouched text right) (hRight : right = [] ∨ m.Opens right)
      (hSightings : sightings.Valid m s.offset s.rest) :
      Move m s ({ s with sightings }.take .rawText text right none).1
        ({ s with sightings }.take .rawText text right none).2
  | opening {o : Opening} {right : List Char} {sightings : Sightings} (hTag : s.tag? = none)
      (hOpening : m.openingAt? s.offset s.rest = some o)
      (hRest : s.rest = o.delimiters.opening ++ right)
      (hSightings : sightings.Valid m s.offset s.rest) :
      Move m s
        ({ s with sightings }.take (.beginTag o.kind) o.delimiters.opening right (some o)).1
        ({ s with sightings }.take (.beginTag o.kind) o.delimiters.opening right (some o)).2
  | closing {tag : Opening} {right : List Char} (hTag : s.tag? = some tag)
      (hRest : s.rest = tag.delimiters.closing ++ right) :
      Move m s (s.take (.endTag tag.kind) tag.delimiters.closing right none).1
        (s.take (.endTag tag.kind) tag.delimiters.closing right none).2
  | broken {tag : Opening} (hTag : s.tag? = some tag)
      (hClosing : ¬tag.delimiters.closing <+: s.rest)
      (hRest : s.rest = [] ∨ m.Opens s.rest ∨ ∃ c ∈ s.rest.head?, isLineBreak c = true) :
      Move m s (s.take (.unclosed tag.kind tag.span) [] s.rest none).1
        (s.take (.unclosed tag.kind tag.span) [] s.rest none).2
  | gap {tag : Opening} {text right : List Char} (hTag : s.tag? = some tag)
      (hClosing : ¬tag.delimiters.closing <+: s.rest) (hOpening : ¬m.Opens s.rest)
      (hRest : s.rest = text ++ right) (hText : text ≠ []) (hGap : IsGapRun text)
      (hRight : Stops isGap right) :
      Move m s (s.take .whitespace text right (some tag)).1
        (s.take .whitespace text right (some tag)).2
  | word {tag : Opening} {text right : List Char} (hTag : s.tag? = some tag)
      (hClosing : ¬tag.delimiters.closing <+: s.rest) (hOpening : ¬m.Opens s.rest)
      (hRest : s.rest = text ++ right) (hWord : Identifier.IsIdentifier text)
      (hRight : Stops Identifier.isContinue right) :
      Move m s (s.take (wordKind text) text right (some tag)).1
        (s.take (wordKind text) text right (some tag)).2
  | stray {tag : Opening} {c : Char} {rest : List Char} (hTag : s.tag? = some tag)
      (hClosing : ¬tag.delimiters.closing <+: s.rest) (hOpening : ¬m.Opens s.rest)
      (hRest : s.rest = c :: rest) (hBreak : isLineBreak c = false) (hGap : isGap c = false)
      (hWord : Identifier.isStart c = false) :
      Move m s (s.take .unexpected (c :: (splitRun m tag rest).1) (splitRun m tag rest).2
          (some tag)).1
        (s.take .unexpected (c :: (splitRun m tag rest).1) (splitRun m tag rest).2 (some tag)).2

private theorem literalStep_move (hValid : s.Valid m) (hTag : s.tag? = none) {c : Char}
    {rest : List Char} (hRest : s.rest = c :: rest) :
    Move m s (literalStep m s c rest).1 (literalStep m s c rest).2 := by
  have hFirst := hValid.sightings.first?
  unfold literalStep
  rw [hRest] at hFirst
  generalize s.sightings.first? m s.offset (c :: rest) = found at hFirst
  obtain ⟨next?, sightings⟩ := found
  obtain ⟨hNext, hSightings⟩ :
    next? = m.firstOpening? s.offset (c :: rest) ∧ sightings.Valid m s.offset (c :: rest) := hFirst
  obtain ⟨left, right, hSplit, hLeft, hRight⟩ := m.exists_untouched (c :: rest)
  cases left with
  | nil =>
      -- The first opening stands right here.
      obtain rfl : c :: rest = right := hSplit
      have hOpens : m.Opens (c :: rest) := hRight.resolve_left (List.cons_ne_nil c rest)
      obtain ⟨o, ho⟩ : ∃ o, m.openingAt? s.offset (c :: rest) = some o :=
        Option.isSome_iff_exists.mp (Markup.isSome_openingAt?_iff.mpr hOpens)
      obtain ⟨_, hHere, right, hPrefix⟩ := Markup.openingAt?_sound ho
      have hMove := Move.opening hTag (hRest ▸ ho) (hRest.trans hPrefix.symm) (hRest ▸ hSightings)
      obtain rfl : next? = some o := by rw [hNext, Markup.firstOpening?_of_opens hOpens, ho]
      simp only [if_pos hHere]
      simpa only [← hPrefix, List.take_left, List.drop_left] using hMove
  | cons c' left =>
      obtain rfl : c = c' := (List.cons.inj hSplit).1
      obtain rfl : rest = left ++ right := (List.cons.inj hSplit).2
      have hMove := Move.text hTag hRest (List.cons_ne_nil c left) hLeft hRight
        (hRest ▸ hSightings)
      have hLength : m.firstOpening? s.offset (c :: (left ++ right)) =
          m.firstOpening? (s.offset + byteLength (c :: left)) right :=
        Markup.firstOpening?_append hLeft
      rcases hRight with rfl | hOpens
      · obtain rfl : next? = none := hNext.trans hLength
        simpa only [List.append_nil] using hMove
      · obtain ⟨o, ho⟩ : ∃ o, m.openingAt? (s.offset + byteLength (c :: left)) right = some o :=
          Option.isSome_iff_exists.mp (Markup.isSome_openingAt?_iff.mpr hOpens)
        have hStart := (Markup.openingAt?_sound ho).2.1
        have hLater : ¬o.start = s.offset := by
          have := byteLength_pos (List.cons_ne_nil c left)
          omega
        have hAhead : o.start - s.offset - c.utf8Size = byteLength left := by
          rw [hStart, byteLength_cons]
          omega
        obtain rfl : next? = some o := by
          rw [hNext, hLength, Markup.firstOpening?_of_opens hOpens, ho]
        simp only [if_neg hLater, hAhead, before_byteLength, after_byteLength]
        exact hMove

private theorem tagStep_move (hTag : s.tag? = some tag) {c : Char} {rest : List Char}
    (hRest : s.rest = c :: rest) :
    Move m s (tagStep m s tag c rest).1 (tagStep m s tag c rest).2 := by
  unfold tagStep
  cases hClosed : stripped? tag.delimiters.closing (c :: rest) with
  | some remaining => exact .closing hTag (hRest.trans (stripped?_eq_some_iff.mp hClosed))
  | none =>
      have hClosing : ¬tag.delimiters.closing <+: s.rest := by
        rw [hRest, ← isSome_stripped?_iff, hClosed]
        simp
      by_cases hBreak : ((m.openingAt? s.offset (c :: rest)).isSome || isLineBreak c) = true
      · simp only [if_pos hBreak]
        rw [Bool.or_eq_true, Markup.isSome_openingAt?_iff] at hBreak
        refine .broken hTag hClosing (Or.inr (hBreak.imp (hRest ▸ ·) fun hLine => ⟨c, ?_, hLine⟩))
        simp [hRest]
      · simp only [if_neg hBreak]
        rw [Bool.or_eq_true, Markup.isSome_openingAt?_iff, not_or] at hBreak
        obtain ⟨hOpens, hLine⟩ := hBreak
        have hOpening : ¬m.Opens s.rest := hRest ▸ hOpens
        by_cases hGap : isGap c = true
        · simp only [if_pos hGap]
          refine .gap hTag hClosing hOpening ?_ (by simp) ?_ (stops_dropWhile isGap rest)
          · rw [hRest, List.cons_append, List.takeWhile_append_dropWhile]
          · intro d hd
            rcases List.mem_cons.mp hd with rfl | hd
            · exact hGap
            · exact List.mem_takeWhile_imp hd
        · simp only [if_neg hGap]
          by_cases hStart : Identifier.isStart c = true
          · simp only [if_pos hStart]
            refine .word hTag hClosing hOpening ?_ ⟨hStart, fun d hd => List.mem_takeWhile_imp hd⟩
              (stops_dropWhile Identifier.isContinue rest)
            rw [hRest, List.cons_append, List.takeWhile_append_dropWhile]
          · simp only [if_neg hStart]
            exact .stray hTag hClosing hOpening hRest (by simpa using hLine) (by simpa using hGap)
              (by simpa using hStart)

/-- Every step of a valid reader is one of the moves. -/
theorem step_move (hValid : s.Valid m) (hStep : step m s = some (x, next)) : Move m s x next := by
  unfold step at hStep
  split at hStep
  · cases hStep
  · next tag hTag hRest =>
      have hClosing : ¬tag.delimiters.closing <+: s.rest := by
        rw [hRest, List.prefix_nil]
        exact tag.delimiters.closing_ne_nil
      cases hStep
      exact .broken hTag hClosing (Or.inl hRest)
  · next c rest hTag hRest =>
      have hMove := literalStep_move hValid hTag hRest
      rwa [Option.some.inj hStep] at hMove
  · next tag c rest hTag hRest =>
      have hMove := tagStep_move (m := m) hTag hRest
      rwa [Option.some.inj hStep] at hMove

/-- The reader stops only outside of tags at the end of the source. -/
theorem step_eq_none_iff : step m s = none ↔ s.tag? = none ∧ s.rest = [] := by
  unfold step
  split <;> simp_all

theorem exists_step (hGoesOn : s.tag?.isSome = true ∨ s.rest ≠ []) :
    ∃ x next, step m s = some (x, next) := by
  cases hStep : step m s with
  | none =>
      obtain ⟨hTag, hRest⟩ := step_eq_none_iff.mp hStep
      simp [hTag, hRest] at hGoesOn
  | some result => exact ⟨result.1, result.2, rfl⟩

/-- A lexeme covers the bytes that the reader moves past. -/
theorem Move.span (hMove : Move m s x next) :
    s.rest = x.text.toList ++ next.rest ∧
      next.offset = s.offset + byteLength x.text.toList ∧ x.span = ⟨s.offset, next.offset⟩ := by
  cases hMove with
  | text _ hRest => simp [take, hRest]
  | opening _ _ hRest => simp [take, hRest]
  | closing _ hRest => simp [take, hRest]
  | broken => simp [take]
  | gap _ _ _ hRest => simp [take, hRest]
  | word _ _ _ hRest => simp [take, hRest]
  | stray _ _ _ hRest => simp [take, hRest, splitRun_append]

theorem Move.valid (hValid : s.Valid m) (hMove : Move m s x next) : next.Valid m := by
  obtain ⟨hText, hOffset, _⟩ := hMove.span
  have hAhead {sightings : Sightings} (hSightings : sightings.Valid m s.offset s.rest) :
      sightings.Valid m next.offset next.rest := by
    rw [hOffset]
    exact (hText ▸ hSightings).advance
  cases hMove with
  | text _ _ _ _ _ hSightings => exact ⟨hAhead hSightings, fun _ hTag => by cases hTag⟩
  | opening _ hOpening _ hSightings =>
      refine ⟨hAhead hSightings, ?_⟩
      intro tag hTag
      cases hTag
      exact (Markup.openingAt?_sound hOpening).1
  | closing => exact ⟨hAhead hValid.sightings, fun _ hTag => by cases hTag⟩
  | broken => exact ⟨hAhead hValid.sightings, fun _ hTag => by cases hTag⟩
  | gap hTag => exact ⟨hAhead hValid.sightings, hTag ▸ hValid.tag⟩
  | word hTag => exact ⟨hAhead hValid.sightings, hTag ▸ hValid.tag⟩
  | stray hTag => exact ⟨hAhead hValid.sightings, hTag ▸ hValid.tag⟩

theorem step_valid (hValid : s.Valid m) (hStep : step m s = some (x, next)) : next.Valid m :=
  (step_move hValid hStep).valid hValid

theorem run_of_none (hStep : step m s = none) : s.run m = [] := by
  rw [run]
  split
  · rfl
  · next hSome => simp [hStep] at hSome

theorem run_of_some (hStep : step m s = some (x, next)) : s.run m = x :: next.run m := by
  rw [run]
  split
  · next hNone => simp [hStep] at hNone
  · next y after hSome =>
      obtain ⟨rfl, rfl⟩ := Prod.mk.inj (Option.some.inj (hStep.symm.trans hSome))
      rfl

end Lexer

end Bulletin
