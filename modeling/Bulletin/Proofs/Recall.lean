import Bulletin.Proofs.Coordinates
import Bulletin.Proofs.Strays

/-! Looking for the next opening again and again. What a reader remembers from earlier
questions does not change an answer, as long as the places that it asks about do not
decrease, and a reader asks in that order. -/
namespace Bulletin

open Text

namespace Markup

variable {m : Markup} {place stop : Nat} {text : List Char} {kind : TagKind}

/-- The kinds of tags that occur, with their delimiters. -/
def kinds (m : Markup) : List (TagKind × Delimiters) :=
  (m.variables?.map (TagKind.variable, ·)).toList ++
    (m.directives?.map (TagKind.directive, ·)).toList

/-- The kind with the longer opening delimiter, and of two alike the later one. -/
def longer (best? : Option (TagKind × Delimiters)) (next : TagKind × Delimiters) :
    Option (TagKind × Delimiters) :=
  match best? with
  | none => some next
  | some best =>
    if byteLength best.2.opening ≤ byteLength next.2.opening then some next else some best

/-- The kind of tag that begins where the text does, and the place where its opening
delimiter ends. The text stands at the given place. Among all the delimiters that begin the
text this looks for the longest one. -/
def longestAt? (m : Markup) (place : Nat) (text : List Char) : Option (TagKind × Nat) :=
  ((m.kinds.filter fun k => (stripped? k.2.opening text).isSome).foldl longer none).map
    fun k => (k.1, place + byteLength k.2.opening)

theorem filter_kinds (m : Markup) (place : Nat) (text : List Char) :
    (m.kinds.filter fun k => (stripped? k.2.opening text).isSome) =
      ((m.kindOpeningAt? .variable place text).toList ++
        (m.kindOpeningAt? .directive place text).toList).map fun o => (o.kind, o.delimiters) := by
  have hKind (kind : TagKind) :
      (((m.delimiters? kind).map (kind, ·)).toList.filter fun k =>
        (stripped? k.2.opening text).isSome) =
      (m.kindOpeningAt? kind place text).toList.map fun o => (o.kind, o.delimiters) := by
    unfold kindOpeningAt?
    cases m.delimiters? kind with
    | none => rfl
    | some d => by_cases hHere : (stripped? d.opening text).isSome = true <;> simp [hHere]
  rw [kinds, List.filter_append, List.map_append]
  exact congrArg₂ (· ++ ·) (hKind .variable) (hKind .directive)

/-- No two kinds of tags can have the same claim to a place. -/
theorem byteLength_opening_ne {v d : Delimiters} (hv : m.delimiters? .variable = some v)
    (hd : m.delimiters? .directive = some d) (hVariable : v.opening <+: text)
    (hDirective : d.opening <+: text) : byteLength v.opening ≠ byteLength d.opening := by
  intro hSame
  have hPrefix := isPrefix_of_byteLength_le hVariable hDirective hSame.le
  exact m.openings_differ v hv d hd (eq_of_isPrefix_of_byteLength hPrefix hSame.ge)

/-- Comparing two openings and going through all kinds in turn pick the same kind. -/
theorem longestAt?_eq (m : Markup) (place : Nat) (text : List Char) :
    m.longestAt? place text = (m.openingAt? place text).map fun o => (o.kind, o.stop) := by
  rw [longestAt?, filter_kinds m place text, openingAt?]
  cases hv : m.kindOpeningAt? .variable place text with
  | none =>
      cases hd : m.kindOpeningAt? .directive place text with
      | none => rfl
      | some o =>
          obtain ⟨d, -, -, rfl⟩ := kindOpeningAt?_eq_some_iff.mp hd
          rfl
  | some o =>
      obtain ⟨v, hVariable, hPrefix, rfl⟩ := kindOpeningAt?_eq_some_iff.mp hv
      cases hd : m.kindOpeningAt? .directive place text with
      | none => rfl
      | some o =>
          obtain ⟨d, hDirective, hPrefix', rfl⟩ := kindOpeningAt?_eq_some_iff.mp hd
          have hLength := byteLength_opening_ne hVariable hDirective hPrefix hPrefix'
          rcases Nat.lt_or_gt_of_ne hLength with hLess | hMore
          · simp [longer, Opening.prefer?, Opening.prefer, Opening.stop, hLess.le,
              Nat.not_le.mpr hLess]
          · simp [longer, Opening.prefer?, Opening.prefer, Opening.stop, hMore.le,
              Nat.not_le.mpr hMore]

theorem longestAt?_eq_none_iff : m.longestAt? place text = none ↔ ¬ m.Opens text := by
  rw [longestAt?_eq, Option.map_eq_none_iff, openingAt?_eq_none_iff]

/-- What is found is a configured delimiter, and no other one at the place is longer. -/
theorem longestAt?_eq_some_iff : m.longestAt? place text = some (kind, stop) ↔
    ∃ d, m.delimiters? kind = some d ∧ d.opening <+: text ∧ stop = place + byteLength d.opening ∧
      ∀ other e, m.delimiters? other = some e → e.opening <+: text →
        byteLength e.opening ≤ byteLength d.opening := by
  rw [longestAt?_eq, Option.map_eq_some_iff]
  constructor
  · rintro ⟨o, hOpening, hFound⟩
    obtain ⟨hd, hStart, hPrefix⟩ := openingAt?_sound hOpening
    cases hFound
    refine ⟨o.delimiters, hd, hPrefix, by rw [← hStart]; rfl, fun other e he hOther => ?_⟩
    exact byteLength_le_of_isPrefix (isPrefix_of_openingAt? hOpening he hOther)
  · rintro ⟨d, hd, hPrefix, rfl, hLongest⟩
    refine ⟨⟨kind, d, place⟩, openingAt?_of_longest hd hPrefix fun other e he hOther => ?_, rfl⟩
    exact isPrefix_of_byteLength_le hOther hPrefix (hLongest other e he hOther)

end Markup

/-- The answer to the question for the first opening of a source from a place on. It is the
first place between characters where a tag begins, with the longest delimiter there. -/
def Markup.IsFirstFrom (m : Markup) (source : List Char) (place : Nat) : Option Opening → Prop
  | some o => place ≤ o.start ∧ isBoundary o.start source = true ∧
      m.delimiters? o.kind = some o.delimiters ∧
      m.longestAt? o.start (after o.start source) = some (o.kind, o.stop) ∧
      ∀ other, place ≤ other → other < o.start → isBoundary other source = true →
        m.longestAt? other (after other source) = none
  | none => ∀ other, place ≤ other → isBoundary other source = true →
      m.longestAt? other (after other source) = none

namespace Sightings

variable {m : Markup} {source : List Char} {places : List Nat} {place : Nat} {s : Sightings}

/-- The answers to successive questions for the first opening from a place on, and what is
known after them. -/
def answers (m : Markup) (source : List Char) :
    List Nat → Sightings → List (Option Opening) × Sightings
  | [], s => ([], s)
  | place :: places, s =>
    let (answer, s) := s.first? m place (after place source)
    let (others, s) := answers m source places s
    (answer :: others, s)

/-- The answer to a question if nothing was asked before. -/
def fresh (m : Markup) (source : List Char) (place : Nat) : Option Opening :=
  (unseen.first? m place (after place source)).1

theorem fresh_eq (m : Markup) (source : List Char) (place : Nat) :
    fresh m source place = m.firstOpening? place (after place source) :=
  (valid_unseen m place (after place source)).first?.1

/-- What is known at a place stays true at a later one. -/
theorem Valid.mono {place' : Nat} (hPlace : isBoundary place source = true)
    (hPlace' : isBoundary place' source = true) (hOrder : place ≤ place')
    (hValid : s.Valid m place (after place source)) : s.Valid m place' (after place' source) := by
  obtain ⟨left, rest, rfl, rfl⟩ := isBoundary_iff.mp hPlace
  obtain ⟨middle, right, rfl, rfl⟩ := exists_middle hPlace' hOrder
  rw [after_byteLength] at hValid
  rw [← byteLength_append, ← List.append_assoc, after_byteLength, byteLength_append]
  exact hValid.advance

/-- Nothing that was remembered changes an answer. -/
theorem answers_eq (hSorted : (place :: places).Pairwise (· ≤ ·))
    (hPlaces : ∀ p ∈ place :: places, isBoundary p source = true)
    (hValid : s.Valid m place (after place source)) :
    (answers m source (place :: places) s).1 = (place :: places).map (fresh m source) := by
  induction places generalizing place s with
  | nil => simp [answers, hValid.first?.1, fresh_eq]
  | cons next places ih =>
      obtain ⟨hHere, hLater⟩ := List.pairwise_cons.mp hSorted
      obtain ⟨hPlace, hMore⟩ := List.forall_mem_cons.mp hPlaces
      obtain ⟨hAnswer, hKnown⟩ := hValid.first?
      have hNext := hKnown.mono hPlace (hMore next List.mem_cons_self)
        (hHere next List.mem_cons_self)
      rw [answers, List.map_cons, fresh_eq, ← hAnswer, ← ih hLater hMore hNext]

theorem answers_append_singleton (places : List Nat) (place : Nat) (s : Sightings) :
    (answers m source (places ++ [place]) s).2 =
      ((answers m source places s).2.first? m place (after place source)).2 := by
  induction places generalizing s with
  | nil => rfl
  | cons first places ih => exact ih _

/-- A fresh answer is the right one. -/
theorem isFirstFrom_fresh (hPlace : isBoundary place source = true) :
    m.IsFirstFrom source place (fresh m source place) := by
  obtain ⟨start, rest, rfl, rfl⟩ := isBoundary_iff.mp hPlace
  rw [fresh_eq, after_byteLength]
  obtain ⟨left, right, rfl, hLeft, hRight⟩ := m.exists_untouched rest
  have hAfter (middle text : List Char) :
      after (byteLength start + byteLength middle) (start ++ (middle ++ text)) = text := by
    rw [← byteLength_append, ← List.append_assoc, after_byteLength]
  rw [Markup.firstOpening?_append hLeft]
  rcases hRight with rfl | hOpens
  · intro other hOrder hOther
    obtain ⟨middle, later, hCut, rfl⟩ := exists_middle hOther hOrder
    rw [hCut, hAfter, Markup.longestAt?_eq_none_iff]
    rw [List.append_nil] at hCut
    by_cases hEnd : later = []
    · exact hEnd ▸ m.not_opens_nil
    · simpa using hLeft middle later hCut hEnd
  · obtain ⟨o, ho⟩ := Option.isSome_iff_exists.mp (Markup.isSome_openingAt?_iff.mpr hOpens)
    rw [Markup.firstOpening?_of_opens hOpens, ho]
    obtain ⟨hd, hStart, -⟩ := Markup.openingAt?_sound ho
    simp only [Markup.IsFirstFrom, hStart, hAfter]
    refine ⟨Nat.le_add_right .., ?_, hd, ?_, fun other hOrder hBefore hOther => ?_⟩
    · rw [← byteLength_append, ← List.append_assoc]
      exact isBoundary_byteLength ..
    · rw [Markup.longestAt?_eq, ho]
      rfl
    · obtain ⟨middle, later, hCut, rfl⟩ := exists_middle hOther hOrder
      rw [hCut, hAfter, Markup.longestAt?_eq_none_iff]
      obtain ⟨more, rfl⟩ : middle <+: left :=
        isPrefix_of_byteLength_le ⟨later, hCut.symm⟩ (List.prefix_append left right) (by omega)
      rw [List.append_assoc] at hCut
      obtain rfl := List.append_cancel_left hCut
      apply hLeft middle more rfl
      rintro rfl
      simp at hBefore

end Sightings

namespace Lexer

variable {m : Markup} {source : List Char} {places : List Nat} {s next : Lexer} {x : Lexeme}

/-- The place about which the reader asks in its next step. It does so outside of tags, as
long as some text is left. -/
def asked? (s : Lexer) : Option Nat :=
  if s.tag? = none ∧ s.rest ≠ [] then some s.offset else none

theorem asked?_cases (s : Lexer) : s.asked? = none ∨ s.asked? = some s.offset := by
  unfold asked?
  split
  · exact Or.inr rfl
  · exact Or.inl rfl

/-- A reader comes here from the beginning of the source and asks about these places on the
way. -/
inductive Asks (m : Markup) (source : List Char) : List Nat → Lexer → Prop where
  | start : Asks m source [] (.start source)
  | step {places : List Nat} {s next : Lexer} {x : Lexeme} (hAsks : Asks m source places s)
      (hStep : step m s = some (x, next)) : Asks m source (places ++ s.asked?.toList) next

theorem literalStep_sightings (m : Markup) (s : Lexer) (c : Char) (rest : List Char) :
    (literalStep m s c rest).2.sightings = (s.sightings.first? m s.offset (c :: rest)).2 := by
  unfold literalStep
  simp only
  split
  · split <;> rfl
  · rfl

theorem tagStep_sightings (m : Markup) (s : Lexer) (tag : Opening) (c : Char)
    (rest : List Char) : (tagStep m s tag c rest).2.sightings = s.sightings := by
  unfold tagStep
  split
  · rfl
  · split
    · rfl
    · split
      · rfl
      · split <;> rfl

/-- What the reader knows changes with its questions only. -/
theorem step_sightings (hStep : step m s = some (x, next)) :
    next.sightings = match s.asked? with
      | some place => (s.sightings.first? m place s.rest).2
      | none => s.sightings := by
  unfold step at hStep
  split at hStep
  · cases hStep
  · next tag hTag hRest =>
      cases hStep
      simp [asked?, hTag]
  · next c rest hTag hRest =>
      have hSightings := literalStep_sightings m s c rest
      rw [Option.some.inj hStep] at hSightings
      simpa [asked?, hTag, hRest] using hSightings
  · next tag c rest hTag hRest =>
      have hSightings := tagStep_sightings m s tag c rest
      rw [Option.some.inj hStep] at hSightings
      simpa [asked?, hTag] using hSightings

/-- What holds wherever a reader has come to. -/
structure Recalls (m : Markup) (source : List Char) (places : List Nat) (s : Lexer) : Prop where
  valid : s.Valid m
  here : ∃ left, source = left ++ s.rest ∧ s.offset = byteLength left
  sorted : (places ++ [s.offset]).Pairwise (· ≤ ·)
  boundary : ∀ p ∈ places, isBoundary p source = true
  sightings : s.sightings = (Sightings.answers m source places .unseen).2

theorem Recalls.after_eq (hRecalls : Recalls m source places s) :
    after s.offset source = s.rest := by
  obtain ⟨left, hSource, hOffset⟩ := hRecalls.here
  rw [hOffset, hSource, after_byteLength]

theorem Recalls.isBoundary (hRecalls : Recalls m source places s) :
    ∀ p ∈ places ++ [s.offset], isBoundary p source = true := by
  intro p hp
  rcases List.mem_append.mp hp with hBefore | hHere
  · exact hRecalls.boundary p hBefore
  · obtain rfl := List.mem_singleton.mp hHere
    exact isBoundary_iff.mpr (hRecalls.here.imp fun _ h => ⟨_, h⟩)

theorem Recalls.le (hRecalls : Recalls m source places s) :
    ∀ p ∈ places ++ [s.offset], p ≤ s.offset := by
  intro p hp
  rcases List.mem_append.mp hp with hBefore | hHere
  · exact (List.pairwise_append.mp hRecalls.sorted).2.2 p hBefore _ List.mem_cons_self
  · exact (List.mem_singleton.mp hHere).le

theorem Recalls.step (hRecalls : Recalls m source places s)
    (hStep : step m s = some (x, next)) :
    Recalls m source (places ++ s.asked?.toList) next := by
  have hMove := step_move hRecalls.valid hStep
  obtain ⟨hText, hOffset, -⟩ := hMove.span
  obtain ⟨left, hSource, hLeft⟩ := hRecalls.here
  have hSightings := step_sightings hStep
  have hAsked : (places ++ s.asked?.toList).Sublist (places ++ [s.offset]) := by
    apply List.Sublist.append_left
    rcases s.asked?_cases with hNone | hSome
    · rw [hNone]
      exact List.nil_sublist _
    · rw [hSome]
      exact List.Sublist.refl _
  refine ⟨hMove.valid hRecalls.valid, ⟨left ++ x.text.toList, ?_, ?_⟩, ?_, ?_, ?_⟩
  · rw [hSource, hText, List.append_assoc]
  · rw [hOffset, hLeft, byteLength_append]
  · rw [List.pairwise_append]
    refine ⟨hRecalls.sorted.sublist hAsked, List.pairwise_singleton _ _, fun p hp q hq => ?_⟩
    have := hRecalls.le p (hAsked.subset hp)
    rw [List.mem_singleton.mp hq]
    omega
  · exact fun p hp => hRecalls.isBoundary p (hAsked.subset hp)
  · rcases s.asked?_cases with hNone | hSome
    · rw [hNone, Option.toList_none, List.append_nil, ← hRecalls.sightings, hSightings, hNone]
    · rw [hSome, Option.toList_some, Sightings.answers_append_singleton, ← hRecalls.sightings,
        hRecalls.after_eq, hSightings, hSome]

theorem Asks.recalls (hAsks : Asks m source places s) : Recalls m source places s := by
  induction hAsks with
  | start => exact ⟨valid_start m source, ⟨[], rfl, rfl⟩, List.pairwise_singleton _ _, by simp, rfl⟩
  | step _ hStep ih => exact ih.step hStep

/-- Outside of tags an opening is the next lexeme where it stands. -/
theorem exists_beginTag (hValid : s.Valid m) (hTag : s.tag? = none) {o : Opening}
    (hOpening : m.openingAt? s.offset s.rest = some o) :
    ∃ y next, step m s = some (y, next) ∧ y.kind = .beginTag o.kind ∧ y.span = o.span := by
  have hOpens : m.Opens s.rest := Markup.isSome_openingAt?_iff.mp (Option.isSome_of_mem hOpening)
  obtain ⟨y, next, hStep⟩ : ∃ y next, step m s = some (y, next) :=
    exists_step (Or.inr fun hNil => m.not_opens_nil (hNil ▸ hOpens))
  refine ⟨y, next, hStep, ?_⟩
  cases step_move hValid hStep with
  | text _ hRest hText hUntouched => exact absurd (hRest ▸ hOpens) (hUntouched [] _ rfl hText)
  | opening _ hFound =>
      obtain rfl := Option.some.inj (hOpening.symm.trans hFound)
      have hStart := (Markup.openingAt?_sound hOpening).2.1
      exact ⟨rfl, by simp [take, Opening.span, Opening.stop, hStart]⟩
  | closing hInside => simp [hTag] at hInside
  | broken hInside => simp [hTag] at hInside
  | gap hInside => simp [hTag] at hInside
  | word hInside => simp [hTag] at hInside
  | stray hInside => simp [hTag] at hInside

theorem Move.of_unclosed (hMove : Move m s x next) {kind : TagKind} {span : Span}
    (hKind : x.kind = .unclosed kind span) :
    next.tag? = none ∧ next.rest = s.rest ∧ next.offset = s.offset := by
  cases hMove with
  | broken => simp [take]
  | word =>
      unfold take wordKind at hKind
      split at hKind <;> cases hKind
  | _ => cases hKind

/-- A tag that begins where the tag before it breaks off is the next lexeme. -/
theorem exists_beginTag_of_unclosed (hValid : s.Valid m) {later : List Lexeme}
    {kind : TagKind} {span : Span} {o : Opening} (hRun : s.run m = x :: later)
    (hKind : x.kind = .unclosed kind span) (hOpening : m.openingAt? s.offset s.rest = some o) :
    x.span = ⟨s.offset, s.offset⟩ ∧
      ∃ y rest, later = y :: rest ∧ y.kind = .beginTag o.kind ∧ y.span = o.span := by
  cases hStep : step m s with
  | none => simp [run_of_none hStep] at hRun
  | some result =>
      obtain ⟨y, next⟩ := result
      rw [run_of_some hStep] at hRun
      obtain ⟨rfl, rfl⟩ := List.cons.inj hRun
      have hMove := step_move hValid hStep
      obtain ⟨hTag, hRest, hOffset⟩ := hMove.of_unclosed hKind
      refine ⟨hOffset ▸ hMove.span.2.2, ?_⟩
      rw [← hRest, ← hOffset] at hOpening
      obtain ⟨z, last, hNext, hFound⟩ := exists_beginTag (hMove.valid hValid) hTag hOpening
      exact ⟨z, last.run m, run_of_some hNext, hFound⟩

/-- A tag that begins inside one that is not closed is the lexeme behind the place where that
one breaks off. -/
theorem beginTag_of_longestAt? {before later : List Lexeme} {kind found : TagKind} {span : Span}
    {stop : Nat} (hSplit : m.lexemes source = before ++ x :: later)
    (hKind : x.kind = .unclosed kind span)
    (hFound : m.longestAt? x.span.start (after x.span.start source) = some (found, stop)) :
    x.span.stop = x.span.start ∧ ∃ y rest, later = y :: rest ∧ y.kind = .beginTag found ∧
      y.span = ⟨x.span.start, stop⟩ := by
  have hRow : Lexeme.Row 0 (m.lexemes source) := run_row (valid_start m source)
  rw [hSplit, Lexeme.row_append, Nat.zero_add] at hRow
  obtain ⟨s, hRun, hValid, -⟩ := exists_behind (valid_start m source) hSplit
  have hHere : x.span.start = s.offset := by
    have hRest : Lexeme.Row s.offset (s.run m) := run_row hValid
    rw [hRun] at hRest
    rw [hRest.1]
  have hAfter : after x.span.start source = s.rest := by
    have hText : Lexeme.textOf (m.lexemes source) = source := run_text m (.start source)
    have hAhead : Lexeme.textOf (x :: later) = s.rest := hRun ▸ run_text m s
    rw [← hText, hSplit, Lexeme.textOf_append, hRow.2.1, after_byteLength, hAhead]
  rw [hAfter, hHere, Markup.longestAt?_eq, Option.map_eq_some_iff] at hFound
  obtain ⟨o, hOpening, hSame⟩ := hFound
  cases hSame
  obtain ⟨hSpan, y, rest, rfl, hNext, hStop⟩ :=
    exists_beginTag_of_unclosed hValid hRun hKind hOpening
  refine ⟨by rw [hSpan], y, rest, rfl, hNext, hStop.trans ?_⟩
  rw [hSpan, Opening.span, (Markup.openingAt?_sound hOpening).2.1]

end Lexer

namespace Sightings

/-- Successive questions for the first opening of a source get the answers that each of them
would get alone, as long as the places asked about are places between characters and do not
decrease. Such an answer is the first place from there on where a tag begins, with the
longest delimiter there, or there is no such place. The questions that a reader asks are in
this order, what it knows comes from them alone, and so its next answer is a fresh one as
well. Hence a tag that begins inside an unclosed one is found again, as a tag of the same
kind, at the place where the reader broke off. -/
theorem agree_with_fresh (m : Markup) (source : List Char) :
    (∀ places, places.Pairwise (· ≤ ·) → (∀ p ∈ places, isBoundary p source = true) →
      (answers m source places unseen).1 = places.map (fresh m source)) ∧
    (∀ place, isBoundary place source = true →
      m.IsFirstFrom source place (fresh m source place)) ∧
    (∀ place text kind stop, m.longestAt? place text = some (kind, stop) ↔
      ∃ d, m.delimiters? kind = some d ∧ d.opening <+: text ∧ stop = place + byteLength d.opening ∧
        ∀ other e, m.delimiters? other = some e → e.opening <+: text →
          byteLength e.opening ≤ byteLength d.opening) ∧
    (∀ places s, Lexer.Asks m source places s → (places ++ [s.offset]).Pairwise (· ≤ ·) ∧
      (∀ p ∈ places ++ [s.offset], isBoundary p source = true) ∧ s.rest = after s.offset source ∧
      s.sightings = (answers m source places unseen).2 ∧
      (s.sightings.first? m s.offset s.rest).1 = fresh m source s.offset) ∧
    ∀ before x later kind span found stop, m.lexemes source = before ++ x :: later →
      x.kind = .unclosed kind span →
      m.longestAt? x.span.start (after x.span.start source) = some (found, stop) →
      x.span.stop = x.span.start ∧ ∃ y rest, later = y :: rest ∧ y.kind = .beginTag found ∧
        y.span = ⟨x.span.start, stop⟩ := by
  refine ⟨fun places hSorted hPlaces => ?_, fun place => isFirstFrom_fresh,
    fun place text kind stop => Markup.longestAt?_eq_some_iff, fun places s hAsks => ?_, ?_⟩
  · cases places with
    | nil => rfl
    | cons place places => exact answers_eq hSorted hPlaces (valid_unseen m place _)
  · have hRecalls := hAsks.recalls
    refine ⟨hRecalls.sorted, hRecalls.isBoundary, hRecalls.after_eq.symm, hRecalls.sightings, ?_⟩
    rw [fresh_eq, hRecalls.after_eq]
    exact hRecalls.valid.sightings.first?.1
  · intro before x later kind span found stop hSplit hKind hFound
    exact Lexer.beginTag_of_longestAt? hSplit hKind hFound

end Sightings

end Bulletin
