import Bulletin.Template.Part
import Bulletin.Proofs.Grammar

/-! How the reader of a source and the reader of its lexemes go on together.
Inside a tag the next visible lexeme fits, or something is complained about; in
plain markup a word or the end of the tag is read wherever it is written. -/
namespace Bulletin

open Text

theorem Lexeme.complaint?_eq_none_iff {x : Lexeme} :
    x.complaint? = none ↔ x.kind.isInvalid = false := by
  unfold complaint?
  cases x.kind <;> simp [TokenKind.isInvalid]

namespace Part

/-- Where a reader stands behind an opening. -/
def State.ofOpening (span : Span) : TagKind → State
  | .variable => .variableName span
  | .directive => .directiveWord span

/-- One of the parts is a complaint. -/
def Complains (parts : List Part) : Prop :=
  ∃ c, .complaint c ∈ parts

theorem Complains.append_left {parts : List Part} (hParts : Complains parts) (more : List Part) :
    Complains (more ++ parts) := by
  obtain ⟨c, hc⟩ := hParts
  exact ⟨c, List.mem_append_right more hc⟩

theorem Complains.append_right {parts : List Part} (hParts : Complains parts) (more : List Part) :
    Complains (parts ++ more) := by
  obtain ⟨c, hc⟩ := hParts
  exact ⟨c, List.mem_append_left more hc⟩

theorem complains_of_head (c : Complaint) (parts : List Part) :
    Complains (.complaint c :: parts) :=
  ⟨c, List.mem_cons_self ..⟩

theorem step_of_misfit {state : State} {x : Lexeme} {wanted : Expectation} {last : Span}
    {held : List Part} (hDemand : state.demand? = some (wanted, last, held))
    (hMisfit : fitStep? state x = none) : step state x = mismatchStep wanted held x := by
  unfold step
  cases state <;> simp only [State.demand?, hMisfit, Option.some.injEq, Prod.mk.injEq,
    reduceCtorEq] at hDemand ⊢ <;> obtain ⟨rfl, rfl, rfl⟩ := hDemand <;> rfl

/-- A tag that goes wrong still opens or closes a conditional, or amounts to nothing. -/
theorem eq_of_mem_held {state : State} {wanted : Expectation} {last : Span} {held : List Part}
    (hDemand : state.demand? = some (wanted, last, held)) :
    ∀ p ∈ held, p = .openBroken ∨ ∃ span, p = .close span := by
  cases state <;> simp only [State.demand?, Option.some.injEq, Prod.mk.injEq, reduceCtorEq]
    at hDemand <;> obtain ⟨-, -, rfl⟩ := hDemand
  · simp
  · simp
  · simp
  · simp
  · simp
  · next opening directive last => cases directive <;> simp [Directive.finishBroken]

theorem finish_of_demand? {state : State} {wanted : Expectation} {last : Span}
    {held : List Part} (hDemand : state.demand? = some (wanted, last, held)) (stop : Nat) :
    finish stop state = .complaint ⟨.expected wanted none, ⟨min last.stop stop, stop⟩⟩ :: held := by
  unfold finish
  cases state <;> simp only [State.demand?, Option.some.injEq, Prod.mk.injEq,
    reduceCtorEq] at hDemand ⊢ <;> obtain ⟨rfl, rfl, rfl⟩ := hDemand <;> rfl

/-- A lexeme that does not fit inside a tag is complained about, by itself or
for its place. -/
theorem complains_of_misfit {state : State} {x : Lexeme} (hDemand : state.demand?.isSome = true)
    (hMisfit : fitStep? state x = none) :
    Complains ((x.complaint?.map complaint).toList ++ (step state x).1) := by
  obtain ⟨⟨wanted, last, held⟩, hDemand⟩ := Option.isSome_iff_exists.mp hDemand
  rw [step_of_misfit hDemand hMisfit]
  unfold mismatchStep
  split
  · next hInvalid =>
      apply Complains.append_right
      cases hKind : x.kind <;> simp_all [TokenKind.isInvalid, Lexeme.complaint?]
      · exact complains_of_head _ _
      · exact complains_of_head _ _
  · exact (complains_of_head _ _).append_left _

theorem step_of_fit {state next : State} {x : Lexeme} {parts : List Part}
    (hFit : fitStep? state x = some (parts, next)) : step state x = (parts, next) := by
  cases state <;> simp_all [step, fitStep?]

/-- What a lexeme that fits can be in each state, and where it leads. -/
inductive Fit (x : Lexeme) : State → List Part → State → Prop where
  | name {opening : Span} (hKind : x.kind = .identifier) :
      Fit x (.variableName opening) [] (.variableEnd opening x.text x.span)
  | endOfVariable {opening nameSpan : Span} {name : String}
      (hKind : x.kind = .endTag .variable) :
      Fit x (.variableEnd opening name nameSpan)
        [.reference name (opening.cover x.span)] .outside
  | ifWord {opening : Span} (hKind : x.kind = .keyword .ifWord) :
      Fit x (.directiveWord opening) [] (.ifTest opening x.span)
  | endIfWord {opening : Span} (hKind : x.kind = .keyword .endIfWord) :
      Fit x (.directiveWord opening) [] (.directiveEnd opening .endIf x.span)
  | elseWord {opening : Span} (hKind : x.kind = .keyword .elseWord) :
      Fit x (.directiveWord opening) [.complaint ⟨.elseUsed, x.span⟩] (.skipping [])
  | test {opening word : Span} (hKind : x.kind = .identifier) :
      Fit x (.ifTest opening word) []
        (.directiveEnd opening (.ifName .whenTrue x.text x.span) x.span)
  | notWord {opening word : Span} (hKind : x.kind = .keyword .notWord) :
      Fit x (.ifTest opening word) [] (.ifNotTest opening x.span)
  | notTest {opening word : Span} (hKind : x.kind = .identifier) :
      Fit x (.ifNotTest opening word) []
        (.directiveEnd opening (.ifName .whenFalse x.text x.span) x.span)
  | endOfDirective {opening last : Span} {directive : Directive}
      (hKind : x.kind = .endTag .directive) :
      Fit x (.directiveEnd opening directive last)
        [directive.finish (opening.cover x.span)] .outside

theorem fit_of_fitStep? {state next : State} {x : Lexeme} {parts : List Part}
    (hFit : fitStep? state x = some (parts, next)) : Fit x state parts next := by
  unfold fitStep? at hFit
  split at hFit <;> cases hFit
  · next hKind => exact .name hKind
  · next hKind => exact .endOfVariable hKind
  · next hKind => exact .ifWord hKind
  · next hKind => exact .endIfWord hKind
  · next hKind => exact .elseWord hKind
  · next hKind => exact .test hKind
  · next hKind => exact .notWord hKind
  · next hKind => exact .notTest hKind
  · next hKind => exact .endOfDirective hKind

/-- What a step of the reader can be. Inside a tag the lexeme fits or is a mismatch, and
else it is read between tags or skipped. -/
theorem step_elim {x : Lexeme} {state : State} (P : List Part × State → Prop)
    (hFit : ∀ parts next, Fit x state parts next → P (parts, next))
    (hMisfit : ∀ wanted last held, state.demand? = some (wanted, last, held) →
      P (mismatchStep wanted held x))
    (hOutside : state = .outside → P (outsideStep x))
    (hSkipping : ∀ held, state = .skipping held → P (skipStep held x)) : P (step state x) := by
  cases hFound : fitStep? state x with
  | some result =>
      rw [step_of_fit hFound]
      exact hFit _ _ (fit_of_fitStep? hFound)
  | none =>
      cases hDemand : state.demand? with
      | some demand =>
          rw [step_of_misfit hDemand hFound]
          exact hMisfit _ _ _ hDemand
      | none =>
          cases state with
          | outside => exact hOutside rfl
          | skipping held => exact hSkipping held rfl
          | _ => cases hDemand

/-- Only words and ends of tags can fit. -/
theorem complaint?_of_fit {state next : State} {x : Lexeme} {parts : List Part}
    (hFit : fitStep? state x = some (parts, next)) :
    x.complaint? = none ∧ x.kind ≠ .whitespace := by
  cases fit_of_fitStep? hFit <;> simp_all [Lexeme.complaint?]

end Part

namespace Lexer

variable {m : Markup} {s next : Lexer} {x : Lexeme} {stop : Nat} {state : Part.State}
  {tag : Opening}

/-- The parts that the rest of a source amounts to for a reader of lexemes that
stands in a state. -/
def parts (m : Markup) (stop : Nat) (state : Part.State) (s : Lexer) : List Part :=
  Part.ofLexemes stop state (s.run m)

theorem parts_of_none (hStep : step m s = none) :
    s.parts m stop state = Part.finish stop state := by
  rw [parts, run_of_none hStep, Part.ofLexemes]

theorem parts_of_whitespace (hStep : step m s = some (x, next)) (hKind : x.kind = .whitespace) :
    s.parts m stop state = next.parts m stop state := by
  rw [parts, run_of_some hStep, Part.ofLexemes, if_pos hKind]
  rfl

theorem parts_of_visible (hStep : step m s = some (x, next)) (hKind : x.kind ≠ .whitespace) :
    s.parts m stop state =
      (x.complaint?.map .complaint).toList ++ (Part.step state x).1 ++
        next.parts m stop (Part.step state x).2 := by
  rw [parts, run_of_some hStep, Part.ofLexemes, if_neg hKind]
  rfl

theorem parts_of_opening {kind : TagKind} (hStep : step m s = some (x, next))
    (hKind : x.kind = .beginTag kind) :
    s.parts m stop .outside = next.parts m stop (.ofOpening x.span kind) := by
  rw [parts_of_visible hStep (by simp [hKind])]
  cases kind <;> simp [Lexeme.complaint?, Part.step, Part.outsideStep, hKind, Part.State.ofOpening]

theorem parts_of_fit {state' : Part.State} {given : List Part}
    (hStep : step m s = some (x, next)) (hFit : Part.fitStep? state x = some (given, state')) :
    s.parts m stop state = given ++ next.parts m stop state' := by
  obtain ⟨hSound, hVisible⟩ := Part.complaint?_of_fit hFit
  rw [parts_of_visible hStep hVisible, Part.step_of_fit hFit, hSound]
  rfl

/-- What a reader outside of tags can come to: the end of the source, a text
that reaches up to the next opening, or an opening. -/
inductive Outside (m : Markup) (s : Lexer) : Prop where
  | finished (hRest : s.rest = []) (hParts : ∀ stop, s.parts m stop .outside = [])
  | text {text : List Char} {span : Span} {next : Lexer} (hText : text ≠ [])
      (hRest : s.rest = text ++ next.rest) (hUntouched : m.Untouched text next.rest)
      (hRight : next.rest = [] ∨ m.Opens next.rest) (hNext : next.Valid m)
      (hTag : next.tag? = none) (hLess : next.remaining < s.remaining)
      (hParts : ∀ stop, s.parts m stop .outside =
        .text (String.ofList text) span :: next.parts m stop .outside)
  | opening {o : Opening} {span : Span} {next : Lexer}
      (hOpening : m.openingAt? s.offset s.rest = some o)
      (hRest : s.rest = o.delimiters.opening ++ next.rest) (hNext : next.Valid m)
      (hTag : next.tag? = some o) (hLess : next.remaining < s.remaining)
      (hParts : ∀ stop,
        s.parts m stop .outside = next.parts m stop (.ofOpening span o.kind))

theorem outside_of_tag?_eq_none (hValid : s.Valid m) (hTag : s.tag? = none) : Outside m s := by
  cases hStep : step m s with
  | none => exact .finished (step_eq_none_iff.mp hStep).2 fun _ => parts_of_none hStep
  | some result =>
      obtain ⟨x, next⟩ := result
      have hNext := step_valid hValid hStep
      have hLess := step_remaining_lt hStep
      cases step_move hValid hStep with
      | text _ hRest hText hUntouched hRight =>
          exact .text hText hRest hUntouched hRight hNext rfl hLess
            fun _ => parts_of_visible hStep (by simp [take])
      | opening _ hOpening hRest =>
          exact .opening hOpening hRest hNext rfl hLess fun _ => parts_of_opening hStep rfl
      | closing hInside => simp [hTag] at hInside
      | broken hInside => simp [hTag] at hInside
      | gap hInside => simp [hTag] at hInside
      | word hInside => simp [hTag] at hInside
      | stray hInside => simp [hTag] at hInside

/-- What a visible lexeme inside a tag can be if nothing is wrong with it. -/
inductive Inside (tag : Opening) (x : Lexeme) (next : Lexer) : Prop where
  | closing (hKind : x.kind = .endTag tag.kind)
      (hText : x.text.toList = tag.delimiters.closing) (hNext : next.tag? = none)
  | word (hKind : x.kind = wordKind x.text.toList)
      (hWord : Identifier.IsIdentifier x.text.toList)
      (hRight : Stops Identifier.isContinue next.rest) (hNext : next.tag? = some tag)

/-- The reader gets over a gap to a lexeme that fits, and goes on behind it. -/
inductive ReadsOn (m : Markup) (stop : Nat) (tag : Opening) (state : Part.State)
    (s : Lexer) : Prop where
  | mk {gap : List Char} {x : Lexeme} {next : Lexer} {given : List Part} {state' : Part.State}
      (hGap : IsGapRun gap) (hRest : s.rest = gap ++ x.text.toList ++ next.rest)
      (hNext : next.Valid m) (hLess : next.remaining < s.remaining)
      (hInside : Inside tag x next) (hFit : Part.fitStep? state x = some (given, state'))
      (hParts : s.parts m stop state = given ++ next.parts m stop state')

private theorem complains_or_readsOn_here (hValid : s.Valid m)
    (hStep : step m s = some (x, next)) (hInside : Inside tag x next ∨ x.kind.isInvalid = true)
    (hKind : x.kind ≠ .whitespace) (hDemand : state.demand?.isSome = true) :
    Part.Complains (s.parts m stop state) ∨ ReadsOn m stop tag state s := by
  have hMove := step_move hValid hStep
  cases hFit : Part.fitStep? state x with
  | none =>
      left
      rw [parts_of_visible hStep hKind]
      exact (Part.complains_of_misfit hDemand hFit).append_right _
  | some result =>
      obtain ⟨given, state'⟩ := result
      have hSound : x.kind.isInvalid ≠ true := by
        simp [Lexeme.complaint?_eq_none_iff.mp (Part.complaint?_of_fit hFit).1]
      have hNoGap : IsGapRun [] := by simp [IsGapRun]
      exact Or.inr (.mk hNoGap hMove.span.1 (hMove.valid hValid) (step_remaining_lt hStep)
        (hInside.resolve_right hSound) hFit (parts_of_fit hStep hFit))

/-- Inside a tag something is complained about, or the tag goes on as it
should. -/
theorem complains_or_readsOn (hValid : s.Valid m) (hTag : s.tag? = some tag)
    (hDemand : state.demand?.isSome = true) :
    Part.Complains (s.parts m stop state) ∨ ReadsOn m stop tag state s := by
  induction hMeasure : s.remaining using Nat.strongRecOn generalizing s with
  | ind n ih =>
      subst hMeasure
      obtain ⟨x, next, hStep⟩ : ∃ x next, step m s = some (x, next) :=
        exists_step (Or.inl (by simp [hTag]))
      have hLess := step_remaining_lt hStep
      cases step_move hValid hStep with
      | text hOutside => simp [hOutside] at hTag
      | opening hOutside => simp [hOutside] at hTag
      | closing hInside =>
          obtain rfl := Option.some.inj (hTag.symm.trans hInside)
          refine complains_or_readsOn_here hValid hStep (Or.inl (.closing rfl ?_ rfl)) ?_ hDemand
          · simp [take]
          · simp [take]
      | broken hInside =>
          exact complains_or_readsOn_here hValid hStep (Or.inr rfl) (by simp [take]) hDemand
      | stray hInside =>
          exact complains_or_readsOn_here hValid hStep (Or.inr rfl) (by simp [take]) hDemand
      | word hInside _ _ _ hWord hRight =>
          obtain rfl := Option.some.inj (hTag.symm.trans hInside)
          refine complains_or_readsOn_here hValid hStep (Or.inl (.word ?_ ?_ hRight rfl)) ?_ hDemand
          · simp [take]
          · simpa [take] using hWord
          · unfold take wordKind
            split <;> simp
      | gap hInside _ _ hSplit _ hGap =>
          obtain rfl := Option.some.inj (hTag.symm.trans hInside)
          have hSame : s.parts m stop state = _ := parts_of_whitespace hStep rfl
          rw [hSame]
          refine (ih _ hLess (step_valid hValid hStep) rfl rfl).imp_right ?_
          rintro ⟨hMore, hAhead, hAfter, hFewer, hInside, hFit, hParts⟩
          refine .mk (fun c hc => (List.mem_append.mp hc).elim (hGap c) (hMore c)) ?_ hAfter
            (hFewer.trans hLess) hInside hFit (hSame.trans hParts)
          rw [hSplit, List.append_assoc, List.append_assoc]
          exact congrArg _ (hAhead.trans (List.append_assoc ..))

section Plain

variable {gap word right : List Char}

/-- A character that can stand inside a tag is the next one. -/
def Inner (text : List Char) : Prop :=
  ∃ c rest, text = c :: rest ∧ (Identifier.isContinue c = true ∨ isGap c = true)

theorem Inner.of_word (hWord : Identifier.IsIdentifier word) (right : List Char) :
    Inner (word ++ right) := by
  obtain ⟨c, rest, rfl, hStart⟩ := hWord.exists_cons
  exact ⟨c, rest ++ right, rfl, Or.inl (Identifier.isContinue_of_isStart hStart)⟩

theorem Inner.of_gap (hGap : IsGapRun gap) (hRight : Inner right) : Inner (gap ++ right) := by
  cases gap with
  | nil => exact hRight
  | cons c gap => exact ⟨c, gap ++ right, rfl, Or.inr (hGap c (by simp))⟩

theorem stops_isGap_of_word (hWord : Identifier.IsIdentifier word) (right : List Char) :
    Stops isGap (word ++ right) := by
  obtain ⟨c, rest, rfl, hStart⟩ := hWord.exists_cons
  intro d hd
  obtain rfl : c = d := by simpa using hd
  exact isGap_eq_false_of_isContinue (Identifier.isContinue_of_isStart hStart)

/-- A gap ends the word before it. -/
theorem stops_isContinue_of_gap (hGap : IsGapRun gap)
    (hRight : gap ≠ [] ∨ Stops Identifier.isContinue right) :
    Stops Identifier.isContinue (gap ++ right) := by
  cases gap with
  | nil => exact hRight.resolve_left (by simp)
  | cons c gap =>
      intro d hd
      obtain rfl : c = d := by simpa using hd
      rw [Bool.eq_false_iff]
      intro hContinue
      simpa [isGap_eq_false_of_isContinue hContinue] using hGap c (by simp)

/-- A closing delimiter ends whatever stands before it in the tag. -/
theorem stops_closing (hPlain : m.IsPlain) {kind : TagKind} {d : Delimiters}
    (hd : m.delimiters? kind = some d) (right : List Char) :
    Stops isGap (d.closing ++ right) ∧ Stops Identifier.isContinue (d.closing ++ right) := by
  obtain ⟨b, closing, hClosing⟩ := List.exists_cons_of_ne_nil d.closing_ne_nil
  have hInner := hPlain.head_not_inner (c := b) hd (by simp [hClosing])
  rw [not_or, Bool.not_eq_true, Bool.not_eq_true] at hInner
  rw [hClosing]
  constructor
  · intro c hc
    obtain rfl : b = c := by simpa using hc
    exact hInner.2
  · intro c hc
    obtain rfl : b = c := by simpa using hc
    exact hInner.1

/-- In plain markup neither the tag ends nor another one begins where a
character stands that can be inside a tag. -/
private theorem not_delimited (hPlain : m.IsPlain) (hValid : s.Valid m)
    (hTag : s.tag? = some tag) (hInner : Inner s.rest) :
    ¬tag.delimiters.closing <+: s.rest ∧ ¬m.Opens s.rest ∧
      ∀ c ∈ s.rest.head?, isLineBreak c = false := by
  obtain ⟨c, rest, hRest, hc⟩ := hInner
  rw [hRest]
  refine ⟨hPlain.not_closing_cons (hValid.tag tag hTag) hc, hPlain.not_opens_cons hc, ?_⟩
  intro d hd
  obtain rfl : c = d := by simpa using hd
  rcases hc with hContinue | hGap
  · exact isLineBreak_eq_false_of_isContinue hContinue
  · exact isLineBreak_eq_false_of_isGap hGap

private theorem step_gap (hPlain : m.IsPlain) (hValid : s.Valid m) (hTag : s.tag? = some tag)
    (hRest : s.rest = gap ++ right) (hSome : gap ≠ []) (hGap : IsGapRun gap)
    (hRight : Stops isGap right) :
    ∃ x next, step m s = some (x, next) ∧ x.kind = .whitespace ∧ next.rest = right ∧
      next.tag? = some tag := by
  obtain ⟨c, tail, rfl⟩ := List.exists_cons_of_ne_nil hSome
  have hHead : isGap c = true := hGap c (by simp)
  obtain ⟨hClosing, hOpens, hLine⟩ := not_delimited hPlain hValid hTag
    ⟨c, tail ++ right, hRest, Or.inr hHead⟩
  obtain ⟨x, next, hStep⟩ := exists_step (m := m) (s := s) (Or.inl (by simp [hTag]))
  refine ⟨x, next, hStep, ?_⟩
  cases step_move hValid hStep with
  | text hOutside => simp [hOutside] at hTag
  | opening hOutside => simp [hOutside] at hTag
  | closing hInside hText =>
      obtain rfl := Option.some.inj (hTag.symm.trans hInside)
      exact absurd ⟨_, hText.symm⟩ hClosing
  | broken _ _ hBroken =>
      rcases hBroken with hNil | hOther | ⟨d, hd, hBreak⟩
      · simp [hRest] at hNil
      · exact absurd hOther hOpens
      · simp [hLine d hd] at hBreak
  | gap hInside _ _ hText _ hOther hStops =>
      obtain ⟨rfl, rfl⟩ := append_inj_of_stops (hRest.symm.trans hText) hGap hRight hOther hStops
      exact ⟨rfl, rfl, hInside.symm.trans hTag⟩
  | word _ _ _ hText hWord =>
      obtain ⟨d, rest, rfl, hStart⟩ := hWord.exists_cons
      obtain ⟨rfl, -⟩ := List.cons.inj (hRest.symm.trans hText)
      simp [isGap_eq_false_of_isContinue (Identifier.isContinue_of_isStart hStart)] at hHead
  | stray _ _ _ hText _ hNoGap =>
      obtain ⟨rfl, -⟩ := List.cons.inj (hRest.symm.trans hText)
      simp [hNoGap] at hHead

private theorem step_word (hPlain : m.IsPlain) (hValid : s.Valid m) (hTag : s.tag? = some tag)
    (hRest : s.rest = word ++ right) (hWord : Identifier.IsIdentifier word)
    (hRight : Stops Identifier.isContinue right) :
    ∃ x next, step m s = some (x, next) ∧ x.kind = wordKind word ∧
      x.text = String.ofList word ∧ next.rest = right ∧ next.tag? = some tag := by
  obtain ⟨hClosing, hOpens, hLine⟩ := not_delimited hPlain hValid hTag
    (hRest ▸ Inner.of_word hWord right)
  obtain ⟨c, tail, hCons, hStart⟩ := hWord.exists_cons
  have hHead : s.rest = c :: (tail ++ right) := by rw [hRest, hCons, List.cons_append]
  obtain ⟨x, next, hStep⟩ := exists_step (m := m) (s := s) (Or.inl (by simp [hTag]))
  refine ⟨x, next, hStep, ?_⟩
  cases step_move hValid hStep with
  | text hOutside => simp [hOutside] at hTag
  | opening hOutside => simp [hOutside] at hTag
  | closing hInside hText =>
      obtain rfl := Option.some.inj (hTag.symm.trans hInside)
      exact absurd ⟨_, hText.symm⟩ hClosing
  | broken _ _ hBroken =>
      rcases hBroken with hNil | hOther | ⟨d, hd, hBreak⟩
      · simp [hHead] at hNil
      · exact absurd hOther hOpens
      · simp [hLine d hd] at hBreak
  | gap _ _ _ hText hSome hGap =>
      obtain ⟨d, rest, rfl⟩ := List.exists_cons_of_ne_nil hSome
      obtain ⟨rfl, -⟩ := List.cons.inj (hHead.symm.trans hText)
      have hNoGap := isGap_eq_false_of_isContinue (Identifier.isContinue_of_isStart hStart)
      simp [hGap c (by simp)] at hNoGap
  | word hInside _ _ hText hOther hStops =>
      obtain ⟨rfl, rfl⟩ := append_inj_of_stops (hRest.symm.trans hText) hWord.isContinue hRight
        hOther.isContinue hStops
      exact ⟨rfl, rfl, rfl, hInside.symm.trans hTag⟩
  | stray _ _ _ hText _ _ hNoStart =>
      obtain ⟨rfl, -⟩ := List.cons.inj (hHead.symm.trans hText)
      simp [hNoStart] at hStart

private theorem step_closing (hValid : s.Valid m) (hTag : s.tag? = some tag)
    (hRest : s.rest = tag.delimiters.closing ++ right) :
    ∃ x next, step m s = some (x, next) ∧ x.kind = .endTag tag.kind ∧ next.rest = right ∧
      next.tag? = none := by
  have hHere {other : Opening} (hInside : s.tag? = some other)
      (hClosing : ¬other.delimiters.closing <+: s.rest) : False := by
    obtain rfl := Option.some.inj (hTag.symm.trans hInside)
    exact hClosing ⟨right, hRest.symm⟩
  obtain ⟨x, next, hStep⟩ := exists_step (m := m) (s := s) (Or.inl (by simp [hTag]))
  refine ⟨x, next, hStep, ?_⟩
  cases step_move hValid hStep with
  | text hOutside => simp [hOutside] at hTag
  | opening hOutside => simp [hOutside] at hTag
  | closing hInside hText =>
      obtain rfl := Option.some.inj (hTag.symm.trans hInside)
      obtain rfl := List.append_cancel_left (hRest.symm.trans hText)
      exact ⟨rfl, rfl, rfl⟩
  | broken hInside hClosing => exact (hHere hInside hClosing).elim
  | gap hInside hClosing => exact (hHere hInside hClosing).elim
  | word hInside hClosing => exact (hHere hInside hClosing).elim
  | stray hInside hClosing => exact (hHere hInside hClosing).elim

/-- In plain markup the reader gets over a gap inside a tag. -/
theorem exists_behind_gap (hPlain : m.IsPlain) (hValid : s.Valid m) (hTag : s.tag? = some tag)
    (hRest : s.rest = gap ++ right) (hGap : IsGapRun gap) (hRight : Stops isGap right) :
    ∃ next : Lexer, next.rest = right ∧ next.tag? = some tag ∧ next.Valid m ∧
      ∀ stop state, s.parts m stop state = next.parts m stop state := by
  by_cases hSome : gap = []
  · subst hSome
    exact ⟨s, hRest, hTag, hValid, fun _ _ => rfl⟩
  · obtain ⟨x, next, hStep, hKind, hAhead, hInside⟩ :=
      step_gap hPlain hValid hTag hRest hSome hGap hRight
    exact ⟨next, hAhead, hInside, step_valid hValid hStep,
      fun _ _ => parts_of_whitespace hStep hKind⟩

/-- In plain markup a word is read wherever it is written after a gap. -/
theorem exists_word (hPlain : m.IsPlain) (hValid : s.Valid m) (hTag : s.tag? = some tag)
    (hRest : s.rest = gap ++ (word ++ right)) (hGap : IsGapRun gap)
    (hWord : Identifier.IsIdentifier word) (hRight : Stops Identifier.isContinue right) :
    ∃ (x : Lexeme) (next : Lexer), x.kind = wordKind word ∧ x.text = String.ofList word ∧
      next.rest = right ∧ next.tag? = some tag ∧ next.Valid m ∧
        ∀ stop state given state', Part.fitStep? state x = some (given, state') →
          s.parts m stop state = given ++ next.parts m stop state' := by
  obtain ⟨here, hHere, hInside, hSame, hParts⟩ := exists_behind_gap hPlain hValid hTag hRest hGap
    (stops_isGap_of_word hWord right)
  obtain ⟨x, next, hStep, hKind, hText, hAhead, hAfter⟩ :=
    step_word hPlain hSame hInside hHere hWord hRight
  exact ⟨x, next, hKind, hText, hAhead, hAfter, step_valid hSame hStep,
    fun stop state _ _ hFit => (hParts stop state).trans (parts_of_fit hStep hFit)⟩

/-- In plain markup the end of a tag is read wherever it is written after a
gap. -/
theorem exists_closing (hPlain : m.IsPlain) (hValid : s.Valid m) (hTag : s.tag? = some tag)
    (hRest : s.rest = gap ++ (tag.delimiters.closing ++ right)) (hGap : IsGapRun gap) :
    ∃ (x : Lexeme) (next : Lexer), x.kind = .endTag tag.kind ∧ next.rest = right ∧
      next.tag? = none ∧ next.Valid m ∧
        ∀ stop state given state', Part.fitStep? state x = some (given, state') →
          s.parts m stop state = given ++ next.parts m stop state' := by
  obtain ⟨here, hHere, hInside, hSame, hParts⟩ := exists_behind_gap hPlain hValid hTag hRest hGap
    (stops_closing hPlain (hValid.tag tag hTag) right).1
  obtain ⟨x, next, hStep, hKind, hAhead, hAfter⟩ := step_closing hSame hInside hHere
  exact ⟨x, next, hKind, hAhead, hAfter, step_valid hSame hStep,
    fun stop state _ _ hFit => (hParts stop state).trans (parts_of_fit hStep hFit)⟩

/-- In plain markup an opening is read wherever a gap or a word follows it. -/
theorem exists_opening (hPlain : m.IsPlain) (hValid : s.Valid m) (hTag : s.tag? = none)
    {kind : TagKind} {d : Delimiters} (hd : m.delimiters? kind = some d)
    (hRest : s.rest = d.opening ++ right) (hInner : Inner right) :
    ∃ (span : Span) (next : Lexer), next.rest = right ∧
      next.tag? = some ⟨kind, d, s.offset⟩ ∧ next.Valid m ∧
        ∀ stop, s.parts m stop .outside = next.parts m stop (.ofOpening span kind) := by
  obtain ⟨c, tail, rfl, hc⟩ := hInner
  have hHere : m.openingAt? s.offset s.rest = some ⟨kind, d, s.offset⟩ := by
    rw [hRest]
    exact hPlain.openingAt?_eq hd hc s.offset
  have hOpens : m.Opens s.rest := ⟨kind, d, hd, c :: tail, hRest.symm⟩
  cases outside_of_tag?_eq_none hValid hTag with
  | finished hNil => exact absurd (hNil ▸ hOpens) m.not_opens_nil
  | text hSome hText hUntouched => exact absurd (hText ▸ hOpens) (hUntouched [] _ rfl hSome)
  | opening hFound hText hNext hInside _ hParts =>
      obtain rfl := Option.some.inj (hHere.symm.trans hFound)
      exact ⟨_, _, List.append_cancel_left (hText.symm.trans hRest), hInside, hNext, hParts⟩

end Plain

end Lexer

end Bulletin
