import Bulletin.Proofs.Segments

/-! What a tag amounts to. It is told from the words in it alone, and a tag that
is not well formed amounts to the same however it goes wrong: the reader of
lexemes takes exactly the rest of the tag, with complaints of its own. -/
namespace Bulletin

open Text Lexer

/-- Whether the lexeme is more than a gap between words. -/
def Lexeme.isVisible (x : Lexeme) : Bool :=
  decide (x.kind ≠ .whitespace)

/-- The kinds of lexemes that stand inside a tag. -/
def TokenKind.IsInterior : TokenKind → Prop
  | whitespace | keyword _ | identifier | unexpected => True
  | _ => False

/-- The kinds of lexemes that a tag ends with. -/
def TokenKind.Ends (kind : TagKind) : TokenKind → Prop
  | endTag other | unclosed other _ => other = kind
  | _ => False

/-- The head of a conditional, with the place of its name and of its tag. -/
structure Header where
  polarity : Polarity
  name : String
  nameSpan : Span
  span : Span
  deriving DecidableEq, Repr

/-- What a segment is to the scopes of a document. -/
inductive Role where
  | opener
  | closer
  | neutral
  deriving DecidableEq, Repr

namespace Segment

/-- Directive tags open or close a scope by their first word, whatever follows
it. -/
def role : Segment → Role
  | text _ => .neutral
  | tag opening inner _ =>
    match opening.kind, (inner.filter Lexeme.isVisible).head?.map Lexeme.kind with
    | .beginTag .directive, some (.keyword .ifWord) => .opener
    | .beginTag .directive, some (.keyword .endIfWord) => .closer
    | _, _ => .neutral

/-- The name that some words of a tag are, if the tag ends behind it. -/
def name? (words : List Lexeme) (last : Lexeme) : Option Lexeme :=
  match words, last.kind with
  | [x], .endTag _ => if x.kind = .identifier then some x else none
  | _, _ => none

/-- The head of a conditional whose tag stands at the span, by the words behind
its first one. -/
def test? (span : Span) (words : List Lexeme) (last : Lexeme) : Option Header :=
  match words with
  | ⟨.keyword .notWord, _, _⟩ :: words =>
    (name? words last).map fun x => ⟨.whenFalse, x.text, x.span, span⟩
  | words => (name? words last).map fun x => ⟨.whenTrue, x.text, x.span, span⟩

/-- The head that a directive tag has if it is well formed. -/
def header? : Segment → Option Header
  | text _ => none
  | tag opening inner last =>
    match opening.kind, inner.filter Lexeme.isVisible with
    | .beginTag .directive, ⟨.keyword .ifWord, _, _⟩ :: words =>
      test? (opening.span.cover last.span) words last
    | _, _ => none

/-- The name in a variable tag that is well formed, and the place of the tag. -/
def reference? : Segment → Option (String × Span)
  | text _ => none
  | tag opening inner last =>
    match opening.kind with
    | .beginTag .variable =>
      (name? (inner.filter Lexeme.isVisible) last).map fun x =>
        (x.text, opening.span.cover last.span)
    | _ => none

/-- Whether a tag is nothing but its first word. -/
def isPlain : Segment → Bool
  | text _ => false
  | tag _ inner last =>
    match inner.filter Lexeme.isVisible, last.kind with
    | [_], .endTag _ => true
    | _, _ => false

/-- The place of a closer: the whole tag if it is well formed, and else the tag up
to its first word. -/
def closeSpan : Segment → Span
  | text x => x.span
  | tag opening inner last =>
    match inner.filter Lexeme.isVisible, last.kind with
    | [_], .endTag _ => opening.span.cover last.span
    | word :: _, _ => opening.span.cover word.span
    | [], _ => opening.span

/-- What a segment amounts to in the document, complaints apart. -/
def part? (s : Segment) : Option Part :=
  match s with
  | text x => some (.text x.text x.span)
  | tag _ _ _ =>
    match s.role with
    | .opener =>
      some (s.header?.elim .openBroken fun h => .openIf h.polarity h.name h.nameSpan h.span)
    | .closer => some (.close s.closeSpan)
    | .neutral => s.reference?.map fun (name, span) => .reference name span

/-- The segment is a text or a tag that is well formed. -/
def IsSound (s : Segment) : Prop :=
  match s with
  | text _ => True
  | tag _ _ _ =>
    match s.role with
    | .opener => s.header?.isSome = true
    | .closer => s.isPlain = true
    | .neutral => s.reference?.isSome = true

/-- The lexemes of the segment are of kinds that belong where they are. -/
def Shaped : Segment → Prop
  | text x => x.kind = .rawText
  | tag opening inner last => ∃ kind, opening.kind = .beginTag kind ∧
      (∀ x ∈ inner, x.kind.IsInterior) ∧ last.kind.Ends kind

end Segment

/-- The problem lies within one tag, and is none of the scopes. -/
def Problem.IsLocal : Problem → Prop
  | .strayEndIf | .unclosedIf _ => False
  | _ => True

namespace Part

variable {state next : State} {x last : Lexeme} {xs rest : List Lexeme} {held parts : List Part}
  {kind : TagKind} {stop : Nat} {sound : Prop}

/-- What follows a tag: nothing, a text or another tag. -/
def Resumes (rest : List Lexeme) : Prop :=
  ∀ x ∈ rest.head?, x.kind = .rawText ∨ ∃ kind, x.kind = .beginTag kind

/-- For a reader that stands inside a tag, the rest of the tag amounts to the
parts, behind some complaints. There are none only if the tag is sound. -/
def Amounts (state : State) (rest : List Lexeme) (parts : List Part) (sound : Prop) : Prop :=
  ∃ cs : List Complaint, (∀ c ∈ cs, c.problem.IsLocal) ∧ (cs = [] → sound) ∧
    ∀ stop more, Resumes more →
      ofLexemes stop state (rest ++ more) =
        cs.map complaint ++ parts ++ ofLexemes stop .outside more

theorem ofLexemes_cons (hVisible : x.kind ≠ .whitespace) :
    ofLexemes stop state (x :: xs) =
      (x.complaint?.map complaint).toList ++ (step state x).1 ++ ofLexemes stop (step state x).2 xs := by
  rw [ofLexemes, if_neg hVisible]

/-- Gaps between words mean nothing. -/
theorem ofLexemes_filter (xs more : List Lexeme) :
    ofLexemes stop state (xs.filter Lexeme.isVisible ++ more) = ofLexemes stop state (xs ++ more) := by
  induction xs generalizing state with
  | nil => rfl
  | cons x xs ih =>
      by_cases hVisible : x.kind = .whitespace
      · have hGap : x.isVisible = false := by simp [Lexeme.isVisible, hVisible]
        rw [List.filter_cons_of_neg (by simp [hGap]), ih, List.cons_append, ofLexemes,
          if_pos hVisible]
      · have hWord : x.isVisible = true := by simp [Lexeme.isVisible, hVisible]
        rw [List.filter_cons_of_pos hWord, List.cons_append, List.cons_append,
          ofLexemes_cons hVisible, ofLexemes_cons hVisible, ih]

/-- The parts that are held back come out where the text goes on. -/
theorem ofLexemes_skipping_of_resumes (hRest : Resumes rest) :
    ofLexemes stop (.skipping held) rest = held ++ ofLexemes stop .outside rest := by
  cases rest with
  | nil => simp [ofLexemes, finish, State.demand?]
  | cons x rest =>
      rcases hRest x rfl with hKind | ⟨kind, hKind⟩
      · simp [ofLexemes, hKind, Lexeme.complaint?, step, skipStep]
      · simp [ofLexemes, hKind, Lexeme.complaint?, step, skipStep]

theorem ofLexemes_skipping_cons (hInterior : x.kind.IsInterior) :
    ofLexemes stop (.skipping held) (x :: rest) =
      (x.complaint?.map complaint).toList ++ ofLexemes stop (.skipping held) rest := by
  cases hKind : x.kind <;> rw [hKind] at hInterior <;> try exact hInterior.elim
  · simp [ofLexemes, hKind, Lexeme.complaint?]
  · simp [ofLexemes, hKind, Lexeme.complaint?, step, skipStep]
  · simp [ofLexemes, hKind, Lexeme.complaint?, step, skipStep]
  · simp [ofLexemes, hKind, Lexeme.complaint?, step, skipStep]

/-- Skipping goes on to the end of the tag, and reports only what is invalid by
itself. -/
theorem ofLexemes_skipping (hInterior : ∀ x ∈ xs, x.kind.IsInterior) (hLast : last.kind.Ends kind)
    (hRest : Resumes rest) :
    ofLexemes stop (.skipping held) (xs ++ [last] ++ rest) =
      ((xs ++ [last]).filterMap Lexeme.complaint?).map complaint ++ held ++
        ofLexemes stop .outside rest := by
  induction xs with
  | nil =>
      cases hKind : last.kind <;> rw [hKind] at hLast <;> try exact hLast.elim
      · simp [ofLexemes, hKind, Lexeme.complaint?, step, skipStep]
      · simp [ofLexemes, hKind, Lexeme.complaint?, step, skipStep,
          ofLexemes_skipping_of_resumes hRest]
  | cons x xs ih =>
      obtain ⟨hHere, hMore⟩ := List.forall_mem_cons.mp hInterior
      rw [List.cons_append, List.cons_append, ofLexemes_skipping_cons hHere, ih hMore,
        List.filterMap_cons]
      cases x.complaint? <;> simp

theorem amounts_of_fit (hFit : fitStep? state x = some ([], next))
    (hRest : Amounts next rest parts sound) : Amounts state (x :: rest) parts sound := by
  obtain ⟨cs, hLocal, hSound, hParts⟩ := hRest
  refine ⟨cs, hLocal, hSound, fun stop more hMore => ?_⟩
  obtain ⟨hSilent, hVisible⟩ := complaint?_of_fit hFit
  rw [List.cons_append, ofLexemes_cons hVisible, hSilent, step_of_fit hFit]
  exact hParts stop more hMore

/-- The lexeme that ends a tag as it should. -/
theorem amounts_of_end (hFit : fitStep? state last = some (parts, .outside)) (hSound : sound) :
    Amounts state [last] parts sound := by
  obtain ⟨hSilent, hVisible⟩ := complaint?_of_fit hFit
  refine ⟨[], by simp, fun _ => hSound, fun stop more _ => ?_⟩
  rw [List.singleton_append, ofLexemes_cons hVisible, hSilent, step_of_fit hFit]
  rfl

section Tag

variable {wanted : Expectation} {place : Span}

/-- A lexeme that does not fit is complained about unless it is invalid by
itself, and the tag is skipped from there on. -/
theorem ofLexemes_of_misfit (hDemand : state.demand? = some (wanted, place, held))
    (hVisible : x.kind ≠ .whitespace) (hMisfit : fitStep? state x = none) :
    ofLexemes stop state (x :: rest) =
      (if x.kind.isInvalid then [] else [.complaint ⟨.expected wanted (some x.kind), x.span⟩]) ++
        ofLexemes stop (.skipping held) (x :: rest) := by
  have hSkip : step (.skipping held) x = skipStep held x := rfl
  rw [ofLexemes_cons hVisible, ofLexemes_cons hVisible, step_of_misfit hDemand hMisfit, hSkip]
  unfold mismatchStep
  split
  · rfl
  · next hValid =>
      have hSilent : x.complaint? = none := Lexeme.complaint?_eq_none_iff.mpr (by simpa using hValid)
      simp [hSilent]

theorem isLocal_of_complaint? {c : Complaint} (hComplaint : x.complaint? = some c) :
    c.problem.IsLocal := by
  unfold Lexeme.complaint? at hComplaint
  split at hComplaint <;> cases hComplaint <;> trivial

/-- The words that are left of a tag, and the lexeme that ends it. -/
structure Words (kind : TagKind) (xs : List Lexeme) (last : Lexeme) : Prop where
  interior : ∀ x ∈ xs, x.kind.IsInterior
  visible : ∀ x ∈ xs, x.kind ≠ .whitespace
  ends : last.kind.Ends kind

theorem Words.of_cons (hWords : Words kind (x :: xs) last) : Words kind xs last :=
  ⟨(List.forall_mem_cons.mp hWords.interior).2, (List.forall_mem_cons.mp hWords.visible).2,
    hWords.ends⟩

theorem Words.kind_head (hWords : Words kind (x :: xs) last) :
    x.kind = .identifier ∨ (∃ word, x.kind = .keyword word) ∨ x.kind = .unexpected := by
  have hInterior := hWords.interior x List.mem_cons_self
  have hVisible := hWords.visible x List.mem_cons_self
  cases hKind : x.kind <;> simp_all [TokenKind.IsInterior]

theorem Words.kind_last (hWords : Words kind xs last) :
    last.kind = .endTag kind ∨ ∃ opening, last.kind = .unclosed kind opening := by
  have hEnds := hWords.ends
  cases hKind : last.kind <;> simp_all [TokenKind.Ends]

/-- A tag that goes wrong amounts to what is held back. -/
theorem amounts_of_misfit (hWords : Words kind xs last)
    (hDemand : state.demand? = some (wanted, place, held))
    (hMisfit : ∀ x ∈ (xs ++ [last]).head?, fitStep? state x = none) :
    Amounts state (xs ++ [last]) held sound := by
  obtain ⟨y, ys, hList⟩ : ∃ y ys, xs ++ [last] = y :: ys := List.exists_cons_of_ne_nil (by simp)
  have hHere : y.kind ≠ .whitespace := by
    have hMem : y ∈ xs ++ [last] := hList ▸ List.mem_cons_self
    rcases List.mem_append.mp hMem with hMem | hMem
    · exact hWords.visible y hMem
    · rw [List.mem_singleton.mp hMem]
      rcases hWords.kind_last with hLast | ⟨opening, hLast⟩ <;> simp [hLast]
  have hFirst := hMisfit y (by simp [hList])
  refine ⟨(if y.kind.isInvalid then [] else [⟨.expected wanted (some y.kind), y.span⟩]) ++
    (xs ++ [last]).filterMap Lexeme.complaint?, ?_, ?_, ?_⟩
  · intro c hc
    rcases List.mem_append.mp hc with hc | hc
    · split at hc
      · cases hc
      · rw [List.mem_singleton.mp hc]
        trivial
    · obtain ⟨x, -, hComplaint⟩ := List.mem_filterMap.mp hc
      exact isLocal_of_complaint? hComplaint
  · intro hNone
    rw [hList, List.filterMap_cons] at hNone
    cases hKind : y.kind <;> simp [hKind, TokenKind.isInvalid, Lexeme.complaint?] at hNone
  · intro stop more hMore
    have hSkip : ofLexemes stop (.skipping held) (xs ++ [last] ++ more) = _ :=
      ofLexemes_skipping hWords.interior hWords.ends hMore
    rw [hList, List.cons_append] at hSkip ⊢
    rw [ofLexemes_of_misfit hDemand hHere hFirst, hSkip]
    split <;> simp

/-- A tag that lacks only its name and its end. Whatever goes wrong in either of
them, the same is held back. -/
theorem amounts_name (next : Lexeme → State) (done : Lexeme → Part)
    (hWords : Words kind xs last) (hDemand : state.demand? = some (wanted, place, held))
    (hName : ∀ x, x.kind = .identifier → fitStep? state x = some ([], next x))
    (hOther : ∀ x ∈ (xs ++ [last]).head?, x.kind ≠ .identifier → fitStep? state x = none)
    (hNext : ∀ x, ∃ wanted place, (next x).demand? = some (wanted, place, held))
    (hEnd : ∀ x, last.kind = .endTag kind → fitStep? (next x) last = some ([done x], .outside))
    (hMisfit : ∀ x y, y.kind ≠ .endTag kind → fitStep? (next x) y = none) :
    Amounts state (xs ++ [last]) ((Segment.name? xs last).elim held fun x => [done x])
      ((Segment.name? xs last).isSome = true) := by
  cases xs with
  | nil =>
      refine amounts_of_misfit hWords hDemand fun x hx => hOther x hx ?_
      obtain rfl : last = x := by simpa using hx
      rcases hWords.kind_last with hLast | ⟨opening, hLast⟩ <;> simp [hLast]
  | cons x xs =>
      by_cases hKind : x.kind = .identifier
      · refine amounts_of_fit (hName x hKind) ?_
        obtain ⟨wanted, place, hNextDemand⟩ := hNext x
        cases xs with
        | nil =>
            rcases hWords.kind_last with hLast | ⟨opening, hLast⟩
            · simpa [Segment.name?, hLast, hKind] using amounts_of_end (hEnd x hLast) trivial
            · have hHeld : Amounts (next x) ([] ++ [last]) held False :=
                amounts_of_misfit hWords.of_cons hNextDemand (by
                  simpa using hMisfit x last (by simp [hLast]))
              simpa [Segment.name?, hLast] using hHeld
        | cons y ys =>
            have hHeld : Amounts (next x) (y :: ys ++ [last]) held False :=
              amounts_of_misfit hWords.of_cons hNextDemand (by
                rcases hWords.of_cons.kind_head with hWord | ⟨word, hWord⟩ | hWord <;>
                  simpa using hMisfit x y (by simp [hWord]))
            simpa [Segment.name?] using hHeld
      · have hHeld : Amounts state (x :: xs ++ [last]) held False :=
          amounts_of_misfit hWords hDemand (by simpa using hOther x (by simp) hKind)
        cases xs with
        | nil => cases hLast : last.kind <;> simpa [Segment.name?, hKind, hLast] using hHeld
        | cons y ys => simpa [Segment.name?] using hHeld

theorem amounts_variableName (hWords : Words .variable xs last) (opening : Span) :
    Amounts (.variableName opening) (xs ++ [last])
      ((Segment.name? xs last).elim [] fun x => [.reference x.text (opening.cover last.span)])
      ((Segment.name? xs last).isSome = true) := by
  refine amounts_name (fun x => .variableEnd opening x.text x.span) _ hWords rfl ?_ ?_ ?_ ?_ ?_
  · intro x hKind
    simp [fitStep?, hKind]
  · intro x _ hKind
    cases hOther : x.kind <;> simp_all [fitStep?]
  · exact fun x => ⟨_, _, rfl⟩
  · intro x hLast
    simp [fitStep?, hLast]
  · intro x y hKind
    unfold fitStep?
    split <;> simp_all

/-- The head of a conditional behind its first words. -/
theorem amounts_test (hWords : Words .directive xs last) (opening : Span)
    (polarity : Polarity) (hDemand : state.demand? = some (wanted, place, [.openBroken]))
    (hName : ∀ x, x.kind = .identifier → fitStep? state x =
      some ([], .directiveEnd opening (.ifName polarity x.text x.span) x.span))
    (hOther : ∀ x ∈ (xs ++ [last]).head?, x.kind ≠ .identifier → fitStep? state x = none) :
    Amounts state (xs ++ [last])
      ((Segment.name? xs last).elim [.openBroken] fun x =>
        [.openIf polarity x.text x.span (opening.cover last.span)])
      ((Segment.name? xs last).isSome = true) := by
  refine amounts_name _ _ hWords hDemand hName hOther ?_ ?_ ?_
  · exact fun x => ⟨_, _, rfl⟩
  · intro x hLast
    simp [fitStep?, hLast, Directive.finish]
  · intro x y hKind
    unfold fitStep?
    split <;> simp_all

theorem amounts_endIf (hWords : Words .directive xs last) (opening word : Span) :
    Amounts (.directiveEnd opening .endIf word) (xs ++ [last])
      [.close (if xs = [] ∧ last.kind = .endTag .directive then opening.cover last.span
        else opening.cover word)]
      (xs = [] ∧ last.kind = .endTag .directive) := by
  by_cases hPlain : xs = [] ∧ last.kind = .endTag .directive
  · obtain ⟨rfl, hLast⟩ := hPlain
    exact amounts_of_end (by simp [fitStep?, hLast, Directive.finish]) ⟨rfl, hLast⟩
  · rw [if_neg hPlain]
    refine amounts_of_misfit hWords rfl fun x hx => ?_
    cases xs with
    | nil =>
        obtain rfl : last = x := by simpa using hx
        unfold fitStep?
        split <;> simp_all
    | cons y ys =>
        obtain rfl : y = x := by simpa using hx
        rcases hWords.kind_head with hWord | ⟨word, hWord⟩ | hWord <;> simp [fitStep?, hWord]

theorem amounts_if (hWords : Words .directive xs last) (opening word : Span) :
    Amounts (.ifTest opening word) (xs ++ [last])
      [(Segment.test? (opening.cover last.span) xs last).elim .openBroken fun h =>
        .openIf h.polarity h.name h.nameSpan h.span]
      ((Segment.test? (opening.cover last.span) xs last).isSome = true) := by
  unfold Segment.test?
  split
  · next span text xs =>
      have hTest : Amounts (.ifNotTest opening span) (xs ++ [last]) _ _ :=
        amounts_test hWords.of_cons opening .whenFalse rfl
          (fun x hKind => by simp [fitStep?, hKind])
          (fun x _ hKind => by cases hOther : x.kind <;> simp_all [fitStep?])
      refine amounts_of_fit rfl ?_
      cases hName : Segment.name? xs last <;> simpa [hName] using hTest
  · next hNot =>
      have hOther : ∀ x ∈ (xs ++ [last]).head?, x.kind ≠ .identifier →
          fitStep? (.ifTest opening word) x = none := by
        intro x hx hKind
        have hHead : x.kind ≠ .keyword .notWord := by
          intro hNotWord
          cases xs with
          | nil =>
              obtain rfl : last = x := by simpa using hx
              rcases hWords.kind_last with hLast | ⟨_, hLast⟩ <;> simp [hLast] at hNotWord
          | cons y ys =>
              obtain ⟨kind, span, text⟩ := y
              obtain rfl : _ = x := by simpa using hx
              exact hNot span text ys (hNotWord ▸ rfl)
        cases hOther : x.kind <;> simp_all [fitStep?]
      have hTest : Amounts (.ifTest opening word) (xs ++ [last]) _ _ :=
        amounts_test hWords opening .whenTrue rfl
          (fun x hKind => by simp [fitStep?, hKind]) hOther
      cases hName : Segment.name? xs last <;> simpa [hName] using hTest

theorem amounts_else (hWords : Words .directive xs last) (hElse : x.kind = .keyword .elseWord)
    (opening : Span) : Amounts (.directiveWord opening) (x :: xs ++ [last]) [] False := by
  have hFit : fitStep? (.directiveWord opening) x =
      some ([.complaint ⟨.elseUsed, x.span⟩], .skipping []) := by simp [fitStep?, hElse]
  obtain ⟨hSilent, hVisible⟩ := complaint?_of_fit hFit
  refine ⟨⟨.elseUsed, x.span⟩ :: (xs ++ [last]).filterMap Lexeme.complaint?, ?_, by simp, ?_⟩
  · refine List.forall_mem_cons.mpr ⟨trivial, fun c hc => ?_⟩
    obtain ⟨y, -, hComplaint⟩ := List.mem_filterMap.mp hc
    exact isLocal_of_complaint? hComplaint
  · intro stop more hMore
    rw [List.cons_append, List.cons_append, ofLexemes_cons hVisible, hSilent, step_of_fit hFit,
      ofLexemes_skipping hWords.interior hWords.ends hMore]
    simp

theorem fitStep?_directiveWord_of_other {opening : Span}
    (hOther : ∀ word, x.kind = .keyword word → word = .notWord) :
    fitStep? (.directiveWord opening) x = none := by
  unfold fitStep?
  split <;> simp_all

/-- A directive tag behind its opening. -/
theorem amounts_directiveWord {opening : Lexeme} {inner : List Lexeme}
    (hOpening : opening.kind = .beginTag .directive)
    (hWords : Words .directive (inner.filter Lexeme.isVisible) last) :
    Amounts (.directiveWord opening.span) (inner.filter Lexeme.isVisible ++ [last])
      (Segment.part? (.tag opening inner last)).toList
      (Segment.IsSound (.tag opening inner last)) := by
  have hReference : Segment.reference? (.tag opening inner last) = none := by
    simp [Segment.reference?, hOpening]
  cases hInner : inner.filter Lexeme.isVisible with
  | nil =>
      have hLast : ∀ word, last.kind ≠ .keyword word := by
        rcases hWords.kind_last with hLast | ⟨_, hLast⟩ <;> simp [hLast]
      have hHeld : Amounts (.directiveWord opening.span) ([] ++ [last]) [] False :=
        amounts_of_misfit (hInner ▸ hWords) rfl
          (by simpa using fitStep?_directiveWord_of_other fun word hWord => absurd hWord (hLast word))
      simpa [Segment.part?, Segment.role, Segment.IsSound, hOpening, hInner, hReference] using hHeld
  | cons x xs =>
      obtain ⟨kind, span, text⟩ := x
      rw [hInner] at hWords
      have hMisfit (hOther : ∀ word, kind = .keyword word → word = .notWord) :
          Amounts (.directiveWord opening.span) (⟨kind, span, text⟩ :: xs ++ [last]) [] False :=
        amounts_of_misfit hWords rfl (by simpa using fitStep?_directiveWord_of_other hOther)
      rcases hWords.kind_head with hWord | ⟨word, hWord⟩ | hWord <;> obtain rfl := hWord
      · simpa [Segment.part?, Segment.role, Segment.IsSound, hOpening, hInner, hReference]
          using hMisfit (by simp)
      · cases word with
        | ifWord =>
            refine amounts_of_fit rfl ?_
            simpa [Segment.part?, Segment.role, Segment.IsSound, Segment.header?, hOpening, hInner]
              using amounts_if hWords.of_cons opening.span span
        | notWord =>
            simpa [Segment.part?, Segment.role, Segment.IsSound, hOpening, hInner, hReference]
              using hMisfit (by simp)
        | elseWord =>
            simpa [Segment.part?, Segment.role, Segment.IsSound, hOpening, hInner, hReference]
              using amounts_else hWords.of_cons rfl opening.span
        | endIfWord =>
            refine amounts_of_fit rfl ?_
            have hEnd := amounts_endIf hWords.of_cons opening.span span
            cases xs with
            | nil =>
                rcases hWords.kind_last with hLast | ⟨_, hLast⟩ <;>
                  simpa [Segment.part?, Segment.role, Segment.IsSound, Segment.isPlain,
                    Segment.closeSpan, hOpening, hInner, hLast] using hEnd
            | cons y ys =>
                simpa [Segment.part?, Segment.role, Segment.IsSound, Segment.isPlain,
                  Segment.closeSpan, hOpening, hInner] using hEnd
      · simpa [Segment.part?, Segment.role, Segment.IsSound, hOpening, hInner, hReference]
          using hMisfit (by simp)

/-- A variable tag behind its opening. -/
theorem amounts_variable {opening : Lexeme} {inner : List Lexeme}
    (hOpening : opening.kind = .beginTag .variable)
    (hWords : Words .variable (inner.filter Lexeme.isVisible) last) :
    Amounts (.variableName opening.span) (inner.filter Lexeme.isVisible ++ [last])
      (Segment.part? (.tag opening inner last)).toList
      (Segment.IsSound (.tag opening inner last)) := by
  have hName := amounts_variableName hWords opening.span
  cases hFound : Segment.name? (inner.filter Lexeme.isVisible) last <;>
    simpa [Segment.part?, Segment.role, Segment.IsSound, Segment.reference?, hOpening, hFound]
      using hName

end Tag

/-- What a segment amounts to, read between tags. -/
theorem amounts_segment {s : Segment} (hShaped : s.Shaped) :
    Amounts .outside s.lexemes s.part?.toList s.IsSound := by
  cases s with
  | text x =>
      refine ⟨[], by simp, fun _ => trivial, fun stop more _ => ?_⟩
      have hKind : x.kind = .rawText := hShaped
      simp [Segment.lexemes, Segment.part?, ofLexemes, step, outsideStep, Lexeme.complaint?, hKind]
  | tag opening inner last =>
      obtain ⟨kind, hOpening, hInterior, hEnds⟩ := hShaped
      have hWords : Words kind (inner.filter Lexeme.isVisible) last := by
        refine ⟨fun x hx => hInterior x (List.mem_filter.mp hx).1, fun x hx => ?_, hEnds⟩
        simpa [Lexeme.isVisible] using (List.mem_filter.mp hx).2
      have hTag : Amounts (.ofOpening opening.span kind) (inner.filter Lexeme.isVisible ++ [last])
          (Segment.part? (.tag opening inner last)).toList
          (Segment.IsSound (.tag opening inner last)) := by
        cases kind with
        | «variable» => exact amounts_variable hOpening hWords
        | directive => exact amounts_directiveWord hOpening hWords
      have hOpens : step .outside opening = ([], .ofOpening opening.span kind) := by
        cases kind <;> simp [step, outsideStep, hOpening, State.ofOpening]
      obtain ⟨cs, hLocal, hSound, hParts⟩ := hTag
      refine ⟨cs, hLocal, hSound, fun stop more hMore => ?_⟩
      have hFilter : ofLexemes stop (.ofOpening opening.span kind) (_ ++ ([last] ++ more)) = _ :=
        ofLexemes_filter inner ([last] ++ more)
      rw [← hParts stop more hMore, List.append_assoc, hFilter, Segment.lexemes, List.cons_append,
        ofLexemes_cons (by simp [hOpening]), hOpens, List.append_assoc]
      simp [Lexeme.complaint?, hOpening]

end Part

/-- The parts that a row of segments amounts to, with the complaints about each
of them in front. -/
inductive Segment.Parted : List Segment → List Part → Prop where
  | nil : Parted [] []
  | cons {s : Segment} {segments : List Segment} {cs : List Complaint} {parts : List Part}
      (hLocal : ∀ c ∈ cs, c.problem.IsLocal) (hSound : cs = [] → s.IsSound)
      (hRest : Parted segments parts) :
      Parted (s :: segments) (cs.map .complaint ++ s.part?.toList ++ parts)

theorem Part.resumes_of_shaped {segments : List Segment} (hShaped : ∀ s ∈ segments, s.Shaped) :
    Resumes (segments.flatMap Segment.lexemes) := by
  intro x hx
  cases segments with
  | nil => cases hx
  | cons s segments =>
      have hHere := hShaped s List.mem_cons_self
      cases s with
      | text y =>
          obtain rfl : y = x := by simpa [Segment.lexemes] using hx
          exact Or.inl hHere
      | tag opening inner last =>
          obtain rfl : opening = x := by simpa [Segment.lexemes] using hx
          obtain ⟨kind, hKind, -⟩ := hHere
          exact Or.inr ⟨kind, hKind⟩

theorem Segment.parted_of_shaped {segments : List Segment} (stop : Nat)
    (hShaped : ∀ s ∈ segments, s.Shaped) :
    Parted segments (Part.ofLexemes stop .outside (segments.flatMap lexemes)) := by
  induction segments with
  | nil => exact .nil
  | cons s segments ih =>
      obtain ⟨hHere, hMore⟩ := List.forall_mem_cons.mp hShaped
      obtain ⟨cs, hLocal, hSound, hParts⟩ := Part.amounts_segment hHere
      rw [List.flatMap_cons, hParts stop _ (Part.resumes_of_shaped hMore)]
      exact .cons hLocal hSound (ih hMore)

theorem Segmented.shaped {m : Markup} {text : List Char} {segments : List Segment}
    (hSegments : Segmented m text segments) : ∀ s ∈ segments, s.Shaped := by
  have hRow {kind : TagKind} {d : Delimiters} {opening : Span} {text rest : List Char}
      {inner : List Lexeme} {last : Lexeme} (hRow : TagRow m kind d opening text inner last rest) :
      (∀ x ∈ inner, x.kind.IsInterior) ∧ last.kind.Ends kind := by
    induction hRow with
    | closed hKind => simp [hKind, TokenKind.Ends]
    | brokenOff hKind => simp [hKind, TokenKind.Ends]
    | @inner x _ _ _ _ _ _ hInterior _ ih =>
        refine ⟨List.forall_mem_cons.mpr ⟨?_, ih.1⟩, ih.2⟩
        generalize x.kind = kind at hInterior
        cases hInterior <;> trivial
  induction hSegments with
  | nil => simp
  | text hKind _ _ _ _ _ ih => exact List.forall_mem_cons.mpr ⟨hKind, ih⟩
  | tag hKind _ _ _ hInner _ ih =>
      exact List.forall_mem_cons.mpr ⟨⟨_, hKind, hRow hInner⟩, ih⟩

/-- The parts of a source, told from its segments. -/
theorem Engine.exists_parted (g : Engine) (source : List Char) :
    ∃ segments, g.markup.lexemes source = segments.flatMap Segment.lexemes ∧
      Segmented g.markup source segments ∧ Segment.Parted segments (g.parts source) := by
  obtain ⟨segments, hRun, hSegments⟩ :=
    Lexer.run_segmented (Lexer.valid_start g.markup source) rfl
  have hParts := Segment.parted_of_shaped (byteLength source) hSegments.shaped
  rw [← hRun] at hParts
  exact ⟨segments, hRun, hSegments, hParts⟩

end Bulletin
