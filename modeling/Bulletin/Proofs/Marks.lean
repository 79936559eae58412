import Bulletin.Proofs.Reading

/-! What a document without its tree looks like: a row of texts and tags. In
plain markup the parts that are read are the ones that were written, and nothing
is complained about in any such row. -/
namespace Bulletin

open Text

/-- A part without its spans, as far as it belongs in a document that is well
formed. -/
inductive Mark where
  | text (text : String)
  | reference (name : String)
  | openIf (polarity : Polarity) (name : String)
  | close
  deriving DecidableEq, Repr

/-- The mark that a part stands for. A complaint has none, and neither has an
`IF` without a proper head. -/
def Part.mark? : Part → Option Mark
  | .complaint _ => none
  | .text content _ => some (.text content)
  | .reference name _ => some (.reference name)
  | .openIf polarity name _ _ => some (.openIf polarity name)
  | .openBroken => none
  | .close _ => some .close

/-- The ways to write a tag. -/
inductive Mark.Tag (m : Markup) : Mark → List Char → Prop where
  | reference {name : String} {text : List Char} (hTag : VariableTag m name text) :
      Tag m (.reference name) text
  | openIf {polarity : Polarity} {name : String} {text : List Char}
      (hTag : IfTag m name polarity text) : Tag m (.openIf polarity name) text
  | close {text : List Char} (hTag : EndIfTag m text) : Tag m .close text

/-- The ways to write a row of texts and tags. Texts reach as far as they can,
so no two of them are next to each other and no opening is inside one. -/
inductive Spelled (m : Markup) : List Mark → List Char → Prop where
  | nil : Spelled m [] []
  | text {text : String} {marks : List Mark} {more : List Char} (hText : text.toList ≠ [])
      (hUntouched : m.Untouched text.toList more)
      (hApart : ∀ next, marks.head? ≠ some (.text next)) (hRest : Spelled m marks more) :
      Spelled m (.text text :: marks) (text.toList ++ more)
  | tag {mark : Mark} {marks : List Mark} {text more : List Char} (hTag : mark.Tag m text)
      (hRest : Spelled m marks more) : Spelled m (mark :: marks) (text ++ more)

theorem Mark.Tag.opens {m : Markup} {mark : Mark} {text : List Char} (hTag : mark.Tag m text)
    (more : List Char) : m.Opens (text ++ more) := by
  cases hTag with
  | reference hTag =>
      obtain @⟨d, left, right, hd, -, -, -⟩ := hTag
      exact ⟨.variable, d, hd, by simp⟩
  | openIf hTag =>
      cases hTag with
      | @whenTrue d _ _ _ hd => exact ⟨.directive, d, hd, by simp⟩
      | @whenFalse d _ _ _ _ hd => exact ⟨.directive, d, hd, by simp⟩
  | close hTag =>
      obtain @⟨d, left, right, hd, -, -⟩ := hTag
      exact ⟨.directive, d, hd, by simp⟩

/-- What begins with anything but a text is empty or begins with an opening. -/
theorem Spelled.eq_nil_or_opens {m : Markup} {marks : List Mark} {text : List Char}
    (hSpelled : Spelled m marks text) (hHead : ∀ content, marks.head? ≠ some (.text content)) :
    text = [] ∨ m.Opens text := by
  cases hSpelled with
  | nil => exact Or.inl rfl
  | text => exact absurd rfl (hHead _)
  | tag hTag => exact Or.inr (hTag.opens _)

theorem Spelled.head?_ne_text {m : Markup} {marks : List Mark} {text : List Char}
    (hSpelled : Spelled m marks text) (hText : text = [] ∨ m.Opens text) (content : String) :
    marks.head? ≠ some (.text content) := by
  cases hSpelled with
  | nil => simp
  | text hSome hUntouched =>
      rcases hText with hNil | hOpens
      · exact absurd (List.append_eq_nil_iff.mp hNil).1 hSome
      · exact absurd hOpens (hUntouched [] _ rfl hSome)
  | tag hTag =>
      intro hHead
      cases hHead
      cases hTag

namespace Lexer

variable {m : Markup} {s next : Lexer} {stop : Nat} {state : Part.State} {tag : Opening}

/-- The reader goes on to the end of a tag. The text it moves past amounts to
one part. -/
structure ReadsTag (m : Markup) (stop : Nat) (state : Part.State) (s : Lexer)
    (text : List Char) (p : Part) (next : Lexer) : Prop where
  rest : s.rest = text ++ next.rest
  valid : next.Valid m
  outside : next.tag? = none
  less : next.remaining < s.remaining
  parts : s.parts m stop state = p :: next.parts m stop .outside

/-- Something is complained about, or the tag ends with a text that goes with
its mark. -/
def Settles (m : Markup) (stop : Nat) (state : Part.State) (s : Lexer)
    (Fits : Mark → List Char → Prop) : Prop :=
  Part.Complains (s.parts m stop state) ∨ ∃ mark text p next,
    Fits mark text ∧ p.mark? = some mark ∧ ReadsTag m stop state s text p next

/-- A tag that settles behind a word settles before it. -/
theorem Settles.behind {Fits Fits' : Mark → List Char → Prop} {state' : Part.State}
    {before : List Char} (hNext : Settles m stop state' next Fits')
    (hRest : s.rest = before ++ next.rest) (hLess : next.remaining < s.remaining)
    (hParts : s.parts m stop state = next.parts m stop state')
    (hFits : ∀ mark text, Fits' mark text → Fits mark (before ++ text)) :
    Settles m stop state s Fits := by
  rcases hNext with hComplains | ⟨mark, text, p, after, hText, hMark, hReads⟩
  · left
    rwa [hParts]
  · refine Or.inr ⟨mark, before ++ text, p, after, hFits mark text hText, hMark, ?_⟩
    refine ⟨?_, hReads.valid, hReads.outside, hReads.less.trans hLess, hParts.trans hReads.parts⟩
    rw [hRest, hReads.rest, List.append_assoc]

theorem settles_of_readsOn {Fits : Mark → List Char → Prop} (hValid : s.Valid m)
    (hTag : s.tag? = some tag) (hDemand : state.demand?.isSome = true)
    (hReads : ReadsOn m stop tag state s → Settles m stop state s Fits) :
    Settles m stop state s Fits :=
  (complains_or_readsOn hValid hTag hDemand).elim Or.inl hReads

/-- A gap stands where one word has ended and another begins. -/
theorem ne_nil_of_stops {gap word right : List Char} (hWord : Identifier.IsIdentifier word)
    (hStops : Stops Identifier.isContinue (gap ++ word ++ right)) : gap ≠ [] := by
  rintro rfl
  obtain ⟨c, rest, rfl, hStart⟩ := hWord.exists_cons
  have hHead := hStops c (by simp)
  simp [Identifier.isContinue_of_isStart hStart] at hHead

/-- Where only the end of the tag fits, the rest of the tag is a gap and the
closing delimiter. -/
theorem settles_end {mark : Mark} (hValid : s.Valid m) (hTag : s.tag? = some tag)
    (hDemand : state.demand?.isSome = true)
    (hEnds : ∀ x given state', Part.fitStep? state x = some (given, state') →
      (∃ kind, x.kind = .endTag kind) ∧ state' = .outside ∧
        ∃ p, given = [p] ∧ p.mark? = some mark) :
    Settles m stop state s fun mark' text =>
      mark' = mark ∧ ∃ gap, IsGapRun gap ∧ text = gap ++ tag.delimiters.closing := by
  refine settles_of_readsOn hValid hTag hDemand ?_
  rintro @⟨gap, x, next, given, state', hGap, hRest, hNext, hLess, hInside, hFit, hParts⟩
  obtain ⟨⟨kind, hEnd⟩, rfl, p, rfl, hMark⟩ := hEnds x given state' hFit
  cases hInside with
  | word hKind =>
      rw [hEnd] at hKind
      unfold wordKind at hKind
      split at hKind <;> cases hKind
  | closing _ hText hOutside =>
      refine Or.inr ⟨mark, _, p, next, ⟨rfl, gap, hGap, rfl⟩, hMark, ?_⟩
      exact ⟨hText ▸ hRest, hNext, hOutside, hLess, hParts⟩

theorem settles_variableEnd (hValid : s.Valid m) (hTag : s.tag? = some tag)
    (opening : Span) (name : String) (nameSpan : Span) :
    Settles m stop (.variableEnd opening name nameSpan) s fun mark text =>
      mark = .reference name ∧ ∃ gap, IsGapRun gap ∧ text = gap ++ tag.delimiters.closing := by
  refine settles_end hValid hTag rfl ?_
  intro x given state' hFit
  cases Part.fit_of_fitStep? hFit with
  | endOfVariable hKind => exact ⟨⟨_, hKind⟩, rfl, _, rfl, rfl⟩

theorem settles_directiveEnd {mark : Mark} (hValid : s.Valid m) (hTag : s.tag? = some tag)
    (opening : Span) (directive : Part.Directive) (last : Span)
    (hMark : ∀ span, (directive.finish span).mark? = some mark) :
    Settles m stop (.directiveEnd opening directive last) s fun mark' text =>
      mark' = mark ∧ ∃ gap, IsGapRun gap ∧ text = gap ++ tag.delimiters.closing := by
  refine settles_end hValid hTag rfl ?_
  intro x given state' hFit
  cases Part.fit_of_fitStep? hFit with
  | endOfDirective hKind => exact ⟨⟨_, hKind⟩, rfl, _, rfl, hMark _⟩

theorem Inside.name {x : Lexeme} (hInside : Inside tag x next) (hKind : x.kind = .identifier) :
    IsName x.text ∧ Stops Identifier.isContinue next.rest ∧ next.tag? = some tag := by
  cases hInside with
  | closing hEnd => simp [hEnd] at hKind
  | word hWord hText hRight hNext =>
      rw [hWord, wordKind_eq_identifier_iff, String.ofList_toList] at hKind
      exact ⟨⟨hText, hKind⟩, hRight, hNext⟩

theorem Inside.keyword {x : Lexeme} {k : Keyword} (hInside : Inside tag x next)
    (hKind : x.kind = .keyword k) :
    x.text.toList = k.text.toList ∧ Stops Identifier.isContinue next.rest ∧
      next.tag? = some tag := by
  cases hInside with
  | closing hEnd => simp [hEnd] at hKind
  | word hWord hText hRight hNext =>
      exact ⟨eq_text_of_wordKind (hWord.symm.trans hKind), hRight, hNext⟩

/-- Behind the opening of a variable something is complained about, or what
follows makes it a tag of the grammar. -/
theorem settles_variableName (hValid : s.Valid m) (hTag : s.tag? = some tag)
    (hDelimiters : m.variables? = some tag.delimiters) (opening : Span) :
    Settles m stop (.variableName opening) s fun mark text =>
      mark.Tag m (tag.delimiters.opening ++ text) := by
  refine settles_of_readsOn hValid hTag rfl ?_
  rintro @⟨left, x, next, _, _, hLeft, hRest, hNext, hLess, hInside, hFit, hParts⟩
  cases Part.fit_of_fitStep? hFit with
  | name hKind =>
      obtain ⟨hName, -, hGoesOn⟩ := hInside.name hKind
      refine (settles_variableEnd hNext hGoesOn opening x.text x.span).behind hRest hLess hParts ?_
      rintro mark text ⟨rfl, right, hRight, rfl⟩
      have hTag : VariableTag m x.text _ := .mk hDelimiters hLeft hName hRight
      simpa using Mark.Tag.reference hTag

/-- Behind the words of a negated head. -/
theorem settles_ifNotTest (hValid : s.Valid m) (hTag : s.tag? = some tag)
    (hStops : Stops Identifier.isContinue s.rest) (opening word : Span) :
    Settles m stop (.ifNotTest opening word) s fun mark text =>
      ∃ name middle right, mark = .openIf .whenFalse name ∧ IsName name ∧ IsGapRun middle ∧
        middle ≠ [] ∧ IsGapRun right ∧
          text = middle ++ name.toList ++ right ++ tag.delimiters.closing := by
  refine settles_of_readsOn hValid hTag rfl ?_
  rintro @⟨middle, x, next, _, _, hMiddle, hRest, hNext, hLess, hInside, hFit, hParts⟩
  cases Part.fit_of_fitStep? hFit with
  | notTest hKind =>
      obtain ⟨hName, -, hGoesOn⟩ := hInside.name hKind
      refine (settles_directiveEnd hNext hGoesOn opening (.ifName .whenFalse x.text x.span) x.span
        fun _ => rfl).behind hRest hLess hParts ?_
      rintro mark text ⟨rfl, right, hRight, rfl⟩
      refine ⟨x.text, middle, right, rfl, hName, hMiddle, ?_, hRight, by simp⟩
      exact ne_nil_of_stops hName.1 (hRest ▸ hStops)

/-- Behind the first word of a head. -/
theorem settles_ifTest (hValid : s.Valid m) (hTag : s.tag? = some tag)
    (hStops : Stops Identifier.isContinue s.rest) (opening word : Span) :
    Settles m stop (.ifTest opening word) s fun mark text =>
      ∃ name middle right, IsName name ∧ IsGapRun middle ∧ middle ≠ [] ∧ IsGapRun right ∧
        (mark = .openIf .whenTrue name ∧
            text = middle ++ name.toList ++ right ++ tag.delimiters.closing ∨
          ∃ before, IsGapRun before ∧ before ≠ [] ∧ mark = .openIf .whenFalse name ∧
            text = before ++ "NOT".toList ++ middle ++ name.toList ++ right ++
              tag.delimiters.closing) := by
  refine settles_of_readsOn hValid hTag rfl ?_
  rintro @⟨gap, x, next, _, _, hGap, hRest, hNext, hLess, hInside, hFit, hParts⟩
  cases Part.fit_of_fitStep? hFit with
  | test hKind =>
      obtain ⟨hName, -, hGoesOn⟩ := hInside.name hKind
      refine (settles_directiveEnd hNext hGoesOn opening (.ifName .whenTrue x.text x.span) x.span
        fun _ => rfl).behind hRest hLess hParts ?_
      rintro mark text ⟨rfl, right, hRight, rfl⟩
      refine ⟨x.text, gap, right, hName, hGap, ?_, hRight, Or.inl ⟨rfl, by simp⟩⟩
      exact ne_nil_of_stops hName.1 (hRest ▸ hStops)
  | notWord hKind =>
      obtain ⟨hWord, hRight, hGoesOn⟩ := hInside.keyword hKind
      refine (settles_ifNotTest hNext hGoesOn hRight opening x.span).behind hRest hLess hParts ?_
      rintro mark text ⟨name, middle, right, rfl, hName, hMiddle, hApart, hRight, rfl⟩
      refine ⟨name, middle, right, hName, hMiddle, hApart, hRight,
        Or.inr ⟨gap, hGap, ?_, rfl, ?_⟩⟩
      · exact ne_nil_of_stops (Keyword.isIdentifier_text .notWord) (hWord ▸ hRest ▸ hStops)
      · rw [hWord]
        simp [Keyword.text]

/-- Behind the opening of a directive something is complained about, or what
follows makes it a tag of the grammar. -/
theorem settles_directiveWord (hValid : s.Valid m) (hTag : s.tag? = some tag)
    (hDelimiters : m.directives? = some tag.delimiters) (opening : Span) :
    Settles m stop (.directiveWord opening) s fun mark text =>
      mark.Tag m (tag.delimiters.opening ++ text) := by
  refine settles_of_readsOn hValid hTag rfl ?_
  rintro @⟨left, x, next, _, _, hLeft, hRest, hNext, hLess, hInside, hFit, hParts⟩
  cases Part.fit_of_fitStep? hFit with
  | elseWord hKind =>
      left
      rw [hParts]
      exact Part.complains_of_head _ _
  | endIfWord hKind =>
      obtain ⟨hWord, -, hGoesOn⟩ := hInside.keyword hKind
      refine (settles_directiveEnd hNext hGoesOn opening .endIf x.span fun _ => rfl).behind
        hRest hLess hParts ?_
      rintro mark text ⟨rfl, right, hRight, rfl⟩
      have hTag : EndIfTag m _ := .mk hDelimiters hLeft hRight
      rw [hWord]
      simpa [Keyword.text] using Mark.Tag.close hTag
  | ifWord hKind =>
      obtain ⟨hWord, hStops, hGoesOn⟩ := hInside.keyword hKind
      refine (settles_ifTest hNext hGoesOn hStops opening x.span).behind hRest hLess hParts ?_
      rintro mark text ⟨name, middle, right, hName, hMiddle, hApart, hRight, hHead⟩
      rw [hWord]
      rcases hHead with ⟨rfl, rfl⟩ | ⟨before, hBefore, hApart', rfl, rfl⟩
      · have hTag : IfTag m name .whenTrue _ :=
          .whenTrue hDelimiters hLeft hMiddle hApart hName hRight
        simpa [Keyword.text] using Mark.Tag.openIf hTag
      · have hTag : IfTag m name .whenFalse _ :=
          .whenFalse hDelimiters hLeft hBefore hApart' hMiddle hApart hName hRight
        simpa [Keyword.text] using Mark.Tag.openIf hTag

/-- Behind an opening something is complained about, or what follows makes it
a tag of the grammar. -/
theorem settles_ofOpening (hValid : s.Valid m) (hTag : s.tag? = some tag) (stop : Nat)
    (span : Span) :
    Settles m stop (.ofOpening span tag.kind) s fun mark text =>
      mark.Tag m (tag.delimiters.opening ++ text) := by
  have hDelimiters := hValid.tag tag hTag
  cases hKind : tag.kind with
  | «variable» =>
      rw [hKind] at hDelimiters
      exact settles_variableName hValid hTag hDelimiters span
  | directive =>
      rw [hKind] at hDelimiters
      exact settles_directiveWord hValid hTag hDelimiters span

/-- If nothing is complained about, the parts are the marks of a row that the
document spells. This holds in any markup. -/
theorem complains_or_spelled (hValid : s.Valid m) (hTag : s.tag? = none) :
    Part.Complains (s.parts m stop .outside) ∨
      ∃ marks, (s.parts m stop .outside).map Part.mark? = marks.map some ∧
        Spelled m marks s.rest := by
  induction hMeasure : s.remaining using Nat.strongRecOn generalizing s with
  | ind n ih =>
      subst hMeasure
      cases outside_of_tag?_eq_none hValid hTag with
      | finished hRest hParts =>
          right
          rw [hParts, hRest]
          exact ⟨[], rfl, .nil⟩
      | @text text span next hText hRest hUntouched hRight hNext hOutside hLess hParts =>
          obtain ⟨content, rfl⟩ : ∃ content : String, text = content.toList :=
            ⟨String.ofList text, by simp⟩
          rcases ih _ hLess hNext hOutside rfl with hComplains | ⟨marks, hMarks, hSpelled⟩
          · left
            rw [hParts]
            exact hComplains.append_left [_]
          · refine Or.inr ⟨.text content :: marks, ?_, ?_⟩
            · rw [hParts, List.map_cons, List.map_cons, hMarks, String.ofList_toList]
              rfl
            · rw [hRest]
              exact .text hText hUntouched (hSpelled.head?_ne_text hRight) hSpelled
      | opening _ hRest hNext hInside hLess hParts =>
          have hSettles := (settles_ofOpening hNext hInside stop _).behind hRest hLess
            (hParts stop) fun _ _ hFits => hFits
          rcases hSettles with hComplains | ⟨mark, text, p, after, hText, hMark, hReads⟩
          · exact Or.inl hComplains
          · rcases ih _ hReads.less hReads.valid hReads.outside rfl with
              hComplains | ⟨marks, hMarks, hSpelled⟩
            · left
              rw [hReads.parts]
              exact hComplains.append_left [p]
            · refine Or.inr ⟨mark :: marks, ?_, ?_⟩
              · rw [hReads.parts, List.map_cons, List.map_cons, hMark, hMarks]
              · rw [hReads.rest]
                exact .tag hText hSpelled

section Plain

variable {text more : List Char} {name : String} {mark : Mark}

/-- A tag of the grammar that begins at the reader gives the part that it stands
for. -/
def Yields (m : Markup) (state : Part.State) (s : Lexer) (mark : Mark) (more : List Char) : Prop :=
  ∃ (p : Part) (next : Lexer), p.mark? = some mark ∧ next.rest = more ∧ next.tag? = none ∧ next.Valid m ∧
    ∀ stop, s.parts m stop state = p :: next.parts m stop .outside

theorem yields_end (hPlain : m.IsPlain) (hValid : s.Valid m) (hTag : s.tag? = some tag)
    {gap : List Char} (hRest : s.rest = gap ++ (tag.delimiters.closing ++ more))
    (hGap : IsGapRun gap)
    (hEnds : ∀ x : Lexeme, x.kind = .endTag tag.kind →
      ∃ p, Part.fitStep? state x = some ([p], .outside) ∧ p.mark? = some mark) :
    Yields m state s mark more := by
  obtain ⟨x, next, hKind, hAhead, hOutside, hNext, hParts⟩ :=
    exists_closing hPlain hValid hTag hRest hGap
  obtain ⟨p, hFit, hMark⟩ := hEnds x hKind
  exact ⟨p, next, hMark, hAhead, hOutside, hNext, fun stop => hParts stop state _ _ hFit⟩

/-- A word that fits brings the reader on to what follows it. -/
theorem yields_word (hPlain : m.IsPlain) (hValid : s.Valid m) (hTag : s.tag? = some tag)
    {gap word right : List Char} (hRest : s.rest = gap ++ (word ++ right)) (hGap : IsGapRun gap)
    (hWord : Identifier.IsIdentifier word) (hRight : Stops Identifier.isContinue right)
    (hFits : ∀ x : Lexeme, x.kind = wordKind word → x.text = String.ofList word →
      ∃ state', Part.fitStep? state x = some ([], state') ∧
        ∀ next : Lexer, next.Valid m → next.tag? = some tag → next.rest = right →
          Yields m state' next mark more) :
    Yields m state s mark more := by
  obtain ⟨x, next, hKind, hText, hAhead, hInside, hNext, hParts⟩ :=
    exists_word hPlain hValid hTag hRest hGap hWord hRight
  obtain ⟨state', hFit, hYields⟩ := hFits x hKind hText
  obtain ⟨p, after, hMark, hMore, hOutside, hAfter, hLater⟩ := hYields next hNext hInside hAhead
  exact ⟨p, after, hMark, hMore, hOutside, hAfter,
    fun stop => (hParts stop state _ _ hFit).trans (hLater stop)⟩

theorem yields_keyword (hPlain : m.IsPlain) (hValid : s.Valid m) (hTag : s.tag? = some tag)
    (k : Keyword) {gap right : List Char}
    (hRest : s.rest = gap ++ (k.text.toList ++ right)) (hGap : IsGapRun gap)
    (hRight : Stops Identifier.isContinue right)
    (hFit : ∀ x : Lexeme, x.kind = .keyword k →
      ∃ state', Part.fitStep? state x = some ([], state') ∧
        ∀ next : Lexer, next.Valid m → next.tag? = some tag → next.rest = right →
          Yields m state' next mark more) :
    Yields m state s mark more :=
  yields_word hPlain hValid hTag hRest hGap k.isIdentifier_text hRight
    fun x hKind _ => hFit x (hKind.trans (wordKind_text k))

theorem yields_opening (hPlain : m.IsPlain) (hValid : s.Valid m) (hTag : s.tag? = none)
    {kind : TagKind} {d : Delimiters} {right : List Char} (hd : m.delimiters? kind = some d)
    (hRest : s.rest = d.opening ++ right) (hInner : Inner right)
    (hYields : ∀ (span : Span) (next : Lexer), next.Valid m →
      next.tag? = some ⟨kind, d, s.offset⟩ → next.rest = right →
        Yields m (.ofOpening span kind) next mark more) :
    Yields m .outside s mark more := by
  obtain ⟨span, next, hAhead, hInside, hNext, hParts⟩ :=
    exists_opening hPlain hValid hTag hd hRest hInner
  obtain ⟨p, after, hMark, hMore, hOutside, hAfter, hLater⟩ := hYields span next hNext hInside hAhead
  exact ⟨p, after, hMark, hMore, hOutside, hAfter, fun stop => (hParts stop).trans (hLater stop)⟩

theorem yields_reference (hPlain : m.IsPlain) (hValid : s.Valid m) (hTag : s.tag? = none)
    (hVariable : VariableTag m name text) (hRest : s.rest = text ++ more) :
    Yields m .outside s (.reference name) more := by
  obtain @⟨d, left, right, hd, hLeft, hName, hRight⟩ := hVariable
  have hd : m.delimiters? .variable = some d := hd
  simp only [List.append_assoc] at hRest
  refine yields_opening hPlain hValid hTag hd hRest (.of_gap hLeft (.of_word hName.1 _)) ?_
  intro span s₁ hValid₁ hTag₁ hRest₁
  refine yields_word hPlain hValid₁ hTag₁ hRest₁ hLeft hName.1
    (stops_isContinue_of_gap hRight (Or.inr (stops_closing hPlain hd more).2)) ?_
  intro x hKind hText
  rw [hName.wordKind_eq] at hKind
  rw [String.ofList_toList] at hText
  refine ⟨.variableEnd span name x.span, ?_, ?_⟩
  · simp [Part.fitStep?, Part.State.ofOpening, hKind, hText]
  intro s₂ hValid₂ hTag₂ hRest₂
  refine yields_end hPlain hValid₂ hTag₂ hRest₂ hRight ?_
  intro x hKind
  exact ⟨.reference name (span.cover x.span), by simp [Part.fitStep?, hKind], rfl⟩

/-- The end of a directive, whichever it is. -/
theorem yields_directiveEnd (hPlain : m.IsPlain) (hValid : s.Valid m) (hTag : s.tag? = some tag)
    (hKind : tag.kind = .directive) {gap : List Char}
    (hRest : s.rest = gap ++ (tag.delimiters.closing ++ more)) (hGap : IsGapRun gap)
    {opening last : Span} {directive : Part.Directive}
    (hMark : ∀ span, (directive.finish span).mark? = some mark) :
    Yields m (.directiveEnd opening directive last) s mark more := by
  refine yields_end hPlain hValid hTag hRest hGap ?_
  intro x hEnd
  rw [hKind] at hEnd
  exact ⟨directive.finish (opening.cover x.span), by simp [Part.fitStep?, hEnd], hMark _⟩

theorem yields_close (hPlain : m.IsPlain) (hValid : s.Valid m) (hTag : s.tag? = none)
    (hEndIf : EndIfTag m text) (hRest : s.rest = text ++ more) :
    Yields m .outside s .close more := by
  obtain @⟨d, left, right, hd, hLeft, hRight⟩ := hEndIf
  have hd : m.delimiters? .directive = some d := hd
  have hWord := Keyword.isIdentifier_text .endIfWord
  simp only [List.append_assoc] at hRest
  refine yields_opening hPlain hValid hTag hd hRest (.of_gap hLeft (.of_word hWord _)) ?_
  intro span s₁ hValid₁ hTag₁ hRest₁
  refine yields_keyword hPlain hValid₁ hTag₁ .endIfWord hRest₁ hLeft
    (stops_isContinue_of_gap hRight (Or.inr (stops_closing hPlain hd more).2)) ?_
  intro x hKind
  refine ⟨.directiveEnd span .endIf x.span, by simp [Part.fitStep?, Part.State.ofOpening, hKind], ?_⟩
  intro s₂ hValid₂ hTag₂ hRest₂
  exact yields_directiveEnd hPlain hValid₂ hTag₂ rfl hRest₂ hRight fun _ => rfl

/-- The test of a conditional and the end of its tag. -/
theorem yields_test (hPlain : m.IsPlain) (hValid : s.Valid m) (hTag : s.tag? = some tag)
    (hKind : tag.kind = .directive) {middle right : List Char}
    (hRest : s.rest = middle ++ (name.toList ++ (right ++ (tag.delimiters.closing ++ more))))
    (hMiddle : IsGapRun middle) (hName : IsName name) (hRight : IsGapRun right)
    {polarity : Polarity}
    (hState : ∀ x : Lexeme, x.kind = .identifier → ∃ opening, Part.fitStep? state x =
      some ([], .directiveEnd opening (.ifName polarity x.text x.span) x.span)) :
    Yields m state s (.openIf polarity name) more := by
  have hClosing := stops_closing hPlain (hValid.tag tag hTag) more
  refine yields_word hPlain hValid hTag hRest hMiddle hName.1
    (stops_isContinue_of_gap hRight (Or.inr hClosing.2)) ?_
  intro x hWord hText
  rw [hName.wordKind_eq] at hWord
  rw [String.ofList_toList] at hText
  obtain ⟨opening, hFit⟩ := hState x hWord
  refine ⟨_, hFit, ?_⟩
  intro s₁ hValid₁ hTag₁ hRest₁
  refine yields_directiveEnd hPlain hValid₁ hTag₁ hKind hRest₁ hRight fun _ => ?_
  rw [hText]
  rfl

theorem yields_openIf (hPlain : m.IsPlain) (hValid : s.Valid m) (hTag : s.tag? = none)
    {polarity : Polarity} (hIf : IfTag m name polarity text) (hRest : s.rest = text ++ more) :
    Yields m .outside s (.openIf polarity name) more := by
  have hWord := Keyword.isIdentifier_text .ifWord
  cases hIf with
  | @whenTrue d left middle right hd hLeft hMiddle hApart hName hRight =>
      have hd : m.delimiters? .directive = some d := hd
      simp only [List.append_assoc] at hRest
      refine yields_opening hPlain hValid hTag hd hRest (.of_gap hLeft (.of_word hWord _)) ?_
      intro span s₁ hValid₁ hTag₁ hRest₁
      refine yields_keyword hPlain hValid₁ hTag₁ .ifWord hRest₁ hLeft
        (stops_isContinue_of_gap hMiddle (Or.inl hApart)) ?_
      intro x hKind
      refine ⟨.ifTest span x.span, by simp [Part.fitStep?, Part.State.ofOpening, hKind], ?_⟩
      intro s₂ hValid₂ hTag₂ hRest₂
      refine yields_test hPlain hValid₂ hTag₂ rfl hRest₂ hMiddle hName hRight fun x hKind => ?_
      exact ⟨span, by simp only [Part.fitStep?, hKind]⟩
  | @whenFalse d left before middle right hd hLeft hBefore hApart hMiddle hApart' hName hRight =>
      have hd : m.delimiters? .directive = some d := hd
      simp only [List.append_assoc] at hRest
      refine yields_opening hPlain hValid hTag hd hRest (.of_gap hLeft (.of_word hWord _)) ?_
      intro span s₁ hValid₁ hTag₁ hRest₁
      refine yields_keyword hPlain hValid₁ hTag₁ .ifWord hRest₁ hLeft
        (stops_isContinue_of_gap hBefore (Or.inl hApart)) ?_
      intro x hKind
      refine ⟨.ifTest span x.span, by simp [Part.fitStep?, Part.State.ofOpening, hKind], ?_⟩
      intro s₂ hValid₂ hTag₂ hRest₂
      refine yields_keyword hPlain hValid₂ hTag₂ .notWord hRest₂ hBefore
        (stops_isContinue_of_gap hMiddle (Or.inl hApart')) ?_
      intro y hKind
      refine ⟨.ifNotTest span y.span, by simp [Part.fitStep?, hKind], ?_⟩
      intro s₃ hValid₃ hTag₃ hRest₃
      refine yields_test hPlain hValid₃ hTag₃ rfl hRest₃ hMiddle hName hRight fun x hKind => ?_
      exact ⟨span, by simp only [Part.fitStep?, hKind]⟩

theorem yields_tag (hPlain : m.IsPlain) (hValid : s.Valid m) (hTag : s.tag? = none)
    (hMark : mark.Tag m text) (hRest : s.rest = text ++ more) :
    Yields m .outside s mark more := by
  cases hMark with
  | reference hVariable => exact yields_reference hPlain hValid hTag hVariable hRest
  | openIf hIf => exact yields_openIf hPlain hValid hTag hIf hRest
  | close hEndIf => exact yields_close hPlain hValid hTag hEndIf hRest

/-- In plain markup the marks of a document that is spelled out are read back. -/
theorem parts_of_spelled (hPlain : m.IsPlain) {marks : List Mark}
    (hSpelled : Spelled m marks text) (hRest : s.rest = text) (hValid : s.Valid m)
    (hTag : s.tag? = none) (stop : Nat) :
    (s.parts m stop .outside).map Part.mark? = marks.map some := by
  induction hSpelled generalizing s with
  | nil =>
      rw [parts_of_none (step_eq_none_iff.mpr ⟨hTag, hRest⟩)]
      rfl
  | @text content marks more hText hUntouched hApart hSpelled ih =>
      have hMore := hSpelled.eq_nil_or_opens hApart
      cases outside_of_tag?_eq_none hValid hTag with
      | finished hNil =>
          rw [hRest, List.append_eq_nil_iff] at hNil
          exact absurd hNil.1 hText
      | text _ hSplit hUntouched' hRight hNext hOutside _ hParts =>
          obtain ⟨rfl, hAhead⟩ := Markup.untouched_inj (hRest.symm.trans hSplit) hUntouched hMore
            hUntouched' hRight
          rw [hParts, List.map_cons, List.map_cons, ih hAhead.symm hNext hOutside,
            String.ofList_toList]
          rfl
      | opening hOpening =>
          have hOpens := Markup.isSome_openingAt?_iff.mp (Option.isSome_iff_exists.mpr ⟨_, hOpening⟩)
          exact absurd (hRest ▸ hOpens) (hUntouched [] _ rfl hText)
  | tag hMark _ ih =>
      obtain ⟨p, next, hSame, hAhead, hOutside, hNext, hParts⟩ :=
        yields_tag hPlain hValid hTag hMark hRest
      rw [hParts, List.map_cons, List.map_cons, hSame, ih hAhead hNext hOutside]

end Plain

end Lexer

end Bulletin
