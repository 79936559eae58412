import Bulletin.Proofs.Marks
import Bulletin.Proofs.Tags

/-! How segments are written, and where they stand. A tag that is well formed is
one of the ways to write a variable, or the beginning or the end of a
conditional, and its spans tell the places of its words. -/
namespace Bulletin

open Text Lexer

/-- Inside a tag, behind the text `left`, the source goes on with the lexemes
`inner` and `last`, which ends the tag, and `rest` follows. -/
structure Behind (m : Markup) (kind : TagKind) (d : Delimiters) (left text : List Char)
    (inner : List Lexeme) (last : Lexeme) (rest : List Char) : Prop where
  row : ∃ opening, TagRow m kind d opening text inner last rest
  place : Lexeme.Row (byteLength left) (inner ++ [last])

namespace Behind

variable {m : Markup} {kind other : TagKind} {d : Delimiters} {left text rest : List Char}
  {before inner words : List Lexeme} {x last : Lexeme}

theorem text_eq (hBehind : Behind m kind d left text inner last rest) :
    text = Lexeme.textOf (inner ++ [last]) ++ rest := by
  obtain ⟨⟨opening, hRow⟩, -⟩ := hBehind
  induction hRow with
  | closed => simp
  | brokenOff _ hText => simp [hText]
  | inner _ _ _ _ ih => simp [ih]

theorem step (hBehind : Behind m kind d left text (x :: inner) last rest) :
    ∃ right, text = x.text.toList ++ right ∧
      x.span = ⟨byteLength left, byteLength (left ++ x.text.toList)⟩ ∧
      Interior x.text.toList right x.kind ∧
      Behind m kind d (left ++ x.text.toList) right inner last rest := by
  obtain ⟨⟨opening, hRow⟩, hSpan, hPlace⟩ := hBehind
  rw [← byteLength_append] at hSpan hPlace
  cases hRow with
  | inner _ _ hInterior hRow => exact ⟨_, rfl, hSpan, hInterior, ⟨opening, hRow⟩, hPlace⟩

theorem gap (hBehind : Behind m kind d left text (before ++ inner) last rest)
    (hGap : ∀ x ∈ before, ¬x.isVisible = true) :
    ∃ gap right, text = gap ++ right ∧ IsGapRun gap ∧
      Behind m kind d (left ++ gap) right inner last rest := by
  induction before generalizing left text with
  | nil => exact ⟨[], text, rfl, by simp [IsGapRun], by simpa using hBehind⟩
  | cons x before ih =>
      obtain ⟨hHere, hMore⟩ := List.forall_mem_cons.mp hGap
      obtain ⟨right, rfl, -, hInterior, hNext⟩ := hBehind.step
      obtain ⟨gap, right, rfl, hRun, hRest⟩ := ih hNext hMore
      have hKind : x.kind = .whitespace := by simpa [Lexeme.isVisible] using hHere
      rw [hKind] at hInterior
      cases hInterior with
      | gap _ hFirst =>
          refine ⟨x.text.toList ++ gap, right, (List.append_assoc ..).symm, ?_, ?_⟩
          · exact List.forall_mem_append.mpr ⟨hFirst, hRun⟩
          · rwa [← List.append_assoc]

/-- The next word of a tag stands behind a gap. -/
theorem word (hBehind : Behind m kind d left text inner last rest)
    (hWords : inner.filter Lexeme.isVisible = x :: words) :
    ∃ gap right behind, text = gap ++ (x.text.toList ++ right) ∧ IsGapRun gap ∧
      x.span = ⟨byteLength (left ++ gap), byteLength (left ++ gap ++ x.text.toList)⟩ ∧
      Interior x.text.toList right x.kind ∧ behind.filter Lexeme.isVisible = words ∧
      Behind m kind d (left ++ gap ++ x.text.toList) right behind last rest := by
  obtain ⟨before, behind, rfl, hGap, -, hMore⟩ := List.filter_eq_cons_iff.mp hWords
  obtain ⟨gap, right, rfl, hRun, hWord⟩ := hBehind.gap hGap
  obtain ⟨right, rfl, hSpan, hInterior, hNext⟩ := hWord.step
  exact ⟨gap, right, behind, rfl, hRun, hSpan, hInterior, hMore, hNext⟩

/-- The end of a tag without more words stands behind a gap. -/
theorem closing (hBehind : Behind m kind d left text inner last rest)
    (hWords : inner.filter Lexeme.isVisible = []) (hLast : last.kind = .endTag other) :
    ∃ gap, IsGapRun gap ∧ text = gap ++ d.closing ++ rest ∧
      last.span = ⟨byteLength (left ++ gap), byteLength (left ++ gap ++ d.closing)⟩ := by
  rw [List.filter_eq_nil_iff] at hWords
  have hWhole : Behind m kind d left text (inner ++ []) last rest := by
    rwa [List.append_nil]
  obtain ⟨gap, right, rfl, hRun, ⟨opening, hRow⟩, hSpan, -⟩ := hWhole.gap hWords
  cases hRow with
  | closed _ hText =>
      exact ⟨gap, hRun, by simp [hText], by rw [hSpan, hText, byteLength_append (left ++ gap)]⟩
  | brokenOff hKind => simp [hKind] at hLast

/-- The rest of a tag that has only its name and its end to come. -/
theorem name (hBehind : Behind m kind d left text inner last rest)
    (hName : Segment.name? (inner.filter Lexeme.isVisible) last = some x) :
    ∃ gap gap', IsGapRun gap ∧ IsName x.text ∧ IsGapRun gap' ∧
      text = gap ++ x.text.toList ++ gap' ++ d.closing ++ rest ∧
      x.span = ⟨byteLength (left ++ gap), byteLength (left ++ gap ++ x.text.toList)⟩ ∧
      last.span = ⟨byteLength (left ++ gap ++ x.text.toList ++ gap'),
        byteLength (left ++ gap ++ x.text.toList ++ gap' ++ d.closing)⟩ := by
  unfold Segment.name? at hName
  split at hName
  · next y other hWords hLast =>
      obtain ⟨hKind, rfl⟩ : y.kind = .identifier ∧ y = x := by
        split at hName
        · next hKind => exact ⟨hKind, Option.some.inj hName⟩
        · cases hName
      obtain ⟨gap, right, behind, rfl, hGap, hSpan, hInterior, hMore, hNext⟩ := hBehind.word hWords
      obtain ⟨gap', hGap', rfl, hLastSpan⟩ := hNext.closing hMore hLast
      rw [hKind] at hInterior
      cases hInterior with
      | name hName =>
          exact ⟨gap, gap', hGap, by simpa using hName, hGap', by simp, hSpan, hLastSpan⟩
  · cases hName

end Behind

/-- What can stand between the first word of a conditional and its name. -/
inductive TestGap : Polarity → List Char → Prop where
  | whenTrue {gap : List Char} (hGap : IsGapRun gap) (hApart : gap ≠ []) : TestGap .whenTrue gap
  | whenFalse {before after : List Char} (hBefore : IsGapRun before) (hApart : before ≠ [])
      (hAfter : IsGapRun after) (hApart' : after ≠ []) :
      TestGap .whenFalse (before ++ "NOT".toList ++ after)

theorem TestGap.ifTag {m : Markup} {d : Delimiters} {name : String} {polarity : Polarity}
    {left middle right : List Char} (hTest : TestGap polarity middle)
    (hDelimiters : m.directives? = some d) (hLeft : IsGapRun left) (hName : IsName name)
    (hRight : IsGapRun right) :
    IfTag m name polarity
      (d.opening ++ (left ++ "IF".toList ++ middle ++ name.toList ++ right ++ d.closing)) := by
  cases hTest with
  | whenTrue hMiddle hApart =>
      simpa using IfTag.whenTrue hDelimiters hLeft hMiddle hApart hName hRight
  | whenFalse hBefore hApart hAfter hApart' =>
      simpa using IfTag.whenFalse hDelimiters hLeft hBefore hApart hAfter hApart' hName hRight

/-- The rest of the beginning of a conditional, behind its first word. -/
theorem Behind.test {m : Markup} {d : Delimiters} {left text rest : List Char}
    {inner : List Lexeme} {last : Lexeme} {span : Span} {h : Header}
    (hBehind : Behind m .directive d left text inner last rest)
    (hStops : Stops Identifier.isContinue text)
    (hTest : Segment.test? span (inner.filter Lexeme.isVisible) last = some h) :
    ∃ middle gap, TestGap h.polarity middle ∧ IsName h.name ∧ IsGapRun gap ∧ h.span = span ∧
      text = middle ++ h.name.toList ++ gap ++ d.closing ++ rest ∧
      h.nameSpan = ⟨byteLength (left ++ middle), byteLength (left ++ middle ++ h.name.toList)⟩ ∧
      last.span = ⟨byteLength (left ++ middle ++ h.name.toList ++ gap),
        byteLength (left ++ middle ++ h.name.toList ++ gap ++ d.closing)⟩ := by
  unfold Segment.test? at hTest
  split at hTest
  · next notSpan notText words hWords =>
      obtain ⟨x, hName, rfl⟩ := Option.map_eq_some_iff.mp hTest
      obtain ⟨before, right, behind, rfl, hBefore, -, hInterior, rfl, hNext⟩ :=
        hBehind.word hWords
      obtain ⟨after, gap, hAfter, hIsName, hGap, rfl, hSpan, hLast⟩ := hNext.name hName
      cases hInterior with
      | keyword hNot hNotStops =>
          have hApart : before ≠ [] := ne_nil_of_stops (Keyword.isIdentifier_text .notWord)
            (by simpa [hNot] using hStops)
          have hApart' : after ≠ [] := ne_nil_of_stops hIsName.1 (by simpa using hNotStops)
          have hText : before ++ (notText.toList ++ after) =
              before ++ "NOT".toList ++ after := by simp [hNot, Keyword.text]
          refine ⟨before ++ (notText.toList ++ after), gap, ?_, hIsName, hGap, rfl, by simp, ?_, ?_⟩
          · rw [hText]
            exact .whenFalse hBefore hApart hAfter hApart'
          · simpa using hSpan
          · simpa using hLast
  · obtain ⟨x, hName, rfl⟩ := Option.map_eq_some_iff.mp hTest
    obtain ⟨middle, gap, hMiddle, hIsName, hGap, rfl, hSpan, hLast⟩ := hBehind.name hName
    have hApart : middle ≠ [] := ne_nil_of_stops hIsName.1 (by simpa using hStops)
    exact ⟨middle, gap, .whenTrue hMiddle hApart, hIsName, hGap, rfl, rfl, hSpan, hLast⟩

namespace Segment

variable {m : Markup} {left text : List Char} {s : Segment} {segments : List Segment}

/-- The segment stands in a source behind the text `left`. -/
inductive StandsAt (m : Markup) (left : List Char) : Segment → Prop where
  | text {x : Lexeme} (hText : x.text.toList ≠ [])
      (hSpan : x.span = ⟨byteLength left, byteLength (left ++ x.text.toList)⟩) :
      StandsAt m left (.text x)
  | tag {opening last : Lexeme} {inner : List Lexeme} {kind : TagKind} {d : Delimiters}
      {right rest : List Char} (hKind : opening.kind = .beginTag kind)
      (hDelimiters : m.delimiters? kind = some d) (hText : opening.text.toList = d.opening)
      (hSpan : opening.span = ⟨byteLength left, byteLength (left ++ d.opening)⟩)
      (hBehind : Behind m kind d (left ++ d.opening) right inner last rest) :
      StandsAt m left (.tag opening inner last)

/-- The text that a segment is. -/
def spelling (s : Segment) : List Char :=
  Lexeme.textOf s.lexemes

/-- The segments stand one behind the other, the first behind the text `left`. -/
def Standing (m : Markup) : List Char → List Segment → Prop
  | _, [] => True
  | left, s :: rest => s.StandsAt m left ∧ Standing m (left ++ s.spelling) rest

theorem standing_append {row rest : List Segment} :
    Standing m left (row ++ rest) ↔
      Standing m left row ∧ Standing m (left ++ row.flatMap spelling) rest := by
  induction row generalizing left with
  | nil => simp [Standing]
  | cons s row ih => simp [Standing, ih, and_assoc]

end Segment

/-- All segments of a source stand in their places. -/
theorem Segmented.standing {m : Markup} {left text : List Char} {segments : List Segment}
    (hSegments : Segmented m text segments)
    (hRow : Lexeme.Row (byteLength left) (segments.flatMap Segment.lexemes)) :
    text = segments.flatMap Segment.spelling ∧ Segment.Standing m left segments := by
  induction hSegments generalizing left with
  | nil => exact ⟨rfl, trivial⟩
  | @text x right segments _ hText _ _ _ _ ih =>
      obtain ⟨hSpan, hRest⟩ := hRow
      rw [← byteLength_append] at hSpan hRest
      obtain ⟨rfl, hStanding⟩ := ih hRest
      refine ⟨by simp [Segment.spelling, Segment.lexemes], .text hText hSpan, ?_⟩
      simpa [Segment.spelling, Segment.lexemes] using hStanding
  | @tag opening last inner kind d right rest segments hKind hDelimiters hText _ hInner _ ih =>
      rw [List.flatMap_cons, Lexeme.row_append] at hRow
      obtain ⟨⟨hSpan, hPlace⟩, hRest⟩ := hRow
      rw [← byteLength_append] at hSpan hPlace hRest
      rw [hText] at hSpan hPlace
      have hBehind : Behind m kind d (left ++ d.opening) right inner last rest :=
        ⟨⟨_, hInner⟩, hPlace⟩
      obtain ⟨rfl, hStanding⟩ := ih hRest
      refine ⟨?_, .tag hKind hDelimiters hText hSpan hBehind, hStanding⟩
      rw [hBehind.text_eq]
      simp [Segment.spelling, Segment.lexemes]

namespace Segment.StandsAt

variable {m : Markup} {left right rest body : List Char} {s : Segment} {kind : TagKind}
  {d : Delimiters} {opening last : Lexeme} {inner : List Lexeme}

/-- A tag is its opening and what stands behind it. -/
theorem spelling_tag (hText : opening.text.toList = d.opening)
    (hBehind : Behind m kind d left right inner last rest) (hRight : right = body ++ rest) :
    spelling (.tag opening inner last) = d.opening ++ body := by
  have hBody := List.append_cancel_right (hBehind.text_eq.symm.trans hRight)
  rw [← hText, ← hBody, spelling, lexemes, Lexeme.textOf_cons]

theorem spelling_ne_nil (hStands : s.StandsAt m left) : s.spelling ≠ [] := by
  cases hStands with
  | text hText => simpa [spelling, lexemes] using hText
  | @tag _ _ _ _ d _ _ _ _ hText =>
      simp [spelling, lexemes, hText, d.opening_ne_nil]

/-- A well-formed variable tag. -/
theorem «variable» {name : String} {span : Span} (hStands : s.StandsAt m left)
    (hReference : s.reference? = some (name, span)) :
    VariableTag m name s.spelling ∧
      span = ⟨byteLength left, byteLength (left ++ s.spelling)⟩ := by
  cases hStands with
  | text => cases hReference
  | @tag opening last inner kind d right rest hKind hDelimiters hText hSpan hBehind =>
      cases kind with
      | directive => simp [reference?, hKind] at hReference
      | «variable» =>
          simp only [reference?, hKind] at hReference
          obtain ⟨x, hName, hPair⟩ := Option.map_eq_some_iff.mp hReference
          obtain ⟨rfl, rfl⟩ := Prod.mk.inj hPair
          obtain ⟨gap, gap', hGap, hIsName, hGap', hRight, -, hLast⟩ := hBehind.name hName
          have hSpelling := spelling_tag hText hBehind hRight
          simp only [← List.append_assoc] at hSpelling
          rw [hSpelling]
          refine ⟨.mk hDelimiters hGap hIsName hGap', ?_⟩
          rw [hSpan, hLast]
          simp only [Span.cover, byteLength_append, Span.mk.injEq]
          omega

/-- The beginning of a conditional, if it is well formed. -/
theorem header {h : Header} (hStands : s.StandsAt m left) (hHeader : s.header? = some h) :
    IfTag m h.name h.polarity s.spelling ∧ IsName h.name ∧
      h.span = ⟨byteLength left, byteLength (left ++ s.spelling)⟩ ∧
      ∃ before after, before ≠ [] ∧ s.spelling = before ++ h.name.toList ++ after ∧
        h.nameSpan =
          ⟨byteLength (left ++ before), byteLength (left ++ before ++ h.name.toList)⟩ := by
  cases hStands with
  | text => cases hHeader
  | @tag opening last inner kind d right rest hKind hDelimiters hText hSpan hBehind =>
      cases kind with
      | «variable» => simp [header?, hKind] at hHeader
      | directive =>
          simp only [header?, hKind] at hHeader
          split at hHeader
          · next wordSpan text words hOpening hWords =>
              obtain ⟨gap, right, behind, rfl, hGap, -, hInterior, rfl, hNext⟩ :=
                hBehind.word hWords
              cases hInterior with
              | keyword hIf hStops =>
                  obtain ⟨middle, gap', hTest, hName, hGap', hHere, rfl, hNameSpan, hLast⟩ :=
                    hNext.test hStops hHeader
                  obtain rfl : text = "IF" := String.toList_injective hIf
                  have hSpelling : spelling (.tag opening inner last) = d.opening ++
                      (gap ++ "IF".toList ++ middle ++ h.name.toList ++ gap' ++ d.closing) :=
                    spelling_tag hText hBehind (by simp)
                  rw [hSpelling]
                  refine ⟨hTest.ifTag hDelimiters hGap hName hGap', hName, ?_,
                    d.opening ++ gap ++ "IF".toList ++ middle, gap' ++ d.closing,
                    by simp [d.opening_ne_nil], by simp, ?_⟩
                  · rw [hHere, hSpan, hLast]
                    simp only [Span.cover, byteLength_append, Span.mk.injEq]
                    omega
                  · simpa using hNameSpan
          · cases hHeader

/-- The place of a closer, told from the words in it. -/
theorem exists_of_closer (hRole : role (.tag opening inner last) = .closer) :
    ∃ x words, inner.filter Lexeme.isVisible = x :: words ∧ x.kind = .keyword .endIfWord ∧
      ((words = [] ∧ (∃ other, last.kind = .endTag other) ∧
          closeSpan (.tag opening inner last) = opening.span.cover last.span) ∨
        (isPlain (.tag opening inner last) = false ∧
          closeSpan (.tag opening inner last) = opening.span.cover x.span)) := by
  simp only [role] at hRole
  split at hRole
  · cases hRole
  · next hWord =>
      obtain ⟨x, hHead, hKind⟩ := Option.map_eq_some_iff.mp hWord
      obtain ⟨words, hWords⟩ := List.head?_eq_some_iff.mp hHead
      refine ⟨x, words, hWords, hKind, ?_⟩
      cases words with
      | nil => cases hLast : last.kind <;> simp [isPlain, closeSpan, hWords, hLast]
      | cons y ys => simp [isPlain, closeSpan, hWords]
  · cases hRole

/-- A closer reaches up to its first word, and if it is well formed up to its end. -/
theorem closer (hStands : s.StandsAt m left) (hRole : s.role = .closer) :
    ∃ before after, s.spelling = before ++ after ∧
      s.closeSpan = ⟨byteLength left, byteLength (left ++ before)⟩ ∧
      (s.isPlain = true → EndIfTag m before ∧ after = []) := by
  cases hStands with
  | text => cases hRole
  | @tag opening last inner kind d right rest hKind hDelimiters hText hSpan hBehind =>
      obtain ⟨x, words, hWords, hEndIf, hClose⟩ := exists_of_closer hRole
      obtain ⟨gap, right, behind, rfl, hGap, hWord, hInterior, rfl, hNext⟩ := hBehind.word hWords
      rw [hEndIf] at hInterior
      cases hInterior with
      | keyword hEndIfText =>
          have hDirective : kind = .directive := by
            cases kind with
            | «variable» => simp [role, hKind] at hRole
            | directive => rfl
          subst hDirective
          rcases hClose with ⟨hNone, ⟨other, hLast⟩, hPlace⟩ | ⟨hBroken, hPlace⟩
          · obtain ⟨gap', hGap', rfl, hLastSpan⟩ := hNext.closing hNone hLast
            have hSpelling : spelling (.tag opening inner last) =
                d.opening ++ (gap ++ "ENDIF".toList ++ gap' ++ d.closing) :=
              spelling_tag hText hBehind (by simp [hEndIfText, Keyword.text])
            refine ⟨_, [], (List.append_nil _).symm, ?_, fun _ => ⟨?_, rfl⟩⟩
            · rw [hPlace, hSpan, hLastSpan, hSpelling, hEndIfText]
              simp only [Span.cover, byteLength_append, Span.mk.injEq, Keyword.text]
              omega
            · rw [hSpelling]
              simpa using EndIfTag.mk hDelimiters hGap hGap'
          · have hSpelling : spelling (.tag opening inner last) = d.opening ++
                (gap ++ x.text.toList ++ Lexeme.textOf (behind ++ [last])) :=
              spelling_tag hText hBehind (by rw [hNext.text_eq]; simp)
            refine ⟨d.opening ++ (gap ++ x.text.toList), Lexeme.textOf (behind ++ [last]), ?_, ?_, ?_⟩
            · rw [hSpelling]
              simp
            · rw [hPlace, hSpan, hWord]
              simp only [Span.cover, byteLength_append, Span.mk.injEq]
              omega
            · intro hPlain
              simp [hBroken] at hPlain

end Segment.StandsAt

end Bulletin
