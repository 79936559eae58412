import Bulletin.Proofs.Places
import Bulletin.Proofs.Reports

/-! The lexemes of a source as a row of texts and tags. Nothing of the source is
lost between them, whether or not it is well formed, and every tag that begins
comes to an end. -/
namespace Bulletin

open Text Lexer

/-- The spans follow one another without a gap, from one offset to another. -/
def Span.Tile : Nat → List Span → Nat → Prop
  | start, [], stop => start = stop
  | start, s :: rest, stop => s.start = start ∧ s.start ≤ s.stop ∧ Tile s.stop rest stop

/-- A span that covers no bytes selects no text. -/
theorem Text.Covers.eq_nil_of_isEmpty {source text : List Char} {span : Span}
    (hCovers : Covers source span text) (hEmpty : span.isEmpty = true) : text = [] := by
  obtain ⟨left, right, -, rfl⟩ := hCovers
  by_contra hText
  have := byteLength_pos hText
  simp only [Span.isEmpty, byteLength_append, decide_eq_true_eq] at hEmpty
  omega

/-- Lexemes that stand one behind the other, the first at the offset. -/
def Lexeme.Row : Nat → List Lexeme → Prop
  | _, [] => True
  | offset, x :: rest =>
    x.span = ⟨offset, offset + byteLength x.text.toList⟩ ∧
      Row (offset + byteLength x.text.toList) rest

namespace Lexeme

variable {offset : Nat} {xs ys : List Lexeme} {x : Lexeme}

/-- The text that lexemes are. -/
def textOf (xs : List Lexeme) : List Char :=
  xs.flatMap fun x => x.text.toList

@[simp]
theorem textOf_nil : textOf [] = [] := rfl

@[simp]
theorem textOf_cons (x : Lexeme) (xs : List Lexeme) : textOf (x :: xs) = x.text.toList ++ textOf xs :=
  List.flatMap_cons ..

@[simp]
theorem textOf_append (xs ys : List Lexeme) : textOf (xs ++ ys) = textOf xs ++ textOf ys :=
  List.flatMap_append

theorem row_append :
    Row offset (xs ++ ys) ↔ Row offset xs ∧ Row (offset + byteLength (textOf xs)) ys := by
  induction xs generalizing offset with
  | nil => simp [Row]
  | cons x xs ih => simp [Row, ih, and_assoc, Nat.add_assoc]

theorem Row.tile (hRow : Row offset xs) :
    Span.Tile offset (xs.map span) (offset + byteLength (textOf xs)) := by
  induction xs generalizing offset with
  | nil => rfl
  | cons x xs ih =>
      obtain ⟨hSpan, hRest⟩ := hRow
      have hTile := ih hRest
      rw [Nat.add_assoc] at hTile
      refine ⟨by rw [hSpan], by rw [hSpan]; exact Nat.le_add_right .., ?_⟩
      rw [hSpan, textOf_cons, byteLength_append]
      exact hTile

/-- In a source that a row of lexemes makes up, each of them stands where its
span says. -/
theorem Row.covers {left right : List Char} (hRow : Row (byteLength left) xs) (hMem : x ∈ xs) :
    Covers (left ++ textOf xs ++ right) x.span x.text.toList := by
  obtain ⟨before, after, rfl⟩ := List.append_of_mem hMem
  obtain ⟨-, hHere, -⟩ := row_append.mp hRow
  refine ⟨left ++ textOf before, textOf after ++ right, by simp, ?_⟩
  simp [hHere, Nat.add_assoc]

end Lexeme

namespace Lexer

variable {m : Markup} {s next : Lexer} {o : Opening}

theorem run_row (hValid : s.Valid m) : Lexeme.Row s.offset (s.run m) := by
  induction hMeasure : s.remaining using Nat.strongRecOn generalizing s with
  | ind n ih =>
      subst hMeasure
      cases hStep : step m s with
      | none =>
          rw [run_of_none hStep]
          trivial
      | some result =>
          obtain ⟨x, next⟩ := result
          have hMove := step_move hValid hStep
          obtain ⟨-, hNext, hSpan⟩ := hMove.span
          rw [run_of_some hStep]
          rw [hNext] at hSpan
          exact ⟨hSpan, hNext ▸ ih _ (step_remaining_lt hStep) (hMove.valid hValid) rfl⟩

end Lexer

/-- A piece of a source: a text between tags, or a tag with the lexemes in it
and the one that ends it. -/
inductive Segment where
  | text (x : Lexeme)
  | tag (opening : Lexeme) (inner : List Lexeme) (last : Lexeme)
  deriving DecidableEq, Repr

namespace Segment

def lexemes : Segment → List Lexeme
  | text x => [x]
  | tag opening inner last => opening :: (inner ++ [last])

end Segment

/-- What a lexeme inside a tag is if `right` follows it: a gap, a word, or a run
of characters that fit nowhere. Gaps and words reach as far as they can, and a
word is a keyword only if it is spelled like one. -/
inductive Interior (text right : List Char) : TokenKind → Prop where
  | gap (hText : text ≠ []) (hGap : IsGapRun text) (hRight : Stops isGap right) :
      Interior text right .whitespace
  | keyword {k : Keyword} (hText : text = k.text.toList)
      (hRight : Stops Identifier.isContinue right) : Interior text right (.keyword k)
  | name (hName : IsName (String.ofList text)) (hRight : Stops Identifier.isContinue right) :
      Interior text right .identifier
  | stray (hText : text ≠ []) : Interior text right .unexpected

/-- `TagRow m kind d opening text inner last rest`: behind the opening of a tag
the text goes on with the lexemes `inner` and `last`, which ends the tag, and
`rest` follows. The end of the tag is found wherever it stands. A tag breaks off
where the source or the line ends or another tag begins, and its last lexeme is
then empty. -/
inductive TagRow (m : Markup) (kind : TagKind) (d : Delimiters) (opening : Span) :
    List Char → List Lexeme → Lexeme → List Char → Prop where
  | closed {last : Lexeme} {rest : List Char} (hKind : last.kind = .endTag kind)
      (hText : last.text.toList = d.closing) :
      TagRow m kind d opening (last.text.toList ++ rest) [] last rest
  | brokenOff {last : Lexeme} {rest : List Char} (hKind : last.kind = .unclosed kind opening)
      (hText : last.text.toList = []) (hClosing : ¬d.closing <+: rest)
      (hRest : rest = [] ∨ m.Opens rest ∨ ∃ c ∈ rest.head?, isLineBreak c = true) :
      TagRow m kind d opening rest [] last rest
  | inner {x last : Lexeme} {inner : List Lexeme} {right rest : List Char}
      (hClosing : ¬d.closing <+: x.text.toList ++ right)
      (hOpening : ¬m.Opens (x.text.toList ++ right))
      (hInterior : Interior x.text.toList right x.kind)
      (hRow : TagRow m kind d opening right inner last rest) :
      TagRow m kind d opening (x.text.toList ++ right) (x :: inner) last rest

/-- `Segmented m text segments`: the text is a row of segments. A text reaches up
to the next opening, so no two texts are next to each other and no opening is
inside one. A tag begins with the longest opening that stands at its place. -/
inductive Segmented (m : Markup) : List Char → List Segment → Prop where
  | nil : Segmented m [] []
  | text {x : Lexeme} {right : List Char} {segments : List Segment} (hKind : x.kind = .rawText)
      (hText : x.text.toList ≠ []) (hUntouched : m.Untouched x.text.toList right)
      (hRight : right = [] ∨ m.Opens right) (hApart : ∀ y, segments.head? ≠ some (.text y))
      (hRest : Segmented m right segments) :
      Segmented m (x.text.toList ++ right) (.text x :: segments)
  | tag {opening last : Lexeme} {inner : List Lexeme} {kind : TagKind} {d : Delimiters}
      {right rest : List Char} {segments : List Segment} (hKind : opening.kind = .beginTag kind)
      (hDelimiters : m.delimiters? kind = some d) (hText : opening.text.toList = d.opening)
      (hLongest : ∀ other e, m.delimiters? other = some e →
        e.opening <+: opening.text.toList ++ right → e.opening <+: d.opening)
      (hRow : TagRow m kind d opening.span right inner last rest)
      (hRest : Segmented m rest segments) :
      Segmented m (opening.text.toList ++ right) (.tag opening inner last :: segments)

/-- Of two openings at one place the one that ends last is preferred. -/
theorem Opening.stop_le_of_prefer? {a b : Option Opening} {o p : Opening}
    (hFound : prefer? a b = some o) (hPlace : ∀ q ∈ a, ∀ r ∈ b, q.start = r.start)
    (hMem : p ∈ a ∨ p ∈ b) : p.stop ≤ o.stop := by
  cases a with
  | none =>
      obtain rfl : o = p := Option.some.inj (hFound.symm.trans (hMem.resolve_left (by simp)))
      exact Nat.le_refl _
  | some q =>
      cases b with
      | none =>
          obtain rfl : o = p := Option.some.inj (hFound.symm.trans (hMem.resolve_right (by simp)))
          exact Nat.le_refl _
      | some r =>
          have hStart := hPlace q rfl r rfl
          simp only [prefer?, prefer, Option.some.injEq] at hFound
          simp only [Option.mem_def, Option.some.injEq] at hMem
          split at hFound <;> grind

/-- Every opening that stands at a place is the beginning of the one that is
found there. -/
theorem Markup.isPrefix_of_openingAt? {m : Markup} {offset : Nat} {text : List Char} {o : Opening}
    {kind : TagKind} {d : Delimiters} (hFound : m.openingAt? offset text = some o)
    (hd : m.delimiters? kind = some d) (hPrefix : d.opening <+: text) :
    d.opening <+: o.delimiters.opening := by
  obtain ⟨-, hStart, hOpening⟩ := openingAt?_sound hFound
  have hPlace (kind : TagKind) : ∀ q ∈ m.kindOpeningAt? kind offset text, q.start = offset := by
    intro q hq
    obtain ⟨-, -, -, rfl⟩ := kindOpeningAt?_eq_some_iff.mp hq
    rfl
  have hHere : m.kindOpeningAt? kind offset text = some ⟨kind, d, offset⟩ :=
    kindOpeningAt?_eq_some_iff.mpr ⟨d, hd, hPrefix, rfl⟩
  have hStop : Opening.stop ⟨kind, d, offset⟩ ≤ o.stop := by
    refine Opening.stop_le_of_prefer? hFound ?_ ?_
    · exact fun q hq r hr => (hPlace .variable q hq).trans (hPlace .directive r hr).symm
    · cases kind
      · exact Or.inl hHere
      · exact Or.inr hHere
  have hLength : byteLength d.opening ≤ byteLength o.delimiters.opening := by
    simpa [Opening.stop, hStart] using hStop
  rcases List.prefix_or_prefix_of_prefix hPrefix hOpening with hPart | hLonger
  · exact hPart
  · have hSame := eq_of_isPrefix_of_byteLength hLonger hLength
    exact hSame ▸ List.prefix_rfl

/-- A text is not followed by another one. -/
theorem Segmented.head?_ne_text {m : Markup} {text : List Char} {segments : List Segment}
    (hSegments : Segmented m text segments) (hText : text = [] ∨ m.Opens text) (y : Lexeme) :
    segments.head? ≠ some (.text y) := by
  cases hSegments with
  | nil => simp
  | tag => simp
  | text _ hSome hUntouched =>
      rcases hText with hNil | hOpens
      · exact absurd (List.append_eq_nil_iff.mp hNil).1 hSome
      · exact absurd hOpens (hUntouched [] _ rfl hSome)

namespace Lexer

variable {m : Markup} {s : Lexer} {o : Opening}

theorem interior_wordKind {text right : List Char} (hWord : Identifier.IsIdentifier text)
    (hRight : Stops Identifier.isContinue right) : Interior text right (wordKind text) := by
  cases hKind : wordKind text with
  | keyword k => exact .keyword (eq_text_of_wordKind hKind) hRight
  | identifier =>
      exact .name ⟨by simpa using hWord, wordKind_eq_identifier_iff.mp hKind⟩ hRight
  | _ =>
      unfold wordKind at hKind
      split at hKind <;> cases hKind

/-- Inside a tag the reader goes on to the end of the tag. -/
theorem run_tagRow (hValid : s.Valid m) (hTag : s.tag? = some o) :
    ∃ inner last, ∃ next : Lexer, s.run m = inner ++ last :: next.run m ∧
      TagRow m o.kind o.delimiters o.span s.rest inner last next.rest ∧ next.Valid m ∧
        next.tag? = none ∧ next.remaining < s.remaining := by
  induction hMeasure : s.remaining using Nat.strongRecOn generalizing s with
  | ind n ih =>
      subst hMeasure
      obtain ⟨x, next, hStep⟩ : ∃ x next, step m s = some (x, next) :=
        exists_step (Or.inl (by simp [hTag]))
      have hMove := step_move hValid hStep
      have hNext := hMove.valid hValid
      have hLess := step_remaining_lt hStep
      have hRun := run_of_some hStep
      obtain ⟨hRest, -, -⟩ := hMove.span
      -- A lexeme that does not end the tag stands before what the reader goes on with.
      have hOn (hInside : next.tag? = some o) (hClosing : ¬o.delimiters.closing <+: s.rest)
          (hOpening : ¬m.Opens s.rest) (hInterior : Interior x.text.toList next.rest x.kind) :
          ∃ inner last, ∃ after : Lexer, s.run m = inner ++ last :: after.run m ∧
            TagRow m o.kind o.delimiters o.span s.rest inner last after.rest ∧ after.Valid m ∧
              after.tag? = none ∧ after.remaining < s.remaining := by
        obtain ⟨inner, last, after, hMore, hRow, hAfter, hOutside, hFewer⟩ :=
          ih _ hLess hNext hInside rfl
        refine ⟨x :: inner, last, after, by rw [hRun, hMore]; rfl, ?_, hAfter, hOutside,
          hFewer.trans hLess⟩
        rw [hRest] at hClosing hOpening ⊢
        exact .inner hClosing hOpening hInterior hRow
      cases hMove with
      | text hOutside => simp [hTag] at hOutside
      | opening hOutside => simp [hTag] at hOutside
      | closing hInside =>
          obtain rfl := Option.some.inj (hTag.symm.trans hInside)
          refine ⟨[], _, _, hRun, ?_, hNext, rfl, hLess⟩
          rw [hRest]
          exact .closed rfl (by simp [take])
      | broken hInside hClosing hEnd =>
          obtain rfl := Option.some.inj (hTag.symm.trans hInside)
          exact ⟨[], _, _, hRun, .brokenOff rfl (by simp [take]) hClosing hEnd, hNext, rfl, hLess⟩
      | gap hInside hClosing hOpening _ hText hGap hRight =>
          obtain rfl := Option.some.inj (hTag.symm.trans hInside)
          refine hOn rfl hClosing hOpening ?_
          simpa [take] using Interior.gap hText hGap hRight
      | word hInside hClosing hOpening _ hWord hRight =>
          obtain rfl := Option.some.inj (hTag.symm.trans hInside)
          refine hOn rfl hClosing hOpening ?_
          simpa [take] using interior_wordKind hWord hRight
      | stray hInside hClosing hOpening =>
          obtain rfl := Option.some.inj (hTag.symm.trans hInside)
          refine hOn rfl hClosing hOpening ?_
          exact .stray (by simp [take])

/-- The lexemes of a source are a row of segments. -/
theorem run_segmented (hValid : s.Valid m) (hTag : s.tag? = none) :
    ∃ segments, s.run m = segments.flatMap Segment.lexemes ∧ Segmented m s.rest segments := by
  induction hMeasure : s.remaining using Nat.strongRecOn generalizing s with
  | ind n ih =>
      subst hMeasure
      cases hStep : step m s with
      | none =>
          rw [run_of_none hStep, (step_eq_none_iff.mp hStep).2]
          exact ⟨[], rfl, .nil⟩
      | some result =>
          obtain ⟨x, next⟩ := result
          have hMove := step_move hValid hStep
          have hNext := hMove.valid hValid
          have hLess := step_remaining_lt hStep
          have hRun := run_of_some hStep
          obtain ⟨hRest, -, hSpan⟩ := hMove.span
          cases hMove with
          | text hOutside _ hText hUntouched hRight =>
              obtain ⟨segments, hMore, hSegments⟩ := ih _ hLess hNext rfl rfl
              refine ⟨.text _ :: segments, by rw [hRun, hMore]; rfl, ?_⟩
              rw [hRest]
              refine .text rfl (by simpa [take] using hText) ?_ hRight
                (hSegments.head?_ne_text hRight) hSegments
              simpa [take] using hUntouched
          | @opening o right _ hOutside hOpening =>
              obtain ⟨inner, last, after, hInner, hRow, hAfter, hBehind, hFewer⟩ :=
                run_tagRow hNext rfl
              obtain ⟨segments, hMore, hSegments⟩ :=
                ih _ (hFewer.trans hLess) hAfter hBehind rfl
              obtain ⟨hd, hStart, -⟩ := Markup.openingAt?_sound hOpening
              have hHere : o.span =
                  (s.take (.beginTag o.kind) o.delimiters.opening right (some o)).1.span := by
                simp [Opening.span, Opening.stop, take, hStart]
              refine ⟨.tag (s.take (.beginTag o.kind) o.delimiters.opening right (some o)).1 inner
                last :: segments, ?_, ?_⟩
              · rw [hRun, hInner, hMore]
                simp [Segment.lexemes, take]
              · rw [hRest]
                refine .tag rfl hd (by simp [take]) ?_ (hHere ▸ hRow) hSegments
                intro other e he hPrefix
                exact Markup.isPrefix_of_openingAt? hOpening he (hRest ▸ hPrefix)
          | closing hInside => simp [hTag] at hInside
          | broken hInside => simp [hTag] at hInside
          | gap hInside => simp [hTag] at hInside
          | word hInside => simp [hTag] at hInside
          | stray hInside => simp [hTag] at hInside

end Lexer

theorem Interior.ne_nil {text right : List Char} {kind : TokenKind}
    (hInterior : Interior text right kind) : text ≠ [] := by
  have hWord {word : List Char} (hWord : Identifier.IsIdentifier word) : word ≠ [] := by
    obtain ⟨c, rest, rfl, -⟩ := hWord.exists_cons
    exact List.cons_ne_nil c rest
  cases hInterior with
  | gap hText => exact hText
  | keyword hText => exact hText ▸ hWord (Keyword.isIdentifier_text _)
  | name hName => exact hWord (by simpa using hName.1)
  | stray hText => exact hText

/-- Only what stands for invalid input can be empty. -/
theorem Segmented.isInvalid_of_empty {m : Markup} {text : List Char} {segments : List Segment}
    (hSegments : Segmented m text segments) :
    ∀ x ∈ segments.flatMap Segment.lexemes, x.text.toList = [] → x.kind.isInvalid = true := by
  have hRow {kind : TagKind} {d : Delimiters} {opening : Span} {text rest : List Char}
      {inner : List Lexeme} {last : Lexeme} (hRow : TagRow m kind d opening text inner last rest) :
      ∀ x ∈ inner ++ [last], x.text.toList = [] → x.kind.isInvalid = true := by
    induction hRow with
    | closed _ hText =>
        refine List.forall_mem_singleton.mpr fun hEmpty => ?_
        exact absurd (hText.symm.trans hEmpty) d.closing_ne_nil
    | brokenOff hKind => simp [hKind, TokenKind.isInvalid]
    | inner _ _ hInterior _ ih =>
        exact List.forall_mem_cons.mpr ⟨fun hEmpty => absurd hEmpty hInterior.ne_nil, ih⟩
  induction hSegments with
  | nil => simp
  | text _ hSome _ _ _ _ ih =>
      exact List.forall_mem_cons.mpr ⟨fun hEmpty => absurd hEmpty hSome, ih⟩
  | @tag opening _ _ _ d _ _ _ _ _ hText _ hInner _ ih =>
      rw [List.flatMap_cons]
      refine List.forall_mem_append.mpr ⟨List.forall_mem_cons.mpr ⟨?_, hRow hInner⟩, ih⟩
      exact fun hEmpty => absurd (hText.symm.trans hEmpty) d.opening_ne_nil

theorem Token.map_toLexeme_locate (p : Position) (xs : List Lexeme) :
    (locate p xs).map toLexeme = xs := by
  induction xs generalizing p with
  | nil => rfl
  | cons x xs ih => rw [locate, List.map_cons, ih]

namespace Engine

theorem tokenize_accumulate (m : Markup) (source : List Char) (log : Log) :
    (Engine.mk m .accumulate).tokenize source log =
      (.ok ((Engine.mk m .accumulate).tokens source), log.complainAll source
        (((Engine.mk m .accumulate).tokens source).filterMap Token.complaint?)) := by
  rw [tokenize_eq, Log.reportAll_accumulate]
  rfl

/-- Cutting a source into tokens loses nothing. In accumulate mode it never
fails; the tokens are those of a row of texts and tags, they cover the source
without a gap, each stands where its span says, and only a token that stands for
invalid input can be empty. -/
theorem tokenize_segments (m : Markup) (source : List Char) (log : Log) :
    ∃ tokens segments,
      (Engine.mk m .accumulate).tokenize source log =
        (.ok tokens, log.complainAll source (tokens.filterMap Token.complaint?)) ∧
      tokens.map Token.toLexeme = segments.flatMap Segment.lexemes ∧
      Segmented m source segments ∧
      Span.Tile 0 (tokens.map fun t => t.span) (byteLength source) ∧
      ∀ t ∈ tokens, Covers source t.span t.text.toList ∧
        (t.span.isEmpty = true → t.kind.isInvalid = true) := by
  obtain ⟨segments, hRun, hSegments⟩ := Lexer.run_segmented (Lexer.valid_start m source) rfl
  have hLexemes : ((Engine.mk m .accumulate).tokens source).map Token.toLexeme =
      segments.flatMap Segment.lexemes := (Token.map_toLexeme_locate _ _).trans hRun
  have hRow : Lexeme.Row 0 (segments.flatMap Segment.lexemes) :=
    hRun ▸ Lexer.run_row (Lexer.valid_start m source)
  have hText : Lexeme.textOf (segments.flatMap Segment.lexemes) = source :=
    hRun ▸ Lexer.run_text m (.start source)
  refine ⟨_, segments, tokenize_accumulate m source log, hLexemes, hSegments, ?_, ?_⟩
  · have hTile := hRow.tile
    rw [hText, Nat.zero_add, ← hLexemes, List.map_map] at hTile
    exact hTile
  · intro t ht
    have hMem : t.toLexeme ∈ segments.flatMap Segment.lexemes :=
      hLexemes ▸ List.mem_map_of_mem ht
    have hCovers : Covers ([] ++ _ ++ []) t.span t.text.toList :=
      Lexeme.Row.covers (show Lexeme.Row (byteLength []) _ from hRow) hMem
    rw [hText, List.nil_append, List.append_nil] at hCovers
    refine ⟨hCovers, fun hEmpty => hSegments.isInvalid_of_empty _ hMem ?_⟩
    exact hCovers.eq_nil_of_isEmpty hEmpty

end Engine

end Bulletin
