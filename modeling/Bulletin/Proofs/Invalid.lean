import Bulletin.Proofs.Tags

/-! The diagnostics of cutting a source into tokens, against the tokens. Each token that
stands for invalid input is told of once, in the order of the tokens. A tag that was left
open is told of where it begins, which can be far in front of its empty token. -/
namespace Bulletin

open Text Lexer

theorem Text.Covers.isEmpty_iff {source text : List Char} {span : Span}
    (hCovers : Covers source span text) : span.isEmpty = true ↔ text = [] := by
  refine ⟨hCovers.eq_nil_of_isEmpty, ?_⟩
  rintro rfl
  obtain ⟨left, right, -, rfl⟩ := hCovers
  simp [Span.isEmpty]

/-- The name of a kind of tags in messages. -/
def TagKind.name : TagKind → String
  | «variable» => "variable"
  | directive => "directive"

/-- The diagnostic tells of an invalid lexeme behind the lexemes `before`. It quotes the
lexeme if that has a text, and points at it. An empty one stands where a tag was left
open; the diagnostic points at the lexeme that began the tag, and all lexemes in between
are inside the tag. -/
structure Diagnostic.Tells (document : Document) (before : List Lexeme) (x : Lexeme)
    (d : Diagnostic) : Prop where
  kind : d.kind = .lexical
  document : d.document = document
  text : x.span.isEmpty = false → d.place.offset? = some x.span.start ∧
    d.message = "unexpected `" ++ x.text ++ "`"
  unclosed : x.span.isEmpty = true → ∃ earlier opening inner tag,
    before = earlier ++ opening :: inner ∧ opening.kind = .beginTag tag ∧
      (∀ y ∈ inner, y.kind.IsInterior) ∧ d.place.offset? = some opening.span.start ∧
        d.message = "unclosed " ++ tag.name

/-- `Lexeme.Told document before xs ds`: behind the lexemes `before`, the diagnostics tell
of the invalid ones among the lexemes, of each once and in their order. -/
inductive Lexeme.Told (document : Document) :
    List Lexeme → List Lexeme → List Diagnostic → Prop where
  | nil (before : List Lexeme) : Told document before [] []
  | sound {before xs : List Lexeme} {x : Lexeme} {ds : List Diagnostic}
      (hSound : x.kind.isInvalid = false) (hRest : Told document (before ++ [x]) xs ds) :
      Told document before (x :: xs) ds
  | invalid {before xs : List Lexeme} {x : Lexeme} {d : Diagnostic} {ds : List Diagnostic}
      (hInvalid : x.kind.isInvalid = true) (hTells : d.Tells document before x)
      (hRest : Told document (before ++ [x]) xs ds) :
      Told document before (x :: xs) (d :: ds)

namespace Lexeme

variable {document : Document} {source : List Char} {before xs ys : List Lexeme} {x : Lexeme}
  {ds es : List Diagnostic}

theorem Told.append (hFirst : Told document before xs ds)
    (hSecond : Told document (before ++ xs) ys es) :
    Told document before (xs ++ ys) (ds ++ es) := by
  induction hFirst with
  | nil before => simpa using hSecond
  | sound hSound _ ih => exact .sound hSound (ih (by simpa using hSecond))
  | invalid hInvalid hTells _ ih => exact .invalid hInvalid hTells (ih (by simpa using hSecond))

/-- There are as many diagnostics as invalid lexemes. -/
theorem Told.length (hTold : Told document before xs ds) :
    ds.length = xs.countP fun x => x.kind.isInvalid := by
  induction hTold with
  | nil => rfl
  | sound hSound _ ih => rw [ih, List.countP_cons_of_neg (by simp [hSound])]
  | invalid hInvalid _ _ ih =>
      rw [List.length_cons, ih]
      exact (List.countP_cons_of_pos (p := fun x : Lexeme => x.kind.isInvalid) hInvalid).symm

/-- The diagnostics that cutting a source into these lexemes records. -/
def diagnostics (document : Document) (source : List Char) (xs : List Lexeme) :
    List Diagnostic :=
  (xs.filterMap complaint?).map (.ofComplaint document source)

@[simp]
theorem diagnostics_append : diagnostics document source (xs ++ ys) =
    diagnostics document source xs ++ diagnostics document source ys := by
  simp [diagnostics]

theorem told_of_sound (hSound : x.kind.isInvalid = false)
    (hRest : Told document (before ++ [x]) xs (diagnostics document source xs)) :
    Told document before (x :: xs) (diagnostics document source (x :: xs)) := by
  have hSilent : x.complaint? = none := complaint?_eq_none_iff.mpr hSound
  have hSame : diagnostics document source (x :: xs) = diagnostics document source xs := by
    simp [diagnostics, hSilent]
  rw [hSame]
  exact .sound hSound hRest

theorem told_of_unexpected (hKind : x.kind = .unexpected) (hText : x.text.toList ≠ [])
    (hCovers : Covers source x.span x.text.toList)
    (hRest : Told document (before ++ [x]) xs (diagnostics document source xs)) :
    Told document before (x :: xs) (diagnostics document source (x :: xs)) := by
  have hComplaint : x.complaint? = some ⟨.unexpectedText x.text, x.span⟩ := by
    simp [complaint?, hKind]
  have hHere : diagnostics document source (x :: xs) =
      .ofComplaint document source ⟨.unexpectedText x.text, x.span⟩ ::
        diagnostics document source xs := by
    simp [diagnostics, hComplaint]
  rw [hHere]
  refine .invalid (by rw [hKind]; rfl) ⟨rfl, rfl, fun _ => ⟨rfl, rfl⟩, fun hEmpty => ?_⟩ hRest
  exact absurd (hCovers.isEmpty_iff.mp hEmpty) hText

/-- A tag that was left open is told of at its beginning. -/
theorem told_of_unclosed {earlier inner : List Lexeme} {opening : Lexeme} {tag : TagKind}
    (hKind : x.kind = .unclosed tag opening.span) (hText : x.text.toList = [])
    (hCovers : Covers source x.span x.text.toList) (hOpening : opening.kind = .beginTag tag)
    (hInner : ∀ y ∈ inner, y.kind.IsInterior) :
    Told document (earlier ++ opening :: inner) [x] (diagnostics document source [x]) := by
  have hHere : diagnostics document source [x] =
      [.ofComplaint document source ⟨.unclosedTag tag, opening.span⟩] := by
    simp [diagnostics, complaint?, hKind]
  rw [hHere]
  refine .invalid (by rw [hKind]; rfl) ⟨rfl, rfl, fun hSome => ?_, fun _ => ?_⟩ (.nil _)
  · simp [hCovers.isEmpty_iff.mpr hText] at hSome
  · refine ⟨earlier, opening, inner, tag, rfl, hOpening, hInner, rfl, ?_⟩
    cases tag <;> rfl

end Lexeme

theorem Interior.isInterior {text right : List Char} {kind : TokenKind}
    (hInterior : Interior text right kind) : kind.IsInterior := by
  cases hInterior <;> trivial

section Rows

variable {m : Markup} {document : Document} {source : List Char} {before : List Lexeme}

/-- The lexemes behind the beginning of a tag. -/
theorem TagRow.told {kind : TagKind} {d : Delimiters} {opening last : Lexeme}
    {text rest : List Char} {inner earlier : List Lexeme}
    (hRow : TagRow m kind d opening.span text inner last rest)
    (hOpening : opening.kind = .beginTag kind) (hBefore : ∀ y ∈ before, y.kind.IsInterior)
    (hCovers : ∀ x ∈ inner ++ [last], Covers source x.span x.text.toList) :
    Lexeme.Told document (earlier ++ opening :: before) (inner ++ [last])
      (Lexeme.diagnostics document source (inner ++ [last])) := by
  induction hRow generalizing before with
  | closed hKind => exact Lexeme.told_of_sound (by rw [hKind]; rfl) (.nil _)
  | brokenOff hKind hText =>
      exact Lexeme.told_of_unclosed hKind hText (hCovers _ (by simp)) hOpening hBefore
  | @inner x last inner right rest hClosing hOpens hInterior hRow ih =>
      obtain ⟨hHere, hMore⟩ := List.forall_mem_cons.mp hCovers
      have hBehind : ∀ y ∈ before ++ [x], y.kind.IsInterior :=
        List.forall_mem_append.mpr ⟨hBefore, List.forall_mem_singleton.mpr hInterior.isInterior⟩
      have hRest := ih hBehind hMore
      rw [← List.cons_append, ← List.append_assoc] at hRest
      by_cases hKind : x.kind = .unexpected
      · exact Lexeme.told_of_unexpected hKind hInterior.ne_nil hHere hRest
      · refine Lexeme.told_of_sound ?_ hRest
        generalize x.kind = kind at hInterior hKind
        cases hInterior <;> first | rfl | exact absurd rfl hKind

theorem Segmented.told {text : List Char} {segments : List Segment}
    (hSegments : Segmented m text segments)
    (hCovers : ∀ x ∈ segments.flatMap Segment.lexemes, Covers source x.span x.text.toList) :
    Lexeme.Told document before (segments.flatMap Segment.lexemes)
      (Lexeme.diagnostics document source (segments.flatMap Segment.lexemes)) := by
  induction hSegments generalizing before with
  | nil => exact .nil before
  | text hKind _ _ _ _ _ ih =>
      exact Lexeme.told_of_sound (by rw [hKind]; rfl) (ih (List.forall_mem_cons.mp hCovers).2)
  | @tag opening last inner kind d right rest segments hKind _ _ _ hRow _ ih =>
      rw [List.flatMap_cons] at hCovers ⊢
      obtain ⟨hTag, hMore⟩ := List.forall_mem_append.mp hCovers
      rw [Lexeme.diagnostics_append]
      refine Lexeme.Told.append (Lexeme.told_of_sound (by rw [hKind]; rfl) ?_) (ih hMore)
      exact hRow.told hKind (by simp) (List.forall_mem_cons.mp hTag).2

end Rows

namespace Engine

/-- Cutting a source into tokens in accumulate mode always succeeds. It records one
lexical diagnostic for each invalid token, in the order of the tokens, and no others. That
for a token with a text points at the token and quotes it; that for an empty one points
at the beginning of the tag that was left open and names its kind. -/
theorem tokenize_tells (m : Markup) (source : List Char) (log : Log) :
    ∃ tokens found,
      (Engine.mk m .accumulate).tokenize source log =
        (.ok tokens, { log with held := log.held ++ found }) ∧
      Lexeme.Told log.document [] (tokens.map Token.toLexeme) found ∧
      found.length = tokens.countP (fun t => t.kind.isInvalid) ∧
      ∀ t ∈ tokens, Covers source t.span t.text.toList := by
  obtain ⟨tokens, segments, hTokenize, hLexemes, hSegments, -, hTokens⟩ :=
    tokenize_segments m source log
  have hCovers : ∀ x ∈ segments.flatMap Segment.lexemes, Covers source x.span x.text.toList := by
    rw [← hLexemes]
    exact List.forall_mem_map.mpr fun t ht => (hTokens t ht).1
  have hTold : Lexeme.Told log.document [] (tokens.map Token.toLexeme)
      (Lexeme.diagnostics log.document source (tokens.map Token.toLexeme)) := by
    rw [hLexemes]
    exact hSegments.told hCovers
  have hFound : Lexeme.diagnostics log.document source (tokens.map Token.toLexeme) =
      (tokens.filterMap Token.complaint?).map (.ofComplaint log.document source) := by
    rw [Lexeme.diagnostics, List.filterMap_map]
    rfl
  rw [hFound] at hTold
  refine ⟨tokens, _, hTokenize, hTold, ?_, fun t ht => (hTokens t ht).1⟩
  rw [hTold.length, List.countP_map]
  rfl

end Engine

end Bulletin
