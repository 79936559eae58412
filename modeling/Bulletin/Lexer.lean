import Bulletin.Markup
import Bulletin.Text.CharSet

/-!
Lexemes, their kinds and the keywords, and cutting a source into lexemes.
Between tags everything up to the next opening delimiter is one lexeme; inside a
tag the lexemes are the delimiters, blanks, names and keywords. The pieces cover
the source without gaps, and input that fits nowhere becomes a lexeme too, so
cutting never fails.
-/

namespace Bulletin

/-- The words that have a meaning inside a directive tag. They are written in
capitals; in other letters they are ordinary names. -/
inductive Keyword where
  | ifWord
  | notWord
  | elseWord
  | endIfWord
  deriving DecidableEq, Repr

namespace Keyword

def text : Keyword → String
  | ifWord => "IF"
  | notWord => "NOT"
  | elseWord => "ELSE"
  | endIfWord => "ENDIF"

def ofText? (word : String) : Option Keyword :=
  [ifWord, notWord, elseWord, endIfWord].find? fun k => k.text == word

end Keyword

/-- What a piece of the source is. `rawText` is the text between tags. The last
two constructors stand for input that is no token: a run of characters inside a
tag that cannot begin one, and the place where a tag was left open, which
covers no characters and names the tag's opening. -/
inductive TokenKind where
  | rawText
  | beginTag (kind : TagKind)
  | endTag (kind : TagKind)
  | whitespace
  | keyword (word : Keyword)
  | identifier
  | unexpected
  | unclosed (kind : TagKind) (opening : Span)
  deriving DecidableEq, Repr

namespace TokenKind

/-- The name of the kind in messages. -/
def describe : TokenKind → String
  | rawText => "raw text"
  | beginTag .variable => "begin variable"
  | endTag .variable => "end variable"
  | beginTag .directive => "begin directive"
  | endTag .directive => "end directive"
  | whitespace => "whitespace"
  | keyword _ => "keyword"
  | identifier => "identifier"
  | unexpected => "invalid input"
  | unclosed _ _ => "invalid input"

def isInvalid : TokenKind → Bool
  | unexpected => true
  | unclosed _ _ => true
  | _ => false

end TokenKind

/-- A piece of the source with its kind and the bytes it covers. -/
structure Lexeme where
  kind : TokenKind
  span : Span
  text : String
  deriving DecidableEq, Repr

open Text

/-- A reader at some place of a source: the text ahead, its offset, the tag
that is open there, and what is known of the delimiters ahead. -/
structure Lexer where
  rest : List Char
  offset : Nat
  tag? : Option Opening
  sightings : Sightings

namespace Lexer

/-- Inside a tag only the tab and the space separate. -/
def isGap (c : Char) : Bool :=
  c == '\t' || c == ' '

/-- A tag never extends over the end of a line. -/
def isLineBreak (c : Char) : Bool :=
  c == '\r' || c == '\n'

/-- A reader at the beginning of the source, outside of any tag. -/
def start (source : List Char) : Lexer where
  rest := source
  offset := 0
  tag? := none
  sightings := .unseen

/-- Gives up the text ahead, and the tag that is open. -/
def exhausted (s : Lexer) : Lexer :=
  { s with rest := [], offset := s.offset + byteLength s.rest, tag? := none }

/-- Takes the next `text`, which `rest` follows, as a lexeme of the kind and
goes on behind it. -/
def take (s : Lexer) (kind : TokenKind) (text rest : List Char) (tag? : Option Opening) :
    Lexeme × Lexer :=
  let stop := s.offset + byteLength text
  (⟨kind, ⟨s.offset, stop⟩, String.ofList text⟩, { s with rest, offset := stop, tag? })

/-- The kind of a word inside a tag. -/
def wordKind (word : List Char) : TokenKind :=
  match Keyword.ofText? (String.ofList word) with
  | some k => .keyword k
  | none => .identifier

/-- Whether a run of unexpected characters ends before this text: where a blank,
a line break or a character of a name stands, or a delimiter that ends this tag
or begins another. -/
def endsRun (m : Markup) (tag : Opening) (text : List Char) : Bool :=
  (match text with
    | [] => true
    | c :: _ => isGap c || Identifier.isContinue c || isLineBreak c) ||
  (stripped? tag.delimiters.closing text).isSome ||
  (m.openingAt? 0 text).isSome

/-- Splits a text where a run of unexpected characters ends. -/
def splitRun (m : Markup) (tag : Opening) : List Char → List Char × List Char
  | [] => ([], [])
  | c :: rest =>
    if endsRun m tag (c :: rest) then ([], c :: rest)
    else
      let (run, remaining) := splitRun m tag rest
      (c :: run, remaining)

theorem splitRun_append (m : Markup) (tag : Opening) (text : List Char) :
    (splitRun m tag text).1 ++ (splitRun m tag text).2 = text := by
  fun_induction splitRun m tag text <;> simp_all

/-- The lexeme that begins with the character `c`, outside of any tag: the next
opening if it stands here, and otherwise the text before it. -/
def literalStep (m : Markup) (s : Lexer) (c : Char) (rest : List Char) : Lexeme × Lexer :=
  let (next?, sightings) := s.sightings.first? m s.offset (c :: rest)
  let s := { s with sightings }
  match next? with
  | some o =>
    if o.start = s.offset then
      let length := o.delimiters.opening.length
      s.take (.beginTag o.kind) ((c :: rest).take length) ((c :: rest).drop length) (some o)
    else
      let ahead := o.start - s.offset - c.utf8Size
      s.take .rawText (c :: before ahead rest) (after ahead rest) none
  | none => s.take .rawText (c :: rest) [] none

/-- The place where the open tag breaks off. -/
def breakOff (s : Lexer) (tag : Opening) : Lexeme × Lexer :=
  s.take (.unclosed tag.kind tag.span) [] s.rest none

/-- The lexeme that begins with the character `c`, inside a tag. -/
def tagStep (m : Markup) (s : Lexer) (tag : Opening) (c : Char) (rest : List Char) :
    Lexeme × Lexer :=
  match stripped? tag.delimiters.closing (c :: rest) with
  | some remaining => s.take (.endTag tag.kind) tag.delimiters.closing remaining none
  | none =>
    if (m.openingAt? s.offset (c :: rest)).isSome || isLineBreak c then
      s.breakOff tag
    else if isGap c then
      s.take .whitespace (c :: rest.takeWhile isGap) (rest.dropWhile isGap) (some tag)
    else if Identifier.isStart c then
      let word := c :: rest.takeWhile Identifier.isContinue
      s.take (wordKind word) word (rest.dropWhile Identifier.isContinue) (some tag)
    else
      let (run, remaining) := splitRun m tag rest
      s.take .unexpected (c :: run) remaining (some tag)

/-- The next lexeme, or nothing at the end of the source. A tag that is still
open at the end is broken off first. -/
def step (m : Markup) (s : Lexer) : Option (Lexeme × Lexer) :=
  match s.tag?, s.rest with
  | none, [] => none
  | some tag, [] => some (s.breakOff tag)
  | none, c :: rest => some (literalStep m s c rest)
  | some tag, c :: rest => some (tagStep m s tag c rest)

theorem take_rest (s : Lexer) (kind : TokenKind) (text rest : List Char) (tag? : Option Opening) :
    (s.take kind text rest tag?).1.text.toList ++ (s.take kind text rest tag?).2.rest =
      text ++ rest := by
  simp [take]

theorem literalStep_rest (m : Markup) (s : Lexer) (c : Char) (rest : List Char) :
    (literalStep m s c rest).1.text.toList ++ (literalStep m s c rest).2.rest = c :: rest := by
  unfold literalStep
  simp only
  split
  · split <;> simp [take_rest]
  · simp [take_rest]

theorem tagStep_rest (m : Markup) (s : Lexer) (tag : Opening) (c : Char) (rest : List Char)
    (hRest : s.rest = c :: rest) :
    (tagStep m s tag c rest).1.text.toList ++ (tagStep m s tag c rest).2.rest = c :: rest := by
  unfold tagStep
  split
  · next hClosed => rw [take_rest, stripped?_eq_some_iff.mp hClosed]
  · split
    · simp [breakOff, take_rest, hRest]
    · split
      · simp [take_rest]
      · split
        · simp [take_rest]
        · simp [take_rest, splitRun_append]

/-- A lexeme is the text that the reader moves past. -/
theorem step_rest {m : Markup} {s next : Lexer} {x : Lexeme} (hStep : step m s = some (x, next)) :
    s.rest = x.text.toList ++ next.rest := by
  unfold step at hStep
  split at hStep
  · simp at hStep
  · next tag hTag hRest =>
    obtain ⟨rfl, rfl⟩ := Prod.mk.inj (Option.some.inj hStep)
    simp [hRest]
  · next c rest hTag hRest =>
    have hText := literalStep_rest m s c rest
    rw [Option.some.inj hStep] at hText
    exact hRest.trans hText.symm
  · next tag c rest hTag hRest =>
    have hText := tagStep_rest m s tag c rest hRest
    rw [Option.some.inj hStep] at hText
    exact hRest.trans hText.symm

/-- A bound on the lexemes ahead. Every lexeme takes a character, or leaves a
tag without taking one. -/
def remaining (s : Lexer) : Nat :=
  2 * s.rest.length + if s.tag?.isSome then 1 else 0

theorem literalStep_remaining_lt (m : Markup) (s : Lexer) (c : Char) (rest : List Char)
    (hTag : s.tag? = none) (hRest : s.rest = c :: rest) :
    (literalStep m s c rest).2.remaining < s.remaining := by
  unfold literalStep
  simp only
  split
  · next o _ =>
    split
    · have hOpening : 0 < o.delimiters.opening.length :=
        List.length_pos_iff.mpr o.delimiters.opening_ne_nil
      simp [take, remaining, hTag, hRest]
      omega
    · have := length_after_le (o.start - s.offset - c.utf8Size) rest
      simp [take, remaining, hTag, hRest]
      omega
  · simp [take, remaining, hTag, hRest]

theorem tagStep_remaining_lt (m : Markup) (s : Lexer) (tag : Opening) (c : Char)
    (rest : List Char) (hTag : s.tag? = some tag) (hRest : s.rest = c :: rest) :
    (tagStep m s tag c rest).2.remaining < s.remaining := by
  unfold tagStep
  split
  · next remaining hClosed =>
    have hLength := congrArg List.length (stripped?_eq_some_iff.mp hClosed)
    simp only [List.length_cons, List.length_append] at hLength
    simp [take, Lexer.remaining, hTag, hRest]
    omega
  · split
    · simp [breakOff, take, remaining, hTag]
    · split
      · have := (List.dropWhile_sublist (l := rest) isGap).length_le
        simp [take, remaining, hTag, hRest]
        omega
      · split
        · have := (List.dropWhile_sublist (l := rest) Identifier.isContinue).length_le
          simp [take, remaining, hTag, hRest]
          omega
        · have hRun := congrArg List.length (splitRun_append m tag rest)
          simp only [List.length_append] at hRun
          simp [take, remaining, hTag, hRest]
          omega

/-- Reading a lexeme brings the end of the source nearer. -/
theorem step_remaining_lt {m : Markup} {s next : Lexer} {x : Lexeme}
    (hStep : step m s = some (x, next)) : next.remaining < s.remaining := by
  unfold step at hStep
  split at hStep
  · simp at hStep
  · next tag hTag hRest =>
    obtain ⟨rfl, rfl⟩ := Prod.mk.inj (Option.some.inj hStep)
    simp [remaining, hTag]
  · next c rest hTag hRest =>
    have := literalStep_remaining_lt m s c rest hTag hRest
    rwa [Option.some.inj hStep] at this
  · next tag c rest hTag hRest =>
    have := tagStep_remaining_lt m s tag c rest hTag hRest
    rwa [Option.some.inj hStep] at this

/-- The lexemes from here to the end of the source. -/
def run (m : Markup) (s : Lexer) : List Lexeme :=
  match _hStep : step m s with
  | none => []
  | some (x, next) => x :: run m next
termination_by s.remaining
decreasing_by exact step_remaining_lt _hStep

/-- The lexemes are the text ahead, cut into pieces. -/
theorem run_text (m : Markup) (s : Lexer) :
    (s.run m).flatMap (fun x => x.text.toList) = s.rest := by
  fun_induction run m s with
  | case1 s hStep =>
    unfold step at hStep
    split at hStep <;> simp_all
  | case2 s x next hStep ih => rw [List.flatMap_cons, ih, step_rest hStep]

end Lexer

/-- The lexemes of a source. -/
def Markup.lexemes (m : Markup) (source : List Char) : List Lexeme :=
  (Lexer.start source).run m

end Bulletin
