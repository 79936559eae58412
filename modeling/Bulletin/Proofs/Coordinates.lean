import Bulletin.Proofs.Lines
import Bulletin.Proofs.Streaming

/-! Lines and columns. The place of a diagnostic is found here by cutting the source at byte
offsets, and every cut has to fit the source; a token is given its place on the way. The two
agree, whatever measures the width of a text. -/
namespace Bulletin

open Text

namespace Text

variable {offset place : Nat} {text left right earlier start stop later : List Char}

theorem isBoundary_byteLength (left right : List Char) :
    isBoundary (byteLength left) (left ++ right) = true := by
  simp [isBoundary]

/-- The places between characters are the lengths of the prefixes. -/
theorem isBoundary_iff : isBoundary place text = true ↔
    ∃ left right, text = left ++ right ∧ place = byteLength left := by
  constructor
  · intro hPlace
    refine ⟨before place text, after place text, (before_append_after place text).symm, ?_⟩
    exact (beq_iff_eq.mp hPlace).symm
  · rintro ⟨left, right, rfl, rfl⟩
    exact isBoundary_byteLength left right

/-- Of two beginnings of a text the one of fewer bytes begins the other. -/
theorem isPrefix_of_byteLength_le {whole : List Char} (hLeft : left <+: text)
    (hWhole : whole <+: text) (hLength : byteLength left ≤ byteLength whole) : left <+: whole := by
  rcases List.prefix_or_prefix_of_prefix hLeft hWhole with hPrefix | hPrefix
  · exact hPrefix
  · rw [eq_of_isPrefix_of_byteLength hPrefix hLength]

/-- A place behind the first part of a text cuts the second part. -/
theorem exists_middle (hPlace : isBoundary place (left ++ right) = true)
    (hOrder : byteLength left ≤ place) :
    ∃ middle rest, right = middle ++ rest ∧ place = byteLength left + byteLength middle := by
  obtain ⟨whole, rest, hWhole, rfl⟩ := isBoundary_iff.mp hPlace
  obtain ⟨middle, rfl⟩ := isPrefix_of_byteLength_le ⟨right, rfl⟩ ⟨rest, hWhole.symm⟩ hOrder
  rw [List.append_assoc] at hWhole
  exact ⟨middle, rest, List.append_cancel_left hWhole, byteLength_append ..⟩

/-- The last place between characters that is not behind the offset. -/
structure IsFloor (text : List Char) (offset place : Nat) : Prop where
  boundary : isBoundary place text = true
  le : place ≤ offset
  greatest : ∀ other, isBoundary other text = true → other ≤ offset → other ≤ place

theorem IsFloor.unique {place' : Nat} (hFloor : IsFloor text offset place)
    (hFloor' : IsFloor text offset place') : place = place' :=
  Nat.le_antisymm (hFloor'.greatest place hFloor.boundary hFloor.le)
    (hFloor.greatest place' hFloor'.boundary hFloor'.le)

theorem byteLength_before_le_byteLength (offset : Nat) (text : List Char) :
    byteLength (before offset text) ≤ byteLength text := by
  have hSplit := congrArg byteLength (before_append_after offset text)
  rw [byteLength_append] at hSplit
  omega

theorem isFloor_before (offset : Nat) (text : List Char) :
    IsFloor text (min offset (byteLength text)) (byteLength (before offset text)) where
  boundary := isBoundary_iff.mpr ⟨_, _, (before_append_after offset text).symm, rfl⟩
  le := Nat.le_min.mpr
    ⟨byteLength_before_le offset text, byteLength_before_le_byteLength offset text⟩
  greatest other hOther hLe := by
    obtain ⟨left, right, rfl, rfl⟩ := isBoundary_iff.mp hOther
    obtain ⟨k, rfl⟩ := Nat.exists_eq_add_of_le (hLe.trans (Nat.min_le_left ..))
    rw [before_byteLength_add, byteLength_append]
    exact Nat.le_add_right ..

/-- Goes down from the offset to a place between characters. -/
def floorFrom (text : List Char) : Nat → Nat
  | 0 => 0
  | offset + 1 => if isBoundary (offset + 1) text then offset + 1 else floorFrom text offset

/-- The place to which an offset is moved if it leaves the text or falls inside a
character. -/
def floor (text : List Char) (offset : Nat) : Nat :=
  if byteLength text ≤ offset then byteLength text else floorFrom text offset

theorem isFloor_floorFrom (text : List Char) (offset : Nat) :
    IsFloor text offset (floorFrom text offset) := by
  induction offset with
  | zero => exact ⟨isBoundary_byteLength [] text, Nat.le_refl 0, fun _ _ hOther => hOther⟩
  | succ offset ih =>
      rw [floorFrom]
      split
      · next hHere => exact ⟨hHere, Nat.le_refl _, fun _ _ hOther => hOther⟩
      · next hInside =>
          refine ⟨ih.boundary, ih.le.trans (Nat.le_succ offset), fun other hOther hLe => ?_⟩
          refine ih.greatest other hOther (Nat.le_of_lt_succ (Nat.lt_of_le_of_ne hLe ?_))
          rintro rfl
          exact hInside hOther

theorem floor_eq (text : List Char) (offset : Nat) :
    floor text offset = byteLength (before offset text) := by
  have hBefore := isFloor_before offset text
  unfold floor
  split
  · next hPast =>
      rw [Nat.min_eq_right hPast] at hBefore
      refine IsFloor.unique ⟨?_, Nat.le_refl _, fun _ _ hOther => hOther⟩ hBefore
      simpa using isBoundary_byteLength text []
  · next hInside =>
      rw [Nat.min_eq_left (Nat.le_of_not_le hInside)] at hBefore
      exact (isFloor_floorFrom text offset).unique hBefore

/-- The offset of the last line break of a text that stands at the given offset. -/
def lastBreak? : Nat → List Char → Option Nat
  | _, [] => none
  | offset, c :: rest =>
    (lastBreak? (offset + c.utf8Size) rest).or (if c = '\n' then some offset else none)

theorem lastBreak?_of_not_mem (hText : '\n' ∉ text) : lastBreak? offset text = none := by
  induction text generalizing offset with
  | nil => rfl
  | cons c rest ih =>
      rw [List.mem_cons, not_or] at hText
      rw [lastBreak?, ih hText.2, if_neg (Ne.symm hText.1), Option.none_or]

theorem lastBreak?_append (text rest : List Char) :
    lastBreak? offset (text ++ rest) =
      (lastBreak? (offset + byteLength text) rest).or (lastBreak? offset text) := by
  induction text generalizing offset with
  | nil => simp [lastBreak?]
  | cons c text ih =>
      rw [List.cons_append, lastBreak?, ih, lastBreak?, Option.or_assoc, byteLength_cons,
        Nat.add_assoc]

theorem lastBreak?_append_break (hStart : '\n' ∉ start) :
    lastBreak? offset (text ++ '\n' :: start) = some (offset + byteLength text) := by
  rw [lastBreak?_append, lastBreak?, lastBreak?_of_not_mem hStart, Option.none_or, if_pos rfl,
    Option.some_or]

/-- The line of a source at a place: `earlier` are the lines before it, `start` is what
stands on it before the place, and `stop` what stands on it behind. -/
structure IsLineAt (source : List Char) (place : Nat) (earlier start stop later : List Char) :
    Prop where
  source_eq : source = (earlier ++ start) ++ (stop ++ later)
  place_eq : place = byteLength (earlier ++ start)
  begins : earlier = [] ∨ ∃ text, earlier = text ++ ['\n']
  unbroken : '\n' ∉ start ++ stop
  ends : later = [] ∨ ∃ text, later = '\n' :: text

theorem not_mem_lastLine (text : List Char) : '\n' ∉ Place.lastLine text := by
  intro hBreak
  rw [Place.lastLine, List.mem_reverse] at hBreak
  simpa using List.mem_takeWhile_imp hBreak

theorem not_mem_firstLine (text : List Char) : '\n' ∉ Place.firstLine text := by
  intro hBreak
  simpa using List.mem_takeWhile_imp hBreak

theorem exists_append_lastLine (text : List Char) :
    ∃ earlier, text = earlier ++ Place.lastLine text ∧
      (earlier = [] ∨ ∃ text, earlier = text ++ ['\n']) := by
  refine ⟨(text.reverse.dropWhile (· != '\n')).reverse, ?_, ?_⟩
  · rw [Place.lastLine, ← List.reverse_append, List.takeWhile_append_dropWhile,
      List.reverse_reverse]
  · have hHead := List.head?_dropWhile_not (· != '\n') text.reverse
    cases hDrop : text.reverse.dropWhile (· != '\n') with
    | nil => exact Or.inl rfl
    | cons c rest =>
        rw [hDrop] at hHead
        obtain rfl : c = '\n' := by simpa using hHead
        exact Or.inr ⟨rest.reverse, List.reverse_cons⟩

theorem exists_firstLine_append (text : List Char) :
    ∃ later, text = Place.firstLine text ++ later ∧
      (later = [] ∨ ∃ text, later = '\n' :: text) := by
  refine ⟨text.dropWhile (· != '\n'), List.takeWhile_append_dropWhile.symm, ?_⟩
  have hHead := List.head?_dropWhile_not (· != '\n') text
  cases hDrop : text.dropWhile (· != '\n') with
  | nil => exact Or.inl rfl
  | cons c rest =>
      rw [hDrop] at hHead
      obtain rfl : c = '\n' := by simpa using hHead
      exact Or.inr ⟨rest, rfl⟩

theorem exists_isLineAt (left right : List Char) :
    ∃ earlier later, left = earlier ++ Place.lastLine left ∧
      IsLineAt (left ++ right) (byteLength left) earlier (Place.lastLine left)
        (Place.firstLine right) later := by
  obtain ⟨earlier, hLeft, hBegins⟩ := exists_append_lastLine left
  obtain ⟨later, hRight, hEnds⟩ := exists_firstLine_append right
  refine ⟨earlier, later, hLeft, ?_, by rw [← hLeft], hBegins, ?_, hEnds⟩
  · rw [← hLeft, ← hRight]
  · rw [List.mem_append, not_or]
    exact ⟨not_mem_lastLine left, not_mem_firstLine right⟩

/-- Both ends of a line are found from its line breaks. -/
theorem IsLineAt.lastBreak? {source : List Char}
    (hLine : IsLineAt source place earlier start stop later) :
    (Text.lastBreak? 0 (earlier ++ start)).elim 0 (· + 1) = byteLength earlier := by
  have hStart : '\n' ∉ start := fun hBreak => hLine.unbroken (List.mem_append_left _ hBreak)
  have hBreak : '\n'.utf8Size = 1 := by decide
  rcases hLine.begins with rfl | ⟨text, rfl⟩
  · rw [List.nil_append, lastBreak?_of_not_mem hStart]
    rfl
  · rw [List.append_assoc, List.singleton_append, lastBreak?_append_break hStart]
    simp [hBreak]

theorem occurrence?_break (hStop : '\n' ∉ stop)
    (hEnds : later = [] ∨ ∃ text, later = '\n' :: text) :
    occurrence? ['\n'] offset (stop ++ later) =
      if later = [] then none else some (offset + byteLength stop) := by
  induction stop generalizing offset with
  | nil => rcases hEnds with rfl | ⟨text, rfl⟩ <;> simp [occurrence?, stripped?]
  | cons c stop ih =>
      rw [List.mem_cons, not_or] at hStop
      have hNotHere : (stripped? ['\n'] (c :: (stop ++ later))).isSome = false := by
        simp [stripped?, hStop.1]
      rw [List.cons_append, occurrence?, hNotHere, if_neg Bool.false_ne_true, ih hStop.2,
        byteLength_cons, Nat.add_assoc]

theorem IsLineAt.occurrence? {source : List Char}
    (hLine : IsLineAt source place earlier start stop later) :
    (Bulletin.occurrence? ['\n'] 0 (stop ++ later)).elim (byteLength source) (place + ·) =
      byteLength (earlier ++ (start ++ stop)) := by
  have hStop : '\n' ∉ stop := fun hBreak => hLine.unbroken (List.mem_append_right _ hBreak)
  rw [occurrence?_break hStop hLine.ends, hLine.source_eq, hLine.place_eq]
  split
  · next hNil => simp [hNil]
  · simp [Nat.add_assoc]

end Text

namespace Place

variable {width : List Char → Nat} {source left right : List Char} {span : Span}

/-- The number of carets below the text of a span, where `width` measures texts. -/
def caretsBy (width : List Char → Nat) (source : List Char) (span : Span) : Nat :=
  match slice? span source with
  | some text => max 1 (width (firstLine text))
  | none => 1

/-- The place of a span in a source, where `width` measures texts, found by cutting the
source at byte offsets. There is none if a cut leaves the source or falls inside a
character. -/
def cut? (width : List Char → Nat) (source : List Char) (span : Span) : Option Place := do
  let offset := floor source span.start
  let left ← slice? ⟨0, offset⟩ source
  let right ← slice? ⟨offset, byteLength source⟩ source
  let lineStart := (lastBreak? 0 left).elim 0 (· + 1)
  let lineStop := (occurrence? ['\n'] 0 right).elim (byteLength source) (offset + ·)
  let column := width (← slice? ⟨lineStart, offset⟩ source)
  let line := withoutReturns (← slice? ⟨lineStart, lineStop⟩ source)
  let underline := List.replicate column ' ' ++ List.replicate (caretsBy width source span) '^'
  return inSource span.start (left.count '\n' + 1) column
    (String.ofList (line ++ '\n' :: underline))

theorem one_le_caretsBy (width : List Char → Nat) (source : List Char) (span : Span) :
    1 ≤ caretsBy width source span := by
  unfold caretsBy
  split
  · exact Nat.le_max_left 1 _
  · exact Nat.le_refl 1

theorem cut?_of_isLineAt {earlier start stop later : List Char}
    (hFloor : floor source span.start = byteLength (earlier ++ start))
    (hLine : IsLineAt source (byteLength (earlier ++ start)) earlier start stop later) :
    cut? width source span = some (inSource span.start ((earlier ++ start).count '\n' + 1)
      (width start) (String.ofList (withoutReturns (start ++ stop) ++ '\n' ::
        (List.replicate (width start) ' ' ++
          List.replicate (caretsBy width source span) '^')))) := by
  have hLeft : slice? ⟨0, byteLength (earlier ++ start)⟩ source = some (earlier ++ start) := by
    have hSlice := slice?_append [] (earlier ++ start) (stop ++ later)
    rwa [byteLength_nil, Nat.zero_add, List.nil_append, ← hLine.source_eq] at hSlice
  have hRight : slice? ⟨byteLength (earlier ++ start), byteLength source⟩ source =
      some (stop ++ later) := by
    have hSlice := slice?_append (earlier ++ start) (stop ++ later) []
    rwa [← byteLength_append, List.append_nil, ← hLine.source_eq] at hSlice
  have hColumn : slice? ⟨byteLength earlier, byteLength (earlier ++ start)⟩ source =
      some start := by
    have hSlice := slice?_append earlier start (stop ++ later)
    rwa [← byteLength_append, ← List.append_assoc, ← hLine.source_eq] at hSlice
  have hExcerpt : slice? ⟨byteLength earlier, byteLength (earlier ++ (start ++ stop))⟩ source =
      some (start ++ stop) := by
    have hSlice := slice?_append earlier (start ++ stop) later
    have hSource : source = earlier ++ ((start ++ stop) ++ later) := by
      rw [hLine.source_eq]
      simp only [List.append_assoc]
    rwa [← byteLength_append, ← hSource] at hSlice
  simp only [cut?, hFloor, hLeft, hRight, Option.bind_eq_bind, Option.bind_some,
    hLine.lastBreak?, hLine.occurrence?, hColumn, hExcerpt]
  rfl

/-- Every cut fits. Measured in columns, the place is the one that diagnostics have. -/
theorem cut?_columns (source : List Char) (span : Span) :
    cut? columns source span = some (ofSpan source span) := by
  obtain ⟨earlier, later, hLeft, hLine⟩ :=
    exists_isLineAt (before span.start source) (after span.start source)
  rw [before_append_after] at hLine
  have hPlace := hLine.place_eq
  rw [hPlace] at hLine
  rw [cut?_of_isLineAt ((floor_eq source span.start).trans hPlace) hLine, ← hLeft]
  rfl

/-- A line is the text that an excerpt shows of it and the carriage returns that end
it. -/
theorem exists_returns (line : List Char) :
    ∃ returns, line = withoutReturns line ++ returns ∧ (∀ c ∈ returns, c = '\r') ∧
      (withoutReturns line).getLast? ≠ some '\r' := by
  refine ⟨(line.reverse.takeWhile (· == '\r')).reverse, ?_, ?_, ?_⟩
  · rw [withoutReturns, ← List.reverse_append, List.takeWhile_append_dropWhile,
      List.reverse_reverse]
  · intro c hc
    rw [List.mem_reverse] at hc
    simpa using List.mem_takeWhile_imp hc
  · intro hLast
    have hHead := List.head?_dropWhile_not (· == '\r') line.reverse
    rw [withoutReturns, List.getLast?_reverse] at hLast
    simp [hLast] at hHead

/-- The place that an offset has in a source. The offset itself is kept. The line and the
column are those of the last place between characters that is not behind it, and the
excerpt is that line without the carriage returns at its end, with spaces up to the column
and some carets below. -/
inductive Points (width : List Char → Nat) (source : List Char) (offset : Nat) : Place → Prop
  | mk {place carets : Nat} {earlier start stop later shown returns : List Char}
      (hFloor : IsFloor source (min offset (byteLength source)) place)
      (hLine : IsLineAt source place earlier start stop later)
      (hShown : start ++ stop = shown ++ returns) (hReturns : ∀ c ∈ returns, c = '\r')
      (hEnd : shown.getLast? ≠ some '\r') (hCarets : 1 ≤ carets) :
      Points width source offset (inSource offset ((earlier ++ start).count '\n' + 1)
        (width start) (String.ofList (shown ++ '\n' ::
          (List.replicate (width start) ' ' ++ List.replicate carets '^'))))

/-- All cuts fit the source, wherever the span is. -/
theorem exists_cut? (width : List Char → Nat) (source : List Char) (span : Span) :
    ∃ place, cut? width source span = some place ∧ place.Points width source span.start := by
  obtain ⟨earlier, later, hLeft, hLine⟩ :=
    exists_isLineAt (before span.start source) (after span.start source)
  rw [before_append_after] at hLine
  obtain ⟨returns, hShown, hReturns, hEnd⟩ :=
    exists_returns (lastLine (before span.start source) ++ firstLine (after span.start source))
  refine ⟨_, cut?_of_isLineAt ((floor_eq source span.start).trans hLine.place_eq)
    (hLine.place_eq ▸ hLine), ?_⟩
  exact .mk (isFloor_before span.start source) hLine hShown hReturns hEnd
    (one_le_caretsBy width source span)

/-- Where the start of a span is the length of a text that begins the source, that text
alone decides about the line and the column. -/
theorem cut?_of_append (hSource : source = left ++ right)
    (hStart : span.start = byteLength left) :
    ∃ place, cut? width source span = some place ∧ place.line = lineAfter left ∧
      place.column = width (lastLine left) := by
  obtain ⟨earlier, later, hLeft, hLine⟩ := exists_isLineAt left right
  rw [← hSource] at hLine
  have hFloor : floor source span.start = byteLength (earlier ++ lastLine left) := by
    rw [floor_eq, hStart, hSource, before_byteLength, ← hLeft]
  refine ⟨_, cut?_of_isLineAt hFloor (hLine.place_eq ▸ hLine), ?_, rfl⟩
  rw [← hLeft]
  rfl

end Place

namespace Position

theorem advance_append (p : Position) (left right : List Char) :
    p.advance (left ++ right) = (p.advance left).advance right :=
  List.foldl_append

/-- The position behind a text holds the number of line breaks in it and what follows the
last of them. -/
theorem advance_start (left : List Char) :
    Position.start.advance left = ⟨Place.lineAfter left, (Place.lastLine left).reverse⟩ := by
  induction left using List.reverseRecOn with
  | nil => rfl
  | append_singleton left c ih =>
      rw [advance_append, ih]
      by_cases hBreak : c = '\n'
      · subst hBreak
        simp [advance, Place.lineAfter, Place.lastLine]
      · simp [advance, Place.lineAfter, Place.lastLine, hBreak]

end Position

/-- A place that a reader has come to: its offset, the number of its line, and the offset
where that line begins. -/
structure Bookmark where
  offset : Nat
  line : Nat
  lineStart : Nat

namespace Bookmark

def start : Bookmark where
  offset := 0
  line := 1
  lineStart := 0

/-- Goes on to an offset and counts the line breaks that it passes. If the offset lies
behind it begins anew. There is no such place if a cut does not fit the source. -/
def seek? (source : List Char) (b : Bookmark) (offset : Nat) : Option Bookmark := do
  let b := if offset < b.offset then start else b
  let passed ← slice? ⟨b.offset, offset⟩ source
  return ⟨offset, b.line + passed.count '\n',
    (lastBreak? b.offset passed).elim b.lineStart (· + 1)⟩

/-- The place behind a text that begins the source. -/
def behind (left : List Char) : Bookmark where
  offset := byteLength left
  line := Place.lineAfter left
  lineStart := (lastBreak? 0 left).elim 0 (· + 1)

theorem seek?_behind (left passed right : List Char) :
    (behind left).seek? (left ++ (passed ++ right)) (byteLength (left ++ passed)) =
      some (behind (left ++ passed)) := by
  have hAhead : ¬ byteLength (left ++ passed) < (behind left).offset := by
    rw [byteLength_append]
    exact Nat.not_lt.mpr (Nat.le_add_right ..)
  have hSlice : slice? ⟨(behind left).offset, byteLength (left ++ passed)⟩
      (left ++ (passed ++ right)) = some passed := by
    rw [byteLength_append]
    exact slice?_append left passed right
  simp only [seek?, if_neg hAhead, hSlice, Option.bind_eq_bind, Option.bind_some]
  simp only [behind, Control.lineAfter_append, lastBreak?_append, Nat.zero_add]
  cases lastBreak? (byteLength left) passed <;> rfl

theorem slice?_behind (left right : List Char) :
    slice? ⟨(behind left).lineStart, (behind left).offset⟩ (left ++ right) =
      some (Place.lastLine left) := by
  obtain ⟨earlier, later, hLeft, hLine⟩ := exists_isLineAt left right
  have hStart : (behind left).lineStart = byteLength earlier := by
    have hBreak := hLine.lastBreak?
    rwa [← hLeft] at hBreak
  have hSlice := slice?_append earlier (Place.lastLine left) right
  rwa [← byteLength_append, ← List.append_assoc, ← hLeft, ← hStart] at hSlice

end Bookmark

namespace Token

variable {width : List Char → Nat} {left : List Char} {xs : List Lexeme} {t : Token}

/-- Gives successive lexemes their lines and columns, where `width` measures texts. -/
def locateBy (width : List Char → Nat) (p : Position) : List Lexeme → List Token
  | [] => []
  | x :: rest =>
    ⟨x, p.line, width p.lineText.reverse⟩ :: locateBy width (p.advance x.text.toList) rest

theorem locateBy_columns (p : Position) (xs : List Lexeme) :
    locateBy columns p xs = locate p xs := by
  induction xs generalizing p with
  | nil => rfl
  | cons x xs ih => rw [locateBy, locate, ih]; rfl

/-- Gives successive lexemes of a source their lines and columns, where `width` measures
texts, by going on from one to the next. There are none if a cut does not fit. -/
def followBy? (width : List Char → Nat) (source : List Char) (b : Bookmark) :
    List Lexeme → Option (List Token)
  | [] => some []
  | x :: rest => do
    let b ← b.seek? source x.span.start
    let lineText ← slice? ⟨b.lineStart, b.offset⟩ source
    let others ← followBy? width source b rest
    return ⟨x, b.line, width lineText⟩ :: others

/-- The cuts fit where the lexemes stand one behind the other. The bookmark may lie before
the first of them. -/
theorem followBy?_behind {passed : List Char}
    (hRow : Lexeme.Row (byteLength (left ++ passed)) xs) :
    followBy? width (left ++ (passed ++ Lexeme.textOf xs)) (.behind left) xs =
      some (locateBy width (Position.start.advance (left ++ passed)) xs) := by
  induction xs generalizing left passed with
  | nil => rfl
  | cons x xs ih =>
      obtain ⟨hSpan, hRest⟩ := hRow
      rw [← byteLength_append] at hRest
      have hSeek := Bookmark.seek?_behind left passed (Lexeme.textOf (x :: xs))
      have hLine := Bookmark.slice?_behind (left ++ passed) (Lexeme.textOf (x :: xs))
      have hMore := ih hRest
      rw [List.append_assoc] at hLine hMore
      rw [Lexeme.textOf_cons] at hSeek hLine ⊢
      rw [followBy?, hSpan]
      simp only [hSeek, hLine, hMore, Option.bind_eq_bind, Option.bind_some]
      have hPosition := Position.advance_start (left ++ passed)
      rw [locateBy, ← Position.advance_append, hPosition, List.reverse_reverse]
      rfl

/-- The line and the column that a token carries are those of the text before it. -/
theorem exists_left_of_mem_locateBy (hRow : Lexeme.Row (byteLength left) xs)
    (ht : t ∈ locateBy width (Position.start.advance left) xs) :
    ∃ left' right, left ++ Lexeme.textOf xs = left' ++ right ∧
      t.span.start = byteLength left' ∧ t.line = Place.lineAfter left' ∧
      t.column = width (Place.lastLine left') := by
  induction xs generalizing left with
  | nil => cases ht
  | cons x xs ih =>
      obtain ⟨hSpan, hRest⟩ := hRow
      rw [locateBy, List.mem_cons] at ht
      rcases ht with rfl | ht
      · refine ⟨left, Lexeme.textOf (x :: xs), rfl, ?_, ?_, ?_⟩
        · exact congrArg Span.start hSpan
        · rw [Position.advance_start]
        · rw [Position.advance_start, List.reverse_reverse]
      · rw [← Position.advance_append] at ht
        rw [← byteLength_append] at hRest
        obtain ⟨left', right, hSource, hToken⟩ := ih hRest ht
        refine ⟨left', right, ?_, hToken⟩
        rw [← hSource, Lexeme.textOf_cons, List.append_assoc]

end Token

namespace TokenStream

variable {s onward : TokenStream} {log log' : Log} {result : Except Error (Option Token)}

/-- The token that a call hands out, if it hands one out. -/
def handed : Except Error (Option Token) → List Token
  | .ok (some t) => [t]
  | _ => []

/-- The stream hands out these tokens in successive calls of either kind, with any logs.
Some of the calls may fail or come too late. -/
inductive Yields : TokenStream → List Token → Prop where
  | nothing (s : TokenStream) : Yields s []
  | next {s onward : TokenStream} {log log' : Log} {result : Except Error (Option Token)}
      {ts : List Token} (hNext : s.next log = (result, onward, log'))
      (hMore : Yields onward ts) : Yields s (handed result ++ ts)
  | nextVisible {s onward : TokenStream} {log log' : Log}
      {result : Except Error (Option Token)} {ts : List Token}
      (hNext : s.nextVisible log = (result, onward, log')) (hMore : Yields onward ts) :
      Yields s (handed result ++ ts)

theorem handed_next_sublist (hNext : s.next log = (result, onward, log')) :
    (handed result ++ onward.ahead).Sublist s.ahead := by
  cases hStep : s.lexer.step s.engine.markup with
  | none =>
      rw [next_of_none hStep] at hNext
      cases hNext
      exact List.Sublist.refl _
  | some result =>
      obtain ⟨x, lexer⟩ := result
      rw [next_eq hStep] at hNext
      rw [ahead_of_some hStep]
      split at hNext
      · cases hNext
        exact List.Sublist.refl _
      · cases hNext
        rw [ahead_of_none (s := s.exhausted) rfl]
        exact List.nil_sublist _

theorem handed_nextVisible_sublist (hNext : s.nextVisible log = (result, onward, log')) :
    (handed result ++ onward.ahead).Sublist s.ahead := by
  fun_induction TokenStream.nextVisible s log with
  | case1 s log t middle log'' hFirst hGap ih =>
      have hSkipped : ([t] ++ middle.ahead).Sublist s.ahead := handed_next_sublist hFirst
      exact (ih hNext).trans ((List.sublist_append_right [t] _).trans hSkipped)
  | case2 s log t middle log'' hFirst hVisible =>
      cases hNext
      exact handed_next_sublist hFirst
  | case3 s log hLast => exact handed_next_sublist hNext

/-- Tokens that are handed out come from the stream in their order. -/
theorem Yields.sublist {ts : List Token} (hYields : s.Yields ts) : ts.Sublist s.ahead := by
  induction hYields with
  | nothing s => exact List.nil_sublist _
  | next hNext _ ih => exact (ih.append_left _).trans (handed_next_sublist hNext)
  | nextVisible hNext _ ih => exact (ih.append_left _).trans (handed_nextVisible_sublist hNext)

end TokenStream

namespace Engine

/-- Tokens and diagnostics report the same lines and columns, whatever measures the width
of a text. To find the place of a span the source is cut at byte offsets, and all cuts fit
it, although the offsets of the span may leave the source, may be reversed and may fall
inside a character. What is found is the place that the start of the span points to;
measured in columns it is the place of every diagnostic about the span. A token is given
its line and column as the reader comes to it. A bookmark that moves from token to token
gives the same ones, and all its cuts fit too. They are those of a diagnostic at the start
of the token, also for a token that a stream hands out in either mode and in calls of
either kind. -/
theorem coordinates_agree (g : Engine) (source : List Char) :
    (∀ width span, ∃ place, Place.cut? width source span = some place ∧
      place.Points width source span.start) ∧
    (∀ document c, Place.cut? columns source c.span =
      some (Diagnostic.ofComplaint document source c).place) ∧
    g.tokens source = Token.locateBy columns .start (g.markup.lexemes source) ∧
    (∀ width, Token.followBy? width source .start (g.markup.lexemes source) =
      some (Token.locateBy width .start (g.markup.lexemes source))) ∧
    (∀ width, ∀ t ∈ Token.locateBy width .start (g.markup.lexemes source),
      ∀ stop, ∃ place, Place.cut? width source ⟨t.span.start, stop⟩ = some place ∧
        t.line = place.line ∧ t.column = place.column) ∧
    ∀ ts, (g.stream source).Yields ts → ts.Sublist (g.tokens source) ∧
      ∀ t ∈ ts, ∀ document c, c.span.start = t.span.start →
        t.line = (Diagnostic.ofComplaint document source c).place.line ∧
          t.column = (Diagnostic.ofComplaint document source c).place.column := by
  have hRow : Lexeme.Row (byteLength []) (g.markup.lexemes source) :=
    Lexer.run_row (Lexer.valid_start g.markup source)
  have hText : Lexeme.textOf (g.markup.lexemes source) = source :=
    Lexer.run_text g.markup (.start source)
  have hTokens : g.tokens source = Token.locateBy columns .start (g.markup.lexemes source) :=
    (Token.locateBy_columns .start _).symm
  have hPlace (width : List Char → Nat) {t : Token} {span : Span}
      (ht : t ∈ Token.locateBy width .start (g.markup.lexemes source))
      (hStart : span.start = t.span.start) :
      ∃ place, Place.cut? width source span = some place ∧ t.line = place.line ∧
        t.column = place.column := by
    obtain ⟨left, right, hSource, hToken, hLine, hColumn⟩ :=
      Token.exists_left_of_mem_locateBy hRow ht
    rw [List.nil_append, hText] at hSource
    obtain ⟨place, hCut, hPlaceLine, hPlaceColumn⟩ :=
      Place.cut?_of_append hSource (hStart.trans hToken)
    exact ⟨place, hCut, hLine.trans hPlaceLine.symm, hColumn.trans hPlaceColumn.symm⟩
  have hFollow (width : List Char → Nat) :
      Token.followBy? width source .start (g.markup.lexemes source) =
        some (Token.locateBy width .start (g.markup.lexemes source)) := by
    have hBehind : Token.followBy? width ([] ++ ([] ++ Lexeme.textOf (g.markup.lexemes source)))
        (.behind []) (g.markup.lexemes source) = _ := Token.followBy?_behind hRow
    rwa [hText] at hBehind
  refine ⟨fun width span => Place.exists_cut? width source span,
    fun document c => Place.cut?_columns source c.span, hTokens, hFollow,
    fun width t ht stop => hPlace width ht rfl, fun ts hYields => ?_⟩
  have hSublist : ts.Sublist (g.tokens source) := hYields.sublist
  refine ⟨hSublist, fun t ht document c hStart => ?_⟩
  obtain ⟨place, hCut, hAgree⟩ := hPlace columns (hTokens ▸ hSublist.subset ht) hStart
  rw [Place.cut?_columns] at hCut
  obtain rfl := Option.some.inj hCut
  exact hAgree

end Engine

end Bulletin
