import Bulletin.Proofs.Coordinates

/-! Carets against the line above them. Carets stand for the text of a span up to its first
line break. An excerpt shows its line without the carriage returns at the end of it, so
that a span which covers them has carets behind the end of what is shown. -/
namespace Bulletin

open Text

namespace Text

/-- Two sets whose ranges keep apart have no character in common. -/
theorem CharSet.contains_eq_false_of_apart {s t : CharSet}
    (hApart : ∀ r ∈ s.ranges, ∀ q ∈ t.ranges, r.2 < q.1 ∨ q.2 < r.1) {c : Char}
    (hc : s.contains c = true) : t.contains c = false := by
  obtain ⟨r, hr, hFirst, hLast⟩ := (s.contains_iff c).mp hc
  rw [Bool.eq_false_iff]
  intro hOther
  obtain ⟨q, hq, hFirst', hLast'⟩ := (t.contains_iff c).mp hOther
  rcases hApart r hr q hq with hBefore | hBehind <;> omega

namespace Columns

/-- The columns that the character on the left may take back when it combines with this
one. They were counted before. -/
def Neighbour.credit : Neighbour → Int
  | khmerBase | tifinaghJoiner | joinedFlagHalf | joinedFlagsAndHalf => 1
  | _ => 0

theorem Neighbour.credit_nonneg (n : Neighbour) : 0 ≤ n.credit := by
  unfold credit
  split <;> decide

theorem Neighbour.credit_le_one (n : Neighbour) : n.credit ≤ 1 := by
  unfold credit
  split <;> decide

theorem one_le_ofChar_of_khmerStacked {c : Char} (hc : khmerStacked.contains c = true) :
    1 ≤ ofChar c := by
  have hWidth : zeroWidth.contains c = false :=
    CharSet.contains_eq_false_of_apart (by decide +kernel) hc
  fun_cases ofChar c with
  | case3 _ _ hZero => exact absurd hZero (Bool.eq_false_iff.mp hWidth)
  | _ => decide

theorem credit_offer (c : Char) : (offer c).next.credit ≤ ofChar c := by
  cases hKhmer : khmerStacked.contains c with
  | true =>
      have hWidth := one_le_ofChar_of_khmerStacked hKhmer
      have := (offer c).next.credit_le_one
      omega
  | false =>
      have hNone : (offer c).next.credit = 0 := by
        fun_cases offer c with
        | case11 _ _ _ _ _ _ _ _ _ _ _ hHere => exact absurd hHere (Bool.eq_false_iff.mp hKhmer)
        | _ => rfl
      rw [hNone]
      exact Int.natCast_nonneg _

theorem credit_combine? {c : Char} {k k' : Context} {more : Int}
    (hCombine : combine? c k = some (more, k')) : k'.next.credit ≤ k.next.credit + more := by
  revert hCombine
  fun_cases combine? c k
  all_goals
    intro hCombine
    cases hCombine
  all_goals simp [*, Neighbour.credit, Context.of, Context.start]

theorem credit_measureSettled (c : Char) (k : Context) :
    (measureSettled c k).2.next.credit ≤ k.next.credit + (measureSettled c k).1 := by
  fun_cases measureSettled c k with
  | case1 => simp
  | case2 => simp
  | case3 =>
      cases hCombine : combine? c k with
      | some found => exact credit_combine? hCombine
      | none =>
          have := credit_offer c
          have := k.next.credit_nonneg
          simp only [Option.getD_none]
          omega

@[simp]
theorem credit_start : Context.start.next.credit = 0 := rfl

theorem credit_selectEmoji_le (k : Context) : k.selectEmoji.next.credit ≤ k.next.credit := by
  fun_cases Context.selectEmoji k with
  | case1 => exact Int.le_refl _
  | case2 => exact k.next.credit_nonneg

theorem credit_selectText_le (k : Context) : k.selectText.next.credit ≤ k.next.credit := by
  fun_cases Context.selectText k with
  | case1 => exact Int.le_refl _
  | case2 => exact k.next.credit_nonneg

theorem credit_dropEmoji_le (k : Context) : k.dropEmoji.next.credit ≤ k.next.credit := by
  fun_cases Context.dropEmoji k with
  | case1 => exact Int.le_refl _
  | case2 => exact k.next.credit_nonneg

theorem credit_measureWide (c : Char) (k : Context) :
    (measureWide c k).2.next.credit ≤ k.next.credit + (measureWide c k).1 := by
  fun_cases measureWide c k with
  | case1 => simpa using credit_selectEmoji_le k
  | case2 => simpa using credit_selectText_le k
  | case3 =>
      have := k.next.credit_nonneg
      rw [credit_start]
      omega
  | case4 => exact credit_measureSettled c { k with textStyle := false }

theorem credit_measure (c : Char) (k : Context) :
    (measure c k).2.next.credit ≤ k.next.credit + (measure c k).1 := by
  have hNonneg := k.next.credit_nonneg
  unfold measure
  split
  · have hEmoji : (Context.of .emoji).next.credit = 0 := rfl
    rw [hEmoji]
    split <;> omega
  · have hDropped : (if k.emojiStyle then k.dropEmoji else k).next.credit ≤ k.next.credit := by
      split
      · exact credit_dropEmoji_le k
      · exact Int.le_refl _
    generalize (if k.emojiStyle then k.dropEmoji else k) = dropped at hDropped ⊢
    simp only
    split
    · have hBreak : (Context.of .lineFeed).next.credit = 0 := rfl
      split
      · rw [hBreak]
        omega
      · split <;> rw [credit_start] <;> omega
    · have := credit_measureWide c dropped
      omega

/-- The columns of a text are never taken back below its beginning. -/
theorem credit_scan_le (text : List Char) : (scan text).2.next.credit ≤ (scan text).1 := by
  induction text with
  | nil => decide
  | cons c text ih =>
      have := credit_measure c (scan text).2
      change (measure c (scan text).2).2.next.credit ≤ (scan text).1 + (measure c (scan text).2).1
      omega

/-- Where the right part combines with nothing, the two parts are measured apart. -/
theorem scan_append_of_start {right : List Char} (hRight : (scan right).2 = .start)
    (left : List Char) :
    scan (left ++ right) = ((scan left).1 + (scan right).1, (scan left).2) := by
  induction left with
  | nil => exact Prod.ext (Int.zero_add _).symm hRight
  | cons c left ih =>
      change ((scan (left ++ right)).1 + (measure c (scan (left ++ right)).2).1,
        (measure c (scan (left ++ right)).2).2) = _
      rw [ih]
      exact Prod.ext (Int.add_right_comm ..) rfl

theorem scan_returns (k : Nat) : scan (List.replicate k '\r') = ((k : Int), .start) := by
  induction k with
  | zero => rfl
  | succ k ih =>
      change ((scan (List.replicate k '\r')).1 + (measure '\r' (scan (List.replicate k '\r')).2).1,
        (measure '\r' (scan (List.replicate k '\r')).2).2) = _
      rw [ih]
      rfl

end Columns

/-- Carriage returns behind a text take a column each. -/
theorem columns_append_returns (text : List Char) (k : Nat) :
    columns (text ++ List.replicate k '\r') = columns text + k := by
  have hReturns := Columns.scan_returns k
  have hText := Columns.credit_scan_le text
  have := (Columns.scan text).2.next.credit_nonneg
  rw [columns, columns, Columns.scan_append_of_start (congrArg Prod.snd hReturns), hReturns]
  simp only
  omega

theorem slice?_eq_some_iff {source text : List Char} {span : Span} :
    slice? span source = some text ↔ Covers source span text := by
  refine ⟨fun hSlice => ?_, Covers.slice?⟩
  obtain ⟨first, last⟩ := span
  by_cases hFits : (first ≤ last && isBoundary first source && isBoundary last source) = true
  · simp only [Bool.and_eq_true, decide_eq_true_eq] at hFits
    obtain ⟨⟨hOrder, hFirst⟩, hLast⟩ := hFits
    obtain ⟨left, rest, rfl, rfl⟩ := isBoundary_iff.mp hFirst
    obtain ⟨middle, right, rfl, rfl⟩ := exists_middle hLast hOrder
    rw [slice?_append] at hSlice
    obtain rfl := Option.some.inj hSlice
    exact ⟨left, right, (List.append_assoc ..).symm, by rw [byteLength_append]⟩
  · rw [slice?, if_neg hFits] at hSlice
    cases hSlice

theorem floor_eq_of_covers {source text : List Char} {span : Span}
    (hCovers : Covers source span text) : floor source span.start = span.start := by
  obtain ⟨left, right, rfl, rfl⟩ := hCovers
  rw [floor_eq, List.append_assoc, before_byteLength]

end Text

/-- A span cut at a place. Nothing is left of it where it begins behind the place. -/
def Span.upTo (s : Span) (place : Nat) : Span where
  start := s.start
  stop := max s.start (min s.stop place)

namespace Place

/-- What an excerpt shows of the line at a place, and where it stands: the line without the
carriage returns that end it. -/
inductive Shows (source : List Char) (place : Nat) : Span → List Char → Prop
  | mk {earlier start stop later shown returns : List Char}
      (hLine : IsLineAt source place earlier start stop later)
      (hShown : start ++ stop = shown ++ returns) (hReturns : ∀ c ∈ returns, c = '\r')
      (hEnd : shown.getLast? ≠ some '\r') :
      Shows source place ⟨byteLength earlier, byteLength (earlier ++ shown)⟩ shown

/-- What a span covers of a line, from `start` on, is a part of what is shown of the line and
some of the carriage returns behind. -/
theorem exists_part {start first stop shown returns : List Char} (hFirst : first <+: stop)
    (hShown : start ++ stop = shown ++ returns) (hReturns : ∀ c ∈ returns, c = '\r') :
    ∃ part k, first = part ++ List.replicate k '\r' ∧ byteLength (start ++ part) =
      max (byteLength start) (min (byteLength (start ++ first)) (byteLength shown)) := by
  have hPrefix : start ++ first <+: shown ++ returns :=
    hShown ▸ (List.prefix_append_right_inj start).mpr hFirst
  rcases List.prefix_or_prefix_of_prefix hPrefix (List.prefix_append shown returns) with
    hInside | ⟨behind, hBehind⟩
  · have := byteLength_le_of_isPrefix hInside
    refine ⟨first, 0, (List.append_nil first).symm, ?_⟩
    rw [byteLength_append] at this ⊢
    omega
  · have hSome : behind <+: returns := by
      rwa [← hBehind, List.prefix_append_right_inj] at hPrefix
    have hAll (c : Char) (hc : c ∈ behind) : c = '\r' := hReturns c (hSome.subset hc)
    rcases List.append_eq_append_iff.mp hBehind with
      ⟨past, hStart, hReach⟩ | ⟨part, hReach, hPart⟩
    -- The span begins among the carriage returns.
    · refine ⟨[], first.length, ?_, ?_⟩
      · exact List.eq_replicate_of_mem fun c hc => hAll c (hReach ▸ List.mem_append_right past hc)
      · rw [hStart]
        simp
    · refine ⟨part, behind.length, ?_, ?_⟩
      · rw [← List.eq_replicate_of_mem hAll]
        exact hPart
      · rw [hReach, hPart]
        simp

theorem exists_shows (source : List Char) (span : Span) :
    ∃ line shown, Shows source (floor source span.start) line shown ∧
      (ofSpan source span).excerpt? = some (String.ofList (shown ++ '\n' ::
        (List.replicate (ofSpan source span).column ' ' ++
          List.replicate (carets source span) '^'))) := by
  obtain ⟨earlier, later, hLeft, hLine⟩ :=
    exists_isLineAt (before span.start source) (after span.start source)
  rw [before_append_after, ← floor_eq] at hLine
  obtain ⟨returns, hShown, hReturns, hEnd⟩ :=
    exists_returns (lastLine (before span.start source) ++ firstLine (after span.start source))
  exact ⟨_, _, .mk hLine hShown hReturns hEnd, rfl⟩

theorem firstLine_append_cases (text right : List Char) :
    firstLine text = text ∧ text <+: firstLine (text ++ right) ∨
      firstLine (text ++ right) = firstLine text := by
  have hAppend : firstLine (text ++ right) =
      if (firstLine text).length = text.length then text ++ firstLine right else firstLine text :=
    List.takeWhile_append
  split at hAppend
  · next hLength =>
      refine Or.inl ⟨(List.takeWhile_prefix _).eq_of_length hLength, ?_⟩
      exact hAppend ▸ List.prefix_append text _
  · exact Or.inr hAppend

theorem firstLine_eq {stop later : List Char} (hStop : '\n' ∉ stop)
    (hEnds : later = [] ∨ ∃ text, later = '\n' :: text) : firstLine (stop ++ later) = stop := by
  have hAll : ∀ c ∈ stop, (c != '\n') = true := by
    intro c hc
    rw [bne_iff_ne]
    rintro rfl
    exact hStop hc
  rw [firstLine, List.takeWhile_append_of_pos hAll]
  rcases hEnds with rfl | ⟨text, rfl⟩ <;> simp

/-- A span that can be sliced covers a part of what is shown of its line, followed by some of
the carriage returns that are not shown. -/
theorem Shows.exists_part {source text shown : List Char} {span line : Span}
    (hCovers : Covers source span text) (hShows : Shows source span.start line shown) :
    ∃ part k, slice? (span.upTo line.stop) source = some part ∧
      firstLine text = part ++ List.replicate k '\r' := by
  obtain ⟨left, right, hSource, rfl⟩ := hCovers
  dsimp only at hShows
  obtain @⟨earlier, start, stop, later, _, returns, hLine, hShown, hReturns, -⟩ := hShows
  obtain rfl : left = earlier ++ start := by
    rw [← before_byteLength left (text ++ right), ← List.append_assoc, ← hSource, hLine.place_eq,
      hLine.source_eq, before_byteLength]
  have hText : text ++ right = stop ++ later := by
    have hBoth := hSource.symm.trans hLine.source_eq
    rw [List.append_assoc] at hBoth
    exact List.append_cancel_left hBoth
  have hStop : firstLine (text ++ right) = stop :=
    hText ▸ firstLine_eq (fun hBreak => hLine.unbroken (List.mem_append_right _ hBreak)) hLine.ends
  have hFirst : firstLine text <+: text := List.takeWhile_prefix _
  obtain ⟨hInLine, hCut⟩ : firstLine text <+: stop ∧
      (firstLine text = text ∨ firstLine text = stop) := by
    rcases firstLine_append_cases text right with ⟨hWhole, hPrefix⟩ | hSame
    · exact ⟨by rwa [hWhole, ← hStop], Or.inl hWhole⟩
    · rw [hSame] at hStop
      exact ⟨hStop ▸ List.prefix_rfl, Or.inr hStop⟩
  obtain ⟨part, k, hPart, hLength⟩ := Place.exists_part hInLine hShown hReturns
  refine ⟨part, k, Covers.slice? ?_, hPart⟩
  -- What the span covers behind the line does not count for the cut.
  have hStopLength := byteLength_le_of_isPrefix hFirst
  have hShownLength := congrArg byteLength hShown
  obtain ⟨more, hMore⟩ : part <+: text := (hPart ▸ List.prefix_append part _).trans hFirst
  refine ⟨earlier ++ start, more ++ right, ?_, ?_⟩
  · rw [hSource, ← hMore]
    simp only [List.append_assoc]
  · simp only [byteLength_append] at hLength hShownLength ⊢
    simp only [Span.upTo, Span.mk.injEq, true_and]
    rcases hCut with hWhole | hWhole <;> rw [hWhole] at hLength hStopLength <;> omega

/-- The excerpt of a span is what is shown of the line on which the span begins, with spaces
and carets below. A span that cannot be sliced has one caret. Any other has a caret for each
column of the part of it that lies on what is shown, however its width is measured, together
with the carriage returns behind that it covers. Each of these has a caret of its own, so
that the carets keep to what is shown exactly if there are none, or if a single one is all
that the span has on the line. -/
theorem carets_eq_columns_add (source : List Char) (span : Span) :
    ∃ line shown, Shows source (floor source span.start) line shown ∧
      (ofSpan source span).excerpt? = some (String.ofList (shown ++ '\n' ::
        (List.replicate (ofSpan source span).column ' ' ++
          List.replicate (carets source span) '^'))) ∧
      (slice? span source = none → carets source span = 1) ∧
      ∀ text, slice? span source = some text → ∃ part k,
        slice? (span.upTo line.stop) source = some part ∧
        firstLine text = part ++ List.replicate k '\r' ∧
        (∀ width, caretsBy width source span =
          max 1 (width (part ++ List.replicate k '\r'))) ∧
        carets source span = max 1 (columns part + k) ∧
        (carets source span = max 1 (columns part) ↔ k = 0 ∨ (k = 1 ∧ columns part = 0)) := by
  obtain ⟨line, shown, hShows, hExcerpt⟩ := exists_shows source span
  refine ⟨line, shown, hShows, hExcerpt, fun hNone => by rw [carets, hNone], fun text hSlice => ?_⟩
  have hCovers := slice?_eq_some_iff.mp hSlice
  rw [floor_eq_of_covers hCovers] at hShows
  obtain ⟨part, k, hPart, hFirst⟩ := hShows.exists_part hCovers
  have hCarets : carets source span = max 1 (columns part + k) := by
    rw [carets, hSlice]
    simp only [hFirst, columns_append_returns]
  refine ⟨part, k, hPart, hFirst, fun width => ?_, hCarets, ?_⟩
  · rw [caretsBy, hSlice]
    simp only [hFirst]
  · rw [hCarets]
    omega

/-- A span over a line that ends in a carriage return and a line feed. The excerpt shows two
columns of it and has three carets below. -/
theorem carets_carriage_return :
    ∃ source span line shown part,
      Shows source (floor source span.start) line shown ∧
      slice? span source = some "ab\r\ncd".toList ∧
      slice? (span.upTo line.stop) source = some part ∧
      (ofSpan source span).excerpt? = some "ab\n^^^" ∧
      carets source span ≠ max 1 (columns part) := by
  have hLine : IsLineAt "ab\r\ncd".toList 0 [] [] "ab\r".toList "\ncd".toList :=
    ⟨by decide, by decide, Or.inl rfl, by decide, Or.inr ⟨_, rfl⟩⟩
  have hShown : [] ++ "ab\r".toList = "ab".toList ++ ['\r'] := by decide
  exact ⟨"ab\r\ncd".toList, ⟨0, 6⟩, ⟨0, 2⟩, "ab".toList, "ab".toList,
    .mk hLine hShown (by simp) (by decide), by decide, by decide, by decide, by decide⟩

end Place

end Bulletin
