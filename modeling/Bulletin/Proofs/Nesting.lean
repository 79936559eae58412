import Bulletin.Proofs.Scopes
import Bulletin.Proofs.Spellings

/-! Where the elements of a tree stand. Whatever is wrong with a source, they
follow one another and contain one another as they do in it; if nothing is wrong
with it, they leave nothing out. -/
namespace Bulletin

open Text

/-- Spans that cover something follow one another between two offsets, perhaps
with gaps between them. -/
def Span.Apart : Nat → List Span → Nat → Prop
  | start, [], stop => start ≤ stop
  | start, s :: rest, stop => start ≤ s.start ∧ s.start < s.stop ∧ Apart s.stop rest stop

theorem Span.Apart.mono {start start' stop stop' : Nat} {spans : List Span}
    (hApart : Apart start spans stop) (hStart : start' ≤ start) (hStop : stop ≤ stop') :
    Apart start' spans stop' := by
  induction spans generalizing start start' with
  | nil => exact (hStart.trans hApart).trans hStop
  | cons s rest ih =>
      obtain ⟨hHere, hSome, hRest⟩ := hApart
      exact ⟨hStart.trans hHere, hSome, ih hRest (Nat.le_refl _)⟩

theorem Span.Apart.append {start middle stop : Nat} {left right : List Span}
    (hLeft : Apart start left middle) (hRight : Apart middle right stop) :
    Apart start (left ++ right) stop := by
  induction left generalizing start with
  | nil => exact hRight.mono hLeft (Nat.le_refl _)
  | cons s left ih =>
      obtain ⟨hHere, hSome, hRest⟩ := hLeft
      exact ⟨hHere, hSome, ih hRest⟩

namespace Element

/-- The element stands in the source where its spans say, and so does all that is
in it. A variable reaches from its opening to its closing delimiter. The test of
a conditional is a name, which stands before the body. -/
inductive Placed (m : Markup) (source : List Char) : Element → Prop where
  | literal {text : String} {span : Span} (hText : text.toList ≠ [])
      (hCovers : Covers source span text.toList) : Placed m source (.literal text span)
  | «variable» {name : String} {span : Span} {tag : List Char} (hTag : VariableTag m name tag)
      (hCovers : Covers source span tag) : Placed m source (.variable name span)
  | conditional {polarity : Polarity} {name : String} {nameSpan span : Span}
      {text : List Char} {body : List Element} (hName : IsName name)
      (hTest : Covers source nameSpan name.toList) (hCovers : Covers source span text)
      (hStart : span.start < nameSpan.start)
      (hBody : Span.Apart nameSpan.stop (body.map Element.span) span.stop)
      (hInner : ∀ e ∈ body, Placed m source e) :
      Placed m source (.conditional polarity (.variable name nameSpan) body span)

/-- The bodies of all conditionals in the element reach from tag to tag, and leave
nothing out. -/
inductive Tiled (m : Markup) (source : List Char) : Element → Prop where
  | literal {text : String} {span : Span} : Tiled m source (.literal text span)
  | «variable» {name : String} {span : Span} : Tiled m source (.variable name span)
  | conditional {polarity : Polarity} {name : String} {nameSpan : Span}
      {before ifTag inside endIfTag behind : List Char} {body : List Element}
      (hSource : source = before ++ ifTag ++ inside ++ endIfTag ++ behind)
      (hIfTag : IfTag m name polarity ifTag) (hEndIfTag : EndIfTag m endIfTag)
      (hBody : Span.Tile (byteLength (before ++ ifTag)) (body.map Element.span)
        (byteLength (before ++ ifTag ++ inside)))
      (hInner : ∀ e ∈ body, Tiled m source e) :
      Tiled m source (.conditional polarity (.variable name nameSpan) body
        ⟨byteLength before, byteLength (before ++ ifTag ++ inside ++ endIfTag)⟩)

end Element

namespace Segment

variable {m : Markup} {source left right : List Char} {s : Segment} {row : List Segment}
  {e : Element} {es : List Element}

/-- A text and a variable tag stand for themselves. -/
theorem StandsAt.element (hStands : s.StandsAt m left) (hElement : s.element? = some e)
    (hSource : source = left ++ s.spelling ++ right) :
    e.Placed m source ∧ e.span = ⟨byteLength left, byteLength (left ++ s.spelling)⟩ := by
  cases s with
  | text x =>
      obtain rfl := Option.some.inj hElement
      have hSpelling : spelling (.text x) = x.text.toList := by simp [spelling, lexemes]
      cases hStands with
      | text hText hSpan =>
          rw [hSpelling] at hSource ⊢
          exact ⟨.literal hText ⟨left, right, hSource, hSpan⟩, hSpan⟩
  | tag opening inner last =>
      obtain ⟨⟨name, span⟩, hReference, rfl⟩ := Option.map_eq_some_iff.mp hElement
      obtain ⟨hTag, hSpan⟩ := hStands.variable hReference
      exact ⟨.variable hTag ⟨left, right, hSource, hSpan⟩, hSpan⟩

theorem tiled_of_element? (hElement : s.element? = some e) : e.Tiled m source := by
  cases s with
  | text x =>
      obtain rfl := Option.some.inj hElement
      exact .literal
  | tag opening inner last =>
      obtain ⟨⟨name, span⟩, -, rfl⟩ := Option.map_eq_some_iff.mp hElement
      exact .variable

theorem isSome_element? (hRole : s.role = .neutral) (hSound : s.IsSound) :
    s.element?.isSome = true := by
  cases s with
  | text x => rfl
  | tag opening inner last => simpa [IsSound, hRole, element?] using hSound

theorem isSome_header? (hRole : s.role = .opener) (hSound : s.IsSound) :
    s.header?.isSome = true := by
  cases s with
  | text x => cases hRole
  | tag opening inner last => simpa [IsSound, hRole] using hSound

theorem isPlain_of_closer (hRole : s.role = .closer) (hSound : s.IsSound) : s.isPlain = true := by
  cases s with
  | text x => cases hRole
  | tag opening inner last => simpa [IsSound, hRole] using hSound

section Scope

variable {opener closer : Segment} {h : Header} {inside : List Char}

/-- The place of a conditional reaches from its opener to its closer. -/
theorem cover_closeSpan (hOpener : opener.StandsAt m left) (hHeader : opener.header? = some h)
    (hCloser : closer.StandsAt m (left ++ opener.spelling ++ inside))
    (hRole : closer.role = .closer) :
    ∃ before after, closer.spelling = before ++ after ∧
      h.span.cover closer.closeSpan =
        ⟨byteLength left, byteLength (left ++ opener.spelling ++ inside ++ before)⟩ ∧
      (closer.isPlain = true → EndIfTag m before ∧ after = []) := by
  obtain ⟨-, -, hSpan, -⟩ := hOpener.header hHeader
  obtain ⟨before, after, hSpelling, hClose, hPlain⟩ := hCloser.closer hRole
  refine ⟨before, after, hSpelling, ?_, hPlain⟩
  rw [hSpan, hClose]
  simp only [Span.cover, byteLength_append, Span.mk.injEq]
  omega

theorem placed_conditional (hOpener : opener.StandsAt m left)
    (hHeader : opener.header? = some h)
    (hCloser : closer.StandsAt m (left ++ opener.spelling ++ inside))
    (hRole : closer.role = .closer)
    (hSource : source = left ++ opener.spelling ++ inside ++ closer.spelling ++ right)
    (hBody : Span.Apart (byteLength (left ++ opener.spelling)) (es.map Element.span)
      (byteLength (left ++ opener.spelling ++ inside)))
    (hInner : ∀ e ∈ es, e.Placed m source) :
    (Element.conditional h.polarity (.variable h.name h.nameSpan) es
        (h.span.cover closer.closeSpan)).Placed m source ∧
      Span.Apart (byteLength left) [h.span.cover closer.closeSpan]
        (byteLength (left ++ opener.spelling ++ inside ++ closer.spelling)) := by
  obtain ⟨-, hName, -, before, after, hBefore, hHead, hNameSpan⟩ := hOpener.header hHeader
  obtain ⟨start, rest, hTail, hSpan, -⟩ := cover_closeSpan hOpener hHeader hCloser hRole
  have hPositive := byteLength_pos hBefore
  have hTest : Covers source h.nameSpan h.name.toList :=
    ⟨left ++ before, after ++ inside ++ closer.spelling ++ right, by simp [hSource, hHead],
      hNameSpan⟩
  have hWhole : Covers source (h.span.cover closer.closeSpan) (opener.spelling ++ inside ++ start) :=
    ⟨left, rest ++ right, by simp [hSource, hTail], by simp [hSpan]⟩
  rw [hSpan] at hWhole ⊢
  refine ⟨.conditional hName hTest hWhole ?_ ?_ hInner, Nat.le_refl _, ?_, ?_⟩
  · simp only [hNameSpan, byteLength_append]
    omega
  · refine hBody.mono ?_ ?_
    · simp only [hNameSpan, hHead, byteLength_append]
      omega
    · simp only [byteLength_append]
      omega
  · simp only [hHead, byteLength_append]
    omega
  · simp only [Span.Apart, hTail, byteLength_append]
    omega

end Scope

theorem append_spelling_cons (left : List Char) (s : Segment) (rest : List Segment) :
    left ++ (s :: rest).flatMap spelling = left ++ s.spelling ++ rest.flatMap spelling := by
  simp

theorem append_spelling_scope (left : List Char) (opener closer : Segment)
    (body rest : List Segment) :
    left ++ (opener :: (body ++ closer :: rest)).flatMap spelling =
      left ++ opener.spelling ++ body.flatMap spelling ++ closer.spelling ++
        rest.flatMap spelling := by
  simp

/-- The elements of a row stand in their places, in the order of the row. -/
theorem Balanced.placed (hRow : Balanced row es) (hStanding : Standing m left row)
    (hSource : source = left ++ row.flatMap spelling ++ right) :
    (∀ e ∈ es, e.Placed m source) ∧
      Span.Apart (byteLength left) (es.map Element.span)
        (byteLength (left ++ row.flatMap spelling)) := by
  induction hRow generalizing left right with
  | nil => simp [Span.Apart]
  | @neutral s rest es _ _ ih =>
      obtain ⟨hHere, hMore⟩ := hStanding
      rw [append_spelling_cons] at hSource ⊢
      obtain ⟨hRest, hApart⟩ := ih hMore hSource
      have hPositive := byteLength_pos hHere.spelling_ne_nil
      cases hElement : s.element? with
      | none => exact ⟨hRest, hApart.mono (by simp) (Nat.le_refl _)⟩
      | some e =>
          obtain ⟨hPlaced, hSpan⟩ := hHere.element hElement (hSource.trans (List.append_assoc ..))
          refine ⟨List.forall_mem_cons.mpr ⟨hPlaced, hRest⟩, ?_⟩
          refine ⟨by simp [hSpan], ?_, by simpa [hSpan] using hApart⟩
          simp only [hSpan, byteLength_append]
          omega
  | @scope opener closer body rest inside es hOpener _ hCloser _ ihBody ih =>
      obtain ⟨hOpenerAt, hMore⟩ := hStanding
      obtain ⟨hBodyAt, hCloserAt, hRestAt⟩ := standing_append.mp hMore
      rw [append_spelling_scope] at hSource ⊢
      have hScope := hSource.trans (List.append_assoc ..)
      obtain ⟨hBodyPlaced, hBodyApart⟩ := ihBody hBodyAt (hScope.trans (List.append_assoc ..))
      obtain ⟨hRest, hApart⟩ := ih hRestAt hSource
      rw [conditional?]
      cases hHeader : opener.header? with
      | none =>
          refine ⟨hRest, hApart.mono ?_ (Nat.le_refl _)⟩
          simp only [byteLength_append]
          omega
      | some h =>
          obtain ⟨hPlaced, hHere⟩ := placed_conditional hOpenerAt hHeader hCloserAt hCloser hScope
            hBodyApart hBodyPlaced
          exact ⟨List.forall_mem_cons.mpr ⟨hPlaced, hRest⟩, hHere.append hApart⟩

/-- Where nothing is wrong, the elements of a row leave nothing of it out. -/
theorem Balanced.tiled (hRow : Balanced row es) (hStanding : Standing m left row)
    (hSound : ∀ s ∈ row, s.IsSound) (hSource : source = left ++ row.flatMap spelling ++ right) :
    (∀ e ∈ es, e.Tiled m source) ∧
      Span.Tile (byteLength left) (es.map Element.span)
        (byteLength (left ++ row.flatMap spelling)) := by
  induction hRow generalizing left right with
  | nil => simp [Span.Tile]
  | @neutral s rest es hRole _ ih =>
      obtain ⟨hHere, hMore⟩ := hStanding
      obtain ⟨hSoundHere, hSoundRest⟩ := List.forall_mem_cons.mp hSound
      rw [append_spelling_cons] at hSource ⊢
      obtain ⟨hRest, hTile⟩ := ih hMore hSoundRest hSource
      obtain ⟨e, hElement⟩ := Option.isSome_iff_exists.mp (isSome_element? hRole hSoundHere)
      obtain ⟨-, hSpan⟩ := hHere.element hElement (hSource.trans (List.append_assoc ..))
      rw [hElement]
      refine ⟨List.forall_mem_cons.mpr ⟨tiled_of_element? hElement, hRest⟩, ?_⟩
      refine ⟨by rw [hSpan], ?_, by simpa [hSpan] using hTile⟩
      simp only [hSpan, byteLength_append]
      omega
  | @scope opener closer body rest inside es hOpener _ hCloser _ ihBody ih =>
      obtain ⟨hOpenerAt, hMore⟩ := hStanding
      obtain ⟨hBodyAt, hCloserAt, hRestAt⟩ := standing_append.mp hMore
      obtain ⟨hSoundOpener, hSoundMore⟩ := List.forall_mem_cons.mp hSound
      obtain ⟨hSoundBody, hSoundMore⟩ := List.forall_mem_append.mp hSoundMore
      obtain ⟨hSoundCloser, hSoundRest⟩ := List.forall_mem_cons.mp hSoundMore
      rw [append_spelling_scope] at hSource ⊢
      have hScope := hSource.trans (List.append_assoc ..)
      obtain ⟨hBodyTiled, hBodyTile⟩ :=
        ihBody hBodyAt hSoundBody (hScope.trans (List.append_assoc ..))
      obtain ⟨hRest, hTile⟩ := ih hRestAt hSoundRest hSource
      obtain ⟨h, hHeader⟩ := Option.isSome_iff_exists.mp (isSome_header? hOpener hSoundOpener)
      obtain ⟨hIfTag, -⟩ := hOpenerAt.header hHeader
      obtain ⟨before, after, hSpelling, hSpan, hPlain⟩ :=
        cover_closeSpan hOpenerAt hHeader hCloserAt hCloser
      obtain ⟨hEndIfTag, rfl⟩ := hPlain (isPlain_of_closer hCloser hSoundCloser)
      rw [List.append_nil] at hSpelling
      rw [← hSpelling] at hSpan hEndIfTag
      rw [conditional?, hHeader, Option.map_some, hSpan]
      have hTiled :
          Element.Tiled m source (.conditional h.polarity (.variable h.name h.nameSpan) inside _) :=
        .conditional hScope hIfTag hEndIfTag hBodyTile hBodyTiled
      refine ⟨List.forall_mem_cons.mpr ⟨hTiled, hRest⟩, rfl, ?_, hTile⟩
      simp only [Element.span, byteLength_append]
      omega

theorem Open.eq_nil {openers : List Segment} (hOpen : Open row openers)
    (hSound : ∀ s ∈ row, s.IsSound) (hNone : openers.filterMap unclosed? = []) : row = [] := by
  cases hOpen with
  | nil => rfl
  | @cons opener body rest openers inside hOpener =>
      obtain ⟨h, hHeader⟩ := Option.isSome_iff_exists.mp
        (isSome_header? hOpener (hSound opener List.mem_cons_self))
      simp [unclosed?, hHeader] at hNone

/-- If every opener has its closer, there is nothing but the row of them. -/
theorem Matched.balanced {segments openers : List Segment}
    (hMatched : Matched segments [] openers es) (hSound : ∀ s ∈ segments, s.IsSound)
    (hNone : openers.filterMap unclosed? = []) : Balanced segments es := by
  cases hMatched with
  | last hRow hOpen =>
      obtain rfl := hOpen.eq_nil (fun s hMem => hSound s (List.mem_append_right _ hMem)) hNone
      rwa [List.append_nil]

theorem Matched.placed {segments closers openers : List Segment}
    (hMatched : Matched segments closers openers es) (hStanding : Standing m left segments)
    (hSource : source = left ++ segments.flatMap spelling) :
    (∀ e ∈ es, e.Placed m source) ∧
      Span.Apart (byteLength left) (es.map Element.span) (byteLength source) := by
  induction hMatched generalizing left with
  | @last row rest openers es hRow _ =>
      obtain ⟨hRowAt, -⟩ := standing_append.mp hStanding
      have hHere : source = left ++ row.flatMap spelling ++ rest.flatMap spelling := by
        simpa using hSource
      obtain ⟨hPlaced, hApart⟩ := hRow.placed hRowAt hHere
      refine ⟨hPlaced, hApart.mono (Nat.le_refl _) ?_⟩
      simp only [hHere, byteLength_append]
      omega
  | @stray row rest closers openers closer es es' hRow _ _ ih =>
      obtain ⟨hRowAt, -, hRestAt⟩ := standing_append.mp hStanding
      have hHere : source = left ++ row.flatMap spelling ++
          (closer.spelling ++ rest.flatMap spelling) := by simpa using hSource
      obtain ⟨hPlaced, hApart⟩ := hRow.placed hRowAt hHere
      obtain ⟨hMore, hBehind⟩ := ih hRestAt (hHere.trans (List.append_assoc ..).symm)
      refine ⟨List.forall_mem_append.mpr ⟨hPlaced, hMore⟩, ?_⟩
      rw [List.map_append]
      refine hApart.append (hBehind.mono ?_ (Nat.le_refl _))
      simp only [byteLength_append]
      omega

end Segment

namespace Engine

/-- A source in which nothing was reported has nothing wrong with it. -/
theorem complaints_eq_nil {g : Engine} {source : List Char} {log : Log} {t : Template}
    (hRead : (g.parseWith source log).1 = .ok t) (hLog : (g.parseWith source log).2 = log) :
    g.complaints source = [] := by
  obtain ⟨m, mode⟩ := g
  cases mode with
  | accumulate =>
      rw [parseWith_accumulate] at hLog
      have hHeld := congrArg Log.held hLog
      simpa [Log.complainAll] using hHeld
  | bailOut =>
      cases hComplaints : (Engine.mk m .bailOut).complaints source with
      | nil => rfl
      | cons c cs =>
          rw [parseWith_bailOut_of_fault hComplaints] at hRead
          cases hRead

/-- The elements of a tree that was read stand in its source where they say. They
follow one another, and a conditional contains its test and behind it its body.
If nothing was reported, the elements leave nothing of the source out, and the
body of a conditional nothing of what stands between its tags. -/
theorem elements_placed {g : Engine} {source : List Char} {log : Log} {t : Template}
    (hRead : (g.parseWith source log).1 = .ok t) :
    (∀ e ∈ t.elements, e.Placed g.markup source) ∧
      Span.Apart 0 (t.elements.map Element.span) (byteLength source) ∧
      ((g.parseWith source log).2 = log →
        (∀ e ∈ t.elements, e.Tiled g.markup source) ∧
          Span.Tile 0 (t.elements.map Element.span) (byteLength source)) := by
  obtain ⟨segments, hRun, hSegments, hParts⟩ := g.exists_parted source
  obtain ⟨closers, openers, es, hMatched⟩ := Segment.exists_matched segments
  obtain ⟨hElements, others, hComplaints, hStrays, -, hSound⟩ :=
    complaints_of_matched hParts hMatched
  have hRow : Lexeme.Row (byteLength []) (segments.flatMap Segment.lexemes) :=
    hRun ▸ Lexer.run_row (Lexer.valid_start g.markup source)
  obtain ⟨hSource, hStanding⟩ := hSegments.standing hRow
  obtain ⟨hPlaced, hApart⟩ := hMatched.placed hStanding (hSource.trans (List.nil_append _).symm)
  obtain rfl := eq_of_parseWith hRead
  rw [← hElements] at hPlaced hApart
  refine ⟨hPlaced, hApart, fun hLog => ?_⟩
  rw [complaints_eq_nil hRead hLog] at hComplaints
  obtain ⟨rfl, hUnclosed⟩ := List.append_eq_nil_iff.mp hComplaints.symm
  obtain rfl : closers = [] := by simpa using hStrays.symm
  have hAll := hSound rfl
  have hBalanced := hMatched.balanced hAll hUnclosed
  have hWhole : source = [] ++ segments.flatMap Segment.spelling ++ [] := by
    simpa using hSource
  obtain ⟨hTiled, hTile⟩ := hBalanced.tiled hStanding hAll hWhole
  rw [List.nil_append, ← hSource, ← hElements] at hTile
  rw [← hElements] at hTiled
  exact ⟨hTiled, hTile⟩

set_option maxRecDepth 2000 in
theorem elements_placed_standard :
    ∃ t, ((Engine.mk .standard .accumulate).parseWith "${a}&{IF b}!&{ENDIF}".toList
        (.empty ⟨"notice", none⟩)).1 = .ok t ∧
      Element.Placed .standard "${a}&{IF b}!&{ENDIF}".toList
        (.conditional .whenTrue (.variable "b" ⟨9, 10⟩) [.literal "!" ⟨11, 12⟩] ⟨4, 20⟩) ∧
      Span.Tile 0 (t.elements.map Element.span) 20 := by
  have hParse : (Engine.mk .standard .accumulate).parseWith "${a}&{IF b}!&{ENDIF}".toList
      (.empty ⟨"notice", none⟩) = (.ok ⟨⟨"notice", none⟩, "${a}&{IF b}!&{ENDIF}".toList,
        [.variable "a" ⟨0, 4⟩,
          .conditional .whenTrue (.variable "b" ⟨9, 10⟩) [.literal "!" ⟨11, 12⟩] ⟨4, 20⟩]⟩,
        .empty ⟨"notice", none⟩) := by
    with_unfolding_all rfl
  obtain ⟨hPlaced, -, hTiled⟩ := elements_placed (congrArg Prod.fst hParse)
  exact ⟨_, congrArg Prod.fst hParse, hPlaced _ (by simp), (hTiled (congrArg Prod.snd hParse)).2⟩

end Engine

end Bulletin
