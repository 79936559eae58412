import Bulletin.Proofs.Outline

/-! Reading and writing. In plain markup a source is read as a tree exactly
where it is one of the ways to write this tree. -/
namespace Bulletin

open Text Element

theorem Part.eq_text_of_mark? {p : Part} {content : String}
    (hMark : p.mark? = some (.text content)) : ∃ span, p = .text content span := by
  cases p <;> simp_all [Part.mark?]

theorem Part.eq_reference_of_mark? {p : Part} {name : String}
    (hMark : p.mark? = some (.reference name)) : ∃ span, p = .reference name span := by
  cases p <;> simp_all [Part.mark?]

theorem Part.eq_openIf_of_mark? {p : Part} {polarity : Polarity} {name : String}
    (hMark : p.mark? = some (.openIf polarity name)) :
    ∃ nameSpan span, p = .openIf polarity name nameSpan span := by
  cases p <;> simp_all [Part.mark?]

theorem Part.eq_close_of_mark? {p : Part} (hMark : p.mark? = some .close) :
    ∃ span, p = .close span := by
  cases p <;> simp_all [Part.mark?]

namespace Assembly

variable {a : Assembly} {m : Markup} {es : List Element}

/-- The tree after adding elements to the innermost open conditional. -/
def addAll (a : Assembly) (es : List Element) : Assembly :=
  es.foldl add a

@[simp]
theorem addAll_nil (a : Assembly) : a.addAll [] = a := rfl

@[simp]
theorem addAll_cons (a : Assembly) (e : Element) (es : List Element) :
    a.addAll (e :: es) = (a.add e).addAll es := rfl

theorem addAll_outside (log : Log) (elements es : List Element) :
    addAll ⟨log, [], elements⟩ es = ⟨log, [], es.reverse ++ elements⟩ := by
  induction es generalizing elements with
  | nil => simp
  | cons e es ih => simp [add, ih]

theorem addAll_start (log : Log) (es : List Element) :
    (start log).addAll es = ⟨log, [], es.reverse⟩ := by
  simpa [start] using addAll_outside log [] es

theorem addAll_enter (a : Assembly) (polarity : Polarity) (name : String) (nameSpan span : Span)
    (body es : List Element) :
    (a.enter (.conditional polarity name nameSpan span body)).addAll es =
      a.enter (.conditional polarity name nameSpan span (es.reverse ++ body)) := by
  induction es generalizing body with
  | nil => simp
  | cons e es ih =>
      have hAdd : (a.enter (.conditional polarity name nameSpan span body)).add e =
        a.enter (.conditional polarity name nameSpan span (e :: body)) := rfl
      rw [addAll_cons, hAdd, ih, List.reverse_cons, List.append_assoc, List.singleton_append]

theorem head?_scopes_add {e : Element} (hOpen : ∀ scope ∈ a.scopes.head?, scope ≠ .broken) :
    ∀ scope ∈ (a.add e).scopes.head?, scope ≠ .broken := by
  obtain ⟨log, scopes, elements⟩ := a
  cases scopes with
  | nil => exact hOpen
  | cons scope outer => cases scope <;> simp_all [add]

theorem faultsAll_append (a : Assembly) (first second : List Part) :
    a.faultsAll (first ++ second) = a.faultsAll first ++ (a.growAll first).faultsAll second := by
  induction first generalizing a with
  | nil => rfl
  | cons p first ih => rw [List.cons_append, faultsAll, faultsAll, ih, List.append_assoc, growAll_cons]

theorem growAll_append (a : Assembly) (first second : List Part) :
    a.growAll (first ++ second) = (a.growAll first).growAll second :=
  List.foldl_append

section Conditional

variable {polarity : Polarity} {name : String} {nameSpan opening closing : Span}
  {inside more : List Part} {body : List Element}

/-- A conditional whose body was put together is added when it is closed. -/
theorem growAll_conditional
    (hBody : (a.enter (.conditional polarity name nameSpan opening [])).growAll inside =
      a.enter (.conditional polarity name nameSpan opening body.reverse)) :
    a.growAll (.openIf polarity name nameSpan opening :: (inside ++ .close closing :: more)) =
      (a.add (.conditional polarity (.variable name nameSpan) body
        (opening.cover closing))).growAll more := by
  rw [growAll_cons, growAll_append, grow, hBody, growAll_cons]
  simp [grow, enter]

theorem faultsAll_conditional
    (hBody : (a.enter (.conditional polarity name nameSpan opening [])).growAll inside =
      a.enter (.conditional polarity name nameSpan opening body.reverse)) :
    a.faultsAll (.openIf polarity name nameSpan opening :: (inside ++ .close closing :: more)) =
      (a.enter (.conditional polarity name nameSpan opening [])).faultsAll inside ++
        (a.add (.conditional polarity (.variable name nameSpan) body
          (opening.cover closing))).faultsAll more := by
  rw [faultsAll, faultsAll_append, grow, hBody, faultsAll]
  simp [faults, grow, enter]

end Conditional

/-- The parts of a tree that can be written out put the tree together again. -/
theorem growAll_of_printing {text rest : List Char} (hPrinting : Printing m es text rest)
    {parts : List Part} (hParts : parts.map Part.mark? = (outlineAll es).map some)
    (hOpen : ∀ scope ∈ a.scopes.head?, scope ≠ .broken) :
    a.faultsAll parts = [] ∧
      ∃ es', unplacedAll es' = unplacedAll es ∧ a.growAll parts = a.addAll es' := by
  induction hPrinting generalizing a parts with
  | nil =>
      obtain rfl : parts = [] := by simpa [outlineAll] using hParts
      exact ⟨rfl, [], rfl, rfl⟩
  | @literal content span es _ _ _ _ _ _ ih =>
      obtain ⟨p, parts, rfl, hMark, hMore⟩ := List.map_eq_cons_iff.mp hParts
      obtain ⟨span', rfl⟩ := Part.eq_text_of_mark? hMark
      obtain ⟨hFaults, es', hSame, hGrow⟩ := ih hMore
        (head?_scopes_add (e := .literal content span') hOpen)
      refine ⟨hFaults, .literal content span' :: es', ?_, hGrow⟩
      rw [unplacedAll, unplacedAll, hSame, unplaced, unplaced]
  | @«variable» name span es _ _ _ _ _ ih =>
      obtain ⟨p, parts, rfl, hMark, hMore⟩ := List.map_eq_cons_iff.mp hParts
      obtain ⟨span', rfl⟩ := Part.eq_reference_of_mark? hMark
      obtain ⟨hFaults, es', hSame, hGrow⟩ := ih hMore
        (head?_scopes_add (e := .variable name span') hOpen)
      refine ⟨hFaults, .variable name span' :: es', ?_, hGrow⟩
      rw [unplacedAll, unplacedAll, hSame, unplaced, unplaced]
  | @conditional polarity name nameSpan span body es _ _ _ _ _ _ _ _ _ ihBody ih =>
      simp only [outlineAll, Element.outline, Element.label, List.cons_append, List.append_assoc,
        List.map_cons, List.map_append, List.nil_append] at hParts
      obtain ⟨p, behind, rfl, hMark, hBehind⟩ := List.map_eq_cons_iff.mp hParts
      obtain ⟨nameSpan', opening, rfl⟩ := Part.eq_openIf_of_mark? hMark
      obtain ⟨inside, after, rfl, hInside, hAfter⟩ := List.map_eq_append_iff.mp hBehind
      obtain ⟨p, more, rfl, hMark, hMore⟩ := List.map_eq_cons_iff.mp hAfter
      obtain ⟨closing, rfl⟩ := Part.eq_close_of_mark? hMark
      obtain ⟨hBodyFaults, body', hBody, hBodyGrow⟩ :=
        ihBody (a := a.enter (.conditional polarity name nameSpan' opening [])) hInside
          (by simp [enter])
      rw [addAll_enter, List.append_nil] at hBodyGrow
      obtain ⟨hFaults, es', hSame, hGrow⟩ := ih hMore (head?_scopes_add
        (e := .conditional polarity (.variable name nameSpan') body' (opening.cover closing)) hOpen)
      refine ⟨?_, .conditional polarity (.variable name nameSpan') body' (opening.cover closing) ::
        es', ?_, ?_⟩
      · rw [faultsAll_conditional hBodyGrow, hBodyFaults, hFaults, List.nil_append]
      · rw [unplacedAll, unplacedAll, hSame, unplaced, unplaced, hBody, unplaced, unplaced]
      · rw [growAll_conditional hBodyGrow, hGrow, addAll_cons]

end Assembly

section Spelling

variable {m : Markup} {es es' : List Element} {text rest : List Char} {marks : List Mark}

theorem head?_outlineAll_append {content : String}
    (hApart : ∀ next span, es.head? ≠ some (.literal next span))
    (hMarks : ∀ next, marks.head? ≠ some (.text next)) :
    (outlineAll es ++ marks).head? ≠ some (.text content) := by
  cases es with
  | nil => exact hMarks content
  | cons e es =>
      cases e with
      | literal next span => exact absurd rfl (hApart next span)
      | «variable» name span => simp [outlineAll, Element.outline]
      | conditional polarity test body span => simp [outlineAll, Element.outline]

/-- A tree that is written out is a row that is spelled out. -/
theorem Printing.spelled (hPrinting : Printing m es text rest) (hRest : Spelled m marks rest)
    (hMarks : ∀ next, marks.head? ≠ some (.text next)) :
    Spelled m (outlineAll es ++ marks) (text ++ rest) := by
  induction hPrinting generalizing marks with
  | nil => exact hRest
  | literal hText hUntouched hApart _ ih =>
      rw [List.append_assoc]
      exact .text hText hUntouched (fun _ => head?_outlineAll_append hApart hMarks)
        (ih hRest hMarks)
  | «variable» hTag _ ih =>
      rw [List.append_assoc]
      exact .tag (.reference hTag) (ih hRest hMarks)
  | conditional hOpening _ hClosing _ ihBody ih =>
      have hClose := Spelled.tag (.close hClosing) (ih hRest hMarks)
      rw [← List.append_assoc] at hClose
      have hBody := ihBody hClose (by simp)
      simpa [outlineAll, Element.outline, Element.label] using Spelled.tag (.openIf hOpening) hBody

/-- A tag of a row stands at the beginning of the text. -/
theorem Spelled.tag_of_cons {mark : Mark} (hSpelled : Spelled m (mark :: marks) text)
    (hMark : ∀ content, mark ≠ .text content) :
    ∃ tag more, text = tag ++ more ∧ mark.Tag m tag ∧ Spelled m marks more := by
  cases hSpelled with
  | text => exact absurd rfl (hMark _)
  | tag hTag hRest => exact ⟨_, _, rfl, hTag, hRest⟩

/-- Wherever a row begins with the marks of the elements, its text begins with
a way to write them. -/
def Legible (m : Markup) (es : List Element) : Prop :=
  ∀ marks text, Spelled m (outlineAll es ++ marks) text →
    ∃ left right, text = left ++ right ∧ Printing m es left right ∧ Spelled m marks right

/-- Elements that go back to parts can be written. -/
theorem legible_of_from {parts : List Part} (hFrom : ∀ e ∈ es, e.From parts) : Legible m es := by
  refine Element.From.list_induction ?nil ?literal ?reference ?conditional hFrom
  case nil => exact fun _ text hSpelled => ⟨[], text, rfl, .nil, hSpelled⟩
  case literal =>
    intro content span es _ hMore marks text hSpelled
    cases hSpelled with
    | @text _ _ more hText hUntouched hApart hRest =>
        obtain ⟨left, right, rfl, hPrinting, hRight⟩ := hMore marks more hRest
        refine ⟨content.toList ++ left, right, (List.append_assoc ..).symm, ?_, hRight⟩
        refine .literal hText hUntouched ?_ hPrinting
        intro next nextSpan hHead
        cases es with
        | nil => simp at hHead
        | cons e es =>
            cases hHead
            exact hApart next rfl
    | tag hTag => cases hTag
  case reference =>
    intro name span es _ hMore marks text hSpelled
    obtain ⟨tag, more, rfl, hTag, hRest⟩ := hSpelled.tag_of_cons (by simp)
    cases hTag with
    | reference hTag =>
        obtain ⟨left, right, rfl, hPrinting, hRight⟩ := hMore marks more hRest
        exact ⟨tag ++ left, right, (List.append_assoc ..).symm, .variable hTag hPrinting, hRight⟩
  case conditional =>
    intro polarity name nameSpan opening closing body es _ _ _ hBody hMore marks text hSpelled
    simp only [outlineAll, Element.outline, Element.label, List.cons_append, List.append_assoc,
      List.nil_append] at hSpelled
    obtain ⟨head, inside, rfl, hHead, hInside⟩ := hSpelled.tag_of_cons (by simp)
    obtain ⟨text, behind, rfl, hText, hBehind⟩ := hBody _ inside hInside
    obtain ⟨tail, more, rfl, hTail, hRest⟩ := hBehind.tag_of_cons (by simp)
    obtain ⟨left, right, rfl, hPrinting, hRight⟩ := hMore marks more hRest
    cases hHead with
    | openIf hHead =>
        cases hTail with
        | close hTail =>
            refine ⟨head ++ text ++ tail ++ left, right, by simp, ?_, hRight⟩
            exact .conditional hHead (by simpa using hText) hTail hPrinting

theorem head?_ne_literal (hApart : ∀ next span, es.head? ≠ some (.literal next span))
    (hSame : unplacedAll es' = unplacedAll es) (next : String) (span : Span) :
    es'.head? ≠ some (.literal next span) := by
  intro hHead
  have hHeads := congrArg List.head? hSame
  rw [unplacedAll_eq_map, unplacedAll_eq_map, List.head?_map, List.head?_map, hHead] at hHeads
  obtain ⟨e, he, hSameHead⟩ := Option.map_eq_some_iff.mp hHeads.symm
  cases e <;> simp only [unplaced, Element.literal.injEq, reduceCtorEq] at hSameHead
  exact hApart _ _ he

/-- The ways to write a tree do not depend on the places in it. -/
theorem Printing.of_unplacedAll (hPrinting : Printing m es text rest)
    (hSame : unplacedAll es' = unplacedAll es) : Printing m es' text rest := by
  induction hPrinting generalizing es' with
  | nil =>
      cases es' with
      | nil => exact .nil
      | cons e es' => simp [unplacedAll] at hSame
  | literal hText hUntouched hApart _ ih =>
      obtain ⟨e, es', rfl⟩ : ∃ e more, es' = e :: more :=
        List.exists_cons_of_ne_nil (by rintro rfl; simp [unplacedAll] at hSame)
      obtain ⟨hHead, hTail⟩ := List.cons.inj hSame
      cases e <;> simp only [unplaced, Element.literal.injEq, reduceCtorEq] at hHead
      obtain ⟨rfl, -⟩ := hHead
      exact .literal hText hUntouched (head?_ne_literal hApart hTail) (ih hTail)
  | «variable» hTag _ ih =>
      obtain ⟨e, es', rfl⟩ : ∃ e more, es' = e :: more :=
        List.exists_cons_of_ne_nil (by rintro rfl; simp [unplacedAll] at hSame)
      obtain ⟨hHead, hTail⟩ := List.cons.inj hSame
      cases e <;> simp only [unplaced, Element.variable.injEq, reduceCtorEq] at hHead
      obtain ⟨rfl, -⟩ := hHead
      exact .variable hTag (ih hTail)
  | conditional hOpening _ hClosing _ ihBody ih =>
      obtain ⟨e, es', rfl⟩ : ∃ e more, es' = e :: more :=
        List.exists_cons_of_ne_nil (by rintro rfl; simp [unplacedAll] at hSame)
      obtain ⟨hHead, hTail⟩ := List.cons.inj hSame
      cases e with
      | literal => simp [unplaced] at hHead
      | «variable» => simp [unplaced] at hHead
      | conditional polarity test body span =>
          simp only [unplaced, Element.conditional.injEq] at hHead
          obtain ⟨rfl, hTest, hBody, -⟩ := hHead
          cases test <;> simp only [unplaced, Element.variable.injEq, reduceCtorEq] at hTest
          obtain ⟨rfl, -⟩ := hTest
          exact .conditional hOpening (ihBody hBody) hClosing (ih hTail)

end Spelling

namespace Engine

variable {g : Engine} {source : List Char} {marks : List Mark}

/-- If a source has no faults, its tree has the marks of its parts in order. -/
theorem outlineAll_elements (hMarks : (g.parts source).map Part.mark? = marks.map some)
    (hSound : g.complaints source = []) : outlineAll (g.elements source) = marks := by
  obtain ⟨hFaults, hUnclosed⟩ := List.append_eq_nil_iff.mp hSound
  obtain ⟨hWhole, hOutline⟩ := Assembly.outline_growAll (a := .start (.empty ⟨"", none⟩))
    (by simp [Assembly.start]) hMarks hFaults
  have hScopes : (g.assembly source).scopes = [] := by
    refine List.eq_nil_iff_forall_not_mem.mpr ?_
    intro scope hMem
    cases scope with
    | broken => exact hWhole hMem
    | conditional polarity name nameSpan span body =>
        have hComplaint := List.filterMap_eq_nil_iff.mp hUnclosed _ (List.mem_reverse.mpr hMem)
        simp [Assembly.unclosed?] at hComplaint
  change (g.assembly source).outline = _ at hOutline
  rw [Assembly.outline, hScopes] at hOutline
  simpa [elements, Assembly.outline, Assembly.start, outlineAll] using hOutline

/-- A source without faults is written like the tree that is read from it. This
holds in any markup. -/
theorem printing_of_sound (hSound : g.complaints source = []) :
    Printing g.markup (g.elements source) source [] := by
  rcases Lexer.complains_or_spelled (Lexer.valid_start g.markup source) rfl with
    ⟨c, hMem⟩ | ⟨marks, hMarks, hSpelled⟩
  · have hFault : c ∈ g.complaints source :=
      List.mem_append_left _ (Assembly.mem_faultsAll hMem)
    simp [hSound] at hFault
  · have hOutline := outlineAll_elements hMarks hSound
    have hLegible : Legible g.markup (g.elements source) :=
      legible_of_from (from_of_mem_elements g source)
    obtain ⟨left, right, hText, hPrinting, hRight⟩ := hLegible [] source (by
      rw [List.append_nil, hOutline]
      exact hSpelled)
    cases hRight with
    | nil =>
        obtain rfl : source = left := by simpa using hText
        exact hPrinting

/-- In plain markup a tree is read from every way to write it. -/
theorem elements_of_printing (hPlain : g.markup.IsPlain) {es : List Element}
    (hPrinting : Printing g.markup es source []) :
    g.complaints source = [] ∧ unplacedAll (g.elements source) = unplacedAll es := by
  have hSpelled := hPrinting.spelled .nil (by simp)
  rw [List.append_nil, List.append_nil] at hSpelled
  have hMarks : (g.parts source).map Part.mark? = _ := Lexer.parts_of_spelled hPlain hSpelled rfl
    (Lexer.valid_start g.markup source) rfl (byteLength source)
  obtain ⟨hFaults, es', hSame, hGrow⟩ := Assembly.growAll_of_printing hPrinting hMarks
    (a := .start (.empty ⟨"", none⟩)) (by simp [Assembly.start])
  have hAssembly : g.assembly source = ⟨.empty ⟨"", none⟩, [], es'.reverse⟩ :=
    hGrow.trans (Assembly.addAll_start _ es')
  refine ⟨?_, ?_⟩
  · rw [complaints, hFaults, unclosed, hAssembly]
    rfl
  · rw [elements, hAssembly, List.reverse_reverse, hSame]

/-- The parser accepts exactly its grammar. In plain markup a source is read as
a tree, up to the places in it, if and only if it is a way to write the tree.
The mode has no influence. -/
theorem parse_iff_printing (g : Engine) (hPlain : g.markup.IsPlain) (source : List Char)
    (document : Document) (es : List Element) :
    (∃ t, g.parse source document = .ok t ∧ unplacedAll t.elements = unplacedAll es) ↔
      Printing g.markup es source [] := by
  constructor
  · rintro ⟨t, hParse, hSame⟩
    obtain ⟨hSound, rfl⟩ := parse_eq_ok_iff.mp hParse
    exact (printing_of_sound hSound).of_unplacedAll hSame.symm
  · intro hPrinting
    obtain ⟨hSound, hSame⟩ := elements_of_printing hPlain hPrinting
    exact ⟨_, parse_eq_ok_iff.mpr ⟨hSound, rfl⟩, hSame⟩

theorem parse_standard_of_printing :
    Markup.standard.IsPlain ∧ ∃ t, (Engine.mk .standard .bailOut).parse
        "&{IF NOT a}x${ b }&{ENDIF}".toList ⟨"notice", none⟩ = .ok t ∧
      unplacedAll t.elements = unplacedAll [.conditional .whenFalse (.variable "a" ⟨0, 0⟩)
        [.literal "x" ⟨0, 0⟩, .variable "b" ⟨0, 0⟩] ⟨0, 0⟩] := by
  have hPlain : Markup.standard.IsPlain := by
    rintro (_ | _) d hd <;> cases hd <;>
      simp only [List.cons_append, List.nil_append, List.forall_mem_cons, List.not_mem_nil,
        false_implies, implies_true, and_true] <;> decide +kernel
  refine ⟨hPlain, (parse_iff_printing _ hPlain _ _ _).mpr ?_⟩
  have hGap : Lexer.IsGapRun [' '] := by simp [Lexer.IsGapRun, Lexer.isGap]
  have hNone : Lexer.IsGapRun [] := by simp [Lexer.IsGapRun]
  have hVariables : Markup.standard.variables? = some ⟨['$', '{'], ['}'], by simp, by simp⟩ := rfl
  have hDirectives : Markup.standard.directives? = some ⟨['&', '{'], ['}'], by simp, by simp⟩ := rfl
  have hTest : IsName "a" := by decide +kernel
  have hName : IsName "b" := by decide +kernel
  have hIf : IfTag .standard "a" .whenFalse "&{IF NOT a}".toList :=
    .whenFalse hDirectives hNone hGap (by simp) hGap (by simp) hTest hNone
  have hVariable : VariableTag .standard "b" "${ b }".toList :=
    .mk hVariables hGap hName hGap
  have hEndIf : EndIfTag .standard "&{ENDIF}".toList := .mk hDirectives hNone hNone
  have hUntouched : Markup.standard.Untouched "x".toList "${ b }&{ENDIF}".toList :=
    Markup.untouched_cons.mpr ⟨Markup.openingAt?_eq_none_iff.mp (show
      Markup.standard.openingAt? 0 _ = none by decide), Markup.untouched_nil _ _⟩
  have hBody : Printing .standard [.literal "x" ⟨0, 0⟩, .variable "b" ⟨0, 0⟩]
      ("x".toList ++ ("${ b }".toList ++ [])) "&{ENDIF}".toList :=
    .literal (by simp) hUntouched (by simp) (.variable hVariable .nil)
  exact .conditional hIf hBody hEndIf .nil

end Engine

end Bulletin
