import Bulletin.Template
import Bulletin.Proofs.Reading

/-! Where variables and tests stand in a source. Their spans select what the
grammar says of them, also in a document that is complained about and in markup
that is not plain. -/
namespace Bulletin

open Text Lexer

/-- The span selects the text, which stands in the source. -/
def Text.Covers (source : List Char) (span : Span) (text : List Char) : Prop :=
  ∃ left right, source = left ++ text ++ right ∧
    span = ⟨byteLength left, byteLength (left ++ text)⟩

theorem Text.Covers.slice? {source text : List Char} {span : Span}
    (hCovers : Covers source span text) : Text.slice? span source = some text := by
  obtain ⟨left, right, rfl, rfl⟩ := hCovers
  rw [List.append_assoc, byteLength_append]
  exact slice?_append left text right

/-- What the kind of a lexeme says about its text. -/
structure Lexeme.IsSpelled (m : Markup) (x : Lexeme) : Prop where
  opening : ∀ kind, x.kind = .beginTag kind →
    ∃ d, m.delimiters? kind = some d ∧ x.text.toList = d.opening
  closing : ∀ kind, x.kind = .endTag kind →
    ∃ d, m.delimiters? kind = some d ∧ x.text.toList = d.closing
  name : x.kind = .identifier → IsName x.text
  gap : x.kind = .whitespace → IsGapRun x.text.toList

theorem Lexer.Move.isSpelled {m : Markup} {s next : Lexer} {x : Lexeme} (hValid : s.Valid m)
    (hMove : Move m s x next) : x.IsSpelled m := by
  cases hMove with
  | text => constructor <;> simp [take]
  | opening _ hOpening =>
      obtain ⟨hd, -, -⟩ := Markup.openingAt?_sound hOpening
      constructor <;> simp_all [take]
  | closing hTag =>
      have hd := hValid.tag _ hTag
      constructor <;> simp_all [take]
  | broken => constructor <;> simp [take]
  | gap _ _ _ _ _ hGap => constructor <;> simp_all [take]
  | @word _ text _ _ _ _ _ hWord =>
      have hOther : wordKind text = .identifier ∨ ∃ k, wordKind text = .keyword k := by
        unfold wordKind
        cases Keyword.ofText? (String.ofList text) <;> simp
      have hName (hKind : wordKind text = .identifier) : IsName (String.ofList text) :=
        ⟨by simpa using hWord, wordKind_eq_identifier_iff.mp hKind⟩
      rcases hOther with hKind | ⟨k, hKind⟩ <;> constructor <;> simp_all [take]
  | stray => constructor <;> simp [take]

namespace Part

variable {m : Markup} {source left : List Char}

/-- What is known of the place of a part. -/
def Placed (m : Markup) (source : List Char) : Part → Prop
  | .reference name span => ∃ tag, VariableTag m name tag ∧ Covers source span tag
  | .openIf _ name nameSpan _ => IsName name ∧ Covers source nameSpan name.toList
  | _ => True

/-- What was read of a tag, for a reader that has the text `left` behind it. -/
def State.Placed (m : Markup) (source left : List Char) : State → Prop
  | .variableName opening => ∃ d before gap, m.variables? = some d ∧ IsGapRun gap ∧
      left = before ++ (d.opening ++ gap) ∧
      opening = ⟨byteLength before, byteLength (before ++ d.opening)⟩
  | .variableEnd opening name _ => ∃ d before gap gap', m.variables? = some d ∧ IsGapRun gap ∧
      IsName name ∧ IsGapRun gap' ∧
      left = before ++ (d.opening ++ gap ++ name.toList ++ gap') ∧
      opening = ⟨byteLength before, byteLength (before ++ d.opening)⟩
  | .directiveEnd _ (.ifName _ name nameSpan) _ =>
      IsName name ∧ Covers source nameSpan name.toList
  | .skipping held => ∀ p ∈ held, p.Placed m source
  | _ => True

theorem outsideStep_placed {x : Lexeme} (hSpelled : x.IsSpelled m)
    (hSpan : x.span = ⟨byteLength left, byteLength (left ++ x.text.toList)⟩) :
    (∀ p ∈ (outsideStep x).1, p.Placed m source) ∧
      (outsideStep x).2.Placed m source (left ++ x.text.toList) := by
  unfold outsideStep
  split
  · simp [Placed, State.Placed]
  · next hKind =>
      obtain ⟨d, hd, hText⟩ := hSpelled.opening _ hKind
      refine ⟨by simp, d, left, [], hd, by simp [IsGapRun], by simp [hText], ?_⟩
      rw [hSpan, hText]
  · simp [State.Placed]
  · simp [State.Placed]
  · simp [State.Placed]
  · simp [Placed, State.Placed]

theorem skipStep_placed {x : Lexeme} {held : List Part} (hHeld : ∀ p ∈ held, p.Placed m source)
    (hSpelled : x.IsSpelled m)
    (hSpan : x.span = ⟨byteLength left, byteLength (left ++ x.text.toList)⟩) :
    (∀ p ∈ (skipStep held x).1, p.Placed m source) ∧
      (skipStep held x).2.Placed m source (left ++ x.text.toList) := by
  obtain ⟨hParts, hNext⟩ : (∀ p ∈ (outsideStep x).1, p.Placed m source) ∧ _ :=
    outsideStep_placed hSpelled hSpan
  unfold skipStep
  split
  · exact ⟨hHeld, trivial⟩
  · exact ⟨List.forall_mem_append.mpr ⟨hHeld, hParts⟩, hNext⟩
  · exact ⟨List.forall_mem_append.mpr ⟨hHeld, hParts⟩, hNext⟩
  · exact ⟨by simp, hHeld⟩

theorem mismatchStep_placed {x : Lexeme} {wanted : Expectation} {held : List Part}
    (hHeld : ∀ p ∈ held, p.Placed m source) (hSpelled : x.IsSpelled m)
    (hSpan : x.span = ⟨byteLength left, byteLength (left ++ x.text.toList)⟩) :
    (∀ p ∈ (mismatchStep wanted held x).1, p.Placed m source) ∧
      (mismatchStep wanted held x).2.Placed m source (left ++ x.text.toList) := by
  obtain ⟨hParts, hNext⟩ := skipStep_placed hHeld hSpelled hSpan
  unfold mismatchStep
  split
  · exact ⟨hParts, hNext⟩
  · exact ⟨List.forall_mem_cons.mpr ⟨trivial, hParts⟩, hNext⟩

/-- What a tag amounts to if it goes wrong has no place to know of. -/
theorem State.placed_of_demand? {state : State} {wanted : Expectation} {last : Span}
    {held : List Part} (hDemand : state.demand? = some (wanted, last, held)) :
    ∀ p ∈ held, p.Placed m source := by
  intro p hp
  obtain rfl | ⟨span, rfl⟩ := eq_of_mem_held hDemand p hp <;> trivial

/-- A gap inside a tag changes nothing. -/
theorem State.Placed.gap {state : State} {gap : List Char} (hPlaced : state.Placed m source left)
    (hGap : IsGapRun gap) : state.Placed m source (left ++ gap) := by
  have hRun {other : List Char} (hOther : IsGapRun other) : IsGapRun (other ++ gap) :=
    fun c hc => (List.mem_append.mp hc).elim (hOther c) (hGap c)
  cases state with
  | variableName opening =>
      obtain ⟨d, before, other, hd, hOther, rfl, hOpening⟩ := hPlaced
      exact ⟨d, before, other ++ gap, hd, hRun hOther, by simp, hOpening⟩
  | variableEnd opening name nameSpan =>
      obtain ⟨d, before, other, last, hd, hOther, hName, hLast, rfl, hOpening⟩ := hPlaced
      exact ⟨d, before, other, last ++ gap, hd, hOther, hName, hRun hLast, by simp, hOpening⟩
  | directiveEnd opening directive last => cases directive <;> exact hPlaced
  | outside => trivial
  | directiveWord => trivial
  | ifTest => trivial
  | ifNotTest => trivial
  | skipping held => exact hPlaced

theorem fit_placed {x : Lexeme} {state next : State} {parts : List Part}
    (hFit : Fit x state parts next) (hPlaced : state.Placed m source left)
    (hSpelled : x.IsSpelled m)
    (hSpan : x.span = ⟨byteLength left, byteLength (left ++ x.text.toList)⟩)
    (hSource : left ++ x.text.toList <+: source) :
    (∀ p ∈ parts, p.Placed m source) ∧ next.Placed m source (left ++ x.text.toList) := by
  obtain ⟨right, hSource⟩ := hSource
  have hHere : Covers source x.span x.text.toList := ⟨left, right, hSource.symm, hSpan⟩
  cases hFit with
  | name hKind =>
      obtain ⟨d, before, gap, hd, hGap, rfl, hOpening⟩ := hPlaced
      exact ⟨by simp, d, before, gap, [], hd, hGap, hSpelled.name hKind, by simp [IsGapRun],
        by simp, hOpening⟩
  | @endOfVariable opening nameSpan name hKind =>
      obtain ⟨d, before, gap, last, hd, hGap, hName, hLast, rfl, rfl⟩ := hPlaced
      obtain ⟨e, he, hText⟩ := hSpelled.closing _ hKind
      obtain rfl : d = e := Option.some.inj (hd.symm.trans he)
      have hTag : VariableTag m name _ := .mk hd hGap hName hLast
      refine ⟨List.forall_mem_singleton.mpr ⟨_, hTag, before, right, ?_, ?_⟩, trivial⟩
      · rw [← hSource, hText]
        simp
      · rw [hSpan, hText]
        simp only [Span.cover, byteLength_append, Span.mk.injEq]
        omega
  | ifWord => exact ⟨by simp, trivial⟩
  | endIfWord => exact ⟨by simp, trivial⟩
  | elseWord => exact ⟨by simp [Part.Placed], by simp [State.Placed]⟩
  | test hKind => exact ⟨by simp, hSpelled.name hKind, hHere⟩
  | notWord => exact ⟨by simp, trivial⟩
  | notTest hKind => exact ⟨by simp, hSpelled.name hKind, hHere⟩
  | @endOfDirective opening last directive =>
      refine ⟨List.forall_mem_singleton.mpr ?_, trivial⟩
      cases directive with
      | ifName polarity name nameSpan => exact hPlaced
      | endIf => trivial

/-- Reading a lexeme gives parts in their places, and the reader knows the place
of what it has read of a tag. -/
theorem step_placed {x : Lexeme} {state : State} (hPlaced : state.Placed m source left)
    (hSpelled : x.IsSpelled m)
    (hSpan : x.span = ⟨byteLength left, byteLength (left ++ x.text.toList)⟩)
    (hSource : left ++ x.text.toList <+: source) :
    (∀ p ∈ (step state x).1, p.Placed m source) ∧
      (step state x).2.Placed m source (left ++ x.text.toList) := by
  refine step_elim (fun result => (∀ p ∈ result.1, p.Placed m source) ∧
    result.2.Placed m source (left ++ x.text.toList)) ?_ ?_ ?_ ?_
  · exact fun parts next hFit => fit_placed hFit hPlaced hSpelled hSpan hSource
  · exact fun wanted last held hDemand =>
      mismatchStep_placed (State.placed_of_demand? hDemand) hSpelled hSpan
  · exact fun _ => outsideStep_placed hSpelled hSpan
  · rintro held rfl
    exact skipStep_placed hPlaced hSpelled hSpan

theorem finish_placed {state : State} (hPlaced : state.Placed m source left) (stop : Nat) :
    ∀ p ∈ finish stop state, p.Placed m source := by
  cases hDemand : state.demand? with
  | some demand =>
      obtain ⟨wanted, last, held⟩ := demand
      rw [finish_of_demand? hDemand]
      exact List.forall_mem_cons.mpr ⟨trivial, State.placed_of_demand? hDemand⟩
  | none =>
      cases state with
      | outside => simp [finish, State.demand?]
      | skipping held => exact hPlaced
      | _ => cases hDemand

end Part

/-- Every variable and every test that is read from a source stands where its
span says. -/
theorem Lexer.parts_placed {m : Markup} {s : Lexer} {source left : List Char} {stop : Nat}
    {state : Part.State} (hValid : s.Valid m) (hSource : source = left ++ s.rest)
    (hOffset : s.offset = byteLength left) (hPlaced : state.Placed m source left) :
    ∀ p ∈ s.parts m stop state, p.Placed m source := by
  induction hMeasure : s.remaining using Nat.strongRecOn generalizing s left state with
  | ind n ih =>
      subst hMeasure
      cases hStep : step m s with
      | none =>
          rw [parts_of_none hStep]
          exact Part.finish_placed hPlaced stop
      | some result =>
          obtain ⟨x, next⟩ := result
          have hMove := step_move hValid hStep
          obtain ⟨hRest, hNext, hSpan⟩ := hMove.span
          have hSpelled := hMove.isSpelled hValid
          have hLess := step_remaining_lt hStep
          have hAhead : source = (left ++ x.text.toList) ++ next.rest := by
            rw [hSource, hRest, List.append_assoc]
          have hBehind : next.offset = byteLength (left ++ x.text.toList) := by
            rw [hNext, hOffset, byteLength_append]
          by_cases hKind : x.kind = .whitespace
          · rw [parts_of_whitespace hStep hKind]
            exact ih _ hLess (hMove.valid hValid) hAhead hBehind
              (hPlaced.gap (hSpelled.gap hKind)) rfl
          · rw [hOffset, hBehind] at hSpan
            obtain ⟨hParts, hState⟩ := Part.step_placed hPlaced hSpelled hSpan
              ⟨next.rest, hAhead.symm⟩
            rw [parts_of_visible hStep hKind]
            refine List.forall_mem_append.mpr ⟨List.forall_mem_append.mpr ⟨?_, hParts⟩, ?_⟩
            · cases x.complaint? <;> simp [Part.Placed]
            · exact ih _ hLess (hMove.valid hValid) hAhead hBehind hState rfl

theorem Engine.parts_placed (g : Engine) (source : List Char) :
    ∀ p ∈ g.parts source, p.Placed g.markup source := by
  have hSource : source = [] ++ (Lexer.start source).rest := rfl
  exact Lexer.parts_placed (Lexer.valid_start g.markup source) hSource rfl trivial

end Bulletin
