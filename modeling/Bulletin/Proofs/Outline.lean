import Bulletin.Proofs.Marks
import Bulletin.Proofs.Reports

/-! The tree against the parts that it is put together from. Every element goes
back to parts, and a tree without faults has its parts in their order. -/
namespace Bulletin

namespace Element

mutual

/-- The element without the places it came from. -/
def unplaced : Element → Element
  | .literal text _ => .literal text ⟨0, 0⟩
  | .variable name _ => .variable name ⟨0, 0⟩
  | .conditional polarity test body _ =>
    .conditional polarity test.unplaced (unplacedAll body) ⟨0, 0⟩

def unplacedAll : List Element → List Element
  | [] => []
  | e :: es => e.unplaced :: unplacedAll es

end

theorem unplacedAll_eq_map (es : List Element) : unplacedAll es = es.map unplaced := by
  induction es with
  | nil => rfl
  | cons e es ih => rw [unplacedAll, ih, List.map_cons]

mutual

/-- The row of texts and tags that an element is written as. -/
def outline : Element → List Mark
  | .literal text _ => [.text text]
  | .variable name _ => [.reference name]
  | .conditional polarity test body _ => .openIf polarity test.label :: outlineAll body ++ [.close]

def outlineAll : List Element → List Mark
  | [] => []
  | e :: es => e.outline ++ outlineAll es

end

@[simp]
theorem outlineAll_append (es es' : List Element) :
    outlineAll (es ++ es') = outlineAll es ++ outlineAll es' := by
  induction es with
  | nil => rfl
  | cons e es ih => rw [List.cons_append, outlineAll, outlineAll, ih, List.append_assoc]

/-- The element goes back to the parts, with its spans. The test of a
conditional is a variable where the name stands. -/
inductive From (parts : List Part) : Element → Prop where
  | literal {text : String} {span : Span} (hPart : .text text span ∈ parts) :
      From parts (.literal text span)
  | «variable» {name : String} {span : Span} (hPart : .reference name span ∈ parts) :
      From parts (.variable name span)
  | conditional {polarity : Polarity} {name : String} {nameSpan opening closing : Span}
      {body : List Element} (hOpening : .openIf polarity name nameSpan opening ∈ parts)
      (hClosing : .close closing ∈ parts) (hBody : ∀ e ∈ body, From parts e) :
      From parts
        (.conditional polarity (.variable name nameSpan) body (opening.cover closing))

/-- Induction over elements that go back to parts, with one case for each way an
element can begin the list. -/
theorem From.list_induction {parts : List Part} {P : List Element → Prop} (hNil : P [])
    (hLiteral : ∀ text span es, .text text span ∈ parts → P es → P (.literal text span :: es))
    (hVariable : ∀ name span es, .reference name span ∈ parts → P es →
      P (.variable name span :: es))
    (hConditional : ∀ polarity name nameSpan opening closing body es,
      .openIf polarity name nameSpan opening ∈ parts → .close closing ∈ parts →
        (∀ e ∈ body, From parts e) → P body → P es →
          P (.conditional polarity (.variable name nameSpan) body (opening.cover closing) :: es))
    {es : List Element} (hFrom : ∀ e ∈ es, From parts e) : P es := by
  have hList (es : List Element) (hAll : ∀ e ∈ es, ∀ more, P more → P (e :: more)) : P es := by
    induction es with
    | nil => exact hNil
    | cons e es ih =>
        obtain ⟨hHead, hTail⟩ := List.forall_mem_cons.mp hAll
        exact hHead es (ih hTail)
  refine hList es fun e hMem => ?_
  have hElement := hFrom e hMem
  clear hMem
  induction hElement with
  | literal hPart => exact fun more => hLiteral _ _ more hPart
  | «variable» hPart => exact fun more => hVariable _ _ more hPart
  | conditional hOpening hClosing hBody ih =>
      exact fun more => hConditional _ _ _ _ _ _ more hOpening hClosing hBody (hList _ ih)

end Element

open Element

/-- The conditional and its body so far go back to the parts. -/
def Scope.From (parts : List Part) : Scope → Prop
  | .conditional polarity name nameSpan span body =>
    .openIf polarity name nameSpan span ∈ parts ∧ ∀ e ∈ body, Element.From parts e
  | .broken => True

/-- The marks of a conditional without its end. -/
def Scope.outline : Scope → List Mark
  | .conditional polarity name _ _ body => .openIf polarity name :: outlineAll body.reverse
  | .broken => []

namespace Assembly

variable {a : Assembly} {parts : List Part} {p : Part} {mark : Mark}

/-- The tree so far goes back to the parts. -/
structure From (parts : List Part) (a : Assembly) : Prop where
  scopes : ∀ scope ∈ a.scopes, scope.From parts
  elements : ∀ e ∈ a.elements, Element.From parts e

theorem From.add {e : Element} (hFrom : a.From parts) (hElement : Element.From parts e) :
    (a.add e).From parts := by
  obtain ⟨log, scopes, elements⟩ := a
  obtain ⟨hScopes, hElements⟩ := hFrom
  cases scopes with
  | nil => exact ⟨hScopes, List.forall_mem_cons.mpr ⟨hElement, hElements⟩⟩
  | cons scope outer =>
      cases scope with
      | broken => exact ⟨hScopes, hElements⟩
      | conditional polarity name nameSpan span body =>
          obtain ⟨⟨hOpening, hBody⟩, hOuter⟩ := List.forall_mem_cons.mp hScopes
          refine ⟨List.forall_mem_cons.mpr ⟨⟨hOpening, ?_⟩, hOuter⟩, hElements⟩
          exact List.forall_mem_cons.mpr ⟨hElement, hBody⟩

theorem From.enter {scope : Scope} (hFrom : a.From parts) (hScope : scope.From parts) :
    (a.enter scope).From parts :=
  ⟨List.forall_mem_cons.mpr ⟨hScope, hFrom.scopes⟩, hFrom.elements⟩

theorem From.grow (hFrom : a.From parts) (hPart : p ∈ parts) : (a.grow p).From parts := by
  cases p with
  | complaint c => exact hFrom
  | text text span => exact hFrom.add (.literal hPart)
  | reference name span => exact hFrom.add (.variable hPart)
  | openIf polarity name nameSpan span => exact hFrom.enter ⟨hPart, by simp⟩
  | openBroken => exact hFrom.enter trivial
  | close span =>
      obtain ⟨log, scopes, elements⟩ := a
      cases scopes with
      | nil => exact hFrom
      | cons scope outer =>
          obtain ⟨hScope, hOuter⟩ := List.forall_mem_cons.mp hFrom.scopes
          have hRest : From parts ⟨log, outer, elements⟩ := ⟨hOuter, hFrom.elements⟩
          cases scope with
          | broken => exact hRest
          | conditional polarity name nameSpan opening body =>
              refine hRest.add (.conditional hScope.1 hPart ?_)
              intro e hMem
              exact hScope.2 e (List.mem_reverse.mp hMem)

theorem From.growAll (hFrom : a.From parts) {more : List Part} (hMore : ∀ p ∈ more, p ∈ parts) :
    (a.growAll more).From parts := by
  induction more generalizing a with
  | nil => exact hFrom
  | cons p more ih =>
      obtain ⟨hPart, hMore⟩ := List.forall_mem_cons.mp hMore
      exact ih (hFrom.grow hPart) hMore

theorem mem_faultsAll {c : Complaint} (hMem : .complaint c ∈ parts) : c ∈ a.faultsAll parts := by
  induction parts generalizing a with
  | nil => simp at hMem
  | cons p parts ih =>
      rcases List.mem_cons.mp hMem with rfl | hMem
      · exact List.mem_append_left _ (by simp [faults])
      · exact List.mem_append_right _ (ih hMem)

/-- The marks of the parts that were taken in so far. -/
def outline (a : Assembly) : List Mark :=
  outlineAll a.elements.reverse ++ a.scopes.reverse.flatMap Scope.outline

theorem outline_add (hSound : .broken ∉ a.scopes) (e : Element) :
    .broken ∉ (a.add e).scopes ∧ (a.add e).outline = a.outline ++ e.outline := by
  obtain ⟨log, scopes, elements⟩ := a
  cases scopes with
  | nil => exact ⟨hSound, by simp [add, outline, outlineAll]⟩
  | cons scope outer =>
      cases scope with
      | broken => simp at hSound
      | conditional polarity name nameSpan span body =>
          refine ⟨by simpa [add] using hSound, ?_⟩
          simp [add, outline, outlineAll, Scope.outline]

/-- A part that is taken in without a fault adds its mark. -/
theorem outline_grow (hSound : .broken ∉ a.scopes) (hMark : p.mark? = some mark)
    (hFaults : a.faults p = []) :
    .broken ∉ (a.grow p).scopes ∧ (a.grow p).outline = a.outline ++ [mark] := by
  cases p with
  | complaint c => cases hMark
  | text text span =>
      cases hMark
      exact outline_add hSound _
  | reference name span =>
      cases hMark
      exact outline_add hSound _
  | openIf polarity name nameSpan span =>
      cases hMark
      refine ⟨by simpa [grow, enter] using hSound, ?_⟩
      simp [grow, enter, outline, outlineAll, Scope.outline]
  | openBroken => cases hMark
  | close span =>
      cases hMark
      obtain ⟨log, scopes, elements⟩ := a
      cases scopes with
      | nil => simp [faults] at hFaults
      | cons scope outer =>
          cases scope with
          | broken => simp at hSound
          | conditional polarity name nameSpan opening body =>
              obtain ⟨hOuter, hOutline⟩ := outline_add (a := ⟨log, outer, elements⟩)
                (fun hMem => hSound (List.mem_cons_of_mem _ hMem))
                (.conditional polarity (.variable name nameSpan) body.reverse (opening.cover span))
              refine ⟨hOuter, hOutline.trans ?_⟩
              simp [outline, Element.outline, Scope.outline, Element.label]

theorem outline_growAll {marks : List Mark} (hSound : .broken ∉ a.scopes)
    (hMarks : parts.map Part.mark? = marks.map some) (hFaults : a.faultsAll parts = []) :
    .broken ∉ (a.growAll parts).scopes ∧ (a.growAll parts).outline = a.outline ++ marks := by
  induction parts generalizing a marks with
  | nil =>
      obtain rfl : marks = [] := by simpa using hMarks.symm
      exact ⟨hSound, by simp⟩
  | cons p parts ih =>
      obtain ⟨mark, marks, rfl⟩ : ∃ mark rest, marks = mark :: rest :=
        List.exists_cons_of_ne_nil (by rintro rfl; simp at hMarks)
      obtain ⟨hMark, hMarks⟩ := List.cons.inj hMarks
      obtain ⟨hHere, hLater⟩ := List.append_eq_nil_iff.mp hFaults
      obtain ⟨hSound, hOutline⟩ := outline_grow hSound hMark hHere
      obtain ⟨hSound, hAll⟩ := ih hSound hMarks hLater
      exact ⟨hSound, by rw [growAll_cons, hAll, hOutline, List.append_assoc, List.singleton_append]⟩

end Assembly

/-- All elements that are read from a source go back to its parts. -/
theorem Engine.from_of_mem_elements (g : Engine) (source : List Char) :
    ∀ e ∈ g.elements source, e.From (g.parts source) := by
  have hStart : Assembly.From (g.parts source) (.start (.empty ⟨"", none⟩)) :=
    ⟨by simp [Assembly.start], by simp [Assembly.start]⟩
  intro e hMem
  exact (hStart.growAll fun _ hPart => hPart).elements e (List.mem_reverse.mp hMem)

end Bulletin
