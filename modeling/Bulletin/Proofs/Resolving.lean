import Bulletin.Render
import Bulletin.Proofs.Outline

/-! Deciding conditionals. The walk over the tree is given by recursion on the
tree; the stack of bodies that wait goes through the same elements. -/
namespace Bulletin

open Element

/-- A conditional shows its body exactly if the test comes out as it demands. -/
theorem Polarity.selects_iff {polarity : Polarity} {truthy : Bool} :
    polarity.selects truthy = true ↔ (truthy = true ↔ polarity = .whenTrue) := by
  cases polarity <;> cases truthy <;> decide

/-- The walk over elements, depth first and in the order of the document. It
gathers pieces until it has seen all elements, or until it comes to a test that
is not bound, which it names with its place. Nothing under a conditional that is
not shown is looked at. -/
inductive Walk (k : Context) : List Element → List Piece → Option (String × Span) → Prop where
  | finished : Walk k [] [] none
  | literal {text : String} {span : Span} {es : List Element} {pieces : List Piece}
      {stop : Option (String × Span)} (hRest : Walk k es pieces stop) :
      Walk k (.literal text span :: es) (.literal text :: pieces) stop
  | «variable» {name : String} {span : Span} {es : List Element} {pieces : List Piece}
      {stop : Option (String × Span)} (hRest : Walk k es pieces stop) :
      Walk k (.variable name span :: es) (.reference name span :: pieces) stop
  | shown {polarity : Polarity} {name : String} {nameSpan span : Span} {v : Value}
      {body es : List Element} {inside pieces : List Piece} {stop : Option (String × Span)}
      (hTest : k.get? name = some v) (hShown : v.isTruthy = true ↔ polarity = .whenTrue)
      (hBody : Walk k body inside none) (hRest : Walk k es pieces stop) :
      Walk k (.conditional polarity (.variable name nameSpan) body span :: es)
        (inside ++ pieces) stop
  | stopped {polarity : Polarity} {name : String} {nameSpan span : Span} {v : Value}
      {body es : List Element} {inside : List Piece} {stop : String × Span}
      (hTest : k.get? name = some v) (hShown : v.isTruthy = true ↔ polarity = .whenTrue)
      (hBody : Walk k body inside (some stop)) :
      Walk k (.conditional polarity (.variable name nameSpan) body span :: es) inside
        (some stop)
  | hidden {polarity : Polarity} {name : String} {nameSpan span : Span} {v : Value}
      {body es : List Element} {pieces : List Piece} {stop : Option (String × Span)}
      (hTest : k.get? name = some v) (hHidden : ¬(v.isTruthy = true ↔ polarity = .whenTrue))
      (hRest : Walk k es pieces stop) :
      Walk k (.conditional polarity (.variable name nameSpan) body span :: es) pieces stop
  | unbound {polarity : Polarity} {name : String} {nameSpan span : Span}
      {body es : List Element} (hTest : k.get? name = none) :
      Walk k (.conditional polarity (.variable name nameSpan) body span :: es) []
        (some (name, nameSpan))

namespace Walk

variable {t : Template} {k : Context} {es : List Element} {pieces : List Piece}
  {stop : Option (String × Span)} {parts : List Part}

/-- Every tree that goes back to parts can be walked over, to its end or to a
test that is not bound. -/
theorem exists_of_from (k : Context) (hFrom : ∀ e ∈ es, e.From parts) :
    ∃ pieces stop, Walk k es pieces stop := by
  refine Element.From.list_induction (P := fun es => ∃ pieces stop, Walk k es pieces stop)
    ?nil ?literal ?reference ?conditional hFrom
  case nil => exact ⟨[], none, .finished⟩
  case literal =>
    rintro text span es _ ⟨pieces, stop, hRest⟩
    exact ⟨_, stop, .literal hRest⟩
  case reference =>
    rintro name span es _ ⟨pieces, stop, hRest⟩
    exact ⟨_, stop, .variable hRest⟩
  case conditional =>
    rintro polarity name nameSpan opening closing body es _ _ _ ⟨inside, bodyStop, hBody⟩
      ⟨pieces, stop, hRest⟩
    cases hTest : k.get? name with
    | none => exact ⟨[], _, .unbound hTest⟩
    | some v =>
        by_cases hShown : v.isTruthy = true ↔ polarity = .whenTrue
        · cases bodyStop with
          | none => exact ⟨_, stop, .shown hTest hShown hBody hRest⟩
          | some place => exact ⟨_, _, .stopped hTest hShown hBody⟩
        · exact ⟨pieces, stop, .hidden hTest hShown hRest⟩

/-- What a walk comes to stands in the parts that the tree goes back to. -/
theorem mem_parts (hWalk : Walk k es pieces stop) (hFrom : ∀ e ∈ es, e.From parts) :
    (∀ name span, .reference name span ∈ pieces → .reference name span ∈ parts) ∧
      ∀ name nameSpan, stop = some (name, nameSpan) →
        ∃ polarity span, .openIf polarity name nameSpan span ∈ parts := by
  have hBodyOf {polarity : Polarity} {name : String} {nameSpan span : Span}
      {body : List Element}
      (hElement : From parts (.conditional polarity (.variable name nameSpan) body span)) :
      (∃ opening, .openIf polarity name nameSpan opening ∈ parts) ∧
        ∀ e ∈ body, e.From parts := by
    cases hElement with
    | conditional hOpening _ hBody => exact ⟨⟨_, hOpening⟩, hBody⟩
  induction hWalk with
  | finished => simp
  | literal _ ih =>
      obtain ⟨hPieces, hStop⟩ := ih (List.forall_mem_cons.mp hFrom).2
      exact ⟨by simpa using hPieces, hStop⟩
  | «variable» _ ih =>
      obtain ⟨hElement, hRest⟩ := List.forall_mem_cons.mp hFrom
      obtain ⟨hPieces, hStop⟩ := ih hRest
      refine ⟨?_, hStop⟩
      intro name span hMem
      rcases List.mem_cons.mp hMem with hSame | hMem
      · cases hSame
        cases hElement with
        | «variable» hPart => exact hPart
      · exact hPieces name span hMem
  | shown _ _ _ _ ihBody ih =>
      obtain ⟨hElement, hRest⟩ := List.forall_mem_cons.mp hFrom
      obtain ⟨hInside, -⟩ := ihBody (hBodyOf hElement).2
      obtain ⟨hPieces, hStop⟩ := ih hRest
      refine ⟨?_, hStop⟩
      intro name span hMem
      exact (List.mem_append.mp hMem).elim (hInside name span) (hPieces name span)
  | stopped _ _ _ ihBody => exact ihBody (hBodyOf (List.forall_mem_cons.mp hFrom).1).2
  | hidden _ _ _ ih => exact ih (List.forall_mem_cons.mp hFrom).2
  | unbound =>
      refine ⟨by simp, ?_⟩
      intro name nameSpan hStop
      cases hStop
      obtain ⟨opening, hOpening⟩ := (hBodyOf (List.forall_mem_cons.mp hFrom).1).1
      exact ⟨_, opening, hOpening⟩

/-- The elements on top of the stack are gone through as the walk says, whatever
waits below them. -/
theorem piecesFrom_eq (hWalk : Walk k es pieces stop) (t : Template) (found : List Piece)
    (outer : List (List Element)) :
    t.piecesFrom k found (es :: outer) =
      stop.elim (t.piecesFrom k (pieces.reverse ++ found) outer) fun place =>
        .error (t.errorAt (.unresolved place.1) place.2) := by
  have hDecide {name : String} {nameSpan : Span} {v : Value} (hTest : k.get? name = some v) :
      t.decideTest k (.variable name nameSpan) = .ok v.isTruthy := by
    simp only [Template.decideTest, Template.lookup, hTest]
    rfl
  induction hWalk generalizing found outer with
  | finished => rw [Template.piecesFrom, List.reverse_nil, List.nil_append, Option.elim_none]
  | literal _ ih =>
      rw [Template.piecesFrom, ih, List.reverse_cons, List.append_assoc, List.singleton_append]
  | «variable» _ ih =>
      rw [Template.piecesFrom, ih, List.reverse_cons, List.append_assoc, List.singleton_append]
  | shown hTest hShown _ _ ihBody ih =>
      rw [Template.piecesFrom, hDecide hTest]
      change (if _ then _ else _) = _
      rw [if_pos (Polarity.selects_iff.mpr hShown), ihBody, Option.elim_none, ih,
        List.reverse_append, List.append_assoc]
  | stopped hTest hShown _ ihBody =>
      rw [Template.piecesFrom, hDecide hTest]
      change (if _ then _ else _) = _
      rw [if_pos (Polarity.selects_iff.mpr hShown), ihBody]
      rfl
  | hidden hTest hHidden _ ih =>
      rw [Template.piecesFrom, hDecide hTest]
      change (if _ then _ else _) = _
      rw [if_neg (mt Polarity.selects_iff.mp hHidden), ih]
  | unbound hTest =>
      rw [Template.piecesFrom, Template.decideTest, Template.lookup, hTest]
      rfl

end Walk

namespace Template

variable {t : Template} {k : Context} {pieces : List Piece} {stop : Option (String × Span)}
  {parts : List Part} {e : Error}

theorem resolve_of_walk (hWalk : Walk k t.elements pieces stop) :
    t.resolve k = stop.elim (.ok pieces) fun place =>
      .error (t.errorAt (.unresolved place.1) place.2) := by
  rw [resolve, hWalk.piecesFrom_eq, List.append_nil, piecesFrom, List.reverse_reverse]

/-- Resolving gives the pieces of the walk. -/
theorem resolve_eq_ok_iff (hFrom : ∀ e ∈ t.elements, e.From parts) :
    t.resolve k = .ok pieces ↔ Walk k t.elements pieces none := by
  constructor
  · intro hResolve
    obtain ⟨pieces', stop, hWalk⟩ := Walk.exists_of_from k hFrom
    rw [resolve_of_walk hWalk] at hResolve
    cases stop with
    | none =>
        obtain rfl : pieces' = pieces := Except.ok.inj hResolve
        exact hWalk
    | some place => cases hResolve
  · intro hWalk
    exact resolve_of_walk hWalk

/-- Resolving fails where the walk comes to a test that is not bound. -/
theorem resolve_eq_error_iff (hFrom : ∀ e ∈ t.elements, e.From parts) :
    t.resolve k = .error e ↔ ∃ pieces name nameSpan,
      Walk k t.elements pieces (some (name, nameSpan)) ∧
        e = t.errorAt (.unresolved name) nameSpan := by
  constructor
  · intro hResolve
    obtain ⟨pieces, stop, hWalk⟩ := Walk.exists_of_from k hFrom
    rw [resolve_of_walk hWalk] at hResolve
    cases stop with
    | none => cases hResolve
    | some place => exact ⟨pieces, place.1, place.2, hWalk, (Except.error.inj hResolve).symm⟩
  · rintro ⟨pieces, name, nameSpan, hWalk, rfl⟩
    exact resolve_of_walk hWalk

end Template

end Bulletin
