import Bulletin.Template.Variables
import Bulletin.Proofs.Rendering

/-! What the text of a template depends on. Two contexts are compared by the names
that the tree mentions, and a name that nothing mentions makes no difference. -/
namespace Bulletin

namespace Element

/-- The names that a walk over elements meets, depth first and in the order of the
document. The test of a conditional comes before its body, whether or not that is
shown. -/
inductive Mentions : List Element → List String → Prop where
  | finished : Mentions [] []
  | literal {text : String} {span : Span} {es : List Element} {names : List String}
      (hRest : Mentions es names) : Mentions (.literal text span :: es) names
  | «variable» {name : String} {span : Span} {es : List Element} {names : List String}
      (hRest : Mentions es names) : Mentions (.variable name span :: es) (name :: names)
  | conditional {polarity : Polarity} {name : String} {nameSpan span : Span}
      {body es : List Element} {inside names : List String} (hBody : Mentions body inside)
      (hRest : Mentions es names) :
      Mentions (.conditional polarity (.variable name nameSpan) body span :: es)
        (name :: (inside ++ names))

/-- The name is the test of a conditional, at any depth. -/
inductive Tests (name : String) : List Element → Prop where
  | here {polarity : Polarity} {nameSpan span : Span} {body es : List Element} :
      Tests name (.conditional polarity (.variable name nameSpan) body span :: es)
  | inside {polarity : Polarity} {test : Element} {span : Span} {body es : List Element}
      (hBody : Tests name body) : Tests name (.conditional polarity test body span :: es)
  | later {e : Element} {es : List Element} (hRest : Tests name es) : Tests name (e :: es)

variable {es : List Element} {names : List String} {name : String} {parts : List Part}

theorem mentions_namesOfAll (hFrom : ∀ e ∈ es, e.From parts) : Mentions es (namesOfAll es) := by
  refine From.list_induction (P := fun es => Mentions es (namesOfAll es)) ?nil ?literal ?reference
    ?conditional hFrom
  case nil => exact .finished
  case literal =>
    intro text span es _ ih
    exact .literal ih
  case reference =>
    intro name span es _ ih
    exact .variable ih
  case conditional =>
    intro polarity name nameSpan opening closing body es _ _ _ ihBody ih
    exact .conditional ihBody ih

theorem Mentions.mem_of_tests (hMentions : Mentions es names) (hTests : Tests name es) :
    name ∈ names := by
  induction hTests generalizing names with
  | here =>
      cases hMentions with
      | conditional => exact List.mem_cons_self ..
  | inside _ ih =>
      cases hMentions with
      | conditional hBody =>
          exact List.mem_cons_of_mem _ (List.mem_append_left _ (ih hBody))
  | later _ ih =>
      cases hMentions with
      | literal hRest => exact ih hRest
      | «variable» hRest => exact List.mem_cons_of_mem _ (ih hRest)
      | conditional _ hRest =>
          exact List.mem_cons_of_mem _ (List.mem_append_right _ (ih hRest))

end Element

namespace Walk

open Element (Mentions Tests)

variable {k k' : Context} {es : List Element} {pieces : List Piece}
  {stop : Option (String × Span)} {names : List String}

/-- What a walk comes to is mentioned by the elements that it walks over. -/
theorem mem_names (hWalk : Walk k es pieces stop) (hMentions : Mentions es names) {name : String}
    {span : Span} (hPiece : .reference name span ∈ pieces) : name ∈ names := by
  induction hWalk generalizing names with
  | finished => simp at hPiece
  | literal _ ih =>
      cases hMentions with
      | literal hRest => exact ih hRest (by simpa using hPiece)
  | «variable» _ ih =>
      cases hMentions with
      | «variable» hRest =>
          rcases List.mem_cons.mp hPiece with hSame | hPiece
          · cases hSame
            exact List.mem_cons_self ..
          · exact List.mem_cons_of_mem _ (ih hRest hPiece)
  | shown _ _ _ _ ihBody ih =>
      cases hMentions with
      | conditional hBody hRest =>
          refine List.mem_cons_of_mem _ (List.mem_append.mpr ?_)
          exact (List.mem_append.mp hPiece).imp (ihBody hBody) (ih hRest)
  | stopped _ _ _ ihBody =>
      cases hMentions with
      | conditional hBody =>
          exact List.mem_cons_of_mem _ (List.mem_append_left _ (ihBody hBody hPiece))
  | hidden _ _ _ ih =>
      cases hMentions with
      | conditional _ hRest =>
          exact List.mem_cons_of_mem _ (List.mem_append_right _ (ih hRest hPiece))
  | unbound => simp at hPiece

/-- A walk ends early only at a test that is not bound. -/
theorem unbound_of_stop (hWalk : Walk k es pieces stop) {name : String} {nameSpan : Span}
    (hStop : stop = some (name, nameSpan)) : Tests name es ∧ k.get? name = none := by
  induction hWalk with
  | finished => cases hStop
  | literal _ ih => exact (ih hStop).imp_left .later
  | «variable» _ ih => exact (ih hStop).imp_left .later
  | shown _ _ _ _ _ ih => exact (ih hStop).imp_left .later
  | stopped _ _ _ ihBody => exact (ihBody hStop).imp_left .inside
  | hidden _ _ _ ih => exact (ih hStop).imp_left .later
  | unbound hTest =>
      cases hStop
      exact ⟨.here, hTest⟩

/-- A walk goes the same way in another context that has what it looks up. The values
of the tests may be others, if the same ones are true. -/
theorem transfer (hWalk : Walk k es pieces stop)
    (hTested : ∀ name v, Tests name es → k.get? name = some v →
      ∃ v', k'.get? name = some v' ∧ v'.isTruthy = v.isTruthy)
    (hStop : ∀ name nameSpan, stop = some (name, nameSpan) → k'.get? name = none) :
    Walk k' es pieces stop := by
  induction hWalk with
  | finished => exact .finished
  | literal _ ih => exact .literal (ih (fun name v hTests => hTested name v (.later hTests)) hStop)
  | «variable» _ ih =>
      exact .variable (ih (fun name v hTests => hTested name v (.later hTests)) hStop)
  | shown hTest hShown _ _ ihBody ih =>
      obtain ⟨v', hTest', hTruthy⟩ := hTested _ _ .here hTest
      exact .shown hTest' (hTruthy ▸ hShown)
        (ihBody (fun name v hTests => hTested name v (.inside hTests)) nofun)
        (ih (fun name v hTests => hTested name v (.later hTests)) hStop)
  | stopped hTest hShown _ ihBody =>
      obtain ⟨v', hTest', hTruthy⟩ := hTested _ _ .here hTest
      exact .stopped hTest' (hTruthy ▸ hShown)
        (ihBody (fun name v hTests => hTested name v (.inside hTests)) hStop)
  | hidden hTest hHidden _ ih =>
      obtain ⟨v', hTest', hTruthy⟩ := hTested _ _ .here hTest
      exact .hidden hTest' (hTruthy ▸ hHidden)
        (ih (fun name v hTests => hTested name v (.later hTests)) hStop)
  | unbound => exact .unbound (hStop _ _ rfl)

/-- A walk takes notice of a context only as far as it binds the tests, and of
whether they are true. -/
theorem congr (hWalk : Walk k es pieces stop)
    (hAgree : ∀ name, Tests name es →
      (k.get? name).map Value.isTruthy = (k'.get? name).map Value.isTruthy) :
    Walk k' es pieces stop := by
  apply hWalk.transfer
  · intro name v hTests hTest
    have hSame := hAgree name hTests
    rw [hTest, eq_comm] at hSame
    exact Option.map_eq_some_iff.mp hSame
  · intro name nameSpan hStop
    obtain ⟨hTests, hNone⟩ := hWalk.unbound_of_stop hStop
    have hSame := hAgree name hTests
    rw [hNone, eq_comm] at hSame
    exact Option.map_eq_none_iff.mp hSame

end Walk

namespace Template

open Element (Mentions Tests namesOfAll mentions_namesOfAll)

variable {t : Template} {k k' k₀ : Context} {pieces : List Piece} {e : Error}

/-- Only the names among the pieces are looked up when they are written. -/
theorem write_congr (hAgree : ∀ name span, .reference name span ∈ pieces →
    k.get? name = k'.get? name) : t.write k pieces = t.write k' pieces := by
  induction pieces with
  | nil => rfl
  | cons p rest ih =>
      have hHere : t.writePiece k p = t.writePiece k' p := by
        cases p with
        | literal text => rfl
        | reference name span =>
            rw [writePiece, writePiece, lookup, lookup, hAgree name span (List.mem_cons_self ..)]
      rw [write, write, hHere, ih]
      intro name span hMem
      exact hAgree name span (List.mem_cons_of_mem _ hMem)

section Tree

variable {parts : List Part} (hFrom : ∀ e ∈ t.elements, e.From parts)

include hFrom

theorem mentions_elements : Mentions t.elements (namesOfAll t.elements) :=
  mentions_namesOfAll hFrom

theorem mem_variableNames_of_tests {name : String} (hTests : Tests name t.elements) :
    name ∈ t.variableNames :=
  List.mem_eraseDups.mpr ((mentions_elements hFrom).mem_of_tests hTests)

theorem mem_variableNames_of_mem (hResolve : t.resolve k = .ok pieces) {name : String} {span : Span}
    (hPiece : .reference name span ∈ pieces) : name ∈ t.variableNames :=
  List.mem_eraseDups.mpr <|
    ((resolve_eq_ok_iff hFrom).mp hResolve).mem_names (mentions_elements hFrom) hPiece

theorem resolve_congr (hAgree : ∀ name, Tests name t.elements →
    (k.get? name).map Value.isTruthy = (k'.get? name).map Value.isTruthy) :
    t.resolve k = t.resolve k' := by
  obtain ⟨pieces, stop, hWalk⟩ := Walk.exists_of_from k hFrom
  rw [resolve_of_walk hWalk, resolve_of_walk (hWalk.congr hAgree)]

/-- If all tests are bound, resolving does not fail. -/
theorem resolve_of_bound (hBound : ∀ name, Tests name t.elements → k.contains name = true) :
    ∃ pieces, t.resolve k = .ok pieces := by
  obtain ⟨pieces, stop, hWalk⟩ := Walk.exists_of_from k hFrom
  cases stop with
  | none => exact ⟨pieces, resolve_of_walk hWalk⟩
  | some place =>
      obtain ⟨hTests, hNone⟩ := hWalk.unbound_of_stop rfl
      have hSome := hBound _ hTests
      simp [Context.contains, hNone] at hSome

theorem renderPieces_congr (hAgree : ∀ name ∈ t.variableNames, k.get? name = k'.get? name)
    (hResolve : t.resolve k₀ = .ok pieces) :
    t.renderPieces k pieces = t.renderPieces k' pieces :=
  congrArg Writing.toString <| write_congr fun name _ hPiece =>
    hAgree name (mem_variableNames_of_mem hFrom hResolve hPiece)

/-- If the names of the template are bound, a map is all that can stop the
writing. -/
theorem map_of_renderPieces_eq_error (hBound : ∀ name ∈ t.variableNames, k.contains name = true)
    (hResolve : t.resolve k₀ = .ok pieces) (hRender : t.renderPieces k pieces = .error e) :
    ∃ name v, k.get? name = some v ∧ v.HoldsMap ∧ e.kind = .render := by
  obtain ⟨before, name, span, after, kind, problem, rfl, -, hFails, rfl⟩ :=
    renderPieces_eq_error_iff.mp hRender
  have hPiece : .reference name span ∈ before ++ .reference name span :: after :=
    List.mem_append_right _ (List.mem_cons_self ..)
  rw [kind_of_fails hFails]
  cases hFails with
  | unbound hNone =>
      have hSome := hBound name (mem_variableNames_of_mem hFrom hResolve hPiece)
      simp [Context.contains, hNone] at hSome
  | map hValue hMap => exact ⟨name, _, hValue, hMap, rfl⟩

end Tree

end Template

namespace Engine

open Element (Mentions Tests)

variable {g : Engine} {source : List Char} {log : Log} {t : Template}

theorem from_of_parseWith (hRead : (g.parseWith source log).1 = .ok t) :
    ∀ e ∈ t.elements, e.From (g.parts source) := by
  rw [eq_of_parseWith hRead]
  exact from_of_mem_elements g source

/-- The names of a template are all that its text depends on. They are listed once
each, as a walk over the tree first meets them. Contexts that agree on them give the
same pieces and the same text, or the same errors, and if they are bound, nothing is
found unresolved. What pieces there are depends on the tests only, and of their
values only on whether they are true. A name that stands where no context leads is
listed as well. -/
theorem text_depends_on_names (hRead : (g.parseWith source log).1 = .ok t) :
    (∃ names, Mentions t.elements names ∧ FirstSeen names t.variableNames) ∧
    (∀ k k' : Context, (∀ name ∈ t.variableNames, k.get? name = k'.get? name) →
      t.resolve k = t.resolve k' ∧ t.render k = t.render k' ∧
        ∀ k₀ pieces, t.resolve k₀ = .ok pieces →
          t.renderPieces k pieces = t.renderPieces k' pieces) ∧
    (∀ k : Context, (∀ name ∈ t.variableNames, k.contains name = true) →
      (∃ pieces, t.resolve k = .ok pieces) ∧
        (∀ e, t.render k = .error e → e.kind = .render) ∧
          ∀ k₀ pieces, t.resolve k₀ = .ok pieces →
            ∀ e, t.renderPieces k pieces = .error e → e.kind = .render) ∧
    ∀ k k' : Context, (∀ name, Tests name t.elements →
        (k.get? name).map Value.isTruthy = (k'.get? name).map Value.isTruthy) →
      t.resolve k = t.resolve k' := by
  have hFrom := from_of_parseWith hRead
  have hTested {name : String} (hTests : Tests name t.elements) : name ∈ t.variableNames :=
    Template.mem_variableNames_of_tests hFrom hTests
  refine ⟨⟨_, Template.mentions_elements hFrom, firstSeen_eraseDups _⟩, ?_, ?_, ?_⟩
  · intro k k' hAgree
    have hResolve : t.resolve k = t.resolve k' :=
      Template.resolve_congr hFrom fun name hTests => congrArg _ (hAgree name (hTested hTests))
    refine ⟨hResolve, ?_, fun k₀ pieces => Template.renderPieces_congr hFrom hAgree⟩
    unfold Template.render
    rw [hResolve]
    cases hResolved : t.resolve k' with
    | error e => rfl
    | ok pieces => exact Template.renderPieces_congr hFrom hAgree hResolved
  · intro k hBound
    have hKind (k₀ : Context) (pieces : List Piece) (hResolved : t.resolve k₀ = .ok pieces)
        (e : Error) (hRender : t.renderPieces k pieces = .error e) : e.kind = .render := by
      obtain ⟨-, -, -, -, hKind⟩ :=
        Template.map_of_renderPieces_eq_error hFrom hBound hResolved hRender
      exact hKind
    obtain ⟨pieces, hResolved⟩ := Template.resolve_of_bound hFrom fun name hTests =>
      hBound name (hTested hTests)
    refine ⟨⟨pieces, hResolved⟩, ?_, hKind⟩
    intro e hRender
    rw [Template.render, hResolved] at hRender
    exact hKind k pieces hResolved e hRender
  · intro k k' hAgree
    exact Template.resolve_congr hFrom hAgree

set_option maxRecDepth 2000 in
theorem text_depends_on_names_twice :
    ∃ t, ((Engine.mk .standard .accumulate).parseWith "&{IF a}${b}&{ENDIF}${a}".toList
        (.empty ⟨"notice", none⟩)).1 = .ok t ∧ t.variableNames = ["a", "b"] ∧
      t.render (.ofList [("a", .bool true), ("b", .text "x")]) =
        t.render (.ofList [("a", .bool true), ("b", .text "x"), ("c", .nothing)]) ∧
      t.resolve (.ofList [("a", .bool true)]) = t.resolve (.ofList [("a", .text "yes")]) := by
  have hRead : ((Engine.mk .standard .accumulate).parseWith "&{IF a}${b}&{ENDIF}${a}".toList
      (.empty ⟨"notice", none⟩)).1 = .ok ⟨⟨"notice", none⟩, "&{IF a}${b}&{ENDIF}${a}".toList,
        [.conditional .whenTrue (.variable "a" ⟨5, 6⟩) [.variable "b" ⟨7, 11⟩] ⟨0, 19⟩,
          .variable "a" ⟨19, 23⟩]⟩ := by
    with_unfolding_all rfl
  obtain ⟨-, hAgree, -, hTruthy⟩ := text_depends_on_names hRead
  refine ⟨_, hRead, rfl, (hAgree _ _ ?_).2.1, hTruthy _ _ ?_⟩
  · change ∀ name ∈ ["a", "b"], _
    simp only [List.forall_mem_cons]
    exact ⟨rfl, rfl, by simp⟩
  · intro name hTests
    cases hTests with
    | here => rfl
    | inside hBody =>
        cases hBody with
        | later hRest => cases hRest
    | later hRest =>
        cases hRest with
        | later hRest => cases hRest

end Engine

end Bulletin
