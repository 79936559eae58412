import Mathlib.Data.List.Forall2
import Bulletin.Proofs.Places
import Bulletin.Proofs.Resolving

/-! What a template is rendered to. The text of a value is given without the
chunks in which it is written, and a document fails at the first piece that has
no text. -/
namespace Bulletin

open Text

namespace Value

mutual

/-- The text of a value. A map has none, and neither has a list with a map
somewhere in it. -/
def format? : Value → Option String
  | nothing => some ""
  | bool b => some (if b then "true" else "false")
  | integer n => some (toString n.toInt)
  | float x => some x.text
  | text s => some s
  | list items => (formatAll? items).map (", ".intercalate)
  | map _ => none

def formatAll? : List Value → Option (List String)
  | [] => some []
  | v :: rest =>
    match format? v, formatAll? rest with
    | some first, some others => some (first :: others)
    | _, _ => none

end

/-- The value is a map, or a list that holds one at any depth. -/
inductive HoldsMap : Value → Prop where
  | map (entries : List (String × Value)) : HoldsMap (.map entries)
  | item {v : Value} {items : List Value} (hMem : v ∈ items) (hMap : v.HoldsMap) :
      HoldsMap (.list items)

mutual

theorem format?_eq_none_iff : ∀ {v : Value}, v.format? = none ↔ v.HoldsMap
  | nothing => ⟨fun hNone => (by cases hNone), fun hMap => (by cases hMap)⟩
  | bool _ => ⟨fun hNone => (by cases hNone), fun hMap => (by cases hMap)⟩
  | integer _ => ⟨fun hNone => (by cases hNone), fun hMap => (by cases hMap)⟩
  | float _ => ⟨fun hNone => (by cases hNone), fun hMap => (by cases hMap)⟩
  | text _ => ⟨fun hNone => (by cases hNone), fun hMap => (by cases hMap)⟩
  | map entries => ⟨fun _ => .map entries, fun _ => rfl⟩
  | list items => by
    rw [format?, Option.map_eq_none_iff, formatAll?_eq_none_iff]
    constructor
    · rintro ⟨v, hMem, hMap⟩
      exact .item hMem hMap
    · intro hMap
      cases hMap with
      | item hMem hMap => exact ⟨_, hMem, hMap⟩

theorem formatAll?_eq_none_iff :
    ∀ {items : List Value}, formatAll? items = none ↔ ∃ v ∈ items, v.HoldsMap
  | [] => by simp [formatAll?]
  | v :: rest => by
    have hHead : v.format? = none ↔ _ := format?_eq_none_iff
    have hRest : formatAll? rest = none ↔ _ := formatAll?_eq_none_iff
    simp only [formatAll?, List.mem_cons, exists_eq_or_imp, ← hHead, ← hRest]
    cases format? v <;> cases formatAll? rest <;> simp

end

end Value

/-- Joining puts the separator before every text but the first. -/
theorem Text.intercalate_cons (separator text : String) (texts : List String) :
    separator.intercalate (text :: texts) = text ++ String.join (texts.map (separator ++ ·)) := by
  induction texts generalizing text with
  | nil => simp
  | cons next texts ih =>
      rw [String.intercalate_cons_cons, ih, List.map_cons, String.join_cons, String.append_assoc,
        String.append_assoc]

theorem Text.intercalate_empty (texts : List String) :
    "".intercalate texts = String.join texts := by
  cases texts with
  | nil => simp
  | cons first others => simp [intercalate_cons]

namespace Writing

theorem toString_nothing : nothing.toString = .ok "" := by
  simp [toString, nothing]

theorem toString_text (s : String) : (text s).toString = .ok s := by
  simp [toString, text]

theorem toString_stopped (e : Error) : (stopped e).toString = .error e := rfl

/-- What comes after a writing is written behind it, unless that was stopped. -/
theorem toString_append (w next : Writing) :
    (w ++ next).toString =
      w.toString.bind fun first => next.toString.map fun second => first ++ second := by
  obtain ⟨chunks, stop?⟩ := w
  cases stop? with
  | some e => rfl
  | none =>
      obtain ⟨more, stop'?⟩ := next
      cases stop'? with
      | some e => rfl
      | none =>
          change Except.ok ("".intercalate (chunks ++ more)) =
            .ok ("".intercalate chunks ++ "".intercalate more)
          rw [Text.intercalate_empty, Text.intercalate_empty, Text.intercalate_empty,
            String.join_append]

end Writing

namespace Value

mutual

/-- A value is written as its text. Where it has none, the writing is stopped,
however much was written before. -/
theorem toString_write (e : Error) :
    ∀ v : Value, (v.write e).toString = v.format?.elim (.error e) .ok
  | nothing => Writing.toString_nothing
  | bool _ => Writing.toString_text _
  | integer _ => Writing.toString_text _
  | float _ => Writing.toString_text _
  | text _ => Writing.toString_text _
  | map _ => Writing.toString_stopped e
  | list [] => Writing.toString_nothing
  | list (v :: rest) => by
    rw [write, writeItems, Writing.toString_append, toString_write e v, toString_writeRest e rest,
      format?, formatAll?]
    cases format? v with
    | none => rfl
    | some first =>
        cases formatAll? rest with
        | none => rfl
        | some others => exact congrArg Except.ok (Text.intercalate_cons ", " first others).symm

theorem toString_writeRest (e : Error) : ∀ items : List Value,
    (writeRest e items).toString =
      (formatAll? items).elim (.error e) fun texts => .ok (String.join (texts.map (", " ++ ·)))
  | [] => Writing.toString_nothing
  | v :: rest => by
    rw [writeRest, Writing.toString_append, Writing.toString_append, Writing.toString_text,
      toString_write e v, toString_writeRest e rest, formatAll?]
    cases format? v with
    | none => rfl
    | some first =>
        cases formatAll? rest with
        | none => rfl
        | some others => simp [Except.bind, Except.map]

end

end Value

/-- A piece is written as the text. A name is, if its value has a text. -/
inductive Piece.Prints (k : Context) : Piece → String → Prop where
  | literal (text : String) : Prints k (.literal text) text
  | reference {name text : String} {span : Span} {v : Value} (hBound : k.get? name = some v)
      (hText : v.format? = some text) : Prints k (.reference name span) text

/-- A piece cannot be written, with the kind of the failure and the problem. -/
inductive Piece.Fails (k : Context) : Piece → ErrorKind → Problem → Prop where
  | unbound {name : String} {span : Span} (hBound : k.get? name = none) :
      Fails k (.reference name span) .unresolvedBinding (.unresolved name)
  | map {name : String} {span : Span} {v : Value} (hBound : k.get? name = some v)
      (hMap : v.HoldsMap) : Fails k (.reference name span) .render (.mapRendered name)

namespace Template

variable {t : Template} {k : Context} {p : Piece} {pieces before after : List Piece}
  {text : String} {texts : List String} {e : Error} {kind : ErrorKind} {problem : Problem}
  {name : String} {span : Span}

theorem writePiece_of_prints (hPrints : p.Prints k text) :
    (t.writePiece k p).toString = .ok text := by
  cases hPrints with
  | literal => exact Writing.toString_text text
  | reference hBound hText =>
      rw [writePiece, lookup, hBound]
      exact (Value.toString_write _ _).trans (by rw [hText]; rfl)

theorem writePiece_of_fails (hFails : (Piece.reference name span).Fails k kind problem) :
    (t.writePiece k (.reference name span)).toString = .error (t.errorAt problem span) := by
  cases hFails with
  | unbound hBound =>
      rw [writePiece, lookup, hBound]
      rfl
  | map hBound hMap =>
      rw [writePiece, lookup, hBound]
      exact (Value.toString_write _ _).trans (by rw [Value.format?_eq_none_iff.mpr hMap]; rfl)

theorem renderPieces_cons (t : Template) (k : Context) (p : Piece) (pieces : List Piece) :
    t.renderPieces k (p :: pieces) = (t.writePiece k p).toString.bind fun first =>
      (t.renderPieces k pieces).map fun second => first ++ second :=
  Writing.toString_append _ _

theorem renderPieces_of_prints (hPrints : List.Forall₂ (Piece.Prints k) pieces texts) :
    t.renderPieces k pieces = .ok (String.join texts) := by
  induction hPrints with
  | nil => exact Writing.toString_nothing
  | cons hPiece _ ih =>
      rw [renderPieces_cons, writePiece_of_prints hPiece, ih, String.join_cons]
      rfl

/-- The first piece that fails decides, whatever comes after it. -/
theorem renderPieces_of_fails (hBefore : ∀ p ∈ before, ∃ text, p.Prints k text)
    (hFails : (Piece.reference name span).Fails k kind problem) (after : List Piece) :
    t.renderPieces k (before ++ .reference name span :: after) =
      .error (t.errorAt problem span) := by
  induction before with
  | nil =>
      rw [List.nil_append, renderPieces_cons, writePiece_of_fails hFails]
      rfl
  | cons p before ih =>
      obtain ⟨⟨text, hText⟩, hBefore⟩ := List.forall_mem_cons.mp hBefore
      rw [List.cons_append, renderPieces_cons, writePiece_of_prints hText, ih hBefore]
      rfl

/-- Either every piece has a text, or there is a first one that fails. -/
theorem prints_or_fails (k : Context) (pieces : List Piece) :
    (∃ texts, List.Forall₂ (Piece.Prints k) pieces texts) ∨
      ∃ before name span after kind problem, pieces = before ++ .reference name span :: after ∧
        (∀ p ∈ before, ∃ text, p.Prints k text) ∧
          (Piece.reference name span).Fails k kind problem := by
  induction pieces with
  | nil => exact Or.inl ⟨[], .nil⟩
  | cons p pieces ih =>
      have hPiece : (∃ text, p.Prints k text) ∨
          ∃ name span kind problem, p = .reference name span ∧ p.Fails k kind problem := by
        cases p with
        | literal text => exact Or.inl ⟨text, .literal text⟩
        | reference name span =>
            cases hBound : k.get? name with
            | none => exact Or.inr ⟨name, span, _, _, rfl, .unbound hBound⟩
            | some v =>
                cases hText : v.format? with
                | none =>
                    have hMap := Value.format?_eq_none_iff.mp hText
                    exact Or.inr ⟨name, span, _, _, rfl, .map hBound hMap⟩
                | some text => exact Or.inl ⟨text, .reference hBound hText⟩
      rcases hPiece with ⟨text, hText⟩ | ⟨name, span, kind, problem, rfl, hFails⟩
      · rcases ih with ⟨texts, hTexts⟩ | ⟨before, name, span, after, kind, problem, rfl, hBefore, hFails⟩
        · exact Or.inl ⟨text :: texts, .cons hText hTexts⟩
        · refine Or.inr ⟨p :: before, name, span, after, kind, problem, rfl, ?_, hFails⟩
          exact List.forall_mem_cons.mpr ⟨⟨text, hText⟩, hBefore⟩
      · exact Or.inr ⟨[], name, span, pieces, kind, problem, rfl, by simp, hFails⟩

theorem renderPieces_eq_ok_iff :
    t.renderPieces k pieces = .ok text ↔
      ∃ texts, List.Forall₂ (Piece.Prints k) pieces texts ∧ text = String.join texts := by
  constructor
  · intro hRender
    rcases prints_or_fails k pieces with ⟨texts, hTexts⟩ |
      ⟨before, name, span, after, kind, problem, rfl, hBefore, hFails⟩
    · rw [renderPieces_of_prints hTexts] at hRender
      exact ⟨texts, hTexts, (Except.ok.inj hRender).symm⟩
    · rw [renderPieces_of_fails hBefore hFails] at hRender
      cases hRender
  · rintro ⟨texts, hTexts, rfl⟩
    exact renderPieces_of_prints hTexts

theorem renderPieces_eq_error_iff :
    t.renderPieces k pieces = .error e ↔
      ∃ before name span after kind problem, pieces = before ++ .reference name span :: after ∧
        (∀ p ∈ before, ∃ text, p.Prints k text) ∧
          (Piece.reference name span).Fails k kind problem ∧ e = t.errorAt problem span := by
  constructor
  · intro hRender
    rcases prints_or_fails k pieces with ⟨texts, hTexts⟩ |
      ⟨before, name, span, after, kind, problem, rfl, hBefore, hFails⟩
    · rw [renderPieces_of_prints hTexts] at hRender
      cases hRender
    · rw [renderPieces_of_fails hBefore hFails] at hRender
      exact ⟨before, name, span, after, kind, problem, rfl, hBefore, hFails,
        (Except.error.inj hRender).symm⟩
  · rintro ⟨before, name, span, after, kind, problem, rfl, hBefore, hFails, rfl⟩
    exact renderPieces_of_fails hBefore hFails after

theorem kind_of_fails (hFails : p.Fails k kind problem) (span : Span) :
    (t.errorAt problem span).kind = kind := by
  cases hFails <;> rfl

end Template

namespace Engine

variable {g : Engine} {source : List Char} {log : Log} {t : Template}

/-- Resolving and rendering do what the tree means, for any two contexts and for
every template that is read, with complaints or without. Resolving walks over
the tree and fails exactly at the first test that is not bound. Rendering the
pieces puts their texts together and fails exactly at the first piece that has
none; the diagnostic covers the whole tag of the variable. -/
theorem resolve_render_iff (hRead : (g.parseWith source log).1 = .ok t) (k₁ k₂ : Context) :
    (∀ pieces, t.resolve k₁ = .ok pieces ↔ Walk k₁ t.elements pieces none) ∧
    (∀ e, t.resolve k₁ = .error e ↔ ∃ pieces name nameSpan,
      Walk k₁ t.elements pieces (some (name, nameSpan)) ∧
        Covers source nameSpan name.toList ∧ e.kind = .unresolvedBinding ∧
          e = .diagnosed (.ofComplaint log.document source ⟨.unresolved name, nameSpan⟩) []) ∧
    ∀ pieces, t.resolve k₁ = .ok pieces →
      (∀ text, t.renderPieces k₂ pieces = .ok text ↔
        ∃ texts, List.Forall₂ (Piece.Prints k₂) pieces texts ∧ text = String.join texts) ∧
      ∀ e, t.renderPieces k₂ pieces = .error e ↔
        ∃ before name span after tag problem, pieces = before ++ .reference name span :: after ∧
          (∀ p ∈ before, ∃ text, p.Prints k₂ text) ∧
            (Piece.reference name span).Fails k₂ e.kind problem ∧
              VariableTag g.markup name tag ∧ Covers source span tag ∧
                e = .diagnosed (.ofComplaint log.document source ⟨problem, span⟩) [] := by
  obtain rfl := eq_of_parseWith hRead
  have hFrom := from_of_mem_elements g source
  refine ⟨fun _ => Template.resolve_eq_ok_iff hFrom, ?_, ?_⟩
  · intro e
    rw [Template.resolve_eq_error_iff hFrom]
    constructor
    · rintro ⟨pieces, name, nameSpan, hWalk, rfl⟩
      obtain ⟨polarity, span, hPart⟩ := (hWalk.mem_parts hFrom).2 name nameSpan rfl
      exact ⟨pieces, name, nameSpan, hWalk, (g.parts_placed source _ hPart).2, rfl, rfl⟩
    · rintro ⟨pieces, name, nameSpan, hWalk, -, -, rfl⟩
      exact ⟨pieces, name, nameSpan, hWalk, rfl⟩
  · intro pieces hResolve
    have hWalk := (Template.resolve_eq_ok_iff hFrom).mp hResolve
    refine ⟨fun _ => Template.renderPieces_eq_ok_iff, fun e => ?_⟩
    rw [Template.renderPieces_eq_error_iff]
    constructor
    · rintro ⟨before, name, span, after, kind, problem, rfl, hBefore, hFails, rfl⟩
      have hPart := (hWalk.mem_parts hFrom).1 name span (by simp)
      obtain ⟨tag, hTag, hCovers⟩ := g.parts_placed source _ hPart
      rw [Template.kind_of_fails hFails]
      exact ⟨before, name, span, after, tag, problem, rfl, hBefore, hFails, hTag, hCovers, rfl⟩
    · rintro ⟨before, name, span, after, tag, problem, rfl, hBefore, hFails, -, -, hError⟩
      exact ⟨before, name, span, after, e.kind, problem, rfl, hBefore, hFails, hError⟩

set_option maxRecDepth 2000 in
theorem resolve_render_standard :
    ∃ t, ((Engine.mk .standard .accumulate).parseWith "&{IF a}${b}&{ENDIF}".toList
        (.empty ⟨"notice", none⟩)).1 = .ok t ∧
      t.resolve (.ofList [("a", .bool true)]) = .ok [.reference "b" ⟨7, 11⟩] ∧
      t.renderPieces (.ofList [("b", .list [.text "x", .bool true])])
        [.reference "b" ⟨7, 11⟩] = .ok "x, true" := by
  have hRead : ((Engine.mk .standard .accumulate).parseWith "&{IF a}${b}&{ENDIF}".toList
      (.empty ⟨"notice", none⟩)).1 = .ok ⟨⟨"notice", none⟩, "&{IF a}${b}&{ENDIF}".toList,
        [.conditional .whenTrue (.variable "a" ⟨5, 6⟩) [.variable "b" ⟨7, 11⟩] ⟨0, 19⟩]⟩ := by
    with_unfolding_all rfl
  obtain ⟨hOk, -, hRender⟩ := resolve_render_iff hRead (.ofList [("a", .bool true)])
    (.ofList [("b", .list [.text "x", .bool true])])
  have hTrue : (Value.bool true).isTruthy = true ↔ Polarity.whenTrue = .whenTrue := by decide
  have hResolve := (hOk [.reference "b" ⟨7, 11⟩]).mpr
    (.shown rfl hTrue (.variable .finished) .finished)
  refine ⟨_, hRead, hResolve, ?_⟩
  refine ((hRender _ hResolve).1 "x, true").mpr ⟨["x, true"], .cons (.reference rfl ?_) .nil, ?_⟩
  · rfl
  · rfl

end Engine

end Bulletin
