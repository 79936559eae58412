import Bulletin.Proofs.Modes
import Bulletin.Proofs.Tags

/-! The reader of lexemes and the reader of the source stay in step. Where the first
is between tags, so is the second, and where the first waits for the rest of a tag, the
second is inside a tag of that kind. Only while a tag is skipped the first does not
know, and then it needs not. -/
namespace Bulletin

open Text Lexer

/-- The kinds of lexemes that stand between tags, or begin one. -/
def TokenKind.IsOutside : TokenKind → Prop
  | rawText | beginTag _ => True
  | _ => False

/-- `kind.Leads before after`: a lexeme of the kind can stand in the tag `before`, or
between tags, and `after` is the tag behind it. -/
inductive TokenKind.Leads : TokenKind → Option TagKind → Option TagKind → Prop where
  | text : Leads .rawText none none
  | opening (kind : TagKind) : Leads (.beginTag kind) none (some kind)
  | closing (kind : TagKind) : Leads (.endTag kind) (some kind) none
  | broken (kind : TagKind) (opening : Span) : Leads (.unclosed kind opening) (some kind) none
  | interior {kind : TokenKind} (tag : TagKind) (hInterior : kind.IsInterior) :
      Leads kind (some tag) (some tag)

theorem TokenKind.Leads.isOutside {kind : TokenKind} {after : Option TagKind}
    (hLeads : kind.Leads none after) : kind.IsOutside := by
  cases hLeads <;> trivial

theorem TokenKind.Leads.not_isOutside {kind : TokenKind} {tag : TagKind}
    {after : Option TagKind} (hLeads : kind.Leads (some tag) after) : ¬ kind.IsOutside := by
  cases hLeads with
  | closing => exact not_false
  | broken => exact not_false
  | interior _ hInterior => cases kind <;> first | exact not_false | exact hInterior.elim

/-- What stands inside a tag does not end it. -/
theorem TokenKind.Leads.eq_of_isInterior {kind : TokenKind} {before after : Option TagKind}
    (hLeads : kind.Leads before after) (hInterior : kind.IsInterior) : after = before := by
  cases hLeads with
  | interior => rfl
  | _ => exact hInterior.elim

theorem TokenKind.Leads.eq_none_of_endTag {kind : TagKind} {before after : Option TagKind}
    (hLeads : (endTag kind).Leads before after) : after = none := by
  cases hLeads with
  | closing => rfl
  | interior _ hInterior => exact hInterior.elim

theorem TokenKind.Leads.eq_some_of_beginTag {kind : TagKind} {before after : Option TagKind}
    (hLeads : (beginTag kind).Leads before after) : after = some kind := by
  cases hLeads with
  | opening => rfl
  | interior _ hInterior => exact hInterior.elim

/-- Each step of the reader of a source leads from the tag that is open to the next. -/
theorem Lexer.Move.leads {m : Markup} {s next : Lexer} {x : Lexeme} (hMove : Move m s x next) :
    x.kind.Leads (s.tag?.map Opening.kind) (next.tag?.map Opening.kind) := by
  cases hMove with
  | text hTag =>
      rw [hTag]
      exact .text
  | opening hTag =>
      rw [hTag]
      exact .opening _
  | closing hTag =>
      rw [hTag]
      exact .closing _
  | broken hTag =>
      rw [hTag]
      exact .broken _ _
  | gap hTag =>
      rw [hTag]
      exact .interior _ trivial
  | word hTag =>
      rw [hTag]
      refine .interior _ ?_
      unfold take wordKind
      split <;> trivial
  | stray hTag =>
      rw [hTag]
      exact .interior _ trivial

/-- What can be wrong with a source for readers that are in step. Nothing is met between
tags that has no place there, and inside a tag neither the end of the source nor
anything that belongs between tags. -/
def Problem.IsInPlace : Problem → Prop
  | .unclosedTag _ | .unexpectedText _ | .elseUsed | .strayEndIf | .unclosedIf _ => True
  | .expected _ (some kind) => ¬ kind.IsOutside
  | _ => False

namespace Part

variable {state next : State} {x : Lexeme} {xs : List Lexeme} {held given : List Part}
  {before after : Option TagKind} {stop : Nat}

/-- What the reader of lexemes comes to, and the state in which it does: a lexeme that
is more than a gap, or the end of the source. -/
structure Meeting where
  state : State
  found? : Option Lexeme

/-- The parts that the reader gives for what it comes to. -/
def Meeting.parts (stop : Nat) (met : Meeting) : List Part :=
  match met.found? with
  | none => finish stop met.state
  | some x => (x.complaint?.map complaint).toList ++ (step met.state x).1

/-- All that the reader comes to from a state on. -/
def meetings (state : State) : List Lexeme → List Meeting
  | [] => [⟨state, none⟩]
  | x :: rest =>
    if x.kind = .whitespace then meetings state rest
    else ⟨state, some x⟩ :: meetings (step state x).2 rest

/-- The reader does nothing else. -/
theorem ofLexemes_eq_flatMap (stop : Nat) (state : State) (xs : List Lexeme) :
    ofLexemes stop state xs = (meetings state xs).flatMap (Meeting.parts stop) := by
  induction xs generalizing state with
  | nil => simp [ofLexemes, meetings, Meeting.parts]
  | cons x xs ih =>
      rw [ofLexemes, meetings]
      split
      · exact ih state
      · rw [List.flatMap_cons, ← ih]
        rfl

/-- What is met is in its place: between tags a text, the beginning of a tag or the end
of the source, and inside a tag something else, which is there. -/
def Meeting.InPlace (met : Meeting) : Prop :=
  (met.state = .outside → ∀ x ∈ met.found?, x.kind.IsOutside) ∧
    (met.state.demand?.isSome = true → ∃ x, met.found? = some x ∧ ¬ x.kind.IsOutside)

/-- If the part is a complaint, readers that are in step can have it. -/
def IsSettled : Part → Prop
  | .complaint c => c.problem.IsInPlace
  | _ => True

/-- The states in which the reader of lexemes can be while the reader of the source is in
a tag of the kind, or in none. -/
def State.Tracks (tag? : Option TagKind) : State → Prop
  | .outside => tag? = none
  | .variableName _ | .variableEnd _ _ _ => tag? = some .variable
  | .directiveWord _ | .ifTest _ _ | .ifNotTest _ _ | .directiveEnd _ _ _ =>
    tag? = some .directive
  | .skipping held => ∀ p ∈ held, p.IsSettled

theorem State.exists_tag_of_demand? (hTracks : state.Tracks before)
    (hDemand : state.demand?.isSome = true) : ∃ kind, before = some kind := by
  cases state with
  | outside => cases hDemand
  | skipping held => cases hDemand
  | _ => exact ⟨_, hTracks⟩

/-- What a tag amounts to if it goes wrong is no complaint. -/
theorem State.isSettled_of_demand? {wanted : Expectation} {last : Span}
    (hDemand : state.demand? = some (wanted, last, held)) : ∀ p ∈ held, p.IsSettled := by
  intro p hp
  obtain rfl | ⟨span, rfl⟩ := eq_of_mem_held hDemand p hp <;> trivial

theorem outsideStep_tracks (hLeads : x.kind.Leads none after) :
    (∀ p ∈ (outsideStep x).1, p.IsSettled) ∧ (outsideStep x).2.Tracks after := by
  unfold outsideStep
  cases hKind : x.kind <;> rw [hKind] at hLeads <;> cases hLeads
  · simp [IsSettled, State.Tracks]
  · next kind => cases kind <;> simp [State.Tracks]

theorem skipStep_tracks (hHeld : ∀ p ∈ held, p.IsSettled) (hLeads : x.kind.Leads before after) :
    (∀ p ∈ (skipStep held x).1, p.IsSettled) ∧ (skipStep held x).2.Tracks after := by
  have hOutside (hKind : x.kind.IsOutside) :
      (∀ p ∈ held ++ (outsideStep x).1, p.IsSettled) ∧ (outsideStep x).2.Tracks after := by
    cases before with
    | some tag => exact absurd hKind hLeads.not_isOutside
    | none =>
        obtain ⟨hParts, hNext⟩ := outsideStep_tracks hLeads
        exact ⟨List.forall_mem_append.mpr ⟨hHeld, hParts⟩, hNext⟩
  unfold skipStep
  split
  · next hKind => exact ⟨hHeld, (hKind ▸ hLeads).eq_none_of_endTag⟩
  · next hKind => exact hOutside (hKind ▸ trivial)
  · next hKind => exact hOutside (hKind ▸ trivial)
  · exact ⟨by simp, hHeld⟩

theorem mismatchStep_tracks {wanted : Expectation} {tag : TagKind}
    (hHeld : ∀ p ∈ held, p.IsSettled) (hLeads : x.kind.Leads (some tag) after) :
    (∀ p ∈ (mismatchStep wanted held x).1, p.IsSettled) ∧
      (mismatchStep wanted held x).2.Tracks after := by
  obtain ⟨hParts, hNext⟩ := skipStep_tracks hHeld hLeads
  have hFound : IsSettled (.complaint ⟨.expected wanted (some x.kind), x.span⟩) :=
    hLeads.not_isOutside
  unfold mismatchStep
  split
  · exact ⟨hParts, hNext⟩
  · exact ⟨List.forall_mem_cons.mpr ⟨hFound, hParts⟩, hNext⟩

theorem fit_tracks (hFit : Fit x state given next) (hTracks : state.Tracks before)
    (hLeads : x.kind.Leads before after) :
    (∀ p ∈ given, p.IsSettled) ∧ next.Tracks after := by
  have hWord (hInterior : x.kind.IsInterior) : after = before := hLeads.eq_of_isInterior hInterior
  cases hFit with
  | name hKind => exact ⟨by simp, (hWord (hKind ▸ trivial)).trans hTracks⟩
  | endOfVariable hKind => exact ⟨by simp [IsSettled], (hKind ▸ hLeads).eq_none_of_endTag⟩
  | ifWord hKind => exact ⟨by simp, (hWord (hKind ▸ trivial)).trans hTracks⟩
  | endIfWord hKind => exact ⟨by simp, (hWord (hKind ▸ trivial)).trans hTracks⟩
  | elseWord => exact ⟨by simp [IsSettled, Problem.IsInPlace], by simp [State.Tracks]⟩
  | test hKind => exact ⟨by simp, (hWord (hKind ▸ trivial)).trans hTracks⟩
  | notWord hKind => exact ⟨by simp, (hWord (hKind ▸ trivial)).trans hTracks⟩
  | notTest hKind => exact ⟨by simp, (hWord (hKind ▸ trivial)).trans hTracks⟩
  | @endOfDirective _ _ directive hKind =>
      refine ⟨?_, (hKind ▸ hLeads).eq_none_of_endTag⟩
      cases directive <;> simp [Directive.finish, IsSettled]

/-- Whatever a lexeme is to the reader of lexemes, the reader is in step behind it, and
complains about nothing out of its place. -/
theorem step_tracks (hTracks : state.Tracks before) (hLeads : x.kind.Leads before after) :
    (∀ p ∈ (step state x).1, p.IsSettled) ∧ (step state x).2.Tracks after := by
  refine step_elim (fun result => (∀ p ∈ result.1, p.IsSettled) ∧ result.2.Tracks after) ?_ ?_ ?_ ?_
  · exact fun given next hFit => fit_tracks hFit hTracks hLeads
  · intro wanted last held hDemand
    obtain ⟨tag, rfl⟩ := State.exists_tag_of_demand? hTracks (by simp [hDemand])
    exact mismatchStep_tracks (State.isSettled_of_demand? hDemand) hLeads
  · rintro rfl
    obtain rfl : before = none := hTracks
    exact outsideStep_tracks hLeads
  · rintro held rfl
    exact skipStep_tracks hTracks hLeads

/-- At the end of the source no tag is open. -/
theorem finish_tracks (hTracks : state.Tracks none) (stop : Nat) :
    ∀ p ∈ finish stop state, p.IsSettled := by
  cases state with
  | outside => simp [finish, State.demand?]
  | skipping held => exact hTracks
  | _ => cases hTracks

theorem isSettled_of_complaint? {c : Complaint} (hComplaint : x.complaint? = some c) :
    IsSettled (.complaint c) := by
  unfold Lexeme.complaint? at hComplaint
  split at hComplaint <;> cases hComplaint <;> trivial

theorem inPlace_of_tracks (hTracks : state.Tracks before) (hLeads : x.kind.Leads before after) :
    Meeting.InPlace ⟨state, some x⟩ := by
  constructor
  · intro hOutside y hy
    obtain rfl : x = y := Option.some.inj hy
    obtain rfl : state = .outside := hOutside
    obtain rfl : before = none := hTracks
    exact hLeads.isOutside
  · intro hDemand
    obtain ⟨tag, rfl⟩ := State.exists_tag_of_demand? hTracks hDemand
    exact ⟨x, rfl, hLeads.not_isOutside⟩

end Part

namespace Lexer

variable {m : Markup} {s : Lexer} {state : Part.State}

/-- From readers that are in step, all that is met up to the end of the source is in its
place, and is not complained about as if it was not. -/
theorem meetings_tracks (hValid : s.Valid m) (hTracks : state.Tracks (s.tag?.map Opening.kind)) :
    ∀ met ∈ Part.meetings state (s.run m),
      met.InPlace ∧ ∀ stop, ∀ p ∈ met.parts stop, p.IsSettled := by
  induction hMeasure : s.remaining using Nat.strongRecOn generalizing s state with
  | ind n ih =>
      subst hMeasure
      cases hStep : step m s with
      | none =>
          rw [(step_eq_none_iff.mp hStep).1] at hTracks
          have hWaits (hDemand : state.demand?.isSome = true) : False := by
            obtain ⟨tag, hTag⟩ := Part.State.exists_tag_of_demand? hTracks hDemand
            cases hTag
          rw [run_of_none hStep]
          refine List.forall_mem_singleton.mpr ⟨⟨?_, fun hDemand => (hWaits hDemand).elim⟩,
            Part.finish_tracks hTracks⟩
          exact fun _ x hx => by cases hx
      | some result =>
          obtain ⟨x, next⟩ := result
          have hMove := step_move hValid hStep
          have hLess := step_remaining_lt hStep
          have hNext := hMove.valid hValid
          have hLeads := hMove.leads
          rw [run_of_some hStep, Part.meetings]
          split
          · next hGap =>
              refine ih _ hLess hNext ?_ rfl
              rwa [hLeads.eq_of_isInterior (hGap ▸ trivial)]
          · obtain ⟨hParts, hOn⟩ := Part.step_tracks hTracks hLeads
            have hInPlace := Part.inPlace_of_tracks hTracks hLeads
            refine List.forall_mem_cons.mpr ⟨⟨hInPlace, fun stop => ?_⟩, ih _ hLess hNext hOn rfl⟩
            refine List.forall_mem_append.mpr ⟨?_, hParts⟩
            intro p hp
            cases hComplaint : x.complaint? with
            | none => simp [hComplaint] at hp
            | some c =>
                obtain rfl : p = .complaint c := by simpa [hComplaint] using hp
                exact Part.isSettled_of_complaint? hComplaint

end Lexer

/-- The message says that the source ended, or that something was found that belongs
between tags. -/
def SaysOutside (message : String) : Prop :=
  ∃ found ∈ "end of input" ::
      [TokenKind.rawText, .beginTag .variable, .beginTag .directive].map TokenKind.describe,
    ("found " ++ found).toList <:+ message.toList

instance (message : String) : Decidable (SaysOutside message) :=
  inferInstanceAs (Decidable (∃ found ∈ _, _))

/-- What a message says it tells at its end, so that messages are compared backwards. -/
theorem SaysOutside.reverse {message : String} (hSays : SaysOutside message) :
    ∃ found ∈ ["end of input", "raw text", "begin variable", "begin directive"],
      found.toList.reverse <+: message.toList.reverse := by
  obtain ⟨found, hFound, hEnd⟩ := hSays
  refine ⟨found, hFound, List.reverse_prefix.mpr (.trans ?_ hEnd)⟩
  rw [String.toList_append]
  exact List.suffix_append ..

/-- A message that ends with a quotation says nothing of this sort. -/
theorem not_saysOutside_quoted (text : String) : ¬ SaysOutside (text ++ "`") := by
  intro hSays
  obtain ⟨found, hFound, hEnd⟩ := hSays.reverse
  simp only [List.mem_cons, List.not_mem_nil, or_false] at hFound
  rcases hFound with rfl | rfl | rfl | rfl <;> simp at hEnd

theorem not_saysOutside_expected (text : String) {kind : TokenKind} (hInside : ¬ kind.IsOutside) :
    ¬ SaysOutside (text ++ kind.describe) := by
  intro hSays
  have hWord : kind.describe ∈ ["end variable", "end directive", "whitespace", "keyword",
      "identifier", "invalid input"] := by
    cases kind with
    | rawText => exact absurd trivial hInside
    | beginTag => exact absurd trivial hInside
    | endTag kind => cases kind <;> simp [TokenKind.describe]
    | _ => simp [TokenKind.describe]
  obtain ⟨found, hFound, hEnd⟩ := hSays.reverse
  simp only [List.mem_cons, List.not_mem_nil, or_false] at hFound hWord
  rcases hFound with rfl | rfl | rfl | rfl <;>
    rcases hWord with hWord | hWord | hWord | hWord | hWord | hWord <;> simp [hWord] at hEnd

theorem Problem.IsInPlace.not_saysOutside {problem : Problem} (hInPlace : problem.IsInPlace) :
    ¬ SaysOutside problem.message := by
  cases problem with
  | unclosedTag kind => cases kind <;> decide +kernel
  | unexpectedText text => exact not_saysOutside_quoted _
  | elseUsed => decide +kernel
  | strayEndIf => exact not_saysOutside_quoted "unexpected `ENDIF`, there is no open `IF"
  | unclosedIf test => exact not_saysOutside_quoted _
  | expected wanted found? =>
      cases found? with
      | none => exact hInPlace.elim
      | some kind => exact not_saysOutside_expected _ hInPlace
  | _ => exact hInPlace.elim

namespace Assembly

theorem isInPlace_of_mem_faultsAll {parts : List Part} (hParts : ∀ p ∈ parts, p.IsSettled)
    (a : Assembly) : ∀ c ∈ a.faultsAll parts, c.problem.IsInPlace := by
  induction parts generalizing a with
  | nil => simp [faultsAll]
  | cons p parts ih =>
      obtain ⟨hHere, hMore⟩ := List.forall_mem_cons.mp hParts
      rw [faultsAll]
      refine List.forall_mem_append.mpr ⟨?_, ih hMore _⟩
      intro c hc
      cases p with
      | complaint other =>
          obtain rfl := List.mem_singleton.mp hc
          exact hHere
      | close span =>
          rw [faults] at hc
          split at hc
          · rw [List.mem_singleton.mp hc]
            trivial
          · cases hc
      | _ => cases hc

end Assembly

namespace Engine

theorem meetings_start (g : Engine) (source : List Char) :
    ∀ met ∈ Part.meetings .outside (g.markup.lexemes source),
      met.InPlace ∧ ∀ stop, ∀ p ∈ met.parts stop, p.IsSettled :=
  Lexer.meetings_tracks (Lexer.valid_start g.markup source) rfl

theorem isInPlace_of_mem_complaints (g : Engine) (source : List Char) :
    ∀ c ∈ g.complaints source, c.problem.IsInPlace := by
  have hMet := g.meetings_start source
  rw [complaints]
  refine List.forall_mem_append.mpr ⟨Assembly.isInPlace_of_mem_faultsAll ?_ _, ?_⟩
  · rw [parts, Part.ofLexemes_eq_flatMap]
    intro p hp
    obtain ⟨met, hMem, hp⟩ := List.mem_flatMap.mp hp
    exact (hMet met hMem).2 _ p hp
  · intro c hc
    obtain ⟨scope, -, hUnclosed⟩ := List.mem_filterMap.mp hc
    cases scope with
    | conditional =>
        cases hUnclosed
        trivial
    | broken => cases hUnclosed

/-- The reader of lexemes and the reader of the source never fall out of step. The parts
of a source are what the reader of lexemes gives for all that it comes to. Between tags
that is a text, the beginning of a tag or the end of the source, and inside a tag that it
did not skip there is always more of the tag. So whatever a reading reports in either
mode, apart from what the log held before, is none of the problems of readers that are
out of step, and no message says that the source ended or that something was found that
belongs between tags. -/
theorem lockstep (g : Engine) (source : List Char) :
    g.parts source = (Part.meetings .outside (g.markup.lexemes source)).flatMap
      (Part.Meeting.parts (byteLength source)) ∧
    (∀ met ∈ Part.meetings .outside (g.markup.lexemes source), met.InPlace) ∧
    (∀ log d, (d ∈ (g.parseWith source log).2.held ∨
        ∃ e, (g.parseWith source log).1 = .error e ∧ d ∈ e.diagnostics) →
      d ∈ log.held ∨ d.problem.IsInPlace ∧ ¬ SaysOutside d.message) ∧
    ∀ document e, g.parse source document = .error e →
      ∀ d ∈ e.diagnostics, d.problem.IsInPlace ∧ ¬ SaysOutside d.message := by
  have hMet := g.meetings_start source
  have hFound {document : Document} {d : Diagnostic}
      (hd : ∃ c ∈ g.complaints source, d = .ofComplaint document source c) :
      d.problem.IsInPlace ∧ ¬ SaysOutside d.message := by
    obtain ⟨c, hc, rfl⟩ := hd
    have hInPlace := g.isInPlace_of_mem_complaints source c hc
    exact ⟨hInPlace, hInPlace.not_saysOutside⟩
  refine ⟨Part.ofLexemes_eq_flatMap .., fun met hMem => (hMet met hMem).1, ?_, ?_⟩
  · exact fun log d hReported => (exists_of_reported hReported).imp_right hFound
  · exact fun document e hError d hd => hFound (exists_of_parse_eq_error hError d hd)

/-- A tag that breaks off at once is skipped up to the end of the source. -/
example : (Part.meetings .outside (Markup.standard.lexemes "$\x7b".toList)).map
    (fun met => (met.state, met.found?.map Lexeme.kind)) =
      [(.outside, some (.beginTag .variable)),
        (.variableName ⟨0, 2⟩, some (.unclosed .variable ⟨0, 2⟩)), (.skipping [], none)] := by
  decide +kernel

end Engine

end Bulletin
