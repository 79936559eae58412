import Bulletin.Proofs.Segments

/-! What successive calls get out of a stream of tokens. In bail-out mode a
stream is the one of accumulate mode up to its first invalid token, and nothing
is left behind the failure. -/
namespace Bulletin

/-- Tokens up to the first invalid one, which alone is complained about among
them. -/
theorem Token.takeWhile_cases (tokens : List Token) :
    ∃ rest, tokens = (tokens.takeWhile fun t => !t.kind.isInvalid) ++ rest ∧
      (∀ t ∈ tokens.takeWhile fun t => !t.kind.isInvalid, t.complaint? = none) ∧
      (rest = [] ∨ ∃ bad c more, rest = bad :: more ∧ bad.complaint? = some c) := by
  induction tokens with
  | nil => exact ⟨[], rfl, by simp, Or.inl rfl⟩
  | cons t ts ih =>
      cases hComplaint : t.complaint? with
      | some c =>
          have hInvalid : t.kind.isInvalid = true := by
            by_contra hSound
            have hNone := Lexeme.complaint?_eq_none_iff.mpr (Bool.not_eq_true _ ▸ hSound)
            exact Option.some_ne_none c (hComplaint.symm.trans hNone)
          refine ⟨t :: ts, by simp [hInvalid], by simp [hInvalid], Or.inr ?_⟩
          exact ⟨t, c, ts, rfl, hComplaint⟩
      | none =>
          have hSound : t.kind.isInvalid = false := Lexeme.complaint?_eq_none_iff.mp hComplaint
          obtain ⟨rest, hCut, hBefore, hRest⟩ := ih
          have hTake : ((t :: ts).takeWhile fun t => !t.kind.isInvalid) =
              t :: ts.takeWhile fun t => !t.kind.isInvalid := by simp [hSound]
          rw [hTake]
          exact ⟨rest, congrArg (t :: ·) hCut, List.forall_mem_cons.mpr ⟨hComplaint, hBefore⟩, hRest⟩

namespace TokenStream

/-- Successive calls for the next token hand out these tokens. None of the calls
fails, and none of them comes too late. -/
inductive Hands : TokenStream → Log → List Token → TokenStream → Log → Prop where
  | nothing (s : TokenStream) (log : Log) : Hands s log [] s log
  | token {s onward last : TokenStream} {log log' log'' : Log} {t : Token} {ts : List Token}
      (hNext : s.next log = (.ok (some t), onward, log'))
      (hMore : Hands onward log' ts last log'') : Hands s log (t :: ts) last log''

/-- Nothing is handed out any more and nothing is recorded, whatever log is given.
A call leaves such a stream as it is, so that this holds of all later calls. -/
def Ended (s : TokenStream) : Prop :=
  ∀ log, s.next log = (.ok none, s, log) ∧ s.nextVisible log = (.ok none, s, log)

/-- The tokens that are still to come if no call fails. -/
def ahead (s : TokenStream) : List Token :=
  Token.locate s.position (s.lexer.run s.engine.markup)

variable {s : TokenStream} {log : Log} {x : Lexeme} {lexer : Lexer}

theorem ahead_of_none (hStep : s.lexer.step s.engine.markup = none) : s.ahead = [] := by
  rw [ahead, Lexer.run_of_none hStep]
  rfl

theorem ahead_of_some (hStep : s.lexer.step s.engine.markup = some (x, lexer)) :
    s.ahead = s.token x :: (s.onward x lexer).ahead := by
  rw [ahead, Lexer.run_of_some hStep]
  rfl

/-- A token that is to come is the next lexeme of the source. -/
theorem exists_step_of_ahead {t : Token} {ts : List Token} (hAhead : s.ahead = t :: ts) :
    ∃ x lexer, s.lexer.step s.engine.markup = some (x, lexer) ∧ t = s.token x ∧
      ts = (s.onward x lexer).ahead := by
  cases hStep : s.lexer.step s.engine.markup with
  | none => simp [ahead_of_none hStep] at hAhead
  | some result =>
      obtain ⟨x, lexer⟩ := result
      rw [ahead_of_some hStep] at hAhead
      obtain ⟨rfl, rfl⟩ := List.cons.inj hAhead
      exact ⟨x, lexer, rfl, rfl, rfl⟩

theorem next_of_none (hStep : s.lexer.step s.engine.markup = none) (log : Log) :
    s.next log = (.ok none, s, log) := by
  unfold next
  rw [hStep]

theorem ended_of_none (hStep : s.lexer.step s.engine.markup = none) : s.Ended := by
  intro log
  have hNext : s.next log = (.ok none, s, log) := by simp [next, hStep]
  refine ⟨hNext, ?_⟩
  rw [nextVisible]
  split
  · next hSome => simp [hNext] at hSome
  · exact hNext

theorem ended_of_ahead (hAhead : s.ahead = []) : s.Ended := by
  refine ended_of_none ?_
  cases hStep : s.lexer.step s.engine.markup with
  | none => rfl
  | some result =>
      obtain ⟨x, lexer⟩ := result
      simp [ahead_of_some hStep] at hAhead

/-- A failure closes the tag that is open, and leaves no text to be read. -/
theorem ended_exhausted (s : TokenStream) : s.exhausted.Ended :=
  ended_of_none rfl

section Next

variable (hStep : s.lexer.step s.engine.markup = some (x, lexer))

include hStep

theorem next_of_sound (hSound : x.complaint? = none) (log : Log) :
    s.next log = (.ok (some (s.token x)), s.onward x lexer, log) := by
  simp [next, hStep, hSound]

/-- A call that comes to a lexeme reports the complaint about it, if there is one, and hands
the lexeme out unless this ends the pass. -/
theorem next_eq (log : Log) :
    s.next log = match log.reportAll s.engine.mode s.source x.complaint?.toList with
      | .ok log' => (.ok (some (s.token x)), s.onward x lexer, log')
      | .error e => (.error e, s.exhausted, log.cleared) := by
  cases hComplaint : x.complaint? with
  | none => exact next_of_sound hStep hComplaint log
  | some c =>
      simp only [next, hStep, hComplaint, Option.toList_some, Log.reportAll_cons]
      cases Log.report s.engine.mode s.source log c <;> rfl

theorem next_accumulate (hMode : s.engine.mode = .accumulate) (log : Log) :
    s.next log = (.ok (some (s.token x)), s.onward x lexer,
      log.complainAll s.source x.complaint?.toList) := by
  rw [next_eq hStep, hMode, Log.reportAll_accumulate]

/-- In bail-out mode an invalid token is not handed out. The error takes along all
that the log held. -/
theorem next_bailOut (hMode : s.engine.mode = .bailOut) {c : Complaint}
    (hComplaint : x.complaint? = some c) (log : Log) :
    s.next log = (.error (log.failure (.ofComplaint log.document s.source c)), s.exhausted,
      log.cleared) := by
  rw [next_eq hStep, hComplaint, hMode, Option.toList_some, Log.reportAll_bailOut_cons]

end Next

/-- In accumulate mode all tokens are handed out, and the invalid ones are recorded
on the way. -/
theorem hands_accumulate (hMode : s.engine.mode = .accumulate) (log : Log) :
    ∃ last, s.Hands log s.ahead last
      (log.complainAll s.source (s.ahead.filterMap Token.complaint?)) ∧ last.Ended := by
  obtain ⟨tokens, hAhead⟩ : ∃ tokens, s.ahead = tokens := ⟨_, rfl⟩
  rw [hAhead]
  induction tokens generalizing s log with
  | nil =>
      refine ⟨s, ?_, ended_of_ahead hAhead⟩
      simpa [Log.complainAll] using Hands.nothing s log
  | cons t ts ih =>
      obtain ⟨x, lexer, hStep, rfl, hMore⟩ := exists_step_of_ahead hAhead
      obtain ⟨last, hHands, hEnded⟩ := ih (s := s.onward x lexer) hMode
        (log.complainAll s.source x.complaint?.toList) hMore.symm
      refine ⟨last, .token (next_accumulate hStep hMode log) ?_, hEnded⟩
      cases hComplaint : x.complaint? <;>
        simpa [Log.complainAll, hComplaint, Token.complaint?, token, onward] using hHands

/-- In either mode, tokens that are in order are handed out and leave the log as it
is. -/
theorem hands_sound {sound rest : List Token} (hAhead : s.ahead = sound ++ rest)
    (hSound : ∀ t ∈ sound, t.complaint? = none) (log : Log) :
    ∃ stop, s.Hands log sound stop log ∧ stop.ahead = rest ∧ stop.engine = s.engine ∧
      stop.source = s.source := by
  induction sound generalizing s with
  | nil => exact ⟨s, .nothing s log, hAhead, rfl, rfl⟩
  | cons t ts ih =>
      obtain ⟨hHere, hLater⟩ := List.forall_mem_cons.mp hSound
      obtain ⟨x, lexer, hStep, rfl, hMore⟩ := exists_step_of_ahead hAhead
      obtain ⟨stop, hHands, hRest⟩ := ih hMore.symm hLater
      exact ⟨stop, .token (next_of_sound hStep hHere log) hHands, hRest⟩

/-- A stream in bail-out mode that comes to an invalid token fails and ends. -/
theorem next_of_invalid (hMode : s.engine.mode = .bailOut) {t : Token} {ts : List Token}
    (hAhead : s.ahead = t :: ts) {c : Complaint} (hComplaint : t.complaint? = some c)
    (log : Log) :
    ∃ after, s.next log =
        (.error (log.failure (.ofComplaint log.document s.source c)), after, log.cleared) ∧
      after.Ended := by
  obtain ⟨x, lexer, hStep, rfl, -⟩ := exists_step_of_ahead hAhead
  exact ⟨s.exhausted, next_bailOut hStep hMode hComplaint log, s.ended_exhausted⟩

end TokenStream

namespace Engine

open TokenStream

/-- Successive calls for the tokens of a source. In accumulate mode they hand out
what reading all at once gives, and record what is invalid. In bail-out mode they
hand out the same tokens up to the first invalid one, with the log left as it is,
whatever it held. If there is no invalid token, that is all. Otherwise the next call
fails with everything that was held and the first of what accumulate mode records,
it empties the log, and no call after it gets a token or records anything. -/
theorem stream_bailOut (m : Markup) (source : List Char) (log : Log) :
    ∃ tokens found last stop,
      (Engine.mk m .accumulate).tokenize source log =
        (.ok tokens, { log with held := log.held ++ found }) ∧
      ((Engine.mk m .accumulate).stream source).Hands log tokens last
        { log with held := log.held ++ found } ∧ last.Ended ∧
      ((Engine.mk m .bailOut).stream source).Hands log
        (tokens.takeWhile fun t => !t.kind.isInvalid) stop log ∧
      ((∀ t ∈ tokens, t.kind.isInvalid = false) → found = [] ∧ stop.Ended) ∧
      ((∃ t ∈ tokens, t.kind.isInvalid = true) → ∃ first others e after,
        found = first :: others ∧
        stop.next log = (.error e, after, { log with held := [] }) ∧
        e.diagnostics = log.held ++ [first] ∧
        e.diagnostics.head?.map Diagnostic.kind = some e.kind ∧ after.Ended) := by
  obtain ⟨last, hHands, hEnded⟩ :=
    hands_accumulate (s := (Engine.mk m .accumulate).stream source) rfl log
  obtain ⟨tokens, hTokens⟩ : ∃ tokens, (Engine.mk m .accumulate).tokens source = tokens := ⟨_, rfl⟩
  have hAhead (mode : Mode) : ((Engine.mk m mode).stream source).ahead = tokens := hTokens
  have hAll := tokenize_accumulate m source log
  rw [hAhead] at hHands
  rw [hTokens] at hAll
  obtain ⟨rest, hCut, hSound, hRest⟩ := Token.takeWhile_cases tokens
  obtain ⟨stop, hStop, hStopAhead, hEngine, hSource⟩ :=
    hands_sound ((hAhead .bailOut).trans hCut) hSound log
  refine ⟨tokens, _, last, stop, hAll, hHands, hEnded, hStop, ?_, ?_⟩
  all_goals rcases hRest with rfl | ⟨bad, c, more, rfl, hBad⟩
  -- No token is invalid.
  · intro _
    rw [List.append_nil] at hCut
    have hNone : tokens.filterMap Token.complaint? = [] :=
      List.filterMap_eq_nil_iff.mpr fun t ht => hSound t (hCut ▸ ht)
    exact ⟨by rw [hNone, List.map_nil], ended_of_ahead hStopAhead⟩
  · intro hValid
    have hMem : bad ∈ tokens := hCut ▸ List.mem_append_right _ (List.mem_cons_self ..)
    have hNone : bad.complaint? = none := Lexeme.complaint?_eq_none_iff.mpr (hValid bad hMem)
    exact absurd (hBad.symm.trans hNone) (Option.some_ne_none c)
  · rintro ⟨t, ht, hInvalid⟩
    rw [List.append_nil] at hCut
    have hValid := Lexeme.complaint?_eq_none_iff.mp (hSound t (hCut ▸ ht))
    exact absurd (hInvalid.symm.trans hValid) (by decide)
  -- The bad token is the first of them.
  · intro _
    have hFound : tokens.filterMap Token.complaint? = c :: more.filterMap Token.complaint? := by
      rw [hCut, List.filterMap_append, List.filterMap_eq_nil_iff.mpr hSound, List.nil_append,
        List.filterMap_cons_some hBad]
    obtain ⟨after, hNext, hAfter⟩ := next_of_invalid (by rw [hEngine]; rfl) hStopAhead hBad log
    rw [hSource] at hNext
    refine ⟨.ofComplaint log.document source c, _, _, after, by rw [hFound, List.map_cons], hNext,
      Log.diagnostics_failure .., ?_, hAfter⟩
    rw [Log.diagnostics_failure]
    exact Log.kind_failure ..

end Engine

end Bulletin
