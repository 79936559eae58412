import Bulletin.Proofs.Streaming

/-! Progress. Every token that a stream hands out brings the end of its source nearer, also
where a tag breaks off without taking a character. A reader of documents that draws its
tokens from a stream therefore comes to an end, and what it has read then is what reading
all of them at once gives. -/
namespace Bulletin

open Text

theorem Lexer.remaining_start_le (source : List Char) :
    (Lexer.start source).remaining ≤ 2 * byteLength source :=
  Nat.mul_le_mul_left 2 (length_le_byteLength source)

namespace TokenStream

variable {s last : TokenStream} {log log' : Log} {x : Lexeme} {lexer : Lexer}

/-- The tokens that were handed out count against those that may still come. -/
theorem Hands.length_add_le {ts : List Token} (hHands : s.Hands log ts last log') :
    ts.length + last.lexer.remaining ≤ s.lexer.remaining := by
  induction hHands with
  | nothing s log => simp
  | token hNext _ ih =>
      have := next_remaining_lt hNext
      rw [List.length_cons]
      omega

/-- Successive calls come to an end of the stream or to a failure. -/
theorem exists_hands (s : TokenStream) (log : Log) :
    ∃ ts last log', s.Hands log ts last log' ∧ (last.Ended ∨
      ∃ e after, last.next log' = (.error e, after, log'.cleared) ∧ after.Ended) := by
  induction hMeasure : s.lexer.remaining using Nat.strongRecOn generalizing s log with
  | ind n ih =>
      subst hMeasure
      cases hStep : s.lexer.step s.engine.markup with
      | none => exact ⟨[], s, log, .nothing s log, Or.inl (ended_of_none hStep)⟩
      | some result =>
          obtain ⟨x, lexer⟩ := result
          have hNext := next_eq hStep log
          cases hReport : log.reportAll s.engine.mode s.source x.complaint?.toList with
          | error e =>
              rw [hReport] at hNext
              exact ⟨[], s, log, .nothing s log, Or.inr ⟨e, _, hNext, s.ended_exhausted⟩⟩
          | ok log' =>
              rw [hReport] at hNext
              obtain ⟨ts, last, log'', hHands, hEnd⟩ :=
                ih _ (next_remaining_lt hNext) (s.onward x lexer) log' rfl
              exact ⟨s.token x :: ts, last, log'', .token hNext hHands, hEnd⟩

theorem token_of_next {t : Token} {onward : TokenStream}
    (hNext : s.next log = (.ok (some t), onward, log')) :
    ∃ x lexer, s.lexer.step s.engine.markup = some (x, lexer) ∧ t = s.token x := by
  cases hStep : s.lexer.step s.engine.markup with
  | none =>
      rw [next_of_none hStep] at hNext
      cases hNext
  | some result =>
      obtain ⟨x, lexer⟩ := result
      rw [next_eq hStep] at hNext
      split at hNext
      · cases hNext
        exact ⟨x, lexer, rfl, rfl⟩
      · cases hNext

theorem nextVisible_of_visible
    (hVisible : ∀ x lexer, s.lexer.step s.engine.markup = some (x, lexer) → x.kind ≠ .whitespace)
    (log : Log) : s.nextVisible log = s.next log := by
  rw [nextVisible]
  split
  · next t onward log' hNext =>
      obtain ⟨x, lexer, hStep, rfl⟩ := token_of_next hNext
      rw [if_neg (by simp [Token.isWhitespace, token, hVisible x lexer hStep]), hNext]
  · rfl

theorem nextVisible_of_whitespace (hStep : s.lexer.step s.engine.markup = some (x, lexer))
    (hKind : x.kind = .whitespace) (log : Log) :
    s.nextVisible log = (s.onward x lexer).nextVisible log := by
  have hSound : x.complaint? = none := by simp [Lexeme.complaint?, hKind]
  have hNext := next_of_sound hStep hSound log
  rw [nextVisible]
  split
  · next t onward log' hHere =>
      cases hNext.symm.trans hHere
      rw [if_pos (by simp [Token.isWhitespace, token, hKind])]
  · next hOther => exact absurd hNext (hOther _ _ _)

/-- A call for a visible token is a call for the next token behind some whitespace, which
stands for no part of a document. -/
theorem exists_visible (s : TokenStream) (log : Log) :
    ∃ ahead : TokenStream, s.nextVisible log = ahead.next log ∧ ahead.engine = s.engine ∧
      ahead.source = s.source ∧ ahead.lexer.remaining ≤ s.lexer.remaining ∧
      (∀ stop state, ahead.lexer.parts s.engine.markup stop state =
        s.lexer.parts s.engine.markup stop state) ∧
      ∀ x lexer, ahead.lexer.step ahead.engine.markup = some (x, lexer) → x.kind ≠ .whitespace := by
  induction hMeasure : s.lexer.remaining using Nat.strongRecOn generalizing s with
  | ind n ih =>
      subst hMeasure
      cases hStep : s.lexer.step s.engine.markup with
      | none =>
          have hVisible : ∀ x lexer, s.lexer.step s.engine.markup = some (x, lexer) →
              x.kind ≠ .whitespace := by simp [hStep]
          exact ⟨s, nextVisible_of_visible hVisible log, rfl, rfl, Nat.le_refl _, fun _ _ => rfl,
            hVisible⟩
      | some result =>
          obtain ⟨x, lexer⟩ := result
          by_cases hKind : x.kind = .whitespace
          · have hLess := Lexer.step_remaining_lt hStep
            obtain ⟨ahead, hNext, hEngine, hSource, hRemaining, hParts, hVisible⟩ :=
              ih _ hLess (s.onward x lexer) rfl
            refine ⟨ahead, (nextVisible_of_whitespace hStep hKind log).trans hNext, hEngine,
              hSource, hRemaining.trans hLess.le, fun stop state => ?_, hVisible⟩
            rw [Lexer.parts_of_whitespace hStep hKind]
            exact hParts stop state
          · have hVisible : ∀ y after, s.lexer.step s.engine.markup = some (y, after) →
                y.kind ≠ .whitespace := by
              intro y after hHere
              cases hStep.symm.trans hHere
              exact hKind
            exact ⟨s, nextVisible_of_visible hVisible log, rfl, rfl, Nat.le_refl _, fun _ _ => rfl,
              hVisible⟩

end TokenStream

/-- A reader of documents that draws its tokens from a stream: what is left of the stream,
where the reader stands inside a tag or between tags, and the tree as far as it was read. -/
structure Reader where
  tokens : TokenStream
  state : Part.State
  tree : Assembly

namespace Reader

/-- What reading comes to: the elements of the document with the log, or an error. -/
abbrev Outcome := Except Error (List Element × Log)

/-- One round of reading draws a token and goes on, or is the last one. -/
inductive Round where
  | more (next : Reader)
  | done (last : TokenStream) (outcome : Outcome)

def start (g : Engine) (source : List Char) (log : Log) : Reader where
  tokens := g.stream source
  state := .outside
  tree := .start log

/-- The tree after some more parts of the document. -/
def takeIn (r : Reader) (tree : Assembly) (parts : List Part) : Except Error Assembly :=
  parts.foldlM (Assembly.step r.tokens.engine.mode r.tokens.source) tree

/-- Takes in the parts that a token completes and goes on behind it. A failure ends the
reading. -/
def advance (r : Reader) (x : Lexeme) (tokens : TokenStream) (log : Log) : Round :=
  let (parts, state) := Part.step r.state x
  match r.takeIn { r.tree with log } parts with
  | .ok tree => .more ⟨tokens, state, tree⟩
  | .error e => .done tokens (.error e)

/-- Draws the next token that is not whitespace. At the end of the stream the reader takes
in what remains to be said. A failure of the stream ends the reading. -/
def round (r : Reader) : Round :=
  match r.tokens.nextVisible r.tree.log with
  | (.ok (some t), tokens, log) => r.advance t.toLexeme tokens log
  | (.ok none, tokens, log) =>
    .done tokens do
      let tree ← r.takeIn { r.tree with log } (Part.finish (byteLength r.tokens.source) r.state)
      tree.finish r.tokens.engine.mode r.tokens.source
  | (.error e, tokens, _) => .done tokens (.error e)

/-- The reader draws this many tokens and goes on behind each of them. Then it is done. -/
inductive Stops : Reader → Nat → TokenStream → Outcome → Prop where
  | done {r : Reader} {last : TokenStream} {outcome : Outcome}
      (hRound : r.round = .done last outcome) : Stops r 0 last outcome
  | more {n : Nat} {r next : Reader} {last : TokenStream} {outcome : Outcome}
      (hRound : r.round = .more next) (hMore : Stops next n last outcome) :
      Stops r (n + 1) last outcome

/-- The parts that are still to come. -/
def parts (r : Reader) : List Part :=
  r.tokens.lexer.parts r.tokens.engine.markup (byteLength r.tokens.source) r.state

/-- What taking in all at once the parts to come would lead to. -/
def outcome (r : Reader) : Outcome := do
  let tree ← r.takeIn r.tree r.parts
  tree.finish r.tokens.engine.mode r.tokens.source

theorem takeIn_append (r : Reader) (tree : Assembly) (first second : List Part) :
    r.takeIn tree (first ++ second) =
      (r.takeIn tree first).bind fun tree => r.takeIn tree second := by
  unfold takeIn
  rw [List.foldlM_append]
  rfl

theorem takeIn_complaint? (r : Reader) (c? : Option Complaint) :
    r.takeIn r.tree (c?.map Part.complaint).toList =
      (r.tree.log.reportAll r.tokens.engine.mode r.tokens.source c?.toList).map
        fun log => { r.tree with log } := by
  unfold takeIn
  rw [Assembly.foldlM_step]
  cases c? <;> rfl

/-- Behind a token the parts to come are taken in as they would have been together with
those of the token. -/
theorem advance_cases (r : Reader) (x : Lexeme) (tokens : TokenStream) (log : Log)
    (hEngine : tokens.engine = r.tokens.engine) (hSource : tokens.source = r.tokens.source) :
    (∃ next, r.advance x tokens log = .more next ∧ next.tokens = tokens ∧
      next.outcome = (r.takeIn { r.tree with log } ((Part.step r.state x).1 ++
        tokens.lexer.parts tokens.engine.markup (byteLength tokens.source)
          (Part.step r.state x).2)).bind
        fun tree => tree.finish r.tokens.engine.mode r.tokens.source) ∨
    ∃ e, r.advance x tokens log = .done tokens (.error e) ∧
      ∀ later, r.takeIn { r.tree with log } ((Part.step r.state x).1 ++ later) = .error e := by
  cases hGiven : r.takeIn { r.tree with log } (Part.step r.state x).1 with
  | error e =>
      refine Or.inr ⟨e, ?_, fun later => ?_⟩
      · simp only [advance, hGiven]
      · rw [takeIn_append, hGiven]
        rfl
  | ok tree =>
      refine Or.inl ⟨⟨tokens, (Part.step r.state x).2, tree⟩, ?_, rfl, ?_⟩
      · simp only [advance, hGiven]
      · rw [takeIn_append, hGiven]
        unfold outcome takeIn
        rw [← hEngine, ← hSource]
        rfl

/-- A round keeps what reading comes to and leaves less to be read. -/
theorem round_cases (r : Reader) :
    (∃ next, r.round = .more next ∧ next.outcome = r.outcome ∧
      next.tokens.lexer.remaining < r.tokens.lexer.remaining) ∨
    ∃ last, r.round = .done last r.outcome ∧ ((∃ found, r.outcome = .ok found) → last.Ended) := by
  obtain ⟨ahead, hNext, hEngine, hSource, hRemaining, hParts, hVisible⟩ :=
    r.tokens.exists_visible r.tree.log
  have hAhead : r.parts = ahead.lexer.parts ahead.engine.markup (byteLength ahead.source)
      r.state := by
    rw [hEngine, hSource, hParts]
    rfl
  cases hStep : ahead.lexer.step ahead.engine.markup with
  | none =>
      refine Or.inr ⟨ahead, ?_, fun _ => TokenStream.ended_of_none hStep⟩
      rw [Lexer.parts_of_none hStep, hSource] at hAhead
      rw [round, hNext, TokenStream.next_of_none hStep, outcome, hAhead]
  | some result =>
      obtain ⟨x, lexer⟩ := result
      have hCall := TokenStream.next_eq hStep r.tree.log
      have hTaken := r.takeIn_complaint? x.complaint?
      rw [hEngine, hSource] at hCall
      rw [Lexer.parts_of_visible hStep (hVisible x lexer hStep), List.append_assoc] at hAhead
      cases hReport : r.tree.log.reportAll r.tokens.engine.mode r.tokens.source
          x.complaint?.toList with
      | error e =>
          -- The complaint about the token itself ends the pass.
          rw [hReport] at hCall hTaken
          refine Or.inr ⟨ahead.exhausted, ?_, fun _ => ahead.ended_exhausted⟩
          rw [round, hNext, hCall, outcome, hAhead, takeIn_append, hTaken]
          rfl
      | ok log =>
          rw [hReport] at hCall hTaken
          have hRound : r.round = r.advance x (ahead.onward x lexer) log := by
            rw [round, hNext, hCall]
            rfl
          have hOutcome : r.outcome = (r.takeIn { r.tree with log } ((Part.step r.state x).1 ++
              lexer.parts ahead.engine.markup (byteLength ahead.source)
                (Part.step r.state x).2)).bind
              fun tree => tree.finish r.tokens.engine.mode r.tokens.source := by
            rw [outcome, hAhead, takeIn_append, hTaken]
            rfl
          rw [hRound]
          rcases r.advance_cases x (ahead.onward x lexer) log hEngine hSource with
            ⟨next, hMore, hTokens, hLater⟩ | ⟨e, hDone, hFailed⟩
          · refine Or.inl ⟨next, hMore, hLater.trans hOutcome.symm, ?_⟩
            rw [hTokens]
            exact (Lexer.step_remaining_lt hStep).trans_le hRemaining
          · rw [hFailed] at hOutcome
            refine Or.inr ⟨_, hDone.trans (congrArg _ hOutcome.symm), ?_⟩
            rintro ⟨found, hFound⟩
            cases hOutcome.symm.trans hFound

/-- Reading stops within as many rounds as tokens can come. -/
theorem exists_stops (r : Reader) : ∃ n last, n ≤ r.tokens.lexer.remaining ∧
    r.Stops n last r.outcome ∧ ((∃ found, r.outcome = .ok found) → last.Ended) := by
  induction hMeasure : r.tokens.lexer.remaining using Nat.strongRecOn generalizing r with
  | ind measure ih =>
      subst hMeasure
      rcases r.round_cases with ⟨next, hRound, hOutcome, hLess⟩ | ⟨last, hRound, hEnded⟩
      · obtain ⟨n, last, hCount, hStops, hEnded⟩ := ih _ hLess next rfl
        rw [hOutcome] at hStops hEnded
        exact ⟨n + 1, last, hCount.trans_lt hLess, .more hRound hStops, hEnded⟩
      · exact ⟨0, last, Nat.zero_le _, .done hRound, hEnded⟩

theorem outcome_start (g : Engine) (source : List Char) (log : Log) :
    g.parseWith source log = log.settle ((start g source log).outcome.map
      fun (elements, log) => (⟨log.document, source, elements⟩, log)) := by
  have hOutcome : (start g source log).outcome =
      ((g.parts source).foldlM (Assembly.step g.mode source) (.start log)).bind
        fun tree => tree.finish g.mode source := rfl
  rw [hOutcome, Engine.parseWith]
  cases (g.parts source).foldlM (Assembly.step g.mode source) (.start log) with
  | error e => rfl
  | ok tree =>
      change log.settle (Except.bind (tree.finish g.mode source) _) =
        log.settle (Except.map _ (tree.finish g.mode source))
      cases tree.finish g.mode source <;> rfl

end Reader

namespace Engine

/-- Reading makes progress, whatever the markup, the source and the mode. Successive calls
for the next token hand out two tokens for each byte of the source at most. Then they come
to the end of the stream, or to a failure behind which the stream has ended. A reader of
documents that draws its tokens from the stream stops as well, within as many tokens. If it
does not fail it has come to the end of the stream, and in any case the reading comes to
what taking in the whole source at once does. -/
theorem reading_stops (g : Engine) (source : List Char) (log : Log) :
    (∀ ts last log', (g.stream source).Hands log ts last log' →
      ts.length ≤ 2 * byteLength source) ∧
    (∃ ts last log', (g.stream source).Hands log ts last log' ∧ (last.Ended ∨
      ∃ e after, last.next log' = (.error e, after, log'.cleared) ∧ after.Ended)) ∧
    ∃ n last outcome, n ≤ 2 * byteLength source ∧
      (Reader.start g source log).Stops n last outcome ∧
      ((∃ found, outcome = .ok found) → last.Ended) ∧
      g.parseWith source log = log.settle (outcome.map
        fun (elements, log) => (⟨log.document, source, elements⟩, log)) := by
  have hBound := Lexer.remaining_start_le source
  refine ⟨fun ts last log' hHands => ?_, (g.stream source).exists_hands log, ?_⟩
  · have hLength := hHands.length_add_le
    change ts.length + last.lexer.remaining ≤ (Lexer.start source).remaining at hLength
    omega
  · obtain ⟨n, last, hCount, hStops, hEnded⟩ := (Reader.start g source log).exists_stops
    exact ⟨n, last, _, hCount.trans hBound, hStops, hEnded, Reader.outcome_start g source log⟩

end Engine

end Bulletin
