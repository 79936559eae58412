import Bulletin.Proofs.Reports

/-! The two modes read the same document. Bail-out mode is accumulate mode
stopped at its first complaint, whatever the log held before. -/
namespace Bulletin

namespace Engine

/-- A pass in bail-out mode that has something to complain about fails with all
that the log held and its first complaint. -/
theorem parseWith_bailOut_of_head {m : Markup} {source : List Char} {log : Log}
    {first : Diagnostic} {others : List Diagnostic}
    (hFound : ((Engine.mk m .accumulate).complaints source).map
      (.ofComplaint log.document source) = first :: others) :
    (Engine.mk m .bailOut).parseWith source log = (.error (log.failure first), log.cleared) := by
  rw [complaints_mode m .accumulate .bailOut] at hFound
  obtain ⟨c, cs, hComplaints, rfl, -⟩ := List.map_eq_cons_iff.mp hFound
  exact parseWith_bailOut_of_fault hComplaints log

theorem parse_accumulate (m : Markup) (source : List Char) (document : Document) :
    (Engine.mk m .accumulate).parse source document =
      match Error.ofDiagnostics?
        (((Engine.mk m .accumulate).complaints source).map (.ofComplaint document source)) with
      | some e => .error e
      | none => .ok ⟨document, source, (Engine.mk m .accumulate).elements source⟩ := by
  unfold parse
  rw [parseWith_accumulate]
  cases (Engine.mk m .accumulate).complaints source <;> rfl

theorem parse_bailOut (m : Markup) (source : List Char) (document : Document) :
    (Engine.mk m .bailOut).parse source document =
      match (Engine.mk m .accumulate).complaints source with
      | [] => .ok ⟨document, source, (Engine.mk m .accumulate).elements source⟩
      | c :: _ => .error (.diagnosed (.ofComplaint document source c) []) := by
  unfold parse
  rw [complaints_mode m .accumulate .bailOut]
  cases hComplaints : (Engine.mk m .bailOut).complaints source with
  | nil =>
      rw [parseWith_bailOut_of_sound hComplaints]
      rfl
  | cons c cs =>
      rw [parseWith_bailOut_of_fault hComplaints]
      rfl

/-- What a reading with a log reports comes of the complaints about its source. -/
theorem exists_of_reported {g : Engine} {source : List Char} {log : Log} {d : Diagnostic}
    (hReported : d ∈ (g.parseWith source log).2.held ∨
      ∃ e, (g.parseWith source log).1 = .error e ∧ d ∈ e.diagnostics) :
    d ∈ log.held ∨ ∃ c ∈ g.complaints source, d = .ofComplaint log.document source c := by
  obtain ⟨m, mode⟩ := g
  cases mode with
  | accumulate =>
      simp only [parseWith_accumulate, reduceCtorEq, false_and, exists_false, or_false] at hReported
      refine (List.mem_append.mp hReported).imp_right fun hMem => ?_
      obtain ⟨c, hc, rfl⟩ := List.mem_map.mp hMem
      exact ⟨c, hc, rfl⟩
  | bailOut =>
      cases hComplaints : (Engine.mk m .bailOut).complaints source with
      | nil =>
          simp only [parseWith_bailOut_of_sound hComplaints, reduceCtorEq, false_and, exists_false,
            or_false] at hReported
          exact Or.inl hReported
      | cons c cs =>
          rw [parseWith_bailOut_of_fault hComplaints] at hReported
          rcases hReported with hNone | ⟨e, hError, hMem⟩
          · cases hNone
          · obtain rfl := Except.error.inj hError
            rw [Log.diagnostics_failure] at hMem
            refine (List.mem_append.mp hMem).imp_right fun hLast => ?_
            exact ⟨c, List.mem_cons_self, List.mem_singleton.mp hLast⟩

theorem exists_of_parse_eq_error {g : Engine} {source : List Char} {document : Document}
    {e : Error} (hError : g.parse source document = .error e) :
    ∀ d ∈ e.diagnostics, ∃ c ∈ g.complaints source, d = .ofComplaint document source c := by
  obtain ⟨m, mode⟩ := g
  intro d hd
  cases mode with
  | accumulate =>
      rw [parse_accumulate] at hError
      cases hComplaints : (Engine.mk m .accumulate).complaints source with
      | nil =>
          rw [hComplaints] at hError
          cases hError
      | cons c cs =>
          rw [hComplaints] at hError
          obtain rfl := Except.error.inj hError
          obtain ⟨c', hc, rfl⟩ : ∃ c' ∈ c :: cs, .ofComplaint document source c' = d :=
            List.mem_map.mp hd
          exact ⟨c', hc, rfl⟩
  | bailOut =>
      rw [parse_bailOut, complaints_mode m .accumulate .bailOut] at hError
      cases hComplaints : (Engine.mk m .bailOut).complaints source with
      | nil =>
          rw [hComplaints] at hError
          cases hError
      | cons c cs =>
          rw [hComplaints] at hError
          obtain rfl := Except.error.inj hError
          exact ⟨c, List.mem_cons_self, List.mem_singleton.mp hd⟩

/-- Reading a source with a log in either mode. In accumulate mode it always
gives a template and only adds diagnostics; bail-out mode succeeds alike if
there are none, and otherwise fails with all that was held and the first of
them. Reading without a log fails in one mode exactly if it fails in the other,
and then bail-out mode reports the first diagnostic of accumulate mode alone. -/
theorem modes_agree (m : Markup) (source : List Char) (log : Log) (document : Document) :
    (∃ t found,
      (Engine.mk m .accumulate).parseWith source log =
        (.ok t, { log with held := log.held ++ found }) ∧
      (found = [] → (Engine.mk m .bailOut).parseWith source log = (.ok t, log)) ∧
      ∀ first others, found = first :: others →
        ∃ e, (Engine.mk m .bailOut).parseWith source log =
            (.error e, { log with held := [] }) ∧
          e.diagnostics = log.held ++ [first] ∧
          some e.kind = e.diagnostics.head?.map Diagnostic.kind) ∧
    ((∃ e, (Engine.mk m .bailOut).parse source document = .error e) ↔
      ∃ e, (Engine.mk m .accumulate).parse source document = .error e) ∧
    ∀ e, (Engine.mk m .bailOut).parse source document = .error e →
      ∃ first others, e.diagnostics = [first] ∧
        (Engine.mk m .accumulate).parse source document = .error (.diagnosed first others) := by
  constructor
  · refine ⟨_, _, parseWith_accumulate m source log, ?_, ?_⟩
    · intro hFound
      rw [complaints_mode m .accumulate .bailOut] at hFound
      exact parseWith_bailOut_of_sound (List.map_eq_nil_iff.mp hFound) log
    · intro first others hFound
      refine ⟨log.failure first, parseWith_bailOut_of_head hFound,
        Log.diagnostics_failure log first, ?_⟩
      rw [Log.diagnostics_failure]
      exact (Log.kind_failure log first).symm
  · rw [parse_accumulate, parse_bailOut]
    cases (Engine.mk m .accumulate).complaints source with
    | nil => simp [Error.ofDiagnostics?]
    | cons c cs =>
        refine ⟨by simp [Error.ofDiagnostics?], ?_⟩
        intro e hFailed
        cases hFailed
        exact ⟨_, _, rfl, rfl⟩

end Engine

end Bulletin
