import Bulletin.Proofs.Reports

/-! What becomes of the diagnostics that a log is given. Whatever the log is used
for, each of them is handed out once, in the order of recording, or is held still. -/
namespace Bulletin

namespace Error

/-- The error is made of diagnostics, of which there is at least one. -/
def IsDiagnosed (e : Error) : Prop :=
  ∃ first others, e.diagnostics = first :: others ∧ e.kind = first.kind ∧
    e.message = "\n".intercalate (e.diagnostics.map Diagnostic.display)

theorem isDiagnosed_diagnosed (first : Diagnostic) (others : List Diagnostic) :
    (diagnosed first others).IsDiagnosed :=
  ⟨first, others, rfl, rfl, rfl⟩

end Error

/-- The complaints that a pass comes to record, out of all that there are about its
source. -/
def Mode.reached : Mode → List Complaint → List Complaint
  | .accumulate, cs => cs
  | .bailOut, cs => cs.take 1

namespace Log

/-- What a log is used for. A remark concerns a part of a source and is recorded; a
note about such a part leaves the diagnostics alone. -/
inductive Operation where
  | remark (kind : ErrorKind) (source : List Char) (span : Span) (text : String)
  | record (d : Diagnostic)
  | note (source : List Char) (span : Span) (text : String)
  | read (g : Engine) (source : List Char)
  | tokenize (g : Engine) (source : List Char)
  | drain
  | takeError
  | raise

/-- What the caller gets back from an operation. -/
inductive Answer where
  | done
  | template (outcome : Except Error Template)
  | tokens (outcome : Except Error (List Token))
  | drained (ds : List Diagnostic)
  | taken (e? : Option Error)
  | raised (outcome : Except Error Unit)

namespace Answer

def error? : Answer → Option Error
  | template (.error e) | tokens (.error e) | raised (.error e) => some e
  | taken e? => e?
  | _ => none

/-- The diagnostics that the caller gets, alone or as part of an error. -/
def handed : Answer → List Diagnostic
  | drained ds => ds
  | answer => answer.error?.elim [] Error.diagnostics

theorem handed_of_error? {answer : Answer} {e : Error} (hError : answer.error? = some e) :
    answer.handed = e.diagnostics := by
  cases answer with
  | drained ds => simp [error?] at hError
  | _ => simp [handed, hError]

end Answer

namespace Operation

def perform (log : Log) : Operation → Answer × Log
  | remark kind source span text => (.done, log.complain source ⟨.remark kind text, span⟩)
  | record d => (.done, log.record d)
  | note _ _ _ => (.done, log)
  | read g source => (g.parseWith source log).map .template id
  | tokenize g source => (g.tokenize source log).map .tokens id
  | drain => log.drain.map .drained id
  | takeError => log.takeError.map .taken id
  | raise => log.raise.map .raised id

/-- The diagnostics that an operation records in a log about the document, in their
order. For a pass they follow from its source, whatever becomes of them. -/
def recorded (document : Document) : Operation → List Diagnostic
  | remark kind source span text => [.ofComplaint document source ⟨.remark kind text, span⟩]
  | record d => [d]
  | read g source =>
    (g.mode.reached (g.complaints source)).map (.ofComplaint document source)
  | tokenize g source =>
    (g.mode.reached ((g.tokens source).filterMap Token.complaint?)).map
      (.ofComplaint document source)
  | note _ _ _ | drain | takeError | raise => []

end Operation

/-- The answers to the operations, one after the other, and the log after them. -/
def performAll (log : Log) : List Operation → List Answer × Log
  | [] => ([], log)
  | op :: ops =>
    let (answer, log) := op.perform log
    let (answers, log) := log.performAll ops
    (answer :: answers, log)

theorem isDiagnosed_failure (log : Log) (d : Diagnostic) : (log.failure d).IsDiagnosed := by
  unfold failure
  split <;> exact Error.isDiagnosed_diagnosed ..

/-- Taking all diagnostics out as an error, as one that is returned or one that is
raised. -/
theorem takeError_cases (log : Log) :
    (log.held = [] ∧ log.takeError = (none, log.cleared) ∧ log.raise = (.ok (), log.cleared)) ∨
      ∃ first others, log.held = first :: others ∧
        log.takeError = (some (.diagnosed first others), log.cleared) ∧
        log.raise = (.error (.diagnosed first others), log.cleared) := by
  cases hHeld : log.held with
  | nil => exact .inl (by simp [raise, takeError, hHeld, Error.ofDiagnostics?])
  | cons first others =>
      exact .inr ⟨first, others, by simp [raise, takeError, hHeld, Error.ofDiagnostics?]⟩

/-- Nothing is lost and nothing is made up on the way from a log to an answer and the
log after it, when the diagnostics `found` are recorded. -/
structure Accounts (log : Log) (found : List Diagnostic) (answer : Answer) (after : Log) :
    Prop where
  held : answer.handed ++ after.held = log.held ++ found
  document : after.document = log.document
  diagnosed : ∀ e, answer.error? = some e → e.IsDiagnosed

section Steps

variable {log : Log} {found : List Diagnostic} {answer : Answer}

theorem accounts_of_kept (hHanded : answer.handed = []) (hError : answer.error? = none) :
    Accounts log found answer { log with held := log.held ++ found } where
  held := by rw [hHanded, List.nil_append]
  document := rfl
  diagnosed := by simp [hError]

theorem accounts_of_emptied (hHanded : answer.handed = log.held ++ found)
    (hDiagnosed : ∀ e, answer.error? = some e → e.IsDiagnosed) :
    Accounts log found answer log.cleared where
  held := (List.append_nil _).trans hHanded
  document := rfl
  diagnosed := hDiagnosed

theorem accounts_of_error {e : Error} (hError : answer.error? = some e)
    (hDiagnostics : e.diagnostics = log.held ++ found) (hDiagnosed : e.IsDiagnosed) :
    Accounts log found answer log.cleared := by
  apply accounts_of_emptied ((Answer.handed_of_error? hError).trans hDiagnostics)
  intro e' hError'
  exact Option.some.inj (hError.symm.trans hError') ▸ hDiagnosed

/-- A pass that reports its complaints either succeeds, and what it recorded is added
to what was held, or fails with all of that. -/
theorem accounts_of_pass {α : Type} {wrap : Except Error α → Answer}
    (hHanded : ∀ a, (wrap (.ok a)).handed = []) (hOk : ∀ a, (wrap (.ok a)).error? = none)
    (hError : ∀ e, (wrap (.error e)).error? = some e) {mode : Mode} {source : List Char}
    {cs : List Complaint} {a : α} {pass : Except Error α × Log}
    (hPass : pass = log.settle ((log.reportAll mode source cs).map fun log => (a, log))) :
    Accounts log ((mode.reached cs).map (.ofComplaint log.document source)) (wrap pass.1)
      pass.2 := by
  subst hPass
  cases mode with
  | accumulate =>
      rw [reportAll_accumulate]
      exact accounts_of_kept (hHanded a) (hOk a)
  | bailOut =>
      cases cs with
      | nil =>
          have hKept : Accounts log [] (wrap (.ok a)) { log with held := log.held ++ [] } :=
            accounts_of_kept (hHanded a) (hOk a)
          rwa [List.append_nil] at hKept
      | cons c cs =>
          rw [reportAll_bailOut_cons]
          exact accounts_of_error (hError _) (log.diagnostics_failure _) (log.isDiagnosed_failure _)

end Steps

/-- One operation, whichever it is and whatever was held before. -/
theorem perform_accounts (log : Log) (op : Operation) :
    Accounts log (op.recorded log.document) (op.perform log).1 (op.perform log).2 := by
  cases op with
  | remark kind source span text => exact accounts_of_kept rfl rfl
  | record d => exact accounts_of_kept rfl rfl
  | note source span text =>
      have hKept : Accounts log [] .done { log with held := log.held ++ [] } :=
        accounts_of_kept rfl rfl
      rwa [List.append_nil] at hKept
  | read g source =>
      exact accounts_of_pass (fun _ => rfl) (fun _ => rfl) (fun _ => rfl) (g.parseWith_eq source log)
  | tokenize g source =>
      exact accounts_of_pass (fun _ => rfl) (fun _ => rfl) (fun _ => rfl) (g.tokenize_eq source log)
  | drain =>
      exact accounts_of_emptied (List.append_nil _).symm (by simp [Operation.perform, Answer.error?])
  | takeError =>
      simp only [Operation.perform, Operation.recorded]
      obtain ⟨hHeld, hTake, -⟩ | ⟨first, others, hHeld, hTake, -⟩ := log.takeError_cases <;>
        rw [hTake]
      · exact accounts_of_emptied (by rw [hHeld]; rfl) (by simp [Answer.error?])
      · exact accounts_of_error rfl (by rw [hHeld]; exact (List.append_nil _).symm)
          (Error.isDiagnosed_diagnosed ..)
  | raise =>
      simp only [Operation.perform, Operation.recorded]
      obtain ⟨hHeld, -, hRaise⟩ | ⟨first, others, hHeld, -, hRaise⟩ := log.takeError_cases <;>
        rw [hRaise]
      · exact accounts_of_emptied (by rw [hHeld]; rfl) (by simp [Answer.error?])
      · exact accounts_of_error rfl (by rw [hHeld]; exact (List.append_nil _).symm)
          (Error.isDiagnosed_diagnosed ..)

/-- All operations of a run, by induction on them. -/
theorem performAll_accounts (log : Log) (ops : List Operation) :
    (log.performAll ops).1.flatMap Answer.handed ++ (log.performAll ops).2.held =
        log.held ++ ops.flatMap (Operation.recorded log.document) ∧
      ∀ answer ∈ (log.performAll ops).1, ∀ e, answer.error? = some e → e.IsDiagnosed := by
  induction ops generalizing log with
  | nil => simp [performAll]
  | cons op ops ih =>
      have hFirst := log.perform_accounts op
      obtain ⟨hMore, hDiagnosed⟩ := ih (op.perform log).2
      simp only [performAll, List.flatMap_cons]
      constructor
      · rw [List.append_assoc, hMore, hFirst.document, ← List.append_assoc, hFirst.held,
          List.append_assoc]
      · exact List.forall_mem_cons.mpr ⟨hFirst.diagnosed, hDiagnosed⟩

/-- Whatever a new log is used for, diagnostics are neither lost nor doubled. What was
handed out so far, in order, and what is held still are together what was recorded.
There are errors in the log as long as something is held; exactly then an error can
be taken or raised. All errors handed out are made of diagnostics. -/
theorem performAll_hands_over (document : Document) (ops : List Operation) :
    ∃ answers log, (empty document).performAll ops = (answers, log) ∧
      answers.flatMap Answer.handed ++ log.held = ops.flatMap (Operation.recorded document) ∧
      (log.hasErrors = true ↔ log.held ≠ []) ∧
      ((∃ e, log.takeError.1 = some e) ↔ log.held ≠ []) ∧
      ((∃ e, log.raise.1 = .error e) ↔ log.held ≠ []) ∧
      ∀ answer ∈ answers, ∀ e, answer.error? = some e → e.IsDiagnosed := by
  obtain ⟨hHeld, hDiagnosed⟩ := performAll_accounts (empty document) ops
  refine ⟨_, _, rfl, hHeld, ?_, ?_, ?_, hDiagnosed⟩
  · simp [hasErrors]
  all_goals
    obtain ⟨hHeld, hTake, hRaise⟩ | ⟨first, others, hHeld, hTake, hRaise⟩ :=
      takeError_cases ((empty document).performAll ops).2
    · simp [hHeld, hTake, hRaise]
    · simp [hHeld, hTake, hRaise]

end Log

end Bulletin
