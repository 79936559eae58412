import Bulletin.Template

/-! What a pass reports does not depend on how it treats problems. A document
is put together without any log here, and what would be complained about on
the way is listed. The reader itself only hands this list to its log. -/
namespace Bulletin

namespace Log

variable {mode : Mode} {source : List Char} {log log' : Log} {c : Complaint}

/-- Hands complaints to the log one after the other. In bail-out mode nothing
follows the first. -/
def reportAll (mode : Mode) (source : List Char) (log : Log) (cs : List Complaint) :
    Except Error Log :=
  cs.foldlM (Log.report mode source) log

/-- The log after recording every complaint. -/
def complainAll (log : Log) (source : List Char) (cs : List Complaint) : Log :=
  { log with held := log.held ++ cs.map (.ofComplaint log.document source) }

/-- The error of a pass that ends with one more diagnostic. It takes along all
that was held before, and its kind is that of the oldest. -/
def failure (log : Log) (d : Diagnostic) : Error :=
  match log.held with
  | [] => .diagnosed d []
  | first :: others => .diagnosed first (others ++ [d])

@[simp]
theorem diagnostics_failure (log : Log) (d : Diagnostic) :
    (log.failure d).diagnostics = log.held ++ [d] := by
  unfold failure
  split
  · next hHeld => simp [hHeld, Error.diagnostics]
  · next first others hHeld => simp [hHeld, Error.diagnostics]

theorem kind_failure (log : Log) (d : Diagnostic) :
    ((log.held ++ [d]).head?).map Diagnostic.kind = some (log.failure d).kind := by
  unfold failure
  split
  · next hHeld => simp [hHeld, Error.kind]
  · next first others hHeld => simp [hHeld, Error.kind]

theorem report_accumulate (source : List Char) (log : Log) (c : Complaint) :
    Log.report .accumulate source log c = .ok (log.complainAll source [c]) := rfl

theorem report_bailOut (source : List Char) (log : Log) (c : Complaint) :
    Log.report .bailOut source log c =
      .error (log.failure (.ofComplaint log.document source c)) := by
  cases hHeld : log.held with
  | nil => simp [report, complain, record, takeError, Error.ofDiagnostics?, failure, hHeld]
  | cons first others =>
      simp [report, complain, record, takeError, Error.ofDiagnostics?, failure, hHeld]

/-- Whatever a report does to the diagnostics, the log stays about the same
document. -/
theorem document_of_report (hReport : Log.report mode source log c = .ok log') :
    log'.document = log.document := by
  cases mode with
  | bailOut => simp [report_bailOut] at hReport
  | accumulate =>
      rw [report_accumulate] at hReport
      cases hReport
      rfl

@[simp]
theorem reportAll_nil (mode : Mode) (source : List Char) (log : Log) :
    log.reportAll mode source [] = .ok log := rfl

theorem reportAll_cons (mode : Mode) (source : List Char) (log : Log) (c : Complaint)
    (cs : List Complaint) :
    log.reportAll mode source (c :: cs) =
      (Log.report mode source log c).bind fun log => log.reportAll mode source cs := rfl

theorem reportAll_append (mode : Mode) (source : List Char) (log : Log)
    (first second : List Complaint) :
    log.reportAll mode source (first ++ second) =
      (log.reportAll mode source first).bind fun log =>
        log.reportAll mode source second := by
  simp only [reportAll, List.foldlM_append]
  rfl

theorem document_of_reportAll {cs : List Complaint}
    (hReport : log.reportAll mode source cs = .ok log') : log'.document = log.document := by
  induction cs generalizing log with
  | nil =>
      cases hReport
      rfl
  | cons c cs ih =>
      rw [reportAll_cons] at hReport
      cases hFirst : Log.report mode source log c with
      | error e => simp [hFirst, Except.bind] at hReport
      | ok middle =>
          rw [hFirst] at hReport
          exact (ih hReport).trans (document_of_report hFirst)

theorem reportAll_accumulate (source : List Char) (log : Log) (cs : List Complaint) :
    log.reportAll .accumulate source cs = .ok (log.complainAll source cs) := by
  induction cs generalizing log with
  | nil => simp [complainAll]
  | cons c cs ih =>
      rw [reportAll_cons, report_accumulate]
      change (log.complainAll source [c]).reportAll .accumulate source cs = _
      rw [ih]
      simp [complainAll]

theorem reportAll_bailOut_cons (source : List Char) (log : Log) (c : Complaint)
    (cs : List Complaint) :
    log.reportAll .bailOut source (c :: cs) =
      .error (log.failure (.ofComplaint log.document source c)) := by
  rw [reportAll_cons, report_bailOut]
  rfl

end Log

namespace Assembly

variable {mode : Mode} {source : List Char}

/-- The tree after the next part, whatever there is to complain about. -/
def grow (a : Assembly) : Part → Assembly
  | .complaint _ => a
  | .text text span => a.add (.literal text span)
  | .reference name span => a.add (.variable name span)
  | .openIf polarity name nameSpan span =>
    a.enter (.conditional polarity name nameSpan span [])
  | .openBroken => a.enter .broken
  | .close span =>
    match a.scopes with
    | [] => a
    | .broken :: outer => { a with scopes := outer }
    | .conditional polarity name nameSpan opening body :: outer =>
      { a with scopes := outer }.add
        (.conditional polarity (.variable name nameSpan) body.reverse (opening.cover span))

/-- What there is to complain about when the next part is taken in. -/
def faults (a : Assembly) : Part → List Complaint
  | .complaint c => [c]
  | .close span => if a.scopes.isEmpty then [⟨.strayEndIf, span⟩] else []
  | _ => []

def growAll (a : Assembly) (parts : List Part) : Assembly :=
  parts.foldl grow a

/-- What there is to complain about in the parts, in their order. -/
def faultsAll (a : Assembly) : List Part → List Complaint
  | [] => []
  | p :: rest => a.faults p ++ (a.grow p).faultsAll rest

@[simp]
theorem growAll_nil (a : Assembly) : a.growAll [] = a := rfl

@[simp]
theorem growAll_cons (a : Assembly) (p : Part) (rest : List Part) :
    a.growAll (p :: rest) = (a.grow p).growAll rest := rfl

theorem add_log (a : Assembly) (e : Element) (log : Log) :
    { a with log }.add e = { a.add e with log } := by
  obtain ⟨held, scopes, elements⟩ := a
  cases scopes with
  | nil => rfl
  | cons scope outer => cases scope <;> rfl

/-- The tree takes no notice of the log. -/
theorem grow_log (a : Assembly) (p : Part) (log : Log) :
    { a with log }.grow p = { a.grow p with log } := by
  cases p with
  | complaint c => rfl
  | text text span => exact add_log a _ log
  | reference name span => exact add_log a _ log
  | openIf polarity name nameSpan span => rfl
  | openBroken => rfl
  | close span =>
      obtain ⟨held, scopes, elements⟩ := a
      cases scopes with
      | nil => rfl
      | cons scope outer =>
          cases scope with
          | broken => rfl
          | conditional polarity name nameSpan opening body =>
              exact add_log ⟨held, outer, elements⟩ _ log

theorem growAll_log (a : Assembly) (parts : List Part) (log : Log) :
    { a with log }.growAll parts = { a.growAll parts with log } := by
  induction parts generalizing a with
  | nil => rfl
  | cons p rest ih => rw [growAll_cons, growAll_cons, grow_log, ih]

theorem faultsAll_log (a : Assembly) (parts : List Part) (log : Log) :
    { a with log }.faultsAll parts = a.faultsAll parts := by
  induction parts generalizing a with
  | nil => rfl
  | cons p rest ih =>
      simp only [faultsAll, grow_log, ih]
      cases p <;> rfl

/-- Taking in a part is reporting its faults and growing the tree. -/
theorem step_eq (mode : Mode) (source : List Char) (a : Assembly) (p : Part) :
    a.step mode source p =
      (a.log.reportAll mode source (a.faults p)).map fun log => { a.grow p with log } := by
  obtain ⟨log, scopes, elements⟩ := a
  have hReport (c : Complaint) :
      Assembly.report mode source ⟨log, scopes, elements⟩ c =
        (log.reportAll mode source [c]).map fun log => ⟨log, scopes, elements⟩ := by
    rw [Log.reportAll_cons]
    simp only [Assembly.report]
    cases Log.report mode source log c <;> rfl
  cases p with
  | complaint c => exact hReport c
  | close span =>
      cases scopes with
      | nil => exact hReport ⟨.strayEndIf, span⟩
      | cons scope outer =>
          cases scope with
          | broken => rfl
          | conditional polarity name nameSpan opening body =>
              exact congrArg Except.ok (add_log ⟨log, outer, elements⟩ _ log)
  | text text span => exact congrArg Except.ok (add_log ⟨log, scopes, elements⟩ _ log)
  | reference name span => exact congrArg Except.ok (add_log ⟨log, scopes, elements⟩ _ log)
  | openIf polarity name nameSpan span => rfl
  | openBroken => rfl

/-- A whole run reports the faults of its parts in order. In bail-out mode the
tree of a failed run is lost with it. -/
theorem foldlM_step (mode : Mode) (source : List Char) (parts : List Part) (a : Assembly) :
    parts.foldlM (Assembly.step mode source) a =
      (a.log.reportAll mode source (a.faultsAll parts)).map fun log =>
        { a.growAll parts with log } := by
  induction parts generalizing a with
  | nil => rfl
  | cons p rest ih =>
      rw [List.foldlM_cons, step_eq, faultsAll, Log.reportAll_append]
      cases hFirst : a.log.reportAll mode source (a.faults p) with
      | error e => rfl
      | ok log =>
          change rest.foldlM (Assembly.step mode source) { a.grow p with log } = _
          rw [ih, faultsAll_log, growAll_log]
          rfl

end Assembly

namespace Engine

/-- The reading of a source as far as it needs no log. -/
def assembly (g : Engine) (source : List Char) : Assembly :=
  (Assembly.start (.empty ⟨"", none⟩)).growAll (g.parts source)

/-- The elements that can be read from a source. -/
def elements (g : Engine) (source : List Char) : List Element :=
  (g.assembly source).elements.reverse

/-- The complaints about the conditionals that are open at the end, outermost
first. -/
def unclosed (g : Engine) (source : List Char) : List Complaint :=
  (g.assembly source).scopes.reverse.filterMap Assembly.unclosed?

/-- All complaints about a source in the order in which they come up. -/
def complaints (g : Engine) (source : List Char) : List Complaint :=
  (Assembly.start (.empty ⟨"", none⟩)).faultsAll (g.parts source) ++ g.unclosed source

/-- The mode has no influence on what is wrong with a source. -/
theorem complaints_mode (m : Markup) (mode mode' : Mode) (source : List Char) :
    (Engine.mk m mode).complaints source = (Engine.mk m mode').complaints source := rfl

/-- Reading a source is reporting its complaints. The mode only decides what
becomes of them. -/
theorem parseWith_eq (g : Engine) (source : List Char) (log : Log) :
    g.parseWith source log =
      log.settle ((log.reportAll g.mode source (g.complaints source)).map fun log' =>
        (⟨log.document, source, g.elements source⟩, log')) := by
  have hStart : Assembly.start log =
      { Assembly.start (.empty ⟨"", none⟩) with log } := rfl
  unfold parseWith
  rw [Assembly.foldlM_step, hStart, Assembly.faultsAll_log, Assembly.growAll_log, complaints,
    Log.reportAll_append]
  cases hParts : log.reportAll g.mode source
      ((Assembly.start (.empty ⟨"", none⟩)).faultsAll (g.parts source)) with
  | error e => rfl
  | ok middle =>
      change log.settle (Except.bind ((middle.reportAll g.mode source (g.unclosed source)).bind
        _) _) = log.settle (Except.map _ (middle.reportAll g.mode source (g.unclosed source)))
      cases hUnclosed : middle.reportAll g.mode source (g.unclosed source) with
      | error e => rfl
      | ok last =>
          have hDocument : last.document = log.document :=
            (Log.document_of_reportAll hUnclosed).trans (Log.document_of_reportAll hParts)
          rw [← hDocument]
          rfl

/-- Cutting a source into tokens is reporting the complaints about them. -/
theorem tokenize_eq (g : Engine) (source : List Char) (log : Log) :
    g.tokenize source log =
      log.settle ((log.reportAll g.mode source
        ((g.tokens source).filterMap Token.complaint?)).map fun log' =>
          (g.tokens source, log')) := by
  unfold tokenize Log.reportAll
  dsimp only
  cases ((g.tokens source).filterMap Token.complaint?).foldlM (Log.report g.mode source) log <;>
    rfl

theorem parseWith_accumulate (m : Markup) (source : List Char) (log : Log) :
    (Engine.mk m .accumulate).parseWith source log =
      (.ok ⟨log.document, source, (Engine.mk m .accumulate).elements source⟩,
        log.complainAll source ((Engine.mk m .accumulate).complaints source)) := by
  rw [parseWith_eq, Log.reportAll_accumulate]
  rfl

theorem parseWith_bailOut_of_sound {m : Markup} {source : List Char}
    (hSound : (Engine.mk m .bailOut).complaints source = []) (log : Log) :
    (Engine.mk m .bailOut).parseWith source log =
      (.ok ⟨log.document, source, (Engine.mk m .bailOut).elements source⟩, log) := by
  rw [parseWith_eq, hSound, Log.reportAll_nil]
  rfl

theorem parseWith_bailOut_of_fault {m : Markup} {source : List Char} {c : Complaint}
    {cs : List Complaint} (hFault : (Engine.mk m .bailOut).complaints source = c :: cs)
    (log : Log) :
    (Engine.mk m .bailOut).parseWith source log =
      (.error (log.failure (.ofComplaint log.document source c)), log.cleared) := by
  rw [parseWith_eq, hFault, Log.reportAll_bailOut_cons]
  rfl

/-- Reading succeeds, in either mode, exactly where nothing is wrong. -/
theorem parse_eq_ok_iff {g : Engine} {source : List Char} {document : Document}
    {t : Template} :
    g.parse source document = .ok t ↔
      g.complaints source = [] ∧ t = ⟨document, source, g.elements source⟩ := by
  obtain ⟨m, mode⟩ := g
  unfold parse
  cases mode with
  | accumulate =>
      rw [parseWith_accumulate]
      cases hComplaints : (Engine.mk m .accumulate).complaints source with
      | nil =>
          change Except.ok _ = Except.ok t ↔ _
          simp [Log.empty, eq_comm]
      | cons c cs =>
          change Except.error _ = Except.ok t ↔ _
          simp
  | bailOut =>
      cases hComplaints : (Engine.mk m .bailOut).complaints source with
      | nil =>
          rw [parseWith_bailOut_of_sound hComplaints]
          change Except.ok _ = Except.ok t ↔ _
          simp [Log.empty, eq_comm]
      | cons c cs =>
          rw [parseWith_bailOut_of_fault hComplaints]
          change Except.error _ = Except.ok t ↔ _
          simp

/-- A template is what was read from its source, whether or not there were
complaints. -/
theorem eq_of_parseWith {g : Engine} {source : List Char} {log : Log} {t : Template}
    (hRead : (g.parseWith source log).1 = .ok t) :
    t = ⟨log.document, source, g.elements source⟩ := by
  rw [parseWith_eq] at hRead
  cases hReport : log.reportAll g.mode source (g.complaints source) with
  | error e =>
      rw [hReport] at hRead
      cases hRead
  | ok last =>
      rw [hReport] at hRead
      exact (Except.ok.inj hRead).symm

end Engine

end Bulletin
