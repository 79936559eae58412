import Bulletin.Proofs.Faults

/-! The reading of a control block against the faults of its lines. At each line
the reader knows of the lines before it just what the line is judged by. -/
namespace Bulletin.Control

open Text

namespace Scan

/-- The second reading is the first with some more complaints. The entries of the
block may differ. -/
structure Adds (s t : Scan) (complaints : List Complaint) : Prop where
  version : t.version = s.version
  forced : t.forced = s.forced
  started : t.started = s.started
  firstLines : t.firstLines = s.firstLines
  document : t.common.document = s.common.document
  complaints : t.complaints = s.complaints ++ complaints

theorem complain_adds (s : Scan) (fault : Fault) (span : Span) :
    s.Adds (s.complain fault span) [fault.complaint span] :=
  ⟨rfl, rfl, rfl, rfl, rfl, rfl⟩

/-- Entries may be added to the block of a document without any complaint. -/
theorem adds_of_entries {s : Scan} {common : Common} {extras : Extras}
    (hDocument : common.document = s.common.document) :
    s.Adds { s with common := common, extras := extras } [] :=
  ⟨rfl, rfl, rfl, rfl, hDocument, (List.append_nil _).symm⟩

theorem Adds.trans {s t u : Scan} {first second : List Complaint} (hst : s.Adds t first)
    (htu : t.Adds u second) : s.Adds u (first ++ second) where
  version := htu.version.trans hst.version
  forced := htu.forced.trans hst.forced
  started := htu.started.trans hst.started
  firstLines := htu.firstLines.trans hst.firstLines
  document := htu.document.trans hst.document
  complaints := by rw [htu.complaints, hst.complaints, List.append_assoc]

section Values

variable {s : Scan} {d : Directive} {value : List Char} {span : Span}

theorem withPair_adds {shape : PairShape} {use : Scan → String → String → Scan}
    (hUse : ∀ left right, s.Adds (use s left right) []) :
    s.Adds (s.withPair d shape value span use) (pairFaults shape d span value) := by
  unfold withPair pairFaults
  split
  · next left right hPair =>
      rw [if_pos (isSome_pair?_iff.mp (by simp [hPair]))]
      exact hUse left right
  · next hNone =>
      have hPair : ¬ IsPair value := fun h => by simpa [hNone] using isSome_pair?_iff.mpr h
      rw [if_neg hPair]
      exact s.complain_adds _ _

theorem withItems_adds {use : Scan → List (List Char) → Scan} {complaints : List Complaint}
    (hUse : s.Adds (use s (splitAll ',' value)) complaints) :
    s.Adds (s.withItems d value span use)
      (if [] ∈ splitAll ',' value then itemFaults d span value else complaints) := by
  have hAny : (splitAll ',' value).any List.isEmpty = true ↔ [] ∈ splitAll ',' value := by
    simp [List.any_eq_true]
  unfold withItems items? itemFaults
  by_cases hEmpty : [] ∈ splitAll ',' value
  · simp only [if_pos (hAny.mpr hEmpty), if_pos hEmpty]
    exact s.complain_adds _ _
  · simp only [if_neg (mt hAny.mp hEmpty), if_neg hEmpty]
    exact hUse

theorem addPickupManagers_adds (line : Nat) (span : Span) (s : Scan)
    (items : List (List Char)) : s.Adds (addPickupManagers line span s items)
      (items.flatMap (pairFaults .userRestaurant .pickupManagers span)) := by
  unfold addPickupManagers
  induction items generalizing s with
  | nil => exact adds_of_entries rfl
  | cons item rest ih =>
      rw [List.foldl_cons, List.flatMap_cons]
      exact Adds.trans (withPair_adds fun _ _ => adds_of_entries rfl) (ih _)

/-- Whatever an accepted directive is, only `version` changes more than the
entries and the complaints. -/
theorem apply_adds {line : Nat} {keySpan : Span} (hd : d ≠ .version) :
    s.Adds (s.apply line d value keySpan span) (valueFaults d value span) := by
  have hItems (use : Scan → List (List Char) → Scan)
      (hUse : s.Adds (use s (splitAll ',' value)) []) :
      s.Adds (s.withItems d value span use) (itemFaults d span value) := by
    have hNone : itemFaults d span value =
        if [] ∈ splitAll ',' value then itemFaults d span value else [] := by
      simp [itemFaults]
    rw [hNone]
    exact withItems_adds hUse
  cases d with
  | version => exact absurd rfl hd
  | opsManager => exact withPair_adds fun _ _ => adds_of_entries rfl
  | splitRestaurant => exact withPair_adds fun _ _ => adds_of_entries rfl
  | backupDriver => exact hItems _ (adds_of_entries rfl)
  | altMealOptions => exact hItems _ (adds_of_entries rfl)
  | altGroceryOptions => exact hItems _ (adds_of_entries rfl)
  | startTimes => exact hItems _ (adds_of_entries rfl)
  | pickupManagers => exact withItems_adds (addPickupManagers_adds line span s _)
  | unknown _ => exact adds_of_entries rfl

end Values

/-- What a reader that has read some lines knows of them. -/
structure Follows (forced? : Option Version) (document : Document) (earlier : List Line)
    (s : Scan) : Prop where
  version : s.version = versionAfter forced? earlier
  forced : s.forced = forced?.isSome
  started : s.started = hasAccepted forced? earlier
  firstLine? : ∀ d : Directive, d.isUnique →
    s.firstLine? d = (firstSetting? earlier d).map Line.number
  document : s.common.document = document
  complaints : s.complaints = complaintsOf forced? earlier

theorem start_follows (document : Document) (forced? : Option Version) :
    (start document forced?).Follows forced? document [] := by
  constructor <;> simp [start, versionAfter, namedVersion?, hasAccepted, withEarlier, firstLine?,
    firstSetting?, complaintsOf, Common.empty]

section Step

variable {forced? : Option Version} {document : Document} {earlier : List Line} {line : Line}
  {s t : Scan}

theorem Follows.rejection? (hFollows : s.Follows forced? document earlier) (key : String)
    (d : Directive) : s.rejection? line.number key d = keyFault? forced? earlier line key d := by
  have hFirst :
      (if d.isUnique then (s.firstLine? d).map (Fault.duplicate d line.number) else none) =
        if d.isUnique then
          (firstSetting? earlier d).map fun first => Fault.duplicate d line.number first.number
        else none := by
    split
    · next hUnique =>
        rw [hFollows.firstLine? d hUnique, Option.map_map]
        rfl
    · rfl
  cases d <;> simp only [Scan.rejection?, keyFault?, hFollows.version, hFirst]

/-- A line that is not accepted leaves only its complaints. -/
theorem Follows.reject (hFollows : s.Follows forced? document earlier)
    (hRejected : isAccepted forced? earlier line = false)
    (hAdds : s.Adds t (faultsOf forced? earlier line)) :
    t.Follows forced? document (earlier ++ [line]) where
  version := by
    rw [hAdds.version, hFollows.version, versionAfter_append_of_not_accepted hRejected]
  forced := hAdds.forced.trans hFollows.forced
  started := by
    rw [hAdds.started, hFollows.started, hasAccepted_append_singleton, hRejected, Bool.or_false]
  firstLine? d hUnique := by
    have hSame : (firstSetting? (earlier ++ [line]) d) = firstSetting? earlier d := by
      rw [firstSetting?_append_singleton]
      split
      · next hDirective =>
          have hFirst := isSome_firstSetting?_of_not_accepted hRejected hDirective hUnique
          exact Option.or_of_isSome hFirst
      · exact Option.or_none
    rw [hSame, ← hFollows.firstLine? d hUnique, Scan.firstLine?, Scan.firstLine?,
      hAdds.firstLines]
  document := hAdds.document.trans hFollows.document
  complaints := by rw [hAdds.complaints, hFollows.complaints, complaintsOf_append_singleton]

/-- The reader remembers the line that sets a unique directive. -/
def remember (s : Scan) (line : Nat) (d : Directive) : Scan :=
  { s with firstLines := if d.isUnique then (d, line) :: s.firstLines else s.firstLines }

theorem remember_eq (s : Scan) (line : Nat) (d : Directive) : s.remember line d =
    if d.isUnique then { s with firstLines := (d, line) :: s.firstLines } else s := by
  unfold remember
  split <;> rfl

theorem remember_firstLine? (s : Scan) (line : Nat) (d d' : Directive) (hUnique : d'.isUnique) :
    (s.remember line d).firstLine? d' = if d' = d then some line else s.firstLine? d' := by
  unfold remember Scan.firstLine?
  by_cases hSame : d' = d
  · subst hSame
    simp [hUnique]
  · have hOther : (d' == d) = false := beq_eq_false_iff_ne.mpr hSame
    rw [if_neg hSame]
    split
    · rw [List.lookup_cons, hOther]
    · rfl

/-- A version is taken over unless the caller chose another. -/
theorem nameVersion_adds {v : Version} {span : Span}
    (hVersion : s.version = versionAfter forced? earlier) (hForced : s.forced = forced?.isSome) :
    { s with version := forced?.getD v }.Adds
      (if s.forced && v != s.version then s.complain (.versionConflict v s.version) span
        else { s with version := v })
      ((forced?.filter (v != ·)).toList.map fun expected =>
        (Fault.versionConflict v expected).complaint span) := by
  cases forced? with
  | none =>
      have hFree : ¬ (s.forced && v != s.version) := by simp [hForced]
      rw [if_neg hFree]
      exact adds_of_entries rfl
  | some expected =>
      obtain rfl : s.version = expected := hVersion
      by_cases hConflict : v = s.version
      · have hFree : ¬ (s.forced && v != s.version) := by simp [hConflict]
        have hFilter : (some s.version).filter (v != ·) = none := by
          simp [Option.filter, hConflict]
        rw [if_neg hFree, hFilter, hConflict]
        exact adds_of_entries rfl
      · have hBound : s.forced && v != s.version := by simp [hForced, hConflict]
        have hFilter : (some s.version).filter (v != ·) = some s.version := by
          simp [Option.filter, hConflict]
        rw [if_pos hBound, hFilter]
        exact s.complain_adds _ _

theorem setVersion_adds {value : List Char} {keySpan valueSpan : Span}
    (hVersion : s.version = versionAfter forced? earlier) (hForced : s.forced = forced?.isSome)
    (hStarted : s.started = hasAccepted forced? earlier)
    (hLine : line.version? = Version.ofText? (String.ofList value)) :
    { s with version := versionAfter forced? (earlier ++ [line]) }.Adds
      (s.setVersion value keySpan valueSpan)
      (versionFaults forced? earlier (String.ofList value) keySpan valueSpan) := by
  by_cases hAccepted : hasAccepted forced? earlier
  · rw [versionAfter_append_of_hasAccepted hAccepted, ← hVersion, setVersion,
      if_pos (hStarted.trans hAccepted), versionFaults, if_pos hAccepted]
    exact s.complain_adds _ _
  · have hFresh : ¬ s.started := by rwa [hStarted]
    rw [setVersion, if_neg hFresh, versionFaults, if_neg hAccepted]
    cases hValue : Version.ofText? (String.ofList value) with
    | none =>
        rw [versionAfter_append_of_eq_none (hLine.trans hValue), ← hVersion]
        exact s.complain_adds _ _
    | some v =>
        rw [versionAfter_append_of_fresh hAccepted (hLine.trans hValue)]
        exact nameVersion_adds hVersion hForced

/-- A line that is accepted can set the version, and is remembered if its
directive is unique. -/
theorem Follows.accept {d : Directive} (hFollows : s.Follows forced? document earlier)
    (hDirective : line.directive? = some d) (hAccepted : isAccepted forced? earlier line)
    (hAdds : { s.remember line.number d with
      version := versionAfter forced? (earlier ++ [line]) }.Adds t
        (faultsOf forced? earlier line)) :
    { t with started := true }.Follows forced? document (earlier ++ [line]) where
  version := hAdds.version
  forced := by rw [hAdds.forced, remember, hFollows.forced]
  started := by rw [hasAccepted_append_singleton, hAccepted, Bool.or_true]
  firstLine? d' hUnique := by
    have hSame : t.firstLine? d' = (s.remember line.number d).firstLine? d' := by
      rw [Scan.firstLine?, hAdds.firstLines, Scan.firstLine?]
    change t.firstLine? d' = _
    rw [hSame, remember_firstLine? s line.number d d' hUnique, firstSetting?_append_singleton,
      hDirective, hFollows.firstLine? d' hUnique]
    by_cases hd : d' = d
    · subst hd
      simp [firstSetting?_eq_none_of_accepted hAccepted hDirective hUnique]
    · simp [hd, Ne.symm hd]
  document := by rw [hAdds.document, remember, hFollows.document]
  complaints := by
    rw [hAdds.complaints, remember, hFollows.complaints, complaintsOf_append_singleton]

theorem Follows.assign {key value : List Char} {keySpan valueSpan : Span}
    (hFollows : s.Follows forced? document earlier)
    (hAssign : line.assignment? = some (key, value))
    (hFaults : faultsOf forced? earlier line =
      assignmentFaults forced? earlier line key value keySpan valueSpan) :
    (s.assign line.number key value keySpan valueSpan).Follows forced? document
      (earlier ++ [line]) := by
  obtain ⟨d, hd⟩ : ∃ d, Directive.ofKey (String.ofList key) = d := ⟨_, rfl⟩
  have hDirective : line.directive? = some d := by
    rw [Line.directive?, hAssign, ← hd]
    rfl
  unfold Scan.assign
  simp only [hd, hFollows.rejection?, ← remember_eq]
  cases hFault : keyFault? forced? earlier line (String.ofList key) d with
  | some fault =>
      have hRejected : isAccepted forced? earlier line = false := by
        rw [← Bool.not_eq_true, isAccepted_iff hDirective, hFault]
        exact Option.some_ne_none fault
      refine hFollows.reject hRejected ?_
      simp only [hFaults, assignmentFaults, hd, hFault]
      exact s.complain_adds _ _
  | none =>
      refine hFollows.accept hDirective ((isAccepted_iff hDirective).mpr hFault) ?_
      simp only [hFaults, assignmentFaults, hd, hFault]
      by_cases hVersion : d = .version
      · have hNamed : line.version? = Version.ofText? (String.ofList value) := by
          simp only [Line.version?, hAssign, Option.bind_some, hd, if_pos hVersion]
        rw [if_pos hVersion, hVersion]
        exact setVersion_adds hFollows.version hFollows.forced hFollows.started hNamed
      · have hNamed : line.version? = none := by
          simp only [Line.version?, hAssign, Option.bind_some, hd, if_neg hVersion]
        rw [if_neg hVersion, versionAfter_append_of_eq_none hNamed, ← hFollows.version]
        exact apply_adds hVersion

theorem readLine_of_silent (s : Scan) (hSilent : line.IsSilent) : s.readLine line = s := by
  rw [readLine, Line.reading_eq, if_pos hSilent]

/-- One line read. -/
theorem Follows.readLine (hFollows : s.Follows forced? document earlier) (line : Line) :
    (s.readLine line).Follows forced? document (earlier ++ [line]) := by
  unfold Scan.readLine
  rw [Line.reading_eq]
  by_cases hSilent : line.IsSilent
  · rw [if_pos hSilent]
    refine hFollows.reject (by simp [isAccepted, Line.directive?, Line.assignment?, hSilent]) ?_
    rw [faultsOf, if_pos hSilent]
    exact adds_of_entries rfl
  · rw [if_neg hSilent]
    cases hSplit : splitFirst? '=' line.text with
    | none =>
        have hRejected : isAccepted forced? earlier line = false := by
          simp [isAccepted, Line.directive?, Line.assignment?, hSplit]
        refine hFollows.reject hRejected ?_
        rw [faultsOf, if_neg hSilent, hSplit]
        exact s.complain_adds _ _
    | some sides =>
        obtain ⟨key, value⟩ := sides
        have hAssign : line.assignment? = some (squeeze key, squeeze value) := by
          simp [Line.assignment?, hSilent, hSplit]
        refine hFollows.assign hAssign ?_
        rw [faultsOf, if_neg hSilent, hSplit]

end Step

/-- All lines read. -/
theorem foldl_readLine_follows (document : Document) (forced? : Option Version)
    (lines : List Line) :
    (lines.foldl readLine (start document forced?)).Follows forced? document lines := by
  induction lines using List.reverseRecOn with
  | nil => exact start_follows document forced?
  | append_singleton earlier line ih =>
      rw [List.foldl_append]
      exact ih.readLine line

theorem finish_eq_error_iff {s : Scan} {text : List Char} {e : Error} :
    s.finish text = .error e ↔ ∃ first others, s.complaints = first :: others ∧
      e = .diagnosed (.ofComplaint s.common.document text first)
        (others.map (.ofComplaint s.common.document text)) := by
  unfold finish
  cases s.complaints with
  | nil => cases s.version <;> simp [Error.ofDiagnostics?]
  | cons first others => simp [Error.ofDiagnostics?, eq_comm]

end Scan

namespace Block

/-- Lines that are not accepted neither set a directive nor hide later ones. -/
example : (complaintsOf none (Line.all
    "colour=blue\nops-manager=a|1\r\nops-manager=b|2\nalt-meal-options=Veg".toList)).map
      (·.problem) =
    [.control (.unknownKey "colour"), .control (.duplicate .opsManager 3 2),
      .control (.undefinedKey "alt-meal-options" .v200)] := by
  decide +kernel

end Block

end Bulletin.Control
