import Bulletin.Control.Scan
import Bulletin.Proofs.Lines

/-! Everything that is wrong with a control block, told from its lines. What a
line is judged by follows from the lines before it, and a reader that remembers
less than these complains of the same. -/
namespace Bulletin.Control

open Text

/-- Every line with the lines before it. -/
def withEarlier (lines : List Line) : List (List Line × Line) :=
  lines.inits.zip lines

theorem withEarlier_cons (line : Line) (lines : List Line) :
    withEarlier (line :: lines) =
      ([], line) :: (withEarlier lines).map (Prod.map (line :: ·) id) := by
  simp [withEarlier, List.zip_map_left]

theorem withEarlier_append_singleton (lines : List Line) (line : Line) :
    withEarlier (lines ++ [line]) = withEarlier lines ++ [(lines, line)] := by
  induction lines with
  | nil => rfl
  | cons first rest ih => simp [withEarlier_cons, ih]

theorem mem_withEarlier_iff {lines earlier : List Line} {line : Line} :
    (earlier, line) ∈ withEarlier lines ↔ ∃ later, lines = earlier ++ line :: later := by
  induction lines generalizing earlier with
  | nil => simp [withEarlier]
  | cons first rest ih =>
      rw [withEarlier_cons, List.mem_cons, List.mem_map]
      cases earlier with
      | nil => simp [eq_comm]
      | cons head earlier => simp [ih, Prod.ext_iff, eq_comm, and_comm]

namespace Line

/-- What stands on the two sides of the first `=` of a line that is not silent,
without any blanks. -/
def assignment? (line : Line) : Option (List Char × List Char) :=
  if line.IsSilent then none
  else (splitFirst? '=' line.text).map fun (key, value) => (squeeze key, squeeze value)

/-- The directive that the line sets, if it is an assignment. This says nothing
of whether the line is accepted. -/
def directive? (line : Line) : Option Directive :=
  line.assignment?.map fun (key, _) => .ofKey (String.ofList key)

/-- The version that the line names, if it is a `version` line and there is such
a version. -/
def version? (line : Line) : Option Version :=
  line.assignment?.bind fun (key, value) =>
    if Directive.ofKey (String.ofList key) = .version then Version.ofText? (String.ofList value)
    else none

/-- Whether the line sets what the initial version defines. -/
def opens (line : Line) : Bool :=
  line.directive?.any (·.isDefinedIn .initial)

end Line

/-- The version that some lines name. Only the first line that is accepted can
name one, and the initial version is in force there. -/
def namedVersion? (lines : List Line) : Option Version :=
  (lines.find? Line.opens).bind Line.version?

/-- The version in force behind some lines: that of the caller, else the one that
the lines name, else the initial one. -/
def versionAfter (forced? : Option Version) (earlier : List Line) : Version :=
  (forced?.or (namedVersion? earlier)).getD .initial

/-- The first of some lines that sets the directive. -/
def firstSetting? (earlier : List Line) (d : Directive) : Option Line :=
  earlier.find? fun line => line.directive? == some d

/-- Whether a line is accepted behind some others. Its value does not matter. -/
def isAccepted (forced? : Option Version) (earlier : List Line) (line : Line) : Bool :=
  line.directive?.any fun d =>
    d.isDefinedIn (versionAfter forced? earlier) &&
      !(d.isUnique && (firstSetting? earlier d).isSome)

def hasAccepted (forced? : Option Version) (lines : List Line) : Bool :=
  (withEarlier lines).any fun (earlier, line) => isAccepted forced? earlier line

/-- A text that can be one half of a pair. -/
def IsHalf (text : List Char) : Prop :=
  text ≠ [] ∧ '|' ∉ text ∧ ',' ∉ text

/-- Two halves with a single bar between them. -/
def IsPair (value : List Char) : Prop :=
  ∃ left right, value = left ++ '|' :: right ∧ IsHalf left ∧ IsHalf right

theorem isHalf_iff {text : List Char} : Scan.isHalf text = true ↔ IsHalf text := by
  simp only [Scan.isHalf, IsHalf, Bool.and_eq_true, Bool.not_eq_true', List.isEmpty_eq_false_iff,
    List.any_eq_false, Bool.or_eq_true, beq_iff_eq, not_or]
  constructor
  · intro ⟨hText, hNone⟩
    exact ⟨hText, fun h => (hNone _ h).1 rfl, fun h => (hNone _ h).2 rfl⟩
  · intro ⟨hText, hBar, hComma⟩
    refine ⟨hText, fun c hc => ⟨?_, ?_⟩⟩ <;> rintro rfl
    · exact hBar hc
    · exact hComma hc

theorem isSome_pair?_iff {value : List Char} : (Scan.pair? value).isSome ↔ IsPair value := by
  unfold Scan.pair?
  constructor
  · intro hPair
    split at hPair
    · next left right hSplit =>
        obtain ⟨hValue, -⟩ := splitFirst?_eq_some_iff.mp hSplit
        split at hPair
        · next hHalves =>
            rw [Bool.and_eq_true, isHalf_iff, isHalf_iff] at hHalves
            exact ⟨left, right, hValue, hHalves.1, hHalves.2⟩
        · simp at hPair
    · simp at hPair
  · intro ⟨left, right, hValue, hLeft, hRight⟩
    have hSplit := splitFirst?_eq_some_iff.mpr ⟨hValue, hLeft.2.1⟩
    simp [hSplit, isHalf_iff.mpr hLeft, isHalf_iff.mpr hRight]

instance (value : List Char) : Decidable (IsPair value) :=
  decidable_of_iff _ isSome_pair?_iff

/-- The complaint about a fault of a control block. -/
def Fault.complaint (fault : Fault) (span : Span) : Complaint :=
  ⟨.control fault, span⟩

/-- What is wrong with a version behind some lines. -/
def versionFaults (forced? : Option Version) (earlier : List Line) (value : String)
    (keySpan valueSpan : Span) : List Complaint :=
  if hasAccepted forced? earlier then [Fault.versionNotFirst.complaint keySpan]
  else
    match Version.ofText? value with
    | none => [(Fault.unknownVersion value).complaint valueSpan]
    | some v =>
      (forced?.filter (v != ·)).toList.map fun expected =>
        (Fault.versionConflict v expected).complaint valueSpan

def pairFaults (shape : PairShape) (d : Directive) (span : Span) (value : List Char) :
    List Complaint :=
  if IsPair value then []
  else [(Fault.malformedPair shape d (String.ofList value)).complaint span]

def itemFaults (d : Directive) (span : Span) (value : List Char) : List Complaint :=
  if [] ∈ splitAll ',' value then [(Fault.emptyItem d).complaint span] else []

/-- What is wrong with the value of a directive, apart from versions. The pairs of
a list are looked at only if no item is empty. -/
def valueFaults (d : Directive) (value : List Char) (span : Span) : List Complaint :=
  match d with
  | .opsManager => pairFaults .userPhone d span value
  | .splitRestaurant => pairFaults .restaurantDriver d span value
  | .backupDriver | .altMealOptions | .altGroceryOptions | .startTimes => itemFaults d span value
  | .pickupManagers =>
    if [] ∈ splitAll ',' value then itemFaults d span value
    else (splitAll ',' value).flatMap (pairFaults .userRestaurant d span)
  | .version | .unknown _ => []

/-- What is wrong with the key of an assignment behind some lines, if anything
is. -/
def keyFault? (forced? : Option Version) (earlier : List Line) (line : Line) (key : String)
    (d : Directive) : Option Fault :=
  if d.isDefinedIn (versionAfter forced? earlier) then
    if d.isUnique then
      (firstSetting? earlier d).map fun first => .duplicate d line.number first.number
    else none
  else
    match d with
    | .unknown _ => some (.unknownKey key)
    | _ => some (.undefinedKey key (versionAfter forced? earlier))

/-- Everything that is wrong with an assignment behind some lines. A key and a
value come without any blanks, and each has the span of what is written. -/
def assignmentFaults (forced? : Option Version) (earlier : List Line) (line : Line)
    (key value : List Char) (keySpan valueSpan : Span) : List Complaint :=
  let d := Directive.ofKey (String.ofList key)
  match keyFault? forced? earlier line (String.ofList key) d with
  | some fault => [fault.complaint keySpan]
  | none =>
    if d = .version then versionFaults forced? earlier (String.ofList value) keySpan valueSpan
    else valueFaults d value valueSpan

/-- Everything that is wrong with a line behind some others. -/
def faultsOf (forced? : Option Version) (earlier : List Line) (line : Line) : List Complaint :=
  if line.IsSilent then []
  else
    match splitFirst? '=' line.text with
    | none =>
      [(Fault.notAssignment (String.ofList (trim line.text))).complaint
        (Line.trimmedSpan line.offset line.text)]
    | some (key, value) =>
      assignmentFaults forced? earlier line (squeeze key) (squeeze value)
        (Line.trimmedSpan line.offset key)
        (Line.trimmedSpan (line.offset + byteLength key + 1) value)

/-- Everything that is wrong with some lines, in their order. -/
def complaintsOf (forced? : Option Version) (lines : List Line) : List Complaint :=
  (withEarlier lines).flatMap fun (earlier, line) => faultsOf forced? earlier line

/-! What one more line changes. -/

section Append

variable {forced? : Option Version} {earlier : List Line} {line : Line}

theorem hasAccepted_append_singleton : hasAccepted forced? (earlier ++ [line]) =
    (hasAccepted forced? earlier || isAccepted forced? earlier line) := by
  simp [hasAccepted, withEarlier_append_singleton]

theorem complaintsOf_append_singleton : complaintsOf forced? (earlier ++ [line]) =
    complaintsOf forced? earlier ++ faultsOf forced? earlier line := by
  simp [complaintsOf, withEarlier_append_singleton]

theorem firstSetting?_append_singleton (d : Directive) :
    firstSetting? (earlier ++ [line]) d =
      (firstSetting? earlier d).or (if line.directive? = some d then some line else none) := by
  rw [firstSetting?, List.find?_append]
  by_cases hHere : line.directive? = some d <;> simp [firstSetting?, hHere]

theorem Line.version?_eq_some_iff {v : Version} : line.version? = some v ↔
    ∃ key value, line.assignment? = some (key, value) ∧
      Directive.ofKey (String.ofList key) = .version ∧
      Version.ofText? (String.ofList value) = some v := by
  simp [Line.version?, Option.bind_eq_some_iff]

theorem Line.directive?_of_version? {v : Version} (hVersion : line.version? = some v) :
    line.directive? = some .version := by
  obtain ⟨key, value, hAssign, hKey, -⟩ := Line.version?_eq_some_iff.mp hVersion
  rw [Line.directive?, hAssign, ← hKey]
  rfl

theorem Line.opens_of_version? {v : Version} (hVersion : line.version? = some v) :
    line.opens = true := by
  rw [Line.opens, Line.directive?_of_version? hVersion]
  rfl

/-- A line that is accepted with the initial version in force names the version,
if it does. Later lines do not. -/
theorem namedVersion?_append_singleton : namedVersion? (earlier ++ [line]) =
    if (earlier.find? Line.opens).isSome then namedVersion? earlier else line.version? := by
  rw [namedVersion?, namedVersion?, List.find?_append]
  cases hFind : earlier.find? Line.opens with
  | some first => rfl
  | none =>
      cases hVersion : line.version? with
      | some v => simp [Line.opens_of_version? hVersion, hVersion]
      | none => cases hOpens : line.opens <;> simp [hOpens, hVersion]

theorem versionAfter_append_of_isSome (hOpened : (earlier.find? Line.opens).isSome) :
    versionAfter forced? (earlier ++ [line]) = versionAfter forced? earlier := by
  simp [versionAfter, namedVersion?_append_singleton, hOpened]

theorem versionAfter_append_of_eq_none (hNone : line.version? = none) :
    versionAfter forced? (earlier ++ [line]) = versionAfter forced? earlier := by
  rw [versionAfter, versionAfter, namedVersion?_append_singleton]
  split
  · rfl
  · next hOpened =>
      have hFind : earlier.find? Line.opens = none := by simpa using hOpened
      simp [namedVersion?, hFind, hNone]

end Append

theorem isSome_firstSetting?_iff {earlier : List Line} {d : Directive} :
    (firstSetting? earlier d).isSome ↔ ∃ line ∈ earlier, line.directive? = some d := by
  simp [firstSetting?, List.find?_isSome]

theorem isSome_find?_opens_of_firstSetting? {earlier : List Line} {d : Directive}
    (hd : d.isDefinedIn .initial) (hFirst : (firstSetting? earlier d).isSome) :
    (earlier.find? Line.opens).isSome := by
  obtain ⟨line, hLine, hDirective⟩ := isSome_firstSetting?_iff.mp hFirst
  exact List.find?_isSome.mpr ⟨line, hLine, by simp [Line.opens, hDirective, hd]⟩

/-- Unless the caller chose a version, the first line that is accepted is the
first that sets what the initial version defines. -/
theorem hasAccepted_none (lines : List Line) :
    hasAccepted none lines = (lines.find? Line.opens).isSome := by
  induction lines using List.reverseRecOn with
  | nil => rfl
  | append_singleton earlier line ih =>
      rw [hasAccepted_append_singleton, ih, List.find?_append]
      cases hFind : earlier.find? Line.opens with
      | some first => rfl
      | none =>
          have hVersion : versionAfter none earlier = .initial := by
            simp [versionAfter, namedVersion?, hFind]
          cases hDirective : line.directive? with
          | none => simp [isAccepted, Line.opens, hDirective]
          | some d =>
              cases hd : d.isDefinedIn .initial with
              | false => simp [isAccepted, Line.opens, hDirective, hVersion, hd]
              | true =>
                  have hFirst : firstSetting? earlier d = none := by
                    refine Option.not_isSome_iff_eq_none.mp fun hSome => ?_
                    simpa [hFind] using isSome_find?_opens_of_firstSetting? hd hSome
                  simp [isAccepted, Line.opens, hDirective, hVersion, hd, hFirst]

section Accepted

variable {forced? : Option Version} {earlier : List Line} {line : Line}

theorem isAccepted_iff {d : Directive} {key : String} (hDirective : line.directive? = some d) :
    isAccepted forced? earlier line ↔ keyFault? forced? earlier line key d = none := by
  simp only [isAccepted, hDirective, Option.any_some, keyFault?]
  cases d.isDefinedIn (versionAfter forced? earlier) with
  | false => cases d <;> simp
  | true => cases d.isUnique <;> simp

/-- The unique directives are defined in every version, so that a line that sets
one is accepted if it is the first to do so. -/
theorem isSome_firstSetting?_of_not_accepted {d : Directive}
    (hRejected : isAccepted forced? earlier line = false) (hDirective : line.directive? = some d)
    (hUnique : d.isUnique) : (firstSetting? earlier d).isSome := by
  have hd : d.isDefinedIn (versionAfter forced? earlier) := by
    cases d <;> first | rfl | cases hUnique
  simpa [isAccepted, hDirective, hd, hUnique] using hRejected

theorem firstSetting?_eq_none_of_accepted {d : Directive}
    (hAccepted : isAccepted forced? earlier line) (hDirective : line.directive? = some d)
    (hUnique : d.isUnique) : firstSetting? earlier d = none := by
  simp only [isAccepted, hDirective, hUnique, Option.any_some, Bool.true_and, Bool.and_eq_true,
    Bool.not_eq_true', Option.isSome_eq_false_iff, Option.isNone_iff_eq_none] at hAccepted
  exact hAccepted.2

theorem versionAfter_append_of_not_accepted (hRejected : isAccepted forced? earlier line = false) :
    versionAfter forced? (earlier ++ [line]) = versionAfter forced? earlier := by
  cases hVersion : line.version? with
  | none => exact versionAfter_append_of_eq_none hVersion
  | some v =>
      have hDirective := Line.directive?_of_version? hVersion
      have hFirst := isSome_firstSetting?_of_not_accepted hRejected hDirective rfl
      exact versionAfter_append_of_isSome (isSome_find?_opens_of_firstSetting? rfl hFirst)

/-- Once a line was accepted the version stays in force. -/
theorem versionAfter_append_of_hasAccepted (hAccepted : hasAccepted forced? earlier) :
    versionAfter forced? (earlier ++ [line]) = versionAfter forced? earlier := by
  cases forced? with
  | some v => rfl
  | none =>
      rw [hasAccepted_none] at hAccepted
      exact versionAfter_append_of_isSome hAccepted

theorem versionAfter_append_of_fresh {v : Version} (hFresh : ¬ hasAccepted forced? earlier)
    (hVersion : line.version? = some v) :
    versionAfter forced? (earlier ++ [line]) = forced?.getD v := by
  cases forced? with
  | some expected => rfl
  | none =>
      rw [hasAccepted_none] at hFresh
      simp [versionAfter, namedVersion?_append_singleton, hFresh, hVersion]

end Accepted

/-- What is wrong with an assignment is pointed at on its line. -/
theorem exists_faultsOf_eq {line : Line} {key value : List Char}
    (hAssign : line.assignment? = some (key, value)) :
    ∃ keySpan valueSpan, line.Holds keySpan ∧ line.Holds valueSpan ∧
      ∀ forced? earlier, faultsOf forced? earlier line =
        assignmentFaults forced? earlier line key value keySpan valueSpan := by
  unfold Line.assignment? at hAssign
  split at hAssign
  · cases hAssign
  · next hLoud =>
      obtain ⟨⟨left, right⟩, hSplit, hSides⟩ := Option.map_eq_some_iff.mp hAssign
      obtain ⟨rfl, rfl⟩ := Prod.mk.inj hSides
      obtain ⟨hText, -⟩ := splitFirst?_eq_some_iff.mp hSplit
      refine ⟨_, _, Line.holds_keySpan hText, Line.holds_valueSpan hText, ?_⟩
      intro forced? earlier
      rw [faultsOf, if_neg hLoud, hSplit]

theorem complaintsOf_ne_nil_iff {forced? : Option Version} {lines : List Line} :
    complaintsOf forced? lines ≠ [] ↔ ∃ earlier line later,
      lines = earlier ++ line :: later ∧ faultsOf forced? earlier line ≠ [] := by
  simp only [complaintsOf, ne_eq, List.flatMap_eq_nil_iff, Prod.forall, mem_withEarlier_iff,
    not_forall]
  constructor
  · intro ⟨earlier, line, ⟨later, hLines⟩, hFaults⟩
    exact ⟨earlier, line, later, hLines, hFaults⟩
  · intro ⟨earlier, line, later, hLines, hFaults⟩
    exact ⟨earlier, line, ⟨later, hLines⟩, hFaults⟩

section Spans

variable {forced? : Option Version} {earlier : List Line} {c : Complaint}

end Spans

end Bulletin.Control
