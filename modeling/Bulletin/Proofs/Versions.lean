import Bulletin.Proofs.Keeping

/-! The version that a control block names against the one that its caller chose.
Two readings of sound lines can differ in the version only. -/
namespace Bulletin.Control

open Text

variable {forced? forced'? : Option Version} {lines earlier later : List Line} {line : Line}
  {v : Version}

theorem complaintsOf_eq_nil_iff : complaintsOf forced? lines = [] ↔
    ∀ earlier line later, lines = earlier ++ line :: later →
      faultsOf forced? earlier line = [] := by
  rw [← not_iff_not, ← ne_eq, complaintsOf_ne_nil_iff]
  simp only [not_forall, exists_prop]

theorem Line.IsSilent.directive?_eq_none (hSilent : line.IsSilent) : line.directive? = none := by
  rw [Line.directive?, Line.assignment?, if_pos hSilent, Option.map_none]

theorem Line.directive?_of_assignment? {key value : List Char}
    (hAssign : line.assignment? = some (key, value)) :
    line.directive? = some (.ofKey (String.ofList key)) := by
  rw [Line.directive?, hAssign]
  rfl

theorem Line.splitFirst?_eq_none (hAssign : line.assignment? = none) (hLoud : ¬ line.IsSilent) :
    splitFirst? '=' line.text = none := by
  simpa [Line.assignment?, hLoud] using hAssign

theorem keyFault?_eq_none_of_sound {key value : List Char}
    (hAssign : line.assignment? = some (key, value)) (hSound : faultsOf forced? earlier line = []) :
    keyFault? forced? earlier line (String.ofList key) (.ofKey (String.ofList key)) = none := by
  obtain ⟨keySpan, valueSpan, -, -, hFaults⟩ := exists_faultsOf_eq hAssign
  rw [hFaults, assignmentFaults] at hSound
  split at hSound
  · cases hSound
  · assumption

/-- A line with which nothing is wrong is accepted, if it says anything. -/
theorem silent_or_accepted (hSound : faultsOf forced? earlier line = []) :
    line.IsSilent ∨ isAccepted forced? earlier line = true := by
  cases hAssign : line.assignment? with
  | none =>
      by_contra hLoud
      rw [not_or] at hLoud
      simp [faultsOf, hLoud.1, Line.splitFirst?_eq_none hAssign hLoud.1] at hSound
  | some sides =>
      have hDirective := Line.directive?_of_assignment? hAssign
      exact Or.inr ((isAccepted_iff hDirective).mpr (keyFault?_eq_none_of_sound hAssign hSound))

theorem silent_of_hasAccepted_eq_false (hSound : complaintsOf forced? lines = [])
    (hFresh : hasAccepted forced? lines = false) : ∀ l ∈ lines, l.IsSilent := by
  intro l hl
  obtain ⟨before, after, hLines⟩ := List.append_of_mem hl
  have hMem : (before, l) ∈ withEarlier lines := mem_withEarlier_iff.mpr ⟨after, hLines⟩
  refine (silent_or_accepted (complaintsOf_eq_nil_iff.mp hSound _ _ _ hLines)).resolve_right ?_
  intro hAccepted
  have hNone := List.any_eq_false.mp hFresh _ hMem
  exact hNone hAccepted

theorem hasAccepted_eq_false_of_silent (hSilent : ∀ l ∈ lines, l.IsSilent) :
    hasAccepted forced? lines = false := by
  refine List.any_eq_false.mpr fun x hx => ?_
  obtain ⟨after, hLines⟩ := mem_withEarlier_iff.mp hx
  have hNone := (hSilent x.2 (by simp [hLines])).directive?_eq_none
  simp [isAccepted, hNone]

theorem versionFaults_eq_nil_iff {value : String} {keySpan valueSpan : Span} :
    versionFaults forced? earlier value keySpan valueSpan = [] ↔
      hasAccepted forced? earlier = false ∧
        ∃ v, Version.ofText? value = some v ∧ ∀ w, forced? = some w → w = v := by
  unfold versionFaults
  cases hasAccepted forced? earlier with
  | true => simp
  | false =>
      cases Version.ofText? value with
      | none => simp
      | some v =>
          cases forced? with
          | none => simp
          | some w => by_cases hSame : v = w <;> simp [Option.filter, hSame, Ne.symm]

/-- A line that sets the version is in order if it is the first to do so, no line was
accepted before it, and the caller did not choose another version. -/
theorem faultsOf_version_eq_nil_iff (hSets : line.directive? = some .version) :
    faultsOf forced? earlier line = [] ↔
      firstSetting? earlier .version = none ∧ hasAccepted forced? earlier = false ∧
        ∃ v, line.version? = some v ∧ ∀ w, forced? = some w → w = v := by
  obtain ⟨⟨key, value⟩, hAssign, hKey⟩ := Option.map_eq_some_iff.mp hSets
  change Directive.ofKey (String.ofList key) = .version at hKey
  obtain ⟨keySpan, valueSpan, -, -, hFaults⟩ := exists_faultsOf_eq hAssign
  have hNamed : line.version? = Version.ofText? (String.ofList value) := by
    rw [Line.version?, hAssign]
    exact if_pos hKey
  simp only [hFaults, assignmentFaults, hKey, hNamed, if_true, keyFault?, Directive.isDefinedIn,
    Directive.isUnique]
  cases firstSetting? earlier .version with
  | some first => simp
  | none => simp [versionFaults_eq_nil_iff]

/-- The first line that says anything names the version, and no other line sets
it. -/
structure Heading (earlier : List Line) (line : Line) (later : List Line) (v : Version) :
    Prop where
  silent : ∀ l ∈ earlier, l.IsSilent
  named : line.version? = some v
  once : ∀ l ∈ later, l.directive? ≠ some .version

theorem exists_heading (hSound : complaintsOf forced? lines = [])
    (hSet : ∃ line ∈ lines, line.directive? = some .version) :
    ∃ earlier line later v, lines = earlier ++ line :: later ∧ Heading earlier line later v ∧
      ∀ w, forced? = some w → w = v := by
  obtain ⟨line, hLine, hSets⟩ := hSet
  obtain ⟨earlier, later, hLines⟩ := List.append_of_mem hLine
  have hFaults := complaintsOf_eq_nil_iff.mp hSound
  obtain ⟨hFirst, hFresh, v, hNamed, hAgree⟩ :=
    (faultsOf_version_eq_nil_iff hSets).mp (hFaults _ _ _ hLines)
  refine ⟨earlier, line, later, v, hLines, ⟨?_, hNamed, fun l hl hAgain => ?_⟩, hAgree⟩
  · have hEarlier : complaintsOf forced? earlier = [] := by
      refine complaintsOf_eq_nil_iff.mpr fun before l after hSplit => ?_
      exact hFaults before l (after ++ line :: later) (by simp [hLines, hSplit])
    exact silent_of_hasAccepted_eq_false hEarlier hFresh
  · obtain ⟨between, after, rfl⟩ := List.append_of_mem hl
    obtain ⟨hNone, -⟩ := (faultsOf_version_eq_nil_iff hAgain).mp
      (hFaults (earlier ++ line :: between) l after (by simp [hLines]))
    have hSome : (firstSetting? (earlier ++ line :: between) .version).isSome :=
      isSome_firstSetting?_iff.mpr ⟨line, by simp, hSets⟩
    rw [hNone] at hSome
    cases hSome

theorem not_opens_of_silent (hSilent : line.IsSilent) : line.opens = false := by
  rw [Line.opens, hSilent.directive?_eq_none, Option.any_none]

/-- The version that a block names is in force from its heading on. -/
theorem Heading.versionAfter_eq (hHeading : Heading earlier line later v)
    (forced? : Option Version) (more : List Line) :
    versionAfter forced? (earlier ++ line :: more) = forced?.getD v := by
  have hNone : earlier.find? Line.opens = none := by
    refine List.find?_eq_none.mpr fun l hl => ?_
    rw [not_opens_of_silent (hHeading.silent l hl)]
    decide
  have hFind : (earlier ++ line :: more).find? Line.opens = some line := by
    rw [List.find?_append, hNone, Option.none_or,
      List.find?_cons_of_pos (Line.opens_of_version? hHeading.named)]
  rw [versionAfter, namedVersion?, hFind, Option.bind_some, hHeading.named]
  cases forced? <;> rfl

theorem versionAfter_of_unset (hUnset : ∀ l ∈ lines, l.directive? ≠ some .version)
    (forced? : Option Version) : versionAfter forced? lines = forced?.getD .initial := by
  have hNone : namedVersion? lines = none := by
    refine Option.eq_none_iff_forall_ne_some.mpr fun v hNamed => ?_
    obtain ⟨l, hFind, hVersion⟩ := Option.bind_eq_some_iff.mp hNamed
    exact hUnset l (List.mem_of_find?_eq_some hFind) (Line.directive?_of_version? hVersion)
  rw [versionAfter, hNone, Option.or_none]

/-- A key that is in order is in order also where more directives are defined. -/
theorem keyFault?_of_defined {key : String} {d : Directive}
    (hMore : d.isDefinedIn (versionAfter forced? earlier) = true →
      d.isDefinedIn (versionAfter forced'? earlier) = true)
    (hSound : keyFault? forced? earlier line key d = none) :
    keyFault? forced'? earlier line key d = none := by
  have hDefined : d.isDefinedIn (versionAfter forced? earlier) = true := by
    by_contra hOther
    cases d <;> simp [keyFault?, hOther] at hSound
  unfold keyFault? at hSound ⊢
  rw [if_pos hDefined] at hSound
  rwa [if_pos (hMore hDefined)]

/-- A line that does not set the version is sound also where more directives are
defined. -/
theorem faultsOf_of_defined (hOther : line.directive? ≠ some .version)
    (hMore : ∀ d : Directive, d.isDefinedIn (versionAfter forced? earlier) = true →
      d.isDefinedIn (versionAfter forced'? earlier) = true)
    (hSound : faultsOf forced? earlier line = []) : faultsOf forced'? earlier line = [] := by
  cases hAssign : line.assignment? with
  | none =>
      unfold faultsOf at hSound ⊢
      split
      · rfl
      · next hLoud => simp [hLoud, Line.splitFirst?_eq_none hAssign hLoud] at hSound
  | some sides =>
      obtain ⟨key, value⟩ := sides
      have hAccepted := keyFault?_eq_none_of_sound hAssign hSound
      obtain ⟨keySpan, valueSpan, -, -, hFaults⟩ := exists_faultsOf_eq hAssign
      have hKey : Directive.ofKey (String.ofList key) ≠ .version := by
        intro hKey
        exact hOther (hKey ▸ Line.directive?_of_assignment? hAssign)
      simpa only [hFaults, assignmentFaults, hAccepted, keyFault?_of_defined (hMore _) hAccepted,
        if_neg hKey] using hSound

/-- Where a line stands against another. -/
theorem append_cons_cases {before after : List Line} {l : Line}
    (hLines : earlier ++ line :: later = before ++ l :: after) :
    l ∈ earlier ∨ (before = earlier ∧ l = line) ∨
      ∃ between, before = earlier ++ line :: between ∧ later = between ++ l :: after := by
  rcases List.append_eq_append_iff.mp hLines with ⟨between, rfl, hRest⟩ | ⟨between, rfl, hRest⟩ <;>
    rcases between with - | ⟨head, between⟩ <;> obtain ⟨rfl, hTail⟩ := List.cons.inj hRest
  · simp
  · exact Or.inr (Or.inr ⟨between, rfl, hTail⟩)
  · simp
  · simp

/-- Lines that are sound with one version in force are sound if the caller chooses it,
and if the caller leaves it to them. -/
theorem complaintsOf_congr (hSound : complaintsOf forced? lines = [])
    (hVersion : versionAfter forced? lines = versionAfter forced'? lines) :
    complaintsOf forced'? lines = [] := by
  have hFaults := complaintsOf_eq_nil_iff.mp hSound
  refine complaintsOf_eq_nil_iff.mpr fun before l after hLines => ?_
  by_cases hSet : ∃ line ∈ lines, line.directive? = some .version
  · obtain ⟨earlier, line, later, v, rfl, hHeading, hAgree⟩ := exists_heading hSound hSet
    have hSame : forced?.getD v = forced'?.getD v := by
      rw [← hHeading.versionAfter_eq forced? later, hVersion, hHeading.versionAfter_eq]
    have hAgree' : ∀ w, forced'? = some w → w = v := by
      rintro w rfl
      cases forced? with
      | none => exact hSame.symm
      | some w' => exact hSame.symm.trans (hAgree w' rfl)
    -- The heading alone is judged by the choice itself. Lines before it are silent, and
    -- those behind it are judged by the version in force.
    obtain hl | ⟨rfl, rfl⟩ | ⟨between, rfl, rfl⟩ := append_cons_cases hLines
    · exact if_pos (hHeading.silent l hl)
    · have hFirst : firstSetting? before .version = none := by
        refine List.find?_eq_none.mpr fun earlier hEarlier => ?_
        simp [(hHeading.silent earlier hEarlier).directive?_eq_none]
      exact (faultsOf_version_eq_nil_iff (Line.directive?_of_version? hHeading.named)).mpr
        ⟨hFirst, hasAccepted_eq_false_of_silent hHeading.silent, v, hHeading.named, hAgree'⟩
    · have hInForce : versionAfter forced? (earlier ++ line :: between) =
          versionAfter forced'? (earlier ++ line :: between) := by
        rw [hHeading.versionAfter_eq, hHeading.versionAfter_eq, hSame]
      exact faultsOf_of_defined (hHeading.once l (by simp)) (fun _ => hInForce ▸ id)
        (hFaults _ l after hLines)
  · have hUnset : ∀ l ∈ lines, l.directive? ≠ some .version := fun l hl hSets => hSet ⟨l, hl, hSets⟩
    have hBefore : ∀ l ∈ before, l.directive? ≠ some .version :=
      fun l hl => hUnset l (by simp [hLines, hl])
    rw [versionAfter_of_unset hUnset, versionAfter_of_unset hUnset] at hVersion
    have hInForce : versionAfter forced? before = versionAfter forced'? before := by
      rw [versionAfter_of_unset hBefore, versionAfter_of_unset hBefore, hVersion]
    exact faultsOf_of_defined (hUnset l (by simp [hLines])) (fun _ => hInForce ▸ id)
      (hFaults before l after hLines)

namespace Scan

variable {s t : Scan} {d : Directive} {value : List Char} {keySpan valueSpan : Span}

/-- The two readings have collected the same. -/
structure Matches (s t : Scan) : Prop where
  common : t.common = s.common
  extras : t.extras = s.extras

theorem withPair_matches {shape : PairShape} {use : Scan → String → String → Scan}
    (hMatches : s.Matches t) (hUse : ∀ left right, (use s left right).Matches (use t left right)) :
    (s.withPair d shape value valueSpan use).Matches (t.withPair d shape value valueSpan use) :=
  withPair_rel Matches (fun _ => ⟨hMatches.common, hMatches.extras⟩) hUse

theorem withItems_matches {use : Scan → List (List Char) → Scan} (hMatches : s.Matches t)
    (hUse : ∀ items, (use s items).Matches (use t items)) :
    (s.withItems d value valueSpan use).Matches (t.withItems d value valueSpan use) :=
  withItems_rel Matches (fun _ => ⟨hMatches.common, hMatches.extras⟩) hUse

theorem Matches.addPickupManagers (hMatches : s.Matches t) (line : Nat) (span : Span)
    (items : List (List Char)) : (Scan.addPickupManagers line span s items).Matches
      (Scan.addPickupManagers line span t items) := by
  unfold Scan.addPickupManagers
  induction items generalizing s t with
  | nil => exact hMatches
  | cons item rest ih =>
      refine ih (withPair_matches hMatches fun left right => ⟨hMatches.common, ?_⟩)
      simp only [addPickupManager, hMatches.extras]

/-- What a directive adds does not depend on the version. -/
theorem Matches.apply (hMatches : s.Matches t) (line : Nat) (d : Directive) (value : List Char)
    (keySpan valueSpan : Span) :
    (s.apply line d value keySpan valueSpan).Matches
      (t.apply line d value keySpan valueSpan) := by
  have hSet (s : Scan) : s.Matches (s.setVersion value keySpan valueSpan) :=
    setVersion_of s.Matches (fun _ => ⟨rfl, rfl⟩) fun _ _ => ⟨rfl, rfl⟩
  obtain ⟨hCommon, hExtras⟩ := hMatches
  cases d with
  | version =>
      exact ⟨(hSet t).common.trans (hCommon.trans (hSet s).common.symm),
        (hSet t).extras.trans (hExtras.trans (hSet s).extras.symm)⟩
  | opsManager =>
      exact withPair_matches ⟨hCommon, hExtras⟩ fun _ _ =>
        ⟨by simp only [setOpsManager, hCommon], hExtras⟩
  | splitRestaurant =>
      exact withPair_matches ⟨hCommon, hExtras⟩ fun _ _ =>
        ⟨by simp only [addSplitRestaurant, hCommon], hExtras⟩
  | backupDriver =>
      exact withItems_matches ⟨hCommon, hExtras⟩ fun _ =>
        ⟨by simp only [addBackupDrivers, hCommon], hExtras⟩
  | altMealOptions =>
      exact withItems_matches ⟨hCommon, hExtras⟩ fun _ =>
        ⟨hCommon, by simp only [addAltMealOptions, hExtras]⟩
  | altGroceryOptions =>
      exact withItems_matches ⟨hCommon, hExtras⟩ fun _ =>
        ⟨hCommon, by simp only [addAltGroceryOptions, hExtras]⟩
  | startTimes =>
      exact withItems_matches ⟨hCommon, hExtras⟩ fun _ =>
        ⟨hCommon, by simp only [addStartTimes, hExtras]⟩
  | pickupManagers =>
      exact withItems_matches ⟨hCommon, hExtras⟩ fun items =>
        Matches.addPickupManagers ⟨hCommon, hExtras⟩ line valueSpan items
  | unknown key => exact ⟨hCommon, hExtras⟩

theorem Matches.assign {line : Nat} {key : List Char} (hMatches : s.Matches t)
    (hs : s.rejection? line (String.ofList key) (.ofKey (String.ofList key)) = none)
    (ht : t.rejection? line (String.ofList key) (.ofKey (String.ofList key)) = none) :
    (s.assign line key value keySpan valueSpan).Matches
      (t.assign line key value keySpan valueSpan) := by
  simp only [Scan.assign, hs, ht, ← remember_eq]
  obtain ⟨d, hd⟩ : ∃ d, Directive.ofKey (String.ofList key) = d := ⟨_, rfl⟩
  have hRemembered : (s.remember line d).Matches (t.remember line d) :=
    ⟨hMatches.common, hMatches.extras⟩
  have hApplied := hRemembered.apply line d value keySpan valueSpan
  rw [hd]
  exact ⟨hApplied.common, hApplied.extras⟩

/-- A line with which nothing is wrong in either reading adds the same to both. -/
theorem Matches.readLine {document : Document} (hMatches : s.Matches t)
    (hFollows : s.Follows forced? document earlier)
    (hFollows' : t.Follows forced'? document earlier)
    (hSound : faultsOf forced? earlier line = []) (hSound' : faultsOf forced'? earlier line = []) :
    (s.readLine line).Matches (t.readLine line) := by
  unfold Scan.readLine
  rw [Line.reading_eq]
  by_cases hSilent : line.IsSilent
  · rw [if_pos hSilent]
    exact hMatches
  · rw [if_neg hSilent]
    cases hSplit : splitFirst? '=' line.text with
    | none => exact ⟨hMatches.common, hMatches.extras⟩
    | some sides =>
        obtain ⟨key, value⟩ := sides
        have hAssign : line.assignment? = some (squeeze key, squeeze value) := by
          simp [Line.assignment?, hSilent, hSplit]
        refine hMatches.assign ?_ ?_
        · rw [hFollows.rejection?, keyFault?_eq_none_of_sound hAssign hSound]
        · rw [hFollows'.rejection?, keyFault?_eq_none_of_sound hAssign hSound']

theorem foldl_readLine_matches {forced? forced'? : Option Version} {lines : List Line}
    (document : Document) (hSound : complaintsOf forced? lines = [])
    (hSound' : complaintsOf forced'? lines = []) :
    (lines.foldl Scan.readLine (start document forced?)).Matches
      (lines.foldl Scan.readLine (start document forced'?)) := by
  induction lines using List.reverseRecOn with
  | nil => exact ⟨rfl, rfl⟩
  | append_singleton earlier line ih =>
      rw [complaintsOf_append_singleton, List.append_eq_nil_iff] at hSound hSound'
      rw [List.foldl_append, List.foldl_append]
      exact (ih hSound.1 hSound'.1).readLine (foldl_readLine_follows ..)
        (foldl_readLine_follows ..) hSound.2 hSound'.2

theorem Matches.block_eq (hMatches : s.Matches t) (hVersion : t.version = s.version) :
    t.block = s.block := by
  unfold block
  rw [hVersion, hMatches.common, hMatches.extras]

end Scan

namespace Block

variable {text : List Char} {document : Document} {b : Block}

/-- Some line sets the version, whether or not it may. -/
def HasVersionLine (text : List Char) : Prop :=
  ∃ line ∈ Line.all text, line.directive? = some .version

instance (text : List Char) : Decidable (HasVersionLine text) :=
  inferInstanceAs (Decidable (∃ line ∈ Line.all text, line.directive? = some .version))

theorem version_of_scan (hScan : scan text document forced? = .ok b) :
    b.version = versionAfter forced? (Line.all text) := by
  obtain ⟨-, rfl⟩ := scan_eq_ok_iff.mp hScan
  rw [Scan.version_block, (Scan.foldl_readLine_follows document forced? _).version]

/-- A block is read again with the same version in force. -/
theorem scan_congr (hScan : scan text document forced? = .ok b)
    (hVersion : versionAfter forced? (Line.all text) = versionAfter forced'? (Line.all text)) :
    scan text document forced'? = .ok b := by
  obtain ⟨hSound, rfl⟩ := scan_eq_ok_iff.mp hScan
  have hSound' := complaintsOf_congr hSound hVersion
  refine scan_eq_ok_iff.mpr ⟨hSound', ?_⟩
  refine (Scan.foldl_readLine_matches document hSound hSound').block_eq ?_
  rw [(Scan.foldl_readLine_follows document forced? _).version, hVersion,
    (Scan.foldl_readLine_follows document forced'? _).version]

/-- A block whose text sets the version is of the version that the text names, also
if the caller chose one. -/
theorem versionAfter_none_of_hasVersionLine (hScan : scan text document forced? = .ok b)
    (hLine : HasVersionLine text) : versionAfter none (Line.all text) = b.version := by
  obtain ⟨hSound, -⟩ := scan_eq_ok_iff.mp hScan
  obtain ⟨earlier, line, later, v, hLines, hHeading, hAgree⟩ := exists_heading hSound hLine
  have hNamed : versionAfter none (Line.all text) = v := by
    rw [hLines, hHeading.versionAfter_eq]
    rfl
  have hInForce : b.version = forced?.getD v := by
    rw [version_of_scan hScan, hLines, hHeading.versionAfter_eq]
  rw [hNamed, hInForce]
  cases forced? with
  | none => rfl
  | some w => exact (hAgree w rfl).symm

/-- A block that is read without a choice of version is read the same if its own
version is chosen. Another choice is refused if some line sets the version. In turn,
a block that is read as version 200, or that has such a line, is read the same
without a choice. A block of version 200 drops nothing that was collected. -/
theorem parse_agrees_with_parseAs (text : List Char) (document : Document) :
    (∀ b, parse text document = .ok b →
      parseAs b.version text document = .ok b ∧
        ∀ v b', v ≠ b.version → parseAs v text document = .ok b' → ¬ HasVersionLine text) ∧
    (∀ v b, parseAs v text document = .ok b → v = .v200 ∨ HasVersionLine text →
      parse text document = .ok b) ∧
    ∀ forced? common,
      ((Line.all text).foldl Scan.readLine (.start document forced?)).finish text =
          .ok (.v200 common) →
        ((Line.all text).foldl Scan.readLine (.start document forced?)).extras = .empty := by
  refine ⟨?_, ?_, ?_⟩
  · intro b hParse
    refine ⟨scan_congr hParse (version_of_scan hParse).symm, ?_⟩
    intro v b' hOther hChosen hLine
    apply hOther
    calc v = b'.version := (version_of_scan hChosen).symm
      _ = versionAfter none (Line.all text) :=
        (versionAfter_none_of_hasVersionLine hChosen hLine).symm
      _ = b.version := (version_of_scan hParse).symm
  · intro v b hChosen hTells
    apply scan_congr hChosen
    by_cases hLine : HasVersionLine text
    · rw [versionAfter_none_of_hasVersionLine hChosen hLine, version_of_scan hChosen]
    · have hUnset : ∀ l ∈ Line.all text, l.directive? ≠ some .version := by
        intro l hl hSets
        exact hLine ⟨l, hl, hSets⟩
      obtain rfl : v = .v200 := hTells.resolve_right hLine
      rw [versionAfter_of_unset hUnset, versionAfter_of_unset hUnset]
      rfl
  · intro forced? common hFinish
    have hKept := Scan.foldl_readLine_kept document forced? (Line.all text)
    obtain ⟨-, hBlock⟩ := Scan.finish_eq_ok_iff.mp hFinish
    rw [← hKept.extras_block, hBlock]
    rfl

theorem parse_agrees_with_parseAs_both :
    (∃ b, parseAs .v300 "version=300\nstart-times=8".toList ⟨"test", none⟩ = .ok b ∧
      parse "version=300\nstart-times=8".toList ⟨"test", none⟩ = .ok b) ∧
    (∃ b, parse "backup-driver=bob".toList ⟨"test", none⟩ = .ok b ∧
      parseAs .v200 "backup-driver=bob".toList ⟨"test", none⟩ = .ok b) ∧
    ¬ HasVersionLine "backup-driver=bob".toList ∧
    ((Line.all "backup-driver=bob".toList).foldl Scan.readLine
      (.start ⟨"test", none⟩ none)).extras = .empty := by
  have hHeaded : parseAs .v300 "version=300\nstart-times=8".toList ⟨"test", none⟩ =
      .ok (.v300 (.empty ⟨"test", none⟩) ⟨[], [], ["8"], []⟩) := by rfl
  have hPlain : parse "backup-driver=bob".toList ⟨"test", none⟩ =
      .ok (.v200 ⟨⟨"test", none⟩, none, [], [⟨"bob", 1⟩]⟩) := by rfl
  have hForced : parseAs .v300 "backup-driver=bob".toList ⟨"test", none⟩ =
      .ok (.v300 ⟨⟨"test", none⟩, none, [], [⟨"bob", 1⟩]⟩ .empty) := by rfl
  obtain ⟨-, hChosen, -⟩ := parse_agrees_with_parseAs "version=300\nstart-times=8".toList _
  obtain ⟨hDetected, -, hNothing⟩ := parse_agrees_with_parseAs "backup-driver=bob".toList _
  obtain ⟨hSame, hOther⟩ := hDetected _ hPlain
  exact ⟨⟨_, hHeaded, hChosen .v300 _ hHeaded (Or.inr (by decide))⟩, ⟨_, hPlain, hSame⟩,
    hOther .v300 _ (by decide) hForced, hNothing none _ hPlain⟩

end Block

end Bulletin.Control
