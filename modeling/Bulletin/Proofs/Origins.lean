import Mathlib.Data.List.Forall2
import Bulletin.Proofs.Recording
import Bulletin.Proofs.Versions

/-! Where the entries of a control block come from. A line with which nothing is wrong
sets something unless it is silent, so that a reading without complaints is the record
of what its lines set. -/
namespace Bulletin.Text

theorem not_blank_of_mem_squeeze {text : List Char} : ∀ c ∈ squeeze text, isBlank c = false := by
  intro c hc
  simpa using (List.mem_filter.mp hc).2

/-- The parts of a text have no characters of their own. -/
theorem mem_of_mem_splitAll {separator c : Char} {text part : List Char}
    (hPart : part ∈ splitAll separator text) (hc : c ∈ part) : c ∈ text := by
  fun_induction splitAll separator text generalizing part with
  | case1 => simp_all
  | case2 rest ih =>
      rcases List.mem_cons.mp hPart with rfl | hPart
      · cases hc
      · exact List.mem_cons_of_mem _ (ih hPart hc)
  | case3 d rest hOther hNone => exact absurd hNone (splitAll_ne_nil separator rest)
  | case4 d rest hOther first parts hParts ih =>
      rw [hParts] at ih
      rcases List.mem_cons.mp hPart with rfl | hPart
      · rcases List.mem_cons.mp hc with rfl | hc
        · exact List.mem_cons_self ..
        · exact List.mem_cons_of_mem _ (ih (List.mem_cons_self ..) hc)
      · exact List.mem_cons_of_mem _ (ih (List.mem_cons_of_mem _ hPart) hc)

end Bulletin.Text

namespace Bulletin.Control

open Text

namespace Directive

variable {d : Directive}

theorem mem_known_of_isDefinedIn {v : Version} (hDefined : d.isDefinedIn v = true) :
    d ∈ known := by
  cases d with
  | unknown key => cases hDefined
  | _ => simp [known]

/-- A key with a directive of its own is written like the key in messages, apart from
capital letters. -/
theorem map_toLower_of_ofKey {key : List Char} (hKnown : d ∈ known)
    (hKey : ofKey (String.ofList key) = d) : key.map Char.toLower = d.key.toList := by
  simp only [ofKey, String.toList_ofList] at hKey
  cases hFind : known.find? fun d => d.key.toList == key.map Char.toLower with
  | none =>
      rw [hFind, Option.getD_none] at hKey
      subst hKey
      simp [known] at hKnown
  | some found =>
      rw [hFind, Option.getD_some] at hKey
      subst hKey
      have hSame := List.find?_some (p := fun d : Directive => d.key.toList == key.map Char.toLower) hFind
      exact (beq_iff_eq.mp hSame).symm

end Directive

theorem Version.eq_of_ofText? {text : String} {v : Version} (hText : ofText? text = some v) :
    text = toString v.number := by
  unfold ofText? at hText
  split at hText <;> cases hText <;> rfl

/-! What the values of sound lines are written from. -/

section Values

variable {value : List Char} {d : Directive} {span : Span}

theorem exists_pairText (hBlank : ∀ c ∈ value, isBlank c = false) (hPair : IsPair value) :
    ∃ p, Setting.AreHalves p ∧ pairText p = value := by
  obtain ⟨left, right, rfl, hLeft, hRight⟩ := hPair
  obtain ⟨hLeftBlank, hMore⟩ := List.forall_mem_append.mp hBlank
  have hRightBlank := (List.forall_mem_cons.mp hMore).2
  have hHalf {half : List Char} (hHalf : IsHalf half) (hBlank : ∀ c ∈ half, isBlank c = false) :
      IsItem (String.ofList half) ∧ '|' ∉ (String.ofList half).toList := by
    rw [IsItem, String.toList_ofList]
    obtain ⟨hText, hBar, hComma⟩ := hHalf
    refine ⟨⟨hText, fun c hc => ⟨hBlank c hc, ?_⟩⟩, hBar⟩
    rintro rfl
    exact hComma hc
  refine ⟨(String.ofList left, String.ofList right), ⟨hHalf hLeft hLeftBlank, hHalf hRight hRightBlank⟩, ?_⟩
  simp [pairText]

theorem exists_listText (hBlank : ∀ c ∈ value, isBlank c = false)
    (hItems : [] ∉ splitAll ',' value) :
    ∃ items : List String, (items ≠ [] ∧ ∀ item ∈ items, IsItem item) ∧
      listText (items.map String.toList) = value := by
  refine ⟨(splitAll ',' value).map String.ofList, ⟨?_, ?_⟩, ?_⟩
  · simpa using splitAll_ne_nil ',' value
  · refine List.forall_mem_map.mpr fun item hItem => ?_
    rw [IsItem, String.toList_ofList]
    refine ⟨fun hEmpty => hItems (hEmpty ▸ hItem), fun c hc => ⟨?_, ?_⟩⟩
    · exact hBlank c (mem_of_mem_splitAll hItem hc)
    · rintro rfl
      exact not_mem_of_mem_splitAll hItem hc
  · have hTexts : ((splitAll ',' value).map String.ofList).map String.toList =
        splitAll ',' value := by simp
    rw [hTexts]
    exact intercalate_splitAll ',' value

theorem exists_pairsText (hBlank : ∀ c ∈ value, isBlank c = false)
    (hPairs : ∀ item ∈ splitAll ',' value, IsPair item) :
    ∃ pairs, (pairs ≠ [] ∧ ∀ p ∈ pairs, Setting.AreHalves p) ∧
      listText (pairs.map pairText) = value := by
  have hEach : ∀ item ∈ splitAll ',' value, ∃ p, Setting.AreHalves p ∧ pairText p = item :=
    fun item hItem => exists_pairText (fun c hc => hBlank c (mem_of_mem_splitAll hItem hc))
      (hPairs item hItem)
  choose! pair hPair using hEach
  refine ⟨(splitAll ',' value).map pair, ⟨?_, ?_⟩, ?_⟩
  · simpa using splitAll_ne_nil ',' value
  · exact List.forall_mem_map.mpr fun item hItem => (hPair item hItem).1
  · have hTexts : ((splitAll ',' value).map pair).map pairText = splitAll ',' value := by
      rw [List.map_map]
      exact (List.map_congr_left fun item hItem => (hPair item hItem).2).trans (List.map_id _)
    rw [hTexts]
    exact intercalate_splitAll ',' value

theorem isPair_of_pairFaults {shape : PairShape} (hSound : pairFaults shape d span value = []) :
    IsPair value := by
  by_contra hOther
  simp [pairFaults, hOther] at hSound

theorem not_mem_of_itemFaults (hSound : itemFaults d span value = []) :
    [] ∉ splitAll ',' value := by
  intro hEmpty
  simp [itemFaults, hEmpty] at hSound

/-- A value with which nothing is wrong is what some setting is written as. -/
theorem exists_setting_of_valueFaults (hKnown : d ∈ Directive.known) (hOther : d ≠ .version)
    (hBlank : ∀ c ∈ value, isBlank c = false) (hSound : valueFaults d value span = []) :
    ∃ x : Setting, x.directive = d ∧ x.value = value ∧ x.IsWritable := by
  cases d with
  | version => exact absurd rfl hOther
  | opsManager =>
      obtain ⟨⟨user, phone⟩, hHalves, hText⟩ :=
        exists_pairText hBlank (isPair_of_pairFaults hSound)
      exact ⟨.opsManager user phone, rfl, hText, hHalves⟩
  | splitRestaurant =>
      obtain ⟨⟨restaurant, driver⟩, hHalves, hText⟩ :=
        exists_pairText hBlank (isPair_of_pairFaults hSound)
      exact ⟨.splitRestaurant restaurant driver, rfl, hText, hHalves⟩
  | backupDriver =>
      obtain ⟨items, hItems, hText⟩ := exists_listText hBlank (not_mem_of_itemFaults hSound)
      exact ⟨.backupDriver items, rfl, hText, hItems⟩
  | altMealOptions =>
      obtain ⟨items, hItems, hText⟩ := exists_listText hBlank (not_mem_of_itemFaults hSound)
      exact ⟨.altMealOptions items, rfl, hText, hItems⟩
  | altGroceryOptions =>
      obtain ⟨items, hItems, hText⟩ := exists_listText hBlank (not_mem_of_itemFaults hSound)
      exact ⟨.altGroceryOptions items, rfl, hText, hItems⟩
  | startTimes =>
      obtain ⟨items, hItems, hText⟩ := exists_listText hBlank (not_mem_of_itemFaults hSound)
      exact ⟨.startTimes items, rfl, hText, hItems⟩
  | pickupManagers =>
      by_cases hEmpty : [] ∈ splitAll ',' value
      · simp [valueFaults, itemFaults, hEmpty] at hSound
      · simp only [valueFaults, if_neg hEmpty, List.flatMap_eq_nil_iff] at hSound
        obtain ⟨pairs, hPairs, hText⟩ :=
          exists_pairsText hBlank fun item hItem => isPair_of_pairFaults (hSound item hItem)
        exact ⟨.pickupManagers pairs, rfl, hText, hPairs⟩
  | unknown key => simp [Directive.known] at hKnown

end Values

section Lines

variable {forced? : Option Version} {document : Document} {earlier lines : List Line} {line : Line}
  {s : Scan} {x : Setting}

theorem withoutReturns_of_mem_all {text : List Char} (hLine : line ∈ Line.all text) :
    Place.withoutReturns line.text = line.text := by
  have hEnumerated {first offset : Nat} {parts : List (List Char)}
      (hLine : line ∈ Line.enumerate first offset parts) :
      ∃ part, line.text = Place.withoutReturns part := by
    induction parts generalizing first offset with
    | nil => cases hLine
    | cons part rest ih =>
        rcases List.mem_cons.mp hLine with rfl | hLine
        · exact ⟨part, rfl⟩
        · exact ih hLine
  obtain ⟨part, hPart⟩ := hEnumerated hLine
  rw [hPart]
  exact List.rdropWhile_idempotent (· == '\r') part

theorem isDefinedIn_of_isAccepted {d : Directive} (hDirective : line.directive? = some d)
    (hAccepted : isAccepted forced? earlier line = true) :
    d.isDefinedIn (versionAfter forced? earlier) = true := by
  rw [isAccepted, hDirective, Option.any_some, Bool.and_eq_true] at hAccepted
  exact hAccepted.1

/-- A line with which nothing is wrong spells a setting, unless it is silent. -/
theorem exists_spells (hBreak : '\n' ∉ line.text) (hLoud : ¬ line.IsSilent)
    (hSound : faultsOf forced? earlier line = []) :
    ∃ x : Setting, x.Spells line.text ∧ x.IsWritable ∧ line.directive? = some x.directive ∧
      ∀ v, x = .version v → line.version? = some v := by
  cases hAssign : line.assignment? with
  | none => simp [faultsOf, hLoud, Line.splitFirst?_eq_none hAssign hLoud] at hSound
  | some sides =>
      obtain ⟨key, value⟩ := sides
      have hText : squeeze line.text = key ++ '=' :: value ∧
          ∀ c ∈ value, isBlank c = false := by
        rw [Line.assignment?, if_neg hLoud] at hAssign
        obtain ⟨⟨left, right⟩, hSplit, hSides⟩ := Option.map_eq_some_iff.mp hAssign
        obtain ⟨rfl, rfl⟩ := Prod.mk.inj hSides
        obtain ⟨hText, -⟩ := splitFirst?_eq_some_iff.mp hSplit
        refine ⟨?_, not_blank_of_mem_squeeze⟩
        rw [hText, squeeze_append, squeeze_cons_of_not_blank (by decide)]
      obtain ⟨hText, hBlank⟩ := hText
      obtain ⟨d, hKey⟩ : ∃ d, Directive.ofKey (String.ofList key) = d := ⟨_, rfl⟩
      have hDirective : line.directive? = some d := hKey ▸ Line.directive?_of_assignment? hAssign
      have hAccepted := keyFault?_eq_none_of_sound hAssign hSound
      rw [hKey] at hAccepted
      have hKnown : d ∈ Directive.known :=
        Directive.mem_known_of_isDefinedIn
          (isDefinedIn_of_isAccepted hDirective ((isAccepted_iff hDirective).mpr hAccepted))
      have hLower := Directive.map_toLower_of_ofKey hKnown hKey
      by_cases hVersion : d = .version
      · subst hVersion
        obtain ⟨-, -, v, hNamed, -⟩ := (faultsOf_version_eq_nil_iff hDirective).mp hSound
        have hValue : value = (Setting.version v).value := by
          rw [Line.version?, hAssign] at hNamed
          have hRead : Version.ofText? (String.ofList value) = some v := by
            simpa [hKey] using hNamed
          rw [Setting.value, ← Version.eq_of_ofText? hRead, String.toList_ofList]
        refine ⟨.version v, ⟨hBreak, key, hLower, hValue ▸ hText⟩, trivial, hDirective, ?_⟩
        rintro _ ⟨⟩
        exact hNamed
      · obtain ⟨keySpan, valueSpan, -, -, hFaults⟩ := exists_faultsOf_eq hAssign
        simp only [hFaults, assignmentFaults, hKey, hAccepted, if_neg hVersion] at hSound
        obtain ⟨x, rfl, rfl, hWritable⟩ :=
          exists_setting_of_valueFaults hKnown hVersion hBlank hSound
        refine ⟨x, ⟨hBreak, key, hLower, hText⟩, hWritable, hDirective, ?_⟩
        rintro v rfl
        exact absurd rfl hVersion

/-- A reader has nothing against what a sound line sets. -/
theorem Scan.Follows.accepts (hFollows : s.Follows forced? document earlier)
    (hSound : faultsOf forced? earlier line = []) (hDirective : line.directive? = some x.directive)
    (hVersion : ∀ v, x = .version v → line.version? = some v) : s.Accepts x := by
  have hAccepted : isAccepted forced? earlier line = true := by
    refine (silent_or_accepted hSound).resolve_left fun hSilent => ?_
    simp [hSilent.directive?_eq_none] at hDirective
  refine ⟨?_, fun hUnique => ?_, ?_⟩
  · rw [hFollows.version]
    exact isDefinedIn_of_isAccepted hDirective hAccepted
  · rw [hFollows.firstLine? _ hUnique,
      firstSetting?_eq_none_of_accepted hAccepted hDirective hUnique, Option.map_none]
  · rintro v rfl
    obtain ⟨-, hFresh, w, hNamed, hAgree⟩ := (faultsOf_version_eq_nil_iff hDirective).mp hSound
    obtain rfl := Option.some.inj (hNamed.symm.trans (hVersion v rfl))
    refine ⟨hFollows.started.trans hFresh, fun hForced => ?_⟩
    rw [hFollows.forced] at hForced
    obtain ⟨chosen, rfl⟩ := Option.isSome_iff_exists.mp hForced
    exact (hAgree chosen rfl).symm.trans hFollows.version.symm

/-- The setting is written on the line and has its number. -/
def Setting.StandsOn (x : Setting × Nat) (line : Line) : Prop :=
  x.1.Spells line.text ∧ x.1.IsWritable ∧ x.2 = line.number

/-- A reading without complaints is the record of the settings on its lines. At most
one of them is an ops manager. -/
theorem exists_settings (document : Document)
    (hLines : ∀ l ∈ lines, '\n' ∉ l.text ∧ Place.withoutReturns l.text = l.text)
    (hSound : complaintsOf forced? lines = []) :
    ∃ settings : List (Setting × Nat),
      List.Forall₂ Setting.StandsOn settings (lines.filter fun l => ¬ l.IsSilent) ∧
      lines.foldl Scan.readLine (.start document forced?) =
        settings.foldl Scan.record (.start document forced?) ∧
      (∀ x ∈ settings, ∃ l ∈ lines, l.directive? = some x.1.directive) ∧
      settings.countP (fun x => x.1.directive = .opsManager) ≤ 1 := by
  induction lines using List.reverseRecOn with
  | nil => exact ⟨[], .nil, rfl, by simp, by simp⟩
  | append_singleton earlier line ih =>
      rw [complaintsOf_append_singleton, List.append_eq_nil_iff] at hSound
      obtain ⟨hEarlier, hLine⟩ := List.forall_mem_append.mp hLines
      obtain ⟨hBreak, hReturns⟩ := hLine line (List.mem_singleton_self line)
      obtain ⟨settings, hStands, hRead, hSet, hOnce⟩ := ih hEarlier hSound.1
      rw [List.foldl_append, List.foldl_cons, List.foldl_nil, List.filter_append]
      by_cases hSilent : line.IsSilent
      · refine ⟨settings, by simpa [hSilent] using hStands, ?_, ?_, hOnce⟩
        · rw [Scan.readLine_of_silent _ hSilent, hRead]
        · intro x hx
          obtain ⟨l, hl, hDirective⟩ := hSet x hx
          exact ⟨l, List.mem_append_left _ hl, hDirective⟩
      · obtain ⟨x, hSpells, hWritable, hDirective, hVersion⟩ :=
          exists_spells hBreak hSilent hSound.2
        have hAccepts := (Scan.foldl_readLine_follows document forced? earlier).accepts hSound.2
          hDirective hVersion
        refine ⟨settings ++ [(x, line.number)], ?_, ?_, ?_, ?_⟩
        · have hHere : List.Forall₂ Setting.StandsOn [(x, line.number)] [line] :=
            .cons ⟨hSpells, hWritable, rfl⟩ .nil
          simpa [hSilent] using List.rel_append hStands hHere
        · rw [Scan.readLine_of_spells hSpells hWritable hReturns.symm hAccepts, hRead,
            List.foldl_append]
          rfl
        · refine List.forall_mem_append.mpr ⟨fun y hy => ?_, ?_⟩
          · obtain ⟨l, hl, hOf⟩ := hSet y hy
            exact ⟨l, List.mem_append_left _ hl, hOf⟩
          · exact List.forall_mem_singleton.mpr ⟨line, by simp, hDirective⟩
        · rw [List.countP_append, List.countP_singleton]
          split
          · next hOps =>
              have hManager : x.directive = .opsManager := by simpa using hOps
              have hAccepted := (silent_or_accepted hSound.2).resolve_left hSilent
              have hFirst := firstSetting?_eq_none_of_accepted hAccepted hDirective
                (by rw [hManager]; rfl)
              -- No line before this one has set an ops manager.
              have hNone : settings.countP (fun x => x.1.directive = .opsManager) = 0 := by
                refine List.countP_eq_zero.mpr fun y hy hAgain => ?_
                have hSome : (firstSetting? earlier x.directive).isSome := by
                  obtain ⟨l, hl, hOf⟩ := hSet y hy
                  refine isSome_firstSetting?_iff.mpr ⟨l, hl, ?_⟩
                  rw [hOf, of_decide_eq_true hAgain, hManager]
                simp [hFirst] at hSome
              omega
          · exact hOnce

end Lines

/-- A block that was read is put together from the settings on the lines of its text. -/
theorem Block.exists_settings_of_scan {text : List Char} {document : Document}
    {forced? : Option Version} {b : Block} (hScan : scan text document forced? = .ok b) :
    ∃ settings : List (Setting × Nat),
      List.Forall₂ Setting.StandsOn settings ((Line.all text).filter fun l => ¬ l.IsSilent) ∧
      settings.countP (fun x => x.1.directive = .opsManager) ≤ 1 ∧
      b.common =
        { document := document
          opsManager? := (settings.flatMap fun x => (x.1.additions x.2).opsManagers).getLast?
          splitRestaurants := settings.flatMap fun x => (x.1.additions x.2).splitRestaurants
          backupDrivers := settings.flatMap fun x => (x.1.additions x.2).backupDrivers } ∧
      b.extras =
        { altMealOptions := settings.flatMap fun x => (x.1.additions x.2).altMealOptions
          altGroceryOptions := settings.flatMap fun x => (x.1.additions x.2).altGroceryOptions
          startTimes := settings.flatMap fun x => (x.1.additions x.2).startTimes
          pickupManagers := settings.flatMap fun x => (x.1.additions x.2).pickupManagers } := by
  obtain ⟨hSound, rfl⟩ := scan_eq_ok_iff.mp hScan
  have hLines : ∀ l ∈ Line.all text, '\n' ∉ l.text ∧ Place.withoutReturns l.text = l.text := by
    intro l hl
    obtain ⟨-, -, -, hBreak, -⟩ := Line.standsIn_of_mem_all hl
    exact ⟨hBreak, withoutReturns_of_mem_all hl⟩
  obtain ⟨settings, hStands, hRead, -, hOnce⟩ := exists_settings document hLines hSound
  obtain ⟨-, hCommon, hExtras⟩ := Scan.foldl_record (.start document forced?) settings
  refine ⟨settings, hStands, hOnce, ?_, ?_⟩
  · rw [Scan.common_block, hRead, hCommon]
    simp [Scan.start, Common.empty]
  · rw [(Scan.foldl_readLine_kept document forced? (Line.all text)).extras_block, hRead, hExtras]
    simp [Scan.start, Extras.empty]

end Bulletin.Control
