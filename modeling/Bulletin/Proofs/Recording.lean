import Bulletin.Proofs.Scanning
import Bulletin.Proofs.Settings

/-! Reading back a control block that was written line by line. Every field of the
block comes from the lines of its own directive, in their order. -/
namespace Bulletin.Control

open Text

/-- What a line adds to the fields of a block. -/
structure Additions where
  opsManagers : List OpsManager := []
  splitRestaurants : List SplitRestaurant := []
  backupDrivers : List BackupDriver := []
  altMealOptions : List String := []
  altGroceryOptions : List String := []
  startTimes : List String := []
  pickupManagers : List PickupManager := []

namespace Setting

/-- The version that is set, if any is. -/
def version? : Setting → Option Version
  | version v => some v
  | _ => none

theorem version?_eq_none {x : Setting} (hOther : x.directive ≠ .version) : x.version? = none := by
  cases x with
  | version v => exact absurd rfl hOther
  | _ => rfl

/-- What the setting adds if it stands on the line. -/
def additions (line : Nat) : Setting → Additions
  | version _ => {}
  | opsManager user phone => { opsManagers := [⟨user, phone, line⟩] }
  | splitRestaurant restaurant driver => { splitRestaurants := [⟨restaurant, driver, line⟩] }
  | backupDriver users => { backupDrivers := users.map fun user => ⟨user, line⟩ }
  | altMealOptions options => { altMealOptions := options }
  | altGroceryOptions options => { altGroceryOptions := options }
  | startTimes times => { startTimes := times }
  | pickupManagers pairs => { pickupManagers := pairs.map fun p => ⟨p.1, p.2, line⟩ }

/-- What the lines of one directive add to a field, line by line. The lines are
numbered from one. -/
def gather {α : Type} (field : Additions → List α) (d : Directive) (settings : List Setting) :
    List α :=
  ((settings.zipIdx 1).filter fun x => x.1.directive = d).flatMap fun x =>
    field (x.1.additions x.2)

/-- What a block of these settings has in any version. -/
def commonOf (document : Document) (settings : List Setting) : Common where
  document := document
  opsManager? := (gather Additions.opsManagers .opsManager settings).getLast?
  splitRestaurants := gather Additions.splitRestaurants .splitRestaurant settings
  backupDrivers := gather Additions.backupDrivers .backupDriver settings

/-- What version 300 adds to it. -/
def extrasOf (settings : List Setting) : Extras where
  altMealOptions := gather Additions.altMealOptions .altMealOptions settings
  altGroceryOptions := gather Additions.altGroceryOptions .altGroceryOptions settings
  startTimes := gather Additions.startTimes .startTimes settings
  pickupManagers := gather Additions.pickupManagers .pickupManagers settings

/-- The version in force: that of the caller, else the one that the first line
names, else the initial one. -/
def versionOf (forced? : Option Version) (settings : List Setting) : Version :=
  (forced?.or (settings.head?.bind version?)).getD .initial

/-- The settings can stand in one block in this order: the version at most once and
before all others, at most one ops manager, and what version 300 defines only
behind its name or if the caller chose it. -/
structure Arranged (forced? : Option Version) (settings : List Setting) : Prop where
  version : ∀ x ∈ settings.tail, x.directive ≠ .version
  opsManager : settings.countP (fun x => x.directive = .opsManager) ≤ 1
  defined : ∀ x ∈ settings, x.directive.isDefinedIn .initial = true ∨
    forced? = some .v300 ∨ settings.head? = some (.version .v300)

end Setting

namespace Scan

variable {s : Scan} {x : Setting} {line : Nat}

/-- What the reader knows behind a line that it accepted. -/
def record (s : Scan) (x : Setting × Nat) : Scan where
  version := x.1.version?.getD s.version
  forced := s.forced
  started := true
  firstLines :=
    if x.1.directive.isUnique then (x.1.directive, x.2) :: s.firstLines else s.firstLines
  common :=
    { document := s.common.document
      opsManager? := (x.1.additions x.2).opsManagers.getLast?.or s.common.opsManager?
      splitRestaurants := s.common.splitRestaurants ++ (x.1.additions x.2).splitRestaurants
      backupDrivers := s.common.backupDrivers ++ (x.1.additions x.2).backupDrivers }
  extras :=
    { altMealOptions := s.extras.altMealOptions ++ (x.1.additions x.2).altMealOptions
      altGroceryOptions := s.extras.altGroceryOptions ++ (x.1.additions x.2).altGroceryOptions
      startTimes := s.extras.startTimes ++ (x.1.additions x.2).startTimes
      pickupManagers := s.extras.pickupManagers ++ (x.1.additions x.2).pickupManagers }
  complaints := s.complaints

/-- The reader has nothing against the setting on its next line. -/
structure Accepts (s : Scan) (x : Setting) : Prop where
  defined : x.directive.isDefinedIn s.version = true
  first : x.directive.isUnique = true → s.firstLine? x.directive = none
  version : ∀ v, x = .version v → s.started = false ∧ (s.forced = true → v = s.version)

theorem items?_ofStrings {items : List String} (hItems : items ≠ [] ∧ ∀ item ∈ items, IsItem item) :
    items? (listText (items.map String.toList)) = some (items.map String.toList) := by
  refine items?_listText (by simpa using hItems.1) (List.forall_mem_map.mpr ?_)
  exact fun item hItem =>
    ⟨(hItems.2 item hItem).1, fun hComma => ((hItems.2 item hItem).2 _ hComma).2 rfl⟩

theorem items?_ofPairs {pairs : List (String × String)}
    (hPairs : pairs ≠ [] ∧ ∀ p ∈ pairs, Setting.AreHalves p) :
    items? (listText (pairs.map pairText)) = some (pairs.map pairText) := by
  refine items?_listText (by simpa using hPairs.1) (List.forall_mem_map.mpr fun p hp => ?_)
  obtain ⟨⟨⟨-, hLeft⟩, -⟩, ⟨-, hRight⟩, -⟩ := hPairs.2 p hp
  refine ⟨by simp [pairText], fun hComma => ?_⟩
  rcases List.mem_append.mp hComma with hComma | hComma
  · exact (hLeft _ hComma).2 rfl
  · rcases List.mem_cons.mp hComma with hBar | hComma
    · exact absurd hBar (by decide)
    · exact (hRight _ hComma).2 rfl

theorem addPickupManagers_pairs {pairs : List (String × String)} {span : Span}
    (hPairs : ∀ p ∈ pairs, Setting.AreHalves p) :
    addPickupManagers line span s (pairs.map pairText) =
      { s with extras :=
          { s.extras with
            pickupManagers := s.extras.pickupManagers ++
              ((Setting.pickupManagers pairs).additions line).pickupManagers } } := by
  unfold addPickupManagers
  induction pairs generalizing s with
  | nil => simp [Setting.additions]
  | cons p pairs ih =>
      obtain ⟨hHere, hMore⟩ := List.forall_mem_cons.mp hPairs
      rw [List.map_cons, List.foldl_cons, ih hMore]
      simp [withPair, pair?_pairText hHere, addPickupManager, Setting.additions]

theorem setVersion_value {v : Version} (keySpan valueSpan : Span) (hStarted : s.started = false)
    (hForced : s.forced = true → v = s.version) :
    s.setVersion (Setting.version v).value keySpan valueSpan = { s with version := v } := by
  have hName : Version.ofText? (String.ofList (Setting.version v).value) = some v :=
    Version.ofText?_number v
  have hConflict : (s.forced && v != s.version) = false := by
    cases hForce : s.forced with
    | false => rfl
    | true => simp [hForced hForce]
  simp [setVersion, hStarted, hName, hConflict]

/-- What a value sets is read back from it. -/
theorem apply_value (hWritable : x.IsWritable) (hAccepts : s.Accepts x) (keySpan valueSpan : Span) :
    { (s.remember line x.directive).apply line x.directive x.value keySpan valueSpan with
      started := true } = s.record (x, line) := by
  cases x with
  | version v =>
      obtain ⟨hStarted, hForced⟩ := hAccepts.version v rfl
      have hSet := setVersion_value (s := s.remember line .version) keySpan valueSpan hStarted hForced
      simp only [apply, Setting.directive]
      rw [hSet]
      simp [remember, record, Setting.directive, Setting.version?, Setting.additions,
        Directive.isUnique]
  | opsManager user phone =>
      simp [apply, withPair, Setting.value, pair?_pairText hWritable, setOpsManager, remember,
        record, Setting.directive, Setting.version?, Setting.additions]
  | splitRestaurant restaurant driver =>
      simp [apply, withPair, Setting.value, pair?_pairText hWritable, addSplitRestaurant, remember,
        record, Setting.directive, Setting.version?, Setting.additions]
  | backupDriver users =>
      simp [apply, withItems, Setting.value, items?_ofStrings hWritable, addBackupDrivers, remember,
        record, Setting.directive, Setting.version?, Setting.additions]
  | altMealOptions options =>
      simp [apply, withItems, Setting.value, items?_ofStrings hWritable, addAltMealOptions, remember,
        record, Setting.directive, Setting.version?, Setting.additions]
  | altGroceryOptions options =>
      simp [apply, withItems, Setting.value, items?_ofStrings hWritable, addAltGroceryOptions,
        remember, record, Setting.directive, Setting.version?, Setting.additions]
  | startTimes times =>
      simp [apply, withItems, Setting.value, items?_ofStrings hWritable, addStartTimes, remember,
        record, Setting.directive, Setting.version?, Setting.additions]
  | pickupManagers pairs =>
      simp [apply, withItems, Setting.value, items?_ofPairs hWritable,
        addPickupManagers_pairs hWritable.2, remember, record, Setting.directive, Setting.version?,
        Setting.additions]

/-- A line that sets something is recorded if there is nothing against it. -/
theorem readLine_of_spells {part : List Char} {l : Line} (hSpells : x.Spells part)
    (hWritable : x.IsWritable) (hLine : l.text = Place.withoutReturns part)
    (hAccepts : s.Accepts x) : s.readLine l = s.record (x, l.number) := by
  obtain ⟨key, keySpan, valueSpan, hReading, hKey⟩ := hSpells.reading hLine
  have hAccepted : s.rejection? l.number (String.ofList key) x.directive = none := by
    unfold rejection?
    rw [if_pos hAccepts.defined]
    split
    · next hUnique => rw [hAccepts.first hUnique, Option.map_none]
    · rfl
  rw [readLine, hReading]
  simp only [assign, hKey, hAccepted, ← remember_eq]
  exact apply_value hWritable hAccepts keySpan valueSpan

theorem firstLine?_record (s : Scan) (x : Setting × Nat) {d : Directive}
    (hUnique : d.isUnique = true) :
    (s.record x).firstLine? d = if d = x.1.directive then some x.2 else s.firstLine? d :=
  remember_firstLine? s x.2 x.1.directive d hUnique

/-- Behind the version, lines are recorded one by one. -/
theorem foldl_readLine_of_spells {settings : List Setting} {texts : List (List Char)}
    {first offset : Nat} (hSpelled : List.Forall₂ Setting.Spells settings texts)
    (hWritable : ∀ x ∈ settings, x.IsWritable)
    (hDefined : ∀ x ∈ settings, x.directive.isDefinedIn s.version = true)
    (hVersion : ∀ x ∈ settings, x.directive ≠ .version)
    (hOnce : settings.countP (fun x => x.directive = .opsManager) ≤ 1)
    (hFirst : ∀ x ∈ settings, x.directive = .opsManager → s.firstLine? .opsManager = none) :
    (Line.enumerate first offset texts).foldl readLine s =
      (settings.zipIdx first).foldl record s := by
  induction hSpelled generalizing s first offset with
  | nil => rfl
  | @cons x text settings texts hSpells _ ih =>
      obtain ⟨hWritableHere, hWritable⟩ := List.forall_mem_cons.mp hWritable
      obtain ⟨hDefinedHere, hDefined⟩ := List.forall_mem_cons.mp hDefined
      obtain ⟨hVersionHere, hVersion⟩ := List.forall_mem_cons.mp hVersion
      obtain ⟨hFirstHere, hFirst⟩ := List.forall_mem_cons.mp hFirst
      have hSame := Setting.version?_eq_none hVersionHere
      have hAccepts : s.Accepts x := by
        refine ⟨hDefinedHere, fun hUnique => ?_, ?_⟩
        · have hOps : x.directive = .opsManager := by
            cases x <;> simp_all [Setting.directive, Directive.isUnique]
          rw [hOps]
          exact hFirstHere hOps
        · rintro v rfl
          exact absurd rfl hVersionHere
      rw [List.countP_cons] at hOnce
      rw [Line.enumerate, List.foldl_cons, List.zipIdx_cons, List.foldl_cons,
        readLine_of_spells hSpells hWritableHere rfl hAccepts]
      refine ih hWritable ?_ hVersion (by omega) ?_
      · simpa [record, hSame] using hDefined
      · intro y hy hOps
        rw [firstLine?_record _ _ rfl, if_neg, hFirst y hy hOps]
        -- A second ops manager cannot follow.
        intro hHere
        have hMore : 0 < settings.countP (fun x => x.directive = .opsManager) :=
          List.countP_pos_iff.mpr ⟨y, hy, by simpa using hOps⟩
        rw [if_pos (by simp [← hHere])] at hOnce
        omega

/-- What the reader has put together behind some lines. -/
theorem foldl_record (s : Scan) (xs : List (Setting × Nat)) :
    (xs.foldl record s).complaints = s.complaints ∧
      (xs.foldl record s).common =
        { document := s.common.document
          opsManager? :=
            (xs.flatMap fun x => (x.1.additions x.2).opsManagers).getLast?.or s.common.opsManager?
          splitRestaurants := s.common.splitRestaurants ++
            xs.flatMap fun x => (x.1.additions x.2).splitRestaurants
          backupDrivers := s.common.backupDrivers ++
            xs.flatMap fun x => (x.1.additions x.2).backupDrivers } ∧
      (xs.foldl record s).extras =
        { altMealOptions := s.extras.altMealOptions ++
            xs.flatMap fun x => (x.1.additions x.2).altMealOptions
          altGroceryOptions := s.extras.altGroceryOptions ++
            xs.flatMap fun x => (x.1.additions x.2).altGroceryOptions
          startTimes := s.extras.startTimes ++
            xs.flatMap fun x => (x.1.additions x.2).startTimes
          pickupManagers := s.extras.pickupManagers ++
            xs.flatMap fun x => (x.1.additions x.2).pickupManagers } := by
  induction xs using List.reverseRecOn with
  | nil => simp
  | append_singleton xs x ih =>
      obtain ⟨hComplaints, hCommon, hExtras⟩ := ih
      rw [List.foldl_append, List.foldl_cons, List.foldl_nil]
      refine ⟨hComplaints, ?_, ?_⟩
      · simp [record, hCommon, List.getLast?_append, Option.or_assoc]
      · simp [record, hExtras]

theorem version_foldl_record {xs : List (Setting × Nat)}
    (hVersion : ∀ x ∈ xs, x.1.version? = none) : (xs.foldl record s).version = s.version := by
  induction xs generalizing s with
  | nil => rfl
  | cons x xs ih =>
      obtain ⟨hHere, hMore⟩ := List.forall_mem_cons.mp hVersion
      rw [List.foldl_cons, ih hMore, record, hHere, Option.getD_none]

end Scan

namespace Setting

/-- A field gathers from all lines what it gathers from those of its directive. -/
theorem gather_eq {α : Type} {field : Additions → List α} {d : Directive}
    (hOther : ∀ x : Setting, ∀ line, x.directive ≠ d → field (x.additions line) = [])
    (settings : List Setting) :
    gather field d settings = (settings.zipIdx 1).flatMap fun x => field (x.1.additions x.2) := by
  unfold gather
  induction settings.zipIdx 1 with
  | nil => rfl
  | cons x xs ih =>
      rw [List.flatMap_cons, ← ih]
      by_cases hHere : x.1.directive = d
      · rw [List.filter_cons_of_pos (by simpa using hHere), List.flatMap_cons]
      · rw [List.filter_cons_of_neg (by simpa using hHere), hOther x.1 x.2 hHere, List.nil_append]

theorem gather_eq_nil {α : Type} (field : Additions → List α) {d : Directive}
    {settings : List Setting} (hNone : ∀ x ∈ settings, x.directive ≠ d) :
    gather field d settings = [] := by
  have hFilter : (settings.zipIdx 1).filter (fun x => x.1.directive = d) = [] := by
    refine List.filter_eq_nil_iff.mpr fun x hx => ?_
    simpa using hNone x.1 (List.fst_mem_of_mem_zipIdx hx)
  rw [gather, hFilter, List.flatMap_nil]

/-- What only version 300 defines is not in a block of version 200. -/
theorem extrasOf_eq_empty {settings : List Setting}
    (hDefined : ∀ x ∈ settings, x.directive.isDefinedIn .v200 = true) :
    extrasOf settings = .empty := by
  have hNone (d : Directive) (hd : d.isDefinedIn .v200 = false) :
      ∀ x ∈ settings, x.directive ≠ d := by
    rintro x hx rfl
    simp [hDefined x hx] at hd
  rw [extrasOf, gather_eq_nil _ (hNone .altMealOptions rfl),
    gather_eq_nil _ (hNone .altGroceryOptions rfl), gather_eq_nil _ (hNone .startTimes rfl),
    gather_eq_nil _ (hNone .pickupManagers rfl)]
  rfl

/-- Every setting of an arranged block is defined in its version, if the caller and
the block do not name different ones. -/
theorem Arranged.isDefinedIn {forced? : Option Version} {settings : List Setting}
    (hArranged : Arranged forced? settings)
    (hAgree : ∀ v w, settings.head? = some (.version v) → forced? = some w → v = w) :
    ∀ x ∈ settings, x.directive.isDefinedIn (versionOf forced? settings) = true := by
  intro x hx
  have hLatest : x.directive.isDefinedIn .v300 = true := by cases x <;> rfl
  rcases hArranged.defined x hx with hInitial | rfl | hNamed
  · cases hVersion : versionOf forced? settings with
    | v200 => exact hInitial
    | v300 => exact hLatest
  · exact hLatest
  · have hVersion : versionOf forced? settings = .v300 := by
      cases forced? with
      | none => simp [versionOf, hNamed, version?]
      | some w => exact (hAgree _ w hNamed rfl).symm
    rwa [hVersion]

end Setting

namespace Scan

open Setting

variable {forced? : Option Version} {settings : List Setting} {texts : List (List Char)}

/-- At the beginning of a block its version can be named, unless the caller chose
another one. -/
theorem accepts_version {v : Version} (document : Document)
    (hAgree : ∀ w, forced? = some w → v = w) :
    (start document forced?).Accepts (.version v) := by
  refine ⟨rfl, fun _ => rfl, ?_⟩
  rintro _ ⟨⟩
  refine ⟨rfl, fun hForced => ?_⟩
  obtain ⟨w, rfl⟩ := Option.isSome_iff_exists.mp hForced
  exact hAgree w rfl

/-- The reader records a whole block that is written line by line. -/
theorem foldl_readLine_start (document : Document)
    (hSpelled : List.Forall₂ Spells settings texts) (hWritable : ∀ x ∈ settings, x.IsWritable)
    (hArranged : Arranged forced? settings)
    (hAgree : ∀ v w, settings.head? = some (.version v) → forced? = some w → v = w) :
    (Line.enumerate 1 0 texts).foldl readLine (start document forced?) =
        (settings.zipIdx 1).foldl record (start document forced?) ∧
      ((settings.zipIdx 1).foldl record (start document forced?)).version =
        versionOf forced? settings := by
  have hDefined := hArranged.isDefinedIn hAgree
  have hOther {xs : List Setting} {first : Nat} (hVersion : ∀ x ∈ xs, x.directive ≠ .version) :
      ∀ x ∈ xs.zipIdx first, x.1.version? = none :=
    fun x hx => version?_eq_none (hVersion x.1 (List.fst_mem_of_mem_zipIdx hx))
  cases hSpelled with
  | nil => exact ⟨rfl, by cases forced? <;> rfl⟩
  | @cons x text settings texts hSpells hSpelled =>
      by_cases hVersion : x.directive = .version
      · obtain ⟨v, rfl⟩ : ∃ v, x = .version v := by
          cases x <;> simp_all [Setting.directive]
        have hInForce : versionOf forced? (.version v :: settings) = v := by
          cases forced? with
          | none => rfl
          | some w => exact (hAgree v w rfl rfl).symm
        have hAccepts := accepts_version document fun w hForced => hAgree v w rfl hForced
        obtain ⟨hWritableHere, hWritable⟩ := List.forall_mem_cons.mp hWritable
        have hMore := List.forall_mem_cons.mp hDefined |>.2
        rw [hInForce] at hMore ⊢
        rw [Line.enumerate, List.foldl_cons, List.zipIdx_cons, List.foldl_cons,
          readLine_of_spells hSpells hWritableHere rfl hAccepts]
        refine ⟨foldl_readLine_of_spells hSpelled hWritable hMore hArranged.version ?_ ?_, ?_⟩
        · simpa [Setting.directive] using hArranged.opsManager
        · intro y _ _
          rfl
        · exact version_foldl_record (hOther hArranged.version)
      · have hAll : ∀ y ∈ x :: settings, y.directive ≠ .version :=
          List.forall_mem_cons.mpr ⟨hVersion, hArranged.version⟩
        have hInForce : versionOf forced? (x :: settings) = (start document forced?).version := by
          simp [versionOf, start, version?_eq_none hVersion]
        rw [hInForce] at hDefined ⊢
        exact ⟨foldl_readLine_of_spells (.cons hSpells hSpelled) hWritable hDefined hAll
          hArranged.opsManager fun _ _ _ => rfl, version_foldl_record (hOther hAll)⟩

theorem foldl_record_start (document : Document) (forced? : Option Version)
    (settings : List Setting) :
    ((settings.zipIdx 1).foldl record (start document forced?)).complaints = [] ∧
      ((settings.zipIdx 1).foldl record (start document forced?)).common =
        commonOf document settings ∧
      ((settings.zipIdx 1).foldl record (start document forced?)).extras = extrasOf settings := by
  obtain ⟨hComplaints, hCommon, hExtras⟩ :=
    foldl_record (start document forced?) (settings.zipIdx 1)
  refine ⟨hComplaints, hCommon.trans ?_, hExtras.trans ?_⟩
  · rw [commonOf, gather_eq, gather_eq, gather_eq]
    · simp [start, Common.empty]
    all_goals
      intro x line hOther
      cases x <;> first | rfl | exact absurd rfl hOther
  · rw [extrasOf, gather_eq, gather_eq, gather_eq, gather_eq]
    · simp [start, Extras.empty]
    all_goals
      intro x line hOther
      cases x <;> first | rfl | exact absurd rfl hOther

/-- A text that is written line by line is read line by line. -/
theorem foldl_readLine_all (document : Document) (hSpelled : List.Forall₂ Spells settings texts) :
    (Line.all (['\n'].intercalate texts)).foldl readLine (start document forced?) =
      (Line.enumerate 1 0 texts).foldl readLine (start document forced?) := by
  have hBreaks : ∀ text ∈ texts, '\n' ∉ text := by
    induction hSpelled with
    | nil => simp
    | cons hSpells _ ih => exact List.forall_mem_cons.mpr ⟨hSpells.1, ih⟩
  cases texts with
  | nil => rfl
  | cons text texts => rw [Line.all, splitAll_intercalate (List.cons_ne_nil _ _) hBreaks]

theorem finish_of_sound {s : Scan} (hSound : s.complaints = []) (text : List Char) :
    ∃ block, s.finish text = .ok block ∧ block.version = s.version ∧ block.common = s.common ∧
      block.extras = if s.version = .v200 then .empty else s.extras := by
  unfold finish
  rw [hSound]
  cases hVersion : s.version with
  | v200 => exact ⟨_, rfl, rfl, rfl, rfl⟩
  | v300 => exact ⟨_, rfl, rfl, rfl, rfl⟩

end Scan

namespace Block

open Setting

variable {forced? : Option Version} {settings : List Setting} {texts : List (List Char)}

/-- Reading back a block that was written line by line loses, adds and reorders
nothing. The keys may be written in capital and small letters, and blanks may
stand everywhere on the lines. Whatever lines of other directives stand between
them, a field comes from the lines of its own directive only, and every entry that
has a line has its number. The block may not name another version than the one
that its caller chose. -/
theorem scan_of_settings (document : Document) (hSpelled : List.Forall₂ Spells settings texts)
    (hWritable : ∀ x ∈ settings, x.IsWritable) (hArranged : Arranged forced? settings)
    (hAgree : ∀ v w, settings.head? = some (.version v) → forced? = some w → v = w) :
    ∃ block, scan (['\n'].intercalate texts) document forced? = .ok block ∧
      block.version = versionOf forced? settings ∧
      block.common = commonOf document settings ∧ block.extras = extrasOf settings := by
  obtain ⟨hRead, hVersion⟩ := Scan.foldl_readLine_start document hSpelled hWritable hArranged hAgree
  obtain ⟨hSound, hCommon, hExtras⟩ := Scan.foldl_record_start document forced? settings
  rw [scan, Scan.foldl_readLine_all document hSpelled, hRead]
  obtain ⟨block, hBlock, hBlockVersion, hBlockCommon, hBlockExtras⟩ :=
    Scan.finish_of_sound hSound (['\n'].intercalate texts)
  refine ⟨block, hBlock, hBlockVersion.trans hVersion, hBlockCommon.trans hCommon, ?_⟩
  rw [hBlockExtras, hVersion, hExtras]
  split
  · next hFirst =>
      refine (extrasOf_eq_empty ?_).symm
      simpa [hFirst] using hArranged.isDefinedIn hAgree
  · rfl

theorem scan_of_settings_mixed :
    ∃ block, scan
        "Version = 300\r\nbackup-driver=bob,a=b\nALT-MEAL-OPTIONS=#1\nbackup-driver=bob".toList
        ⟨"test", none⟩ none = .ok block ∧ block.version = .v300 ∧
      block.common.backupDrivers = [⟨"bob", 2⟩, ⟨"a=b", 2⟩, ⟨"bob", 4⟩] ∧
      block.extras.altMealOptions = ["#1"] := by
  have hSpelled : List.Forall₂ Spells
      [.version .v300, .backupDriver ["bob", "a=b"], .altMealOptions ["#1"], .backupDriver ["bob"]]
      ["Version = 300\r".toList, "backup-driver=bob,a=b".toList, "ALT-MEAL-OPTIONS=#1".toList,
        "backup-driver=bob".toList] := by
    refine .cons ⟨by decide, "Version".toList, by decide, by decide⟩
      (.cons ?_ (.cons ?_ (.cons ?_ .nil)))
    · exact spells_of_key (show "backup-driver".toList.map Char.toLower = _ by decide) (by decide)
    · exact spells_of_key (show "ALT-MEAL-OPTIONS".toList.map Char.toLower = _ by decide) (by decide)
    · exact spells_of_key (show "backup-driver".toList.map Char.toLower = _ by decide) (by decide)
  obtain ⟨block, hBlock, hVersion, hCommon, hExtras⟩ := scan_of_settings ⟨"test", none⟩ hSpelled
    (by decide) (show Arranged none _ from ⟨by decide, by decide, by decide⟩) (by simp)
  refine ⟨block, hBlock, hVersion, ?_, ?_⟩
  · rw [hCommon]
    rfl
  · rw [hExtras]
    rfl

/-- A version that the caller chose rules out a block that names another one. -/
theorem scan_version_conflict :
    List.Forall₂ Spells [.version .v200] ["version=200".toList] ∧
      (∀ x ∈ [Setting.version .v200], x.IsWritable) ∧
      Arranged (some .v300) [.version .v200] ∧
      scan (['\n'].intercalate ["version=200".toList]) ⟨"test", none⟩ (some .v300) =
        .error (.diagnosed (.ofComplaint ⟨"test", none⟩ "version=200".toList
          ⟨.control (.versionConflict .v200 .v300), ⟨8, 11⟩⟩) []) := by
  refine ⟨.cons ?_ .nil, by decide, ⟨by decide, by decide, by decide⟩, ?_⟩
  · exact spells_of_key (show "version".toList.map Char.toLower = _ by decide) (by decide)
  · rfl

end Block

end Bulletin.Control
