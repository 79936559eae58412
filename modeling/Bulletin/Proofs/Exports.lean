import Bulletin.Export
import Bulletin.Proofs.Agreement
import Bulletin.Proofs.Origins
import Bulletin.Proofs.Representing

/-! What is kept of a control block that is exported. Blocks are told apart by their exports,
down to the lines that their entries were read from. The number of a post alone can keep a
block that was read from being exported: the numbers of lines always fit. -/
namespace Bulletin

open Serial Text

theorem Document.tells : Tells toSerial fun d : Document => ∀ post ∈ d.post?, post < 1 <<< 63 := by
  rintro ⟨area, post?⟩ ⟨area', post?'⟩
  have hPost := tells_natural.ofOption toValue_natural_ne_nothing post? post?'
  rw [toSerial, toSerial, agree_record_iff (by rfl) (by simp)]
  simp [agree_text_iff, hPost, and_assoc]

/-- The first field that cannot be kept tells why its record cannot. -/
theorem Serial.toValue_record_of_error {cause : Unrepresentable} {name : String} {s : Serial}
    {before : List (String × Serial)} (hBefore : ∀ field ∈ before, ∃ v, field.2.toValue = .ok v)
    (hField : s.toValue = .error cause) (after : List (String × Serial)) :
    (record (before ++ (name, s) :: after)).toValue = .error cause := by
  have hFields (entries : Entries Value) :
      fieldsToEntries entries (before ++ (name, s) :: after) = .error cause := by
    induction before generalizing entries with
    | nil =>
        rw [List.nil_append, fieldsToEntries, hField]
        rfl
    | cons field before ih =>
        obtain ⟨⟨v, hValue⟩, hMore⟩ := List.forall_mem_cons.mp hBefore
        rw [List.cons_append, fieldsToEntries, hValue]
        exact ih hMore (entries.insert field.1 v)
  rw [toValue, hFields]
  rfl

theorem Serial.toValue_caseOf_of_error {cause : Unrepresentable} {s : Serial}
    (hInner : s.toValue = .error cause) (name : String) :
    (caseOf name s).toValue = .error cause := by
  rw [toValue, hInner]
  rfl

theorem Document.toValue_of_large_post {d : Document} {post : Nat} (hPost : d.post? = some post)
    (hLarge : 1 <<< 63 ≤ post) : d.toSerial.toValue = .error (.outOfRange post) := by
  have hNumber : (ofOption (d.post?.map natural)).toValue = .error (.outOfRange post) := by
    rw [hPost, Option.map_some, ofOption, toValue, toValue,
      Value.ofNatural?_of_not_lt (Nat.not_lt.mpr hLarge)]
  have hArea : ∀ field ∈ [("section", text d.area)], ∃ v, field.2.toValue = .ok v :=
    List.forall_mem_singleton.mpr ⟨_, rfl⟩
  exact toValue_record_of_error hArea hNumber []

namespace Control

theorem OpsManager.tells : Tells toSerial fun o : OpsManager => o.line < 1 <<< 63 := by
  rintro ⟨user, phone, line⟩ ⟨user', phone', line'⟩
  rw [toSerial, toSerial, agree_record_iff (by rfl) (by simp)]
  simp [agree_text_iff, agree_natural_iff, and_assoc]

theorem SplitRestaurant.tells : Tells toSerial fun s : SplitRestaurant => s.line < 1 <<< 63 := by
  rintro ⟨restaurant, driver, line⟩ ⟨restaurant', driver', line'⟩
  rw [toSerial, toSerial, agree_record_iff (by rfl) (by simp)]
  simp [agree_text_iff, agree_natural_iff, and_assoc]

theorem BackupDriver.tells : Tells toSerial fun d : BackupDriver => d.line < 1 <<< 63 := by
  rintro ⟨user, line⟩ ⟨user', line'⟩
  rw [toSerial, toSerial, agree_record_iff (by rfl) (by simp)]
  simp [agree_text_iff, agree_natural_iff, and_assoc]

theorem PickupManager.tells : Tells toSerial fun p : PickupManager => p.line < 1 <<< 63 := by
  rintro ⟨user, restaurant, line⟩ ⟨user', restaurant', line'⟩
  rw [toSerial, toSerial, agree_record_iff (by rfl) (by simp)]
  simp [agree_text_iff, agree_natural_iff, and_assoc]

/-- The numbers of the lines that entries were read from. -/
def Common.lines (c : Common) : List Nat :=
  c.opsManager?.toList.map OpsManager.line ++ c.splitRestaurants.map SplitRestaurant.line ++
    c.backupDrivers.map BackupDriver.line

def Block.lines (b : Block) : List Nat :=
  b.common.lines ++ b.extras.pickupManagers.map PickupManager.line

theorem Common.forall_mem_lines_iff {c : Common} {P : Nat → Prop} : (∀ n ∈ c.lines, P n) ↔
    (∀ o ∈ c.opsManager?, P o.line) ∧ (∀ s ∈ c.splitRestaurants, P s.line) ∧
      ∀ d ∈ c.backupDrivers, P d.line := by
  simp [lines, or_imp, forall_and]

theorem Block.forall_mem_lines_iff {b : Block} {P : Nat → Prop} : (∀ n ∈ b.lines, P n) ↔
    (∀ n ∈ b.common.lines, P n) ∧ ∀ p ∈ b.extras.pickupManagers, P p.line := by
  simp [lines, or_imp, forall_and]

theorem Common.tells : Tells toSerial fun c : Common =>
    (∀ post ∈ c.document.post?, post < 1 <<< 63) ∧ ∀ n ∈ c.lines, n < 1 <<< 63 := by
  rintro ⟨document, o?, splits, backups⟩ ⟨document', o?', splits', backups'⟩
  have hDocument := Document.tells document document'
  have hManager := OpsManager.tells.ofOption (fun _ => toValue_record_ne_nothing) o? o?'
  have hSplits := SplitRestaurant.tells.sequence splits splits'
  have hBackups := BackupDriver.tells.sequence backups backups'
  rw [toSerial, toSerial, agree_record_iff (by rfl) (by simp)]
  simp only [List.forall₂_cons, List.forall₂_nil_left_iff, hDocument, hManager, hSplits, hBackups,
    forall_mem_lines_iff, mk.injEq, and_true]
  constructor
  · rintro ⟨⟨hDocument, hPost⟩, ⟨hManager, hLine⟩, ⟨hSplits, hLines⟩, hBackups, hMore⟩
    exact ⟨⟨hDocument, hManager, hSplits, hBackups⟩, hPost, hLine, hLines, hMore⟩
  · rintro ⟨⟨hDocument, hManager, hSplits, hBackups⟩, hPost, hLine, hLines, hMore⟩
    exact ⟨⟨hDocument, hPost⟩, ⟨hManager, hLine⟩, ⟨hSplits, hLines⟩, hBackups, hMore⟩

/-- All that may not fit in a block are the number of its post and those of its lines. -/
theorem Block.tells : Tells toSerial fun b : Block =>
    (∀ post ∈ b.document.post?, post < 1 <<< 63) ∧ ∀ n ∈ b.lines, n < 1 <<< 63 := by
  rintro (c | ⟨c, x⟩) (c' | ⟨c', x'⟩)
  · rw [toSerial, toSerial, agree_caseOf_iff, Common.tells c c']
    simp [forall_mem_lines_iff, document, common, extras, Extras.empty]
  · simp [toSerial, agree_caseOf_iff]
  · simp [toSerial, agree_caseOf_iff]
  · obtain ⟨meals, groceries, times, pickups⟩ := x
    obtain ⟨meals', groceries', times', pickups'⟩ := x'
    have hPickups := PickupManager.tells.sequence pickups pickups'
    rw [toSerial, toSerial, agree_caseOf_iff, agree_record_iff (by rfl) (by simp)]
    simp only [List.forall₂_cons, List.forall₂_nil_left_iff, Common.tells c c', agree_texts_iff,
      hPickups, forall_mem_lines_iff, v300.injEq, Extras.mk.injEq, and_true, true_and]
    constructor
    · rintro ⟨⟨hCommon, hPost, hLines⟩, hMeals, hGroceries, hTimes, hPickups, hMore⟩
      exact ⟨⟨hCommon, hMeals, hGroceries, hTimes, hPickups⟩, hPost, hLines, hMore⟩
    · rintro ⟨⟨hCommon, hMeals, hGroceries, hTimes, hPickups⟩, hPost, hLines, hMore⟩
      exact ⟨⟨hCommon, hPost, hLines⟩, hMeals, hGroceries, hTimes, hPickups, hMore⟩

/-- A line that says something has at least one character, and so has each line break before
it. -/
theorem Line.number_le_of_loud {text : List Char} {line : Line} (hLine : line ∈ all text)
    (hLoud : ¬ line.IsSilent) : line.number ≤ byteLength text := by
  obtain ⟨left, right, rfl, -, -, hNumber⟩ := standsIn_of_mem_all hLine
  have hText : line.text ≠ [] := fun hNil => hLoud (Or.inl (by simp [hNil]))
  have hHere := byteLength_pos hText
  have hBreaks : left.count '\n' ≤ byteLength left :=
    List.count_le_length.trans (length_le_byteLength left)
  rw [hNumber, Place.lineAfter, byteLength_append, byteLength_append]
  omega

namespace Block

variable {text : List Char} {document : Document} {forced? : Option Version} {b : Block}

/-- An entry knows the line that it was read from, and a text has at least as many bytes as
the number of a line of it that says something. -/
theorem line_le_of_scan (hScan : scan text document forced? = .ok b) :
    ∀ n ∈ b.lines, n ≤ byteLength text := by
  obtain ⟨settings, hStands, -, hCommon, hExtras⟩ := exists_settings_of_scan hScan
  have hLines : List.Forall₂ (fun l x => (l ∈ Line.all text ∧ ¬ l.IsSilent) ∧ Setting.StandsOn x l)
      ((Line.all text).filter fun l => ¬ l.IsSilent) settings :=
    (List.forall₂_and_left _ _).mpr ⟨fun l hl => by simpa using hl, hStands.flip⟩
  -- One argument for every field: what a setting adds has the number of the setting's line.
  have hLine {α : Type} {field : Additions → List α} {line : α → Nat}
      (hField : ∀ (x : Setting) n, ∀ a ∈ field (x.additions n), line a = n) :
      ∀ a ∈ settings.flatMap fun x => field (x.1.additions x.2), line a ≤ byteLength text := by
    intro a ha
    obtain ⟨x, hx, hAdded⟩ := List.mem_flatMap.mp ha
    obtain ⟨l, ⟨hl, hLoud⟩, -, -, hNumber⟩ := exists_of_mem_forall₂ hLines.flip hx
    rw [hField x.1 x.2 a hAdded, hNumber]
    exact Line.number_le_of_loud hl hLoud
  rw [forall_mem_lines_iff, Common.forall_mem_lines_iff, hCommon, hExtras]
  refine ⟨⟨fun o ho => hLine ?_ o (List.mem_of_getLast? ho), hLine ?_, hLine ?_⟩, hLine ?_⟩
  all_goals
    intro x n
    cases x <;> grind [Setting.additions]

/-- The number of the post is looked at first. -/
theorem toValue_of_large_post {post : Nat} (hPost : b.document.post? = some post)
    (hLarge : 1 <<< 63 ≤ post) : b.toSerial.toValue = .error (.outOfRange post) := by
  have hNone : ∀ field ∈ ([] : List (String × Serial)), ∃ v, field.2.toValue = .ok v :=
    List.forall_mem_nil _
  have hCommon : b.common.toSerial.toValue = .error (.outOfRange post) :=
    toValue_record_of_error hNone (Document.toValue_of_large_post hPost hLarge) _
  cases b with
  | v200 c => exact toValue_caseOf_of_error hCommon _
  | v300 c x => exact toValue_caseOf_of_error (toValue_record_of_error hNone hCommon _) _

/-- What is kept of a block that was read from a text. It can be exported just if the number
of its post fits, and if it cannot, this number is named. The exports of two blocks are equal
just if the blocks are the same: their versions, documents and entries, in their order and
with the lines that they were read from. -/
theorem export_loses_nothing (hScan : scan text document forced? = .ok b)
    (hShort : byteLength text < 1 <<< 63) :
    ((∃ v, b.toSerial.toValue = .ok v) ↔ ∀ post, document.post? = some post → post < 1 <<< 63) ∧
    (∀ post, document.post? = some post → 1 <<< 63 ≤ post →
      b.toSerial.toValue = .error (.outOfRange post)) ∧
    ∀ b' v v', b.toSerial.toValue = .ok v → b'.toSerial.toValue = .ok v' →
      ((v == v') = true ↔ b = b') := by
  have hDocument : b.document = document := by
    obtain ⟨_, -, -, hCommon, -⟩ := exists_settings_of_scan hScan
    rw [Block.document, hCommon]
  have hAgree (hFits : ∀ post, document.post? = some post → post < 1 <<< 63) (b' : Block) :
      b.toSerial.Agree b'.toSerial ↔ b = b' := by
    rw [tells b b', and_iff_left]
    exact ⟨hDocument ▸ hFits, fun n hn => Nat.lt_of_le_of_lt (line_le_of_scan hScan n hn) hShort⟩
  have hLarge (post : Nat) (hPost : document.post? = some post) :
      1 <<< 63 ≤ post → b.toSerial.toValue = .error (.outOfRange post) :=
    toValue_of_large_post (hDocument ▸ hPost)
  have hExports : (∃ v, b.toSerial.toValue = .ok v) ↔
      ∀ post, document.post? = some post → post < 1 <<< 63 := by
    constructor
    · rintro ⟨v, hValue⟩ post hPost
      refine Nat.lt_of_not_le fun hRange => ?_
      cases hValue.symm.trans (hLarge post hPost hRange)
    · intro hFits
      obtain ⟨v, -, hValue, -⟩ := (hAgree hFits b).mpr rfl
      exact ⟨v, hValue⟩
  refine ⟨hExports, hLarge, fun b' v v' hValue hValue' => ?_⟩
  rw [← hAgree (hExports.mp ⟨v, hValue⟩) b', Serial.agree_iff hValue hValue']
  rfl

/-- Where an entry was read from is kept, and the largest number of a post is. -/
theorem export_loses_nothing_moved :
    ∃ b b' v v', scan "backup-driver=ann".toList ⟨"test", some (1 <<< 63 - 1)⟩ none = .ok b ∧
      scan "\nbackup-driver=ann".toList ⟨"test", some (1 <<< 63 - 1)⟩ none = .ok b' ∧
      byteLength "backup-driver=ann".toList < 1 <<< 63 ∧
      b.toSerial.toValue = .ok v ∧ b'.toSerial.toValue = .ok v' ∧ (v == v') = false := by
  have hScan : scan "backup-driver=ann".toList ⟨"test", some (1 <<< 63 - 1)⟩ none =
      .ok (.v200 ⟨⟨"test", some (1 <<< 63 - 1)⟩, none, [], [⟨"ann", 1⟩]⟩) := by rfl
  have hMoved : scan "\nbackup-driver=ann".toList ⟨"test", some (1 <<< 63 - 1)⟩ none =
      .ok (.v200 ⟨⟨"test", some (1 <<< 63 - 1)⟩, none, [], [⟨"ann", 2⟩]⟩) := by rfl
  have hShort : byteLength "backup-driver=ann".toList < 1 <<< 63 := by decide
  have hShort' : byteLength "\nbackup-driver=ann".toList < 1 <<< 63 := by decide
  obtain ⟨hExports, -, hApart⟩ := export_loses_nothing hScan hShort
  obtain ⟨v, hValue⟩ := hExports.mpr fun post hPost => by cases hPost; decide
  obtain ⟨v', hValue'⟩ := (export_loses_nothing hMoved hShort').1.mpr
    fun post hPost => by cases hPost; decide
  refine ⟨_, _, v, v', hScan, hMoved, hShort, hValue, hValue', ?_⟩
  rw [← Bool.not_eq_true, hApart _ v v' hValue hValue']
  decide

end Block

end Control

end Bulletin
