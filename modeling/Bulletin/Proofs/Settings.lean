import Bulletin.Control.Scan
import Bulletin.Proofs.Faults

/-! What the lines of a control block can set, and how it is written. The reader
of a line takes out of it just what was written into it. -/
namespace Bulletin.Text

variable {separator : Char} {part : List Char} {parts : List (List Char)}

theorem splitAll_of_not_mem (hPart : separator ∉ part) : splitAll separator part = [part] := by
  induction part with
  | nil => rfl
  | cons c part ih =>
      obtain ⟨hHere, hMore⟩ := not_or.mp (mt List.mem_cons.mpr hPart)
      rw [splitAll, if_neg (Ne.symm hHere), ih hMore]

theorem splitAll_append_cons (separator : Char) (left right : List Char) :
    splitAll separator (left ++ separator :: right) =
      splitAll separator left ++ splitAll separator right := by
  induction left with
  | nil => simp [splitAll]
  | cons c left ih =>
      obtain ⟨part, parts, hParts⟩ := List.exists_cons_of_ne_nil (splitAll_ne_nil separator left)
      rw [List.cons_append, splitAll, splitAll, ih, hParts]
      split <;> rfl

theorem splitAll_append (hPart : separator ∉ part) (rest : List Char) :
    splitAll separator (part ++ separator :: rest) = part :: splitAll separator rest := by
  rw [splitAll_append_cons, splitAll_of_not_mem hPart, List.singleton_append]

/-- Cutting a text at the separator takes apart what was put together with it. -/
theorem splitAll_intercalate (hParts : parts ≠ []) (hFree : ∀ part ∈ parts, separator ∉ part) :
    splitAll separator ([separator].intercalate parts) = parts := by
  induction parts with
  | nil => exact absurd rfl hParts
  | cons part rest ih =>
      obtain ⟨hHere, hMore⟩ := List.forall_mem_cons.mp hFree
      cases rest with
      | nil => simpa [List.intercalate] using splitAll_of_not_mem hHere
      | cons next rest =>
          have hRest := ih (List.cons_ne_nil _ _) hMore
          have hJoin : [separator].intercalate (part :: next :: rest) =
              part ++ separator :: [separator].intercalate (next :: rest) := by
            simp [List.intercalate]
          rw [hJoin, splitAll_append hHere, hRest]

@[simp]
theorem squeeze_append (left right : List Char) :
    squeeze (left ++ right) = squeeze left ++ squeeze right :=
  List.filter_append ..

theorem squeeze_eq_nil (hBlank : ∀ c ∈ part, isBlank c = true) : squeeze part = [] := by
  simpa [squeeze] using hBlank

theorem squeeze_eq_self (hText : ∀ c ∈ part, isBlank c = false) : squeeze part = part := by
  simpa [squeeze] using hText

theorem squeeze_cons_of_not_blank {c : Char} (hBlank : isBlank c = false) (rest : List Char) :
    squeeze (c :: rest) = c :: squeeze rest := by
  simp [squeeze, hBlank]

theorem toLower_of_isBlank {c : Char} (hBlank : isBlank c = true) : c.toLower = c := by
  unfold Char.toLower
  split
  · next hCapital =>
      obtain ⟨r, hr, hFrom, hTo⟩ := (CharSet.contains_iff _ _).mp hBlank
      have hCode : 65 ≤ c.toNat ∧ c.toNat ≤ 90 := hCapital
      simp only [blankSet, List.mem_cons, List.not_mem_nil, or_false] at hr
      rcases hr with rfl | rfl | rfl | rfl | rfl | rfl | rfl | rfl | rfl | rfl <;> omega
  · rfl

/-- A separator that is no blank cuts a text where it cuts it without its blanks. -/
theorem splitFirst?_of_squeeze {text left right : List Char} (hBlank : isBlank separator = false)
    (hLeft : separator ∉ left) (hText : squeeze text = left ++ separator :: right) :
    ∃ before after, splitFirst? separator text = some (before, after) ∧
      squeeze before = left ∧ squeeze after = right := by
  have hMem : separator ∈ text := by
    have hMem : separator ∈ squeeze text := by simp [hText]
    exact (List.mem_filter.mp hMem).1
  obtain ⟨before, after, rfl, hBefore⟩ := List.eq_append_cons_of_mem hMem
  rw [squeeze_append, squeeze_cons_of_not_blank hBlank] at hText
  have hSplit := splitFirst?_eq_some_iff.mpr ⟨hText, hLeft⟩
  have hSame : splitFirst? separator (squeeze before ++ separator :: squeeze after) = _ :=
    splitFirst?_eq_some_iff.mpr ⟨rfl, fun hMem => hBefore (List.mem_filter.mp hMem).1⟩
  obtain ⟨hKey, hValue⟩ := Prod.mk.inj (Option.some.inj (hSame.symm.trans hSplit))
  exact ⟨before, after, splitFirst?_eq_some_iff.mpr ⟨rfl, hBefore⟩, hKey, hValue⟩

end Bulletin.Text

namespace Bulletin.Control

open Text

/-- What a line of a control block can set. -/
inductive Setting where
  | version (v : Version)
  | opsManager (user phone : String)
  | splitRestaurant (restaurant driver : String)
  | backupDriver (users : List String)
  | altMealOptions (options : List String)
  | altGroceryOptions (options : List String)
  | startTimes (times : List String)
  | pickupManagers (pairs : List (String × String))
  deriving DecidableEq, Repr

/-- An item of a list: not empty, and without blanks and commas. -/
def IsItem (text : String) : Prop :=
  text.toList ≠ [] ∧ ∀ c ∈ text.toList, isBlank c = false ∧ c ≠ ','

instance : DecidablePred IsItem :=
  fun text => @instDecidableAnd _ _ inferInstance (List.decidableBAll _ text.toList)

/-- A pair as it is written. -/
def pairText (p : String × String) : List Char :=
  p.1.toList ++ '|' :: p.2.toList

/-- A list as it is written. -/
def listText (items : List (List Char)) : List Char :=
  [','].intercalate items

namespace Setting

def directive : Setting → Directive
  | version _ => .version
  | opsManager _ _ => .opsManager
  | splitRestaurant _ _ => .splitRestaurant
  | backupDriver _ => .backupDriver
  | altMealOptions _ => .altMealOptions
  | altGroceryOptions _ => .altGroceryOptions
  | startTimes _ => .startTimes
  | pickupManagers _ => .pickupManagers

/-- The value as it is written. -/
def value : Setting → List Char
  | version v => (toString v.number).toList
  | opsManager user phone => pairText (user, phone)
  | splitRestaurant restaurant driver => pairText (restaurant, driver)
  | backupDriver items | altMealOptions items | altGroceryOptions items | startTimes items =>
    listText (items.map String.toList)
  | pickupManagers pairs => listText (pairs.map pairText)

/-- Whether the two can be written as a pair: items without bars. -/
def AreHalves (p : String × String) : Prop :=
  (IsItem p.1 ∧ '|' ∉ p.1.toList) ∧ IsItem p.2 ∧ '|' ∉ p.2.toList

instance : DecidablePred AreHalves := fun _ => inferInstanceAs (Decidable (_ ∧ _))

/-- Whether what is set can be written. Lists have at least one item. -/
def IsWritable : Setting → Prop
  | version _ => True
  | opsManager user phone => AreHalves (user, phone)
  | splitRestaurant restaurant driver => AreHalves (restaurant, driver)
  | backupDriver items | altMealOptions items | altGroceryOptions items | startTimes items =>
    items ≠ [] ∧ ∀ item ∈ items, IsItem item
  | pickupManagers pairs => pairs ≠ [] ∧ ∀ p ∈ pairs, AreHalves p

instance : DecidablePred IsWritable
  | version _ => inferInstanceAs (Decidable True)
  | opsManager user phone => inferInstanceAs (Decidable (AreHalves (user, phone)))
  | splitRestaurant restaurant driver =>
    inferInstanceAs (Decidable (AreHalves (restaurant, driver)))
  | backupDriver items | altMealOptions items | altGroceryOptions items | startTimes items =>
    inferInstanceAs (Decidable (items ≠ [] ∧ ∀ item ∈ items, IsItem item))
  | pickupManagers pairs => inferInstanceAs (Decidable (pairs ≠ [] ∧ ∀ p ∈ pairs, AreHalves p))

/-- The line sets this. The key may be written in capital and small letters, and
there may be blanks everywhere on the line. -/
def Spells (x : Setting) (line : List Char) : Prop :=
  '\n' ∉ line ∧ ∃ key, key.map Char.toLower = x.directive.key.toList ∧
    squeeze line = key ++ '=' :: x.value

end Setting

theorem squeeze_withoutReturns (part : List Char) :
    squeeze (Place.withoutReturns part) = squeeze part := by
  change squeeze (part.rdropWhile (· == '\r')) = squeeze part
  induction part using List.reverseRecOn with
  | nil => rfl
  | append_singleton part c ih =>
      rw [List.rdropWhile_concat]
      split
      · next hReturn =>
          have hBlank : squeeze [c] = [] := by
            rw [beq_iff_eq.mp hReturn]
            decide
          rw [ih, squeeze_append, hBlank, List.append_nil]
      · rfl

namespace Directive

variable {d : Directive} {key : List Char}

/-- A key is read in capital and in small letters. -/
theorem ofKey_eq (hKnown : d ∈ known) (hKey : key.map Char.toLower = d.key.toList) :
    ofKey (String.ofList key) = d := by
  simp only [ofKey, String.toList_ofList, hKey]
  simp only [known, List.mem_cons, List.not_mem_nil, or_false] at hKnown
  rcases hKnown with rfl | rfl | rfl | rfl | rfl | rfl | rfl | rfl <;> rfl

theorem not_mem_key {c : Char} (hKnown : d ∈ known) (hLower : c.toLower = c)
    (hOther : ∀ d ∈ known, c ∉ d.key.toList) (hKey : key.map Char.toLower = d.key.toList) :
    c ∉ key := by
  intro hMem
  have hMapped := List.mem_map_of_mem (f := Char.toLower) hMem
  rw [hLower, hKey] at hMapped
  exact hOther d hKnown hMapped

theorem not_blank_key (hKnown : d ∈ known) : ∀ c ∈ d.key.toList, ¬isBlank c = true := by
  have hKeys : ∀ d ∈ known, d.key.toList.any isBlank = false := by decide
  exact List.any_eq_false.mp (hKeys d hKnown)

end Directive

namespace Setting

variable {x : Setting} {part : List Char}

theorem directive_mem_known (x : Setting) : x.directive ∈ Directive.known := by
  cases x <;> simp [directive, Directive.known]

/-- A line that sets something is read as the assignment that was written. -/
theorem Spells.reading (hSpells : x.Spells part) {line : Line}
    (hLine : line.text = Place.withoutReturns part) :
    ∃ key keySpan valueSpan, line.reading = .assignment key x.value keySpan valueSpan ∧
      Directive.ofKey (String.ofList key) = x.directive := by
  obtain ⟨-, key, hKey, hText⟩ := hSpells
  rw [← squeeze_withoutReturns, ← hLine] at hText
  have hEquals : '=' ∉ key :=
    Directive.not_mem_key x.directive_mem_known (by decide) (by decide) hKey
  have hHash : '#' ∉ key :=
    Directive.not_mem_key x.directive_mem_known (by decide) (by decide) hKey
  have hLoud : ¬ line.IsSilent := by
    rintro (hBlank | ⟨blanks, comment, hComment, hBlanks⟩)
    · simp [squeeze_eq_nil hBlank] at hText
    · rw [hComment, squeeze_append, squeeze_eq_nil hBlanks,
        squeeze_cons_of_not_blank (by decide)] at hText
      cases key with
      | nil => simp at hText
      | cons c key =>
          obtain ⟨rfl, -⟩ := List.cons.inj hText
          simp at hHash
  obtain ⟨before, after, hSplit, rfl, hValue⟩ := splitFirst?_of_squeeze (by decide) hEquals hText
  have hReading := line.reading_eq
  simp only [if_neg hLoud, hSplit, hValue] at hReading
  exact ⟨_, _, _, hReading, Directive.ofKey_eq x.directive_mem_known hKey⟩

theorem forall_mem_listText {P : Char → Prop} {items : List (List Char)} (hComma : P ',')
    (hItems : ∀ item ∈ items, ∀ c ∈ item, P c) : ∀ c ∈ listText items, P c := by
  induction items with
  | nil => simp [listText]
  | cons item rest ih =>
      obtain ⟨hHere, hMore⟩ := List.forall_mem_cons.mp hItems
      cases rest with
      | nil => simpa [listText, List.intercalate] using hHere
      | cons next rest =>
          have hJoin : listText (item :: next :: rest) = item ++ ',' :: listText (next :: rest) := by
            simp [listText, List.intercalate]
          rw [hJoin]
          exact List.forall_mem_append.mpr
            ⟨hHere, List.forall_mem_cons.mpr ⟨hComma, ih hMore⟩⟩

theorem AreHalves.not_blank {p : String × String} (hHalves : AreHalves p) :
    ∀ c ∈ pairText p, isBlank c = false := by
  obtain ⟨⟨⟨-, hLeft⟩, -⟩, ⟨-, hRight⟩, -⟩ := hHalves
  refine List.forall_mem_append.mpr ⟨fun c hc => (hLeft c hc).1, ?_⟩
  exact List.forall_mem_cons.mpr ⟨by decide, fun c hc => (hRight c hc).1⟩

theorem IsWritable.not_blank (hWritable : x.IsWritable) : ∀ c ∈ x.value, isBlank c = false := by
  have hItems {items : List String} (hItems : ∀ item ∈ items, IsItem item) :
      ∀ c ∈ listText (items.map String.toList), isBlank c = false := by
    refine forall_mem_listText (by decide) (List.forall_mem_map.mpr ?_)
    exact fun item hItem c hc => ((hItems item hItem).2 c hc).1
  cases x with
  | version v =>
      have hNumber : (toString v.number).toList.any isBlank = false := by cases v <;> decide
      simpa [value] using hNumber
  | opsManager user phone => exact hWritable.not_blank
  | splitRestaurant restaurant driver => exact hWritable.not_blank
  | backupDriver users => exact hItems hWritable.2
  | altMealOptions options => exact hItems hWritable.2
  | altGroceryOptions options => exact hItems hWritable.2
  | startTimes times => exact hItems hWritable.2
  | pickupManagers pairs =>
      refine forall_mem_listText (by decide) (List.forall_mem_map.mpr ?_)
      exact fun p hp => (hWritable.2 p hp).not_blank

/-- A key and a value can be written without any blanks. -/
theorem spells_of_key {key : List Char} (hKey : key.map Char.toLower = x.directive.key.toList)
    (hWritable : x.IsWritable) : x.Spells (key ++ '=' :: x.value) := by
  have hBlank : ∀ c ∈ key ++ '=' :: x.value, isBlank c = false := by
    refine List.forall_mem_append.mpr ⟨fun c hc => Bool.eq_false_iff.mpr fun hBlank => ?_, ?_⟩
    · exact Directive.not_mem_key x.directive_mem_known (toLower_of_isBlank hBlank)
        (fun d hd hMem => Directive.not_blank_key hd c hMem hBlank) hKey hc
    · exact List.forall_mem_cons.mpr ⟨by decide, hWritable.not_blank⟩
  refine ⟨fun hBreak => ?_, key, hKey, squeeze_eq_self hBlank⟩
  exact absurd (hBlank _ hBreak) (by decide)

end Setting

/-! What the values are read as. -/

theorem Version.ofText?_number (v : Version) :
    ofText? (String.ofList (toString v.number).toList) = some v := by
  cases v <;> rfl

namespace Scan

theorem pair?_pairText {p : String × String} (hHalves : Setting.AreHalves p) :
    pair? (pairText p) = some p := by
  have hHalf {text : String} (hItem : IsItem text) (hBar : '|' ∉ text.toList) :
      isHalf text.toList = true :=
    isHalf_iff.mpr ⟨hItem.1, hBar, fun hComma => (hItem.2 _ hComma).2 rfl⟩
  obtain ⟨⟨hLeft, hLeftBar⟩, hRight, hRightBar⟩ := hHalves
  have hSplit : splitFirst? '|' (pairText p) = some (p.1.toList, p.2.toList) :=
    splitFirst?_eq_some_iff.mpr ⟨rfl, hLeftBar⟩
  simp [pair?, hSplit, hHalf hLeft hLeftBar, hHalf hRight hRightBar]

theorem items?_listText {items : List (List Char)} (hItems : items ≠ [])
    (hEach : ∀ item ∈ items, item ≠ [] ∧ ',' ∉ item) : items? (listText items) = some items := by
  have hSplit : splitAll ',' (listText items) = items :=
    splitAll_intercalate hItems fun item hItem => (hEach item hItem).2
  simpa [items?, hSplit] using fun hEmpty => (hEach [] hEmpty).1 rfl

end Scan

end Bulletin.Control
