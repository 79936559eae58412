import Bulletin.Proofs.Keeping
import Bulletin.Proofs.Layout

/-! Reading a control block again after a change of its layout. The two readings
stay side by side: at each line that says something they know the same, except that
the second has the numbers that the lines have now. -/
namespace Bulletin.Control

open Text

/-! The records of a block with other numbers for their lines. -/

def OpsManager.renumber (f : Nat → Nat) (o : OpsManager) : OpsManager :=
  { o with line := f o.line }

def SplitRestaurant.renumber (f : Nat → Nat) (r : SplitRestaurant) : SplitRestaurant :=
  { r with line := f r.line }

def BackupDriver.renumber (f : Nat → Nat) (d : BackupDriver) : BackupDriver :=
  { d with line := f d.line }

def PickupManager.renumber (f : Nat → Nat) (p : PickupManager) : PickupManager :=
  { p with line := f p.line }

def Common.renumber (f : Nat → Nat) (c : Common) : Common where
  document := c.document
  opsManager? := c.opsManager?.map (OpsManager.renumber f)
  splitRestaurants := c.splitRestaurants.map (SplitRestaurant.renumber f)
  backupDrivers := c.backupDrivers.map (BackupDriver.renumber f)

def Extras.renumber (f : Nat → Nat) (x : Extras) : Extras :=
  { x with pickupManagers := x.pickupManagers.map (PickupManager.renumber f) }

/-- The block with other numbers for its lines. -/
def Block.renumber (f : Nat → Nat) : Block → Block
  | .v200 common => .v200 (common.renumber f)
  | .v300 common extras => .v300 (common.renumber f) (extras.renumber f)

theorem Common.renumber_id (c : Common) : c.renumber id = c := by
  have hManager : OpsManager.renumber id = id := rfl
  have hRestaurant : SplitRestaurant.renumber id = id := rfl
  have hDriver : BackupDriver.renumber id = id := rfl
  simp [renumber, hManager, hRestaurant, hDriver]

theorem Extras.renumber_id (x : Extras) : x.renumber id = x := by
  have hManager : PickupManager.renumber id = id := rfl
  simp [renumber, hManager]

theorem Block.renumber_id (b : Block) : b.renumber id = b := by
  cases b with
  | v200 common => rw [renumber, common.renumber_id]
  | v300 common extras => rw [renumber, common.renumber_id, extras.renumber_id]

/-- The line of a text on which a span begins. -/
def lineOf (text : List Char) (span : Span) : Nat :=
  (Place.ofSpan text span).line

/-- What a line says when it is read. Without an `=` it leaves a complaint, and else
its two sides without their blanks are assigned. The spans are on the line. -/
theorem Line.readLine_of_loud {line : Line} (hLoud : ¬ line.IsSilent) :
    (splitFirst? '=' (squeeze line.text) = none ∧ ∃ fault span, line.Holds span ∧
      ∀ s : Scan, s.readLine line = s.complain fault span) ∨
    ∃ key value keySpan valueSpan, splitFirst? '=' (squeeze line.text) = some (key, value) ∧
      line.Holds keySpan ∧ line.Holds valueSpan ∧
      ∀ s : Scan, s.readLine line = s.assign line.number key value keySpan valueSpan := by
  have hSqueeze : splitFirst? '=' (squeeze line.text) = _ :=
    splitFirst?_squeeze (by decide) line.text
  have hReading := line.reading_eq
  rw [if_neg hLoud] at hReading
  cases hSplit : splitFirst? '=' line.text with
  | none =>
      rw [hSplit] at hSqueeze hReading
      refine Or.inl ⟨hSqueeze, .notAssignment (String.ofList (trim line.text)),
        trimmedSpan line.offset line.text, line.holds_trimmedSpan, fun s => ?_⟩
      rw [Scan.readLine, hReading]
  | some sides =>
      obtain ⟨key, value⟩ := sides
      obtain ⟨hText, -⟩ := splitFirst?_eq_some_iff.mp hSplit
      rw [hSplit] at hSqueeze hReading
      refine Or.inr ⟨_, _, _, _, hSqueeze, holds_keySpan hText, holds_valueSpan hText, fun s => ?_⟩
      rw [Scan.readLine, hReading]

namespace Scan

variable {f : Nat → Nat} {text text' : List Char} {s t : Scan} {d : Directive}
  {value : List Char} {keySpan valueSpan keySpan' valueSpan' : Span}

/-- The second reading, of the second text, is as far as the first reading is in the
first text. It has other numbers for the lines, and what it complains about is on
those. -/
structure Mirrors (f : Nat → Nat) (text text' : List Char) (s t : Scan) : Prop where
  version : t.version = s.version
  forced : t.forced = s.forced
  started : t.started = s.started
  firstLines : t.firstLines.map Prod.fst = s.firstLines.map Prod.fst
  common : t.common = s.common.renumber f
  extras : t.extras = s.extras.renumber f
  complaints : t.complaints.map (fun c => lineOf text' c.span) =
    s.complaints.map fun c => f (lineOf text c.span)

theorem start_mirrors (f : Nat → Nat) (text text' : List Char) (document : Document)
    (forced? : Option Version) :
    (start document forced?).Mirrors f text text' (start document forced?) :=
  ⟨rfl, rfl, rfl, rfl, rfl, rfl, rfl⟩

theorem Mirrors.complain (hMirrors : s.Mirrors f text text' t) {span span' : Span}
    (hSpan : lineOf text' span' = f (lineOf text span)) (fault fault' : Fault) :
    (s.complain fault span).Mirrors f text text' (t.complain fault' span') where
  version := hMirrors.version
  forced := hMirrors.forced
  started := hMirrors.started
  firstLines := hMirrors.firstLines
  common := hMirrors.common
  extras := hMirrors.extras
  complaints := by simp [Scan.complain, hMirrors.complaints, hSpan]

/-- Readings that mirror each other go on to do so whatever records they add. -/
theorem Mirrors.withEntries (hMirrors : s.Mirrors f text text' t) {common common' : Common}
    {extras extras' : Extras} (hCommon : common' = common.renumber f)
    (hExtras : extras' = extras.renumber f) :
    { s with common := common, extras := extras }.Mirrors f text text'
      { t with common := common', extras := extras' } :=
  ⟨hMirrors.version, hMirrors.forced, hMirrors.started, hMirrors.firstLines, hCommon, hExtras,
    hMirrors.complaints⟩

theorem Mirrors.remember (hMirrors : s.Mirrors f text text' t) (line line' : Nat)
    (d : Directive) : (s.remember line d).Mirrors f text text' (t.remember line' d) where
  version := hMirrors.version
  forced := hMirrors.forced
  started := hMirrors.started
  firstLines := by
    unfold Scan.remember
    split <;> simp [hMirrors.firstLines]
  common := hMirrors.common
  extras := hMirrors.extras
  complaints := hMirrors.complaints

theorem Mirrors.rejection? (hMirrors : s.Mirrors f text text' t) (line line' : Nat)
    (key : String) (d : Directive) :
    (t.rejection? line' key d).isSome = (s.rejection? line key d).isSome := by
  have hFirst : (t.firstLine? d).isSome = (s.firstLine? d).isSome := by
    have hKeys := congrArg (d ∈ ·) hMirrors.firstLines
    simp only [List.mem_map, Prod.exists, exists_and_right, exists_eq_right, eq_iff_iff] at hKeys
    rw [Bool.eq_iff_iff, firstLine?, firstLine?, List.lookup_isSome_iff, List.lookup_isSome_iff]
    simpa using hKeys
  unfold Scan.rejection?
  rw [hMirrors.version]
  split
  · split
    · simp only [Option.isSome_map, hFirst]
    · rfl
  · cases d <;> rfl

section Apply

variable (hMirrors : s.Mirrors f text text' t)
  (hKey : lineOf text' keySpan' = f (lineOf text keySpan))
  (hValue : lineOf text' valueSpan' = f (lineOf text valueSpan))

include hMirrors hValue

theorem Mirrors.withPair {shape : PairShape} {use use' : Scan → String → String → Scan}
    (hUse : ∀ left right, (use s left right).Mirrors f text text' (use' t left right)) :
    (s.withPair d shape value valueSpan use).Mirrors f text text'
      (t.withPair d shape value valueSpan' use') :=
  withPair_rel (Mirrors f text text') (fun fault => hMirrors.complain hValue fault fault) hUse

theorem Mirrors.withItems {use use' : Scan → List (List Char) → Scan}
    (hUse : ∀ items, (use s items).Mirrors f text text' (use' t items)) :
    (s.withItems d value valueSpan use).Mirrors f text text'
      (t.withItems d value valueSpan' use') :=
  withItems_rel (Mirrors f text text') (fun fault => hMirrors.complain hValue fault fault) hUse

theorem Mirrors.addPickupManagers (line : Nat) (items : List (List Char)) :
    (Scan.addPickupManagers line valueSpan s items).Mirrors f text text'
      (Scan.addPickupManagers (f line) valueSpan' t items) := by
  unfold Scan.addPickupManagers
  induction items generalizing s t with
  | nil => exact hMirrors
  | cons item rest ih =>
      refine ih (hMirrors.withPair hValue fun left right => ?_)
      refine hMirrors.withEntries hMirrors.common ?_
      simp [hMirrors.extras, Extras.renumber, PickupManager.renumber]

include hKey

theorem Mirrors.setVersion : (s.setVersion value keySpan valueSpan).Mirrors f text text'
    (t.setVersion value keySpan' valueSpan') := by
  unfold Scan.setVersion
  rw [hMirrors.started, hMirrors.forced, hMirrors.version]
  split
  · exact hMirrors.complain hKey _ _
  · cases Version.ofText? (String.ofList value) with
    | none => exact hMirrors.complain hValue _ _
    | some v =>
        dsimp only
        split
        · exact hMirrors.complain hValue _ _
        · exact ⟨rfl, rfl, rfl, hMirrors.firstLines, hMirrors.common, hMirrors.extras,
            hMirrors.complaints⟩

/-- A directive is carried out in both readings, on the line of each. -/
theorem Mirrors.apply (line : Nat) (d : Directive) :
    (s.apply line d value keySpan valueSpan).Mirrors f text text'
      (t.apply (f line) d value keySpan' valueSpan') := by
  have hCommon := hMirrors.common
  have hExtras := hMirrors.extras
  cases d with
  | version => exact hMirrors.setVersion hKey hValue
  | opsManager =>
      refine hMirrors.withPair hValue fun user phone => hMirrors.withEntries ?_ hExtras
      simp [hCommon, Common.renumber, OpsManager.renumber]
  | splitRestaurant =>
      refine hMirrors.withPair hValue fun restaurant driver => hMirrors.withEntries ?_ hExtras
      simp [hCommon, Common.renumber, SplitRestaurant.renumber]
  | backupDriver =>
      refine hMirrors.withItems hValue fun items => hMirrors.withEntries ?_ hExtras
      simp [hCommon, Common.renumber, BackupDriver.renumber]
  | altMealOptions =>
      refine hMirrors.withItems hValue fun items => hMirrors.withEntries hCommon ?_
      simp [hExtras, Extras.renumber]
  | altGroceryOptions =>
      refine hMirrors.withItems hValue fun items => hMirrors.withEntries hCommon ?_
      simp [hExtras, Extras.renumber]
  | startTimes =>
      refine hMirrors.withItems hValue fun items => hMirrors.withEntries hCommon ?_
      simp [hExtras, Extras.renumber]
  | pickupManagers =>
      exact hMirrors.withItems hValue fun items => hMirrors.addPickupManagers hValue line items
  | unknown key => exact hMirrors

theorem Mirrors.assign (line : Nat) (key : List Char) :
    (s.assign line key value keySpan valueSpan).Mirrors f text text'
      (t.assign (f line) key value keySpan' valueSpan') := by
  obtain ⟨d, hd⟩ : ∃ d, Directive.ofKey (String.ofList key) = d := ⟨_, rfl⟩
  have hSame := hMirrors.rejection? line (f line) (String.ofList key) d
  unfold Scan.assign
  simp only [hd, ← remember_eq]
  cases hs : s.rejection? line (String.ofList key) d with
  | some fault =>
      rw [hs] at hSame
      obtain ⟨fault', ht⟩ := Option.isSome_iff_exists.mp hSame
      rw [ht]
      exact hMirrors.complain hKey _ _
  | none =>
      have ht : t.rejection? (f line) (String.ofList key) d = none := by simpa [hs] using hSame
      rw [ht]
      have hApplied : Mirrors f text text'
          ((s.remember line d).apply line d value keySpan valueSpan)
          ((t.remember (f line) d).apply (f line) d value keySpan' valueSpan') :=
        (hMirrors.remember line (f line) d).apply hKey hValue line d
      exact ⟨hApplied.version, hApplied.forced, rfl, hApplied.firstLines, hApplied.common,
        hApplied.extras, hApplied.complaints⟩

end Apply

/-- One line read in each text. The two say the same, and the second has the new
number of the first. -/
theorem Mirrors.readLine (hMirrors : s.Mirrors f text text' t) {line line' : Line}
    (hStands : line.StandsIn text) (hStands' : line'.StandsIn text') (hLoud : ¬ line.IsSilent)
    (hNote : line'.note = line.note.map f id) :
    (s.readLine line).Mirrors f text text' (t.readLine line') := by
  obtain ⟨hNumber, hSame⟩ : line'.number = f line.number ∧ squeeze line'.text = squeeze line.text :=
    Prod.ext_iff.mp hNote
  have hLoud' : ¬ line'.IsSilent := by
    rwa [Line.isSilent_iff_speaks, hSame, ← Line.isSilent_iff_speaks]
  have hPlace {span span' : Span} (hHolds : line.Holds span) (hHolds' : line'.Holds span') :
      lineOf text' span' = f (lineOf text span) := by
    rw [lineOf, lineOf, hStands'.line_ofSpan hHolds', hStands.line_ofSpan hHolds, hNumber]
  obtain ⟨hSplit, fault, span, hHolds, hRead⟩ |
    ⟨key, value, keySpan, valueSpan, hSplit, hKey, hValue, hRead⟩ := line.readLine_of_loud hLoud <;>
  obtain ⟨hSplit', fault', span', hHolds', hRead'⟩ |
    ⟨key', value', keySpan', valueSpan', hSplit', hKey', hValue', hRead'⟩ :=
      line'.readLine_of_loud hLoud' <;>
  rw [hSame, hSplit] at hSplit'
  · rw [hRead, hRead']
    exact hMirrors.complain (hPlace hHolds hHolds') fault fault'
  · cases hSplit'
  · cases hSplit'
  · cases hSplit'
    rw [hRead, hRead', hNumber]
    exact hMirrors.assign (hPlace hKey hKey') (hPlace hValue hValue') line.number key

/-- Lines that say the same, read one after the other in each text. -/
theorem Mirrors.foldl_readLine (hMirrors : s.Mirrors f text text' t) {lines lines' : List Line}
    (hStands : ∀ line ∈ lines, line.StandsIn text ∧ ¬ line.IsSilent)
    (hStands' : ∀ line ∈ lines', line.StandsIn text')
    (hNotes : lines'.map Line.note = (lines.map Line.note).map (Prod.map f id)) :
    (lines.foldl Scan.readLine s).Mirrors f text text' (lines'.foldl Scan.readLine t) := by
  induction lines generalizing s t lines' with
  | nil =>
      obtain rfl : lines' = [] := by simpa using hNotes
      exact hMirrors
  | cons line rest ih =>
      cases lines' with
      | nil => cases hNotes
      | cons line' rest' =>
          obtain ⟨hNote, hNotes⟩ := List.cons.inj hNotes
          obtain ⟨hHere, hStands⟩ := List.forall_mem_cons.mp hStands
          obtain ⟨hHere', hStands'⟩ := List.forall_mem_cons.mp hStands'
          exact ih (hMirrors.readLine hHere.1 hHere' hHere.2 hNote) hStands hStands' hNotes

/-- Only the lines that say something are read. -/
theorem foldl_readLine_spoken (text : List Char) (s : Scan) :
    (spoken text).foldl readLine s = (Line.all text).foldl readLine s := by
  rw [spoken, List.foldl_filter]
  congr 1
  funext s line
  split
  · rfl
  · next hSilent => exact (s.readLine_of_silent (by simpa using hSilent)).symm

theorem foldl_readLine_mirrors (document : Document) (forced? : Option Version)
    (hNotes : notes text' = (notes text).map (Prod.map f id)) :
    ((Line.all text).foldl readLine (start document forced?)).Mirrors f text text'
      ((Line.all text').foldl readLine (start document forced?)) := by
  rw [← foldl_readLine_spoken, ← foldl_readLine_spoken]
  refine (start_mirrors f text text' document forced?).foldl_readLine ?_ ?_ hNotes
  · intro line hLine
    obtain ⟨hLine, hLoud⟩ := List.mem_filter.mp hLine
    exact ⟨Line.standsIn_of_mem_all hLine, by simpa using hLoud⟩
  · intro line hLine
    exact Line.standsIn_of_mem_all (List.mem_filter.mp hLine).1

theorem Mirrors.block (hMirrors : s.Mirrors f text text' t) : t.block = s.block.renumber f := by
  unfold Scan.block
  rw [hMirrors.version, hMirrors.common, hMirrors.extras]
  cases s.version <;> rfl

end Scan

namespace Block

/-- What a reading of a block gives, against what the reading gives after a change of
the numbers of lines. Both give a block, and the second has the new numbers, or both
give as many diagnostics, each on the line with the new number. -/
def Renumbers (f : Nat → Nat) : Except Error Block → Except Error Block → Prop
  | .ok b, .ok b' => b' = b.renumber f
  | .error e, .error e' => e'.diagnostics.map (·.place.line) =
      e.diagnostics.map fun d => f d.place.line
  | _, _ => False

theorem scan_renumbers {f : Nat → Nat} {text text' : List Char}
    (hNotes : notes text' = (notes text).map (Prod.map f id)) (document : Document)
    (forced? : Option Version) :
    Renumbers f (scan text document forced?) (scan text' document forced?) := by
  have hMirrors := Scan.foldl_readLine_mirrors document forced? hNotes
  have hLength := congrArg List.length hMirrors.complaints
  rw [List.length_map, List.length_map] at hLength
  unfold scan
  generalize (Line.all text).foldl Scan.readLine (.start document forced?) = s at *
  generalize (Line.all text').foldl Scan.readLine (.start document forced?) = t at *
  cases hs : s.finish text with
  | ok b =>
      obtain ⟨hNone, rfl⟩ := Scan.finish_eq_ok_iff.mp hs
      have hNone' : t.complaints = [] := List.length_eq_zero_iff.mp (by rw [hLength, hNone]; rfl)
      rw [Scan.finish_eq_ok_iff.mpr ⟨hNone', rfl⟩]
      exact hMirrors.block
  | error e =>
      obtain ⟨first, others, hSome, rfl⟩ := Scan.finish_eq_error_iff.mp hs
      rw [hSome] at hLength
      obtain ⟨first', others', hSome'⟩ := List.exists_cons_of_length_eq_add_one hLength
      rw [Scan.finish_eq_error_iff.mpr ⟨first', others', hSome', rfl⟩]
      have hPlaces := hMirrors.complaints
      rw [hSome, hSome'] at hPlaces
      simpa [Renumbers, Error.diagnostics, Diagnostic.ofComplaint, lineOf, Function.comp_def]
        using hPlaces

/-- The layout of a control block does not matter. Texts that differ in their layout
have lines that say something in the same order, so that these correspond by their
numbers in one way. Reading both gives the same block up to these numbers, or errors
with as many diagnostics on the lines that correspond. The caller may have chosen a
version or not. A text and the text with a carriage return at each line break give
the same block. -/
theorem scan_relaid (document : Document) (forced? : Option Version) :
    (∀ text text', Relaid text text' →
      (∃ f, (lineNumbers text).map f = lineNumbers text') ∧
        ∀ f, (lineNumbers text).map f = lineNumbers text' →
          StrictMonoOn f { n | n ∈ lineNumbers text } ∧
            Renumbers f (scan text document forced?) (scan text' document forced?)) ∧
    ∀ text b, scan (withReturns text) document forced? = .ok b ↔
      scan text document forced? = .ok b := by
  refine ⟨fun text text' hRelaid => ⟨hRelaid.exists_renumbering, fun f hNumbers => ?_⟩,
    fun text b => ?_⟩
  · exact ⟨strictMonoOn_of_lineNumbers hNumbers,
      scan_renumbers (hRelaid.notes_eq hNumbers) document forced?⟩
  · have hNotes : notes (withReturns text) = (notes text).map (Prod.map id id) := by
      rw [notes_withReturns, Prod.map_id, List.map_id]
    have hSame := scan_renumbers hNotes document forced?
    cases hText : scan text document forced? <;>
    cases hReturns : scan (withReturns text) document forced? <;>
    simp only [hText, hReturns, Renumbers, renumber_id, reduceCtorEq] at hSame ⊢
    rw [hSame]

/-- A line with blanks in it behind a comment is read as the line alone. It has
another number then. -/
theorem scan_relaid_comment :
    Relaid "ops-manager=ann|5".toList "#!\n ops-manager=ann|5\r".toList ∧
    lineNumbers "ops-manager=ann|5".toList = [1] ∧
    lineNumbers "#!\n ops-manager=ann|5\r".toList = [2] ∧
    Renumbers (fun _ => 2) (scan "ops-manager=ann|5".toList ⟨"control", none⟩ none)
      (scan "#!\n ops-manager=ann|5\r".toList ⟨"control", none⟩ none) := by
  have hReturn : Relaid "ops-manager=ann|5".toList "ops-manager=ann|5\r".toList :=
    .rel _ _ (.blank (c := '\r') "ops-manager=ann|5".toList [] (by decide) (by decide))
  have hBlank : Relaid "ops-manager=ann|5\r".toList " ops-manager=ann|5\r".toList :=
    .rel _ _ (.blank (c := ' ') [] "ops-manager=ann|5\r".toList (by decide) (by decide))
  have hComment : Relaid " ops-manager=ann|5\r".toList "#!\n ops-manager=ann|5\r".toList :=
    .rel _ _ (@Edit.line ⟨1, 0, ['#', '!']⟩ [] " ops-manager=ann|5\r".toList
      (by decide) (by decide) (Or.inl rfl))
  have hRelaid := (hReturn.trans _ _ _ hBlank).trans _ _ _ hComment
  have hFirst : lineNumbers "ops-manager=ann|5".toList = [1] := by decide +kernel
  have hSecond : lineNumbers "#!\n ops-manager=ann|5\r".toList = [2] := by decide +kernel
  have hRead := ((scan_relaid ⟨"control", none⟩ none).1 _ _ hRelaid).2 (fun _ => 2)
    (by rw [hFirst, hSecond]; rfl)
  exact ⟨hRelaid, hFirst, hSecond, hRead.2⟩

end Block

end Bulletin.Control
