import Bulletin.Proofs.Scanning

/-! What holds of a reading behind every line of a control block, whether or not
something is wrong with its lines. -/
namespace Bulletin.Control

namespace Scan

variable {s t : Scan} {d : Directive} {value : List Char} {keySpan valueSpan : Span}

theorem isDefinedIn_of_rejection? {line : Nat} {key : String}
    (hAccepted : s.rejection? line key d = none) : d.isDefinedIn s.version = true := by
  unfold rejection? at hAccepted
  split at hAccepted
  · assumption
  · split at hAccepted <;> cases hAccepted

/-- What a line can do. It says nothing or is refused, and leaves at most a
complaint, or its directive is carried out. -/
theorem readLine_cases (s : Scan) (line : Line) :
    (∃ complaints, s.readLine line = { s with complaints := complaints }) ∨
    ∃ d value keySpan valueSpan, d.isDefinedIn s.version = true ∧
      s.readLine line =
        { (s.remember line.number d).apply line.number d value keySpan valueSpan with
          started := true } := by
  unfold readLine
  cases line.reading with
  | nothing => exact Or.inl ⟨s.complaints, rfl⟩
  | noAssignment text span => exact Or.inl ⟨_, rfl⟩
  | assignment key value keySpan valueSpan =>
      simp only [assign, ← remember_eq]
      cases hFault : s.rejection? line.number (String.ofList key) (.ofKey (String.ofList key)) with
      | some fault => exact Or.inl ⟨_, rfl⟩
      | none => exact Or.inr ⟨_, value, keySpan, valueSpan, isDefinedIn_of_rejection? hFault, rfl⟩

section Values

variable (P : Scan → Prop) (hComplaints : ∀ complaints, P { s with complaints := complaints })

include hComplaints

/-- Naming a version leaves a complaint, or sets the version before any other
directive was carried out. -/
theorem setVersion_of (hVersion : ∀ v, s.started = false → P { s with version := v }) :
    P (s.setVersion value keySpan valueSpan) := by
  unfold setVersion
  by_cases hStarted : s.started
  · rw [if_pos hStarted]
    exact hComplaints _
  · rw [if_neg hStarted]
    cases Version.ofText? (String.ofList value) with
    | none => exact hComplaints _
    | some v =>
        by_cases hConflict : s.forced && v != s.version
        · simp only [if_pos hConflict]
          exact hComplaints _
        · simp only [if_neg hConflict]
          exact hVersion v (by simpa using hStarted)

/-- A value that should be a pair leaves a complaint or is used. -/
theorem withPair_of {shape : PairShape} {use : Scan → String → String → Scan}
    (hUse : ∀ left right, pair? value = some (left, right) → P (use s left right)) :
    P (s.withPair d shape value valueSpan use) := by
  unfold withPair
  cases hPair : pair? value with
  | none => exact hComplaints _
  | some halves => exact hUse halves.1 halves.2 hPair

/-- A value that should be a list leaves a complaint or is used. -/
theorem withItems_of {use : Scan → List (List Char) → Scan}
    (hUse : ∀ items, items? value = some items → P (use s items)) :
    P (s.withItems d value valueSpan use) := by
  unfold withItems
  cases hItems : items? value with
  | none => exact hComplaints _
  | some items => exact hUse items hItems

end Values

section Relation

variable (R : Scan → Scan → Prop) {t : Scan} {valueSpan' : Span}
  (hComplaints : ∀ fault, R (s.complain fault valueSpan) (t.complain fault valueSpan'))

include hComplaints

/-- Of one value two readings both complain, or both use it. -/
theorem withPair_rel {shape : PairShape} {use use' : Scan → String → String → Scan}
    (hUse : ∀ left right, R (use s left right) (use' t left right)) :
    R (s.withPair d shape value valueSpan use) (t.withPair d shape value valueSpan' use') := by
  unfold withPair
  cases pair? value with
  | none => exact hComplaints _
  | some halves => exact hUse halves.1 halves.2

theorem withItems_rel {use use' : Scan → List (List Char) → Scan}
    (hUse : ∀ items, R (use s items) (use' t items)) :
    R (s.withItems d value valueSpan use) (t.withItems d value valueSpan' use') := by
  unfold withItems
  cases items? value with
  | none => exact hComplaints _
  | some items => exact hUse items

end Relation

/-- What version 200 defines does not touch what version 300 adds. -/
theorem extras_apply (s : Scan) (line : Nat) (value : List Char) (keySpan valueSpan : Span)
    (hd : d.isDefinedIn .v200 = true) :
    (s.apply line d value keySpan valueSpan).extras = s.extras := by
  cases d with
  | version => exact setVersion_of (fun t => t.extras = s.extras) (fun _ => rfl) fun _ _ => rfl
  | opsManager => exact withPair_of (fun t => t.extras = s.extras) (fun _ => rfl) fun _ _ _ => rfl
  | splitRestaurant =>
      exact withPair_of (fun t => t.extras = s.extras) (fun _ => rfl) fun _ _ _ => rfl
  | backupDriver => exact withItems_of (fun t => t.extras = s.extras) (fun _ => rfl) fun _ _ => rfl
  | _ => cases hd

theorem common_addPickupManagers (line : Nat) (span : Span) (s : Scan) (items : List (List Char)) :
    (addPickupManagers line span s items).common = s.common := by
  unfold addPickupManagers
  induction items generalizing s with
  | nil => rfl
  | cons item rest ih =>
      rw [List.foldl_cons, ih]
      exact withPair_of (fun t => t.common = s.common) (fun _ => rfl) fun _ _ _ => rfl

/-- What only version 300 defines does not touch what every version has. -/
theorem common_apply (s : Scan) (line : Nat) (value : List Char) (keySpan valueSpan : Span)
    (hd : d.isDefinedIn .v200 = false) :
    (s.apply line d value keySpan valueSpan).common = s.common := by
  cases d with
  | altMealOptions =>
      exact withItems_of (fun t => t.common = s.common) (fun _ => rfl) fun _ _ => rfl
  | altGroceryOptions =>
      exact withItems_of (fun t => t.common = s.common) (fun _ => rfl) fun _ _ => rfl
  | startTimes => exact withItems_of (fun t => t.common = s.common) (fun _ => rfl) fun _ _ => rfl
  | pickupManagers =>
      exact withItems_of (fun t => t.common = s.common) (fun _ => rfl) fun items _ =>
        common_addPickupManagers line valueSpan s items
  | unknown key => rfl
  | _ => cases hd

/-- The ops manager has a user name and a phone, if there is one. -/
def HasSoundManager (s : Scan) : Prop :=
  ∀ o, s.common.opsManager? = some o → o.user ≠ "" ∧ o.phone ≠ ""

theorem ne_empty_of_pair? {left right : String} (hPair : pair? value = some (left, right)) :
    left ≠ "" ∧ right ≠ "" := by
  have hText {half : List Char} (hHalf : isHalf half = true) : String.ofList half ≠ "" := by
    simpa using (isHalf_iff.mp hHalf).1
  unfold pair? at hPair
  split at hPair
  · split at hPair
    · next hHalves =>
        cases hPair
        rw [Bool.and_eq_true] at hHalves
        exact ⟨hText hHalves.1, hText hHalves.2⟩
    · cases hPair
  · cases hPair

theorem HasSoundManager.apply (hSound : s.HasSoundManager) (line : Nat) (d : Directive)
    (value : List Char) (keySpan valueSpan : Span) :
    (s.apply line d value keySpan valueSpan).HasSoundManager := by
  have hSame {t : Scan} (hManager : t.common.opsManager? = s.common.opsManager?) :
      t.HasSoundManager := by
    unfold HasSoundManager
    rwa [hManager]
  cases d with
  | version => exact setVersion_of HasSoundManager (fun _ => hSame rfl) fun _ _ => hSame rfl
  | opsManager =>
      refine withPair_of HasSoundManager (fun _ => hSame rfl) fun left right hPair o hManager => ?_
      cases hManager
      exact ne_empty_of_pair? hPair
  | splitRestaurant => exact withPair_of HasSoundManager (fun _ => hSame rfl) fun _ _ _ => hSame rfl
  | backupDriver => exact withItems_of HasSoundManager (fun _ => hSame rfl) fun _ _ => hSame rfl
  | _ => exact hSame (by rw [common_apply s line value keySpan valueSpan rfl])

/-- What a reading keeps. Version 300 alone adds to what every version has, a version
is set before anything is added, and the halves of a pair are not empty. -/
structure Kept (s : Scan) : Prop where
  unstarted : s.started = false → s.extras = .empty
  extras : s.version = .v200 → s.extras = .empty
  opsManager : s.HasSoundManager

theorem start_kept (document : Document) (forced? : Option Version) :
    (start document forced?).Kept :=
  ⟨fun _ => rfl, fun _ => rfl, fun _ hManager => by cases hManager⟩

/-- A directive that the version defines is carried out. -/
theorem Kept.apply (hKept : s.Kept) (line : Nat) (hd : d.isDefinedIn s.version = true)
    (value : List Char) (keySpan valueSpan : Span) :
    { s.apply line d value keySpan valueSpan with started := true }.Kept where
  unstarted hUnstarted := by cases hUnstarted
  extras hVersion := by
    by_cases hSet : d = .version
    · subst hSet
      change (s.apply line .version value keySpan valueSpan).version = .v200 at hVersion
      change (s.apply line .version value keySpan valueSpan).extras = .empty
      revert hVersion
      exact setVersion_of (fun t => t.version = .v200 → t.extras = .empty)
        (fun _ => hKept.extras) fun _ hUnstarted _ => hKept.unstarted hUnstarted
    · have hSame : s.version = .v200 := (apply_adds hSet).version.symm.trans hVersion
      rw [hSame] at hd
      exact (s.extras_apply line value keySpan valueSpan hd).trans (hKept.extras hSame)
  opsManager := hKept.opsManager.apply line d value keySpan valueSpan

/-- One line read. -/
theorem Kept.readLine (hKept : s.Kept) (line : Line) : (s.readLine line).Kept := by
  obtain ⟨complaints, hRead⟩ | ⟨d, value, keySpan, valueSpan, hd, hRead⟩ := s.readLine_cases line
  · rw [hRead]
    exact ⟨hKept.unstarted, hKept.extras, hKept.opsManager⟩
  · have hRemembered : (s.remember line.number d).Kept :=
      ⟨hKept.unstarted, hKept.extras, hKept.opsManager⟩
    rw [hRead]
    exact hRemembered.apply line.number hd value keySpan valueSpan

/-- Behind all lines of a text. -/
theorem foldl_readLine_kept (document : Document) (forced? : Option Version) (lines : List Line) :
    (lines.foldl readLine (start document forced?)).Kept := by
  induction lines using List.reverseRecOn with
  | nil => exact start_kept document forced?
  | append_singleton earlier line ih =>
      rw [List.foldl_append]
      exact ih.readLine line

/-- The block of a reading with which nothing is wrong. -/
def block (s : Scan) : Block :=
  match s.version with
  | .v200 => .v200 s.common
  | .v300 => .v300 s.common s.extras

theorem finish_eq_ok_iff {text : List Char} {b : Block} :
    s.finish text = .ok b ↔ s.complaints = [] ∧ s.block = b := by
  unfold finish block
  cases s.complaints with
  | nil => cases s.version <;> simp [Error.ofDiagnostics?]
  | cons first others => simp [Error.ofDiagnostics?]

theorem version_block (s : Scan) : s.block.version = s.version := by
  unfold block
  cases s.version <;> rfl

theorem common_block (s : Scan) : s.block.common = s.common := by
  unfold block
  cases s.version <;> rfl

/-- A block of version 200 drops nothing. -/
theorem Kept.extras_block (hKept : s.Kept) : s.block.extras = s.extras := by
  unfold block
  cases hVersion : s.version with
  | v200 => exact (hKept.extras hVersion).symm
  | v300 => rfl

end Scan

theorem Block.scan_eq_ok_iff {text : List Char} {document : Document} {forced? : Option Version}
    {b : Block} : scan text document forced? = .ok b ↔
      complaintsOf forced? (Line.all text) = [] ∧
        ((Line.all text).foldl Scan.readLine (.start document forced?)).block = b := by
  rw [scan, Scan.finish_eq_ok_iff,
    (Scan.foldl_readLine_follows document forced? (Line.all text)).complaints]

end Bulletin.Control
