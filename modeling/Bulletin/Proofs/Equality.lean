import Bulletin.Render

/-! Equality of values and of contexts. It is symmetric and transitive and keeps what a
test sees, but a number that is none is not equal to itself, and neither is anything that
holds one. -/
namespace Bulletin

namespace Binary64

variable {x y z : Binary64}

theorem numericEq_iff : x.numericEq y = true ↔
    x.isNaN = false ∧ y.isNaN = false ∧ (x = y ∨ x.isZero = true ∧ y.isZero = true) := by
  have hBits : x = y ↔ x.bits = y.bits := by
    cases x
    cases y
    simp
  simp [numericEq, hBits, and_assoc]

theorem numericEq_comm (x y : Binary64) : x.numericEq y = y.numericEq x := by
  rw [Bool.eq_iff_iff, numericEq_iff, numericEq_iff]
  constructor
  · rintro ⟨hx, hy, hSame⟩
    exact ⟨hy, hx, hSame.imp Eq.symm And.symm⟩
  · rintro ⟨hy, hx, hSame⟩
    exact ⟨hx, hy, hSame.imp Eq.symm And.symm⟩

/-- Two numbers that are equal are both zero, or neither is. -/
theorem isZero_of_numericEq (hEqual : x.numericEq y = true) : x.isZero = y.isZero := by
  obtain ⟨-, -, rfl | ⟨hx, hy⟩⟩ := numericEq_iff.mp hEqual
  · rfl
  · rw [hx, hy]

theorem numericEq_trans (hxy : x.numericEq y = true) (hyz : y.numericEq z = true) :
    x.numericEq z = true := by
  have hZero := isZero_of_numericEq hxy
  obtain ⟨hx, -, hFirst⟩ := numericEq_iff.mp hxy
  obtain ⟨-, hz, hSecond⟩ := numericEq_iff.mp hyz
  refine numericEq_iff.mpr ⟨hx, hz, ?_⟩
  rcases hSecond with rfl | ⟨hy, hz⟩
  · exact hFirst
  · exact Or.inr ⟨hZero.trans hy, hz⟩

theorem numericEq_self_iff : x.numericEq x = true ↔ x.isNaN = false := by
  simp [numericEq_iff]

end Binary64

namespace Value

/-- What passes from the parts of a list or a map to the whole holds of all values. -/
theorem induction {P : Value → Prop} (nothing : P .nothing) (bool : ∀ b, P (.bool b))
    (integer : ∀ n, P (.integer n)) (float : ∀ x, P (.float x)) (text : ∀ s, P (.text s))
    (list : ∀ items, (∀ v ∈ items, P v) → P (.list items))
    (map : ∀ entries, (∀ e ∈ entries, P e.2) → P (.map entries)) (v : Value) : P v := by
  induction hSize : sizeOf v using Nat.strongRecOn generalizing v with
  | ind size ih =>
      subst hSize
      cases v with
      | nothing => exact nothing
      | bool b => exact bool b
      | integer n => exact integer n
      | float x => exact float x
      | text s => exact text s
      | list items =>
          refine list items fun v hMem => ih _ ?_ v rfl
          have := List.sizeOf_lt_of_mem hMem
          simp
          omega
      | map entries =>
          refine map entries fun e hMem => ih _ ?_ e.2 rfl
          have := List.sizeOf_lt_of_mem hMem
          cases e
          simp at this ⊢
          omega

/-- The value is no number where one is expected, or it holds such a value at any depth. -/
inductive HoldsNaN : Value → Prop where
  | float {x : Binary64} (hNaN : x.isNaN = true) : HoldsNaN (.float x)
  | item {v : Value} {items : List Value} (hMem : v ∈ items) (hItem : HoldsNaN v) :
      HoldsNaN (.list items)
  | entry {name : String} {v : Value} {entries : List (String × Value)}
      (hMem : (name, v) ∈ entries) (hEntry : HoldsNaN v) : HoldsNaN (.map entries)

variable {a b c v : Value} {items others more : List Value}
  {entries entries' entries'' : List (String × Value)}

/-! Symmetry. -/

theorem equalItems_comm (hItems : ∀ v ∈ items, ∀ w, v.equal w = w.equal v) :
    equalItems items others = equalItems others items := by
  induction items generalizing others with
  | nil => cases others <;> rfl
  | cons v items ih =>
      cases others with
      | nil => rfl
      | cons w others =>
          obtain ⟨hHead, hRest⟩ := List.forall_mem_cons.mp hItems
          rw [equalItems, equalItems, hHead, ih hRest]

theorem equalEntries_comm (hEntries : ∀ e ∈ entries, ∀ w, e.2.equal w = w.equal e.2) :
    equalEntries entries entries' = equalEntries entries' entries := by
  induction entries generalizing entries' with
  | nil => cases entries' <;> rfl
  | cons e entries ih =>
      cases entries' with
      | nil => rfl
      | cons f entries' =>
          obtain ⟨hHead, hRest⟩ := List.forall_mem_cons.mp hEntries
          rw [equalEntries, equalEntries, BEq.comm, hHead, ih hRest]

theorem equal_comm (a b : Value) : a.equal b = b.equal a := by
  induction a using Value.induction generalizing b with
  | nothing => cases b <;> rfl
  | bool x =>
      cases b with
      | bool y => exact BEq.comm
      | _ => rfl
  | integer n =>
      cases b with
      | integer m => exact BEq.comm
      | _ => rfl
  | float x =>
      cases b with
      | float y => exact x.numericEq_comm y
      | _ => rfl
  | text s =>
      cases b with
      | text t => exact BEq.comm
      | _ => rfl
  | list items ih =>
      cases b with
      | list others => exact equalItems_comm ih
      | _ => rfl
  | map entries ih =>
      cases b with
      | map entries' => exact equalEntries_comm ih
      | _ => rfl

/-! Transitivity. -/

theorem equalItems_trans
    (hItems : ∀ v ∈ items, ∀ w u, v.equal w = true → w.equal u = true → v.equal u = true)
    (hFirst : equalItems items others = true) (hSecond : equalItems others more = true) :
    equalItems items more = true := by
  induction items generalizing others more with
  | nil =>
      cases others with
      | nil => exact hSecond
      | cons => cases hFirst
  | cons v items ih =>
      cases others with
      | nil => cases hFirst
      | cons w others =>
          cases more with
          | nil => cases hSecond
          | cons u more =>
              simp only [equalItems, Bool.and_eq_true] at hFirst hSecond ⊢
              obtain ⟨hHead, hRest⟩ := List.forall_mem_cons.mp hItems
              exact ⟨hHead w u hFirst.1 hSecond.1, ih hRest hFirst.2 hSecond.2⟩

theorem equalEntries_trans
    (hEntries : ∀ e ∈ entries, ∀ w u, e.2.equal w = true → w.equal u = true → e.2.equal u = true)
    (hFirst : equalEntries entries entries' = true)
    (hSecond : equalEntries entries' entries'' = true) :
    equalEntries entries entries'' = true := by
  induction entries generalizing entries' entries'' with
  | nil =>
      cases entries' with
      | nil => exact hSecond
      | cons => cases hFirst
  | cons e entries ih =>
      cases entries' with
      | nil => cases hFirst
      | cons f entries' =>
          cases entries'' with
          | nil => cases hSecond
          | cons g entries'' =>
              simp only [equalEntries, Bool.and_eq_true, beq_iff_eq] at hFirst hSecond ⊢
              obtain ⟨⟨hName, hValue⟩, hRest⟩ := hFirst
              obtain ⟨⟨hName', hValue'⟩, hRest'⟩ := hSecond
              obtain ⟨hHead, hEntries⟩ := List.forall_mem_cons.mp hEntries
              exact ⟨⟨hName.trans hName', hHead f.2 g.2 hValue hValue'⟩,
                ih hEntries hRest hRest'⟩

theorem equal_trans (hab : a.equal b = true) (hbc : b.equal c = true) : a.equal c = true := by
  induction a using Value.induction generalizing b c with
  | nothing =>
      cases b with
      | nothing => exact hbc
      | _ => cases hab
  | bool x =>
      cases b with
      | bool y => exact (eq_of_beq hab : x = y) ▸ hbc
      | _ => cases hab
  | integer n =>
      cases b with
      | integer m => exact (eq_of_beq hab : n = m) ▸ hbc
      | _ => cases hab
  | float x =>
      cases b with
      | float y =>
          cases c with
          | float z => exact Binary64.numericEq_trans hab hbc
          | _ => cases hbc
      | _ => cases hab
  | text s =>
      cases b with
      | text t => exact (eq_of_beq hab : s = t) ▸ hbc
      | _ => cases hab
  | list items ih =>
      cases b with
      | list others =>
          cases c with
          | list more => exact equalItems_trans (fun v hMem _ _ => ih v hMem) hab hbc
          | _ => cases hbc
      | _ => cases hab
  | map entries ih =>
      cases b with
      | map entries' =>
          cases c with
          | map entries'' => exact equalEntries_trans (fun e hMem _ _ => ih e hMem) hab hbc
          | _ => cases hbc
      | _ => cases hab

/-! Reflexivity. -/

theorem equalItems_self_iff : equalItems items items = true ↔ ∀ v ∈ items, v.equal v = true := by
  induction items with
  | nil => simp [equalItems]
  | cons v items ih => rw [equalItems, Bool.and_eq_true, ih, List.forall_mem_cons]

theorem equalEntries_self_iff :
    equalEntries entries entries = true ↔ ∀ e ∈ entries, e.2.equal e.2 = true := by
  induction entries with
  | nil => simp [equalEntries]
  | cons e entries ih =>
      rw [equalEntries, beq_self_eq_true, Bool.true_and, Bool.and_eq_true, ih,
        List.forall_mem_cons]

theorem holdsNaN_float_iff {x : Binary64} : (float x).HoldsNaN ↔ x.isNaN = true :=
  ⟨fun | .float hNaN => hNaN, .float⟩

theorem holdsNaN_list_iff : (list items).HoldsNaN ↔ ∃ v ∈ items, v.HoldsNaN :=
  ⟨fun | .item hMem hItem => ⟨_, hMem, hItem⟩, fun ⟨_, hMem, hItem⟩ => .item hMem hItem⟩

theorem holdsNaN_map_iff : (map entries).HoldsNaN ↔ ∃ e ∈ entries, e.2.HoldsNaN :=
  ⟨fun | .entry hMem hEntry => ⟨_, hMem, hEntry⟩, fun ⟨_, hMem, hEntry⟩ => .entry hMem hEntry⟩

/-- A value is equal to itself exactly if there is a number wherever one should be. -/
theorem equal_self_iff (v : Value) : v.equal v = true ↔ ¬ v.HoldsNaN := by
  induction v using Value.induction with
  | nothing => exact ⟨nofun, fun _ => rfl⟩
  | bool b => exact ⟨nofun, fun _ => beq_self_eq_true b⟩
  | integer n => exact ⟨nofun, fun _ => beq_self_eq_true n⟩
  | text s => exact ⟨nofun, fun _ => beq_self_eq_true s⟩
  | float x => rw [equal, Binary64.numericEq_self_iff, holdsNaN_float_iff, Bool.not_eq_true]
  | list items ih =>
      rw [equal, equalItems_self_iff, holdsNaN_list_iff, not_exists]
      exact forall_congr' fun v => by simp +contextual [ih]
  | map entries ih =>
      rw [equal, equalEntries_self_iff, holdsNaN_map_iff, not_exists]
      exact forall_congr' fun e => by simp +contextual [ih]

/-! What equal values have in common. -/

theorem isTruthy_of_equal (hEqual : a.equal b = true) : a.isTruthy = b.isTruthy := by
  cases a with
  | nothing =>
      cases b with
      | nothing => rfl
      | _ => cases hEqual
  | bool x =>
      cases b with
      | bool y => exact eq_of_beq hEqual
      | _ => cases hEqual
  | integer n =>
      cases b with
      | integer m => rw [(eq_of_beq hEqual : n = m)]
      | _ => cases hEqual
  | float x =>
      cases b with
      | float y => rw [isTruthy, isTruthy, Binary64.isZero_of_numericEq hEqual]
      | _ => cases hEqual
  | text s =>
      cases b with
      | text t => rw [(eq_of_beq hEqual : s = t)]
      | _ => cases hEqual
  | list items =>
      cases b with
      | list others =>
          cases items <;> cases others
          case nil.nil => rfl
          case cons.cons => rfl
          all_goals cases hEqual
      | _ => cases hEqual
  | map entries =>
      cases b with
      | map entries' =>
          cases entries <;> cases entries'
          case nil.nil => rfl
          case cons.cons => rfl
          all_goals cases hEqual
      | _ => cases hEqual

/-- Of two equal maps, either both bind a name, to equal values, or neither does. -/
theorem get?_of_equalEntries (hEqual : equalEntries entries entries' = true) (name : String) :
    Option.Rel (fun v w : Value => v.equal w = true) (Entries.get? name entries)
      (Entries.get? name entries') := by
  induction entries generalizing entries' with
  | nil =>
      cases entries' with
      | nil => exact .none
      | cons => cases hEqual
  | cons e entries ih =>
      cases entries' with
      | nil => cases hEqual
      | cons f entries' =>
          simp only [equalEntries, Bool.and_eq_true, beq_iff_eq] at hEqual
          obtain ⟨⟨hName, hValue⟩, hRest⟩ := hEqual
          rw [Entries.get?, Entries.get?, hName]
          split
          · exact .some hValue
          · exact ih hRest

end Value

/-- A name of the context stands for a value that is no number where one is expected, or that
holds such a value. -/
def Context.HoldsNaN (k : Context) : Prop :=
  ∃ e ∈ k.bindings, e.2.HoldsNaN

namespace Context

variable {k k' k'' : Context}

theorem equal_comm (k k' : Context) : k.equal k' = k'.equal k :=
  Value.equal_comm (.map k.bindings) (.map k'.bindings)

theorem equal_trans (hFirst : k.equal k' = true) (hSecond : k'.equal k'' = true) :
    k.equal k'' = true :=
  Value.equal_trans (a := .map k.bindings) (b := .map k'.bindings) (c := .map k''.bindings)
    hFirst hSecond

theorem equal_self_iff (k : Context) : k.equal k = true ↔ ¬ k.HoldsNaN := by
  rw [HoldsNaN, ← Value.holdsNaN_map_iff]
  exact Value.equal_self_iff (.map k.bindings)

end Context

namespace Template

variable {t : Template} {k k' : Context}

/-- Equal contexts decide a test alike, and say the same if it cannot be decided. -/
theorem decideTest_of_equal (hEqual : k.equal k' = true) (test : Element) :
    t.decideTest k test = t.decideTest k' test := by
  cases test with
  | literal => rfl
  | conditional => rfl
  | «variable» name span =>
      have hFound : Option.Rel _ (k.get? name) (k'.get? name) :=
        Value.get?_of_equalEntries hEqual name
      rw [decideTest, decideTest, lookup, lookup]
      generalize k.get? name = found, k'.get? name = found' at hFound ⊢
      cases hFound with
      | none => rfl
      | some hValue =>
          change Except.ok _ = Except.ok _
          rw [Value.isTruthy_of_equal hValue]

theorem piecesFrom_congr (hTests : ∀ test, t.decideTest k test = t.decideTest k' test)
    (found : List Piece) (waiting : List (List Element)) :
    t.piecesFrom k found waiting = t.piecesFrom k' found waiting := by
  fun_induction piecesFrom t k found waiting with
  | case1 => rw [piecesFrom]
  | case2 found outer ih => rw [piecesFrom, ih]
  | case3 found text span rest outer ih => rw [piecesFrom, ih]
  | case4 found name span rest outer ih => rw [piecesFrom, ih]
  | case5 found polarity test body span rest outer ihShown ihHidden =>
      rw [piecesFrom, hTests]
      refine bind_congr fun truthy => ?_
      rw [ihShown, ihHidden]

end Template

/-- A value is equal to itself exactly if it holds nothing, at any depth, that is no number
where one is expected. Apart from that equality is an equivalence, and equal values count as
true alike. The same holds of contexts, and equal ones decide the conditionals of a template
alike. -/
theorem Value.equality_up_to_nan (a b c : Value) (k k' k'' : Context) (t : Template) :
    ((a == a) = true ↔ ¬ a.HoldsNaN) ∧
    (a == b) = (b == a) ∧
    ((a == b) = true → (b == c) = true → (a == c) = true) ∧
    ((a == b) = true → a.isTruthy = b.isTruthy) ∧
    ((k == k) = true ↔ ¬ k.HoldsNaN) ∧
    (k == k') = (k' == k) ∧
    ((k == k') = true → (k' == k'') = true → (k == k'') = true) ∧
    ((k == k') = true → t.resolve k = t.resolve k') := by
  refine ⟨a.equal_self_iff, a.equal_comm b, equal_trans, isTruthy_of_equal,
    k.equal_self_iff, k.equal_comm k', Context.equal_trans, ?_⟩
  intro hEqual
  exact Template.piecesFrom_congr (Template.decideTest_of_equal hEqual) [] [t.elements]

/-- What is no number is not equal to itself. -/
theorem Value.nan_ne_self : ¬ ∀ v : Value, (v == v) = true := by
  intro hAll
  exact absurd (hAll (.float ⟨0x7FF8000000000000⟩)) (by decide)

end Bulletin
