import Bulletin.Control.Audit
import Bulletin.Proofs.Origins

/-! What an audit finds. The users and restaurants that the lines of a block name are
listed here without the block; an audit reports those of them that are not in the
catalog, and nothing else about the catalog counts. -/
namespace Bulletin.Control

/-- A user or a restaurant that is known by its name. -/
inductive Party where
  | user (name : String)
  | restaurant (name : String)
  deriving DecidableEq, Repr

namespace Party

def name : Party → String
  | user name | restaurant name => name

/-- What the party is called in messages. -/
def sort : Party → String
  | user _ => "user"
  | restaurant _ => "restaurant"

end Party

namespace Reference

/-- The party that is named. -/
def party : Reference → Party
  | opsManager user | cleanupDriver _ user | backupDriver user | pickupManager user => .user user
  | splitRestaurant restaurant | pickupRestaurant _ restaurant => .restaurant restaurant

/-- The part that the party has in the block. -/
def role : Reference → String
  | opsManager _ => "ops manager"
  | splitRestaurant _ => "split restaurant"
  | cleanupDriver restaurant _ => s!"cleanup driver for `{restaurant}`"
  | backupDriver _ => "backup driver"
  | pickupManager _ => "pickup manager"
  | pickupRestaurant user _ => s!"pickup restaurant for `{user}`"

theorem append_role {role head name tail sort : String} (hHead : head = role ++ " `")
    (hTail : tail = "` is not a known " ++ sort) :
    head ++ name ++ tail = s!"{role} `{name}` is not a known {sort}" := by
  subst hHead hTail
  simp [toString, String.append_assoc]

theorem append_ticks (before name : String) :
    before ++ name ++ "` `" = s!"{before}{name}`" ++ " `" := by
  have hTicks : "` `" = "`" ++ " `" := by rfl
  rw [hTicks]
  exact String.append_assoc.symm

/-- A message says which party is missing, and what it should be. -/
theorem message_eq (r : Reference) :
    r.message = s!"{r.role} `{r.party.name}` is not a known {r.party.sort}" := by
  cases r with
  | opsManager user => exact append_role (by rfl) (by rfl)
  | splitRestaurant restaurant => exact append_role (by rfl) (by rfl)
  | cleanupDriver restaurant user => exact append_role (append_ticks ..) (by rfl)
  | backupDriver user => exact append_role (by rfl) (by rfl)
  | pickupManager user => exact append_role (by rfl) (by rfl)
  | pickupRestaurant user restaurant => exact append_role (append_ticks ..) (by rfl)

end Reference

namespace Register

variable {α : Type} [Named α]

theorem mem_names_put {new : α} {r : Register α} {name : String} :
    name ∈ (put new r).names ↔ name = Named.name new ∨ name ∈ r.names := by
  rw [← isSome_find?_iff, ← isSome_find?_iff, find?_put]
  split
  · next hSame => simp [hSame]
  · next hOther => simp [Ne.symm hOther]

end Register

namespace Catalog

/-- Whether the catalog has a party of that name. -/
def Has (k : Catalog) : Party → Prop
  | .user name => name ∈ k.users.names
  | .restaurant name => name ∈ k.restaurants.names

instance (k : Catalog) : DecidablePred k.Has
  | .user name => inferInstanceAs (Decidable (name ∈ k.users.names))
  | .restaurant name => inferInstanceAs (Decidable (name ∈ k.restaurants.names))

theorem knows_iff {k : Catalog} {r : Reference} : k.knows r = true ↔ k.Has r.party := by
  cases r <;> exact Register.isSome_find?_iff

end Catalog

/-- Something that is put into a catalog. -/
inductive Addition where
  | user (u : User)
  | restaurant (r : Restaurant)

/-- The party that is added. Its phone is left out. -/
def Addition.party : Addition → Party
  | user u => .user u.name
  | restaurant r => .restaurant r.name

namespace Catalog

def add (k : Catalog) : Addition → Catalog
  | .user u => k.addUser u
  | .restaurant r => k.addRestaurant r

/-- The catalog that some additions make, one after the other. -/
def ofAdditions (as : List Addition) : Catalog :=
  as.foldl add empty

theorem has_add {k : Catalog} {a : Addition} {p : Party} :
    (k.add a).Has p ↔ p = a.party ∨ k.Has p := by
  cases a with
  | user u =>
      cases p with
      | user name =>
          rw [Addition.party, Party.user.injEq]
          exact Register.mem_names_put
      | restaurant name => simp [Addition.party, add, addUser, Has]
  | restaurant r =>
      cases p with
      | user name => simp [Addition.party, add, addRestaurant, Has]
      | restaurant name =>
          rw [Addition.party, Party.restaurant.injEq]
          exact Register.mem_names_put

theorem has_foldl_add {k : Catalog} {as : List Addition} {p : Party} :
    (as.foldl add k).Has p ↔ p ∈ as.map Addition.party ∨ k.Has p := by
  induction as generalizing k with
  | nil => simp
  | cons a as ih =>
      rw [List.foldl_cons, ih, has_add, List.map_cons, List.mem_cons, or_left_comm, or_assoc]

/-- A catalog has what was added to it, in whatever order and however often. -/
theorem has_ofAdditions {as : List Addition} {p : Party} :
    (ofAdditions as).Has p ↔ p ∈ as.map Addition.party := by
  rw [ofAdditions, has_foldl_add]
  cases p <;> simp [Has, empty]

end Catalog

/-- Whether the diagnostic is about a party that the catalog does not have. -/
def Catalog.lacks (k : Catalog) (d : Diagnostic) : Bool :=
  match d.problem with
  | .dangling r => ¬ k.Has r.party
  | _ => false

/-- The diagnostics of an outcome. A success has none. -/
def diagnosticsOf : Except Error Unit → List Diagnostic
  | .ok () => []
  | .error e => e.diagnostics

namespace Setting

/-- The users and restaurants that a setting names. -/
def references : Setting → List Reference
  | opsManager user _ => [.opsManager user]
  | splitRestaurant restaurant driver =>
    [.splitRestaurant restaurant, .cleanupDriver restaurant driver]
  | backupDriver users => users.map .backupDriver
  | pickupManagers pairs =>
    pairs.flatMap fun p => [.pickupManager p.1, .pickupRestaurant p.1 p.2]
  | version _ | altMealOptions _ | altGroceryOptions _ | startTimes _ => []

/-- What the settings of one directive name, each with its line. -/
def referencesOf (d : Directive) (settings : List (Setting × Nat)) : List (Reference × Nat) :=
  (settings.filter fun x => x.1.directive = d).flatMap fun x => x.1.references.map (·, x.2)

/-- Everything that an audit looks at, directive by directive. -/
def audited (settings : List (Setting × Nat)) : List (Reference × Nat) :=
  [Directive.opsManager, .splitRestaurant, .backupDriver, .pickupManagers].flatMap
    (referencesOf · settings)

variable {settings : List (Setting × Nat)}

/-- A field of a block names what the settings of its directive name. -/
theorem flatMap_additions {α : Type} {field : Additions → List α} {d : Directive}
    {names : α → List (Reference × Nat)}
    (hHere : ∀ x : Setting, ∀ line, x.directive = d →
      (field (x.additions line)).flatMap names = x.references.map (·, line))
    (hOther : ∀ x : Setting, ∀ line, x.directive ≠ d → field (x.additions line) = []) :
    (settings.flatMap fun x => field (x.1.additions x.2)).flatMap names =
      referencesOf d settings := by
  unfold referencesOf
  induction settings with
  | nil => rfl
  | cons x settings ih =>
      rw [List.flatMap_cons, List.flatMap_append, ih]
      by_cases hd : x.1.directive = d
      · rw [List.filter_cons_of_pos (by simpa using hd), List.flatMap_cons, hHere x.1 x.2 hd]
      · rw [List.filter_cons_of_neg (by simpa using hd), hOther x.1 x.2 hd, List.flatMap_nil,
          List.nil_append]

theorem flatMap_opsManagers (settings : List (Setting × Nat)) :
    (settings.flatMap fun x => (x.1.additions x.2).opsManagers).flatMap
        (fun o => [(.opsManager o.user, o.line)]) = referencesOf .opsManager settings := by
  apply flatMap_additions <;> intro x line hd
  · cases x <;> cases hd
    rfl
  · cases x <;> first | rfl | exact absurd rfl hd

theorem flatMap_splitRestaurants (settings : List (Setting × Nat)) :
    (settings.flatMap fun x => (x.1.additions x.2).splitRestaurants).flatMap
        (fun s => [(.splitRestaurant s.restaurant, s.line),
          (.cleanupDriver s.restaurant s.cleanupDriver, s.line)]) =
      referencesOf .splitRestaurant settings := by
  apply flatMap_additions <;> intro x line hd
  · cases x <;> cases hd
    rfl
  · cases x <;> first | rfl | exact absurd rfl hd

theorem flatMap_backupDrivers (settings : List (Setting × Nat)) :
    (settings.flatMap fun x => (x.1.additions x.2).backupDrivers).flatMap
        (fun driver => [(.backupDriver driver.user, driver.line)]) =
      referencesOf .backupDriver settings := by
  apply flatMap_additions <;> intro x line hd
  · cases x <;> cases hd
    simp [additions, references, List.map_eq_flatMap, List.flatMap_assoc]
  · cases x <;> first | rfl | exact absurd rfl hd

theorem flatMap_pickupManagers (settings : List (Setting × Nat)) :
    (settings.flatMap fun x => (x.1.additions x.2).pickupManagers).flatMap
        (fun p => [(.pickupManager p.user, p.line),
          (.pickupRestaurant p.user p.restaurant, p.line)]) =
      referencesOf .pickupManagers settings := by
  apply flatMap_additions <;> intro x line hd
  · cases x <;> cases hd
    simp [additions, references, List.flatMap_map, List.map_flatMap]
  · cases x <;> first | rfl | exact absurd rfl hd

theorem length_opsManagers (settings : List (Setting × Nat)) :
    (settings.flatMap fun x => (x.1.additions x.2).opsManagers).length =
      settings.countP fun x => x.1.directive = .opsManager := by
  induction settings with
  | nil => rfl
  | cons x settings ih =>
      obtain ⟨setting, line⟩ := x
      rw [List.flatMap_cons, List.length_append, ih, List.countP_cons, Nat.add_comm]
      cases setting <;> rfl

/-- The last of at most one. -/
theorem toList_getLast? {α : Type} {xs : List α} (hOnce : xs.length ≤ 1) :
    xs.getLast?.toList = xs := by
  rcases xs with - | ⟨x, - | ⟨y, xs⟩⟩
  · rfl
  · rfl
  · simp at hOnce

end Setting

namespace Block

open Setting

variable {text : List Char} {document : Document} {forced? : Option Version} {b : Block}

/-- An audit of a block looks at what the lines of its text name. -/
theorem references_eq_audited (hScan : scan text document forced? = .ok b) :
    ∃ settings : List (Setting × Nat),
      List.Forall₂ StandsOn settings ((Line.all text).filter fun l => ¬ l.IsSilent) ∧
        b.document = document ∧ b.references = audited settings := by
  obtain ⟨settings, hStands, hOnce, hCommon, hExtras⟩ := exists_settings_of_scan hScan
  rw [← length_opsManagers] at hOnce
  refine ⟨settings, hStands, by rw [Block.document, hCommon], ?_⟩
  rw [references, hCommon, hExtras]
  simp only [toList_getLast? hOnce, audited, List.flatMap_cons, List.flatMap_nil, List.append_nil,
    List.append_assoc, List.map_eq_flatMap, flatMap_opsManagers, flatMap_splitRestaurants,
    flatMap_backupDrivers, flatMap_pickupManagers]

theorem violations_eq (b : Block) (k : Catalog) :
    b.violations k = (b.references.filter fun r => ¬ k.Has r.1.party).map fun r =>
      ⟨.dangling r.1, b.document, .onLine r.2⟩ := by
  simp only [violations, ← Catalog.knows_iff, Bool.not_eq_true, Bool.decide_eq_false]

theorem audit_cases (b : Block) (k : Catalog) :
    (b.violations k = [] ∧ b.audit k = .ok ()) ∨
      ∃ first others, b.violations k = first :: others ∧
        b.audit k = .error (.diagnosed first others) := by
  unfold audit
  cases hFound : b.violations k with
  | nil => exact .inl ⟨rfl, rfl⟩
  | cons first others => exact .inr ⟨first, others, rfl, rfl⟩

theorem diagnosticsOf_audit (b : Block) (k : Catalog) :
    diagnosticsOf (b.audit k) = b.violations k := by
  obtain ⟨hFound, hAudit⟩ | ⟨first, others, hFound, hAudit⟩ := b.audit_cases k <;>
    rw [hFound, hAudit] <;> rfl

theorem audit_eq_ok_iff (b : Block) (k : Catalog) :
    b.audit k = .ok () ↔ ∀ r ∈ b.references, k.Has r.1.party := by
  have hNone : b.violations k = [] ↔ ∀ r ∈ b.references, k.Has r.1.party := by
    simp [violations_eq, List.filter_eq_nil_iff]
  rw [← hNone]
  obtain ⟨hFound, hAudit⟩ | ⟨first, others, hFound, hAudit⟩ := b.audit_cases k <;>
    simp [hFound, hAudit]

/-- A larger catalog leaves the diagnostics about what it still lacks. -/
theorem violations_of_subset {k k' : Catalog} (b : Block) (hMore : ∀ p, k.Has p → k'.Has p) :
    b.violations k' = (b.violations k).filter k'.lacks := by
  rw [violations_eq, violations_eq, List.filter_map, List.filter_filter]
  congr 1
  apply List.filter_congr
  intro r _
  have hLack : ¬ k'.Has r.1.party → ¬ k.Has r.1.party := mt (hMore r.1.party)
  by_cases hHas : k'.Has r.1.party <;> simp [Catalog.lacks, hHas, hLack]

/-- All that counts of a catalog is which parties it has. -/
theorem audit_congr {k k' : Catalog} (b : Block) (hSame : ∀ p, k.Has p ↔ k'.Has p) :
    b.audit k = b.audit k' := by
  have hFound : b.violations k = b.violations k' := by
    simp only [violations_eq, hSame]
  rw [audit, audit, hFound]

/-- What an audit of a block finds, told from the lines of its text. It succeeds just if
the catalog has all users and restaurants that they name. Otherwise there is one
diagnostic for each place where a missing one is named, also if the same is named
again: for the ops manager first, then for the restaurant and the cleanup driver of
each split restaurant, for the backup drivers, and for the user and the restaurant of
each pickup manager. It has the number of the line that names the party, and says who
is missing. A catalog that has more leaves the diagnostics about what it lacks. Phones,
the order of additions and repeated ones do not count. -/
theorem audit_of_scan (hScan : scan text document forced? = .ok b) :
    ∃ settings : List (Setting × Nat),
      List.Forall₂ StandsOn settings ((Line.all text).filter fun l => ¬ l.IsSilent) ∧
      (∀ k, b.audit k = .ok () ↔ ∀ r ∈ audited settings, k.Has r.1.party) ∧
      (∀ k e, b.audit k = .error e →
        e.kind = .audit ∧
        (e.diagnostics = ((audited settings).filter fun r => ¬ k.Has r.1.party).map fun r =>
          ⟨.dangling r.1, document, .onLine r.2⟩) ∧
        ∀ d ∈ e.diagnostics, ∃ r ∈ audited settings, d.kind = .audit ∧ d.place.line = r.2 ∧
          d.message = s!"{r.1.role} `{r.1.party.name}` is not a known {r.1.party.sort}") ∧
      (∀ k k', (∀ p, k.Has p → k'.Has p) →
        diagnosticsOf (b.audit k') = (diagnosticsOf (b.audit k)).filter k'.lacks) ∧
      ∀ as as', (∀ p, p ∈ as.map Addition.party ↔ p ∈ as'.map Addition.party) →
        b.audit (.ofAdditions as) = b.audit (.ofAdditions as') := by
  obtain ⟨settings, hStands, hDocument, hReferences⟩ := references_eq_audited hScan
  refine ⟨settings, hStands, ?_, ?_, ?_, ?_⟩
  · intro k
    rw [audit_eq_ok_iff, hReferences]
  · intro k e hError
    obtain ⟨-, hAudit⟩ | ⟨first, others, hFound, hAudit⟩ := b.audit_cases k
    · rw [hAudit] at hError
      cases hError
    · rw [hAudit] at hError
      cases hError
      rw [violations_eq, hReferences, hDocument] at hFound
      have hEach : ∀ d ∈ first :: others, ∃ r ∈ audited settings,
          d = ⟨.dangling r.1, document, .onLine r.2⟩ := by
        rw [← hFound]
        intro d hd
        obtain ⟨r, hr, rfl⟩ := List.mem_map.mp hd
        exact ⟨r, (List.mem_filter.mp hr).1, rfl⟩
      refine ⟨?_, hFound.symm, fun d hd => ?_⟩
      · obtain ⟨r, -, rfl⟩ := hEach first (List.mem_cons_self ..)
        rfl
      · obtain ⟨r, hr, rfl⟩ := hEach d hd
        exact ⟨r, hr, rfl, rfl, r.1.message_eq⟩
  · intro k k' hMore
    rw [diagnosticsOf_audit, diagnosticsOf_audit, violations_of_subset b hMore]
  · intro as as' hSame
    apply audit_congr
    intro p
    rw [Catalog.has_ofAdditions, Catalog.has_ofAdditions, hSame]

theorem audit_of_scan_version300 :
    ∃ b settings,
      scan "version=300\npickup-managers=cy|S,cy|S\nsplit-restaurant=R|bob".toList ⟨"test", none⟩
        none = .ok b ∧
      List.Forall₂ StandsOn settings ((Line.all
        "version=300\npickup-managers=cy|S,cy|S\nsplit-restaurant=R|bob".toList).filter
          fun l => ¬ l.IsSilent) ∧
      (((audited settings).filter fun r =>
          ¬ (Catalog.ofAdditions [.restaurant ⟨"R"⟩]).Has r.1.party).map fun r =>
            (⟨.dangling r.1, ⟨"test", none⟩, .onLine r.2⟩ : Diagnostic)) =
        [⟨.dangling (.cleanupDriver "R" "bob"), ⟨"test", none⟩, .onLine 3⟩,
          ⟨.dangling (.pickupManager "cy"), ⟨"test", none⟩, .onLine 2⟩,
          ⟨.dangling (.pickupRestaurant "cy" "S"), ⟨"test", none⟩, .onLine 2⟩,
          ⟨.dangling (.pickupManager "cy"), ⟨"test", none⟩, .onLine 2⟩,
          ⟨.dangling (.pickupRestaurant "cy" "S"), ⟨"test", none⟩, .onLine 2⟩] ∧
      b.audit (.ofAdditions [.user ⟨"bob", none⟩, .restaurant ⟨"R"⟩]) =
        b.audit (.ofAdditions [.restaurant ⟨"R"⟩, .user ⟨"bob", some "1"⟩]) := by
  have hScan : scan "version=300\npickup-managers=cy|S,cy|S\nsplit-restaurant=R|bob".toList
      ⟨"test", none⟩ none =
        .ok (.v300 ⟨⟨"test", none⟩, none, [⟨"R", "bob", 3⟩], []⟩
          ⟨[], [], [], [⟨"cy", "S", 2⟩, ⟨"cy", "S", 2⟩]⟩) := by rfl
  obtain ⟨settings, hStands, -, hError, -, hSame⟩ := audit_of_scan hScan
  refine ⟨_, settings, hScan, hStands, (hError _ (.diagnosed _ _) rfl).2.1.symm, hSame _ _ fun p => ?_⟩
  simp [Addition.party, or_comm]

end Block

end Bulletin.Control
