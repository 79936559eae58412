import Bulletin.Control.Block
import Bulletin.Error

/-!
The users and restaurants that exist, in the order in which they were added, and
checking a control block against them. Every name is checked where it occurs, so
a name that occurs twice can be reported twice.
-/

namespace Bulletin.Control

structure User where
  name : String
  phone? : Option String
  deriving DecidableEq, Repr

structure Restaurant where
  name : String
  deriving DecidableEq, Repr

/-- Records with a name of their own. -/
class Named (α : Type) where
  name : α → String

instance : Named User := ⟨User.name⟩

instance : Named Restaurant := ⟨Restaurant.name⟩

namespace Named

variable {α : Type} [Named α]

/-- The records with a new one at the end, or in place of the one with its name. -/
def placed (new : α) : List α → List α
  | [] => [new]
  | a :: rest => if name a = name new then new :: rest else a :: placed new rest

/-- A new name comes at the end, and a known one stays where it is. -/
theorem map_name_placed (new : α) (records : List α) :
    (placed new records).map name =
      if name new ∈ records.map name then records.map name
      else records.map name ++ [name new] := by
  fun_induction placed new records with
  | case1 => rfl
  | case2 a rest hSame => simp [hSame]
  | case3 a rest hOther ih =>
    rw [List.map_cons, ih]
    by_cases hKnown : name new ∈ rest.map name <;> simp [hKnown, Ne.symm hOther]

theorem find?_placed (new : α) (records : List α) (wanted : String) :
    (placed new records).find? (name · == wanted) =
      if name new = wanted then some new else records.find? (name · == wanted) := by
  fun_induction placed new records with
  | case1 => by_cases hName : name new = wanted <;> simp [hName]
  | case2 a rest hSame => by_cases hName : name new = wanted <;> simp [hName, hSame]
  | case3 a rest hOther ih =>
    by_cases hName : name a = wanted
    · subst hName
      simp [Ne.symm hOther]
    · simp [hName, ih]

end Named

/-- Records with distinct names, in the order in which the names were first added. -/
structure Register (α : Type) [Named α] where
  records : List α
  distinct : (records.map Named.name).Nodup
  deriving Repr

namespace Register

variable {α : Type} [Named α]

def empty : Register α where
  records := []
  distinct := List.nodup_nil

def names (r : Register α) : List String :=
  r.records.map Named.name

@[simp]
theorem names_empty : (empty : Register α).names = [] := rfl

/-- What the function makes of the records, one after the other. -/
def map {β : Type} (f : α → β) (r : Register α) : List β :=
  r.records.map f

def find? (name : String) (r : Register α) : Option α :=
  r.records.find? (Named.name · == name)

theorem isSome_find?_iff {r : Register α} {name : String} :
    (find? name r).isSome ↔ name ∈ r.names := by
  simp [find?, names]

/-- Adds a record at the end, or in place of the one with its name. -/
def put (new : α) (r : Register α) : Register α where
  records := Named.placed new r.records
  distinct := by
    rw [Named.map_name_placed]
    split
    · exact r.distinct
    · next hNew =>
      have hOther : ∀ name ∈ r.names, ∀ last ∈ [Named.name new], name ≠ last := by
        rintro name hOld last hLast rfl
        exact hNew (List.mem_singleton.mp hLast ▸ hOld)
      exact List.nodup_append.mpr ⟨r.distinct, by simp, hOther⟩

/-- A name is found with the record put in last, and other names as before. -/
theorem find?_put (new : α) (r : Register α) (name : String) :
    find? name (put new r) = if Named.name new = name then some new else find? name r :=
  Named.find?_placed new r.records name

/-- Whether two registers hold the same records, in whatever order. -/
def sameRecords [DecidableEq α] (r r' : Register α) : Bool :=
  r.records.length == r'.records.length &&
    r.records.all fun a => find? (Named.name a) r' == some a

end Register

/-- The users and restaurants that control blocks may name. -/
structure Catalog where
  users : Register User
  restaurants : Register Restaurant
  deriving Repr

namespace Catalog

def empty : Catalog where
  users := .empty
  restaurants := .empty

/-- Adds a user, in place of the one of that name if there is one. -/
def addUser (k : Catalog) (u : User) : Catalog :=
  { k with users := Register.put u k.users }

/-- Adds a restaurant, in place of the one of that name if there is one. -/
def addRestaurant (k : Catalog) (r : Restaurant) : Catalog :=
  { k with restaurants := Register.put r k.restaurants }

def user? (k : Catalog) (name : String) : Option User :=
  Register.find? name k.users

def restaurant? (k : Catalog) (name : String) : Option Restaurant :=
  Register.find? name k.restaurants

/-- Equality of catalogs: the same users and restaurants, in whatever order they
were added. -/
def equal (k k' : Catalog) : Bool :=
  Register.sameRecords k.users k'.users && Register.sameRecords k.restaurants k'.restaurants

instance : BEq Catalog := ⟨equal⟩

end Catalog

/-- Whether the catalog has the user or the restaurant that is named. -/
def Catalog.knows (k : Catalog) : Reference → Bool
  | .opsManager user | .cleanupDriver _ user | .backupDriver user | .pickupManager user =>
    (k.user? user).isSome
  | .splitRestaurant restaurant | .pickupRestaurant _ restaurant =>
    (k.restaurant? restaurant).isSome

namespace Block

/-- The users and restaurants that a block names, each with the line that names
it, in the order in which an audit looks at them. -/
def references (b : Block) : List (Reference × Nat) :=
  (b.common.opsManager?.toList.map fun o => (.opsManager o.user, o.line)) ++
  (b.common.splitRestaurants.flatMap fun s =>
    [(.splitRestaurant s.restaurant, s.line),
     (.cleanupDriver s.restaurant s.cleanupDriver, s.line)]) ++
  (b.common.backupDrivers.map fun d => (.backupDriver d.user, d.line)) ++
  (b.extras.pickupManagers.flatMap fun p =>
    [(.pickupManager p.user, p.line), (.pickupRestaurant p.user p.restaurant, p.line)])

/-- The diagnostics for what a block names and the catalog does not know. -/
def violations (b : Block) (k : Catalog) : List Diagnostic :=
  (b.references.filter fun r => !k.knows r.1).map fun r =>
    ⟨.dangling r.1, b.document, .onLine r.2⟩

/-- Checks everything that a block names against the catalog. -/
def audit (b : Block) (k : Catalog) : Except Error Unit :=
  match Error.ofDiagnostics? (b.violations k) with
  | some e => .error e
  | none => .ok ()

end Block

end Bulletin.Control
