import Bulletin.Value
import Bulletin.Control.Block

/-!
The bindings that a control block gives to templates. Each version binds a fixed
list of names, and some of them are flags that tell about others.
-/

namespace Bulletin.Control

namespace Version

/-- The names that a block of the version binds. -/
def bindingNames (v : Version) : List String :=
  ["ControlBlockVersion", "HasOpsManager", "OpsManagerUserName", "OpsManagerPhone",
    "HasBackupDrivers", "BackupDrivers", "HasSplitRestaurants", "SplitRestaurants"] ++
  match v with
  | v200 => []
  | v300 =>
    ["HasAltMealOptions", "AltMealOptions", "HasAltGroceryOptions", "AltGroceryOptions",
      "StartTimes", "HasPickupManagers", "PickupManagers"]

/-- The flags that every version has, each with a name whose value it announces. -/
def initialFlags : List (String × String) :=
  [("HasOpsManager", "OpsManagerUserName"), ("HasOpsManager", "OpsManagerPhone"),
    ("HasBackupDrivers", "BackupDrivers"), ("HasSplitRestaurants", "SplitRestaurants")]

/-- The flags that version 300 adds. -/
def addedFlags : List (String × String) :=
  [("HasAltMealOptions", "AltMealOptions"), ("HasAltGroceryOptions", "AltGroceryOptions"),
    ("HasPickupManagers", "PickupManagers")]

def flags (v : Version) : List (String × String) :=
  initialFlags ++
  match v with
  | v200 => []
  | v300 => addedFlags

end Version

namespace Block

/-- A list of texts as a value. -/
def texts (items : List String) : Value :=
  .list (items.map .text)

/-- An optional text as a value. -/
def textOrNothing : Option String → Value
  | none => .nothing
  | some s => .text s

theorem isTruthy_texts (items : List String) : (texts items).isTruthy = !items.isEmpty := by
  cases items <;> rfl

theorem isTruthy_texts_eraseDups (items : List String) :
    (texts items.eraseDups).isTruthy = !items.isEmpty := by
  cases items with
  | nil => rfl
  | cons item rest => rw [isTruthy_texts, List.eraseDups_cons]; rfl

theorem isTruthy_textOrNothing {α : Type} {half : α → String} {pair? : Option α}
    (hHalf : ∀ pair, pair? = some pair → half pair ≠ "") :
    (textOrNothing (pair?.map half)).isTruthy = pair?.isSome := by
  cases pair? with
  | none => rfl
  | some pair => simpa [textOrNothing, Value.isTruthy] using hHalf pair rfl

/-- The bindings that every version has. -/
def commonBindings (b : Block) : List (String × Value) :=
  let ops? := b.common.opsManager?
  let drivers := b.common.backupDrivers.map BackupDriver.user
  let splits := b.common.splitRestaurants.map SplitRestaurant.restaurant
  [("ControlBlockVersion", .integer (Int64.ofNat b.version.number)),
   ("HasOpsManager", .bool ops?.isSome),
   ("OpsManagerUserName", textOrNothing (ops?.map OpsManager.user)),
   ("OpsManagerPhone", textOrNothing (ops?.map OpsManager.phone)),
   ("HasBackupDrivers", .bool !drivers.isEmpty),
   ("BackupDrivers", texts drivers),
   ("HasSplitRestaurants", .bool !splits.isEmpty),
   ("SplitRestaurants", texts splits)]

/-- The bindings that version 300 adds. -/
def extraBindings (b : Block) : List (String × Value) :=
  let managers := b.extras.pickupManagers.map PickupManager.user
  [("HasAltMealOptions", .bool !b.extras.altMealOptions.isEmpty),
   ("AltMealOptions", texts b.altMealCatalog),
   ("HasAltGroceryOptions", .bool !b.extras.altGroceryOptions.isEmpty),
   ("AltGroceryOptions", texts b.altGroceryCatalog),
   ("StartTimes", texts b.extras.startTimes),
   ("HasPickupManagers", .bool !managers.isEmpty),
   ("PickupManagers", texts managers)]

/-- What templates can use of a block. Every name of the version is bound, so
that a template can test it whatever the block sets. -/
def bindings (b : Block) : Context :=
  match b with
  | .v200 _ => .ofList b.commonBindings
  | .v300 _ _ => .ofList (b.commonBindings ++ b.extraBindings)

/-- The bindings of a block one by one. -/
def bindingList : Block → List (String × Value)
  | b@(.v200 _) => b.commonBindings
  | b@(.v300 _ _) => b.commonBindings ++ b.extraBindings

theorem bindings_eq (b : Block) : b.bindings = .ofList b.bindingList := by
  cases b <;> rfl

theorem map_fst_bindingList (b : Block) : b.bindingList.map Prod.fst = b.version.bindingNames := by
  cases b <;> rfl

end Block

end Bulletin.Control
