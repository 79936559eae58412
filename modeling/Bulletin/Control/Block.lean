import Bulletin.Control.Directive
import Bulletin.Diagnostic

/-!
Control blocks after reading: who manages the deliveries, which restaurants are
split, who can step in. Every entry knows the line it was read from.
-/

namespace Bulletin.Control

structure OpsManager where
  user : String
  phone : String
  line : Nat
  deriving DecidableEq, Repr

structure SplitRestaurant where
  restaurant : String
  cleanupDriver : String
  line : Nat
  deriving DecidableEq, Repr

structure BackupDriver where
  user : String
  line : Nat
  deriving DecidableEq, Repr

structure PickupManager where
  user : String
  restaurant : String
  line : Nat
  deriving DecidableEq, Repr

/-- What a block of any version can set. -/
structure Common where
  document : Document
  opsManager? : Option OpsManager
  splitRestaurants : List SplitRestaurant
  backupDrivers : List BackupDriver
  deriving DecidableEq, Repr

/-- What version 300 adds. -/
structure Extras where
  altMealOptions : List String
  altGroceryOptions : List String
  startTimes : List String
  pickupManagers : List PickupManager
  deriving DecidableEq, Repr

/-- A control block. -/
inductive Block where
  | v200 (common : Common)
  | v300 (common : Common) (extras : Extras)
  deriving DecidableEq, Repr

namespace Common

def empty (document : Document) : Common where
  document := document
  opsManager? := none
  splitRestaurants := []
  backupDrivers := []

end Common

namespace Extras

def empty : Extras where
  altMealOptions := []
  altGroceryOptions := []
  startTimes := []
  pickupManagers := []

end Extras

namespace Block

def version : Block → Version
  | v200 _ => .v200
  | v300 _ _ => .v300

def common : Block → Common
  | v200 common => common
  | v300 common _ => common

/-- What version 300 adds. A block of version 200 has none of it. -/
def extras : Block → Extras
  | v200 _ => .empty
  | v300 _ extras => extras

def document (b : Block) : Document := b.common.document

/-- The distinct meal options in the order in which they are first listed. -/
def altMealCatalog (b : Block) : List String :=
  b.extras.altMealOptions.eraseDups

/-- The distinct grocery options in the order in which they are first listed. -/
def altGroceryCatalog (b : Block) : List String :=
  b.extras.altGroceryOptions.eraseDups

end Block

end Bulletin.Control
