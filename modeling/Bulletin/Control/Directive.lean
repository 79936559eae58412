/-!
The versions of control blocks and their directives: the keys, the versions that
define them, and which of them may occur once only. What can be wrong with a
block is told in terms of them: faults of its lines, and names in it that nobody
knows.
-/

namespace Bulletin.Control

/-- The version of a control block. Version 300 defines every directive that
version 200 does, and some more. -/
inductive Version where
  | v200
  | v300
  deriving DecidableEq, Repr

namespace Version

/-- The version of a block that does not name one. -/
def initial : Version := v200

def number : Version → Nat
  | v200 => 200
  | v300 => 300

/-- The version that a `version` directive names by this text. -/
def ofText? : String → Option Version
  | "200" => some v200
  | "300" => some v300
  | _ => none

/-- Whether the first version is the second or a later one. -/
def isAtLeast (v w : Version) : Bool :=
  decide (w.number ≤ v.number)

end Version

/-- What a line of a control block sets. A key that no version defines is kept
as it was written. -/
inductive Directive where
  | version
  | opsManager
  | splitRestaurant
  | backupDriver
  | altMealOptions
  | altGroceryOptions
  | startTimes
  | pickupManagers
  | unknown (key : String)
  deriving DecidableEq, Repr

namespace Directive

/-- The directives that have a key of their own. -/
def known : List Directive :=
  [version, opsManager, splitRestaurant, backupDriver, altMealOptions,
   altGroceryOptions, startTimes, pickupManagers]

/-- The key as it is written in messages. -/
def key : Directive → String
  | version => "version"
  | opsManager => "ops-manager"
  | splitRestaurant => "split-restaurant"
  | backupDriver => "backup-driver"
  | altMealOptions => "alt-meal-options"
  | altGroceryOptions => "alt-grocery-options"
  | startTimes => "start-times"
  | pickupManagers => "pickup-managers"
  | unknown key => key

/-- The directive with this key. Capital and small ASCII letters count as
equal, other letters do not. -/
def ofKey (key : String) : Directive :=
  let letters := key.toList.map Char.toLower
  (known.find? fun d => d.key.toList == letters).getD (unknown key)

/-- Whether the version defines the directive. -/
def isDefinedIn (v : Version) : Directive → Bool
  | version | opsManager | splitRestaurant | backupDriver => true
  | altMealOptions | altGroceryOptions | startTimes | pickupManagers => v.isAtLeast .v300
  | unknown _ => false

/-- Whether a block may hold the directive once only. The values of the others
add up over their lines. -/
def isUnique : Directive → Bool
  | version | opsManager => true
  | _ => false

end Directive

/-- The two halves of a pair, in the order in which they are written. -/
inductive PairShape where
  | userPhone
  | restaurantDriver
  | userRestaurant
  deriving DecidableEq, Repr

namespace PairShape

def text : PairShape → String
  | userPhone => "UserName|Phone"
  | restaurantDriver => "Restaurant|CleanupDriver"
  | userRestaurant => "UserName|Restaurant"

end PairShape

/-- What can be wrong with a line of a control block. Keys and values are held
without their blanks; the text of a line without `=` keeps its inner ones. -/
inductive Fault where
  | notAssignment (line : String)
  | unknownKey (key : String)
  | undefinedKey (key : String) (version : Version)
  | duplicate (directive : Directive) (line first : Nat)
  | versionNotFirst
  | unknownVersion (value : String)
  | versionConflict (named expected : Version)
  | emptyItem (directive : Directive)
  | malformedPair (shape : PairShape) (directive : Directive) (value : String)
  deriving DecidableEq, Repr

namespace Fault

def message : Fault → String
  | notAssignment line => s!"expected `key=value`, found `{line}`"
  | unknownKey key => s!"unknown directive `{key}`"
  | undefinedKey key version =>
    s!"unknown directive `{key}` for version {version.number}"
  | duplicate directive line first =>
    s!"duplicate `{directive.key}` directive on line {line}, first set on line {first}"
  | versionNotFirst => "`version` must be the first directive"
  | unknownVersion value => s!"unknown version `{value}`"
  | versionConflict named expected =>
    s!"version {named.number} conflicts with the expected version {expected.number}"
  | emptyItem directive => s!"empty item in `{directive.key}` list"
  | malformedPair shape directive value =>
    s!"expected `{shape.text}` for `{directive.key}`, found `{value}`"

end Fault

/-- The place of a block where the name of a user or a restaurant stands. -/
inductive Reference where
  | opsManager (user : String)
  | splitRestaurant (restaurant : String)
  | cleanupDriver (restaurant user : String)
  | backupDriver (user : String)
  | pickupManager (user : String)
  | pickupRestaurant (user restaurant : String)
  deriving DecidableEq, Repr

namespace Reference

/-- Says that the name is not in the catalog. -/
def message : Reference → String
  | opsManager user => s!"ops manager `{user}` is not a known user"
  | splitRestaurant restaurant =>
    s!"split restaurant `{restaurant}` is not a known restaurant"
  | cleanupDriver restaurant user =>
    s!"cleanup driver for `{restaurant}` `{user}` is not a known user"
  | backupDriver user => s!"backup driver `{user}` is not a known user"
  | pickupManager user => s!"pickup manager `{user}` is not a known user"
  | pickupRestaurant user restaurant =>
    s!"pickup restaurant for `{user}` `{restaurant}` is not a known restaurant"

end Reference

end Bulletin.Control
