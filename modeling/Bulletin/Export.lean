import Bulletin.Control.Audit
import Bulletin.Value.Serial

/-!
Data of this library as values, for templates and for other programs. The names
of fields and cases are part of the format.
-/

namespace Bulletin

/-- A span by its two ends, as byte offsets. -/
def Span.toSerial (s : Span) : Serial :=
  .record [("m", .natural s.start), ("n", .natural s.stop)]

/-- A document by its section and, where there is one, the number of the post. -/
def Document.toSerial (d : Document) : Serial :=
  .record [("section", .text d.area), ("post", .ofOption (d.post?.map .natural))]

/-- A diagnostic with the message that is shown for it. A place that is known by
its line only has neither an offset nor an excerpt. -/
def Diagnostic.toSerial (d : Diagnostic) : Serial :=
  .record
    [("kind", .caseName d.kind.name),
     ("document", d.document.toSerial),
     ("offset", .ofOption (d.place.offset?.map .natural)),
     ("line", .natural d.place.line),
     ("column", .natural d.place.column),
     ("message", .text d.message),
     ("excerpt", .ofOption (d.place.excerpt?.map .text))]

namespace Control

/-- A version is a case without data. -/
def Version.toSerial : Version → Serial
  | .v200 => .caseName "V200"
  | .v300 => .caseName "V300"

/-- The ops manager. As in every entry of a block, the line is the one that it was
read from. -/
def OpsManager.toSerial (o : OpsManager) : Serial :=
  .record [("user_name", .text o.user), ("phone", .text o.phone), ("line", .natural o.line)]

/-- A split restaurant with its cleanup driver. -/
def SplitRestaurant.toSerial (s : SplitRestaurant) : Serial :=
  .record
    [("restaurant", .text s.restaurant),
     ("cleanup_driver", .text s.cleanupDriver),
     ("line", .natural s.line)]

/-- A backup driver by the user name. -/
def BackupDriver.toSerial (d : BackupDriver) : Serial :=
  .record [("user_name", .text d.user), ("line", .natural d.line)]

/-- A pickup manager with the restaurant of the pair. -/
def PickupManager.toSerial (p : PickupManager) : Serial :=
  .record
    [("user_name", .text p.user),
     ("restaurant", .text p.restaurant),
     ("line", .natural p.line)]

/-- What blocks of every version hold, starting with their document. -/
def Common.toSerial (c : Common) : Serial :=
  .record
    [("document", c.document.toSerial),
     ("ops_manager", .ofOption (c.opsManager?.map OpsManager.toSerial)),
     ("split_restaurants", .sequence (c.splitRestaurants.map SplitRestaurant.toSerial)),
     ("backup_drivers", .sequence (c.backupDrivers.map BackupDriver.toSerial))]

/-- A block is a case of its version. What version 300 adds stands beside the
common part, which is nested. -/
def Block.toSerial : Block → Serial
  | .v200 common => .caseOf "V200" common.toSerial
  | .v300 common extras =>
    .caseOf "V300"
      (.record
        [("common", common.toSerial),
         ("alt_meal_options", .sequence (extras.altMealOptions.map .text)),
         ("alt_grocery_options", .sequence (extras.altGroceryOptions.map .text)),
         ("start_times", .sequence (extras.startTimes.map .text)),
         ("pickup_managers", .sequence (extras.pickupManagers.map PickupManager.toSerial))])

/-- A user, with a phone where one is known. -/
def User.toSerial (u : User) : Serial :=
  .record [("user_name", .text u.name), ("phone", .ofOption (u.phone?.map .text))]

/-- A restaurant by its name alone. -/
def Restaurant.toSerial (r : Restaurant) : Serial :=
  .record [("name", .text r.name)]

/-- A catalog as two maps, in each of which a record has its own name as its key. -/
def Catalog.toSerial (k : Catalog) : Serial :=
  .record
    [("users", .map (k.users.map fun u => .entry (.text u.name) u.toSerial)),
     ("restaurants", .map (k.restaurants.map fun r => .entry (.text r.name) r.toSerial))]

end Control

end Bulletin
