import Bulletin.Control.Block
import Bulletin.Error
import Bulletin.Text.Split

/-!
Reading a control block from its first line to its last: what each line says by
itself, and then what it says where it stands. Everything that is wrong is
collected on the way, and there is a block only if nothing is.
-/

namespace Bulletin.Control

open Text

/-- A line of a control block, with its number, from one, and the byte offset
where it begins. The carriage returns that end it are left out. -/
structure Line where
  number : Nat
  offset : Nat
  text : List Char
  deriving DecidableEq, Repr

/-- What a line says. Blank lines and comments say nothing. The key and the
value of an assignment come without any blanks; their spans cover them in the
source without the blanks around. -/
inductive Reading where
  | nothing
  | noAssignment (text : List Char) (span : Span)
  | assignment (key value : List Char) (keySpan valueSpan : Span)
  deriving DecidableEq, Repr

namespace Line

/-- Numbers the parts of a text between line breaks. -/
def enumerate (first offset : Nat) : List (List Char) → List Line
  | [] => []
  | part :: rest =>
    ⟨first, offset, Place.withoutReturns part⟩ ::
      enumerate (first + 1) (offset + byteLength part + 1) rest

/-- The lines of a text. -/
def all (text : List Char) : List Line :=
  enumerate 1 0 (splitAll '\n' text)

/-- The span of a text without the blanks around it, if the text stands at the
offset. A text of blanks only is reduced to its end. -/
def trimmedSpan (offset : Nat) (text : List Char) : Span :=
  let start := offset + byteLength (text.takeWhile isBlank)
  ⟨start, start + byteLength (trim text)⟩

def reading (line : Line) : Reading :=
  match trim line.text with
  | [] => .nothing
  | '#' :: _ => .nothing
  | trimmed =>
    match splitFirst? '=' line.text with
    | none => .noAssignment trimmed (trimmedSpan line.offset line.text)
    | some (key, value) =>
      .assignment (squeeze key) (squeeze value) (trimmedSpan line.offset key)
        (trimmedSpan (line.offset + byteLength key + 1) value)

end Line

/-- A reading in progress: the version in force and whether the caller chose
it, whether some line was accepted yet, where the unique directives were first
set, what was collected, and what was wrong. -/
structure Scan where
  version : Version
  forced : Bool
  started : Bool
  firstLines : List (Directive × Nat)
  common : Common
  extras : Extras
  complaints : List Complaint

namespace Scan

/-- The beginning of a reading. If the caller does not choose a version, the
block is of the initial version until a line says otherwise. -/
def start (document : Document) (forced? : Option Version) : Scan where
  version := forced?.getD .initial
  forced := forced?.isSome
  started := false
  firstLines := []
  common := .empty document
  extras := .empty
  complaints := []

def complain (s : Scan) (fault : Fault) (span : Span) : Scan :=
  { s with complaints := s.complaints ++ [⟨.control fault, span⟩] }

/-- The line that set a unique directive first. -/
def firstLine? (s : Scan) (d : Directive) : Option Nat :=
  s.firstLines.lookup d

/-- The items of a list, separated by commas, if none is empty. -/
def items? (value : List Char) : Option (List (List Char)) :=
  let items := splitAll ',' value
  if items.any List.isEmpty then none else some items

/-- Whether the text can be one half of a pair. -/
def isHalf (text : List Char) : Bool :=
  !text.isEmpty && !text.any fun c => c == '|' || c == ','

/-- The halves of a pair, separated by a single bar. -/
def pair? (value : List Char) : Option (String × String) :=
  match splitFirst? '|' value with
  | some (left, right) =>
    if isHalf left && isHalf right then some (String.ofList left, String.ofList right)
    else none
  | none => none

/-- Goes on with the items of a list value, of which there are none if one of
them is empty. -/
def withItems (s : Scan) (d : Directive) (value : List Char) (span : Span)
    (use : Scan → List (List Char) → Scan) : Scan :=
  match items? value with
  | some items => use s items
  | none => s.complain (.emptyItem d) span

/-- Goes on with the halves of a pair, unless the value is none. -/
def withPair (s : Scan) (d : Directive) (shape : PairShape) (value : List Char) (span : Span)
    (use : Scan → String → String → Scan) : Scan :=
  match pair? value with
  | some (left, right) => use s left right
  | none => s.complain (.malformedPair shape d (String.ofList value)) span

/-- Sets the version. It must be the first directive, and must agree with the
version that the caller chose. -/
def setVersion (s : Scan) (value : List Char) (keySpan valueSpan : Span) : Scan :=
  if s.started then s.complain .versionNotFirst keySpan
  else
    match Version.ofText? (String.ofList value) with
    | none => s.complain (.unknownVersion (String.ofList value)) valueSpan
    | some v =>
      if s.forced && v != s.version then
        s.complain (.versionConflict v s.version) valueSpan
      else { s with version := v }

def setOpsManager (line : Nat) (s : Scan) (user phone : String) : Scan :=
  { s with common := { s.common with opsManager? := some ⟨user, phone, line⟩ } }

def addSplitRestaurant (line : Nat) (s : Scan) (restaurant driver : String) : Scan :=
  { s with common :=
      { s.common with
        splitRestaurants := s.common.splitRestaurants ++ [⟨restaurant, driver, line⟩] } }

def addBackupDrivers (line : Nat) (s : Scan) (users : List (List Char)) : Scan :=
  let drivers := users.map fun user => ⟨String.ofList user, line⟩
  { s with common := { s.common with backupDrivers := s.common.backupDrivers ++ drivers } }

def addAltMealOptions (s : Scan) (options : List (List Char)) : Scan :=
  { s with extras :=
      { s.extras with
        altMealOptions := s.extras.altMealOptions ++ options.map String.ofList } }

def addAltGroceryOptions (s : Scan) (options : List (List Char)) : Scan :=
  { s with extras :=
      { s.extras with
        altGroceryOptions := s.extras.altGroceryOptions ++ options.map String.ofList } }

def addStartTimes (s : Scan) (times : List (List Char)) : Scan :=
  { s with extras :=
      { s.extras with startTimes := s.extras.startTimes ++ times.map String.ofList } }

def addPickupManager (line : Nat) (s : Scan) (user restaurant : String) : Scan :=
  { s with extras :=
      { s.extras with
        pickupManagers := s.extras.pickupManagers ++ [⟨user, restaurant, line⟩] } }

/-- Adds the pairs of a `pickup-managers` line. Each malformed one is complained
about on its own, and the others count. -/
def addPickupManagers (line : Nat) (span : Span) (s : Scan) (items : List (List Char)) :
    Scan :=
  items.foldl (fun s item =>
    s.withPair .pickupManagers .userRestaurant item span (addPickupManager line)) s

/-- Carries out a directive that was accepted on a line. -/
def apply (s : Scan) (line : Nat) (d : Directive) (value : List Char)
    (keySpan valueSpan : Span) : Scan :=
  match d with
  | .version => s.setVersion value keySpan valueSpan
  | .opsManager => s.withPair d .userPhone value valueSpan (setOpsManager line)
  | .splitRestaurant =>
    s.withPair d .restaurantDriver value valueSpan (addSplitRestaurant line)
  | .backupDriver => s.withItems d value valueSpan (addBackupDrivers line)
  | .altMealOptions => s.withItems d value valueSpan addAltMealOptions
  | .altGroceryOptions => s.withItems d value valueSpan addAltGroceryOptions
  | .startTimes => s.withItems d value valueSpan addStartTimes
  | .pickupManagers => s.withItems d value valueSpan (addPickupManagers line valueSpan)
  | .unknown _ => s

/-- Why a directive is not accepted on a line, if it is not. -/
def rejection? (s : Scan) (line : Nat) (key : String) (d : Directive) : Option Fault :=
  if d.isDefinedIn s.version then
    if d.isUnique then (s.firstLine? d).map (.duplicate d line) else none
  else
    match d with
    | .unknown _ => some (.unknownKey key)
    | _ => some (.undefinedKey key s.version)

/-- Reads an assignment. An accepted line counts as such even if its value is
malformed. -/
def assign (s : Scan) (line : Nat) (key value : List Char) (keySpan valueSpan : Span) :
    Scan :=
  let key := String.ofList key
  let d := Directive.ofKey key
  match s.rejection? line key d with
  | some fault => s.complain fault keySpan
  | none =>
    let s := if d.isUnique then { s with firstLines := (d, line) :: s.firstLines } else s
    { s.apply line d value keySpan valueSpan with started := true }

def readLine (s : Scan) (line : Line) : Scan :=
  match line.reading with
  | .nothing => s
  | .noAssignment text span => s.complain (.notAssignment (String.ofList text)) span
  | .assignment key value keySpan valueSpan =>
    s.assign line.number key value keySpan valueSpan

/-- The block that was read, or everything that is wrong with it. -/
def finish (s : Scan) (text : List Char) : Except Error Block :=
  match Error.ofDiagnostics? (s.complaints.map (.ofComplaint s.common.document text)) with
  | some e => .error e
  | none =>
    match s.version with
    | .v200 => .ok (.v200 s.common)
    | .v300 => .ok (.v300 s.common s.extras)

end Scan

namespace Block

/-- Reads a control block whose version the caller may have chosen. -/
def scan (text : List Char) (document : Document) (forced? : Option Version) :
    Except Error Block :=
  ((Line.all text).foldl Scan.readLine (.start document forced?)).finish text

/-- Reads a control block of the version that it names itself. -/
def parse (text : List Char) (document : Document) : Except Error Block :=
  scan text document none

/-- Reads a control block of the given version. -/
def parseAs (version : Version) (text : List Char) (document : Document) :
    Except Error Block :=
  scan text document (some version)

end Block

end Bulletin.Control
