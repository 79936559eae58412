import Bulletin.Text.Bytes

/-!
How tags are written, and finding where the next one begins. The delimiters of
each kind of tag can be chosen, within limits that make it always clear which
kind begins at a place. `Markup.firstOpening?` tries every place in turn and
says what is meant; `Sightings.first?` remembers where each delimiter was last
seen ahead, so that reading a whole document looks at each character once per
delimiter.
-/

namespace Bulletin

/-- The two kinds of tags in a document: `variable` tags stand for a value, and
`directive` tags open and close conditional blocks. -/
inductive TagKind where
  | variable
  | directive
  deriving DecidableEq, Repr

/-- The texts that begin and end a tag. Neither is empty, so that reading one
always moves forward. -/
structure Delimiters where
  opening : List Char
  closing : List Char
  opening_ne_nil : opening ≠ []
  closing_ne_nil : closing ≠ []
  deriving DecidableEq

namespace Delimiters

/-- Refuses empty delimiters. -/
def ofStrings? (opening closing : String) : Option Delimiters :=
  if h : opening.toList ≠ [] ∧ closing.toList ≠ [] then
    some ⟨opening.toList, closing.toList, h.1, h.2⟩
  else none

end Delimiters

/-- How tags are written. A kind of tag without delimiters does not occur. The
two kinds must begin differently, although one opening delimiter may begin with
the other, and the closing delimiters may be equal. -/
structure Markup where
  variables? : Option Delimiters
  directives? : Option Delimiters
  openings_differ : ∀ v ∈ variables?, ∀ d ∈ directives?, v.opening ≠ d.opening
  deriving DecidableEq

/-- A request to write one kind of tag with the given delimiters. -/
structure Markup.Setting where
  kind : TagKind
  opening : String
  closing : String

namespace Markup

def delimiters? (m : Markup) : TagKind → Option Delimiters
  | .variable => m.variables?
  | .directive => m.directives?

/-- Refuses two kinds of tags that begin alike. -/
def ofDelimiters? (variables? directives? : Option Delimiters) : Option Markup :=
  if h : ∀ v ∈ variables?, ∀ d ∈ directives?, v.opening ≠ d.opening then
    some ⟨variables?, directives?, h⟩
  else none

/-- Carries out the settings one after the other. A later setting replaces an
earlier one of its kind, but an empty delimiter is refused even if it would be
replaced. -/
def ofSettings? (settings : List Setting) : Option Markup := do
  let (variables?, directives?) ← settings.foldlM (fun (v, d) s => do
    let pair ← Delimiters.ofStrings? s.opening s.closing
    match s.kind with
    | .variable => return (some pair, d)
    | .directive => return (v, some pair)) (none, none)
  ofDelimiters? variables? directives?

/-- The usual markup: variables between `${` and `}`, directives between `&{`
and `}`. -/
def standard : Markup where
  variables? := some ⟨['$', '{'], ['}'], by decide, by decide⟩
  directives? := some ⟨['&', '{'], ['}'], by decide, by decide⟩
  openings_differ := by decide

instance : Inhabited Markup := ⟨standard⟩

end Markup

open Text

/-- An opening delimiter at a byte offset of a text. -/
structure Opening where
  kind : TagKind
  delimiters : Delimiters
  start : Nat
  deriving DecidableEq

namespace Opening

def stop (o : Opening) : Nat :=
  o.start + byteLength o.delimiters.opening

def span (o : Opening) : Span where
  start := o.start
  stop := o.stop

/-- Of two openings, the one that begins first, and of two that begin together
the longer one. -/
def prefer (a b : Opening) : Opening :=
  if a.start < b.start || (a.start == b.start && b.stop ≤ a.stop) then a else b

def prefer? : Option Opening → Option Opening → Option Opening
  | none, b => b
  | some a, none => some a
  | some a, some b => some (prefer a b)

end Opening

namespace Markup

/-- An opening of the given kind where the text begins. The offset says where
the text stands in its document. -/
def kindOpeningAt? (m : Markup) (kind : TagKind) (offset : Nat) (text : List Char) :
    Option Opening :=
  match m.delimiters? kind with
  | none => none
  | some d => if (stripped? d.opening text).isSome then some ⟨kind, d, offset⟩ else none

/-- The longest opening delimiter where the text begins. -/
def openingAt? (m : Markup) (offset : Nat) (text : List Char) : Option Opening :=
  Opening.prefer? (m.kindOpeningAt? .variable offset text)
    (m.kindOpeningAt? .directive offset text)

/-- The first place in the text where a tag begins, with the longest delimiter
there. -/
def firstOpening? (m : Markup) : Nat → List Char → Option Opening
  | _, [] => none
  | offset, c :: rest =>
    (m.openingAt? offset (c :: rest)).or (m.firstOpening? (offset + c.utf8Size) rest)

end Markup

/-- The offset of the first occurrence of a pattern in a text that stands at
the given offset of its document. -/
def occurrence? (pattern : List Char) : Nat → List Char → Option Nat
  | offset, [] => if pattern.isEmpty then some offset else none
  | offset, c :: rest =>
    if (stripped? pattern (c :: rest)).isSome then some offset
    else occurrence? pattern (offset + c.utf8Size) rest

/-- What is known of the next occurrence of a delimiter. -/
inductive Sighting where
  | notSought
  | absent
  | found (offset : Nat)
  deriving DecidableEq, Repr

namespace Sighting

/-- Looks for the pattern afresh. -/
def look (pattern : List Char) (offset : Nat) (text : List Char) : Sighting :=
  match occurrence? pattern offset text with
  | some place => found place
  | none => absent

/-- Looks for the pattern again if what is known lies behind. The offsets asked
for must not decrease from one call to the next. -/
def renew (pattern : List Char) (offset : Nat) (text : List Char) : Sighting → Sighting
  | absent => absent
  | found place => if offset ≤ place then found place else look pattern offset text
  | notSought => look pattern offset text

/-- The sighted delimiter as an opening. -/
def opening? (kind : TagKind) (d : Delimiters) : Sighting → Option Opening
  | found place => some ⟨kind, d, place⟩
  | _ => none

end Sighting

/-- What is known of the next occurrence of both opening delimiters. -/
structure Sightings where
  nextVariable : Sighting
  nextDirective : Sighting
  deriving DecidableEq, Repr

namespace Sightings

/-- Nothing was looked for yet. -/
def unseen : Sightings where
  nextVariable := .notSought
  nextDirective := .notSought

/-- The next opening of one kind, and what is known of it afterwards. -/
def next? (m : Markup) (kind : TagKind) (offset : Nat) (text : List Char) (s : Sighting) :
    Option Opening × Sighting :=
  match m.delimiters? kind with
  | none => (none, s)
  | some d =>
    let s := s.renew d.opening offset text
    (s.opening? kind d, s)

/-- The first opening in the text, which stands at the given offset of its
document. It is the opening that `Markup.firstOpening?` finds, as long as the
offsets of successive calls do not decrease. -/
def first? (m : Markup) (offset : Nat) (text : List Char) (s : Sightings) :
    Option Opening × Sightings :=
  let (v, nextVariable) := next? m .variable offset text s.nextVariable
  let (d, nextDirective) := next? m .directive offset text s.nextDirective
  (Opening.prefer? v d, ⟨nextVariable, nextDirective⟩)

end Sightings

end Bulletin
