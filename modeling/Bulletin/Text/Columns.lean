import Bulletin.Text.Columns.Ranges

/-!
How many columns a text takes on a fixed-pitch display. Most characters take
one, ideographs and emoji two, marks none; but some sequences take less than
their characters do one by one. A text is therefore read from its last
character to its first, and each character is measured with a summary of what
stands to its right.
-/

namespace Bulletin.Text.Columns

/-- What the characters already read, to the right, can still combine with.
`plain` combines with nothing. The constructors named `joined…` stand for an
emoji that a zero width joiner attaches to the character on its left. -/
inductive Neighbour where
  | plain
  | lineFeed
  | skinTone
  | flagHalf
  | flagHalves
  | emoji
  | joinedEmoji
  | joinedKeycap
  | joinedFlagHalf
  | joinedFlags
  | joinedFlagsAndHalf
  | joinedTags
  | joinedTagLetters (count : Nat)
  | joinedTagDigits (count : Nat)
  | alef
  | lamed
  | bugineseYa
  | bugineseVowelYa
  | tifinagh
  | tifinaghJoiner
  | lisuTone
  | oldTurkicI
  | khmerBase
  deriving DecidableEq, Repr

namespace Neighbour

/-- Letters that form ligatures with the letter on their left. Variation
selectors between the two letters do not stop the ligature. -/
def isLetter : Neighbour → Bool
  | alef | lamed | bugineseYa | bugineseVowelYa | tifinagh | tifinaghJoiner
  | lisuTone | oldTurkicI | khmerBase => true
  | _ => false

/-- Letters whose ligature also skips joiners and invisible marks. The Arabic
alef has its own rule. -/
def skipsMarks (n : Neighbour) : Bool :=
  n.isLetter && n != alef

end Neighbour

/-- The text to the right of a character: what it can combine with, whether a
joiner was read since, and whether an emoji or a text selector was. -/
structure Context where
  next : Neighbour
  joined : Bool
  emojiStyle : Bool
  textStyle : Bool
  deriving DecidableEq, Repr

namespace Context

def of (n : Neighbour) : Context where
  next := n
  joined := false
  emojiStyle := false
  textStyle := false

def start : Context := of .plain

/-- Reads the emoji selector U+FE0F. Only letters and joined emoji remember
what stood on its right. -/
def selectEmoji (k : Context) : Context :=
  if k.next.isLetter || k.next = .joinedEmoji || k.next = .joinedKeycap then
    { k with emojiStyle := true }
  else { start with emojiStyle := true }

/-- Reads the text selector U+FE0E. -/
def selectText (k : Context) : Context :=
  if k.next.isLetter then { k with textStyle := true }
  else { start with textStyle := true }

/-- Forgets an emoji selector whose base did not come. -/
def dropEmoji (k : Context) : Context :=
  if k.next.isLetter then { k with emojiStyle := false } else start

end Context

def joiner : Char := Char.ofNat 0x200D

private def between (low high : Nat) (c : Char) : Bool :=
  low ≤ c.toNat && c.toNat ≤ high

def isFlagHalf (c : Char) : Bool := between 0x1F1E6 0x1F1FF c

def isSkinTone (c : Char) : Bool := between 0x1F3FB 0x1F3FF c

def isTifinagh (c : Char) : Bool :=
  between 0x2D31 0x2D65 c || between 0x2D6F 0x2D6F c

def isTagLetter (c : Char) : Bool := between 0xE0061 0xE007A c

def isTagDigit (c : Char) : Bool := between 0xE0030 0xE0039 c

/-- Khmer letters that a sign coeng before them stacks below the line. -/
def khmerStacked : CharSet where
  ranges :=
    [(0x1780, 0x1782), (0x1784, 0x1787), (0x1789, 0x178C), (0x178E, 0x1793),
     (0x1795, 0x1798), (0x179B, 0x179D), (0x17A0, 0x17A0), (0x17A2, 0x17A2),
     (0x17A7, 0x17A7), (0x17AB, 0x17AC), (0x17AF, 0x17AF)]

/-- Invisible marks that a ligature other than the Arabic one reads over. -/
def invisibleMark : CharSet where
  ranges :=
    [(0x034F, 0x034F), (0x17B4, 0x17B5), (0x180B, 0x180D), (0x180F, 0x180F),
     (0x200D, 0x200D), (0xFE00, 0xFE0F), (0xE0100, 0xE01EF)]

/-- The columns of a character by itself. Two Khmer characters are written as
several letters and take a column for each: the sign beyyal, the one character
with three columns, and the vowel qaa with two. -/
def ofChar (c : Char) : Nat :=
  if c.toNat = 0x17D8 then 3
  else if c.toNat = 0x17A4 then 2
  else if zeroWidth.contains c then 0
  else if doubleWidth.contains c then 2
  else 1

/-- What a character offers to the one on its left, when it did not itself
combine with anything. -/
def offer (c : Char) : Context :=
  let n := c.toNat
  if n = 0x5DC then .of .lamed
  else if n = 0x1A10 then .of .bugineseYa
  else if n = 0x10C03 then .of .oldTurkicI
  else if n = 0xA4FC || n = 0xA4FD then .of .lisuTone
  else if n = 0xFE0E then { Context.start with textStyle := true }
  else if n = 0xFE0F then { Context.start with emojiStyle := true }
  else if isFlagHalf c then .of .flagHalf
  else if isSkinTone c then .of .skinTone
  else if isTifinagh c then .of .tifinagh
  else if arabicAlef.contains c then .of .alef
  else if khmerStacked.contains c then .of .khmerBase
  else if emoji.contains c then .of .emoji
  else .start

/-- The columns that a character adds to a text whose right part is described
by `k`, with the new description, if the two combine. The number is negative
where the combination is narrower than what was counted already. -/
def combine? (c : Char) (k : Context) : Option (Int × Context) :=
  let n := c.toNat
  match k.next with
  | .alef =>
    if arabicLam.contains c then some (0, .start)
    else if zeroWidth.contains c && !joinBreaking.contains c then some (0, .of .alef)
    else none
  | .lamed => if k.joined && n = 0x5D0 then some (0, .start) else none
  | .khmerBase => if n = 0x17D2 then some (-1, .start) else none
  | .bugineseYa =>
    if k.joined && n = 0x1A17 then some (0, .of .bugineseVowelYa) else none
  | .bugineseVowelYa => if n = 0x1A15 then some (0, .start) else none
  | .tifinagh =>
    if n = 0x2D7F then some (1, .of .tifinaghJoiner)
    else if k.joined && isTifinagh c then some (0, .start)
    else none
  | .tifinaghJoiner => if isTifinagh c then some (-1, .start) else none
  | .lisuTone => if between 0xA4F8 0xA4FB c then some (0, .start) else none
  | .oldTurkicI => if k.joined && n = 0x10C32 then some (0, .start) else none
  | .skinTone =>
    if modifierBase.contains c then some (0, .of .emoji)
    else if c = joiner then some (0, .of .joinedEmoji)
    else none
  | .flagHalf => if isFlagHalf c then some (1, .of .flagHalves) else none
  | .flagHalves =>
    if isFlagHalf c then some (1, .of .flagHalves)
    else if c = joiner then some (0, .of .joinedEmoji)
    else none
  | .emoji => if c = joiner then some (0, .of .joinedEmoji) else none
  | .joinedEmoji =>
    if n = 0x20E3 then some (0, .of .joinedKeycap)
    else if isFlagHalf c then some (1, .of .joinedFlagHalf)
    else if isSkinTone c then some (0, .of .skinTone)
    else if n = 0xE007F then some (0, .of .joinedTags)
    else if emoji.contains c then some (0, .of .emoji)
    else none
  | .joinedFlagHalf => if isFlagHalf c then some (-1, .of .joinedFlags) else none
  | .joinedFlags =>
    if isFlagHalf c then some (3, .of .joinedFlagsAndHalf)
    else if c = joiner then some (0, .of .joinedEmoji)
    else none
  | .joinedFlagsAndHalf =>
    if isFlagHalf c then some (-1, .of .joinedFlags)
    else if c = joiner then some (0, .of .joinedEmoji)
    else none
  | .joinedTags =>
    if isTagLetter c then some (0, .of (.joinedTagLetters 1))
    else if isTagDigit c then some (0, .of (.joinedTagDigits 1))
    else none
  | .joinedTagLetters count =>
    if isTagLetter c && count < 6 then some (0, .of (.joinedTagLetters (count + 1)))
    else if isTagDigit c && count < 5 then some (0, .of (.joinedTagDigits 1))
    else if n = 0x1F3F4 && 3 ≤ count then some (0, .of .emoji)
    else none
  | .joinedTagDigits count =>
    if isTagDigit c && count < 3 then some (0, .of (.joinedTagDigits (count + 1)))
    else if n = 0x1F3F4 && count = 3 then some (0, .of .emoji)
    else none
  | _ => none

/-- Measures a character beyond U+00A0 once the selectors to its right are
settled. -/
def measureSettled (c : Char) (k : Context) : Int × Context :=
  if k.next.skipsMarks && c = joiner then (0, { k with joined := true })
  else if k.next.skipsMarks && invisibleMark.contains c then (0, k)
  else (combine? c k).getD (ofChar c, offer c)

/-- Measures a character beyond U+00A0, where no emoji selector waits for its
base. -/
def measureWide (c : Char) (k : Context) : Int × Context :=
  if c.toNat = 0xFE0F then (0, k.selectEmoji)
  else if c.toNat = 0xFE0E then (0, k.selectText)
  else if k.textStyle && textBase.contains c then (1, .start)
  else measureSettled c { k with textStyle := false }

/-- Measures a character, given what stands to its right. Control characters
take one column, except that a carriage return before a line feed takes none. -/
def measure (c : Char) (k : Context) : Int × Context :=
  if k.emojiStyle && emojiBase.contains c then
    (if k.next = .joinedEmoji || k.next = .joinedKeycap then 0 else 2, .of .emoji)
  else
    let k := if k.emojiStyle then k.dropEmoji else k
    if c.toNat ≤ 0xA0 then
      if c = '\n' then (1, .of .lineFeed)
      else if c = '\r' && k.next = .lineFeed then (0, .start)
      else (1, .start)
    else measureWide c k

/-- The columns of a text, with the description of the whole of it. -/
def scan (text : List Char) : Int × Context :=
  text.foldr (fun c (width, k) =>
    let (more, next) := measure c k
    (width + more, next)) (0, .start)

end Bulletin.Text.Columns

namespace Bulletin.Text

/-- The number of columns a text takes on a fixed-pitch display. -/
def columns (text : List Char) : Nat :=
  (Columns.scan text).1.toNat

@[simp]
theorem columns_nil : columns [] = 0 := rfl

end Bulletin.Text
