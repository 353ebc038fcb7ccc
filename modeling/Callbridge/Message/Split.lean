/-
Splitting a message into parts that fit a SIP MESSAGE
(internal/message/message.go, `SplitUTF8` to `multipartPrefix`, and
`itoa`).

Every part but a single one starts with its index and the number of parts,
so how much text a part holds depends on how many there are:
`VisibleParts` asks for a number of parts, splits, and asks again for the
number it got, eight times at most.

Of a time that `ReceivedTime` parses only the month, day, hour and minute
in the zone of the bridge are used, each written with two digits. Lengths
stay far below the range of Go's int.
-/
import Callbridge.Lib.Utf8

namespace Callbridge.Message

open Lib

-- == constants

def maxSIPPartBytes : Nat := 600

def maxSIPParts : Nat := 16

/-- `utf8.UTFMax`. -/
def utfMax : Nat := 4

-- == SplitUTF8

/-- `unicode.IsSpace`. -/
def isSpace (c : Char) : Bool :=
  let v := c.toNat
  (0x09 ≤ v && v ≤ 0x0d) || v == 0x20 || v == 0x85 || v == 0xa0
    || v == 0x1680 || (0x2000 ≤ v && v ≤ 0x200a) || v == 0x2028
    || v == 0x2029 || v == 0x202f || v == 0x205f || v == 0x3000

/-- The inner loop of `SplitUTF8`: runes are taken as long as they fit.
Positions count from the start of the part; a boundary is the position
behind a space. -/
def fillPart (maximum : Nat) :
    List Char → Nat → Nat → Option Nat → Nat × Option Nat
  | [], _, stop, boundary => (stop, boundary)
  | r :: rs, size, stop, boundary =>
      if maximum < size + r.utf8Size then (stop, boundary)
      else
        fillPart maximum rs (size + r.utf8Size) (stop + 1)
          (if isSpace r then some (stop + 1) else boundary)

/-- How many runes the next part takes. -/
def partLength (maximum : Nat) (rs : List Char) : Nat :=
  let (stop, boundary) := fillPart maximum rs 0 0 none
  let stop := if stop < rs.length then boundary.getD stop else stop
  if stop = 0 then stop + 1 else stop

/-- The outer loop; every part takes a rune at least, so there are no
more of them than runes. -/
def splitRunes (maximum : Nat) : Nat → List Char → List Bytes
  | 0, _ => []
  | _ + 1, [] => []
  | fuel + 1, r :: rs =>
      encodeRunes ((r :: rs).take (partLength maximum (r :: rs)))
        :: splitRunes maximum fuel
          ((r :: rs).drop (partLength maximum (r :: rs)))

def splitUTF8 (text : Bytes) (maximum : Nat) : List Bytes :=
  let maximum := if maximum < utfMax then utfMax else maximum
  if text.length ≤ maximum ∨ text = [] then [text]
  else splitRunes maximum (runes text).length (runes text)

-- == prefixes

/-- The loop of `itoa`: the buffer has twenty places. -/
def itoaLoop : Nat → Nat → Bytes → Bytes
  | 0, _, buffer => buffer
  | places + 1, value, buffer =>
      if value = 0 then buffer
      else
        itoaLoop places (value / 10)
          (UInt8.ofNat (0x30 + value % 10) :: buffer)

def itoa (value : Nat) : Bytes :=
  if value = 0 then [0x30] else itoaLoop 20 value []

/-- What the prefixes show of a `time.Time`. -/
structure Received where
  month : Fin 13
  day : Fin 32
  hour : Fin 24
  minute : Fin 60

def twoDigits (v : Nat) : Bytes :=
  [UInt8.ofNat (0x30 + v / 10), UInt8.ofNat (0x30 + v % 10)]

/-- `received.Format("01/02 15:04")`. -/
def Received.format (t : Received) : Bytes :=
  twoDigits t.month ++ [0x2f] ++ twoDigits t.day ++ [0x20]
    ++ twoDigits t.hour ++ [0x3a] ++ twoDigits t.minute

/-- ` 수신`. -/
def receivedMark : Bytes := [0x20, 0xec, 0x88, 0x98, 0xec, 0x8b, 0xa0]

/-- `[MM/DD hh:mm 수신]` and a newline, if the time is known. -/
def singlePrefix : Option Received → Bytes
  | some t => [0x5b] ++ t.format ++ receivedMark ++ [0x5d, 0x0a]
  | none => []

/-- `[2/9]`, and on the first part `[MM/DD hh:mm 수신 1/9]` or `[MMS 1/9]`. -/
def multipartPrefix (received : Option Received) (index total : Nat) :
    Bytes :=
  if 0 < index then
    [0x5b] ++ itoa (index + 1) ++ [0x2f] ++ itoa total ++ [0x5d]
  else
    match received with
    | some t =>
        [0x5b] ++ t.format ++ receivedMark ++ [0x20, 0x31, 0x2f]
          ++ itoa total ++ [0x5d]
    | none =>
        [0x5b, 0x4d, 0x4d, 0x53, 0x20, 0x31, 0x2f] ++ itoa total ++ [0x5d]

-- == VisibleParts

/-- The loop of `splitWithPrefixes` from one index on; every chunk is at
least a byte long, so there are no more of them than bytes. -/
def splitWithPrefixesFrom (received : Option Received) (total : Nat) :
    Nat → Nat → Bytes → List Bytes
  | 0, _, _ => []
  | _ + 1, _, [] => []
  | fuel + 1, index, b :: remaining =>
      let prefixBytes := (multipartPrefix received index total).length + 1
      let chunk := (splitUTF8 (b :: remaining)
        (maxSIPPartBytes - prefixBytes)).headD []
      chunk :: splitWithPrefixesFrom received total fuel (index + 1)
        ((b :: remaining).drop chunk.length)

def splitWithPrefixes (body : Bytes) (received : Option Received)
    (total : Nat) : List Bytes :=
  splitWithPrefixesFrom received total body.length 0 body

/-- The search for the number of parts: the chunks, once there are as
many as were asked for. -/
def searchTotal (body : Bytes) (received : Option Received) :
    Nat → Nat → Option (List Bytes)
  | 0, _ => none
  | attempts + 1, total =>
      let chunks := splitWithPrefixes body received total
      if chunks.length = total then some chunks
      else searchTotal body received attempts chunks.length

/-- Every chunk behind its prefix and a newline. -/
def prefixed (received : Option Received) (chunks : List Bytes) :
    List Bytes :=
  chunks.mapIdx fun index chunk =>
    multipartPrefix received index chunks.length ++ [0x0a] ++ chunk

/-- `VisibleParts`, of a body and the time that was found. -/
def visiblePartsAt (body : Bytes) (received : Option Received) :
    List Bytes :=
  if (singlePrefix received ++ body).length ≤ maxSIPPartBytes then
    [singlePrefix received ++ body]
  else
    match searchTotal body received 8 2 with
    | some chunks => prefixed received chunks
    | none => prefixed received (splitUTF8 body (maxSIPPartBytes - 64))

/-- `time.ParseInLocation` with the layout of MAP, and `time.Parse` with
that of RFC 3339. -/
structure TimeParsers where
  compact : Bytes → Option Received
  rfc3339 : Bytes → Option Received

def receivedTime (parsers : TimeParsers) (raw : Bytes) : Option Received :=
  let raw := trimSpace raw
  let compact := if 15 ≤ raw.length then parsers.compact (raw.take 15)
    else none
  match compact with
  | some t => some t
  | none => parsers.rfc3339 raw

def visibleParts (parsers : TimeParsers) (body mapDateTime : Bytes) :
    List Bytes :=
  visiblePartsAt body (receivedTime parsers mapDateTime)

end Callbridge.Message
