/-
bMessages: `ParseBMessage` with `extractBlock` and `NormalizeDestination`
(internal/message/message.go), `MakeSMSBMessage`
(internal/mapclient/session.go), and what `enqueue` accepts to be made
one (internal/bridge/service.go).

A bMessage is lines, and the text of the message stands among them as it
is, between a line `BEGIN:MSG` and one `END:MSG`. The parser reads line
ends of any kind as newlines and takes the block from the first start
marker to the first end marker behind it.

The upper case of a line is only asked for its first letters, which are
ASCII, and no other character has one of these as its upper case.
-/
import Callbridge.Lib.Search
import Callbridge.Message.Split

namespace Callbridge.Message

open Lib

-- == parsing

/-- `strings.ReplaceAll(text, "\r\n", "\n")`: the carriage returns in
front of a newline go. -/
def crlfToLf : Bytes → Bytes
  | [] => []
  | b :: s =>
      if b = 0x0d ∧ s.head? = some 0x0a then crlfToLf s
      else b :: crlfToLf s

/-- `strings.ReplaceAll(text, "\r", "\n")`. -/
def crToLf (s : Bytes) : Bytes :=
  s.map fun b => if b = 0x0d then 0x0a else b

/-- Line ends of any kind made newlines. -/
def normaliseLines (s : Bytes) : Bytes := crToLf (crlfToLf s)

/-- The text between the first start marker and the first end marker
behind it, or nothing. -/
def extractBlock (text startMarker endMarker : Bytes) : Bytes :=
  match index startMarker text with
  | none => []
  | some start =>
      let rest := text.drop (start + startMarker.length)
      match index endMarker rest with
      | none => []
      | some stop => rest.take stop

/-- A line that gives a telephone number. -/
def isTelLine (line : Bytes) : Bool :=
  let start := (line.take 4).map upperByte
  start == ascii "TEL:" || start == ascii "TEL;"

structure BMessage where
  body : Bytes
  senderName : Bytes
  senderNumber : Bytes
  deriving DecidableEq

/-- One line of the vCard; the first name and the first number count. -/
def BMessage.readLine (m : BMessage) (line : Bytes) : BMessage :=
  let m := if (ascii "FN:").isPrefixOf line ∧ m.senderName = [] then
      { m with senderName := trimSpace (line.drop 3) }
    else m
  if isTelLine line ∧ 0x3a ∈ line ∧ m.senderNumber = [] then
    { m with senderNumber := trimSpace (afterByte 0x3a line) }
  else m

def beginMsg : Bytes := ascii "BEGIN:MSG\n"
def endMsg : Bytes := ascii "\nEND:MSG"

def parseBMessage (raw : Bytes) : BMessage :=
  let text := normaliseLines raw
  let block := extractBlock text beginMsg endMsg
  let body := if block = [] then trimSpace text else trimSpace block
  let vcard := extractBlock text (ascii "BEGIN:VCARD\n")
    (ascii "\nEND:VCARD")
  if vcard = [] then ⟨body, [], []⟩
  else (splitByte 0x0a vcard).foldl BMessage.readLine ⟨body, [], []⟩

-- == destinations

inductive DestinationError where
  | characters
  | length
  deriving DecidableEq

def DestinationError.text : DestinationError → String
  | .characters => "destination contains unsupported characters"
  | .length => "destination length invalid"

/-- The digits of a number that was typed in, with a plus sign in front of
it if there is one; a rune that is no ASCII character is not supported. -/
def dialled : Nat → Bytes → Except DestinationError Bytes
  | _, [] => .ok []
  | position, b :: s =>
      if isDigit b ∨ b = 0x2b ∧ position = 0 then
        (dialled (position + 1) s).map (b :: ·)
      else if b ∈ ascii "-(). " then dialled (position + 1) s
      else .error .characters

def normalizeDestination (value : Bytes) :
    Except DestinationError Bytes :=
  match dialled 0 (trimSpace value) with
  | .error e => .error e
  | .ok normalized =>
      let plus := [0x2b].isPrefixOf normalized
      let digits := if plus then normalized.drop 1 else normalized
      if digits.length < 3 ∨ 20 < digits.length then .error .length
      else if (ascii "010").isPrefixOf digits ∧ plus = false then
        .ok (ascii "+82" ++ digits.drop 1)
      else .ok normalized

-- == enqueue

/-- `16 << 10`. -/
def maxOutboundText : Nat := 16384

inductive EnqueueError where
  | destination (e : DestinationError)
  | textLength
  deriving DecidableEq

/-- The destination and the text of the item `enqueue` makes of its
arguments. -/
def outboundItem (destination text : Bytes) :
    Except EnqueueError (Bytes × Bytes) :=
  match normalizeDestination destination with
  | .error e => .error (.destination e)
  | .ok destination =>
      if trimSpace text = [] ∨ maxOutboundText < text.length then
        .error .textLength
      else .ok (destination, text)

-- == MakeSMSBMessage

/-- Everything from `BEGIN:MSG` up to `END:BBODY`. -/
def messagePart (text : Bytes) : Bytes :=
  ascii "BEGIN:MSG\r\n" ++ text ++ ascii "\r\nEND:MSG\r\n"

/-- The lines up to the destination. -/
def bmsgHead : Bytes :=
  ascii "BEGIN:BMSG\r\nVERSION:1.0\r\nSTATUS:UNREAD\r\nTYPE:SMS_GSM\r\n"
    ++ ascii "FOLDER:telecom/msg/outbox\r\n"
    ++ ascii "BEGIN:VCARD\r\nVERSION:3.0\r\nN:\r\nTEL:\r\nEND:VCARD\r\n"
    ++ ascii "BEGIN:BENV\r\nBEGIN:VCARD\r\nVERSION:3.0\r\nN:\r\nTEL:"

/-- The lines between the destination and the length. -/
def bmsgMiddle : Bytes :=
  ascii "\r\nEND:VCARD\r\nBEGIN:BBODY\r\nCHARSET:UTF-8\r\nLENGTH:"

def bmsgTail : Bytes := ascii "END:BBODY\r\nEND:BENV\r\nEND:BMSG\r\n"

/-- `MakeSMSBMessage`; `%d` and `itoa` write a number alike. -/
def makeSMSBMessage (destination text : Bytes) : Bytes :=
  bmsgHead ++ destination ++ bmsgMiddle
    ++ itoa (messagePart text).length ++ ascii "\r\n"
    ++ messagePart text ++ bmsgTail

end Callbridge.Message
