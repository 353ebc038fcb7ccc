/-
The vocabulary of the call-control socket (internal/protocol/protocol.go):
message types and opcodes, the caller identity, the message record, and
the validators the GTBS client calls on a command and its result,
`ValidURI`, `NormalizeDevice` and `ValidResult`.

Device addresses are normalised through `net.ParseMAC`, transcribed here
from its documented formats: pairs of hexadecimal digits separated by
colons or hyphens, or groups of four separated by dots, for 6, 8 or 20
octets.
-/
import Callbridge.Lib.Strings

namespace Callbridge.Protocol

open Lib

-- == constants

def identityURIMax : Nat := 32
def identityNameMax : Nat := 44
def packetSize : Nat := 128
def payloadSize : Nat := packetSize - 50

def typeState : UInt8 := 1
def typeCommand : UInt8 := 2
def typeAck : UInt8 := 3
def typeResult : UInt8 := 4
def typeReady : UInt8 := 5

def opcodeAccept : UInt8 := 0x00
def opcodeTerminate : UInt8 := 0x01
def opcodeLocalHold : UInt8 := 0x02
def opcodeLocalRetrieve : UInt8 := 0x03
def opcodeOriginate : UInt8 := 0x04
def opcodeJoin : UInt8 := 0x05

-- == records

/-- The caller of one call, as far as the phone will say. -/
structure Identity where
  uri : Bytes
  name : Bytes
  deriving DecidableEq

/-- Go's zero `Identity`, what indexing the identity map yields for a call
nothing is known about. -/
def Identity.zero : Identity := ⟨[], []⟩

/-- A control-socket message. -/
structure Message where
  type : UInt8
  flags : UInt8
  sequence : UInt64
  token : UInt64
  device : Bytes
  index : UInt8
  code : UInt8
  value : UInt8
  payload : Bytes
  deriving DecidableEq

-- == device addresses

/-- The value of a hexadecimal digit. -/
def hexDigit (b : UInt8) : Option UInt8 :=
  if 0x30 ≤ b ∧ b ≤ 0x39 then some (b - 0x30)
  else if 0x61 ≤ b ∧ b ≤ 0x66 then some (b - 0x61 + 10)
  else if 0x41 ≤ b ∧ b ≤ 0x46 then some (b - 0x41 + 10)
  else none

/-- `xtoi2`: two hexadecimal digits, followed by nothing or by `e`. -/
def xtoi2 (s : Bytes) (e : UInt8) : Option UInt8 :=
  match s with
  | a :: b :: rest =>
      if rest = [] ∨ rest.head? = some e then
        match hexDigit a, hexDigit b with
        | some x, some y => some (x * 16 + y)
        | _, _ => none
      else none
  | _ => none

/-- `net.ParseMAC`. -/
def parseMAC (s : Bytes) : Option Bytes :=
  if s.length < 14 then none
  else
    let sep := s.getD 2 0
    if sep = 0x3a ∨ sep = 0x2d then
      let n := (s.length + 1) / 3
      if (s.length + 1) % 3 = 0 ∧ (n = 6 ∨ n = 8 ∨ n = 20) then
        (List.range n).mapM fun i => xtoi2 (s.drop (3 * i)) sep
      else none
    else if s.getD 4 0 = 0x2e then
      let n := 2 * (s.length + 1) / 5
      if (s.length + 1) % 5 = 0 ∧ (n = 6 ∨ n = 8 ∨ n = 20) then
        (List.range n).mapM fun i =>
          if i % 2 = 0 then xtoi2 ((s.drop (5 * (i / 2))).take 2) 0
          else xtoi2 (s.drop (5 * (i / 2) + 2)) 0x2e
      else none
    else none

/-- An upper-case hexadecimal digit. -/
def upperHex (v : UInt8) : UInt8 :=
  if v < 10 then 0x30 + v else 0x41 + (v - 10)

/-- `strings.ToUpper(hardware.String())`: upper-case pairs joined by
colons. -/
def upperAddress (hardware : Bytes) : Bytes :=
  List.intercalate [0x3a]
    (hardware.map fun b => [upperHex (b / 16), upperHex (b % 16)])

/-- The canonical form of a device address, empty when it is not one. -/
def normalizedDevice (address : Bytes) : Bytes :=
  match parseMAC (trimSpace address) with
  | some hardware =>
      if hardware.length = 6 then upperAddress hardware else []
  | none => []

-- == URIs

/-- Does `uri` read `tel:` followed by dialable characters only, within
the payload bound? -/
def validURI (uri : Bytes) : Bool :=
  if uri.length < 5 ∨ uri.length > payloadSize
      ∨ uri.take 4 ≠ [0x74, 0x65, 0x6c, 0x3a] then false
  else
    (uri.drop 4).all fun c =>
      (0x30 ≤ c && c ≤ 0x39) || c == 0x2b || c == 0x2a || c == 0x23

-- == results

/-- `ValidResult`. -/
def validResult (result : UInt8) : Bool := result ≤ 0x04 || result == 0x06

end Callbridge.Protocol
