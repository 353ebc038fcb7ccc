/-
The AMI client (internal/ami/client.go): what `SendMessage` checks before
it connects, and the `MessageSend` action it writes once it is logged in.

AMI is a protocol of lines: an action is a row of `Key: value` lines, each
ended by CRLF, and an empty line ends the action. Connecting, logging in
and reading the answers are left out: they neither change the action nor
come before the checks.
-/
import Callbridge.Lib.Base64
import Callbridge.Bridge.Service

namespace Callbridge.Ami

open Lib Message
open Bridge (maxBodyBytes)

inductive AmiError where
  | input
  | contentType
  | headerValue
  deriving DecidableEq

def AmiError.text : AmiError → String
  | .input => "invalid AMI MessageSend input"
  | .contentType => "invalid AMI message content type"
  | .headerValue => "invalid AMI header value"

def textPlain : Bytes := ascii "text/plain"

def fileTransfer : Bytes := ascii "application/x-acro-filetransfer+json"

def crlf : Bytes := [0x0d, 0x0a]

/-- A rune that is no ASCII character is no digit either, so the bytes
decide. -/
def digits (value : Bytes) : Bool :=
  value != [] && value.all isDigit

/-- A value that cannot stand in a header. -/
def refusedValue (value : Bytes) : Bool :=
  value == [] || value.any fun b => [0x00, 0x0d, 0x0a].contains b

/-- The action. -/
def messageSend (recipient sender body contentType actionID : Bytes) :
    Bytes :=
  ascii "Action: MessageSend" ++ crlf
    ++ (ascii "To: pjsip:" ++ recipient) ++ crlf
    ++ (ascii "From: sip:" ++ sender ++ ascii "@cellular.invalid") ++ crlf
    ++ (ascii "Base64Body: " ++ base64Encode body) ++ crlf
    ++ (ascii "Variable: Content-Type=" ++ contentType) ++ crlf
    ++ (ascii "ActionID: " ++ actionID) ++ crlf ++ crlf

/-- `SendMessage` up to its connection, with the action it will write. -/
def sendMessage (recipient sender body contentType actionID : Bytes) :
    Except AmiError Bytes :=
  if digits recipient = false ∨ 32 < recipient.length ∨ body = []
      ∨ maxBodyBytes < body.length then .error .input
  else if contentType ≠ textPlain ∧ contentType ≠ fileTransfer then
    .error .contentType
  else if [sender, actionID].any refusedValue then .error .headerValue
  else .ok (messageSend recipient sender body contentType actionID)

-- == the lines

/-- The lines of the action, without the empty one that ends it. -/
def actionLines (recipient sender body contentType actionID : Bytes) :
    List Bytes :=
  [ascii "Action: MessageSend", ascii "To: pjsip:" ++ recipient,
   ascii "From: sip:" ++ sender ++ ascii "@cellular.invalid",
   ascii "Base64Body: " ++ base64Encode body,
   ascii "Variable: Content-Type=" ++ contentType,
   ascii "ActionID: " ++ actionID]

theorem messageSend_eq (recipient sender body contentType actionID : Bytes) :
    messageSend recipient sender body contentType actionID
      = (actionLines recipient sender body contentType actionID
        ++ [[]]).flatMap fun line => line ++ crlf := by
  simp [messageSend, actionLines]

end Callbridge.Ami
