/-
The signal that announces an uploaded attachment (`MarshalSignal`,
internal/media/client.go): a JSON object with the text of the message, if
any, and where the attachment is.

`json.Marshal` writes the strings with HTML escaped and with `\ufffd` for
every byte that is no part of a rune; it does not fail on them, so
`MarshalSignal` has no error to return. The size of a descriptor is the
length of the attachment.
-/
import Callbridge.Message.Split
import Callbridge.State.Store

namespace Callbridge.Media

open Lib Message
open State (hexChar hexEncode)

/-- `SignalContentType`. -/
def signalContentType : Bytes :=
  ascii "application/x-acro-filetransfer+json"

structure Descriptor where
  contentType : Bytes
  contentURL : Bytes
  contentSize : Nat
  filename : Bytes
  encryptionKey : Bytes
  hash : Bytes
  deriving DecidableEq

-- == JSON

/-- What is written for one rune. -/
def jsonRune (c : Char) : Bytes :=
  if c = '"' ∨ c = '\\' then [0x5c, c.toUInt8]
  else if c = '\x08' then ascii "\\b"
  else if c = '\x0c' then ascii "\\f"
  else if c = '\n' then ascii "\\n"
  else if c = '\r' then ascii "\\r"
  else if c = '\t' then ascii "\\t"
  else if c.toNat < 0x20 ∨ c = '<' ∨ c = '>' ∨ c = '&' then
    ascii "\\u00" ++ hexEncode [c.toUInt8]
  else if c = '\u2028' ∨ c = '\u2029' then
    ascii "\\u202" ++ [hexChar (c.toUInt8 % 16)]
  else String.utf8EncodeChar c

/-- What is written between the quotes, where the first `skip` bytes
belong to the rune before. -/
def jsonRunesFrom : Nat → Bytes → Bytes
  | _, [] => []
  | skip + 1, _ :: s => jsonRunesFrom skip s
  | 0, b :: s =>
      match firstRune (b :: s) with
      | some c => jsonRune c ++ jsonRunesFrom (c.utf8Size - 1) s
      | none => ascii "\\ufffd" ++ jsonRunesFrom 0 s

def jsonString (s : Bytes) : Bytes := [0x22] ++ jsonRunesFrom 0 s ++ [0x22]

/-- A member of an object, with its name. -/
def jsonMember (name : String) (value : Bytes) : Bytes :=
  [0x22] ++ ascii name ++ [0x22, 0x3a] ++ value

/-- A member that is left out when it is empty, and the comma behind it. -/
def jsonOptional (name : String) (value : Bytes) : Bytes :=
  if value = [] then [] else jsonMember name (jsonString value) ++ [0x2c]

-- == signals

/-- The object of the attachment. -/
def marshalAttachment (d : Descriptor) : Bytes :=
  ascii "\x7b" ++ jsonMember "content-type" (jsonString d.contentType)
    ++ ascii "," ++ jsonMember "content-url" (jsonString d.contentURL)
    ++ ascii "," ++ jsonMember "content-size" (itoa d.contentSize)
    ++ ascii "," ++ jsonOptional "filename" d.filename
    ++ jsonMember "encryption-key" (jsonString d.encryptionKey)
    ++ ascii "," ++ jsonMember "hash" (jsonString d.hash) ++ ascii "\x7d"

def marshalSignal (body : Bytes) (d : Descriptor) : Bytes :=
  ascii "\x7b" ++ jsonOptional "body" body
    ++ jsonMember "attachments" (ascii "[" ++ marshalAttachment d
      ++ ascii "]") ++ ascii "\x7d"

theorem marshalSignal_ne_nil (body : Bytes) (d : Descriptor) :
    marshalSignal body d ≠ [] := by
  simp [marshalSignal, jsonMember]

example : marshalSignal (ascii "a<b") ⟨ascii "image/png", ascii "https://x",
    3, [], ascii "00", ascii "1"⟩
  = ascii "\x7b\"body\":\"a\\u003cb\",\"attachments\":[\x7b"
    ++ ascii "\"content-type\":\"image/png\","
    ++ ascii "\"content-url\":\"https://x\",\"content-size\":3,"
    ++ ascii "\"encryption-key\":\"00\",\"hash\":\"1\"\x7d]\x7d" := by
  decide +kernel

end Callbridge.Media
