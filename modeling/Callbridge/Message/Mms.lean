/-
MMS messages (internal/message/message.go, `StripMMSEnvelope` to
`safeFilename`): the visible text and the images of a MIME message.

What package mime, its multipart reader and package mail make of the bytes
is taken as given (`MimeLibrary`). A message that reads as mail is a tree:
every entity has a header and a body, and when its media type is
multipart, the parts that `NextPart` delivers before it ends or fails.
(`NextPart` undoes the quoted-printable encoding of a part itself; here a
part is as delivered.) A body is read to its end or to an error.

`walk` threads the collector of the source through the tree. When it fails
the collector is lost, as it is in `ParseMMS`.
-/
import Callbridge.Lib.Buffer
import Callbridge.Message.BMessage

namespace Callbridge.Message

open Lib

-- == records

def maxMMSAttachments : Nat := 4
def maxMIMEParts : Nat := 32
def maxMMSTextBytes : Nat := 64 * 1024
def maxMMSTotalBytes : Nat := 2 * 1024 * 1024

/-- `model.Attachment`. -/
structure Attachment where
  contentType : Bytes
  filename : Bytes
  data : Bytes
  deriving DecidableEq

/-- `model.Message`. -/
structure MmsMessage extends BMessage where
  attachments : List Attachment
  deriving DecidableEq

/-- `model.Message{}`. -/
def MmsMessage.empty : MmsMessage := ⟨⟨[], [], []⟩, []⟩

/-- The header fields that are asked for, empty when they are missing. -/
structure MimeHeader where
  contentType : Bytes
  transferEncoding : Bytes
  disposition : Bytes
  deriving DecidableEq

/-- What reading to the end delivers, and whether the end is an error. -/
structure MimeReader where
  data : Bytes
  failed : Bool
  deriving DecidableEq

/-- A media type with its parameters; one that is missing is empty. -/
structure MediaType where
  name : Bytes
  param : Bytes → Bytes

/-- A header, a body, and the parts of the body as far as `NextPart`
delivers them, `broken` when it ends with an error. -/
inductive Entity where
  | entity (header : MimeHeader) (body : MimeReader) (parts : List Entity)
      (broken : Bool)

def Entity.header : Entity → MimeHeader
  | .entity header _ _ _ => header

/-- What is used of the standard library. No text at all reads as no mail
message. -/
structure MimeLibrary where
  text : CaseMapping
  readMessage : Bytes → Option Entity
  readMessage_nil : readMessage [] = none
  parseMediaType : Bytes → Option MediaType
  base64 : MimeReader → MimeReader
  quotedPrintable : MimeReader → MimeReader
  detectContentType : Bytes → Bytes

inductive MmsError where
  | bound
  | nesting
  | partCount
  | contentType
  | boundary
  | multipart
  | transferEncoding
  | textBound
  | textEncoding
  | imageBound
  | imageCount
  | imageTotal
  deriving DecidableEq

def MmsError.text : MmsError → String
  | .bound => "MMS attachment bound invalid"
  | .nesting => "MMS MIME nesting exceeds bound"
  | .partCount => "MMS MIME part count exceeds bound"
  | .contentType => "MMS MIME content type invalid"
  | .boundary => "MMS MIME boundary invalid"
  | .multipart => "MMS MIME multipart invalid"
  | .transferEncoding => "unsupported MMS transfer encoding"
  | .textBound => "MMS text exceeds bound"
  | .textEncoding => "MMS text is not UTF-8"
  | .imageBound => "MMS image exceeds bound"
  | .imageCount => "MMS image count exceeds bound"
  | .imageTotal => "MMS image total exceeds bound"

-- == envelopes

def mmsEnvelopeHeaders : List Bytes :=
  ["date", "subject", "from", "to", "cc", "reply-to", "message-id",
   "mime-version", "content-type", "content-transfer-encoding"].map ascii

/-- `unicode.IsSpace` of a byte taken as a rune. -/
def isSpaceByte (b : UInt8) : Bool :=
  (0x09 ≤ b && b ≤ 0x0d) || b == 0x20 || b == 0x85 || b == 0xa0

/-- The loop over the lines of a possible envelope: the names in front of
the colons, unless a line is no header of an MMS. -/
def envelopeNames (text : CaseMapping) :
    List Bytes → List Bytes → Option (List Bytes)
  | names, [] => some names
  | names, line :: lines =>
      if line.head?.any isSpaceByte ∧ names ≠ [] then
        envelopeNames text names lines
      else if 0x3a ∉ line then none
      else
        let name := text.toLower (trimSpace (beforeAny [0x3a] line))
        if mmsEnvelopeHeaders.contains name = false
            ∧ (ascii "x-").isPrefixOf name = false then none
        else envelopeNames text (names ++ [name]) lines

def stripMMSEnvelope (text : CaseMapping) (body messageType : Bytes) :
    Bytes :=
  if text.equalFold (trimSpace messageType) (ascii "MMS") = false then body
  else
    let lines := splitByte 0x0a (normaliseLines body)
    match lines.idxOf? [] with
    | none => body
    | some blank =>
        if blank < 2 ∨ 20 < blank then body
        else
          match envelopeNames text [] (lines.take blank) with
          | none => body
          | some names =>
              let core := (["date", "subject", "from", "to"].map ascii).filter
                fun name => names.contains name
              let payload := ([0x0a].intercalate (lines.drop (blank + 1)))
                |>.dropWhile (· == 0x0a)
              if core.length < 2 then body
              else if trimSpace payload = [] then body
              else payload

-- == leaves

def transferDecoded (lib : MimeLibrary) (encoding : Bytes)
    (body : MimeReader) : Option MimeReader :=
  let encoding := lib.text.toLower (trimSpace encoding)
  if (["", "7bit", "8bit", "binary"].map ascii).contains encoding then
    some body
  else if encoding = ascii "base64" then some (lib.base64 body)
  else if encoding = ascii "quoted-printable" then
    some (lib.quotedPrintable body)
  else none

/-- `readBounded`. A limited reader ends before the error when there is
more than the maximum, and then there is too much. -/
def readBounded (reader : MimeReader) (maximum : Nat) : Option Bytes :=
  if maximum < reader.data.length then none
  else if reader.failed then none
  else some reader.data

def isHEIF (data : Bytes) : Bool :=
  12 ≤ data.length && slice data 4 8 == ascii "ftyp"
    && (["heic", "heix", "hevc", "hevx", "heim", "heis", "mif1", "msf1"].map
      ascii).contains (slice data 8 12)

def allowedImages : List Bytes :=
  ["image/jpeg", "image/png", "image/gif", "image/webp", "image/heic",
   "image/heif"].map ascii

def supportedImageType (lib : MimeLibrary) (declared data : Bytes) :
    Option Bytes :=
  let detected := lib.text.toLower
    (trimSpace (beforeAny [0x3b] (lib.detectContentType data)))
  let detected :=
    if detected = ascii "application/octet-stream" ∧ isHEIF data then
      ascii "image/heic"
    else detected
  if allowedImages.contains detected = false then none
  else
    let declared := lib.text.toLower (trimSpace declared)
    let declared :=
      if declared = ascii "image/jpg" then ascii "image/jpeg" else declared
    if declared ≠ [] ∧ declared ≠ ascii "application/octet-stream"
        ∧ declared ≠ detected
        ∧ ¬(declared = ascii "image/heif" ∧ detected = ascii "image/heic") then
      none
    else some detected

/-- `filepath.Base`. -/
def pathBase (path : Bytes) : Bytes :=
  if path = [] then ascii "."
  else
    let stripped := trimRightByte 0x2f path
    let last := (stripped.reverse.takeWhile (· != 0x2f)).reverse
    if last = [] then ascii "/" else last

def safeFilename (value : Bytes) : Bytes :=
  let value := trimSpace (pathBase value)
  if value = ascii "." ∨ value = [] ∨ 120 < value.length
      ∨ value.any (fun b => b == 0 || b == 0x0d || b == 0x0a) then []
  else value

/-- The name of an attachment: what the disposition says, or else what
the media type says. -/
def attachmentName (lib : MimeLibrary) (media : MediaType)
    (disposition : Bytes) : Bytes :=
  let filename := safeFilename (media.param (ascii "name"))
  match lib.parseMediaType disposition with
  | none => filename
  | some params =>
      let value := safeFilename (params.param (ascii "filename"))
      if value ≠ [] then value else filename

-- == the walk

/-- `mimeCollector`, without the bound on attachments, which does not
change. -/
structure Collector where
  parts : Nat
  totalAttachmentBytes : Nat
  text : List Bytes
  attachments : List Attachment
  deriving DecidableEq

def Collector.empty : Collector := ⟨0, 0, [], []⟩

/-- The end of `walk`, for an entity that is not multipart. -/
def Collector.leaf (lib : MimeLibrary) (maximum : Nat) (header : MimeHeader)
    (body : MimeReader) (media : MediaType) (c : Collector) :
    Except MmsError Collector :=
  let mediaType := lib.text.toLower media.name
  match transferDecoded lib header.transferEncoding body with
  | none => .error .transferEncoding
  | some decoded =>
      if mediaType = ascii "text/plain" then
        match readBounded decoded maxMMSTextBytes with
        | none => .error .textBound
        | some data =>
            if ¬ ValidUTF8 data then .error .textEncoding
            else if trimSpace data = [] then .ok c
            else .ok { c with text := c.text ++ [trimSpace data] }
      else if (ascii "image/").isPrefixOf mediaType = false
          ∧ mediaType ≠ ascii "application/octet-stream" then .ok c
      else
        match readBounded decoded maximum with
        | none => .error .imageBound
        | some data =>
            if data = [] then .ok c
            else
              match supportedImageType lib mediaType data with
              | none => .ok c
              | some detected =>
                  if maxMMSAttachments ≤ c.attachments.length then
                    .error .imageCount
                  else if maxMMSTotalBytes
                      < c.totalAttachmentBytes + data.length then
                    .error .imageTotal
                  else
                    .ok
                      { c with
                        totalAttachmentBytes :=
                          c.totalAttachmentBytes + data.length
                        attachments := c.attachments ++ [⟨detected,
                          attachmentName lib media header.disposition,
                          data⟩] }

/-- Is the media type of the entity multipart? -/
def isMultipart (lib : MimeLibrary) (media : MediaType) : Bool :=
  (ascii "multipart/").isPrefixOf (lib.text.toLower media.name)

mutual

def walk (lib : MimeLibrary) (maximum : Nat) :
    Entity → Nat → Collector → Except MmsError Collector
  | .entity header body parts broken, depth, c =>
      if 5 < depth then .error .nesting
      else
        let c := { c with parts := c.parts + 1 }
        if maxMIMEParts < c.parts then .error .partCount
        else
          match lib.parseMediaType header.contentType with
          | none => .error .contentType
          | some media =>
              if isMultipart lib media then
                let boundary := media.param (ascii "boundary")
                if boundary = [] ∨ 200 < boundary.length then
                  .error .boundary
                else
                  match walkParts lib maximum parts (depth + 1) c with
                  | .error e => .error e
                  | .ok c => if broken then .error .multipart else .ok c
              else c.leaf lib maximum header body media

/-- The loop over the parts of a multipart entity. -/
def walkParts (lib : MimeLibrary) (maximum : Nat) :
    List Entity → Nat → Collector → Except MmsError Collector
  | [], _, c => .ok c
  | part :: parts, depth, c =>
      match walk lib maximum part depth c with
      | .error e => .error e
      | .ok c => walkParts lib maximum parts depth c

end

/-- `ParseMMS`, which returns a message and an error. -/
def parseMMS (lib : MimeLibrary) (parsed : MmsMessage) (maximum : Int) :
    MmsMessage × Option MmsError :=
  if maximum < 1 ∨ (maxMMSTotalBytes : Int) < maximum then
    (.empty, some .bound)
  else
    let body := trimSpace parsed.body
    if body = [] then (parsed, none)
    else
      let stripped : MmsMessage :=
        { parsed with
          body := stripMMSEnvelope lib.text parsed.body (ascii "MMS") }
      match lib.readMessage body with
      | none => (stripped, none)
      | some entity =>
          if trimSpace entity.header.contentType = [] then (stripped, none)
          else
            match walk lib maximum.toNat entity 0 .empty with
            | .error e => (.empty, some e)
            | .ok c =>
                ({ parsed with
                    body := trimSpace ([0x0a].intercalate c.text)
                    attachments := c.attachments }, none)

end Callbridge.Message
