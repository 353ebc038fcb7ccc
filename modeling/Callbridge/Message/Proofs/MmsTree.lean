/-
What `ParseMMS` makes of a MIME tree.

The walk fills a collector while it checks six bounds, and any failure
throws everything away. What the collector holds when nothing failed is
said by the leaves of the tree in document order: the texts are what the
text/plain leaves show, the attachments are the supported images, and the
tree is small.

`Walked` says what a walk over some leaves adds to a collector, `Within`
what holds of a collector at any time.
-/
import Callbridge.Lib.Guards
import Callbridge.Message.Mms

namespace Callbridge.Message

open Lib

variable (lib : MimeLibrary) {data : Bytes}

-- == the tree

/-- An entity that is not multipart. -/
structure Leaf where
  header : MimeHeader
  body : MimeReader

/-- Has the header a multipart media type? -/
def MimeHeader.multipart (header : MimeHeader) : Bool :=
  (lib.parseMediaType header.contentType).any (isMultipart lib)

mutual

/-- The leaves in document order. -/
def Entity.leaves : Entity → List Leaf
  | .entity header body parts _ =>
      if header.multipart lib then leavesOf parts else [⟨header, body⟩]

def leavesOf : List Entity → List Leaf
  | [] => []
  | part :: parts => part.leaves ++ leavesOf parts

end

mutual

/-- How many entities the tree has. -/
def Entity.nodes : Entity → Nat
  | .entity header _ parts _ =>
      if header.multipart lib then 1 + nodesOf parts else 1

def nodesOf : List Entity → Nat
  | [] => 0
  | part :: parts => part.nodes + nodesOf parts

end

mutual

/-- How far the deepest entity is below the root. -/
def Entity.depth : Entity → Nat
  | .entity header _ parts _ =>
      if header.multipart lib then depthOf parts else 0

def depthOf : List Entity → Nat
  | [] => 0
  | part :: parts => max (1 + part.depth) (depthOf parts)

end

-- == the leaves

/-- The media type in lower case. -/
def Leaf.mediaType (l : Leaf) : Bytes :=
  match lib.parseMediaType l.header.contentType with
  | none => []
  | some media => lib.text.toLower media.name

/-- The body with its transfer encoding undone. -/
def Leaf.decoded (l : Leaf) : Bytes :=
  match transferDecoded lib l.header.transferEncoding l.body with
  | none => []
  | some reader => reader.data

/-- The text a text/plain leaf shows, unless it is blank. -/
def Leaf.shown (l : Leaf) : Option Bytes :=
  if l.mediaType lib = ascii "text/plain" ∧ trimSpace (l.decoded lib) ≠ [] then
    some (trimSpace (l.decoded lib))
  else none

/-- The attachment a leaf is: one declared to be an image or plain bytes,
that is not empty and has the content of a supported image. -/
def Leaf.image (l : Leaf) : Option Attachment :=
  match lib.parseMediaType l.header.contentType with
  | none => none
  | some media =>
      let mediaType := lib.text.toLower media.name
      if ((ascii "image/").isPrefixOf mediaType
          ∨ mediaType = ascii "application/octet-stream")
          ∧ l.decoded lib ≠ [] then
        (supportedImageType lib mediaType (l.decoded lib)).map fun detected =>
          ⟨detected, attachmentName lib media l.header.disposition,
            l.decoded lib⟩
      else none

-- == the collector

/-- What a walk over some leaves, in a tree of so many nodes, adds to the
collector; all of their text was valid UTF-8. -/
structure Walked (leaves : List Leaf) (nodes : Nat) (c c' : Collector) :
    Prop where
  parts : c'.parts = c.parts + nodes
  text : c'.text = c.text ++ leaves.filterMap (Leaf.shown lib)
  attachments :
    c'.attachments = c.attachments ++ leaves.filterMap (Leaf.image lib)
  valid : ∀ l ∈ leaves, l.mediaType lib = ascii "text/plain" →
    ValidUTF8 (l.decoded lib)

/-- What holds of a collector throughout. -/
structure Within (maximum : Nat) (c : Collector) : Prop where
  parts : c.parts ≤ maxMIMEParts
  count : c.attachments.length ≤ maxMMSAttachments
  total : c.totalAttachmentBytes
    = (c.attachments.map fun a => a.data.length).sum
  bytes : c.totalAttachmentBytes ≤ maxMMSTotalBytes
  each : ∀ a ∈ c.attachments, a.data ≠ [] ∧ a.data.length ≤ maximum

variable {lib} {maximum : Nat} {c c₁ c₂ : Collector}

theorem within_empty (maximum : Nat) : Within maximum .empty where
  parts := Nat.zero_le _
  count := Nat.zero_le _
  total := rfl
  bytes := Nat.zero_le _
  each := by simp [Collector.empty]

/-- One more attachment, after the checks of `leaf`. -/
theorem Within.attach {kind filename data : Bytes} (h : Within maximum c)
    (hcount : ¬ maxMMSAttachments ≤ c.attachments.length)
    (htotal : ¬ maxMMSTotalBytes < c.totalAttachmentBytes + data.length)
    (hdata : data ≠ [] ∧ data.length ≤ maximum) :
    Within maximum
      { c with
        totalAttachmentBytes := c.totalAttachmentBytes + data.length
        attachments := c.attachments ++ [⟨kind, filename, data⟩] } where
  parts := h.parts
  count := by
    rw [List.length_append]
    exact Nat.lt_of_not_le hcount
  total := by
    rw [List.map_append, List.sum_append, ← h.total]
    rfl
  bytes := Nat.not_lt.mp htotal
  each := by
    intro a ha
    rcases List.mem_append.mp ha with hold | hnew
    · exact h.each a hold
    · rw [List.mem_singleton.mp hnew]
      exact hdata

theorem Walked.refl (c : Collector) : Walked lib [] 0 c c where
  parts := rfl
  text := (List.append_nil _).symm
  attachments := (List.append_nil _).symm
  valid := by simp

/-- What two walks add, one after the other. -/
theorem Walked.trans {l₁ l₂ : List Leaf} {n₁ n₂ : Nat}
    (h₁ : Walked lib l₁ n₁ c c₁) (h₂ : Walked lib l₂ n₂ c₁ c₂) :
    Walked lib (l₁ ++ l₂) (n₁ + n₂) c c₂ where
  parts := by rw [h₂.parts, h₁.parts, Nat.add_assoc]
  text := by rw [h₂.text, h₁.text, List.filterMap_append, List.append_assoc]
  attachments := by
    rw [h₂.attachments, h₁.attachments, List.filterMap_append,
      List.append_assoc]
  valid := by
    intro l hl
    rcases List.mem_append.mp hl with hl | hl
    · exact h₁.valid l hl
    · exact h₂.valid l hl

-- == one leaf

theorem readBounded_eq_some {reader : MimeReader} {n : Nat}
    (h : readBounded reader n = some data) :
    reader.data = data ∧ data.length ≤ n := by
  unfold readBounded at h
  split at h
  · cases h
  case isFalse hlength =>
    split at h
    · cases h
    · cases h
      exact ⟨rfl, Nat.not_lt.mp hlength⟩

/-- A walk over one leaf, by what it shows and what it is. -/
theorem walked_leaf {l : Leaf} (hparts : c₁.parts = c.parts)
    (htext : c₁.text = c.text ++ (l.shown lib).toList)
    (hattachments : c₁.attachments = c.attachments ++ (l.image lib).toList)
    (hvalid : l.mediaType lib = ascii "text/plain" →
      ValidUTF8 (l.decoded lib)) : Walked lib [l] 0 c c₁ where
  parts := hparts
  text := by
    rw [htext, List.filterMap_cons]
    cases l.shown lib <;> rfl
  attachments := by
    rw [hattachments, List.filterMap_cons]
    cases l.image lib <;> rfl
  valid := by
    intro l' hl'
    rw [List.mem_singleton.mp hl']
    exact hvalid

/-- A leaf that shows nothing and is no attachment adds nothing. -/
theorem walked_nothing {l : Leaf} (hshown : l.shown lib = none)
    (himage : l.image lib = none)
    (hvalid : l.mediaType lib = ascii "text/plain" →
      ValidUTF8 (l.decoded lib)) : Walked lib [l] 0 c c := by
  refine walked_leaf rfl ?_ ?_ hvalid
  · rw [hshown]
    exact (List.append_nil _).symm
  · rw [himage]
    exact (List.append_nil _).symm

section Leaf

variable {header : MimeHeader} {body reader : MimeReader} {media : MediaType}
  (hmedia : lib.parseMediaType header.contentType = some media)

theorem decoded_eq {n : Nat}
    (hreader : transferDecoded lib header.transferEncoding body = some reader)
    (hdata : readBounded reader n = some data) :
    (Leaf.mk header body).decoded lib = data := by
  unfold Leaf.decoded
  rw [hreader]
  exact (readBounded_eq_some hdata).1

include hmedia

theorem mediaType_eq :
    (Leaf.mk header body).mediaType lib = lib.text.toLower media.name := by
  unfold Leaf.mediaType
  rw [hmedia]

/-- A leaf declared to be neither an image nor plain bytes is no
attachment. -/
theorem image_eq_none
    (h : (ascii "image/").isPrefixOf (lib.text.toLower media.name) = false
      ∧ lib.text.toLower media.name ≠ ascii "application/octet-stream") :
    (Leaf.mk header body).image lib = none := by
  unfold Leaf.image
  rw [hmedia]
  dsimp only
  rw [if_neg]
  rintro ⟨himage | hbytes, -⟩
  · rw [h.1] at himage
    cases himage
  · exact h.2 hbytes

/-- A leaf declared to be one is an attachment when it is not empty and
its content is supported. -/
theorem image_eq
    (h : ¬((ascii "image/").isPrefixOf (lib.text.toLower media.name) = false
      ∧ lib.text.toLower media.name ≠ ascii "application/octet-stream"))
    (hdecoded : (Leaf.mk header body).decoded lib = data) :
    (Leaf.mk header body).image lib
      = if data = [] then none
        else
          (supportedImageType lib (lib.text.toLower media.name) data).map
            fun detected =>
              ⟨detected, attachmentName lib media header.disposition,
                data⟩ := by
  have hdeclared : (ascii "image/").isPrefixOf (lib.text.toLower media.name)
      ∨ lib.text.toLower media.name = ascii "application/octet-stream" := by
    rw [not_and_or, Bool.not_eq_false, not_not] at h
    exact h
  unfold Leaf.image
  rw [hmedia]
  dsimp only
  rw [hdecoded]
  by_cases hdata : data = []
  · rw [if_pos hdata, if_neg fun hboth => hboth.2 hdata]
  · rw [if_neg hdata, if_pos ⟨hdeclared, hdata⟩]

/-- A text/plain leaf that is read is valid UTF-8, and adds what it
shows. -/
theorem text_leaf_ok (hwithin : Within maximum c)
    (hplain : lib.text.toLower media.name = ascii "text/plain")
    (h : c.leaf lib maximum header body media = .ok c₁) :
    Within maximum c₁ ∧ Walked lib [⟨header, body⟩] 0 c c₁ := by
  have himage : (Leaf.mk header body).image lib = none := by
    apply image_eq_none hmedia
    rw [hplain]
    decide
  unfold Collector.leaf at h
  split at h
  · cases h
  case h_2 reader hreader =>
    rw [if_pos hplain] at h
    split at h
    · cases h
    case h_2 data hdata =>
      have hdecoded := decoded_eq hreader hdata
      rw [ite_error_eq_ok, not_not] at h
      obtain ⟨hvalid, h⟩ := h
      have hshown : (Leaf.mk header body).shown lib
          = if trimSpace data = [] then none else some (trimSpace data) := by
        unfold Leaf.shown
        rw [mediaType_eq hmedia, hdecoded]
        by_cases hblank : trimSpace data = []
        · rw [if_pos hblank, if_neg fun hboth => hboth.2 hblank]
        · rw [if_neg hblank, if_pos ⟨hplain, hblank⟩]
      rw [← hdecoded] at hvalid
      -- blank text is passed over
      by_cases hblank : trimSpace data = []
      · rw [if_pos hblank] at h hshown
        cases h
        exact ⟨hwithin, walked_nothing hshown himage fun _ => hvalid⟩
      · rw [if_neg hblank] at h hshown
        cases h
        refine ⟨⟨hwithin.parts, hwithin.count, hwithin.total, hwithin.bytes,
          hwithin.each⟩, walked_leaf rfl ?_ ?_ fun _ => hvalid⟩
        · rw [hshown]
          rfl
        · rw [himage]
          exact (List.append_nil _).symm

/-- Any other leaf adds the attachment it is, if it is one, and the
collector stays within its bounds. -/
theorem other_leaf_ok (hwithin : Within maximum c)
    (hother : lib.text.toLower media.name ≠ ascii "text/plain")
    (h : c.leaf lib maximum header body media = .ok c₁) :
    Within maximum c₁ ∧ Walked lib [⟨header, body⟩] 0 c c₁ := by
  have hmediaType : (Leaf.mk header body).mediaType lib
      = lib.text.toLower media.name := mediaType_eq hmedia
  have hshown : (Leaf.mk header body).shown lib = none := by
    unfold Leaf.shown
    rw [hmediaType, if_neg fun hboth => hother hboth.1]
  have hvalid : (Leaf.mk header body).mediaType lib = ascii "text/plain" →
      ValidUTF8 ((Leaf.mk header body).decoded lib) := by
    intro hplain
    exact absurd (hmediaType ▸ hplain) hother
  unfold Collector.leaf at h
  split at h
  · cases h
  case h_2 reader hreader =>
    rw [if_neg hother] at h
    split at h
    case isTrue hneither =>
      cases h
      exact ⟨hwithin,
        walked_nothing hshown (image_eq_none hmedia hneither) hvalid⟩
    case isFalse hdeclared =>
      split at h
      · cases h
      case h_2 data hdata =>
        have himage := image_eq hmedia hdeclared (decoded_eq hreader hdata)
        -- an empty or unrecognised image is passed over
        by_cases hempty : data = []
        · rw [if_pos hempty] at h himage
          cases h
          exact ⟨hwithin, walked_nothing hshown himage hvalid⟩
        rw [if_neg hempty] at h himage
        split at h
        case h_1 hnone =>
          cases h
          rw [hnone] at himage
          exact ⟨hwithin, walked_nothing hshown himage hvalid⟩
        case h_2 detected hdetected =>
          rw [hdetected] at himage
          rw [ite_error_eq_ok, ite_error_eq_ok] at h
          obtain ⟨hcount, htotal, h⟩ := h
          cases h
          have hsize := (readBounded_eq_some hdata).2
          refine ⟨hwithin.attach hcount htotal ⟨hempty, hsize⟩,
            walked_leaf rfl ?_ ?_ hvalid⟩
          · rw [hshown]
            exact (List.append_nil _).symm
          · rw [himage]
            rfl

/-- What a leaf adds to the collector, which stays within its bounds. -/
theorem leaf_ok (hwithin : Within maximum c)
    (h : c.leaf lib maximum header body media = .ok c₁) :
    Within maximum c₁ ∧ Walked lib [⟨header, body⟩] 0 c c₁ := by
  by_cases hplain : lib.text.toLower media.name = ascii "text/plain"
  · exact text_leaf_ok hmedia hwithin hplain h
  · exact other_leaf_ok hmedia hwithin hplain h

end Leaf

-- == the walk

/-- Entering an entity counts it. -/
theorem walked_entered (c : Collector) :
    Walked lib [] 1 c { c with parts := c.parts + 1 } where
  parts := rfl
  text := (List.append_nil _).symm
  attachments := (List.append_nil _).symm
  valid := by simp

theorem multipart_eq {header : MimeHeader} {media : MediaType}
    (hmedia : lib.parseMediaType header.contentType = some media) :
    header.multipart lib = isMultipart lib media := by
  unfold MimeHeader.multipart
  rw [hmedia]
  rfl

mutual

/-- What a walk that succeeds adds to the collector: everything the
leaves show and are, and one for each node; and no node was too deep. -/
theorem walk_ok {depth : Nat} : ∀ {e : Entity} {c c' : Collector},
    Within maximum c → walk lib maximum e depth c = .ok c' →
      Within maximum c' ∧ Walked lib (e.leaves lib) (e.nodes lib) c c'
        ∧ depth + e.depth lib ≤ 5
  | .entity header body parts broken, c, c', hwithin, h => by
    rw [walk, ite_error_eq_ok] at h
    obtain ⟨hdepth, h⟩ := h
    rw [ite_error_eq_ok] at h
    obtain ⟨hcount, h⟩ := h
    have hentered : Within maximum { c with parts := c.parts + 1 } :=
      ⟨Nat.not_lt.mp hcount, hwithin.count, hwithin.total, hwithin.bytes,
        hwithin.each⟩
    split at h
    · cases h
    case h_2 media hmedia =>
      rw [Entity.leaves, Entity.nodes, Entity.depth, multipart_eq hmedia]
      by_cases hmulti : isMultipart lib media = true
      · rw [if_pos hmulti, ite_error_eq_ok] at h
        obtain ⟨-, h⟩ := h
        split at h
        · cases h
        case h_2 c₁ hparts =>
          rw [ite_error_eq_ok] at h
          obtain ⟨-, h⟩ := h
          cases h
          obtain ⟨hwithin₁, hwalked, hdeep⟩ :=
            walkParts_ok (Nat.not_lt.mp hdepth) hentered hparts
          rw [if_pos hmulti, if_pos hmulti, if_pos hmulti]
          exact ⟨hwithin₁, (walked_entered c).trans hwalked, hdeep⟩
      · rw [if_neg hmulti] at h
        obtain ⟨hwithin₁, hwalked⟩ := leaf_ok hmedia hentered h
        rw [if_neg hmulti, if_neg hmulti, if_neg hmulti]
        exact ⟨hwithin₁, (walked_entered c).trans hwalked,
          Nat.not_lt.mp hdepth⟩

/-- A walk that succeeds has added the leaves of its parts. -/
theorem walkParts_ok {depth : Nat} : ∀ {parts : List Entity}
    {c c' : Collector}, depth ≤ 5 → Within maximum c →
    walkParts lib maximum parts (depth + 1) c = .ok c' →
      Within maximum c'
        ∧ Walked lib (leavesOf lib parts) (nodesOf lib parts) c c'
        ∧ depth + depthOf lib parts ≤ 5
  | [], c, c', hdepth, hwithin, h => by
    cases h
    exact ⟨hwithin, .refl c, hdepth⟩
  | part :: parts, c, c', hdepth, hwithin, h => by
    rw [walkParts] at h
    split at h
    · cases h
    case h_2 c₁ hpart =>
      obtain ⟨hwithin₁, hwalked₁, hdeep₁⟩ := walk_ok hwithin hpart
      obtain ⟨hwithin₂, hwalked₂, hdeep₂⟩ := walkParts_ok hdepth hwithin₁ h
      rw [leavesOf, nodesOf, depthOf]
      refine ⟨hwithin₂, hwalked₁.trans hwalked₂, ?_⟩
      omega

end

-- == results

/-- The text of a validly encoded tree is valid. -/
theorem validUTF8_body {leaves : List Leaf}
    (h : ∀ l ∈ leaves, l.mediaType lib = ascii "text/plain" →
      ValidUTF8 (l.decoded lib)) :
    ValidUTF8 (trimSpace ([0x0a].intercalate
      (leaves.filterMap (Leaf.shown lib)))) := by
  apply ValidUTF8.trimSpace
  apply ValidUTF8.intercalate (by decide)
  intro shown hshown
  obtain ⟨l, hl, heq⟩ := List.mem_filterMap.mp hshown
  unfold Leaf.shown at heq
  split at heq
  case isTrue hplain =>
    cases heq
    exact (h l hl hplain.1).trimSpace
  · cases heq

/-- For every message whose body reads as mail with a content type, and
every bound on attachments: `ParseMMS` returns an error and no message,
or the message with the text its text/plain leaves show and the supported
images among its leaves, in document order. Then the tree has at most 32
nodes and none deeper than five, there are at most four attachments, none
of them empty or beyond the bound, two mebibytes in all, and all text is
valid UTF-8. -/
theorem mms_walk_exact (lib : MimeLibrary) (parsed : MmsMessage)
    (maximum : Int) (tree : Entity)
    (hread : lib.readMessage (trimSpace parsed.body) = some tree)
    (htype : trimSpace tree.header.contentType ≠ []) :
    (∃ e, parseMMS lib parsed maximum = (.empty, some e))
      ∨ ∃ m : MmsMessage, parseMMS lib parsed maximum = (m, none)
        ∧ m.body = trimSpace ([0x0a].intercalate
            ((tree.leaves lib).filterMap (Leaf.shown lib)))
        ∧ m.attachments = (tree.leaves lib).filterMap (Leaf.image lib)
        ∧ m.senderName = parsed.senderName
        ∧ m.senderNumber = parsed.senderNumber
        ∧ tree.nodes lib ≤ 32 ∧ tree.depth lib ≤ 5
        ∧ m.attachments.length ≤ 4
        ∧ (∀ a ∈ m.attachments,
            a.data ≠ [] ∧ (a.data.length : Int) ≤ maximum)
        ∧ (m.attachments.map fun a => a.data.length).sum ≤ 2 * 1024 * 1024
        ∧ ValidUTF8 m.body
        ∧ ∀ l ∈ tree.leaves lib, l.mediaType lib = ascii "text/plain" →
            ValidUTF8 (l.decoded lib) := by
  have hbody : trimSpace parsed.body ≠ [] := by
    intro hnil
    rw [hnil, lib.readMessage_nil] at hread
    cases hread
  unfold parseMMS
  by_cases hbound : maximum < 1 ∨ (maxMMSTotalBytes : Int) < maximum
  · rw [if_pos hbound]
    exact Or.inl ⟨_, rfl⟩
  rw [if_neg hbound]
  rw [if_neg hbody, hread]
  dsimp only
  rw [if_neg htype]
  cases hwalk : walk lib maximum.toNat tree 0 .empty with
  | error e => exact Or.inl ⟨e, rfl⟩
  | ok c =>
    obtain ⟨hwithin, hwalked, hdepth⟩ :=
      walk_ok (within_empty maximum.toNat) hwalk
    have htext : c.text = (tree.leaves lib).filterMap (Leaf.shown lib) :=
      hwalked.text
    have hattachments :
        c.attachments = (tree.leaves lib).filterMap (Leaf.image lib) :=
      hwalked.attachments
    have hnodes : c.parts = tree.nodes lib :=
      hwalked.parts.trans (Nat.zero_add _)
    refine Or.inr ⟨_, rfl, ?_, hattachments, rfl, rfl, ?_, ?_, hwithin.count,
      ?_, ?_, ?_, hwalked.valid⟩
    · rw [htext]
    · rw [← hnodes]
      exact hwithin.parts
    · omega
    · intro a ha
      have heach := hwithin.each a ha
      exact ⟨heach.1, by omega⟩
    · rw [← hwithin.total]
      exact hwithin.bytes
    · rw [htext]
      exact validUTF8_body hwalked.valid

/-- A text and a photo in two parts. -/
def photoTree : Entity :=
  .entity ⟨ascii "multipart/related; boundary=b", [], []⟩ ⟨[], false⟩
    [.entity ⟨ascii "text/plain; charset=UTF-8", ascii "8bit", []⟩
       ⟨ascii " hello\n", false⟩ [] false,
     .entity ⟨ascii "image/jpeg; name=photo.jpg", [], []⟩
       ⟨[0xff, 0xd8, 0xff, 0xd9], false⟩ [] false] false

/-- A library that reads every text as that message. -/
def photoLibrary : MimeLibrary where
  text := asciiCase
  readMessage s := if s = [] then none else some photoTree
  readMessage_nil := rfl
  parseMediaType s :=
    if s = [] then none
    else some ⟨beforeAny [0x3b] s, fun name =>
      if name.isPrefixOf ((afterByte 0x3b s).drop 1) then afterByte 0x3d s
      else []⟩
  base64 := id
  quotedPrintable := id
  detectContentType data :=
    if [0xff, 0xd8, 0xff].isPrefixOf data then ascii "image/jpeg"
    else ascii "text/plain; charset=utf-8"

theorem photoLibrary_reads {s : Bytes} (h : s ≠ []) :
    photoLibrary.readMessage s = some photoTree := if_neg h

/-- It is parsed into the text and the photo. -/
theorem mms_walk_exact_photo :
    ∃ m : MmsMessage,
      parseMMS photoLibrary ⟨⟨ascii "MIME-Version: 1.0", [], []⟩, []⟩ 1024
          = (m, none)
        ∧ m.body = ascii "hello"
        ∧ m.attachments = [⟨ascii "image/jpeg", ascii "photo.jpg",
            [0xff, 0xd8, 0xff, 0xd9]⟩] := by
  rcases mms_walk_exact photoLibrary
    ⟨⟨ascii "MIME-Version: 1.0", [], []⟩, []⟩ 1024 photoTree
    (photoLibrary_reads (by decide +kernel)) (by decide +kernel)
    with ⟨e, he⟩ | h
  · have hnone : (parseMMS photoLibrary
        ⟨⟨ascii "MIME-Version: 1.0", [], []⟩, []⟩ 1024).2 = none := by
      decide +kernel
    rw [he] at hnone
    cases hnone
  · obtain ⟨m, hm, hbody, hattachments, -⟩ := h
    refine ⟨m, hm, ?_, ?_⟩
    · rw [hbody]
      decide +kernel
    · rw [hattachments]
      decide +kernel

end Callbridge.Message
