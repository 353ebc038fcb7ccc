/-
When the text of a bMessage comes back.

The search for the start marker passes over the envelope and stops where
the text begins. The end marker is looked for in the text itself: without
one there the block is the text; with one it ends early, and what is cut
off has visible characters that no trimming explains.

The parser's end marker starts with a newline, so it passes over a line
`END:MSG` that is the first of the text. Whether the message keeps its
shape is therefore asked of its lines (`cutLines`).
-/
import Mathlib.Tactic.Ring
import Callbridge.Message.BMessage
import Callbridge.Message.Proofs.Splitting

namespace Callbridge.Message

open Lib

variable {s l d destination text : Bytes}

-- == line ends

theorem crlfToLf_cons {b : UInt8} (h : ¬ (b = 0x0d ∧ s.head? = some 0x0a)) :
    crlfToLf (b :: s) = b :: crlfToLf s := by
  rw [crlfToLf, if_neg h]

theorem crlfToLf_drop {b : UInt8} (h : b = 0x0d ∧ s.head? = some 0x0a) :
    crlfToLf (b :: s) = crlfToLf s := by
  rw [crlfToLf, if_pos h]

/-- A line end is not torn apart. -/
theorem crlfToLf_append
    (h : ¬ (l.getLast? = some 0x0d ∧ s.head? = some 0x0a)) :
    crlfToLf (l ++ s) = crlfToLf l ++ crlfToLf s := by
  induction l with
  | nil => rfl
  | cons b l ih =>
    cases l with
    | nil =>
      have hb : ¬ (b = 0x0d ∧ s.head? = some 0x0a) := by
        simpa using h
      have hb' : ¬ (b = 0x0d ∧ ([] : Bytes).head? = some 0x0a) := by
        simp
      rw [List.cons_append, List.nil_append, crlfToLf_cons hb,
        crlfToLf_cons hb']
      rfl
    | cons c l =>
      have hrest := ih h
      rw [List.cons_append, List.cons_append, ← List.cons_append]
      by_cases hb : b = 0x0d ∧ (c :: l).head? = some 0x0a
      · have hb' : b = 0x0d ∧ (c :: l ++ s).head? = some 0x0a := hb
        rw [crlfToLf_drop hb, crlfToLf_drop hb', hrest]
      · have hb' : ¬ (b = 0x0d ∧ (c :: l ++ s).head? = some 0x0a) := hb
        rw [crlfToLf_cons hb, crlfToLf_cons hb', hrest]
        rfl

/-- Normalising goes part by part, unless a line end is cut in two. -/
theorem normaliseLines_append
    (h : ¬ (l.getLast? = some 0x0d ∧ s.head? = some 0x0a)) :
    normaliseLines (l ++ s) = normaliseLines l ++ normaliseLines s := by
  rw [normaliseLines, crlfToLf_append h]
  exact List.map_append

/-- A part without a carriage return stays as it is. -/
theorem normaliseLines_of_not_mem (h : 0x0d ∉ l) :
    normaliseLines l = l := by
  induction l with
  | nil => rfl
  | cons b l ih =>
    rw [List.mem_cons, not_or] at h
    have hb : b ≠ 0x0d := Ne.symm h.1
    have htail := ih h.2
    unfold normaliseLines crToLf at htail ⊢
    rw [crlfToLf_cons fun h => hb h.1, List.map_cons, if_neg hb, htail]

/-- Something is left of a text. -/
theorem normaliseLines_ne_nil (h : s ≠ []) :
    normaliseLines s ≠ [] := by
  have hkept : ∀ s : Bytes, s ≠ [] → crlfToLf s ≠ [] := by
    intro s
    induction s with
    | nil => exact fun h => absurd rfl h
    | cons b s ih =>
      intro _
      by_cases hb : b = 0x0d ∧ s.head? = some 0x0a
      · rw [crlfToLf_drop hb]
        refine ih ?_
        rintro rfl
        cases hb.2
      · rw [crlfToLf_cons hb]
        exact List.cons_ne_nil _ _
  intro hnil
  exact hkept s h (List.map_eq_nil_iff.mp hnil)

-- == the numbers

/-- Reading digits behind a value already read. -/
theorem foldl_decimal (digits : Bytes) (value : Nat) :
    digits.foldl (fun value b => value * 10 + (b.toNat - 48)) value
      = value * 10 ^ digits.length + decimal digits := by
  induction digits generalizing value with
  | nil => simp [decimal]
  | cons b digits ih =>
    rw [decimal, List.foldl_cons, ih, List.foldl_cons, ih,
      List.length_cons, Nat.pow_succ]
    ring

theorem toNat_digit (v : Nat) :
    (UInt8.ofNat (0x30 + v % 10)).toNat = 0x30 + v % 10 := by
  rw [UInt8.toNat_ofNat']
  omega

/-- `itoa` writes digits. -/
theorem isDigit_itoaLoop (places v : Nat) {buffer : Bytes}
    (h : ∀ b ∈ buffer, isDigit b = true) :
    ∀ b ∈ itoaLoop places v buffer, isDigit b = true := by
  induction places generalizing v buffer with
  | zero => exact h
  | succ places ih =>
    rw [itoaLoop]
    split
    · exact h
    · refine ih _ ?_
      intro b hb
      rcases List.mem_cons.mp hb with rfl | hb
      · have hnat := toNat_digit v
        simp only [isDigit, Bool.and_eq_true, decide_eq_true_eq,
          UInt8.le_iff_toNat_le, hnat]
        constructor
        · show 0x30 ≤ 0x30 + v % 10
          omega
        · show 0x30 + v % 10 ≤ 0x39
          omega
      · exact h b hb

theorem isDigit_itoa (v : Nat) :
    ∀ b ∈ itoa v, isDigit b = true := by
  unfold itoa
  split
  · exact List.all_eq_true.mp (by decide)
  · exact isDigit_itoaLoop 20 v (by simp)

/-- The digits are those of the number. -/
theorem decimal_itoaLoop (places v : Nat) (buffer : Bytes)
    (hv : v < 10 ^ places) : decimal (itoaLoop places v buffer)
      = v * 10 ^ buffer.length + decimal buffer := by
  induction places generalizing v buffer with
  | zero =>
    have hzero : v = 0 := by simpa using hv
    simp [itoaLoop, hzero]
  | succ places ih =>
    rw [itoaLoop]
    split
    case isTrue hzero => simp [hzero]
    case isFalse hpos =>
      have hdigit : decimal
          (UInt8.ofNat (0x30 + v % 10) :: buffer)
            = v % 10 * 10 ^ buffer.length + decimal buffer := by
        rw [decimal, List.foldl_cons, foldl_decimal, toNat_digit]
        simp
      have hsplit : v = 10 * (v / 10) + v % 10 := by omega
      rw [ih _ _ (by rw [Nat.pow_succ] at hv; omega), hdigit,
        List.length_cons, Nat.pow_succ]
      nth_rewrite 3 [hsplit]
      ring

/-- What `itoa` writes is the number. -/
theorem decimal_itoa {v : Nat} (hv : v < 10 ^ 20) :
    decimal (itoa v) = v := by
  unfold itoa
  split
  case isTrue hzero =>
    rw [hzero]
    rfl
  case isFalse =>
    rw [decimal_itoaLoop 20 v [] hv]
    simp [decimal]

-- == the destination

/-- A digit, or the plus sign. -/
def isDialByte (b : UInt8) : Bool := isDigit b || b == 0x2b

/-- What is dialled is dialable. -/
theorem isDialByte_dialled {position : Nat} (h : dialled position s = .ok d) :
    ∀ b ∈ d, isDialByte b = true := by
  induction s generalizing position d with
  | nil =>
    cases h
    simp
  | cons c s ih =>
    rw [dialled] at h
    split at h
    case isTrue hc =>
      cases hrest : dialled (position + 1) s with
      | error e =>
        rw [hrest] at h
        cases h
      | ok rest =>
        rw [hrest] at h
        cases h
        intro b hb
        rcases List.mem_cons.mp hb with rfl | hb
        · rcases hc with hc | ⟨hc, -⟩ <;> simp [isDialByte, hc]
        · exact ih hrest b hb
    case isFalse =>
      split at h
      · exact ih h
      · cases h

/-- So is a destination. -/
theorem isDialByte_normalizeDestination {value : Bytes}
    (h : normalizeDestination value = .ok d) :
    ∀ b ∈ d, isDialByte b = true := by
  rw [normalizeDestination] at h
  cases hdial : dialled 0 (trimSpace value) with
  | error e =>
    rw [hdial] at h
    cases h
  | ok normalized =>
    have hall := isDialByte_dialled hdial
    have hcode : ∀ b ∈ ascii "+82", isDialByte b = true :=
      List.all_eq_true.mp (by decide)
    obtain ⟨k, hk⟩ : ∃ k, (if [0x2b].isPrefixOf normalized = true
        then normalized.drop 1 else normalized) = normalized.drop k := by
      split
      · exact ⟨1, rfl⟩
      · exact ⟨0, rfl⟩
    simp only [hdial, hk] at h
    split at h
    · cases h
    split at h
    · cases h
      intro b hb
      rcases List.mem_append.mp hb with hb | hb
      · exact hcode b hb
      · exact hall b (List.mem_of_mem_drop (List.mem_of_mem_drop hb))
    · cases h
      exact hall

theorem not_mem_of_dial (h : ∀ b ∈ d, isDialByte b = true) {c : UInt8}
    (hc : isDialByte c = false) : c ∉ d := by
  intro hmem
  rw [h c hmem] at hc
  cases hc

theorem isDialByte_itoa (v : Nat) : ∀ b ∈ itoa v, isDialByte b = true := by
  intro b hb
  simp [isDialByte, isDigit_itoa v b hb]

-- == the message read again

/-- What stands in front of `BEGIN:MSG`, with newlines for line ends. -/
def envelope (destination : Bytes) (length : Nat) : Bytes :=
  normaliseLines bmsgHead ++ (destination ++ (normaliseLines bmsgMiddle
    ++ (itoa length ++ [0x0a])))

/-- What stands behind `END:MSG`. -/
def behindMsg : Bytes := 0x0a :: normaliseLines bmsgTail

/-- A message with its line ends made newlines. -/
theorem normaliseLines_message (hdial : ∀ b ∈ destination, isDialByte b = true)
    (text : Bytes) :
    normaliseLines (makeSMSBMessage destination text)
      = envelope destination (messagePart text).length ++ (beginMsg
        ++ (normaliseLines text ++ endMsg ++ behindMsg)) := by
  have hdest : (0x0d : UInt8) ∉ destination :=
    not_mem_of_dial hdial (by decide)
  have hdigits : (0x0d : UInt8) ∉ itoa (messagePart text).length :=
    not_mem_of_dial (isDialByte_itoa _) (by decide)
  have hlast : ∀ {l : Bytes}, (0x0d : UInt8) ∉ l → ∀ s : Bytes,
      ¬ (l.getLast? = some 0x0d ∧ s.head? = some 0x0a) := by
    intro l hl s h
    exact hl (List.mem_of_getLast? h.1)
  have hline : ∀ {l : Bytes}, l.getLast? ≠ some 0x0d → ∀ s : Bytes,
      normaliseLines (l ++ s) = normaliseLines l ++ normaliseLines s := by
    intro l hl s
    exact normaliseLines_append fun h => hl h.1
  have htext : ∀ s : Bytes, normaliseLines (text
      ++ (ascii "\r\nEND:MSG\r\n" ++ s)) = normaliseLines text
        ++ normaliseLines (ascii "\r\nEND:MSG\r\n" ++ s) := by
    intro s
    refine normaliseLines_append ?_
    rintro ⟨-, h⟩
    cases h
  unfold makeSMSBMessage envelope
  generalize itoa (messagePart text).length = digits at hdigits ⊢
  simp only [messagePart, List.append_assoc]
  rw [hline (by decide), normaliseLines_append (hlast hdest _),
    normaliseLines_of_not_mem hdest, hline (by decide),
    normaliseLines_append (hlast hdigits _),
    normaliseLines_of_not_mem hdigits, hline (by decide),
    hline (by decide), htext, hline (by decide)]
  rfl

/-- No occurrence of the start marker begins in the envelope. -/
theorem clear_envelope (hdial : ∀ b ∈ destination, isDialByte b = true)
    (length : Nat) :
    clear beginMsg (envelope destination length) = true := by
  have hfree : ∀ {l : Bytes}, (∀ b ∈ l, isDialByte b = true) →
      clear beginMsg l = true := fun hl =>
    clear_of_not_mem (not_mem_of_dial hl (by decide))
  refine clear_append (by decide +kernel) ?_
  refine clear_append (hfree hdial) ?_
  refine clear_append (by decide +kernel) ?_
  exact clear_append (hfree (isDialByte_itoa length)) (by decide)

/-- The start marker is found where the text begins. -/
theorem extractBlock_message (hdial : ∀ b ∈ destination, isDialByte b = true)
    (text : Bytes) :
    extractBlock (normaliseLines (makeSMSBMessage destination text))
        beginMsg endMsg
      = (let rest := normaliseLines text ++ endMsg ++ behindMsg
        ((index endMsg rest).map rest.take).getD []) := by
  rw [normaliseLines_message hdial]
  generalize hfront : envelope destination (messagePart text).length
    = front
  have hclear : clear beginMsg front = true := by
    rw [← hfront]
    exact clear_envelope hdial _
  generalize normaliseLines text ++ endMsg ++ behindMsg = rest
  have hstart : index beginMsg (front ++ (beginMsg ++ rest))
      = some front.length := by
    rw [index_clear hclear, index_of_prefix (List.prefix_append _ _)]
    simp
  have hrest : (front ++ (beginMsg ++ rest)).drop
      (front.length + beginMsg.length) = rest := by
    rw [← List.append_assoc, ← List.length_append, List.drop_left]
  unfold extractBlock
  simp only [hstart, hrest]
  cases index endMsg rest <;> rfl

theorem body_readLine (m : BMessage) (line : Bytes) :
    (m.readLine line).body = m.body := by
  simp only [BMessage.readLine]
  split <;> split <;> rfl

theorem body_foldl (lines : List Bytes) (m : BMessage) :
    (lines.foldl BMessage.readLine m).body = m.body := by
  induction lines generalizing m with
  | nil => rfl
  | cons line lines ih => rw [List.foldl_cons, ih, body_readLine]

theorem body_parseBMessage (raw : Bytes) :
    (parseBMessage raw).body
      = (let block := extractBlock (normaliseLines raw) beginMsg endMsg
        if block = [] then trimSpace (normaliseLines raw)
        else trimSpace block) := by
  simp only [parseBMessage]
  split
  · rfl
  · exact body_foldl _ _

/-- A text without an end marker is the block. -/
theorem extractBlock_eq_text (hdial : ∀ b ∈ destination, isDialByte b = true)
    (hfree : ¬ endMsg <:+: normaliseLines text) :
    extractBlock (normaliseLines (makeSMSBMessage destination text))
      beginMsg endMsg = normaliseLines text := by
  have hfound : index endMsg (normaliseLines text ++ endMsg ++ behindMsg)
      = some (normaliseLines text).length :=
    index_behind (by decide) hfree behindMsg
  rw [extractBlock_message hdial]
  simp only [hfound, Option.map_some, Option.getD_some]
  rw [List.append_assoc, List.take_left]

/-- With an end marker in the text the block is cut off before it. -/
theorem extractBlock_cut {pre post : Bytes}
    (hdial : ∀ b ∈ destination, isDialByte b = true)
    (htext : normaliseLines text = pre ++ endMsg ++ post) :
    ∃ k, extractBlock (normaliseLines (makeSMSBMessage destination text))
      beginMsg endMsg = pre.take k := by
  obtain ⟨k, hk, hle⟩ :=
    exists_index endMsg pre (post ++ endMsg ++ behindMsg)
  have hrest : normaliseLines text ++ endMsg ++ behindMsg
      = pre ++ endMsg ++ (post ++ endMsg ++ behindMsg) := by
    rw [htext]
    simp only [List.append_assoc]
  refine ⟨k, ?_⟩
  rw [extractBlock_message hdial, hrest]
  simp only [hk, Option.map_some, Option.getD_some]
  rw [List.append_assoc, List.take_append_of_le_length hle]

/-- The visible characters of the body, against those of the text. -/
theorem body_loses {pre post : Bytes}
    (hdial : ∀ b ∈ destination, isDialByte b = true)
    (htext : normaliseLines text = pre ++ endMsg ++ post) :
    (parseBMessage (makeSMSBMessage destination text)).body
      ≠ trimSpace (normaliseLines text) := by
  intro hbody
  have hvis := congrArg (List.filter visible) hbody
  rw [filter_trimSpace, body_parseBMessage] at hvis
  simp only [] at hvis
  split at hvis
  case isTrue =>
    -- no block: the body is the whole message, envelope and all
    rw [filter_trimSpace, normaliseLines_message hdial] at hvis
    have hlen := congrArg List.length hvis
    have hmarker : (beginMsg.filter visible).length = 9 := by decide
    simp only [List.filter_append, List.length_append] at hlen
    omega
  case isFalse =>
    obtain ⟨k, hk⟩ := extractBlock_cut hdial htext
    rw [filter_trimSpace, hk, htext] at hvis
    have hlen := congrArg List.length hvis
    have hmarker : (endMsg.filter visible).length = 7 := by decide
    have hle := ((List.take_sublist k pre).filter visible).length_le
    simp only [List.filter_append, List.length_append] at hlen
    omega

-- == the lines of the message

/-- The lines of a text, with line ends of any kind. -/
def linesOf (s : Bytes) : List Bytes := splitByte 0x0a (normaliseLines s)

/-- The lines in front of the first line `BEGIN:MSG`, those from there to
the first line `END:MSG`, and those behind it. -/
def cutLines (lines : List Bytes) :
    List Bytes × List Bytes × List Bytes :=
  let rest := (lines.dropWhile (· != ascii "BEGIN:MSG")).tail
  (lines.takeWhile (· != ascii "BEGIN:MSG"),
    rest.takeWhile (· != ascii "END:MSG"),
    (rest.dropWhile (· != ascii "END:MSG")).tail)

/-- The lines of the envelope in front of the block. -/
def envelopeLines (destination : Bytes) (length : Nat) : List Bytes :=
  [ascii "BEGIN:BMSG", ascii "VERSION:1.0", ascii "STATUS:UNREAD",
    ascii "TYPE:SMS_GSM", ascii "FOLDER:telecom/msg/outbox",
    ascii "BEGIN:VCARD", ascii "VERSION:3.0", ascii "N:", ascii "TEL:",
    ascii "END:VCARD", ascii "BEGIN:BENV", ascii "BEGIN:VCARD",
    ascii "VERSION:3.0", ascii "N:"]
    ++ [ascii "TEL:" ++ destination]
    ++ [ascii "END:VCARD", ascii "BEGIN:BBODY", ascii "CHARSET:UTF-8"]
    ++ [ascii "LENGTH:" ++ itoa length]

/-- The lines behind the block; the last is empty. -/
def tailLines : List Bytes :=
  [ascii "END:BBODY", ascii "END:BENV", ascii "END:BMSG", []]

/-- The envelope is its lines, each with a newline. -/
theorem envelope_eq (destination : Bytes) (length : Nat) :
    envelope destination length
      = (envelopeLines destination length).flatMap fun line =>
        line ++ [0x0a] := by
  have hhead : normaliseLines bmsgHead
      = ((envelopeLines [] 0).take 14).flatMap (fun line => line ++ [0x0a])
        ++ ascii "TEL:" := by decide +kernel
  have hmiddle : normaliseLines bmsgMiddle
      = 0x0a :: (((envelopeLines [] 0).drop 15).take 3).flatMap
        (fun line => line ++ [0x0a]) ++ ascii "LENGTH:" := by decide +kernel
  rw [envelope, hhead, hmiddle]
  simp only [envelopeLines, List.flatMap_cons, List.flatMap_nil,
    List.append_assoc, List.cons_append,
    List.nil_append, List.append_nil, List.take_succ_cons,
    List.take_zero, List.drop_succ_cons, List.drop_zero]

/-- A line of the envelope holds no newline and does not start the
block. -/
theorem envelopeLines_plain (hdial : ∀ b ∈ destination, isDialByte b = true)
    (length : Nat) : ∀ line ∈ envelopeLines destination length,
      0x0a ∉ line ∧ line ≠ ascii "BEGIN:MSG" := by
  have hfixed : ∀ line ∈ (envelopeLines [] 0).take 14
      ++ ((envelopeLines [] 0).drop 15).take 3,
      0x0a ∉ line ∧ line ≠ ascii "BEGIN:MSG" := by decide +kernel
  have hfield : ∀ (name : Bytes) {d : Bytes}, 0x0a ∉ name →
      (∀ s, name ++ s ≠ ascii "BEGIN:MSG") →
      (∀ b ∈ d, isDialByte b = true) →
      0x0a ∉ name ++ d ∧ name ++ d ≠ ascii "BEGIN:MSG" := by
    intro name d hname hne hd
    refine ⟨?_, hne d⟩
    rw [List.mem_append, not_or]
    exact ⟨hname, not_mem_of_dial hd (by decide)⟩
  intro line hline
  simp only [envelopeLines, List.mem_append, List.mem_singleton] at hline
  rcases hline with ((hline | rfl) | hline) | rfl
  · exact hfixed line (List.mem_append_left _ hline)
  · exact hfield _ (by decide) (by intro s h; cases h) hdial
  · exact hfixed line (List.mem_append_right _ hline)
  · exact hfield _ (by decide) (by intro s h; cases h)
      (isDialByte_itoa length)

/-- The text stands among the lines of the message as it is. -/
theorem linesOf_message (hdial : ∀ b ∈ destination, isDialByte b = true)
    (text : Bytes) :
    linesOf (makeSMSBMessage destination text)
      = envelopeLines destination (messagePart text).length
        ++ ascii "BEGIN:MSG"
          :: (linesOf text ++ ascii "END:MSG" :: tailLines) := by
  have hbegin : beginMsg = ascii "BEGIN:MSG" ++ [0x0a] := by decide
  have hend : endMsg ++ behindMsg
      = 0x0a :: (ascii "END:MSG" ++ 0x0a :: ascii
        "END:BBODY\nEND:BENV\nEND:BMSG\n") := by decide +kernel
  have hbehind : splitByte 0x0a (ascii "END:MSG" ++ 0x0a :: ascii
      "END:BBODY\nEND:BENV\nEND:BMSG\n")
      = ascii "END:MSG" :: tailLines := by decide +kernel
  have hstart : splitByte 0x0a (ascii "BEGIN:MSG") = [ascii "BEGIN:MSG"] :=
    by decide +kernel
  have hplain := envelopeLines_plain hdial (messagePart text).length
  unfold linesOf
  rw [normaliseLines_message hdial, envelope_eq,
    splitByte_lines fun line hline => (hplain line hline).1, hbegin,
    List.append_assoc, List.append_assoc, hend, List.singleton_append,
    splitByte_append, splitByte_append, hbehind, hstart]
  rfl

/-- The lines around the text stay outside the block, and the text is the
block unless one of its lines ends it. -/
theorem cutLines_message (hdial : ∀ b ∈ destination, isDialByte b = true) :
    cutLines (linesOf (makeSMSBMessage destination text))
        = (envelopeLines destination (messagePart text).length,
          linesOf text, tailLines)
      ↔ ascii "END:MSG" ∉ linesOf text := by
  have hfront : ∀ line ∈ envelopeLines destination
      (messagePart text).length, (line != ascii "BEGIN:MSG") = true := by
    intro line hline
    simpa using (envelopeLines_plain hdial _ line hline).2
  rw [linesOf_message hdial, cutLines,
    List.takeWhile_append_of_pos hfront, List.dropWhile_append_of_pos hfront,
    List.takeWhile_cons_of_neg (by simp), List.dropWhile_cons_of_neg (by simp),
    List.append_nil, List.tail_cons]
  constructor
  · intro h hmem
    simp only [Prod.mk.injEq] at h
    rw [← h.2.1] at hmem
    simpa using List.all_eq_true.mp List.all_takeWhile _ hmem
  · intro hfree
    have hblock : ∀ line ∈ linesOf text,
        (line != ascii "END:MSG") = true := by
      intro line hline
      simpa using fun heq : line = ascii "END:MSG" => hfree (heq ▸ hline)
    rw [List.takeWhile_append_of_pos hblock,
      List.dropWhile_append_of_pos hblock,
      List.takeWhile_cons_of_neg (by simp),
      List.dropWhile_cons_of_neg (by simp), List.append_nil,
      List.tail_cons]

-- == the whole message

/-- The text comes back from the message made of it, the message has the
same lines around every text, and the length it gives is right. -/
structure Survives (destination text : Bytes) : Prop where
  /-- What the parser gives back. -/
  body : (parseBMessage (makeSMSBMessage destination text)).body
    = trimSpace (normaliseLines text)
  /-- The block ends behind the text, and there are no other lines around
  it. -/
  lines : cutLines (linesOf (makeSMSBMessage destination text))
    = (envelopeLines destination (messagePart text).length, linesOf text,
      tailLines)
  /-- `LENGTH` counts the bytes from `BEGIN:MSG` up to `END:BBODY`. -/
  length : ∃ front digits, makeSMSBMessage destination text
      = front ++ ascii "LENGTH:" ++ digits ++ ascii "\r\n"
        ++ messagePart text ++ bmsgTail
    ∧ decimal digits = (messagePart text).length

/-- The field is right for every accepted text. -/
theorem length_field (destination : Bytes)
    (hlen : text.length ≤ maxOutboundText) :
    ∃ front digits, makeSMSBMessage destination text
        = front ++ ascii "LENGTH:" ++ digits ++ ascii "\r\n"
          ++ messagePart text ++ bmsgTail
      ∧ decimal digits = (messagePart text).length := by
  have hpart : (messagePart text).length < 10 ^ 20 := by
    have hb : (ascii "BEGIN:MSG\r\n").length = 11 := by decide
    have he : (ascii "\r\nEND:MSG\r\n").length = 11 := by decide
    simp only [messagePart, List.length_append, hb, he]
    simp only [maxOutboundText] at hlen
    omega
  refine ⟨bmsgHead ++ destination
    ++ ascii "\r\nEND:VCARD\r\nBEGIN:BBODY\r\nCHARSET:UTF-8\r\n",
    itoa (messagePart text).length, ?_, decimal_itoa hpart⟩
  have hmiddle : bmsgMiddle
      = ascii "\r\nEND:VCARD\r\nBEGIN:BBODY\r\nCHARSET:UTF-8\r\n"
        ++ ascii "LENGTH:" := by decide
  simp only [makeSMSBMessage, hmiddle, List.append_assoc]

/-- What `enqueue` accepts. -/
theorem outboundItem_eq_ok {value accepted : Bytes}
    (h : outboundItem value text = .ok (destination, accepted)) :
    normalizeDestination value = .ok destination ∧ accepted = text
      ∧ trimSpace text ≠ [] ∧ text.length ≤ maxOutboundText := by
  rw [outboundItem] at h
  cases hdest : normalizeDestination value with
  | error e =>
    rw [hdest] at h
    cases h
  | ok d =>
    simp only [hdest] at h
    split at h
    case isTrue => cases h
    case isFalse hgood =>
      rw [not_or, Nat.not_lt] at hgood
      cases h
      exact ⟨rfl, rfl, hgood⟩

/-- An accepted text survives exactly if no line of it is `END:MSG` and
none but the first begins with `END:MSG`. -/
theorem text_survives_iff (value text destination accepted : Bytes)
    (haccept : outboundItem value text = .ok (destination, accepted)) :
    Survives destination accepted
      ↔ ascii "END:MSG" ∉ linesOf accepted
        ∧ ∀ line ∈ (linesOf accepted).tail, ¬ ascii "END:MSG" <+: line := by
  obtain ⟨hdest, rfl, htrim, hlen⟩ := outboundItem_eq_ok haccept
  have hdial := isDialByte_normalizeDestination hdest
  have hmarker : endMsg <:+: normaliseLines accepted
      ↔ ∃ line ∈ (linesOf accepted).tail, ascii "END:MSG" <+: line :=
    infix_iff_line (by decide)
  constructor
  · intro hsurvives
    refine ⟨(cutLines_message hdial).mp hsurvives.lines, ?_⟩
    intro line hline hstarts
    obtain ⟨pre, post, htext⟩ := hmarker.mpr ⟨line, hline, hstarts⟩
    exact body_loses hdial htext.symm hsurvives.body
  · rintro ⟨hfree, hlines⟩
    have hblock := extractBlock_eq_text hdial fun hinfix => by
      obtain ⟨line, hline, hstarts⟩ := hmarker.mp hinfix
      exact hlines line hline hstarts
    have hne : normaliseLines accepted ≠ [] := by
      refine normaliseLines_ne_nil ?_
      rintro rfl
      exact htrim rfl
    refine ⟨?_, (cutLines_message hdial).mpr hfree,
      length_field destination hlen⟩
    rw [body_parseBMessage]
    simp only [hblock]
    rw [if_neg hne]

/-- A text of one line, with white space around it. -/
theorem text_survives_hello :
    outboundItem (ascii "010-1234-5678") (ascii " hello\r\n")
        = .ok (ascii "+821012345678", ascii " hello\r\n")
      ∧ Survives (ascii "+821012345678") (ascii " hello\r\n") := by
  have haccept : outboundItem (ascii "010-1234-5678") (ascii " hello\r\n")
      = .ok (ascii "+821012345678", ascii " hello\r\n") := by
    decide +kernel
  refine ⟨haccept, (text_survives_iff _ _ _ _ haccept).mpr ?_⟩
  decide +kernel

/-- A text that ends the message by itself in its first lines. -/
def endingText : Bytes :=
  ascii "END:MSG\r\nEND:BBODY\r\nEND:BENV\r\nEND:BMSG\r\nx"

/-- Of a text with a line `END:MSG` only what stands before it is read
back; where that line is the first the text is read back whole, and yet
the block of the message is empty and a second end of the message stands
behind the first. -/
theorem end_line_cuts_text :
    outboundItem (ascii "01012345678") (ascii "a\nEND:MSG\nb")
        = .ok (ascii "+821012345678", ascii "a\nEND:MSG\nb")
      ∧ (parseBMessage (makeSMSBMessage (ascii "+821012345678")
          (ascii "a\nEND:MSG\nb"))).body = ascii "a"
      ∧ trimSpace (normaliseLines (ascii "a\nEND:MSG\nb"))
        = ascii "a\nEND:MSG\nb"
      ∧ ¬ Survives (ascii "+821012345678") (ascii "a\nEND:MSG\nb")
      ∧ outboundItem (ascii "01012345678") endingText
        = .ok (ascii "+821012345678", endingText)
      ∧ (cutLines (linesOf (makeSMSBMessage (ascii "+821012345678")
          endingText))).2
        = ([], tailLines.dropLast ++ [ascii "x", ascii "END:MSG"]
          ++ tailLines)
      ∧ ¬ Survives (ascii "+821012345678") endingText := by
  have hbody : (parseBMessage (makeSMSBMessage (ascii "+821012345678")
      (ascii "a\nEND:MSG\nb"))).body = ascii "a" := by decide +kernel
  have htext : trimSpace (normaliseLines (ascii "a\nEND:MSG\nb"))
      = ascii "a\nEND:MSG\nb" := by decide +kernel
  have hcut : (cutLines (linesOf (makeSMSBMessage (ascii "+821012345678")
      endingText))).2 = ([], tailLines.dropLast
        ++ [ascii "x", ascii "END:MSG"] ++ tailLines) := by decide +kernel
  refine ⟨by decide +kernel, hbody, htext, ?_, by decide +kernel, hcut, ?_⟩
  · intro hsurvives
    have hall := hsurvives.body
    rw [hbody, htext] at hall
    revert hall
    decide
  · intro hsurvives
    have hall := congrArg Prod.snd hsurvives.lines
    revert hall
    decide +kernel

end Callbridge.Message
