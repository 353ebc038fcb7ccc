/-
No message injects into the AMI client or is refused by it.

Recipients, senders, the parts of a text, signals and identifiers each
keep what `SendMessage` checks, for whatever bytes they are made from, and
every attempt is the next send of a list that was planned for the message
(`Follows.attempted`). What is put into a line of the action then holds no
carriage return, so splitting the action gives its lines back.
-/
import Callbridge.Config.Recipients
import Callbridge.Bridge.Proofs.Deliveries
import Callbridge.Bridge.Proofs.InboundOnce

namespace Callbridge.Bridge

open Lib State Message Media
open Callbridge.Config (Dialable dialable_recipients recipients)

variable {cfg : Config} {b b' : Service} {a : ServiceAct}
  {es : List ServiceEvent} {sender : Bytes} {clean : Bytes}
  {signals : List Signals} {t : Task} {m : Prepared}

-- == senders

/-- Digits, with a plus sign in front of them or not. -/
def SenderShape (sender : Bytes) : Prop :=
  ∃ plus digits, sender = plus ++ digits ∧ (plus = [] ∨ plus = [0x2b])
    ∧ digits ≠ [] ∧ ∀ b ∈ digits, isDigit b = true

/-- Whatever the sender was, what is sent of it is tame. -/
theorem senderShape_normalizeSender (value : Bytes) :
    SenderShape (normalizeSender value) := by
  unfold normalizeSender
  generalize trimSpace value = raw
  simp only []
  have hdigits : ∀ b ∈ raw.filter isDigit, isDigit b = true :=
    fun b hb => (List.mem_filter.mp hb).2
  generalize raw.filter isDigit = digits at hdigits ⊢
  by_cases hshort : digits.length < 3
  · rw [if_pos hshort]
    exact ⟨[], _, rfl, Or.inl rfl, by decide,
      List.all_eq_true.mp (by decide)⟩
  · have hne : digits ≠ [] := by
      rintro rfl
      exact hshort (by decide)
    have hcode : ∀ b ∈ ([0x38, 0x32] : Bytes), isDigit b = true :=
      List.all_eq_true.mp (by decide)
    rw [if_neg hshort]
    split
    · exact ⟨[0x2b], digits, rfl, Or.inr rfl, hne, hdigits⟩
    split
    · refine ⟨[0x2b], [0x38, 0x32] ++ digits.drop 1, rfl, Or.inr rfl,
        by simp, ?_⟩
      intro b hb
      rcases List.mem_append.mp hb with hb | hb
      · exact hcode b hb
      · exact hdigits b (List.mem_of_mem_drop hb)
    split
    · exact ⟨[0x2b], digits, rfl, Or.inr rfl, hne, hdigits⟩
    · exact ⟨[], digits, rfl, Or.inl rfl, hne, hdigits⟩

theorem SenderShape.visible (h : SenderShape sender) :
    ∀ b ∈ sender, visible b = true := by
  obtain ⟨plus, digits, rfl, hplus, -, hdigits⟩ := h
  intro b hb
  rcases List.mem_append.mp hb with hb | hb
  · rcases hplus with rfl | rfl
    · cases hb
    · rw [List.mem_singleton.mp hb]
      decide
  · exact visible_of_digit (hdigits b hb)

theorem SenderShape.ne_nil (h : SenderShape sender) : sender ≠ [] := by
  obtain ⟨plus, digits, rfl, -, hne, -⟩ := h
  intro hnil
  exact hne (List.append_eq_nil_iff.mp hnil).2

-- == attempts

theorem SenderShape.of_message {story : Story} {parsed : Parsed}
    {m : Prepared} (h : story.message cfg = some (parsed, m)) :
    SenderShape m.sender := by
  simp only [Story.message, Option.bind_eq_some_iff, Option.map_eq_some_iff,
    Prod.mk.injEq] at h
  obtain ⟨event, -, f, -, p, -, -, rfl⟩ := h
  exact senderShape_normalizeSender p.senderNumber

/-- What is sent next is of the list, to a recipient. -/
theorem Follows.next {story : Story} {t : Task} {recipient : Bytes}
    {d : SipDelivery} {more : List SipDelivery}
    {rest : List (Bytes × List SipDelivery)}
    (h : Follows cfg story
      (.delivering t sender ((recipient, d :: more) :: rest))) :
    recipient ∈ cfg.recipients ∧ Sendable d.body ∧ SenderShape sender := by
  obtain ⟨⟨-, parsed, m, hmessage, -, rfl, hcomplete⟩, earlier, r, later,
    served, front, back, hrecipients, -, hrest, hplan, -⟩ := h
  cases hrest
  refine ⟨?_, hcomplete.bodies d ?_, SenderShape.of_message hmessage⟩
  · rw [hrecipients]
    exact List.mem_append_right _ List.mem_cons_self
  · rw [hplan]
    exact List.mem_append_right _ List.mem_cons_self

/-- Every attempt of a step is the send that was next. -/
theorem Follows.attempted {story : Story} {a : InboundAct} {call : Nat}
    {handle recipient : Bytes} {delivery : SipDelivery}
    (h : Follows cfg story b.job)
    (hstep : inboundStep cfg b a = some (b', es))
    (hmem : .attempted call handle recipient sender delivery ∈ es) :
    recipient ∈ cfg.recipients ∧ Sendable delivery.body
      ∧ SenderShape sender := by
  obtain ⟨a', hservice⟩ : ∃ a', serviceStep cfg b a' = some (b', es) := by
    cases a with
    | upload descriptor now =>
      simp only [inboundStep] at hstep
      split at hstep
      · exact ⟨_, hstep⟩
      · cases hstep
    | other a =>
      cases a with
      | upload _ _ => cases hstep
      | _ => exact ⟨_, hstep⟩
  obtain ⟨-, _, he⟩ | ⟨_, -, he⟩ | ⟨_, hsending, -⟩ :=
    (ServiceMove.of_step hservice).ofCall hmem trivial
  · cases he
  · cases he
  cases JobMove.of_step hservice with
  | aside _ _ hes => exact absurd trivial (hes _ hmem)
  | send hjob hround =>
    rw [hjob] at h
    obtain ⟨-, rfl⟩ := hround
    rcases List.mem_cons.mp hmem with heq | hmem
    · cases heq
      exact h.next
    · rcases deliver_cases _ _ _ with hdone | ⟨rest', hgo⟩
      · rw [hdone] at hmem
        cases List.mem_singleton.mp hmem
      · rw [hgo] at hmem
        cases hmem
  | head _ hjob _ | fetch hjob _ | upload hjob _ | mark _ hjob _ =>
    rw [hjob] at hsending
    cases hsending

-- == the action

/-- A header value that `SendMessage` takes, and that ends no line. -/
structure HeaderValue (value : Bytes) : Prop where
  nonempty : value ≠ []
  visible : ∀ b ∈ value, visible b = true

theorem headerValue_digestID (sha256 : Bytes → Bytes) {head : String}
    (hhead : HeaderValue (ascii head)) (tag : String)
    (handle recipient : Bytes) (index : Nat) :
    HeaderValue (digestID sha256 head tag handle recipient index) := by
  constructor
  · intro hnil
    exact hhead.nonempty (List.append_eq_nil_iff.mp hnil).1
  · intro b hb
    rcases List.mem_append.mp hb with hb | hb
    · exact hhead.visible b hb
    · exact visible_hexEncode _ b hb

/-- Identifiers are digits and letters. -/
theorem headerValue_actionID (sha256 : Bytes → Bytes)
    (handle recipient : Bytes) (textIndex : Nat) (delivery : SipDelivery) :
    HeaderValue (delivery.actionID sha256 handle recipient textIndex) := by
  have hmedia : HeaderValue (ascii "mmsv1-") :=
    ⟨by decide, List.all_eq_true.mp (by decide)⟩
  have htext : HeaderValue (ascii "smsv3-") :=
    ⟨by decide, List.all_eq_true.mp (by decide)⟩
  unfold SipDelivery.actionID
  split
  · exact headerValue_digestID sha256 hmedia _ _ _ _
  · exact headerValue_digestID sha256 htext _ _ _ _

theorem HeaderValue.accepted {value : Bytes} (h : HeaderValue value) :
    Ami.refusedValue value = false := by
  rw [Ami.refusedValue, Bool.or_eq_false_iff, beq_eq_false_iff_ne]
  refine ⟨h.nonempty, ?_⟩
  rw [List.any_eq_false]
  intro b hb hbad
  have hvis := h.visible b hb
  simp only [List.contains_eq_mem, decide_eq_true_eq, List.mem_cons,
    List.not_mem_nil, or_false] at hbad
  rcases hbad with rfl | rfl | rfl <;> cases hvis

/-- A carriage return is not visible. -/
theorem not_mem_of_visible {s : Bytes} (h : ∀ b ∈ s, visible b = true) :
    (0x0d : UInt8) ∉ s := by
  intro hmem
  cases h 0x0d hmem

theorem contentType_cases (delivery : SipDelivery) :
    delivery.contentType = Ami.textPlain
      ∨ delivery.contentType = Ami.fileTransfer := by
  unfold SipDelivery.contentType
  split
  · exact Or.inr rfl
  · exact Or.inl rfl

-- == runs

/-- The send passes every check of `SendMessage`, and what it writes is
the six lines of the action and the empty one that ends it. -/
structure WellSent (recipient sender body contentType actionID : Bytes) :
    Prop where
  accepted : Ami.sendMessage recipient sender body contentType actionID
    = .ok (Ami.messageSend recipient sender body contentType actionID)
  lines : split Ami.crlf
      (Ami.messageSend recipient sender body contentType actionID)
    = Ami.actionLines recipient sender body contentType actionID
      ++ [[], []]
  sender : SenderShape sender

section Sending

variable {recipient body contentType actionID : Bytes}
  (hrecipient : Dialable recipient) (hsender : SenderShape sender)
  (htype : contentType = Ami.textPlain ∨ contentType = Ami.fileTransfer)
  (hid : HeaderValue actionID)
include hrecipient hsender htype hid

/-- What keeps the shapes passes every check. -/
theorem sendMessage_accepts (hbody : Sendable body) :
    Ami.sendMessage recipient sender body contentType actionID
      = .ok (Ami.messageSend recipient sender body contentType actionID) := by
  have hinput : ¬ (Ami.digits recipient = false ∨ 32 < recipient.length
      ∨ body = [] ∨ maxBodyBytes < body.length) := by
    rintro (h | h | h | h)
    · have hdigits : recipient.all isDigit = true :=
        hrecipient.digits
      rw [Ami.digits, hdigits, Bool.and_true, bne_eq_false_iff_eq] at h
      exact hrecipient.nonempty h
    · exact absurd hrecipient.length (Nat.not_le.mpr h)
    · exact hbody.nonempty h
    · exact absurd hbody.length (Nat.not_le.mpr h)
  have hkind : ¬ (contentType ≠ Ami.textPlain
      ∧ contentType ≠ Ami.fileTransfer) := by
    rintro ⟨h₁, h₂⟩
    rcases htype with h | h
    · exact h₁ h
    · exact h₂ h
  have hvalues : [sender, actionID].any Ami.refusedValue = false := by
    have hsend : HeaderValue sender := ⟨hsender.ne_nil, hsender.visible⟩
    simp [hsend.accepted, hid.accepted]
  rw [Ami.sendMessage, if_neg hinput, if_neg hkind, hvalues]
  rfl

/-- No line of the action holds a carriage return: what is put into it is
visible characters. -/
theorem cr_not_mem_actionLines (body : Bytes) :
    ∀ line ∈ Ami.actionLines recipient sender body contentType actionID,
      (0x0d : UInt8) ∉ line := by
  have hjoin : ∀ {x y : Bytes}, (0x0d : UInt8) ∉ x → (0x0d : UInt8) ∉ y →
      (0x0d : UInt8) ∉ x ++ y := by
    intro x y hx hy hmem
    rcases List.mem_append.mp hmem with hmem | hmem
    · exact hx hmem
    · exact hy hmem
  intro line hline
  simp only [Ami.actionLines, List.mem_cons, List.not_mem_nil,
    or_false] at hline
  rcases hline with rfl | rfl | rfl | rfl | rfl | rfl
  · decide
  · refine hjoin (by decide) (not_mem_of_visible ?_)
    intro b hb
    exact visible_of_digit (List.all_eq_true.mp hrecipient.digits b hb)
  · exact hjoin (hjoin (by decide)
      (not_mem_of_visible hsender.visible)) (by decide)
  · exact hjoin (by decide)
      (not_mem_of_visible (visible_base64Encode body))
  · refine hjoin (by decide) ?_
    rcases htype with rfl | rfl <;> decide
  · exact hjoin (by decide) (not_mem_of_visible hid.visible)

/-- An accepted action is read as the lines it was made of. -/
theorem wellSent (hbody : Sendable body) :
    WellSent recipient sender body contentType actionID := by
  refine ⟨sendMessage_accepts hrecipient hsender htype hid hbody, ?_,
    hsender⟩
  have hfree : ∀ line ∈ Ami.actionLines recipient sender body contentType
      actionID ++ [[]], (0x0d : UInt8) ∉ line := by
    intro line hline
    rcases List.mem_append.mp hline with hline | hline
    · exact cr_not_mem_actionLines hrecipient hsender htype hid body line
        hline
    · rw [List.mem_singleton.mp hline]
      decide
  rw [Ami.messageSend_eq, show Ami.crlf = 0x0d :: [0x0a] from rfl,
    split_lines [0x0a] hfree, List.append_assoc]
  rfl

end Sending

/-- In every run of the service, over any state file and with any
recipients that the configuration takes: whatever is fetched, whatever the
uploads return, every `SendMessage` call passes the checks of its own
arguments and writes the lines of one action to its recipient. -/
theorem every_send_well_formed (raw : Bytes) (cfg : Config)
    (hrecipients : recipients raw = .ok cfg.recipients) (disk : Disk)
    {tr : List (Trans Service InboundAct ServiceEvent)} {b : Service}
    (hrun : Exec (inboundStep cfg) (newService disk) tr b) :
    ∀ t ∈ tr, ∀ call handle recipient sender delivery,
      .attempted call handle recipient sender delivery ∈ t.out →
      ∀ textIndex, WellSent recipient sender delivery.body
        delivery.contentType
        (delivery.actionID cfg.sha256 handle recipient textIndex) := by
  intro t ht call handle recipient sender delivery hattempt textIndex
  obtain ⟨before, after, -, hbefore, hstep, -⟩ := hrun.of_mem ht
  obtain ⟨hmem, hbody, hsender⟩ :=
    (follows_run hbefore).attempted hstep hattempt
  exact wellSent (dialable_recipients hrecipients recipient hmem) hsender
    (contentType_cases delivery) (headerValue_actionID _ _ _ _ _) hbody

/-- The default recipient, and a text that looks like an action. -/
def defaultConfig : Config :=
  ⟨[ascii "1002"], ⟨fun _ => none, fun _ => none⟩, fun _ => []⟩

def injectingText : Bytes := ascii "x\r\n\r\nAction: Logoff\r\n\r\n"

/-- A text that imitates the lines of an action. -/
theorem every_send_well_formed_injection :
    recipients (ascii "1001, 1002") = .ok defaultConfig.recipients
      ∧ ∃ tr b, Exec (inboundStep defaultConfig) (newService .absent) tr b
        ∧ ∃ t ∈ tr, .attempted 0 (ascii "1F") (ascii "1002")
            (ascii "+821012345678") ⟨injectingText, none⟩ ∈ t.out
          ∧ WellSent (ascii "1002") (ascii "+821012345678") injectingText
            (ascii "text/plain") (deliveryActionID defaultConfig.sha256
              (ascii "1F") (ascii "1002") 0) := by
  have hrecipients : recipients (ascii "1001, 1002")
      = .ok defaultConfig.recipients := by decide +kernel
  obtain ⟨tr, b, hrun, t, ht, hattempt⟩ :=
    exec_of_decide (inboundStep defaultConfig) (newService .absent)
      [.other (.start noLegacy none),
        .other (.processEvent ⟨true, ascii "1F", inbox, false, []⟩ 0),
        .other (.fetch (.fetched ⟨⟨injectingText, 0,
          ascii "010-1234-5678\r\nFrom: x"⟩, none, injectingText⟩)),
        .other (.markSeen none), .other (.sendMessage true)]
      (fun tr _ => ∃ t ∈ tr, .attempted 0 (ascii "1F")
        (ascii "1002") (ascii "+821012345678") ⟨injectingText, none⟩
          ∈ t.out) (by decide +kernel)
  exact ⟨hrecipients, tr, b, hrun, t, ht, hattempt,
    every_send_well_formed _ defaultConfig hrecipients .absent hrun t ht _ _
      _ _ _ hattempt 0⟩

end Callbridge.Bridge
