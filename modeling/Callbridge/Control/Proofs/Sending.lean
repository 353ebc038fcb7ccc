/-
What sending does, said once. Of a list of messages those that are valid
are written in order, up to the first that cannot be, which loses the
client (`Delivers`); and a client reads off the packets the messages they
were made from.
-/
import Callbridge.Control.Proofs.Snapshots
import Callbridge.Control.Relay

namespace Callbridge.Control

open Lib Protocol Gtbs

-- == delivery

/-- The packets of these messages, written to the client. -/
def sentTo (client : ClientId) (ms : List Message) : List ServerEvent :=
  ms.map fun m => .sent client m.packet

/-- Sending `ms` takes the server from `s` to `s'` and lets out `es`. -/
inductive Delivers (s : Server) (ms : List Message) :
    Server → List ServerEvent → Prop
  | nobody : s.client = none → Delivers s ms s []
  | whole {client : ClientId} : s.client = some client →
      Delivers s ms s (sentTo client ms)
  | lost {client : ClientId} (front : List Message) {rest : List Message} :
      s.client = some client → ms = front ++ rest →
      Delivers s ms s.closeClientLocked (sentTo client front)

/-- The messages that encode. -/
def encodable (ms : List Message) : List Message :=
  ms.filter fun m => (validate m).isNone

theorem encodable_eq {ms : List Message} (h : ∀ m ∈ ms, validate m = none) :
    encodable ms = ms := by
  refine List.filter_eq_self.mpr fun m hm => ?_
  rw [h m hm]
  rfl

/-- One message, to a client that is there. -/
theorem sendMessageLocked_eq {s : Server} {client : ClientId} (m : Message)
    (ok : Bool) (hc : s.client = some client) :
    s.sendMessageLocked m ok
      = if validate m ≠ none then (s, [])
        else if ok then (s, [.sent client m.packet])
        else (s.closeClientLocked, []) := by
  unfold Server.sendMessageLocked Message.encode
  rw [hc]
  cases validate m with
  | some e | none => rfl

/-- The loop on its first message, to a client that is there. -/
theorem sendMessagesLocked_cons {s : Server} {client : ClientId}
    (m : Message) (rest : List Message) (oks : List Bool)
    (hc : s.client = some client) :
    s.sendMessagesLocked (m :: rest) oks
      = if validate m ≠ none then s.sendMessagesLocked rest oks.tail
        else if oks.headD true then
          ((s.sendMessagesLocked rest oks.tail).1,
            .sent client m.packet :: (s.sendMessagesLocked rest oks.tail).2)
        else (s.closeClientLocked, []) := by
  rw [Server.sendMessagesLocked, sendMessageLocked_eq m _ hc]
  split
  case isTrue => simp [hc]
  case isFalse =>
    split
    case isTrue => simp [hc]
    case isFalse => simp [Server.closeClientLocked]

/-- What `sendMessagesLocked` does, whichever packets are written. The
induction is on the messages: one that does not encode is passed over, one
that is not written ends the loop. -/
theorem sendMessagesLocked_delivers (s : Server) (ms : List Message) :
    ∀ oks, Delivers s (encodable ms) (s.sendMessagesLocked ms oks).1
      (s.sendMessagesLocked ms oks).2 := by
  cases hc : s.client with
  | none =>
    intro oks
    have hnone : s.sendMessagesLocked ms oks = (s, []) := by
      cases ms with
      | nil => rfl
      | cons m rest =>
        simp [Server.sendMessagesLocked, Server.sendMessageLocked, hc]
    rw [hnone]
    exact .nobody hc
  | some client =>
    induction ms with
    | nil =>
      intro oks
      exact .whole hc
    | cons m rest ih =>
      intro oks
      have hrest := ih oks.tail
      rw [sendMessagesLocked_cons m rest oks hc]
      cases hv : validate m with
      | some e =>
        -- what does not encode is skipped
        have hskip : encodable (m :: rest) = encodable rest := by
          simp [encodable, hv]
        rw [if_pos nofun, hskip]
        exact hrest
      | none =>
        have htake : encodable (m :: rest) = m :: encodable rest := by
          simp [encodable, hv]
        rw [if_neg (by simp), htake]
        split
        case isFalse =>
          -- a failed send drops the client and the rest
          exact .lost [] hc rfl
        case isTrue =>
          generalize s.sendMessagesLocked rest oks.tail = out at hrest
          obtain ⟨s', es⟩ := out
          cases hrest with
          | nobody h =>
            rw [hc] at h
            cases h
          | whole h =>
            rw [hc] at h
            cases h
            exact .whole hc
          | lost front h he =>
            rw [hc] at h
            cases h
            exact .lost (m :: front) hc
              (by rw [he]; rfl)

-- == reading

/-- A message of a server's own: valid, and for its device. -/
structure Own (device : Bytes) (m : Message) : Prop where
  valid : validate m = none
  device_eq : m.device = device

variable {device : Bytes}

theorem received_append (client : ClientId) (es es' : List ServerEvent) :
    received client (es ++ es')
      = received client es ++ received client es' :=
  List.filterMap_append

/-- A client reads the messages its packets were made from. -/
theorem received_sentTo (hd : Canonical device) {ms : List Message}
    (hown : ∀ m ∈ ms, Own device m) (client c : ClientId) :
    received client (sentTo c ms) = if c = client then ms else [] := by
  unfold received sentTo
  rw [List.filterMap_map]
  split
  case isTrue hc =>
    have hread : ∀ m ∈ ms,
        (readBy client ∘ fun m : Message => .sent c m.packet) m
          = some m := by
      intro m hm
      have hfixed : normalizedDevice m.device = m.device := by
        rw [(hown m hm).device_eq]
        exact hd.fixed
      show readBy client (.sent c m.packet) = some m
      rw [readBy, if_pos hc, decode_packet hfixed (hown m hm).valid]
    rw [List.filterMap_congr hread]
    exact List.filterMap_some
  case isFalse hc =>
    rw [List.filterMap_eq_nil_iff]
    intro m _
    show readBy client (.sent c m.packet) = none
    rw [readBy, if_neg hc]

section Delivery

variable {s s' : Server} {ms : List Message} {es : List ServerEvent}
  {client : ClientId}

/-- A delivery moves nothing of the server but the client, and that only
by losing it. -/
theorem Delivers.frame (h : Delivers s ms s' es) :
    s'.device = s.device ∧ s'.ready = s.ready
      ∧ ∀ client, s'.client = some client → s.client = some client := by
  cases h with
  | nobody _ | whole _ => exact ⟨rfl, rfl, fun _ => id⟩
  | lost _ _ _ => exact ⟨rfl, rfl, nofun⟩

/-- Nobody but the connected client is sent anything. -/
theorem Delivers.sent (h : Delivers s ms s' es) {packet : Bytes}
    (hmem : ServerEvent.sent client packet ∈ es) :
    s.client = some client := by
  cases h with
  | nobody _ => cases hmem
  | whole hc | lost _ hc _ =>
    obtain ⟨m, -, he⟩ := List.mem_map.mp hmem
    cases he
    exact hc

theorem Delivers.others (h : Delivers s ms s' es)
    (hne : s.client ≠ some client) : received client es = [] := by
  unfold received
  rw [List.filterMap_eq_nil_iff]
  intro e he
  rw [readBy, if_neg]
  rintro rfl
  exact hne (h.sent he)

/-- The connected client gets the messages, or a first part of them with
which it is lost. -/
theorem Delivers.connected (h : Delivers s ms s' es) (hd : Canonical device)
    (hown : ∀ m ∈ ms, Own device m) (hc : s.client = some client) :
    (s'.client = some client ∧ received client es = ms)
      ∨ s'.client = none ∧ received client es <+: ms := by
  cases h with
  | nobody h =>
    rw [hc] at h
    cases h
  | whole h =>
    rw [hc] at h
    cases h
    refine Or.inl ⟨hc, ?_⟩
    rw [received_sentTo hd hown, if_pos rfl]
  | lost front h he =>
    rw [hc] at h
    cases h
    refine Or.inr ⟨rfl, ?_⟩
    rw [received_sentTo hd (fun m hm =>
      hown m (he ▸ List.mem_append_left _ hm)), if_pos rfl, he]
    exact List.prefix_append _ _

end Delivery

end Callbridge.Control
