/-
What a message becomes, and what each recipient gets of it.

`processEvent` builds one list for a message and sends it to every
recipient: a signal for each attachment, and the text, which is the
caption of the first signal if that fits and follows in parts if not.

`Story` folds out of the trace what a call was told and did, and `Follows`
ties it to where the goroutine stands: the list about to be marked is
`Planned`, and while it is sent, the recipients before the present one
have had theirs (`Served`) and the present one the front of it
(`Sending`).
-/
import Callbridge.Bridge.Inbound
import Callbridge.Bridge.Proofs.ServiceMoves
import Callbridge.Message.Proofs.Lossless

namespace Callbridge.Bridge

open Lib State Message Media

variable {cfg : Config} {b b' : Service} {es : List ServiceEvent} {t : Task}
  {sender recipient : Bytes} {plan : List SipDelivery}
  {recipients : List Bytes}

-- == the text

/-- A body that `SendMessage` takes. -/
structure Sendable (body : Bytes) : Prop where
  nonempty : body ≠ []
  length : body.length ≤ maxBodyBytes

section Text

variable (parsers : TimeParsers) {text : Bytes} (htext : text ≠ [])
  (dateTime : Bytes)
include htext

/-- Every part can be sent. -/
theorem sendable_visibleParts :
    ∀ part ∈ visibleParts parsers text dateTime, Sendable part := by
  intro part hpart
  have hprefixed : ∀ received chunks,
      part ∈ prefixed received chunks → part ≠ [] := by
    intro received chunks hmem
    obtain ⟨i, hi, rfl⟩ := List.mem_mapIdx.mp hmem
    simp
  constructor
  · unfold visibleParts visiblePartsAt at hpart
    split at hpart
    · rw [List.mem_singleton.mp hpart]
      intro hnil
      exact htext (List.append_eq_nil_iff.mp hnil).2
    split at hpart <;> exact hprefixed _ _ hpart
  · have hle := length_part_le _ _ part hpart
    unfold maxSIPPartBytes at hle
    unfold maxBodyBytes
    omega

/-- A text has a part at least. -/
theorem visibleParts_ne_nil : visibleParts parsers text dateTime ≠ [] := by
  unfold visibleParts visiblePartsAt
  split
  · exact List.cons_ne_nil _ _
  intro hnil
  split at hnil
  case h_1 chunks hchunks =>
    have hsplit := searchTotal_some hchunks
    rw [List.mapIdx_eq_nil_iff.mp hnil] at hsplit
    cases text with
    | nil => exact htext rfl
    | cons b s => cases hsplit
  case h_2 =>
    have hsplit := List.mapIdx_eq_nil_iff.mp hnil
    rw [splitUTF8_eq] at hsplit
    split at hsplit
    · cases hsplit
    · cases hrunes : runes text with
      | nil => exact runes_ne_nil htext hrunes
      | cons r rs =>
        rw [hrunes] at hsplit
        cases hsplit

end Text

-- == the list

/-- The signals of the attachments from an index on, in order: the caption
is in the first and in no other. -/
def captioned (caption : Bytes) : Nat → List Descriptor → List SipDelivery
  | _, [] => []
  | index, d :: ds =>
      ⟨marshalSignal caption d, some index⟩ :: captioned [] (index + 1) ds

/-- The signal of the attachment cannot be sent. -/
def Oversize (d : Descriptor) : Prop :=
  maxBodyBytes < (marshalSignal [] d).length

/-- A list with a signal for each attachment, in order, and the text once:
as the caption of the first signal, or in parts behind the signals. -/
structure Complete (text : Bytes) (parts : List Bytes)
    (ds : List Descriptor) (plan : List SipDelivery) : Prop where
  once : (text ≠ [] ∧ ds ≠ [] ∧ plan = captioned text 0 ds)
    ∨ plan = captioned [] 0 ds ++ parts.map fun part => ⟨part, none⟩
  bodies : ∀ d ∈ plan, Sendable d.body

/-- A signal is too long, or fits and can be sent. -/
theorem fitting_cases (caption : Bytes) (d : Descriptor) :
    (fitting (some (marshalSignal caption d)) = none
        ∧ maxBodyBytes < (marshalSignal caption d).length)
      ∨ (fitting (some (marshalSignal caption d))
          = some (marshalSignal caption d)
        ∧ Sendable (marshalSignal caption d)) := by
  by_cases hfits : (marshalSignal caption d).length ≤ maxBodyBytes
  · exact Or.inr ⟨Option.filter_eq_some_iff.mpr ⟨rfl, decide_eq_true hfits⟩,
      marshalSignal_ne_nil caption d, hfits⟩
  · exact Or.inl ⟨by simp [fitting, Option.filter, hfits],
      Nat.lt_of_not_le hfits⟩

/-- The signal of one attachment: none that can be sent, or one without the
text, or the first with it. -/
theorem signalFor_cases (clean : Bytes) (index : Nat) (d : Descriptor) :
    (signalFor clean index (signalsOf clean d) = none ∧ Oversize d)
      ∨ ∃ caption, (caption = [] ∨ (index = 0 ∧ caption = clean))
        ∧ signalFor clean index (signalsOf clean d)
          = some (marshalSignal caption d, caption != [])
        ∧ Sendable (marshalSignal caption d) := by
  have hbare := fitting_cases [] d
  unfold signalFor signalsOf
  by_cases hfirst : index = 0 ∧ clean ≠ []
  · rw [if_pos hfirst]
    rcases fitting_cases clean d with ⟨hnone, -⟩ | ⟨hfits, hsend⟩
    · rw [hnone]
      rcases hbare with ⟨hnone', hover⟩ | ⟨hfits, hsend⟩
      · exact Or.inl ⟨by rw [hnone']; rfl, hover⟩
      · exact Or.inr ⟨[], Or.inl rfl, by rw [hfits]; rfl, hsend⟩
    · refine Or.inr ⟨clean, Or.inr ⟨hfirst.1, rfl⟩, ?_, hsend⟩
      rw [hfits, bne_iff_ne.mpr hfirst.2]
  · rw [if_neg hfirst]
    rcases hbare with ⟨hnone, hover⟩ | ⟨hfits, hsend⟩
    · exact Or.inl ⟨by rw [hnone]; rfl, hover⟩
    · exact Or.inr ⟨[], Or.inl rfl, by rw [hfits]; rfl, hsend⟩

/-- What the loop over the descriptors makes of them. Only at index 0 may
it use a caption, so the tail of the list has none. -/
theorem signalDeliveries_cases (clean : Bytes) (index : Nat)
    (ds : List Descriptor) :
    (signalDeliveries clean index (ds.map (signalsOf clean)) = none
        ∧ ∃ d ∈ ds, Oversize d)
      ∨ ∃ caption,
        (caption = [] ∨ (index = 0 ∧ ds ≠ [] ∧ caption = clean))
        ∧ signalDeliveries clean index (ds.map (signalsOf clean))
          = some (captioned caption index ds, caption != [])
        ∧ ∀ d ∈ captioned caption index ds, Sendable d.body := by
  induction ds generalizing index with
  | nil => exact Or.inr ⟨[], Or.inl rfl, rfl, by simp [captioned]⟩
  | cons d ds ih =>
    rw [List.map_cons, signalDeliveries]
    rcases signalFor_cases clean index d with
      ⟨hnone, hover⟩ | ⟨caption, hcaption, hsome, hsend⟩
    · exact Or.inl ⟨by rw [hnone], d, List.mem_cons_self, hover⟩
    rcases ih (index + 1) with
      ⟨hnone, d', hd', hover⟩ | ⟨caption', hcaption', hrest, hall⟩
    · exact Or.inl ⟨by rw [hsome, hnone], d', List.mem_cons_of_mem _ hd',
        hover⟩
    obtain rfl : caption' = [] :=
      hcaption'.resolve_right fun h => Nat.succ_ne_zero index h.1
    refine Or.inr ⟨caption, ?_, ?_, ?_⟩
    · exact hcaption.imp_right fun h => ⟨h.1, List.cons_ne_nil _ _, h.2⟩
    · rw [hsome, hrest]
      simp [captioned]
    · intro x hx
      rcases List.mem_cons.mp hx with rfl | hx
      · exact hsend
      · exact hall x hx

/-- The list is complete, or an attachment was too large. -/
theorem deliveriesOf_cases {clean : Bytes} {parts : List Bytes}
    (hparts : ∀ part ∈ parts, Sendable part) (ds : List Descriptor) :
    (deliveriesOf clean parts (ds.map (signalsOf clean)) = []
        ∧ ∃ d ∈ ds, Oversize d)
      ∨ Complete clean parts ds
        (deliveriesOf clean parts (ds.map (signalsOf clean))) := by
  unfold deliveriesOf
  rcases signalDeliveries_cases clean 0 ds with
    ⟨hnone, hover⟩ | ⟨caption, hcaption, hsome, hall⟩
  · rw [hnone]
    exact Or.inl ⟨rfl, hover⟩
  rw [hsome]
  refine Or.inr ?_
  by_cases hempty : caption = []
  · subst hempty
    refine ⟨Or.inr rfl, ?_⟩
    intro d hd
    rcases List.mem_append.mp hd with hd | hd
    · exact hall d hd
    · obtain ⟨part, hpart, rfl⟩ := List.mem_map.mp hd
      exact hparts part hpart
  · obtain ⟨-, hds, rfl⟩ := hcaption.resolve_left hempty
    simp only [bne_iff_ne.mpr hempty, if_true]
    exact ⟨Or.inl ⟨hempty, hds, rfl⟩, hall⟩

-- == the story

/-- What the call under way has been told and has done: its event, the
message it fetched, the descriptors of its uploads, the list it marked its
message for, its sends and how they went. -/
structure Story where
  event : Option Event
  fetched : Option Fetched
  uploaded : List Descriptor
  plan : List SipDelivery
  sent : List (Bytes × SipDelivery × Bool)

abbrev InboundTrans := Trans Service InboundAct ServiceEvent

/-- The sends among what is seen of a step. -/
def sendsIn (ok : Bool) (es : List ServiceEvent) :
    List (Bytes × SipDelivery × Bool) :=
  es.filterMap fun e =>
    match e with
    | .attempted _ _ recipient _ delivery => some (recipient, delivery, ok)
    | _ => none

/-- The list that is about to be marked. -/
def Job.deliveries : Job → List SipDelivery
  | .marking _ _ plan => plan
  | _ => []

def Story.tell (story : Story) (x : InboundTrans) : Story :=
  match x.act with
  | .other (.processEvent event _) => ⟨some event, none, [], [], []⟩
  | .other (.fetch (.fetched m)) => { story with fetched := some m }
  | .upload (some d) _ => { story with uploaded := story.uploaded ++ [d] }
  | .other (.markSeen _) => { story with plan := x.pre.job.deliveries }
  | .other (.sendMessage ok) =>
      { story with sent := story.sent ++ sendsIn ok x.out }
  | _ => story

/-- The story of the call under way at the end of a trace. -/
def storyOf (tr : List InboundTrans) : Story :=
  tr.foldl Story.tell ⟨none, none, [], [], []⟩

/-- What is to be sent of a parsed message: the sender, the visible text,
and its parts. -/
def Config.prepare (cfg : Config) (event : Event) (m : Fetched)
    (parsed : Parsed) : Prepared :=
  let text := if event.mms then parsed.body else m.stripped
  ⟨normalizeSender parsed.senderNumber, text,
    if text = [] then [] else visibleParts cfg.parsers text event.dateTime⟩

/-- The message that was fetched, if it can be parsed. -/
def Story.message (cfg : Config) (story : Story) :
    Option (Parsed × Prepared) :=
  story.event.bind fun event => story.fetched.bind fun m =>
    (if event.mms then m.mms else some m.message).map fun parsed =>
      (parsed, cfg.prepare event m parsed)

/-- Why a call marks its message with nothing to send. -/
inductive Consumed (cfg : Config) (story : Story) : Prop
  | unread (h : story.message cfg = none)
  | empty {parsed : Parsed} {m : Prepared}
      (h : story.message cfg = some (parsed, m))
      (hempty : parsed.attachments = 0 ∧ (parsed.body = [] ∨ m.clean = []))
  | tooMany {parsed : Parsed} {m : Prepared}
      (h : story.message cfg = some (parsed, m))
      (hmany : maxSIPParts < m.parts.length)
  | oversize {d : Descriptor} (hd : d ∈ story.uploaded) (h : Oversize d)

/-- The list is the one for the message that was fetched and its
attachments, all of which were uploaded. -/
def Planned (cfg : Config) (story : Story) (sender : Bytes)
    (plan : List SipDelivery) : Prop :=
  plan ≠ [] ∧ ∃ parsed m, story.message cfg = some (parsed, m)
    ∧ story.uploaded.length = parsed.attachments ∧ m.sender = sender
    ∧ Complete m.clean m.parts story.uploaded plan

-- == the sends

/-- What one recipient was sent: the whole list, or its front up to a send
that failed. -/
def SentTo (plan : List SipDelivery) (recipient : Bytes)
    (sent : List (Bytes × SipDelivery × Bool)) : Prop :=
  sent = plan.map (recipient, ·, true)
    ∨ ∃ front d rest, plan = front ++ d :: rest
      ∧ sent = front.map (recipient, ·, true) ++ [(recipient, d, false)]

/-- The recipients have been sent the list, one after the other. -/
def Served (plan : List SipDelivery) (recipients : List Bytes)
    (sent : List (Bytes × SipDelivery × Bool)) : Prop :=
  ∃ shares : List (Bytes × List (Bytes × SipDelivery × Bool)),
    shares.map Prod.fst = recipients
      ∧ (∀ share ∈ shares, SentTo plan share.1 share.2)
      ∧ sent = shares.flatMap Prod.snd

/-- The first recipients have been served, and the next one has been sent
the front of the list. -/
def Sending (plan : List SipDelivery) (recipients : List Bytes)
    (sent : List (Bytes × SipDelivery × Bool))
    (rest : List (Bytes × List SipDelivery)) : Prop :=
  ∃ earlier recipient later served front more,
    recipients = earlier ++ recipient :: later
      ∧ Served plan earlier served
      ∧ rest = (recipient, more) :: later.map (·, plan)
      ∧ plan = front ++ more
      ∧ sent = served ++ front.map (recipient, ·, true)

/-- The call goes on to a send, or ends with all served. -/
def Underway (t : Task) (sender : Bytes) (plan : List SipDelivery)
    (recipients : List Bytes) (sent : List (Bytes × SipDelivery × Bool))
    (next : Job × List ServiceEvent) : Prop :=
  (next = t.done ∧ Served plan recipients sent)
    ∨ ∃ rest, next = (.delivering t sender rest, [])
      ∧ Sending plan recipients sent rest

section Sends

variable {sent share : List (Bytes × SipDelivery × Bool)} {d : SipDelivery}
  {more : List SipDelivery} {rest : List (Bytes × List SipDelivery)}

theorem Served.snoc (h : Served plan recipients sent)
    (hshare : SentTo plan recipient share) :
    Served plan (recipients ++ [recipient]) (sent ++ share) := by
  obtain ⟨shares, hfst, hall, rfl⟩ := h
  refine ⟨shares ++ [(recipient, share)], by simp [hfst], ?_, by simp⟩
  intro s hs
  rcases List.mem_append.mp hs with hs | hs
  · exact hall s hs
  · rw [List.mem_singleton.mp hs]
    exact hshare

/-- Going on to the next recipient. -/
theorem deliver_next {earlier : List Bytes} (later : List Bytes)
    (h : Served plan earlier sent) (t : Task) (sender : Bytes) :
    Underway t sender plan (earlier ++ later) sent
      (t.deliver sender (later.map (·, plan))) := by
  induction later generalizing earlier with
  | nil => exact Or.inl ⟨rfl, by rwa [List.append_nil]⟩
  | cons recipient later ih =>
    cases plan with
    | nil =>
      have hnext : Served [] (earlier ++ [recipient]) (sent ++ []) :=
        h.snoc (Or.inl rfl)
      rw [List.append_nil] at hnext
      have hall := ih hnext
      rwa [List.append_assoc] at hall
    | cons d more =>
      exact Or.inr ⟨_, rfl, earlier, recipient, later, sent, [], d :: more,
        rfl, h, rfl, rfl, (List.append_nil sent).symm⟩

/-- One send. -/
theorem Sending.send
    (h : Sending plan recipients sent ((recipient, d :: more) :: rest))
    (t : Task) (sender : Bytes) (ok : Bool) :
    Underway t sender plan recipients (sent ++ [(recipient, d, ok)])
      (t.deliver sender (if ok then (recipient, more) :: rest else rest)) := by
  obtain ⟨earlier, r, later, served, front, back, rfl, hserved, hrest, rfl,
    rfl⟩ := h
  obtain ⟨⟨rfl, rfl⟩, rfl⟩ : (recipient = r ∧ d :: more = back)
      ∧ rest = later.map (·, front ++ back) := by
    simpa using hrest
  have hsplit : earlier ++ recipient :: later
      = (earlier ++ [recipient]) ++ later := by simp
  rw [List.append_assoc]
  cases ok with
  | false =>
    rw [hsplit]
    exact deliver_next later
      (hserved.snoc (Or.inr ⟨front, d, more, rfl, rfl⟩)) t sender
  | true =>
    cases more with
    | nil =>
      rw [hsplit]
      exact deliver_next later (hserved.snoc (Or.inl (by simp))) t sender
    | cons d' more =>
      refine Or.inr ⟨_, rfl, earlier, recipient, later, served, front ++ [d],
        d' :: more, rfl, hserved, ?_, ?_, ?_⟩ <;> simp

theorem deliver_nothing (t : Task) (sender : Bytes)
    (recipients : List Bytes) :
    t.deliver sender (recipients.map (·, [])) = t.done := by
  induction recipients with
  | nil => rfl
  | cons recipient recipients ih => exact ih

end Sends

-- == the rounds

/-- Where the goroutine stands, by the story of its call. -/
def Follows (cfg : Config) (story : Story) : Job → Prop
  | .fetching t _ => story = ⟨some t.event, none, [], [], []⟩
  | .uploading _ m left signals =>
      story.sent = [] ∧ signals = story.uploaded.map (signalsOf m.clean)
        ∧ ∃ parsed, story.message cfg = some (parsed, m)
          ∧ story.uploaded.length + left = parsed.attachments ∧ 0 < left
  | .marking _ sender plan =>
      story.sent = [] ∧ ((plan = [] ∧ Consumed cfg story)
        ∨ Planned cfg story sender plan)
  | .delivering _ sender rest =>
      Planned cfg story sender story.plan
        ∧ Sending story.plan cfg.recipients story.sent rest
  | .idle | .baselining | .draining | .handing _ => True

/-- How a call that has fetched its message ends: the message is put off,
cannot be marked, has nothing to send, or has been sent. -/
inductive CallEnds (cfg : Config) (b : Service) (story : Story) :
    InboundAct → Prop
  | deferred {now : Int} : CallEnds cfg b story (.upload none now)
  | unmarked {t : Task} {sender : Bytes} {plan : List SipDelivery}
      {s : Store} {fault : Option SaveFault} {e : StoreError}
      (hjob : b.job = .marking t sender plan)
      (hs : b.keeper.store = some s)
      (herror : (s.markSeen t.event.handle fault).result = .error e) :
      CallEnds cfg b story (.other (.markSeen fault))
  | consumed {a : InboundAct} (h : Consumed cfg story) :
      CallEnds cfg b story a
  | sent {a : InboundAct} {sender : Bytes}
      (hplan : Planned cfg story sender story.plan)
      (hserved : Served story.plan cfg.recipients story.sent) :
      CallEnds cfg b story a

/-- After a step the story is that of the job, and says how the call ended
if the step ended it. -/
structure Kept (cfg : Config) (b : Service) (a : InboundAct) (b' : Service)
    (es : List ServiceEvent) (story : Story) : Prop where
  follows : Follows cfg story b'.job
  ends : ∀ n h, .returned n h ∈ es → story.fetched ≠ none →
    CallEnds cfg b story a

section Rounds

variable {story : Story} {a : InboundAct} {m : Prepared} {parsed : Parsed}
  {signals : List Signals} {left : Nat}
  {rest : List (Bytes × List SipDelivery)}

/-- All attachments are uploaded: the list is planned, or empty for a
reason. -/
theorem follows_prepared (hsent : story.sent = [])
    (hmessage : story.message cfg = some (parsed, m))
    (hcount : story.uploaded.length = parsed.attachments) :
    Follows cfg story
      (b.prepared t m (story.uploaded.map (signalsOf m.clean))).job := by
  have hparts : (m.clean = [] ∧ m.parts = [])
      ∨ (m.parts ≠ [] ∧ ∀ part ∈ m.parts, Sendable part) := by
    simp only [Story.message, Option.bind_eq_some_iff,
      Option.map_eq_some_iff, Prod.mk.injEq] at hmessage
    obtain ⟨event, -, f, -, p, -, rfl, rfl⟩ := hmessage
    unfold Config.prepare
    generalize (if event.mms then p.body else f.stripped) = text
    by_cases htext : text = []
    · exact Or.inl ⟨htext, if_pos htext⟩
    · refine Or.inr ?_
      simp only [if_neg htext]
      exact ⟨visibleParts_ne_nil _ htext _, sendable_visibleParts _ htext _⟩
  have hsendable : ∀ part ∈ m.parts, Sendable part := by
    rcases hparts with ⟨-, hnone⟩ | ⟨-, hall⟩
    · simp [hnone]
    · exact hall
  refine ⟨hsent, ?_⟩
  rcases deliveriesOf_cases hsendable story.uploaded with
    ⟨hnil, d, hd, hover⟩ | hcomplete
  · exact Or.inl ⟨hnil, .oversize hd hover⟩
  by_cases hnil : deliveriesOf m.clean m.parts
      (story.uploaded.map (signalsOf m.clean)) = []
  · -- nothing is left out: there is no attachment and no text
    refine Or.inl ⟨hnil, .empty hmessage ?_⟩
    rw [hnil] at hcomplete
    rw [← hcount]
    generalize story.uploaded = ds at hcomplete ⊢
    rcases hcomplete.once with ⟨-, hne, hplan⟩ | hplan
    · cases ds with
      | nil => exact absurd rfl hne
      | cons d ds => cases hplan
    · cases ds with
      | nil =>
        refine ⟨rfl, Or.inr ?_⟩
        rcases hparts with ⟨hclean, -⟩ | ⟨hne, -⟩
        · exact hclean
        · exact absurd (List.map_eq_nil_iff.mp hplan.symm) hne
      | cons d ds => cases hplan
  · exact Or.inr ⟨hnil, parsed, m, hmessage, hcount, rfl, hcomplete⟩

/-- The goroutine goes on to the attachments. -/
theorem follows_collect (huploaded : story.uploaded = [])
    (hsent : story.sent = [])
    (hmessage : story.message cfg = some (parsed, m)) :
    Follows cfg story (b.collect t m parsed.attachments).job := by
  unfold Service.collect
  split
  case isTrue hmany => exact ⟨hsent, Or.inl ⟨rfl, .tooMany hmessage hmany⟩⟩
  split
  case isTrue hnone =>
    have hprepared := follows_prepared (b := b) (t := t) hsent hmessage
      (by rw [huploaded, hnone]; rfl)
    rwa [huploaded] at hprepared
  case isFalse hsome =>
    refine ⟨hsent, by rw [huploaded]; rfl, parsed, hmessage, ?_,
      Nat.pos_of_ne_zero hsome⟩
    rw [huploaded]
    exact Nat.zero_add _

/-- What `processEvent` makes of a fetched message. -/
theorem follows_parse (cfg : Config) (b : Service) (t : Task) (f : Fetched) :
    Follows cfg ⟨some t.event, some f, [], [], []⟩ (cfg.parse b t f).job := by
  unfold Config.parse
  split
  case h_1 hnone =>
    refine ⟨rfl, Or.inl ⟨rfl, .unread ?_⟩⟩
    simp only [Story.message, Option.bind_some, hnone, Option.map_none]
  case h_2 parsed hsome =>
    have hmessage : (⟨some t.event, some f, [], [], []⟩ : Story).message cfg
        = some (parsed, cfg.prepare t.event f parsed) :=
      congrArg (Option.map _) hsome
    by_cases hempty : parsed.body = [] ∧ parsed.attachments = 0
    · rw [if_pos hempty]
      exact ⟨rfl, Or.inl ⟨rfl, .empty hmessage
        ⟨hempty.2, Or.inl hempty.1⟩⟩⟩
    · rw [if_neg hempty]
      exact follows_collect rfl rfl hmessage

/-- A fetch is told, or ends the call. -/
theorem kept_fetch {result : Fetch} (h : Follows cfg story b.job)
    (hjob : b.job = .fetching t left)
    (hround : cfg.fetchRound b t left result = (b', es)) :
    Kept cfg b (.other (.fetch result)) b' es
      (story.tell ⟨b, .other (.fetch result), es, b'⟩) := by
  rw [hjob] at h
  have hstory : story = ⟨some t.event, none, [], [], []⟩ := h
  subst hstory
  cases result with
  | cancelled =>
    cases hround
    exact ⟨trivial, fun _ _ _ hf => absurd rfl hf⟩
  | failed =>
    obtain ⟨rfl, rfl⟩ := hround
    refine ⟨?_, fun _ _ _ hf => absurd rfl hf⟩
    split
    · exact ⟨rfl, Or.inl ⟨rfl, .unread rfl⟩⟩
    · exact rfl
  | fetched f =>
    cases hround
    refine ⟨follows_parse cfg b t f, ?_⟩
    intro n h hret
    cases List.mem_singleton.mp hret

/-- An upload is told, or ends the call. -/
theorem kept_upload {descriptor : Option Descriptor} {now : Int}
    (h : Follows cfg story b.job)
    (hjob : b.job = .uploading t m left signals)
    (hround : uploadRound b t m left signals now
      (descriptor.map (signalsOf m.clean)) = (b', es)) :
    Kept cfg b (.upload descriptor now) b' es
      (story.tell ⟨b, .upload descriptor now, es, b'⟩) := by
  rw [hjob] at h
  obtain ⟨hsent, rfl, parsed, hmessage, hcount, hleft⟩ := h
  cases descriptor with
  | none =>
    cases hround
    exact ⟨trivial, fun _ _ _ _ => .deferred⟩
  | some d =>
    have hmap : story.uploaded.map (signalsOf m.clean) ++ [signalsOf m.clean d]
        = (story.uploaded ++ [d]).map (signalsOf m.clean) := by simp
    have hlength : (story.uploaded ++ [d]).length + (left - 1)
        = parsed.attachments := by
      rw [List.length_append, List.length_singleton]
      omega
    simp only [Option.map_some, uploadRound, hmap] at hround
    split at hround
    case isTrue hlast =>
      cases hround
      rw [Nat.sub_eq_zero_of_le hlast, Nat.add_zero] at hlength
      have hfollows : Follows cfg
          { story with uploaded := story.uploaded ++ [d] } (b.prepared t m
            ((story.uploaded ++ [d]).map (signalsOf m.clean))).job :=
        follows_prepared hsent hmessage hlength
      exact ⟨hfollows, fun _ _ hret => absurd hret List.not_mem_nil⟩
    case isFalse hmore =>
      cases hround
      exact ⟨⟨hsent, rfl, parsed, hmessage, hlength, by omega⟩,
        fun _ _ hret => absurd hret List.not_mem_nil⟩

/-- The list on its way stays the one planned. -/
theorem Underway.kept (story : Story) {next : Job × List ServiceEvent}
    (hplan : Planned cfg story sender story.plan)
    (h : Underway t sender story.plan cfg.recipients story.sent next) :
    Follows cfg story next.1 ∧ ∀ n h, .returned n h ∈ next.2 →
      ∀ b a, CallEnds cfg b story a := by
  rcases h with ⟨rfl, hserved⟩ | ⟨rest, rfl, hsending⟩
  · exact ⟨trivial, fun _ _ _ _ _ => .sent hplan hserved⟩
  · exact ⟨⟨hplan, hsending⟩, fun _ _ hret => absurd hret List.not_mem_nil⟩

theorem Consumed.marked (h : Consumed cfg story) (plan : List SipDelivery) :
    Consumed cfg { story with plan := plan } := by
  cases h with
  | unread h => exact .unread h
  | empty h hempty => exact .empty h hempty
  | tooMany h hmany => exact .tooMany h hmany
  | oversize hd h => exact .oversize hd h

/-- The list that is marked is planned for the message. -/
theorem kept_mark {s : Store} {fault : Option SaveFault}
    (h : Follows cfg story b.job) (hs : b.keeper.store = some s)
    (hjob : b.job = .marking t sender plan)
    (hround : cfg.markRound b s t sender plan fault = (b', es)) :
    Kept cfg b (.other (.markSeen fault)) b' es
      (story.tell ⟨b, .other (.markSeen fault), es, b'⟩) := by
  rw [hjob] at h
  obtain ⟨hsent, hplan⟩ := h
  simp only [Story.tell, hjob, Job.deliveries]
  obtain ⟨rfl, rfl⟩ := hround
  cases hresult : (s.markSeen t.event.handle fault).result with
  | error e => exact ⟨trivial, fun _ _ _ _ => .unmarked hjob hs hresult⟩
  | ok u =>
    rcases hplan with ⟨rfl, hconsumed⟩ | hplan
    · rw [deliver_nothing]
      exact ⟨trivial, fun _ _ _ _ => .consumed (hconsumed.marked [])⟩
    have hserved : Served plan [] story.sent := ⟨[], rfl, by simp, hsent⟩
    have hkept := Underway.kept { story with plan := plan } hplan
      (deliver_next cfg.recipients hserved t sender)
    refine ⟨hkept.1, ?_⟩
    intro n h hret _
    -- what is reported before the sends is not about the call
    rw [List.append_assoc] at hret
    rcases List.mem_append.mp hret with hret | hret
    · exact absurd trivial (ofCall_wroteOf _ _ hret)
    rcases List.mem_append.mp hret with hret | hret
    · exact absurd trivial (ofCall_markedOf _ _ _ _ hret)
    · exact hkept.2 n h hret _ _

/-- A send goes to the next place of the list. -/
theorem kept_send {d : SipDelivery} {more : List SipDelivery} {ok : Bool}
    (h : Follows cfg story b.job)
    (hjob : b.job = .delivering t sender ((recipient, d :: more) :: rest))
    (hround : sendRound b t sender recipient d more rest ok = (b', es)) :
    Kept cfg b (.other (.sendMessage ok)) b' es
      (story.tell ⟨b, .other (.sendMessage ok), es, b'⟩) := by
  rw [hjob] at h
  obtain ⟨hplan, hsending⟩ := h
  obtain ⟨rfl, rfl⟩ := hround
  have hnext := hsending.send t sender ok
  have hsends : sendsIn ok (.attempted t.call t.event.handle recipient sender
      d :: (t.deliver sender
        (if ok then (recipient, more) :: rest else rest)).2)
      = [(recipient, d, ok)] := by
    rcases hnext with ⟨hdone, -⟩ | ⟨rest', hgo, -⟩
    · rw [hdone]
      rfl
    · rw [hgo]
      rfl
  have hkept := Underway.kept
    { story with sent := story.sent ++ [(recipient, d, ok)] } hplan hnext
  simp only [Story.tell, hsends]
  refine ⟨hkept.1, ?_⟩
  intro n h hret _
  rcases List.mem_cons.mp hret with heq | hret
  · cases heq
  · exact hkept.2 n h hret _ _

-- == runs

/-- An upload belongs to a call that is uploading. -/
theorem inbound_upload {descriptor : Option Descriptor} {now : Int}
    (hstep : inboundStep cfg b (.upload descriptor now) = some (b', es)) :
    ∃ t m left signals, b.job = .uploading t m left signals
      ∧ uploadRound b t m left signals now
        (descriptor.map (signalsOf m.clean)) = (b', es) := by
  simp only [inboundStep] at hstep
  split at hstep
  case h_2 => cases hstep
  case h_1 t m left signals hjob =>
    cases JobMove.of_step hstep with
    | aside hact _ _ => cases hact
    | upload hjob' hround =>
      rw [hjob] at hjob'
      cases hjob'
      exact ⟨t, m, left, signals, hjob, hround⟩

theorem inbound_other {a : ServiceAct}
    (hstep : inboundStep cfg b (.other a) = some (b', es)) :
    JobMove cfg b b' es a ∧ ∀ result now, a ≠ .upload result now := by
  cases a with
  | upload _ _ => cases hstep
  | _ => exact ⟨JobMove.of_step hstep, by simp⟩

/-- Every step keeps the story with the goroutine. -/
theorem Follows.step (h : Follows cfg story b.job)
    (hstep : inboundStep cfg b a = some (b', es)) :
    Kept cfg b a b' es (story.tell ⟨b, a, es, b'⟩) := by
  cases a with
  | upload descriptor now =>
    obtain ⟨t, m, left, signals, hjob, hround⟩ := inbound_upload hstep
    exact kept_upload h hjob hround
  | other a =>
    obtain ⟨hmove, hother⟩ := inbound_other hstep
    cases hmove with
    | aside hact hjob hes =>
      -- what runs beside the job adds nothing to its story
      have htell : story.tell ⟨b, .other a, es, b'⟩ = story := by
        cases a with
        | processEvent _ _ | fetch _ | markSeen _ | sendMessage _ => cases hact
        | _ => rfl
      rw [htell]
      refine ⟨?_, fun _ _ hret => absurd trivial (hes _ hret)⟩
      rcases hjob with hsame | ⟨hp, hs⟩
      · rwa [hsame]
      · cases hoff : b'.job with
        | fetching _ _ | uploading _ _ _ _ | marking _ _ _ =>
          rw [hoff] at hp
          cases hp
        | delivering _ _ _ =>
          rw [hoff] at hs
          cases hs
        | _ => exact trivial
    | head _ hjob hround =>
      refine ⟨?_, fun _ _ _ hf => absurd rfl hf⟩
      simp only [beginEvent] at hround
      split at hround
      · cases hround
        exact trivial
      · cases hround
        exact rfl
    | fetch hjob hround => exact kept_fetch h hjob hround
    | upload _ _ => exact absurd rfl (hother _ _)
    | mark hs hjob hround => exact kept_mark h hs hjob hround
    | send hjob hround => exact kept_send h hjob hround

theorem follows_run {disk : Disk} {tr : List InboundTrans}
    (hrun : Exec (inboundStep cfg) (newService disk) tr b) :
    Follows cfg (storyOf tr) b.job := by
  induction hrun with
  | nil => exact trivial
  | snoc _ hstep ih =>
    rw [storyOf, List.foldl_append]
    exact (ih.step hstep).follows

end Rounds

/-- In every run of the service, over any state file, with any recipients,
whatever is fetched, uploaded and answered: the list a call is about to
mark its message for is empty for one of the reasons to consume it early,
or holds a signal for each attachment, in order, and the text once, in
bodies that can be sent. And a call that returns with a fetched message
has put it off, could not mark it, consumed it early, or sent each
recipient that list, whole or up to a send that failed. -/
theorem delivery_plan_complete (cfg : Config) (disk : Disk)
    {tr : List InboundTrans} {b b' : Service} {a : InboundAct}
    {es : List ServiceEvent}
    (hrun : Exec (inboundStep cfg) (newService disk) tr b)
    (hstep : inboundStep cfg b a = some (b', es)) :
    (∀ t sender plan, b.job = .marking t sender plan →
      (plan = [] ∧ Consumed cfg (storyOf tr))
        ∨ Planned cfg (storyOf tr) sender plan)
      ∧ ∀ n h, .returned n h ∈ es →
        (storyOf (tr ++ [⟨b, a, es, b'⟩])).fetched ≠ none →
        CallEnds cfg b (storyOf (tr ++ [⟨b, a, es, b'⟩])) a := by
  have hfollows := follows_run hrun
  constructor
  · intro t sender plan hjob
    rw [hjob] at hfollows
    exact hfollows.2
  · rw [storyOf, List.foldl_append]
    exact (hfollows.step hstep).ends

/-- Two recipients. -/
def pairConfig : Config :=
  ⟨[ascii "1001", ascii "1002"], ⟨fun _ => none, fun _ => none⟩, fun _ => []⟩

/-- A photo with a text goes to both; the first send fails. -/
theorem delivery_plan_complete_photo :
    ∃ (tr : List InboundTrans) (b b' : Service) (es : List ServiceEvent),
      Exec (inboundStep pairConfig) (newService .absent) tr b
        ∧ inboundStep pairConfig b (.other (.sendMessage true))
          = some (b', es)
        ∧ .returned 0 (ascii "1F") ∈ es
        ∧ CallEnds pairConfig b
          (storyOf (tr ++ [⟨b, .other (.sendMessage true), es, b'⟩]))
          (.other (.sendMessage true)) := by
  obtain ⟨tr, b, hrun, hfetched, ⟨b', es⟩, hstep, hret⟩ := exec_of_decide
    (inboundStep pairConfig) (newService .absent)
    [.other (.start noLegacy none),
      .other (.processEvent ⟨true, ascii "1F", inbox, true, []⟩ 0),
      .other (.fetch (.fetched ⟨⟨[], 0, []⟩,
        some ⟨ascii "hi", 1, ascii "010-1234-5678"⟩, []⟩)),
      .upload (some ⟨ascii "image/png", ascii "https://x", 3, [], ascii "00",
        ascii "1"⟩) 0,
      .other (.markSeen none), .other (.sendMessage false)]
    (fun tr b => (storyOf tr).fetched.isSome = true
      ∧ ∃ next ∈ inboundStep pairConfig b (.other (.sendMessage true)),
        .returned 0 (ascii "1F") ∈ next.2) (by decide +kernel)
  refine ⟨tr, b, b', es, hrun, hstep, hret,
    (delivery_plan_complete pairConfig .absent hrun hstep).2 _ _ hret ?_⟩
  rw [storyOf, List.foldl_append]
  exact Option.isSome_iff_ne_none.mp hfetched

end Callbridge.Bridge
