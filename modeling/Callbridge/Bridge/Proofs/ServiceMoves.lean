/-
What a step of the service can do, said once.

`ServiceMove` sorts the steps by what they do to the store and to the
`processEvent` call under way, which is pending until its message is
marked, and sending after that. Of the store a step does nothing but what
the keeper of a store does (`ServiceMove.keeper`), so the keeper's
invariants are the service's.
-/
import Callbridge.Bridge.Service
import Callbridge.State.Proofs.Reopen

namespace Callbridge.Bridge

open Lib State Message

variable {cfg : Config} {b b' : Service} {a : ServiceAct}
  {es : List ServiceEvent} {t : Task}

-- == calls

/-- The call whose message is not marked yet. -/
def Job.pending : Job → Option Task
  | .fetching t _ => some t
  | .uploading t _ _ _ => some t
  | .marking t _ _ => some t
  | .idle | .delivering _ _ _ | .baselining | .draining | .handing _ => none

/-- The call that sends. -/
def Job.sending : Job → Option Task
  | .delivering t _ _ => some t
  | .idle | .fetching _ _ | .uploading _ _ _ _ | .marking _ _ _
  | .baselining | .draining | .handing _ => none

theorem sending_none_of_pending {j : Job} (hp : j.pending = some t) :
    j.sending = none := by
  cases j with
  | delivering _ _ _ => cases hp
  | _ => rfl

/-- Going on to send is sending, or the end of the call. -/
theorem deliver_cases (t : Task) (sender : Bytes)
    (rest : List (Bytes × List SipDelivery)) :
    t.deliver sender rest = t.done
      ∨ ∃ rest', t.deliver sender rest
        = (.delivering t sender rest', []) := by
  induction rest with
  | nil => exact Or.inl rfl
  | cons entry rest ih =>
    obtain ⟨recipient, deliveries⟩ := entry
    cases deliveries with
    | nil => exact ih
    | cons delivery more => exact Or.inr ⟨_, rfl⟩

theorem afterTake_cases (result : Except StoreError (Option Outbound)) :
    (∃ item, Job.afterTake result = .handing item
        ∧ result = .ok (some item))
      ∨ (Job.afterTake result = .idle
        ∧ ∀ item, result ≠ .ok (some item)) := by
  rcases result with e | _ | item
  · exact Or.inr ⟨rfl, by simp⟩
  · exact Or.inr ⟨rfl, by simp⟩
  · exact Or.inl ⟨item, rfl, rfl⟩

/-- A state of the service in which a call has gone on. -/
structure GoesOn (b : Service) (t : Task) (b' : Service) : Prop where
  pending : b'.job.pending = some t
  keeper : b'.keeper = b.keeper
  calls : b'.calls = b.calls

-- == the rounds

section Rounds

variable {s : Store}

/-- The events about a call. -/
def ServiceEvent.OfCall : ServiceEvent → Prop
  | .attempted _ _ _ _ _ | .returned _ _ => True
  | .wrote _ | .marked _ | .requested _ _ | .appended _ | .handed _ _ =>
      False

/-- The steps that are part of a call. -/
def ServiceAct.ofCall : ServiceAct → Bool
  | .processEvent _ _ | .fetch _ | .upload _ _ | .markSeen _
  | .sendMessage _ => true
  | .start _ _ | .crash | .enqueue _ _ | .bootstrap _ _ | .setInitialized _
  | .takeOutbound _ | .sendSMS _ => false

/-- What a step does to the call under way, round by round; the other
steps leave it, or there is none after them. -/
inductive JobMove (cfg : Config) (b b' : Service) (es : List ServiceEvent) :
    ServiceAct → Prop
  | aside {a : ServiceAct} (hact : a.ofCall = false)
      (hjob : b'.job = b.job
        ∨ (b'.job.pending = none ∧ b'.job.sending = none))
      (hes : ∀ e ∈ es, ¬ e.OfCall) : JobMove cfg b b' es a
  | head {s : Store} {event : Event} {now : Int}
      (hs : b.keeper.store = some s) (hjob : b.job = .idle)
      (hround : beginEvent b s event now = (b', es)) :
      JobMove cfg b b' es (.processEvent event now)
  | fetch {t : Task} {left : Nat} {result : Fetch}
      (hjob : b.job = .fetching t left)
      (hround : cfg.fetchRound b t left result = (b', es)) :
      JobMove cfg b b' es (.fetch result)
  | upload {t : Task} {m : Prepared} {left : Nat} {signals : List Signals}
      {result : Option Signals} {now : Int}
      (hjob : b.job = .uploading t m left signals)
      (hround : uploadRound b t m left signals now result = (b', es)) :
      JobMove cfg b b' es (.upload result now)
  | mark {s : Store} {t : Task} {sender : Bytes}
      {deliveries : List SipDelivery} {fault : Option SaveFault}
      (hs : b.keeper.store = some s)
      (hjob : b.job = .marking t sender deliveries)
      (hround : cfg.markRound b s t sender deliveries fault = (b', es)) :
      JobMove cfg b b' es (.markSeen fault)
  | send {t : Task} {sender recipient : Bytes} {delivery : SipDelivery}
      {more : List SipDelivery} {rest : List (Bytes × List SipDelivery)}
      {ok : Bool} (hjob : b.job
        = .delivering t sender ((recipient, delivery :: more) :: rest))
      (hround : sendRound b t sender recipient delivery more rest ok
        = (b', es)) :
      JobMove cfg b b' es (.sendMessage ok)

theorem mem_wroteOf {ρ : Type} {o : Outcome ρ} {e : ServiceEvent}
    (he : e ∈ wroteOf o) : ∃ f, e = .wrote f := by
  obtain ⟨f, -, rfl⟩ := List.mem_map.mp he
  exact ⟨f, rfl⟩

theorem mem_markedOf {ρ : Type} {o : Outcome ρ} {handles : List Bytes}
    {e : ServiceEvent} (he : e ∈ markedOf s handles o) :
    ∃ k, e = .marked k := by
  unfold markedOf at he
  split at he
  · obtain ⟨k, -, rfl⟩ := List.mem_map.mp he
    exact ⟨k, rfl⟩
  · cases he

theorem ofCall_wroteOf {ρ : Type} (o : Outcome ρ) :
    ∀ e ∈ wroteOf o, ¬ e.OfCall := by
  intro e he
  obtain ⟨f, rfl⟩ := mem_wroteOf he
  exact id

theorem ofCall_markedOf {ρ : Type} (s : Store) (handles : List Bytes)
    (o : Outcome ρ) : ∀ e ∈ markedOf s handles o, ¬ e.OfCall := by
  intro e he
  obtain ⟨k, rfl⟩ := mem_markedOf he
  exact id

/-- The job after a step, by the job before. -/
theorem JobMove.of_runningStep (hs : b.keeper.store = some s)
    (h : runningStep cfg b s a = some (b', es)) :
    JobMove cfg b b' es a := by
  cases a with
  | start _ _ | crash => cases h
  | enqueue item fault =>
    cases h
    -- an HTTP handler runs beside the job
    refine .aside rfl (Or.inl rfl) ?_
    intro e he
    rcases List.mem_append.mp he with he | he
    · exact ofCall_wroteOf _ e he
    · split at he
      · rw [List.mem_singleton.mp he]
        exact id
      · cases he
  | bootstrap handles fault =>
    simp only [runningStep] at h
    split at h
    case h_2 => cases h
    split at h
    · cases h
      exact .aside rfl (Or.inl rfl) (by simp)
    · cases h
      refine .aside rfl (Or.inr ?_) ?_
      · cases (s.markSeenMany handles fault).result <;> exact ⟨rfl, rfl⟩
      · intro e he
        rcases List.mem_append.mp he with he | he
        · exact ofCall_wroteOf _ e he
        · exact ofCall_markedOf s handles _ e he
  | setInitialized fault =>
    simp only [runningStep] at h
    split at h
    case h_2 => cases h
    cases h
    exact .aside rfl (Or.inr ⟨rfl, rfl⟩) (ofCall_wroteOf _)
  | processEvent event now =>
    simp only [runningStep] at h
    split at h
    case h_2 => cases h
    case h_1 hjob => exact .head hs hjob (Option.some.inj h)
  | fetch result =>
    simp only [runningStep] at h
    split at h
    case h_2 => cases h
    case h_1 hjob => exact .fetch hjob (Option.some.inj h)
  | upload result now =>
    simp only [runningStep] at h
    split at h
    case h_2 => cases h
    case h_1 hjob => exact .upload hjob (Option.some.inj h)
  | markSeen fault =>
    simp only [runningStep] at h
    split at h
    case h_2 => cases h
    case h_1 hjob => exact .mark hs hjob (Option.some.inj h)
  | sendMessage ok =>
    simp only [runningStep] at h
    split at h
    case h_2 => cases h
    case h_1 hjob => exact .send hjob (Option.some.inj h)
  | takeOutbound fault =>
    -- no inbound message is on the way after a take
    have htake : (Job.afterTake (s.takeOutbound fault).result).pending = none
        ∧ (Job.afterTake (s.takeOutbound fault).result).sending = none := by
      rcases afterTake_cases (s.takeOutbound fault).result with
        ⟨item, hj, -⟩ | ⟨hj, -⟩ <;> rw [hj] <;> exact ⟨rfl, rfl⟩
    simp only [runningStep] at h
    split at h
    case h_3 => cases h
    all_goals
      cases h
      exact .aside rfl (Or.inr htake) (ofCall_wroteOf _)
  | sendSMS ok =>
    simp only [runningStep] at h
    split at h
    case h_2 => cases h
    cases h
    refine .aside rfl (Or.inr ?_) (by simp [ServiceEvent.OfCall])
    cases ok <;> exact ⟨rfl, rfl⟩

/-- Every step moves the job of the service, or leaves it aside. -/
theorem JobMove.of_step (h : serviceStep cfg b a = some (b', es)) :
    JobMove cfg b b' es a := by
  unfold serviceStep at h
  cases hs : b.keeper.store with
  | none =>
    rw [hs] at h
    cases a with
    | start legacy fault =>
      simp only at h
      split at h
      · cases h
        exact .aside rfl (Or.inl rfl) (by simp [ServiceEvent.OfCall])
      · cases h
        exact .aside rfl (Or.inl rfl) (by simp)
    | _ => cases h
  | some s =>
    rw [hs] at h
    cases a with
    | crash =>
      cases h
      exact .aside rfl (Or.inr ⟨rfl, rfl⟩) (by simp)
    | _ => exact .of_runningStep hs h

end Rounds

-- == moves

inductive ServiceMove (cfg : Config) (b : Service) :
    ServiceAct → Service → List ServiceEvent → Prop
  | opened {legacy : LegacyFiles} {fault : Option SaveFault} {s : Store}
      {imported : Bool} {written : Option StateFile}
      (hdown : b.keeper.store = none)
      (hopen : openStore cfg.sha256 b.keeper.disk legacy fault
        = .ok (s, imported, written)) :
      ServiceMove cfg b (.start legacy fault)
        { b with keeper := ⟨b.keeper.disk.after written, some s⟩ }
        (written.toList.map .wrote)
  | unchanged {a : ServiceAct} : ServiceMove cfg b a b []
  | crashed {s : Store} (hs : b.keeper.store = some s) :
      ServiceMove cfg b .crash
        { b with
          keeper := ⟨b.keeper.disk, none⟩
          mediaRetries := ∅
          job := .idle } []
  | enqueued {s : Store} {item : Outbound} {fault : Option SaveFault}
      (hs : b.keeper.store = some s) :
      ServiceMove cfg b (.enqueue item fault)
        { b with keeper := b.put (s.addOutbound item fault) }
        (wroteOf (s.addOutbound item fault)
          ++ if (s.addOutbound item fault).written.isSome then
            [.appended item] else [])
  | based {s : Store} {handles : List Bytes} {fault : Option SaveFault}
      {j : Job} (hs : b.keeper.store = some s) (hjob : b.job = .idle)
      (hother : j = .idle ∨ j = .baselining) :
      ServiceMove cfg b (.bootstrap handles fault)
        { b with keeper := b.put (s.markSeenMany handles fault), job := j }
        (wroteOf (s.markSeenMany handles fault)
          ++ markedOf s handles (s.markSeenMany handles fault))
  | initialized {s : Store} {fault : Option SaveFault}
      (hs : b.keeper.store = some s) (hjob : b.job = .baselining) :
      ServiceMove cfg b (.setInitialized fault)
        { b with keeper := b.put (s.setInitialized fault), job := .idle }
        (wroteOf (s.setInitialized fault))
  | ignored {event : Event} {now : Int} (hjob : b.job = .idle) :
      ServiceMove cfg b (.processEvent event now)
        { b with calls := b.calls + 1, job := .idle }
        [.returned b.calls event.handle]
  | began {s : Store} {event : Event} {now : Int}
      (hs : b.keeper.store = some s) (hjob : b.job = .idle)
      (hunseen : event.handle ∉ s.seen) :
      ServiceMove cfg b (.processEvent event now)
        { b with
          calls := b.calls + 1
          job := .fetching ⟨b.calls, event⟩ fetchAttempts } []
  | advanced {a : ServiceAct} {b' : Service} {es : List ServiceEvent}
      {t : Task} (hjob : b.job.pending = some t) (hgo : GoesOn b t b')
      (hes : es = []
        ∨ es = [.requested t.event.fetchFolder t.event.handle]) :
      ServiceMove cfg b a b' es
  | gaveUp {a : ServiceAct} {b' : Service} {t : Task}
      (hjob : b.job.pending = some t) (hjob' : b'.job = .idle)
      (hkeeper : b'.keeper = b.keeper) (hcalls : b'.calls = b.calls) :
      ServiceMove cfg b a b' [.returned t.call t.event.handle]
  | marked {s : Store} {t : Task} {sender : Bytes}
      {deliveries : List SipDelivery} {fault : Option SaveFault}
      {next : Job × List ServiceEvent} (hs : b.keeper.store = some s)
      (hjob : b.job = .marking t sender deliveries)
      (hnext : next = t.done
        ∨ ((s.markSeen t.event.handle fault).result = .ok ()
          ∧ ∃ rest, next = (.delivering t sender rest, []))) :
      ServiceMove cfg b (.markSeen fault)
        { b with
          keeper := b.put (s.markSeen t.event.handle fault)
          job := next.1 }
        (wroteOf (s.markSeen t.event.handle fault)
          ++ markedOf s [t.event.handle] (s.markSeen t.event.handle fault)
          ++ next.2)
  | sent {s : Store} {t : Task} {sender recipient : Bytes}
      {delivery : SipDelivery} {ok : Bool}
      {rest : List (Bytes × List SipDelivery)}
      {next : Job × List ServiceEvent} (hs : b.keeper.store = some s)
      (hjob : b.job = .delivering t sender rest)
      (hnext : next = t.done
        ∨ ∃ rest', next = (.delivering t sender rest', [])) :
      ServiceMove cfg b (.sendMessage ok) { b with job := next.1 }
        (.attempted t.call t.event.handle recipient sender delivery
          :: next.2)
  | took {s : Store} {fault : Option SaveFault} {j : Job}
      (hs : b.keeper.store = some s)
      (hjob : b.job = .idle ∨ b.job = .draining)
      (hj : (∃ item, j = .handing item
          ∧ (s.takeOutbound fault).result = .ok (some item))
        ∨ (j = .idle
          ∧ ∀ item, (s.takeOutbound fault).result ≠ .ok (some item))) :
      ServiceMove cfg b (.takeOutbound fault)
        { b with keeper := b.put (s.takeOutbound fault), job := j }
        (wroteOf (s.takeOutbound fault))
  | handed {s : Store} {item : Outbound} {ok : Bool} {j : Job}
      (hs : b.keeper.store = some s) (hjob : b.job = .handing item)
      (hj : j = .idle ∨ j = .draining) :
      ServiceMove cfg b (.sendSMS ok) { b with job := j }
        [.handed item ok]

-- == the inversion

section Inversion

variable {s : Store}

theorem collect_goesOn (b : Service) (t : Task) (m : Prepared)
    (attachments : Nat) : GoesOn b t (b.collect t m attachments) := by
  unfold Service.collect
  split
  · exact ⟨rfl, rfl, rfl⟩
  · split <;> exact ⟨rfl, rfl, rfl⟩

/-- Whatever was fetched, the call goes on. -/
theorem parse_goesOn (cfg : Config) (b : Service) (t : Task)
    (m : Fetched) : GoesOn b t (cfg.parse b t m) := by
  unfold Config.parse
  split
  · exact ⟨rfl, rfl, rfl⟩
  case h_2 parsed _ =>
    by_cases hempty : parsed.body = [] ∧ parsed.attachments = 0
    · rw [if_pos hempty]
      exact ⟨rfl, rfl, rfl⟩
    · rw [if_neg hempty]
      exact collect_goesOn _ _ _ _

theorem ServiceMove.of_beginEvent {event : Event} {now : Int}
    (hs : b.keeper.store = some s) (hjob : b.job = .idle)
    (h : beginEvent b s event now = (b', es)) :
    ServiceMove cfg b (.processEvent event now) b' es := by
  unfold beginEvent at h
  simp only at h
  split at h
  · cases h
    exact .ignored hjob
  case isFalse hgo =>
    cases h
    apply ServiceMove.began hs hjob
    intro hseen
    apply hgo
    simp [Store.hasSeen, hseen]

/-- A fetch, whatever it brings. -/
theorem ServiceMove.of_fetchRound {left : Nat} {result : Fetch}
    (hjob : b.job = .fetching t left)
    (h : cfg.fetchRound b t left result = (b', es)) :
    ServiceMove cfg b (.fetch result) b' es := by
  have hpending : b.job.pending = some t := by rw [hjob]; rfl
  cases result with
  | cancelled =>
    cases h
    exact .gaveUp hpending rfl rfl rfl
  | failed =>
    obtain ⟨rfl, rfl⟩ := h
    refine .advanced hpending ?_ (Or.inr rfl)
    split <;> exact ⟨rfl, rfl, rfl⟩
  | fetched m =>
    obtain ⟨rfl, rfl⟩ := h
    exact .advanced hpending (parse_goesOn cfg b t m) (Or.inr rfl)

/-- An upload, whatever it brings. -/
theorem ServiceMove.of_uploadRound {m : Prepared} {left : Nat}
    {signals : List Signals} {now : Int} {result : Option Signals}
    (hjob : b.job = .uploading t m left signals)
    (h : uploadRound b t m left signals now result = (b', es)) :
    ServiceMove cfg b (.upload result now) b' es := by
  have hpending : b.job.pending = some t := by rw [hjob]; rfl
  cases result with
  | none =>
    cases h
    exact .gaveUp hpending rfl rfl rfl
  | some signal =>
    simp only [uploadRound] at h
    split at h
    · cases h
      exact .advanced hpending ⟨rfl, rfl, rfl⟩ (Or.inl rfl)
    · cases h
      exact .advanced hpending ⟨rfl, rfl, rfl⟩ (Or.inl rfl)

/-- The marking, saved or not. -/
theorem ServiceMove.of_markRound {sender : Bytes}
    {deliveries : List SipDelivery} {fault : Option SaveFault}
    (hs : b.keeper.store = some s)
    (hjob : b.job = .marking t sender deliveries)
    (h : cfg.markRound b s t sender deliveries fault = (b', es)) :
    ServiceMove cfg b (.markSeen fault) b' es := by
  obtain ⟨rfl, rfl⟩ := h
  apply ServiceMove.marked hs hjob
  cases hresult : (s.markSeen t.event.handle fault).result with
  | error e => exact Or.inl rfl
  | ok u =>
    rcases deliver_cases t sender (cfg.recipients.map fun recipient =>
      (recipient, deliveries)) with hdone | ⟨rest, hgo⟩
    · exact Or.inl hdone
    · exact Or.inr ⟨rfl, rest, hgo⟩

/-- The rounds of a `processEvent` call. -/
theorem ServiceMove.of_round (hs : b.keeper.store = some s)
    (hmove : JobMove cfg b b' es a) (hact : a.ofCall = true) :
    ServiceMove cfg b a b' es := by
  cases hmove with
  | aside hnot _ _ =>
    rw [hnot] at hact
    cases hact
  | head hs hjob hround => exact .of_beginEvent hs hjob hround
  | fetch hjob hround => exact .of_fetchRound hjob hround
  | upload hjob hround => exact .of_uploadRound hjob hround
  | mark hs hjob hround => exact .of_markRound hs hjob hround
  | send hjob hround =>
    obtain ⟨rfl, rfl⟩ := hround
    exact .sent hs hjob (deliver_cases _ _ _)

/-- Every step with the store open. -/
theorem ServiceMove.of_runningStep (hs : b.keeper.store = some s)
    (h : runningStep cfg b s a = some (b', es)) :
    ServiceMove cfg b a b' es := by
  cases a with
  | start _ _ | crash => cases h
  | enqueue item fault =>
    cases h
    exact .enqueued hs
  | bootstrap handles fault =>
    simp only [runningStep] at h
    split at h
    case h_1 hjob =>
      split at h
      · cases h
        exact .unchanged
      · obtain ⟨rfl, rfl⟩ := h
        apply ServiceMove.based hs hjob
        cases (s.markSeenMany handles fault).result with
        | error e => exact Or.inl rfl
        | ok u => exact Or.inr rfl
    case h_2 => cases h
  | setInitialized fault =>
    simp only [runningStep] at h
    split at h
    case h_1 hjob =>
      cases h
      exact .initialized hs hjob
    case h_2 => cases h
  | takeOutbound fault =>
    simp only [runningStep] at h
    split at h
    case h_1 hjob =>
      cases h
      exact .took hs (Or.inl hjob) (afterTake_cases _)
    case h_2 hjob =>
      cases h
      exact .took hs (Or.inr hjob) (afterTake_cases _)
    case h_3 => cases h
  | sendSMS ok =>
    simp only [runningStep] at h
    split at h
    case h_1 item hjob =>
      cases h
      apply ServiceMove.handed hs hjob
      cases ok with
      | true => exact Or.inr rfl
      | false => exact Or.inl rfl
    case h_2 => cases h
  | _ => exact .of_round hs (.of_runningStep hs h) rfl

/-- Every step is one of the moves. -/
theorem ServiceMove.of_step (h : serviceStep cfg b a = some (b', es)) :
    ServiceMove cfg b a b' es := by
  unfold serviceStep at h
  cases hs : b.keeper.store with
  | none =>
    rw [hs] at h
    cases a with
    | start legacy fault =>
      simp only at h
      split at h
      case h_1 hopen =>
        cases h
        exact .opened hs hopen
      case h_2 =>
        cases h
        exact .unchanged
    | _ => cases h
  | some s =>
    rw [hs] at h
    cases a with
    | crash =>
      cases h
      exact .crashed hs
    | _ => exact .of_runningStep hs h

/-- Nothing runs while the store is not open. -/
theorem ServiceMove.down (hmove : ServiceMove cfg b a b' es)
    (hdown : b.keeper.store = none → b.job = .idle)
    (hnone : b'.keeper.store = none) : b'.job = .idle := by
  cases hmove with
  | unchanged => exact hdown hnone
  | crashed _ | ignored _ => rfl
  | began hs _ _ =>
    rw [hs] at hnone
    cases hnone
  | advanced hjob hgo _ =>
    rw [hgo.keeper] at hnone
    rw [hdown hnone] at hjob
    cases hjob
  | gaveUp _ hjob' _ _ => exact hjob'
  | sent hs _ _ | handed hs _ _ =>
    rw [hs] at hnone
    cases hnone
  | _ => cases hnone

end Inversion

-- == the store

section Store

variable {s s' : Store} {f : StateFile}

theorem wrote_mem_wroteOf {ρ : Type} {o : Outcome ρ} :
    .wrote f ∈ wroteOf o ↔ o.written = some f := by
  simp [wroteOf, eq_comm]

theorem wrote_not_mem_markedOf {ρ : Type} {o : Outcome ρ}
    {handles : List Bytes} : .wrote f ∉ markedOf s handles o := by
  intro hf
  obtain ⟨k, hk⟩ := mem_markedOf hf
  cases hk

/-- Calling an operation is a move of the keeper. -/
theorem keeper_called (sha256 : Bytes → Bytes) (op : StoreOp)
    (fault : Option SaveFault) (hs : b.keeper.store = some s) :
    ∃ kes, KeeperMove sha256 b.keeper (.call op fault)
        (b.put (s.exec op fault)) kes
      ∧ ∀ f, .wrote f ∈ wroteOf (s.exec op fault) ↔ .wrote f ∈ kes := by
  refine ⟨_, .called hs (StoreMove.of_exec s op fault), ?_⟩
  intro f
  rw [wrote_mem_wroteOf]
  cases (s.exec op fault).result <;> simp [StoreOp.report, eq_comm]

/-- The item a step is given to queue. -/
def ServiceAct.adds : ServiceAct → Option Outbound
  | .enqueue item _ => some item
  | .start _ _ | .crash | .bootstrap _ _ | .setInitialized _
  | .processEvent _ _ | .fetch _ | .upload _ _ | .markSeen _
  | .sendMessage _ | .takeOutbound _ | .sendSMS _ => none

/-- Of the keeper a step does nothing, or one thing the keeper can do,
given the same item. -/
theorem ServiceMove.keeper (h : ServiceMove cfg b a b' es) :
    (b'.keeper = b.keeper ∧ ∀ f, .wrote f ∉ es)
      ∨ ∃ ka kes, KeeperMove cfg.sha256 b.keeper ka b'.keeper kes
        ∧ (∀ f, .wrote f ∈ es ↔ .wrote f ∈ kes)
        ∧ ka.adds = a.adds := by
  cases h with
  | @opened legacy fault _ _ _ hdown hopen =>
    right
    -- `Open` loads the file, or imports the legacy one
    obtain ⟨hload, rfl⟩ | ⟨d, f, hload, himport, rfl, hsave, rfl⟩ :=
      openStore_ok cfg.sha256 hopen
    · exact ⟨.start legacy fault, _, .loaded hdown hload, by simp, rfl⟩
    · exact ⟨.start legacy fault, _, .imported hload himport hsave,
        by simp, rfl⟩
  | unchanged => exact Or.inl ⟨rfl, by simp⟩
  | crashed hs =>
    exact Or.inr ⟨_, _, .crashed, by simp, rfl⟩
  | @enqueued s item fault hs =>
    obtain ⟨kes, hmove, hwrote⟩ := keeper_called cfg.sha256
      (.addOutbound item) fault hs
    refine Or.inr ⟨_, kes, hmove, ?_, rfl⟩
    intro f
    rw [← hwrote f, List.mem_append, Store.exec]
    split <;> simp
  | @based s handles fault j hs _ _ =>
    obtain ⟨kes, hmove, hwrote⟩ := keeper_called cfg.sha256
      (.markSeenMany handles) fault hs
    refine Or.inr ⟨_, kes, hmove, ?_, rfl⟩
    intro f
    rw [← hwrote f, List.mem_append, Store.exec]
    simp [wrote_not_mem_markedOf]
  | @initialized s fault hs _ =>
    obtain ⟨kes, hmove, hwrote⟩ := keeper_called cfg.sha256
      .setInitialized fault hs
    exact Or.inr ⟨_, kes, hmove, hwrote, rfl⟩
  | ignored _ | began _ _ _ => exact Or.inl ⟨rfl, by simp⟩
  | advanced _ hgo hes =>
    refine Or.inl ⟨hgo.keeper, ?_⟩
    rcases hes with rfl | rfl <;> simp
  | gaveUp _ _ hkeeper _ => exact Or.inl ⟨hkeeper, by simp⟩
  | @marked s t _ _ fault next hs _ hnext =>
    obtain ⟨kes, hmove, hwrote⟩ := keeper_called cfg.sha256
      (.markSeen t.event.handle) fault hs
    refine Or.inr ⟨_, kes, hmove, ?_, rfl⟩
    intro f
    -- sending and returning write nothing
    have hrest : .wrote f ∉ next.2 := by
      rcases hnext with rfl | ⟨-, rest, rfl⟩ <;> simp [Task.done]
    rw [← hwrote f, List.mem_append, List.mem_append, Store.exec]
    simp [wrote_not_mem_markedOf, hrest]
  | sent _ _ hnext =>
    refine Or.inl ⟨rfl, ?_⟩
    rcases hnext with rfl | ⟨rest, rfl⟩ <;> simp [Task.done]
  | @took s fault j hs _ _ =>
    obtain ⟨kes, hmove, hwrote⟩ := keeper_called cfg.sha256
      .takeOutbound fault hs
    exact Or.inr ⟨_, kes, hmove, hwrote, rfl⟩
  | handed _ _ _ => exact Or.inl ⟨rfl, by simp⟩

theorem ServiceMove.sound (h : ServiceMove cfg b a b' es)
    (hb : KeeperSound b.keeper) : KeeperSound b'.keeper := by
  rcases h.keeper with ⟨hsame, -⟩ | ⟨ka, kes, hmove, -, -⟩
  · rwa [hsame]
  · exact hb.move hmove

theorem ServiceMove.agrees (h : ServiceMove cfg b a b' es)
    (hsound : KeeperSound b.keeper) (hb : KeeperAgrees b.keeper) :
    KeeperAgrees b'.keeper := by
  rcases h.keeper with ⟨hsame, -⟩ | ⟨ka, kes, hmove, -, -⟩
  · rwa [hsame]
  · exact hb.move hsound hmove

/-- Where only valid text is added, the queue holds valid text. -/
theorem ServiceMove.text (h : ServiceMove cfg b a b' es)
    (hb : KeeperText b.keeper) (hadd : ∀ item ∈ a.adds, item.ValidText) :
    KeeperText b'.keeper := by
  rcases h.keeper with ⟨hsame, -⟩ | ⟨ka, kes, hmove, -, hadds⟩
  · rwa [hsame]
  · rw [← hadds] at hadd
    exact hb.move hmove hadd

theorem ServiceMove.file (h : ServiceMove cfg b a b' es)
    (hfile : ∃ f, b.keeper.disk = .file f) :
    ∃ f, b'.keeper.disk = .file f := by
  rcases h.keeper with ⟨hsame, -⟩ | ⟨ka, kes, hmove, -, -⟩
  · rwa [hsame]
  · exact hmove.file hfile

/-- A file that is written holds the store the step leaves, and is then
the file at the path. -/
theorem ServiceMove.wrote (h : ServiceMove cfg b a b' es)
    (hf : .wrote f ∈ es) :
    ∃ s, b'.keeper.store = some s ∧ f = stateFile s.data
      ∧ b'.keeper.disk = .file f := by
  rcases h.keeper with ⟨-, hnone⟩ | ⟨ka, kes, hmove, hwrote, -⟩
  · exact absurd hf (hnone f)
  · exact hmove.wrote ((hwrote f).mp hf)

/-- A step that writes nothing leaves the file, and the queue of a store
that stays open. -/
theorem ServiceMove.unwritten (h : ServiceMove cfg b a b' es)
    (hnone : ∀ f, .wrote f ∉ es) :
    b'.keeper.disk = b.keeper.disk
      ∧ ∀ s s', b.keeper.store = some s → b'.keeper.store = some s' →
        s'.data.outbound = s.data.outbound := by
  rcases h.keeper with ⟨hsame, -⟩ | ⟨ka, kes, hmove, hwrote, -⟩
  · rw [hsame]
    refine ⟨rfl, ?_⟩
    intro s s' hs hs'
    rw [hs, Option.some.injEq] at hs'
    rw [hs']
  · exact hmove.unwritten fun f hf => hnone f ((hwrote f).mpr hf)

/-- Where the store is not open, the step has not touched the file. -/
theorem ServiceMove.disk_of_down (h : ServiceMove cfg b a b' es)
    (hdown : b'.keeper.store = none) :
    b'.keeper.disk = b.keeper.disk ∧ ∀ f, .wrote f ∉ es := by
  have hnone : ∀ f, .wrote f ∉ es := by
    intro f hf
    obtain ⟨s, hs, -⟩ := h.wrote hf
    rw [hdown] at hs
    cases hs
  exact ⟨(h.unwritten hnone).1, hnone⟩

/-- A store opened where there is a file is what the file holds. -/
theorem ServiceMove.reopened (h : ServiceMove cfg b a b' es)
    (hdown : b.keeper.store = none) (hfile : ∃ f, b.keeper.disk = .file f)
    (hs : b'.keeper.store = some s) : load b.keeper.disk = .ok s := by
  rcases h.keeper with ⟨hsame, -⟩ | ⟨ka, kes, hmove, -, -⟩
  · rw [hsame, hdown] at hs
    cases hs
  · exact hmove.reopened hdown hfile hs

-- == the handles

/-- The handles of a store stay, or a batch is marked, every new handle of
which is reported. -/
def Marks (s s' : Store) (es : List ServiceEvent) : Prop :=
  s'.data.seenHandles = s.data.seenHandles
    ∨ ∃ handles, s' = s.marked handles
      ∧ ∀ k ∈ handles, k ∉ s.seen → .marked k ∈ es

/-- What an operation does to the handles. -/
theorem marks_of_exec (s : Store) (op : StoreOp)
    (fault : Option SaveFault) (handles : List Bytes)
    (hop : op.marks.getD [] = handles) :
    Marks s (s.exec op fault).store
      (markedOf s handles (s.exec op fault)) := by
  have hmove := StoreMove.of_exec s op fault
  generalize s.exec op fault = o at hmove ⊢
  cases hmove with
  | refused _ _ | idle _ => exact Or.inl rfl
  | stuck hstuck hchange _ =>
    subst hstuck
    cases hchange with
    | initialized _ => exact Or.inl rfl
    | marked hmarks _ _ => cases hmarks
  | saved hchange _ =>
    cases hchange with
    | initialized _ | added _ _ | taken _ => exact Or.inl rfl
    | @marked _ batch hmarks _ _ =>
      rw [hmarks, Option.getD_some] at hop
      subst hop
      refine Or.inr ⟨batch, rfl, ?_⟩
      intro k hk hunseen
      simp [markedOf, Store.hasSeen, hk, hunseen]

theorem Marks.mono {es' : List ServiceEvent} (h : Marks s s' es)
    (hsub : ∀ k, .marked k ∈ es → .marked k ∈ es') : Marks s s' es' := by
  rcases h with hsame | ⟨handles, heq, hall⟩
  · exact Or.inl hsame
  · exact Or.inr ⟨handles, heq, fun k hk hunseen =>
      hsub k (hall k hk hunseen)⟩

/-- What a step does to the handles of the store it has. -/
theorem ServiceMove.marks (h : ServiceMove cfg b a b' es)
    (hs : b.keeper.store = some s) (hs' : b'.keeper.store = some s') :
    Marks s s' es := by
  have hsame : b'.keeper = b.keeper → Marks s s' es := by
    intro hkeeper
    rw [hkeeper, hs, Option.some.injEq] at hs'
    exact Or.inl (by rw [hs'])
  cases h with
  | opened hdown _ =>
    rw [hdown] at hs
    cases hs
  | unchanged => exact hsame rfl
  | crashed _ => cases hs'
  | @enqueued s₁ item fault hpre =>
    rw [hpre, Option.some.injEq] at hs
    subst hs
    cases hs'
    exact (marks_of_exec s₁ (.addOutbound item) fault [] rfl).mono
      (by simp [markedOf])
  | @based s₁ handles fault _ hpre _ _ =>
    rw [hpre, Option.some.injEq] at hs
    subst hs
    cases hs'
    exact (marks_of_exec s₁ (.markSeenMany handles) fault handles rfl).mono
      fun k hk => List.mem_append_right _ hk
  | @initialized s₁ fault hpre _ =>
    rw [hpre, Option.some.injEq] at hs
    subst hs
    cases hs'
    exact (marks_of_exec s₁ .setInitialized fault [] rfl).mono
      (by simp [markedOf])
  | ignored _ | began _ _ _ => exact hsame rfl
  | advanced _ hgo _ => exact hsame hgo.keeper
  | gaveUp _ _ hkeeper _ => exact hsame hkeeper
  | @marked s₁ t _ _ fault _ hpre _ _ =>
    rw [hpre, Option.some.injEq] at hs
    subst hs
    cases hs'
    apply (marks_of_exec s₁ (.markSeen t.event.handle) fault
      [t.event.handle] rfl).mono
    intro k hk
    exact List.mem_append_left _ (List.mem_append_right _ hk)
  | sent _ _ _ => exact hsame rfl
  | @took s₁ fault _ hpre _ _ =>
    rw [hpre, Option.some.injEq] at hs
    subst hs
    cases hs'
    exact (marks_of_exec s₁ .takeOutbound fault [] rfl).mono
      (by simp [markedOf])
  | handed _ _ _ => exact hsame rfl

end Store

end Callbridge.Bridge
