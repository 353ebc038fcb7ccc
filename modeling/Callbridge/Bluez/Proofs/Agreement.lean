/-
The layers that check a pair agree: what passes as a configuration, as a
D-Bus dictionary and in `validateTransportPair` passes as a descriptor
(`descriptors_accepted`).

The other half is about generations. Each call of `nextGeneration` issues
a value above every one before it, and the counters of the handoff server
only take values that were issued, so the check for stale pairs never
fires (`Behind`).
-/
import Callbridge.Lib.Climb
import Callbridge.Bluez.Proofs.Echo
import Callbridge.Bluez.Proofs.PeerLoss

namespace Callbridge.Bluez

open Lib

variable {b b' : Broker} {g g' : UInt64} {id : AcquireId} {d : Delivery}
  {w w' : World} {call : PublishCall}
  {sinkClock sourceClock : Option (Int × Int)} {now : Nat}

-- == generations

/-- Whatever the clock reads, the counter goes up. -/
theorem nextGeneration_spec {clock : Option (Int × Int)}
    (h : b.nextGeneration clock = some (g, b')) :
    b.lastGen.toNat < g.toNat ∧ b' = { b with lastGen := g } := by
  refine ⟨?_, nextGeneration_eq h⟩
  unfold Broker.nextGeneration at h
  split at h
  case h_1 => cases h
  case h_2 sec nsec =>
    split at h
    case isTrue => cases h
    case isFalse =>
      split at h
      case isTrue =>
        split at h
        case isTrue => cases h
        case isFalse hleft =>
          cases h
          -- one more than a value that is not the last does not wrap
          have hmax : maxGeneration.toNat = 2 ^ 64 - 1 := rfl
          have hne : b.lastGen.toNat ≠ 2 ^ 64 - 1 := by
            exact fun he => hleft (UInt64.toNat_inj.mp he)
          have hlt := b.lastGen.toNat_lt
          rw [UInt64.toNat_add, UInt64.toNat_one, Nat.mod_eq_of_lt]
          · omega
          · omega
      case isFalse hgt =>
        cases h
        exact UInt64.lt_iff_toNat_lt.mp (UInt64.not_le.mp hgt)

/-- The generations the last region of `acquire` draws. -/
def Broker.draws (b : Broker) (p : Publication) : List UInt64 :=
  if b.pairCurrentLocked p.conn p.sink p.source then
    match b.nextGeneration p.sinkClock with
    | none => []
    | some (g, b₁) =>
        match b₁.nextGeneration p.sourceClock with
        | none => [g]
        | some (g', _) => [g, g']
  else []

/-- The generations a step of the broker draws. -/
def World.draws (w : World) : Action → List UInt64
  | .acquire id (.publish sinkClock sourceClock lifecycleFD now) =>
      match w.acquires[id]? with
      | some (.correlated a sink source callToken callCorrelated) =>
          if w.broker.requireToken && !callCorrelated then []
          else w.broker.draws ⟨a.conn, sink, source, callToken,
            callCorrelated, sinkClock, sourceClock, lifecycleFD, now⟩
      | _ => []
  | _ => []

theorem lastGen_clearPairingLocked (b : Broker)
    (sink source : PendingTransport) :
    (b.clearPairingLocked sink source).lastGen = b.lastGen := by
  obtain ⟨pairing, he, -⟩ := clearPairingLocked_frame b sink source
  rw [he]

theorem lastGen_handOff (b : Broker) (id : AcquireId) (p : Publication)
    (g g' : UInt64) : (b.handOff id p g g').1.lastGen = b.lastGen := by
  unfold Broker.handOff
  split <;> exact lastGen_clearPairingLocked ..

/-- The draws of a publication ascend from the counter. -/
theorem publish_climbs (b : Broker) (id : AcquireId) (p : Publication) :
    Climbs b.lastGen.toNat ((b.draws p).map UInt64.toNat)
      (b.publish id p).1.lastGen.toNat := by
  unfold Broker.publish Broker.draws
  split
  case isFalse =>
    rw [Broker.returnPair, lastGen_clearPairingLocked]
    exact .nil (Nat.le_refl _)
  case isTrue =>
    cases h₁ : b.nextGeneration p.sinkClock with
    | none =>
      simp only [Broker.returnPair, lastGen_clearPairingLocked]
      exact .nil (Nat.le_refl _)
    | some r =>
      obtain ⟨g, b₁⟩ := r
      obtain ⟨hlt, rfl⟩ := nextGeneration_spec h₁
      cases h₂ : ({ b with lastGen := g } : Broker).nextGeneration
          p.sourceClock with
      | none =>
        simp only [Broker.returnPair, lastGen_clearPairingLocked, h₂]
        exact .single hlt
      | some r =>
        obtain ⟨g', b₂⟩ := r
        obtain ⟨hlt', rfl⟩ := nextGeneration_spec h₂
        simp only [lastGen_handOff, h₂]
        exact (Climbs.single hlt).append (.single hlt')

/-- What is handed to `PublishPair` carries the two generations drawn, the
first of them as its bundle. -/
theorem publish_offer {b : Broker} {id' : AcquireId} {p : Publication}
    {sink source : PendingTransport} {d d' : Descriptor} {ok : Bool}
    (h : Event.publishPair id' sink source d d' ok ∈ (b.publish id p).2) :
    b.draws p = [d.generation, d'.generation]
      ∧ d.bundleID = d.generation := by
  have hnot : ∀ b : Broker, Event.publishPair id' sink source d d' ok
      ∉ (b.returnPair id p.sink p.source).2 := by
    intro b hin
    simp [Broker.returnPair, closeAll] at hin
  unfold Broker.publish at h
  unfold Broker.draws
  split at h
  case isFalse => exact absurd h (hnot b)
  case isTrue hcur =>
    rw [if_pos hcur]
    cases h₁ : b.nextGeneration p.sinkClock with
    | none =>
      rw [h₁] at h
      exact absurd h (hnot b)
    | some drawn =>
      obtain ⟨g, b₁⟩ := drawn
      simp only [h₁] at h
      cases h₂ : b₁.nextGeneration p.sourceClock with
      | none =>
        rw [h₂] at h
        exact absurd h (hnot b₁)
      | some drawn' =>
        simp only [h₂] at h ⊢
        unfold Broker.handOff at h
        split at h
        case h_1 | h_2 =>
          simp only [closeAll, List.mem_cons, Event.publishPair.injEq,
            List.map_cons, List.map_nil, reduceCtorEq, List.not_mem_nil,
            or_false] at h
          obtain ⟨-, -, -, rfl, rfl, -⟩ := h
          exact ⟨rfl, rfl⟩

-- == steps

theorem lastGen_idleSignal (b : Broker) (path : ObjectPath) :
    (b.idleSignal path).1.lastGen = b.lastGen := by
  have h := IdleRegion.of_signal b path
  generalize b.idleSignal path = r at h ⊢
  cases h with
  | passed | noted | completed => rfl

theorem lastGen_clear (b : Broker) (path : ObjectPath) :
    (b.clear path).1.lastGen = b.lastGen := by
  have h := ClearRegion.of_clear b path
  generalize (b.clear path).1 = b' at h ⊢
  cases h with
  | passed | ended => rfl

/-- A session draws no generation. -/
theorem lastGen_sessionStep {sid : SessionId} {s : Session} {act : SessionAct}
    {es : List Event} (hs : w.broker.sessions[sid]? = some s)
    (h : sessionStep w sid s act = some (w', es)) :
    w'.broker.lastGen = w.broker.lastGen := by
  cases SessionRegion.of_step h with
  | count | touch | start => rfl
  | finish ok =>
    have hfinish := FinishRegion.of_finish hs ok
    generalize w.broker.finishRelease sid s ok = r at hfinish ⊢
    cases hfinish with
    | detached | released | exhausted | idled => rfl

/-- A region of an `acquire` call moves the counter by what it draws. -/
theorem acquireStep_climbs {call : Acquire} {act : AcquireAct}
    {es : List Event} (hcall : w.acquires[id]? = some call)
    (h : acquireStep w id call act = some (w', es)) :
    Climbs w.broker.lastGen.toNat
      ((w.draws (.acquire id act)).map UInt64.toNat)
      w'.broker.lastGen.toNat := by
  cases AcquireMove.of_step h with
  | enter | readLinks | refuse | mark | fail | reject | undecoded | wait
  | correlate | unmark | acquire => exact .nil (Nat.le_refl _)
  | giveBack ho | park ho | pair ho =>
    obtain ⟨pending, pairing, rfl, -⟩ := holdTransport_frame ho
    exact .nil (Nat.le_refl _)
  | @publish a p pairing b es =>
    simp only [World.draws, hcall]
    simp only [acquireStep, World.publish, Option.some.injEq] at h
    split at h
    case isTrue hreq =>
      have hlast : (w.broker.returnPair id p.sink p.source).1 = b :=
        congrArg World.broker (Prod.mk.inj h).1
      rw [if_pos hreq, ← hlast, Broker.returnPair,
        lastGen_clearPairingLocked]
      exact .nil (Nat.le_refl _)
    case isFalse hreq =>
      have hlast : (w.broker.publish id _).1 = b :=
        congrArg World.broker (Prod.mk.inj h).1
      rw [if_neg hreq, ← hlast]
      exact publish_climbs ..

/-- Every step moves the counter by the generations it draws. -/
theorem step_climbs {act : Action} {es : List Event}
    (h : step w act = some (w', es)) :
    Climbs w.broker.lastGen.toNat ((w.draws act).map UInt64.toNat)
      w'.broker.lastGen.toNat := by
  have hsame : w'.broker.lastGen = w.broker.lastGen → w.draws act = [] →
      Climbs w.broker.lastGen.toNat ((w.draws act).map UInt64.toNat)
        w'.broker.lastGen.toNat := by
    intro hlast hnil
    rw [hlast, hnil]
    exact .nil (Nat.le_refl _)
  cases act with
  | connect devicePath | unregister =>
    cases h
    exact hsame rfl rfl
  | disconnect => cases h; exact hsame rfl rfl
  | configure valid path direction codec qos =>
    cases h
    refine hsame ?_ rfl
    unfold Broker.configure
    cases w.broker.configureRefused valid path <;> rfl
  | clear path => cases h; exact hsame (lastGen_clear _ _) rfl
  | signal path state =>
    cases state with
    | pending | active => cases h; exact hsame rfl rfl
    | idle => cases h; exact hsame (lastGen_idleSignal _ _) rfl
  | acquire id act =>
    obtain ⟨call, hcall, h⟩ := step_acquire h
    exact acquireStep_climbs hcall h
  | expire path generation =>
    obtain ⟨pending, timers, rfl, -⟩ := step_expire_frame h
    exact hsame rfl rfl
  | session sid act =>
    obtain ⟨s, hs, h⟩ := step_session h
    exact hsame (lastGen_sessionStep hs h) rfl
  | statistic k => cases h; exact hsame rfl rfl

-- == descriptors

/-- A pending transport whose parts come from where they should: the codec
from a configuration, the quality of service from the transport, the MTUs
and the path within bounds. -/
structure Negotiated (t : PendingTransport) : Prop where
  codec : ∃ raw, parseConfiguration raw = .ok t.config.codec
  qos : ∃ qos selected,
    parseFinalTransportQoS qos t.config.codec selected = .ok t.qos
  readMTU : t.config.codec.octetsPerFrame ≤ t.readMTU.toNat
    ∧ t.readMTU.toNat ≤ 4096
  writeMTU : t.config.codec.octetsPerFrame ≤ t.writeMTU.toNat
    ∧ t.writeMTU.toNat ≤ 4096
  path : t.path.head? = some 0x2f ∧ t.path.length ≤ 512
    ∧ 0x00 ∉ t.path

/-- What `waitForCallToken` returns for the last answer it gets. -/
def waitedToken (answer : Option (UInt64 × Bool)) : UInt64 × Bool :=
  match correlatedToken answer with
  | some token => (token, true)
  | none => (0, false)

/-- Correlated is what has a token. -/
theorem waitedToken_spec (answer : Option (UInt64 × Bool)) :
    (waitedToken answer).2 = decide ((waitedToken answer).1 ≠ 0) := by
  unfold waitedToken
  cases h : correlatedToken answer with
  | none => rfl
  | some token =>
    unfold correlatedToken at h
    split at h
    case h_1 t correlated =>
      split at h
      case isTrue hc =>
        cases h
        simp only [Bool.and_eq_true, bne_iff_ne] at hc
        simp [hc.2]
      case isFalse => cases h
    case h_2 => cases h

/-- A descriptor built from a negotiated transport is valid. -/
theorem Negotiated.valid {t : PendingTransport} (h : Negotiated t)
    {g bundle : UInt64} (hg : g ≠ 0) (hb : bundle ≠ 0)
    (answer : Option (UInt64 × Bool)) :
    validateDescriptor (descriptorForPending t g bundle
      (waitedToken answer).1 (waitedToken answer).2) = none := by
  obtain ⟨raw, hparse⟩ := h.codec
  obtain ⟨qos, selected, hfinal⟩ := h.qos
  obtain ⟨preset, hpreset, allocation, hone, hcodec⟩ :=
    parseConfiguration_preset hparse
  obtain ⟨hsound, hids⟩ := parseFinalTransportQoS_sound hfinal
  have hoctets := parseConfiguration_octets hparse
  -- one field for each of the receiver's checks
  refine validateDescriptor_none.mpr {
    direction := ?_
    generation := ⟨hg, hb⟩
    owned := ⟨rfl, rfl⟩
    lifecycle := ?_
    callToken := waitedToken_spec answer
    preset := ⟨?_, hsound.interval⟩
    allocation := ?_
    parameters := ?_
    latency := ?_
    mtu := ?_
    path := ?_ }
  · unfold descriptorForPending
    cases t.config.direction with
    | sink => exact Or.inl rfl
    | source => exact Or.inr rfl
  · unfold descriptorForPending
    cases t.config.direction <;> rfl
  · refine List.any_eq_true.mpr ⟨preset, hpreset, ?_⟩
    simp [descriptorForPending, hcodec]
  · simp only [oneLocation, Bool.not_eq_true', Bool.or_eq_false_iff,
      beq_eq_false_iff_ne, bne_eq_false_iff_eq] at hone
    show t.config.codec.channelAllocation ≠ 0
      ∧ onesCount32 t.config.codec.channelAllocation = 1
    rw [hcodec]
    exact hone
  · simp only [descriptorForPending, not_or, gt_iff_lt, UInt8.not_lt]
    exact ⟨hsound.framing, hsound.phy, hsound.retransmissions.1,
      hsound.retransmissions.2, hsound.targetLatency.1,
      hsound.targetLatency.2, hids.1, hids.2⟩
  · simp only [descriptorForPending, not_or, gt_iff_lt, UInt16.not_lt,
      UInt32.not_lt]
    exact ⟨hsound.latency.1, hsound.latency.2, hsound.delay.1,
      hsound.delay.2⟩
  · -- a frame fits the MTU, and the MTU the packet
    have hframe : (UInt16.ofNat t.config.codec.octetsPerFrame).toNat
        = t.config.codec.octetsPerFrame := UInt16.toNat_ofNat_of_lt' hoctets
    obtain ⟨hread, hread'⟩ := h.readMTU
    obtain ⟨hwrite, hwrite'⟩ := h.writeMTU
    simp only [descriptorForPending, gt_iff_lt, UInt16.lt_iff_toNat_lt,
      hframe]
    rintro (hgt | hgt | ⟨-, hlt⟩ | ⟨-, hlt⟩)
    · exact absurd hgt (Nat.not_lt.mpr hread')
    · exact absurd hgt (Nat.not_lt.mpr hwrite')
    · exact absurd hlt (Nat.not_lt.mpr hread)
    · exact absurd hlt (Nat.not_lt.mpr hwrite)
  · obtain ⟨hhead, hlen, hnul⟩ := h.path
    show ¬ (t.path.length = 0 ∨ t.path.length > maximumTransport
      ∨ byteAt t.path 0 ≠ 0x2f ∨ 0x00 ∈ t.path)
    cases hpath : t.path with
    | nil => rw [hpath] at hhead; cases hhead
    | cons c rest =>
      rw [hpath] at hhead hlen hnul
      obtain rfl := Option.some.inj hhead
      rintro (h0 | hlong | hslash | hin)
      · cases h0
      · exact absurd hlong (Nat.not_lt.mpr hlen)
      · exact hslash rfl
      · exact hnul hin

/-- The two descriptors of a pair that `validateTransportPair` accepts are
accepted, each and together. -/
theorem descriptors_accepted {first second : PendingTransport}
    (hfirst : Negotiated first) (hsecond : Negotiated second)
    (hpair : validateTransportPair first second = none) {p : Publication}
    {answer : Option (UInt64 × Bool)} {b₁ b₂ : Broker}
    (horient : orient first second = (p.sink, p.source))
    (htoken : (p.callToken, p.callCorrelated) = waitedToken answer)
    (h₁ : b.nextGeneration p.sinkClock = some (g, b₁))
    (h₂ : b₁.nextGeneration p.sourceClock = some (g', b₂)) :
    validateDescriptor (p.sinkDescriptor g) = none
      ∧ validateDescriptor (p.sourceDescriptor g g') = none
      ∧ validateDescriptorPair (p.sinkDescriptor g)
          (p.sourceDescriptor g g') = none := by
  have hpos : ∀ {b b' : Broker} {clock : Option (Int × Int)} {g : UInt64},
      b.nextGeneration clock = some (g, b') → g ≠ 0 := by
    rintro b b' clock g h rfl
    exact absurd (nextGeneration_spec h).1 (Nat.not_lt_zero _)
  simp only [validateTransportPair, ite_some_eq_none, not_or, not_not,
    and_true] at hpair
  obtain ⟨hdir, ⟨hrate, hduration, hoctets⟩,
    ⟨hcig, hcis, hinterval, hframing, hphy⟩, -, -⟩ := hpair
  have htoken₁ : p.callToken = (waitedToken answer).1 :=
    congrArg Prod.fst htoken
  have htoken₂ : p.callCorrelated = (waitedToken answer).2 :=
    congrArg Prod.snd htoken
  unfold Publication.sinkDescriptor Publication.sourceDescriptor
  rw [htoken₁, htoken₂]
  -- which of the two is the sink decides the order
  unfold orient at horient
  cases hsink : first.config.direction with
  | sink =>
    rw [if_pos hsink] at horient
    obtain ⟨rfl, rfl⟩ := Prod.mk.inj horient
    have hsource : p.source.config.direction = .source := by
      cases hd : p.source.config.direction with
      | sink => exact absurd (hsink.trans hd.symm) hdir
      | source => rfl
    refine ⟨hfirst.valid (hpos h₁) (hpos h₁) answer,
      hsecond.valid (hpos h₂) (hpos h₁) answer, ?_⟩
    simp [validateDescriptorPair, descriptorForPending, hsink, hsource,
      hrate, hduration, hoctets, hcig, hcis, hinterval, hframing, hphy]
  | source =>
    have hne : ¬ first.config.direction = .sink := by
      rw [hsink]
      simp
    rw [if_neg hne] at horient
    obtain ⟨rfl, rfl⟩ := Prod.mk.inj horient
    have hsource : p.sink.config.direction = .sink := by
      cases hd : p.sink.config.direction with
      | sink => rfl
      | source => exact absurd (hsink.trans hd.symm) hdir
    refine ⟨hsecond.valid (hpos h₁) (hpos h₁) answer,
      hfirst.valid (hpos h₂) (hpos h₁) answer, ?_⟩
    simp [validateDescriptorPair, descriptorForPending, hsink, hsource,
      hrate, hduration, hoctets, hcig, hcis, hinterval, hframing, hphy]

-- == stale pairs

/-- The counters of the server are not ahead of the broker's. -/
structure Behind (m : Peering) : Prop where
  sink : m.handoff.server.lastGenSink.toNat ≤ m.world.broker.lastGen.toNat
  source :
    m.handoff.server.lastGenSource.toNat ≤ m.world.broker.lastGen.toNat
  bundle : m.handoff.server.lastBundle.toNat ≤ m.world.broker.lastGen.toNat

section Stale

variable {m m' : Peering} {act : PeeringAct} {es : List PeeringEvent}

/-- What a region offers to `PublishPair` carries what it draws, whatever
the answer. -/
theorem publishCall_draws
    (h : m.publishCall id sinkClock sourceClock d now = some call)
    (lifecycleFD : Option Int) :
    m.world.draws (.acquire id
        (.publish sinkClock sourceClock lifecycleFD now))
      = [call.sink.generation, call.source.generation]
    ∧ call.sink.bundleID = call.sink.generation := by
  unfold Peering.publishCall at h
  split at h
  case h_2 => cases h
  case h_1 w es hstep =>
    obtain ⟨e, he, hcall⟩ := List.exists_of_findSome?_eq_some h
    cases e with
    | publishPair id' sink source sinkDescriptor sourceDescriptor ok =>
      cases hcall
      simp only [step] at hstep
      split at hstep
      case h_2 => cases hstep
      case h_1 acquire hacquire =>
        cases acquire with
        | correlated a sink source callToken callCorrelated =>
          simp only [acquireStep, World.publish,
            Option.some.injEq] at hstep
          simp only [World.draws, hacquire]
          split at hstep
          case isTrue =>
            -- a pair that goes back is not offered
            cases hstep
            simp [Broker.returnPair, closeAll] at he
          case isFalse hreq =>
            rw [if_neg hreq]
            have hes : (m.world.broker.publish id _).2 = es :=
              (Prod.mk.inj hstep).2
            rw [← hes] at he
            obtain ⟨hdraws, hbundle⟩ := publish_offer he
            exact ⟨hdraws, hbundle⟩
        | _ => cases hstep
    | _ => cases hcall

/-- A publication moves the counter by the generations of its call. -/
theorem publish_call_climbs
    (hmove : PeeringMove m (.publish id sinkClock sourceClock d now) m' es)
    (hcall : m.publishCall id sinkClock sourceClock d now = some call) :
    Climbs m.world.broker.lastGen.toNat
      [call.sink.generation.toNat, call.source.generation.toNat]
      m'.world.broker.lastGen.toNat := by
  have hstep : step m.world (.acquire id (.publish sinkClock sourceClock
      (m.lifecycleFD (m.publishCall id sinkClock sourceClock d now)) now))
        = some (m'.world, _) := hmove.broker
  have hclimbs := step_climbs hstep
  rw [(publishCall_draws hcall _).1] at hclimbs
  exact hclimbs

theorem PublishMove.advanced {s s' : HandoffServer} {fd : Int}
    {out : List ServerEvent} (h : PublishMove s call (.ok fd) s' out) :
    s' = s.advance call := by
  cases h
  rfl

/-- A step of the broker alone leaves the server behind. -/
theorem Behind.of_same (h : Behind m)
    (hle : m.world.broker.lastGen.toNat ≤ m'.world.broker.lastGen.toNat)
    (hsame : SameCounters m.handoff.server m'.handoff.server) :
    Behind m' where
  sink := by rw [hsame.1]; exact h.sink.trans hle
  source := by rw [hsame.2.1]; exact h.source.trans hle
  bundle := by rw [hsame.2.2]; exact h.bundle.trans hle

theorem optStep_lastGen {a : Option Action} {out : List Event}
    (h : optStep step w a = some (w', out)) :
    w.broker.lastGen.toNat ≤ w'.broker.lastGen.toNat := by
  cases a with
  | none =>
    cases h
    exact Nat.le_refl _
  | some a => exact (step_climbs h).le

/-- A region of the server's loop leaves the counters alone. -/
theorem loop_sameCounters {s s' : Handoff} {a : ServingAct}
    {out : List ServerEvent} (h : handoffStep s (.loop a) = some (s', out)) :
    SameCounters s.server s'.server := by
  cases HandoffMove.of_step h <;> exact ⟨rfl, rfl, rfl⟩

/-- The counters of the server stay behind the broker's. -/
theorem Behind.step (h : Behind m) (hmove : PeeringMove m act m' es) :
    Behind m' := by
  have hle := optStep_lastGen hmove.broker
  have hserver := hmove.server
  cases act with
  | broker a =>
    refine h.of_same hle ?_
    rw [(optStep_none hserver).1]
    exact ⟨rfl, rfl, rfl⟩
  | serve a => exact h.of_same hle (loop_sameCounters hserver)
  | readActive =>
    refine h.of_same hle ?_
    rw [(optStep_none hserver).1]
    exact ⟨rfl, rfl, rfl⟩
  | requestRelease => exact h.of_same hle (loop_sameCounters hserver)
  | publish id sinkClock sourceClock d now =>
    simp only [Peering.serverAct] at hserver
    cases hcall : m.publishCall id sinkClock sourceClock d now with
    | none =>
      rw [hcall] at hserver
      refine h.of_same hle ?_
      rw [(optStep_none hserver).1]
      exact ⟨rfl, rfl, rfl⟩
    | some call =>
      rw [hcall] at hserver
      have hpost : m'.handoff.server
          = (m.handoff.server.publishPair call).2.1 := by
        rw [← (Prod.mk.inj (Option.some.inj hserver)).1]
      have hmove' := PublishMove.of_publishPair m.handoff.server call
      rw [← hpost] at hmove'
      generalize (m.handoff.server.publishPair call).1 = r at hmove'
      cases r with
      -- a refused pair leaves the server's counters
      | error e => exact h.of_same hle hmove'.same
      | ok fd =>
        have hclimbs := publish_call_climbs hmove hcall
        have hsink := hclimbs.below call.sink.generation.toNat
          (by simp)
        have hsource := hclimbs.below call.source.generation.toNat
          (by simp)
        -- the bundle number is the sink's generation
        have hbundle := (publishCall_draws hcall none).2
        have hserver := hmove'.advanced
        refine ⟨?_, ?_, ?_⟩
        · rw [hserver]
          exact hsink
        · rw [hserver]
          exact hsource
        · rw [hserver]
          show call.sink.bundleID.toNat ≤ _
          rw [hbundle]
          exact hsink

/-- From a server that is behind, no pair is refused as stale. -/
theorem Behind.not_stale (h : Behind m)
    (hmove : PeeringMove m (.publish id sinkClock sourceClock d now) m' es)
    (hcall : m.publishCall id sinkClock sourceClock d now = some call) :
    (m.handoff.server.publishPair call).1 ≠ .error .stale := by
  have hclimbs := publish_call_climbs hmove hcall
  have hsink := hclimbs.above call.sink.generation.toNat (by simp)
  have hsource := hclimbs.above call.source.generation.toNat (by simp)
  have hbundle := (publishCall_draws hcall none).2
  have hfresh : m.handoff.server.stale call.sink call.source = false := by
    simp only [HandoffServer.stale, Bool.or_eq_false_iff,
      decide_eq_false_iff_not, UInt64.not_le, UInt64.lt_iff_toNat_lt,
      hbundle]
    exact ⟨⟨h.sink.trans_lt hsink, h.source.trans_lt hsource⟩,
      h.bundle.trans_lt hsink⟩
  intro hstale
  have hpublish := PublishMove.of_publishPair m.handoff.server call
  rw [hstale] at hpublish
  generalize (m.handoff.server.publishPair call).2.1 = s at hpublish
  generalize (m.handoff.server.publishPair call).2.2 = out at hpublish
  cases hpublish with
  | refused hwhy => rw [hwhy rfl] at hfresh; cases hfresh
  | unsent _ hne | cut _ hne _ => exact hne rfl

end Stale

-- == the theorem

/-- The generations a run of broker and server draws, in order. -/
def drawn (tr : List PeeringTrans) : List UInt64 :=
  tr.flatMap fun x =>
    match x.pre.brokerAct x.act with
    | some act => x.pre.world.draws act
    | none => []

/-- The validation layers agree up to publication: the descriptors of a
negotiated pair pass, whatever generations and token they get; and in
every run the generations drawn are strictly ascending from 1, and no call
of `PublishPair` is refused as stale. -/
theorem validation_layers_agree :
    (∀ (first second : PendingTransport), Negotiated first →
      Negotiated second → validateTransportPair first second = none →
      ∀ (b b₁ b₂ : Broker) (p : Publication) (g g' : UInt64)
        (answer : Option (UInt64 × Bool)),
        orient first second = (p.sink, p.source) →
        (p.callToken, p.callCorrelated) = waitedToken answer →
        b.nextGeneration p.sinkClock = some (g, b₁) →
        b₁.nextGeneration p.sourceClock = some (g', b₂) →
        validateDescriptor (p.sinkDescriptor g) = none
          ∧ validateDescriptor (p.sourceDescriptor g g') = none
          ∧ validateDescriptorPair (p.sinkDescriptor g)
              (p.sourceDescriptor g g') = none)
      ∧ ∀ (device : Bytes) (required : Bool) (wait : Nat)
          (tr : List PeeringTrans) (m : Peering),
          Exec peeringStep (newPeering (newBroker device required wait))
            tr m →
          (drawn tr).Pairwise (· < ·) ∧ (∀ g ∈ drawn tr, 1 ≤ g)
            ∧ ∀ x ∈ tr, ∀ id sinkClock sourceClock d now call,
                x.act = .publish id sinkClock sourceClock d now →
                x.pre.publishCall id sinkClock sourceClock d now
                  = some call →
                (x.pre.handoff.server.publishPair call).1
                  ≠ .error .stale := by
  constructor
  · intro first second hfirst hsecond hpair b b₁ b₂ p g g' answer horient
      htoken h₁ h₂
    exact descriptors_accepted hfirst hsecond hpair horient htoken h₁ h₂
  · intro device required wait tr m hrun
    -- the draws of a run ascend from zero
    have hclimbs : Climbs 0 ((drawn tr).map UInt64.toNat)
        m.world.broker.lastGen.toNat := by
      rw [drawn, List.map_flatMap]
      refine hrun.climbs (v := fun m => m.world.broker.lastGen.toNat) ?_
      intro x hx
      have hbroker := (PeeringMove.of_step hx).broker
      cases hact : x.pre.brokerAct x.act with
      | none =>
        rw [hact] at hbroker
        simp only [(optStep_none hbroker).1]
        exact .nil (Nat.le_refl _)
      | some act =>
        rw [hact] at hbroker
        exact step_climbs hbroker
    refine ⟨?_, ?_, ?_⟩
    · refine (List.pairwise_map.mp hclimbs.ascending).imp ?_
      intro g g' hlt
      exact UInt64.lt_iff_toNat_lt.mpr hlt
    · intro g hg
      exact UInt64.le_iff_toNat_le.mpr
        (hclimbs.above g.toNat (List.mem_map_of_mem hg))
    · intro x hx id sinkClock sourceClock d now call hact hcall
      obtain ⟨t₁, t₂, rfl, hbefore, hstep, -⟩ := hrun.of_mem hx
      -- so the server's counters are below the next draw
      have hbehind : Behind x.pre := by
        refine hbefore.inv (P := Behind) ⟨by simp [newPeering, newHandoff,
          newHandoffServer], by simp [newPeering, newHandoff,
          newHandoffServer], by simp [newPeering, newHandoff,
          newHandoffServer]⟩ ?_
        intro s a s' es hs hstep
        exact hs.step (PeeringMove.of_step hstep)
      have hmove := PeeringMove.of_step hstep
      rw [hact] at hmove
      exact hbehind.not_stale hmove hcall

/-- The transport of one direction of a 16 kHz pair. -/
def samplePending (direction : Direction) : PendingTransport :=
  sampleHeld (samplePath 1) [] direction 1 [] 0

/-- Either half of the sample pair is what a negotiation leaves. -/
theorem samplePending_negotiated (direction : Direction) :
    Negotiated (samplePending direction) where
  codec := ⟨[2, 1, 3, 2, 2, 1, 3, 4, 40, 0], by
    show parseConfiguration _ = .ok sampleCodec
    decide +kernel⟩
  qos := ⟨qosVariants sampleQoS, sampleQoS, by
    show parseFinalTransportQoS _ sampleCodec _ = .ok sampleQoS
    decide +kernel⟩
  readMTU := ⟨Nat.le_refl _, by simp [samplePending, sampleHeld]⟩
  writeMTU := ⟨Nat.le_refl _, by simp [samplePending, sampleHeld]⟩
  path := ⟨rfl, by simp [samplePending, sampleHeld, samplePath],
    by simp [samplePending, sampleHeld, samplePath]⟩

/-- The publication of the two, at one clock reading. -/
def samplePublication : Publication :=
  ⟨0, samplePending .sink, samplePending .source, 7, true, some (1, 0),
    some (1, 0), none, 0⟩

/-- A pair that is published on a run. -/
theorem validation_layers_agree_sample :
    (validateDescriptor (samplePublication.sinkDescriptor 1000000000) = none
      ∧ validateDescriptorPair (samplePublication.sinkDescriptor 1000000000)
          (samplePublication.sourceDescriptor 1000000000 1000000001)
        = none)
    ∧ ∃ tr m, Exec peeringStep (newPeering (newBroker sampleDevice true 1))
        tr m
      ∧ drawn tr = [1000000000, 1000000001]
      ∧ (drawn tr).Pairwise (· < ·) := by
  constructor
  · obtain ⟨hsink, -, hpair⟩ := validation_layers_agree.1
      (samplePending .sink) (samplePending .source)
      (samplePending_negotiated _) (samplePending_negotiated _)
      (by decide +kernel) (newBroker [] true 1)
      { newBroker [] true 1 with lastGen := 1000000000 }
      { newBroker [] true 1 with lastGen := 1000000001 } samplePublication
      1000000000 1000000001 (some (7, true)) rfl rfl (by decide +kernel)
      (by decide +kernel)
    exact ⟨hsink, hpair⟩
  · obtain ⟨tr, m, hrun, htest⟩ := exec_of_decide peeringStep
      (newPeering (newBroker sampleDevice true 1)) sessionBegins
      (fun tr _ => drawn tr = [1000000000, 1000000001]) (by decide +kernel)
    exact ⟨tr, m, hrun, htest,
      (validation_layers_agree.2 _ _ _ tr m hrun).1⟩

end Callbridge.Bluez
