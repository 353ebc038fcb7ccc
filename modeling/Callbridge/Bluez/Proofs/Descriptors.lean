/-
Descriptors have one owner. What `acquire` obtains is in its own hands
until it puts it into `pending`, and whoever takes the entry out closes it
or has it in hand again. Every region keeps the account (`step_balance`),
so a descriptor is closed once, and with no `acquire` under way what is
open is what `pending` holds.

One return of `acquire` does not close what it obtained, after a
`TryAcquire` whose reply does not decode; that is `leaked`.
-/
import Callbridge.Bluez.Proofs.CustodySteps
import Callbridge.Bluez.Proofs.Generations
import Callbridge.Bluez.Proofs.OneOutcome

namespace Callbridge.Bluez

open Lib

variable {b b' : Broker} {w w' : World} {es : List Event} {id : AcquireId}
  {held : PendingTransport} {linkedPeer : Option PendingTransport}
  {next call : Acquire}

-- == the account

/-- The descriptors of a transport and its linked peer. -/
def fdsOf (held : PendingTransport) (linkedPeer : Option PendingTransport) :
    List FD :=
  held.fd :: linkedPeer.toList.map PendingTransport.fd

/-- What an `acquire` call has in its own hands. -/
def Acquire.hand : Acquire → List FD
  | .held _ transport linkedPeer => fdsOf transport linkedPeer
  | .reserved _ sink source => [sink.fd, source.fd]
  | .correlated _ sink source _ _ => [sink.fd, source.fd]
  | _ => []

def World.hands (w : World) : Multiset FD :=
  (w.acquires.flatMap Acquire.hand : List FD)

def World.holds (w : World) : Multiset FD := w.broker.pendingFDs + w.hands

/-- The action of a reply that does not decode. -/
def Action.isUndecoded : Action → Bool
  | .acquire _ .undecoded => true
  | _ => false

/-- The descriptor a step lets go of without closing it. -/
def leaked (x : WorldTrans) : Multiset FD :=
  if x.act.isUndecoded then {x.pre.fds} else 0

-- == the third region

/-- The key of an entry is its path. -/
def Broker.Keyed (b : Broker) : Prop :=
  ∀ p t, b.pending.lookup p = some t → p = t.path

theorem keyed_place (hk : b.Keyed) (linkedPeer : Option PendingTransport) :
    (b.place held linkedPeer).Keyed := by
  intro p t ht
  rcases lookup_place ht with hb | ⟨-, hp⟩
  · exact hk p t hb
  · exact hp

/-- Putting the transports into the map. -/
theorem pendingFDs_place (h : Placeable b held linkedPeer) :
    (b.place held linkedPeer).pendingFDs
      = (fdsOf held linkedPeer : Multiset FD) + b.pendingFDs := by
  have hheld : (b.holdPending held).pendingFDs
      = held.fd ::ₘ b.pendingFDs :=
    GoMap.gather_insert PendingTransport.fd held h.free
  cases linkedPeer with
  | none => exact hheld
  | some peer =>
    have hpeer : ((b.holdPending held).holdPending peer).pendingFDs
        = peer.fd ::ₘ (b.holdPending held).pendingFDs :=
      GoMap.gather_insert PendingTransport.fd peer (h.peer rfl).2
    show ((b.holdPending held).holdPending peer).pendingFDs = _
    rw [hpeer, hheld, Multiset.cons_swap]
    show _ = (held.fd ::ₘ peer.fd ::ₘ 0) + b.pendingFDs
    rw [Multiset.cons_add, Multiset.cons_add, zero_add]

theorem lookup_place_held (h : Placeable b held linkedPeer) :
    (b.place held linkedPeer).pending.lookup held.path = some held := by
  cases linkedPeer with
  | none =>
    show (b.holdPending held).pending.lookup held.path = _
    rw [lookup_holdPending, if_pos rfl]
  | some peer =>
    show ((b.holdPending held).holdPending peer).pending.lookup _ = _
    rw [lookup_holdPending, if_neg h.path_ne.symm, lookup_holdPending,
      if_pos rfl]

/-- Taking a transport and a candidate for its peer out again. -/
theorem pendingFDs_drop {peer : PendingTransport} (hk : b.Keyed)
    (hheld : b.pending.lookup held.path = some held)
    (hc : Candidate b held peer) :
    b.pendingFDs = held.fd ::ₘ peer.fd
      ::ₘ ((b.dropPending held.path).dropPending peer.path).pendingFDs := by
  obtain ⟨⟨p, hp⟩, hne, -⟩ := hc
  have hpeer : (b.pending.erase held.path).lookup peer.path = some peer := by
    rw [GoMap.lookup_erase, if_neg hne, ← hk p peer hp]
    exact hp
  exact (GoMap.gather_erase PendingTransport.fd hheld).trans
    (congrArg _ (GoMap.gather_erase PendingTransport.fd hpeer))

/-- What the outcome leaves in hand. -/
def HoldOutcome.hand : HoldOutcome → List FD
  | .paired sink source => [sink.fd, source.fd]
  | _ => []

theorem orient_fds (held peer : PendingTransport) :
    ([(orient held peer).1.fd, (orient held peer).2.fd] : Multiset FD)
      = held.fd ::ₘ peer.fd ::ₘ 0 := by
  unfold orient
  split
  case isTrue => rfl
  case isFalse => exact Multiset.cons_swap peer.fd held.fd 0

theorem closed_pair (first second : PendingTransport) :
    tally Event.closedFD (closeAll [first, second])
      = first.fd ::ₘ second.fd ::ₘ 0 :=
  closed_closeAll [first, second]

theorem Held.opened {o : HoldOutcome} (h : Held b held linkedPeer o b' es) :
    tally Event.openedFD es = 0 := by
  cases h with
  | refused | taken => exact opened_closeAll _
  | parked => rfl
  | mismatched => exact opened_closeAll _
  | paired => rfl

/-- What was in hand and in the map is, after the region, closed, in hand
or in the map. -/
theorem Held.balance {o : HoldOutcome} (hk : b.Keyed)
    (h : Held b held linkedPeer o b' es) :
    tally Event.closedFD es + ((o.hand : Multiset FD) + b'.pendingFDs)
      = (fdsOf held linkedPeer : Multiset FD) + b.pendingFDs := by
  -- the two outcomes with a candidate: both entries come out of the map
  have hout : ∀ {peer : PendingTransport}, Placeable b held linkedPeer →
      Candidate (b.place held linkedPeer) held peer →
      (held.fd ::ₘ peer.fd ::ₘ 0)
          + (((b.place held linkedPeer).dropPending held.path).dropPending
            peer.path).pendingFDs
        = (fdsOf held linkedPeer : Multiset FD) + b.pendingFDs := by
    intro peer hp hc
    rw [← pendingFDs_place hp,
      pendingFDs_drop (keyed_place hk linkedPeer) (lookup_place_held hp) hc,
      Multiset.cons_add, Multiset.cons_add, zero_add]
  cases h with
  | refused =>
    have hperm : ((linkedPeer.toList ++ [held]).map PendingTransport.fd
        : Multiset FD) = (fdsOf held linkedPeer : Multiset FD) :=
      Multiset.coe_eq_coe.mpr
        ((List.perm_append_singleton held _).map PendingTransport.fd)
    rw [closed_closeAll, hperm]
    exact congrArg _ (zero_add _)
  | @taken peer hpeer hfree =>
    subst hpeer
    have hback : ((b.holdPending held).dropPending held.path).pendingFDs
        = b.pendingFDs := by
      have hin : (b.holdPending held).pending.lookup held.path
          = some held := by
        rw [lookup_holdPending, if_pos rfl]
      have he := GoMap.gather_erase PendingTransport.fd hin
      have hi := GoMap.gather_insert PendingTransport.fd held hfree
      exact (Multiset.cons_inj_right held.fd).mp (he.symm.trans hi)
    rw [closed_pair, hback, Multiset.cons_swap]
    exact congrArg _ (zero_add _)
  | parked hp _ =>
    rw [pendingFDs_place hp]
    exact (zero_add _).trans (zero_add _)
  | mismatched hp hc =>
    rw [closed_pair, ← hout hp hc]
    exact congrArg _ (zero_add _)
  | @paired peer hp hc =>
    rw [← hout hp hc, ← orient_fds held peer]
    exact zero_add _

-- == reading the books

theorem count_opened (es : List Event) (fd : FD) :
    (tally Event.openedFD es).count fd = es.count (.opened fd) := by
  refine count_tally (fun e => ?_) es
  cases e <;> simp [Event.openedFD]

theorem count_closed (es : List Event) (fd : FD) :
    (tally Event.closedFD es).count fd = es.count (.closed fd) := by
  refine count_tally (fun e => ?_) es
  cases e <;> simp [Event.closedFD]

-- == the hands

/-- Where the books of one `acquire` call balance, all of them do. -/
theorem holds_moved {closed opened lost : Multiset FD}
    (hid : w.acquires[id]? = some call)
    (hnext : w'.acquires = w.acquires.set id next)
    (h : closed + lost + ((next.hand : Multiset FD) + w'.broker.pendingFDs)
      = opened + ((call.hand : Multiset FD) + w.broker.pendingFDs)) :
    closed + lost + w'.holds = opened + w.holds := by
  have hhands : (call.hand : Multiset FD) + w'.hands
      = (next.hand : Multiset FD) + w.hands := by
    unfold World.hands
    rw [hnext, Multiset.coe_add, Multiset.coe_add]
    exact Multiset.coe_eq_coe.mpr (flatMap_set_perm Acquire.hand hid next)
  unfold World.holds
  ext fd
  have hcount := congrArg (Multiset.count fd) h
  have hmoved := congrArg (Multiset.count fd) hhands
  simp only [Multiset.count_add] at hcount hmoved ⊢
  omega

theorem holds_kept {closed opened : Multiset FD}
    (hid : w.acquires[id]? = some call)
    (hnext : w'.acquires = w.acquires.set id next)
    (h : closed + ((next.hand : Multiset FD) + w'.broker.pendingFDs)
      = opened + ((call.hand : Multiset FD) + w.broker.pendingFDs)) :
    closed + 0 + w'.holds = opened + w.holds := by
  refine holds_moved hid hnext ?_
  rw [add_zero]
  exact h

/-- A region that moves the call and no descriptor. -/
theorem holds_same (hid : w.acquires[id]? = some call)
    (hnext : w'.acquires = w.acquires.set id next)
    (hhand : next.hand = call.hand)
    (hp : w'.broker.pending = w.broker.pending) :
    0 + 0 + w'.holds = 0 + w.holds := by
  refine holds_kept hid hnext ?_
  unfold Broker.pendingFDs
  rw [hhand, hp]

theorem opened_acquired (fd : FD) (linkedPeer : Option PendingTransport) :
    tally Event.openedFD (.opened fd
        :: linkedPeer.toList.map fun peer => .opened peer.fd)
      = (fd :: linkedPeer.toList.map PendingTransport.fd : List FD) := by
  cases linkedPeer with
  | none | some peer => rfl

theorem closed_acquired (fd : FD) (linkedPeer : Option PendingTransport) :
    tally Event.closedFD (.opened fd
      :: linkedPeer.toList.map fun peer => .opened peer.fd) = 0 := by
  cases linkedPeer with
  | none | some peer => rfl

theorem Published.closed {p : Publication} {pairing : Finset ObjectPath}
    (h : Published b id p pairing b' es) :
    tally Event.closedFD es = ([p.sink.fd, p.source.fd] : List FD)
      ∧ tally Event.openedFD es = 0 ∧ b'.pending = b.pending := by
  cases h with
  | returned | refused | handedOff => exact ⟨rfl, rfl, rfl⟩

/-- Every region of `acquire` keeps the account. -/
theorem AcquireMove.balance {act : AcquireAct} (hk : w.broker.Keyed)
    (hid : w.acquires[id]? = some call) (h : AcquireMove w id call act w' es) :
    tally Event.closedFD es
        + leaked ⟨w, .acquire id act, es, w'⟩ + w'.holds
      = tally Event.openedFD es + w.holds := by
  cases h with
  | enter path hnext =>
    refine holds_same hid rfl ?_ rfl
    rcases hnext with rfl | rfl <;> rfl
  | readLinks path links =>
    refine holds_same hid rfl ?_ rfl
    unfold afterLinks
    split <;> rfl
  | refuse path peer | mark acquiring | fail a =>
    exact holds_same hid rfl rfl rfl
  | reject => exact holds_kept hid rfl rfl
  | @acquire a r held linkedPeer hhold =>
    -- the call holds the one it opened
    obtain ⟨-, -, hfd, -⟩ := hold_eq_some hhold
    refine holds_kept hid rfl ?_
    rw [closed_acquired, opened_acquired, ← hfd, zero_add]
    exact congrArg _ (zero_add _).symm
  | undecoded a => exact holds_moved hid rfl rfl
  | giveBack hhold | park hhold =>
    have hheld := Held.of_holdTransport hhold
    refine holds_kept hid rfl ?_
    rw [hheld.opened, zero_add]
    exact hheld.balance hk
  | @pair a held sink source linkedPeer order b es hhold =>
    have hheld := Held.of_holdTransport hhold
    have hopened : tally Event.openedFD (.reserved id sink source :: es)
        = 0 := hheld.opened
    refine holds_kept hid rfl ?_
    rw [hopened, zero_add]
    exact hheld.balance hk
  | wait a sink source answer expired =>
    show 0 + 0 + w.holds = 0 + w.holds
    rw [add_zero]
  | correlate a sink source expired hc => exact holds_same hid rfl rfl rfl
  | publish hconn hclear hpub hreq =>
    -- the pair leaves the table as the handoff takes it
    obtain ⟨hc, ho, hp⟩ := hpub.closed
    refine holds_kept hid rfl ?_
    unfold Broker.pendingFDs
    rw [hc, ho, hp, zero_add]
    exact congrArg _ (zero_add _)
  | unmark a acquiring => exact holds_same hid rfl rfl rfl

/-- Every step keeps the account. -/
theorem step_balance {x : WorldTrans} (hinv : ConfigInv x.pre)
    (h : step x.pre x.act = some (x.post, x.out)) :
    tally Event.closedFD x.out + leaked x + x.post.holds
      = tally Event.openedFD x.out + x.pre.holds := by
  have hk : x.pre.broker.Keyed := fun p t ht => (hinv.pending p t ht).1
  have hcloses : ∀ {b b' : Broker} {es : List Event}, Closes b b' es →
      ∀ hands, tally Event.closedFD es + 0 + (b'.pendingFDs + hands)
        = tally Event.openedFD es + (b.pendingFDs + hands) := by
    intro b b' es h hands
    rw [h.opened, add_zero, zero_add, ← add_assoc, h.closed]
  obtain ⟨w, act, es, w'⟩ := x
  have hmove : CustodyMove w act w' es := CustodyMove.of_step h
  cases hmove with
  | region hact hc _ _ hacq =>
    have hleak : leaked ⟨w, act, es, w'⟩ = 0 := by
      cases act with
      | acquire id a => exact absurd rfl (hact id a)
      | _ => rfl
    have hhands : w'.hands = w.hands := by
      unfold World.hands
      rcases hacq with he | ⟨path, he⟩
      · rw [he]
      · rw [he, List.flatMap_append]
        exact congrArg _ (List.append_nil _)
    rw [hleak]
    unfold World.holds
    rw [hhands]
    exact hcloses hc w.hands
  | expire hin => exact hcloses (Closes.expire ..) w.hands
  | acquire hid hm => exact hm.balance hk hid

-- == what is opened

/-- The descriptors obtained are numbered as they come. -/
theorem step_opened {x : WorldTrans}
    (h : step x.pre x.act = some (x.post, x.out)) :
    0 + Multiset.range x.post.fds
      = tally Event.openedFD x.out + Multiset.range x.pre.fds := by
  obtain ⟨w, act, es, w'⟩ := x
  have hmove : CustodyMove w act w' es := CustodyMove.of_step h
  have hnone : ∀ {m : Multiset FD}, m = 0 →
      Multiset.range w.fds = m + Multiset.range w.fds := by
    intro m hm
    rw [hm, zero_add]
  cases hmove with
  | region _ hc _ hfds _ =>
    rw [hfds]
    exact hnone hc.opened
  | expire hin => exact hnone (Closes.expire ..).opened
  | acquire hid hm =>
    cases hm with
    | reject | undecoded a => exact Multiset.range_succ w.fds
    | @acquire a r held linkedPeer hhold =>
      obtain ⟨-, -, -, hpeer⟩ := hold_eq_some hhold
      cases linkedPeer with
      | none => exact Multiset.range_succ w.fds
      | some peer =>
        show Multiset.range (w.fds + 1 + 1)
          = (w.fds ::ₘ peer.fd ::ₘ 0) + Multiset.range w.fds
        rw [(hpeer peer rfl).2, Multiset.range_succ, Multiset.range_succ,
          Multiset.cons_swap, Multiset.cons_add, Multiset.cons_add,
          zero_add]
    | giveBack hhold | park hhold | pair hhold =>
      exact hnone (Held.of_holdTransport hhold).opened
    | publish hconn hclear hpub hreq => exact hnone hpub.closed.2.1
    | _ => exact hnone rfl

-- == the runs

section Runs

variable {device : Bytes} {required : Bool} {wait : Nat}
  {tr : List WorldTrans}

/-- The descriptors opened are numbered from zero. -/
theorem run_opened
    (hrun : Exec step (newWorld (newBroker device required wait)) tr w) :
    tally Event.openedFD (events tr) = Multiset.range w.fds := by
  have hsum := hrun.balance (I := fun _ => True)
    (fun w : World => Multiset.range w.fds)
    (fun x => tally Event.openedFD x.out) (fun _ => 0) trivial
    (fun _ _ => trivial) (fun _ h => step_opened h)
  rw [total_eq_zero fun _ _ => rfl, total_tally, zero_add] at hsum
  exact (hsum.trans (add_zero _)).symm

/-- So every run does, from nothing held. -/
theorem run_balance
    (hrun : Exec step (newWorld (newBroker device required wait)) tr w) :
    tally Event.closedFD (events tr) + total leaked tr + w.holds
      = tally Event.openedFD (events tr) := by
  have hsum := hrun.balance World.holds
    (fun x => tally Event.openedFD x.out)
    (fun x => tally Event.closedFD x.out + leaked x)
    (newWorld_configInv device required wait) step_configInv step_balance
  have hnew : (newWorld (newBroker device required wait)).holds = 0 :=
    (add_zero _).trans (GoMap.gather_empty _)
  rw [total_add, total_tally, total_tally, hnew, add_zero] at hsum
  exact hsum

theorem count_opened_le
    (hrun : Exec step (newWorld (newBroker device required wait)) tr w)
    (fd : FD) : (events tr).count (.opened fd) ≤ 1 := by
  rw [← count_opened, run_opened hrun]
  exact Multiset.nodup_iff_count_le_one.mp (Multiset.nodup_range _) fd

theorem count_balance
    (hrun : Exec step (newWorld (newBroker device required wait)) tr w)
    (fd : FD) :
    (events tr).count (.closed fd) + (total leaked tr).count fd
        + w.holds.count fd
      = (events tr).count (.opened fd) := by
  rw [← count_closed, ← count_opened, ← Multiset.count_add,
    ← Multiset.count_add, run_balance hrun]

/-- In every run a descriptor is closed once at most, and only if it was
obtained. Where no `TryAcquire` has returned a reply that does not decode,
what is open while no `acquire` is under way is what `pending` holds. -/
theorem descriptor_ownership
    (hrun : Exec step (newWorld (newBroker device required wait)) tr w) :
    (∀ fd, (events tr).count (.closed fd) ≤ 1
      ∧ (.closed fd ∈ events tr → .opened fd ∈ events tr))
    ∧ ((∀ x ∈ tr, x.act.isUndecoded = false) →
      (∀ call ∈ w.acquires, call = .done) →
      ∀ fd, (.opened fd ∈ events tr ∧ .closed fd ∉ events tr)
        ↔ ∃ path held, w.broker.pending.lookup path = some held
          ∧ held.fd = fd) := by
  refine ⟨?_, ?_⟩
  · intro fd
    have hsum := count_balance hrun fd
    have hle := count_opened_le hrun fd
    rw [← List.count_pos_iff, ← List.count_pos_iff]
    omega
  · intro hdecoded hdone fd
    have hleak : total leaked tr = 0 := by
      refine total_eq_zero fun x hx => ?_
      unfold leaked
      rw [hdecoded x hx]
      rfl
    have hhands : w.hands = 0 := by
      refine congrArg _ (List.flatMap_eq_nil_iff.mpr ?_)
      intro call hc
      rw [hdone call hc]
      rfl
    have hsum := count_balance hrun fd
    have hle := count_opened_le hrun fd
    unfold World.holds at hsum
    rw [hleak, hhands, add_zero, Multiset.count_zero, add_zero] at hsum
    rw [← GoMap.mem_gather]
    show _ ↔ fd ∈ w.broker.pendingFDs
    rw [← List.count_pos_iff, ← List.count_pos_iff, ← Multiset.count_pos]
    omega

/-- At every moment of every run a descriptor that `pending` or an
`acquire` call under way holds is open, and held in one place only. -/
theorem held_open_once
    (hrun : Exec step (newWorld (newBroker device required wait)) tr w) :
    w.holds.Nodup ∧ ∀ fd ∈ w.holds,
      .opened fd ∈ events tr ∧ .closed fd ∉ events tr := by
  refine ⟨Multiset.nodup_iff_count_le_one.mpr fun fd => ?_, fun fd hfd => ?_⟩
  · have hsum := count_balance hrun fd
    have hle := count_opened_le hrun fd
    omega
  · have hsum := count_balance hrun fd
    have hle := count_opened_le hrun fd
    have hpos := Multiset.count_pos.mpr hfd
    rw [← List.count_pos_iff, ← List.count_pos_iff]
    omega

end Runs

-- == schedules

/-- A whole `acquire` call of a transport without a linked peer, which
holds it. -/
def parkAlone (id : AcquireId) (path : ObjectPath) (direction : Direction)
    (g : UInt64) (fd : FD) : List Action :=
  [.signal path .pending, .acquire id .enter,
    .acquire id (.readLinks (some [])), .acquire id .mark,
    .acquire id (.tryAcquire (some ⟨40, 40, some (sampleQoS, []), none,
      false⟩)),
    .acquire id (.hold [(path, sampleHeld path path direction g [] fd)]),
    .acquire id .unmark]

/-- A pair is handed off, a third transport is held. -/
def pairAndThird : List Action :=
  Action.connect sampleDevice :: configurePair (samplePath 1) (samplePath 2)
    ++ reserveLinked 0 (samplePath 1) (samplePath 2) 1 0
    ++ handOffReserved 0 7
    ++ Action.configure true (samplePath 3) .source sampleCodec sampleQoS
      :: parkAlone 1 (samplePath 3) .source 3 2

/-- A third transport waits while a pair is published. -/
theorem descriptor_ownership_third :
    ∃ tr w, Exec step (newWorld (newBroker sampleDevice true 1)) tr w
      ∧ (∀ x ∈ tr, x.act.isUndecoded = false)
      ∧ (∀ call ∈ w.acquires, call = .done)
      ∧ .opened 2 ∈ events tr ∧ .closed 2 ∉ events tr
      ∧ (∀ fd, (events tr).count (.closed fd) ≤ 1)
      ∧ ∃ path held, w.broker.pending.lookup path = some held
        ∧ held.fd = 2 := by
  obtain ⟨tr, w, hrun, hdecoded, hdone, hopened, hclosed⟩ :=
    exec_of_decide step (newWorld (newBroker sampleDevice true 1))
      pairAndThird (fun tr w =>
        (∀ x ∈ tr, x.act.isUndecoded = false)
          ∧ (∀ call ∈ w.acquires, call = .done)
          ∧ .opened 2 ∈ events tr ∧ .closed 2 ∉ events tr) (by decide +kernel)
  obtain ⟨honce, hopen⟩ := descriptor_ownership hrun
  exact ⟨tr, w, hrun, hdecoded, hdone, hopened, hclosed,
    fun fd => (honce fd).1,
    (hopen hdecoded hdone 2).mp ⟨hopened, hclosed⟩⟩

/-- One call, whose reply does not decode. -/
def undecodedReply : List Action :=
  [.connect sampleDevice,
    .configure true (samplePath 1) .sink sampleCodec sampleQoS,
    .signal (samplePath 1) .pending, .acquire 0 .enter,
    .acquire 0 (.readLinks (some [])), .acquire 0 .mark,
    .acquire 0 .undecoded, .acquire 0 .unmark]

/-- The call has returned, nothing is held, and the descriptor its reply
came with is open. -/
theorem descriptor_left_open :
    ∃ tr w, Exec step (newWorld (newBroker sampleDevice true 1)) tr w
      ∧ (∀ call ∈ w.acquires, call = .done)
      ∧ .opened 0 ∈ events tr ∧ .closed 0 ∉ events tr
      ∧ w.broker.pending = ∅ := by
  exact exec_of_decide step
      (newWorld (newBroker sampleDevice true 1))
      undecodedReply (fun tr w =>
        (∀ call ∈ w.acquires, call = .done)
          ∧ .opened 0 ∈ events tr ∧ .closed 0 ∉ events tr
          ∧ w.broker.pending = ∅) (by decide +kernel)

/-- A call waits for its token with a reserved pair. -/
theorem held_open_once_pair :
    ∃ tr w, Exec step (newWorld (newBroker sampleDevice true 1)) tr w
      ∧ w.holds = {0, 1} ∧ .closed 0 ∉ events tr := by
  obtain ⟨tr, w, hrun, hholds⟩ := exec_of_decide step
      (newWorld (newBroker sampleDevice true 1))
      (Action.connect sampleDevice
        :: configurePair (samplePath 1) (samplePath 2)
        ++ reserveLinked 0 (samplePath 1) (samplePath 2) 1 0)
      (fun _ w => w.holds = {0, 1}) (by decide +kernel)
  exact ⟨tr, w, hrun, hholds,
    ((held_open_once hrun).2 0 (by simp [hholds])).2⟩

end Callbridge.Bluez
