/-
Inbound messages are forwarded at most once, across crashes.

A send for a message comes after a file that holds its handle. Until
`maximumSeenHandles` other handles have been marked it stays on the list,
in memory and in every file, so no later call gets past the head of
`processEvent`. A call that has not marked its message has sent nothing.

`CallInv` is kept by every step; `CallTrace` ties it to what the trace
holds; `Guarded` follows one handle from an attempt on.
-/
import Callbridge.Bridge.Proofs.ServiceMoves

namespace Callbridge.Bridge

open Lib State Message

variable {cfg : Config} {b b' : Service} {a : ServiceAct}
  {es : List ServiceEvent} {t : Task} {s s' : Store} {h : Bytes} {n : Nat}
  {since since' : Finset Bytes}

-- == calls and steps

/-- The call under way, marked or not. -/
def Job.On (j : Job) (t : Task) : Prop :=
  j.pending = some t ∨ j.sending = some t

/-- A step that leaves the store's handles alone, and does not open it. -/
def Keeps (b b' : Service) : Prop :=
  ∀ s', b'.keeper.store = some s' →
    ∃ s, b.keeper.store = some s ∧ s'.roster = s.roster

theorem Keeps.of_keeper (hk : b'.keeper = b.keeper) : Keeps b b' := by
  intro s' hs'
  rw [hk] at hs'
  exact ⟨s', hs', rfl⟩

theorem addOutbound_roster (s : Store) (item : Outbound)
    (fault : Option SaveFault) :
    (s.addOutbound item fault).store.roster = s.roster := by
  have hmove := StoreMove.of_exec s (.addOutbound item) fault
  simp only [Store.exec] at hmove
  generalize s.addOutbound item fault = o at hmove ⊢
  cases hmove with
  | refused _ _ | idle _ => rfl
  | stuck hop _ _ => cases hop
  | saved hchange _ =>
    cases hchange with
    | added _ _ => rfl
    | marked hop _ _ => cases hop

/-- A pending call was pending, or has just begun on a message that is
not marked. -/
theorem ServiceMove.pending (hmove : ServiceMove cfg b a b' es)
    (hdown : b.keeper.store = none → b.job = .idle)
    (hp : b'.job.pending = some t) :
    (b.job.pending = some t ∧ Keeps b b' ∧ b'.calls = b.calls)
      ∨ ∃ s, b.keeper.store = some s ∧ t.event.handle ∉ s.seen
        ∧ t.call = b.calls ∧ b'.keeper = b.keeper
        ∧ b'.calls = b.calls + 1 := by
  cases hmove with
  | opened hnone _ =>
    rw [hdown hnone] at hp
    cases hp
  | unchanged => exact Or.inl ⟨hp, .of_keeper rfl, rfl⟩
  | crashed _ => cases hp
  | @enqueued s item fault hs =>
    refine Or.inl ⟨hp, ?_, rfl⟩
    intro s' hs'
    cases hs'
    exact ⟨s, hs, addOutbound_roster s item fault⟩
  | based _ _ hother => rcases hother with rfl | rfl <;> cases hp
  | initialized _ _ | ignored _ => cases hp
  | began hs _ hunseen =>
    cases hp
    exact Or.inr ⟨_, hs, hunseen, rfl, rfl, rfl⟩
  | advanced hjob hgo _ =>
    rw [hgo.pending] at hp
    cases hp
    exact Or.inl ⟨hjob, .of_keeper hgo.keeper, hgo.calls⟩
  | gaveUp _ hjob' _ _ =>
    rw [hjob'] at hp
    cases hp
  | marked _ _ hnext => rcases hnext with rfl | ⟨-, rest, rfl⟩ <;> cases hp
  | sent _ _ hnext => rcases hnext with rfl | ⟨rest, rfl⟩ <;> cases hp
  | took _ _ hj => rcases hj with ⟨item, rfl, -⟩ | ⟨rfl, -⟩ <;> cases hp
  | handed _ _ hj => rcases hj with rfl | rfl <;> cases hp

/-- A sending call was sending, or was pending and has just marked its
message. -/
theorem ServiceMove.sending (hmove : ServiceMove cfg b a b' es)
    (hdown : b.keeper.store = none → b.job = .idle)
    (hp : b'.job.sending = some t) :
    b'.calls = b.calls
      ∧ ((b.job.sending = some t ∧ Keeps b b')
        ∨ (b.job.pending = some t
          ∧ ∃ s fault, b.keeper.store = some s
            ∧ (s.markSeen t.event.handle fault).result = .ok ()
            ∧ b'.keeper = b.put (s.markSeen t.event.handle fault)
            ∧ ∀ e ∈ wroteOf (s.markSeen t.event.handle fault),
              e ∈ es)) := by
  cases hmove with
  | opened hnone _ =>
    rw [hdown hnone] at hp
    cases hp
  | unchanged => exact ⟨rfl, Or.inl ⟨hp, .of_keeper rfl⟩⟩
  | crashed _ => cases hp
  | @enqueued s item fault hs =>
    refine ⟨rfl, Or.inl ⟨hp, ?_⟩⟩
    intro s' hs'
    cases hs'
    exact ⟨s, hs, addOutbound_roster s item fault⟩
  | based _ _ hother => rcases hother with rfl | rfl <;> cases hp
  | initialized _ _ | ignored _ | began _ _ _ => cases hp
  | advanced _ hgo _ =>
    rw [sending_none_of_pending hgo.pending] at hp
    cases hp
  | gaveUp _ hjob' _ _ =>
    rw [hjob'] at hp
    cases hp
  | @marked s t₁ sender deliveries fault next hs hjob hnext =>
    obtain rfl | ⟨hok, rest, rfl⟩ := hnext
    · cases hp
    · cases hp
      refine ⟨rfl, Or.inr ⟨?_, s, fault, hs, hok, rfl, ?_⟩⟩
      · rw [hjob]
        rfl
      · intro e he
        exact List.mem_append_left _ (List.mem_append_left _ he)
  | sent _ hjob hnext =>
    obtain rfl | ⟨rest, rfl⟩ := hnext
    · cases hp
    · cases hp
      refine ⟨rfl, Or.inl ⟨?_, .of_keeper rfl⟩⟩
      rw [hjob]
      rfl
  | took _ _ hj => rcases hj with ⟨item, rfl, -⟩ | ⟨rfl, -⟩ <;> cases hp
  | handed _ _ hj => rcases hj with rfl | rfl <;> cases hp

/-- Only four moves report anything about a call: an event is ignored, a
call gives up, a message is marked, and a send is attempted. -/
theorem ServiceMove.ofCall {e : ServiceEvent}
    (hmove : ServiceMove cfg b a b' es) (he : e ∈ es) (hcall : e.OfCall) :
    (b.job = .idle ∧ ∃ handle, e = .returned b.calls handle)
      ∨ (∃ t, b.job.pending = some t
        ∧ e = .returned t.call t.event.handle)
      ∨ ∃ t, b.job.sending = some t ∧ b'.keeper = b.keeper
        ∧ b'.calls = b.calls ∧ (∀ t', b'.job.On t' → t' = t)
        ∧ (e = .returned t.call t.event.handle
          ∨ ∃ recipient sender delivery,
            e = .attempted t.call t.event.handle recipient sender
              delivery) := by
  cases hmove with
  | opened _ _ =>
    obtain ⟨f, -, rfl⟩ := List.mem_map.mp he
    cases hcall
  | unchanged | crashed _ => cases he
  | enqueued _ =>
    rcases List.mem_append.mp he with he | he
    · obtain ⟨f, rfl⟩ := mem_wroteOf he
      cases hcall
    · split at he
      · rw [List.mem_singleton] at he
        subst he
        cases hcall
      · cases he
  | based _ _ _ =>
    rcases List.mem_append.mp he with he | he
    · obtain ⟨f, rfl⟩ := mem_wroteOf he
      cases hcall
    · obtain ⟨k, rfl⟩ := mem_markedOf he
      cases hcall
  | initialized _ _ =>
    obtain ⟨f, rfl⟩ := mem_wroteOf he
    cases hcall
  | ignored hjob =>
    rw [List.mem_singleton] at he
    exact Or.inl ⟨hjob, _, he⟩
  | began _ _ _ => cases he
  | advanced _ _ hes =>
    rcases hes with rfl | rfl
    · cases he
    · rw [List.mem_singleton] at he
      subst he
      cases hcall
  | gaveUp hjob _ _ _ =>
    rw [List.mem_singleton] at he
    exact Or.inr (Or.inl ⟨_, hjob, he⟩)
  | @marked s t _ _ _ next _ hjob hnext =>
    rw [List.append_assoc] at he
    rcases List.mem_append.mp he with he | he
    · obtain ⟨f, rfl⟩ := mem_wroteOf he
      cases hcall
    rcases List.mem_append.mp he with he | he
    · obtain ⟨k, rfl⟩ := mem_markedOf he
      cases hcall
    obtain rfl | ⟨-, rest, rfl⟩ := hnext
    · -- the mark failed, and the call with it
      refine Or.inr (Or.inl ⟨t, ?_, List.mem_singleton.mp he⟩)
      rw [hjob]
      rfl
    · cases he
  | @sent s t sender recipient delivery _ _ next _ hjob hnext =>
    -- a delivery is an attempt; the last, or a failed one, also returns
    refine Or.inr (Or.inr ⟨t, ?_, rfl, rfl, ?_, ?_⟩)
    · rw [hjob]
      rfl
    · intro t' hon
      obtain rfl | ⟨rest, rfl⟩ := hnext
      · rcases hon with hon | hon <;> cases hon
      · rcases hon with hon | hon <;> cases hon
        rfl
    · rcases List.mem_cons.mp he with he | he
      · exact Or.inr ⟨_, _, _, he⟩
      · obtain rfl | ⟨rest, rfl⟩ := hnext
        · exact Or.inl (List.mem_singleton.mp he)
        · cases he
  | took _ _ _ =>
    obtain ⟨f, rfl⟩ := mem_wroteOf he
    cases hcall
  | handed _ _ _ =>
    rw [List.mem_singleton] at he
    subst he
    cases hcall

-- == invariants

theorem ServiceMove.calls_le (hmove : ServiceMove cfg b a b' es) :
    b.calls ≤ b'.calls := by
  cases hmove with
  | advanced _ hgo _ => exact hgo.calls.ge
  | gaveUp _ _ _ hcalls => exact hcalls.ge
  | ignored _ | began _ _ _ => exact Nat.le_succ _
  | _ => exact le_rfl

/-- What holds of the store and the call under way: a pending call's
message is not marked, a sending call's is the last that was. -/
structure CallInv (b : Service) : Prop where
  sound : KeeperSound b.keeper
  agrees : KeeperAgrees b.keeper
  down : b.keeper.store = none → b.job = .idle
  unmarked : ∀ t s, b.job.pending = some t → b.keeper.store = some s →
    t.event.handle ∉ s.seen
  last : ∀ t s, b.job.sending = some t → b.keeper.store = some s →
    Roster.Within t.event.handle ∅ s.data.seenHandles
  numbered : ∀ t, b.job.On t → t.call < b.calls

/-- Marking a handle that was not seen, when it succeeds, saves it. -/
theorem markSeen_saved {fault : Option SaveFault} (hunseen : h ∉ s.seen)
    (hok : (s.markSeen h fault).result = .ok ()) :
    ∃ f, s.markSeen h fault = ⟨.ok (), s.marked [h], some f⟩
      ∧ f = stateFile (s.marked [h]).data ∧ validHandle h = true := by
  have hmove := StoreMove.of_exec s (.markSeen h) fault
  simp only [Store.exec] at hmove
  generalize s.markSeen h fault = o at hmove hok ⊢
  cases hmove with
  | refused _ _ => cases hok
  | idle hseen => exact absurd (hseen [h] rfl h (by simp)) hunseen
  | stuck hop _ _ => cases hop
  | saved hchange hsave =>
    cases hchange with
    | marked hop hvalid _ =>
      cases hop
      exact ⟨_, rfl, saveLocked_ok hsave, hvalid h (by simp)⟩

/-- The handle marked last is the last of the list. -/
theorem within_marked (hs : Sound s) (hunseen : h ∉ s.seen) :
    Roster.Within h ∅ (s.marked [h]).data.seenHandles := by
  have horder : (s.roster.enterAll [h]).order
      = s.data.seenHandles ++ [h] := by
    show (s.roster.enter h).order = _
    rw [Roster.enter_of_not_mem hunseen]
    rfl
  have hwithin : Roster.Within h ∅ (s.roster.enterAll [h]).order := by
    rw [horder]
    exact Roster.within_last _
  rw [Store.marked, setRoster_seenHandles]
  rcases hwithin.trim (hs.ordered.enterAll _) maximumSeenHandles with
    hstays | hfull
  · exact hstays
  · rw [Finset.erase_empty, Finset.card_empty] at hfull
    unfold maximumSeenHandles at hfull
    omega

theorem callInv_new (disk : Disk) : CallInv (newService disk) where
  sound := by
    intro s hs
    cases hs
  agrees := by
    intro s hs
    cases hs
  down := fun _ => rfl
  unmarked := by
    intro t s hp
    cases hp
  last := by
    intro t s hp
    cases hp
  numbered := by
    rintro t (hon | hon) <;> cases hon

/-- Every move keeps the invariant. -/
theorem CallInv.move (hb : CallInv b) (hmove : ServiceMove cfg b a b' es) :
    CallInv b' := by
  constructor
  case sound => exact hmove.sound hb.sound
  case agrees => exact hmove.agrees hb.sound hb.agrees
  case down => exact hmove.down hb.down
  case unmarked =>
    intro t s' hp hs'
    obtain ⟨hjob, hkeeps, -⟩ | ⟨s, hs, hunseen, -, hkeeper, -⟩ :=
      hmove.pending hb.down hp
    · obtain ⟨s, hs, hroster⟩ := hkeeps s' hs'
      have hseen : s'.seen = s.seen := congrArg Roster.members hroster
      rw [hseen]
      exact hb.unmarked t s hjob hs
    · rw [hkeeper, hs, Option.some.injEq] at hs'
      rwa [← hs']
  case last =>
    intro t s' hp hs'
    obtain ⟨-, ⟨hjob, hkeeps⟩ | ⟨hjob, s, fault, hs, hok, hput, -⟩⟩ :=
      hmove.sending hb.down hp
    · obtain ⟨s, hs, hroster⟩ := hkeeps s' hs'
      have horder : s'.data.seenHandles = s.data.seenHandles :=
        congrArg Roster.order hroster
      rw [horder]
      exact hb.last t s hjob hs
    · -- the mark before the first send put the handle last
      have hunseen := hb.unmarked t s hjob hs
      obtain ⟨f, ho, -⟩ := markSeen_saved hunseen hok
      rw [hput, ho] at hs'
      cases hs'
      exact within_marked (hb.sound s hs) hunseen
  case numbered =>
    rintro t (hp | hp)
    · obtain ⟨hjob, -, hcalls⟩ | ⟨-, -, -, hcall, -, hcalls⟩ :=
        hmove.pending hb.down hp
      · rw [hcalls]
        exact hb.numbered t (Or.inl hjob)
      · omega
    · obtain ⟨hcalls, ⟨hjob, -⟩ | ⟨hjob, -⟩⟩ := hmove.sending hb.down hp
      · rw [hcalls]
        exact hb.numbered t (Or.inr hjob)
      · rw [hcalls]
        exact hb.numbered t (Or.inl hjob)

-- == attempts

variable {x y : ServiceTrans} {tr : List ServiceTrans} {disk : Disk}

/-- The step attempts a send of call `n` for the message `h`. -/
def Attempts (n : Nat) (h : Bytes) (x : ServiceTrans) : Prop :=
  ∃ recipient sender delivery,
    .attempted n h recipient sender delivery ∈ x.out

/-- The step saves a state with `h` among the seen handles. -/
def Saves (h : Bytes) (x : ServiceTrans) : Prop :=
  ∃ f d, .wrote f ∈ x.out ∧ f.document = some d ∧ h ∈ d.val.seenHandles

/-- Call `n` for the message `h` ends: it returns, or the service crashes
under it. -/
def Ends (n : Nat) (h : Bytes) (x : ServiceTrans) : Prop :=
  .returned n h ∈ x.out
    ∨ (x.act = .crash
      ∧ ∃ t, x.pre.job.On t ∧ t.call = n ∧ t.event.handle = h)

/-- The message is not seen, by the store that is open or by the one that
would be. -/
def Unseen (h : Bytes) (b : Service) : Prop :=
  ∃ s, (b.keeper.store = some s ∨ load b.keeper.disk = .ok s)
    ∧ h ∉ s.seen

/-- An attempt is made by the call that sends, which goes on or ends. -/
theorem Attempts.call (hx : Attempts n h x)
    (hmove : ServiceMove cfg x.pre x.act x.post x.out) :
    ∃ t, x.pre.job.sending = some t ∧ t.call = n ∧ t.event.handle = h
      ∧ x.post.keeper = x.pre.keeper
      ∧ ∀ t', x.post.job.On t' → t' = t := by
  obtain ⟨recipient, sender, delivery, he⟩ := hx
  rcases hmove.ofCall he trivial with ⟨-, k, hk⟩ | ⟨t, -, hk⟩
    | ⟨t, hjob, hkeeper, -, hon, hk | ⟨r, w, d, hk⟩⟩
  · cases hk
  · cases hk
  · cases hk
  · cases hk
    exact ⟨t, hjob, rfl, rfl, hkeeper, hon⟩

/-- What the trace holds of the calls: the file that marks a sending
call's message, and no attempt of a call that has not marked its own. -/
structure CallTrace (tr : List ServiceTrans) (b : Service) : Prop where
  saved : ∀ t, b.job.sending = some t → ∃ z ∈ tr, Saves t.event.handle z
  fresh : ∀ t, b.job.pending = some t → ∀ x ∈ tr, ∀ h,
    ¬ Attempts t.call h x
  numbered : ∀ x ∈ tr, ∀ n h, Attempts n h x → n < b.calls

/-- The file written for a handle that is marked holds it. -/
theorem saves_marked (hs : Sound s) (hunseen : h ∉ s.seen)
    (hvalid : validHandle h = true)
    (hwrote : .wrote (stateFile (s.marked [h]).data) ∈ x.out) :
    Saves h x := by
  have hsound : Sound (s.marked [h]) := hs.marked (by simpa using hvalid)
  obtain ⟨d, hd, hmem⟩ :=
    hsound.mem_stateFile (within_marked hs hunseen).mem
  exact ⟨_, d, hwrote, hd, hmem⟩

/-- Every move keeps the trace with the call under way. -/
theorem CallTrace.snoc (ht : CallTrace tr x.pre) (hb : CallInv x.pre)
    (hmove : ServiceMove cfg x.pre x.act x.post x.out) :
    CallTrace (tr ++ [x]) x.post := by
  constructor
  case saved =>
    intro t hp
    obtain ⟨-, ⟨hjob, -⟩ | ⟨hjob, s, fault, hs, hok, -, hwrote⟩⟩ :=
      hmove.sending hb.down hp
    · obtain ⟨z, hz, hsaves⟩ := ht.saved t hjob
      exact ⟨z, List.mem_append_left _ hz, hsaves⟩
    · have hunseen := hb.unmarked t s hjob hs
      obtain ⟨f, ho, rfl, hvalid⟩ := markSeen_saved hunseen hok
      refine ⟨x, by simp, saves_marked (hb.sound s hs) hunseen hvalid ?_⟩
      apply hwrote
      rw [wrote_mem_wroteOf, ho]
  case fresh =>
    intro t hp z hz h hattempt
    obtain ⟨hjob, -, -⟩ | ⟨-, -, -, hcall, -, -⟩ := hmove.pending hb.down hp
    · rcases List.mem_append.mp hz with hz | hz
      · exact ht.fresh t hjob z hz h hattempt
      · obtain rfl := List.mem_singleton.mp hz
        obtain ⟨t₁, hsending, -⟩ := hattempt.call hmove
        rw [sending_none_of_pending hjob] at hsending
        cases hsending
    · -- the number of a call that begins is new
      have hlt : t.call < x.pre.calls := by
        rcases List.mem_append.mp hz with hz | hz
        · exact ht.numbered z hz _ h hattempt
        · obtain rfl := List.mem_singleton.mp hz
          obtain ⟨t₁, hsending, heq, -⟩ := hattempt.call hmove
          rw [← heq]
          exact hb.numbered t₁ (Or.inr hsending)
      omega
  case numbered =>
    intro z hz n h hattempt
    apply Nat.lt_of_lt_of_le _ hmove.calls_le
    rcases List.mem_append.mp hz with hz | hz
    · exact ht.numbered z hz n h hattempt
    · obtain rfl := List.mem_singleton.mp hz
      obtain ⟨t, hsending, rfl, -⟩ := hattempt.call hmove
      exact hb.numbered t (Or.inr hsending)

/-- Both hold on every run. -/
theorem call_trace
    (hrun : Exec (serviceStep cfg) (newService disk) tr b) :
    CallInv b ∧ CallTrace tr b := by
  induction hrun with
  | nil =>
    refine ⟨callInv_new disk, ?_, ?_, ?_⟩
    · intro t hp
      cases hp
    · intro t hp
      cases hp
    · simp
  | @snoc tr b b' a es _ hstep ih =>
    obtain ⟨hb, ht⟩ := ih
    have hmove := ServiceMove.of_step hstep
    exact ⟨hb.move hmove, ht.snoc (x := ⟨b, a, es, b'⟩) hb hmove⟩

-- == one handle

/-- The handle an event reports as marked. -/
def ServiceEvent.newHandle : ServiceEvent → Option Bytes
  | .marked handle => some handle
  | .wrote _ | .requested _ _ | .attempted _ _ _ _ _ | .returned _ _
  | .appended _ | .handed _ _ => none

/-- The handles marked in a part of a run. -/
def markedIn (tr : List ServiceTrans) : Finset Bytes :=
  ((events tr).filterMap ServiceEvent.newHandle).toFinset

theorem markedIn_subset (tr : List ServiceTrans) (x : ServiceTrans) :
    markedIn tr ⊆ markedIn (tr ++ [x]) := by
  intro k hk
  simp only [markedIn, List.mem_toFinset, events_snoc,
    List.filterMap_append, List.mem_append] at hk ⊢
  exact Or.inl hk

theorem mem_markedIn_snoc {k : Bytes} (hk : .marked k ∈ x.out) :
    k ∈ markedIn (tr ++ [x]) := by
  simp only [markedIn, List.mem_toFinset, events_snoc,
    List.filterMap_append, List.mem_append, List.mem_filterMap]
  exact Or.inr ⟨_, hk, rfl⟩

/-- The handle is on the list with nothing behind it but what was marked
since, or the bound has been reached. -/
def Held (h : Bytes) (since : Finset Bytes) (handles : List Bytes) : Prop :=
  Roster.Within h since handles
    ∨ maximumSeenHandles ≤ (since.erase h).card

theorem full_mono (hfull : maximumSeenHandles ≤ (since.erase h).card)
    (hsub : since ⊆ since') :
    maximumSeenHandles ≤ (since'.erase h).card :=
  hfull.trans (Finset.card_le_card (Finset.erase_subset_erase h hsub))

theorem Held.mono {handles : List Bytes} (hheld : Held h since handles)
    (hsub : since ⊆ since') :
    Held h since' handles := by
  rcases hheld with hwithin | hfull
  · exact Or.inl (hwithin.mono hsub)
  · exact Or.inr (full_mono hfull hsub)

/-- A batch puts what it marks behind the handle. -/
theorem Held.marks (hs : Sound s) (hheld : Held h since s.data.seenHandles)
    (hmarks : Marks s s' es) (hsub : since ⊆ since')
    (hes : ∀ k, .marked k ∈ es → k ∈ since') :
    Held h since' s'.data.seenHandles := by
  rcases hmarks with hsame | ⟨handles, rfl, hnew⟩
  · rw [hsame]
    exact hheld.mono hsub
  rcases hheld with hwithin | hfull
  · obtain ⟨new, horder, hmem⟩ := s.roster.enterAll_order handles
    have hbehind : ∀ k ∈ new, k ∈ since' := fun k hk =>
      hes k (hnew k (hmem k hk) (hs.ordered.not_mem_of_enterAll horder hk))
    have hgrown : Roster.Within h since' (s.roster.enterAll handles).order :=
      by
        rw [horder]
        have happended := hwithin.append hbehind
        rwa [Finset.union_eq_right.mpr hsub] at happended
    rw [Store.marked, setRoster_seenHandles]
    exact hgrown.trim (hs.ordered.enterAll handles) maximumSeenHandles
  · exact Or.inr (full_mono hfull hsub)

/-- From an attempt of call `n` on: the handle is held, in memory and on
disk, and no other call is under way for it before the bound is
reached. -/
structure Guarded (h : Bytes) (n : Nat) (since : Finset Bytes)
    (b : Service) : Prop where
  file : ∃ f, b.keeper.disk = .file f
  running : ∀ s, b.keeper.store = some s → Held h since s.data.seenHandles
  saved : ∀ s, load b.keeper.disk = .ok s → Held h since s.data.seenHandles
  others : ∀ t, b.job.On t → t.event.handle = h →
    t.call = n ∨ maximumSeenHandles ≤ (since.erase h).card

/-- An attempt leaves its handle guarded. -/
theorem Attempts.guarded (hx : Attempts n h x) (hb : CallInv x.pre)
    (hmove : ServiceMove cfg x.pre x.act x.post x.out) :
    Guarded h n ∅ x.post := by
  obtain ⟨t, hjob, rfl, rfl, hkeeper, hon⟩ := hx.call hmove
  obtain ⟨s, hs⟩ : ∃ s, x.pre.keeper.store = some s := by
    cases hstore : x.pre.keeper.store with
    | some s => exact ⟨s, rfl⟩
    | none =>
      rw [hb.down hstore] at hjob
      cases hjob
  obtain ⟨hfile, hload⟩ := hb.agrees s hs
  have hlast := hb.last t s hjob hs
  constructor
  case file => rwa [hkeeper]
  case running =>
    intro s' hs'
    rw [hkeeper, hs, Option.some.injEq] at hs'
    rw [← hs']
    exact Or.inl hlast
  case saved =>
    intro s' hs'
    rw [hkeeper] at hs'
    rw [hload s' hs']
    exact Or.inl hlast
  case others =>
    intro t' hon' _
    rw [hon t' hon']
    exact Or.inl rfl

/-- A step keeps the handle in the store that is open. -/
theorem Guarded.running_move (hg : Guarded h n since b) (hb : CallInv b)
    (hmove : ServiceMove cfg b a b' es) (hsub : since ⊆ since')
    (hes : ∀ k, .marked k ∈ es → k ∈ since')
    (hs' : b'.keeper.store = some s') :
    Held h since' s'.data.seenHandles := by
  cases hs : b.keeper.store with
  | some s =>
    exact (hg.running s hs).marks (hb.sound s hs) (hmove.marks hs hs')
      hsub hes
  | none =>
    -- the store was opened, from the file
    exact (hg.saved s' (hmove.reopened hs hg.file hs')).mono hsub

/-- A handle stays guarded while fewer others are marked. -/
theorem Guarded.move (hg : Guarded h n since b) (hb : CallInv b)
    (hmove : ServiceMove cfg b a b' es) (hsub : since ⊆ since')
    (hes : ∀ k, .marked k ∈ es → k ∈ since') :
    Guarded h n since' b' := by
  have hrunning : ∀ s', b'.keeper.store = some s' →
      Held h since' s'.data.seenHandles := fun s' hs' =>
    hg.running_move hb hmove hsub hes hs'
  have hothers : ∀ t, b.job.On t → t.event.handle = h →
      t.call = n ∨ maximumSeenHandles ≤ (since'.erase h).card := by
    intro t hon hh
    exact (hg.others t hon hh).imp_right fun hfull => full_mono hfull hsub
  refine ⟨hmove.file hg.file, hrunning, ?_, ?_⟩
  · intro s hload
    cases hs' : b'.keeper.store with
    | some s' =>
      rw [((hb.move hmove).agrees s' hs').2 s hload]
      exact hrunning s' hs'
    | none =>
      rw [(hmove.disk_of_down hs').1] at hload
      exact (hg.saved s hload).mono hsub
  · rintro t (hp | hp) hh
    · obtain ⟨hjob, -, -⟩ | ⟨s, hs, hunseen, -⟩ := hmove.pending hb.down hp
      · exact hothers t (Or.inl hjob) hh
      · -- a call begins on a handle that is not seen, so it was evicted
        rcases hg.running s hs with hwithin | hfull
        · rw [hh] at hunseen
          exact absurd ((hb.sound s hs).mem_seen hwithin.mem) hunseen
        · exact Or.inr (full_mono hfull hsub)
    · obtain ⟨-, ⟨hjob, -⟩ | ⟨hjob, -⟩⟩ := hmove.sending hb.down hp
      · exact hothers t (Or.inr hjob) hh
      · exact hothers t (Or.inl hjob) hh

theorem guarded_run {b₀ : Service} (hg : Guarded h n ∅ b₀)
    (hb : CallInv b₀) (hrun : Exec (serviceStep cfg) b₀ tr b) :
    CallInv b ∧ Guarded h n (markedIn tr) b := by
  induction hrun with
  | nil => exact ⟨hb, hg⟩
  | @snoc tr b b' a es _ hstep ih =>
    have hmove := ServiceMove.of_step hstep
    refine ⟨ih.1.move hmove, ih.2.move ih.1 hmove (markedIn_subset _ _) ?_⟩
    exact fun k hk => mem_markedIn_snoc hk

-- == results

/-- The message of a call that sends is seen, also by a store opened
after a crash. -/
theorem CallInv.not_unseen (hb : CallInv b) (hjob : b.job.sending = some t)
    (hdisk : b'.keeper.disk = b.keeper.disk)
    (hstore : ∀ s, b'.keeper.store = some s → b.keeper.store = some s) :
    ¬ Unseen t.event.handle b' := by
  rintro ⟨s', hs', hunseen⟩
  rcases hs' with hs' | hload
  · have hpre := hstore s' hs'
    exact hunseen ((hb.sound s' hpre).mem_seen (hb.last t s' hjob hpre).mem)
  · cases hs : b.keeper.store with
    | none =>
      rw [hb.down hs] at hjob
      cases hjob
    | some s =>
      rw [hdisk] at hload
      have hsame := (hb.agrees s hs).2 s' hload
      obtain ⟨d, hd, rfl⟩ := load_ok hload
      apply hunseen
      apply hd.sound.mem_seen
      rw [hsame]
      exact (hb.last t s hjob hs).mem

/-- A crash leaves the disk. -/
theorem ServiceMove.crash (hmove : ServiceMove cfg b .crash b' es) :
    b'.keeper.disk = b.keeper.disk
      ∧ ∀ s, b'.keeper.store = some s → b.keeper.store = some s := by
  cases hmove with
  | unchanged => exact ⟨rfl, fun _ hs => hs⟩
  | crashed _ =>
    refine ⟨rfl, ?_⟩
    intro s hs
    cases hs
  | advanced _ hgo _ =>
    rw [hgo.keeper]
    exact ⟨rfl, fun _ hs => hs⟩
  | gaveUp _ _ hkeeper _ =>
    rw [hkeeper]
    exact ⟨rfl, fun _ hs => hs⟩

/-- A call that ends with its message unseen was not sending. -/
theorem Ends.not_attempted {t₁ : List ServiceTrans} (hy : Ends n h y)
    (hunseen : Unseen h y.post) (hb : CallInv y.pre)
    (ht : CallTrace t₁ y.pre)
    (hmove : ServiceMove cfg y.pre y.act y.post y.out) :
    ∀ x ∈ t₁ ++ [y], ¬ Attempts n h x := by
  intro x hx hattempt
  rcases List.mem_append.mp hx with hx | hx
  · rcases hy with hreturned | ⟨hcrash, t, hon, rfl, rfl⟩
    · rcases hmove.ofCall hreturned trivial with ⟨-, k, hk⟩ | ⟨t, hjob, hk⟩
        | ⟨t, hjob, hkeeper, -, -, hk | ⟨r, w, d, hk⟩⟩
      · cases hk
        exact absurd (ht.numbered x hx _ _ hattempt) (lt_irrefl _)
      · cases hk
        exact ht.fresh t hjob x hx _ hattempt
      · cases hk
        refine hb.not_unseen hjob (congrArg _ hkeeper) ?_ hunseen
        intro s hs
        rwa [← hkeeper]
      · cases hk
    · rcases hon with hjob | hjob
      · exact ht.fresh t hjob x hx _ hattempt
      · rw [hcrash] at hmove
        obtain ⟨hdisk, hstore⟩ := hmove.crash
        exact hb.not_unseen hjob hdisk hstore hunseen
  · obtain rfl := List.mem_singleton.mp hx
    obtain ⟨t, hjob, rfl, rfl, hkeeper, -⟩ := hattempt.call hmove
    refine hb.not_unseen hjob (congrArg _ hkeeper) ?_ hunseen
    intro s hs
    rwa [← hkeeper]

/-- Over whole runs with crashes: a send for a message comes after a
saved state that holds its handle; two sends for a message with fewer
than `maximumSeenHandles` other handles marked between them belong to one
call; and a call that ends with its message unseen has attempted nothing,
so that the next event for the message is taken up. -/
theorem inbound_at_most_once
    (hrun : Exec (serviceStep cfg) (newService disk) tr b) :
    (∀ t₁ x t₂ n h, tr = t₁ ++ x :: t₂ → Attempts n h x →
        ∃ z ∈ t₁, Saves h z)
      ∧ (∀ t₁ x t₂ y t₃ n n' h, tr = t₁ ++ x :: (t₂ ++ y :: t₃) →
          Attempts n h x → Attempts n' h y →
          ((markedIn t₂).erase h).card < maximumSeenHandles → n' = n)
      ∧ (∀ t₁ y t₂ n h, tr = t₁ ++ y :: t₂ → Ends n h y →
          Unseen h y.post → ∀ x ∈ t₁ ++ [y], ¬ Attempts n h x)
      ∧ ∀ s event now, b.keeper.store = some s → b.job = .idle →
          event.newMessage = true → event.handle ≠ [] →
          event.handle ∉ s.seen → b.deferred event.handle now = false →
          ∃ b', serviceStep cfg b (.processEvent event now) = some (b', [])
            ∧ b'.job = .fetching ⟨b.calls, event⟩ fetchAttempts := by
  refine ⟨?_, ?_, ?_, ?_⟩
  · rintro t₁ x t₂ n h rfl hx
    obtain ⟨hpre, hstep, -⟩ := hrun.split
    obtain ⟨hb, ht⟩ := call_trace hpre
    obtain ⟨t, hjob, rfl, rfl, -⟩ := hx.call (.of_step hstep)
    exact ht.saved t hjob
  · rintro t₁ x t₂ y t₃ n n' h rfl hx hy hroom
    obtain ⟨hpre, hstep, hrest⟩ := hrun.split
    obtain ⟨hb, -⟩ := call_trace hpre
    have hmove := ServiceMove.of_step hstep
    obtain ⟨hmid, hstep', -⟩ := hrest.split
    obtain ⟨hb', hg⟩ := guarded_run (hx.guarded hb hmove) (hb.move hmove) hmid
    obtain ⟨t, hjob, rfl, hh, -⟩ := hy.call (.of_step hstep')
    -- another call would need the handle pushed out between
    rcases hg.others t (Or.inr hjob) hh with hsame | hfull
    · exact hsame
    · omega
  · rintro t₁ y t₂ n h rfl hy hunseen
    obtain ⟨hpre, hstep, -⟩ := hrun.split
    obtain ⟨hb, ht⟩ := call_trace hpre
    exact hy.not_attempted hunseen hb ht (.of_step hstep)
  · intro s event now hs hjob hnew hne hunseen hready
    have hready' : ({ b with calls := b.calls + 1 } : Service).deferred
        event.handle now = false := hready
    have hbegin : beginEvent b s event now
        = ({ b with
            calls := b.calls + 1
            job := .fetching ⟨b.calls, event⟩ fetchAttempts }, []) := by
      simp [beginEvent, hnew, hne, Store.hasSeen, hunseen, hready']
    have hstep : serviceStep cfg b (.processEvent event now)
        = some (beginEvent b s event now) := by
      simp only [serviceStep, hs, runningStep, hjob]
    rw [hstep, hbegin]
    exact ⟨_, rfl, rfl⟩

/-- A service with one recipient that reads no dates. -/
def sampleConfig : Config :=
  ⟨[[0x32, 0x30, 0x31]], ⟨fun _ => none, fun _ => none⟩, id⟩

def sampleEvent : Event := ⟨true, [0x31, 0x46], inbox, false, []⟩

def sampleFetched : Fetched := ⟨⟨[0x68], 0, []⟩, none, [0x68]⟩

/-- A message is marked and sent, the service crashes and starts again,
and the message is not taken up a second time. -/
theorem inbound_at_most_once_restart :
    ∃ t₁ x t₂ b, Exec (serviceStep sampleConfig) (newService .absent)
        (t₁ ++ x :: t₂) b
      ∧ Attempts 0 sampleEvent.handle x ∧ b.calls = 2 ∧ b.job = .idle
      ∧ ∃ z ∈ t₁, Saves sampleEvent.handle z := by
  obtain ⟨tr, b, hrun, ⟨x, hx, hattempt⟩, hcalls, hjob⟩ :=
    exec_of_decide (serviceStep sampleConfig) (newService .absent)
      [.start noLegacy none, .processEvent sampleEvent 0,
        .fetch (.fetched sampleFetched), .markSeen none, .sendMessage false,
        .crash, .start noLegacy none, .processEvent sampleEvent 0]
      (fun tr b => (∃ x ∈ tr, ServiceEvent.attempted 0
          sampleEvent.handle [0x32, 0x30, 0x31] [0x30, 0x30, 0x30]
          ⟨[0x68], none⟩ ∈ x.out)
        ∧ b.calls = 2 ∧ b.job = .idle) (by decide +kernel)
  obtain ⟨t₁, t₂, rfl⟩ := List.append_of_mem hx
  have hattempts : Attempts 0 sampleEvent.handle x := ⟨_, _, _, hattempt⟩
  exact ⟨t₁, x, t₂, b, hrun, hattempts, hcalls, hjob,
    (inbound_at_most_once hrun).1 t₁ x t₂ 0 _ rfl hattempts⟩

end Callbridge.Bridge
