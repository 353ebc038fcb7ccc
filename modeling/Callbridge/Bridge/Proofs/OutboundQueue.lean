/-
The outbound queue is first in, first out, and hands an item over at most
once, across crashes.

One equation carries it (`ServiceMove.queue`): what is handed over, in
hand and queued after a step is what was in hand, queued and appended. A
crash loses the item in hand alone, as long as the store opened after it
has the queue saved last, which the file format owes wherever only valid
UTF-8 is enqueued (`reopens_of_validText`).
-/
import Mathlib.Data.List.Sublists
import Callbridge.Bridge.Proofs.ServiceMoves

namespace Callbridge.Bridge

open Lib State Message

variable {cfg : Config} {b b' b₀ : Service} {a : ServiceAct}
  {es : List ServiceEvent} {s s' s₀ : Store} {item : Outbound}
  {x : ServiceTrans} {tr : List ServiceTrans} {q₀ : List Outbound}

-- == ledger

/-- The item taken from the queue and not handed over yet. -/
@[simp] def Job.hand : Job → List Outbound
  | .handing item => [item]
  | .idle | .fetching _ _ | .uploading _ _ _ _ | .marking _ _ _
  | .delivering _ _ _ | .baselining | .draining => []

@[simp] def ServiceEvent.appendedItem : ServiceEvent → Option Outbound
  | .appended item => some item
  | .wrote _ | .marked _ | .requested _ _ | .attempted _ _ _ _ _
  | .returned _ _ | .handed _ _ => none

@[simp] def ServiceEvent.handedItem : ServiceEvent → Option Outbound
  | .handed item _ => some item
  | .wrote _ | .marked _ | .requested _ _ | .attempted _ _ _ _ _
  | .returned _ _ | .appended _ => none

def ServiceEvent.isWrote : ServiceEvent → Bool
  | .wrote _ => true
  | .marked _ | .requested _ _ | .attempted _ _ _ _ _ | .returned _ _
  | .appended _ | .handed _ _ => false

/-- The items whose `AddOutbound` appended them, in order. -/
def appendedItems (tr : List ServiceTrans) : List Outbound :=
  (events tr).filterMap ServiceEvent.appendedItem

/-- The items handed to `SendSMS`, in order. -/
def handedItems (tr : List ServiceTrans) : List Outbound :=
  (events tr).filterMap ServiceEvent.handedItem

/-- The queue of the running service. -/
def Service.queue (b : Service) : List Outbound :=
  (b.keeper.store.map fun s => s.data.outbound).getD []

/-- The queue of the state saved last, from the queue at the start. -/
def lastSaved (q₀ : List Outbound) (tr : List ServiceTrans) :
    List Outbound :=
  tr.foldl (fun q x =>
    if x.out.any ServiceEvent.isWrote then x.post.queue else q) q₀

/-- A store that is opened has the queue saved last. -/
def Reopens (q₀ : List Outbound) (tr : List ServiceTrans) : Prop :=
  ∀ t₁ x t₂ s, tr = t₁ ++ x :: t₂ → x.pre.keeper.store = none →
    x.post.keeper.store = some s → s.data.outbound = lastSaved q₀ t₁

theorem appendedItems_snoc (tr : List ServiceTrans) (x : ServiceTrans) :
    appendedItems (tr ++ [x])
      = appendedItems tr ++ x.out.filterMap ServiceEvent.appendedItem := by
  rw [appendedItems, events_snoc, List.filterMap_append]
  rfl

theorem handedItems_snoc (tr : List ServiceTrans) (x : ServiceTrans) :
    handedItems (tr ++ [x])
      = handedItems tr ++ x.out.filterMap ServiceEvent.handedItem := by
  rw [handedItems, events_snoc, List.filterMap_append]
  rfl

/-- A step that writes saves its queue; any other leaves the last. -/
theorem lastSaved_snoc (q₀ : List Outbound) (tr : List ServiceTrans)
    (x : ServiceTrans) :
    lastSaved q₀ (tr ++ [x])
      = if x.out.any ServiceEvent.isWrote then x.post.queue
        else lastSaved q₀ tr := by
  rw [lastSaved, List.foldl_append]
  rfl

theorem queue_of_store (hs : b.keeper.store = some s) :
    b.queue = s.data.outbound := by
  rw [Service.queue, hs]
  rfl

theorem any_isWrote :
    es.any ServiceEvent.isWrote = true ↔ ∃ f, .wrote f ∈ es := by
  rw [List.any_eq_true]
  constructor
  · rintro ⟨e, he, hwrote⟩
    cases e with
    | wrote f => exact ⟨f, he⟩
    | _ => cases hwrote
  · rintro ⟨f, hf⟩
    exact ⟨_, hf, rfl⟩

/-- No file is among events of which none is a write. -/
theorem not_wrote (h : es.any ServiceEvent.isWrote = false) :
    ∀ f, .wrote f ∉ es := by
  intro f hf
  rw [any_isWrote.mpr ⟨f, hf⟩] at h
  cases h

/-- A call under way has nothing in hand. -/
theorem hand_of_pending {j : Job} {t : Task} (hp : j.pending = some t) :
    j.hand = [] := by
  cases j with
  | handing _ => cases hp
  | _ => rfl

theorem filterMap_wroteOf {ρ β : Type} (o : Outcome ρ)
    {g : ServiceEvent → Option β} (hg : ∀ f, g (.wrote f) = none) :
    (wroteOf o).filterMap g = [] := by
  rw [List.filterMap_eq_nil_iff]
  intro e he
  obtain ⟨f, rfl⟩ := mem_wroteOf he
  exact hg f

theorem filterMap_markedOf {ρ β : Type} (o : Outcome ρ)
    (handles : List Bytes) {g : ServiceEvent → Option β}
    (hg : ∀ k, g (.marked k) = none) :
    (markedOf s handles o).filterMap g = [] := by
  rw [List.filterMap_eq_nil_iff]
  intro e he
  obtain ⟨k, rfl⟩ := mem_markedOf he
  exact hg k

section Silent

variable {ρ : Type} (o : Outcome ρ) (handles : List Bytes)

@[simp] theorem handedItem_wroteOf :
    (wroteOf o).filterMap ServiceEvent.handedItem = [] :=
  filterMap_wroteOf o fun _ => rfl

@[simp] theorem appendedItem_wroteOf :
    (wroteOf o).filterMap ServiceEvent.appendedItem = [] :=
  filterMap_wroteOf o fun _ => rfl

@[simp] theorem handedItem_markedOf :
    (markedOf s handles o).filterMap ServiceEvent.handedItem = [] :=
  filterMap_markedOf o handles fun _ => rfl

@[simp] theorem appendedItem_markedOf :
    (markedOf s handles o).filterMap ServiceEvent.appendedItem = [] :=
  filterMap_markedOf o handles fun _ => rfl

end Silent

-- == steps

/-- Marking handles and setting the flag leave the queue. -/
theorem exec_outbound (s : Store) (op : StoreOp)
    (fault : Option SaveFault) (hadd : ∀ item, op ≠ .addOutbound item)
    (htake : op ≠ .takeOutbound) :
    (s.exec op fault).store.data.outbound = s.data.outbound := by
  have hmove := StoreMove.of_exec s op fault
  generalize s.exec op fault = o at hmove ⊢
  have hkeeps : ∀ {s'}, Change s op s' →
      s'.data.outbound = s.data.outbound := by
    intro s' hchange
    cases hchange with
    | initialized _ => rfl
    | marked _ _ _ => rw [Store.marked, setRoster_outbound]
    | added _ _ => exact absurd rfl (hadd _)
    | taken _ => exact absurd rfl htake
  cases hmove with
  | refused _ _ | idle _ => rfl
  | saved hchange _ | stuck _ hchange _ => exact hkeeps hchange

/-- `AddOutbound` appends its item where it saves, and only there. -/
theorem addOutbound_outbound (s : Store) (item : Outbound)
    (fault : Option SaveFault) :
    (s.addOutbound item fault).store.data.outbound
      = s.data.outbound
        ++ if (s.addOutbound item fault).written.isSome then [item]
          else [] := by
  have hmove := StoreMove.of_exec s (.addOutbound item) fault
  simp only [Store.exec] at hmove
  generalize s.addOutbound item fault = o at hmove ⊢
  cases hmove with
  | refused _ _ | idle _ => simp
  | stuck hop _ _ => cases hop
  | saved hchange _ =>
    cases hchange with
    | added _ _ => rfl
    | marked hop _ _ => cases hop

/-- `TakeOutbound` moves the item it returns from the queue to the hand. -/
theorem takeOutbound_outbound (s : Store) (fault : Option SaveFault) {j : Job}
    (hj : (∃ item, j = .handing item
        ∧ (s.takeOutbound fault).result = .ok (some item))
      ∨ (j = .idle
        ∧ ∀ item, (s.takeOutbound fault).result ≠ .ok (some item))) :
    j.hand ++ (s.takeOutbound fault).store.data.outbound
      = s.data.outbound := by
  obtain ⟨-, ho⟩ | ⟨item, rest, hqueue, ⟨f, -, ho⟩ | ⟨e, ho⟩⟩ :=
    takeOutbound_cases s fault
  · rw [ho] at hj ⊢
    rcases hj with ⟨i, -, hi⟩ | ⟨rfl, -⟩
    · cases hi
    · rfl
  · rw [ho] at hj ⊢
    rcases hj with ⟨i, rfl, hi⟩ | ⟨-, hi⟩
    · cases hi
      exact hqueue.symm
    · exact absurd rfl (hi item)
  · rw [ho] at hj ⊢
    rcases hj with ⟨i, -, hi⟩ | ⟨rfl, -⟩
    · cases hi
    · rfl

/-- Over a step of the running service nothing is lost, nothing is
duplicated and nothing changes its place. -/
theorem ServiceMove.queue (hmove : ServiceMove cfg b a b' es)
    (hs : b.keeper.store = some s) (hs' : b'.keeper.store = some s') :
    es.filterMap ServiceEvent.handedItem ++ b'.job.hand ++ s'.data.outbound
      = b.job.hand ++ s.data.outbound
        ++ es.filterMap ServiceEvent.appendedItem := by
  have hsame : b'.keeper = b.keeper → s' = s := by
    intro hkeeper
    rw [hkeeper, hs, Option.some.injEq] at hs'
    exact hs'.symm
  cases hmove with
  | opened hdown _ =>
    rw [hdown] at hs
    cases hs
  | unchanged =>
    rw [hsame rfl]
    simp
  | crashed _ => cases hs'
  -- the only move that appends, where it saved
  | enqueued hpre =>
    cases hpre.symm.trans hs
    cases hs'
    rw [addOutbound_outbound]
    split <;>
      simp [List.filterMap_cons]
  -- marking leaves the queue, and these jobs have nothing in hand
  | @based _ handles fault j hpre hjob hother =>
    cases hpre.symm.trans hs
    cases hs'
    have hqueue := exec_outbound s (.markSeenMany handles) fault
      (by simp) (by simp)
    simp only [Store.exec] at hqueue
    have hhand : j.hand = [] := by
      rcases hother with rfl | rfl <;> rfl
    rw [hqueue, hhand, hjob]
    simp
  | @initialized _ fault hpre hjob =>
    cases hpre.symm.trans hs
    cases hs'
    have hqueue := exec_outbound s .setInitialized fault (by simp)
      (by simp)
    simp only [Store.exec] at hqueue
    rw [hqueue, hjob]
    simp
  | ignored hjob =>
    rw [hsame rfl, hjob]
    simp [List.filterMap_cons]
  | began _ hjob _ =>
    rw [hsame rfl, hjob]
    simp
  | advanced hjob hgo hes =>
    rw [hsame hgo.keeper, hand_of_pending hjob, hand_of_pending hgo.pending]
    rcases hes with rfl | rfl <;>
      simp [List.filterMap_cons]
  | gaveUp hjob hjob' hkeeper _ =>
    rw [hsame hkeeper, hand_of_pending hjob, hjob']
    simp [List.filterMap_cons]
  | @marked _ t _ _ fault next hpre hjob hnext =>
    cases hpre.symm.trans hs
    cases hs'
    have hqueue := exec_outbound s (.markSeen t.event.handle) fault
      (by simp) (by simp)
    simp only [Store.exec] at hqueue
    rw [hqueue, hjob]
    rcases hnext with rfl | ⟨-, rest, rfl⟩ <;>
      simp [Task.done, List.filterMap_cons]
  | sent _ hjob hnext =>
    rw [hsame rfl, hjob]
    rcases hnext with rfl | ⟨rest, rfl⟩ <;>
      simp [Task.done, List.filterMap_cons]
  -- the item goes from the front of the queue to the hand
  | @took _ fault j hpre hjob hj =>
    cases hpre.symm.trans hs
    cases hs'
    have hhand : b.job.hand = [] := by
      rcases hjob with hjob | hjob <;> rw [hjob] <;> rfl
    rw [hhand]
    simpa using takeOutbound_outbound s fault hj
  | handed _ hjob hj =>
    rw [hsame rfl, hjob]
    rcases hj with rfl | rfl <;>
      simp [List.filterMap_cons]

/-- Only a crash closes the store, and it reports nothing. -/
theorem ServiceMove.closed (hmove : ServiceMove cfg b a b' es)
    (hs : b.keeper.store = some s) (hnone : b'.keeper.store = none) :
    a = .crash ∧ b'.job = .idle ∧ es = [] := by
  have hsame : b'.keeper ≠ b.keeper := by
    intro hkeeper
    rw [hkeeper, hs] at hnone
    cases hnone
  cases hmove with
  | crashed _ => exact ⟨rfl, rfl, rfl⟩
  | unchanged | ignored _ | began _ _ _ | sent _ _ _ | handed _ _ _ =>
    exact absurd rfl hsame
  | advanced _ hgo _ => exact absurd hgo.keeper hsame
  | gaveUp _ _ hkeeper _ => exact absurd hkeeper hsame
  | _ => cases hnone

/-- Opening the store reports nothing about the queue. -/
theorem ServiceMove.opening (hmove : ServiceMove cfg b a b' es)
    (hnone : b.keeper.store = none) (hidle : b.job = .idle) :
    b'.job = .idle ∧ es.filterMap ServiceEvent.handedItem = []
      ∧ es.filterMap ServiceEvent.appendedItem = [] := by
  have hno : ∀ s, b.keeper.store ≠ some s := by simp [hnone]
  cases hmove with
  | opened _ _ =>
    refine ⟨hidle, ?_, ?_⟩ <;>
      simp [List.filterMap_eq_nil_iff]
  | unchanged => exact ⟨hidle, rfl, rfl⟩
  | ignored _ => exact ⟨rfl, rfl, rfl⟩
  | advanced hjob _ _ | gaveUp hjob _ _ _ =>
    rw [hidle] at hjob
    cases hjob
  | crashed hs | enqueued hs | based hs _ _ | initialized hs _
  | began hs _ _ | marked hs _ _ | sent hs _ _ | took hs _ _
  | handed hs _ _ => exact absurd hs (hno _)

-- == invariants

/-- What holds over runs that reopen the queue saved last. -/
structure Outbox (q₀ : List Outbound) (tr : List ServiceTrans)
    (b : Service) : Prop where
  down : b.keeper.store = none → b.job = .idle
  queue : ∀ s, b.keeper.store = some s →
    s.data.outbound = lastSaved q₀ tr
  ledger : (handedItems tr ++ b.job.hand ++ lastSaved q₀ tr).Sublist
    (q₀ ++ appendedItems tr)

/-- The queue of an open store is the one saved last. -/
theorem Outbox.queue_snoc (hb : Outbox q₀ tr x.pre)
    (hmove : ServiceMove cfg x.pre x.act x.post x.out)
    (hreopen : ∀ s, x.pre.keeper.store = none →
      x.post.keeper.store = some s → s.data.outbound = lastSaved q₀ tr)
    (hs' : x.post.keeper.store = some s') :
    s'.data.outbound = lastSaved q₀ (tr ++ [x]) := by
  rw [lastSaved_snoc]
  cases hwrote : x.out.any ServiceEvent.isWrote with
  | true =>
    exact (queue_of_store hs').symm
  | false =>
    cases hs : x.pre.keeper.store with
    | none => exact hreopen s' hs hs'
    | some s =>
      rw [(hmove.unwritten (not_wrote hwrote)).2 s s' hs hs']
      exact hb.queue s hs

/-- While the store is not open the queue saved last stays. -/
theorem lastSaved_of_down (q₀ : List Outbound) (tr : List ServiceTrans)
    (hmove : ServiceMove cfg x.pre x.act x.post x.out)
    (hnone : x.post.keeper.store = none) :
    lastSaved q₀ (tr ++ [x]) = lastSaved q₀ tr := by
  rw [lastSaved_snoc, if_neg]
  rw [any_isWrote]
  rintro ⟨f, hf⟩
  exact (hmove.disk_of_down hnone).2 f hf

/-- A step keeps the ledger, whether the store is open or not. -/
theorem Outbox.snoc (hb : Outbox q₀ tr x.pre)
    (hmove : ServiceMove cfg x.pre x.act x.post x.out)
    (hreopen : ∀ s, x.pre.keeper.store = none →
      x.post.keeper.store = some s → s.data.outbound = lastSaved q₀ tr) :
    Outbox q₀ (tr ++ [x]) x.post := by
  have hqueue : ∀ s', x.post.keeper.store = some s' →
      s'.data.outbound = lastSaved q₀ (tr ++ [x]) := fun s' hs' =>
    hb.queue_snoc hmove hreopen hs'
  refine ⟨hmove.down hb.down, hqueue, ?_⟩
  rw [handedItems_snoc, appendedItems_snoc]
  have hledger := hb.ledger
  cases hs : x.pre.keeper.store with
  -- the store is opened, or is still down
  | none =>
    have hidle := hb.down hs
    obtain ⟨hidle', hhanded, happended⟩ := hmove.opening hs hidle
    have hsaved : lastSaved q₀ (tr ++ [x]) = lastSaved q₀ tr := by
      cases hs' : x.post.keeper.store with
      | none => exact lastSaved_of_down q₀ tr hmove hs'
      | some s' => rw [← hqueue s' hs', hreopen s' hs hs']
    rw [hhanded, happended, hidle', hsaved, List.append_nil, List.append_nil]
    rwa [hidle] at hledger
  | some s =>
    cases hs' : x.post.keeper.store with
    | none =>
      -- the crash loses what was in hand
      obtain ⟨-, hidle', hes⟩ := hmove.closed hs hs'
      rw [lastSaved_of_down q₀ tr hmove hs', hidle', hes]
      refine List.Sublist.trans ?_ (by simpa using hledger)
      simp
    | some s' =>
      have hstep := hmove.queue hs hs'
      rw [← hqueue s' hs']
      rw [← hb.queue s hs] at hledger
      have hmoved : handedItems tr
            ++ x.out.filterMap ServiceEvent.handedItem
            ++ x.post.job.hand ++ s'.data.outbound
          = handedItems tr ++ x.pre.job.hand ++ s.data.outbound
            ++ x.out.filterMap ServiceEvent.appendedItem := by
        simp only [List.append_assoc] at hstep ⊢
        rw [hstep]
      rw [hmoved, ← List.append_assoc]
      exact hledger.append_right _

/-- The hypothesis on a run, for all of it but the last step and for
that. -/
theorem Reopens.of_snoc (h : Reopens q₀ (tr ++ [x])) :
    Reopens q₀ tr ∧ ∀ s, x.pre.keeper.store = none →
      x.post.keeper.store = some s →
      s.data.outbound = lastSaved q₀ tr := by
  constructor
  · rintro t₁ y t₂ s rfl hpre hpost
    exact h t₁ y (t₂ ++ [x]) s (by simp) hpre hpost
  · intro s hpre hpost
    exact h tr x [] s rfl hpre hpost

/-- The ledger over every run that reopens the queue saved last. -/
theorem outbox_run (hs₀ : b₀.keeper.store = some s₀)
    (hrun : Exec (serviceStep cfg) b₀ tr b)
    (hidle : b₀.job = .idle) (hreopen : Reopens s₀.data.outbound tr) :
    Outbox s₀.data.outbound tr b := by
  induction hrun with
  | nil =>
    refine ⟨fun _ => hidle, ?_, ?_⟩
    · intro s hs
      rw [hs₀] at hs
      cases hs
      rfl
    · rw [hidle]
      show s₀.data.outbound.Sublist (s₀.data.outbound ++ [])
      rw [List.append_nil]
  | @snoc tr b b' a es _ hstep ih =>
    obtain ⟨hbefore, hlast⟩ := hreopen.of_snoc
    exact (ih hbefore).snoc (x := ⟨b, a, es, b'⟩) (.of_step hstep) hlast

/-- Without a crash the store stays open and nothing is lost. -/
theorem outbox_whole (hs₀ : b₀.keeper.store = some s₀)
    (hrun : Exec (serviceStep cfg) b₀ tr b) (hidle : b₀.job = .idle)
    (hcrash : ∀ x ∈ tr, x.act ≠ .crash) :
    ∃ s, b.keeper.store = some s
      ∧ s₀.data.outbound ++ appendedItems tr
        = handedItems tr ++ b.job.hand ++ s.data.outbound := by
  induction hrun with
  | nil =>
    refine ⟨s₀, hs₀, ?_⟩
    rw [hidle]
    exact List.append_nil _
  | @snoc tr b b' a es _ hstep ih =>
    obtain ⟨s, hs, hledger⟩ := ih fun x hx =>
      hcrash x (List.mem_append_left _ hx)
    have hmove := ServiceMove.of_step hstep
    cases hs' : b'.keeper.store with
    | none =>
      obtain ⟨hact, -⟩ := hmove.closed hs hs'
      exact absurd hact (hcrash ⟨b, a, es, b'⟩ (by simp))
    | some s' =>
      refine ⟨s', rfl, ?_⟩
      have hqueue := hmove.queue hs hs'
      simp only [List.append_assoc] at hqueue hledger
      rw [appendedItems_snoc, handedItems_snoc, ← List.append_assoc]
      simp only [List.append_assoc]
      rw [hqueue, ← List.append_assoc, hledger]
      simp only [List.append_assoc]

-- == the item taken

/-- An item in hand was in hand, or has just been taken from the front. -/
theorem ServiceMove.handing (hmove : ServiceMove cfg b a b' es)
    (hdown : b.keeper.store = none → b.job = .idle)
    (hj : b'.job = .handing item) :
    (b.job = .handing item
        ∧ b'.queue = b.queue ++ es.filterMap ServiceEvent.appendedItem)
      ∨ ((∃ fault, a = .takeOutbound fault)
        ∧ b.queue = item :: b'.queue) := by
  cases hmove with
  | opened hnone _ =>
    rw [hdown hnone] at hj
    cases hj
  | unchanged => exact Or.inl ⟨hj, (List.append_nil _).symm⟩
  | crashed _ => cases hj
  | enqueued hs =>
    refine Or.inl ⟨hj, ?_⟩
    rw [queue_of_store hs, queue_of_store rfl, addOutbound_outbound,
      List.filterMap_append, filterMap_wroteOf _ (fun _ => rfl)]
    split <;> rfl
  | based _ _ hother => rcases hother with rfl | rfl <;> cases hj
  | initialized _ _ | ignored _ | began _ _ _ => cases hj
  | advanced _ hgo _ =>
    have hpending := hgo.pending
    rw [hj] at hpending
    cases hpending
  | gaveUp _ hjob' _ _ =>
    rw [hjob'] at hj
    cases hj
  | marked _ _ hnext => rcases hnext with rfl | ⟨-, rest, rfl⟩ <;> cases hj
  | sent _ _ hnext => rcases hnext with rfl | ⟨rest, rfl⟩ <;> cases hj
  -- the one way to a new item in hand
  | @took s fault j hs _ htaken =>
    refine Or.inr ⟨⟨fault, rfl⟩, ?_⟩
    rcases htaken with ⟨i, rfl, hresult⟩ | ⟨rfl, -⟩
    · cases hj
      rw [queue_of_store hs, queue_of_store rfl]
      obtain ⟨-, ho⟩ | ⟨first, rest, hqueue, ⟨f, -, ho⟩ | ⟨e, ho⟩⟩ :=
        takeOutbound_cases s fault
      · rw [ho] at hresult
        cases hresult
      · rw [ho] at hresult ⊢
        cases hresult
        exact hqueue
      · rw [ho] at hresult
        cases hresult
    · cases hj
  | handed _ _ hother => rcases hother with rfl | rfl <;> cases hj

/-- Nothing runs while the store is not open. -/
theorem idle_of_down (hrun : Exec (serviceStep cfg) b₀ tr b)
    (hidle : b₀.job = .idle) : b.keeper.store = none → b.job = .idle := by
  apply hrun.inv
  · exact fun _ => hidle
  · intro b a b' es hdown hstep
    exact (ServiceMove.of_step hstep).down hdown

/-- The item in hand was taken from the front of the queue, to which only
appended items have been added since. -/
theorem taken_before (hrun : Exec (serviceStep cfg) b₀ tr b)
    (hidle : b₀.job = .idle) (hj : b.job = .handing item) :
    ∃ t₁ y t₂ fault, tr = t₁ ++ y :: t₂ ∧ y.act = .takeOutbound fault
      ∧ y.pre.queue ++ appendedItems t₂ = item :: b.queue := by
  induction hrun with
  | nil =>
    rw [hidle] at hj
    cases hj
  | @snoc tr b b' a es hpre hstep ih =>
    have hmove := ServiceMove.of_step hstep
    rcases hmove.handing (idle_of_down hpre hidle) hj with
      ⟨hjob, hqueue⟩ | ⟨⟨fault, hact⟩, hqueue⟩
    · obtain ⟨t₁, y, t₂, fault, rfl, hy, htaken⟩ := ih hjob
      refine ⟨t₁, y, t₂ ++ [⟨b, a, es, b'⟩], fault, by simp, hy, ?_⟩
      rw [appendedItems_snoc, ← List.append_assoc, htaken, hqueue]
      rfl
    · refine ⟨tr, ⟨b, a, es, b'⟩, [], fault, rfl, hact, ?_⟩
      rw [← hqueue]
      exact List.append_nil _

/-- `SendSMS` is called with the item in hand and does not touch the
queue, whatever it returns. -/
theorem sendSMS_step {ok : Bool}
    (hstep : serviceStep cfg b (.sendSMS ok) = some (b', es)) :
    ∃ item, b.job = .handing item ∧ es = [.handed item ok]
      ∧ b'.queue = b.queue := by
  unfold serviceStep at hstep
  cases hs : b.keeper.store with
  | none =>
    rw [hs] at hstep
    cases hstep
  | some s =>
    rw [hs] at hstep
    simp only [runningStep] at hstep
    split at hstep
    case h_1 item hjob =>
      cases hstep
      exact ⟨item, hjob, rfl, rfl⟩
    case h_2 => cases hstep

-- == reopening

/-- The file at the path opens to the queue saved last. -/
structure OnDisk (q₀ : List Outbound) (tr : List ServiceTrans)
    (b : Service) : Prop where
  sound : KeeperSound b.keeper
  text : KeeperText b.keeper
  file : ∃ f, b.keeper.disk = .file f
  saved : ∀ s, load b.keeper.disk = .ok s →
    s.data.outbound = lastSaved q₀ tr

/-- What is written opens to its queue, and what is not written stays. -/
theorem OnDisk.snoc (hb : OnDisk q₀ tr x.pre)
    (hmove : ServiceMove cfg x.pre x.act x.post x.out)
    (hadd : ∀ item ∈ x.act.adds, item.ValidText) :
    OnDisk q₀ (tr ++ [x]) x.post := by
  have hsound := hmove.sound hb.sound
  have htext := hmove.text hb.text hadd
  refine ⟨hsound, htext, hmove.file hb.file, ?_⟩
  intro s hload
  rw [lastSaved_snoc]
  cases hwrote : x.out.any ServiceEvent.isWrote with
  | true =>
    obtain ⟨f, hf⟩ := any_isWrote.mp hwrote
    obtain ⟨s', hs', rfl, hdisk⟩ := hmove.wrote hf
    rw [hdisk, (hsound s' hs').load_self (htext s' hs'),
      Except.ok.injEq] at hload
    rw [if_pos rfl, queue_of_store hs', hload]
  | false =>
    rw [(hmove.unwritten (not_wrote hwrote)).1] at hload
    exact hb.saved s hload

/-- The file at the path, after a whole run. -/
theorem onDisk_run (h₀ : OnDisk q₀ [] b₀)
    (hrun : Exec (serviceStep cfg) b₀ tr b)
    (hadd : ∀ x ∈ tr, ∀ item ∈ x.act.adds, item.ValidText) :
    OnDisk q₀ tr b := by
  induction hrun with
  | nil => exact h₀
  | @snoc tr b b' a es _ hstep ih =>
    apply (ih fun x hx => hadd x (List.mem_append_left _ hx)).snoc
      (x := ⟨b, a, es, b'⟩) (.of_step hstep)
    exact hadd _ (by simp)

/-- Where only valid UTF-8 is enqueued, a service that starts again has
the queue saved last. -/
theorem reopens_of_validText {disk : Disk}
    (hrun : Exec (serviceStep cfg) (newService disk) (x :: tr) b)
    (hs₀ : x.post.keeper.store = some s₀)
    (hadd : ∀ y ∈ tr, ∀ item ∈ y.act.adds, item.ValidText) :
    Reopens s₀.data.outbound tr := by
  have hcut : Exec (serviceStep cfg) (newService disk) ([] ++ x :: tr) b :=
    hrun
  obtain ⟨hpre, hstep, hrest⟩ := hcut.split
  have hnew : x.pre.keeper.store = none := by
    rcases hpre.last with ⟨-, heq⟩ | ⟨y, hy, -⟩
    · rw [heq]
      rfl
    · cases hy
  -- the first step has opened the store, from its file or a legacy one
  have h₀ : OnDisk s₀.data.outbound [] x.post := by
    rcases (ServiceMove.of_step hstep).keeper with
      ⟨hsame, -⟩ | ⟨ka, kes, hkeeper, -, -⟩
    · rw [hsame, hnew] at hs₀
      cases hs₀
    · obtain ⟨hsound, htext, hfile, hload⟩ := hkeeper.opened hnew hs₀
      refine ⟨hsound, htext, hfile, ?_⟩
      intro s hs
      rw [hload s hs]
      rfl
  rintro t₁ y t₂ s rfl hnone hs
  obtain ⟨hmid, hstep', -⟩ := hrest.split
  have hdisk := onDisk_run h₀ hmid fun z hz =>
    hadd z (List.mem_append_left _ hz)
  exact hdisk.saved s
    ((ServiceMove.of_step hstep').reopened hnone hdisk.file hs)

-- == results

/-- Over whole runs in which a service that starts again has the queue
saved last: the items handed to `SendSMS` are in order among those queued
at the start and appended since, none more often than it was put there;
without a crash, what was put there is what was handed over, what is in
hand and what is queued, in this order; and a call of `SendSMS`, failed or
not, is for one item, which was taken from the front of the queue and is
all that the queue has lost. -/
theorem outbound_fifo_at_most_once (hs₀ : b₀.keeper.store = some s₀)
    (hidle : b₀.job = .idle) (hrun : Exec (serviceStep cfg) b₀ tr b)
    (hreopen : Reopens s₀.data.outbound tr) :
    (handedItems tr).Sublist (s₀.data.outbound ++ appendedItems tr)
      ∧ (∀ item, (handedItems tr).count item
          ≤ (s₀.data.outbound ++ appendedItems tr).count item)
      ∧ ((∀ x ∈ tr, x.act ≠ .crash) →
          s₀.data.outbound ++ appendedItems tr
            = handedItems tr ++ b.job.hand ++ b.queue)
      ∧ ∀ t₁ x t₂ ok, tr = t₁ ++ x :: t₂ → x.act = .sendSMS ok →
          ∃ item t y t' fault,
            handedItems (t₁ ++ [x]) = handedItems t₁ ++ [item]
              ∧ t₁ = t ++ y :: t' ∧ y.act = .takeOutbound fault
              ∧ y.pre.queue ++ appendedItems t'
                = item :: x.post.queue := by
  have hsublist : (handedItems tr).Sublist
      (s₀.data.outbound ++ appendedItems tr) := by
    have hledger := (outbox_run hs₀ hrun hidle hreopen).ledger
    rw [List.append_assoc] at hledger
    exact (List.sublist_append_left _ _).trans hledger
  refine ⟨hsublist, fun item => hsublist.count_le item, ?_, ?_⟩
  · intro hcrash
    obtain ⟨s, hs, hwhole⟩ := outbox_whole hs₀ hrun hidle hcrash
    rw [hwhole, queue_of_store hs]
  · rintro t₁ x t₂ ok rfl hact
    obtain ⟨hpre, hstep, -⟩ := hrun.split
    rw [hact] at hstep
    obtain ⟨item, hjob, hout, hqueue⟩ := sendSMS_step hstep
    obtain ⟨t, y, t', fault, rfl, hy, htaken⟩ :=
      taken_before hpre hidle hjob
    refine ⟨item, t, y, t', fault, ?_, rfl, hy, ?_⟩
    · rw [handedItems_snoc, hout]
      rfl
    · rw [hqueue]
      exact htaken

/-- A second message of one letter. -/
def secondItem : Outbound :=
  { sampleItem with id := [0x62], text := [0x69] }

/-- A service that forwards to nobody. -/
def noRecipients : Config := ⟨[], ⟨fun _ => none, fun _ => none⟩, id⟩

/-- The first of two messages is handed over and fails, the service
crashes and starts again, and the second is handed over. -/
theorem outbound_fifo_at_most_once_restart :
    ∃ b₀ tr b s₀, Exec (serviceStep noRecipients) b₀ tr b
      ∧ b₀.keeper.store = some s₀ ∧ s₀.data.outbound = []
      ∧ (∃ y ∈ tr, y.pre.keeper.store.isNone = true)
      ∧ handedItems tr = [sampleItem, secondItem]
      ∧ (handedItems tr).Sublist
        (s₀.data.outbound ++ appendedItems tr) := by
  obtain ⟨tr, b, hrun, ⟨x, hx, hidle, s₀, hs₀, hempty⟩, hadd, hdown,
      hhanded⟩ :=
    exec_of_decide (serviceStep noRecipients) (newService .absent)
      [.start noLegacy none, .enqueue sampleItem none,
        .enqueue secondItem none, .takeOutbound (some .rename),
        .takeOutbound none, .sendSMS false, .crash, .start noLegacy none,
        .takeOutbound none, .sendSMS true]
      (fun tr _ => (∃ x ∈ tr.head?, x.post.job = .idle
          ∧ ∃ s₀ ∈ x.post.keeper.store, s₀.data.outbound = [])
        ∧ (∀ y ∈ tr.tail, ∀ item ∈ y.act.adds, item.ValidText)
        ∧ (∃ y ∈ tr.tail, y.pre.keeper.store.isNone = true)
        ∧ handedItems tr.tail = [sampleItem, secondItem]) (by decide +kernel)
  cases tr with
  | nil => cases hx
  | cons _ tr =>
    cases hx
    have hcut : Exec (serviceStep noRecipients) (newService .absent)
        ([] ++ x :: tr) b := hrun
    have hrest := hcut.split.2.2
    exact ⟨x.post, tr, b, s₀, hrest, hs₀, hempty, hdown, hhanded,
      (outbound_fifo_at_most_once hs₀ hidle hrest
        (reopens_of_validText hrun hs₀ hadd)).1⟩

end Callbridge.Bridge
