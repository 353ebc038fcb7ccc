/-
A reservation dies with reconfiguration. Between the region that reserves
a pair and the region that publishes it the call holds no lock. What
protects the pair is the generation each half was configured at: whatever
happens to a path in between takes its generation out of force for good,
and the last region asks for exactly that generation.
-/
import Callbridge.Bluez.Proofs.ReserveSteps
import Callbridge.Bluez.Proofs.OneOutcome

namespace Callbridge.Bluez

open Lib

variable {w w' : World} {id : AcquireId} {a : Acquisition}
  {sink source : PendingTransport} {l es : List Event} {act : Action}
  {call : Acquire}

-- == one call at a time

theorem waits_of_other {i : AcquireId} {next : Acquire} (hne : i ≠ id)
    (hs : w'.acquires = w.acquires.set i next) :
    w'.Waits id a sink source ↔ w.Waits id a sink source := by
  unfold World.Waits
  rw [hs, List.getElem?_set_ne hne]

theorem waits_of_self {next : Acquire}
    (hlt : id < w.acquires.length)
    (hs : w'.acquires = w.acquires.set id next) :
    w'.Waits id a sink source ↔ next.pair = some (a, sink, source) := by
  unfold World.Waits
  rw [hs, List.getElem?_set_self hlt]
  constructor
  · intro h
    obtain ⟨call, hc, hp⟩ := h
    cases hc
    exact hp
  · intro h
    exact ⟨next, rfl, h⟩

theorem waits_congr (hs : w'.acquires = w.acquires) :
    w'.Waits id a sink source ↔ w.Waits id a sink source := by
  unfold World.Waits
  rw [hs]

theorem lt_of_call (h : w.acquires[id]? = some call) :
    id < w.acquires.length :=
  (List.getElem?_eq_some_iff.mp h).1

theorem not_waits_of_call (h : w.acquires[id]? = some call)
    (hp : call.pair = none) :
    ∀ a sink source, ¬ w.Waits id a sink source := by
  intro a sink source hw
  obtain ⟨call', hc, hpair⟩ := hw
  rw [h] at hc
  cases hc
  rw [hp] at hpair
  cases hpair

/-- The facts of a step that reserves a pair for a call. -/
structure Reserves (w w' : World) (id : AcquireId)
    (sink source : PendingTransport) : Prop where
  fresh : ∀ a sink source, ¬ w.Waits id a sink source
  distinct : sink.path ≠ source.path
  sinkCurrent : w.broker.stillConfigured sink = true
  sourceCurrent : w.broker.stillConfigured source = true
  pairing : w'.broker.pairing
    = insert source.path (insert sink.path w.broker.pairing)
  waits : ∃ a, w'.Waits id a sink source

/-- The region that reserves knows both halves configured. -/
theorem Reserves.of_call {held : PendingTransport}
    {linkedPeer : Option PendingTransport}
    (hid : w.acquires[id]? = some (.held a held linkedPeer))
    (hs : w'.acquires = w.acquires.set id (.reserved a sink source))
    (hp : w'.broker.pairing
      = insert source.path (insert sink.path w.broker.pairing))
    (hne : sink.path ≠ source.path)
    (hsink : w.broker.stillConfigured sink = true)
    (hsource : w.broker.stillConfigured source = true) :
    Reserves w w' id sink source := by
  refine ⟨not_waits_of_call hid rfl, hne, hsink, hsource, hp, a, ?_⟩
  rw [waits_of_self (lt_of_call hid) hs]
  rfl

/-- A call that waits waited before, or reserved its pair just now. -/
theorem CallMove.waits_before {i : AcquireId} {act : AcquireAct}
    (hm : CallMove w w' i act l)
    (h : w'.Waits id a sink source) :
    w.Waits id a sink source
      ∨ Event.reserved id sink source ∈ l ∧ Reserves w w' id sink source := by
  by_cases hi : i = id
  case neg =>
    refine Or.inl ?_
    cases hm with
    | quiet _ hs => exact (waits_congr hs).mp h
    | advance _ hs _ _ _ _ | correlate _ _ _ hs _ _ | reserve _ hs _ _ _ _
    | finish _ hs _ _ => exact (waits_of_other hi hs).mp h
  case pos =>
    subst hi
    cases hm with
    | quiet _ hs => exact Or.inl ((waits_congr hs).mp h)
    | advance hid hs _ _ hnext _ =>
      rw [waits_of_self (lt_of_call hid) hs, hnext] at h
      cases h
    | correlate _ _ hid hs _ _ =>
      rw [waits_of_self (lt_of_call hid) hs] at h
      exact Or.inl ⟨_, hid, h⟩
    | reserve hid hs hp hne h₁ h₂ =>
      rw [waits_of_self (lt_of_call hid) hs] at h
      cases h
      exact Or.inr ⟨List.mem_singleton.mpr rfl,
        Reserves.of_call hid hs hp hne h₁ h₂⟩
    | finish hid hs _ _ =>
      rw [waits_of_self (lt_of_call hid) hs] at h
      cases h

/-- A call that waits has waited, or reserves just now. -/
theorem ReserveMove.waits_before (hm : ReserveMove w w' act l)
    (h : w'.Waits id a sink source) :
    w.Waits id a sink source
      ∨ Event.reserved id sink source ∈ l ∧ Reserves w w' id sink source := by
  cases hm with
  | quiet _ hs => exact Or.inl ((waits_congr hs).mp h)
  | enter path _ hs =>
    refine Or.inl ?_
    obtain ⟨call, hc, hp⟩ := h
    rw [hs, List.getElem?_append] at hc
    split at hc
    case isTrue => exact ⟨call, hc, hp⟩
    case isFalse =>
      -- the call that just started holds nothing
      have hmem := List.mem_of_getElem? hc
      obtain rfl := List.mem_singleton.mp hmem
      cases hp
  | call _ hm => exact hm.waits_before h
  | erase path _ hs _ | reset _ hs => exact Or.inl ((waits_congr hs).mp h)

/-- Every event about a reservation but the loss of one to an idle signal
comes from a region of a call. -/
theorem ReserveMove.call_of_mem {e : Event} (hm : ReserveMove w w' act l)
    (he : e ∈ l) (hidle : ∀ p, e ≠ .idle p) :
    ∃ i a, CallMove w w' i a l := by
  cases hm with
  | quiet _ _ | enter _ _ _ => cases he
  | call _ hm => exact ⟨_, _, hm⟩
  | erase path _ _ hl =>
    rcases hl with rfl | rfl
    · cases he
    · exact absurd (List.mem_singleton.mp he) (hidle path)
  | reset _ _ => cases he

/-- A publication is the last region of a waiting call, which found its
pair current. -/
theorem ReserveMove.published {d d' : Descriptor} {ok : Bool}
    (hm : ReserveMove w w' act l)
    (he : Event.publishPair id sink source d d' ok ∈ l) :
    ∃ a token correlated,
      w.acquires[id]? = some (.correlated a sink source token correlated)
        ∧ w.broker.pairCurrentLocked a.conn sink source = true
        ∧ d.callControlToken = token ∧ d'.callControlToken = token
        ∧ (w.broker.requireToken = true → correlated = true) := by
  obtain ⟨i, act', hm⟩ := hm.call_of_mem he (by intro p h; cases h)
  cases hm with
  | quiet _ _ | advance _ _ _ _ _ _ | correlate _ _ _ _ _ _ => cases he
  | reserve _ _ _ _ _ _ => cases List.mem_singleton.mp he
  | @finish a₁ sink₁ source₁ token corr l hid hs _ hf =>
    cases hf with
    | returned => cases List.mem_singleton.mp he
    | published hcur htok htok' hreq =>
      rcases List.mem_cons.mp he with he | he
      · cases he
        exact ⟨a₁, token, corr, hid, hcur, htok, htok', hreq⟩
      · cases List.mem_singleton.mp he

/-- Giving a reservation up is the last region of a waiting call, which
ran `clearPairingLocked` on its pair. -/
theorem ReserveMove.unreserved (hm : ReserveMove w w' act l)
    (he : Event.unreserved id sink source ∈ l) :
    ∃ a, w.Waits id a sink source
      ∧ Cleared w.broker sink source w'.broker.pairing := by
  obtain ⟨i, act', hm⟩ := hm.call_of_mem he (by intro p h; cases h)
  cases hm with
  | quiet _ _ | advance _ _ _ _ _ _ | correlate _ _ _ _ _ _ => cases he
  | reserve _ _ _ _ _ _ => cases List.mem_singleton.mp he
  | @finish a₁ sink₁ source₁ token corr l hid hs hc hf =>
    have hpair : i = id ∧ sink₁ = sink ∧ source₁ = source := by
      cases hf with
      | returned =>
        cases List.mem_singleton.mp he
        exact ⟨rfl, rfl, rfl⟩
      | published _ _ _ _ =>
        rcases List.mem_cons.mp he with he | he
        · cases he
        · cases List.mem_singleton.mp he
          exact ⟨rfl, rfl, rfl⟩
    obtain ⟨rfl, rfl, rfl⟩ := hpair
    exact ⟨a₁, ⟨_, hid, rfl⟩, hc⟩

/-- A reservation is made by the third region of a call, which lets out
nothing else about reservations. -/
theorem ReserveMove.reserved (hm : ReserveMove w w' act l)
    (he : Event.reserved id sink source ∈ l) :
    Reserves w w' id sink source ∧ l = [.reserved id sink source] := by
  obtain ⟨i, act', hm⟩ := hm.call_of_mem he (by intro p h; cases h)
  cases hm with
  | quiet _ _ | advance _ _ _ _ _ _ | correlate _ _ _ _ _ _ => cases he
  | reserve hid hs hp hne h₁ h₂ =>
    cases List.mem_singleton.mp he
    exact ⟨Reserves.of_call hid hs hp hne h₁ h₂, rfl⟩
  | finish _ _ _ hf =>
    cases hf with
    | returned => cases List.mem_singleton.mp he
    | published _ _ _ _ =>
      rcases List.mem_cons.mp he with he | he
      · cases he
      · cases List.mem_singleton.mp he

/-- A call that has its token had it before, or its poll was just
answered. -/
theorem ReserveMove.correlated_before {token : UInt64}
    (hm : ReserveMove w w' act l)
    (h : w'.acquires[id]? = some (.correlated a sink source token true)) :
    w.acquires[id]? = some (.correlated a sink source token true)
      ∨ w.acquires[id]? = some (.reserved a sink source)
        ∧ ∃ answer expired, act = .acquire id (.poll answer expired)
          ∧ correlatedToken answer = some token := by
  cases hm with
  | quiet _ hs => rw [hs] at h; exact Or.inl h
  | enter path _ hs =>
    rw [hs, List.getElem?_append] at h
    split at h
    case isTrue => exact Or.inl h
    case isFalse =>
      have hmem := List.mem_of_getElem? h
      cases List.mem_singleton.mp hmem
  | erase _ _ hs _ | reset _ hs => rw [hs] at h; exact Or.inl h
  | @call i act' l hact hm =>
    have hset : ∀ {old next : Acquire}, w.acquires[i]? = some old →
        w'.acquires = w.acquires.set i next →
        w.acquires[id]? = some (.correlated a sink source token true)
          ∨ i = id
            ∧ next = .correlated a sink source token true := by
      intro old next hold hs
      rw [hs] at h
      by_cases hi : i = id
      · subst hi
        rw [List.getElem?_set_self (lt_of_call hold)] at h
        cases h
        exact Or.inr ⟨rfl, rfl⟩
      · rw [List.getElem?_set_ne hi] at h
        exact Or.inl h
    cases hm with
    | quiet _ hs => rw [hs] at h; exact Or.inl h
    | advance hid hs _ _ hnext _ =>
      rcases hset hid hs with h | ⟨-, rfl⟩
      · exact Or.inl h
      · cases hnext
    | correlate token' corr hid hs _ hpoll =>
      rcases hset hid hs with h | ⟨rfl, hnext⟩
      · exact Or.inl h
      · cases hnext
        obtain ⟨answer, expired, rfl, htoken⟩ := hpoll rfl
        exact Or.inr ⟨hid, answer, expired, hact, htoken⟩
    | reserve hid hs _ _ _ _ | finish hid hs _ _ =>
      rcases hset hid hs with h | ⟨-, hnext⟩
      · exact Or.inl h
      · cases hnext

-- == calls

/-- Every call in progress read a connection that was opened. -/
def CallsOpened (w : World) : Prop :=
  ∀ (id : AcquireId) (call : Acquire) (a : Acquisition),
    w.acquires[id]? = some call → call.acquisition = some a →
    a.conn < w.conns

theorem conns_le {m : List Event} (hm : ConfigMove w w' m) :
    w.conns ≤ w'.conns := by
  cases hm with
  | keep hs _ => rw [hs.2.1]
  | configure _ _ _ _ _ _ _ _ hc _ | clear _ _ _ _ _ hc _ => rw [hc]
  | connect _ _ _ _ hc _ => rw [hc]; exact Nat.le_succ _
  | unregister _ _ _ _ hc _ | disconnect _ _ _ _ hc => rw [hc]

/-- What a call knows of its connection, it read there or knew before. -/
theorem ReserveMove.acquisition (hm : ReserveMove w w' act l)
    (hc : w'.acquires[id]? = some call) (ha : call.acquisition = some a) :
    (∃ call', w.acquires[id]? = some call'
        ∧ call'.acquisition = some a)
      ∨ w.broker.connection = some a.conn := by
  have hset : ∀ {i : AcquireId} {old next : Acquire},
      w.acquires[i]? = some old → w'.acquires = w.acquires.set i next →
      (next.acquisition = some a → old.acquisition = some a
        ∨ w.broker.connection = some a.conn) →
      (∃ call', w.acquires[id]? = some call'
          ∧ call'.acquisition = some a)
        ∨ w.broker.connection = some a.conn := by
    intro i old next hold hs hstep
    rw [hs] at hc
    by_cases hi : i = id
    · subst hi
      rw [List.getElem?_set_self (lt_of_call hold)] at hc
      cases hc
      rcases hstep ha with h | h
      · exact Or.inl ⟨old, hold, h⟩
      · exact Or.inr h
    · rw [List.getElem?_set_ne hi] at hc
      exact Or.inl ⟨call, hc, ha⟩
  cases hm with
  | quiet _ hs => rw [hs] at hc; exact Or.inl ⟨call, hc, ha⟩
  | enter path _ hs =>
    rw [hs, List.getElem?_append] at hc
    split at hc
    case isTrue => exact Or.inl ⟨call, hc, ha⟩
    case isFalse =>
      have hmem := List.mem_of_getElem? hc
      obtain rfl := List.mem_singleton.mp hmem
      cases ha
  | call _ hm =>
    cases hm with
    | quiet _ hs => rw [hs] at hc; exact Or.inl ⟨call, hc, ha⟩
    | advance hid hs _ _ _ hstep => exact hset hid hs (hstep a)
    | correlate _ _ hid hs _ _ | reserve hid hs _ _ _ _ | finish hid hs _ _ =>
      exact hset hid hs Or.inl
  | erase path _ hs _ | reset _ hs =>
    rw [hs] at hc; exact Or.inl ⟨call, hc, ha⟩

theorem step_callsOpened {act : Action} (hinv : ConfigInv w)
    (h : CallsOpened w) (hstep : step w act = some (w', es)) :
    CallsOpened w' := by
  intro id call a hc ha
  have hle := conns_le (ConfigMove.of_step hstep)
  rcases (ReserveMove.of_step hinv hstep).acquisition hc ha with
    ⟨call', hc', ha'⟩ | hconn
  · exact Nat.lt_of_lt_of_le (h id call' a hc' ha') hle
  · exact Nat.lt_of_lt_of_le (hinv.connection _ hconn) hle

-- == runs

section Runs

variable {device : Bytes} {required : Bool} {wait : Nat}
  {tr : List WorldTrans}

theorem run_configInv
    (h : Exec step (newWorld (newBroker device required wait)) tr w) :
    ConfigInv w :=
  h.inv (newWorld_configInv device required wait) step_configInv

theorem run_callsOpened
    (h : Exec step (newWorld (newBroker device required wait)) tr w) :
    CallsOpened w := by
  induction h with
  | nil =>
    intro id call a hc _
    cases hc
  | snoc hrun hstep ih =>
    exact step_callsOpened (run_configInv hrun) ih hstep

/-- The reservation of a waiting call lies in the run, and the call has
waited ever since. -/
theorem waits_since
    (h : Exec step (newWorld (newBroker device required wait)) tr w)
    (hw : w.Waits id a sink source) :
    ∃ (t₁ : List WorldTrans) (x : WorldTrans) (t₂ : List WorldTrans),
      tr = t₁ ++ x :: t₂ ∧ Event.reserved id sink source ∈ x.out
      ∧ Reserves x.pre x.post id sink source
      ∧ ∀ z ∈ t₂, z.pre.Waits id a sink source := by
  induction h with
  | nil =>
    obtain ⟨call, hc, -⟩ := hw
    cases hc
  | snoc hrun hstep ih =>
    have hm := ReserveMove.of_step (run_configInv hrun) hstep
    rcases hm.waits_before hw with hbefore | ⟨he, hres⟩
    · obtain ⟨t₁, x, t₂, rfl, hx, hres, hall⟩ := ih hbefore
      refine ⟨t₁, x, t₂ ++ [_], by rw [List.append_assoc]; rfl, hx, hres,
        ?_⟩
      intro z hz
      rcases List.mem_append.mp hz with hz | hz
      · exact hall z hz
      · obtain rfl := List.mem_singleton.mp hz
        exact hbefore
    · exact ⟨_, _, [], rfl, List.mem_of_mem_filter he, hres,
        fun z hz => by cases hz⟩

/-- A waiting call that finds its pair current has not been disturbed
since it reserved it. -/
theorem undisturbed_of_current {t₁ t₂ : List WorldTrans}
    {x : WorldTrans}
    (h : Exec step (newWorld (newBroker device required wait))
      (t₁ ++ x :: t₂) w)
    (hres : Reserves x.pre x.post id sink source)
    (hall : ∀ z ∈ t₂, z.pre.Waits id a sink source)
    (hcur : w.broker.pairCurrentLocked a.conn sink source = true) :
    ∀ z ∈ t₂, ∀ e ∈ z.out, e.disturbs sink.path = false
      ∧ e.disturbs source.path = false := by
  obtain ⟨h₁, hx, h₂⟩ := h.split
  unfold Broker.pairCurrentLocked at hcur
  simp only [Bool.and_eq_true, decide_eq_true_eq] at hcur
  obtain ⟨⟨⟨⟨hconn, -⟩, -⟩, hsink⟩, hsource⟩ := hcur
  have hinv := run_configInv h₁
  intro z hz e he
  obtain ⟨u₁, u₂, rfl, hu₁, hzstep, hu₂⟩ := h₂.of_mem hz
  have hm := ConfigMove.of_step hzstep
  obtain ⟨call, hcall, hpair⟩ := hall z hz
  have hacq : call.acquisition = some a := by
    cases call <;> first | (cases hpair; rfl) | cases hpair
  have hopened : a.conn < z.pre.conns :=
    run_callsOpened (h₁.trans ((Exec.single hx).trans hu₁)) id call a hcall
      hacq
  -- both generations were drawn when the pair was reserved
  have hdrawn : ∀ t : PendingTransport,
      x.pre.broker.stillConfigured t = true →
      t.config.generation ≤ z.pre.broker.nextConfig := by
    intro t ht
    refine ((Exec.single hx).trans hu₁).inv
      (P := fun w => t.config.generation ≤ w.broker.nextConfig)
      (hinv.drawn ht) ?_
    intro s act s' es' hle hs
    exact Std.le_trans hle (ConfigMove.of_step hs).nextConfig_le
  have hnot : ∀ t : PendingTransport,
      x.pre.broker.stillConfigured t = true →
      w.broker.stillConfigured t = true → e.disturbs t.path = false := by
    intro t ht ht'
    cases hd : e.disturbs t.path with
    | false => rfl
    | true =>
      have hmem : e ∈ z.out.filter Event.isConfig :=
        List.mem_filter.mpr ⟨he, isConfig_of_disturbs hd⟩
      rcases hm.disturbed (hdrawn t ht) hopened hmem hd with hl | hl
      · rw [not_stillConfigured_of_lost (run_lost hu₂ hl)] at ht'
        cases ht'
      · exact absurd hconn (run_connLost hu₂ hl).2
  exact ⟨hnot sink hres.sinkCurrent hsink,
    hnot source hres.sourceCurrent hsource⟩

/-- A reservation made at a later generation has taken the earlier one out
of force. -/
theorem Reserves.lost {held held' : PendingTransport} (hinv : ConfigInv w)
    (hres : Reserves w w' id sink source)
    (hh : held' = sink ∨ held' = source) (hpath : held'.path = held.path)
    (hlt : held.config.generation < held'.config.generation) :
    Lost w.broker held.path held.config.generation := by
  have hcur : w.broker.stillConfigured held' = true := by
    rcases hh with rfl | rfl
    · exact hres.sinkCurrent
    · exact hres.sourceCurrent
  refine ⟨Std.le_trans (Std.le_of_lt hlt) (hinv.drawn hcur), ?_⟩
  intro c hc he
  obtain ⟨c', hc', hg⟩ := stillConfigured_iff.mp hcur
  rw [hpath, hc] at hc'
  cases hc'
  rw [← hg, he] at hlt
  exact UInt64.lt_irrefl _ hlt

/-- Over every run, with any number of `acquire` calls: a pair that is
passed to `PublishPair` was reserved by the same call, and between the two
neither of its paths was configured again or cleared and the connection
was neither replaced nor given up; and where a call gives its reservation
up, a path that was reserved at a later generation keeps its
reservation. -/
theorem reservation_dies_with_reconfiguration
    (h : Exec step (newWorld (newBroker device required wait)) tr w) :
    (∀ t (y : WorldTrans) t' id sink source d d' ok, tr = t ++ y :: t' →
        Event.publishPair id sink source d d' ok ∈ y.out →
        ∃ (t₁ : List WorldTrans) (x : WorldTrans) (t₂ : List WorldTrans),
          t = t₁ ++ x :: t₂ ∧ Event.reserved id sink source ∈ x.out
          ∧ sink.path ∈ x.post.broker.pairing
          ∧ source.path ∈ x.post.broker.pairing
          ∧ ∀ z ∈ t₂, ∀ e ∈ z.out, e.disturbs sink.path = false
            ∧ e.disturbs source.path = false)
      ∧ ∀ t (y : WorldTrans) t' id sink source held, tr = t ++ y :: t' →
          Event.unreserved id sink source ∈ y.out →
          held = sink ∨ held = source →
          ∀ x ∈ t, ∀ id' sink' source' held',
            Event.reserved id' sink' source' ∈ x.out →
            held' = sink' ∨ held' = source' → held'.path = held.path →
            held.config.generation < held'.config.generation →
            held.path ∈ y.pre.broker.pairing →
            held.path ∈ y.post.broker.pairing := by
  refine ⟨?_, ?_⟩
  · intro t y t' id sink source d d' ok htr he
    subst htr
    obtain ⟨h₁, hy, -⟩ := h.split
    have hm := ReserveMove.of_step (run_configInv h₁) hy
    obtain ⟨a, token, corr, hid, hcur, -⟩ :=
      hm.published (List.mem_filter.mpr ⟨he, rfl⟩)
    -- back to the step that reserved the pair
    obtain ⟨t₁, x, t₂, rfl, hx, hres, hall⟩ := waits_since h₁
      (⟨_, hid, rfl⟩ : y.pre.Waits id a sink source)
    refine ⟨t₁, x, t₂, rfl, hx, ?_, ?_,
      undisturbed_of_current h₁ hres hall hcur⟩
    · rw [hres.pairing]
      exact Finset.mem_insert_of_mem (Finset.mem_insert_self _ _)
    · rw [hres.pairing]
      exact Finset.mem_insert_self _ _
  · intro t y t' id sink source held htr he hheld x hx id' sink' source'
      held' hx' hheld' hpath hlt hin
    subst htr
    obtain ⟨h₁, hy, -⟩ := h.split
    have hm := ReserveMove.of_step (run_configInv h₁) hy
    obtain ⟨a, hw, hcleared⟩ :=
      hm.unreserved (List.mem_filter.mpr ⟨he, rfl⟩)
    obtain ⟨_, _, _, -, -, hmine, -⟩ := waits_since h₁ hw
    obtain ⟨u₁, u₂, rfl, hu₁, hxstep, hu₂⟩ := h₁.of_mem hx
    have hinvx := run_configInv hu₁
    obtain ⟨hres, -⟩ := (ReserveMove.of_step hinvx hxstep).reserved
      (List.mem_filter.mpr ⟨hx', rfl⟩)
    -- the configuration it was held for is gone by then
    have hlost := run_lost ((Exec.single hxstep).trans hu₂)
      (hres.lost hinvx hheld' hpath hlt)
    have hnot := not_stillConfigured_of_lost hlost
    refine (hcleared held.path).mpr ⟨hin, ?_, ?_⟩
    · intro hc
      rcases hheld with rfl | rfl
      · rw [hnot] at hc
        cases hc.2
      · exact hmine.distinct hc.1.symm
    · intro hc
      rcases hheld with rfl | rfl
      · exact hmine.distinct hc.1
      · rw [hnot] at hc
        cases hc.2

end Runs

/-- A call waits on a pair that is configured again and reserved by a
second call at the new generations. The first call returns its pair and
leaves the second one's reservation, which is then published. -/
def overtaken : List Action :=
  Action.connect sampleDevice :: configurePair (samplePath 1) (samplePath 2)
    ++ reserveLinked 0 (samplePath 1) (samplePath 2) 1 0
    ++ configurePair (samplePath 1) (samplePath 2)
    ++ reserveLinked 1 (samplePath 1) (samplePath 2) 3 2
    ++ handOffReserved 0 7 ++ handOffReserved 1 7

/-- The pair is configured again while the first call waits. -/
theorem reservation_dies_overtaken :
    ∃ tr w, Exec step (newWorld (newBroker sampleDevice true 1)) tr w
      ∧ tr.map Trans.act = overtaken
      ∧ w.broker.acquired = {samplePath 1, samplePath 2}
      ∧ ∀ t (y : WorldTrans) t' id sink source d d' ok, tr = t ++ y :: t' →
          Event.publishPair id sink source d d' ok ∈ y.out →
          ∃ (t₁ : List WorldTrans) (x : WorldTrans) (t₂ : List WorldTrans),
            t = t₁ ++ x :: t₂
            ∧ Event.reserved id sink source ∈ x.out
            ∧ sink.path ∈ x.post.broker.pairing
            ∧ source.path ∈ x.post.broker.pairing
            ∧ ∀ z ∈ t₂, ∀ e ∈ z.out, e.disturbs sink.path = false
              ∧ e.disturbs source.path = false := by
  obtain ⟨tr, w, hrun, hact, hacq⟩ := exec_of_decide step
      (newWorld (newBroker sampleDevice true 1)) overtaken
      (fun tr w => tr.map Trans.act = overtaken
        ∧ w.broker.acquired = {samplePath 1, samplePath 2}) (by decide +kernel)
  exact ⟨tr, w, hrun, hact, hacq,
    (reservation_dies_with_reconfiguration hrun).1⟩

end Callbridge.Bluez
