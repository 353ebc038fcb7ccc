/-
What an idle signal does to a reservation. It takes the path's `acquiring`
and `pairing` flags while the call that set them still waits, but not the
configuration, so a second call reserves the path again at the generation
the first one holds, and the first cannot tell that reservation from its
own when it publishes.

That is the only way. While no call reserves a transport on whose path and
generation another still waits (`World.Alone`), a reservation that an idle
signal has taken stays dead for its owner.
-/
import Callbridge.Bluez.Proofs.Reservation

namespace Callbridge.Bluez

open Lib

variable {w w' : World} {id : AcquireId} {a : Acquisition}
  {sink source t t' : PendingTransport} {l es : List Event} {act : Action}
  {x : WorldTrans} {p : ObjectPath}

-- == sharing

/-- The transports a call waits on. -/
def Acquire.waitsFor : Acquire → List PendingTransport
  | .reserved _ sink source => [sink, source]
  | .correlated _ sink source _ _ => [sink, source]
  | _ => []

/-- The call waits on a pair this transport belongs to. -/
def World.WaitsOn (w : World) (id : AcquireId) (t : PendingTransport) :
    Prop :=
  ∃ call, w.acquires[id]? = some call ∧ t ∈ call.waitsFor

/-- Two held transports a reservation cannot tell apart: one path, at one
generation. -/
def SameSlot (t t' : PendingTransport) : Prop :=
  t.path = t'.path ∧ t.config.generation = t'.config.generation

instance : Decidable (SameSlot t t') :=
  inferInstanceAs (Decidable (_ ∧ _))

/-- No other call waits on the path of this transport at its generation. -/
def World.Alone (w : World) (id : AcquireId) (t : PendingTransport) : Prop :=
  ∀ r ∈ w.acquires.zipIdx, ∀ t' ∈ r.1.waitsFor, SameSlot t' t → r.2 = id

instance : Decidable (w.Alone id t) :=
  inferInstanceAs (Decidable (∀ r ∈ w.acquires.zipIdx,
    ∀ t' ∈ r.1.waitsFor, SameSlot t' t → r.2 = id))

/-- The pair an event reports as reserved. -/
def Event.reservation :
    Event → Option (AcquireId × PendingTransport × PendingTransport)
  | .reserved id sink source => some (id, sink, source)
  | _ => none

/-- Where the step reserves a pair, no other call waits on either half. -/
def ReservesAlone (x : WorldTrans) : Prop :=
  ∀ r ∈ x.out.filterMap Event.reservation,
    x.pre.Alone r.1 r.2.1 ∧ x.pre.Alone r.1 r.2.2

instance : Decidable (ReservesAlone x) :=
  inferInstanceAs (Decidable (∀ r ∈ x.out.filterMap Event.reservation,
    x.pre.Alone r.1 r.2.1 ∧ x.pre.Alone r.1 r.2.2))

/-- No two calls wait on one path at one generation. -/
def Unshared (w : World) : Prop :=
  ∀ id id' t t', w.WaitsOn id t → w.WaitsOn id' t' → SameSlot t t' → id = id'

/-- To wait on a transport is to wait on a pair it is in. -/
theorem waitsOn_iff :
    w.WaitsOn id t
      ↔ ∃ a sink source, w.Waits id a sink source
          ∧ (t = sink ∨ t = source) := by
  constructor
  · intro h
    obtain ⟨call, hc, ht⟩ := h
    cases call with
    | reserved a sink source | correlated a sink source _ _ =>
      exact ⟨a, sink, source, ⟨_, hc, rfl⟩,
        by simpa [Acquire.waitsFor] using ht⟩
    | _ => cases ht
  · intro h
    obtain ⟨a, sink, source, ⟨call, hc, hp⟩, ht⟩ := h
    refine ⟨call, hc, ?_⟩
    cases call with
    | reserved _ _ _ | correlated _ _ _ _ _ =>
      cases hp; simpa [Acquire.waitsFor] using ht
    | _ => cases hp

theorem World.Alone.eq {id' : AcquireId} (h : w.Alone id t)
    (hw : w.WaitsOn id' t') (hslot : SameSlot t' t) : id' = id := by
  obtain ⟨call, hc, ht⟩ := hw
  exact h (call, id') (List.mem_zipIdx_iff_getElem?.mpr hc) t' ht hslot

theorem ReservesAlone.half (h : ReservesAlone x)
    (he : Event.reserved id sink source ∈ x.out)
    (ht : t = sink ∨ t = source) :
    x.pre.Alone id t := by
  obtain ⟨hsink, hsource⟩ :=
    h (id, sink, source) (List.mem_filterMap.mpr ⟨_, he, rfl⟩)
  rcases ht with rfl | rfl
  · exact hsink
  · exact hsource

/-- Two transports of one path that are both still configured are of one
generation. -/
theorem sameSlot_of_current (hpath : t.path = t'.path)
    (h : w.broker.stillConfigured t = true)
    (h' : w.broker.stillConfigured t' = true) : SameSlot t t' := by
  obtain ⟨c, hc, hg⟩ := stillConfigured_iff.mp h
  obtain ⟨c', hc', hg'⟩ := stillConfigured_iff.mp h'
  rw [hpath, hc'] at hc
  cases hc
  exact ⟨hpath, hg.symm.trans hg'⟩

theorem Reserves.current (hres : Reserves w w' id sink source)
    (ht : t = sink ∨ t = source) : w.broker.stillConfigured t = true := by
  rcases ht with rfl | rfl
  · exact hres.sinkCurrent
  · exact hres.sourceCurrent

/-- A call that waits on a transport waited on it before, or has reserved
it just now. -/
theorem waitsOn_before (hinv : ConfigInv x.pre)
    (hx : step x.pre x.act = some (x.post, x.out))
    (h : x.post.WaitsOn id t) :
    x.pre.WaitsOn id t ∨ ∃ sink source, Event.reserved id sink source ∈ x.out
      ∧ (t = sink ∨ t = source) := by
  obtain ⟨a, sink, source, hw, ht⟩ := waitsOn_iff.mp h
  rcases (ReserveMove.of_step hinv hx).waits_before hw with hb | ⟨he, -⟩
  · exact Or.inl (waitsOn_iff.mpr ⟨a, sink, source, hb, ht⟩)
  · exact Or.inr ⟨sink, source, List.mem_of_mem_filter he, ht⟩

/-- Reserving alone keeps the calls apart. -/
theorem unshared_step (hinv : ConfigInv x.pre) (h : Unshared x.pre)
    (hx : step x.pre x.act = some (x.post, x.out))
    (halone : ReservesAlone x) : Unshared x.post := by
  intro id id' t t' hw hw' hslot
  rcases waitsOn_before hinv hx hw with hb | ⟨sink, source, he, ht⟩
  · rcases waitsOn_before hinv hx hw' with hb' | ⟨sink', source', he', ht'⟩
    · exact h id id' t t' hb hb' hslot
    · exact (halone.half he' ht').eq hb hslot
  · rcases waitsOn_before hinv hx hw' with hb' | ⟨sink', source', he', ht'⟩
    · exact ((halone.half he ht).eq hb'
        ⟨hslot.1.symm, hslot.2.symm⟩).symm
    · -- one step reserves for one call
      obtain ⟨-, hl⟩ := (ReserveMove.of_step hinv hx).reserved
        (List.mem_filter.mpr ⟨he, rfl⟩)
      have hmem : (.reserved id' sink' source' : Event)
          ∈ x.out.filter Event.isPairing := List.mem_filter.mpr ⟨he', rfl⟩
      rw [hl] at hmem
      cases List.mem_singleton.mp hmem
      rfl

-- == dead reservations

/-- The path is not reserved at the generation of this transport. -/
def Dead (b : Broker) (t : PendingTransport) : Prop :=
  t.path ∈ b.pairing → b.stillConfigured t = false

/-- A path that comes to be reserved is reserved by a call, which waited on
nothing before. -/
theorem ReserveMove.taken (hm : ReserveMove w w' act l)
    (hp : p ∈ w'.broker.pairing) (hnot : p ∉ w.broker.pairing) :
    ∃ id sink source t, Event.reserved id sink source ∈ l
      ∧ Reserves w w' id sink source ∧ (t = sink ∨ t = source)
      ∧ t.path = p := by
  cases hm with
  | quiet hs _ | enter _ hs _ => rw [hs] at hp; exact absurd hp hnot
  | call _ hm =>
    cases hm with
    | quiet hs _ | advance _ _ hs _ _ _ | correlate _ _ _ _ hs _ =>
      rw [hs] at hp; exact absurd hp hnot
    | @reserve a held lp sink source hid hset hs hne h₁ h₂ =>
      have hres := Reserves.of_call hid hset hs hne h₁ h₂
      rw [hs] at hp
      rcases Finset.mem_insert.mp hp with rfl | hp
      · exact ⟨_, sink, source, source, List.mem_singleton.mpr rfl, hres,
          Or.inr rfl, rfl⟩
      · rcases Finset.mem_insert.mp hp with rfl | hp
        · exact ⟨_, sink, source, sink, List.mem_singleton.mpr rfl, hres,
            Or.inl rfl, rfl⟩
        · exact absurd hp hnot
    | finish _ _ hc _ => exact absurd ((hc p).mp hp).1 hnot
  | erase path hs _ _ =>
    rw [hs] at hp
    exact absurd (Finset.mem_of_mem_erase hp) hnot
  | reset hs _ =>
    rw [hs] at hp
    exact absurd hp (Finset.notMem_empty p)

/-- A transport that is still configured was so before, its generation
having been drawn. -/
theorem current_before (hstep : step w act = some (w', es))
    (hdrawn : t.config.generation ≤ w.broker.nextConfig)
    (h : w'.broker.stillConfigured t = true) :
    w.broker.stillConfigured t = true := by
  cases hs : w.broker.stillConfigured t with
  | true => rfl
  | false =>
    have hlost : Lost w.broker t.path t.config.generation := by
      refine ⟨hdrawn, ?_⟩
      intro c hc hg
      rw [stillConfigured_iff.mpr ⟨c, hc, hg⟩] at hs
      cases hs
    rw [not_stillConfigured_of_lost
      ((ConfigMove.of_step hstep).lost hlost)] at h
    cases h

/-- What is dead for a waiting call stays dead, as long as nobody else
reserves what it waits on. -/
theorem dead_step (hinv : ConfigInv x.pre)
    (hdrawn : t.config.generation ≤ x.pre.broker.nextConfig)
    (hw : x.pre.WaitsOn id t) (h : Dead x.pre.broker t)
    (hx : step x.pre x.act = some (x.post, x.out))
    (halone : ReservesAlone x) : Dead x.post.broker t := by
  intro hp
  cases hs : x.post.broker.stillConfigured t with
  | false => rfl
  | true =>
    have hcur := current_before hx hdrawn hs
    have hnot : t.path ∉ x.pre.broker.pairing := by
      intro hin
      rw [h hin] at hcur
      cases hcur
    -- so a call reserves the path in this very step
    obtain ⟨id', sink, source, t', he, hres, ht', hpath⟩ :=
      (ReserveMove.of_step hinv hx).taken hp hnot
    have hslot := sameSlot_of_current hpath.symm hcur (hres.current ht')
    have hid := (halone.half (List.mem_of_mem_filter he) ht').eq hw hslot
    obtain ⟨a, sink, source, hwaits, -⟩ := waitsOn_iff.mp hw
    rw [hid] at hwaits
    exact absurd hwaits (hres.fresh a sink source)

/-- An idle signal takes the reservation of its path. -/
theorem ReserveMove.idle (hm : ReserveMove w w' act l)
    (he : Event.idle p ∈ l) : p ∉ w'.broker.pairing := by
  cases hm with
  | quiet _ _ | enter _ _ _ => cases he
  | call _ hm =>
    cases hm with
    | quiet _ _ | advance _ _ _ _ _ _ | correlate _ _ _ _ _ _ => cases he
    | reserve _ _ _ _ _ _ => cases List.mem_singleton.mp he
    | finish _ _ _ hf =>
      cases hf with
      | returned => cases List.mem_singleton.mp he
      | published _ _ _ _ =>
        rcases List.mem_cons.mp he with he | he
        · cases he
        · cases List.mem_singleton.mp he
  | erase path hs _ hl =>
    rcases hl with rfl | rfl
    · cases he
    · cases List.mem_singleton.mp he
      rw [hs]
      exact Finset.notMem_erase _ _
  | reset _ _ => cases he

-- == live reservations

/-- A path that stays reserved through a step is not configured anew by
it. -/
theorem ConfigMove.current_after (hm : ConfigMove w w' l)
    (h : w.broker.stillConfigured t = true)
    (hp : t.path ∈ w'.broker.pairing) :
    w'.broker.stillConfigured t = true := by
  cases hm with
  | keep hs _ =>
    rw [stillConfigured_congr (b := w.broker) (by rw [hs.2.2.1])]
    exact h
  | configure path c _ _ _ hconf _ _ _ hnot =>
    have hne : t.path ≠ path := by
      intro he
      rw [he] at hp
      exact hnot hp
    rw [stillConfigured_congr (b := w.broker)
      (by rw [hconf, GoMap.lookup_insert, if_neg hne])]
    exact h
  | clear path _ hconf _ _ _ hnot =>
    have hne : t.path ≠ path := by
      intro he
      rw [he] at hp
      exact hnot hp
    rw [stillConfigured_congr (b := w.broker)
      (by rw [hconf, GoMap.lookup_erase, if_neg hne])]
    exact h
  | connect _ _ _ _ _ hnone | unregister _ _ _ _ _ hnone =>
    rw [hnone] at hp
    exact absurd hp (Finset.notMem_empty _)
  | disconnect _ hconf _ _ _ =>
    rw [stillConfigured_congr (b := w.broker) (by rw [hconf])]
    exact h

/-- A waiting call goes on waiting, unless it runs its last region. -/
theorem ReserveMove.waits_after (hm : ReserveMove w w' act l)
    (h : w.Waits id a sink source) :
    w'.Waits id a sink source
      ∨ Cleared w.broker sink source w'.broker.pairing := by
  cases hm with
  | quiet _ hs => exact Or.inl ((waits_congr hs).mpr h)
  | enter path _ hs =>
    obtain ⟨call, hc, hp⟩ := h
    refine Or.inl ⟨call, ?_, hp⟩
    rw [hs, List.getElem?_append_left (lt_of_call hc)]
    exact hc
  | erase path _ hs _ | reset _ hs => exact Or.inl ((waits_congr hs).mpr h)
  | @call i _ l _ hm =>
    by_cases hi : i = id
    case neg =>
      refine Or.inl ?_
      cases hm with
      | quiet _ hs => exact (waits_congr hs).mpr h
      | advance _ hs _ _ _ _ | correlate _ _ _ hs _ _ | reserve _ hs _ _ _ _
      | finish _ hs _ _ => exact (waits_of_other hi hs).mpr h
    case pos =>
      subst hi
      cases hm with
      | quiet _ hs => exact Or.inl ((waits_congr hs).mpr h)
      | advance hid _ _ hnone _ _ =>
        exact absurd h (not_waits_of_call hid hnone a sink source)
      | correlate _ _ hid hs _ _ =>
        obtain ⟨call, hc, hp⟩ := h
        rw [hid] at hc
        cases hc
        exact Or.inl ((waits_of_self (lt_of_call hid) hs).mpr hp)
      | reserve hid _ _ _ _ _ =>
        exact absurd h (not_waits_of_call hid rfl a sink source)
      | finish hid _ hcleared _ =>
        obtain ⟨call, hc, hp⟩ := h
        rw [hid] at hc
        cases hc
        cases hp
        exact Or.inr hcleared

/-- While the path of a live reservation stays reserved, the call that
made the reservation waits on it. -/
theorem live_step (hinv : ConfigInv x.pre)
    (hw : x.pre.WaitsOn id t)
    (hcur : x.pre.broker.stillConfigured t = true)
    (hx : step x.pre x.act = some (x.post, x.out))
    (hp : t.path ∈ x.post.broker.pairing) :
    x.post.WaitsOn id t ∧ x.post.broker.stillConfigured t = true := by
  refine ⟨?_, (ConfigMove.of_step hx).current_after hcur hp⟩
  obtain ⟨a, sink, source, hwaits, ht⟩ := waitsOn_iff.mp hw
  rcases (ReserveMove.of_step hinv hx).waits_after hwaits with h | hcleared
  · exact waitsOn_iff.mpr ⟨a, sink, source, h, ht⟩
  · obtain ⟨-, hsink, hsource⟩ := (hcleared t.path).mp hp
    rcases ht with rfl | rfl
    · exact absurd ⟨rfl, hcur⟩ hsink
    · exact absurd ⟨rfl, hcur⟩ hsource

/-- The reservations a call removes are those of transports it waits on,
still configured. -/
theorem CallMove.removed {act : AcquireAct} (hm : CallMove w w' id act l)
    (hp : p ∈ w.broker.pairing) (hnot : p ∉ w'.broker.pairing) :
    ∃ t, w.WaitsOn id t ∧ t.path = p
      ∧ w.broker.stillConfigured t = true := by
  cases hm with
  | quiet hs _ | advance _ _ hs _ _ _ | correlate _ _ _ _ hs _ =>
    rw [hs] at hnot; exact absurd hp hnot
  | reserve _ _ hs _ _ _ =>
    rw [hs] at hnot
    exact absurd (Finset.mem_insert_of_mem (Finset.mem_insert_of_mem hp))
      hnot
  | @finish a sink source token corr l hid _ hc _ =>
    have hwaits : w.Waits id a sink source := ⟨_, hid, rfl⟩
    by_cases hsink : p = sink.path ∧ w.broker.stillConfigured sink = true
    · exact ⟨sink, waitsOn_iff.mpr ⟨a, sink, source, hwaits, Or.inl rfl⟩,
        hsink.1.symm, hsink.2⟩
    · by_cases hsource : p = source.path
        ∧ w.broker.stillConfigured source = true
      · exact ⟨source,
          waitsOn_iff.mpr ⟨a, sink, source, hwaits, Or.inr rfl⟩,
          hsource.1.symm, hsource.2⟩
      · exact absurd ((hc p).mpr ⟨hp, hsink, hsource⟩) hnot

-- == runs

section Runs

variable {device : Bytes} {required : Bool} {wait : Nat}
  {tr : List WorldTrans}

/-- So does a whole run. -/
theorem run_unshared
    (h : Exec step (newWorld (newBroker device required wait)) tr w)
    (halone : ∀ x ∈ tr, ReservesAlone x) : Unshared w := by
  refine (h.inv_of (P := fun w => ConfigInv w ∧ Unshared w)
    (G := ReservesAlone) ⟨newWorld_configInv device required wait, ?_⟩ ?_
    halone).2
  · intro id id' t t' hw
    obtain ⟨call, hc, -⟩ := hw
    cases hc
  · intro x hP hG hx
    exact ⟨step_configInv hP.1 hx, unshared_step hP.1 hP.2 hx hG⟩

/-- A reservation that is dead at some moment is dead for as long as its
owner waits. -/
theorem run_dead (hdead : Dead w.broker t) (id : AcquireId)
    (h : Exec step w tr w') (hinv : ConfigInv w)
    (hdrawn : t.config.generation ≤ w.broker.nextConfig)
    (hw : ∀ z ∈ tr, z.pre.WaitsOn id t)
    (halone : ∀ z ∈ tr, ReservesAlone z) : Dead w'.broker t := by
  refine (h.inv_of (P := fun w => ConfigInv w
      ∧ t.config.generation ≤ w.broker.nextConfig ∧ Dead w.broker t)
    (G := fun z => z.pre.WaitsOn id t ∧ ReservesAlone z)
    ⟨hinv, hdrawn, hdead⟩ ?_ fun z hz => ⟨hw z hz, halone z hz⟩).2.2
  intro x hP hG hx
  obtain ⟨hinv, hdrawn, hdead⟩ := hP
  exact ⟨step_configInv hinv hx,
    Std.le_trans hdrawn (ConfigMove.of_step hx).nextConfig_le,
    dead_step hinv hdrawn hG.1 hdead hx hG.2⟩

/-- So it is from the moment its path has reported idle. -/
theorem dead_since_idle {z : WorldTrans} (hinv : ConfigInv z.pre)
    (hz : step z.pre z.act = some (z.post, z.out))
    (hidle : Event.idle t.path ∈ z.out) (id : AcquireId)
    (h : Exec step z.post tr w)
    (hdrawn : t.config.generation ≤ z.pre.broker.nextConfig)
    (hw : ∀ v ∈ tr, v.pre.WaitsOn id t)
    (halone : ∀ v ∈ tr, ReservesAlone v) : Dead w.broker t := by
  have hgone := (ReserveMove.of_step hinv hz).idle
    (List.mem_filter.mpr ⟨hidle, rfl⟩)
  exact run_dead (fun hin => absurd hin hgone) id h (step_configInv hinv hz)
    (Std.le_trans hdrawn (ConfigMove.of_step hz).nextConfig_le) hw halone

/-- A live reservation whose path stays reserved is live and waited on to
the end. -/
theorem run_live (h : Exec step w tr w') (hinv : ConfigInv w)
    (hw : w.WaitsOn id t) (hcur : w.broker.stillConfigured t = true)
    (hin : t.path ∈ w.broker.pairing)
    (hstays : ∀ z ∈ tr, t.path ∈ z.post.broker.pairing) :
    ConfigInv w' ∧ w'.WaitsOn id t
      ∧ w'.broker.stillConfigured t = true
      ∧ t.path ∈ w'.broker.pairing := by
  refine h.inv_of (P := fun w => ConfigInv w ∧ w.WaitsOn id t
      ∧ w.broker.stillConfigured t = true ∧ t.path ∈ w.broker.pairing)
    (G := fun z => t.path ∈ z.post.broker.pairing)
    ⟨hinv, hw, hcur, hin⟩ ?_ hstays
  intro z hP hG hz
  obtain ⟨hinv, hw, hcur, -⟩ := hP
  obtain ⟨hw', hcur'⟩ := live_step hinv hw hcur hz hG
  exact ⟨step_configInv hinv hz, hw', hcur', hG⟩

/-- Between a call's reservation of a pair and its publication neither
path reported idle. -/
theorem no_idle_before_publishing
    (h : Exec step (newWorld (newBroker device required wait)) tr w)
    (halone : ∀ x ∈ tr, ReservesAlone x) :
    ∀ t (y : WorldTrans) t' id sink source d d' ok,
      tr = t ++ y :: t' →
      Event.publishPair id sink source d d' ok ∈ y.out →
      ∃ (t₁ : List WorldTrans) (x : WorldTrans) (t₂ : List WorldTrans),
        t = t₁ ++ x :: t₂ ∧ Event.reserved id sink source ∈ x.out
        ∧ ∀ z ∈ t₂, Event.idle sink.path ∉ z.out
          ∧ Event.idle source.path ∉ z.out := by
  intro t y t' id sink source d d' ok htr he
  subst htr
  obtain ⟨h₁, hy, -⟩ := h.split
  obtain ⟨a, token, corr, hid, hcur, -⟩ :=
    (ReserveMove.of_step (run_configInv h₁) hy).published
      (List.mem_filter.mpr ⟨he, rfl⟩)
  obtain ⟨t₁, x, t₂, rfl, hx, hres, hall⟩ := waits_since h₁
    (⟨_, hid, rfl⟩ : y.pre.Waits id a sink source)
  refine ⟨t₁, x, t₂, rfl, hx, ?_⟩
  obtain ⟨hrun, hxstep, hrest⟩ := h₁.split
  unfold Broker.pairCurrentLocked at hcur
  simp only [Bool.and_eq_true, decide_eq_true_eq] at hcur
  obtain ⟨⟨⟨⟨-, hsink⟩, hsource⟩, hsinkCur⟩, hsourceCur⟩ := hcur
  intro z hz
  obtain ⟨u₁, u₂, rfl, hu₁, hzstep, hu₂⟩ := hrest.of_mem hz
  have hfrom := (Exec.single hxstep).trans hu₁
  -- from the idle signal on, the pair is dead for the call
  have hnot : ∀ half : PendingTransport, half = sink ∨ half = source →
      half.path ∈ y.pre.broker.pairing →
      y.pre.broker.stillConfigured half = true →
      Event.idle half.path ∉ z.out := by
    intro half hhalf hin hhalfCur hidle
    have hdrawn : half.config.generation ≤ z.pre.broker.nextConfig := by
      refine hfrom.inv
        (P := fun w => half.config.generation ≤ w.broker.nextConfig)
        ((run_configInv hrun).drawn (hres.current hhalf)) ?_
      intro s act s' es' hle hs
      exact Std.le_trans hle (ConfigMove.of_step hs).nextConfig_le
    have hdead : Dead y.pre.broker half := by
      refine dead_since_idle (run_configInv (hrun.trans hfrom)) hzstep
        hidle id hu₂ hdrawn ?_ ?_
      · intro v hv
        exact waitsOn_iff.mpr ⟨a, sink, source,
          hall v (List.mem_append_right _ (List.mem_cons_of_mem _ hv)),
          hhalf⟩
      · intro v hv
        refine halone v ?_
        simp [hv]
    rw [hdead hin] at hhalfCur
    cases hhalfCur
  exact ⟨hnot sink (Or.inl rfl) hsink hsinkCur,
    hnot source (Or.inr rfl) hsource hsourceCur⟩

/-- A path that has stayed reserved since a call reserved it stays so over
a step of another call. -/
theorem reserved_from_others
    (h : Exec step (newWorld (newBroker device required wait)) tr w)
    (halone : ∀ x ∈ tr, ReservesAlone x) :
    ∀ t₁ (x : WorldTrans) t₂ (y : WorldTrans) t₃ owner sink source p id act,
      tr = t₁ ++ x :: (t₂ ++ y :: t₃) →
      Event.reserved owner sink source ∈ x.out →
      p = sink.path ∨ p = source.path →
      (∀ z ∈ t₂, p ∈ z.post.broker.pairing) →
      y.act = .acquire id act → id ≠ owner →
      p ∈ y.post.broker.pairing := by
  intro t₁ x t₂ y t₃ owner sink source p id act htr he hp hstays hact hne
  subst htr
  obtain ⟨hrun, hxstep, hrest⟩ := h.split
  obtain ⟨hmid, hy, -⟩ := hrest.split
  have hinvx := run_configInv hrun
  have hto := hrun.trans ((Exec.single hxstep).trans hmid)
  obtain ⟨hres, -⟩ := (ReserveMove.of_step hinvx hxstep).reserved
    (List.mem_filter.mpr ⟨he, rfl⟩)
  obtain ⟨half, hhalf, rfl⟩ : ∃ half : PendingTransport,
      (half = sink ∨ half = source) ∧ half.path = p := by
    rcases hp with rfl | rfl
    · exact ⟨sink, Or.inl rfl, rfl⟩
    · exact ⟨source, Or.inr rfl, rfl⟩
  have hwx : x.post.WaitsOn owner half := by
    obtain ⟨a, hw⟩ := hres.waits
    exact waitsOn_iff.mpr ⟨a, sink, source, hw, hhalf⟩
  have hpx : half.path ∈ x.post.broker.pairing := by
    rw [hres.pairing]
    rcases hhalf with rfl | rfl
    · exact Finset.mem_insert_of_mem (Finset.mem_insert_self _ _)
    · exact Finset.mem_insert_self _ _
  -- up to the other call's step the owner waits on its reservation
  obtain ⟨hinv, hw, hcur, hin⟩ := run_live hmid
    (step_configInv hinvx hxstep) hwx ((ConfigMove.of_step
      hxstep).current_after (hres.current hhalf) hpx) hpx hstays
  by_contra hnot
  rw [hact] at hy
  obtain ⟨mine, hmine, hpath, hmineCur⟩ :=
    (CallMove.of_step hinv hy).removed hin hnot
  have hunshared := run_unshared hto fun z hz => halone z (by
    simp only [List.mem_append, List.mem_cons] at hz ⊢
    rcases hz with hz | (rfl | hz) | hz
    · exact Or.inl hz
    · exact Or.inr (Or.inl rfl)
    · cases hz
    · exact Or.inr (Or.inr (Or.inl hz)))
  exact hne (hunshared id owner mine half hmine hw
    (sameSlot_of_current hpath hmineCur hcur))

/-- Over every run in which no call reserves a transport on whose path and
generation another call still waits: a pair that is passed to `PublishPair`
was reserved by the same call, and between the two neither of its paths
reported idle; and a path that one call has reserved and that has stayed
reserved since then is still reserved after any step of another call. -/
theorem reservation_dies_with_idle
    (h : Exec step (newWorld (newBroker device required wait)) tr w)
    (halone : ∀ x ∈ tr, ReservesAlone x) :
    (∀ t (y : WorldTrans) t' id sink source d d' ok,
        tr = t ++ y :: t' →
        Event.publishPair id sink source d d' ok ∈ y.out →
        ∃ (t₁ : List WorldTrans) (x : WorldTrans) (t₂ : List WorldTrans),
          t = t₁ ++ x :: t₂ ∧ Event.reserved id sink source ∈ x.out
          ∧ ∀ z ∈ t₂, Event.idle sink.path ∉ z.out
            ∧ Event.idle source.path ∉ z.out)
      ∧ ∀ t₁ (x : WorldTrans) t₂ (y : WorldTrans) t₃ owner sink source p id
          act,
          tr = t₁ ++ x :: (t₂ ++ y :: t₃) →
          Event.reserved owner sink source ∈ x.out →
          p = sink.path ∨ p = source.path →
          (∀ z ∈ t₂, p ∈ z.post.broker.pairing) →
          y.act = .acquire id act → id ≠ owner →
          p ∈ y.post.broker.pairing :=
  ⟨no_idle_before_publishing h halone, reserved_from_others h halone⟩

end Runs

/-- A call whose pair reports idle gives the pair back; only then is the
pair acquired again, by a second call that hands it off. -/
def idleBetween : List Action :=
  Action.connect sampleDevice :: configurePair (samplePath 1) (samplePath 2)
    ++ reserveLinked 0 (samplePath 1) (samplePath 2) 1 0
    ++ [Action.signal (samplePath 1) .idle, .signal (samplePath 2) .idle]
    ++ handOffReserved 0 7
    ++ reserveLinked 1 (samplePath 1) (samplePath 2) 1 2
    ++ handOffReserved 1 7

/-- The pair comes back idle before it is acquired again. -/
theorem reservation_dies_between :
    ∃ tr w, Exec step (newWorld (newBroker sampleDevice true 1)) tr w
      ∧ tr.map Trans.act = idleBetween
      ∧ w.broker.acquired = {samplePath 1, samplePath 2}
      ∧ (∀ x ∈ tr, ReservesAlone x)
      ∧ ∀ t (y : WorldTrans) t' id sink source d d' ok,
          tr = t ++ y :: t' →
          Event.publishPair id sink source d d' ok ∈ y.out →
          ∃ (t₁ : List WorldTrans) (x : WorldTrans) (t₂ : List WorldTrans),
            t = t₁ ++ x :: t₂ ∧ Event.reserved id sink source ∈ x.out
            ∧ ∀ z ∈ t₂, Event.idle sink.path ∉ z.out
              ∧ Event.idle source.path ∉ z.out := by
  obtain ⟨tr, w, hrun, hact, hacq, halone⟩ := exec_of_decide step
      (newWorld (newBroker sampleDevice true 1)) idleBetween
      (fun tr w => tr.map Trans.act = idleBetween
        ∧ w.broker.acquired = {samplePath 1, samplePath 2}
        ∧ ∀ x ∈ tr, ReservesAlone x) (by decide +kernel)
  exact ⟨tr, w, hrun, hact, hacq, halone,
    (reservation_dies_with_idle hrun halone).1⟩

/-- The same pair, but the second call reserves it while the first one
still waits for a call token. -/
def reservedTwice : List Action :=
  Action.connect sampleDevice :: configurePair (samplePath 1) (samplePath 2)
    ++ reserveLinked 0 (samplePath 1) (samplePath 2) 1 0
    ++ [Action.signal (samplePath 1) .idle, .signal (samplePath 2) .idle]
    ++ reserveLinked 1 (samplePath 1) (samplePath 2) 1 2
    ++ handOffReserved 0 7

/-- The two halves of the pair, as a call holds them. -/
def heldSink (fd : FD) : PendingTransport :=
  sampleHeld (samplePath 1) (samplePath 1) .sink 1 [samplePath 2] fd

def heldSource (fd : FD) : PendingTransport :=
  sampleHeld (samplePath 2) (samplePath 1) .source 2 [samplePath 1] fd

/-- The call and the pair of a successful publication. -/
def Event.publication :
    Event → Option (AcquireId × PendingTransport × PendingTransport)
  | .publishPair id sink source _ _ true => some (id, sink, source)
  | _ => none

-- the test of the run below is one large conjunction
set_option synthInstance.maxSize 256

/-- The first call publishes its pair although both paths have reported
idle since it reserved them, and takes the second call's reservation
away. -/
theorem reservation_survives_idle :
    ∃ tr w, Exec step (newWorld (newBroker sampleDevice true 1)) tr w
      ∧ tr.map Trans.act = reservedTwice
      ∧ (∃ (t₁ : List WorldTrans) (x : WorldTrans) (t₂ : List WorldTrans)
          (y : WorldTrans) (t₃ : List WorldTrans)
          (sink source : PendingTransport) (d d' : Descriptor),
          tr = t₁ ++ x :: (t₂ ++ y :: t₃)
            ∧ Event.reserved 0 sink source ∈ x.out
            ∧ (∃ z ∈ t₂, Event.idle sink.path ∈ z.out)
            ∧ Event.publishPair 0 sink source d d' true ∈ y.out)
      ∧ ∃ (t₁ : List WorldTrans) (x : WorldTrans) (t₂ : List WorldTrans)
          (y : WorldTrans) (t₃ : List WorldTrans)
          (sink source : PendingTransport) (act : AcquireAct),
          tr = t₁ ++ x :: (t₂ ++ y :: t₃)
            ∧ Event.reserved 1 sink source ∈ x.out
            ∧ (∀ z ∈ t₂, sink.path ∈ z.post.broker.pairing)
            ∧ y.act = .acquire 0 act
            ∧ sink.path ∉ y.post.broker.pairing := by
  obtain ⟨tr, w, hrun, hact, ⟨hx, hidle, hy⟩, hx', hstays, hy'⟩ :=
    exec_of_decide step (newWorld (newBroker sampleDevice true 1))
      reservedTwice (fun tr _ => tr.map Trans.act = reservedTwice
        ∧ ((∃ x ∈ tr[8]?,
            Event.reserved 0 (heldSink 0) (heldSource 1) ∈ x.out)
          ∧ (∃ z ∈ (tr.drop 9).take 9, Event.idle (samplePath 1) ∈ z.out)
          ∧ ∃ y ∈ (tr.drop 9)[9]?, (0, heldSink 0, heldSource 1)
              ∈ y.out.filterMap Event.publication)
        ∧ (∃ x ∈ tr[16]?,
            Event.reserved 1 (heldSink 2) (heldSource 3) ∈ x.out)
          ∧ (∀ z ∈ (tr.drop 17).take 1,
              samplePath 1 ∈ z.post.broker.pairing)
          ∧ ∃ y ∈ (tr.drop 17)[1]?, y.act = .acquire 0 (.publish
              (some (1, 0)) (some (1, 0)) (some 9) 0)
            ∧ samplePath 1 ∉ y.post.broker.pairing) (by decide +kernel)
  refine ⟨tr, w, hrun, hact, ?_, ?_⟩
  · obtain ⟨t₁, x, t₂, y, t₃, htr, hx, hr, hy⟩ := exists_moments
      (r := fun t => ∃ z ∈ t, Event.idle (samplePath 1) ∈ Trans.out z) 8 9 hx
      hidle hy
    obtain ⟨e, he, hpub⟩ := List.mem_filterMap.mp hy
    unfold Event.publication at hpub
    split at hpub
    case h_1 d d' =>
      cases hpub
      exact ⟨t₁, x, t₂, y, t₃, _, _, d, d', htr, hx, hr, he⟩
    case h_2 => cases hpub
  · obtain ⟨t₁, x, t₂, y, t₃, htr, hx, hr, hy⟩ := exists_moments
      (r := fun t => ∀ z ∈ t, samplePath 1 ∈ (Trans.post z).broker.pairing)
      16 1 hx' hstays hy'
    exact ⟨t₁, x, t₂, y, t₃, _, _, _, htr, hx, hr, hy⟩

end Callbridge.Bluez
