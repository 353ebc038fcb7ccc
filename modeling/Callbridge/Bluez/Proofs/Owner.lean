/-
Who owns an acquired transport. A path is marked in `acquired` when its
pair is published, and only the session published with it will ever give
it back; so every marked path should belong to the active session
(`NoOrphan`).

Every region only removes marks, with a single exception: the publication
overwrites `activeSession` without looking at it. So the invariant holds
exactly in the runs whose publications find no mark of another pair
(`no_orphan_iff`).
-/
import Callbridge.Bluez.Proofs.OneOutcome

namespace Callbridge.Bluez

open Lib

variable {b b' b₁ : Broker} {w w' : World} {sid : SessionId} {s s' : Session}
  {es : List Event} {id : AcquireId} {sink source : PendingTransport}

-- == ownership

/-- The two transports of the active session. -/
def Broker.owned (b : Broker) : Finset ObjectPath :=
  match b.active with
  | none => ∅
  | some (_, s) => {s.sinkPath, s.sourcePath}

/-- Every acquired path belongs to the active session. -/
def NoOrphan (b : Broker) : Prop := b.acquired ⊆ b.owned

/-- The pair an event hands off. -/
def Event.handedOff : Event → Option (PendingTransport × PendingTransport)
  | .publishPair _ sink source _ _ true => some (sink, source)
  | _ => none

theorem handedOff_upkeep (e : Event) (h : e.isUpkeep = true) :
    e.handedOff = none := by
  cases e <;> first | rfl | cases h

theorem owned_of_active (h : b.active = some (sid, s)) :
    b.owned = {s.sinkPath, s.sourcePath} := by
  unfold Broker.owned
  rw [h]

theorem owned_congr (h : b'.active = b.active) : b'.owned = b.owned := by
  unfold Broker.owned
  rw [h]

/-- What a step does to the marks and their owner. -/
inductive OwnerMove (b b' : Broker) :
    List (PendingTransport × PendingTransport) → Prop
  | shrink : b'.acquired ⊆ b.acquired → b'.owned = b.owned →
      OwnerMove b b' []
  | retire : b'.acquired ⊆ b.acquired \ b.owned → OwnerMove b b' []
  | install (sink source : PendingTransport) :
      b'.acquired = insert source.path (insert sink.path b.acquired) →
      b'.owned = {sink.path, source.path} →
      OwnerMove b b' [(sink, source)]

/-- A region that touches neither the marks nor the sessions. -/
theorem OwnerMove.of_same (ha : b'.acquired ⊆ b.acquired)
    (hs : b'.active = b.active) : OwnerMove b b' [] :=
  OwnerMove.shrink ha (owned_congr hs)

/-- Ending the active session, after marks were removed. -/
theorem OwnerMove.of_ended (h : b.active = some (sid, s))
    (ha : b₁.acquired ⊆ b.acquired)
    (hq : b'.acquired
      = (b₁.acquired.erase s.sinkPath).erase s.sourcePath) :
    OwnerMove b b' [] := by
  apply OwnerMove.retire
  rw [hq, owned_of_active h]
  intro p hp
  obtain ⟨hsource, hp⟩ := Finset.mem_erase.mp hp
  obtain ⟨hsink, hp⟩ := Finset.mem_erase.mp hp
  refine Finset.mem_sdiff.mpr ⟨ha hp, ?_⟩
  intro hmem
  rcases Finset.mem_insert.mp hmem with he | he
  · exact hsink he
  · exact hsource (Finset.mem_singleton.mp he)

/-- Rewriting the record of the active session without its paths. -/
theorem OwnerMove.of_update
    (h : b.active = some (sid, s)) (h₁ : b₁.active = some (sid, s'))
    (hpath : s'.sinkPath = s.sinkPath ∧ s'.sourcePath = s.sourcePath)
    (ha : b₁.acquired ⊆ b.acquired) : OwnerMove b b₁ [] := by
  refine .shrink ha ?_
  rw [owned_of_active h, owned_of_active h₁, hpath.1, hpath.2]

-- == regions by signals

theorem OwnerMove.of_clear (path : ObjectPath) :
    OwnerMove b (b.clear path).1 [] := by
  have hsub : (b.forget path).acquired ⊆ b.acquired :=
    Finset.erase_subset _ _
  have h := ClearRegion.of_clear b path
  generalize (b.clear path).1 = b' at h ⊢
  cases h with
  | passed => exact .of_same hsub rfl
  | ended ha => exact .of_ended ha hsub rfl

/-- An idle signal takes the marks along if it completes. -/
theorem OwnerMove.of_idle (path : ObjectPath) :
    OwnerMove b (b.idleSignal path).1
      ((b.idleSignal path).2.filterMap Event.handedOff) := by
  have hsub : (b.dropFlags path).acquired ⊆ b.acquired :=
    Finset.erase_subset _ _
  have h := IdleRegion.of_signal b path
  generalize b.idleSignal path = r at h ⊢
  cases h with
  | passed => exact .of_same hsub rfl
  | @noted sid s s' ha hs' =>
    have hf : (b.dropFlags path).active = some (sid, s) := ha
    refine .of_update ha (active_withRecord hf) ?_ hsub
    rcases hs' with rfl | rfl <;> exact ⟨rfl, rfl⟩
  | completed ha _ _ _ => exact .of_ended ha hsub rfl

-- == regions on a session

/-- A session step that rewrites the record of an accepting session. -/
theorem OwnerMove.of_touch {f : Session → Session}
    (hs : b.sessions[sid]? = some s) (hacc : b.accepting sid s = true)
    (hpath : (f s).sinkPath = s.sinkPath ∧ (f s).sourcePath = s.sourcePath)
    (ha : b₁.activeSession = b.activeSession)
    (hb : b₁.sessions = (b.updateSession sid f).sessions)
    (hq : b₁.acquired = b.acquired) : OwnerMove b b₁ [] := by
  have hact := active_eq_some.mpr ⟨(accepting_iff.mp hacc).1, hs⟩
  have h₁ : b₁.active = some (sid, f s) := by
    rw [← active_updateSession hact f]
    unfold Broker.active
    rw [ha, hb]
    rfl
  exact .of_update hact h₁ hpath (by rw [hq])

/-- So does a release that ends its session. -/
theorem OwnerMove.of_finish {ok : Bool}
    (hs : b.sessions[sid]? = some s) :
    OwnerMove b (b.finishRelease sid s ok).1
      ((b.finishRelease sid s ok).2.filterMap Event.handedOff) := by
  have h := FinishRegion.of_finish hs ok
  generalize b.finishRelease sid s ok = r at h ⊢
  cases h with
  | detached ok _ =>
    cases ok with
    | true | false => exact .of_same (Finset.Subset.refl _) rfl
  | released ha | idled ha _ =>
    exact .of_ended ha (Finset.Subset.refl _) rfl
  | exhausted ha =>
    exact .of_update ha (active_withRecord ha) ⟨rfl, rfl⟩
      (Finset.Subset.refl _)

/-- The regions addressed to a session. -/
theorem OwnerMove.of_sessionStep {act : SessionAct}
    (hs : w.broker.sessions[sid]? = some s)
    (h : sessionStep w sid s act = some (w', es)) :
    OwnerMove w.broker w'.broker (es.filterMap Event.handedOff) := by
  cases SessionRegion.of_step h with
  | count => exact .of_same (Finset.Subset.refl _) rfl
  | touch hacc hf =>
    exact .of_touch hs hacc ⟨hf.sinkPath, hf.sourcePath⟩ rfl rfl
      rfl
  | start hacc =>
    exact .of_touch (f := Session.startRelease) hs hacc
      ⟨rfl, rfl⟩ rfl rfl rfl
  | finish ok => exact .of_finish hs

-- == regions of acquire calls

/-- A publication marks its pair and owns it. -/
theorem OwnerMove.of_published {p : Publication} {pairing : Finset ObjectPath}
    (h : Published b id p pairing b' es) :
    OwnerMove b b' (es.filterMap Event.handedOff) := by
  cases h with
  | returned lastGen | refused g g' _ _ =>
    exact .of_same (Finset.Subset.refl _) rfl
  | handedOff g g' fd _ _ =>
    refine .install p.sink p.source rfl ?_
    refine owned_of_active (s := p.session g g' fd)
      (active_eq_some.mpr ⟨(rfl : _ = some b.sessions.length), ?_⟩)
    exact List.getElem?_concat_length

/-- Only the publication touches the marks. -/
theorem OwnerMove.of_acquireStep {call : Acquire} {act : AcquireAct}
    (h : acquireStep w id call act = some (w', es)) :
    OwnerMove w.broker w'.broker (es.filterMap Event.handedOff) := by
  have hsame : OwnerMove w.broker w.broker [] :=
    OwnerMove.of_same (Finset.Subset.refl _) rfl
  cases AcquireMove.of_step h with
  | enter | readLinks | refuse | fail | reject | undecoded | wait
  | correlate => exact hsame
  | mark | unmark => exact .of_same (Finset.Subset.refl _) rfl
  | @acquire _ _ _ linkedPeer _ => cases linkedPeer <;> exact hsame
  | giveBack ho | park ho =>
    rw [filterMap_upkeep handedOff_upkeep (upkeep_holdTransport ho)]
    obtain ⟨pending, pairing, rfl, -⟩ := holdTransport_frame ho
    exact .of_same (Finset.Subset.refl _) rfl
  | @pair _ _ sink source _ _ _ es ho =>
    show OwnerMove w.broker _ (es.filterMap Event.handedOff)
    rw [filterMap_upkeep handedOff_upkeep (upkeep_holdTransport ho)]
    obtain ⟨pending, pairing, rfl, -⟩ := holdTransport_frame ho
    exact .of_same (Finset.Subset.refl _) rfl
  | publish _ _ hp _ => exact .of_published hp

-- == the step

theorem OwnerMove.of_reset (hb : b'.acquired = ∅) : OwnerMove b b' [] := by
  apply OwnerMove.retire
  rw [hb]
  exact Finset.empty_subset _

/-- Every step is one of the moves. -/
theorem OwnerMove.of_step {act : Action}
    (h : step w act = some (w', es)) :
    OwnerMove w.broker w'.broker (es.filterMap Event.handedOff) := by
  -- closing descriptors hands nothing off
  have hpending : w.broker.closePending.filterMap Event.handedOff = [] :=
    filterMap_upkeep handedOff_upkeep (upkeep_closeAll _)
  cases act with
  | connect devicePath | unregister =>
    cases h
    show OwnerMove _ _ (w.broker.closePending.filterMap Event.handedOff)
    rw [hpending]
    exact .of_reset rfl
  | disconnect =>
    cases h
    exact .of_same (Finset.Subset.refl _) rfl
  | configure valid path direction codec qos =>
    cases h
    unfold Broker.configure
    split
    case h_1 => exact .of_same (Finset.Subset.refl _) rfl
    case h_2 =>
      rw [List.filterMap_cons_none rfl, filterMap_upkeep
        handedOff_upkeep (upkeep_closeHeld _ path)]
      exact .of_same (Finset.erase_subset _ _) rfl
  | clear path =>
    cases h
    rw [clear_events, List.filterMap_cons_none rfl,
      filterMap_upkeep handedOff_upkeep (upkeep_closeHeld _ path)]
    exact .of_clear path
  | signal path state =>
    cases state with
    | pending | active =>
      cases h
      exact .of_same (Finset.Subset.refl _) rfl
    | idle => cases h; exact .of_idle path
  | acquire id act =>
    obtain ⟨call, -, h⟩ := step_acquire h
    exact .of_acquireStep h
  | expire path generation =>
    obtain ⟨pending, timers, rfl, -, hup⟩ := step_expire_frame h
    rw [filterMap_upkeep handedOff_upkeep hup]
    exact .of_same (Finset.Subset.refl _) rfl
  | session sid act =>
    obtain ⟨s, hs, h⟩ := step_session h
    exact .of_sessionStep hs h
  | statistic k =>
    cases h
    exact .of_same (Finset.Subset.refl _) rfl

-- == runs

/-- The publication finds no mark outside the pair it publishes: there is
no active session, or its transports that are still marked are those of
the pair. -/
def FindsNoOther (b : Broker) (sink source : PendingTransport) : Prop :=
  ∀ p ∈ b.owned, p ∈ b.acquired → p = sink.path ∨ p = source.path

/-- A move keeps the invariant unless it finds another pair. -/
theorem OwnerMove.noOrphan {l : List (PendingTransport × PendingTransport)}
    (hm : OwnerMove b b' l) (h : NoOrphan b)
    (hl : ∀ sink source, (sink, source) ∈ l →
      FindsNoOther b sink source) : NoOrphan b' := by
  intro p hp
  cases hm with
  | shrink hq ho =>
    rw [ho]
    exact h (hq hp)
  | retire hq =>
    obtain ⟨hin, hout⟩ := Finset.mem_sdiff.mp (hq hp)
    exact absurd (h hin) hout
  | install sink source hq ho =>
    rw [ho]
    rw [hq] at hp
    rcases Finset.mem_insert.mp hp with rfl | hp
    · simp
    · rcases Finset.mem_insert.mp hp with rfl | hp
      · simp
      · have := hl sink source (List.mem_singleton.mpr rfl) p (h hp) hp
        simpa using this

/-- A mark the publication did not look at is an orphan right after. -/
theorem OwnerMove.findsNoOther {l : List (PendingTransport × PendingTransport)}
    (hm : OwnerMove b b' l) (hl : (sink, source) ∈ l) (h : NoOrphan b') :
    FindsNoOther b sink source := by
  cases hm with
  | shrink _ _ | retire _ => cases hl
  | install sink' source' hq ho =>
    obtain ⟨rfl, rfl⟩ := Prod.mk.inj (List.mem_singleton.mp hl)
    intro p _ hp
    have hmem : p ∈ b'.acquired := by
      rw [hq]
      exact Finset.mem_insert_of_mem (Finset.mem_insert_of_mem hp)
    have := h hmem
    rw [ho] at this
    simpa using this

theorem newWorld_noOrphan (device : Bytes) (required : Bool) (wait : Nat) :
    NoOrphan (newWorld (newBroker device required wait)).broker :=
  Finset.empty_subset _

theorem mem_handedOff {d d' : Descriptor}
    (h : Event.publishPair id sink source d d' true ∈ es) :
    (sink, source) ∈ es.filterMap Event.handedOff :=
  List.mem_filterMap.mpr ⟨_, h, rfl⟩

theorem of_mem_handedOff (h : (sink, source) ∈ es.filterMap Event.handedOff) :
    ∃ id d d', Event.publishPair id sink source d d' true ∈ es := by
  obtain ⟨e, he, hs⟩ := List.mem_filterMap.mp h
  cases e with
  | publishPair id sink' source' d d' ok =>
    cases ok with
    | true => cases hs; exact ⟨id, d, d', he⟩
    | false => cases hs
  | _ => cases hs

/-- Over every run: no acquired path is ever without its session if and
only if every successful publication finds the transports of the active
session, as far as they are still marked, inside the pair it publishes. -/
theorem no_orphan_iff {device : Bytes} {required : Bool} {wait : Nat}
    {tr : List WorldTrans}
    (h : Exec step (newWorld (newBroker device required wait)) tr w) :
    (∀ x ∈ tr, NoOrphan x.post.broker)
      ↔ ∀ x ∈ tr, ∀ id sink source d d',
          Event.publishPair id sink source d d' true ∈ x.out →
          FindsNoOther x.pre.broker sink source := by
  constructor
  · intro hno x hx id sink source d d' hpub
    obtain ⟨t₁, t₂, -, -, hstep, -⟩ := h.of_mem hx
    exact (OwnerMove.of_step hstep).findsNoOther (mem_handedOff hpub)
      (hno x hx)
  · intro hpub
    -- the prefix before `x` meets the condition, so its end has no orphan
    have hend : ∀ {t w₁}, Exec step
        (newWorld (newBroker device required wait)) t w₁ →
        (∀ x ∈ t, x ∈ tr) → NoOrphan w₁.broker := by
      intro t w₁ ht hsub
      induction ht with
      | nil => exact newWorld_noOrphan device required wait
      | snoc hrun hstep ih =>
        refine (OwnerMove.of_step hstep).noOrphan
          (ih fun x hx => hsub x (List.mem_append_left _ hx)) ?_
        intro sink source hmem
        obtain ⟨id, d, d', he⟩ := of_mem_handedOff hmem
        exact hpub _ (hsub _ (List.mem_append_right _
          (List.mem_singleton.mpr rfl))) id sink source d d' he
    intro x hx
    obtain ⟨t₁, t₂, rfl, h₁, hstep, -⟩ := h.of_mem hx
    refine hend (Exec.snoc h₁ hstep) ?_
    intro y hy
    rcases List.mem_append.mp hy with hy | hy
    · exact List.mem_append_left _ hy
    · obtain rfl := List.mem_singleton.mp hy
      exact hx

instance : DecidablePred NoOrphan := fun b =>
  inferInstanceAs (Decidable (b.acquired ⊆ b.owned))

/-- One pair handed off and released meets the condition throughout. -/
theorem no_orphan_one_pair :
    ∃ tr w, Exec step (newWorld (newBroker sampleDevice true 1)) tr w
      ∧ (∀ x ∈ tr, NoOrphan x.post.broker)
      ∧ ∀ x ∈ tr, ∀ id sink source d d',
          Event.publishPair id sink source d d' true ∈ x.out →
          FindsNoOther x.pre.broker sink source := by
  obtain ⟨tr, w, hrun, hall⟩ := exec_of_decide step
      (newWorld (newBroker sampleDevice true 1)) releaseRace
      (fun tr _ => ∀ x ∈ tr, NoOrphan x.post.broker) (by decide +kernel)
  exact ⟨tr, w, hrun, hall, (no_orphan_iff hrun).mp hall⟩

/-- Two pairs handed off one after the other on one connection. -/
def twoPairs : List Action :=
  .connect sampleDevice :: configurePair (samplePath 1) (samplePath 2)
    ++ configurePair (samplePath 3) (samplePath 4)
    ++ reserveLinked 0 (samplePath 1) (samplePath 2) 1 0
    ++ handOffReserved 0 7
    ++ reserveLinked 1 (samplePath 3) (samplePath 4) 3 2
    ++ handOffReserved 1 7

/-- The second pair takes the place of the first session, whose transports
stay acquired and belong to nobody. -/
theorem no_orphan_two_pairs :
    ∃ tr w, Exec step (newWorld (newBroker sampleDevice true 1)) tr w
      ∧ tr.map Trans.act = twoPairs
      ∧ samplePath 1 ∈ w.broker.acquired ∧ samplePath 2 ∈ w.broker.acquired
      ∧ w.broker.owned = {samplePath 3, samplePath 4}
      ∧ ¬ NoOrphan w.broker := by
  exact exec_of_decide step
      (newWorld (newBroker sampleDevice true 1)) twoPairs
      (fun tr w => tr.map Trans.act = twoPairs
        ∧ samplePath 1 ∈ w.broker.acquired
        ∧ samplePath 2 ∈ w.broker.acquired
        ∧ w.broker.owned = {samplePath 3, samplePath 4}
        ∧ ¬ NoOrphan w.broker) (by decide +kernel)

end Callbridge.Bluez
