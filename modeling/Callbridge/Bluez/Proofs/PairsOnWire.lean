/-
Handoff pairs are atomic on the wire. A connection in the slot has seen
complete pairs and nothing else; it leaves the slot by being closed, with
nothing or with a lone sink since the last pair; and no connection comes
back (`ConnInv`). Publications ascend because each is newer than the
counters, which are those of the last (`Ascended`).
-/
import Callbridge.Bluez.Proofs.HandoffSteps

namespace Callbridge.Bluez

open Lib

variable {s s' : Handoff} {act : HandoffAct} {out : List ServerEvent}
  {c : ClientId} {log : List ConnEvent} {call : PublishCall}
  {pubs : List (Descriptor × Descriptor)} {a : HandoffServer}

-- == connections

/-- What happens on one connection. -/
inductive ConnEvent where
  | packet (packet : Bytes)
  | closed
  deriving DecidableEq

def onConn (c : ClientId) : ServerEvent → List ConnEvent
  | .packet client packet => if client = c then [.packet packet] else []
  | .closed client => if client = c then [.closed] else []
  | .accepted _ => []
  | .published _ _ => []
  | .unpublished => []
  | .notified => []

/-- What has happened on a connection, in order. -/
def connLog (c : ClientId) (tr : List HandoffTrans) : List ConnEvent :=
  (events tr).flatMap (onConn c)

/-- A list of pairs as it goes out. -/
def pairLog (pairs : List (Descriptor × Descriptor)) : List ConnEvent :=
  pairs.flatMap fun pair => [.packet pair.1.packet, .packet pair.2.packet]

/-- What may follow the last complete pair: nothing, the close, or a lone
sink and the close. -/
inductive Ending : List ConnEvent → Prop
  | going : Ending []
  | closed : Ending [.closed]
  | cut {sink source : Descriptor} :
      Matched sink source → Ending [.packet sink.packet, .closed]

/-- Complete pairs and an ending. -/
def Framed (log : List ConnEvent) : Prop :=
  ∃ pairs tail, log = pairLog pairs ++ tail
    ∧ (∀ pair ∈ pairs, Matched pair.1 pair.2) ∧ Ending tail

/-- Complete pairs. -/
def Paired (log : List ConnEvent) : Prop :=
  ∃ pairs, log = pairLog pairs ∧ ∀ pair ∈ pairs, Matched pair.1 pair.2

theorem Paired.nil : Paired [] := ⟨[], rfl, by simp⟩

theorem Paired.ended {tail : List ConnEvent} (h : Paired log)
    (ht : Ending tail) : Framed (log ++ tail) := by
  obtain ⟨pairs, rfl, hmatched⟩ := h
  exact ⟨pairs, tail, rfl, hmatched, ht⟩

theorem Paired.snoc {sink source : Descriptor} (h : Paired log)
    (hm : Matched sink source) :
    Paired (log ++ [.packet sink.packet, .packet source.packet]) := by
  obtain ⟨pairs, rfl, hmatched⟩ := h
  refine ⟨pairs ++ [(sink, source)], by simp [pairLog], ?_⟩
  intro pair hpair
  rcases List.mem_append.mp hpair with hpair | hpair
  · exact hmatched pair hpair
  · rw [List.mem_singleton.mp hpair]
    exact hm

-- == the invariant

/-- Where a connection stands and what has happened on it. -/
structure ConnInv (c : ClientId) (log : List ConnEvent) (s : Handoff) :
    Prop where
  slot : s.server.clientFD = some c → c < s.clients ∧ Paired log
  waiting : s.loop = .admitting c →
    c < s.clients ∧ log = [] ∧ s.server.clientFD ≠ some c
  fresh : s.clients ≤ c → log = []
  framed : Framed log

theorem newHandoff_connInv (c : ClientId) : ConnInv c [] newHandoff where
  slot := by simp [newHandoff, newHandoffServer]
  waiting := by simp [newHandoff]
  fresh _ := rfl
  framed := Paired.nil.ended .going

/-- The client in the slot is gone, closed. -/
theorem ConnInv.lost {tail : List ConnEvent} (h : ConnInv c log s)
    (hslot : s.server.clientFD = some c) (ht : Ending tail)
    (server : HandoffServer) (loop : Serving)
    (hserver : server.clientFD = none) (hloop : loop ≠ .admitting c) :
    ConnInv c (log ++ tail)
      { s with server := server, loop := loop } where
  slot hc := by rw [hserver] at hc; cases hc
  waiting hc := absurd hc hloop
  fresh hc := absurd (h.slot hslot).1 (Nat.not_lt.mpr hc)
  framed := (h.slot hslot).2.ended ht

/-- Another client is gone, or none is there. -/
theorem ConnInv.other (h : ConnInv c log s) (server : HandoffServer)
    (loop : Serving)
    (hserver : server.clientFD = some c → s.server.clientFD = some c)
    (hloop : loop = .admitting c → s.loop = .admitting c) :
    ConnInv c log { s with server := server, loop := loop } where
  slot hc := h.slot (hserver hc)
  waiting hc := by
    obtain ⟨hlt, hnil, hne⟩ := h.waiting (hloop hc)
    exact ⟨hlt, hnil, fun he => hne (hserver he)⟩
  fresh := h.fresh
  framed := h.framed

/-- A call of `PublishPair` on the connection it goes to, and on any
other. -/
theorem ConnInv.published {r : Except PublishError Int}
    {server : HandoffServer} (h : ConnInv c log s)
    (hmove : PublishMove s.server call r server out) :
    ConnInv c (log ++ out.flatMap (onConn c))
      { s with server := server } := by
  -- a peer that waits for the slot is not the client the call is for
  have hwait : s.server.clientFD = some c → s.loop ≠ .admitting c :=
    fun hc hloop => (h.waiting hloop).2.2 hc
  cases hmove with
  | refused => simpa [onConn] using h
  | @unsent e client hslot _ =>
    by_cases hc : client = c
    · subst hc
      have hlost := h.lost hslot .closed { s.server with
        clientFD := none } s.loop rfl (hwait hslot)
      simpa [onConn] using hlost
    · simpa [onConn, hc] using h.other { s.server with
        clientFD := none } s.loop (by simp) id
  | @cut e client hslot _ hm =>
    by_cases hc : client = c
    · subst hc
      have hlost := h.lost hslot (.cut hm) { s.server with
        clientFD := none } s.loop rfl (hwait hslot)
      simpa [onConn] using hlost
    · simpa [onConn, hc] using h.other { s.server with
        clientFD := none } s.loop (by simp) id
  | @done fd client hslot _ hm =>
    by_cases hc : client = c
    · subst hc
      have hpaired := (h.slot hslot).2.snoc hm
      refine ⟨fun _ => ⟨(h.slot hslot).1, ?_⟩,
        fun hloop => absurd hloop (hwait hslot),
        fun hle => absurd (h.slot hslot).1 (Nat.not_lt.mpr hle), ?_⟩
      · simpa [onConn] using hpaired
      · simpa [onConn] using hpaired.ended .going
    · simpa [onConn, hc] using h.other (s.server.advance call)
        s.loop id id

/-- The invariant on every connection, one step on. -/
theorem HandoffMove.connInv (h : ConnInv c log s)
    (hmove : HandoffMove s act s' out) :
    ConnInv c (log ++ out.flatMap (onConn c)) s' := by
  cases hmove with
  | @moved _ next _ hnext =>
    have hkept := h.other s.server next id
      (fun hc => absurd hc (hnext.2 c))
    simpa [Handoff.goto] using hkept
  | @notified listener _ =>
    have hkept := h.other s.server (afterClient listener) id
      (fun hc => absurd hc ((afterClient_plain listener).2 c))
    simpa [onConn, Handoff.goto] using hkept
  | @vacated client listener hloop hslot =>
    -- only a close of the client itself is on its log
    by_cases hc : client = c
    · subst hc
      simpa [onConn, Handoff.vacate] using
        h.lost hslot .closed { s.server with clientFD := none }
          (.notifying listener) rfl (by simp)
    · simpa [onConn, hc, Handoff.vacate] using
        h.other { s.server with clientFD := none }
          (.notifying listener) (by simp) (by simp)
  | @shut client _ hslot =>
    by_cases hc : client = c
    · subst hc
      simpa [onConn, Handoff.vacate] using
        h.lost hslot .closed { s.server with clientFD := none }
          .stopped rfl (by simp)
    · simpa [onConn, hc, Handoff.vacate] using
        h.other { s.server with clientFD := none } .stopped
          (by simp) (by simp)
  | stranger _ =>
    have hslot : s.server.clientFD = some c → c < s.clients + 1 :=
      fun he => Nat.lt_succ_of_lt (h.slot he).1
    -- the stranger takes the next number and is closed at once
    by_cases hc : s.clients = c
    · subst hc
      have hnil := h.fresh (Nat.le_refl _)
      have hframed : Framed [.closed] := Paired.nil.ended .closed
      exact {
        slot := fun he => absurd (h.slot he).1 (Nat.lt_irrefl _)
        waiting := by simp
        fresh := fun hle => absurd hle (Nat.not_succ_le_self _)
        framed := by simpa [onConn, hnil] using hframed }
    · have hkept : ConnInv c log
          { s with loop := .sampling, clients := s.clients + 1 } := {
        slot := fun he => ⟨hslot he, (h.slot he).2⟩
        waiting := by simp
        fresh := fun hle => h.fresh (Nat.le_of_succ_le hle)
        framed := h.framed }
      simpa [onConn, hc] using hkept
  | arrived _ =>
    have hkept : ConnInv c log
        { s with
          loop := .admitting s.clients
          clients := s.clients + 1 } := {
      slot := fun he => ⟨Nat.lt_succ_of_lt (h.slot he).1, (h.slot he).2⟩
      -- a number not given out yet has an empty log
      waiting := by
        intro hloop
        obtain rfl : s.clients = c := Serving.admitting.inj hloop
        exact ⟨Nat.lt_succ_self _, h.fresh (Nat.le_refl _),
          fun he => Nat.lt_irrefl _ (h.slot he).1⟩
      fresh := fun hle => h.fresh (Nat.le_of_succ_le hle)
      framed := h.framed }
    simpa using hkept
  | @admitted client hloop hnone =>
    by_cases hc : client = c
    · subst hc
      obtain ⟨hlt, hnil, _⟩ := h.waiting hloop
      have hkept : ConnInv client log { s with
          server := { s.server with clientFD := some client }
          loop := .sampling } := {
        slot := fun _ => ⟨hlt, hnil ▸ Paired.nil⟩
        waiting := by simp
        fresh := h.fresh
        framed := h.framed }
      simpa [onConn] using hkept
    · simpa [onConn] using h.other { s.server with
        clientFD := some client } .sampling
        (fun he => absurd (Option.some.inj he) hc) (by simp)
  | @turnedAway client hloop hslot =>
    by_cases hc : client = c
    · subst hc
      -- refused on an empty log: a lone close is well framed
      obtain ⟨hlt, hnil, hne⟩ := h.waiting hloop
      have hframed : Framed [.closed] := Paired.nil.ended .closed
      exact {
        slot := fun he => absurd he hne
        waiting := by simp [Handoff.goto]
        fresh := fun hle => absurd hlt (Nat.not_lt.mpr hle)
        framed := by simpa [onConn, hnil] using hframed }
    · simpa [onConn, hc, Handoff.goto] using h.other s.server
        .sampling id (by simp)
  | published hpublish => exact h.published hpublish

theorem connLog_snoc (c : ClientId) (tr : List HandoffTrans)
    (x : HandoffTrans) :
    connLog c (tr ++ [x]) = connLog c tr ++ x.out.flatMap (onConn c) := by
  rw [connLog, connLog, events_snoc, List.flatMap_append]

theorem run_connInv {tr : List HandoffTrans}
    (h : Exec handoffStep newHandoff tr s) (c : ClientId) :
    ConnInv c (connLog c tr) s := by
  induction h with
  | nil => exact newHandoff_connInv c
  | snoc _ hstep ih =>
    rw [connLog_snoc]
    exact (HandoffMove.of_step hstep).connInv ih

-- == publications

def publication : ServerEvent → List (Descriptor × Descriptor)
  | .published sink source => [(sink, source)]
  | .packet _ _ => []
  | .closed _ => []
  | .accepted _ => []
  | .unpublished => []
  | .notified => []

/-- The pairs published, in order. -/
def publications (tr : List HandoffTrans) : List (Descriptor × Descriptor) :=
  (events tr).flatMap publication

/-- A later pair, in its bundle and in both generations. -/
def Newer (a b : Descriptor × Descriptor) : Prop :=
  a.1.bundleID < b.1.bundleID ∧ a.1.generation < b.1.generation
    ∧ a.2.generation < b.2.generation

/-- The counters are at or above those of a pair. -/
def HandoffServer.covers (s : HandoffServer)
    (pair : Descriptor × Descriptor) : Prop :=
  pair.1.bundleID ≤ s.lastBundle ∧ pair.1.generation ≤ s.lastGenSink
    ∧ pair.2.generation ≤ s.lastGenSource

/-- Publications that ascend, up to the counters. -/
structure Ascended (pubs : List (Descriptor × Descriptor))
    (s : HandoffServer) : Prop where
  newer : pubs.Pairwise Newer
  covered : ∀ pair ∈ pubs, s.covers pair

/-- The three counters are the same. -/
def SameCounters (s s' : HandoffServer) : Prop :=
  s'.lastGenSink = s.lastGenSink ∧ s'.lastGenSource = s.lastGenSource
    ∧ s'.lastBundle = s.lastBundle

theorem Ascended.same {b : HandoffServer} (h : Ascended pubs a)
    (hsame : SameCounters a b) :
    Ascended pubs b := by
  refine ⟨h.newer, fun pair hpair => ?_⟩
  unfold HandoffServer.covers
  rw [hsame.1, hsame.2.1, hsame.2.2]
  exact h.covered pair hpair

/-- A pair that is not stale is newer than every pair before it. -/
theorem Ascended.snoc (h : Ascended pubs a)
    (hfresh : a.stale call.sink call.source = false) :
    Ascended (pubs ++ [(call.ownedSink, call.ownedSource)])
      (a.advance call) := by
  simp only [HandoffServer.stale, Bool.or_eq_false_iff,
    decide_eq_false_iff_not, UInt64.not_le] at hfresh
  obtain ⟨⟨hsink, hsource⟩, hbundle⟩ := hfresh
  have hbelow : ∀ pair ∈ pubs,
      Newer pair (call.ownedSink, call.ownedSource) := by
    intro pair hpair
    obtain ⟨h₁, h₂, h₃⟩ := h.covered pair hpair
    exact ⟨UInt64.lt_of_le_of_lt h₁ hbundle, UInt64.lt_of_le_of_lt h₂ hsink,
      UInt64.lt_of_le_of_lt h₃ hsource⟩
  constructor
  · rw [List.pairwise_append]
    refine ⟨h.newer, List.pairwise_singleton _ _, ?_⟩
    intro pair hpair last hlast
    rw [List.mem_singleton.mp hlast]
    exact hbelow pair hpair
  · intro pair hpair
    rcases List.mem_append.mp hpair with hpair | hpair
    · obtain ⟨h₁, h₂, h₃⟩ := hbelow pair hpair
      exact ⟨UInt64.le_of_lt h₁, UInt64.le_of_lt h₂, UInt64.le_of_lt h₃⟩
    · rw [List.mem_singleton.mp hpair]
      exact ⟨UInt64.le_refl _, UInt64.le_refl _, UInt64.le_refl _⟩

/-- A call that fails leaves the counters alone. -/
theorem PublishMove.same {b : HandoffServer} {e : PublishError}
    (h : PublishMove a call (.error e) b out) :
    SameCounters a b := by
  cases h <;> exact ⟨rfl, rfl, rfl⟩

/-- Every publication is newer than the last. -/
theorem HandoffMove.ascended (h : Ascended pubs s.server)
    (hmove : HandoffMove s act s' out) :
    Ascended (pubs ++ out.flatMap publication) s'.server := by
  have hsame : ∀ {b : HandoffServer}, SameCounters s.server b →
      Ascended (pubs ++ []) b := fun hb => by
    rw [List.append_nil]
    exact h.same hb
  cases hmove with
  | published hpublish =>
    cases hpublish with
    | refused | unsent | cut => exact hsame ⟨rfl, rfl, rfl⟩
    | done _ hfresh _ => exact h.snoc hfresh
  | _ => exact hsame ⟨rfl, rfl, rfl⟩

theorem run_ascended {tr : List HandoffTrans}
    (h : Exec handoffStep newHandoff tr s) :
    Ascended (publications tr) s.server := by
  induction h with
  | nil => exact ⟨List.Pairwise.nil, by simp [publications, events]⟩
  | snoc _ hstep ih =>
    rw [publications, events_snoc, List.flatMap_append]
    exact (HandoffMove.of_step hstep).ascended ih

-- == the theorem

/-- Handoff pairs are atomic on the wire. On every connection the server
sends complete pairs, up to a lone sink behind which it closes the
connection; the pairs published over a whole run ascend in their bundles
and in their generations; and a call that fails changes no counter. -/
theorem pairs_atomic_on_wire {tr : List HandoffTrans}
    (h : Exec handoffStep newHandoff tr s) :
    (∀ c, ∃ pairs tail, connLog c tr = pairLog pairs ++ tail
        ∧ (∀ pair ∈ pairs, Matched pair.1 pair.2) ∧ Ending tail)
      ∧ (publications tr).Pairwise Newer
      ∧ ∀ x ∈ tr, ∀ call e, x.act = .publish call →
        (x.pre.server.publishPair call).1 = .error e →
        SameCounters x.pre.server x.post.server := by
  refine ⟨fun c => (run_connInv h c).framed, (run_ascended h).newer, ?_⟩
  intro x hx call e hact herr
  obtain ⟨_, _, _, _, hstep, _⟩ := h.of_mem hx
  have hmove := PublishMove.of_publishPair x.pre.server call
  rw [herr] at hmove
  rw [hact] at hstep
  obtain ⟨hpost, _⟩ := Prod.mk.inj (Option.some.inj hstep)
  rw [← hpost]
  exact hmove.same

/-- A call of `PublishPair` to run the server on. -/
def sampleDescriptor (direction : Direction) (generation bundle : UInt64) :
    Descriptor :=
  ⟨direction.code, generation, bundle, 7, true, true, true, true, 32000,
    10000, 80, 1, 10000, 40000, 80, 80, 10, 0, 2, 2, 2, 0, 0, [0x2f, 0x64]⟩

def sampleCall (generation : UInt64) (sourceSend : SendOutcome) :
    PublishCall :=
  ⟨3, sampleDescriptor .sink generation generation, 4,
    sampleDescriptor .source (generation + 1) generation, some 9, .sent,
    sourceSend⟩

/-- A peer gets one pair and then a lone sink. -/
theorem pairs_atomic_on_wire_cut :
    ∃ tr s, Exec handoffStep newHandoff tr s
      ∧ ((connLog 0 tr).length = 4 ∧ (publications tr).length = 1)
      ∧ (∃ pairs tail, connLog 0 tr = pairLog pairs ++ tail
        ∧ (∀ pair ∈ pairs, Matched pair.1 pair.2) ∧ Ending tail)
      ∧ (publications tr).Pairwise Newer := by
  obtain ⟨tr, s, hrun, htest⟩ := exec_of_decide handoffStep newHandoff
      [.loop .start, .loop .sample, .loop (.poll (.events false .readable)),
        .loop (.accept .peer), .loop .seat, .publish (sampleCall 1 .sent),
        .publish (sampleCall 3 .failed)]
      (fun tr _ => (connLog 0 tr).length = 4
        ∧ (publications tr).length = 1) (by decide +kernel)
  obtain ⟨hpairs, hnewer, _⟩ := pairs_atomic_on_wire hrun
  exact ⟨tr, s, hrun, htest, hpairs 0, hnewer⟩

end Callbridge.Bluez
