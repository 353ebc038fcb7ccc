/-
The life of a media session: not installed yet, active in one of three
ways, or past, with its release still running or not. Every run of the
broker, watched at one session, is a path of the small relation `LifeStep`
(`life_of_run`), and what the session can have reported by then is read
off the place it has reached (`Life.Bound`): a release is started only
from `accepting`, and no path leads back there.
-/
import Callbridge.Bluez.Proofs.SessionSteps

namespace Callbridge.Bluez

open Lib

variable {w w' : World} {sid : SessionId} {s : Session} {a : Life}
  {l : List Report} {s' : Session} {act : Action} {es : List Event}

-- == the abstract session

inductive Life where
  | absent
  | accepting
  | releasing
  | exhausted
  | detached
  | over
  deriving DecidableEq

inductive LifeStep : Life → List Report → Life → Prop
  | stay (l : Life) : LifeStep l [] l
  | install : LifeStep .absent [] .accepting
  | start : LifeStep .accepting [.started] .releasing
  | dropped : LifeStep .accepting [] .over
  | idled : LifeStep .accepting [.idle] .over
  | detach : LifeStep .releasing [] .detached
  | released : LifeStep .releasing [.released] .over
  | exhaust : LifeStep .releasing [.failed] .exhausted
  | failedIdle : LifeStep .releasing [.failed, .idle] .over
  | droppedExhausted : LifeStep .exhausted [] .over
  | idledExhausted : LifeStep .exhausted [.idle] .over
  | finished {r : Report} : r = .released ∨ r = .failed →
      LifeStep .detached [r] .over

/-- What a session that has come this far has reported. -/
def Life.Bound (l : List Report) : Life → Prop
  | .absent | .accepting =>
      l.count .started = 0 ∧ l.count .released + l.count .idle = 0
  | .releasing | .exhausted | .detached =>
      l.count .started = 1 ∧ l.count .released + l.count .idle = 0
  | .over => l.count .started ≤ 1 ∧ l.count .released + l.count .idle ≤ 1

/-- Every step reports what the place it leads to allows. -/
theorem LifeStep.bound {a' : Life} {l' : List Report} (h : LifeStep a l' a')
    (hb : a.Bound l) : a'.Bound (l ++ l') := by
  cases h with
  | stay => simpa using hb
  | finished hr =>
    rcases hr with rfl | rfl <;>
      simp_all [Life.Bound, List.count_append]
  | _ => simp_all [Life.Bound, List.count_append]

/-- The bound at the end of every path from before the installation. -/
theorem life_bound (h : Path LifeStep .absent l a) : a.Bound l := by
  induction h with
  | nil => exact ⟨rfl, rfl⟩
  | snoc _ hstep ih => exact hstep.bound ih

theorem Life.Bound.le (h : a.Bound l) :
    l.count .started ≤ 1 ∧ l.count .released + l.count .idle ≤ 1 := by
  cases a <;> simp_all [Life.Bound]

/-- A session that is past. -/
def Life.past : Life → Bool
  | .detached | .over => true
  | _ => false

/-- Nothing leads back from the past. -/
theorem LifeStep.past {a' : Life} (h : LifeStep a l a') (hp : a.past = true) :
    a'.past = true := by
  cases h <;> first | rfl | exact hp

/-- An installed session stays installed. -/
theorem LifeStep.of_absent (h : LifeStep a l .absent) : a = .absent := by
  cases h
  rfl

-- == invariant

/-- The release of a session does not both run and count as given up. -/
def Session.Exclusive (s : Session) : Prop :=
  ¬ (s.releasing = true ∧ s.releaseExhausted = true)

/-- A release runs exactly for the sessions that say so, while they are
active, and never twice at a time. -/
structure SessionInv (w : World) : Prop where
  installed : ActiveInstalled w.broker
  nodup : w.releases.Nodup
  inRange : ∀ sid ∈ w.releases, sid < w.broker.sessions.length
  running : ∀ sid s, w.broker.active = some (sid, s) →
    (sid ∈ w.releases ↔ s.releasing = true)
  exclusive : ∀ s ∈ w.broker.sessions, s.Exclusive

theorem newWorld_sessionInv (device : Bytes) (required : Bool)
    (wait : Nat) :
    SessionInv (newWorld (newBroker device required wait)) := by
  refine ⟨?_, List.nodup_nil, ?_, ?_, ?_⟩
  · intro sid h
    cases h
  · intro sid h
    cases h
  · intro sid s h
    cases h
  · intro s h
    cases h

/-- The active session is read off the sessions alone. -/
theorem SameSessions.active {b b' : Broker} (h : SameSessions b b') :
    b'.active = b.active := by
  unfold Broker.active
  rw [h.1, h.2.1]

theorem exclusive_set {l : List Session} (h : ∀ r ∈ l, r.Exclusive)
    (hs' : s'.Exclusive) :
    ∀ r ∈ l.set sid s', r.Exclusive := by
  intro r hr
  rcases List.mem_or_eq_of_mem_set hr with hm | rfl
  · exact h r hm
  · exact hs'

theorem SameFlags.exclusive (h : SameFlags s s') (hs : s.Exclusive) :
    s'.Exclusive := by
  unfold Session.Exclusive
  rw [h.1, h.2]
  exact hs

theorem SessionInv.active_mem (h : SessionInv w)
    (ha : w.broker.active = some (sid, s)) : s.Exclusive :=
  h.exclusive s (List.mem_of_getElem? (active_eq_some.mp ha).2)

/-- A session whose release runs says so. -/
theorem SessionInv.not_releasing (h : SessionInv w)
    (ha : w.broker.active = some (sid, s)) (hrel : s.releasing = false) :
    sid ∉ w.releases := by
  intro hin
  rw [(h.running sid s ha).mp hin] at hrel
  cases hrel

/-- The record of the active session after it was replaced. -/
theorem getElem?_of_set (hw : w.broker.active = some (sid, s))
    (hs : w'.broker.sessions = w.broker.sessions.set sid s') :
    w'.broker.sessions[sid]? = some s' := by
  rw [hs, List.getElem?_set_self (length_of_active hw)]

/-- After a step that replaced the record of the active session and kept
it active, the active session is that one with the new record. -/
theorem active_of_set (hw : w.broker.active = some (sid, s))
    (ha : w'.broker.activeSession = some sid)
    (hs : w'.broker.sessions = w.broker.sessions.set sid s') :
    w'.broker.active = some (sid, s') :=
  active_eq_some.mpr ⟨ha, getElem?_of_set hw hs⟩

/-- The invariant after a step that left the sessions alone and started no
release, and ended none of the active session. -/
theorem SessionInv.of_same (h : SessionInv w)
    (hs : SameSessions w.broker w'.broker)
    (hsub : w'.releases.Sublist w.releases)
    (hkept : ∀ sid ∈ w.releases, w.broker.activeSession = some sid →
      sid ∈ w'.releases) : SessionInv w' := by
  refine ⟨?_, hsub.nodup h.nodup, ?_, ?_, ?_⟩
  · intro sid ha
    rw [hs.1] at ha
    rw [hs.2.1]
    exact h.installed sid ha
  · intro sid hin
    rw [hs.2.1]
    exact h.inRange sid (hsub.subset hin)
  · intro sid s hact
    rw [hs.active] at hact
    rw [← h.running sid s hact]
    exact ⟨fun hin => hsub.subset hin,
      fun hin => hkept sid hin (active_eq_some.mp hact).1⟩
  · rw [hs.2.1]
    exact h.exclusive

/-- The invariant after a step that retired the active session, and may
have ended a release. -/
theorem SessionInv.of_retired (h : SessionInv w)
    (hw : w.broker.active = some (sid, s)) (hf : SameFlags s s')
    (ha : w'.broker.activeSession = none)
    (hs : w'.broker.sessions = w.broker.sessions.set sid s')
    (hsub : w'.releases.Sublist w.releases) : SessionInv w' := by
  refine ⟨?_, hsub.nodup h.nodup, ?_, ?_, ?_⟩
  · intro i hi
    rw [ha] at hi
    cases hi
  · intro i hi
    rw [hs, List.length_set]
    exact h.inRange i (hsub.subset hi)
  · intro i r hi
    rw [(active_eq_some.mp hi).1] at ha
    cases ha
  · rw [hs]
    exact exclusive_set h.exclusive (hf.exclusive (h.active_mem hw))

/-- The invariant after a step that kept the active session and replaced
its record. -/
theorem SessionInv.of_set (h : SessionInv w)
    (hw : w.broker.active = some (sid, s))
    (ha : w'.broker.activeSession = some sid)
    (hs : w'.broker.sessions = w.broker.sessions.set sid s')
    (hex : s'.Exclusive) (hnodup : w'.releases.Nodup)
    (hrange : ∀ i ∈ w'.releases, i = sid ∨ i ∈ w.releases)
    (hrun : sid ∈ w'.releases ↔ s'.releasing = true) : SessionInv w' := by
  have hlen : w'.broker.sessions.length = w.broker.sessions.length := by
    rw [hs, List.length_set]
  have hlt := length_of_active hw
  refine ⟨?_, hnodup, ?_, ?_, ?_⟩
  · intro i hi
    rw [ha] at hi
    cases hi
    rw [hlen]
    exact hlt
  · intro i hi
    rw [hlen]
    rcases hrange i hi with rfl | hi
    · exact hlt
    · exact h.inRange i hi
  · intro i r hi
    rw [active_of_set hw ha hs] at hi
    cases hi
    exact hrun
  · rw [hs]
    exact exclusive_set h.exclusive hex

/-- The invariant after a step that installed a session. -/
theorem SessionInv.of_install (h : SessionInv w)
    (hrel : s.releasing = false)
    (ha : w'.broker.activeSession = some w.broker.sessions.length)
    (hs : w'.broker.sessions = w.broker.sessions ++ [s])
    (hr : w'.releases = w.releases) : SessionInv w' := by
  have hlen : w'.broker.sessions.length
      = w.broker.sessions.length + 1 := by
    rw [hs, List.length_append]
    rfl
  refine ⟨?_, by rw [hr]; exact h.nodup, ?_, ?_, ?_⟩
  · intro sid hsid
    rw [ha] at hsid
    cases hsid
    rw [hlen]
    exact Nat.lt_succ_self _
  · intro sid hsid
    rw [hr] at hsid
    rw [hlen]
    exact Nat.lt_succ_of_lt (h.inRange sid hsid)
  · intro sid r hact
    obtain ⟨hsid, hget⟩ := active_eq_some.mp hact
    rw [ha] at hsid
    cases hsid
    rw [hs, List.getElem?_concat_length] at hget
    cases hget
    rw [hr, hrel]
    refine iff_of_false ?_ (by simp)
    intro hin
    exact Nat.lt_irrefl _ (h.inRange _ hin)
  · intro r hmem
    rw [hs] at hmem
    rcases List.mem_append.mp hmem with hmem | hmem
    · exact h.exclusive r hmem
    · obtain rfl := List.mem_singleton.mp hmem
      intro hc
      rw [hrel] at hc
      cases hc.1

/-- Every move keeps the invariant. -/
theorem SessionMove.inv {r : List (SessionId × Report)}
    (hm : SessionMove w w' r) (h : SessionInv w) : SessionInv w' := by
  cases hm with
  | quiet hs hr =>
    refine h.of_same hs (by rw [hr]) ?_
    intro sid hin _
    rw [hr]
    exact hin
  | touch hw hf ha hs hr _ =>
    refine h.of_set hw ha hs (hf.exclusive (h.active_mem hw))
      (by rw [hr]; exact h.nodup) (fun i hi => Or.inr (hr ▸ hi)) ?_
    rw [hr, hf.1]
    exact h.running _ _ hw
  -- the one move that adds to the releases under way
  | @start sid s hw hrel hexh ha hs hr _ =>
    refine h.of_set hw ha hs ?_ ?_ ?_ ?_
    · intro hc
      rw [show s.startRelease.releaseExhausted = s.releaseExhausted
        from rfl, hexh] at hc
      cases hc.2
    · rw [hr]
      exact List.nodup_cons.mpr ⟨h.not_releasing hw hrel, h.nodup⟩
    · intro i hi
      rw [hr] at hi
      exact List.mem_cons.mp hi
    · rw [hr]
      exact iff_of_true List.mem_cons_self rfl
  | retire hw hf ha hs hr _ => exact h.of_retired hw hf ha hs (by rw [hr])
  | idle hw hf _ ha hs hr _ => exact h.of_retired hw hf ha hs (by rw [hr])
  | install hrel _ ha hs hr _ => exact h.of_install hrel ha hs hr
  | released _ hw hf ha hs hr _ =>
    refine h.of_retired hw hf ha hs ?_
    rw [hr]
    exact List.erase_sublist
  | @exhausted sid s hin hw ha hs hr _ =>
    refine h.of_set hw ha hs ?_ ?_ ?_ ?_
    · intro hc
      cases hc.1
    · rw [hr]
      exact h.nodup.erase sid
    · intro i hi
      rw [hr] at hi
      exact Or.inr (List.mem_of_mem_erase hi)
    · rw [hr]
      exact iff_of_false h.nodup.not_mem_erase Bool.false_ne_true
  | failedIdle _ hw hf ha hs hr _ =>
    refine h.of_retired hw hf ha hs ?_
    rw [hr]
    exact List.erase_sublist
  | @detached sid r hin hne hrep hs hr =>
    refine h.of_same hs (by rw [hr]; exact List.erase_sublist) ?_
    intro i hi hact
    -- the release that ended was not the active session's
    have hine : i ≠ sid := by
      intro he
      subst he
      exact hne hact
    rw [hr, List.mem_erase_of_ne hine]
    exact hi

theorem step_sessionInv (h : SessionInv w)
    (hstep : step w act = some (w', es)) :
    SessionInv w' :=
  (SessionMove.of_step h.installed hstep).inv h

-- == the view

/-- How an active session with this record lives. -/
def Session.life (s : Session) : Life :=
  if s.releasing then .releasing
  else if s.releaseExhausted then .exhausted
  else .accepting

/-- An active session lives in one of three ways. -/
theorem Session.life_cases (s : Session) :
    s.life = .releasing ∨ s.life = .exhausted ∨ s.life = .accepting := by
  unfold Session.life
  split
  case isTrue => exact Or.inl rfl
  case isFalse => split <;> simp

/-- The life of a session, as the broker's state shows it. -/
def lifeOf (w : World) (sid : SessionId) : Life :=
  match w.broker.sessions[sid]? with
  | none => .absent
  | some s =>
      if w.broker.activeSession = some sid then s.life
      else if sid ∈ w.releases then .detached
      else .over

/-- What an event says about this session. -/
def reportOn (sid : SessionId) (e : Event) : Option Report :=
  e.report.bind fun r => if r.1 = sid then some r.2 else none

theorem filterMap_reportOn (sid : SessionId) (es : List Event) :
    es.filterMap (reportOn sid)
      = (es.filterMap Event.report).filterMap
          fun r => if r.1 = sid then some r.2 else none :=
  (List.filterMap_filterMap ..).symm

theorem lifeOf_active (h : w.broker.active = some (sid, s)) :
    lifeOf w sid = s.life := by
  obtain ⟨ha, hs⟩ := active_eq_some.mp h
  unfold lifeOf
  rw [hs]
  exact if_pos ha

theorem lifeOf_past (hs : w.broker.sessions[sid]? = some s)
    (ha : w.broker.activeSession ≠ some sid) :
    lifeOf w sid = if sid ∈ w.releases then .detached else .over := by
  unfold lifeOf
  rw [hs]
  exact if_neg ha

/-- A life is the record, being active and the release. -/
theorem lifeOf_congr
    (hs : w'.broker.sessions[sid]? = w.broker.sessions[sid]?)
    (ha : w'.broker.activeSession = some sid
      ↔ w.broker.activeSession = some sid)
    (hr : sid ∈ w'.releases ↔ sid ∈ w.releases) :
    lifeOf w' sid = lifeOf w sid := by
  unfold lifeOf
  rw [hs]
  simp only [ha, hr]

/-- The two flags of the release are all of the record that counts. -/
theorem SameFlags.life (h : SameFlags s s') :
    s'.life = s.life := by
  unfold Session.life
  rw [h.1, h.2]

theorem life_of_releasing (h : s.releasing = true) :
    s.life = .releasing := if_pos h

theorem life_of_not_releasing (h : s.releasing = false) :
    s.life = if s.releaseExhausted then .exhausted else .accepting := by
  unfold Session.life
  rw [h]
  rfl

/-- A session that stops being active without a word about its release. -/
theorem LifeStep.of_drop (h : SessionInv w)
    (hw : w.broker.active = some (sid, s))
    (hs : w'.broker.sessions[sid]? = some s')
    (ha : w'.broker.activeSession ≠ some sid) (hr : w'.releases = w.releases) :
    LifeStep (lifeOf w sid) [] (lifeOf w' sid) := by
  rw [lifeOf_active hw, lifeOf_past hs ha, hr]
  cases hrel : s.releasing with
  | true =>
    rw [life_of_releasing hrel, if_pos ((h.running sid s hw).mpr hrel)]
    exact .detach
  | false =>
    rw [life_of_not_releasing hrel, if_neg (h.not_releasing hw hrel)]
    split
    case isTrue => exact .droppedExhausted
    case isFalse => exact .dropped

/-- A session completed by idleness had no release running. -/
theorem LifeStep.of_idle (h : SessionInv w)
    (hw : w.broker.active = some (sid, s)) (hrel : s.releasing = false)
    (hs : w'.broker.sessions[sid]? = some s')
    (ha : w'.broker.activeSession ≠ some sid) (hr : w'.releases = w.releases) :
    LifeStep (lifeOf w sid) [.idle] (lifeOf w' sid) := by
  rw [lifeOf_active hw, lifeOf_past hs ha, hr,
    if_neg (h.not_releasing hw hrel), life_of_not_releasing hrel]
  split
  case isTrue => exact .idledExhausted
  case isFalse => exact .idled

/-- A release that ends while its session is active ends the session's
`releasing`. -/
theorem life_of_finish (h : SessionInv w) (hin : sid ∈ w.releases)
    (hw : w.broker.active = some (sid, s)) :
    lifeOf w sid = .releasing := by
  rw [lifeOf_active hw]
  exact life_of_releasing ((h.running sid s hw).mp hin)

/-- A past session whose release has ended is over. -/
theorem lifeOf_over (h : SessionInv w)
    (hs : w'.broker.sessions[sid]? = some s')
    (ha : w'.broker.activeSession ≠ some sid)
    (hr : w'.releases = w.releases.erase sid) :
    lifeOf w' sid = .over := by
  rw [lifeOf_past hs ha, hr]
  exact if_neg h.nodup.not_mem_erase

/-- A move on the active session is invisible at every other one. -/
theorem lifeOf_other {i : SessionId} (hne : sid ≠ i)
    (hw : w.broker.active = some (sid, s))
    (ha : w'.broker.activeSession = some sid ∨ w'.broker.activeSession = none)
    (hs : w'.broker.sessions = w.broker.sessions.set sid s')
    (hr : i ∈ w'.releases ↔ i ∈ w.releases) :
    lifeOf w' i = lifeOf w i := by
  refine lifeOf_congr ?_ ?_ hr
  · rw [hs, List.getElem?_set_ne hne]
  · rw [(active_eq_some.mp hw).1]
    rcases ha with ha | ha
    · rw [ha]
    · rw [ha]
      refine iff_of_false (by simp) ?_
      intro he
      injection he with he
      exact hne he

/-- An installation starts one life and drops the session that was active,
if there was one. -/
theorem LifeStep.of_install (h : SessionInv w) (hrel : s.releasing = false)
    (hexh : s.releaseExhausted = false)
    (ha : w'.broker.activeSession = some w.broker.sessions.length)
    (hs : w'.broker.sessions = w.broker.sessions ++ [s])
    (hr : w'.releases = w.releases) (i : SessionId) :
    LifeStep (lifeOf w i) [] (lifeOf w' i) := by
  by_cases hi : i = w.broker.sessions.length
  · subst hi
    have hnew : w'.broker.sessions[w.broker.sessions.length]? = some s := by
      rw [hs]
      exact List.getElem?_concat_length
    have hold : lifeOf w w.broker.sessions.length = .absent := by
      unfold lifeOf
      rw [List.getElem?_eq_none (Nat.le_refl _)]
    rw [hold, lifeOf_active (active_eq_some.mpr ⟨ha, hnew⟩),
      life_of_not_releasing hrel, hexh]
    exact .install
  · have hsame : w'.broker.sessions[i]? = w.broker.sessions[i]? := by
      rw [hs]
      by_cases hlt : i < w.broker.sessions.length
      · exact List.getElem?_append_left hlt
      · rw [List.getElem?_eq_none (Nat.le_of_not_lt hlt),
          List.getElem?_eq_none]
        rw [List.length_append]
        exact Nat.lt_of_le_of_ne (Nat.le_of_not_lt hlt) (Ne.symm hi)
    have hna : w'.broker.activeSession ≠ some i := by
      rw [ha]
      intro he
      injection he with he
      exact hi he.symm
    by_cases hact : w.broker.activeSession = some i
    · obtain ⟨r, hw⟩ := h.installed.record hact
      exact .of_drop h hw
        (hsame.trans (active_eq_some.mp hw).2) hna hr
    · rw [lifeOf_congr hsame (iff_of_false hna hact) (by rw [hr])]
      exact .stay _

-- == the simulation

/-- What a list of reports says about one session. -/
def pick (i : SessionId) (r : List (SessionId × Report)) : List Report :=
  r.filterMap fun r => if r.1 = i then some r.2 else none

theorem pick_self (i : SessionId) (r : Report) : pick i [(i, r)] = [r] := by
  simp [pick]

theorem pick_other {i : SessionId} (hne : sid ≠ i) (r : Report) :
    pick i [(sid, r)] = [] := by
  simp [pick, hne]

/-- Seen at one session, every move is a step of its life. -/
theorem SessionMove.life {r : List (SessionId × Report)}
    (hm : SessionMove w w' r) (h : SessionInv w) (i : SessionId) :
    LifeStep (lifeOf w i) (pick i r) (lifeOf w' i) := by
  cases hm with
  -- at the session the move is about, it is the step of its name; at any other
  -- nothing is seen
  | quiet hs hr =>
    rw [lifeOf_congr (by rw [hs.2.1]) (by rw [hs.1]) (by rw [hr])]
    exact .stay _
  | @touch sid s s' hw hf ha hs hr _ =>
    by_cases hi : sid = i
    · subst hi
      rw [lifeOf_active hw, lifeOf_active (active_of_set hw ha hs),
        hf.life]
      exact .stay _
    · rw [lifeOf_other hi hw (Or.inl ha) hs (by rw [hr])]
      exact .stay _
  | @start sid s hw hrel hexh ha hs hr _ =>
    by_cases hi : sid = i
    · subst hi
      rw [pick_self, lifeOf_active hw, life_of_not_releasing hrel, hexh,
        lifeOf_active (active_of_set hw ha hs), life_of_releasing rfl]
      exact .start
    · rw [pick_other hi, lifeOf_other hi hw (Or.inl ha) hs
        (by rw [hr, List.mem_cons]; simp [Ne.symm hi])]
      exact .stay _
  | @retire sid s s' hw hf ha hs hr _ =>
    by_cases hi : sid = i
    · subst hi
      exact .of_drop h hw (getElem?_of_set hw hs)
        (by rw [ha]; simp) hr
    · rw [lifeOf_other hi hw (Or.inr ha) hs (by rw [hr])]
      exact .stay _
  | @idle sid s s' hw hf hrel ha hs hr _ =>
    by_cases hi : sid = i
    · subst hi
      rw [pick_self]
      exact .of_idle h hw hrel (getElem?_of_set hw hs)
        (by rw [ha]; simp) hr
    · rw [pick_other hi, lifeOf_other hi hw (Or.inr ha) hs (by rw [hr])]
      exact .stay _
  | @install s hrel hexh ha hs hr _ =>
    exact .of_install h hrel hexh ha hs hr i
  | @released sid s s' hin hw hf ha hs hr _ =>
    by_cases hi : sid = i
    · subst hi
      rw [pick_self, life_of_finish h hin hw,
        lifeOf_over h (getElem?_of_set hw hs) (by rw [ha]; simp) hr]
      exact .released
    · rw [pick_other hi, lifeOf_other hi hw (Or.inr ha) hs
        (by rw [hr, List.mem_erase_of_ne (Ne.symm hi)])]
      exact .stay _
  | @exhausted sid s hin hw ha hs hr _ =>
    by_cases hi : sid = i
    · subst hi
      rw [pick_self, life_of_finish h hin hw,
        lifeOf_active (active_of_set hw ha hs),
        life_of_not_releasing rfl]
      exact .exhaust
    · rw [pick_other hi, lifeOf_other hi hw (Or.inl ha) hs
        (by rw [hr, List.mem_erase_of_ne (Ne.symm hi)])]
      exact .stay _
  | @failedIdle sid s s' hin hw hf ha hs hr _ =>
    by_cases hi : sid = i
    · subst hi
      rw [show pick sid [(sid, .failed), (sid, .idle)] = [.failed, .idle]
          from by simp [pick], life_of_finish h hin hw,
        lifeOf_over h (getElem?_of_set hw hs) (by rw [ha]; simp) hr]
      exact .failedIdle
    · rw [show pick i [(sid, .failed), (sid, .idle)] = []
          from by simp [pick, hi], lifeOf_other hi hw (Or.inr ha) hs
        (by rw [hr, List.mem_erase_of_ne (Ne.symm hi)])]
      exact .stay _
  -- the release ends after its session has gone
  | @detached sid rep hin hne hrep hs hr =>
    by_cases hi : sid = i
    · subst hi
      have hget := List.getElem?_eq_getElem (h.inRange sid hin)
      rw [pick_self, lifeOf_past hget hne, if_pos hin,
        lifeOf_over h (by rw [hs.2.1]; exact hget)
          (by rw [hs.1]; exact hne) hr]
      exact .finished hrep
    · rw [pick_other hi, lifeOf_congr (by rw [hs.2.1]) (by rw [hs.1])
        (by rw [hr, List.mem_erase_of_ne (Ne.symm hi)])]
      exact .stay _

/-- Seen at one session, every step of the broker is one of its life. -/
theorem step_life (h : SessionInv w) (hstep : step w act = some (w', es))
    (i : SessionId) :
    LifeStep (lifeOf w i) (es.filterMap (reportOn i)) (lifeOf w' i) := by
  rw [filterMap_reportOn]
  exact (SessionMove.of_step h.installed hstep).life h i

-- == runs

section Runs

variable {device : Bytes} {required : Bool} {wait : Nat}
  {tr : List WorldTrans}

theorem run_sessionInv
    (h : Exec step (newWorld (newBroker device required wait)) tr w) :
    SessionInv w :=
  h.inv (newWorld_sessionInv device required wait) step_sessionInv

/-- Every run, watched at one session, is a path of its life. -/
theorem life_of_run
    (h : Exec step (newWorld (newBroker device required wait)) tr w)
    (i : SessionId) :
    Path LifeStep .absent ((events tr).filterMap (reportOn i))
      (lifeOf w i) :=
  h.simulates (v := fun w => lifeOf w i)
    (newWorld_sessionInv device required wait) step_sessionInv
    fun hinv hstep => step_life hinv hstep i

/-- A session that was installed and is not active never is again. -/
theorem past_stays (hinv : SessionInv w) (h : Exec step w tr w')
    (hp : (lifeOf w sid).past = true) : (lifeOf w' sid).past = true := by
  have hboth : SessionInv w' ∧ (lifeOf w' sid).past = true := by
    refine h.inv (P := fun w => SessionInv w ∧ (lifeOf w sid).past = true)
      ⟨hinv, hp⟩ ?_
    intro s a s' es hs hstep
    exact ⟨step_sessionInv hs.1 hstep,
      (step_life hs.1 hstep sid).past hs.2⟩
  exact hboth.2

theorem past_of_inactive (hs : w.broker.sessions[sid]? = some s)
    (ha : w.broker.activeSession ≠ some sid) :
    (lifeOf w sid).past = true := by
  rw [lifeOf_past hs ha]
  split <;> rfl

/-- A session that a step takes out of being active is past. -/
theorem past_of_left (hinv : SessionInv w) (hstep : step w act = some (w', es))
    (hpre : w.broker.activeSession = some sid)
    (hpost : w'.broker.activeSession ≠ some sid) :
    (lifeOf w' sid).past = true := by
  have hl := step_life hinv hstep sid
  obtain ⟨s, hw⟩ := hinv.installed.record hpre
  cases hs : w'.broker.sessions[sid]? with
  | some s' => exact past_of_inactive hs hpost
  | none =>
    -- an installed session is never forgotten
    have habs : lifeOf w' sid = .absent := by
      unfold lifeOf
      rw [hs]
    rw [habs, lifeOf_active hw] at hl
    rcases s.life_cases with hc | hc | hc <;>
      rw [hl.of_absent] at hc <;> cases hc

/-- A session that is past is not the active one. -/
theorem inactive_of_past (hinv : SessionInv w)
    (hp : (lifeOf w sid).past = true) :
    w.broker.activeSession ≠ some sid := by
  intro ha
  obtain ⟨s, hw⟩ := hinv.installed.record ha
  rw [lifeOf_active hw] at hp
  rcases s.life_cases with hc | hc | hc <;> rw [hc] at hp <;> cases hp

end Runs

-- == steps addressed to the past

/-- A region run for a session that is not active counts, at most. -/
theorem sessionStep_inactive {act : SessionAct}
    (hs : w.broker.sessions[sid]? = some s)
    (hne : w.broker.activeSession ≠ some sid)
    (h : sessionStep w sid s act = some (w', es)) :
    ∃ st, w' = { w with
      broker := { w.broker with stats := st }
      releases := w'.releases } := by
  cases SessionRegion.of_step h with
  | count => exact ⟨_, rfl⟩
  | touch hacc | start hacc => exact absurd (accepting_iff.mp hacc).1 hne
  | finish ok =>
    have hfinish := FinishRegion.of_finish hs ok
    generalize w.broker.finishRelease sid s ok = r at hfinish ⊢
    cases hfinish with
    | detached => exact ⟨_, rfl⟩
    | released ha | exhausted ha | idled ha =>
      exact absurd (active_eq_some.mp ha).1 hne

end Callbridge.Bluez
