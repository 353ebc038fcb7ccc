/-
The steps of a media session (internal/bluez/broker.go): the locked
regions that the watcher of a session, its timers, its release goroutine
and the call control run, each on the session it was started for, whether
that session is still the active one or not.

`statistic` gathers the regions that only count. Everything else first
asks whether the session is `accepting`: active, with no release running
and none given up on.
-/
import Callbridge.Bluez.Broker

namespace Callbridge.Bluez

open Lib

-- == the guard

/-- The guard every session step but the completion of a release takes. -/
def Broker.accepting (b : Broker) (sid : SessionId) (s : Session) : Bool :=
  decide (b.activeSession = some sid) && !s.releasing && !s.releaseExhausted

def lifecycleProgressMatches (s : Session) (progress : LifecycleProgress) :
    Bool :=
  progress.bundleID == s.bundleID
    && progress.sinkGeneration == s.sinkGeneration
    && progress.sourceGeneration == s.sourceGeneration

def Broker.countStale (b : Broker) : Broker :=
  { b with stats := { b.stats with
      lifecycleStale := b.stats.lifecycleStale + 1 } }

-- == progress, normal end

def Session.progress (s : Session) (now : Nat) : Session :=
  { s with progressArmed := true, lastProgress := now }

def Broker.recordLifecycleProgress (b : Broker) (sid : SessionId)
    (s : Session) (progress : LifecycleProgress) (now : Nat) : Broker :=
  if b.accepting sid s && lifecycleProgressMatches s progress then
    { b.updateSession sid (fun s => s.progress now) with
      stats := { b.stats with
        lifecycleProgress := b.stats.lifecycleProgress + 1 } }
  else b.countStale

/-- The first region of `recordLifecycleNormalEnd`, which goes on to
`markNormalReleasePending` when this one finds nothing stale. -/
def Broker.checkLifecycleNormalEnd (b : Broker) (sid : SessionId)
    (s : Session) (identity : LifecycleProgress) : Broker :=
  if b.accepting sid s && lifecycleProgressMatches s identity then b
  else b.countStale

def Broker.countNormalEnd (b : Broker) (normalEndEvent : Bool) : Broker :=
  if normalEndEvent then
    { b with stats := { b.stats with
        lifecycleNormalEnds := b.stats.lifecycleNormalEnds + 1 } }
  else b

def Session.markNormalEnd (s : Session) : Session :=
  { s with normalEndSeen := true }

def Broker.markNormalReleasePending (b : Broker) (sid : SessionId)
    (s : Session) (normalEndEvent : Bool) : Broker :=
  if b.accepting sid s then
    if s.normalEndSeen then b.countNormalEnd normalEndEvent
    else (b.countNormalEnd normalEndEvent).updateSession sid
      Session.markNormalEnd
  else b

/-- The first region of `ReleaseCallToken`: the session it goes on to mark
with `markNormalReleasePending`. -/
def Broker.callTokenSession (b : Broker) (token : UInt64) :
    Option SessionId :=
  if token = 0 then none
  else
    match b.active with
    | none => none
    | some (sid, s) => if s.callToken = token then some sid else none

def Session.noteNormalEnd (s : Session) (normalEndEvent : Bool) : Session :=
  { s with normalEndSeen := s.normalEndSeen || normalEndEvent }

def Session.startWait (s : Session) (normalEndEvent : Bool) : Session :=
  { s with
    normalEndSeen := s.normalEndSeen || normalEndEvent
    normalWaitStarted := true }

/-- `beginNormalReleaseWait`. Without a configured wait it goes on to
`requestSpecificSessionRelease`. -/
def Broker.beginNormalReleaseWait (b : Broker) (sid : SessionId)
    (s : Session) (normalEndEvent : Bool) : Broker :=
  if b.accepting sid s then
    if s.normalWaitStarted then b.countNormalEnd normalEndEvent
    else if b.normalReleaseWait = 0 then
      (b.countNormalEnd normalEndEvent).updateSession sid fun s =>
        s.noteNormalEnd normalEndEvent
    else
      { (b.countNormalEnd normalEndEvent).updateSession sid
          (fun s => s.startWait normalEndEvent) with
        stats := { (b.countNormalEnd normalEndEvent).stats with
          normalReleaseWaits := b.stats.normalReleaseWaits + 1 } }
  else b

-- == releasing

def Session.startRelease (s : Session) : Session :=
  { s with releasing := true }

/-- `forceNormalReleaseTimeout`. -/
def Broker.forceNormalReleaseTimeout (b : Broker) (sid : SessionId)
    (s : Session) : Broker × List Event :=
  if b.accepting sid s && s.normalWaitStarted then
    ({ b.updateSession sid Session.startRelease with
        stats := { b.stats with
          normalReleaseTimeouts := b.stats.normalReleaseTimeouts + 1 } },
      [.releaseStarted sid])
  else (b, [])

/-- `requestSpecificSessionRelease`. -/
def Broker.requestSpecificSessionRelease (b : Broker) (sid : SessionId)
    (s : Session) : Broker × List Event :=
  if b.accepting sid s then
    (b.updateSession sid Session.startRelease, [.releaseStarted sid])
  else (b, [])

def Session.exhaustRelease (s : Session) : Session :=
  { s with releasing := false, releaseExhausted := true }

/-- The end of `releaseActiveSession`, with what `releaseTransportPaths`
returned. -/
def Broker.finishRelease (b : Broker) (sid : SessionId) (s : Session)
    (ok : Bool) : Broker × List Event :=
  if ok then
    (b.clearActiveSessionLocked sid, [.releaseReturned sid true])
  else if b.activeSession = some sid then
    if s.remoteIdleSeen then
      ((b.countIdleComplete false).clearActiveSessionLocked sid,
        [.releaseReturned sid false, .idleCompleted sid])
    else
      (b.updateSession sid Session.exhaustRelease,
        [.releaseReturned sid false])
  else (b, [.releaseReturned sid false])

-- == statistics

/-- The regions that only count: the attempts of `releaseMediaTransport`
and their outcomes, `fallbackTransportOwner`, and what a watcher counts
before it asks for a release. -/
inductive Statistic where
  | releaseAttempt
  | releaseOutcome (ok : Bool)
  | releaseFallback
  | lifecycleHUP (sid : SessionId)
  | startTimeout (sid : SessionId)
  | leaseTimeout (sid : SessionId)
  deriving DecidableEq

def Stats.count (st : Stats) (b : Broker) : Statistic → Stats
  | .releaseAttempt =>
      { st with releaseAttempts := st.releaseAttempts + 1 }
  | .releaseOutcome true =>
      { st with releaseSuccesses := st.releaseSuccesses + 1 }
  | .releaseOutcome false =>
      { st with releaseErrors := st.releaseErrors + 1 }
  | .releaseFallback =>
      { st with releaseFallbacks := st.releaseFallbacks + 1 }
  | .lifecycleHUP sid =>
      if b.activeSession = some sid then
        { st with lifecycleHUPs := st.lifecycleHUPs + 1 }
      else st
  | .startTimeout sid =>
      if (b.sessions[sid]?).any (b.accepting sid) then
        { st with lifecycleStartTimeouts := st.lifecycleStartTimeouts + 1 }
      else st
  | .leaseTimeout sid =>
      if (b.sessions[sid]?).any (b.accepting sid) then
        { st with lifecycleTimeouts := st.lifecycleTimeouts + 1 }
      else st

def Broker.statistic (b : Broker) (k : Statistic) : Broker :=
  { b with stats := b.stats.count b k }

end Callbridge.Bluez
