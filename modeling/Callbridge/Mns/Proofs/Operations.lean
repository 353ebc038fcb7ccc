/-
What one PUT leaves behind for the next.

The packets of an operation are the PUT packets since the last final one,
CONNECT or ABORT, and `replay` is what they do to the loop's variables. If
every operation that ends leaves nothing (`Settles`), the variables are at
any time those of the current operation alone (`replayed`).

The loop sees to this only at a CONNECT and at the end of an operation
with a body. A final packet without one leaves its content type, and an
ABORT, which the loop does not know, leaves the body as well.
-/
import Callbridge.Lib.Trace
import Callbridge.Mns.Server

namespace Callbridge.Mns

open Lib Obex

variable {elements : Bytes → List Element} {h h' : Handler} {a : HandlerAct}
  {es : List HandlerEvent}

/-- The code of an ABORT, in OBEX; `handle` has no case for it. -/
def opAbort : UInt8 := 0xff

-- == what steps keep

/-- What a turn of the loop that does not return does to the variables. -/
inductive Keeps (h : Handler) : HandlerAct → Handler → Prop
  | connected {payload : Bytes} {wrote room : Bool} {now : Bytes} :
      Keeps h (.packet opConnect payload wrote room now)
        { h with connected := true, accumulated := [], contentType := [] }
  | more {payload : Bytes} {wrote room : Bool} {now : Bytes}
      {headers : List Header} (hparse : parseHeaders payload 0 = .ok headers) :
      Keeps h (.packet opPut payload wrote room now) (h.put headers)
  | reported {payload : Bytes} {wrote room : Bool} {now : Bytes} :
      Keeps h (.packet opPutFinal payload wrote room now)
        { h with accumulated := [], contentType := [] }
  | bodiless {payload : Bytes} {wrote room : Bool} {now : Bytes}
      {headers : List Header} (hparse : parseHeaders payload 0 = .ok headers)
      (hempty : (h.put headers).accumulated = []) :
      Keeps h (.packet opPutFinal payload wrote room now) (h.put headers)
  | unsupported {code : UInt8} {payload : Bytes} {wrote room : Bool}
      {now : Bytes} (hconnect : code ≠ opConnect) (hput : code ≠ opPut)
      (hfinal : code ≠ opPutFinal) :
      Keeps h (.packet code payload wrote room now) h

theorem serving_of_step (hstep : handleStep elements h a = some (h', es)) :
    h.serving = true := by
  by_contra hserving
  cases a <;> simp [handleStep, hserving] at hstep

/-- A CONNECT starts with nothing. -/
theorem keeps_connect {payload now : Bytes} {wrote room : Bool}
    (hstep : h.connect payload wrote = (h', es))
    (hserving : h'.serving = true) :
    Keeps h (.packet opConnect payload wrote room now) h' := by
  unfold Handler.connect Handler.refuse at hstep
  split at hstep
  · cases hstep
    cases hserving
  split at hstep
  · cases hstep
    cases hserving
  split at hstep
  · cases hstep
    cases hserving
  split at hstep
  · cases hstep
    exact Keeps.connected
  · cases hstep
    cases hserving

/-- A PUT adds to its own operation. -/
theorem keeps_receive {final : Bool} {payload now : Bytes} {wrote room : Bool}
    (hstep : h.receive elements final payload wrote room now = (h', es))
    (hserving : h'.serving = true) :
    Keeps h (.packet (if final then opPutFinal else opPut)
      payload wrote room now) h' := by
  unfold Handler.receive Handler.refuse at hstep
  split at hstep
  · cases hstep
    cases hserving
  split at hstep
  · cases hstep
    cases hserving
  case h_2 headers hparse =>
    simp only [] at hstep
    split at hstep
    · cases hstep
      cases hserving
    split at hstep
    · cases hstep
      cases hserving
    split at hstep
    case isTrue hend =>
      cases hstep
      rw [hend.1]
      exact Keeps.reported
    case isFalse hend =>
      cases hstep
      cases final with
      | false => exact Keeps.more hparse
      | true =>
        refine Keeps.bodiless hparse ?_
        by_contra hne
        exact hend ⟨rfl, hne⟩

/-- The inversion of a turn that does not return. -/
theorem keeps_of_step (hstep : handleStep elements h a = some (h', es))
    (hserving : h'.serving = true) : Keeps h a h' := by
  have hpre := serving_of_step hstep
  cases a with
  | stop =>
    simp only [handleStep, hpre] at hstep
    cases hstep
    cases hserving
  | packet code payload wrote room now =>
    rw [handleStep, if_neg (by simp [hpre])] at hstep
    split at hstep
    case isTrue hconnect =>
      rw [hconnect]
      exact keeps_connect (Option.some.inj hstep) hserving
    case isFalse hconnect =>
      split at hstep
      case isTrue hput =>
        have hkeeps := keeps_receive (Option.some.inj hstep) hserving
        rcases hput with rfl | rfl <;> exact hkeeps
      case isFalse hput =>
        rw [not_or] at hput
        split at hstep
        · cases hstep
          cases hserving
        · obtain ⟨rfl, -⟩ := Prod.mk.inj (Option.some.inj hstep)
          have hsame : { h with serving := wrote } = h := by
            rw [show wrote = true from hserving, ← hpre]
          rw [hsame]
          exact Keeps.unsupported hconnect hput.1 hput.2

-- == operations

/-- The packets of the current operation, after one more step. -/
def follow (op : List Bytes) : HandlerAct → List Bytes
  | .stop => op
  | .packet code payload _ _ _ =>
      if code = opPut then op ++ [payload]
      else if code = opPutFinal ∨ code = opConnect ∨ code = opAbort then []
      else op

/-- The payloads of the PUT packets since the last final PUT, CONNECT or
ABORT. -/
def operation (tr : List (Trans Handler HandlerAct HandlerEvent)) :
    List Bytes :=
  tr.foldl (fun op t => follow op t.act) []

theorem operation_snoc (tr : List (Trans Handler HandlerAct HandlerEvent))
    (t : Trans Handler HandlerAct HandlerEvent) :
    operation (tr ++ [t]) = follow (operation tr) t.act := by
  simp [operation]

/-- What a packet of an operation does to the variables. -/
def Handler.take (h : Handler) (payload : Bytes) : Handler :=
  match parseHeaders payload 0 with
  | .ok headers => h.put headers
  | .error _ => h

/-- A connected loop whose variables hold nothing. -/
def Handler.fresh : Handler := ⟨true, true, [], []⟩

/-- What an operation does to the variables by itself. -/
def replay (op : List Bytes) : Handler := op.foldl Handler.take .fresh

theorem replay_snoc (op : List Bytes) (payload : Bytes) :
    replay (op ++ [payload]) = (replay op).take payload := by
  simp [replay]

/-- The variables, whatever has become of the connection. -/
def Handler.gathered (h : Handler) : Handler :=
  { h with serving := true, connected := true }

/-- The operation that ends with this step leaves nothing: an ABORT finds
neither body nor content type, and a final PUT whose operation has no body
has no content type either. -/
def Settles (h : Handler) : HandlerAct → Prop
  | .stop => True
  | .packet code payload _ _ _ =>
      (code = opAbort → h.accumulated = [] ∧ h.contentType = [])
      ∧ (code = opPutFinal →
        ∀ headers ∈ (parseHeaders payload 0).toOption,
          (h.put headers).accumulated = [] →
          (h.put headers).contentType = [])

instance (h : Handler) : DecidablePred (Settles h)
  | .stop => inferInstanceAs (Decidable True)
  | .packet code payload _ _ _ => inferInstanceAs (Decidable
      ((code = opAbort → h.accumulated = [] ∧ h.contentType = [])
      ∧ (code = opPutFinal →
        ∀ headers ∈ (parseHeaders payload 0).toOption,
          (h.put headers).accumulated = [] →
          (h.put headers).contentType = [])))

theorem gathered_fresh (hbody : h.accumulated = [])
    (htype : h.contentType = []) : h.gathered = .fresh := by
  rw [Handler.gathered, hbody, htype]
  rfl

/-- One step: the variables go on being those of the operation. -/
theorem replayed_step {op : List Bytes} (hpre : h.gathered = replay op)
    (hsettles : Settles h a) (hkeeps : Keeps h a h') :
    h'.gathered = replay (follow op a) := by
  cases hkeeps with
  | connected => exact gathered_fresh rfl rfl
  | @more payload wrote room now headers hparse =>
    have htake : follow op (.packet opPut payload wrote room now)
        = op ++ [payload] := by rw [follow, if_pos rfl]
    have hput : (h.put headers).gathered = h.gathered.put headers := rfl
    rw [htake, replay_snoc, ← hpre, hput, Handler.take, hparse]
  | reported => exact gathered_fresh rfl rfl
  | @bodiless payload wrote room now headers hparse hempty =>
    have hmem : headers ∈ (parseHeaders payload 0).toOption := by
      rw [hparse]
      rfl
    exact gathered_fresh hempty (hsettles.2 rfl _ hmem hempty)
  | @unsupported code payload wrote room now hconnect hput hfinal =>
    rw [follow, if_neg hput]
    by_cases habort : code = opAbort
    · obtain ⟨hbody, htype⟩ := hsettles.1 habort
      rw [if_pos (Or.inr (Or.inr habort))]
      exact gathered_fresh hbody htype
    · have hother : ¬ (code = opPutFinal ∨ code = opConnect
          ∨ code = opAbort) := by
        rintro (h | h | h)
        · exact hfinal h
        · exact hconnect h
        · exact habort h
      rw [if_neg hother]
      exact hpre

/-- The whole run: where every operation leaves nothing, the variables are
those of the current operation alone. -/
theorem replayed {tr : List (Trans Handler HandlerAct HandlerEvent)}
    (hrun : Exec (handleStep elements) .start tr h)
    (hsettles : ∀ t ∈ tr, Settles t.pre t.act) (hserving : h.serving = true) :
    h.gathered = replay (operation tr) := by
  induction hrun with
  | nil => rfl
  | @snoc tr h h' a es hrun hstep ih =>
    have hbefore := ih
      (fun t ht => hsettles t (List.mem_append_left _ ht))
      (serving_of_step hstep)
    have hlast := hsettles _
      (List.mem_append_right _ (List.mem_singleton_self _))
    rw [operation_snoc]
    exact replayed_step hbefore hlast (keeps_of_step hstep hserving)

-- == independence

/-- Two connected sessions whose operations so far have left nothing: with
the same packets of the current operation, the same final packet does the
same, whatever came before. -/
theorem operations_independent (elements : Bytes → List Element)
    {tr₁ tr₂ : List (Trans Handler HandlerAct HandlerEvent)}
    {h₁ h₂ : Handler}
    (hrun₁ : Exec (handleStep elements) .start tr₁ h₁)
    (hrun₂ : Exec (handleStep elements) .start tr₂ h₂)
    (hsettles₁ : ∀ t ∈ tr₁, Settles t.pre t.act)
    (hsettles₂ : ∀ t ∈ tr₂, Settles t.pre t.act)
    (hlive₁ : h₁.serving = true ∧ h₁.connected = true)
    (hlive₂ : h₂.serving = true ∧ h₂.connected = true)
    (hop : operation tr₁ = operation tr₂)
    (payload : Bytes) (wrote room : Bool) (now : Bytes) :
    (handleStep elements h₁ (.packet opPutFinal payload wrote room now)).map
        Prod.snd
      = (handleStep elements h₂
          (.packet opPutFinal payload wrote room now)).map Prod.snd := by
  have hsame : ∀ {h : Handler}, h.serving = true ∧ h.connected = true →
      h.gathered = h := by
    rintro ⟨serving, connected, accumulated, contentType⟩ ⟨hs, hc⟩
    cases hs
    cases hc
    rfl
  have h₁eq := replayed hrun₁ hsettles₁ hlive₁.1
  have h₂eq := replayed hrun₂ hsettles₂ hlive₂.1
  rw [hsame hlive₁] at h₁eq
  rw [hsame hlive₂] at h₂eq
  rw [h₁eq, h₂eq, hop]

-- == two histories

/-- What the decoder finds in `reportHead` and `reportTail` together. -/
def oneReport (_ : Bytes) : List Element :=
  [⟨ascii "event",
    [(ascii "type", ascii "NewMessage"), (ascii "handle", ascii "1a")]⟩]

def reportHead : Bytes := ascii "<event type=\"NewMessage\" "
def reportTail : Bytes := ascii "handle=\"1a\"/>"

/-- A packet that is read in good order. -/
def arrives (code : UInt8) (payload : Bytes) : HandlerAct :=
  .packet code payload true true (ascii "2026-01-01T00:00:00Z")

def connectRequest : HandlerAct :=
  arrives opConnect ([0x10, 0x00, 0xff, 0xff, 0x46, 0x00, 0x13]
    ++ targetUUID)

/-- A report without a content type, in one header that ends the body. -/
def bareReport : Bytes := [0x49, 0x00, 0x29] ++ reportHead ++ reportTail

/-- The same in two packets. -/
def firstHalf : Bytes := [0x48, 0x00, 0x1c] ++ reportHead
def secondHalf : Bytes := [0x49, 0x00, 0x10] ++ reportTail

/-- A content type of another kind, and nothing else. -/
def typeAlone : Bytes := [0x42, 0x00, 0x08] ++ ascii "x-foo"

/-- The second half of a report, in a new session and behind another
report. -/
theorem operations_independent_halves :
    ∃ tr₁ tr₂ h₁ h₂, Exec (handleStep oneReport) .start tr₁ h₁
      ∧ Exec (handleStep oneReport) .start tr₂ h₂
      ∧ tr₁.length ≠ tr₂.length
      ∧ (handleStep oneReport h₁ (arrives opPutFinal secondHalf)).map
          Prod.snd
        = (handleStep oneReport h₂ (arrives opPutFinal secondHalf)).map
          Prod.snd := by
  obtain ⟨tr₁, h₁, hrun₁, htest₁⟩ := exec_of_decide (handleStep oneReport)
    .start [connectRequest, arrives opPut firstHalf]
    (fun tr h => (∀ t ∈ tr, Settles t.pre t.act)
      ∧ (h.serving = true ∧ h.connected = true)
      ∧ operation tr = [firstHalf] ∧ tr.length = 2) (by decide +kernel)
  obtain ⟨tr₂, h₂, hrun₂, htest₂⟩ := exec_of_decide (handleStep oneReport)
    .start
    [connectRequest, arrives opPutFinal bareReport, arrives opAbort [],
      arrives opPut firstHalf]
    (fun tr h => (∀ t ∈ tr, Settles t.pre t.act)
      ∧ (h.serving = true ∧ h.connected = true)
      ∧ operation tr = [firstHalf] ∧ tr.length = 4) (by decide +kernel)
  obtain ⟨hset₁, hlive₁, hop₁, hlen₁⟩ := htest₁
  obtain ⟨hset₂, hlive₂, hop₂, hlen₂⟩ := htest₂
  refine ⟨tr₁, tr₂, h₁, h₂, hrun₁, hrun₂, by omega, ?_⟩
  exact operations_independent oneReport hrun₁ hrun₂ hset₁ hset₂ hlive₁
    hlive₂ (hop₁.trans hop₂.symm) secondHalf true true _

/-- A final PUT with a content type and no body: the report that follows,
an operation of one packet, is passed over, while the same packet right
after the CONNECT gives the event. -/
theorem content_type_left_behind :
    ∃ tr₁ tr₂ h₁ h₂, Exec (handleStep oneReport) .start tr₁ h₁
      ∧ Exec (handleStep oneReport) .start tr₂ h₂
      ∧ operation tr₁ = [] ∧ operation tr₂ = []
      ∧ (handleStep oneReport h₁ (arrives opPutFinal bareReport)).map
          Prod.snd = some [.responded responseOK []]
      ∧ (handleStep oneReport h₂ (arrives opPutFinal bareReport)).map
          Prod.snd = some [.responded responseOK [],
            .queued ⟨ascii "NewMessage", ascii "1a", [], [],
              ascii "2026-01-01T00:00:00Z", ascii "mns"⟩] := by
  obtain ⟨tr₁, h₁, hrun₁, htest₁⟩ := exec_of_decide (handleStep oneReport)
    .start [connectRequest, arrives opPutFinal typeAlone]
    (fun tr h => operation tr = []
      ∧ (handleStep oneReport h (arrives opPutFinal bareReport)).map
          Prod.snd = some [.responded responseOK []]) (by decide +kernel)
  obtain ⟨tr₂, h₂, hrun₂, htest₂⟩ := exec_of_decide (handleStep oneReport)
    .start [connectRequest]
    (fun tr h => operation tr = []
      ∧ (handleStep oneReport h (arrives opPutFinal bareReport)).map
          Prod.snd = some [.responded responseOK [],
            .queued ⟨ascii "NewMessage", ascii "1a", [], [],
              ascii "2026-01-01T00:00:00Z", ascii "mns"⟩]) (by decide +kernel)
  obtain ⟨hop₁, hout₁⟩ := htest₁
  obtain ⟨hop₂, hout₂⟩ := htest₂
  exact ⟨tr₁, tr₂, h₁, h₂, hrun₁, hrun₂, hop₁, hop₂, hout₁, hout₂⟩

end Callbridge.Mns
