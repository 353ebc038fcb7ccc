/-
The folder a session remembers is the one the phone is in.

`pathNames` takes the string a session keeps to the phone's list of names.
The two agree unless the session says that it does not know, or is on its
way down to a folder: its string then stays at the root while the phone
follows one part after the other. So the invariant says for each pending
request where the phone is (`Pending.At`). Every way out of `gotoFolder`
but its end gives the path up.
-/
import Callbridge.MapClient.Phone
import Callbridge.MapClient.Proofs.Requests

namespace Callbridge.MapClient

open Lib
open Obex

variable {payload : Bytes} {opcode : UInt8} {t : Talk}

-- == paths

/-- The folders a path goes through, as the phone reads their names. -/
def pathNames (path : Bytes) : List Bytes :=
  if path = [] then [] else (splitByte 0x2f path).map toValidUTF8

/-- The names joined again: the path as it was, made valid UTF-8. -/
theorem join_pathNames (path : Bytes) :
    [0x2f].intercalate (pathNames path) = toValidUTF8 path := by
  unfold pathNames
  split
  case isTrue h =>
    rw [h]
    rfl
  case isFalse h =>
    rw [toValidUTF8_intercalate (by decide), splitByte,
      List.intercalate_splitOn]

/-- What `gotoFolder` accepts is neither the root nor the mark of a path
that is not known. -/
theorem accepted_ne {folder : Bytes}
    (h : (splitByte 0x2f folder).any refusedPart = false) :
    folder ≠ [] ∧ folder ≠ unknownPath := by
  constructor
  · rintro rfl
    exact absurd h (by decide)
  · rintro rfl
    exact absurd h (by decide)

-- == what the phone reads

/-- The phone reads the headers behind the connection. -/
theorem parse_payload (s : Session) {headers : List Header} {enc : Bytes}
    (h : EncodesAll headers enc) :
    parseHeaders ([0x02, 0x00]
        ++ (headerConnectionID :: bePutUint32 s.connection) ++ enc) 2
      = .ok (⟨headerConnectionID, bePutUint32 s.connection⟩ :: headers) := by
  have hconn : EncodesAll
      [⟨headerConnectionID, bePutUint32 s.connection⟩]
      (headerConnectionID :: bePutUint32 s.connection) :=
    encodesAll_singleton (mustHeader_eq_some.mp (connectionHeader_eq s))
  rw [parseHeaders_eq_ok (by simp)]
  exact hconn.append h

/-- A SetPath without a name. -/
theorem phoneMove_root (s : Session) (path : List Bytes)
    (h : s.rootHeaders = some payload) : phoneMove path payload = [] := by
  rw [rootHeaders_eq, Option.some.injEq] at h
  have hparse := parse_payload s (encodesAll_nil.mpr rfl)
  rw [List.append_nil, h] at hparse
  rw [phoneMove, hparse]
  rfl

/-- A SetPath with one. -/
theorem phoneMove_part (s : Session) (path : List Bytes) {part : Bytes}
    (h : s.partHeaders part = some payload) :
    phoneMove path payload = path ++ [toValidUTF8 part] := by
  rw [Session.partHeaders, connectionHeader_eq] at h
  cases hname : nameHeader headerName part with
  | none =>
    rw [hname] at h
    cases h
  | some name =>
    rw [hname] at h
    have hpayload := Option.some.inj h
    have hparse := parse_payload s
      (encodesAll_singleton (mustHeader_eq_some.mp hname))
    rw [hpayload] at hparse
    have hfind : find [⟨headerConnectionID, bePutUint32 s.connection⟩,
        ⟨headerName, nameValue part⟩] headerName
          = some (nameValue part) := rfl
    rw [phoneMove, hparse]
    simp only [hfind, decodeName_nameValue]

-- == the invariant

/-- The folder a call is for. -/
def Call.folder : Call → Bytes
  | .keepalive => []
  | .list folder _ _ => folder
  | .get folder _ => folder
  | .push folder _ _ _ => folder

/-- A call that is on its way to its folder. -/
structure Heading (call : Call) (folder : Bytes) (task : Task) : Prop where
  folder_eq : folder = trimByte 0x2f call.folder
  accepted : (splitByte 0x2f folder).any refusedPart = false
  fits : task.Fits

/-- What a session remembers is true. -/
def Truthful (s : Session) (path : List Bytes) : Prop :=
  s.currentPath ≠ unknownPath → path = pathNames s.currentPath

/-- Where the phone is while a request of a call is pending, and where
the request leads it. -/
def Pending.At (call : Call) (t : Talk) (opcode : UInt8)
    (payload : Bytes) : Pending → Prop
  | .keepalive =>
      opcode = opSetPath ∧ (∀ path, phoneMove path payload = [])
        ∧ Truthful t.session t.path
  | .root folder parts task =>
      opcode = opSetPath ∧ (∀ path, phoneMove path payload = [])
        ∧ Truthful t.session t.path
        ∧ Heading call folder task ∧ parts = splitByte 0x2f folder
  | .descend folder rest task =>
      opcode = opSetPath ∧ Heading call folder task
        ∧ t.session.currentPath = []
        ∧ ∃ done part, splitByte 0x2f folder = done ++ part :: rest
          ∧ t.path = done.map toValidUTF8
          ∧ phoneMove t.path payload = t.path ++ [toValidUTF8 part]
  | .get _ =>
      opcode ≠ opSetPath ∧ t.session.currentPath = trimByte 0x2f call.folder
        ∧ t.path = pathNames t.session.currentPath
  | .put _ _ =>
      opcode ≠ opSetPath ∧ t.session.currentPath = trimByte 0x2f call.folder
        ∧ t.path = pathNames t.session.currentPath

/-- Where the phone is, in each phase. -/
def Talk.Inv (t : Talk) : Prop :=
  match t.phase with
  | .idle => Truthful t.session t.path
  | .busy call opcode payload pending => pending.At call t opcode payload
  | .crashed => True

/-- The phone has followed a part of the path to a folder and not yet the
last, or a panic has ended the process. -/
def Talk.descending (t : Talk) : Bool :=
  match t.phase with
  | .busy _ _ _ (.descend folder rest _) =>
      rest.length + 1 < (splitByte 0x2f folder).length
  | .crashed => true
  | _ => false

theorem truthful_unknown (s : Session) (path : List Bytes) :
    Truthful (s.withPath unknownPath) path := by
  intro h
  exact absurd rfl h

variable {s : Session} {path : List Bytes} {call : Call} {folder : Bytes}
  {task : Task}

/-- Behind the folder nothing moves the phone. -/
theorem inv_settled {x : Session × Progress} (h : Settled s x)
    (hfolder : s.currentPath = trimByte 0x2f call.folder)
    (hpath : path = pathNames s.currentPath) :
    (Talk.place path call x).1.Inv := by
  rcases h with ⟨result, rfl⟩ | ⟨opcode, payload, pending, hp, hop, rfl⟩
  · exact fun _ => hpath
  · cases pending with
    | get body | put final rest => exact ⟨hop, hfolder, hpath⟩
    | keepalive | root folder parts task | descend folder rest task => cases hp

/-- A SetPath that is refused, or that panics, gives the path up. -/
theorem inv_setPath {headers : Option Bytes} {pending : Pending}
    (hpending : s.failed pending = s.withPath unknownPath)
    (h : ∀ payload, headers = some payload → pending.At call
      ⟨s, path, .busy call opSetPath payload pending⟩ opSetPath payload) :
    (Talk.place path call
      (s.requestHeaders opSetPath headers pending)).1.Inv := by
  cases headers with
  | none => exact trivial
  | some payload =>
    simp only [Session.requestHeaders]
    by_cases hsends : s.sends payload
    · rw [request_sent hsends]
      exact h payload rfl
    · obtain ⟨e, he⟩ := request_refused hsends opSetPath pending
      rw [he, hpending]
      exact truthful_unknown s path

/-- With the parts up to here behind it, the phone is where the next one
is asked for, or in the folder itself. -/
theorem inv_descend (hhead : Heading call folder task)
    (hroot : s.currentPath = [])
    (done : List Bytes) {parts : List Bytes}
    (hparts : splitByte 0x2f folder = done ++ parts)
    (hpath : path = done.map toValidUTF8) :
    (Talk.place path call (s.descend folder task parts)).1.Inv := by
  cases parts with
  | nil =>
    rw [List.append_nil] at hparts
    refine inv_settled (settled_perform (s.withPath folder) hhead.fits)
      hhead.folder_eq ?_
    show path = pathNames folder
    rw [pathNames, if_neg (accepted_ne hhead.accepted).1, hparts, hpath]
  | cons part rest =>
    refine inv_setPath rfl ?_
    intro payload hpayload
    exact ⟨rfl, hhead, hroot, done, part, hparts, hpath,
      phoneMove_part s path hpayload⟩

/-- On the way to a folder the session starts from the truth. -/
theorem inv_gotoFolder (call : Call) (htrue : Truthful s path)
    (hfits : task.Fits) :
    (Talk.place path call (s.gotoFolder call.folder task)).1.Inv := by
  unfold Session.gotoFolder
  simp only []
  split
  case isTrue => exact htrue
  case isFalse hrefused =>
    have hhead : Heading call (trimByte 0x2f call.folder) task :=
      ⟨rfl, Bool.eq_false_iff.mpr hrefused, hfits⟩
    split
    case isTrue hhere =>
      have hknown : s.currentPath ≠ unknownPath := by
        rw [← hhere]
        exact (accepted_ne hhead.accepted).2
      exact inv_settled (settled_perform s hfits) hhere.symm
        (htrue hknown)
    case isFalse =>
      split
      case isTrue hroot =>
        have hpath : path = pathNames s.currentPath := by
          refine htrue ?_
          rw [hroot]
          decide
        rw [hroot] at hpath
        exact inv_descend hhead hroot [] rfl hpath
      case isFalse =>
        refine inv_setPath rfl ?_
        intro payload hpayload
        exact ⟨rfl, fun p => phoneMove_root s p hpayload, htrue, hhead, rfl⟩

-- == the steps

/-- So does every call. -/
theorem inv_call (htrue : Truthful s path) (call : Call) :
    (Talk.place path call (s.call call)).1.Inv := by
  cases call with
  | keepalive =>
    simp only [Session.call, Session.keepalive]
    refine inv_setPath rfl ?_
    intro payload hpayload
    exact ⟨rfl, fun p => phoneMove_root s p hpayload, htrue⟩
  | list folder maximum offset =>
    simp only [Session.call, Session.listMessages]
    split
    · exact htrue
    · exact inv_gotoFolder (.list folder maximum offset) htrue trivial
  | get folder handle =>
    simp only [Session.call, Session.getMessage]
    split
    · exact htrue
    · next hsafe =>
      exact inv_gotoFolder (.get folder handle) htrue
        (fits_of_safeHandle (Bool.eq_true_of_not_eq_false hsafe))
  | push folder body transparent retry =>
    simp only [Session.call, Session.pushBMessage]
    split
    · exact htrue
    · exact inv_gotoFolder (.push folder body transparent retry) htrue
        trivial

/-- The answer to a request that led to the root. -/
theorem inv_rootAnswered {outcome : Outcome} (hop : opcode = opSetPath)
    (hmove : ∀ p, phoneMove p payload = []) {response : Packet}
    (hresponse : outcome = .answered response)
    {next : Session → Session × Progress}
    (hnext : (Talk.place [] call (next (s.withPath []))).1.Inv) :
    (Talk.place (phoneAfter path opcode payload outcome) call
      (s.rootAnswered response next)).1.Inv := by
  subst hresponse
  unfold Session.rootAnswered
  split
  case isTrue => exact truthful_unknown s _
  case isFalse hok =>
    have hdone : opcode = opSetPath
        ∧ (Outcome.answered response).performed = true := by
      refine ⟨hop, ?_⟩
      simpa [Outcome.performed] using hok
    rw [phoneAfter, if_pos hdone, hmove]
    exact hnext

/-- Every outcome of a request keeps the invariant. -/
theorem inv_resume {pending : Pending} (h : pending.At call t opcode payload)
    (outcome : Outcome) :
    (Talk.place (phoneAfter t.path opcode payload outcome) call
      (t.session.resume pending outcome.result)).1.Inv := by
  cases pending with
  | get body =>
    obtain ⟨hop, hfolder, hpath⟩ := h
    have harrived : (Pending.get body).arrived := trivial
    -- a get moves no folder
    rw [phoneAfter, if_neg fun h => hop h.1]
    exact inv_settled (settled_resume t.session harrived outcome.result)
      hfolder hpath
  | put final rest =>
    obtain ⟨hop, hfolder, hpath⟩ := h
    have harrived : (Pending.put final rest).arrived := trivial
    rw [phoneAfter, if_neg fun h => hop h.1]
    exact inv_settled (settled_resume t.session harrived outcome.result)
      hfolder hpath
  | keepalive =>
    obtain ⟨hop, hmove, -⟩ := h
    cases outcome with
    -- whether the phone moved is not known: the cache is dropped
    | lost performed e => exact truthful_unknown t.session _
    | answered response =>
      simp only [Outcome.result, Session.resume]
      refine inv_rootAnswered hop hmove rfl ?_
      exact fun _ => rfl
  | root folder parts task =>
    obtain ⟨hop, hmove, -, hhead, hparts⟩ := h
    cases outcome with
    | lost performed e => exact truthful_unknown t.session _
    | answered response =>
      simp only [Outcome.result, Session.resume]
      refine inv_rootAnswered hop hmove rfl ?_
      exact inv_descend hhead rfl [] hparts.symm rfl
  | descend folder rest task =>
    obtain ⟨hop, hhead, hroot, done, part, hparts, hpath, hmove⟩ := h
    cases outcome with
    | lost performed e => exact truthful_unknown t.session _
    | answered response =>
      simp only [Outcome.result, Session.resume, Session.descendAnswered]
      split
      case isTrue => exact truthful_unknown t.session _
      case isFalse hok =>
        -- the phone went one folder down, as asked
        have hdone : opcode = opSetPath
            ∧ (Outcome.answered response).performed = true := by
          refine ⟨hop, ?_⟩
          simpa [Outcome.performed] using hok
        rw [phoneAfter, if_pos hdone, hmove]
        refine inv_descend hhead hroot (done ++ [part]) ?_ ?_
        · rw [hparts, List.append_assoc]
          rfl
        · rw [hpath, List.map_append]
          rfl

/-- Every step keeps the invariant. -/
theorem inv_step {t' : Talk} {act : TalkAct} {out : List TalkEvent} (h : t.Inv)
    (hstep : talkStep t act = some (t', out)) : t'.Inv := by
  obtain ⟨s, path, phase⟩ := t
  cases act with
  | call call =>
    cases phase with
    | idle =>
      have hplace := inv_call h call
      rw [Option.some.inj hstep] at hplace
      exact hplace
    | busy call opcode payload pending | crashed => cases hstep
  | outcome outcome =>
    cases phase with
    | busy call opcode payload pending =>
      have hplace := inv_resume h outcome
      rw [Option.some.inj hstep] at hplace
      exact hplace
    | idle | crashed => cases hstep

/-- A request is sent where a call is left waiting for its answer. -/
theorem busy_of_sent {t' : Talk} {act : TalkAct} {out : List TalkEvent}
    (hstep : talkStep t act = some (t', out))
    (hsent : .sent call opcode payload ∈ out) :
    ∃ pending, t'.phase = .busy call opcode payload pending := by
  have hplace : ∀ path call' x, (t', out) = Talk.place path call' x →
      ∃ pending, t'.phase = .busy call opcode payload pending := by
    rintro path call' ⟨s, progress⟩ hx
    cases progress with
    | request opcode' payload' pending =>
      obtain ⟨rfl, rfl⟩ := Prod.mk.inj hx
      rw [List.mem_singleton] at hsent
      cases hsent
      exact ⟨pending, rfl⟩
    | finished result =>
      obtain ⟨rfl, rfl⟩ := Prod.mk.inj hx
      rw [List.mem_singleton] at hsent
      cases hsent
    | panicked =>
      obtain ⟨rfl, rfl⟩ := Prod.mk.inj hx
      cases hsent
  obtain ⟨s, path, phase⟩ := t
  cases act with
  | call call' =>
    cases phase with
    | idle => exact hplace _ _ _ (Option.some.inj hstep).symm
    | busy call opcode payload pending | crashed => cases hstep
  | outcome outcome =>
    cases phase with
    | busy call' opcode payload pending =>
      exact hplace _ _ _ (Option.some.inj hstep).symm
    | idle | crashed => cases hstep

-- == the theorem

/-- Outside a descent the session is right about the path. -/
theorem Talk.Inv.truthful (h : t.Inv) (hrest : t.descending = false) :
    Truthful t.session t.path := by
  obtain ⟨s, path, phase⟩ := t
  cases phase with
  | idle => exact h
  | crashed => cases hrest
  | busy call opcode payload pending =>
    cases pending with
    | keepalive => exact h.2.2
    | root folder parts task => exact h.2.2.1
    | get body | put final rest => exact fun _ => h.2.2
    | descend folder rest task =>
      obtain ⟨-, -, hroot, done, part, hparts, hpath, -⟩ := h
      -- the first part is asked for, and the phone is still at the root
      have hfirst : (splitByte 0x2f folder).length ≤ rest.length + 1 := by
        simpa [Talk.descending] using hrest
      have hdone : done = [] := by
        rw [hparts, List.length_append, List.length_cons] at hfirst
        exact List.eq_nil_of_length_eq_zero (by omega)
      rw [hdone] at hpath
      intro _
      rw [hpath, hroot]
      rfl

/-- Whatever calls are made and whatever becomes of their requests: unless
the phone is half-way down to a folder, the path the session remembers, if
it claims to know it, is the phone's, name by name, and as a string where
it is valid UTF-8 at all; and a request other than a SetPath is only ever
sent while the phone is in the folder the call was for. -/
theorem folder_cache_truthful (s : Session)
    {tr : List (Trans Talk TalkAct TalkEvent)} {t : Talk}
    (hrun : Exec talkStep (Talk.start s) tr t) :
    (t.descending = false → t.session.currentPath ≠ unknownPath →
      t.path = pathNames t.session.currentPath
        ∧ (ValidUTF8 t.session.currentPath →
          [0x2f].intercalate t.path = t.session.currentPath))
      ∧ ∀ x ∈ tr, ∀ call opcode payload,
        .sent call opcode payload ∈ x.out → opcode ≠ opSetPath →
        x.post.path = pathNames (trimByte 0x2f call.folder) := by
  have hinv : ∀ {tr : List (Trans Talk TalkAct TalkEvent)} {t : Talk},
      Exec talkStep (Talk.start s) tr t → t.Inv := by
    intro tr t hrun
    refine hrun.inv (fun _ => rfl) ?_
    intro t act t' out h hstep
    exact inv_step h hstep
  constructor
  · intro hrest hknown
    have hpath := (hinv hrun).truthful hrest hknown
    refine ⟨hpath, ?_⟩
    intro hvalid
    rw [hpath, join_pathNames]
    exact hvalid
  · intro x hx call opcode payload hsent hop
    obtain ⟨t₁, t₂, rfl, hpre, hstep, -⟩ := hrun.of_mem hx
    have hpost := hinv (Exec.snoc hpre hstep)
    obtain ⟨pending, hphase⟩ := busy_of_sent hstep hsent
    rw [Talk.Inv, hphase] at hpost
    cases pending with
    | get body => exact hpost.2.2.trans (congrArg pathNames hpost.2.1)
    | put final rest =>
      exact hpost.2.2.trans (congrArg pathNames hpost.2.1)
    | keepalive | root folder parts task | descend folder rest task =>
      exact absurd hpost.1 hop

/-- Two listings of one folder: the first goes there, the second finds
the phone in it and waits for the listing. -/
def twoListings : List TalkAct :=
  [.call (.list (ascii "a/b") 1 0), .outcome (.answered ⟨responseOK, []⟩),
   .outcome (.answered ⟨responseOK, []⟩),
   .outcome (.answered ⟨responseOK, []⟩),
   .call (.list (ascii "/a/b/") 1 0)]

/-- Two listings, up to the request for the second. -/
theorem folder_cache_truthful_listings :
    ∃ tr t, Exec talkStep (Talk.start freshSession) tr t
      ∧ t.session.currentPath = ascii "a/b"
      ∧ t.path = pathNames t.session.currentPath := by
  obtain ⟨tr, t, hrun, hrest, hcurrent⟩ := exec_of_decide talkStep
    (Talk.start freshSession) twoListings
    (fun _ t => t.descending = false
      ∧ t.session.currentPath = ascii "a/b") (by decide +kernel)
  have hknown : t.session.currentPath ≠ unknownPath := by
    rw [hcurrent]
    decide
  exact ⟨tr, t, hrun, hcurrent,
    ((folder_cache_truthful freshSession hrun).1 hrest hknown).1⟩

/-- On the way to `telecom/msg`, with the phone in `telecom`, the session
still says that the phone is at the root. -/
theorem cache_stale_in_descent :
    ∃ tr t, Exec talkStep (Talk.start freshSession) tr t
      ∧ t.session.currentPath ≠ unknownPath
      ∧ t.session.currentPath = [] ∧ t.path = [ascii "telecom"]
      ∧ t.path ≠ pathNames t.session.currentPath := by
  exact exec_of_decide talkStep
    (Talk.start freshSession) [.call (.list (ascii "telecom/msg") 1 0),
      .outcome (.answered ⟨responseOK, []⟩)]
    (fun _ t => t.session.currentPath ≠ unknownPath
      ∧ t.session.currentPath = [] ∧ t.path = [ascii "telecom"]
      ∧ t.path ≠ pathNames t.session.currentPath) (by decide +kernel)

end Callbridge.MapClient
