/-
Which calls can panic.

Every header a call builds goes through `MustHeader`. All but one have a
size the code itself bounds; the names of a folder's parts are bounded by
the request they came in alone, and one of more than 32765 UTF-16 units
does not fit a header. So a call panics exactly if it gets as far as
asking for such a part (`Stumbles`).
-/
import Callbridge.MapClient.Proofs.Requests

namespace Callbridge.MapClient

open Lib
open Obex

-- == running into a panic

/-- Some answers of the phone lead the call into a panic. -/
def CanPanic (x : Session × Progress) : Prop :=
  ∃ answers, (converse x answers).2.2 = .panicked

theorem canPanic_panicked (s : Session) : CanPanic (s, .panicked) :=
  ⟨[], rfl⟩

theorem not_canPanic_finished (s : Session)
    (result : Except MapError Bytes) :
    ¬ CanPanic (s, .finished result) := by
  rintro ⟨answers, h⟩
  rw [converse_finished] at h
  cases h

theorem canPanic_request {s : Session} {opcode : UInt8} {payload : Bytes}
    {pending : Pending} : CanPanic (s, .request opcode payload pending)
      ↔ ∃ answer, CanPanic (s.resume pending answer) := by
  constructor
  · rintro ⟨answers, h⟩
    cases answers with
    | nil => cases h
    | cons answer answers => exact ⟨answer, answers, h⟩
  · rintro ⟨answer, answers, h⟩
    exact ⟨answer :: answers, h⟩

-- == bodies never panic

/-- By induction on the answers. -/
theorem Settled.not_canPanic {s : Session} {x : Session × Progress}
    (h : Settled s x) : ¬ CanPanic x := by
  rintro ⟨answers, hpanic⟩
  induction answers generalizing x with
  | nil =>
    rcases h with ⟨result, rfl⟩ | ⟨opcode, payload, pending, -, -, rfl⟩ <;>
      cases hpanic
  | cons answer answers ih =>
    rcases h with ⟨result, rfl⟩ | ⟨opcode, payload, pending, hp, -, rfl⟩
    · cases hpanic
    · exact ih (settled_resume s hp answer) hpanic

-- == the way to the folder

/-- Asking for these parts in turn comes to one whose name fits no header:
the SetPath for every part before it can be sent. -/
def Session.stumbles (s : Session) : List Bytes → Prop
  | [] => False
  | part :: rest =>
      maxNameLength < nameLength part
        ∨ s.closed = false ∧ 2 * nameLength part + 15 ≤ s.packetMax
          ∧ s.stumbles rest

theorem stumbles_withPath (s : Session) (path : Bytes)
    (parts : List Bytes) :
    (s.withPath path).stumbles parts ↔ s.stumbles parts := by
  induction parts with
  | nil => rfl
  | cons part rest ih =>
    simp only [Session.stumbles, ih]
    rfl

/-- The request for a part: its payload, or the panic. -/
theorem partHeaders_eq_none {s : Session} {part : Bytes} :
    s.partHeaders part = none ↔ maxNameLength < nameLength part := by
  rw [← nameHeader_eq_none, Session.partHeaders, connectionHeader_eq]
  cases hname : nameHeader headerName part with
  | none | some name =>
    rw [headerName] at hname
    simp [hname]

/-- The headers of a short name can be built. -/
theorem partHeaders_eq_some {s : Session} {part : Bytes}
    (h : nameLength part ≤ maxNameLength) :
    ∃ payload, s.partHeaders part = some payload
      ∧ payload.length = 2 * nameLength part + 12 := by
  obtain ⟨name, hname, hlen, -⟩ := nameHeader_eq_some h
  have hsome : s.partHeaders part = some ([0x02, 0x00]
      ++ (headerConnectionID :: bePutUint32 s.connection) ++ name) := by
    rw [Session.partHeaders, connectionHeader_eq, headerName, hname]
    rfl
  refine ⟨_, hsome, ?_⟩
  simp [hlen]
  omega

variable {s : Session} {folder : Bytes} {task : Task}

/-- An answer to a SetPath either ends the call or lets it go on to the
next part. -/
theorem canPanic_resume_descend {rest : List Bytes} :
    (∃ answer, CanPanic (s.resume (.descend folder rest task) answer))
      ↔ CanPanic (s.descend folder task rest) := by
  constructor
  · rintro ⟨answer, h⟩
    cases answer with
    | error e => exact absurd h (not_canPanic_finished _ _)
    | ok response =>
      simp only [Session.resume, Session.descendAnswered] at h
      split at h
      · exact absurd h (not_canPanic_finished _ _)
      · exact h
  · intro h
    refine ⟨.ok ⟨responseOK, []⟩, ?_⟩
    exact h

/-- The descent panics at the first long name it comes to. -/
theorem canPanic_descend (hfits : task.Fits) (parts : List Bytes) :
    CanPanic (s.descend folder task parts) ↔ s.stumbles parts := by
  induction parts with
  | nil =>
    have hnot := (settled_perform (s.withPath folder) hfits).not_canPanic
    simp only [Session.descend, Session.stumbles, iff_false]
    exact hnot
  | cons part rest ih =>
    simp only [Session.descend, Session.stumbles]
    by_cases hlong : maxNameLength < nameLength part
    · rw [partHeaders_eq_none.mpr hlong]
      exact iff_of_true (canPanic_panicked s) (Or.inl hlong)
    · obtain ⟨payload, hsome, hlen⟩ :=
        partHeaders_eq_some (s := s) (not_lt.mp hlong)
      rw [hsome]
      simp only [Session.requestHeaders, hlong, false_or]
      by_cases hsends : s.sends payload
      · have hsize := hsends.2
        rw [request_sent hsends, canPanic_request, canPanic_resume_descend,
          ih]
        constructor
        · intro h
          exact ⟨hsends.1, by omega, h⟩
        · exact fun h => h.2.2
      · obtain ⟨e, he⟩ := request_refused hsends opSetPath
          (.descend folder rest task)
        rw [he]
        refine iff_of_false (not_canPanic_finished _ _) ?_
        rintro ⟨hopen, hsize, -⟩
        exact hsends ⟨hopen, by omega⟩

/-- The way through the root. -/
theorem canPanic_root (hfits : task.Fits) {parts : List Bytes} :
    CanPanic (s.requestHeaders opSetPath s.rootHeaders
        (.root folder parts task))
      ↔ s.closed = false ∧ 10 ≤ s.packetMax ∧ s.stumbles parts := by
  rw [rootHeaders_eq]
  simp only [Session.requestHeaders]
  by_cases hsends : s.sends ([0x02, 0x00]
      ++ (headerConnectionID :: bePutUint32 s.connection))
  · rw [request_sent hsends, canPanic_request]
    constructor
    · rintro ⟨answer, h⟩
      cases answer with
      | error e => exact absurd h (not_canPanic_finished _ _)
      | ok response =>
        simp only [Session.resume, Session.rootAnswered] at h
        split at h
        · exact absurd h (not_canPanic_finished _ _)
        · rw [canPanic_descend hfits, stumbles_withPath] at h
          refine ⟨hsends.1, ?_, h⟩
          simpa using hsends.2
    · rintro ⟨-, -, h⟩
      refine ⟨.ok ⟨responseOK, []⟩, ?_⟩
      show CanPanic ((s.withPath []).descend folder task parts)
      rw [canPanic_descend hfits, stumbles_withPath]
      exact h
  · obtain ⟨e, he⟩ := request_refused hsends opSetPath
      (.root folder parts task)
    rw [he]
    refine iff_of_false (not_canPanic_finished _ _) ?_
    rintro ⟨hopen, hsize, -⟩
    exact hsends ⟨hopen, by simpa using hsize⟩

/-- A call for this folder reaches a part whose name fits no header. -/
def Session.stumblesOn (s : Session) (folder : Bytes) : Prop :=
  let parts := splitByte 0x2f (trimByte 0x2f folder)
  parts.any refusedPart = false
    ∧ trimByte 0x2f folder ≠ s.currentPath
    ∧ (s.currentPath = [] ∨ s.closed = false ∧ 10 ≤ s.packetMax)
    ∧ s.stumbles parts

/-- The way to the folder panics in its descent alone. -/
theorem canPanic_gotoFolder (hfits : task.Fits) :
    CanPanic (s.gotoFolder folder task) ↔ s.stumblesOn folder := by
  unfold Session.gotoFolder Session.stumblesOn
  simp only []
  split
  case isTrue hrefused =>
    refine iff_of_false (not_canPanic_finished _ _) ?_
    rintro ⟨haccepted, -⟩
    rw [hrefused] at haccepted
    cases haccepted
  case isFalse haccepted =>
    split
    case isTrue hhere =>
      refine iff_of_false (settled_perform s hfits).not_canPanic ?_
      exact fun h => h.2.1 hhere
    case isFalse haway =>
      split
      case isTrue hroot =>
        rw [canPanic_descend hfits]
        constructor
        · intro h
          exact ⟨Bool.eq_false_iff.mpr haccepted, haway, Or.inl hroot, h⟩
        · exact fun h => h.2.2.2
      case isFalse hdeep =>
        rw [canPanic_root hfits]
        constructor
        · rintro ⟨hopen, hsize, h⟩
          exact ⟨Bool.eq_false_iff.mpr haccepted, haway,
            Or.inr ⟨hopen, hsize⟩, h⟩
        · rintro ⟨-, -, hroot | ⟨hopen, hsize⟩, h⟩
          · exact absurd hroot hdeep
          · exact ⟨hopen, hsize, h⟩

-- == the calls

/-- `Keepalive` builds no name. -/
theorem canPanic_keepalive : ¬ CanPanic s.keepalive := by
  rw [Session.keepalive, rootHeaders_eq]
  simp only [Session.requestHeaders]
  by_cases hsends : s.sends ([0x02, 0x00]
      ++ (headerConnectionID :: bePutUint32 s.connection))
  · rw [request_sent hsends, canPanic_request]
    rintro ⟨answer, h⟩
    cases answer with
    | error e => exact not_canPanic_finished _ _ h
    | ok response =>
      simp only [Session.resume, Session.rootAnswered] at h
      split at h <;> exact not_canPanic_finished _ _ h
  · obtain ⟨e, he⟩ := request_refused hsends opSetPath .keepalive
    rw [he]
    exact not_canPanic_finished _ _

/-- The call passes its own checks and reaches a part whose name fits no
header. -/
def Session.Stumbles (s : Session) : Call → Prop
  | .keepalive => False
  | .list folder maximum offset =>
      (1 ≤ maximum ∧ maximum ≤ 500 ∧ 0 ≤ offset ∧ offset ≤ 65535)
        ∧ s.stumblesOn folder
  | .get folder handle => safeHandle handle = true ∧ s.stumblesOn folder
  | .push folder body _ _ =>
      (body ≠ [] ∧ body.length ≤ maxPushedBody) ∧ s.stumblesOn folder

/-- A call can panic exactly if it stumbles. -/
theorem canPanic_call (s : Session) (call : Call) :
    CanPanic (s.call call) ↔ s.Stumbles call := by
  cases call with
  | keepalive => exact iff_of_false canPanic_keepalive id
  | list folder maximum offset =>
    simp only [Session.call, Session.listMessages, Session.Stumbles]
    split
    case isTrue hbad =>
      -- the check refuses before anything is encoded
      refine iff_of_false (not_canPanic_finished _ _) ?_
      rintro ⟨hbounds, -⟩
      omega
    case isFalse hgood =>
      have hfits : (Task.list maximum.toNat offset.toNat).Fits := trivial
      rw [canPanic_gotoFolder hfits]
      constructor
      · intro h
        exact ⟨by omega, h⟩
      · exact And.right
  | get folder handle =>
    simp only [Session.call, Session.getMessage, Session.Stumbles]
    split
    case isTrue hbad =>
      refine iff_of_false (not_canPanic_finished _ _) ?_
      rintro ⟨hgood, -⟩
      rw [hbad] at hgood
      cases hgood
    case isFalse hgood =>
      have hsafe := Bool.eq_true_of_not_eq_false hgood
      rw [canPanic_gotoFolder (fits_of_safeHandle hsafe)]
      constructor
      · intro h
        exact ⟨hsafe, h⟩
      · exact And.right
  | push folder body transparent retry =>
    simp only [Session.call, Session.pushBMessage, Session.Stumbles]
    split
    case isTrue hbad =>
      refine iff_of_false (not_canPanic_finished _ _) ?_
      rintro ⟨⟨hbody, hsize⟩, -⟩
      rcases hbad with h | h
      · exact hbody h
      · omega
    case isFalse hgood =>
      rw [not_or, not_lt] at hgood
      have hfits : (Task.push body transparent retry).Fits := trivial
      rw [canPanic_gotoFolder hfits]
      constructor
      · intro h
        exact ⟨hgood, h⟩
      · exact And.right

-- == the theorem

/-- The parts of the folder a call is for. -/
def Call.parts : Call → List Bytes
  | .keepalive => []
  | .list folder _ _ => splitByte 0x2f (trimByte 0x2f folder)
  | .get folder _ => splitByte 0x2f (trimByte 0x2f folder)
  | .push folder _ _ _ => splitByte 0x2f (trimByte 0x2f folder)

theorem not_stumbles_of_short {parts : List Bytes}
    (h : ∀ part ∈ parts, nameLength part ≤ maxNameLength) :
    ¬ s.stumbles parts := by
  induction parts with
  | nil => exact id
  | cons part rest ih =>
    rintro (hlong | ⟨-, -, hrest⟩)
    · have hshort := h part List.mem_cons_self
      omega
    · exact ih (fun p hp => h p (List.mem_cons_of_mem _ hp)) hrest

theorem stumbles_parts {call : Call} (h : s.Stumbles call) :
    s.stumbles call.parts := by
  cases call with
  | keepalive => exact h
  | list folder maximum offset | get folder handle
  | push folder body transparent retry => exact h.2.2.2.2

/-- A call does not panic, whatever the phone answers, exactly if it does
not come to a part of its folder with a name over 32765 units; where the
folder has no such part, it does not panic in any session. -/
theorem call_never_panics_iff (s : Session) (call : Call) :
    ((∀ answers, (converse (s.call call) answers).2.2 ≠ .panicked)
        ↔ ¬ s.Stumbles call)
      ∧ ((∀ part ∈ call.parts, nameLength part ≤ maxNameLength) →
        ¬ s.Stumbles call) := by
  constructor
  · rw [← canPanic_call, CanPanic, not_exists]
  · intro hshort hstumbles
    exact not_stumbles_of_short hshort (stumbles_parts hstumbles)

-- == a long folder

theorem trimByte_replicate {b c : UInt8} (h : c ≠ b) (n : Nat) :
    trimByte b (List.replicate n c) = List.replicate n c := by
  have hdrop : (List.replicate n c).dropWhile (· == b)
      = List.replicate n c := by
    cases n with
    | zero => rfl
    | succ n =>
      rw [List.replicate_succ,
        List.dropWhile_cons_of_neg (by simpa using h)]
  rw [trimByte, hdrop, List.reverse_replicate, hdrop,
    List.reverse_replicate]

theorem splitByte_replicate {b c : UInt8} (h : c ≠ b) (n : Nat) :
    splitByte b (List.replicate n c) = [List.replicate n c] := by
  refine List.splitOn_eq_singleton ?_
  intro hmem
  exact h (List.eq_of_mem_replicate hmem).symm

theorem nameLength_letters (n : Nat) :
    nameLength (List.replicate n 0x61) = n := by
  induction n with
  | zero => rfl
  | succ n ih =>
    have hrunes : runes (0x61 :: List.replicate n 0x61)
        = 'a' :: runes (List.replicate n 0x61) :=
      runes_encode_append 'a' _
    unfold nameLength at ih ⊢
    rw [List.replicate_succ, hrunes, utf16Encode_cons, List.length_append,
      ih]
    show 1 + n = n + 1
    omega

theorem refusedPart_letters {n : Nat} (h : 3 ≤ n) :
    refusedPart (List.replicate n 0x61) = false := by
  obtain ⟨k, rfl⟩ : ∃ k, n = k + 3 := ⟨n - 3, by omega⟩
  have hany : (List.replicate (k + 3) (0x61 : UInt8)).any
      (fun b => [0x00, 0x0d, 0x0a].contains b) = false := by
    rw [List.any_replicate, if_neg (by omega)]
    decide
  rw [refusedPart, hany]
  simp [List.replicate_succ]

/-- A push into a folder whose name is 32766 letters, in a session as
`Connect` leaves it: the first thing it does is panic. -/
theorem long_folder_panics :
    ¬ ∀ answers, (converse (freshSession.call
      (.push (List.replicate 32766 0x61) [0x78] false true))
      answers).2.2 ≠ .panicked := by
  have hstumbles : freshSession.Stumbles
      (.push (List.replicate 32766 0x61) [0x78] false true) := by
    refine ⟨⟨by decide, by decide⟩, ?_, ?_, Or.inl rfl, ?_⟩
    · rw [trimByte_replicate (by decide), splitByte_replicate (by decide),
        List.any_cons, refusedPart_letters (by omega)]
      rfl
    · rw [trimByte_replicate (by decide), List.replicate_succ]
      exact List.cons_ne_nil _ _
    · rw [trimByte_replicate (by decide), splitByte_replicate (by decide)]
      refine Or.inl ?_
      rw [nameLength_letters]
      exact Nat.lt_succ_self _
  obtain ⟨answers, hpanic⟩ := (canPanic_call _ _).mpr hstumbles
  exact fun h => h answers hpanic

end Callbridge.MapClient
