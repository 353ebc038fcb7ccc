/-
Control results reach the command they answer. `pending` is keyed by
opcode and call index alone; as long as no command is entered over
another, every command on its way has its own entry there (`Matched`), and
the result that answers it is passed on with its token. An Originate is
refused while another waits.
-/
import Callbridge.Lib.Custody
import Callbridge.Gtbs.Exchange
import Callbridge.Gtbs.Proofs.Wire

namespace Callbridge.Gtbs

open Lib Protocol

variable {s s' : Exchange} {c c' : Client} {m m' : Message} {act : ExchangeAct}
  {out : List ResultCall} {store : Store}

-- == commands under way

def Commanding.message : Commanding → Option Message
  | .validated m | .looked m | .registered m | .failed m => some m
  | .returned => none

/-- The command, once it is entered in `pending`. -/
def Commanding.entered : Commanding → Option Message
  | .registered m | .failed m => some m
  | _ => none

/-- The commands that are entered in `pending`, or were when they were
written. -/
def Exchange.waiting (s : Exchange) : List Message :=
  s.commands.filterMap Commanding.entered ++ s.written

/-- What a command waits under: all Originates under one flag, any other
under its key. -/
def slot (m : Message) : Option (UInt8 × UInt8) :=
  if m.code = opcodeOriginate then none else some (commandKey m)

/-- What the client has under a slot. -/
def Client.entry (c : Client) : Option (UInt8 × UInt8) → Option UInt64
  | none => if c.pendingOriginate then some 0 else none
  | some key => c.pending.lookup key

/-- The entry of a command. -/
def entryOf (m : Message) : UInt64 :=
  if m.code = opcodeOriginate then 0 else m.token

theorem slot_originate (h : m.code = opcodeOriginate) : slot m = none :=
  if_pos h

theorem slot_indexed (h : m.code ≠ opcodeOriginate) :
    slot m = some (commandKey m) :=
  if_neg h

/-- What `Command` has checked of a command. -/
structure Checked (m : Message) : Prop where
  code_le : m.code ≤ opcodeJoin
  indexed : m.code ≠ opcodeOriginate → m.index ≠ 0 ∧ m.token ≠ 0

/-- An indexed command that is let through names a live call and has one
of four opcodes. -/
theorem validateIndexedCommand_true {index opcode : UInt8} {token : UInt64}
    (h : store.validateIndexedCommand index token opcode = true) :
    (∃ call, store.calls.lookup index = some call) ∧ token ≠ 0
      ∧ opcode ≤ opcodeJoin := by
  unfold Store.validateIndexedCommand at h
  split at h
  case h_1 => cases h
  case h_2 call hcall =>
    split at h
    case isTrue => cases h
    case isFalse htok =>
      refine ⟨⟨call, hcall⟩, (not_or.mp htok).1, ?_⟩
      by_contra hgt
      have hother : ∀ known, known ≤ opcodeJoin → opcode ≠ known := by
        rintro known hle rfl
        exact hgt hle
      rw [if_neg (hother opcodeAccept (by decide)),
        if_neg (hother opcodeTerminate (by decide)),
        if_neg (hother opcodeLocalHold (by decide)),
        if_neg (hother opcodeLocalRetrieve (by decide))] at h
      cases h

/-- What `Command` lets through has passed its checks. -/
theorem checked_of_refused (hs : Sendable store)
    (h : c.refused store m = none) : Checked m := by
  unfold Client.refused at h
  split at h
  case isTrue => cases h
  case isFalse =>
    split at h
    case isTrue horig =>
      refine ⟨?_, fun hne => absurd horig hne⟩
      rw [horig]
      decide
    case isFalse =>
      split at h
      case isFalse => cases h
      case isTrue hvalid =>
        obtain ⟨⟨call, hcall⟩, htok, hcode⟩ :=
          validateIndexedCommand_true hvalid
        exact ⟨hcode, fun _ =>
          ⟨hs.index_eq hcall ▸ (hs.call_ok hcall).1.index_ne, htok⟩⟩

-- == the client's entries

/-- Registering enters the command under its own key. -/
theorem entry_register (h : c.register m = some c')
    (k : Option (UInt8 × UInt8)) :
    c'.entry k = if k = slot m then some (entryOf m) else c.entry k := by
  unfold Client.register at h
  split at h
  case isTrue horig =>
    split at h
    case isTrue => cases h
    case isFalse =>
      cases h
      rw [slot_originate horig, entryOf, if_pos horig]
      cases k with
      | none | some key => rfl
  case isFalse hm =>
    cases h
    rw [slot_indexed hm, entryOf, if_neg hm]
    cases k with
    | none => rfl
    | some key => simp [Client.entry, GoMap.lookup_insert]

/-- A write that failed takes back no other command's entry. -/
theorem entry_unregister {k : Option (UInt8 × UInt8)} (hk : k ≠ slot m) :
    (c.unregister m).entry k = c.entry k := by
  unfold Client.unregister
  split
  case isTrue horig =>
    rw [slot_originate horig] at hk
    cases k with
    | none => exact absurd rfl hk
    | some key => rfl
  case isFalse hm =>
    rw [slot_indexed hm] at hk
    split
    case isFalse => rfl
    case isTrue =>
      cases k with
      | none => rfl
      | some key =>
        show (c.pending.erase (commandKey m)).lookup key = _
        rw [GoMap.lookup_erase, if_neg fun he => hk (by rw [he])]
        rfl

/-- The value the phone answers a command with. -/
def answerTo (m : Message) (index result : UInt8) : Bytes :=
  [m.code, resultIndex m index, result]

/-- What handling a command's result comes to, valid or not. -/
theorem handleControlResult_answerTo (c : Client) (store : Store)
    (index result : UInt8) (hm : Checked m) :
    c.handleControlResult store (answerTo m index result)
      = if validResult result = false then (.error .invalid, c)
        else if m.code = opcodeOriginate then
          if c.pendingOriginate then
            (.ok (m.code, index, result, (store.tokenForIndex index).1),
              { c with pendingOriginate := false })
          else (.error .unexpectedOriginate,
            { c with pendingOriginate := false })
        else if (c.pending.lookup (commandKey m)).getD 0 = 0 then
          (.error .unexpectedIndexed,
            { c with pending := c.pending.erase (commandKey m) })
        else
          (.ok (m.code, m.index, result,
              (c.pending.lookup (commandKey m)).getD 0),
            { c with pending := c.pending.erase (commandKey m) }) := by
  have hcode : ¬ m.code > opcodeJoin := UInt8.not_lt.mpr hm.code_le
  have hguard : (m.code > opcodeJoin
      ∨ (m.code ≠ opcodeOriginate ∧ resultIndex m index = 0)
      ∨ validResult result = false) ↔ validResult result = false := by
    constructor
    · rintro (h | ⟨horig, h⟩ | h)
      · exact absurd h hcode
      · rw [resultIndex, if_neg horig] at h
        exact absurd h (hm.indexed horig).1
      · exact h
    · exact fun h => Or.inr (Or.inr h)
  unfold answerTo Client.handleControlResult
  simp only [hguard]
  by_cases horig : m.code = opcodeOriginate
  · rw [show resultIndex m index = index from if_pos horig]
    simp only [if_pos horig]
  · rw [show resultIndex m index = m.index from if_neg horig]
    simp only [if_neg horig]
    rfl

/-- The result of a command that has its entry is passed on, with its
token. -/
theorem answer_passed_on (store : Store) {index result : UInt8}
    (hm : Checked m) (hw : c.entry (slot m) = some (entryOf m))
    (hr : validResult result = true) :
    ∃ token c', c.handleControlResult store (answerTo m index result)
        = (.ok (m.code, resultIndex m index, result, token), c')
      ∧ (m.code ≠ opcodeOriginate → token = m.token) := by
  rw [handleControlResult_answerTo c store index result hm,
    if_neg (by simp [hr])]
  by_cases horig : m.code = opcodeOriginate
  · rw [slot_originate horig] at hw
    have hpending : c.pendingOriginate = true := by
      by_contra hno
      rw [Client.entry, if_neg hno] at hw
      cases hw
    rw [if_pos horig, if_pos hpending, resultIndex, if_pos horig]
    exact ⟨_, _, rfl, fun hne => absurd horig hne⟩
  · rw [slot_indexed horig, entryOf, if_neg horig] at hw
    have hfound : (c.pending.lookup (commandKey m)).getD 0 = m.token :=
      congrArg (Option.getD · 0) hw
    rw [if_neg horig, hfound, if_neg (hm.indexed horig).2, resultIndex,
      if_neg horig]
    exact ⟨_, _, rfl, fun _ => rfl⟩

/-- It takes no other command's entry along. -/
theorem entry_answered (store : Store) (index result : UInt8)
    (hm : Checked m) {k : Option (UInt8 × UInt8)} (hk : k ≠ slot m) :
    (c.handleControlResult store (answerTo m index result)).2.entry k
      = c.entry k := by
  rw [handleControlResult_answerTo c store index result hm]
  split
  case isTrue => rfl
  case isFalse =>
    split
    case isTrue horig =>
      rw [slot_originate horig] at hk
      cases k with
      | none => exact absurd rfl hk
      | some key => split <;> rfl
    case isFalse horig =>
      rw [slot_indexed horig] at hk
      cases k with
      | none => split <;> rfl
      | some key =>
        have herase : (c.pending.erase (commandKey m)).lookup key
            = c.pending.lookup key := by
          rw [GoMap.lookup_erase, if_neg fun he => hk (by rw [he])]
        split <;> exact herase

-- == the moves

/-- What a step does to the client and to the commands that wait. -/
inductive ExchangeMove (s : Exchange) :
    ExchangeAct → Exchange → List ResultCall → Prop
  /-- No entry changes. -/
  | kept {act : ExchangeAct} {s' : Exchange} :
      (∀ index result, act ≠ .answer index result) →
      s'.client.entry = s.client.entry → s'.waiting.Perm s.waiting →
      ExchangeMove s act s' []
  | entered (id : Nat) {m : Message} {client : Client} {s' : Exchange} :
      s.commands[id]? = some (.looked m) →
      s.client.register m = some client → s'.client = client →
      s'.waiting.Perm (m :: s.waiting) →
      ExchangeMove s (.register id) s' []
  | removed (id : Nat) {m : Message} {s' : Exchange} :
      s'.client = s.client.unregister m →
      s.waiting.Perm (m :: s'.waiting) →
      ExchangeMove s (.cleanup id) s' []
  | answered (index result : UInt8) {m : Message} {rest : List Message}
      {s' : Exchange} {out : List ResultCall} :
      s.written = m :: rest → s'.written = rest →
      s'.client = (s.client.handleControlResult s.store
        (answerTo m index result)).2 →
      (∀ {call}, (s.client.handleControlResult s.store
        (answerTo m index result)).1 = .ok call → out = [call]) →
      s.waiting.Perm (m :: s'.waiting) →
      ExchangeMove s (.answer index result) s' out

/-- One call of `Command` moves on. -/
theorem waiting_goto {id : Nat} {a : Commanding}
    (h : s.commands[id]? = some a) (b : Commanding) (client : Client) :
    (a.entered.toList ++ ((s.withClient client).goto id b).waiting).Perm
      (b.entered.toList ++ s.waiting) := by
  have hset := flatMap_set_perm (fun c => (Commanding.entered c).toList) h b
  rw [← List.filterMap_eq_flatMap_toList,
    ← List.filterMap_eq_flatMap_toList] at hset
  unfold Exchange.waiting
  rw [← List.append_assoc, ← List.append_assoc]
  exact hset.append_right _

/-- Every step is one of the moves. -/
theorem ExchangeMove.of_step (h : exchangeStep s act = some (s', out)) :
    ExchangeMove s act s' out := by
  cases act with
  | store op =>
    cases h
    exact .kept nofun rfl (List.Perm.refl _)
  | ready up =>
    cases h
    exact .kept nofun (funext fun k => by cases k <;> rfl) (List.Perm.refl _)
  | command m =>
    simp only [exchangeStep] at h
    split at h
    case h_1 =>
      cases h
      exact .kept nofun rfl (List.Perm.refl _)
    case h_2 =>
      cases h
      refine .kept nofun rfl ?_
      unfold Exchange.waiting
      rw [List.filterMap_append, show [Commanding.validated m].filterMap
        Commanding.entered = [] from rfl, List.append_nil]
  | look id =>
    simp only [exchangeStep] at h
    split at h
    case h_2 => cases h
    case h_1 m hget =>
      split at h <;> cases h <;>
        exact .kept nofun rfl (waiting_goto hget _ s.client)
  | register id =>
    simp only [exchangeStep] at h
    split at h
    case h_2 => cases h
    case h_1 m hget =>
      split at h
      case h_1 =>
        cases h
        exact .kept nofun rfl (waiting_goto hget .returned s.client)
      case h_2 client hreg =>
        cases h
        exact .entered id hget hreg rfl
          (waiting_goto hget (.registered m) client)
  | write id ok =>
    simp only [exchangeStep] at h
    split at h
    case h_2 => cases h
    case h_1 m hget =>
      split at h
      case isTrue =>
        cases h
        refine .kept nofun rfl ?_
        -- the command moves from the entered ones to the written ones
        have hgone := waiting_goto hget .returned s.client
        have hsent : Exchange.waiting { s.goto id .returned with
            written := s.written ++ [m] }
            = (s.goto id .returned).waiting ++ [m] := by
          simp [Exchange.waiting, Exchange.goto]
        rw [hsent]
        exact List.perm_append_comm.trans hgone
      case isFalse =>
        cases h
        refine .kept nofun rfl ?_
        -- a failed write still holds its entry until the cleanup
        exact (List.perm_cons m).mp
          (waiting_goto hget (.failed m) s.client)
  | cleanup id =>
    simp only [exchangeStep] at h
    split at h
    case h_2 => cases h
    case h_1 m hget =>
      cases h
      exact .removed id rfl (waiting_goto hget .returned _).symm
  | answer index result =>
    simp only [exchangeStep] at h
    split at h
    case h_1 => cases h
    case h_2 m rest hwritten =>
      -- answers come in the order of the writes
      have hperm : s.waiting.Perm
          (m :: (s.commands.filterMap Commanding.entered ++ rest)) := by
        unfold Exchange.waiting
        rw [hwritten]
        exact List.perm_middle
      split at h
      case h_1 call client hres =>
        cases h
        refine .answered index result hwritten rfl ?_ ?_ hperm
        · rw [answerTo, hres]
          rfl
        · intro call' hcall
          rw [answerTo, hres] at hcall
          cases hcall
          rfl
      case h_2 e client hres =>
        cases h
        refine .answered index result hwritten rfl ?_ ?_ hperm
        · rw [answerTo, hres]
          rfl
        · intro call' hcall
          rw [answerTo, hres] at hcall
          cases hcall

-- == the invariant

/-- Every command on its way has an entry of its own. -/
structure Matched (s : Exchange) : Prop where
  entry : ∀ {m}, m ∈ s.waiting → s.client.entry (slot m) = some (entryOf m)
  apart : (s.waiting.map slot).Nodup

/-- Of two commands on their way neither waits where the other does. -/
theorem apart_of_perm {ms ms' : List Message} (hp : ms.Perm (m :: ms'))
    (h : (ms.map slot).Nodup) :
    (ms'.map slot).Nodup ∧ ∀ {m'}, m' ∈ ms' → slot m' ≠ slot m := by
  have hcons := (hp.map slot).nodup_iff.mp h
  rw [List.map_cons, List.nodup_cons] at hcons
  exact ⟨hcons.2, fun hm' he => hcons.1 (he ▸ List.mem_map_of_mem hm')⟩

/-- The command a step is about to enter in `pending`. -/
def Exchange.enters (s : Exchange) : ExchangeAct → Option Message
  | .register id =>
      match s.commands[id]? with
      | some (.looked m) => some m
      | _ => none
  | _ => none

/-- An indexed command is entered only where nothing is entered. -/
def Undoubled (x : ExchangeTrans) : Prop :=
  ∀ m ∈ x.pre.enters x.act, m.code ≠ opcodeOriginate →
    x.pre.client.pending.lookup (commandKey m) = none

instance : DecidablePred Undoubled := fun x =>
  inferInstanceAs (Decidable (∀ m ∈ x.pre.enters x.act, _ → _))

theorem entry_fresh (h : c.register m = some c')
    (hnew : m.code ≠ opcodeOriginate →
      c.pending.lookup (commandKey m) = none) :
    c.entry (slot m) = none := by
  unfold Client.register at h
  split at h
  case isTrue horig =>
    split at h
    case isTrue => cases h
    case isFalse hno =>
      rw [slot_originate horig]
      exact if_neg hno
  case isFalse hm =>
    rw [slot_indexed hm]
    exact hnew hm

/-- Every move keeps each command with its entry. -/
theorem ExchangeMove.matched {x : ExchangeTrans} (hm : Matched x.pre)
    (hnew : Undoubled x) (hchecked : ∀ {m}, m ∈ x.pre.waiting → Checked m)
    (h : ExchangeMove x.pre x.act x.post x.out) : Matched x.post := by
  obtain ⟨s, act, out, s'⟩ := x
  cases h with
  | kept _ hentry hperm =>
    refine ⟨fun hmem => ?_, (hperm.map slot).nodup_iff.mpr hm.apart⟩
    rw [hentry]
    exact hm.entry (hperm.mem_iff.mp hmem)
  | @entered id m client _ hget hreg hclient hperm =>
    have henters : s.enters (.register id) = some m := by
      simp only [Exchange.enters, hget]
    have hfree := entry_fresh hreg (hnew m henters)
    -- the slot was free, so no waiting command has it
    have hapart : ∀ {m'}, m' ∈ s.waiting → slot m' ≠ slot m := by
      intro m' hmem he
      have hthere := hm.entry hmem
      rw [he, hfree] at hthere
      cases hthere
    refine ⟨fun {m'} hmem => ?_, (hperm.map slot).nodup_iff.mpr ?_⟩
    · rw [hclient, entry_register hreg]
      rcases List.mem_cons.mp (hperm.mem_iff.mp hmem) with rfl | hmem
      · rw [if_pos rfl]
      · rw [if_neg (hapart hmem)]
        exact hm.entry hmem
    · rw [List.map_cons, List.nodup_cons]
      refine ⟨fun hmem => ?_, hm.apart⟩
      obtain ⟨m', hmem, he⟩ := List.mem_map.mp hmem
      exact hapart hmem he
  | @removed _ m _ hclient hperm =>
    obtain ⟨hnodup, hapart⟩ := apart_of_perm hperm hm.apart
    refine ⟨fun hmem => ?_, hnodup⟩
    -- the other commands wait under other slots
    rw [hclient, entry_unregister (hapart hmem)]
    exact hm.entry (hperm.mem_iff.mpr (List.mem_cons_of_mem _ hmem))
  | @answered index result m rest _ _ _ _ hclient _ hperm =>
    obtain ⟨hnodup, hapart⟩ := apart_of_perm hperm hm.apart
    have hm₀ := hchecked (hperm.mem_iff.mpr List.mem_cons_self)
    refine ⟨fun hmem => ?_, hnodup⟩
    rw [hclient, entry_answered _ _ _ hm₀ (hapart hmem)]
    exact hm.entry (hperm.mem_iff.mpr (List.mem_cons_of_mem _ hmem))

/-- What is known of the store and of the commands, whatever is entered
over what. -/
structure ExchangeInv (s : Exchange) : Prop where
  sendable : Sendable s.store
  commands : ∀ {c m}, c ∈ s.commands → c.message = some m → Checked m
  written : ∀ {m}, m ∈ s.written → Checked m

theorem ExchangeInv.waiting (h : ExchangeInv s) (hm : m ∈ s.waiting) :
    Checked m := by
  rcases List.mem_append.mp hm with hm | hm
  · obtain ⟨c, hc, he⟩ := List.mem_filterMap.mp hm
    refine h.commands hc ?_
    cases c <;> first | exact he | cases he
  · exact h.written hm

/-- A call of `Command` goes on with the message it had, or returns. -/
theorem ExchangeInv.goto (h : ExchangeInv s) {id : Nat} {a : Commanding}
    (hget : s.commands[id]? = some a) (b : Commanding)
    (hb : b.message = none ∨ b.message = a.message) (client : Client) :
    ExchangeInv ((s.withClient client).goto id b) := by
  refine ⟨h.sendable, fun {c m} hc hm => ?_, h.written⟩
  rcases List.mem_or_eq_of_mem_set hc with hc | rfl
  · exact h.commands hc hm
  · rcases hb with hb | hb
    · rw [hb] at hm
      cases hm
    · exact h.commands (List.mem_of_getElem? hget) (hb ▸ hm)

/-- Every step keeps the invariant. -/
theorem step_exchangeInv (hinv : ExchangeInv s)
    (h : exchangeStep s act = some (s', out)) : ExchangeInv s' := by
  cases act with
  | store op =>
    cases h
    exact ⟨hinv.sendable.exec op, hinv.commands, hinv.written⟩
  | ready up =>
    cases h
    exact ⟨hinv.sendable, hinv.commands, hinv.written⟩
  | command m =>
    simp only [exchangeStep] at h
    split at h
    case h_1 =>
      cases h
      exact hinv
    case h_2 href =>
      cases h
      refine ⟨hinv.sendable, fun hc hm => ?_, hinv.written⟩
      rcases List.mem_append.mp hc with hc | hc
      · exact hinv.commands hc hm
      · rw [List.mem_singleton.mp hc] at hm
        cases hm
        -- validated against a store that can send
        exact checked_of_refused hinv.sendable href
  | look id =>
    simp only [exchangeStep] at h
    split at h
    case h_2 => cases h
    case h_1 m hget =>
      split at h
      case isTrue =>
        cases h
        exact hinv.goto hget (.looked m) (Or.inr rfl) s.client
      case isFalse =>
        cases h
        exact hinv.goto hget .returned (Or.inl rfl) s.client
  | register id =>
    simp only [exchangeStep] at h
    split at h
    case h_2 => cases h
    case h_1 m hget =>
      split at h
      case h_1 =>
        cases h
        exact hinv.goto hget .returned (Or.inl rfl) s.client
      case h_2 client _ =>
        cases h
        exact hinv.goto hget (.registered m) (Or.inr rfl) client
  | write id ok =>
    simp only [exchangeStep] at h
    split at h
    case h_2 => cases h
    case h_1 m hget =>
      split at h
      case isTrue =>
        cases h
        have hgoto := hinv.goto hget .returned (Or.inl rfl) s.client
        refine ⟨hinv.sendable, hgoto.commands, fun hm => ?_⟩
        rcases List.mem_append.mp hm with hm | hm
        · exact hinv.written hm
        · rw [List.mem_singleton.mp hm]
          exact hinv.commands (List.mem_of_getElem? hget) rfl
      case isFalse =>
        cases h
        exact hinv.goto hget (.failed m) (Or.inr rfl) s.client
  | cleanup id =>
    simp only [exchangeStep] at h
    split at h
    case h_2 => cases h
    case h_1 m hget =>
      cases h
      exact hinv.goto hget .returned (Or.inl rfl) _
  | answer index result =>
    simp only [exchangeStep] at h
    split at h
    case h_1 => cases h
    case h_2 m rest hwritten =>
      have hrest : ∀ {m'}, m' ∈ rest → Checked m' := fun hm =>
        hinv.written (hwritten ▸ List.mem_cons_of_mem _ hm)
      split at h <;> cases h <;>
        exact ⟨hinv.sendable, hinv.commands, hrest⟩

-- == the runs

def ExchangeAct.result : ExchangeAct → Option UInt8
  | .answer _ result => some result
  | _ => none

/-- The phone's result code is one the client knows. -/
def KnownResult (x : ExchangeTrans) : Prop :=
  ∀ result ∈ x.act.result, validResult result = true

instance : DecidablePred KnownResult := fun x =>
  inferInstanceAs (Decidable (∀ result ∈ x.act.result, _ = _))

theorem newExchange_inv (hs : Sendable store) (client : Client)
    (control : Bool) :
    ExchangeInv (newExchange store client control)
      ∧ Matched (newExchange store client control) :=
  ⟨⟨hs, nofun, nofun⟩, ⟨nofun, List.nodup_nil⟩⟩

/-- Both, over every run without a doubled command. -/
theorem run_matched (hs : Sendable store) (client : Client) (control : Bool)
    {tr : List ExchangeTrans}
    (hrun : Exec exchangeStep (newExchange store client control) tr s)
    (hnew : ∀ x ∈ tr, Undoubled x) : ExchangeInv s ∧ Matched s := by
  refine hrun.inv_of (P := fun s => ExchangeInv s ∧ Matched s)
    (G := Undoubled) (newExchange_inv hs client control) ?_ hnew
  intro x ⟨hinv, hm⟩ hnew hstep
  exact ⟨step_exchangeInv hinv hstep,
    (ExchangeMove.of_step hstep).matched hm hnew hinv.waiting⟩

/-- For every interleaving, within one session, of calls of `Command`, the
store's methods and the phone's results, in which no command is entered
over another and every result code is one the client knows: each result
the client handles leads to one Result callback and no more, and where it
answers an indexed command the token is that command's. -/
theorem results_reach_commands {now : UInt64} {past : List StoreTrans}
    {store : Store} (hstore : Exec storeStep (newStore now) past store)
    (client : Client) (control : Bool) {tr : List ExchangeTrans}
    (hrun : Exec exchangeStep (newExchange store client control) tr s)
    (hnew : ∀ x ∈ tr, Undoubled x ∧ KnownResult x) :
    ∀ x ∈ tr, ∀ index result, x.act = .answer index result →
      ∃ m rest token, x.pre.written = m :: rest ∧ x.post.written = rest
        ∧ x.out = [(m.code, resultIndex m index, result, token)]
        ∧ (m.code ≠ opcodeOriginate → token = m.token) := by
  intro x hx index result hact
  obtain ⟨t₁, t₂, rfl, hpre, hstep, -⟩ := hrun.of_mem hx
  obtain ⟨hinv, hm⟩ := run_matched (run_sendable hstore) client control hpre
    fun y hy => (hnew y (List.mem_append_left _ hy)).1
  have hknown := (hnew x hx).2
  obtain ⟨pre, act, out, post⟩ := x
  subst hact
  have hr : validResult result = true := hknown result rfl
  cases ExchangeMove.of_step hstep with
  | @answered _ _ m rest _ _ hwritten hrest _ hout hperm =>
    have hmem : m ∈ pre.waiting :=
      hperm.mem_iff.mpr List.mem_cons_self
    obtain ⟨token, c', hres, htoken⟩ := answer_passed_on pre.store
      (hinv.waiting hmem) (hm.entry hmem) hr
    exact ⟨m, rest, token, hwritten, hrest, hout (by rw [hres]), htoken⟩
  | kept hact _ _ => exact absurd rfl (hact index result)

/-- A command for a call, from the control socket. -/
def commandFor (code index : UInt8) (token : UInt64) : Message where
  type := typeCommand
  flags := 0
  sequence := 1
  token := token
  device := upperAddress [0, 0x11, 0x22, 0x33, 0x44, 0x55]
  index := index
  code := code
  value := 0
  payload := []

/-- The steps of a call of `Command` whose write succeeds. -/
def commanding (id : Nat) (m : Message) : List ExchangeAct :=
  [.command m, .look id, .register id, .write id true]

/-- The store while one call rings, with token 8. -/
def oneRinging : Store := (newStore 7).exec (.apply [1, 0, 0])

def ofDevice : Client :=
  newClient (upperAddress [0, 0x11, 0x22, 0x33, 0x44, 0x55])

/-- An Accept and a Terminate for one call, both written before either is
answered. -/
def acceptThenTerminate : List ExchangeAct :=
  [.ready true] ++ commanding 0 (commandFor opcodeAccept 1 8)
    ++ commanding 1 (commandFor opcodeTerminate 1 8)
    ++ [.answer 0 0, .answer 0 4]

/-- Each of the two results is passed on, and once. -/
theorem results_reach_commands_two :
    ∃ tr s, Exec exchangeStep (newExchange oneRinging ofDevice true) tr s
      ∧ tr.length = 11
      ∧ ∀ x ∈ tr, ∀ index result, x.act = .answer index result →
        ∃ m rest token, x.pre.written = m :: rest ∧ x.post.written = rest
          ∧ x.out = [(m.code, resultIndex m index, result, token)]
          ∧ (m.code ≠ opcodeOriginate → token = m.token) := by
  obtain ⟨tr, s, hrun, hlen, hnew⟩ := exec_of_decide exchangeStep
    (newExchange oneRinging ofDevice true) acceptThenTerminate
    (fun tr _ => tr.length = 11
      ∧ ∀ x ∈ tr, Undoubled x ∧ KnownResult x) (by decide +kernel)
  have hstore : Exec storeStep (newStore 7) _ oneRinging := Exec.single rfl
  exact ⟨tr, s, hrun, hlen,
    results_reach_commands hstore ofDevice true hrun hnew⟩

/-- Two Terminates for one call, both written before either is answered. -/
def terminateTwice : List ExchangeAct :=
  [.ready true] ++ commanding 0 (commandFor opcodeTerminate 1 8)
    ++ commanding 1 (commandFor opcodeTerminate 1 8)
    ++ [.answer 0 0, .answer 0 3]

/-- An Accept for a call that ends before it is answered, and one for the
call that has taken its index since. -/
def acceptReused : List ExchangeAct :=
  [.ready true] ++ commanding 0 (commandFor opcodeAccept 1 8)
    ++ [.store (.apply []), .store (.apply [1, 0, 0])]
    ++ commanding 1 (commandFor opcodeAccept 1 9)
    ++ [.answer 0 3, .answer 0 0]

/-- Of the two Terminates' results one is lost; of the two Accepts' too,
and the one that is passed on answers the first and has the token of the
second. -/
theorem results_go_astray :
    (∃ tr s, Exec exchangeStep (newExchange oneRinging ofDevice true) tr s
      ∧ tr.countP (fun x => x.act.result.isSome) = 2 ∧ s.written = []
      ∧ events tr = [(opcodeTerminate, 1, 0, 8)])
    ∧ ∃ tr s, Exec exchangeStep (newExchange oneRinging ofDevice true) tr s
      ∧ tr.countP (fun x => x.act.result.isSome) = 2 ∧ s.written = []
      ∧ events tr = [(opcodeAccept, 1, 3, 9)] := by
  constructor
  · exact exec_of_decide exchangeStep
      (newExchange oneRinging ofDevice true) terminateTwice
      (fun tr s => tr.countP (fun x => x.act.result.isSome) = 2
        ∧ s.written = [] ∧ events tr = [(opcodeTerminate, 1, 0, 8)])
      (by decide +kernel)
  · exact exec_of_decide exchangeStep
      (newExchange oneRinging ofDevice true) acceptReused
      (fun tr s => tr.countP (fun x => x.act.result.isSome) = 2
        ∧ s.written = [] ∧ events tr = [(opcodeAccept, 1, 3, 9)])
      (by decide +kernel)

end Callbridge.Gtbs
