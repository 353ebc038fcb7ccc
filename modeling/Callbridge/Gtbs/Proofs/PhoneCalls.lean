/-
Tokens and phone calls. The store takes an index that is listed by two
values in a row for one call. Between two notifications of one session
that is right, because the list changes by one call at a time (`Linked`).
Between two sessions it is right as long as no index has gone to another
call meanwhile (`FreshRead`).
-/
import Callbridge.Gtbs.Phone
import Callbridge.Gtbs.Proofs.Authorise
import Callbridge.Gtbs.Proofs.CallState

namespace Callbridge.Gtbs

open Lib Protocol

variable {s s' : Phone} {act : PhoneAct} {es : List Unit}
  {l l' now : List PhoneCall} {qs : List (List PhoneCall)} {c id : Nat}
  {i : UInt8} {t : UInt64} {x : PhoneTrans}

-- == values as sent

/-- The entry the parser reads for a call. -/
def PhoneCall.raw (c : PhoneCall) : Call := rawCall c.index c.state c.flags

/-- The lists a phone has: valid calls, each at an index of its own. -/
structure ValidList (l : List PhoneCall) : Prop where
  valid : ∀ c ∈ l, c.valid = true
  nodup : (l.map PhoneCall.index).Nodup

theorem entry_of_valid {c : PhoneCall} (h : c.valid = true) :
    Entry c.raw := by
  unfold PhoneCall.valid at h
  simp only [Bool.and_eq_true, bne_iff_ne, ne_eq, decide_eq_true_eq,
    beq_iff_eq, flags_known] at h
  obtain ⟨⟨hindex, hstate⟩, hflags⟩ := h
  exact ⟨hindex, hstate, hflags⟩

theorem triples_encode (l : List PhoneCall) :
    triples (encodeCalls l) = l.map PhoneCall.raw := by
  induction l with
  | nil => rfl
  | cons c rest ih =>
    rw [encodeCalls, triples, ih]
    rfl

theorem length_encode (l : List PhoneCall) :
    (encodeCalls l).length = 3 * l.length := by
  induction l with
  | nil => rfl
  | cons c rest ih =>
    simp only [encodeCalls, List.length_cons, ih]
    omega

theorem acceptable_encode (h : ValidList l) :
    Acceptable (encodeCalls l) := by
  refine ⟨?_, ?_, ?_⟩
  · rw [length_encode]
    omega
  · rw [triples_encode]
    intro call hcall
    obtain ⟨c, hc, rfl⟩ := List.mem_map.mp hcall
    exact entry_of_valid (h.valid c hc)
  · rw [triples_encode, List.map_map]
    exact h.nodup

/-- A phone's value is always accepted, and lists its calls. -/
theorem parse_encode (h : ValidList l) :
    parseCallState (encodeCalls l)
      = .ok (sortCalls (l.map PhoneCall.raw)) := by
  rw [← triples_encode]
  exact parseCallState_iff.mpr ⟨acceptable_encode h, rfl⟩

/-- The indexes a parsed value lists are those of the calls. -/
theorem mem_sortCalls_raw :
    (∃ call ∈ sortCalls (l.map PhoneCall.raw), call.index = i)
      ↔ ∃ c ∈ l, c.index = i := by
  constructor
  · intro h
    obtain ⟨call, hc, hi⟩ := h
    rw [(sortCalls_perm _).mem_iff] at hc
    obtain ⟨c, hmem, rfl⟩ := List.mem_map.mp hc
    exact ⟨c, hmem, hi⟩
  · intro h
    obtain ⟨c, hc, hi⟩ := h
    refine ⟨c.raw, ?_, hi⟩
    rw [(sortCalls_perm _).mem_iff]
    exact List.mem_map.mpr ⟨c, hc, rfl⟩

-- == how lists change

/-- No index goes from one call to another. -/
def SameCalls (l l' : List PhoneCall) : Prop :=
  ∀ c ∈ l, ∀ d ∈ l', c.index = d.index → c.id = d.id

/-- The values on their way lead from the last one applied to the list the
phone has now, one change at a time. -/
def Linked (l : List PhoneCall) :
    List (List PhoneCall) → List PhoneCall → Prop
  | [], now => l = now
  | q :: qs, now => SameCalls l q ∧ Linked q qs now

theorem Linked.snoc (h : Linked l qs now) (hs : SameCalls now l') :
    Linked l (qs ++ [l']) l' := by
  induction qs generalizing l with
  | nil =>
    rw [show l = now from h]
    exact ⟨hs, rfl⟩
  | cons q qs ih => exact ⟨h.1, ih h.2⟩

theorem ValidList.unique (h : ValidList l) {c d : PhoneCall} (hc : c ∈ l)
    (hd : d ∈ l) (he : c.index = d.index) : c = d :=
  List.inj_on_of_nodup_map h.nodup hc hd he

/-- The phone's list as one change leaves it. -/
structure Changed (l l' : List PhoneCall) : Prop where
  valid : ValidList l'
  same : SameCalls l l'

/-- A new call changes the list by itself alone. -/
theorem changed_start {index state flags : UInt8} (h : ValidList l)
    (hv : (PhoneCall.mk id index state flags).valid = true)
    (hfree : ∀ c ∈ l, c.index ≠ index) :
    Changed l (l ++ [⟨id, index, state, flags⟩]) := by
  refine ⟨⟨?_, ?_⟩, ?_⟩
  · intro c hc
    rcases List.mem_append.mp hc with hc | hc
    · exact h.valid c hc
    · obtain rfl := List.mem_singleton.mp hc
      exact hv
  · rw [List.map_append, List.nodup_append]
    refine ⟨h.nodup, List.nodup_singleton _, ?_⟩
    intro i hi j hj
    obtain ⟨c, hc, rfl⟩ := List.mem_map.mp hi
    obtain rfl := List.mem_singleton.mp hj
    exact hfree c hc
  · intro c hc d hd he
    rcases List.mem_append.mp hd with hd | hd
    · rw [h.unique hc hd he]
    · obtain rfl := List.mem_singleton.mp hd
      exact absurd he (hfree c hc)

theorem setState_index (id : Nat) (state : UInt8) (c : PhoneCall) :
    (c.setState id state).index = c.index
      ∧ (c.setState id state).id = c.id := by
  unfold PhoneCall.setState
  split <;> exact ⟨rfl, rfl⟩

/-- A change of state keeps the calls. -/
theorem changed_state {state : UInt8} (h : ValidList l)
    (hs : state ≤ stateLocallyRemotelyHeld) :
    Changed l (l.map (PhoneCall.setState id state)) := by
  refine ⟨⟨?_, ?_⟩, ?_⟩
  · intro c hc
    obtain ⟨d, hd, rfl⟩ := List.mem_map.mp hc
    have hv := h.valid d hd
    unfold PhoneCall.setState
    split
    case isFalse => exact hv
    case isTrue =>
      unfold PhoneCall.valid at hv ⊢
      simp only [Bool.and_eq_true, decide_eq_true_eq] at hv ⊢
      exact ⟨⟨hv.1.1, hs⟩, hv.2⟩
  · have hmap : (l.map (PhoneCall.setState id state)).map PhoneCall.index
        = l.map PhoneCall.index := by
      rw [List.map_map]
      refine List.map_congr_left ?_
      intro c _
      exact (setState_index id state c).1
    rw [hmap]
    exact h.nodup
  · intro c hc d hd he
    obtain ⟨d', hd', rfl⟩ := List.mem_map.mp hd
    rw [(setState_index id state d').1] at he
    rw [(setState_index id state d').2, h.unique hc hd' he]

theorem changed_finish (h : ValidList l) :
    Changed l (l.filter fun c => c.id != id) := by
  refine ⟨⟨?_, ?_⟩, ?_⟩
  · intro c hc
    exact h.valid c (List.mem_of_mem_filter hc)
  · exact (List.filter_sublist.map _).nodup h.nodup
  · intro c hc d hd he
    rw [h.unique hc (List.mem_of_mem_filter hd) he]

-- == invariant

/-- What holds of phone and store together, tokens apart. -/
structure PhoneInv (s : Phone) : Prop where
  calls : ValidList s.calls
  queue : ∀ q ∈ s.queue, ValidList q
  listed : ValidList s.listed
  live : ∀ i, (∃ e, s.store.calls.lookup i = some e)
    ↔ ∃ c ∈ s.listed, c.index = i
  linked : s.session = .up → Linked s.listed s.queue s.calls

/-- The list that is read when a session starts has not changed since the
client subscribed, and no index the store has a call at went to another
call. -/
def FreshRead (s : Phone) : Prop :=
  s.queue = [] ∧ SameCalls s.listed s.calls

abbrev PhoneTrans := Lib.Trans Phone PhoneAct Unit

/-- The store method a transition runs, as a transition of the store. -/
def toStoreOp (x : PhoneTrans) : Option StoreTrans :=
  match x.act with
  | .claim index token =>
      some ⟨x.pre.store, .claimCall index token, [], x.post.store⟩
  | .read =>
      some ⟨x.pre.store, .apply (encodeCalls x.pre.calls), [],
        x.post.store⟩
  | .deliver =>
      match x.pre.queue with
      | calls :: _ =>
          some ⟨x.pre.store, .apply (encodeCalls calls), [], x.post.store⟩
      | [] => none
  | _ => none

/-- What happened to the store. -/
def storeOps (tr : List PhoneTrans) : List StoreTrans :=
  tr.filterMap toStoreOp

/-- What a transition does to the values the store has applied. -/
inductive ApplyMove (x : PhoneTrans) : Prop
  | keep : x.post.listed = x.pre.listed →
      x.post.store.calls = x.pre.store.calls → ApplyMove x
  | apply (calls : List PhoneCall) : ValidList calls →
      SameCalls x.pre.listed calls → x.post.listed = calls →
      toStoreOp x = some ⟨x.pre.store, .apply (encodeCalls calls), [],
        x.post.store⟩ →
      x.post.store = x.pre.store.replaceCalls
        (sortCalls (calls.map PhoneCall.raw)) →
      ApplyMove x

theorem apply_valid (h : ValidList l) :
    s.apply l = { s with
      store := s.store.replaceCalls (sortCalls (l.map PhoneCall.raw))
      listed := l } := by
  unfold Phone.apply
  rw [apply_ok (parse_encode h)]

theorem live_replace (st : Store) (l : List PhoneCall) :
    ∀ i, (∃ e, (st.replaceCalls
        (sortCalls (l.map PhoneCall.raw))).calls.lookup i = some e)
      ↔ ∃ c ∈ l, c.index = i := by
  intro i
  rw [(replaceCalls_spec st _).1.dom i]
  exact mem_sortCalls_raw

/-- A change of the list keeps the invariant. -/
theorem PhoneInv.change (h : PhoneInv s) (hc : Changed s.calls l) (n : Nat) :
    PhoneInv { s.changeTo l with nextId := n } := by
  refine ⟨hc.valid, ?_, h.listed, h.live, ?_⟩
  · intro q hq
    simp only [Phone.changeTo] at hq
    split at hq
    case isTrue => exact h.queue q hq
    case isFalse =>
      rcases List.mem_append.mp hq with hq | hq
      · exact h.queue q hq
      · obtain rfl := List.mem_singleton.mp hq
        exact hc.valid
  · intro hup
    have hup' : s.session = .up := hup
    simp only [Phone.changeTo, hup']
    exact (h.linked hup').snoc hc.same

/-- Every step keeps it, if no index was reused before a read. -/
theorem step_phoneInv (h : PhoneInv s)
    (hread : act = .read → FreshRead s)
    (hstep : phoneStep s act = some (s', es)) :
    PhoneInv s' ∧ ApplyMove ⟨s, act, es, s'⟩ := by
  cases act with
  | start index state flags =>
    simp only [phoneStep] at hstep
    split at hstep
    case isFalse => cases hstep
    case isTrue hg =>
      cases hstep
      obtain ⟨hv, hfree⟩ := Bool.and_eq_true_iff.mp hg
      have hfree' : ∀ c ∈ s.calls, c.index ≠ index := by
        intro c hc
        have := List.all_eq_true.mp hfree c hc
        simpa using this
      exact ⟨h.change (changed_start h.calls hv hfree') _,
        ApplyMove.keep rfl rfl⟩
  | change id state =>
    simp only [phoneStep] at hstep
    split at hstep
    case isFalse => cases hstep
    case isTrue hs =>
      cases hstep
      exact ⟨h.change (changed_state h.calls hs) s.nextId,
        ApplyMove.keep rfl rfl⟩
  | finish id =>
    cases hstep
    exact ⟨h.change (changed_finish h.calls) s.nextId,
      ApplyMove.keep rfl rfl⟩
  | subscribe =>
    simp only [phoneStep] at hstep
    split at hstep
    case isFalse => cases hstep
    case isTrue =>
      cases hstep
      -- the session starts with an empty queue
      refine ⟨⟨h.calls, ?_, h.listed, h.live, ?_⟩,
        ApplyMove.keep rfl rfl⟩
      · intro q hq
        cases hq
      · intro hup
        cases hup
  | read =>
    obtain ⟨hqueue, hsame⟩ := hread rfl
    simp only [phoneStep] at hstep
    split at hstep
    case isFalse => cases hstep
    case isTrue =>
      cases hstep
      -- the read list replaces what the store had
      rw [apply_valid h.calls]
      refine ⟨⟨h.calls, h.queue, h.calls, live_replace _ _, ?_⟩,
        ApplyMove.apply s.calls h.calls hsame rfl rfl rfl⟩
      intro _
      rw [hqueue]
      rfl
  | deliver =>
    simp only [phoneStep] at hstep
    split at hstep
    case h_1 calls rest hup hq =>
      cases hstep
      have hv : ValidList calls :=
        h.queue calls (by rw [hq]; exact List.mem_cons_self)
      -- no index of the head goes to another call than the store has
      have hl := h.linked hup
      rw [hq] at hl
      rw [apply_valid hv]
      refine ⟨⟨h.calls, ?_, hv, live_replace _ _, fun _ => hl.2⟩,
        ApplyMove.apply calls hv hl.1 rfl ?_ rfl⟩
      · intro q hmem
        exact h.queue q (by rw [hq]; exact List.mem_cons_of_mem _ hmem)
      · simp only [toStoreOp, hq]
    case h_2 => cases hstep
  | lose =>
    simp only [phoneStep] at hstep
    split at hstep
    case isTrue => cases hstep
    case isFalse =>
      cases hstep
      refine ⟨⟨h.calls, ?_, h.listed, h.live, ?_⟩,
        ApplyMove.keep rfl rfl⟩
      · intro q hq
        cases hq
      · intro hup
        cases hup
  | claim index token =>
    cases hstep
    have hcalls := claimCall_calls s.store index token
    refine ⟨⟨h.calls, h.queue, h.listed, ?_, h.linked⟩,
      ApplyMove.keep rfl hcalls⟩
    intro i
    rw [hcalls]
    exact h.live i

-- == runs

/-- The phone call `id` is the one the store has at `index`, under
`token`. -/
def Phone.Carries (s : Phone) (index : UInt8) (id : Nat)
    (token : UInt64) : Prop :=
  (∃ c ∈ s.listed, c.index = index ∧ c.id = id)
    ∧ ∃ e, s.store.calls.lookup index = some e ∧ e.token = token

/-- In one state no two phone calls carry one token. -/
theorem PhoneInv.carries_unique (h : PhoneInv s) {n : Nat}
    (hinv : Inv s.store n) {j : UInt8} {d : Nat} (hc : s.Carries i c t)
    (hd : s.Carries j d t) : c = d := by
  obtain ⟨⟨p, hp, rfl, rfl⟩, e, he, htoken⟩ := hc
  obtain ⟨⟨q, hq, rfl, rfl⟩, f, hf, htoken'⟩ := hd
  have hindex := hinv.token_inj he hf (htoken.trans htoken'.symm)
  rw [h.listed.unique hp hq hindex]

/-- A call that carries a token carried it before, or has just appeared at
its index. -/
theorem ApplyMove.carries_before (hm : ApplyMove x) (h : PhoneInv x.pre)
    (hc : x.post.Carries i c t) :
    x.pre.Carries i c t
      ∨ ∃ calls, ValidList calls ∧ x.pre.store.calls.lookup i = none
        ∧ toStoreOp x = some ⟨x.pre.store, .apply (encodeCalls calls), [],
            x.post.store⟩ := by
  cases hm with
  | keep hlisted hcalls =>
    refine Or.inl ?_
    unfold Phone.Carries at hc ⊢
    rw [hlisted, hcalls] at hc
    exact hc
  | apply calls hv hsame hlisted hop hstore =>
    obtain ⟨⟨p, hp, hpi, hpc⟩, e, he, htoken⟩ := hc
    rw [hlisted] at hp
    cases hl : x.pre.store.calls.lookup i with
    | none => exact Or.inr ⟨calls, hv, rfl, hop⟩
    | some prior =>
      refine Or.inl ⟨?_, prior, hl, ?_⟩
      · obtain ⟨q, hq, hqi⟩ := (h.live i).mp ⟨prior, hl⟩
        refine ⟨q, hq, hqi, ?_⟩
        rw [hsame q hq p hp (hqi.trans hpi.symm)]
        exact hpc
      · rw [hstore] at he
        rw [← (replaceCalls_spec x.pre.store _).1.kept he hl]
        exact htoken

section Runs

variable {now : UInt64} {tr : List PhoneTrans}

theorem newPhone_inv (now : UInt64) : PhoneInv (newPhone now) := by
  have hnil : ValidList [] := by
    refine ⟨?_, List.nodup_nil⟩
    intro c hc
    cases hc
  refine ⟨hnil, ?_, hnil, ?_, ?_⟩
  · intro q hq
    cases hq
  · intro i
    constructor
    · intro h
      obtain ⟨e, he⟩ := h
      cases he
    · intro h
      obtain ⟨c, hc, -⟩ := h
      cases hc
  · intro hup
    cases hup

theorem run_phoneInv (h : Exec phoneStep (newPhone now) tr s)
    (hread : ∀ x ∈ tr, x.act = .read → FreshRead x.pre) : PhoneInv s := by
  refine h.inv_of (G := fun x => x.act = .read → FreshRead x.pre)
    (newPhone_inv now) ?_ hread
  intro x hinv hG hx
  exact (step_phoneInv hinv hG hx).1

theorem apply_store (s : Phone) (l : List PhoneCall) :
    (s.apply l).store = s.store.exec (.apply (encodeCalls l)) := by
  show _ = (s.store.apply (encodeCalls l)).2
  unfold Phone.apply
  split
  case h_1 h => rw [h]
  case h_2 h => rw [h]

/-- Only a claim on the phone's side is one of the store's. -/
theorem claim_of_toStoreOp {y : StoreTrans} (h : toStoreOp x = some y)
    (hy : y.act = .claimCall i t) :
    x.act = .claim i t := by
  obtain ⟨pre, act, out, post⟩ := x
  cases act with
  | claim index token =>
    cases h
    cases hy
    rfl
  | read =>
    cases h
    cases hy
  | deliver =>
    cases hq : pre.queue with
    | nil =>
      simp only [toStoreOp, hq] at h
      cases h
    | cons calls rest =>
      simp only [toStoreOp, hq] at h
      cases h
      cases hy
  | start | change | finish | subscribe | lose => cases h

/-- A transition runs the store method `toStoreOp` reads off it, or leaves
the store. -/
theorem phoneStep_store (hx : phoneStep x.pre x.act = some (x.post, x.out)) :
    toStoreOp x = none ∧ x.post.store = x.pre.store
      ∨ ∃ op, toStoreOp x = some ⟨x.pre.store, op, [], x.post.store⟩
        ∧ x.post.store = x.pre.store.exec op := by
  obtain ⟨s, act, es, s'⟩ := x
  change phoneStep s act = some (s', es) at hx
  cases act with
  | start index state flags | change id state =>
    simp only [phoneStep] at hx
    split at hx
    case isTrue => cases hx; exact Or.inl ⟨rfl, rfl⟩
    case isFalse => cases hx
  | finish id => cases hx; exact Or.inl ⟨rfl, rfl⟩
  | subscribe =>
    simp only [phoneStep] at hx
    split at hx
    case isTrue => cases hx; exact Or.inl ⟨rfl, rfl⟩
    case isFalse => cases hx
  | read =>
    simp only [phoneStep] at hx
    split at hx
    case isTrue =>
      cases hx
      exact Or.inr ⟨_, rfl, apply_store s s.calls⟩
    case isFalse => cases hx
  | deliver =>
    simp only [phoneStep] at hx
    split at hx
    case h_1 calls rest _ hq =>
      cases hx
      refine Or.inr ⟨.apply (encodeCalls calls), ?_, apply_store s calls⟩
      simp only [toStoreOp, hq]
    case h_2 => cases hx
  | lose =>
    simp only [phoneStep] at hx
    split at hx
    case isTrue => cases hx
    case isFalse => cases hx; exact Or.inl ⟨rfl, rfl⟩
  | claim index token => cases hx; exact Or.inr ⟨_, rfl, rfl⟩

/-- The store's own run inside the composition. -/
theorem store_ops_run {s₀ : Phone} (h : Exec phoneStep s₀ tr s) :
    Exec storeStep s₀.store (storeOps tr) s.store := by
  refine h.project (v := Phone.store) ?_ ?_
  · intro x hx hf
    rcases phoneStep_store hx with ⟨-, hs⟩ | ⟨op, hop, -⟩
    · exact hs
    · rw [hf] at hop
      cases hop
  · intro x y hx hf
    rcases phoneStep_store hx with ⟨hnone, -⟩ | ⟨op, hop, hs⟩
    · rw [hf] at hnone
      cases hnone
    · rw [hf] at hop
      cases hop
      refine ⟨rfl, rfl, ?_⟩
      rw [hs]
      rfl

theorem storeOps_append (t₁ t₂ : List PhoneTrans) :
    storeOps (t₁ ++ t₂) = storeOps t₁ ++ storeOps t₂ :=
  List.filterMap_append

/-- Tokens that were live at some moment of a run are of the ranks issued
by its end. -/
theorem carried_rank {e : Call} (h : Exec phoneStep (newPhone now) tr s)
    (hb : issuedIn (storeOps tr) ≤ 2 ^ 64 - 2) (hx : x ∈ tr)
    (he : x.post.store.calls.lookup i = some e) :
    rank s.store.seed e.token ≤ issuedIn (storeOps tr) := by
  obtain ⟨t₁, t₂, rfl, h₁, hstep, -⟩ := h.of_mem hx
  have hto : Exec storeStep (newStore now) (storeOps (t₁ ++ [x]))
      x.post.store := store_ops_run (h₁.snoc hstep)
  rw [show t₁ ++ x :: t₂ = (t₁ ++ [x]) ++ t₂ by simp, storeOps_append,
    issuedIn_append] at hb ⊢
  have hinv := run_inv hto (by omega)
  have hseed : x.post.store.seed = s.store.seed := by
    rw [run_seed hto, run_seed (store_ops_run h)]
  have hrank := (hinv.token_ok he).2
  rw [hseed] at hrank
  omega

/-- No two phone calls of a run ever carry one token. -/
theorem carried_once (h : Exec phoneStep (newPhone now) tr s)
    (hb : issuedIn (storeOps tr) ≤ 2 ^ 64 - 2)
    (hread : ∀ x ∈ tr, x.act = .read → FreshRead x.pre) :
    ∀ x ∈ tr, ∀ y ∈ tr, ∀ i j c d t,
      x.post.Carries i c t → y.post.Carries j d t → c = d := by
  induction h with
  | nil =>
    intro x hx
    cases hx
  | @snoc tr s s' act es hrun hstep ih =>
    have hread' : ∀ x ∈ tr, x.act = .read → FreshRead x.pre :=
      fun x hx => hread x (List.mem_append_left _ hx)
    have hlast := hread _ (List.mem_append_right _
      (List.mem_singleton_self _))
    have hb' := hb
    rw [storeOps_append, issuedIn_append] at hb'
    have hpre := run_phoneInv hrun hread'
    have hinv := run_inv (store_ops_run hrun) (by omega)
    obtain ⟨hpost, hmove⟩ := step_phoneInv hpre hlast hstep
    have hinv' := run_inv (store_ops_run (hrun.snoc hstep)) hb
    -- a call the last step shows carries what it carried, or a new token
    have hnew : ∀ x ∈ tr, ∀ i j c d t, x.post.Carries i c t →
        s'.Carries j d t → c = d := by
      intro x hx i j c d t hc hd
      rcases hmove.carries_before hpre hd with hbefore
        | ⟨calls, hv, hnone, hop⟩
      · rcases hrun.last with ⟨rfl, -⟩ | ⟨y, hy, rfl⟩
        · cases hx
        · exact ih (by omega) hread' x hx y hy i j c d t hc hbefore
      · obtain ⟨-, e, he, rfl⟩ := hc
        obtain ⟨-, f, hf, htoken⟩ := hd
        have hold := carried_rank hrun (by omega) hx he
        have hexec : s'.store
            = s.store.exec (.apply (encodeCalls calls)) := by
          rcases phoneStep_store (x := ⟨s, act, es, s'⟩) hstep with
            ⟨hno, -⟩ | ⟨op, hop', hs⟩
          · rw [hop] at hno
            cases hno
          · rw [hop] at hop'
            cases hop'
            exact hs
        have hcount : issuedIn (storeOps [⟨s, act, es, s'⟩])
            = s.store.tokensIssued (.apply (encodeCalls calls)) := by
          simp [storeOps, hop, issuedIn]
        rw [hcount] at hb'
        rw [hexec] at hf
        have hfresh := issued_rank hinv hb' hnone hf
        rw [htoken] at hfresh
        omega
    intro x hx y hy i j c d t hc hd
    rcases List.mem_append.mp hx with hx | hx
    · rcases List.mem_append.mp hy with hy | hy
      · exact ih (by omega) hread' x hx y hy i j c d t hc hd
      · obtain rfl := List.mem_singleton.mp hy
        exact hnew x hx i j c d t hc hd
    · obtain rfl := List.mem_singleton.mp hx
      rcases List.mem_append.mp hy with hy | hy
      · exact (hnew y hy j i d c t hd hc).symm
      · obtain rfl := List.mem_singleton.mp hy
        exact hpost.carries_unique hinv' hc hd

/-- A claim in force was made while a call was live at its index under its
token. -/
theorem claim_made (h : Exec phoneStep (newPhone now) tr s)
    (hc : s.store.claimed.lookup i = some t) :
    ∃ z ∈ tr, z.act = .claim i t
      ∧ ∃ e, z.pre.store.calls.lookup i = some e ∧ e.token = t := by
  induction h with
  | nil => cases hc
  | @snoc tr s s' act es hrun hstep ih =>
    have hbefore : s.store.claimed.lookup i = some t →
        ∃ z ∈ tr ++ [⟨s, act, es, s'⟩], z.act = .claim i t
          ∧ ∃ e, z.pre.store.calls.lookup i = some e ∧ e.token = t := by
      intro hc
      obtain ⟨z, hz, hrest⟩ := ih hc
      exact ⟨z, List.mem_append_left _ hz, hrest⟩
    rcases phoneStep_store (x := ⟨s, act, es, s'⟩) hstep with
      ⟨-, hs⟩ | ⟨op, hop, hs⟩
    · exact hbefore (by rw [← hs]; exact hc)
    · have hc' : (s.store.exec op).claimed.lookup i = some t := by
        rw [← hs]
        exact hc
      rcases claimed_exec hc' with hold | rfl
      · exact hbefore hold
      · have hact : act = .claim i t := claim_of_toStoreOp hop rfl
        rcases claimCall_cases s.store i t with hsame
          | ⟨e, he, htoken, -, -⟩
        · exact hbefore (by rw [← hsame]; exact hc')
        · exact ⟨_, List.mem_append_right _ (List.mem_singleton_self _),
            hact, e, he, htoken⟩

/-- A claim does not move calls. -/
theorem carries_claim {j : UInt8} {u : UInt64}
    (hx : phoneStep x.pre x.act = some (x.post, x.out))
    (hact : x.act = .claim i u) (hc : x.pre.Carries j c t) :
    x.post.Carries j c t := by
  rw [hact] at hx
  injection hx with hx
  injection hx with hs _
  rw [← hs]
  show _ ∧ ∃ e, (x.pre.store.claimCall i u).calls.lookup j = some e ∧ _
  rw [claimCall_calls]
  exact hc

/-- Over every run of the phone, its sessions and the store in which no
index of the store has gone to another call, or is changed meanwhile, when
a session starts: no two phone calls ever carry one token; a call media is
let through for on a claim was itself claimed; and no claim made for
another call lets it through. -/
theorem tokens_name_calls (h : Exec phoneStep (newPhone now) tr s)
    (hfew : issuedIn (storeOps tr) < 2 ^ 64 - 2)
    (hread : ∀ x ∈ tr, x.act = .read → FreshRead x.pre) :
    (∀ x ∈ tr, ∀ y ∈ tr, ∀ i j c d t,
        x.post.Carries i c t → y.post.Carries j d t → c = d)
      ∧ (∀ t, s.store.currentCallToken = (t, true) →
          ∃ i c call, s.Carries i c t
            ∧ s.store.calls.lookup i = some call
            ∧ (call.outgoing = true ∨ call.state = stateIncoming
              ∨ ∃ z ∈ tr, z.act = .claim i t ∧ z.pre.Carries i c t))
      ∧ ∀ z ∈ tr, ∀ i j c d t, z.act = .claim i t →
          z.pre.Carries i c t → s.store.currentCallToken = (t, true) →
          s.Carries j d t → c = d := by
  have hb : issuedIn (storeOps tr) ≤ 2 ^ 64 - 2 := by omega
  have honce := carried_once h hb hread
  have hphone := run_phoneInv h hread
  have hinv := run_inv (store_ops_run h) hb
  -- a claim and the state the run ends in are both on record
  have hsame : ∀ z ∈ tr, ∀ i j c d t, z.act = .claim i t →
      z.pre.Carries i c t → s.Carries j d t → c = d := by
    intro z hz i j c d t hact hc hd
    obtain ⟨t₁, t₂, -, -, hstep, -⟩ := h.of_mem hz
    rcases h.last with ⟨rfl, -⟩ | ⟨y, hy, rfl⟩
    · cases hz
    · exact honce z hz y hy i j c d t (carries_claim hstep hact hc) hd
  refine ⟨honce, ?_, ?_⟩
  · intro t ht
    obtain ⟨i, call, honly, rfl, h0, hauth⟩ := currentCallToken_only ht
    have hlive := honly.lookup
    obtain ⟨p, hp, hpi⟩ := (hphone.live i).mp ⟨call, hlive⟩
    have hcarries : s.Carries i p.id call.token :=
      ⟨⟨p, hp, hpi, rfl⟩, call, hlive, rfl⟩
    refine ⟨i, p.id, call, hcarries, hlive, ?_⟩
    rcases authorised_cases h0 hauth with hout | hinc | hclaim
    · exact Or.inl hout
    · exact Or.inr (Or.inl hinc)
    · right; right
      rw [hinv.index_eq hlive] at hclaim
      obtain ⟨z, hz, hact, e, he, htoken⟩ := claim_made h hclaim
      obtain ⟨t₁, t₂, htr, h₁, -, -⟩ := h.of_mem hz
      have hpre := run_phoneInv h₁ fun x hx => hread x (by
        rw [htr]
        exact List.mem_append_left _ hx)
      obtain ⟨q, hq, hqi⟩ := (hpre.live i).mp ⟨e, he⟩
      have hmade : z.pre.Carries i q.id call.token :=
        ⟨⟨q, hq, hqi, rfl⟩, e, he, htoken⟩
      have hid := hsame z hz i i q.id p.id _ hact hmade hcarries
      rw [hid] at hmade
      exact ⟨z, hz, hact, hmade⟩
  · intro z hz i j c d t hact hc _ hd
    exact hsame z hz i j c d t hact hc hd

end Runs

instance : Decidable (FreshRead s) :=
  inferInstanceAs (Decidable (s.queue = [] ∧ ∀ c ∈ s.listed,
    ∀ d ∈ s.calls, c.index = d.index → c.id = d.id))

instance {i : UInt8} {c : Nat} {t : UInt64} : Decidable (s.Carries i c t) :=
  inferInstanceAs (Decidable ((∃ p ∈ s.listed, p.index = i ∧ p.id = c)
    ∧ ∃ e ∈ s.store.calls.lookup i, e.token = t))

/-- A call is claimed and answered, and the session is lost. -/
def answeredAndLost : List PhoneAct :=
  [.start 1 0 0, .subscribe, .read, .claim 1 8, .change 0 3, .deliver,
    .lose, .finish 0]

/-- The session is back before the index is used again. -/
def reusedAfterRead : List PhoneAct :=
  answeredAndLost ++ [PhoneAct.subscribe, .read, .start 1 0 0, .deliver]

/-- The index goes on after the list was read. -/
theorem tokens_name_calls_index_reused :
    ∃ tr s, Exec phoneStep (newPhone 7) tr s
      ∧ tr.map Trans.act = reusedAfterRead ∧ s.Carries 1 1 9
      ∧ ∀ x ∈ tr, ∀ y ∈ tr, ∀ i j c d t,
          x.post.Carries i c t → y.post.Carries j d t → c = d := by
  obtain ⟨tr, s, hrun, hact, hc, hfew, hread⟩ := exec_of_decide phoneStep
      (newPhone 7) reusedAfterRead
      (fun tr s => tr.map Trans.act = reusedAfterRead
        ∧ s.Carries 1 1 9 ∧ issuedIn (storeOps tr) < 2 ^ 64 - 2
        ∧ ∀ x ∈ tr, x.act = .read → FreshRead x.pre) (by decide +kernel)
  exact ⟨tr, s, hrun, hact, hc, (tokens_name_calls hrun hfew hread).1⟩

/-- The index goes to a call that is answered on the handset before the
session is back. -/
def reusedBeforeRead : List PhoneAct :=
  answeredAndLost ++ [PhoneAct.start 1 3 0, .subscribe, .read]

/-- The store takes the second call for the first one, under its token and
its claim, and lets media through for it. -/
theorem token_outlives_call :
    ∃ tr s, Exec phoneStep (newPhone 7) tr s
      ∧ tr.map Trans.act = reusedBeforeRead
      ∧ (∃ x ∈ tr, x.post.Carries 1 0 8) ∧ s.Carries 1 1 8
      ∧ (∃ z ∈ tr, z.act = .claim 1 8 ∧ z.pre.Carries 1 0 8)
      ∧ s.store.calls.lookup 1 = some ⟨1, stateActive, 0, 8, Identity.zero⟩
      ∧ s.store.currentCallToken = (8, true) := by
  exact exec_of_decide phoneStep (newPhone 7)
      reusedBeforeRead
      (fun tr s => tr.map Trans.act = reusedBeforeRead
        ∧ (∃ x ∈ tr, x.post.Carries 1 0 8) ∧ s.Carries 1 1 8
        ∧ (∃ z ∈ tr, z.act = .claim 1 8 ∧ z.pre.Carries 1 0 8)
        ∧ s.store.calls.lookup 1
            = some ⟨1, stateActive, 0, 8, Identity.zero⟩
        ∧ s.store.currentCallToken = (8, true)) (by decide +kernel)

end Callbridge.Gtbs
