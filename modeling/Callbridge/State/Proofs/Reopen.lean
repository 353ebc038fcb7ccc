/-
Opening the file a store saved.

The file written for a sound store is within the size bound, has the right
mode, and decodes to the state with its strings made valid UTF-8, which
changes no handle (`load_stateFile`). So the only check of `load` that can
fail is the one on the items, and what is opened differs in the items'
texts alone: the file opens to the saved state exactly where these are
valid UTF-8 (`Sound.reopens_iff`), as those that were decoded are.
-/
import Mathlib.Algebra.Order.BigOperators.Group.List
import Mathlib.Algebra.Order.Group.Nat
import Callbridge.Lib.Trace
import Callbridge.State.Proofs.Sound

namespace Callbridge.State

open Lib

variable {s s' : Store} {op : StoreOp} {fault : Option SaveFault}
  {d : DiskState} {f : StateFile} {item : Outbound} {h : Bytes}

-- == sizes

theorem escapedSize_le (c : Char) : escapedSize c ≤ 6 := by
  have hfour := c.utf8Size_le_four
  unfold escapedSize
  split
  · omega
  split
  · omega
  split <;> omega

/-- No byte takes more than six. -/
theorem escapedSizeFrom_le (skip : Nat) (t : Bytes) :
    escapedSizeFrom skip t ≤ 6 * t.length := by
  induction t generalizing skip with
  | nil => simp [escapedSizeFrom]
  | cons b t ih =>
    rw [List.length_cons]
    cases skip with
    | succ skip =>
      have hrest := ih skip
      simp only [escapedSizeFrom]
      omega
    | zero =>
      simp only [escapedSizeFrom]
      split
      case h_1 c _ =>
        have hrest := ih (c.utf8Size - 1)
        have hone := escapedSize_le c
        omega
      case h_2 =>
        have hrest := ih 0
        omega

theorem jsonStringSize_le {t : Bytes} {n : Nat} (h : t.length ≤ n) :
    jsonStringSize t ≤ 2 + 6 * n := by
  have hsize := escapedSizeFrom_le 0 t
  unfold jsonStringSize
  omega

theorem significantDigits_le (width v : Nat) :
    significantDigits width v ≤ width := by
  induction width generalizing v with
  | zero => simp [significantDigits]
  | succ width ih =>
    unfold significantDigits
    split
    · exact (ih _).trans (Nat.le_succ _)
    · omega

theorem Stamp.jsonSize_le (t : Stamp) : t.jsonSize ≤ 32 := by
  have hdigits := significantDigits_le 9 t.nanos
  unfold Stamp.jsonSize
  split <;> omega

theorem jsonArraySize_le {sizes : List Nat} {n : Nat}
    (h : ∀ size ∈ sizes, size ≤ n) :
    jsonArraySize sizes ≤ 4 + sizes.length * (n + 1) := by
  have hsum : (sizes.map (· + 1)).sum ≤ sizes.length * (n + 1) := by
    have hcard := List.sum_le_card_nsmul (sizes.map (· + 1)) (n + 1)
      (by simpa using h)
    simpa using hcard
  unfold jsonArraySize
  split <;> omega

theorem validHandle_length (hvalid : validHandle h = true) :
    h.length ≤ 64 := by
  simp only [validHandle, Bool.and_eq_true, decide_eq_true_eq] at hvalid
  exact hvalid.1.2

/-- The parts of a valid item. -/
structure ItemValid (item : Outbound) : Prop where
  idNonempty : item.id ≠ []
  idBound : item.id.length ≤ 128
  textNonempty : item.text ≠ []
  textBound : item.text.length ≤ 16384
  destinationBound : item.destination.length ≤ 21
  destinationDigits : ∀ b ∈ item.destination, b = 0x2b ∨ isDigit b = true

/-- What `validOutbound` checks. -/
theorem ItemValid.of_validOutbound (h : validOutbound item = true) :
    ItemValid item := by
  simp only [validOutbound, Bool.and_eq_true, bne_iff_ne, ne_eq,
    decide_eq_true_eq, Bool.or_eq_true, beq_iff_eq, List.all_eq_true] at h
  obtain ⟨⟨⟨⟨⟨⟨⟨⟨hid, hidBound⟩, -⟩, htext⟩, htextBound⟩, -⟩, hlen⟩,
    hdigits⟩, hshape⟩ := h
  refine ⟨hid, hidBound, htext, htextBound, ?_, ?_⟩
  · rcases hshape with hshape | hshape
    · rw [hshape]
      omega
    · rw [hshape, List.length_cons]
      omega
  · intro b hb
    rcases hshape with hshape | hshape
    · rw [hshape] at hb
      exact Or.inr (hdigits b hb)
    · rw [hshape] at hb
      rcases List.mem_cons.mp hb with hb | hb
      · exact Or.inl hb
      · exact Or.inr (hdigits b hb)

theorem Outbound.jsonSize_le (h : validOutbound item = true) :
    item.jsonSize ≤ 99270 := by
  have hvalid := ItemValid.of_validOutbound h
  have hid := jsonStringSize_le hvalid.idBound
  have htext := jsonStringSize_le hvalid.textBound
  have hdestination := jsonStringSize_le hvalid.destinationBound
  have htime := item.queuedAt.jsonSize_le
  unfold Outbound.jsonSize
  omega

/-- The two bounds keep the file far below the size `load` accepts. -/
theorem Sound.jsonSize_le (hs : Sound s) :
    s.data.jsonSize ≤ maximumLegacyBytes := by
  have hseen : jsonArraySize (s.data.seenHandles.map jsonStringSize)
      ≤ 4 + s.data.seenHandles.length * 387 := by
    have hsize := jsonArraySize_le (n := 386)
      (show ∀ size ∈ s.data.seenHandles.map jsonStringSize, size ≤ 386 by
        intro size hsize
        obtain ⟨h, hmem, rfl⟩ := List.mem_map.mp hsize
        exact jsonStringSize_le (validHandle_length (hs.handles h hmem)))
    simpa using hsize
  have hqueue : jsonArraySize (s.data.outbound.map Outbound.jsonSize)
      ≤ 4 + s.data.outbound.length * 99271 := by
    have hsize := jsonArraySize_le (n := 99270)
      (show ∀ size ∈ s.data.outbound.map Outbound.jsonSize,
          size ≤ 99270 by
        intro size hsize
        obtain ⟨item, hmem, rfl⟩ := List.mem_map.mp hsize
        exact Outbound.jsonSize_le (hs.items item hmem))
    simpa using hsize
  have hversion : (toString s.data.version).length = 1 := by
    rw [hs.version]
    rfl
  have hseenBound := hs.seenBound
  have hqueueBound := hs.outboundBound
  have hflag : (if s.data.initialized then 4 else 5) ≤ 5 := by
    split <;> omega
  unfold DiskState.jsonSize
  unfold maximumSeenHandles at hseenBound
  unfold maximumOutbound at hqueueBound
  unfold maximumLegacyBytes
  omega

-- == valid strings

theorem isHexDigit_ascii {b : UInt8} (h : isHexDigit b = true) :
    b < 0x80 := by
  simp only [isHexDigit, isDigit, Bool.or_eq_true, Bool.and_eq_true,
    decide_eq_true_eq, UInt8.le_iff_toNat_le] at h
  rw [UInt8.lt_iff_toNat_lt]
  simp at h ⊢
  omega

theorem validHandle_validUTF8 (hvalid : validHandle h = true) :
    ValidUTF8 h := by
  apply validUTF8_of_ascii
  intro b hb
  simp only [validHandle, Bool.and_eq_true, List.all_eq_true] at hvalid
  exact isHexDigit_ascii (hvalid.2 b hb)

/-- A list whose elements a function keeps. -/
theorem map_eq_self_iff {α : Type} {g : α → α} {l : List α} :
    l.map g = l ↔ ∀ a ∈ l, g a = a := by
  constructor
  · intro h a ha
    obtain ⟨i, hi, rfl⟩ := List.getElem_of_mem ha
    have hget := List.getElem_of_eq h (by simpa using hi)
    rwa [List.getElem_map] at hget
  · intro h
    rw [List.map_congr_left h, List.map_id']

theorem Sound.toValid_handles (hs : Sound s) :
    s.data.seenHandles.map toValidUTF8 = s.data.seenHandles :=
  map_eq_self_iff.mpr fun h hmem =>
    validHandle_validUTF8 (hs.handles h hmem)

/-- A handle of a sound store is in the file written for it. -/
theorem Sound.mem_stateFile (hs : Sound s) (hmem : h ∈ s.data.seenHandles) :
    ∃ d : Document, (stateFile s.data).document = some d
      ∧ h ∈ d.val.seenHandles := by
  refine ⟨_, rfl, ?_⟩
  show h ∈ s.data.seenHandles.map toValidUTF8
  rwa [hs.toValid_handles]

-- == loading

/-- The set rebuilt from a sound store's list is the store's. -/
theorem Sound.rebuildSeen (hs : Sound s) (queue : List Outbound) :
    State.rebuildSeen { s.data with outbound := queue }
      = s.setOutbound queue := by
  have hall : s.data.seenHandles.filter validHandle
      = s.data.seenHandles :=
    List.filter_eq_self.mpr hs.handles
  have hordered : (Roster.empty.enterAll s.data.seenHandles).Ordered :=
    Roster.ordered_empty.enterAll _
  have horder : (Roster.empty.enterAll s.data.seenHandles).order
      = s.data.seenHandles :=
    Roster.enterAll_order_of_nodup
      (show ([] ++ s.data.seenHandles).Nodup from hs.ordered.nodup)
      Roster.ordered_empty rfl
  have hroster : Roster.empty.enterAll s.data.seenHandles = s.roster :=
    hordered.ext hs.ordered horder
  simp only [State.rebuildSeen, hall, hroster]
  rfl

/-- What `load` makes of the file written for a sound store. -/
theorem load_stateFile (hs : Sound s) :
    load (.file (stateFile s.data))
      = if (s.data.outbound.map Outbound.toValid).all validOutbound then
          .ok (s.setOutbound (s.data.outbound.map Outbound.toValid))
        else .error .containsInvalidItem := by
  have hsize := hs.jsonSize_le
  have hstate : s.data.toValid
      = { s.data with outbound := s.data.outbound.map Outbound.toValid } := by
    simp only [DiskState.toValid, hs.toValid_handles]
  have hschema : (s.data.toValid.version == stateVersion
      && decide (s.data.toValid.seenHandles.length ≤ maximumSeenHandles)
      && decide (s.data.toValid.outbound.length ≤ maximumOutbound))
        = true := by
    have hseen := hs.seenBound
    have hqueue := hs.outboundBound
    simp [hstate, hs.version, hseen, hqueue]
  have hmode : (true && (0o600 : UInt16) &&& 0o077 == 0) = true := by decide
  have hitems : s.data.toValid.outbound
      = s.data.outbound.map Outbound.toValid := rfl
  have hrebuild : State.rebuildSeen s.data.toValid
      = s.setOutbound (s.data.outbound.map Outbound.toValid) := by
    rw [hstate]
    exact hs.rebuildSeen _
  simp only [load, stateFile, check, require, hsize, hmode, hschema,
    decide_true, if_true, Bool.not_false, ok_bind]
  rw [hitems, hrebuild]
  split <;> rfl

theorem saveLocked_ok (h : s.saveLocked fault = .ok f) :
    f = stateFile s.data := by
  unfold Store.saveLocked at h
  split at h
  · cases h
  · split at h
    · exact (Except.ok.inj h).symm
    · cases h

/-- A file that is there is never reported missing. -/
theorem load_file_ne (f : StateFile) :
    load (.file f) ≠ .error .notExist := by
  intro h
  simp only [load, bind_eq_error, check_eq_error, reduceCtorEq, and_false,
    false_or, pure, Except.pure, exists_const] at h
  obtain ⟨-, -, -, -, hdecode | hrest⟩ := h
  · cases require_eq_error hdecode
  · simp at hrest

/-- The same flag, list and queue. -/
structure SameState (d d' : DiskState) : Prop where
  initialized : d'.initialized = d.initialized
  seenHandles : d'.seenHandles = d.seenHandles
  outbound : d'.outbound = d.outbound

/-- Items whose strings are valid UTF-8 are opened as they were saved. -/
theorem Sound.load_self (hs : Sound s)
    (htext : ∀ item ∈ s.data.outbound, item.ValidText) :
    load (.file (stateFile s.data)) = .ok s := by
  have hsame : s.data.outbound.map Outbound.toValid = s.data.outbound :=
    map_eq_self_iff.mpr htext
  have hall : s.data.outbound.all validOutbound = true :=
    List.all_eq_true.mpr hs.items
  rw [load_stateFile hs, hsame, if_pos hall, setOutbound_self]

/-- Opening the file of a sound store yields its state exactly where the
strings of its items are valid UTF-8. -/
theorem Sound.reopens_iff (hs : Sound s) :
    (∃ s', load (.file (stateFile s.data)) = .ok s'
        ∧ SameState s.data s'.data)
      ↔ ∀ item ∈ s.data.outbound, item.ValidText := by
  constructor
  · rintro ⟨s', hload, hsame⟩
    rw [load_stateFile hs] at hload
    split at hload
    · have hqueue := hsame.outbound
      rw [← Except.ok.inj hload, setOutbound_outbound] at hqueue
      exact map_eq_self_iff.mp hqueue
    · cases hload
  · intro htext
    exact ⟨s, hs.load_self htext, rfl, rfl, rfl⟩

-- == runs

section Runs

variable {sha256 : Bytes → Bytes} {k k' : Keeper} {a : KeeperAct}
  {es : List KeeperEvent} {disk : Disk}
  {tr : List (Trans Keeper KeeperAct KeeperEvent)}

/-- What one step of the keeper does. -/
inductive KeeperMove (sha256 : Bytes → Bytes) (k : Keeper) :
    KeeperAct → Keeper → List KeeperEvent → Prop
  | loaded {legacy : LegacyFiles} {fault : Option SaveFault} {s : Store}
      (hdown : k.store = none) (hload : load k.disk = .ok s) :
      KeeperMove sha256 k (.start legacy fault) ⟨k.disk, some s⟩ []
  | imported {legacy : LegacyFiles} {fault : Option SaveFault}
      {d : DiskState} {f : StateFile}
      (hload : load k.disk = .error .notExist)
      (himport : importLegacy sha256 legacy = .ok d)
      (hsave : (rebuildSeen d).saveLocked fault = .ok f) :
      KeeperMove sha256 k (.start legacy fault)
        ⟨.file f, some (rebuildSeen d)⟩ [.wrote f]
  | notOpened {legacy : LegacyFiles} {fault : Option SaveFault}
      (hdown : k.store = none) :
      KeeperMove sha256 k (.start legacy fault) k []
  | called {op : StoreOp} {fault : Option SaveFault} {s : Store}
      {o : Outcome Unit} (hs : k.store = some s)
      (hmove : StoreMove s op fault o) :
      KeeperMove sha256 k (.call op fault)
        ⟨k.disk.after o.written, some o.store⟩
        (o.written.toList.map .wrote ++ [op.report o.result])
  | crashed : KeeperMove sha256 k .crash ⟨k.disk, none⟩ []

/-- Every step of the keeper is one of the moves. -/
theorem KeeperMove.of_step (h : keeperStep sha256 k a = some (k', es)) :
    KeeperMove sha256 k a k' es := by
  cases a with
  | start legacy fault =>
    simp only [keeperStep] at h
    split at h
    · cases h
    case isFalse hnone =>
      split at h
      case h_1 s imported written hopen =>
        cases h
        obtain ⟨hload, rfl⟩ | ⟨d, f, hload, himport, rfl, hsave, rfl⟩ :=
          openStore_ok sha256 hopen
        · exact .loaded (by simpa using hnone) hload
        · exact .imported hload himport hsave
      case h_2 =>
        cases h
        exact .notOpened (by simpa using hnone)
  | call op fault =>
    simp only [keeperStep] at h
    split at h
    · cases h
    case h_2 s hs =>
      cases h
      exact .called hs (StoreMove.of_exec s op fault)
  | crash =>
    cases h
    exact .crashed

/-- Every store of the keeper is sound. -/
def KeeperSound (k : Keeper) : Prop := ∀ s, k.store = some s → Sound s

theorem KeeperSound.move (hk : KeeperSound k)
    (h : KeeperMove sha256 k a k' es) : KeeperSound k' := by
  intro s hs
  cases h with
  | loaded _ hload =>
    cases hs
    obtain ⟨d, hd, rfl⟩ := load_ok hload
    exact hd.sound
  | imported _ himport _ =>
    cases hs
    exact (importLegacy_ok sha256 himport).1.sound
  | notOpened _ => exact hk s hs
  | called hpre hmove =>
    cases hs
    exact (hk _ hpre).move hmove
  | crashed => cases hs

theorem keeper_sound (hrun : Exec (keeperStep sha256) ⟨disk, none⟩ tr k) :
    KeeperSound k := by
  apply hrun.inv
  · intro s hs
    cases hs
  · intro k₁ a k₂ es hk hstep
    exact hk.move (.of_step hstep)

/-- A file written is the one of the store the step leaves, and is then
the file at the path. -/
theorem KeeperMove.wrote (h : KeeperMove sha256 k a k' es)
    (hwrote : .wrote f ∈ es) :
    ∃ s, k'.store = some s ∧ f = stateFile s.data ∧ k'.disk = .file f := by
  cases h with
  | loaded _ _ => cases hwrote
  | imported _ _ hsave =>
    rw [List.mem_singleton, KeeperEvent.wrote.injEq] at hwrote
    subst hwrote
    exact ⟨_, rfl, saveLocked_ok hsave, rfl⟩
  | notOpened _ => cases hwrote
  | @called op _ _ o _ hmove =>
    have hwritten : o.written = some f := by
      rcases List.mem_append.mp hwrote with hmem | hmem
      · simpa using hmem
      · cases hresult : o.result <;> simp [StoreOp.report, hresult] at hmem
    cases hmove with
    | refused _ _ | idle _ | stuck _ _ _ => cases hwritten
    | saved _ hsave =>
      cases hwritten
      exact ⟨_, rfl, saveLocked_ok hsave, rfl⟩
  | crashed => cases hwrote

/-- A call that succeeds and changes the store writes it. -/
theorem KeeperMove.succeeded (h : KeeperMove sha256 k a k' es)
    (hok : .succeeded op ∈ es) (hpre : k.store = some s)
    (hpost : k'.store = some s') (hne : s' ≠ s) :
    k'.disk = .file (stateFile s'.data) := by
  cases h with
  | loaded _ _ => cases hok
  | imported _ _ _ => simp at hok
  | notOpened _ => cases hok
  | called hs hmove =>
    rw [hs, Option.some.injEq] at hpre
    rw [Option.some.injEq] at hpost
    subst hpre
    cases hmove with
    | refused _ _ | idle _ => exact absurd hpost.symm hne
    | stuck _ _ _ => simp [StoreOp.report] at hok
    | saved _ hsave =>
      subst hpost
      rw [saveLocked_ok hsave]
      rfl
  | crashed => cases hok

-- == the file's handles

/-- While a store is in use there is a file, and opening it would yield
the store's handles. -/
def KeeperAgrees (k : Keeper) : Prop :=
  ∀ s, k.store = some s → (∃ f, k.disk = .file f)
    ∧ ∀ s', load k.disk = .ok s' → s'.data.seenHandles = s.data.seenHandles

/-- The file of a sound store opens to its handles, if it opens. -/
theorem Sound.loaded_handles (hs : Sound s)
    (hload : load (.file (stateFile s.data)) = .ok s') :
    s'.data.seenHandles = s.data.seenHandles := by
  rw [load_stateFile hs] at hload
  split at hload
  · rw [← Except.ok.inj hload]
    rfl
  · cases hload

theorem file_of_load (hload : load disk = .ok s) : ∃ f, disk = .file f := by
  cases disk with
  | absent | unreadable => cases hload
  | file f => exact ⟨f, rfl⟩

/-- A call that failed or found nothing to do leaves the handles. -/
theorem KeeperAgrees.move (hk : KeeperAgrees k) (hsound : KeeperSound k)
    (h : KeeperMove sha256 k a k' es) : KeeperAgrees k' := by
  have hsound' := hsound.move h
  intro s hs
  cases h with
  | loaded _ hload =>
    cases hs
    refine ⟨file_of_load hload, ?_⟩
    intro s' hload'
    rw [hload, Except.ok.injEq] at hload'
    rw [hload']
  | imported _ _ hsave =>
    cases hs
    refine ⟨⟨_, rfl⟩, ?_⟩
    rw [saveLocked_ok hsave]
    exact fun s' hload => (hsound' _ rfl).loaded_handles hload
  | notOpened _ => exact hk s hs
  | crashed => cases hs
  | called hpre hmove =>
    cases hs
    have hbefore := hk _ hpre
    cases hmove with
    | refused _ _ | idle _ => exact hbefore
    | stuck hop hchange _ =>
      subst hop
      cases hchange with
      | initialized _ => exact hbefore
      | marked hop _ _ => cases hop
    | saved _ hsave =>
      refine ⟨⟨_, rfl⟩, ?_⟩
      rw [saveLocked_ok hsave]
      exact fun s' hload => (hsound' _ rfl).loaded_handles hload

/-- A file at the path stays one. -/
theorem KeeperMove.file (h : KeeperMove sha256 k a k' es)
    (hfile : ∃ f, k.disk = .file f) : ∃ f, k'.disk = .file f := by
  cases h with
  | loaded _ _ => exact hfile
  | imported _ _ _ => exact ⟨_, rfl⟩
  | notOpened _ => exact hfile
  | @called _ _ _ o _ _ =>
    cases hwritten : o.written with
    | none => exact hfile
    | some f => exact ⟨f, rfl⟩
  | crashed => exact hfile

/-- A step that writes nothing leaves the file, and the queue of a store
that stays open. -/
theorem KeeperMove.unwritten (h : KeeperMove sha256 k a k' es)
    (hnone : ∀ f, .wrote f ∉ es) :
    k'.disk = k.disk ∧ ∀ s s', k.store = some s → k'.store = some s' →
      s'.data.outbound = s.data.outbound := by
  cases h with
  | loaded hdown _ =>
    refine ⟨rfl, ?_⟩
    intro s s' hs
    rw [hdown] at hs
    cases hs
  | imported _ _ _ => exact absurd List.mem_cons_self (hnone _)
  | notOpened hdown =>
    refine ⟨rfl, ?_⟩
    intro s s' hs
    rw [hdown] at hs
    cases hs
  | @called _ _ s₁ o hpre hmove =>
    have hkeeps : o.written = none
        ∧ o.store.data.outbound = s₁.data.outbound := by
      cases hmove with
      | refused _ _ | idle _ => exact ⟨rfl, rfl⟩
      | stuck hop hchange _ =>
        subst hop
        cases hchange with
        | initialized _ => exact ⟨rfl, rfl⟩
        | marked hop _ _ => cases hop
      | saved _ _ => exact absurd List.mem_cons_self (hnone _)
    constructor
    · rw [hkeeps.1]
      rfl
    · intro s s' hs hs'
      rw [hpre] at hs
      cases hs
      cases hs'
      exact hkeeps.2
  | crashed =>
    refine ⟨rfl, ?_⟩
    intro s s' _ hs'
    cases hs'

/-- A store opened where there is a file is what the file holds. -/
theorem KeeperMove.reopened (h : KeeperMove sha256 k a k' es)
    (hdown : k.store = none) (hfile : ∃ f, k.disk = .file f)
    (hs : k'.store = some s) : load k.disk = .ok s := by
  cases h with
  | loaded _ hload =>
    cases hs
    exact hload
  | imported hload _ _ =>
    obtain ⟨f, hfile⟩ := hfile
    rw [hfile] at hload
    exact absurd hload (load_file_ne f)
  | notOpened _ =>
    rw [hdown] at hs
    cases hs
  | called hpre _ =>
    rw [hdown] at hpre
    cases hpre
  | crashed => cases hs

-- == valid text

/-- Every item of the keeper's queue is valid UTF-8. -/
def KeeperText (k : Keeper) : Prop :=
  ∀ s, k.store = some s → ∀ item ∈ s.data.outbound, item.ValidText

/-- A decoded document holds nothing but valid strings. -/
theorem Document.items (d : Document) :
    ∀ item ∈ d.val.outbound, item.ValidText := by
  have hqueue := congrArg DiskState.outbound d.property
  exact map_eq_self_iff.mp hqueue

theorem visible_hexChar {v : UInt8} (h : v < 16) :
    visible (hexChar v) = true := by
  have hlt : v.toNat < 16 := h
  rw [visible, Bool.and_eq_true, decide_eq_true_eq, decide_eq_true_eq,
    UInt8.lt_iff_toNat_lt, UInt8.lt_iff_toNat_lt]
  unfold hexChar
  split
  · simp [UInt8.toNat_add]
    omega
  · simp [UInt8.toNat_add]
    omega

theorem visible_hexEncode (s : Bytes) :
    ∀ b ∈ hexEncode s, visible b = true := by
  intro b hb
  obtain ⟨c, -, hb⟩ := List.mem_flatMap.mp hb
  have hhigh : c / 16 < 16 := by
    rw [UInt8.lt_iff_toNat_lt]
    have hc := c.toNat_lt
    simp
    omega
  have hlow : c % 16 < 16 := by
    rw [UInt8.lt_iff_toNat_lt]
    simp
    omega
  simp only [List.mem_cons, List.not_mem_nil, or_false] at hb
  rcases hb with rfl | rfl
  · exact visible_hexChar hhigh
  · exact visible_hexChar hlow

/-- A legacy item was decoded. -/
theorem legacyItem_validText {index : Nat} {row : QueueRow}
    (h : legacyItem sha256 index row = some item) : item.ValidText := by
  unfold legacyItem at h
  split at h
  · cases h
  case h_2 destination text _ =>
    simp only [Option.ite_none_right_eq_some, Option.some.injEq] at h
    obtain ⟨-, rfl⟩ := h
    have hid : ValidUTF8 ([0x6c, 0x65, 0x67, 0x61, 0x63, 0x79, 0x2d]
        ++ hexEncode ((sha256 (row.line ++ [UInt8.ofNat index])).take 8)) := by
      apply ValidUTF8.append
      · exact validUTF8_of_ascii (by simp)
      · apply validUTF8_of_ascii
        intro b hb
        exact ascii_of_visible (visible_hexEncode _ b hb)
    simp only [Outbound.ValidText, Outbound.toValid, Outbound.mk.injEq,
      and_true]
    exact ⟨hid, destination.property, text.property⟩

/-- The texts stay valid if those that are added are. -/
theorem KeeperText.move (hk : KeeperText k)
    (h : KeeperMove sha256 k a k' es)
    (hadd : ∀ item ∈ a.adds, item.ValidText) : KeeperText k' := by
  intro s hs
  cases h with
  | loaded _ hload =>
    cases hs
    obtain ⟨d, -, rfl⟩ := load_ok hload
    exact Document.items d
  | imported _ himport _ =>
    cases hs
    obtain ⟨-, rows, hqueue⟩ := importLegacy_ok sha256 himport
    rw [rebuildSeen_outbound, hqueue]
    exact legacyQueue_induction sha256 (fun _ _ _ => legacyItem_validText)
      _ _ (by simp)
  | notOpened _ => exact hk s hs
  | crashed => cases hs
  | called hpre hmove =>
    cases hs
    have hbefore := hk _ hpre
    cases hmove with
    | refused _ _ | idle _ => exact hbefore
    | stuck hop hchange _ =>
      subst hop
      cases hchange with
      | initialized _ => exact hbefore
      | marked hop _ _ => cases hop
    | saved hchange _ =>
      cases hchange with
      | initialized _ => exact hbefore
      | marked _ _ _ =>
        rw [Store.marked, setRoster_outbound]
        exact hbefore
      | added _ _ =>
        intro i hi
        rcases List.mem_append.mp hi with hi | hi
        · exact hbefore i hi
        · rw [List.mem_singleton] at hi
          exact hi ▸ hadd _ rfl
      | taken hqueue =>
        intro i hi
        apply hbefore i
        rw [hqueue]
        exact List.mem_cons_of_mem _ hi

/-- Where only valid text is added, every queue holds valid text. -/
theorem keeper_text (hrun : Exec (keeperStep sha256) ⟨disk, none⟩ tr k)
    (hadd : ∀ x ∈ tr, ∀ item ∈ x.act.adds, item.ValidText) :
    KeeperText k := by
  refine hrun.inv_of ?_ ?_ hadd
  · intro s hs
    cases hs
  · intro x hk hgiven hstep
    exact hk.move (.of_step hstep) hgiven

/-- A store that is opened is sound, holds valid text, and is what its
file would open to again. -/
theorem KeeperMove.opened (h : KeeperMove sha256 k a k' es)
    (hdown : k.store = none) (hs : k'.store = some s) :
    KeeperSound k' ∧ KeeperText k' ∧ (∃ f, k'.disk = .file f)
      ∧ ∀ s', load k'.disk = .ok s' → s' = s := by
  have hsound : KeeperSound k' := by
    apply KeeperSound.move _ h
    intro s hs
    rw [hdown] at hs
    cases hs
  have htext : (∀ item ∈ a.adds, item.ValidText) → KeeperText k' := by
    apply KeeperText.move _ h
    intro s hs
    rw [hdown] at hs
    cases hs
  cases h with
  | loaded _ hload =>
    cases hs
    refine ⟨hsound, htext (by simp [KeeperAct.adds]), file_of_load hload, ?_⟩
    intro s' hload'
    rw [hload, Except.ok.injEq] at hload'
    exact hload'.symm
  | imported _ _ hsave =>
    cases hs
    have htext' := htext (by simp [KeeperAct.adds])
    refine ⟨hsound, htext', ⟨_, rfl⟩, ?_⟩
    intro s' hload'
    rw [saveLocked_ok hsave, (hsound _ rfl).load_self (htext' _ rfl),
      Except.ok.injEq] at hload'
    exact hload'.symm
  | notOpened _ =>
    rw [hdown] at hs
    cases hs
  | called hpre _ =>
    rw [hdown] at hpre
    cases hpre
  | crashed => cases hs

/-- The store's contract over whole runs. Every store is sound, whatever
is added. Where only items of valid text are, every file that is written
is accepted, and what a successful call changed is found again when the
file is opened. -/
theorem store_contract
    (hrun : Exec (keeperStep sha256) ⟨disk, none⟩ tr k) :
    KeeperSound k
      ∧ ((∀ x ∈ tr, ∀ item ∈ x.act.adds, item.ValidText) →
        (∀ x ∈ tr, ∀ f, .wrote f ∈ x.out →
          ∃ s, x.post.store = some s ∧ load (.file f) = .ok s)
        ∧ ∀ x ∈ tr, ∀ op s s', .succeeded op ∈ x.out →
          x.pre.store = some s → x.post.store = some s' → s' ≠ s →
          ∃ s'', load x.post.disk = .ok s'' ∧ SameState s'.data s''.data) := by
  refine ⟨keeper_sound hrun, fun hadd => ?_⟩
  -- both parts open the file of the store that a step leaves
  have hopen : ∀ x ∈ tr, ∀ s, x.post.store = some s →
      load (.file (stateFile s.data)) = .ok s := by
    intro x hx s hs
    obtain ⟨t₁, t₂, rfl, hpre, hstep, -⟩ := hrun.of_mem hx
    have hmove := KeeperMove.of_step hstep
    have htext := (keeper_text hpre fun y hy =>
      hadd y (List.mem_append_left _ hy)).move hmove (hadd x hx)
    exact ((keeper_sound hpre).move hmove s hs).load_self (htext s hs)
  constructor
  · intro x hx f hwrote
    obtain ⟨t₁, t₂, rfl, -, hstep, -⟩ := hrun.of_mem hx
    obtain ⟨s, hs, rfl, -⟩ := (KeeperMove.of_step hstep).wrote hwrote
    exact ⟨s, hs, hopen x hx s hs⟩
  · intro x hx op s s' hok hs hs' hne
    obtain ⟨t₁, t₂, rfl, -, hstep, -⟩ := hrun.of_mem hx
    rw [(KeeperMove.of_step hstep).succeeded hok hs hs' hne]
    exact ⟨s', hopen x hx s' hs', rfl, rfl, rfl⟩

/-- A message of one letter. -/
def sampleItem : Outbound :=
  ⟨[0x61], [0x30, 0x31, 0x30], [0x68], ⟨0, 0⟩⟩

/-- A handle is marked and a message queued, and the file holds both. -/
theorem store_contract_sample :
    ∃ tr k s x f, Exec (keeperStep id) ⟨.absent, none⟩ tr k
      ∧ k.store = some s ∧ s.data.outbound = [sampleItem]
      ∧ s.data.seenHandles = [[0x31, 0x46]] ∧ KeeperSound k
      ∧ x ∈ tr ∧ .wrote f ∈ x.out
      ∧ ∃ s', x.post.store = some s' ∧ load (.file f) = .ok s' := by
  obtain ⟨tr, k, hrun, ⟨s, hs, hqueue, hseen⟩, ⟨x, hx, hwrote⟩, hadd⟩ :=
    exec_of_decide (keeperStep id) ⟨.absent, none⟩
      [.start noLegacy none, .call (.markSeen [0x31, 0x46]) none,
        .call (.addOutbound sampleItem) none]
      (fun tr k => (∃ s ∈ k.store, s.data.outbound = [sampleItem]
          ∧ s.data.seenHandles = [[0x31, 0x46]])
        ∧ (∃ x ∈ tr, KeeperEvent.wrote (stateFile
            ⟨1, false, [[0x31, 0x46]], [sampleItem]⟩) ∈ x.out)
        ∧ ∀ x ∈ tr, ∀ item ∈ x.act.adds, item.ValidText) (by decide +kernel)
  obtain ⟨hsound, hopen⟩ := store_contract hrun
  exact ⟨tr, k, s, x, _, hrun, hs, hqueue, hseen, hsound, hx, hwrote,
    (hopen hadd).1 x hx _ hwrote⟩

end Runs

end Callbridge.State
