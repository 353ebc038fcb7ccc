/-
What a release with retries does to each path. An attempt gives one more
answer to a path that has had errors only, and none to a path whose last
answer was a success (`Tried`). The inner loop never looks at the answers
of another path, which is where the list must not name a path twice.
-/
import Callbridge.Bluez.Release

namespace Callbridge.Bluez

open Lib

variable {ε : Type} {invoker : Invoker ε} {fallback : Option ε}
  {st : Releasing ε} {acc : Attempt ε} {path p : ObjectPath}
  {paths : List ObjectPath} {n : Nat} {done : Prop} {tries : List (Option ε)}

-- == the path list

/-- Each release path of the held transports, once. -/
theorem pendingReleasePaths_spec
    (transports : List (Option PendingTransport)) :
    (pendingReleasePaths transports).Nodup
      ∧ ∀ path, path ∈ pendingReleasePaths transports
        ↔ path ≠ [] ∧ ∃ held ∈ transports, pendingReleasePath held = path := by
  unfold pendingReleasePaths
  induction transports using List.reverseRecOn with
  | nil => simp
  | append_singleton front held ih =>
    obtain ⟨hnd, hmem⟩ := ih
    rw [List.foldl_append, List.foldl_cons, List.foldl_nil]
    generalize front.foldl _ [] = seen at hnd hmem ⊢
    by_cases hnew : pendingReleasePath held ≠ []
        ∧ ¬ seen.contains (pendingReleasePath held)
    · rw [if_pos hnew]
      have hfresh : pendingReleasePath held ∉ seen := by
        simpa using hnew.2
      refine ⟨List.nodup_append.mpr ⟨hnd, List.nodup_singleton _, ?_⟩, ?_⟩
      · intro path hpath path' hpath' he
        rw [List.mem_singleton] at hpath'
        exact hfresh (hpath' ▸ he ▸ hpath)
      · intro path
        rw [List.mem_append, List.mem_singleton, hmem]
        constructor
        · rintro (⟨hne, held', hin, he⟩ | rfl)
          · exact ⟨hne, held', List.mem_append_left _ hin, he⟩
          · exact ⟨hnew.1, held, by simp, rfl⟩
        · rintro ⟨hne, held', hin, he⟩
          rcases List.mem_append.mp hin with hin | hin
          · exact Or.inl ⟨hne, held', hin, he⟩
          · rw [List.mem_singleton.mp hin] at he
            exact Or.inr he.symm
    · -- the path is empty, or some transport before it has it
      rw [if_neg hnew]
      refine ⟨hnd, fun path => ?_⟩
      rw [hmem]
      constructor
      · rintro ⟨hne, held', hin, he⟩
        exact ⟨hne, held', List.mem_append_left _ hin, he⟩
      · rintro ⟨hne, held', hin, rfl⟩
        rcases List.mem_append.mp hin with hin | hin
        · exact ⟨hne, held', hin, rfl⟩
        · obtain rfl := List.mem_singleton.mp hin
          have hseen : pendingReleasePath held' ∈ seen := by
            by_contra hout
            exact hnew ⟨hne, by simpa using hout⟩
          exact (hmem _).mp hseen

-- == one path

/-- The answers a path has had, in order. -/
def triesOf (path : ObjectPath) (invoked : List (ObjectPath × Option ε)) :
    List (Option ε) :=
  (invoked.filter fun e => e.1 == path).map Prod.snd

/-- A path after `n` attempts: `n` errors, or fewer and then a success. -/
inductive Tried (n : Nat) : Prop → List (Option ε) → Prop
  | failed {done : Prop} {errors : List (Option ε)} : ¬ done →
      (∀ e ∈ errors, e ≠ none) → errors.length = n → Tried n done errors
  | succeeded {done : Prop} {errors : List (Option ε)} : done →
      (∀ e ∈ errors, e ≠ none) → errors.length < n →
      Tried n done (errors ++ [none])

theorem Tried.mem_iff (h : Tried n done tries) : none ∈ tries ↔ done := by
  cases h with
  | failed hno herr _ =>
    exact ⟨fun hmem => absurd rfl (herr _ hmem), fun hyes => absurd hyes hno⟩
  | succeeded hyes _ _ => exact ⟨fun _ => hyes, fun _ => by simp⟩

theorem Tried.length_le (h : Tried n done tries) : tries.length ≤ n := by
  cases h with
  | failed _ _ hlen => exact Nat.le_of_eq hlen
  | succeeded _ _ hlen =>
    rw [List.length_append]
    exact hlen

theorem Tried.length_pos (h : Tried n done tries) (hn : 0 < n) :
    1 ≤ tries.length := by
  cases h with
  | failed _ _ hlen => omega
  | succeeded _ _ _ => simp

/-- Nothing but the last answer was a success. -/
theorem Tried.stops (h : Tried n done tries) :
    ∀ e ∈ tries.dropLast, e ≠ none := by
  cases h with
  | failed _ herr _ => exact fun e he => herr e (List.mem_of_mem_dropLast he)
  | succeeded _ herr _ =>
    rw [List.dropLast_concat]
    exact herr

/-- A path that is released is left alone. -/
theorem Tried.skip (h : Tried n done tries) (hdone : done) :
    Tried (n + 1) done tries := by
  cases h with
  | failed hno _ _ => exact absurd hdone hno
  | succeeded hyes herr hlen =>
    exact .succeeded hyes herr (Nat.lt_succ_of_lt hlen)

/-- One more answer to a path not released yet. -/
theorem Tried.again {done' : Prop} (h : Tried n done tries) (hno : ¬ done)
    {e : Option ε} (he : done' ↔ e = none) :
    Tried (n + 1) done' (tries ++ [e]) := by
  cases h with
  | succeeded hyes _ _ => exact absurd hyes hno
  | failed _ herr hlen =>
    cases e with
    | none => exact .succeeded (he.mpr rfl) herr (by omega)
    | some e =>
      refine .failed (mt he.mp (by simp)) ?_ ?_
      · intro e' he'
        rcases List.mem_append.mp he' with hold | hnew
        · exact herr e' hold
        · rw [List.mem_singleton.mp hnew]
          simp
      · rw [List.length_append, hlen]
        rfl

-- == one attempt

/-- The attempts counted are the outcomes counted. -/
def Balanced (st st' : Stats) : Prop :=
  st'.releaseAttempts - st.releaseAttempts
    = (st'.releaseSuccesses - st.releaseSuccesses)
      + (st'.releaseErrors - st.releaseErrors)

theorem Balanced.refl (st : Stats) : Balanced st st := by
  simp [Balanced]

theorem Balanced.trans {st st' st'' : Stats} (h : Balanced st st')
    (h' : Balanced st' st'') : Balanced st st'' := by
  unfold Balanced at h h' ⊢
  grind

theorem releaseMediaTransport_balanced (path : ObjectPath) :
    Balanced st.broker.stats
      (releaseMediaTransport invoker st path).2.broker.stats := by
  unfold releaseMediaTransport Balanced
  cases invoker st.invoked.length path with
  | none =>
    simp only [Broker.statistic, Stats.count, Option.isNone_none]
    grind
  | some e =>
    simp only [Broker.statistic, Stats.count, Option.isNone_some]
    grind

/-- What the inner loop has done for the paths it has been over. -/
structure Turn (paths : List ObjectPath) (acc acc' : Attempt ε) :
    Prop where
  others : ∀ q ∉ paths, (q ∈ acc'.succeeded ↔ q ∈ acc.succeeded)
    ∧ triesOf q acc'.state.invoked = triesOf q acc.state.invoked
  tried : ∀ {n}, ∀ q ∈ paths,
    Tried n (q ∈ acc.succeeded) (triesOf q acc.state.invoked) →
    Tried (n + 1) (q ∈ acc'.succeeded) (triesOf q acc'.state.invoked)
  all : acc'.allReleased = true
    ↔ acc.allReleased = true ∧ ∀ q ∈ paths, q ∈ acc'.succeeded
  fellBack : acc'.state.fellBack = acc.state.fellBack
  counted : Balanced acc.state.broker.stats acc'.state.broker.stats

theorem Turn.nil (acc : Attempt ε) : Turn [] acc acc where
  others q _ := ⟨Iff.rfl, rfl⟩
  tried q hq := by cases hq
  all := by simp
  fellBack := rfl
  counted := Balanced.refl _

/-- A path, then the others. -/
theorem Turn.cons {acc mid acc' : Attempt ε} (hfresh : path ∉ paths)
    (h : Turn [path] acc mid) (h' : Turn paths mid acc') :
    Turn (path :: paths) acc acc' where
  others q hq := by
    rw [List.mem_cons, not_or] at hq
    have hone := h.others q (by simpa using hq.1)
    have hrest := h'.others q hq.2
    exact ⟨hrest.1.trans hone.1, hrest.2.trans hone.2⟩
  tried {n} q hq htried := by
    by_cases hp : q = path
    · subst hp
      obtain ⟨hdone, htries⟩ := h'.others q hfresh
      rw [htries, propext hdone]
      exact h.tried q (List.mem_singleton_self q) htried
    · have hin : q ∈ paths := by
        rcases List.mem_cons.mp hq with he | hin
        · exact absurd he hp
        · exact hin
      obtain ⟨hdone, htries⟩ := h.others q (by simpa using hp)
      apply h'.tried q hin
      rw [htries, propext hdone]
      exact htried
  all := by
    rw [h'.all, h.all, List.forall_mem_singleton, List.forall_mem_cons,
      (h'.others path hfresh).1, and_assoc]
  fellBack := h'.fellBack.trans h.fellBack
  counted := h.counted.trans h'.counted

theorem triesOf_append (invoked : List (ObjectPath × Option ε))
    (path q : ObjectPath) (e : Option ε) :
    triesOf q (invoked ++ [(path, e)])
      = triesOf q invoked ++ if path = q then [e] else [] := by
  unfold triesOf
  by_cases hp : path = q <;> simp [hp]

/-- One path: it is released already, or it is tried once more. -/
theorem releasePath_cases (invoker : Invoker ε) (acc : Attempt ε)
    (path : ObjectPath) :
    (path ∈ acc.succeeded ∧ releasePath invoker acc path = acc)
      ∨ path ∉ acc.succeeded ∧ ∃ e,
        releasePath invoker acc path
          = ⟨(releaseMediaTransport invoker acc.state path).2,
              if e = none then insert path acc.succeeded else acc.succeeded,
              acc.allReleased && e.isNone⟩
        ∧ (releaseMediaTransport invoker acc.state path).2.invoked
          = acc.state.invoked ++ [(path, e)] := by
  by_cases hdone : path ∈ acc.succeeded
  · exact Or.inl ⟨hdone, if_pos hdone⟩
  · right
    refine ⟨hdone, invoker acc.state.invoked.length path, ?_, rfl⟩
    unfold releasePath
    rw [if_neg hdone]
    cases he : invoker acc.state.invoked.length path with
    | none | some e => simp [releaseMediaTransport, he]

/-- One attempt for one path. -/
theorem Turn.one (acc : Attempt ε) (path : ObjectPath) :
    Turn [path] acc (releasePath invoker acc path) := by
  rcases releasePath_cases invoker acc path with
    ⟨hdone, hsame⟩ | ⟨hno, e, hnext, hinvoked⟩
  · rw [hsame]
    refine ⟨fun q _ => ⟨Iff.rfl, rfl⟩, ?_, ?_, rfl, Balanced.refl _⟩
    · intro n q hq htried
      rw [List.mem_singleton.mp hq] at htried ⊢
      exact htried.skip hdone
    · simp [hdone]
  · rw [hnext]
    refine ⟨?_, ?_, ?_, rfl, releaseMediaTransport_balanced path⟩
    · intro q hq
      have hne : q ≠ path := by simpa using hq
      refine ⟨?_, ?_⟩
      · split
        · simp [hne]
        · exact Iff.rfl
      · rw [hinvoked, triesOf_append, if_neg (Ne.symm hne),
          List.append_nil]
    · intro n q hq htried
      rw [List.mem_singleton.mp hq] at htried ⊢
      rw [hinvoked, triesOf_append, if_pos rfl]
      apply htried.again hno
      by_cases he : e = none <;> simp [he, hno]
    · by_cases he : e = none <;> simp [he, hno]

theorem Turn.fold (invoker : Invoker ε) (hnd : paths.Nodup)
    (acc : Attempt ε) :
    Turn paths acc (paths.foldl (releasePath invoker) acc) := by
  induction paths generalizing acc with
  | nil => exact .nil acc
  | cons path rest ih =>
    rw [List.nodup_cons] at hnd
    exact (Turn.one acc path).cons hnd.1 (ih hnd.2 _)

-- == the attempts

/-- How `k` attempts end, the fallback having been called with the answers
`before`. -/
inductive Finish (paths : List ObjectPath) (fallback : Option ε)
    (before : List (Option ε)) (k : Nat) : Option ε × Releasing ε → Prop
  | released {m : Nat} {st : Releasing ε} : 0 < m → m ≤ k →
      (∀ q ∈ paths, Tried m True (triesOf q st.invoked)) →
      st.fellBack = before → Finish paths fallback before k (none, st)
  | fellBack {st : Releasing ε} (done : Finset ObjectPath) :
      (∀ q ∈ paths, Tried k (q ∈ done) (triesOf q st.invoked)) →
      (∃ q ∈ paths, q ∉ done) → st.fellBack = before ++ [fallback] →
      Finish paths fallback before k (fallback, st)

/-- What the attempts leave alone. -/
structure Aside (paths : List ObjectPath) (st st' : Releasing ε) :
    Prop where
  others : ∀ q ∉ paths, triesOf q st'.invoked = triesOf q st.invoked
  counted : Balanced st.broker.stats st'.broker.stats

/-- The induction is on the attempts that are left, `n` having been made:
every path has had what `n` attempts give it, and where none is left one
of the paths is still to be released. -/
theorem releaseAttempts_spec (invoker : Invoker ε) (fallback : Option ε)
    (hnd : paths.Nodup) {k : Nat} (left : Nat) :
    ∀ (st : Releasing ε) {n succeeded}, n + left = k →
      (left = 0 → ∃ q ∈ paths, q ∉ succeeded) →
      (∀ q ∈ paths, Tried n (q ∈ succeeded) (triesOf q st.invoked)) →
      Finish paths fallback st.fellBack k
          (releaseAttempts invoker fallback paths left succeeded st)
        ∧ Aside paths st
          (releaseAttempts invoker fallback paths left succeeded st).2 := by
  -- on the rounds left; `n` of the `k` are over
  induction left with
  | zero =>
    intro st n succeeded hk hopen htried
    obtain rfl : n = k := hk
    refine ⟨.fellBack succeeded htried (hopen rfl) rfl, fun _ _ => rfl, ?_⟩
    simp [Balanced, releaseAttempts, fallbackTransportOwner,
      Broker.statistic, Stats.count]
  | succ left ih =>
    intro st n succeeded hk _ htried
    have hturn := Turn.fold invoker hnd ⟨st, succeeded, true⟩
    rw [releaseAttempts]
    generalize paths.foldl (releasePath invoker) ⟨st, succeeded, true⟩
      = acc at hturn
    have hnext : ∀ q ∈ paths, Tried (n + 1) (q ∈ acc.succeeded)
        (triesOf q acc.state.invoked) :=
      fun q hq => hturn.tried q hq (htried q hq)
    have hothers := fun q hq => (hturn.others q hq).2
    rw [← show acc.state.fellBack = st.fellBack from hturn.fellBack]
    by_cases hall : acc.allReleased = true
    · rw [if_pos hall]
      have hin := (hturn.all.mp hall).2
      refine ⟨.released (m := n + 1) (by omega) (by omega) ?_ rfl,
        hothers, hturn.counted⟩
      intro q hq
      have := hnext q hq
      rwa [eq_true (hin q hq)] at this
    · rw [if_neg hall]
      -- a round that did not release all leaves a path open
      have hopen : ∃ q ∈ paths, q ∉ acc.succeeded := by
        by_contra hnone
        apply hall
        refine hturn.all.mpr ⟨rfl, fun q hq => ?_⟩
        by_contra hout
        exact hnone ⟨q, hq, hout⟩
      obtain ⟨hfinish, hrest⟩ :=
        ih acc.state (by omega) (fun _ => hopen) hnext
      exact ⟨hfinish, fun q hq => (hrest.others q hq).trans (hothers q hq),
        hturn.counted.trans hrest.counted⟩

/-- A release of the paths, as its caller may rely on it. -/
structure Released (paths : List ObjectPath) (fallback : Option ε)
    (b : Broker) (out : Option ε × Releasing ε) : Prop where
  tries : ∀ path ∈ paths, 1 ≤ (triesOf path out.2.invoked).length
    ∧ (triesOf path out.2.invoked).length ≤ 3
  stops : ∀ path ∈ paths, ∀ e ∈ (triesOf path out.2.invoked).dropLast,
    e ≠ none
  others : ∀ path ∉ paths, triesOf path out.2.invoked = []
  fellBack : (∃ path ∈ paths, none ∉ triesOf path out.2.invoked) →
    out.2.fellBack = [fallback]
  untouched : (∀ path ∈ paths, none ∈ triesOf path out.2.invoked) →
    out.2.fellBack = []
  nil_iff : out.1 = none
    ↔ (∀ path ∈ paths, none ∈ triesOf path out.2.invoked)
      ∨ out.2.fellBack = [none]
  counted : Balanced b.stats out.2.broker.stats

/-- Three attempts, and the fallback for what they leave. -/
theorem releaseTransportPaths_spec (b : Broker) (hnd : paths.Nodup) :
    Released paths fallback b
      (releaseTransportPaths invoker fallback b paths) := by
  -- before the first round no path has been tried
  have hstart : ∀ q ∈ paths, Tried (ε := ε) 0 (q ∈ (∅ : Finset ObjectPath))
      (triesOf q []) := by
    intro q _
    exact .failed (Finset.notMem_empty q) (by simp [triesOf]) rfl
  obtain ⟨hfinish, haside⟩ := releaseAttempts_spec invoker fallback hnd
    transportReleaseRetries ⟨b, [], []⟩ (Nat.zero_add _)
    (by simp [transportReleaseRetries]) hstart
  unfold releaseTransportPaths
  generalize releaseAttempts invoker fallback paths transportReleaseRetries ∅
    ⟨b, [], []⟩ = out at hfinish haside ⊢
  cases hfinish with
  | @released m st hpos hle htried hback =>
    have hall : ∀ path ∈ paths, none ∈ triesOf path st.invoked :=
      fun path hp => (htried path hp).mem_iff.mpr trivial
    refine ⟨?_, fun path hp => (htried path hp).stops, haside.others, ?_,
      fun _ => hback, ?_, haside.counted⟩
    · intro path hp
      exact ⟨(htried path hp).length_pos hpos,
        Nat.le_trans (htried path hp).length_le hle⟩
    · rintro ⟨path, hp, hno⟩
      exact absurd (hall path hp) hno
    · exact ⟨fun _ => Or.inl hall, fun _ => rfl⟩
  | @fellBack st done htried hopen hback =>
    have hopen' : ∃ path ∈ paths, none ∉ triesOf path st.invoked := by
      obtain ⟨q, hq, hno⟩ := hopen
      exact ⟨q, hq, mt (htried q hq).mem_iff.mp hno⟩
    have hnot : ¬ ∀ path ∈ paths, none ∈ triesOf path st.invoked := by
      obtain ⟨q, hq, hno⟩ := hopen'
      exact fun hall => hno (hall q hq)
    refine ⟨?_, fun path hp => (htried path hp).stops, haside.others,
      fun _ => hback, fun hall => absurd hall hnot, ?_, haside.counted⟩
    · intro path hp
      exact ⟨(htried path hp).length_pos (by decide),
        (htried path hp).length_le⟩
    · have hback' : st.fellBack = [fallback] := hback
      rw [hback']
      simp [hnot]

/-- The paths of a list of transports are its release paths, each once;
and a release of any such list, whatever BlueZ answers, tries every path
at most three times and none after a success, falls back once if a path
was not released, and counts what it tried. -/
theorem release_with_retries (transports : List (Option PendingTransport))
    (invoker : Invoker ε) (fallback : Option ε) (b : Broker)
    (hnd : paths.Nodup) :
    ((pendingReleasePaths transports).Nodup
      ∧ ∀ path, path ∈ pendingReleasePaths transports
        ↔ path ≠ [] ∧ ∃ held ∈ transports, pendingReleasePath held = path)
      ∧ Released paths fallback b
        (releaseTransportPaths invoker fallback b paths) :=
  ⟨pendingReleasePaths_spec transports, releaseTransportPaths_spec b hnd⟩

/-- Of two paths the first cannot be released. -/
def stuckInvoker : Invoker Unit :=
  fun _ path => if path = [0x61] then some () else none

/-- One path never succeeds, the other at once. -/
theorem release_with_retries_stuck :
    ([[0x61], [0x62]] : List ObjectPath).Nodup
      ∧ (releaseTransportPaths stuckInvoker none (newBroker [] false 0)
          [[0x61], [0x62]]).2.fellBack = [none]
      ∧ triesOf [0x61] (releaseTransportPaths stuckInvoker none
          (newBroker [] false 0) [[0x61], [0x62]]).2.invoked
        = [some (), some (), some ()]
      ∧ triesOf [0x62] (releaseTransportPaths stuckInvoker none
          (newBroker [] false 0) [[0x61], [0x62]]).2.invoked = [none] := by
  have hnd : ([[0x61], [0x62]] : List ObjectPath).Nodup := by decide
  have hspec := (release_with_retries [] stuckInvoker none
    (newBroker [] false 0) hnd).2
  exact ⟨hnd, hspec.fellBack ⟨[0x61], by decide, by decide⟩, by decide,
    by decide⟩

end Callbridge.Bluez
