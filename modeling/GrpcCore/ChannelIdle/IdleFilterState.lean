import GrpcCore.Lib.Run
import GrpcCore.Lib.Word
import Mathlib.Data.List.Count

/-!
# The state of the idle filter

`IdleFilterState` of `idle_filter_state.cc`: the number of calls in progress and two flags in one
word, which is updated in loops of compare-exchange operations. A call of a method loads the word
when it begins; each turn of its loop either replaces the word or loads it again, and a weak
compare-exchange may fail without a reason. `DecreaseCallCount` clears the flag for started calls
with the mask `~kCallsInProgressShift`, which has the same value.

In every interleaving at most one timer is outstanding, one is outstanding when the last call has
ended, and `CheckTimer` returns false only after a whole period without a call
(`IdleFilter.idle_run_correct`).
-/

namespace GrpcCore

/-! ## The loops -/

namespace IdleFilterState

def kTimerStarted : BitVec 64 := 1

def kCallsStartedSinceLastTimerCheck : BitVec 64 := 2

def kCallsInProgressShift : Nat := 2

def kCallIncrement : BitVec 64 := 1 <<< kCallsInProgressShift

/-- The new state of a turn of `IncreaseCallCount`. -/
def increased (state : BitVec 64) : BitVec 64 :=
  (state ||| kCallsStartedSinceLastTimerCheck) + kCallIncrement

/-- The new state of a turn of `DecreaseCallCount`, and whether a timer is started; `none` when the
assertion fails. -/
def decreased (state : BitVec 64) : Option (BitVec 64 × Bool) :=
  if kCallIncrement ≤ state then
    let newState := state - kCallIncrement
    if newState >>> kCallsInProgressShift = 0 ∧ newState &&& kTimerStarted = 0 then
      some ((newState ||| kTimerStarted) &&& ~~~(BitVec.ofNat 64 kCallsInProgressShift), true)
    else some (newState, false)
  else none

/-- The new state of a turn of `CheckTimer`, and whether the timer starts again; `none` when it
returns true because calls are in progress. -/
def checked (state : BitVec 64) : Option (BitVec 64 × Bool) :=
  if state >>> kCallsInProgressShift ≠ 0 then none
  else if state &&& kCallsStartedSinceLastTimerCheck ≠ 0 then
    some (state &&& ~~~kCallsStartedSinceLastTimerCheck, true)
  else some (state &&& ~~~kTimerStarted, false)

end IdleFilterState

open IdleFilterState List

inductive IdleCall where
  | increaseCallCount
  | decreaseCallCount
  | checkTimer
  deriving DecidableEq

/-- A call that has not returned, and the state it loaded last. -/
structure IdlePending where
  call : IdleCall
  state : BitVec 64
  deriving DecidableEq

/-- The word and the calls of the methods that have not returned. The other fields record what
happened: the calls in progress, the outstanding timers, whether a call has ended since the channel
last went idle, whether one was in progress at some moment since `CheckTimer` last returned or the
timer was started, and the value of this for each `CheckTimer` that returned false. -/
structure IdleFilter where
  state : BitVec 64
  pending : List IdlePending := []
  callsInProgress : Nat := 0
  timers : Nat
  endedSinceIdle : Bool := false
  activeSinceCheck : Bool := false
  idles : List Bool := []

/-- A call of a method begins, or takes a turn of its loop, in which the compare-exchange may fail.
-/
inductive IdleAction where
  | begin (call : IdleCall)
  | turn (p : IdlePending) (fails : Bool)

namespace IdleFilter

def init (startTimer : Bool) : IdleFilter where
  state := if startTimer then kTimerStarted else 0
  timers := if startTimer then 1 else 0

/-- The compare-exchange failed: the state is loaded again. -/
def retry (s : IdleFilter) (p : IdlePending) : IdleFilter :=
  { s with pending := ⟨p.call, s.state⟩ :: s.pending.erase p }

/-- `IncreaseCallCount` has replaced the state. -/
def increase (s : IdleFilter) (p : IdlePending) : IdleFilter :=
  { s with
    state := increased p.state
    pending := s.pending.erase p
    callsInProgress := s.callsInProgress + 1
    activeSinceCheck := true }

/-- `DecreaseCallCount` has replaced the state. -/
def decrease (s : IdleFilter) (p : IdlePending) (r : BitVec 64 × Bool) : IdleFilter :=
  { s with
    state := r.1
    pending := s.pending.erase p
    callsInProgress := s.callsInProgress - 1
    timers := if r.2 then s.timers + 1 else s.timers
    endedSinceIdle := true
    activeSinceCheck := if r.2 then decide (0 < s.callsInProgress - 1) else s.activeSinceCheck }

/-- `CheckTimer` returns true because it has seen calls in progress. -/
def keepTimer (s : IdleFilter) (p : IdlePending) : IdleFilter :=
  { s with
    pending := s.pending.erase p
    activeSinceCheck := decide (0 < s.callsInProgress) }

/-- `CheckTimer` has replaced the state. -/
def check (s : IdleFilter) (p : IdlePending) (r : BitVec 64 × Bool) : IdleFilter :=
  if r.2 then { s.keepTimer p with state := r.1 }
  else
    { s with
      state := r.1
      pending := s.pending.erase p
      timers := s.timers - 1
      endedSinceIdle := false
      idles := s.idles ++ [s.activeSinceCheck] }

/-- A turn of the loop of a call. -/
def turn (s : IdleFilter) (p : IdlePending) (fails : Bool) : Option IdleFilter :=
  let exchanged : Bool := p.state = s.state ∧ fails = false
  match p.call with
  | .increaseCallCount => some (if exchanged then s.increase p else s.retry p)
  | .decreaseCallCount =>
    (decreased p.state).map fun r => if exchanged then s.decrease p r else s.retry p
  | .checkTimer =>
    match checked p.state with
    | none => some (s.keepTimer p)
    | some r => some (if exchanged then s.check p r else s.retry p)

/-- One step; `none` when an assertion fails. -/
def step (s : IdleFilter) : IdleAction → Option IdleFilter
  | .begin call => some { s with pending := ⟨call, s.state⟩ :: s.pending }
  | .turn p fails => s.turn p fails

/-- The number of calls of a method that have not returned. -/
def count (s : IdleFilter) (call : IdleCall) : Nat := s.pending.countP (·.call = call)

/-- Each `DecreaseCallCount` matches an `IncreaseCallCount` that has returned, `CheckTimer` is
called for an outstanding timer, and the calls in progress can be counted in the word. -/
def Allowed (s : IdleFilter) : IdleAction → Prop
  | .begin .increaseCallCount => True
  | .begin .decreaseCallCount => s.count .decreaseCallCount < s.callsInProgress
  | .begin .checkTimer => s.count .checkTimer < s.timers
  | .turn p _ => p ∈ s.pending ∧ s.callsInProgress + 1 < 2 ^ 62

instance (s : IdleFilter) (a : IdleAction) : Decidable (s.Allowed a) := by
  unfold Allowed
  split <;> infer_instance

/-- What the protocol promises. -/
structure Correct (s : IdleFilter) : Prop where
  one : s.timers ≤ 1
  outstanding : s.callsInProgress = 0 → s.endedSinceIdle = true → s.timers = 1
  idle : ∀ active ∈ s.idles, active = false

/-! ## The word -/

/-- The word that holds `n` calls and the two flags. -/
def word (n : Nat) (flags : BitVec 2) : BitVec 64 := BitVec.ofNat 62 n ++ flags

section
variable (n : Nat) (flags : BitVec 2)

theorem toNat_word : (word n flags).toNat = 2 ^ 2 * (n % 2 ^ 62) + flags.toNat := by
  rw [word, BitVec.toNat_append, Word.shiftLeft_or_of_lt flags.isLt, BitVec.toNat_ofNat]

theorem word_or (m : BitVec 2) : word n flags ||| (0#62 ++ m) = word n (flags ||| m) := by
  rw [word, BitVec.or_append, BitVec.or_zero, word]

theorem word_and_not (m : BitVec 2) :
    word n flags &&& ~~~(0#62 ++ m) = word n (flags &&& ~~~m) := by
  rw [word, BitVec.not_append, BitVec.and_append, BitVec.not_zero, BitVec.and_allOnes, word]

theorem word_and (m : BitVec 2) : word n flags &&& (0#62 ++ m) = 0#62 ++ (flags &&& m) := by
  rw [word, BitVec.and_append, BitVec.and_zero]

theorem zero_append_eq_zero (m : BitVec 2) : 0#62 ++ m = 0 ↔ m = 0 := by
  revert m
  decide

theorem word_add : word n flags + kCallIncrement = word (n + 1) flags := by
  have hone : kCallIncrement.toNat = 4 := rfl
  refine BitVec.eq_of_toNat_eq ?_
  rw [BitVec.toNat_add, toNat_word, toNat_word]
  omega

theorem word_sub : word (n + 1) flags - kCallIncrement = word n flags := by
  rw [← word_add, BitVec.add_sub_cancel]

variable {n}

theorem word_shift (hn : n < 2 ^ 62) : word n flags >>> kCallsInProgressShift = 0 ↔ n = 0 := by
  rw [← BitVec.toNat_inj, BitVec.toNat_ushiftRight, toNat_word, Nat.shiftRight_eq_div_pow]
  change (2 ^ 2 * (n % 2 ^ 62) + flags.toNat) / 2 ^ 2 = 0 ↔ n = 0
  omega

theorem increased_word : increased (word n flags) = word (n + 1) (flags ||| 2) := by
  rw [← word_add, ← word_or]
  rfl

theorem decreased_word (hn : n + 1 < 2 ^ 62) : decreased (word (n + 1) flags) =
    some (if n = 0 ∧ flags &&& 1 = 0 then (word n ((flags ||| 1) &&& ~~~2), true)
      else (word n flags, false)) := by
  have hle : kCallIncrement ≤ word (n + 1) flags := by
    have hone : kCallIncrement.toNat = 4 := rfl
    rw [BitVec.le_def, toNat_word]
    omega
  have htimer : word n flags &&& kTimerStarted = 0 ↔ flags &&& 1 = 0 := by
    rw [← zero_append_eq_zero, ← word_and n]
    rfl
  have hnew : (word n flags ||| kTimerStarted) &&& ~~~(BitVec.ofNat 64 kCallsInProgressShift) =
      word n ((flags ||| 1) &&& ~~~2) := by
    rw [← word_and_not, ← word_or]
    rfl
  rw [decreased, if_pos hle, word_sub]
  simp only [word_shift flags (show n < 2 ^ 62 by omega), htimer, hnew]
  split <;> rfl

theorem checked_word (hn : n < 2 ^ 62) : checked (word n flags) =
    if n = 0 then
      some (if flags &&& 2 = 0 then (word n (flags &&& ~~~1), false)
        else (word n (flags &&& ~~~2), true))
    else none := by
  have hactive : word n flags &&& kCallsStartedSinceLastTimerCheck = 0 ↔ flags &&& 2 = 0 := by
    rw [← zero_append_eq_zero, ← word_and n]
    rfl
  have htimer : word n flags &&& ~~~kTimerStarted = word n (flags &&& ~~~1) := by
    rw [← word_and_not]
    rfl
  have hcheck : word n flags &&& ~~~kCallsStartedSinceLastTimerCheck = word n (flags &&& ~~~2) := by
    rw [← word_and_not]
    rfl
  rw [checked]
  simp only [ne_eq, word_shift flags hn, hactive, htimer, hcheck]
  by_cases hzero : n = 0
  · rw [if_neg (not_not.2 hzero), if_pos hzero]
    by_cases hflag : flags &&& 2 = 0
    · rw [if_neg (not_not.2 hflag), if_pos hflag]
    · rw [if_pos hflag, if_neg hflag]
  · rw [if_pos hzero, if_neg hzero]

end

/-! ## The invariant -/

/-- The word holds the number of calls and the flags; the flag for started calls is set while calls
are in progress and whenever one was in progress since the last check. -/
structure Inv (s : IdleFilter) (flags : BitVec 2) : Prop where
  state : s.state = word s.callsInProgress flags
  fits : s.callsInProgress < 2 ^ 62
  timers : s.timers = (flags &&& 1).toNat
  active : flags &&& 2 = 0 → s.callsInProgress = 0 ∧ s.activeSinceCheck = false
  ended : s.callsInProgress = 0 → s.endedSinceIdle = true → flags &&& 1 = 1
  decreases : s.count .decreaseCallCount ≤ s.callsInProgress
  checks : s.count .checkTimer ≤ s.timers
  loaded : ∀ p ∈ s.pending, p.call = .decreaseCallCount → kCallIncrement ≤ p.state
  idles : ∀ active ∈ s.idles, active = false

variable {s s' : IdleFilter} {flags : BitVec 2} {p : IdlePending} {call : IdleCall}

theorem flags_checked : ∀ flags : BitVec 2,
    (flags &&& 1).toNat ≤ 1 ∧ (flags &&& 1 = 0 ∨ flags &&& 1 = 1) ∧
    (flags ||| 2) &&& 2 ≠ 0 ∧ (flags ||| 2) &&& 1 = flags &&& 1 ∧
    ((flags ||| 1) &&& ~~~2) &&& 1 = 1 ∧ (flags &&& ~~~2) &&& 1 = flags &&& 1 ∧
    (flags &&& ~~~1) &&& 1 = 0 ∧ (flags &&& ~~~1) &&& 2 = flags &&& 2 := by
  decide

theorem Inv.timers_le (h : Inv s flags) : s.timers ≤ 1 := h.timers.trans_le (flags_checked flags).1

theorem Inv.correct (h : Inv s flags) : s.Correct where
  one := h.timers_le
  outstanding hzero hended := by
    rw [h.timers, h.ended hzero hended]
    rfl
  idle := h.idles

theorem Inv.increment_le (h : Inv s flags) (hpos : 0 < s.callsInProgress) :
    kCallIncrement ≤ s.state := by
  have hfits := h.fits
  have hone : kCallIncrement.toNat = 4 := rfl
  rw [h.state, BitVec.le_def, toNat_word]
  omega

theorem count_eq (hp : p ∈ s.pending) (call : IdleCall) :
    s.count call = (s.pending.erase p).countP (·.call = call) + if p.call = call then 1 else 0 := by
  rw [count, (perm_cons_erase hp).countP_eq, countP_cons]
  simp only [decide_eq_true_eq]

theorem countP_erase_le (hp : p ∈ s.pending) (call : IdleCall) :
    (s.pending.erase p).countP (·.call = call) ≤ s.count call := by
  rw [count_eq hp]
  exact Nat.le_add_right _ _

theorem Inv.loaded_erase (h : Inv s flags) :
    ∀ q ∈ s.pending.erase p, q.call = .decreaseCallCount → kCallIncrement ≤ q.state :=
  fun q hq => h.loaded q (mem_of_mem_erase hq)

theorem Inv.load (h : Inv s flags) {pending : List IdlePending}
    (hcount : ∀ call', pending.countP (·.call = call') = s.count call')
    (hloaded : ∀ q ∈ pending, q.call = .decreaseCallCount → kCallIncrement ≤ q.state) :
    Inv { s with pending } flags where
  state := h.state
  fits := h.fits
  timers := h.timers
  active := h.active
  ended := h.ended
  decreases := (hcount _).trans_le h.decreases
  checks := (hcount _).trans_le h.checks
  loaded := hloaded
  idles := h.idles

theorem Inv.retry (h : Inv s flags) (hp : p ∈ s.pending) : Inv (s.retry p) flags := by
  refine h.load (fun call => ?_) fun q hq hcall => ?_
  · rw [count_eq hp, countP_cons]
    simp only [decide_eq_true_eq]
  · rcases mem_cons.1 hq with rfl | hq
    · have hcount := count_eq hp .decreaseCallCount
      rw [if_pos hcall] at hcount
      exact h.increment_le (by have := h.decreases; omega)
    · exact h.loaded_erase q hq hcall

theorem Inv.begin (h : Inv s flags) (hallowed : s.Allowed (.begin call)) :
    Inv { s with pending := ⟨call, s.state⟩ :: s.pending } flags := by
  have hdecreases := h.decreases
  have hchecks := h.checks
  refine ⟨h.state, h.fits, h.timers, h.active, h.ended, ?_, ?_, fun q hq hcall => ?_, h.idles⟩
  · cases call with
    | increaseCallCount | checkTimer => exact hdecreases
    | decreaseCallCount =>
      rw [count, countP_cons_of_pos (by exact decide_eq_true rfl)]
      exact hallowed
  · cases call with
    | increaseCallCount | decreaseCallCount => exact hchecks
    | checkTimer =>
      rw [count, countP_cons_of_pos (by exact decide_eq_true rfl)]
      exact hallowed
  · rcases mem_cons.1 hq with rfl | hq
    · cases hcall
      exact h.increment_le (Nat.zero_lt_of_lt hallowed)
    · exact h.loaded q hq hcall

theorem Inv.increase (h : Inv s flags) (hp : p ∈ s.pending) (hstate : p.state = s.state)
    (hfits : s.callsInProgress + 1 < 2 ^ 62) : Inv (s.increase p) (flags ||| 2) := by
  obtain ⟨-, -, hactive, htimer, -⟩ := flags_checked flags
  refine ⟨?_, hfits, ?_, fun hzero => absurd hzero hactive, fun hzero => ?_, ?_, ?_, h.loaded_erase,
    h.idles⟩
  · rw [IdleFilter.increase, hstate, h.state, increased_word]
  · rw [htimer]
    exact h.timers
  · cases hzero
  · exact (countP_erase_le hp _).trans (h.decreases.trans (Nat.le_succ _))
  · exact (countP_erase_le hp _).trans h.checks

theorem Inv.decrease (h : Inv s flags) (hp : p ∈ s.pending) (hcall : p.call = .decreaseCallCount)
    (hstate : p.state = s.state) :
    ∃ r flags', decreased p.state = some r ∧ Inv (s.decrease p r) flags' := by
  obtain ⟨-, hbit, -, -, hstart, -⟩ := flags_checked flags
  have hfits := h.fits
  have hdecreases := h.decreases
  rw [count_eq hp, if_pos hcall] at hdecreases
  have hchecks := (countP_erase_le hp .checkTimer).trans h.checks
  obtain ⟨n, hn⟩ : ∃ n, s.callsInProgress = n + 1 := ⟨s.callsInProgress - 1, by omega⟩
  have hone : s.callsInProgress - 1 = n := by omega
  have heq := decreased_word flags (hn ▸ hfits)
  rw [← hn, ← h.state, ← hstate] at heq
  by_cases hlast : n = 0 ∧ flags &&& 1 = 0
  · rw [if_pos hlast] at heq
    have htimers : s.timers = 0 := by
      rw [h.timers, hlast.2]
      rfl
    refine ⟨_, (flags ||| 1) &&& ~~~2, heq, ⟨?_, ?_, ?_, ?_, ?_, ?_, ?_, h.loaded_erase, h.idles⟩⟩
    · simp only [IdleFilter.decrease, hone]
    · simp only [IdleFilter.decrease, hone]
      omega
    · rw [hstart]
      simp only [IdleFilter.decrease, if_true, htimers]
      rfl
    · intro _
      simp only [IdleFilter.decrease, hone, if_true, hlast.1]
      exact ⟨trivial, rfl⟩
    · exact fun _ _ => hstart
    · simp only [IdleFilter.decrease, count, hone]
      omega
    · simp only [IdleFilter.decrease, count, if_true]
      omega
  · rw [if_neg hlast] at heq
    refine ⟨_, _, heq, ⟨?_, ?_, h.timers, ?_, ?_, ?_, ?_, h.loaded_erase, h.idles⟩⟩
    · simp only [IdleFilter.decrease, hone]
    · simp only [IdleFilter.decrease, hone]
      omega
    · intro hzero
      have := (h.active hzero).1
      omega
    · intro hzero _
      simp only [IdleFilter.decrease, hone] at hzero
      exact hbit.resolve_left fun htimer => hlast ⟨hzero, htimer⟩
    · simp only [IdleFilter.decrease, count, hone]
      omega
    · exact hchecks

theorem Inv.keepTimer (h : Inv s flags) (hp : p ∈ s.pending) : Inv (s.keepTimer p) flags := by
  refine ⟨h.state, h.fits, h.timers, fun hflag => ?_, h.ended, ?_, ?_, h.loaded_erase, h.idles⟩
  · have hzero := (h.active hflag).1
    refine ⟨hzero, ?_⟩
    simp only [IdleFilter.keepTimer, hzero]
    rfl
  · exact (countP_erase_le hp _).trans h.decreases
  · exact (countP_erase_le hp _).trans h.checks

theorem Inv.check (h : Inv s flags) (hp : p ∈ s.pending) (hcall : p.call = .checkTimer)
    (hstate : p.state = s.state) {r : BitVec 64 × Bool} (hr : checked p.state = some r) :
    ∃ flags', Inv (s.check p r) flags' := by
  obtain ⟨-, -, -, -, -, hkept, hcleared, hsame⟩ := flags_checked flags
  have htimers := h.timers_le
  have hdecreases := (countP_erase_le hp .decreaseCallCount).trans h.decreases
  have hchecks := h.checks
  rw [count_eq hp, if_pos hcall] at hchecks
  rw [hstate, h.state, checked_word flags h.fits] at hr
  split at hr
  · next hzero =>
    split at hr
    · next hflag =>
      cases hr
      refine ⟨_, ⟨rfl, h.fits, ?_, ?_, nofun, hdecreases, ?_, h.loaded_erase, ?_⟩⟩
      · rw [hcleared]
        exact Nat.sub_eq_zero_of_le htimers
      · rw [hsame]
        exact h.active
      · exact Nat.le_sub_of_add_le hchecks
      · intro active hmem
        rcases mem_append.1 hmem with hmem | hmem
        · exact h.idles active hmem
        · rw [mem_singleton.1 hmem]
          exact (h.active hflag).2
    · next hflag =>
      cases hr
      have hkeep := h.keepTimer hp
      refine ⟨_, ⟨rfl, h.fits, ?_, fun _ => ⟨hzero, ?_⟩, ?_, hdecreases,
        hkeep.checks, h.loaded_erase, h.idles⟩⟩
      · rw [hkept]
        exact h.timers
      · simp only [IdleFilter.check, IdleFilter.keepTimer, if_true, hzero]
        rfl
      · rw [hkept]
        exact h.ended
  · cases hr

/-! ## Runs -/

theorem exists_decreased {state : BitVec 64} (h : kCallIncrement ≤ state) :
    ∃ r, decreased state = some r := by
  simp only [decreased, if_pos h]
  split <;> exact ⟨_, rfl⟩

theorem Inv.turn (h : Inv s flags) (hp : p ∈ s.pending) (hfits : s.callsInProgress + 1 < 2 ^ 62)
    (fails : Bool) : ∃ s' flags', s.turn p fails = some s' ∧ Inv s' flags' := by
  have hretry := h.retry hp
  simp only [IdleFilter.turn, decide_eq_true_eq]
  cases hcall : p.call with
  | increaseCallCount =>
    by_cases hexchanged : p.state = s.state ∧ fails = false
    · exact ⟨_, _, congrArg some (if_pos hexchanged), h.increase hp hexchanged.1 hfits⟩
    · exact ⟨_, _, congrArg some (if_neg hexchanged), hretry⟩
  | decreaseCallCount =>
    by_cases hexchanged : p.state = s.state ∧ fails = false
    · obtain ⟨r, flags', hr, hinv⟩ := h.decrease hp hcall hexchanged.1
      refine ⟨s.decrease p r, flags', ?_, hinv⟩
      simp only [hr, Option.map_some, if_pos hexchanged]
    · obtain ⟨r, hr⟩ := exists_decreased (h.loaded p hp hcall)
      refine ⟨s.retry p, flags, ?_, hretry⟩
      simp only [hr, Option.map_some, if_neg hexchanged]
  | checkTimer =>
    cases hr : checked p.state with
    | none => exact ⟨_, _, rfl, h.keepTimer hp⟩
    | some r =>
      by_cases hexchanged : p.state = s.state ∧ fails = false
      · obtain ⟨flags', hinv⟩ := h.check hp hcall hexchanged.1 hr
        exact ⟨_, flags', congrArg some (if_pos hexchanged), hinv⟩
      · exact ⟨_, _, congrArg some (if_neg hexchanged), hretry⟩

theorem Inv.step (h : Inv s flags) {a : IdleAction} (hallowed : s.Allowed a) :
    ∃ s' flags', s.step a = some s' ∧ Inv s' flags' := by
  cases a with
  | begin call => exact ⟨_, flags, rfl, h.begin hallowed⟩
  | turn p fails => exact h.turn hallowed.1 hallowed.2 fails

theorem inv_init (startTimer : Bool) : Inv (init startTimer) (if startTimer then 1 else 0) := by
  cases startTimer
  · refine ⟨by decide, by decide, by decide, fun _ => ⟨rfl, rfl⟩, nofun, ?_, ?_, nofun, nofun⟩
    · exact Nat.le_refl 0
    · exact Nat.le_refl 0
  · refine ⟨by decide, by decide, by decide, fun _ => ⟨rfl, rfl⟩, nofun, ?_, ?_, nofun, nofun⟩
    · exact Nat.le_refl 0
    · exact Nat.zero_le 1

/-- Every interleaving of the steps goes through, and the promises hold at its end. -/
theorem idle_run_correct (startTimer : Bool) (actions : List IdleAction)
    (h : Run.Along step Allowed (init startTimer) actions) :
    ∃ s, Run.run step (init startTimer) actions = some s ∧ s.Correct := by
  have hstep : ∀ s a, (∃ flags, Inv s flags) → s.Allowed a →
      ∃ s', step s a = some s' ∧ ∃ flags, Inv s' flags := by
    rintro s a ⟨flags, hinv⟩ hallowed
    obtain ⟨s', flags', hs', hinv'⟩ := hinv.step hallowed
    exact ⟨s', hs', flags', hinv'⟩
  obtain ⟨s, hrun, flags, hinv⟩ := h.exists_run hstep ⟨_, inv_init startTimer⟩
  exact ⟨s, hrun, hinv.correct⟩

/-- A call starts and ends while the timer runs: the first check starts the timer again, the second
one finds the channel idle. -/
def callThenIdle : List IdleAction :=
  [.begin .increaseCallCount, .turn ⟨.increaseCallCount, 1⟩ false,
    .begin .decreaseCallCount, .turn ⟨.decreaseCallCount, 7⟩ true,
      .turn ⟨.decreaseCallCount, 7⟩ false,
    .begin .checkTimer, .turn ⟨.checkTimer, 3⟩ false, .begin .checkTimer,
      .turn ⟨.checkTimer, 1⟩ false]

theorem idle_run_correct_of_callThenIdle : ∃ s, Run.run step (init true) callThenIdle = some s ∧
    s.Correct ∧ Run.Along step Allowed (init true) callThenIdle := by
  have hallowed : Run.Along step Allowed (init true) callThenIdle := by decide
  obtain ⟨s, hrun, hcorrect⟩ := idle_run_correct true callThenIdle hallowed
  exact ⟨s, hrun, hcorrect, hallowed⟩

example : (Run.run step (init true) callThenIdle).map (fun s => (s.state, s.timers, s.idles)) =
    some (0, 0, [false]) := by
  decide

end IdleFilter

end GrpcCore
