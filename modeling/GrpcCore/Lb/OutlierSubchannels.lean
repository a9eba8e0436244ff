import GrpcCore.Lb.ChildPolicy
import GrpcCore.Lb.OutlierDetection
import GrpcCore.Lib.Run

/-!
# What the watchers of an ejected address are told

The outlier detection policy hides the connectivity state of the subchannels of an ejected address.
Whether the address is ejected is stored three times: in the `SubchannelState` of the address, in
each `SubchannelWrapper` for it, and in each `WatcherWrapper` of these (`outlier_detection.cc`). The
copies agree in every state of a run, and each watcher was last told what the address and its
subchannel call for (`SubchannelState.run_told`).

The operations come one after the other. A report of a subchannel to one of its watchers is an
operation; the reports and what the watcher was told are recorded.
-/

namespace GrpcCore.OutlierDetection

open Option List

/-- `SubchannelWrapper::WatcherWrapper`; the last two fields record what happened. -/
structure WatcherWrapper where
  lastSeenState : Option ConnectivityState := none
  lastSeenStatus : Status := .ok ()
  ejected : Bool
  reports : List (ConnectivityState × Status) := []
  told : List (ConnectivityState × Status) := []

/-- What the watchers of an ejected address are told. -/
def ejectedUpdate : ConnectivityState × Status :=
  (.transientFailure, unavailableError "subchannel ejected by outlier detection")

namespace WatcherWrapper

/-- The call of `OnConnectivityStateChange` of the wrapped watcher. -/
def tell (w : WatcherWrapper) (update : ConnectivityState × Status) : WatcherWrapper :=
  { w with told := w.told ++ [update] }

def eject (w : WatcherWrapper) : WatcherWrapper :=
  let w := { w with ejected := true }
  if w.lastSeenState.isSome then w.tell ejectedUpdate else w

def uneject (w : WatcherWrapper) : WatcherWrapper :=
  let w := { w with ejected := false }
  match w.lastSeenState with
  | none => w
  | some state => w.tell (state, w.lastSeenStatus)

def onConnectivityStateChange (w : WatcherWrapper) (newState : ConnectivityState)
    (status : Status) : WatcherWrapper :=
  let sendUpdate := w.lastSeenState.isNone || !w.ejected
  let w := { w with
    lastSeenState := some newState
    lastSeenStatus := status
    reports := w.reports ++ [(newState, status)] }
  if sendUpdate then w.tell (if w.ejected then ejectedUpdate else (newState, status)) else w

end WatcherWrapper

/-- `SubchannelWrapper`, its watchers by their pointers. -/
structure SubchannelWrapper where
  ejected : Bool
  watchers : List (Nat × WatcherWrapper) := []

/-- `SubchannelState`, the wrappers in `subchannels_` by their pointers. A wrapper is in the set
from its constructor to its destructor. -/
structure SubchannelState where
  host : Host := {}
  subchannels : List (Nat × SubchannelWrapper) := []

/-- Change the entry with the key. -/
def modifyEntry {α : Type} (key : Nat) (f : α → α) (entries : List (Nat × α)) : List (Nat × α) :=
  entries.map fun e => if e.1 = key then (e.1, f e.2) else e

/-- Remove the entry with the key. -/
def eraseEntry {α : Type} (key : Nat) (entries : List (Nat × α)) : List (Nat × α) :=
  entries.filter (·.1 ≠ key)

namespace SubchannelWrapper

def mapWatchers (w : SubchannelWrapper) (f : WatcherWrapper → WatcherWrapper) :
    List (Nat × WatcherWrapper) :=
  w.watchers.map fun e => (e.1, f e.2)

def eject (w : SubchannelWrapper) : SubchannelWrapper :=
  ⟨true, w.mapWatchers WatcherWrapper.eject⟩

def uneject (w : SubchannelWrapper) : SubchannelWrapper :=
  ⟨false, w.mapWatchers WatcherWrapper.uneject⟩

def watchConnectivityState (w : SubchannelWrapper) (watcher : Nat) : SubchannelWrapper :=
  { w with watchers := w.watchers ++ [(watcher, { ejected := w.ejected })] }

def cancelConnectivityStateWatch (w : SubchannelWrapper) (watcher : Nat) : SubchannelWrapper :=
  { w with watchers := eraseEntry watcher w.watchers }

/-- The wrapped subchannel reports a state to one of the watchers. -/
def report (w : SubchannelWrapper) (watcher : Nat) (state : ConnectivityState) (status : Status) :
    SubchannelWrapper :=
  { w with watchers := modifyEntry watcher (·.onConnectivityStateChange state status) w.watchers }

end SubchannelWrapper

namespace SubchannelState

/-- Whether the ejection time is set. -/
def isEjected (s : SubchannelState) : Bool := s.host.ejectionTime.isSome

def mapSubchannels (s : SubchannelState) (f : SubchannelWrapper → SubchannelWrapper) :
    List (Nat × SubchannelWrapper) :=
  s.subchannels.map fun e => (e.1, f e.2)

def eject (s : SubchannelState) (time : Int) : SubchannelState :=
  ⟨s.host.eject time, s.mapSubchannels SubchannelWrapper.eject⟩

def uneject (s : SubchannelState) : SubchannelState :=
  ⟨s.host.uneject, s.mapSubchannels SubchannelWrapper.uneject⟩

/-- `MaybeUneject`, which calls `Uneject` when it takes back the ejection. -/
def maybeUneject (s : SubchannelState) (baseEjectionTimeInMillis maxEjectionTimeInMillis : Nat)
    (now : Int) : SubchannelState :=
  let host := s.host.maybeUneject baseEjectionTimeInMillis maxEjectionTimeInMillis now
  if s.isEjected ∧ host.ejectionTime = none then s.uneject else { s with host }

def disableEjection (s : SubchannelState) : SubchannelState :=
  { s.uneject with host := { s.host.uneject with multiplier := 0 } }

/-- The constructor of `SubchannelWrapper`. -/
def create (s : SubchannelState) (wrapper : Nat) : SubchannelState :=
  { s with subchannels := s.subchannels ++ [(wrapper, { ejected := s.isEjected })] }

/-- The destructor of `SubchannelWrapper`. -/
def destroy (s : SubchannelState) (wrapper : Nat) : SubchannelState :=
  { s with subchannels := eraseEntry wrapper s.subchannels }

def modify (s : SubchannelState) (wrapper : Nat) (f : SubchannelWrapper → SubchannelWrapper) :
    SubchannelState :=
  { s with subchannels := modifyEntry wrapper f s.subchannels }

/-- The wrapper exists and has the watcher. -/
def HasWatcher (s : SubchannelState) (wrapper watcher : Nat) : Prop :=
  ∃ e ∈ s.subchannels, e.1 = wrapper ∧ watcher ∈ e.2.watchers.map Prod.fst

instance (s : SubchannelState) (wrapper watcher : Nat) : Decidable (s.HasWatcher wrapper watcher) :=
  inferInstanceAs (Decidable (∃ e ∈ s.subchannels, _))

inductive Action where
  | eject (time : Int)
  | uneject
  | maybeUneject (baseEjectionTimeInMillis maxEjectionTimeInMillis : Nat) (now : Int)
  | disableEjection
  | create (wrapper : Nat)
  | destroy (wrapper : Nat)
  | watch (wrapper watcher : Nat)
  | cancel (wrapper watcher : Nat)
  | report (wrapper watcher : Nat) (state : ConnectivityState) (status : Status)

/-- One operation; `none` when the object it is about does not exist, or exists already. -/
def step (s : SubchannelState) : Action → Option SubchannelState
  | .eject time => some (s.eject time)
  | .uneject => some s.uneject
  | .maybeUneject base max now => some (s.maybeUneject base max now)
  | .disableEjection => some s.disableEjection
  | .create wrapper =>
    if wrapper ∈ s.subchannels.map Prod.fst then none else some (s.create wrapper)
  | .destroy wrapper =>
    if wrapper ∈ s.subchannels.map Prod.fst then some (s.destroy wrapper) else none
  | .watch wrapper watcher =>
    if wrapper ∈ s.subchannels.map Prod.fst ∧ ¬ s.HasWatcher wrapper watcher then
      some (s.modify wrapper (·.watchConnectivityState watcher))
    else none
  | .cancel wrapper watcher =>
    if wrapper ∈ s.subchannels.map Prod.fst then
      some (s.modify wrapper (·.cancelConnectivityStateWatch watcher))
    else none
  | .report wrapper watcher state status =>
    if s.HasWatcher wrapper watcher then some (s.modify wrapper (·.report watcher state status))
    else none

end SubchannelState

/-! ## Entries -/

/-- Every entry has the property. -/
def AllEntries {α : Type} (P : α → Prop) (entries : List (Nat × α)) : Prop := ∀ e ∈ entries, P e.2

section

variable {α : Type} {P Q : α → Prop} {f : α → α} {entries : List (Nat × α)}

theorem AllEntries.modify (h : AllEntries P entries) (key : Nat) (hf : ∀ x, P x → P (f x)) :
    AllEntries P (modifyEntry key f entries) := by
  intro e he
  obtain ⟨e', he', rfl⟩ := mem_map.1 he
  split
  · exact hf _ (h e' he')
  · exact h e' he'

theorem AllEntries.erase (h : AllEntries P entries) (key : Nat) :
    AllEntries P (eraseEntry key entries) :=
  fun e he => h e (mem_of_mem_filter he)

theorem AllEntries.map (h : AllEntries P entries) (hf : ∀ x, P x → Q (f x)) :
    AllEntries Q (entries.map fun e => (e.1, f e.2)) := by
  intro e he
  obtain ⟨e', he', rfl⟩ := mem_map.1 he
  exact hf _ (h e' he')

theorem AllEntries.concat {x : α} (h : AllEntries P entries) (key : Nat) (hx : P x) :
    AllEntries P (entries ++ [(key, x)]) := by
  intro e he
  rcases mem_append.1 he with he | he
  · exact h e he
  · rw [mem_singleton.1 he]
    exact hx

end

/-! ## What a watcher should have been told -/

/-- What a watcher is to know: nothing before the first report, then the ejection or the latest
report. -/
def WatcherWrapper.due (w : WatcherWrapper) (ejected : Bool) :
    Option (ConnectivityState × Status) :=
  w.reports.getLast?.map fun latest => if ejected then ejectedUpdate else latest

/-- The copies of the watcher agree with the address, and it was told what it is to know. -/
structure WatcherWrapper.Told (w : WatcherWrapper) (ejected : Bool) : Prop where
  copy : w.ejected = ejected
  seen : w.lastSeenState.map (·, w.lastSeenStatus) = w.reports.getLast?
  told : w.told.getLast? = w.due ejected

/-- The copies of the wrapper and its watchers. -/
structure SubchannelWrapper.Told (w : SubchannelWrapper) (ejected : Bool) : Prop where
  copy : w.ejected = ejected
  watchers : AllEntries (WatcherWrapper.Told · ejected) w.watchers

variable {ejected : Bool}

namespace WatcherWrapper

variable {w : WatcherWrapper}

theorem Told.of_none (h : w.Told ejected) (hnone : w.lastSeenState = none) (ejected' : Bool) :
    { w with ejected := ejected' }.Told ejected' := by
  have hseen := h.seen
  rw [hnone, map_none] at hseen
  refine ⟨rfl, h.seen, h.told.trans ?_⟩
  rw [due, due, ← hseen]
  rfl

theorem told_tell {update : ConnectivityState × Status} (hcopy : w.ejected = ejected)
    (hseen : w.lastSeenState.map (·, w.lastSeenStatus) = w.reports.getLast?)
    (hdue : w.due ejected = some update) : (w.tell update).Told ejected :=
  ⟨hcopy, hseen, getLast?_concat.trans hdue.symm⟩

theorem Told.due_eq {state : ConnectivityState} (h : w.Told ejected)
    (hstate : w.lastSeenState = some state) (ejected' : Bool) :
    w.due ejected' = some (if ejected' then ejectedUpdate else (state, w.lastSeenStatus)) := by
  rw [due, ← h.seen, hstate]
  rfl

theorem Told.eject (h : w.Told ejected) : w.eject.Told true := by
  unfold WatcherWrapper.eject
  dsimp only
  split
  · next hsome =>
    obtain ⟨state, hstate⟩ := isSome_iff_exists.1 hsome
    exact told_tell rfl h.seen (h.due_eq hstate true)
  · next hnone => exact h.of_none (not_isSome_iff_eq_none.1 hnone) true

theorem Told.uneject (h : w.Told ejected) : w.uneject.Told false := by
  unfold WatcherWrapper.uneject
  dsimp only
  split
  · next hnone => exact h.of_none hnone false
  · next state hstate => exact told_tell rfl h.seen (h.due_eq hstate false)

/-- The first report is passed on in any case, a later one unless the address is ejected; then the
watcher knows that it is. -/
theorem Told.onConnectivityStateChange (h : w.Told ejected) (state : ConnectivityState)
    (status : Status) : (w.onConnectivityStateChange state status).Told ejected := by
  have hseen : some (state, status) = (w.reports ++ [(state, status)]).getLast? :=
    getLast?_concat.symm
  unfold WatcherWrapper.onConnectivityStateChange
  dsimp only
  split
  · refine told_tell h.copy hseen ?_
    rw [due, ← hseen, map_some]
    simp only [h.copy]
  · next hsend =>
    obtain ⟨hsome, hejected⟩ : w.lastSeenState ≠ none ∧ w.ejected = true := by simpa using hsend
    obtain ⟨old, hold⟩ := ne_none_iff_exists'.1 hsome
    have htrue : ejected = true := h.copy.symm.trans hejected
    refine ⟨h.copy, hseen, ?_⟩
    rw [due, ← hseen, map_some, if_pos htrue]
    refine h.told.trans ((h.due_eq hold ejected).trans ?_)
    rw [if_pos htrue]

end WatcherWrapper

/-! ## Wrappers -/

namespace SubchannelWrapper

variable {w : SubchannelWrapper}

theorem Told.eject (h : w.Told ejected) : w.eject.Told true :=
  ⟨rfl, h.watchers.map fun _ h => h.eject⟩

theorem Told.uneject (h : w.Told ejected) : w.uneject.Told false :=
  ⟨rfl, h.watchers.map fun _ h => h.uneject⟩

theorem Told.watchConnectivityState (h : w.Told ejected) (watcher : Nat) :
    (w.watchConnectivityState watcher).Told ejected :=
  ⟨h.copy, h.watchers.concat watcher ⟨h.copy, rfl, rfl⟩⟩

theorem Told.cancelConnectivityStateWatch (h : w.Told ejected) (watcher : Nat) :
    (w.cancelConnectivityStateWatch watcher).Told ejected :=
  ⟨h.copy, h.watchers.erase watcher⟩

theorem Told.report (h : w.Told ejected) (watcher : Nat) (state : ConnectivityState)
    (status : Status) : (w.report watcher state status).Told ejected :=
  ⟨h.copy, h.watchers.modify watcher fun _ h => h.onConnectivityStateChange state status⟩

end SubchannelWrapper

/-! ## Runs -/

namespace SubchannelState

variable {s s' : SubchannelState} {a : Action}

def Told (s : SubchannelState) : Prop :=
  AllEntries (SubchannelWrapper.Told · s.isEjected) s.subchannels

theorem Told.uneject (h : s.Told) : s.uneject.Told :=
  AllEntries.map h fun _ h => h.uneject

theorem Told.maybeUneject (h : s.Told) (base max : Nat) (now : Int) :
    (s.maybeUneject base max now).Told := by
  unfold SubchannelState.maybeUneject
  dsimp only
  split
  · exact h.uneject
  · next hkeep =>
    have hsame : (s.host.maybeUneject base max now).ejectionTime.isSome = s.isEjected := by
      unfold Host.maybeUneject at hkeep ⊢
      cases htime : s.host.ejectionTime with
      | none => simp [isEjected, htime]
      | some time =>
        simp only [htime] at hkeep ⊢
        split
        · next hpast =>
          rw [if_pos hpast] at hkeep
          exact absurd ⟨by rw [isEjected, htime]; rfl, rfl⟩ hkeep
        · simp [isEjected, htime]
    intro e he
    rw [isEjected, hsame]
    exact h e he

theorem Told.step (h : s.Told) (hstep : s.step a = some s') : s'.Told := by
  cases a with
  | eject time =>
    cases hstep
    exact AllEntries.map h fun _ h => h.eject
  | uneject =>
    cases hstep
    exact h.uneject
  | maybeUneject base max now =>
    cases hstep
    exact h.maybeUneject base max now
  | disableEjection =>
    cases hstep
    exact h.uneject
  | create wrapper =>
    obtain ⟨-, heq⟩ := ite_none_left_eq_some.1 hstep
    cases heq
    exact AllEntries.concat h wrapper ⟨rfl, nofun⟩
  | destroy wrapper =>
    obtain ⟨-, rfl⟩ := ite_some_none_eq_some.1 hstep
    exact AllEntries.erase h wrapper
  | watch wrapper watcher =>
    obtain ⟨-, rfl⟩ := ite_some_none_eq_some.1 hstep
    exact AllEntries.modify h wrapper fun _ h => h.watchConnectivityState watcher
  | cancel wrapper watcher =>
    obtain ⟨-, rfl⟩ := ite_some_none_eq_some.1 hstep
    exact AllEntries.modify h wrapper fun _ h => h.cancelConnectivityStateWatch watcher
  | report wrapper watcher state status =>
    obtain ⟨-, rfl⟩ := ite_some_none_eq_some.1 hstep
    exact AllEntries.modify h wrapper fun _ h => h.report watcher state status

/-- In every state of a run, a watcher was told something exactly when its subchannel has reported a
state to it, and it was last told that the address is ejected if it is, and otherwise the latest
state reported. -/
theorem run_told (actions : List Action) (s : SubchannelState)
    (hrun : Run.run step {} actions = some s) :
    ∀ e ∈ s.subchannels, ∀ w ∈ e.2.watchers,
      (w.2.told = [] ↔ w.2.reports = []) ∧
      ∀ last, w.2.told.getLast? = some last →
        if s.host.ejectionTime.isSome then last.1 = .transientFailure ∧ last = ejectedUpdate
        else w.2.reports.getLast? = some last := by
  have htrue : Run.Along step (fun _ _ => True) {} actions := fun _ _ _ _ _ _ => trivial
  have htold : s.Told := Run.run_invariant (I := Told) htrue hrun (fun s a s' h _ => h.step) nofun
  intro e he w hw
  have h := ((htold e he).watchers w hw).told
  rw [WatcherWrapper.due] at h
  refine ⟨?_, fun last hlast => ?_⟩
  · rw [← getLast?_eq_none_iff, ← getLast?_eq_none_iff, h, map_eq_none_iff]
  · rw [h] at hlast
    obtain ⟨latest, hlatest, rfl⟩ := map_eq_some_iff.1 hlast
    rw [isEjected]
    split
    · exact ⟨rfl, rfl⟩
    · exact hlatest

/-- A watcher that knows the state of its subchannel, then an ejection, and a second subchannel with
a watcher to which it reports its first state. -/
def ejectThenCreate : List Action :=
  [.create 0, .watch 0 0, .report 0 0 .ready (.ok ()), .eject 5, .create 1, .watch 1 1,
    .report 1 1 .connecting (.ok ()), .report 0 0 .idle (.ok ())]

theorem run_told_ejectThenCreate :
    ∃ s, Run.run step {} ejectThenCreate = some s ∧ s.isEjected = true ∧
      s.subchannels.map (fun e => e.2.watchers.map (·.2.told)) =
        [[[(.ready, .ok ()), ejectedUpdate]], [[ejectedUpdate]]] ∧
      ∀ e ∈ s.subchannels, ∀ w ∈ e.2.watchers, w.2.told = [] ↔ w.2.reports = [] :=
  ⟨_, rfl, rfl, rfl, fun e he w hw => (run_told ejectThenCreate _ rfl e he w hw).1⟩

end SubchannelState

end GrpcCore.OutlierDetection
