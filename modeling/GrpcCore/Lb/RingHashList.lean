import GrpcCore.Lb.RingHash
import GrpcCore.Lib.Run

/-!
# The subchannel list of the ring_hash policy

`RingHashSubchannelList` and `RingHashSubchannelData` in `ring_hash.cc`: what a connectivity
notification does to one list. The list counts its subchannels by the state recorded for them,
derives the state of the policy from the counts by six rules, and keeps one connection attempt going
while the policy has no ready subchannel (`RingHashList.notify_internal`).

A list is pending until all its subchannels have reported a state, unless the policy has no list
yet. A list that was replaced receives no notifications. A failed assertion is `none`.
-/

namespace GrpcCore

open List Option

/-- `RingHashSubchannelData`; `seen` says that the first notification has come. -/
structure RingHashSubchannel where
  seen : Bool := false
  connectivityState : ConnectivityState := .idle
  connectivityStatus : Status := .ok ()

/-- `num_idle_`, `num_ready_`, `num_connecting_` and `num_transient_failure_`. -/
structure RingHashCounters where
  idle : Nat
  ready : Nat := 0
  connecting : Nat := 0
  transientFailure : Nat := 0

namespace RingHashCounters

/-- The first half of `UpdateStateCountersLocked`. -/
def leave (c : RingHashCounters) : ConnectivityState → Option RingHashCounters
  | .idle => if 0 < c.idle then some { c with idle := c.idle - 1 } else none
  | .ready => if 0 < c.ready then some { c with ready := c.ready - 1 } else none
  | .connecting => if 0 < c.connecting then some { c with connecting := c.connecting - 1 } else none
  | .transientFailure =>
    if 0 < c.transientFailure then some { c with transientFailure := c.transientFailure - 1 }
    else none
  | .shutdown => some c

/-- The second half of `UpdateStateCountersLocked`. -/
def enter (c : RingHashCounters) : ConnectivityState → Option RingHashCounters
  | .idle => some { c with idle := c.idle + 1 }
  | .ready => some { c with ready := c.ready + 1 }
  | .connecting => some { c with connecting := c.connecting + 1 }
  | .transientFailure => some { c with transientFailure := c.transientFailure + 1 }
  | .shutdown => none

/-- `UpdateStateCountersLocked`. -/
def update (c : RingHashCounters) (old new : ConnectivityState) : Option RingHashCounters :=
  (c.leave old).bind (·.enter new)

/-- The state to report, and `start_connection_attempt`. -/
def aggregate (c : RingHashCounters) (numSubchannels : Nat) : ConnectivityState × Bool :=
  if 0 < c.ready then (.ready, false)
  else if 2 ≤ c.transientFailure then (.transientFailure, true)
  else if 0 < c.connecting then (.connecting, false)
  else if c.transientFailure = 1 ∧ 1 < numSubchannels then (.connecting, true)
  else if 0 < c.idle then (.idle, false)
  else (.transientFailure, true)

end RingHashCounters

/-- `RingHashSubchannelList`, with whether it is the policy's current list. The last three fields
are what the last call did: the report to the channel, the subchannel that was asked to connect, and
whether a new resolution was requested. -/
structure RingHashList where
  subchannels : List RingHashSubchannel
  counters : RingHashCounters
  internallyTriggered : Option Nat := none
  lastFailure : Status := .ok ()
  current : Bool := false
  reported : Option (ConnectivityState × Status) := none
  requested : Option Nat := none
  reresolution : Bool := false

/-- The arguments of `OnConnectivityStateChange`, and the subchannel it is called for. -/
structure RingHashNotification where
  index : Nat
  state : ConnectivityState
  status : Status := .ok ()

namespace RingHashList

def new (n : Nat) : RingHashList where
  subchannels := List.replicate n {}
  counters := { idle := n }

def states (s : RingHashList) : List ConnectivityState := s.subchannels.map (·.connectivityState)

/-- The part of `UpdateRingHashConnectivityStateLocked` for the current list. -/
def report (s : RingHashList) (index : Nat) (connectionAttemptComplete : Bool) (status : Status) :
    RingHashList :=
  let n := s.subchannels.length
  let (state, startConnectionAttempt) := s.counters.aggregate n
  let lastFailure :=
    if state = .transientFailure ∧ !status.isOk then
      unavailableError ("no reachable subchannels; last error: " ++ statusToString status)
    else s.lastFailure
  let internallyTriggered :=
    if s.internallyTriggered = some index ∧ connectionAttemptComplete then none
    else s.internallyTriggered
  let start := startConnectionAttempt && internallyTriggered.isNone
  let nextIndex := (index + 1) % n
  { s with
    lastFailure := lastFailure
    reported := some (state, if state = .transientFailure then lastFailure else .ok ())
    internallyTriggered := if start then some nextIndex else internallyTriggered
    requested := if start then some nextIndex else none }

def updateRingHashConnectivityStateLocked (s : RingHashList) (index : Nat)
    (connectionAttemptComplete : Bool) (status : Status) : RingHashList :=
  let s := { s with current := s.current || s.subchannels.all (·.seen) }
  if s.current then s.report index connectionAttemptComplete status
  else { s with reported := none, requested := none }

/-- The promotion of a new list in `UpdateLocked`; `empty` is the status for an empty list. -/
def promote (s : RingHashList) (empty : Status) : RingHashList :=
  let s := { s with current := true }
  if s.subchannels.length = 0 then { s with reported := some (.transientFailure, empty) }
  else s.updateRingHashConnectivityStateLocked 0 false (.ok ())

/-- A list at the time of its first notification. -/
def start (n : Nat) (promoted : Bool) (empty : Status) : RingHashList :=
  if promoted then (new n).promote empty else new n

/-- `OnConnectivityStateChange` and `ProcessConnectivityChangeLocked` up to the update of the
policy's state, with the status that is handed on. -/
def record (s : RingHashList) (e : RingHashNotification) : Option (RingHashList × Status) :=
  match s.subchannels[e.index]? with
  | none => none
  | some data =>
    -- a failed subchannel stays failed until it is ready
    let sticky := data.connectivityState = .transientFailure ∧ e.state ≠ .ready ∧
      e.state ≠ .transientFailure
    let newState := if sticky then .transientFailure else e.state
    let status := if sticky then data.connectivityStatus else e.status
    (s.counters.update data.connectivityState newState).map fun counters =>
      ({ s with
          subchannels := s.subchannels.set e.index ⟨true, newState, status⟩
          counters := counters
          reresolution := data.seen && (e.state = .transientFailure || e.state = .idle) },
        status)

def notify (s : RingHashList) (e : RingHashNotification) : Option RingHashList :=
  (s.record e).map fun (s, status) =>
    s.updateRingHashConnectivityStateLocked e.index (decide (e.state ≠ .connecting)) status

end RingHashList

/-! ## The counters and the rules -/

/-- The number of the first of the six rules that applies to the recorded states. -/
def aggregationRule (l : List ConnectivityState) : Nat :=
  if 1 ≤ l.count .ready then 1
  else if 2 ≤ l.count .transientFailure then 2
  else if 1 ≤ l.count .connecting then 3
  else if l.count .transientFailure = 1 ∧ 1 < l.length then 4
  else if 1 ≤ l.count .idle then 5
  else 6

def aggregationState : Nat → ConnectivityState
  | 1 => .ready
  | 3 | 4 => .connecting
  | 5 => .idle
  | _ => .transientFailure

namespace RingHashCounters

/-- The counters are the numbers of subchannels by recorded state. -/
structure Counts (c : RingHashCounters) (l : List ConnectivityState) : Prop where
  idle : c.idle = l.count .idle
  ready : c.ready = l.count .ready
  connecting : c.connecting = l.count .connecting
  transientFailure : c.transientFailure = l.count .transientFailure
  noShutdown : ConnectivityState.shutdown ∉ l

variable {c : RingHashCounters} {l : List ConnectivityState}

theorem Counts.update (h : c.Counts l) {i : Nat} {old new : ConnectivityState}
    (hi : l[i]? = some old) (hnew : new ≠ .shutdown) :
    ∃ c', c.update old new = some c' ∧ c'.Counts (l.set i new) := by
  obtain ⟨hlt, hget⟩ := List.getElem?_eq_some_iff.1 hi
  have hmem : old ∈ l := hget ▸ getElem_mem hlt
  have hpos : 0 < l.count old := count_pos_iff.2 hmem
  have hsh : ConnectivityState.shutdown ∉ l.set i new := fun hin =>
    (mem_or_eq_of_mem_set hin).elim h.noShutdown fun heq => hnew heq.symm
  obtain ⟨h1, h2, h3, h4, h5⟩ := h
  have hset : ∀ x, (l.set i new).count x =
      l.count x - (if old = x then 1 else 0) + if new = x then 1 else 0 := by
    intro x
    simp [count_set hlt, hget]
  cases old with
  | shutdown => exact absurd hmem h5
  | idle | connecting | ready | transientFailure =>
    cases new with
    | shutdown => exact absurd rfl hnew
    | idle | connecting | ready | transientFailure =>
      simp only [RingHashCounters.update, leave, h1, h2, h3, h4, hpos, if_true, bind_some,
        enter]
      exact ⟨_, rfl, by simp [hset], by simp [hset], by simp [hset], by simp [hset], hsh⟩

theorem Counts.aggregate (h : c.Counts l) : c.aggregate l.length =
    (aggregationState (aggregationRule l), decide (aggregationRule l ∈ [2, 4, 6])) := by
  unfold RingHashCounters.aggregate aggregationRule
  rw [h.idle, h.ready, h.connecting, h.transientFailure]
  simp only [Nat.lt_iff_add_one_le, Nat.zero_add]
  repeat' split
  all_goals rfl

end RingHashCounters

namespace RingHashList

variable {s s' : RingHashList} {e : RingHashNotification} {n : Nat}

structure Valid (n : Nat) (s : RingHashList) : Prop where
  length : s.subchannels.length = n
  counts : s.counters.Counts s.states
  reported : ∀ r, s.reported = some r →
    s.current ∧ r.1 = aggregationState (aggregationRule s.states)
  pending : s.current = false → s.internallyTriggered = none
  current : s.current → s.reported ≠ none

variable {index : Nat} {complete : Bool} {status : Status}

theorem report_valid
    (hn : s.subchannels.length = n) (hc : s.counters.Counts s.states) (hcur : s.current) :
    Valid n (s.report index complete status) := by
  have hagg := hc.aggregate
  rw [states, length_map] at hagg
  refine ⟨hn, hc, fun r hr => ⟨hcur, ?_⟩, fun h => ?_, fun _ => by simp [report]⟩
  · simp only [report, hagg, some.injEq] at hr
    rw [← hr]
    rfl
  · exact absurd hcur (by simpa [report] using h)

theorem update_valid (hn : s.subchannels.length = n) (hc : s.counters.Counts s.states)
    (hp : s.current = false → s.internallyTriggered = none) :
    Valid n (s.updateRingHashConnectivityStateLocked index complete status) := by
  unfold updateRingHashConnectivityStateLocked
  dsimp only
  split
  · next hcur => exact report_valid hn hc hcur
  · next hcur =>
    simp only [Bool.or_eq_true, not_or, Bool.not_eq_true] at hcur
    exact ⟨hn, hc, fun r hr => absurd hr (by simp), fun _ => hp hcur.1, by simp [hcur.1, hcur.2]⟩

theorem update_states :
    (s.updateRingHashConnectivityStateLocked index complete status).states = s.states := by
  unfold updateRingHashConnectivityStateLocked
  dsimp only
  split <;> rfl

theorem new_counts (n : Nat) : (new n).counters.Counts (new n).states := by
  constructor <;> simp [new, states, count_replicate, mem_replicate]

theorem start_valid (n : Nat) (promoted : Bool) (empty : Status) :
    Valid n (start n promoted empty) := by
  have hlen : (new n).subchannels.length = n := length_replicate
  unfold start
  split
  · unfold promote
    dsimp only
    split
    · next h0 =>
      refine ⟨hlen, new_counts n, fun r hr => ⟨rfl, ?_⟩, nofun, fun _ => nofun⟩
      have hnil : (new n).states = [] := map_eq_nil_iff.2 (length_eq_zero_iff.1 h0)
      cases hr
      exact congrArg (fun l => aggregationState (aggregationRule l)) hnil.symm
    · exact update_valid hlen (new_counts n) nofun
  · exact ⟨hlen, new_counts n, nofun, fun _ => rfl, nofun⟩

theorem start_internallyTriggered (n : Nat) (promoted : Bool) (empty : Status) :
    (start n promoted empty).internallyTriggered = none := by
  unfold start
  split
  · unfold promote
    dsimp only
    split
    · rfl
    · next h0 =>
      -- all subchannels are idle, so rule 5 applies
      have hpos : 0 < n := by
        rw [new, length_replicate] at h0
        omega
      simp [updateRingHashConnectivityStateLocked, report, RingHashCounters.aggregate, new, hpos]
  · rfl

theorem index_lt (h : Valid n s) (hs' : s.notify e = some s') : e.index < n := by
  by_contra hge
  rw [notify, record, List.getElem?_eq_none (h.length ▸ not_lt.1 hge)] at hs'
  cases hs'

/-- What is recorded for a notification. A failed subchannel becomes nothing but ready. -/
theorem record_spec (h : Valid n s) (hi : e.index < n) (hst : e.state ≠ .shutdown) :
    ∃ s₁ status, s.record e = some (s₁, status) ∧ s₁.subchannels.length = n ∧
      s₁.counters.Counts s₁.states ∧ s₁.current = s.current ∧
      s₁.internallyTriggered = s.internallyTriggered ∧
      ∀ i : Nat, s.states[i]? = some .transientFailure →
        s₁.states[i]? = some .transientFailure ∨ s₁.states[i]? = some .ready := by
  obtain ⟨data, hdata⟩ : ∃ data, s.subchannels[e.index]? = some data :=
    ⟨_, getElem?_eq_getElem (h.length ▸ hi)⟩
  unfold record
  rw [hdata]
  dsimp only
  generalize hnew : (if data.connectivityState = .transientFailure ∧ e.state ≠ .ready ∧
      e.state ≠ .transientFailure then ConnectivityState.transientFailure else e.state) = new
  have hnew' : new ≠ .shutdown := by
    rw [← hnew]
    split
    · nofun
    · exact hst
  have hget : s.states[e.index]? = some data.connectivityState := by
    rw [states, getElem?_map, hdata, map_some]
  obtain ⟨c, hc, hcounts⟩ := h.counts.update hget hnew'
  rw [hc]
  refine ⟨_, _, rfl, by rw [length_set, h.length], by rwa [states, map_set], rfl, rfl, ?_⟩
  intro i htf
  rw [states, map_set, getElem?_set]
  split
  · next heq =>
    rw [← heq, hget, some.injEq] at htf
    rw [if_pos (by rw [length_map, h.length]; exact hi)]
    rw [htf] at hnew
    by_cases hr : e.state = .ready
    · exact .inr (by simp [← hnew, hr])
    · by_cases ht : e.state = .transientFailure
      · exact .inl (by simp [← hnew, ht])
      · exact .inl (by simp [← hnew, hr, ht])
  · exact .inl htf

/-- The subchannel of the internally triggered attempt is the one of before, if it did not complete
its attempt, or one that was asked to connect just now. -/
theorem update_internallyTriggered {j : Nat}
    (hi : index < s.subchannels.length) (hp : s.current = false → s.internallyTriggered = none)
    (h : (s.updateRingHashConnectivityStateLocked index complete status).internallyTriggered =
      some j) :
    (s.internallyTriggered = some j ∧ (index = j → complete = false)) ∨
    ((s.updateRingHashConnectivityStateLocked index complete status).requested = some j ∧
      j < s.subchannels.length) := by
  unfold updateRingHashConnectivityStateLocked at h ⊢
  dsimp only at h ⊢
  split at h
  · next hcur =>
    rw [if_pos hcur]
    simp only [report] at h ⊢
    generalize hkept : (if s.internallyTriggered = some index ∧ complete = true then none
      else s.internallyTriggered) = kept at h ⊢
    split at h
    · next hstart =>
      rw [if_pos hstart]
      exact .inr ⟨h, some.inj h ▸ Nat.mod_lt _ (by omega)⟩
    · subst h
      split at hkept
      · cases hkept
      · next hkeep => exact .inl ⟨hkept, fun heq => by simpa [heq, hkept] using hkeep⟩
  · next hcur =>
    rw [hp (by simpa using And.left (by simpa using hcur))] at h
    cases h

theorem update_starts (hc : s.counters.Counts s.states)
    (hcur : (s.updateRingHashConnectivityStateLocked index complete status).current)
    (hrule : aggregationRule s.states ∈ [2, 4, 6]) :
    (s.updateRingHashConnectivityStateLocked index complete status).internallyTriggered ≠ none := by
  have hagg := hc.aggregate
  rw [states, length_map] at hagg
  unfold updateRingHashConnectivityStateLocked at hcur ⊢
  dsimp only at hcur ⊢
  split at hcur
  · next h =>
    rw [if_pos h]
    have hstart : (s.counters.aggregate s.subchannels.length).2 = true := by
      rw [hagg]
      exact decide_eq_true hrule
    simp only [report, hstart, Bool.true_and]
    generalize (if s.internallyTriggered = some index ∧ complete = true then none
      else s.internallyTriggered) = kept
    cases kept <;> nofun
  · next h => exact absurd hcur h

/-- The subchannel `j` was asked to connect by one of the notifications and has reported only
`CONNECTING` since. -/
def Attempting (s₀ : RingHashList) (evs : List RingHashNotification) (j : Nat) : Prop :=
  ∃ pre e post s, evs = pre ++ e :: post ∧ Run.run notify s₀ (pre ++ [e]) = some s ∧
    s.requested = some j ∧ ∀ e' ∈ post, e'.index = j → e'.state = .connecting

theorem run_valid (n : Nat) (promoted : Bool) (empty : Status) (evs : List RingHashNotification)
    (hevs : ∀ e ∈ evs, e.index < n ∧ e.state ≠ .shutdown) :
    ∃ s, Run.run notify (start n promoted empty) evs = some s ∧ Valid n s ∧
      (∀ j, s.internallyTriggered = some j → j < n ∧ Attempting (start n promoted empty) evs j) ∧
      (evs ≠ [] → s.current → aggregationRule s.states ∈ [2, 4, 6] →
        s.internallyTriggered ≠ none) := by
  induction evs using reverseRecOn with
  | nil =>
    refine ⟨_, rfl, start_valid n promoted empty, fun j hj => ?_, fun h => absurd rfl h⟩
    rw [start_internallyTriggered] at hj
    cases hj
  | append_singleton evs e ih =>
    obtain ⟨s, hrun, hv, hatt, -⟩ := ih fun e' he' => hevs e' (mem_append_left _ he')
    obtain ⟨hi, hst⟩ := hevs e (by simp)
    obtain ⟨s₁, status, hrec, hlen, hcounts, hcur, hint, -⟩ := record_spec hv hi hst
    have hp : s₁.current = false → s₁.internallyTriggered = none := by
      rw [hcur, hint]
      exact hv.pending
    have hrun' : Run.run notify (start n promoted empty) (evs ++ [e]) = some
        (s₁.updateRingHashConnectivityStateLocked e.index (decide (e.state ≠ .connecting))
          status) := by
      rw [Run.run_append, hrun, bind_some, Run.run_cons, notify, hrec]
      rfl
    refine ⟨_, hrun', update_valid hlen hcounts hp, fun j hj => ?_, fun _ hc hr => ?_⟩
    · obtain ⟨hold, hconn⟩ | ⟨hreq, hlt⟩ := update_internallyTriggered (hlen ▸ hi) hp hj
      · -- the attempt of before goes on
        obtain ⟨hjn, pre, e', post, s', heq, hpre, hreq, hpost⟩ := hatt j (hint ▸ hold)
        refine ⟨hjn, pre, e', post ++ [e], s', by simp [heq], hpre, hreq, fun e'' he'' hj'' => ?_⟩
        obtain hin | hin := mem_append.1 he''
        · exact hpost e'' hin hj''
        · obtain rfl := mem_singleton.1 hin
          simpa using hconn hj''
      · exact ⟨hlen ▸ hlt, evs, e, [], _, rfl, hrun', hreq, nofun⟩
    · rw [update_states] at hr
      exact update_starts hcounts hc hr

/-- Over every sequence of notifications the counters are right, so no assertion fails; a failed
subchannel becomes nothing but ready; the state reported is that of the first rule that applies; and
while rule 2, 4 or 6 applies a connection attempt is going on. -/
theorem notifications_aggregate (n : Nat) (promoted : Bool) (empty : Status)
    (evs : List RingHashNotification) (hevs : ∀ e ∈ evs, e.index < n ∧ e.state ≠ .shutdown) :
    ∃ s, Run.run notify (start n promoted empty) evs = some s ∧
      s.counters.Counts s.states ∧
      (∀ e s', s.notify e = some s' → e.state ≠ .shutdown → ∀ i : Nat,
        s.states[i]? = some .transientFailure →
          s'.states[i]? = some .transientFailure ∨ s'.states[i]? = some .ready) ∧
      (s.current → ∃ status,
        s.reported = some (aggregationState (aggregationRule s.states), status)) ∧
      (evs ≠ [] → s.current → aggregationRule s.states ∈ [2, 4, 6] →
        ∃ j < n, s.internallyTriggered = some j ∧ Attempting (start n promoted empty) evs j) := by
  obtain ⟨s, hrun, hv, hatt, hrule⟩ := run_valid n promoted empty evs hevs
  refine ⟨s, hrun, hv.counts, fun e s' hs' hst i htf => ?_, fun hcur => ?_, fun hne hcur hr => ?_⟩
  · obtain ⟨s₁, status, hrec, -, -, -, -, hsticky⟩ := record_spec hv (index_lt hv hs') hst
    rw [notify, hrec, map_some, some.injEq] at hs'
    rw [← hs', update_states]
    exact hsticky i htf
  · obtain ⟨⟨st, status⟩, hrep⟩ := ne_none_iff_exists'.1 (hv.current hcur)
    exact ⟨status, by rw [hrep, ← (hv.reported _ hrep).2]⟩
  · obtain ⟨j, hj⟩ := ne_none_iff_exists'.1 (hrule hne hcur hr)
    exact ⟨j, (hatt j hj).1, hj, (hatt j hj).2⟩

/-- After a failure of the first of two subchannels the second one is asked to connect. -/
theorem notifications_aggregate_of_failure :
    ∃ s, Run.run notify (start 2 true (.ok ())) [⟨0, .transientFailure, .error "refused"⟩] =
      some s ∧
      s.reported = some (.connecting, .ok ()) ∧
      ∃ j < 2, s.internallyTriggered = some j ∧ Attempting (start 2 true (.ok ()))
        [⟨0, .transientFailure, .error "refused"⟩] j := by
  obtain ⟨s, hrun, -, -, -, hattempt⟩ := notifications_aggregate 2 true (.ok ())
    [⟨0, .transientFailure, .error "refused"⟩] (by simp)
  refine ⟨s, hrun, ?_⟩
  cases hrun
  exact ⟨rfl, hattempt (by simp) rfl (by decide)⟩

end RingHashList

end GrpcCore
