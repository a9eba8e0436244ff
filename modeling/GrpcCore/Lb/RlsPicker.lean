import GrpcCore.Gprpp.Time
import GrpcCore.Lb.ChildPolicy

/-!
# Picks of the RLS policy

`RlsLb::Picker::Pick` of `rls.cc` looks up the cache entry of a request key, starts an RLS call if
the entry is missing or due and no call for the key is pending, and then uses the data of the entry,
the default target, an error, or queues the pick until the call is done. The throttle is asked
before a call is started, but its answer is heeded only when there is no data to fall back on: with
data that has not expired the call is started all the same. `pick_asExpected_iff` says when a pick
does what is expected of it.

A cache entry carries that it is stale no later than its data expires, which the configuration and
the handling of a response see to. Of a child policy the model has its state and what its picker
answers.
-/

namespace GrpcCore.Rls

/-! ## Child policies -/

/-- `ChildPolicyWrapper`: its connectivity state, and what its picker returns for the pick. -/
structure ChildPolicyWrapper where
  connectivityState : ConnectivityState
  picked : PickResult Nat

/-! ## Cache entries -/

def kMaxMaxAge : Duration := .minutes 5

structure Ages where
  maxAge : Duration
  staleAge : Duration
  stale_le : staleAge.millis ≤ maxAge.millis

/-- The part of `RouteLookupConfig::JsonPostLoad` that is about the ages. -/
def Ages.postLoad (maxAge staleAge : Duration) : Ages :=
  let maxAge := if kMaxMaxAge.millis < maxAge.millis then kMaxMaxAge else maxAge
  { maxAge
    staleAge := if maxAge.millis ≤ staleAge.millis then maxAge else staleAge
    stale_le := by split <;> omega }

def infPast : Timestamp := ⟨int64Min, Duration.negativeInfinity.inInt64⟩

/-- `Cache::Entry`, as far as a pick uses it. -/
structure Entry where
  status : Status := .ok ()
  backoffTime : Timestamp := infPast
  childPolicyWrappers : List ChildPolicyWrapper := []
  headerData : String := ""
  dataExpirationTime : Timestamp := infPast
  staleTime : Timestamp := infPast
  stale_le : staleTime.millis ≤ dataExpirationTime.millis := by exact Int.le_refl _

theorem millisAdd_mono {a b c : Int} (hb : InInt64 b) (hc : InInt64 c) (h : b ≤ c) :
    millisAdd a b ≤ millisAdd a c := by
  simp only [InInt64, millisAdd, saturatingAdd, int64Max, int64Min] at *
  split_ifs <;> omega

/-- `OnRlsResponseLocked` of a request that succeeded, with the wrappers of its targets. -/
def Entry.onRlsSuccess (ages : Ages) (now : Timestamp) (headerData : String)
    (targets : List ChildPolicyWrapper) : Entry where
  childPolicyWrappers := targets
  headerData
  dataExpirationTime := now.add ages.maxAge
  staleTime := now.add ages.staleAge
  stale_le := millisAdd_mono ages.staleAge.inInt64 ages.maxAge.inInt64 ages.stale_le

/-- The loop of `Entry::Pick`, which skips targets before the last one that are in state
`TRANSIENT_FAILURE`. Without targets the pointer is null. -/
def chooseTarget : List ChildPolicyWrapper → Option ChildPolicyWrapper
  | [] => none
  | [c] => some c
  | c :: cs => if c.connectivityState = .transientFailure then chooseTarget cs else some c

def kRlsHeaderKey : String := "X-Google-RLS-Data"

/-- The header that `Entry::Pick` adds to the metadata of the call. -/
def Entry.addedHeader (e : Entry) : Option (String × String) :=
  if e.headerData = "" then none else some (kRlsHeaderKey, e.headerData)

/-! ## The throttle -/

structure Throttle where
  windowSize : Duration := .seconds 30
  requests : List Timestamp := []
  failures : List Timestamp := []

/-- The times that are still in the window. -/
def Throttle.inWindow (t : Throttle) (now : Timestamp) (times : List Timestamp) : List Timestamp :=
  times.dropWhile fun time => t.windowSize.millis < (now.diff time).millis

/-- `ShouldThrottle`. Whether the random number is below the probability is a function of the
numbers of requests and failures. -/
def Throttle.shouldThrottle (t : Throttle) (now : Timestamp) (below : Nat → Nat → Bool) :
    Bool × Throttle :=
  let requests := t.inWindow now t.requests
  let failures := t.inWindow now t.failures
  if below requests.length failures.length then
    (true, { t with requests := requests ++ [now], failures := failures ++ [now] })
  else (false, { t with requests, failures })

/-! ## `Pick` -/

/-- What a pick depends on: the policy, the picker, the time, and the throttle. -/
structure PickInput (K : Type) where
  isShutdown : Bool := false
  cache : K → Option Entry
  requestMap : K → Bool
  defaultChildPolicy : Option ChildPolicyWrapper := none
  now : Timestamp
  throttle : Throttle := {}
  below : Nat → Nat → Bool

inductive Choice where
  | useEntry (e : Entry)
  | useDefault (c : ChildPolicyWrapper)
  | fail (message : String)
  | queue

/-- The RLS call that a pick starts, if any, with the entry that is stale; the throttle; and how it
ends. -/
structure PickOutcome where
  startedCall : Option (Option Entry) := none
  throttle : Throttle
  choice : Choice

variable {K : Type} (p : PickInput K) (key : K)

/-- The default target if set, or else an error. -/
def defaultOrFail (message : String) : Choice :=
  match p.defaultChildPolicy with
  | some c => .useDefault c
  | none => .fail message

/-- The text of the error of an entry in backoff. -/
def failedMessage : Status → String
  | .ok _ => "RLS request failed: OK"
  | .error e => "RLS request failed: " ++ e

def afterCall : Choice :=
  match p.cache key with
  | none => .queue
  | some e =>
    if p.now.millis ≤ e.dataExpirationTime.millis then .useEntry e
    else if p.now.millis ≤ e.backoffTime.millis then defaultOrFail p (failedMessage e.status)
    else .queue

/-- There is no cache entry, or it is stale and not in backoff. -/
def NeedsCall : Prop :=
  match p.cache key with
  | none => True
  | some e => e.staleTime.millis < p.now.millis ∧ e.backoffTime.millis < p.now.millis

instance : Decidable (NeedsCall p key) := by
  unfold NeedsCall
  split <;> infer_instance

/-- The entry, unless there is none or its data has expired. -/
def freshEntry : Option Entry :=
  (p.cache key).filter fun e => p.now.millis ≤ e.dataExpirationTime.millis

def pick : PickOutcome :=
  if p.isShutdown then { throttle := p.throttle, choice := .fail "LB policy already shut down" }
  else if NeedsCall p key ∧ p.requestMap key = false then
    let (throttled, throttle) := p.throttle.shouldThrottle p.now p.below
    if throttled ∧ (freshEntry p key).isNone then
      { throttle, choice := defaultOrFail p "RLS request throttled" }
    else { startedCall := some (freshEntry p key), throttle, choice := afterCall p key }
  else { throttle := p.throttle, choice := afterCall p key }

/-- The child policy to which a pick is passed on. -/
def Choice.delegate : Choice → Option ChildPolicyWrapper
  | .useEntry e => chooseTarget e.childPolicyWrappers
  | .useDefault c => some c
  | .fail _ | .queue => none

/-- What a pick returns; nothing when an entry without targets is used. -/
def Choice.result : Choice → Option (PickResult Nat)
  | .useEntry e => (chooseTarget e.childPolicyWrappers).map (·.picked)
  | .useDefault c => some c.picked
  | .fail message => some (.fail (unavailableError message))
  | .queue => some .queue

def Choice.header : Choice → Option (String × String)
  | .useEntry e => e.addedHeader
  | .useDefault _ | .fail _ | .queue => none

/-- An RLS request for the key is pending after the pick. -/
def Pending : Prop := p.requestMap key = true ∨ (pick p key).startedCall.isSome

/-! ## What is expected of a pick -/

def Throttled : Prop := (p.throttle.shouldThrottle p.now p.below).1 = true

instance : Decidable (Throttled p) := inferInstanceAs (Decidable (_ = true))

structure AsExpected : Prop where
  starts : (pick p key).startedCall.isSome ↔
    NeedsCall p key ∧ p.requestMap key = false ∧ ¬ Throttled p
  uses : (∃ e, (pick p key).choice = .useEntry e) ↔
    ∃ e, p.cache key = some e ∧ p.now.millis ≤ e.dataExpirationTime.millis
  queued : (pick p key).choice.result = some .queue → Pending p key

/-- A call is started that the throttle held back: there is data to use in the meantime. -/
def StartsThrottled : Prop :=
  p.isShutdown = false ∧ NeedsCall p key ∧ p.requestMap key = false ∧ Throttled p ∧
    (freshEntry p key).isSome

/-- The policy is shut down, and a pick would otherwise start a call or use data. -/
def RefusedByShutdown : Prop :=
  p.isShutdown = true ∧ ((freshEntry p key).isSome ∨
    NeedsCall p key ∧ p.requestMap key = false ∧ ¬ Throttled p)

/-- No request for the key is pending. There is data, no call is due, and the target of the entry
queues the pick; or there is none, no call is due or the throttle holds it back, and the default
target queues the pick. -/
def QueuedByChild : Prop :=
  p.isShutdown = false ∧ p.requestMap key = false ∧
    match freshEntry p key with
    | some e => ¬ NeedsCall p key ∧
      ∃ c, chooseTarget e.childPolicyWrappers = some c ∧ c.picked = .queue
    | none => (NeedsCall p key → Throttled p) ∧
      ∃ c, p.defaultChildPolicy = some c ∧ c.picked = .queue

variable {p key}

theorem freshEntry_isSome_iff : (freshEntry p key).isSome ↔
    ∃ e, p.cache key = some e ∧ p.now.millis ≤ e.dataExpirationTime.millis := by
  simp [freshEntry, Option.isSome_filter, Option.any_eq_true]

theorem defaultOrFail_ne_useEntry {message : String} {e : Entry} :
    defaultOrFail p message ≠ .useEntry e := by
  unfold defaultOrFail
  split <;> nofun

theorem defaultOrFail_ne_queue {message : String} : defaultOrFail p message ≠ .queue := by
  unfold defaultOrFail
  split <;> nofun

theorem afterCall_useEntry_iff :
    (∃ e, afterCall p key = .useEntry e) ↔ (freshEntry p key).isSome := by
  rw [freshEntry_isSome_iff, afterCall]
  cases p.cache key with
  | none => simp
  | some e =>
    by_cases hfresh : p.now.millis ≤ e.dataExpirationTime.millis
    · simp [hfresh]
    · simp only [if_neg hfresh]
      split
      · simp [hfresh, defaultOrFail_ne_useEntry]
      · simp [hfresh]

/-- Where a pick is queued for the key, a call is needed: data that has expired is stale. -/
theorem needsCall_of_afterCall_queue (h : afterCall p key = .queue) : NeedsCall p key := by
  unfold afterCall at h
  unfold NeedsCall
  cases hcache : p.cache key with
  | none => trivial
  | some e =>
    simp only [hcache] at h ⊢
    split at h
    · cases h
    · split at h
      · exact absurd h defaultOrFail_ne_queue
      · have hstale := e.stale_le
        omega

theorem pick_cases (p : PickInput K) (key : K) :
    (p.isShutdown = true ∧ (pick p key).startedCall = none ∧
        (pick p key).choice = .fail "LB policy already shut down") ∨
      (p.isShutdown = false ∧ NeedsCall p key ∧ p.requestMap key = false ∧
        Throttled p ∧ ¬ (freshEntry p key).isSome ∧ (pick p key).startedCall = none ∧
        (pick p key).choice = defaultOrFail p "RLS request throttled") ∨
      (p.isShutdown = false ∧ NeedsCall p key ∧ p.requestMap key = false ∧
        (¬ Throttled p ∨ (freshEntry p key).isSome) ∧
        (pick p key).startedCall = some (freshEntry p key) ∧
        (pick p key).choice = afterCall p key) ∨
      (p.isShutdown = false ∧ ¬ (NeedsCall p key ∧ p.requestMap key = false) ∧
        (pick p key).startedCall = none ∧ (pick p key).choice = afterCall p key) := by
  cases hshutdown : p.isShutdown with
  | true => exact .inl ⟨rfl, by rw [pick, if_pos hshutdown], by rw [pick, if_pos hshutdown]⟩
  | false =>
    by_cases hcall : NeedsCall p key ∧ p.requestMap key = false
    · have hpick : pick p key = if Throttled p ∧ (freshEntry p key).isNone then
          { throttle := (p.throttle.shouldThrottle p.now p.below).2
            choice := defaultOrFail p "RLS request throttled" }
        else
          { startedCall := some (freshEntry p key)
            throttle := (p.throttle.shouldThrottle p.now p.below).2
            choice := afterCall p key } := by
        rw [pick, if_neg (by simp [hshutdown]), if_pos hcall]
        rfl
      by_cases hthrottled : Throttled p ∧ (freshEntry p key).isNone
      · rw [if_pos hthrottled] at hpick
        refine .inr (.inl ⟨rfl, hcall.1, hcall.2, hthrottled.1, ?_, by rw [hpick], by rw [hpick]⟩)
        simpa using hthrottled.2
      · rw [if_neg hthrottled] at hpick
        refine .inr (.inr (.inl ⟨rfl, hcall.1, hcall.2, ?_, by rw [hpick], by rw [hpick]⟩))
        rw [not_and_or] at hthrottled
        exact hthrottled.imp_right fun h => by simpa [Option.isSome_iff_ne_none] using h
    · have hpick : pick p key = { throttle := p.throttle, choice := afterCall p key } := by
        rw [pick, if_neg (by simp [hshutdown]), if_neg hcall]
      exact .inr (.inr (.inr ⟨rfl, hcall, by rw [hpick], by rw [hpick]⟩))

theorem startedCall_iff : (pick p key).startedCall.isSome ↔
    p.isShutdown = false ∧ NeedsCall p key ∧ p.requestMap key = false ∧
      (¬ Throttled p ∨ (freshEntry p key).isSome) := by
  obtain ⟨hshutdown, hcall, -⟩ | ⟨-, -, -, hthrottled, hfresh, hcall, -⟩ |
    ⟨hlive, hneeds, hpending, hgo, hcall, -⟩ | ⟨-, hno, hcall, -⟩ := pick_cases p key
  · simp [hcall, hshutdown]
  · simp [hcall, hthrottled, hfresh]
  · simpa [hcall, hlive, hneeds, hpending] using hgo
  · rw [hcall]
    exact iff_of_false nofun fun h => hno ⟨h.2.1, h.2.2.1⟩

theorem useEntry_iff : (∃ e, (pick p key).choice = .useEntry e) ↔
    p.isShutdown = false ∧ (freshEntry p key).isSome := by
  obtain ⟨hshutdown, -, hchoice⟩ | ⟨-, -, -, -, hfresh, -, hchoice⟩ |
    ⟨hlive, -, -, -, -, hchoice⟩ | ⟨hlive, -, -, hchoice⟩ := pick_cases p key
  · simp [hchoice, hshutdown]
  · simp [hchoice, hfresh, defaultOrFail_ne_useEntry]
  · rw [hchoice, afterCall_useEntry_iff, and_iff_right hlive]
  · rw [hchoice, afterCall_useEntry_iff, and_iff_right hlive]

theorem pending_of_queue (h : (pick p key).choice = .queue) : Pending p key := by
  obtain ⟨-, -, hchoice⟩ | ⟨-, -, -, -, -, -, hchoice⟩ | ⟨-, -, -, -, hcall, -⟩ |
    ⟨-, hno, -, hchoice⟩ := pick_cases p key
  · rw [hchoice] at h
    cases h
  · exact absurd (hchoice.symm.trans h) defaultOrFail_ne_queue
  · exact .inr (by rw [hcall]; rfl)
  · have hneeds := needsCall_of_afterCall_queue (hchoice.symm.trans h)
    refine .inl (by_contra fun hpending => hno ⟨hneeds, ?_⟩)
    simpa using hpending

theorem result_queue_iff {choice : Choice} : choice.result = some .queue ↔
    choice = .queue ∨ ∃ c, choice.delegate = some c ∧ c.picked = .queue := by
  cases choice <;> simp [Choice.result, Choice.delegate]

theorem afterCall_of_fresh {e : Entry} (h : freshEntry p key = some e) :
    afterCall p key = .useEntry e := by
  obtain ⟨hcache, hfresh⟩ := Option.filter_eq_some_iff.1 h
  rw [afterCall, hcache]
  exact if_pos (of_decide_eq_true hfresh)

theorem afterCall_of_backoff (h : freshEntry p key = none) (hneeds : ¬ NeedsCall p key) :
    ∃ message, afterCall p key = defaultOrFail p message := by
  unfold NeedsCall at hneeds
  cases hcache : p.cache key with
  | none => rw [hcache] at hneeds; exact absurd trivial hneeds
  | some e =>
    rw [hcache] at hneeds
    have hexpired : ¬ p.now.millis ≤ e.dataExpirationTime.millis := by
      simpa [freshEntry, hcache] using h
    have hstale := e.stale_le
    refine ⟨failedMessage e.status, ?_⟩
    rw [afterCall, hcache]
    simp only [if_neg hexpired]
    exact if_pos (by omega)

theorem delegate_defaultOrFail {message : String} :
    (defaultOrFail p message).delegate = p.defaultChildPolicy := by
  unfold defaultOrFail
  cases p.defaultChildPolicy <;> rfl

/-- The cases in which a child policy queues the pick and no request is pending afterwards. -/
theorem queuedByChild_iff : QueuedByChild p key ↔
    (∃ c, (pick p key).choice.delegate = some c ∧ c.picked = .queue) ∧ ¬ Pending p key := by
  unfold QueuedByChild Pending
  obtain ⟨hshutdown, -, hchoice⟩ | ⟨hlive, hneeds, hpending, hthrottled, hfresh, hcall, hchoice⟩ |
    ⟨hlive, hneeds, hpending, hgo, hcall, -⟩ | ⟨hlive, hno, hcall, hchoice⟩ := pick_cases p key
  · simp [hshutdown, hchoice, Choice.delegate]
  · have hnone : freshEntry p key = none := by simpa using hfresh
    simp [hlive, hpending, hthrottled, hnone, hcall, hchoice, delegate_defaultOrFail]
  · -- a call is started
    rw [hcall]
    cases hfresh : freshEntry p key with
    | some e => simp [hneeds]
    | none =>
      have hthrottled : ¬ Throttled p := hgo.resolve_right (by simp [hfresh])
      simp [hneeds, hthrottled]
  · rw [hcall, hchoice]
    cases hpending : p.requestMap key with
    | true => simp
    | false =>
      have hneeds : ¬ NeedsCall p key := fun h => hno ⟨h, hpending⟩
      cases hfresh : freshEntry p key with
      | some e => simp [hlive, hneeds, afterCall_of_fresh hfresh, Choice.delegate]
      | none =>
        obtain ⟨message, hafter⟩ := afterCall_of_backoff hfresh hneeds
        simp [hlive, hneeds, hafter, delegate_defaultOrFail]

/-- A pick does what is expected of it unless it starts a call that was throttled, the policy is
shut down, or a child policy queues it while no request is pending. -/
theorem pick_asExpected_iff (p : PickInput K) (key : K) :
    AsExpected p key ↔
      ¬ StartsThrottled p key ∧ ¬ RefusedByShutdown p key ∧ ¬ QueuedByChild p key := by
  have hqueued : ((pick p key).choice.result = some .queue → Pending p key) ↔
      ¬ QueuedByChild p key := by
    rw [result_queue_iff, queuedByChild_iff, not_and, not_not]
    exact ⟨fun h hchild => h (.inr hchild), fun h => Or.rec pending_of_queue h⟩
  have hsplit : AsExpected p key ↔
      (((pick p key).startedCall.isSome ↔
          NeedsCall p key ∧ p.requestMap key = false ∧ ¬ Throttled p) ∧
        ((∃ e, (pick p key).choice = .useEntry e) ↔ (freshEntry p key).isSome)) ∧
      ¬ QueuedByChild p key := by
    rw [← hqueued, freshEntry_isSome_iff]
    exact ⟨fun h => ⟨⟨h.starts, h.uses⟩, h.queued⟩, fun h => ⟨h.1.1, h.1.2, h.2⟩⟩
  rw [hsplit, startedCall_iff, useEntry_iff, StartsThrottled, RefusedByShutdown]
  refine Iff.trans (and_congr_left fun _ => ?_) and_assoc
  -- what is left is about five propositions
  by_cases hneeds : NeedsCall p key ∧ p.requestMap key = false
  · simp only [hneeds.1, hneeds.2, true_and]
    by_cases hthrottled : Throttled p <;> cases p.isShutdown <;> simp [hthrottled]
  · have hno (q : Prop) : ¬ (NeedsCall p key ∧ p.requestMap key = false ∧ q) := fun h =>
      hneeds ⟨h.1, h.2.1⟩
    simp only [hno, and_false, or_false, not_false_eq_true, true_and]
    cases p.isShutdown <;> simp

/-- An entry that is stale, with data for some time to come. -/
def staleEntry : Entry :=
  .onRlsSuccess (.postLoad (.minutes 2) (.minutes 1)) ⟨0, Duration.zero.inInt64⟩ ""
    [{ connectivityState := .ready, picked := .complete 0 }]

/-- The throttle holds back every call. -/
def throttledPick : PickInput Unit where
  cache := fun _ => some staleEntry
  requestMap := fun _ => false
  now := ⟨90000, by decide⟩
  below := fun _ _ => true

/-- The call is started although the throttle held it back, and the throttle has counted it as
failed. -/
theorem pick_starts_throttled :
    Throttled throttledPick ∧ (pick throttledPick ()).startedCall.isSome ∧
      (pick throttledPick ()).throttle.failures.length = 1 ∧
      (pick throttledPick ()).choice.result = some (.complete 0) := by
  refine ⟨rfl, rfl, rfl, rfl⟩

end GrpcCore.Rls
