import Mathlib.Data.List.Induction
import Mathlib.Data.List.Sort
import GrpcCore.Gprpp.Time

/-!
# The ejection timer of the outlier detection policy

`EjectionTimer::OnTimerLocked` (`outlier_detection.cc`) counts the hosts that are ejected, then runs
the success rate algorithm and the failure percentage algorithm one after the other, and at last
un-ejects hosts. The two algorithms share the count, which limits how many hosts they eject. Only
the second one looks whether a candidate is ejected already: the first one can eject a host a second
time, and counts it twice (`sweep_limited_iff`).

Rates are arbitrary: the arithmetic of `double` is a parameter (`Doubles`), of which only one fact
is assumed, that a percentage below an integer is so in exact arithmetic.
-/

namespace GrpcCore.OutlierDetection

open List

/-! ## Hosts -/

structure Bucket where
  successes : Nat := 0
  failures : Nat := 0

/-- `SubchannelState`, without its subchannels. -/
structure Host where
  currentBucket : Bucket := {}
  backupBucket : Bucket := {}
  multiplier : Nat := 0
  ejectionTime : Option Int := none

/-- The arithmetic of `double` that the timer uses. -/
structure Doubles (Rate : Type) where
  /-- `successes * 100.0 / total`. -/
  successRate : (successes total : Nat) → Rate
  /-- The threshold of the success rate algorithm, from the rates in the order in which they are
  added up, the rates in the order of the candidates, and `stdev_factor`. -/
  ejectionThreshold : (added candidates : List Rate) → (stdevFactor : Nat) → Rate
  /-- `rate < threshold`. -/
  less : (rate threshold : Rate) → Bool
  /-- `(100.0 - rate) > threshold`. -/
  failsOver : (rate : Rate) → (threshold : Nat) → Bool
  /-- `100.0 * count / size < percent`. -/
  percentBelow : (count size percent : Nat) → Bool
  percentBelow_exact : ∀ count size percent, percentBelow count size percent = true →
    100 * count < percent * size

variable {Rate : Type} (D : Doubles Rate)

namespace Host

def rotateBucket (h : Host) : Host :=
  { h with currentBucket := {}, backupBucket := h.currentBucket }

def getSuccessRateAndVolume (h : Host) : Option (Rate × Nat) :=
  let totalRequest := (h.backupBucket.successes + h.backupBucket.failures) % 2 ^ 64
  if totalRequest = 0 then none
  else some (D.successRate h.backupBucket.successes totalRequest, totalRequest)

def eject (h : Host) (time : Int) : Host :=
  { h with ejectionTime := some time, multiplier := (h.multiplier + 1) % 2 ^ 32 }

def uneject (h : Host) : Host := { h with ejectionTime := none }

/-- `MaybeUneject`, at the time `now`. -/
def maybeUneject (baseEjectionTimeInMillis maxEjectionTimeInMillis : Nat) (now : Int) (h : Host) :
    Host :=
  match h.ejectionTime with
  | none => { h with multiplier := h.multiplier - 1 }
  | some ejectionTime =>
    let changeTime := millisAdd ejectionTime (toInt64 (min
      (baseEjectionTimeInMillis * h.multiplier % 2 ^ 64)
      (max baseEjectionTimeInMillis maxEjectionTimeInMillis)))
    if changeTime < now then h.uneject else h

end Host

/-! ## The sweep -/

structure SuccessRateEjection where
  stdevFactor : Nat := 1900
  enforcementPercentage : Nat := 0
  minimumHosts : Nat := 5
  requestVolume : Nat := 100

structure FailurePercentageEjection where
  threshold : Nat := 85
  enforcementPercentage : Nat := 0
  minimumHosts : Nat := 5
  requestVolume : Nat := 50

/-- `OutlierDetectionConfig`, without the interval; times are in milliseconds. -/
structure OutlierDetectionConfig where
  baseEjectionTime : Int := 30000
  maxEjectionTime : Int := 30000
  maxEjectionPercent : Nat := 10
  successRateEjection : Option SuccessRateEjection := none
  failurePercentageEjection : Option FailurePercentageEjection := none

/-- The hosts of `subchannel_state_map_` in the order of their addresses, each with its pointer. -/
abbrev Hosts := List (Nat × Host)

/-- A map, in which no two addresses have the same host. -/
structure HostMap where
  hosts : Hosts
  nodup : (hosts.map Prod.fst).Nodup

def isEjected (hosts : Hosts) (p : Nat) : Bool :=
  hosts.any fun e => e.1 = p && e.2.ejectionTime.isSome

/-- The number of hosts whose ejection time is set. -/
def ejectedHosts (hosts : Hosts) : Nat := hosts.countP (·.2.ejectionTime.isSome)

/-- `Eject` for the host with the pointer. -/
def ejectHost (time : Int) (p : Nat) (hosts : Hosts) : Hosts :=
  hosts.map fun e => if e.1 = p then (e.1, e.2.eject time) else e

/-- What the first loop gathers. The candidates are in the order in which they are found. -/
structure Gathered (Rate : Type) where
  hosts : Hosts := []
  ejectedHostCount : Nat := 0
  successRateCandidates : List (Nat × Rate) := []
  failurePercentageCandidates : List (Nat × Rate) := []

/-- The candidates after a host with this rate and volume. -/
def addCandidate (candidates : List (Nat × Rate)) (p : Nat) (rate : Rate) (volume : Nat)
    (requestVolume : Option Nat) : List (Nat × Rate) :=
  match requestVolume with
  | none => candidates
  | some requestVolume => if requestVolume ≤ volume then candidates ++ [(p, rate)] else candidates

def gatherStep (config : OutlierDetectionConfig) (g : Gathered Rate) (e : Nat × Host) :
    Gathered Rate :=
  let host := e.2.rotateBucket
  let g := { g with
    hosts := g.hosts ++ [(e.1, host)]
    ejectedHostCount :=
      if host.ejectionTime.isSome then g.ejectedHostCount + 1 else g.ejectedHostCount }
  match host.getSuccessRateAndVolume D with
  | none => g
  | some (rate, volume) =>
    { g with
      successRateCandidates := addCandidate g.successRateCandidates e.1 rate volume
        (config.successRateEjection.map (·.requestVolume))
      failurePercentageCandidates := addCandidate g.failurePercentageCandidates e.1 rate volume
        (config.failurePercentageEjection.map (·.requestVolume)) }

def gather (config : OutlierDetectionConfig) (hosts : Hosts) : Gathered Rate :=
  hosts.foldl (gatherStep D config) {}

/-- The candidates in the order of the map, which is that of the pointers. -/
def inMapOrder (candidates : List (Nat × Rate)) : List (Nat × Rate) :=
  candidates.insertionSort fun a b => a.1 ≤ b.1

inductive Algorithm where
  | successRate
  | failurePercentage

/-- An ejection decision: what the algorithm finds and what it decides. -/
structure Decision where
  algorithm : Algorithm
  hosts : Hosts
  ejectedHostCount : Nat
  candidate : Nat
  ejects : Bool

/-- The hosts, the shared count, the number of random draws so far, and the decisions. -/
structure Sweep where
  hosts : Hosts
  ejectedHostCount : Nat
  drawn : Nat := 0
  decisions : List Decision := []

/-- What a sweep depends on besides the hosts: the arithmetic, the configuration, the random draws,
the time at which it begins, and the time that is read for each host at the end. -/
structure Env (Rate : Type) where
  doubles : Doubles Rate
  config : OutlierDetectionConfig
  draws : Nat → Nat
  timeNow : Int
  clock : Nat → Int

variable (E : Env Rate)

/-- The decision about a candidate that is an outlier, at which a random key is drawn. -/
def Sweep.decision (algorithm : Algorithm) (enforcementPercentage p : Nat) (s : Sweep) : Decision :=
  ⟨algorithm, s.hosts, s.ejectedHostCount, p, E.draws s.drawn < enforcementPercentage &&
    (s.ejectedHostCount == 0 ||
      E.doubles.percentBelow s.ejectedHostCount s.hosts.length E.config.maxEjectionPercent)⟩

def Sweep.decide (algorithm : Algorithm) (enforcementPercentage p : Nat) (s : Sweep) : Sweep :=
  let d := s.decision E algorithm enforcementPercentage p
  { hosts := if d.ejects then ejectHost E.timeNow p s.hosts else s.hosts
    ejectedHostCount := if d.ejects then s.ejectedHostCount + 1 else s.ejectedHostCount
    drawn := s.drawn + 1
    decisions := s.decisions ++ [d] }

/-- The body of the loop of the success rate algorithm. -/
def successRateStep (enforcementPercentage : Nat) (threshold : Rate) (s : Sweep)
    (candidate : Nat × Rate) : Sweep :=
  if E.doubles.less candidate.2 threshold then
    s.decide E .successRate enforcementPercentage candidate.1
  else s

/-- `ejection_threshold`, below which a success rate is that of an outlier. -/
def successRateThreshold (c : SuccessRateEjection) (found : List (Nat × Rate)) : Rate :=
  E.doubles.ejectionThreshold (found.map Prod.snd) ((inMapOrder found).map Prod.snd) c.stdevFactor

/-- The loop of the success rate algorithm over the candidates. -/
def successRateLoop (c : SuccessRateEjection) (threshold : Rate) (candidates : List (Nat × Rate))
    (s : Sweep) : Sweep :=
  candidates.foldl (successRateStep E c.enforcementPercentage threshold) s

def runSuccessRate (found : List (Nat × Rate)) (s : Sweep) : Sweep :=
  match E.config.successRateEjection with
  | none => s
  | some c =>
    if inMapOrder found ≠ [] ∧ c.minimumHosts ≤ (inMapOrder found).length then
      successRateLoop E c (successRateThreshold E c found) (inMapOrder found) s
    else s

/-- The body of the loop of the failure percentage algorithm, which skips hosts that are ejected. -/
def failurePercentageStep (c : FailurePercentageEjection) (s : Sweep) (candidate : Nat × Rate) :
    Sweep :=
  if isEjected s.hosts candidate.1 then s
  else if E.doubles.failsOver candidate.2 c.threshold then
    s.decide E .failurePercentage c.enforcementPercentage candidate.1
  else s

def runFailurePercentage (found : List (Nat × Rate)) (s : Sweep) : Sweep :=
  match E.config.failurePercentageEjection with
  | none => s
  | some c =>
    if inMapOrder found ≠ [] ∧ c.minimumHosts ≤ (inMapOrder found).length then
      (inMapOrder found).foldl (failurePercentageStep E c) s
    else s

/-- The sweep after the first loop. -/
def Gathered.begin (g : Gathered Rate) : Sweep :=
  { hosts := g.hosts, ejectedHostCount := g.ejectedHostCount }

/-- `OnTimerLocked` before hosts are un-ejected. -/
def sweep (m : HostMap) : Sweep :=
  let g := gather E.doubles E.config m.hosts
  runFailurePercentage E g.failurePercentageCandidates
    (runSuccessRate E g.successRateCandidates g.begin)

/-- The hosts after `OnTimerLocked`. -/
def onTimerLocked (m : HostMap) : Hosts :=
  (sweep E m).hosts.map fun e =>
    (e.1, e.2.maybeUneject (toUint64 E.config.baseEjectionTime) (toUint64 E.config.maxEjectionTime)
      (E.clock e.1))

/-! ## The limit -/

/-- What is expected of an ejection decision: the count is that of the ejected hosts, the host is
not ejected already, and there was no ejected host or a percentage below the limit. -/
structure Decision.Limited (d : Decision) (maxEjectionPercent : Nat) : Prop where
  counted : d.ejectedHostCount = ejectedHosts d.hosts
  fresh : d.ejects = true → isEjected d.hosts d.candidate = false
  limited : d.ejects = true → ejectedHosts d.hosts = 0 ∨
    100 * ejectedHosts d.hosts < maxEjectionPercent * d.hosts.length

/-- The multiplier of a host grows at most once, and only when it was not ejected. -/
def GrowsOnce (e e' : Nat × Host) : Prop :=
  e'.1 = e.1 ∧ (e'.2.multiplier = e.2.multiplier ∨
    e.2.ejectionTime = none ∧ e'.2.multiplier = (e.2.multiplier + 1) % 2 ^ 32)

/-- The multiplier of a host is larger after `OnTimerLocked` only if the host was not ejected. -/
def GrowsAtMostOnce (e e' : Nat × Host) : Prop :=
  e'.1 = e.1 ∧ (e'.2.multiplier ≤ e.2.multiplier ∨
    e.2.ejectionTime = none ∧ e'.2.multiplier = (e.2.multiplier + 1) % 2 ^ 32)

/-- The candidate is ejected already, but its success rate is below the threshold, the random key is
below the enforcement percentage, and the limit is not reached. -/
structure EjectsAgain (c : SuccessRateEjection) (threshold : Rate) (s : Sweep)
    (candidate : Nat × Rate) : Prop where
  ejected : isEjected s.hosts candidate.1 = true
  outlier : E.doubles.less candidate.2 threshold = true
  enforced : E.draws s.drawn < c.enforcementPercentage
  allowed : s.ejectedHostCount = 0 ∨ E.doubles.percentBelow s.ejectedHostCount s.hosts.length
    E.config.maxEjectionPercent = true

/-- The loop of the success rate algorithm comes to no such candidate. -/
def SparesEjected (c : SuccessRateEjection) (threshold : Rate) (candidates : List (Nat × Rate))
    (s : Sweep) : Prop :=
  ∀ before candidate after, candidates = before ++ candidate :: after →
    ¬ EjectsAgain E c threshold (successRateLoop E c threshold before s) candidate

/-- What the algorithms may have done with a host. -/
def Changed (e e' : Nat × Host) : Prop :=
  e'.1 = e.1 ∧ (e'.2.ejectionTime = e.2.ejectionTime ∧ e'.2.multiplier = e.2.multiplier ∨
    e.2.ejectionTime = none ∧ e'.2.ejectionTime.isSome ∧
      e'.2.multiplier = (e.2.multiplier + 1) % 2 ^ 32)

structure Kept (start : Hosts) (s : Sweep) : Prop where
  changed : List.Forall₂ Changed start s.hosts
  counted : s.ejectedHostCount = ejectedHosts s.hosts
  limited : ∀ d ∈ s.decisions, d.Limited E.config.maxEjectionPercent

variable {E} {start hosts : Hosts} {s : Sweep} {p q : Nat} {found : List (Nat × Rate)} {time : Int}

theorem ejectHost_eq_self (h : p ∉ hosts.map Prod.fst) : ejectHost time p hosts = hosts := by
  refine map_congr_left (g := id) (fun e he => if_neg fun heq => h ?_) |>.trans (map_id _)
  exact mem_map.2 ⟨e, he, heq⟩

theorem ejectedHosts_ejectHost (hnodup : (hosts.map Prod.fst).Nodup) (hmem : p ∈ hosts.map Prod.fst)
    (hfresh : isEjected hosts p = false) :
    ejectedHosts (ejectHost time p hosts) = ejectedHosts hosts + 1 := by
  induction hosts with
  | nil => cases hmem
  | cons e hosts ih =>
    rw [map_cons, nodup_cons] at hnodup
    simp only [isEjected, any_cons, Bool.or_eq_false_iff] at hfresh
    by_cases he : e.1 = p
    · have hrest : ejectHost time p hosts = hosts := ejectHost_eq_self (he ▸ hnodup.1)
      have hnone : e.2.ejectionTime.isSome = false := by simpa [he] using hfresh.1
      rw [ejectHost] at hrest ⊢
      rw [map_cons, hrest, if_pos he, ejectedHosts, ejectedHosts, countP_cons_of_pos rfl,
        countP_cons_of_neg (by simp [hnone])]
    · have hrest := ih hnodup.2 ((mem_cons.1 hmem).resolve_left (Ne.symm he)) hfresh.2
      rw [ejectHost] at hrest ⊢
      rw [map_cons, if_neg he, ejectedHosts, countP_cons, ejectedHosts, countP_cons]
      rw [ejectedHosts, ejectedHosts] at hrest
      rw [hrest]
      omega

theorem map_fst_eq_of_changed (h : List.Forall₂ Changed start hosts) :
    hosts.map Prod.fst = start.map Prod.fst := by
  induction h with
  | nil => rfl
  | cons hhead _ ih => rw [map_cons, map_cons, hhead.1, ih]

theorem changed_ejectHost (h : List.Forall₂ Changed start hosts)
    (hfresh : isEjected hosts p = false) :
    List.Forall₂ Changed start (ejectHost time p hosts) := by
  induction h with
  | nil => exact .nil
  | @cons e e' start hosts hhead _ ih =>
    simp only [isEjected, any_cons, Bool.or_eq_false_iff] at hfresh
    refine .cons ?_ (ih hfresh.2)
    beta_reduce
    split
    · next he =>
      have hnone : e'.2.ejectionTime = none := by simpa [he] using hfresh.1
      obtain ⟨hkey, ⟨htime, hmultiplier⟩ | ⟨-, hsome, -⟩⟩ := hhead
      · exact ⟨hkey, .inr ⟨htime ▸ hnone, rfl, by rw [← hmultiplier]; rfl⟩⟩
      · rw [hnone] at hsome
        cases hsome
    · exact hhead

theorem Changed.growsOnce {e e' : Nat × Host} (h : Changed e e') : GrowsOnce e e' :=
  ⟨h.1, h.2.imp And.right fun h => ⟨h.1, h.2.2⟩⟩

/-! ## One decision -/

theorem Kept.decide {algorithm : Algorithm} {enforcementPercentage : Nat} (h : Kept E start s)
    (hnodup : (start.map Prod.fst).Nodup) (hmem : p ∈ start.map Prod.fst)
    (hfresh : (s.decision E algorithm enforcementPercentage p).ejects = true →
      isEjected s.hosts p = false) :
    Kept E start (s.decide E algorithm enforcementPercentage p) := by
  have hkeys := map_fst_eq_of_changed h.changed
  refine ⟨?_, ?_, fun d hd => ?_⟩
  · simp only [Sweep.decide]
    split
    · next hejects => exact changed_ejectHost h.changed (hfresh hejects)
    · exact h.changed
  · simp only [Sweep.decide]
    split
    · next hejects =>
      rw [h.counted, ejectedHosts_ejectHost (hkeys ▸ hnodup) (hkeys ▸ hmem) (hfresh hejects)]
    · exact h.counted
  · rcases mem_append.1 hd with hd | hd
    · exact h.limited d hd
    · rw [mem_singleton.1 hd]
      refine ⟨h.counted, hfresh, fun hejects => ?_⟩
      simp only [Sweep.decision, Bool.and_eq_true, Bool.or_eq_true, beq_iff_eq] at hejects ⊢
      rw [← h.counted]
      exact hejects.2.imp_right (E.doubles.percentBelow_exact _ _ _)

/-! ## The loops -/

theorem inMapOrder_perm (found : List (Nat × Rate)) : (inMapOrder found).Perm found :=
  perm_insertionSort _ _

/-- A property that the decisions of the failure percentage algorithm keep: they are about
candidates that are not ejected. -/
theorem runFailurePercentage_induct {P : Sweep → Prop} (hs : P s)
    (hstep : ∀ s enforcementPercentage, ∀ p ∈ found.map Prod.fst,
      isEjected s.hosts p = false → P s →
      P (s.decide E .failurePercentage enforcementPercentage p)) :
    P (runFailurePercentage E found s) := by
  unfold runFailurePercentage
  split
  · exact hs
  · split
    · refine foldlRecOn _ _ hs fun s h c hc => ?_
      unfold failurePercentageStep
      split_ifs with hejected houtlier
      · exact h
      · refine hstep s _ _ (mem_map.2 ⟨c, (inMapOrder_perm found).mem_iff.1 hc, rfl⟩) ?_ h
        exact Bool.eq_false_iff.2 hejected
      · exact h
    · exact hs

theorem decisions_subset_successRateLoop (E : Env Rate) (c : SuccessRateEjection) (threshold : Rate)
    (candidates : List (Nat × Rate)) (s : Sweep) :
    s.decisions ⊆ (successRateLoop E c threshold candidates s).decisions := by
  refine foldlRecOn (motive := fun s' : Sweep => s.decisions ⊆ s'.decisions) candidates _
    (List.Subset.refl _) fun s' h candidate _ => ?_
  unfold successRateStep
  split
  · exact List.Subset.trans h (subset_append_left _ _)
  · exact h

section

variable {c : SuccessRateEjection} {threshold : Rate}

theorem ejects_iff {algorithm : Algorithm} :
    (s.decision E algorithm c.enforcementPercentage p).ejects = true ↔
      E.draws s.drawn < c.enforcementPercentage ∧ (s.ejectedHostCount = 0 ∨
        E.doubles.percentBelow s.ejectedHostCount s.hosts.length E.config.maxEjectionPercent =
          true) := by
  simp [Sweep.decision]

/-- The loop keeps the count and the limit as long as it spares the hosts that are ejected. -/
theorem Kept.successRateLoop (hnodup : (start.map Prod.fst).Nodup) :
    ∀ (candidates : List (Nat × Rate)) (s : Sweep), Kept E start s →
      (∀ candidate ∈ candidates, candidate.1 ∈ start.map Prod.fst) →
      SparesEjected E c threshold candidates s →
      Kept E start (successRateLoop E c threshold candidates s)
  | [], _, h, _, _ => h
  | candidate :: candidates, s, h, hkeys, hspares => by
    rw [forall_mem_cons] at hkeys
    refine Kept.successRateLoop hnodup candidates _ ?_ hkeys.2 fun before x after hx =>
      hspares (candidate :: before) x after (by rw [hx]; rfl)
    unfold successRateStep
    split
    · next hless =>
      refine h.decide hnodup hkeys.1 fun hejects => Bool.eq_false_iff.2 fun hejected => ?_
      obtain ⟨hdraw, hlimit⟩ := ejects_iff.1 hejects
      exact hspares [] candidate candidates rfl ⟨hejected, hless, hdraw, hlimit⟩
    · exact h

/-- A candidate that is ejected again is a decision that breaks the limit. -/
theorem SparesEjected.of_limited {candidates : List (Nat × Rate)}
    (h : ∀ d ∈ (successRateLoop E c threshold candidates s).decisions,
      d.Limited E.config.maxEjectionPercent) : SparesEjected E c threshold candidates s := by
  rintro before candidate after rfl hagain
  set s' := OutlierDetection.successRateLoop E c threshold before s with hs'
  have hdecision : s'.decision E .successRate c.enforcementPercentage candidate.1 ∈
      (OutlierDetection.successRateLoop E c threshold (before ++ candidate :: after)
        s).decisions := by
    rw [OutlierDetection.successRateLoop, foldl_append, foldl_cons]
    refine decisions_subset_successRateLoop E c threshold after _ ?_
    change _ ∈ (successRateStep E c.enforcementPercentage threshold s' candidate).decisions
    rw [successRateStep, if_pos hagain.outlier]
    exact mem_append_right _ (mem_singleton_self _)
  have hfresh := (h _ hdecision).fresh (ejects_iff.2 ⟨hagain.enforced, hagain.allowed⟩)
  exact absurd hagain.ejected (Bool.eq_false_iff.1 hfresh)

end

/-! ## The first loop -/

/-- What the first loop finds: it counts the ejected hosts, and the candidates are hosts, each of
them once. -/
structure Gathers (hosts : Hosts) (g : Gathered Rate) : Prop where
  hosts_eq : g.hosts = hosts.map fun e => (e.1, e.2.rotateBucket)
  counted : g.ejectedHostCount = ejectedHosts hosts
  success : (g.successRateCandidates.map Prod.fst).Sublist (hosts.map Prod.fst)
  failure : (g.failurePercentageCandidates.map Prod.fst).Sublist (hosts.map Prod.fst)

theorem addCandidate_sublist (h : (found.map Prod.fst).Sublist (hosts.map Prod.fst))
    (e : Nat × Host)
    (rate : Rate) (volume : Nat) (requestVolume : Option Nat) :
    ((addCandidate found e.1 rate volume requestVolume).map Prod.fst).Sublist
      ((hosts ++ [e]).map Prod.fst) := by
  rw [map_append]
  unfold addCandidate
  split
  · exact h.trans (sublist_append_left _ _)
  · split
    · rw [map_append]
      exact h.append (List.Sublist.refl _)
    · exact h.trans (sublist_append_left _ _)

theorem Gathers.step {g : Gathered Rate} (h : Gathers hosts g) (e : Nat × Host)
    (D : Doubles Rate) (config : OutlierDetectionConfig) :
    Gathers (hosts ++ [e]) (gatherStep D config g e) := by
  have hhosts : g.hosts ++ [(e.1, e.2.rotateBucket)] =
      (hosts ++ [e]).map fun e => (e.1, e.2.rotateBucket) := by
    rw [map_append, h.hosts_eq]
    rfl
  have hcounted : (if e.2.rotateBucket.ejectionTime.isSome then g.ejectedHostCount + 1
      else g.ejectedHostCount) = ejectedHosts (hosts ++ [e]) := by
    have hrotate : e.2.rotateBucket.ejectionTime.isSome = e.2.ejectionTime.isSome := rfl
    rw [ejectedHosts, countP_append, h.counted, countP_singleton]
    by_cases hsome : e.2.ejectionTime.isSome = true
    · rw [if_pos (hrotate.trans hsome), if_pos hsome]
      rfl
    · rw [if_neg (hrotate ▸ hsome), if_neg hsome]
      rfl
  have hgrow {found : List (Nat × Rate)}
    (hfound : (found.map Prod.fst).Sublist (hosts.map Prod.fst)) :
      (found.map Prod.fst).Sublist ((hosts ++ [e]).map Prod.fst) := by
    rw [map_append]
    exact hfound.trans (sublist_append_left _ _)
  unfold gatherStep
  simp only
  split
  · exact ⟨hhosts, hcounted, hgrow h.success, hgrow h.failure⟩
  · exact ⟨hhosts, hcounted, addCandidate_sublist h.success _ _ _ _,
      addCandidate_sublist h.failure _ _ _ _⟩

theorem gathers_gather (D : Doubles Rate) (config : OutlierDetectionConfig) (hosts : Hosts) :
    Gathers hosts (gather D config hosts) := by
  induction hosts using reverseRec with
  | nil => exact ⟨rfl, rfl, .slnil, .slnil⟩
  | append_singleton hosts e ih =>
    rw [gather, foldl_append]
    exact ih.step e D config

/-! ## The sweep -/

theorem Gathers.kept {g : Gathered Rate} (h : Gathers start g) : Kept E start g.begin := by
  refine ⟨?_, ?_, nofun⟩
  · rw [Gathered.begin, h.hosts_eq, forall₂_map_right_iff]
    exact forall₂_same.2 fun e _ => ⟨rfl, .inl ⟨rfl, rfl⟩⟩
  · rw [Gathered.begin, h.counted, h.hosts_eq, ejectedHosts, ejectedHosts, countP_map]
    rfl

theorem Changed.maybeUneject {e e' : Nat × Host} (h : Changed e e') (base max : Nat) (now : Int) :
    GrowsAtMostOnce e (e'.1, e'.2.maybeUneject base max now) := by
  refine ⟨h.1, ?_⟩
  unfold Host.maybeUneject Host.uneject
  obtain ⟨-, ⟨htime, hmultiplier⟩ | ⟨hnone, hsome, hmultiplier⟩⟩ := h
  · left
    rw [← hmultiplier]
    split
    · exact Nat.sub_le _ _
    · simp only
      split <;> exact Nat.le_refl _
  · right
    refine ⟨hnone, ?_⟩
    split
    · next hnot => rw [hnot] at hsome; cases hsome
    · simp only
      split <;> exact hmultiplier

/-- Both algorithms keep the count and the limit if the first one spares the hosts that are
ejected. -/
theorem kept_sweep {m : HostMap}
    (hspares : ∀ c, E.config.successRateEjection = some c →
      let found := (gather E.doubles E.config m.hosts).successRateCandidates
      c.minimumHosts ≤ found.length →
        SparesEjected E c (successRateThreshold E c found) (inMapOrder found)
          (gather E.doubles E.config m.hosts).begin) : Kept E m.hosts (sweep E m) := by
  have hg := gathers_gather E.doubles E.config m.hosts
  refine runFailurePercentage_induct ?_ fun s _ p hp hfresh h =>
    h.decide m.nodup (hg.failure.subset hp) fun _ => hfresh
  unfold runSuccessRate
  split
  · exact hg.kept
  · next c hc =>
    have hperm := inMapOrder_perm (gather E.doubles E.config m.hosts).successRateCandidates
    split
    · next henough =>
      refine Kept.successRateLoop m.nodup _ _ hg.kept (fun candidate hcandidate => ?_)
        (hspares c hc (hperm.length_eq ▸ henough.2))
      exact hg.success.subset (mem_map_of_mem (hperm.mem_iff.1 hcandidate))
    · exact hg.kept

/-- The count is right, no ejected host is ejected again, and the limit is kept, at every decision
of a sweep, and the multipliers grow at most once, exactly when the success rate algorithm never
comes to a candidate that it would eject again. -/
theorem sweep_limited_iff (E : Env Rate) (m : HostMap) :
    ((∀ d ∈ (sweep E m).decisions, d.Limited E.config.maxEjectionPercent) ∧
        List.Forall₂ GrowsOnce m.hosts (sweep E m).hosts ∧
        List.Forall₂ GrowsAtMostOnce m.hosts (onTimerLocked E m)) ↔
      ∀ c, E.config.successRateEjection = some c →
        let found := (gather E.doubles E.config m.hosts).successRateCandidates
        c.minimumHosts ≤ found.length →
          SparesEjected E c (successRateThreshold E c found) (inMapOrder found)
            (gather E.doubles E.config m.hosts).begin := by
  constructor
  · rintro ⟨hlimited, -⟩ c hc found hhosts before candidate after hsplit
    have hsubset : (runSuccessRate E found (gather E.doubles E.config m.hosts).begin).decisions ⊆
        (sweep E m).decisions :=
      runFailurePercentage_induct (List.Subset.refl _) fun s _ p _ _ h =>
        List.Subset.trans h (subset_append_left _ _)
    have henough : inMapOrder found ≠ [] ∧ c.minimumHosts ≤ (inMapOrder found).length :=
      ⟨by simp [hsplit], (inMapOrder_perm found).length_eq.symm ▸ hhosts⟩
    rw [runSuccessRate, hc] at hsubset
    simp only [if_pos henough] at hsubset
    exact SparesEjected.of_limited (fun d hd => hlimited d (hsubset hd)) before
      candidate after hsplit
  · intro hspares
    have hkept := kept_sweep hspares
    refine ⟨hkept.limited, hkept.changed.imp fun _ _ h => h.growsOnce, ?_⟩
    rw [onTimerLocked, forall₂_map_right_iff]
    exact hkept.changed.imp fun _ _ h => h.maybeUneject _ _ _

/-- The arithmetic of `double` on whole numbers, with the whole part of a quotient and of a root. -/
def wholeNumbers : Doubles Nat where
  successRate successes total := successes * 100 / total
  ejectionThreshold added candidates stdevFactor :=
    let mean := added.sum / added.length
    let variance := (candidates.map fun r => (max r mean - min r mean) ^ 2).sum / candidates.length
    let stdev := ((List.range 100).filter fun k => (k + 1) ^ 2 ≤ variance).length
    mean - stdev * stdevFactor / 1000
  less rate threshold := rate < threshold
  failsOver rate threshold := threshold < 100 - rate
  percentBelow count size percent := 100 * count < percent * size
  percentBelow_exact _ _ _ h := of_decide_eq_true h

/-- Two hosts, of which the first is ejected. All its calls failed since, and those of the second
succeeded. -/
def oneEjected : HostMap where
  hosts := [(1, { currentBucket := ⟨0, 100⟩, multiplier := 1, ejectionTime := some 0 }),
    (2, { currentBucket := ⟨100, 0⟩ })]
  nodup := by decide

/-- Success rates are compared with their mean. -/
def compareWithMean : Env Nat where
  doubles := wholeNumbers
  config := { maxEjectionPercent := 60, successRateEjection := some ⟨0, 100, 2, 100⟩ }
  draws := fun _ => 1
  timeNow := 10000
  clock := fun _ => 10000

/-- The host that is ejected is ejected again: its multiplier grows, and the count is 2 with one
ejected host. -/
theorem sweep_ejects_again :
    (∃ d ∈ (sweep compareWithMean oneEjected).decisions, d.ejects = true ∧
      isEjected d.hosts d.candidate = true) ∧
    (sweep compareWithMean oneEjected).ejectedHostCount = 2 ∧
    ejectedHosts (sweep compareWithMean oneEjected).hosts = 1 ∧
    (sweep compareWithMean oneEjected).hosts.map (·.2.multiplier) = [2, 0] := by
  decide

end GrpcCore.OutlierDetection
