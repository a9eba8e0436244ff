import GrpcCore.Lb.ChildPolicy
import Mathlib.Algebra.Group.Nat.Defs
import Mathlib.Data.List.Rotate

/-!
# The picker of the ring_hash policy

`RingHash::Picker::Pick` in `ring_hash.cc`. The first half looks up the hash of the request in the
sorted ring; the second walks the ring from there until a subchannel can take the call.

The search was ported from code with signed indices. For a hash above zero the answer stays between
`lowp` and `highp` (`ringSearch_of_bracket`), so that neither index leaves the ring and the exit for
`lowp > highp` is never taken. For the hash zero the test against the predecessor never holds,
`highp` is lowered below zero and wraps around, and the next entry is read far outside the ring.
-/

namespace GrpcCore

open List

structure RingEntry (σ : Type*) where
  hash : UInt64
  subchannel : σ

/-- `ring_` as its constructor leaves it. A `std::vector` of entries of sixteen bytes has fewer than
`2 ^ 59` of them. -/
structure Ring (σ : Type*) where
  entries : List (RingEntry σ)
  nonempty : entries ≠ []
  sorted : entries.Pairwise fun a b => a.hash ≤ b.hash
  length_lt : entries.length < 2 ^ 59

inductive RingSearch where
  | found (firstIndex : Nat)
  | outOfBounds (index : Nat)
  | running
  deriving DecidableEq

section Search

variable {σ : Type*} {ring : List (RingEntry σ)} {h : UInt64} {lowp highp : Nat}

/-- The search loop of `Pick`, for some number of iterations; the indices are of type `size_t`. -/
def ringSearch (ring : List (RingEntry σ)) (h : UInt64) : Nat → Nat → Nat → RingSearch
  | 0, _, _ => .running
  | fuel + 1, lowp, highp =>
    let firstIndex := (lowp + highp) % 2 ^ 64 / 2
    if firstIndex = ring.length then .found 0
    else
      match ring[firstIndex]? with
      | none => .outOfBounds firstIndex
      | some entry =>
        let midval := entry.hash
        let midval1 := if firstIndex = 0 then 0 else (ring[firstIndex - 1]?).elim 0 (·.hash)
        if h ≤ midval ∧ midval1 < h then .found firstIndex
        else
          let lowp := if midval < h then (firstIndex + 1) % 2 ^ 64 else lowp
          let highp := if midval < h then highp else (firstIndex + (2 ^ 64 - 1)) % 2 ^ 64
          if highp < lowp then .found 0 else ringSearch ring h fuel lowp highp

/-- The smallest index whose hash is at least `h`, or 0 if there is none. -/
def Ring.lookup (ring : Ring σ) (h : UInt64) : Nat :=
  (ring.entries.findIdx? fun e => decide (h ≤ e.hash)).getD 0

variable {i t : Nat}

theorem findIdx_le_iff (hs : ring.Pairwise fun a b => a.hash ≤ b.hash) {e : RingEntry σ}
    (he : ring[i]? = some e) : ring.findIdx (fun e => decide (h ≤ e.hash)) ≤ i ↔ h ≤ e.hash := by
  obtain ⟨hi, rfl⟩ := List.getElem?_eq_some_iff.1 he
  constructor
  · intro hle
    have ht : ring.findIdx (fun e => decide (h ≤ e.hash)) < ring.length := Nat.lt_of_le_of_lt hle hi
    have hp := findIdx_getElem (w := ht)
    have hsort : ring[ring.findIdx (fun e => decide (h ≤ e.hash))].hash ≤ ring[i].hash := by
      rcases Nat.eq_or_lt_of_le hle with heq | hlt
      · simp only [heq]
        exact UInt64.le_refl _
      · exact pairwise_iff_getElem.1 hs _ _ ht hi hlt
    exact UInt64.le_trans (of_decide_eq_true hp) hsort
  · intro hle
    by_contra hlt
    have := not_of_lt_findIdx (not_le.1 hlt)
    exact of_decide_eq_false this hle

theorem Ring.lookup_eq (ring : Ring σ)
    (ht : ring.entries.findIdx (fun e => decide (h ≤ e.hash)) = t) :
    ring.lookup h = if t = ring.entries.length then 0 else t := by
  unfold lookup
  split
  · next heq => rw [findIdx?_eq_none_iff_findIdx_eq.2 (ht.trans heq), Option.getD_none]
  · next hne =>
    have hle : t ≤ ring.entries.length := ht ▸ findIdx_le_length
    rw [findIdx?_eq_some_iff_findIdx_eq.2 ⟨by omega, ht⟩, Option.getD_some]

/-- The answer `t` stays between the two bounds, which come closer in every iteration. -/
theorem ringSearch_of_bracket (ring : Ring σ) (hh : h ≠ 0)
    (ht : ring.entries.findIdx (fun e => decide (h ≤ e.hash)) = t) :
    ∀ (fuel lowp highp : Nat), lowp ≤ t → t ≤ highp → highp ≤ ring.entries.length →
      highp - lowp < fuel → ringSearch ring.entries h fuel lowp highp = .found (ring.lookup h)
  | 0, _, _, _, _, _, hf => absurd hf (Nat.not_lt_zero _)
  | fuel + 1, lowp, highp, hlo, hhi, hn, hf => by
    have hlt := ring.length_lt
    have hmid : (lowp + highp) % 2 ^ 64 / 2 = (lowp + highp) / 2 := by
      rw [Nat.mod_eq_of_lt (by omega)]
    rw [ringSearch, hmid]
    generalize hm : (lowp + highp) / 2 = m
    dsimp only
    rw [ring.lookup_eq ht]
    by_cases hend : m = ring.entries.length
    · rw [if_pos hend, if_pos (by omega)]
    rw [if_neg hend]
    obtain ⟨e, he⟩ : ∃ e, ring.entries[m]? = some e := by
      exact ⟨_, getElem?_eq_getElem (by omega)⟩
    have hte := findIdx_le_iff (h := h) ring.sorted he
    rw [ht] at hte
    rw [he]
    dsimp only
    by_cases hmv : e.hash < h
    · -- the answer is to the right of the middle
      have htm : ¬ t ≤ m := fun hle => absurd (hte.1 hle) (UInt64.not_le.2 hmv)
      rw [if_neg (fun hc => absurd hc.1 (UInt64.not_le.2 hmv)), if_pos hmv, if_pos hmv,
        Nat.mod_eq_of_lt (by omega), if_neg (by omega),
        ringSearch_of_bracket ring hh ht fuel (m + 1) highp (by omega) hhi hn (by omega),
        ring.lookup_eq ht]
    · have htm : t ≤ m := hte.2 (UInt64.not_lt.1 hmv)
      rw [if_neg hmv, if_neg hmv]
      rcases Nat.eq_zero_or_pos m with hm0 | hm0
      · -- there is no predecessor, and the hash is above the zero used in its place
        rw [if_pos ⟨UInt64.not_lt.1 hmv, by rw [if_pos hm0]; exact UInt64.pos_iff_ne_zero.2 hh⟩,
          if_neg (by omega)]
        congr 1
        omega
      obtain ⟨e', he'⟩ : ∃ e', ring.entries[m - 1]? = some e' := by
        exact ⟨_, getElem?_eq_getElem (by omega)⟩
      have hte' := findIdx_le_iff (h := h) ring.sorted he'
      rw [ht] at hte'
      rw [if_neg (show ¬ m = 0 by omega), he', Option.elim_some]
      by_cases hmv1 : e'.hash < h
      · have htm' : ¬ t ≤ m - 1 := fun hle => absurd (hte'.1 hle) (UInt64.not_le.2 hmv1)
        rw [if_pos ⟨UInt64.not_lt.1 hmv, hmv1⟩, if_neg (by omega)]
        congr 1
        omega
      · have htm' : t ≤ m - 1 := hte'.2 (UInt64.not_lt.1 hmv1)
        have hdec : (m + (2 ^ 64 - 1)) % 2 ^ 64 = m - 1 := by omega
        rw [if_neg (fun hc => hmv1 hc.2), hdec, if_neg (by omega),
          ringSearch_of_bracket ring hh ht fuel lowp (m - 1) hlo htm' (by omega) (by omega),
          ring.lookup_eq ht]

/-- For the hash zero `highp` goes down to below zero, and the search never ends at an entry. -/
theorem ringSearch_zero_ne_found (ring : Ring σ) : ∀ (fuel highp : Nat),
    highp ≤ ring.entries.length ∨ highp = 2 ^ 64 - 1 →
      ringSearch ring.entries 0 fuel 0 highp ≠ .found i
  | 0, _, _ => nofun
  | fuel + 1, highp, hhi => by
    have hlt := ring.length_lt
    have hpos : 0 < ring.entries.length := length_pos_iff.2 ring.nonempty
    have hmid : (0 + highp) % 2 ^ 64 / 2 = highp / 2 := by
      rw [Nat.mod_eq_of_lt (by omega), Nat.zero_add]
    rw [ringSearch, hmid, if_neg (by omega)]
    cases he : ring.entries[highp / 2]? with
    | none => nofun
    | some e =>
      have hbound := (List.getElem?_eq_some_iff.1 he).1
      have hz : ∀ x : UInt64, ¬ x < 0 := fun x => UInt64.not_lt.2 UInt64.zero_le
      simp only [hz, and_false, if_false, Nat.not_lt_zero]
      exact ringSearch_zero_ne_found ring fuel _ (by omega)

/-- The lookup ends at the right entry exactly for the hashes above zero. -/
theorem ringSearch_finds_iff (ring : Ring σ) (h : UInt64) :
    (∃ fuel, ringSearch ring.entries h fuel 0 ring.entries.length = .found (ring.lookup h)) ↔
      h ≠ 0 := by
  constructor
  · rintro ⟨fuel, hfound⟩ rfl
    exact ringSearch_zero_ne_found ring fuel _ (.inl le_rfl) hfound
  · intro hh
    exact ⟨ring.entries.length + 1, ringSearch_of_bracket ring hh rfl _ _ _ (Nat.zero_le _)
      findIdx_le_length le_rfl (by omega)⟩

/-- In a ring of one entry the hash zero is looked up at the index `2 ^ 63 - 1`. -/
theorem ringSearch_zero_leaves_ring :
    ringSearch [RingEntry.mk 7 ()] 0 2 0 1 = .outOfBounds (2 ^ 63 - 1) := by
  decide

end Search

/-! ## The walk along the ring -/

/-- `absl::Status::ToString`. -/
def statusToString : Status → String
  | .ok _ => "OK"
  | .error text => text

section Walk

variable {σ : Type*} [DecidableEq σ] (state : σ → ConnectivityState) (status : σ → Status)

/-- The loop over the remaining entries of the ring. The last argument collects the subchannels that
are asked to connect. -/
def pickRest (first : σ) : List σ → Bool → Bool → List σ → PickResult σ × List σ
  | [], _, _, asked =>
    (.fail (unavailableError ("ring hash cannot find a connected subchannel; first failure: " ++
      statusToString (status first))), asked)
  | s :: rest, foundSecond, foundFirstNonFailed, asked =>
    if s = first then pickRest first rest foundSecond foundFirstNonFailed asked
    else if state s = .ready then (.complete s, asked)
    else if !foundSecond ∧ state s = .idle then (.queue, asked ++ [s])
    else if !foundSecond ∧ state s = .connecting then (.queue, asked)
    else if foundFirstNonFailed then pickRest first rest true true asked
    else if state s = .transientFailure then pickRest first rest true false (asked ++ [s])
    else if state s = .idle then pickRest first rest true true (asked ++ [s])
    else pickRest first rest true true asked

/-- `Pick` from the entry that the lookup found: the entry that is `i` positions after it is
`ring[(first_index + i) % ring.size()]`. -/
def pickFrom (ring : List (RingEntry σ)) (firstIndex : Nat) : Option (PickResult σ × List σ) :=
  match (ring.rotate firstIndex).map (·.subchannel) with
  | [] => none
  | s :: rest =>
    match state s with
    | .ready => some (.complete s, [])
    | .idle => some (.queue, [s])
    | .connecting => some (.queue, [])
    | .transientFailure | .shutdown => some (pickRest state status s rest false false [s])

/-- `Pick`, for the hash that `SimpleAtoi` reads from the attribute of the call. -/
def ringHashPick (ring : List (RingEntry σ)) (fuel : Nat) :
    Option UInt64 → Option (PickResult σ × List σ)
  | none => some (.fail (.error "INTERNAL: ring hash value is not a number"), [])
  | some h =>
    match ringSearch ring h fuel 0 ring.length with
    | .found firstIndex => pickFrom state status ring firstIndex
    | .outOfBounds _ | .running => none

theorem ringHashPick_eq (ring : Ring σ) {h : UInt64} (hh : h ≠ 0) :
    ringHashPick state status ring.entries (ring.entries.length + 1) (some h) =
      pickFrom state status ring.entries (ring.lookup h) := by
  have hfound := ringSearch_of_bracket ring hh rfl (ring.entries.length + 1) 0 ring.entries.length
    (Nat.zero_le _) findIdx_le_length le_rfl (by omega)
  rw [ringHashPick, hfound]

/-- What a subchannel's state decides, with what is done if it has failed. -/
def pickOr (s : σ) (failed : PickResult σ) : PickResult σ :=
  match state s with
  | .ready => .complete s
  | .idle | .connecting => .queue
  | .transientFailure | .shutdown => failed

/-- The outcome for the distinct subchannels in their order: the first two decide, and after them
the first one that is ready. -/
def pickOutcome (failure : PickResult σ) : List σ → PickResult σ
  | [] => failure
  | [s₁] => pickOr state s₁ failure
  | s₁ :: s₂ :: more =>
    pickOr state s₁ (pickOr state s₂
      ((more.find? fun s => decide (state s = .ready)).elim failure .complete))

variable {state status} {first s : σ} {l asked : List σ}

variable {p : σ → Bool}

theorem find?_filter_ne (hs : p s = false) (l : List σ) :
    (l.filter fun b => !b == s).find? p = l.find? p := by
  rw [find?_filter]
  congr 1
  funext a
  by_cases has : a = s
  · simp [has, hs]
  · simp [has]

theorem find?_eraseDups (l : List σ) : l.eraseDups.find? p = l.find? p := by
  induction hn : l.length using Nat.strong_induction_on generalizing l with
  | _ n ih =>
    cases l with
    | nil => rfl
    | cons a l =>
      rw [eraseDups_cons, find?_cons, find?_cons]
      cases hp : p a with
      | true => rfl
      | false =>
        have hle := length_filter_le (fun b => !b == a) l
        rw [length_cons] at hn
        dsimp only
        rw [ih _ (by omega) _ rfl, find?_filter_ne hp]

/-- Repetitions do not change which elements stand before the first one without the property. -/
theorem mem_takeWhile_eraseDups (l : List σ) :
    s ∈ l.eraseDups.takeWhile p ↔ s ∈ l.takeWhile p := by
  induction hn : l.length using Nat.strong_induction_on generalizing l with
  | _ n ih =>
    cases l with
    | nil => rfl
    | cons a l =>
      rw [eraseDups_cons, takeWhile_cons, takeWhile_cons]
      cases hp : p a with
      | false => rfl
      | true =>
        have hle := length_filter_le (fun b => !b == a) l
        rw [length_cons] at hn
        have hdrop : (fun b => !!b == a || p b) = p := by
          funext b
          by_cases hb : b = a <;> simp [hb, hp]
        rw [if_pos rfl, if_pos rfl, mem_cons, mem_cons, ih _ (by omega) _ rfl,
          takeWhile_filter, hdrop, mem_filter]
        by_cases hs : s = a <;> simp [hs]

theorem pickRest_filter (l : List σ) : ∀ (second nonFailed : Bool) (asked : List σ),
    pickRest state status first l second nonFailed asked =
      pickRest state status first (l.filter fun b => !b == first) second nonFailed asked := by
  induction l with
  | nil => intros; rfl
  | cons s l ih =>
    intro second nonFailed asked
    by_cases hs : s = first
    · rw [pickRest, if_pos hs, ih, filter_cons_of_neg (by simpa using hs)]
    · rw [filter_cons_of_pos (by simpa using hs), pickRest, pickRest]
      simp only [ih]

theorem pickRest_fst (hl : first ∉ l) : ∀ (nonFailed : Bool) (asked : List σ),
    (pickRest state status first l true nonFailed asked).1 =
      (l.find? fun s => decide (state s = .ready)).elim
        (pickRest state status first [] true nonFailed asked).1 .complete := by
  induction l with
  | nil => intros; rfl
  | cons s l ih =>
    intro nonFailed asked
    have hs : s ≠ first := fun h => hl (h ▸ mem_cons_self)
    have ih := ih fun h => hl (mem_cons_of_mem _ h)
    simp only [pickRest, if_neg hs, Bool.not_true, Bool.false_eq_true, false_and, if_false,
      find?_cons]
    by_cases hready : state s = .ready
    · simp [hready]
    · rw [if_neg hready, decide_eq_false hready]
      split
      · exact ih ..
      · split
        · exact ih ..
        · split <;> exact ih ..

/-- Once a subchannel has been seen that has not failed, nothing more is asked to connect. -/
theorem pickRest_snd_nonFailed (hl : first ∉ l) (asked : List σ) :
    (pickRest state status first l true true asked).2 = asked := by
  induction l with
  | nil => rfl
  | cons s l ih =>
    have hs : s ≠ first := fun h => hl (h ▸ mem_cons_self)
    have ih := ih fun h => hl (mem_cons_of_mem _ h)
    simp only [pickRest, if_neg hs, Bool.not_true, Bool.false_eq_true, false_and, if_false, if_true]
    split
    · rfl
    · exact ih

/-- Until then, the failed subchannels are asked, and the first one that has not failed if it is
idle. -/
theorem mem_pickRest_snd (hl : first ∉ l) (hstate : ∀ s, state s ≠ .shutdown) :
    ∀ asked : List σ, s ∈ (pickRest state status first l true false asked).2 ↔
      s ∈ asked ∨ s ∈ l.takeWhile (fun s => decide (state s = .transientFailure)) ∨
        l.find? (fun s => decide (state s ≠ .transientFailure)) = some s ∧ state s = .idle := by
  induction l with
  | nil =>
    intro asked
    simp [pickRest]
  | cons a l ih =>
    intro asked
    have ha : a ≠ first := fun h => hl (h ▸ mem_cons_self)
    have hl' : first ∉ l := fun h => hl (mem_cons_of_mem _ h)
    have ih := ih hl'
    have hafter : ∀ asked, (pickRest state status first l true true asked).2 = asked :=
      pickRest_snd_nonFailed hl'
    simp only [pickRest, if_neg ha, Bool.not_true, Bool.false_eq_true, false_and, if_false,
      takeWhile_cons, find?_cons]
    cases hst : state a with
    | shutdown => exact absurd hst (hstate a)
    | transientFailure => simp [ih, or_assoc]
    | idle =>
      simp only [reduceCtorEq, if_false, if_true, hafter]
      by_cases hs : s = a
      · simp [hs, hst]
      · simp [hs, Ne.symm hs]
    | ready | connecting =>
      simp only [reduceCtorEq, if_false, if_true, hafter]
      by_cases hs : s = a
      · simp [hs, hst]
      · simp [Ne.symm hs]

theorem pickRest_second (hl : first ∉ l)
    (hsecond : ∀ s₂, l.head? = some s₂ → state s₂ = .transientFailure) (asked : List σ) :
    pickRest state status first l false false asked =
      pickRest state status first l true false asked := by
  cases l with
  | nil => rfl
  | cons s₂ l =>
    have hs : s₂ ≠ first := fun h => hl (h ▸ mem_cons_self)
    simp [pickRest, hs, hsecond s₂ rfl]

theorem head?_eraseDups (l : List σ) : l.eraseDups.head? = l.head? := by
  cases l with
  | nil => rfl
  | cons a l => rw [eraseDups_cons, head?_cons, head?_cons]

theorem pickRest_outcome (hl : first ∉ l) (hstate : ∀ s, state s ≠ .shutdown)
    (hfirst : state first = .transientFailure) :
    (pickRest state status first l false false asked).1 =
      pickOutcome state (pickRest state status first [] false false asked).1
        (first :: l.eraseDups) := by
  cases l with
  | nil => simp [pickOutcome, pickOr, hfirst]
  | cons s₂ l =>
    have hs : s₂ ≠ first := fun h => hl (h ▸ mem_cons_self)
    rw [eraseDups_cons, pickOutcome, pickOr, hfirst, pickOr]
    cases hst : state s₂ with
    | shutdown => exact absurd hst (hstate s₂)
    | ready | idle | connecting => simp [pickRest, hs, hst]
    | transientFailure =>
      have hready : decide (state s₂ = .ready) = false := by simp [hst]
      rw [pickRest_second hl (by simpa using hst), pickRest_fst hl, find?_cons, hready,
        find?_eraseDups, find?_filter_ne (p := fun s => decide (state s = .ready)) hready]
      rfl

/-- A pick does what the states of the distinct subchannels in ring order decide. If the first two
have failed, the subchannels asked to connect are the failed ones before the first that has not
failed, and that one if it is idle. -/
theorem pickFrom_outcome (ring : List (RingEntry σ)) (firstIndex : Nat)
    (hfirst : firstIndex < ring.length) (hstate : ∀ s, state s ≠ .shutdown) :
    ∃ s₁ others result asked,
      ((ring.rotate firstIndex).map (·.subchannel)).eraseDups = s₁ :: others ∧
      pickFrom state status ring firstIndex = some (result, asked) ∧
      result = pickOutcome state (.fail (unavailableError
        ("ring hash cannot find a connected subchannel; first failure: " ++
          statusToString (status s₁)))) (s₁ :: others) ∧
      (state s₁ = .transientFailure →
        (∀ s₂, others.head? = some s₂ → state s₂ = .transientFailure) →
        ∀ s, s ∈ asked ↔
          s ∈ (s₁ :: others).takeWhile (fun s => decide (state s = .transientFailure)) ∨
          (s₁ :: others).find? (fun s => decide (state s ≠ .transientFailure)) = some s ∧
            state s = .idle) := by
  obtain ⟨s₁, rest, hr⟩ : ∃ s₁ rest, (ring.rotate firstIndex).map (·.subchannel) = s₁ :: rest := by
    refine exists_cons_of_ne_nil fun hnil => ?_
    have := congrArg List.length hnil
    rw [length_map, length_rotate, length_nil] at this
    omega
  have hnotin : s₁ ∉ rest.filter fun b => !b == s₁ := by simp
  have hrest : ∀ asked, pickRest state status s₁ rest false false asked =
      pickRest state status s₁ (rest.filter fun b => !b == s₁) false false asked :=
    pickRest_filter rest false false
  rw [hr, eraseDups_cons]
  unfold pickFrom
  rw [hr]
  generalize rest.filter (fun b => !b == s₁) = l at hnotin hrest
  cases hst : state s₁ with
  | shutdown => exact absurd hst (hstate s₁)
  | ready | idle | connecting =>
    refine ⟨s₁, _, _, _, rfl, by simp only [hst]; rfl, ?_, by simp [hst]⟩
    cases l.eraseDups <;> simp [pickOutcome, pickOr, hst]
  | transientFailure =>
    refine ⟨s₁, _, _, _, rfl, by simp only [hst, hrest]; rfl,
      pickRest_outcome hnotin hstate hst, fun _ hsecond s => ?_⟩
    rw [head?_eraseDups] at hsecond
    rw [pickRest_second hnotin hsecond, mem_pickRest_snd hnotin hstate, takeWhile_cons,
      find?_cons, hst]
    simp [mem_takeWhile_eraseDups, find?_eraseDups, or_assoc]

/-- Two failed subchannels, an idle and a ready one: the call goes to the last, and the idle one is
asked to connect. -/
theorem pickFrom_outcome_of_two_failed :
    let state : Bool × Bool → ConnectivityState :=
      fun s => if s.1 then (if s.2 then .ready else .idle) else .transientFailure
    let ring := [⟨1, (false, true)⟩, ⟨2, (false, false)⟩, ⟨3, (false, true)⟩, ⟨4, (true, false)⟩,
      ⟨5, (true, true)⟩]
    ∃ asked, pickFrom state (fun _ => .ok ()) ring 1 = some (.complete (true, true), asked) ∧
      (true, false) ∈ asked := by
  intro state ring
  obtain ⟨s₁, others, result, asked, hss, hpick, hresult, hasked⟩ :=
    @pickFrom_outcome _ _ state (fun _ => .ok ()) ring 1 (by decide)
      fun (a, b) => by cases a <;> cases b <;> decide
  obtain ⟨rfl, rfl⟩ := cons.inj (hss.symm.trans
    (show _ = [(false, false), (false, true), (true, false), (true, true)] by decide))
  have hcomplete : result = .complete (true, true) := hresult
  exact ⟨asked, hcomplete ▸ hpick, (hasked rfl (by simp [state]) _).2 (by decide)⟩

end Walk

end GrpcCore
