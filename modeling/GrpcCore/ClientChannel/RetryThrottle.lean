import GrpcCore.Lib.Numeric
import GrpcCore.Lib.Run

/-!
# Retry throttling

`retry_throttle.h` and `retry_throttle.cc`. Each server name has a count of tokens; failures take
tokens away and successes give some back. `GetDataForServer` returns the object for a name. When the
parameters of the name have changed it makes a new object, whose tokens are scaled from the old one,
and the old object forwards to the new one.

The new object is stored with `std::map::emplace`, which does nothing when the key is there. So the
map keeps the first object of a name, and each further call with new parameters makes another object
from its tokens. `ThrottleSystem.throttle_run_iff_keeps` says that this happens exactly when the
parameters of a name change.

Objects are numbered in the order of their creation and never freed: the counting of references is
left out. The addition in `gpr_atm_no_barrier_clamped_add` is a signed one, whose overflow is
undefined: such a call is `none`, and so is the cast of a `double` that does not fit.
-/

namespace GrpcCore

open List Option Numeric

/-! ## Scaling the tokens -/

/-- The tokens of a new object, from those of the old one. The quotient is not a number when the old
maximum is zero. -/
def scaleTokens (oldTokens oldMax newMax : UInt64) : Option UInt64 :=
  if oldMax = 0 then none
  else
    let tokenFraction := (Double.ofNat oldTokens.toNat).div (Double.ofNat oldMax.toNat)
    let scaled := (tokenFraction.mul (Double.ofNat newMax.toNat)).trunc
    if scaled < 2 ^ 64 then some (UInt64.ofNat scaled) else none

/-- The test of the source: three tokens of four become 7.5 of ten. -/
example : scaleTokens 3000 4000 10000 = some 7500 := by decide +kernel

/-! ## Objects -/

def atm (n : UInt64) : Int := n.toBitVec.toInt

def uintptr (n : Int) : UInt64 := ⟨BitVec.ofInt 64 n⟩

/-- `gpr_atm_no_barrier_clamped_add`, the new value. -/
def clampedAdd (value delta min max : Int) : Option Int :=
  if -2 ^ 63 ≤ value + delta ∧ value + delta < 2 ^ 63 then
    some (clamp (value + delta) min max)
  else none

structure ServerRetryThrottleData where
  maxMilliTokens : UInt64
  milliTokenRatio : UInt64
  milliTokens : Int
  replacement : Option Nat := none
  deriving DecidableEq

/-- `ServerRetryThrottleMap`, with all objects. -/
structure ServerRetryThrottleMap where
  objects : List ServerRetryThrottleData := []
  map : String → Option Nat := fun _ => none

namespace ServerRetryThrottleMap

/-- The tokens that the constructor of `ServerRetryThrottleData` starts with. -/
def initialMilliTokens (maxMilliTokens : UInt64) :
    Option ServerRetryThrottleData → Option UInt64
  | none => some maxMilliTokens
  | some old => scaleTokens (uintptr old.milliTokens) old.maxMilliTokens maxMilliTokens

/-- The constructor of `ServerRetryThrottleData`: the object is made, and the old one is given its
replacement. -/
def create (m : ServerRetryThrottleMap) (maxMilliTokens milliTokenRatio : UInt64)
    (old : Option Nat) : Option ServerRetryThrottleMap :=
  let oldData := old.bind (m.objects[·]?)
  (initialMilliTokens maxMilliTokens oldData).map fun tokens =>
    let objects :=
      match old, oldData with
      | some a, some data => m.objects.set a { data with replacement := some m.objects.length }
      | _, _ => m.objects
    { m with objects := objects ++ [⟨maxMilliTokens, milliTokenRatio, atm tokens, none⟩] }

/-- `std::map::emplace`: an entry that is there stays. -/
def emplace (m : ServerRetryThrottleMap) (name : String) (a : Nat) : ServerRetryThrottleMap :=
  match m.map name with
  | some _ => m
  | none => { m with map := fun n => if n = name then some a else m.map n }

/-- The object of the name has these parameters. -/
def hasParameters (m : ServerRetryThrottleMap) (a : Nat)
    (maxMilliTokens milliTokenRatio : UInt64) : Bool :=
  m.objects[a]?.any fun data =>
    data.maxMilliTokens = maxMilliTokens ∧ data.milliTokenRatio = milliTokenRatio

def getDataForServer (m : ServerRetryThrottleMap) (name : String)
    (maxMilliTokens milliTokenRatio : UInt64) : Option (ServerRetryThrottleMap × Nat) :=
  let entry := m.map name
  if entry.any (m.hasParameters · maxMilliTokens milliTokenRatio) then entry.map fun a => (m, a)
  else
    (m.create maxMilliTokens milliTokenRatio entry).bind fun m' =>
      let m' := m'.emplace name m.objects.length
      (m'.map name).map fun a => (m', a)

/-- `GetReplacementThrottleDataIfNeeded`. A replacement is younger than the object that it replaces,
so that there are no more rounds than objects. -/
def follow (m : ServerRetryThrottleMap) : Nat → Nat → Nat
  | 0, a => a
  | fuel + 1, a =>
    match m.objects[a]?.bind (·.replacement) with
    | none => a
    | some a' => m.follow fuel a'

def current (m : ServerRetryThrottleMap) (a : Nat) : Nat := m.follow m.objects.length a

/-- The change of a counter in `RecordFailure` and `RecordSuccess`, with the new value. -/
def addTokens (m : ServerRetryThrottleMap) (a : Nat) (delta : ServerRetryThrottleData → Int) :
    Option (ServerRetryThrottleMap × UInt64) :=
  m.objects[m.current a]?.bind fun data =>
    (clampedAdd data.milliTokens (delta data) 0 (atm data.maxMilliTokens)).map fun tokens =>
      ({ m with objects := m.objects.set (m.current a) { data with milliTokens := tokens } },
        uintptr tokens)

/-- `RecordFailure`, with whether a retry may be sent. -/
def recordFailure (m : ServerRetryThrottleMap) (a : Nat) : Option (ServerRetryThrottleMap × Bool) :=
  (m.addTokens a fun _ => -1000).map fun r =>
    (r.1, m.objects[m.current a]?.any fun data => data.maxMilliTokens / 2 < r.2)

def recordSuccess (m : ServerRetryThrottleMap) (a : Nat) : Option ServerRetryThrottleMap :=
  (m.addTokens a fun data => atm data.milliTokenRatio).map (·.1)

end ServerRetryThrottleMap

/-! ## Histories -/

/-- The map, the handles that were returned, and the object that was created last for each name. -/
structure ThrottleSystem where
  throttle : ServerRetryThrottleMap := {}
  handles : List (String × Nat) := []
  newest : String → Option Nat := fun _ => none

/-- Calls. A handle is given by its place among those that were returned. -/
inductive ThrottleCall where
  | getDataForServer (name : String) (maxMilliTokens milliTokenRatio : UInt64)
  | recordFailure (i : Nat)
  | recordSuccess (i : Nat)

namespace ThrottleSystem

open ServerRetryThrottleMap

/-- The objects after a call of `GetDataForServer`; a new one is the newest of the name. -/
def returned (s : ThrottleSystem) (name : String) (r : ServerRetryThrottleMap × Nat) :
    ThrottleSystem where
  throttle := r.1
  handles := s.handles ++ [(name, r.2)]
  newest :=
    if s.throttle.objects.length < r.1.objects.length then
      fun n => if n = name then some s.throttle.objects.length else s.newest n
    else s.newest

def step (s : ThrottleSystem) : ThrottleCall → Option ThrottleSystem
  | .getDataForServer name max ratio =>
      (s.throttle.getDataForServer name max ratio).map (s.returned name)
  | .recordFailure i => s.handles[i]?.bind fun h =>
    (s.throttle.recordFailure h.2).map fun r => { s with throttle := r.1 }
  | .recordSuccess i => s.handles[i]?.bind fun h =>
    (s.throttle.recordSuccess h.2).map fun m => { s with throttle := m }

/-- Handles are used that were returned before. -/
def Allowed (s : ThrottleSystem) : ThrottleCall → Prop
  | .getDataForServer .. => True
  | .recordFailure i | .recordSuccess i => i < s.handles.length

/-- What `GetDataForServer` promises: the object has the parameters that were asked for, and asking
again returns it and leaves every object as it is. -/
def Fulfils (s : ThrottleSystem) : ThrottleCall → Prop
  | .getDataForServer name max ratio =>
      ∀ m a, s.throttle.getDataForServer name max ratio = some (m, a) →
    m.hasParameters a max ratio = true ∧ m.getDataForServer name max ratio = some (m, a)
  | _ => True

/-- All handles of a name act on the object that was created last for it, whose tokens are within
its limit. -/
structure Shared (s : ThrottleSystem) : Prop where
  current : ∀ name a, (name, a) ∈ s.handles → s.newest name = some (s.throttle.current a)
  tokens_le : ∀ name a data, s.newest name = some a → s.throttle.objects[a]? = some data →
    uintptr data.milliTokens ≤ data.maxMilliTokens

/-- The sum of a counter and its change is a `gpr_atm`. -/
def NoOverflow (s : ThrottleSystem) (i : Nat) (delta : ServerRetryThrottleData → Int) : Prop :=
  ∀ h data, s.handles[i]? = some h → s.throttle.objects[s.throttle.current h.2]? = some data →
    -2 ^ 63 ≤ data.milliTokens + delta data ∧ data.milliTokens + delta data < 2 ^ 63

/-- A name is asked for with the parameters of its object, and no counter overflows. -/
def Keeps (s : ThrottleSystem) : ThrottleCall → Prop
  | .getDataForServer name max ratio =>
    ∀ a, s.throttle.map name = some a → s.throttle.hasParameters a max ratio = true
  | .recordFailure i => s.NoOverflow i fun _ => -1000
  | .recordSuccess i => s.NoOverflow i fun data => atm data.milliTokenRatio

instance (s : ThrottleSystem) : ∀ c, Decidable (s.Allowed c)
  | .getDataForServer .. => instDecidableTrue
  | .recordFailure i | .recordSuccess i => inferInstanceAs (Decidable (i < s.handles.length))

instance (s : ThrottleSystem) (i : Nat) (delta : ServerRetryThrottleData → Int) :
    Decidable (s.NoOverflow i delta) :=
  decidable_of_iff (s.handles[i]?.all fun h =>
    s.throttle.objects[s.throttle.current h.2]?.all fun data =>
    -2 ^ 63 ≤ data.milliTokens + delta data ∧ data.milliTokens + delta data < 2 ^ 63) <| by
    simp only [NoOverflow, Option.all_eq_true, decide_eq_true_eq]
    exact ⟨fun h x data hx hdata => h x hx data hdata, fun h x hx data hdata => h x data hx hdata⟩

instance (s : ThrottleSystem) : ∀ c, Decidable (s.Keeps c)
  | .getDataForServer name max ratio =>
    decidable_of_iff ((s.throttle.map name).all (s.throttle.hasParameters · max ratio)) <| by
      simp [Keeps, Option.all_eq_true]
  | .recordFailure i => inferInstanceAs (Decidable (s.NoOverflow i _))
  | .recordSuccess i => inferInstanceAs (Decidable (s.NoOverflow i _))

end ThrottleSystem

/-! ## What the calls do -/

theorem uintptr_atm (n : UInt64) : uintptr (atm n) = n := by
  rw [uintptr, atm, BitVec.ofInt_toInt]

/-- The counter is clamped into its limits, also when the maximum is negative as a `gpr_atm`. -/
theorem uintptr_clamp_le (v : Int) (max : UInt64) :
    uintptr (clamp v 0 (atm max)) ≤ max := by
  unfold clamp
  split_ifs with hneg hgt
  · exact UInt64.zero_le
  · rw [uintptr_atm]
    exact UInt64.le_refl max
  · have hmax : atm max = max.toNat := by
      have h : atm max = if 2 * max.toNat < 2 ^ 64 then
          (max.toNat : Int) else max.toNat - 2 ^ 64 := by
        rw [atm, BitVec.toInt_eq_toNat_cond]
        rfl
      have hlt := max.toNat_lt
      split_ifs at h <;> omega
    have hlt := max.toNat_lt
    have hv : (uintptr v).toNat = v.toNat := by
      change (BitVec.ofInt 64 v).toNat = _
      rw [BitVec.toNat_ofInt]
      omega
    rw [UInt64.le_iff_toNat_le, hv]
    omega

namespace ServerRetryThrottleMap

variable {m m' : ServerRetryThrottleMap} {name : String} {max ratio : UInt64} {a a' : Nat}

def Direct (m : ServerRetryThrottleMap) : Prop := ∀ data ∈ m.objects, data.replacement = none

theorem Direct.current (h : m.Direct) (a : Nat) : m.current a = a := by
  have hnone : m.objects[a]?.bind (·.replacement) = none := by
    cases hdata : m.objects[a]? with
    | none => rfl
    | some data => exact h data (mem_of_getElem? hdata)
  unfold ServerRetryThrottleMap.current
  cases m.objects.length with
  | zero => rfl
  | succ n => rw [follow, hnone]

theorem getDataForServer_new (h : m.map name = none) :
    m.getDataForServer name max ratio =
      some (⟨m.objects ++ [⟨max, ratio, atm max, none⟩],
        fun n => if n = name then some m.objects.length else m.map n⟩, m.objects.length) := by
  simp [getDataForServer, create, initialMilliTokens, emplace, h]

theorem getDataForServer_same (h : m.map name = some a) (hp : m.hasParameters a max ratio = true) :
    m.getDataForServer name max ratio = some (m, a) := by
  simp [getDataForServer, h, hp]

theorem getDataForServer_other (h : m.map name = some a) (ha : a < m.objects.length)
    (hp : m.hasParameters a max ratio = false)
    (hget : m.getDataForServer name max ratio = some (m', a')) :
    a' = a ∧ m'.hasParameters a max ratio = false := by
  have hdata : m.objects[a]? = some m.objects[a] := getElem?_eq_getElem ha
  simp only [getDataForServer, create, emplace, h, hp, any_some, hdata, bind_some,
    Bool.false_eq_true, if_false, bind_map, bind_eq_some_iff] at hget
  obtain ⟨tokens, -, hget⟩ := hget
  simp only [Function.comp_apply, h, map_some, some.injEq, Prod.mk.injEq] at hget
  obtain ⟨rfl, rfl⟩ := hget
  refine ⟨rfl, ?_⟩
  rw [← hp, hasParameters, hasParameters, hdata,
    getElem?_append_left (by rw [length_set]; exact ha), getElem?_set_self ha]
  rfl

theorem addTokens_eq_some_iff {delta : ServerRetryThrottleData → Int}
    {r : ServerRetryThrottleMap × UInt64} :
    m.addTokens a delta = some r ↔ ∃ data, m.objects[m.current a]? = some data ∧
      (-2 ^ 63 ≤ data.milliTokens + delta data ∧ data.milliTokens + delta data < 2 ^ 63) ∧
      let tokens := clamp (data.milliTokens + delta data) 0 (atm data.maxMilliTokens)
      r = ({ m with objects := m.objects.set (m.current a) { data with milliTokens := tokens } },
        uintptr tokens) := by
  unfold addTokens clampedAdd
  constructor
  · intro h
    obtain ⟨data, hdata, h⟩ := bind_eq_some_iff.1 h
    obtain ⟨tokens, htokens, rfl⟩ := map_eq_some_iff.1 h
    split_ifs at htokens with hfit
    obtain rfl := some.inj htokens
    exact ⟨data, hdata, hfit, rfl⟩
  · rintro ⟨data, hdata, hfit, rfl⟩
    rw [hdata, bind_some, if_pos hfit, map_some]

end ServerRetryThrottleMap

namespace ThrottleSystem

open ServerRetryThrottleMap

variable {s s' : ThrottleSystem} {c : ThrottleCall}

/-- While the parameters do not change, each name has one object, to which all its handles point. -/
structure Inv (s : ThrottleSystem) : Prop where
  entry_lt : ∀ name a, s.throttle.map name = some a → a < s.throttle.objects.length
  newest : ∀ name, s.newest name = s.throttle.map name
  handles : ∀ name a, (name, a) ∈ s.handles → s.throttle.map name = some a
  direct : s.throttle.Direct
  tokens_le : ∀ data ∈ s.throttle.objects, uintptr data.milliTokens ≤ data.maxMilliTokens

theorem Inv.init : Inv {} :=
  ⟨fun _ _ h => (nomatch h), fun _ => rfl, fun _ _ h => (nomatch h), fun _ h => (nomatch h),
    fun _ h => (nomatch h)⟩

theorem Inv.shared (h : Inv s) : Shared s := by
  refine ⟨fun name a hmem => ?_, fun name a data _ hdata => ?_⟩
  · rw [h.direct.current, h.newest, h.handles name a hmem]
  · exact h.tokens_le data (mem_of_getElem? hdata)

theorem Inv.getDataForServer {name : String} {max ratio : UInt64} (h : Inv s)
    (hk : s.Keeps (.getDataForServer name max ratio)) :
    ∃ s', s.step (.getDataForServer name max ratio) = some s' ∧ Inv s' ∧
      s.Fulfils (.getDataForServer name max ratio) := by
  cases hmap : s.throttle.map name with
  | none =>
    have hget := @getDataForServer_new s.throttle name max ratio hmap
    refine ⟨_, by rw [step, hget]; rfl, ?_, fun m a hma => ?_⟩
    · refine ⟨fun n a hn => ?_, fun n => ?_, fun n a hn => ?_, fun data hdata => ?_,
        fun data hdata => ?_⟩
      · simp only [returned, length_append, length_singleton] at hn ⊢
        split_ifs at hn with heq
        · cases hn
          omega
        · have := h.entry_lt n a hn
          omega
      · simp [returned, h.newest]
      · simp only [returned, mem_append, mem_singleton, Prod.mk.injEq] at hn ⊢
        rcases hn with hn | ⟨rfl, rfl⟩
        · have hentry := h.handles n a hn
          rw [if_neg (by rintro rfl; rw [hmap] at hentry; cases hentry), hentry]
        · rw [if_pos rfl]
      · rcases mem_append.1 hdata with hdata | hdata
        · exact h.direct data hdata
        · rw [mem_singleton.1 hdata]
      · rcases mem_append.1 hdata with hdata | hdata
        · exact h.tokens_le data hdata
        · rw [mem_singleton.1 hdata, uintptr_atm]
          exact UInt64.le_refl max
    · obtain ⟨rfl, rfl⟩ := Prod.mk.inj (some.inj (hget.symm.trans hma))
      have hparams : hasParameters ⟨s.throttle.objects ++ [⟨max, ratio, atm max, none⟩],
          fun n => if n = name then some s.throttle.objects.length else s.throttle.map n⟩
          s.throttle.objects.length max ratio = true := by
        simp [hasParameters]
      exact ⟨hparams, getDataForServer_same (if_pos rfl) hparams⟩
  | some a =>
    have hget := getDataForServer_same hmap (hk a hmap)
    refine ⟨_, by rw [step, hget]; rfl, ?_, fun m a' hma => ?_⟩
    · refine ⟨h.entry_lt, fun n => ?_, fun n b hn => ?_, h.direct, h.tokens_le⟩
      · simp [returned, h.newest]
      · simp only [returned, mem_append, mem_singleton, Prod.mk.injEq] at hn ⊢
        rcases hn with hn | ⟨rfl, rfl⟩
        · exact h.handles n b hn
        · exact hmap
    · obtain ⟨rfl, rfl⟩ := Prod.mk.inj (some.inj (hget.symm.trans hma))
      exact ⟨hk a hmap, hget⟩

variable {delta : ServerRetryThrottleData → Int} {r : ServerRetryThrottleMap × UInt64} {i : Nat}

theorem Inv.addTokens {a : Nat} (h : Inv s) (hr : s.throttle.addTokens a delta = some r) :
    Inv { s with throttle := r.1 } := by
  obtain ⟨data, hdata, -, rfl⟩ := addTokens_eq_some_iff.1 hr
  have hmem := mem_of_getElem? hdata
  refine ⟨fun n b hn => ?_, h.newest, h.handles, fun x hx => ?_, fun x hx => ?_⟩
  · rw [length_set]
    exact h.entry_lt n b hn
  · rcases mem_or_eq_of_mem_set hx with hx | rfl
    · exact h.direct x hx
    · exact h.direct data hmem
  · rcases mem_or_eq_of_mem_set hx with hx | rfl
    · exact h.tokens_le x hx
    · exact uintptr_clamp_le _ _

theorem Inv.exists_addTokens (h : Inv s) (hi : i < s.handles.length) (hfit : s.NoOverflow i delta) :
    ∃ x r, s.handles[i]? = some x ∧ s.throttle.addTokens x.2 delta = some r := by
  have hx : s.handles[i]? = some s.handles[i] := getElem?_eq_getElem hi
  obtain ⟨data, hdata⟩ : ∃ data, s.throttle.objects[s.throttle.current s.handles[i].2]? =
      some data := by
    rw [h.direct.current]
    exact ⟨_, getElem?_eq_getElem (h.entry_lt _ _ (h.handles _ _ (getElem_mem hi)))⟩
  exact ⟨_, _, hx, addTokens_eq_some_iff.2 ⟨data, hdata, hfit _ _ hx hdata, rfl⟩⟩

theorem noOverflow_of_addTokens {x : String × Nat} (hx : s.handles[i]? = some x)
    (hr : s.throttle.addTokens x.2 delta = some r) : s.NoOverflow i delta := by
  obtain ⟨data, hdata, hfit, -⟩ := addTokens_eq_some_iff.1 hr
  intro y data' hy hdata'
  obtain rfl := some.inj (hx.symm.trans hy)
  obtain rfl := some.inj (hdata.symm.trans hdata')
  exact hfit

theorem Inv.exists_step (h : Inv s) (ha : s.Allowed c) (hk : s.Keeps c) :
    ∃ s', s.step c = some s' ∧ Inv s' ∧ s.Fulfils c := by
  cases c with
  | getDataForServer name max ratio => exact h.getDataForServer hk
  | recordFailure i =>
    obtain ⟨x, r, hx, hr⟩ := h.exists_addTokens ha hk
    exact ⟨_, by rw [step, hx, bind_some, recordFailure, hr]; rfl, h.addTokens hr, trivial⟩
  | recordSuccess i =>
    obtain ⟨x, r, hx, hr⟩ := h.exists_addTokens ha hk
    exact ⟨_, by rw [step, hx, bind_some, recordSuccess, hr]; rfl, h.addTokens hr, trivial⟩

theorem Inv.keeps (h : Inv s) (hf : s.Fulfils c) (hs : s.step c = some s') : s.Keeps c := by
  cases c with
  | getDataForServer name max ratio =>
    intro a hmap
    by_contra hp
    obtain ⟨⟨m, a'⟩, hget, -⟩ := map_eq_some_iff.1 hs
    obtain ⟨rfl, hp'⟩ := getDataForServer_other hmap (h.entry_lt name a hmap)
      (Bool.eq_false_iff.2 hp) hget
    exact Bool.false_ne_true (hp'.symm.trans (hf m a' hget).1)
  | recordFailure i =>
    obtain ⟨x, hx, hs⟩ := bind_eq_some_iff.1 hs
    obtain ⟨r, hr, -⟩ := map_eq_some_iff.1 hs
    obtain ⟨r', hr', -⟩ := map_eq_some_iff.1 hr
    exact noOverflow_of_addTokens hx hr'
  | recordSuccess i =>
    obtain ⟨x, hx, hs⟩ := bind_eq_some_iff.1 hs
    obtain ⟨m, hm, -⟩ := map_eq_some_iff.1 hs
    obtain ⟨r, hr, -⟩ := map_eq_some_iff.1 hm
    exact noOverflow_of_addTokens hx hr

theorem Inv.step (h : Inv s) (ha : s.Allowed c) (hk : s.Keeps c) (hs : s.step c = some s') :
    Inv s' := by
  obtain ⟨s₁, h₁, hinv, -⟩ := h.exists_step ha hk
  obtain rfl := some.inj (h₁.symm.trans hs)
  exact hinv

/-! ## Whole histories -/

/-- In a history every call returns, `GetDataForServer` keeps its promises, and all handles of a
name share one counter within its limits, exactly when every name is asked for with the parameters
of its object and no addition overflows. -/
theorem throttle_run_iff_keeps (calls : List ThrottleCall)
    (h : Run.Along ThrottleSystem.step Allowed {} calls) :
    ((∃ s, Run.run ThrottleSystem.step {} calls = some s) ∧
      Run.Along ThrottleSystem.step Fulfils {} calls ∧
      ∀ pre s, pre <+: calls → Run.run ThrottleSystem.step {} pre = some s → Shared s) ↔
    Run.Along ThrottleSystem.step Keeps {} calls := by
  have hstep (s : ThrottleSystem) (c : ThrottleCall) (s' : ThrottleSystem) (hs : Inv s)
      (hG : s.Allowed c ∧ s.Keeps c) (h : s.step c = some s') : Inv s' := hs.step hG.1 hG.2 h
  constructor
  · rintro ⟨⟨s, hrun⟩, hfulfils, -⟩
    have hkeeps := (h.and hfulfils).of_run (G := fun s c => s.Allowed c ∧ s.Keeps c) hrun
      (fun s c s' hs hF hc => ⟨hF.1, hs.keeps hF.2 hc⟩) hstep Inv.init
    exact fun pre c post s' hcalls hpre => (hkeeps pre c post s' hcalls hpre).2
  · intro hk
    have hboth := h.and hk
    obtain ⟨s, hrun, -⟩ := hboth.exists_run (fun s c hs hG =>
      (hs.exists_step hG.1 hG.2).imp fun _ h => ⟨h.1, h.2.1⟩) Inv.init
    refine ⟨⟨s, hrun⟩, fun pre c post s' hcalls hpre => ?_, fun pre s' hpre hrun' => ?_⟩
    · have hinv := Run.run_invariant (hboth.mono (hcalls ▸ prefix_append _ _)) hpre hstep Inv.init
      obtain ⟨ha, hkc⟩ := hboth pre c post s' hcalls hpre
      obtain ⟨-, -, -, hf⟩ := hinv.exists_step ha hkc
      exact hf
    · exact (Run.run_invariant (hboth.mono hpre) hrun' hstep Inv.init).shared

/-- Two channels to one server with the same parameters. -/
theorem throttle_run_iff_keeps_two_channels :
    Run.Along ThrottleSystem.step Fulfils {}
      [.getDataForServer "s" 4000 1000, .recordFailure 0, .getDataForServer "s" 4000 1000,
        .recordSuccess 1] :=
  ((throttle_run_iff_keeps _ (by decide +kernel)).2 (by decide +kernel)).2.1

/-- One channel has asked for its object. -/
def oneChannel : ThrottleSystem where
  throttle := ⟨[⟨4000, 1000, 4000, none⟩], fun n => if n = "s" then some 0 else none⟩
  handles := [("s", 0)]
  newest n := if n = "s" then some 0 else none

/-- A second channel with other parameters gets the object with the first ones, whose replacement,
made by the call, has the parameters that were asked for. -/
theorem getDataForServer_keeps_first_entry :
    Run.Along ThrottleSystem.step Allowed {}
      [.getDataForServer "s" 4000 1000, .getDataForServer "s" 10000 3000] ∧
    ¬ Run.Along ThrottleSystem.step Fulfils {}
      [.getDataForServer "s" 4000 1000, .getDataForServer "s" 10000 3000] ∧
    (Run.run ThrottleSystem.step {}
      [.getDataForServer "s" 4000 1000, .getDataForServer "s" 10000 3000]).map
        (fun s => (s.handles, s.throttle.objects)) =
      some ([("s", 0), ("s", 0)], [⟨4000, 1000, 4000, some 1⟩, ⟨10000, 3000, 10000, none⟩]) := by
  refine ⟨by decide +kernel, fun h => ?_, by decide +kernel⟩
  have h₁ : ThrottleSystem.step {} (.getDataForServer "s" 4000 1000) = some oneChannel := rfl
  have hinv : Inv oneChannel := Inv.init.step (by decide +kernel) (by decide +kernel) h₁
  have hs : (oneChannel.step (.getDataForServer "s" 10000 3000)).isSome := by decide +kernel
  have hfulfils := h [.getDataForServer "s" 4000 1000] _ [] oneChannel rfl
    (by rw [Run.run_cons, h₁]; rfl)
  exact absurd (hinv.keeps hfulfils (some_get hs).symm) (by decide +kernel)

end ThrottleSystem

end GrpcCore
