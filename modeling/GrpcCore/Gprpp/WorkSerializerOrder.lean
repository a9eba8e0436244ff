import GrpcCore.Gprpp.WorkSerializer

/-!
# The order of the callbacks of one thread

The header of `WorkSerializer` promises first in first out for the callbacks of a thread. The queue
keeps this order, but `Run` executes its callback at once when nobody owns the serializer, and
callbacks that the same thread left in the queue with `Schedule` are still there.
`Handing.run_inOrder_iff` says that this is the only way to lose the order: there is no condition on
the counters or on `Orphan`.

Calls are numbered in the order in which they begin, so the calls of one thread are numbered in the
order in which it makes them. A call made from inside a callback is not recorded.
-/

namespace GrpcCore.WorkSerializer

open List Option

variable {s s' : WorkSerializer} {thread call t : Nat} {o : Owner} {a : Action}

/-! ## Every call stays accounted for -/

theorem Accounts.advance (h : Accounts s) : Accounts (s.advance o) := by
  unfold WorkSerializer.advance WorkSerializer.fetchSub WorkSerializer.compareExchange
  -- only a pop that finds a callback moves one
  split
  case h_4 => exact h.pop o
  all_goals repeat' split
  all_goals exact h.keep rfl (.refl _) rfl rfl

theorem Accounts.of_step (h : Accounts s) (hstep : s.step a = some s') : Accounts s' := by
  cases a with
  | run thread =>
    obtain ⟨-, rfl⟩ := ite_some_none_eq_some.1 hstep
    exact h.run thread
  | schedule thread =>
    obtain ⟨-, rfl⟩ := ite_some_none_eq_some.1 hstep
    exact h.schedule thread
  | drainQueue thread =>
    obtain ⟨-, rfl⟩ := ite_some_none_eq_some.1 hstep
    exact h.drainQueue thread
  | orphan thread =>
    obtain ⟨-, rfl⟩ := ite_some_none_eq_some.1 hstep
    exact h.keep rfl (.refl _) rfl rfl
  | release thread call =>
    obtain ⟨hmem, rfl⟩ := ite_some_none_eq_some.1 hstep
    exact h.keep rfl (perm_pending_release hmem) rfl rfl
  | push thread call =>
    obtain ⟨hmem, rfl⟩ := ite_some_none_eq_some.1 hstep
    exact h.keep rfl (perm_pending_push hmem) rfl rfl
  | advance thread =>
    obtain ⟨-, hstep⟩ := ite_none_left_eq_some.1 hstep
    obtain ⟨o, -, rfl⟩ := map_eq_some_iff.1 hstep
    exact h.advance

theorem Accounts.lt_of_mem (h : Accounts s) (hmem : call ∈ s.pending ∨ call ∈ s.executed) :
    call < s.calls.length := by
  rw [← mem_range, ← h.perm.mem_iff, mem_append, mem_append]
  exact hmem.imp_right .inl

theorem Accounts.not_mem_executed (h : Accounts s) (hmem : call ∈ s.pending) :
    call ∉ s.executed := by
  have hnodup := h.perm.nodup_iff.2 nodup_range
  intro hexecuted
  exact (nodup_append.1 hnodup).2.2 call hmem call (mem_append_left _ hexecuted) rfl

/-! ## The callbacks of a thread -/

/-- The callback that the thread is about to push. -/
def way (s : WorkSerializer) (t : Nat) : List Nat :=
  ((s.pushing ++ s.releasing).filter (·.1 = t)).map Prod.snd

/-- The callbacks that have begun, those in the queue and the one that the thread is about to push.
-/
def line (s : WorkSerializer) (t : Nat) : List Nat := s.executed ++ (s.queue ++ s.way t)

theorem mem_way : call ∈ s.way t ↔ (t, call) ∈ s.pushing ++ s.releasing := by
  simp [way]

theorem way_eq_nil (h : ¬ s.Busy t) : s.way t = [] := by
  rw [way, map_eq_nil_iff, filter_eq_nil_iff]
  intro e he heq
  refine h ((mem_append.1 he).symm.imp ?_ ?_)
  all_goals exact fun hmem => mem_map.2 ⟨e, hmem, by simpa using heq⟩

theorem mem_pending_of_mem_way (h : call ∈ s.way t) : call ∈ s.pending := by
  rw [mem_way, mem_append] at h
  rw [pending, mem_append, mem_append]
  refine .inl (h.symm.imp ?_ ?_)
  all_goals exact fun hmem => mem_map.2 ⟨_, hmem, rfl⟩

theorem Accounts.lt_of_mem_line (h : Accounts s) (hmem : call ∈ s.line t) :
    call < s.calls.length := by
  rw [line, mem_append, mem_append] at hmem
  rcases hmem with hmem | hmem | hmem
  · exact h.lt_of_mem (.inr hmem)
  · exact h.lt_of_mem (.inl (mem_append_right _ hmem))
  · exact h.lt_of_mem (.inl (mem_pending_of_mem_way hmem))

/-! ## The calls that are handed over -/

/-- The serializer, and the calls of `Run` and `Schedule` that a thread made while it was in no
method, each with the thread. -/
structure Handing where
  base : WorkSerializer := {}
  handed : List (Nat × Nat) := []

namespace Handing

def hands (s : WorkSerializer) : Action → List (Nat × Nat)
  | .run thread | .schedule thread =>
    if s.ownerOf thread = none then [(thread, s.calls.length)] else []
  | _ => []

def step (x : Handing) (a : Action) : Option Handing :=
  (x.base.step a).map fun s => ⟨s, x.handed ++ hands x.base a⟩

/-- The callbacks that the thread has handed over, in order. -/
def handedBy (x : Handing) (t : Nat) : List Nat := (x.handed.filter (·.1 = t)).map Prod.snd

/-- The callbacks of each thread begin in the order in which it handed them over. -/
def InOrder (x : Handing) : Prop :=
  ∀ t, x.base.executed.filter (· ∈ x.handedBy t) <+: x.handedBy t

/-- `Run` executes its callback at once while a callback that the thread handed over is pending. -/
def Overtakes (x : Handing) : Action → Prop
  | .run thread => (x.base.Free thread ∧ x.base.orphaned = false) ∧ x.base.ownerOf thread = none ∧
      getOwners x.base.refs = 0 ∧ ∃ c ∈ x.handedBy thread, c ∈ x.base.pending
  | _ => False

variable {x : Handing} {n : Nat} {kind : CallKind}

theorem mem_handedBy : call ∈ x.handedBy t ↔ (t, call) ∈ x.handed := by
  simp [handedBy]

/-- Whether the callback is one that the thread handed over. -/
def mine (x : Handing) (t c : Nat) : Bool := c ∈ x.handedBy t

/-- The callbacks of a thread are, in the order in which it handed them over, those that have begun,
those in the queue and the one it is about to push. -/
structure Ordered (x : Handing) : Prop where
  accounts : Accounts x.base
  known : ∀ e ∈ x.handed, e.2 < x.base.calls.length
  own : ∀ e ∈ x.base.pushing ++ x.base.releasing, ∀ t, (t, e.2) ∈ x.handed → e.1 = t
  one : ∀ t, (x.base.way t).length ≤ 1
  order : ∀ t, x.handedBy t = (x.base.line t).filter (x.mine t)

theorem Ordered.inOrder (h : Ordered x) : x.InOrder := by
  intro t
  change x.base.executed.filter (x.mine t) <+: x.handedBy t
  rw [h.order t, line, filter_append]
  exact prefix_append _ _

theorem handedBy_hand_self (s : WorkSerializer) (x : Handing) (thread : Nat) :
    (⟨s, x.handed ++ [(thread, n)]⟩ : Handing).handedBy thread = x.handedBy thread ++ [n] := by
  simp [handedBy, filter_append]

theorem handedBy_hand_of_ne (s : WorkSerializer) (x : Handing) (hne : thread ≠ t) :
    (⟨s, x.handed ++ [(thread, n)]⟩ : Handing).handedBy t = x.handedBy t := by
  simp [handedBy, filter_append, hne]

theorem Ordered.not_inOrder_of_overtakes (h : Ordered x) (ha : x.Overtakes a) :
    ∃ x', x.step a = some x' ∧ ¬ x'.InOrder := by
  obtain ⟨thread, rfl⟩ : ∃ thread, a = .run thread := by
    cases a with
    | run thread => exact ⟨thread, rfl⟩
    | _ => cases ha
  obtain ⟨henabled, hnone, hzero, c, hc, hpending⟩ := ha
  refine ⟨⟨x.base.run thread, x.handed ++ [(thread, x.base.calls.length)]⟩, ?_, fun hin => ?_⟩
  · rw [step, WorkSerializer.step, if_pos henabled, hands, if_pos hnone]
    rfl
  have hbegins := hin thread
  have hexecuted : (x.base.run thread).executed = x.base.executed ++ [x.base.calls.length] := by
    rw [WorkSerializer.run, if_pos hzero]
  rw [handedBy_hand_self, prefix_concat_iff] at hbegins
  have hnew : x.base.calls.length ∈
      (x.base.run thread).executed.filter (· ∈ x.handedBy thread ++ [x.base.calls.length]) := by
    simp [hexecuted]
  rcases hbegins with heq | hbegins
  · -- all callbacks of the thread would have begun
    have hbegun : c ∈ (x.base.run thread).executed :=
      mem_of_mem_filter (heq ▸ mem_append_left _ hc)
    rw [hexecuted, mem_append, mem_singleton] at hbegun
    rcases hbegun with hbegun | rfl
    · exact h.accounts.not_mem_executed hpending hbegun
    · exact Nat.lt_irrefl _ (h.accounts.lt_of_mem (.inl hpending))
  · -- the new callback would be an old one
    exact Nat.lt_irrefl _ (h.known _ (mem_handedBy.1 (hbegins.subset hnew)))

/-! ## Steps keep the order -/

/-- A step that hands over nothing, and puts at most callbacks of other threads into the line of a
thread. -/
theorem Ordered.keep (h : Ordered x) (haccounts : Accounts s')
    (hcalls : x.base.calls.length ≤ s'.calls.length)
    (hown : ∀ e ∈ s'.pushing ++ s'.releasing, ∀ t, (t, e.2) ∈ x.handed → e.1 = t)
    (hone : ∀ t, (s'.way t).length ≤ 1)
    (hline : ∀ t, (s'.line t).filter (x.mine t) = (x.base.line t).filter (x.mine t)) :
    Ordered ⟨s', x.handed⟩ where
  accounts := haccounts
  known e he := Nat.lt_of_lt_of_le (h.known e he) hcalls
  own := hown
  one := hone
  order t := (h.order t).trans (hline t).symm

theorem Ordered.same (h : Ordered x) (haccounts : Accounts s')
    (hcalls : x.base.calls.length ≤ s'.calls.length)
    (hline : s'.executed ++ s'.queue = x.base.executed ++ x.base.queue)
    (hpushing : s'.pushing = x.base.pushing) (hreleasing : s'.releasing = x.base.releasing) :
    Ordered ⟨s', x.handed⟩ := by
  have hway (t : Nat) : s'.way t = x.base.way t := by
    rw [way, way, hpushing, hreleasing]
  refine h.keep haccounts hcalls (by rw [hpushing, hreleasing]; exact h.own)
    (fun t => hway t ▸ h.one t) fun t => ?_
  rw [line, line, ← append_assoc, ← append_assoc, hline, hway]

/-- A step that hands over a callback, at a place of the thread's line with no callback of the
thread behind it. -/
theorem Ordered.hand (h : Ordered x) (haccounts : Accounts s') (hfresh : n = x.base.calls.length)
    (hcalls : s'.calls = x.base.calls ++ [kind])
    (hown : ∀ e ∈ s'.pushing ++ s'.releasing,
      e ∈ x.base.pushing ++ x.base.releasing ∨ e = (thread, n))
    (hone : ∀ t, (s'.way t).length ≤ 1)
    (hline : ∃ front back, s'.line thread = front ++ n :: back ∧
      x.base.line thread = front ++ back ∧
      ∀ c ∈ back, c ∉ x.handedBy thread)
    (hothers : ∀ t, t ≠ thread → (s'.line t).filter (x.mine t) =
      (x.base.line t).filter (x.mine t)) :
    Ordered ⟨s', x.handed ++ [(thread, n)]⟩ where
  accounts := haccounts
  known e he := by
    rw [hcalls, length_append, length_singleton]
    rcases mem_append.1 he with he | he
    · exact Nat.lt_succ_of_lt (h.known e he)
    · rw [mem_singleton.1 he, hfresh]
      exact Nat.lt_succ_self _
  own e he t ht := by
    rcases mem_append.1 ht with ht | ht
    · rcases hown e he with hold | rfl
      · exact h.own e hold t ht
      · exact absurd (h.known _ ht) (by rw [hfresh]; exact Nat.lt_irrefl _)
    · obtain ⟨rfl, hn⟩ := Prod.mk.inj (mem_singleton.1 ht)
      rcases hown e he with hold | rfl
      · have hway : e.2 ∈ x.base.way e.1 := mem_way.2 hold
        have hlt := h.accounts.lt_of_mem (.inl (mem_pending_of_mem_way hway))
        omega
      · rfl
  one := hone
  order t := by
    by_cases ht : t = thread
    · subst ht
      obtain ⟨front, back, hline', hline, hback⟩ := hline
      have hlt : ∀ c ∈ front ++ back, c ≠ n := fun c hc hcn => by
        have := h.accounts.lt_of_mem_line (hline ▸ hc)
        omega
      have hmine : ∀ c, c ≠ n → mine ⟨s', x.handed ++ [(t, n)]⟩ t c = x.mine t c := fun c hc => by
        simp [mine, mem_handedBy, hc]
      have hbacknil : back.filter (x.mine t) = [] :=
        filter_eq_nil_iff.2 fun c hc hm => hback c hc (of_decide_eq_true hm)
      rw [handedBy_hand_self, h.order t, hline, hline', filter_append, filter_append,
        filter_cons_of_pos (by simp [mine, mem_handedBy]), hbacknil,
        filter_congr fun c hc => hmine c (hlt c (mem_append_left _ hc)),
        filter_congr (l := back) fun c hc => hmine c (hlt c (mem_append_right _ hc)), hbacknil,
        append_nil]
    · have hmine : mine ⟨s', x.handed ++ [(thread, n)]⟩ t = x.mine t := by
        funext c
        simp [mine, mem_handedBy, ht]
      rw [handedBy_hand_of_ne _ _ (Ne.symm ht), hmine, hothers t ht]
      exact h.order t

theorem Ordered.mine_fresh (h : Ordered x) (t : Nat) : x.mine t x.base.calls.length = false :=
  decide_eq_false fun hmem => Nat.lt_irrefl _ (h.known _ (mem_handedBy.1 hmem))

theorem line_join {front back : List (Nat × Nat)} (hbusy : ¬ s.Busy thread)
    (hexecuted : s'.executed = s.executed) (hqueue : s'.queue = s.queue)
    (hway : s.pushing ++ s.releasing = front ++ back)
    (hway' : s'.pushing ++ s'.releasing = front ++ (thread, n) :: back) :
    s'.way thread = [n] ∧ s'.line thread = s.line thread ++ [n] ∧
      ∀ t, t ≠ thread → s'.way t = s.way t ∧ s'.line t = s.line t := by
  have hnil := way_eq_nil hbusy
  have hself : s'.way thread = [n] := by
    rw [way, hway, filter_append, map_append, append_eq_nil_iff] at hnil
    rw [way, hway', filter_append, filter_cons_of_pos (by simp), map_append, hnil.1,
      map_cons, hnil.2, nil_append]
  refine ⟨hself, ?_, fun t ht => ?_⟩
  · rw [line, line, hexecuted, hqueue, hself, way_eq_nil hbusy, append_nil, append_assoc]
  · have hother : s'.way t = s.way t := by
      rw [way, way, hway, hway', filter_append, filter_append,
        filter_cons_of_neg (by simpa using Ne.symm ht)]
    exact ⟨hother, by rw [line, line, hexecuted, hqueue, hother]⟩

theorem Ordered.join (h : Ordered x) (front back : List (Nat × Nat)) (haccounts : Accounts s')
    (hcalls : s'.calls = x.base.calls ++ [kind]) (hbusy : ¬ x.base.Busy thread)
    (hexecuted : s'.executed = x.base.executed) (hqueue : s'.queue = x.base.queue)
    (hway : x.base.pushing ++ x.base.releasing = front ++ back)
    (hway' : s'.pushing ++ s'.releasing = front ++ (thread, x.base.calls.length) :: back) :
    Ordered ⟨s', x.handed⟩ ∧ Ordered ⟨s', x.handed ++ [(thread, x.base.calls.length)]⟩ := by
  obtain ⟨hself, hline, hothers⟩ := line_join hbusy hexecuted hqueue hway hway'
  have hone (t : Nat) : (s'.way t).length ≤ 1 := by
    by_cases ht : t = thread
    · rw [ht, hself]
      exact Nat.le_refl _
    · rw [(hothers t ht).1]
      exact h.one t
  have hmem : ∀ e ∈ s'.pushing ++ s'.releasing,
      e ∈ x.base.pushing ++ x.base.releasing ∨ e = (thread, x.base.calls.length) := by
    intro e he
    rw [hway', mem_append, mem_cons] at he
    rw [hway, mem_append]
    tauto
  constructor
  · refine h.keep haccounts (by rw [hcalls]; simp) (fun e he t ht => ?_) hone fun t => ?_
    · rcases hmem e he with hold | rfl
      · exact h.own e hold t ht
      · exact absurd (h.known _ ht) (Nat.lt_irrefl _)
    · by_cases ht : t = thread
      · rw [ht, hline, filter_append, filter_cons_of_neg (by simp [h.mine_fresh])]
        simp
      · rw [(hothers t ht).2]
  · refine h.hand haccounts rfl hcalls hmem hone ⟨_, [], hline, (append_nil _).symm, nofun⟩ ?_
    intro t ht
    rw [(hothers t ht).2]

theorem run_of_no_owner (hzero : getOwners s.refs = 0) (thread : Nat) :
    (s.run thread).calls = s.calls ++ [.run] ∧
      (s.run thread).executed = s.executed ++ [s.calls.length] ∧ (s.run thread).queue = s.queue ∧
      (s.run thread).pushing = s.pushing ∧ (s.run thread).releasing = s.releasing := by
  simp only [WorkSerializer.run, if_pos hzero, and_self]

/-- `Run` with no owner: the callback begins before those that are pending. -/
theorem Ordered.begin (h : Ordered x) (hzero : getOwners x.base.refs = 0) (thread : Nat) :
    Ordered ⟨x.base.run thread, x.handed⟩ ∧
      ((∀ c ∈ x.handedBy thread, c ∉ x.base.pending) →
        Ordered ⟨x.base.run thread, x.handed ++ [(thread, x.base.calls.length)]⟩) := by
  have haccounts := h.accounts.run thread
  obtain ⟨hcalls, hexecuted, hqueue, hpushing, hreleasing⟩ := run_of_no_owner hzero thread
  set s' := x.base.run thread
  have hway (t : Nat) : s'.way t = x.base.way t := by
    rw [way, way, hpushing, hreleasing]
  have hline (t : Nat) :
      s'.line t = x.base.executed ++ x.base.calls.length :: (x.base.queue ++ x.base.way t) := by
    rw [line, hexecuted, hqueue, hway, append_assoc, singleton_append]
  have hfilter (t : Nat) : (s'.line t).filter (x.mine t) = (x.base.line t).filter (x.mine t) := by
    rw [hline, line, filter_append, filter_cons_of_neg (by simp [h.mine_fresh]),
      ← filter_append]
  have hlists : s'.pushing ++ s'.releasing = x.base.pushing ++ x.base.releasing := by
    rw [hpushing, hreleasing]
  have hone (t : Nat) : (s'.way t).length ≤ 1 := hway t ▸ h.one t
  constructor
  · exact h.keep haccounts (by rw [hcalls]; simp) (hlists ▸ h.own) hone hfilter
  · intro hnone
    refine h.hand haccounts rfl hcalls (fun e he => .inl (hlists ▸ he)) hone
      ⟨_, _, hline thread, rfl, fun c hc hmine => hnone c hmine ?_⟩ fun t _ => hfilter t
    rcases mem_append.1 hc with hc | hc
    · exact mem_append_right _ hc
    · exact mem_pending_of_mem_way hc

theorem eq_of_perm_of_length_le_one {l l' : List Nat} (h : l.Perm l') (hlength : l'.length ≤ 1) :
    l = l' := by
  match l' with
  | [] => exact h.eq_nil
  | [_] => exact perm_singleton.1 h
  | _ :: _ :: _ => simp at hlength

theorem Ordered.release (h : Ordered x) (hmem : (thread, call) ∈ x.base.releasing) :
    Ordered ⟨x.base.release thread call, x.handed⟩ := by
  set s' := x.base.release thread call
  have hperm : (s'.pushing ++ s'.releasing).Perm (x.base.pushing ++ x.base.releasing) :=
    .trans perm_middle.symm ((perm_cons_erase hmem).symm.append_left _)
  have hway (t : Nat) : s'.way t = x.base.way t :=
    eq_of_perm_of_length_le_one ((hperm.filter _).map _) (h.one t)
  refine h.keep (h.accounts.keep rfl (perm_pending_release hmem) rfl rfl) (Nat.le_refl _)
    (fun e he => h.own e (hperm.mem_iff.1 he)) (fun t => by rw [hway]; exact h.one t) fun t => ?_
  rw [line, hway]
  rfl

/-- A push moves the one callback that the thread is about to push to the end of the queue. -/
theorem Ordered.push (h : Ordered x) (hmem : (thread, call) ∈ x.base.pushing) :
    Ordered ⟨x.base.push thread call, x.handed⟩ := by
  set s' := x.base.push thread call
  have hsub : ∀ e ∈ s'.pushing ++ s'.releasing, e ∈ x.base.pushing ++ x.base.releasing :=
    fun e he =>
    mem_append.2 ((mem_append.1 he).imp_left mem_of_mem_erase)
  have hperm : ((thread, call) :: (s'.pushing ++ s'.releasing)).Perm
      (x.base.pushing ++ x.base.releasing) := ((perm_cons_erase hmem).append_right _).symm
  have hself : call :: s'.way thread = x.base.way thread := by
    refine eq_of_perm_of_length_le_one ?_ (h.one thread)
    have hfilter := (hperm.filter (·.1 = thread)).map Prod.snd
    rwa [filter_cons_of_pos (by simp)] at hfilter
  have hother (t : Nat) (ht : t ≠ thread) : s'.way t = x.base.way t := by
    refine eq_of_perm_of_length_le_one ?_ (h.one t)
    have hfilter := (hperm.filter (·.1 = t)).map Prod.snd
    rwa [filter_cons_of_neg (by simpa using ht.symm)] at hfilter
  refine h.keep (h.accounts.keep rfl (perm_pending_push hmem) rfl rfl) (Nat.le_refl _)
    (fun e he => h.own e (hsub e he)) (fun t => ?_) fun t => ?_
  · by_cases ht : t = thread
    · have hone := h.one thread
      rw [← hself, length_cons] at hone
      rw [ht]
      omega
    · rw [hother t ht]
      exact h.one t
  · have hqueue : s'.queue = x.base.queue ++ [call] := rfl
    by_cases ht : t = thread
    · rw [ht, line, line, hqueue, ← hself, append_assoc]
      rfl
    · -- the callback is not one that `t` handed over
      have hnot : x.mine t call = false := decide_eq_false fun hmine =>
        ht (h.own _ (mem_append_left _ hmem) t (mem_handedBy.1 hmine)).symm
      rw [line, line, hqueue, hother t ht, append_assoc, singleton_append,
        ← append_assoc, filter_append, filter_cons_of_neg (by simp [hnot]),
        ← filter_append, append_assoc]
      rfl

theorem advance_frame (s : WorkSerializer) (o : Owner) :
    (s.advance o).calls = s.calls ∧ (s.advance o).pushing = s.pushing ∧
      (s.advance o).releasing = s.releasing ∧
      (s.advance o).executed ++ (s.advance o).queue = s.executed ++ s.queue := by
  unfold WorkSerializer.advance WorkSerializer.fetchSub WorkSerializer.compareExchange
  split
  case h_4 =>
    unfold WorkSerializer.pop
    split
    · simp
    · next hqueue => simp [hqueue]
  all_goals repeat' split
  all_goals simp

theorem Ordered.advance (h : Ordered x) : Ordered ⟨x.base.advance o, x.handed⟩ := by
  obtain ⟨hcalls, hpushing, hreleasing, hline⟩ := advance_frame x.base o
  exact h.same h.accounts.advance (by rw [hcalls]) hline hpushing hreleasing

/-! ## Runs -/

theorem Ordered.recorded (h : Ordered ⟨s', x.handed⟩)
    (hrecord : x.base.ownerOf thread = none → Ordered ⟨s', x.handed ++ [(thread, n)]⟩) :
    Ordered ⟨s', x.handed ++ if x.base.ownerOf thread = none then [(thread, n)] else []⟩ := by
  split
  · next hnone => exact hrecord hnone
  · rwa [append_nil]

theorem Ordered.run (h : Ordered x) (henabled : x.base.Free thread ∧ x.base.orphaned = false)
    (ha : ¬ x.Overtakes (.run thread)) :
    Ordered ⟨x.base.run thread, x.handed ++ hands x.base (.run thread)⟩ := by
  have haccounts := h.accounts.run thread
  by_cases hzero : getOwners x.base.refs = 0
  · obtain ⟨hkeep, hhand⟩ := h.begin hzero thread
    refine hkeep.recorded fun hnone => hhand fun c hc hpending => ?_
    exact ha ⟨henabled, hnone, hzero, c, hc, hpending⟩
  · rw [WorkSerializer.run, if_neg hzero] at haccounts ⊢
    obtain ⟨hkeep, hhand⟩ := h.join _ _ haccounts rfl henabled.1.1 rfl rfl rfl rfl
    exact hkeep.recorded fun _ => hhand

theorem drainQueue_of_no_owner (hzero : getOwners s.refs = 0) (thread : Nat) :
    (s.drainQueue thread).calls = s.calls ++ [.drainQueue] ∧
      (s.drainQueue thread).executed ++ (s.drainQueue thread).queue = s.executed ++ s.queue ∧
      (s.drainQueue thread).pushing = s.pushing ∧
        (s.drainQueue thread).releasing = s.releasing := by
  simp only [WorkSerializer.drainQueue, if_pos hzero, and_self]

theorem Ordered.drainQueue (h : Ordered x) (hfree : x.base.Free thread) :
    Ordered ⟨x.base.drainQueue thread, x.handed⟩ := by
  have haccounts := h.accounts.drainQueue thread
  by_cases hzero : getOwners x.base.refs = 0
  · obtain ⟨hcalls, hline, hpushing, hreleasing⟩ := drainQueue_of_no_owner hzero thread
    exact h.same haccounts (by rw [hcalls]; simp) hline hpushing hreleasing
  · rw [WorkSerializer.drainQueue, if_neg hzero] at haccounts ⊢
    exact (h.join _ _ haccounts rfl hfree.1 rfl rfl rfl rfl).1

theorem Ordered.of_step {x' : Handing} (h : Ordered x) (ha : ¬ x.Overtakes a)
    (hstep : x.step a = some x') : Ordered x' := by
  obtain ⟨s', hs', rfl⟩ := map_eq_some_iff.1 hstep
  have haccounts := h.accounts.of_step hs'
  cases a with
  | run thread =>
    obtain ⟨henabled, rfl⟩ := ite_some_none_eq_some.1 hs'
    exact h.run henabled ha
  | schedule thread =>
    obtain ⟨henabled, rfl⟩ := ite_some_none_eq_some.1 hs'
    obtain ⟨hkeep, hhand⟩ := h.join [] _ haccounts rfl henabled.1.1 rfl rfl rfl rfl
    exact hkeep.recorded fun _ => hhand
  | drainQueue thread =>
    obtain ⟨henabled, rfl⟩ := ite_some_none_eq_some.1 hs'
    simpa [hands] using h.drainQueue henabled.1
  | orphan thread =>
    obtain ⟨-, rfl⟩ := ite_some_none_eq_some.1 hs'
    simpa [hands] using h.same haccounts (Nat.le_refl _) rfl rfl rfl
  | release thread call =>
    obtain ⟨hmem, rfl⟩ := ite_some_none_eq_some.1 hs'
    simpa [hands] using h.release hmem
  | push thread call =>
    obtain ⟨hmem, rfl⟩ := ite_some_none_eq_some.1 hs'
    simpa [hands] using h.push hmem
  | advance thread =>
    obtain ⟨-, hstep⟩ := ite_none_left_eq_some.1 hs'
    obtain ⟨o, -, rfl⟩ := map_eq_some_iff.1 hstep
    simpa [hands] using h.advance

theorem ordered_init : Ordered {} where
  accounts := ⟨.refl _, nofun⟩
  known := nofun
  own := nofun
  one _ := Nat.zero_le _
  order _ := rfl

/-- The callbacks of every thread begin in the order in which it handed them over, in every state of
a run, exactly when no `Run` overtakes a callback of its own thread. -/
theorem run_inOrder_iff (actions : List Action) :
    (∀ pre x, pre <+: actions → Run.run step {} pre = some x → x.InOrder) ↔
      Run.Along step (fun x a => ¬ x.Overtakes a) {} actions := by
  have hstep (x : Handing) (a : Action) (x' : Handing) (h : Ordered x) (ha : ¬ x.Overtakes a)
      (hx' : x.step a = some x') : Ordered x' := h.of_step ha hx'
  constructor
  · intro h
    refine Run.along_of_property h hstep (fun x a hx ha => ?_) ordered_init
    exact hx.not_inOrder_of_overtakes (not_not.1 ha)
  · intro h pre x hp hrun
    exact (Run.run_invariant (h.mono hp) hrun hstep ordered_init).inOrder

/-- A thread gives a callback to `Schedule` and a second one to `Run`, and drains the queue in
`Run`: the second one is executed first. -/
theorem run_overtakes_schedule :
    ∃ x, Run.run step {} [.schedule 0, .push 0 0, .run 0, .advance 0, .advance 0, .advance 0,
        .advance 0] = some x ∧
      x.handedBy 0 = [0, 1] ∧ x.base.executed = [1, 0] ∧ ¬ x.InOrder := by
  refine ⟨_, rfl, rfl, rfl, fun h => ?_⟩
  have hbegins := h 0
  revert hbegins
  decide

end Handing

end GrpcCore.WorkSerializer
