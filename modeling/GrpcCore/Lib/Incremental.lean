import Mathlib.Data.List.Basic

/-!
# Parsing input that arrives in pieces

A reader takes a value off the front of its input, or stops because the input ended, because it is
wrong, or without a reason. It is resumable (`Resumable`) when more input changes nothing of what it
found out, the end of the input apart; readers that are put together from resumable ones are
resumable.

A machine reads elements one after the other, each from a state. When the input ends inside an
element, the machine keeps the input from the beginning of that element and reads the element again
when more has come. `Machine.Resumes` says that this reading again goes unnoticed, and
`feedAll_eq` that the way the input is cut then makes no difference, unless the machine drops what
is left of a piece. `Machine.observed` is a machine that keeps account of what its elements do.
-/

namespace Incremental

open List

universe u

/-! ## Readers -/

inductive Stop (ε : Type u) where
  | eof
  | error (e : ε)
  | rejected

abbrev Reader (β ε : Type u) := StateT (List β) (Except (Stop ε))

variable {β ε α γ : Type u}

namespace Reader

def next : Reader β ε β
  | [] => .error .eof
  | b :: input => .ok (b, input)

def take (n : Nat) : Reader β ε (List β) := fun input =>
  if input.length < n then .error .eof else .ok (input.take n, input.drop n)

def stop (s : Stop ε) : Reader β ε α := fun _ => .error s

theorem bind_apply (r : Reader β ε α) (f : α → Reader β ε γ) (input : List β) :
    (r >>= f) input = match r input with
      | .ok (a, rest) => f a rest
      | .error s => .error s := by
  show Except.bind (r input) _ = _
  cases r input <;> rfl

theorem pure_apply (a : α) (input : List β) : (pure a : Reader β ε α) input = .ok (a, input) := rfl

end Reader

/-- What the reader finds out does not depend on what comes after it. -/
structure Resumable (r : Reader β ε α) : Prop where
  ok : ∀ {input a rest} more, r input = .ok (a, rest) → r (input ++ more) = .ok (a, rest ++ more)
  stop : ∀ {input s} more, r input = .error s → s ≠ .eof → r (input ++ more) = .error s
  le : ∀ {input a rest}, r input = .ok (a, rest) → rest.length ≤ input.length

namespace Resumable

theorem pure (a : α) : Resumable (pure a : Reader β ε α) where
  ok more h := by cases h; rfl
  stop more h := by cases h
  le h := by cases h; exact Nat.le_refl _

variable {r : Reader β ε α}

theorem bind {f : α → Reader β ε γ} (hr : Resumable r)
    (hf : ∀ a, Resumable (f a)) : Resumable (r >>= f) where
  ok {input c rest} more h := by
    rw [Reader.bind_apply] at h ⊢
    split at h
    · next a rest' heq =>
      rw [hr.ok more heq]
      exact (hf a).ok more h
    · cases h
  stop {input s} more h hs := by
    rw [Reader.bind_apply] at h ⊢
    split at h
    · next a rest' heq =>
      rw [hr.ok more heq]
      exact (hf a).stop more h hs
    · next s' heq =>
      cases h
      rw [hr.stop more heq hs]
  le {input c rest} h := by
    rw [Reader.bind_apply] at h
    split at h
    · next a rest' heq => exact Nat.le_trans ((hf a).le h) (hr.le heq)
    · cases h

theorem stop' (s : Stop ε) : Resumable (Reader.stop s : Reader β ε α) where
  ok more h := by cases h
  stop more h _ := h
  le h := by cases h

theorem next : Resumable (Reader.next : Reader β ε β) where
  ok {input a rest} more h := by
    cases input with
    | nil => cases h
    | cons b input => cases h; rfl
  stop {input s} more h hs := by
    cases input with
    | nil => cases h; exact absurd rfl hs
    | cons b input => cases h
  le {input a rest} h := by
    cases input with
    | nil => cases h
    | cons b input => cases h; exact Nat.le_succ _

theorem take (n : Nat) : Resumable (Reader.take n : Reader β ε (List β)) where
  ok {input a rest} more h := by
    unfold Reader.take at h ⊢
    split at h
    · cases h
    · next hn =>
      cases h
      have hle : n ≤ input.length := Nat.not_lt.1 hn
      rw [if_neg (by rw [length_append]; omega), take_append_of_le_length hle,
        drop_append_of_le_length hle]
  stop {input s} more h hs := by
    unfold Reader.take at h
    split at h
    · cases h; exact absurd rfl hs
    · cases h
  le {input a rest} h := by
    unfold Reader.take at h
    split at h
    · cases h
    · cases h
      rw [length_drop]
      omega

theorem ite {p : Prop} [Decidable p] {r' : Reader β ε α} (h : Resumable r) (h' : Resumable r') :
    Resumable (if p then r else r') := by
  split
  · exact h
  · exact h'

theorem ofHead {f : β → Reader β ε α} (hf : ∀ b, Resumable (f b))
    (hnil : r [] = .error .eof) (hcons : ∀ b input, r (b :: input) = f b (b :: input)) :
    Resumable r where
  ok {input a rest} more h := by
    cases input with
    | nil => rw [hnil] at h; cases h
    | cons b input =>
      rw [hcons] at h
      rw [cons_append, hcons]
      exact (hf b).ok more h
  stop {input s} more h hs := by
    cases input with
    | nil => rw [hnil] at h; cases h; exact absurd rfl hs
    | cons b input =>
      rw [hcons] at h
      rw [cons_append, hcons]
      exact (hf b).stop more h hs
  le {input a rest} h := by
    cases input with
    | nil => rw [hnil] at h; cases h
    | cons b input =>
      rw [hcons] at h
      exact (hf b).le h

end Resumable

/-! ## Machines -/

/-- What reading one element comes to. -/
inductive Step (σ β ε : Type u) where
  | done (s : σ) (rest : List β)
  | more (s : σ)
  | dropped (s : σ)
  | failed (s : σ) (e : ε)

namespace Step

variable {σ : Type u}

def state : Step σ β ε → σ
  | done s _ => s
  | more s => s
  | dropped s => s
  | failed s _ => s

def map {τ : Type u} (f : σ → τ) : Step σ β ε → Step τ β ε
  | done s rest => .done (f s) rest
  | more s => .more (f s)
  | dropped s => .dropped (f s)
  | failed s e => .failed (f s) e

/-- A property of the state after a step that does not fail, and one of the state after a step that
does. -/
def Ends (P Q : σ → Prop) : Step σ β ε → Prop
  | done s _ | more s | dropped s => P s
  | failed s _ => Q s

/-- The step that reads a value and acts on it: the state `s` stays if there is none. -/
def ofRead (s : σ) (act : α → σ × Option ε) : Except (Stop ε) (α × List β) → Step σ β ε
  | .error .eof => .more s
  | .error (.error e) => .failed s e
  | .error .rejected => .dropped s
  | .ok (a, rest) =>
    match act a with
    | (s', none) => .done s' rest
    | (s', some e) => .failed s' e

/-- What the step comes to does not depend on what follows it. -/
structure Extends (f : List β → Step σ β ε) : Prop where
  done : ∀ {input s rest} more, f input = .done s rest → f (input ++ more) = .done s (rest ++ more)
  dropped : ∀ {input s} more, f input = .dropped s → f (input ++ more) = .dropped s
  failed : ∀ {input s e} more, f input = .failed s e → f (input ++ more) = .failed s e
  le : ∀ {input s rest}, f input = .done s rest → rest.length ≤ input.length

variable {s s' : σ} {e : ε} {act : α → σ × Option ε} {rest : List β}
  {x : Except (Stop ε) (α × List β)}

theorem ofRead_done (h : ofRead s act x = .done s' rest) :
    ∃ a, x = .ok (a, rest) ∧ act a = (s', none) := by
  unfold ofRead at h
  split at h
  case h_4 a rest' =>
    split at h
    · next hact =>
      cases h
      exact ⟨a, rfl, hact⟩
    · cases h
  all_goals cases h

theorem ofRead_dropped (h : ofRead s act x = .dropped s') : x = .error .rejected ∧ s' = s := by
  unfold ofRead at h
  split at h
  case h_3 =>
    cases h
    exact ⟨rfl, rfl⟩
  case h_4 => split at h <;> cases h
  all_goals cases h

theorem ofRead_more (h : ofRead s act x = .more s') : x = .error .eof ∧ s' = s := by
  unfold ofRead at h
  split at h
  case h_1 =>
    cases h
    exact ⟨rfl, rfl⟩
  case h_4 => split at h <;> cases h
  all_goals cases h

theorem ofRead_failed (h : ofRead s act x = .failed s' e) :
    (x = .error (.error e) ∧ s' = s) ∨ ∃ a rest, x = .ok (a, rest) ∧ act a = (s', some e) := by
  unfold ofRead at h
  split at h
  case h_2 =>
    cases h
    exact .inl ⟨rfl, rfl⟩
  case h_4 a rest' =>
    split at h
    · cases h
    · next hact =>
      cases h
      exact .inr ⟨a, rest', rfl, hact⟩
  all_goals cases h

theorem ofRead_ok {a : α} (h : act a = (s', none)) :
    ofRead s act (.ok (a, rest)) = .done s' rest := by
  simp only [ofRead, h]

theorem Extends.ofRead {r : Reader β ε α} (hr : Resumable r) (s : σ) (act : α → σ × Option ε) :
    Extends fun input => Step.ofRead s act (r input) where
  done {input s' rest} more h := by
    obtain ⟨a, hx, hact⟩ := ofRead_done h
    rw [hr.ok more hx]
    exact ofRead_ok hact
  dropped {input s'} more h := by
    obtain ⟨hx, rfl⟩ := ofRead_dropped h
    rw [hr.stop more hx (by simp)]
    rfl
  failed {input s' e} more h := by
    rcases ofRead_failed h with ⟨hx, rfl⟩ | ⟨a, rest, hx, hact⟩
    · rw [hr.stop more hx (by simp)]
      rfl
    · rw [hr.ok more hx]
      simp only [Step.ofRead, hact]
  le {input s' rest} h := by
    obtain ⟨a, hx, hact⟩ := ofRead_done h
    exact hr.le hx

theorem Extends.fail (s : σ) (e : ε) : Extends fun _ : List β => Step.failed s e where
  done more h := by cases h
  dropped more h := by cases h
  failed more h := h
  le h := by cases h

theorem Extends.ofHead {f : List β → Step σ β ε} (hnil : f [] = .more s)
    (hcons : ∀ b, Extends fun input => f (b :: input)) : Extends f where
  done {input s' rest} more h := by
    cases input with
    | nil => rw [hnil] at h; cases h
    | cons b input => exact (hcons b).done more h
  dropped {input s'} more h := by
    cases input with
    | nil => rw [hnil] at h; cases h
    | cons b input => exact (hcons b).dropped more h
  failed {input s' e} more h := by
    cases input with
    | nil => rw [hnil] at h; cases h
    | cons b input => exact (hcons b).failed more h
  le {input s' rest} h := by
    cases input with
    | nil => rw [hnil] at h; cases h
    | cons b input => exact Nat.le_succ_of_le ((hcons b).le h)

theorem state_ofRead {P : σ → Prop} (hs : P s) (hact : ∀ a, P (act a).1) :
    P (ofRead s act x).state := by
  unfold ofRead
  split
  case h_4 a rest' =>
    have h := hact a
    split <;> next heq => rw [heq] at h; exact h
  all_goals exact hs

end Step

/-- What reading all elements of an input comes to: they end with it, it ends inside one of which
`rest` is the beginning, the rest of the input is dropped, or an element is wrong. -/
inductive Outcome (σ β ε : Type u) where
  | finished (s : σ)
  | paused (s : σ) (rest : List β)
  | dropped (s : σ)
  | failed (s : σ) (e : ε)

def Outcome.state {σ : Type u} : Outcome σ β ε → σ
  | finished s => s
  | paused s _ => s
  | dropped s => s
  | failed s _ => s

def Outcome.map {σ τ : Type u} (f : σ → τ) : Outcome σ β ε → Outcome τ β ε
  | finished s => .finished (f s)
  | paused s rest => .paused (f s) rest
  | dropped s => .dropped (f s)
  | failed s e => .failed (f s) e

def Outcome.Ends {σ : Type u} (P Q : σ → Prop) : Outcome σ β ε → Prop
  | finished s | paused s _ | dropped s => P s
  | failed s _ => Q s

/-- A machine: how it reads an element, whether it needs one even if there is no input, and the
error, if any, of a last piece that ends inside an element. -/
structure Machine (σ β ε : Type u) where
  element : σ → List β → Step σ β ε
  pending : σ → Bool
  incomplete : σ → Option ε

namespace Machine

variable {σ : Type u} (M : Machine σ β ε)

/-- Read elements until the input ends; every element takes something off it. -/
def loop : Nat → σ → List β → Outcome σ β ε
  | 0, s, input => .paused s input
  | fuel + 1, s, input =>
    if input = [] ∧ M.pending s = false then .finished s
    else
      match M.element s input with
      | .done s' rest => loop fuel s' rest
      | .more s' => .paused s' input
      | .dropped s' => .dropped s'
      | .failed s' e => .failed s' e

def run (s : σ) (input : List β) : Outcome σ β ε := M.loop (input.length + 1) s input

/-- The result of a piece: the state and the input that is kept for the next one. -/
def close (isLast : Bool) : Outcome σ β ε → Except (σ × ε) (σ × List β)
  | .finished s => .ok (s, [])
  | .paused s rest =>
    match isLast, M.incomplete s with
    | true, some e => .error (s, e)
    | _, _ => .ok (s, rest)
  | .dropped s => .ok (s, [])
  | .failed s e => .error (s, e)

def feed (p : σ × List β) (piece : List β) (isLast : Bool) : Except (σ × ε) (σ × List β) :=
  M.close isLast (M.run p.1 (p.2 ++ piece))

/-- Feed pieces one after the other, up to the first that fails. -/
def feedAll (p : σ × List β) : List (List β) → Except (σ × ε) (σ × List β)
  | [] => .ok p
  | [piece] => M.feed p piece true
  | piece :: pieces => (M.feed p piece false).bind fun p => feedAll p pieces

/-- Reading an element again from its beginning goes unnoticed. -/
structure Resumes : Prop where
  progress : ∀ {s input s' rest}, M.element s input = .done s' rest → rest.length < input.length
  extends_ : ∀ s, Step.Extends (M.element s)
  more : ∀ {s input s'} more, M.element s input = .more s' →
    M.element s' (input ++ more) = M.element s (input ++ more)
  pending_more : ∀ {s input s'}, M.element s input = .more s' → M.pending s' = M.pending s
  pending_dropped : ∀ {s input s'}, M.element s input = .dropped s' → M.pending s' = false

variable {M} {s s' : σ} {x : List β}

theorem loop_eq (h : M.Resumes) {k : Nat} (hf : x.length + 1 ≤ k) :
    M.loop k s x = M.run s x := by
  unfold run
  induction hn : x.length using Nat.strongRecOn generalizing x s k with
  | ind n ih =>
    subst hn
    obtain ⟨k, rfl⟩ : ∃ j, k = j + 1 := ⟨k - 1, by omega⟩
    rw [loop, loop]
    split
    · rfl
    · cases hx : M.element s x with
      | done s₁ rest =>
        have hlt := h.progress hx
        have h₁ := ih rest.length hlt (s := s₁) (x := rest) (k := k) (by omega) rfl
        have h₂ := ih rest.length hlt (s := s₁) (x := rest) (k := x.length) (by omega) rfl
        exact h₁.trans h₂.symm
      | more => rfl
      | dropped => rfl
      | failed => rfl

theorem run_eq (h : M.Resumes) (s : σ) (x : List β) :
    M.run s x = if x = [] ∧ M.pending s = false then .finished s
      else match M.element s x with
        | .done s' rest => M.run s' rest
        | .more s' => .paused s' x
        | .dropped s' => .dropped s'
        | .failed s' e => .failed s' e := by
  rw [run, loop]
  split
  · rfl
  · cases hx : M.element s x with
    | done s₁ rest => exact loop_eq h (h.progress hx)
    | more => rfl
    | dropped => rfl
    | failed => rfl

theorem run_nil (h : M.Resumes) (hp : M.pending s = false) : M.run s [] = .finished s := by
  rw [run_eq h, if_pos ⟨rfl, hp⟩]

theorem run_append (h : M.Resumes) (s : σ) (x y : List β) :
    M.run s (x ++ y) = match M.run s x with
      | .finished s' => M.run s' y
      | .paused s' rest => M.run s' (rest ++ y)
      | .dropped s' => .dropped s'
      | .failed s' e => .failed s' e := by
  induction hn : x.length using Nat.strongRecOn generalizing x s with
  | ind n ih =>
    subst hn
    rw [run_eq h s x]
    by_cases hempty : x = [] ∧ M.pending s = false
    · rw [if_pos hempty, hempty.1, nil_append]
    · have hne : ¬ (x ++ y = [] ∧ M.pending s = false) := fun hxy =>
        hempty ⟨(append_eq_nil_iff.1 hxy.1).1, hxy.2⟩
      rw [run_eq h s (x ++ y), if_neg hne, if_neg hempty]
      cases hx : M.element s x with
      | done s₁ rest =>
        rw [(h.extends_ s).done y hx]
        exact ih rest.length (h.progress hx) s₁ rest rfl
      | dropped s₁ => rw [(h.extends_ s).dropped y hx]
      | failed s₁ e => rw [(h.extends_ s).failed y hx]
      | more s₁ =>
        simp only
        rw [run_eq h s₁ (x ++ y), h.more y hx, h.pending_more hx, if_neg hne]

variable {P Q : σ → Prop} {p : σ × List β}

theorem run_invariant (h : M.Resumes)
    (helement : ∀ s x, P s → P (M.element s x).state) (hs : P s) : P (M.run s x).state := by
  induction hn : x.length using Nat.strongRecOn generalizing x s with
  | ind n ih =>
    subst hn
    have hx := helement s x hs
    rw [run_eq h]
    split
    · exact hs
    · cases heq : M.element s x with
      | done s₁ rest =>
        rw [heq] at hx
        exact ih rest.length (h.progress heq) hx rfl
      | more | dropped | failed => rw [heq] at hx; exact hx

theorem pending_of_dropped (h : M.Resumes) (hx : M.run s x = .dropped s') :
    M.pending s' = false := by
  induction hn : x.length using Nat.strongRecOn generalizing x s with
  | ind n ih =>
    subst hn
    rw [run_eq h] at hx
    split at hx
    · cases hx
    · split at hx
      · next s₁ rest heq => exact ih rest.length (h.progress heq) hx rfl
      · cases hx
      · next heq =>
        cases hx
        exact h.pending_dropped heq
      · cases hx

/-- A machine whose elements another one follows drops no input that the other one keeps. -/
theorem run_dropped_of_follows (h : M.Resumes) {R : σ → σ → Prop}
    (hpending : ∀ {s t}, R s t → M.pending t = M.pending s)
    (hdone : ∀ {s t x s' rest}, R s t → M.element s x = .done s' rest →
      ∃ t', M.element t x = .done t' rest ∧ R s' t')
    (hdropped : ∀ {s t x s'}, R s t → M.element s x = .dropped s' →
      ∃ t', M.element t x = .dropped t' ∧ R s' t')
    {t : σ} (hR : R s t) (hrun : M.run s x = .dropped s') :
    ∃ t', M.run t x = .dropped t' ∧ R s' t' := by
  induction hn : x.length using Nat.strongRecOn generalizing x s t with
  | ind n ih =>
    subst hn
    rw [run_eq h] at hrun
    rw [run_eq h t x, hpending hR]
    split at hrun
    · cases hrun
    · next hne =>
      rw [if_neg hne]
      cases hx : M.element s x with
      | done s₁ rest =>
        rw [hx] at hrun
        obtain ⟨t₁, ht, hR₁⟩ := hdone hR hx
        rw [ht]
        exact ih rest.length (h.progress hx) hR₁ hrun rfl
      | dropped s₁ =>
        rw [hx] at hrun
        cases hrun
        obtain ⟨t₁, ht, hR₁⟩ := hdropped hR hx
        rw [ht]
        exact ⟨t₁, rfl, hR₁⟩
      | more s₁ => rw [hx] at hrun; cases hrun
      | failed s₁ e => rw [hx] at hrun; cases hrun

theorem feed_append (h : M.Resumes) {y : List β} {isLast : Bool}
    (hdrop : ∀ s', M.run p.1 (p.2 ++ x) ≠ .dropped s') :
    M.feed p (x ++ y) isLast = (M.feed p x false).bind fun p' => M.feed p' y isLast := by
  unfold feed
  rw [← append_assoc, run_append h]
  cases hrun : M.run p.1 (p.2 ++ x) with
  | finished s' | paused s' rest | failed s' e => rfl
  | dropped s' => exact absurd hrun (hdrop s')

theorem feedAll_eq (h : M.Resumes) (p : σ × List β) {pieces : List (List β)} (hne : pieces ≠ [])
    (hdrop : ∀ x y s', p.2 ++ pieces.flatten = x ++ y → y ≠ [] → M.run p.1 x ≠ .dropped s') :
    M.feedAll p pieces = M.feed p pieces.flatten true := by
  induction pieces generalizing p with
  | nil => exact absurd rfl hne
  | cons piece pieces ih =>
    cases pieces with
    | nil => simp [feedAll]
    | cons piece' pieces =>
      have hflat : p.2 ++ (piece :: piece' :: pieces).flatten =
          (p.2 ++ piece) ++ (piece' :: pieces).flatten := by simp
      rw [hflat] at hdrop
      have happ := run_append h p.1 (p.2 ++ piece) (piece' :: pieces).flatten
      simp only [feedAll, feed] at ih ⊢
      rw [hflat, happ]
      cases hrun : M.run p.1 (p.2 ++ piece) with
      | finished s₁ =>
        refine ih (s₁, []) (by simp) fun x y s' hxy hy hx => ?_
        refine hdrop (p.2 ++ piece ++ x) y s' ?_ hy ?_
        · rw [append_assoc _ x y, ← hxy]
          rfl
        · rw [run_append h, hrun]
          exact hx
      | paused s₁ rest =>
        refine ih (s₁, rest) (by simp) fun x y s' hxy hy hx => ?_
        -- a piece that was kept is not dropped, so `x` goes beyond it
        rcases append_eq_append_iff.1 hxy with ⟨x', rfl, hx'⟩ | ⟨x', hx', -⟩
        · refine hdrop (p.2 ++ piece ++ x') y s' ?_ hy ?_
          · simp only [hx', append_assoc]
          · rw [run_append h, hrun]
            exact hx
        · have hkept := run_append h p.1 (p.2 ++ piece) []
          have hdropped := run_append h s₁ x x'
          rw [hrun] at hkept
          simp only [append_nil] at hkept hx'
          rw [hx] at hdropped
          rw [hrun, hx', hdropped] at hkept
          cases hkept
      | dropped s₁ =>
        have hnil : (piece' :: pieces).flatten = [] := by
          by_contra hy
          exact hdrop (p.2 ++ piece) _ s₁ rfl hy hrun
        have hstop := run_nil h (pending_of_dropped h hrun)
        refine (ih (s₁, []) (by simp) fun x y s' hxy hy _ => ?_).trans ?_
        · rw [hnil] at hxy
          exact hy (append_eq_nil_iff.1 hxy.symm).2
        · simp [hnil, hstop, close]
      | failed s₁ e => rfl

/-! ## Observation -/

/-- The machine with a value beside its state, which every element may change in view of what it
does and of which no element knows. -/
def observed {γ : Type u} (M : Machine σ β ε) (note : σ → List β → Step σ β ε → γ → γ) :
    Machine (σ × γ) β ε where
  element p x := (M.element p.1 x).map fun s' => (s', note p.1 x (M.element p.1 x) p.2)
  pending p := M.pending p.1
  incomplete p := M.incomplete p.1

/-- The result of a piece without the value. -/
def unobserved {γ : Type u} :
    Except ((σ × γ) × ε) ((σ × γ) × List β) → Except (σ × ε) (σ × List β)
  | .ok (p, rest) => .ok (p.1, rest)
  | .error (p, e) => .error (p.1, e)

theorem observed_loop {γ : Type u} (note : σ → List β → Step σ β ε → γ → γ) (k : Nat) (p : σ × γ)
    (x : List β) : ((M.observed note).loop k p x).map Prod.fst = M.loop k p.1 x := by
  induction k generalizing p x with
  | zero => rfl
  | succ k ih =>
    have hpending : (M.observed note).pending p = M.pending p.1 := rfl
    rw [loop, loop, hpending]
    by_cases hempty : x = [] ∧ M.pending p.1 = false
    · rw [if_pos hempty, if_pos hempty]
      rfl
    · rw [if_neg hempty, if_neg hempty]
      dsimp only [observed]
      cases hx : M.element p.1 x with
      | done s' rest => exact ih _ rest
      | more | dropped | failed => rfl

theorem unobserved_feed {γ : Type u} (note : σ → List β → Step σ β ε → γ → γ) (p : σ × γ)
    (rest piece : List β) (isLast : Bool) :
    unobserved ((M.observed note).feed (p, rest) piece isLast) =
      M.feed (p.1, rest) piece isLast := by
  unfold feed run
  rw [← observed_loop note]
  cases (M.observed note).loop ((rest ++ piece).length + 1) p (rest ++ piece) with
  | paused q left =>
    simp only [Outcome.map, close]
    cases isLast with
    | false => rfl
    | true =>
      change unobserved (match true, M.incomplete q.1 with
        | true, some e => .error (q, e)
        | _, _ => .ok (q, left)) = _
      cases M.incomplete q.1 <;> rfl
  | finished | dropped | failed => rfl

/-! ## Invariants -/

/-- What every element keeps, and what it leaves when it fails, is what a run keeps and leaves. -/
theorem loop_ends (h : ∀ s x, P s → (M.element s x).Ends P Q) (hs : P s) (k : Nat) :
    (M.loop k s x).Ends P Q := by
  induction k generalizing s x with
  | zero => exact hs
  | succ k ih =>
    have hx := h s x hs
    rw [loop]
    split
    · exact hs
    · cases heq : M.element s x with
      | done s₁ rest =>
        rw [heq] at hx
        exact ih hx
      | more | dropped | failed =>
        rw [heq] at hx
        exact hx

theorem feed_ends (h : ∀ s x, P s → (M.element s x).Ends P Q)
    (hPQ : ∀ s, P s → Q s) (hp : P p.1) (piece : List β) (isLast : Bool) :
    (∀ q, M.feed p piece isLast = .ok q → P q.1) ∧
      ∀ r, M.feed p piece isLast = .error r → Q r.1 := by
  have hends := loop_ends h hp (x := p.2 ++ piece) ((p.2 ++ piece).length + 1)
  unfold feed run
  cases heq : M.loop ((p.2 ++ piece).length + 1) p.1 (p.2 ++ piece) with
  | paused s' rest =>
    rw [heq] at hends
    dsimp only [close]
    split
    · exact ⟨nofun, fun r hr => by cases hr; exact hPQ _ hends⟩
    · exact ⟨fun q hq => by cases hq; exact hends, nofun⟩
  | finished s' | dropped s' =>
    rw [heq] at hends
    exact ⟨fun q hq => by cases hq; exact hends, nofun⟩
  | failed s' e =>
    rw [heq] at hends
    exact ⟨nofun, fun r hr => by cases hr; exact hends⟩

end Machine

end Incremental
