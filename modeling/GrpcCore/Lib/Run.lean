import Mathlib.Data.List.Basic

/-!
# Runs of a partial step function

A partial computation `Returns` a result with a property. `run step s as` performs the actions `as`
one after the other from `s`; a step that returns `none` ends the run there. `Along step G s as`
says that every action of the run is taken in a state in which the guard `G` allows it.
`run_invariant` carries an invariant along guarded runs, and `run_simulates` a relation to a second,
total machine that performs the same actions (`run_refines` where the guard is the second
machine's); `along_of_run` and `along_of_property` say that the guard is exact, when the step fails
or breaks a property wherever the guard does.
-/

namespace Run

open Option

variable {σ τ α : Type*} {step : σ → α → Option σ} {G : σ → α → Prop} {s s' : σ} {a : α}
  {as bs : List α}

/-- The partial computation returns, and its result has the property `P`. -/
def Returns (o : Option α) (P : α → Prop) : Prop := ∃ a, o = some a ∧ P a

theorem Returns.bind {β : Type*} {o : Option α} {f : α → Option β} {P : α → Prop} {Q : β → Prop}
    (h : Returns o P) (hf : ∀ a, P a → Returns (f a) Q) : Returns (o.bind f) Q := by
  obtain ⟨a, rfl, ha⟩ := h
  exact hf a ha

theorem Returns.map {β : Type*} {o : Option α} {f : α → β} {P : α → Prop} {Q : β → Prop}
    (h : Returns o P) (hf : ∀ a, P a → Q (f a)) : Returns (o.map f) Q := by
  obtain ⟨a, rfl, ha⟩ := h
  exact ⟨f a, rfl, hf a ha⟩

def run (step : σ → α → Option σ) : σ → List α → Option σ
  | s, [] => some s
  | s, a :: as => (step s a).bind fun s' => run step s' as

@[simp] theorem run_nil : run step s [] = some s := rfl

theorem run_cons : run step s (a :: as) = (step s a).bind fun s' => run step s' as := rfl

theorem run_cons_eq_some :
    run step s (a :: as) = some s' ↔ ∃ s₁, step s a = some s₁ ∧ run step s₁ as = some s' :=
  bind_eq_some_iff

theorem run_append : run step s (as ++ bs) = (run step s as).bind fun s' => run step s' bs := by
  induction as generalizing s with
  | nil => rfl
  | cons a as ih =>
    rw [List.cons_append, run_cons, run_cons]
    cases step s a with
    | none => rfl
    | some s' => exact ih

theorem run_mono {step' : σ → α → Option σ} (h : ∀ s a s', step s a = some s' → step' s a = some s')
    (hrun : run step s as = some s') : run step' s as = some s' := by
  induction as generalizing s with
  | nil => exact hrun
  | cons a as ih =>
    obtain ⟨s₁, h₁, hrun⟩ := run_cons_eq_some.1 hrun
    exact run_cons_eq_some.2 ⟨s₁, h s a s₁ h₁, ih hrun⟩

/-- Every action of the run is allowed in the state it is taken in. -/
def Along (step : σ → α → Option σ) (G : σ → α → Prop) (s : σ) (as : List α) : Prop :=
  ∀ pre a post s', as = pre ++ a :: post → run step s pre = some s' → G s' a

theorem along_nil : Along step G s [] := by
  intro pre a post s' h
  simp at h

theorem along_cons : Along step G s (a :: as) ↔
    G s a ∧ ∀ s', step s a = some s' → Along step G s' as := by
  constructor
  · refine fun h => ⟨h [] a as s rfl rfl, fun s' hs pre b post s'' has hrun => ?_⟩
    exact h (a :: pre) b post s'' (by rw [has]; rfl) (run_cons_eq_some.2 ⟨s', hs, hrun⟩)
  · rintro ⟨hG, h⟩ pre b post s'' has hrun
    cases pre with
    | nil =>
      obtain ⟨rfl, rfl⟩ := List.cons.inj has
      cases hrun
      exact hG
    | cons c pre =>
      obtain ⟨rfl, rfl⟩ := List.cons.inj has
      obtain ⟨s', hs, hrun⟩ := run_cons_eq_some.1 hrun
      exact h s' hs pre b post s'' rfl hrun

instance decidableAlong [∀ s a, Decidable (G s a)] :
    ∀ s as, Decidable (Along step G s as)
  | _, [] => isTrue along_nil
  | s, a :: as =>
    match h : step s a with
    | none => decidable_of_iff (G s a) <| by
        rw [along_cons, h]
        exact ⟨fun hG => ⟨hG, fun _ h' => nomatch h'⟩, And.left⟩
    | some s₁ =>
      have : Decidable (Along step G s₁ as) := decidableAlong s₁ as
      decidable_of_iff (G s a ∧ Along step G s₁ as) <| by
        rw [along_cons, h]
        exact and_congr_right fun _ => ⟨fun hA _ h' => some.inj h' ▸ hA, fun hA => hA s₁ rfl⟩

theorem Along.mono (h : Along step G s bs) (hp : as <+: bs) : Along step G s as := by
  obtain ⟨t, rfl⟩ := hp
  intro pre a post s' has hrun
  exact h pre a (post ++ t) s' (by rw [has]; simp) hrun

theorem Along.append (h : Along step G s as) (hrun : run step s as = some s')
    (h' : Along step G s' bs) : Along step G s (as ++ bs) := by
  induction as generalizing s with
  | nil =>
    cases hrun
    exact h'
  | cons a as ih =>
    obtain ⟨ha, htl⟩ := along_cons.1 h
    obtain ⟨s₁, h₁, hrun⟩ := run_cons_eq_some.1 hrun
    refine along_cons.2 ⟨ha, fun s₂ h₂ => ?_⟩
    obtain rfl := some.inj (h₁.symm.trans h₂)
    exact ih (htl s₁ h₁) hrun

variable {I P : σ → Prop} {R : σ → τ → Prop} {spec : τ → α → τ} {t : τ} {F : σ → α → Prop}

theorem run_invariant (hG : Along step G s as) (hrun : run step s as = some s')
    (hstep : ∀ s a s', I s → G s a → step s a = some s' → I s') (hs : I s) : I s' := by
  induction as generalizing s with
  | nil => cases hrun; exact hs
  | cons a as ih =>
    obtain ⟨ha, htl⟩ := along_cons.1 hG
    obtain ⟨s₁, h₁, hrun⟩ := run_cons_eq_some.1 hrun
    exact ih (htl s₁ h₁) hrun (hstep s a s₁ hs ha h₁)

/-- A guarded run goes through and stays related to the total machine that takes the same
actions. -/
theorem run_simulates (hG : Along step G s as)
    (hstep : ∀ s t a, R s t → G s a → ∃ s', step s a = some s' ∧ R s' (spec t a)) (hs : R s t) :
    ∃ s', run step s as = some s' ∧ R s' (as.foldl spec t) := by
  induction as generalizing s t with
  | nil => exact ⟨s, rfl, hs⟩
  | cons a as ih =>
    obtain ⟨ha, htl⟩ := along_cons.1 hG
    obtain ⟨s₁, h₁, hR⟩ := hstep s t a hs ha
    obtain ⟨s', hrun, hR'⟩ := ih (htl s₁ h₁) hR
    exact ⟨s', run_cons_eq_some.2 ⟨s₁, h₁, hrun⟩, hR'⟩

/-- When every allowed step goes through and keeps an invariant, a guarded run does. -/
theorem Along.exists_run (hG : Along step G s as)
    (hstep : ∀ s a, I s → G s a → ∃ s', step s a = some s' ∧ I s') (hs : I s) :
    ∃ s', run step s as = some s' ∧ I s' :=
  @run_simulates σ Unit α step G s as (fun s _ => I s) (fun _ _ => ()) () hG
    (fun s _ a => hstep s a) hs

theorem run_total (hstep : ∀ s a, I s → ∃ s', step s a = some s' ∧ I s') (hs : I s)
    (as : List α) : ∃ s', run step s as = some s' ∧ I s' := by
  have htrue : Along step (fun _ _ => True) s as := fun _ _ _ _ _ _ => trivial
  exact htrue.exists_run (fun s a h _ => hstep s a h) hs

/-- Every action is allowed in the state in which the total machine `spec` takes it. -/
def Allows (spec : τ → α → τ) (G : τ → α → Prop) : τ → List α → Prop
  | _, [] => True
  | t, a :: as => G t a ∧ Allows spec G (spec t a) as

instance decidableAllows {spec : τ → α → τ} {G : τ → α → Prop} [∀ t a, Decidable (G t a)] :
    ∀ t as, Decidable (Allows spec G t as)
  | _, [] => instDecidableTrue
  | t, a :: as =>
    have : Decidable (Allows spec G (spec t a) as) := decidableAllows (spec t a) as
    inferInstanceAs (Decidable (G t a ∧ Allows spec G (spec t a) as))

/-- A run of actions that the total machine `spec` allows goes through and stays related to it. -/
theorem run_refines {G : τ → α → Prop} (hG : Allows spec G t as)
    (hstep : ∀ s t a, R s t → G t a → ∃ s', step s a = some s' ∧ R s' (spec t a)) (hs : R s t) :
    ∃ s', run step s as = some s' ∧ R s' (as.foldl spec t) := by
  induction as generalizing s t with
  | nil => exact ⟨s, rfl, hs⟩
  | cons a as ih =>
    obtain ⟨s₁, h₁, hR⟩ := hstep s t a hs hG.1
    obtain ⟨s', hrun, hR'⟩ := ih hG.2 hR
    exact ⟨s', run_cons_eq_some.2 ⟨s₁, h₁, hrun⟩, hR'⟩

/-- When a step that goes through was allowed, a run that goes through is a guarded one. -/
theorem along_of_step (hrun : run step s as = some s')
    (hstep : ∀ s a s', step s a = some s' → G s a) : Along step G s as := by
  intro pre a post s₁ has hpre
  rw [has, run_append, hpre, bind_some, run_cons] at hrun
  obtain ⟨s₂, h₂, -⟩ := bind_eq_some_iff.1 hrun
  exact hstep s₁ a s₂ h₂

/-- When a step that goes through was allowed, in states with an invariant and under a second guard,
a run that goes through is a guarded one. -/
theorem Along.of_run (hF : Along step F s as) (hrun : run step s as = some s')
    (hallowed : ∀ s a s', I s → F s a → step s a = some s' → G s a)
    (hstep : ∀ s a s', I s → G s a → step s a = some s' → I s') (hs : I s) : Along step G s as := by
  induction as generalizing s with
  | nil => exact along_nil
  | cons a as ih =>
    obtain ⟨hFa, hFtl⟩ := along_cons.1 hF
    obtain ⟨s₁, h₁, hrun⟩ := run_cons_eq_some.1 hrun
    have ha := hallowed s a s₁ hs hFa h₁
    refine along_cons.2 ⟨ha, fun s₂ h₂ => ?_⟩
    obtain rfl := some.inj (h₁.symm.trans h₂)
    exact ih (hFtl s₁ h₁) hrun (hstep s a s₁ hs ha h₁)

/-- When the step fails wherever the guard does, related to a second machine, a run that goes
through is a guarded one. -/
theorem along_of_run (hrun : run step s as = some s')
    (hstep : ∀ s t a, R s t → G s a → ∃ s', step s a = some s' ∧ R s' (spec t a))
    (hfail : ∀ s t a, R s t → ¬ G s a → step s a = none) (hs : R s t) :
    Along step G s as := by
  have htrue : Along step (fun _ _ => True) s as := fun _ _ _ _ _ _ => trivial
  refine htrue.of_run (I := fun s => ∃ t, R s t) hrun (fun s a s' ⟨t, hR⟩ _ h => ?_)
    (fun s a s' ⟨t, hR⟩ hG h => ?_) ⟨t, hs⟩
  · by_contra hG
    cases (hfail s t a hR hG).symm.trans h
  · obtain ⟨s₁, h₁, hR'⟩ := hstep s t a hR hG
    exact ⟨spec t a, some.inj (h₁.symm.trans h) ▸ hR'⟩

/-- When a step that the guard forbids breaks the property `P`, a run on which `P` holds throughout
is a guarded one. A second guard `F` may be assumed along the run. -/
theorem Along.of_property (hF : Along step F s as)
    (h : ∀ pre s', pre <+: as → run step s pre = some s' → P s')
    (hstep : ∀ s a s', I s → F s a → G s a → step s a = some s' → I s')
    (hbad : ∀ s a, I s → F s a → ¬ G s a → ∃ s', step s a = some s' ∧ ¬ P s') (hs : I s) :
    Along step G s as := by
  induction as generalizing s with
  | nil => exact along_nil
  | cons a as ih =>
    obtain ⟨hFa, hFtl⟩ := along_cons.1 hF
    have ha : G s a := by
      by_contra ha
      obtain ⟨s', hs', hP⟩ := hbad s a hs hFa ha
      exact hP (h [a] s' ⟨as, rfl⟩ (by rw [run_cons, hs']; rfl))
    refine along_cons.2 ⟨ha, fun s₁ h₁ => ?_⟩
    refine ih (hFtl s₁ h₁) (fun pre s' hp hrun => ?_) (hstep s a s₁ hs hFa ha h₁)
    exact h (a :: pre) s' ((List.prefix_cons_inj a).2 hp) (run_cons_eq_some.2 ⟨s₁, h₁, hrun⟩)

theorem along_of_property (h : ∀ pre s', pre <+: as → run step s pre = some s' → P s')
    (hstep : ∀ s a s', I s → G s a → step s a = some s' → I s')
    (hbad : ∀ s a, I s → ¬ G s a → ∃ s', step s a = some s' ∧ ¬ P s') (hs : I s) :
    Along step G s as := by
  have htrue : Along step (fun _ _ => True) s as := fun _ _ _ _ _ _ => trivial
  exact htrue.of_property h (fun s a s' hs _ => hstep s a s' hs) (fun s a hs _ => hbad s a hs) hs

theorem Along.and (hF : Along step F s as) (hG : Along step G s as) :
    Along step (fun s a => F s a ∧ G s a) s as :=
  fun pre a post s' has hrun => ⟨hF pre a post s' has hrun, hG pre a post s' has hrun⟩

end Run
