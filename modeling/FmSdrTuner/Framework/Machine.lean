import Mathlib.Data.List.Basic

/-! # Machines, runs and history variables

    A machine is a total step function; a run feeds it a list of actions.
    Whatever the environment may decide (schedules, answers of a device,
    the outcome of a system call) is part of the action, so quantifying
    over action lists quantifies over every environment.

    This file collects the proof rules the rest of the development uses:

    * `Meets`: a condition that every step of a run satisfies;
    * `run_invariant`: an invariant preserved by every step that meets a
      condition holds at the end of every run that meets it;
    * `meets_of_invariant`: such an invariant turns a condition on the
      steps into a property of the steps;
    * `run_simulation`: steps that another machine follows make runs that
      it follows;
    * `withHistory`: a machine paired with an observer of its steps, the
      usual way to state a property of the past. -/

namespace FmSdrTuner

/-- A deterministic machine over states `σ` and actions `α`. -/
structure Machine (σ α : Type*) where
  /-- The state after an action. -/
  step : σ → α → σ

namespace Machine

variable {σ α ω : Type*} (M : Machine σ α)

/-! ### Runs -/

/-- The state after a list of actions. -/
def run (s : σ) (acts : List α) : σ := acts.foldl M.step s

@[simp] theorem run_nil (s : σ) : M.run s [] = s := rfl

@[simp] theorem run_cons (s : σ) (a : α) (acts : List α) :
    M.run s (a :: acts) = M.run (M.step s a) acts := rfl

@[simp] theorem run_append (s : σ) (acts acts' : List α) :
    M.run s (acts ++ acts') = M.run (M.run s acts) acts' := by
  simp [run]

/-! ### Conditions on the steps of a run -/

/-- Every step of the run satisfies `C`, a relation between the state
    before the step and the action. Since a machine is deterministic, a
    property of the state after the step is one too. -/
def Meets (C : σ → α → Prop) : σ → List α → Prop
  | _, [] => True
  | s, a :: acts => C s a ∧ Meets C (M.step s a) acts

instance decidableMeets (C : σ → α → Prop) [h : ∀ s a, Decidable (C s a)] :
    ∀ s acts, Decidable (M.Meets C s acts)
  | _, [] => isTrue trivial
  | s, a :: acts =>
      have := decidableMeets C (M.step s a) acts
      inferInstanceAs (Decidable (C s a ∧ M.Meets C (M.step s a) acts))

variable {M} {C D : σ → α → Prop} {Inv : σ → Prop}

/-- A pointwise consequence of the condition is met by the same runs. -/
theorem Meets.mono (himp : ∀ s a, C s a → D s a) {s : σ} {acts : List α}
    (h : M.Meets C s acts) : M.Meets D s acts := by
  induction acts generalizing s with
  | nil => trivial
  | cons a acts ih => exact ⟨himp s a h.1, ih h.2⟩

/-- Pointwise equivalent conditions are met by the same runs. -/
theorem meets_congr (hiff : ∀ s a, C s a ↔ D s a) (s : σ) (acts : List α) :
    M.Meets C s acts ↔ M.Meets D s acts :=
  ⟨Meets.mono fun s a => (hiff s a).mp, Meets.mono fun s a => (hiff s a).mpr⟩

/-- Two conditions at once. -/
theorem Meets.and {s : σ} {acts : List α} (hC : M.Meets C s acts) (hD : M.Meets D s acts) :
    M.Meets (fun s a => C s a ∧ D s a) s acts := by
  induction acts generalizing s with
  | nil => trivial
  | cons a acts ih => exact ⟨⟨hC.1, hD.1⟩, ih hC.2 hD.2⟩

/-! ### Invariants -/

/-- An invariant that every step meeting `C` preserves holds after every
    run that meets `C`. -/
theorem run_invariant
    (hstep : ∀ s a, Inv s → C s a → Inv (M.step s a))
    {s : σ} {acts : List α} (h0 : Inv s) (hmeets : M.Meets C s acts) :
    Inv (M.run s acts) := by
  induction acts generalizing s with
  | nil => exact h0
  | cons a acts ih => exact ih (hstep s a h0 hmeets.1) hmeets.2

/-- The same for an invariant that every step preserves. -/
theorem run_invariant_always
    (hstep : ∀ s a, Inv s → Inv (M.step s a))
    {s : σ} (acts : List α) (h0 : Inv s) : Inv (M.run s acts) := by
  induction acts generalizing s with
  | nil => exact h0
  | cons a acts ih => exact ih (hstep s a h0)

/-- Under an invariant the steps that meet `C` also have the property `D`. -/
theorem meets_of_invariant
    (hstep : ∀ s a, Inv s → C s a → Inv (M.step s a))
    (hD : ∀ s a, Inv s → C s a → D s a)
    {s : σ} {acts : List α} (h0 : Inv s) (hmeets : M.Meets C s acts) :
    M.Meets D s acts := by
  induction acts generalizing s with
  | nil => trivial
  | cons a acts ih =>
    exact ⟨hD s a h0 hmeets.1, ih (hstep s a h0 hmeets.1) hmeets.2⟩

/-- Two properties of a step that an invariant makes equivalent hold along
    the same runs. The invariant may depend on the property itself. -/
theorem meets_iff_of_guarded_invariant
    (hstep : ∀ s a, Inv s → C s a → Inv (M.step s a))
    (hiff : ∀ s a, Inv s → (C s a ↔ D s a))
    {s : σ} (h0 : Inv s) (acts : List α) : M.Meets C s acts ↔ M.Meets D s acts := by
  induction acts generalizing s with
  | nil => exact Iff.rfl
  | cons a acts ih =>
    constructor
    · intro ⟨hC, hrest⟩
      exact ⟨(hiff s a h0).mp hC, (ih (hstep s a h0 hC)).mp hrest⟩
    · intro ⟨hD, hrest⟩
      have hC : C s a := (hiff s a h0).mpr hD
      exact ⟨hC, (ih (hstep s a h0 hC)).mpr hrest⟩

/-- The same for an invariant that every step preserves. -/
theorem meets_iff_of_invariant
    (hstep : ∀ s a, Inv s → Inv (M.step s a))
    (hiff : ∀ s a, Inv s → (C s a ↔ D s a))
    {s : σ} (h0 : Inv s) (acts : List α) : M.Meets C s acts ↔ M.Meets D s acts :=
  meets_iff_of_guarded_invariant (fun s a h _ => hstep s a h) hiff h0 acts

/-! ### Simulations -/

/-- If every step is related to a run of another machine, then so is every
    run. -/
theorem run_simulation {τ β : Type*} {N : Machine τ β} {R : σ → τ → Prop} {act : α → List β}
    (hstep : ∀ s a t, R s t → R (M.step s a) (N.run t (act a)))
    {s : σ} {t : τ} (h : R s t) (acts : List α) :
    R (M.run s acts) (N.run t (acts.flatMap act)) := by
  induction acts generalizing s t with
  | nil => exact h
  | cons a acts ih =>
    rw [List.flatMap_cons, run_append]
    exact ih (hstep s a t h)

/-! ### History variables -/

variable (M)

/-- The machine `M` together with an observer that updates a history at
    each step from the state before the step and the action. -/
def withHistory (observe : ω → σ → α → ω) : Machine (σ × ω) α where
  step p a := (M.step p.1 a, observe p.2 p.1 a)

@[simp] theorem withHistory_step (observe : ω → σ → α → ω) (p : σ × ω) (a : α) :
    (M.withHistory observe).step p a = (M.step p.1 a, observe p.2 p.1 a) := rfl

end Machine

end FmSdrTuner
