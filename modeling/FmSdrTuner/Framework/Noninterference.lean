import FmSdrTuner.Framework.Machine

/-! # Traces and noninterference

    What a machine puts out along a run, and three rules about it:

    * `Bisimulation.trace_eq`: states that a bisimulation relates put out
      the same along every run;
    * `Unwinding.run`: if hidden actions keep two states alike, and visible
      ones do when both states take them, then two runs with the same
      visible actions end in states alike;
    * `trace_after_isolation`: if an action makes states alike bisimilar,
      nothing of the hidden actions before it is seen after it. -/

namespace FmSdrTuner

namespace Machine

variable {σ α β : Type*} {M : Machine σ α} {out : σ → α → β}

/-- The outputs along a run. -/
def trace (M : Machine σ α) (out : σ → α → β) : σ → List α → List β
  | _, [] => []
  | s, a :: acts => out s a :: trace M out (M.step s a) acts

@[simp] theorem trace_nil (s : σ) : M.trace out s [] = [] := rfl

@[simp] theorem trace_cons (s : σ) (a : α) (acts : List α) :
    M.trace out s (a :: acts) = out s a :: M.trace out (M.step s a) acts := rfl

/-! ### Bisimulation -/

/-- States alike put out the same and stay alike, for the actions that are
    allowed. -/
structure Bisimulation (M : Machine σ α) (out : σ → α → β) (allowed : α → Prop)
    (R : σ → σ → Prop) : Prop where
  step : ∀ s t a, allowed a → R s t → R (M.step s a) (M.step t a)
  out : ∀ s t a, allowed a → R s t → out s a = out t a

theorem Bisimulation.trace_eq {allowed : α → Prop} {R : σ → σ → Prop}
    (h : M.Bisimulation out allowed R) {s t : σ} (hst : R s t) {acts : List α}
    (hacts : ∀ a ∈ acts, allowed a) : M.trace out s acts = M.trace out t acts := by
  induction acts generalizing s t with
  | nil => rfl
  | cons a acts ih =>
    obtain ⟨ha, hrest⟩ := List.forall_mem_cons.mp hacts
    rw [trace_cons, trace_cons, h.out s t a ha hst, ih (h.step s t a ha hst) hrest]

/-! ### Noninterference -/

/-- Hidden actions on either side keep states alike, visible ones on both. -/
structure Unwinding (M : Machine σ α) (visible : α → Bool) (A : σ → σ → Prop) : Prop where
  left : ∀ s t a, visible a = false → A s t → A (M.step s a) t
  right : ∀ s t a, visible a = false → A s t → A s (M.step t a)
  both : ∀ s t a, visible a = true → A s t → A (M.step s a) (M.step t a)

variable {visible : α → Bool} {A : σ → σ → Prop}

/-- Actions none of which is visible. -/
theorem Unwinding.right_run (h : M.Unwinding visible A) {s t : σ} (hst : A s t) {acts : List α}
    (hidden : acts.filter visible = []) : A s (M.run t acts) := by
  induction acts generalizing t with
  | nil => exact hst
  | cons a acts ih =>
    rw [List.filter_eq_nil_iff, List.forall_mem_cons] at hidden
    obtain ⟨ha, hacts⟩ := hidden
    exact ih (h.right s t a (by simpa using ha) hst) (List.filter_eq_nil_iff.mpr hacts)

/-- The actions up to the first visible one. -/
theorem filter_eq_cons {acts : List α} {a : α} {rest : List α}
    (h : acts.filter visible = a :: rest) :
    ∃ hidden acts', acts = hidden ++ a :: acts' ∧ hidden.filter visible = [] ∧
      acts'.filter visible = rest ∧ visible a = true := by
  obtain ⟨hidden, acts', rfl, hno, ha, hrest⟩ := List.filter_eq_cons_iff.mp h
  refine ⟨hidden, acts', rfl, List.filter_eq_nil_iff.mpr hno, hrest, ha⟩

/-- Two runs with the same visible actions. -/
theorem Unwinding.run (h : M.Unwinding visible A) {s t : σ} (hst : A s t) {acts acts' : List α}
    (hsame : acts.filter visible = acts'.filter visible) :
    A (M.run s acts) (M.run t acts') := by
  induction acts generalizing s t acts' with
  | nil => exact h.right_run hst hsame.symm
  | cons a acts ih =>
    cases ha : visible a with
    | false =>
      rw [List.filter_cons_of_neg (by simp [ha])] at hsame
      exact ih (h.left s t a ha hst) hsame
    | true =>
      rw [List.filter_cons_of_pos ha] at hsame
      -- the other run gets to the same action
      obtain ⟨hidden, rest, rfl, hno, hrest, -⟩ := filter_eq_cons hsame.symm
      rw [run_append, run_cons, run_cons]
      exact ih (h.both s _ a ha (h.right_run hst hno)) hrest.symm

/-- Of what was hidden before the action `cut`, nothing is seen after it. -/
theorem trace_after_isolation {allowed : α → Prop} {R : σ → σ → Prop}
    (hunwind : M.Unwinding visible A) (hbisim : M.Bisimulation out allowed R) {cut : α}
    (hcut : ∀ s t, A s t → R (M.step s cut) (M.step t cut)) {s : σ} (hs : A s s)
    {acts acts' : List α} (hsame : acts.filter visible = acts'.filter visible)
    {later : List α} (hlater : ∀ a ∈ later, allowed a) :
    M.trace out (M.run s (acts ++ [cut])) later = M.trace out (M.run s (acts' ++ [cut])) later := by
  rw [run_append, run_append, run_cons, run_cons, run_nil, run_nil]
  exact hbisim.trace_eq (hcut _ _ (hunwind.run hs hsame)) hlater

end Machine

end FmSdrTuner
