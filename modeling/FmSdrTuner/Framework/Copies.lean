import Mathlib.Data.List.Basic

/-! # A value kept twice

    Two copies of one value, each with writes of its own. Writers issue
    lists of writes that are carried out one by one, so the copies may
    differ while a list is under way; what counts is what they settle to.

    * `settle`: the value of a copy behind a list of writes;
    * `Matched`: a list that leaves two equal copies equal;
    * `SettleEqual`: two copies that will be equal once the writes under way are
      carried out. A writer that uses matched lists keeps copies in step;
      one that writes a single copy does if it writes what the other copy
      settles to, or if it is overtaken anyway. -/

namespace FmSdrTuner

variable {ω α : Type*}

/-! ### One copy -/

/-- The value of a copy after some writes; `f` says what a write stores in
    it, if anything. -/
def settle (f : ω → Option α) (v : α) (ws : List ω) : α :=
  ws.foldl (fun v w => (f w).getD v) v

variable {f g : ω → Option α}

@[simp] theorem settle_nil (v : α) : settle f v [] = v := rfl

@[simp] theorem settle_cons (v : α) (w : ω) (ws : List ω) :
    settle f v (w :: ws) = settle f ((f w).getD v) ws := rfl

/-- Is the copy written at all? -/
def overwrites (f : ω → Option α) (ws : List ω) : Bool := ws.any fun w => (f w).isSome

/-- What is overwritten does not matter. -/
theorem settle_of_overwrites {ws : List ω} (h : overwrites f ws = true) (v v' : α) :
    settle f v ws = settle f v' ws := by
  induction ws generalizing v v' with
  | nil => cases h
  | cons w ws ih =>
    rw [settle_cons, settle_cons]
    cases hw : f w with
    | some u => rfl
    | none =>
      unfold overwrites at h ih
      rw [List.any_cons, hw, Option.isSome_none, Bool.false_or] at h
      exact ih h _ _

theorem settle_of_untouched {ws : List ω} (h : overwrites f ws = false) (v : α) :
    settle f v ws = v := by
  induction ws generalizing v with
  | nil => rfl
  | cons w ws ih =>
    unfold overwrites at h ih
    rw [List.any_cons, Bool.or_eq_false_iff, Option.isSome_eq_false_iff,
      Option.isNone_iff_eq_none] at h
    rw [settle_cons, h.1, Option.getD_none]
    exact ih h.2 v

/-- Writes of the value that is there. -/
theorem settle_of_forall {ws : List ω} {v : α} (h : ∀ w ∈ ws, ∀ u, f w = some u → u = v) :
    settle f v ws = v := by
  induction ws with
  | nil => rfl
  | cons w ws ih =>
    have hw : (f w).getD v = v := by
      cases hf : f w with
      | none => rfl
      | some u => exact h w List.mem_cons_self u hf
    rw [settle_cons, hw]
    exact ih fun w' hw' => h w' (List.mem_cons_of_mem _ hw')

/-! ### Two copies -/

/-- A list of writes that leaves equal copies equal. -/
def Matched (f g : ω → Option α) (ws : List ω) : Prop := ∀ v, settle f v ws = settle g v ws

theorem Matched.of_untouched {ws : List ω} (hf : overwrites f ws = false)
    (hg : overwrites g ws = false) : Matched f g ws := by
  intro v
  rw [settle_of_untouched hf, settle_of_untouched hg]

/-- Two copies that settle to the same value. -/
def SettleEqual (f g : ω → Option α) (a b : α) (ws : List ω) : Prop :=
  settle f a ws = settle g b ws

/-- One of the writes under way is carried out. -/
theorem SettleEqual.write {a b : α} {w : ω} {ws : List ω} (h : SettleEqual f g a b (w :: ws)) :
    SettleEqual f g ((f w).getD a) ((g w).getD b) ws := h

/-- A writer starts a matched list while none is under way. -/
theorem SettleEqual.enter {a b : α} {ws : List ω} (h : SettleEqual f g a b [])
    (hmatched : Matched f g ws) : SettleEqual f g a b ws := by
  obtain rfl : a = b := h
  exact hmatched a

/-- Another writer writes the second copy only. -/
theorem SettleEqual.foreign {a b : α} {ws others : List ω} (h : SettleEqual f g a b ws)
    (hothers : overwrites g ws = true ∨
      ∀ w ∈ others, ∀ u, g w = some u → u = settle f a ws) :
    SettleEqual f g a (settle g b others) ws := by
  unfold SettleEqual at h ⊢
  cases hover : overwrites g ws with
  | true =>
    rw [h]
    exact settle_of_overwrites hover b _
  | false =>
    have hsame : ∀ w ∈ others, ∀ u, g w = some u → u = settle f a ws := by
      rcases hothers with htrue | hsame
      · rw [hover] at htrue
        cases htrue
      · exact hsame
    have hb : b = settle f a ws := by
      rw [h]
      exact (settle_of_untouched hover b).symm
    rw [settle_of_untouched hover, hb]
    exact (settle_of_forall hsame).symm

end FmSdrTuner
