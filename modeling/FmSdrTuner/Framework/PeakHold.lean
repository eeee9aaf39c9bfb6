import Mathlib.Algebra.Order.Field.Basic
import Mathlib.Algebra.Order.Group.MinMax
import Mathlib.Tactic.Linarith
import Mathlib.Tactic.Ring

/-! # Peak references

    A reference that rises to its input at once and falls by at most `d` a
    step. Under a constant input it comes down to the input in a number of
    steps proportional to the distance; under inputs that stay below it, it
    falls by exactly `d` a step. -/

namespace FmSdrTuner

variable {F : Type*} [Field F] [LinearOrder F]

/-- The reference `r` after the input `x`. -/
def peakHold (d r x : F) : F := max x (r - d)

/-- The reference after a list of inputs. -/
def peakHoldRun (d r : F) (xs : List F) : F := xs.foldl (peakHold d) r

/-- Every input stays below the reference as it decays. -/
def StaysBelow (d : F) : F → List F → Prop
  | _, [] => True
  | r, x :: xs => x < r - d ∧ StaysBelow d (r - d) xs

variable {d r x : F}

/-- Inputs that stay below do not matter. -/
theorem peakHoldRun_of_staysBelow {xs : List F} (hxs : StaysBelow d r xs) :
    peakHoldRun d r xs = r - xs.length * d := by
  induction xs generalizing r with
  | nil => simp [peakHoldRun]
  | cons x xs ih =>
    obtain ⟨hx, hrest⟩ := hxs
    have hfirst : peakHold d r x = r - d := max_eq_right hx.le
    have hrun : peakHoldRun d r (x :: xs) = peakHoldRun d (peakHold d r x) xs := rfl
    rw [hrun, hfirst, ih hrest, List.length_cons]
    push_cast
    ring

variable [IsStrictOrderedRing F]

/-- A constant input is reached, or the reference falls all the way. -/
theorem peakHoldRun_replicate (hd : 0 ≤ d) (n : Nat) :
    peakHoldRun d r (List.replicate (n + 1) x) = max x (r - (n + 1) * d) := by
  induction n generalizing r with
  | zero => simp [peakHoldRun, peakHold]
  | succ n ih =>
    have hrun : peakHoldRun d r (List.replicate (n + 1 + 1) x) =
        peakHoldRun d (peakHold d r x) (List.replicate (n + 1) x) := rfl
    have hfirst : max x (r - d) - (n + 1) * d = max (x - (n + 1) * d) (r - (n + 1 + 1) * d) := by
      rw [← max_sub_sub_right]
      congr 1
      ring
    have hnonneg : 0 ≤ ((n : F) + 1) * d := mul_nonneg (by positivity) hd
    rw [hrun, ih, peakHold, hfirst, ← max_assoc, max_eq_left (a := x) (by linarith)]
    push_cast
    rfl

/-- After as many steps as the distance allows, the reference is the input. -/
theorem peakHoldRun_reaches (hd : 0 < d) {n : Nat} (hn : (r - x) / d ≤ n + 1) :
    peakHoldRun d r (List.replicate (n + 1) x) = x := by
  rw [peakHoldRun_replicate hd.le, max_eq_left]
  rw [div_le_iff₀ hd] at hn
  linarith

end FmSdrTuner
