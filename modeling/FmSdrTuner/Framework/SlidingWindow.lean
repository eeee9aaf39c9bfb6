import Mathlib.Data.List.DropRight
import Mathlib.Data.List.Rotate

/-! # Sliding windows in rings

    A ring of `N` slots that is written one slot after the other keeps the
    last `N` values it was given. Its owner sees the slots in ring order
    and only those that were filled, so the refinement is up to the order:
    the filled slots are a permutation of the window.

    * `Ring.Holds`: what the ring remembers of everything it was given;
    * `Ring.Holds.push`: one more value;
    * `Ring.Holds.entries_perm`: the filled slots against the window. -/

namespace FmSdrTuner

/-- A ring of slots, the index that is written next and the number of
    slots that have been filled. -/
@[ext] structure Ring (α : Type*) where
  slots : List α
  next : Nat
  fill : Nat

namespace Ring
variable {α : Type*}

/-- Write the next slot. -/
def push (r : Ring α) (x : α) : Ring α where
  slots := r.slots.set r.next x
  next := (r.next + 1) % r.slots.length
  fill := min (r.fill + 1) r.slots.length

/-- The slots that have been filled, in ring order. -/
def entries (r : Ring α) : List α := r.slots.take r.fill

/-- The ring holds the last of the values in `given`, which has the newest
    at its end. -/
structure Holds (r : Ring α) (given : List α) : Prop where
  next_lt : r.next < r.slots.length
  fill_eq : r.fill = min given.length r.slots.length
  /-- Until the ring is full it is filled from its first slot on. -/
  filling : r.fill < r.slots.length → r.next = r.fill ∧ r.slots.take r.fill = given
  /-- Then the oldest value is the one that is overwritten next. -/
  full : r.fill = r.slots.length → r.slots.rotate r.next = given.rtake r.slots.length

/-- Overwriting the oldest value and moving on drops it from the front of
    the rotated ring and puts the new one at its end. -/
theorem rotate_set_next {slots : List α} {next : Nat} (h : next < slots.length) (x : α) :
    (slots.set next x).rotate ((next + 1) % slots.length) =
      (slots.rotate next).tail ++ [x] := by
  have hset : (slots.set next x).length = slots.length := List.length_set
  have hdrop : (slots.set next x).drop (next + 1) = slots.drop (next + 1) :=
    List.drop_set_of_lt (by omega)
  have htake : (slots.set next x).take (next + 1) = slots.take next ++ [x] := by
    rw [List.take_succ_eq_append_getElem (by omega), List.take_set_of_le (by omega)]
    simp
  have htail : (slots.rotate next).tail = slots.drop (next + 1) ++ slots.take next := by
    rw [List.rotate_eq_drop_append_take h.le, List.tail_append_of_ne_nil (by simp; omega),
      List.tail_drop]
  rw [← hset, List.rotate_mod, List.rotate_eq_drop_append_take (by omega), hdrop, htake,
    htail, List.append_assoc]

namespace Holds
variable {r : Ring α} {given : List α}

/-- A ring with slots and nothing in them. -/
theorem empty {slots : List α} (h : slots ≠ []) : (Ring.mk slots 0 0).Holds [] where
  next_lt := List.length_pos_iff.mpr h
  fill_eq := by simp
  filling _ := ⟨rfl, rfl⟩
  full hfull := absurd hfull.symm (by simpa using h)

theorem push (h : r.Holds given) (x : α) : (r.push x).Holds (given ++ [x]) := by
  have hnext := h.next_lt
  have hlen : (r.push x).slots.length = r.slots.length := List.length_set
  have hfill : (r.push x).fill = min (r.fill + 1) r.slots.length := rfl
  have hold := h.fill_eq
  refine ⟨?_, ?_, ?_, ?_⟩
  · rw [hlen]
    exact Nat.mod_lt _ (by omega)
  · rw [hlen, hfill, List.length_append, List.length_singleton]
    omega
  · intro hlt
    rw [hlen, hfill] at hlt
    obtain ⟨hpos, htake⟩ := h.filling (by omega)
    have hnow : (r.push x).fill = r.fill + 1 := by rw [hfill]; omega
    -- still filling: the slots in use are what was given, in order
    constructor
    · rw [hnow, ← hpos]
      exact Nat.mod_eq_of_lt (by omega)
    · have hslots : (r.push x).slots = r.slots.set r.fill x := by rw [← hpos]; rfl
      rw [hnow, hslots, List.take_succ_eq_append_getElem (by simp; omega),
        List.take_set_of_le (by omega), htake]
      simp
  · intro hfull
    rw [hlen, hfill] at hfull
    rw [hlen]
    show (r.slots.set r.next x).rotate ((r.next + 1) % r.slots.length) = _
    rw [rotate_set_next hnext]
    by_cases hwas : r.fill = r.slots.length
    · -- the window moves on by one value
      have hwindow := h.full hwas
      have hlong : r.slots.length ≤ given.length := by omega
      rw [hwindow]
      simp only [List.rtake, List.length_append, List.length_singleton]
      rw [List.tail_drop, List.drop_append_of_le_length (by omega)]
      congr 2
      omega
    · -- the last slot is filled
      obtain ⟨hpos, htake⟩ := h.filling (by omega)
      have hlast : given.length + 1 = r.slots.length := by omega
      have hwindow : (given ++ [x]).rtake r.slots.length = given ++ [x] := by
        simp only [List.rtake, List.length_append, List.length_singleton, hlast, Nat.sub_self,
          List.drop_zero]
      rw [hwindow, List.rotate_eq_drop_append_take hnext.le,
        List.tail_append_of_ne_nil (by simp; omega), List.tail_drop, hpos,
        List.drop_eq_nil_of_le (by omega), List.nil_append, htake]

/-- The filled slots are the window, up to the order. -/
theorem entries_perm (h : r.Holds given) : r.entries.Perm (given.rtake r.slots.length) := by
  have hfill := h.fill_eq
  by_cases hfull : r.fill = r.slots.length
  · rw [← h.full hfull]
    unfold entries
    rw [hfull, List.take_length]
    exact (List.rotate_perm r.slots r.next).symm
  · have htake := (h.filling (by omega)).2
    have hwindow : given.rtake r.slots.length = given := by
      simp only [List.rtake, show given.length - r.slots.length = 0 by omega, List.drop_zero]
    rw [hwindow]
    unfold entries
    rw [htake]

end Holds

end Ring

end FmSdrTuner
