import FmSdrTuner.Framework.KeepNewest

/-! # Block copies into and out of a ring

    A ring that is filled and emptied with block copies copies as much as
    fits before the end of its array, wraps around, and goes on until
    nothing is left.

    * `copyIn`, `copyOut`: the two copying loops;
    * `copyIn_eq`, `copyOut_eq`: they do what moving the elements one by
      one does. -/

namespace FmSdrTuner

namespace CountedRing

variable {α : Type*}

/-- Copy `xs` to the write position, in pieces that end with the array.
    The first argument bounds the number of pieces. -/
def copyIn : Nat → CountedRing α → List α → CountedRing α
  | 0, r, _ => r
  | pieces + 1, r, xs =>
      if xs.length = 0 then r
      else
        let chunk := min xs.length (r.capacity - r.writePos)
        copyIn pieces
          { r with
            slots := writeCells r.slots r.writePos (xs.take chunk)
            writePos := (r.writePos + chunk) % r.capacity }
          (xs.drop chunk)

/-- Copy `remaining` elements from `readPos` on to `dst`, from its index
    `dstOffset` on. Returns the read position behind them as well. -/
def copyOut (r : CountedRing α) : Nat → Nat → Nat → (Nat → α) → Nat → (Nat → α) × Nat
  | 0, readPos, _, dst, _ => (dst, readPos)
  | pieces + 1, readPos, remaining, dst, dstOffset =>
      if remaining = 0 then (dst, readPos)
      else
        let chunk := min remaining (r.capacity - readPos)
        copyOut r pieces ((readPos + chunk) % r.capacity) (remaining - chunk)
          (writeCells dst dstOffset (cells (fun i => r.slots (readPos + i)) chunk))
          (dstOffset + chunk)

/-! ### Into the ring -/

/-- One piece, written element by element. -/
theorem writeAll_eq_writeCells {r : CountedRing α} {xs : List α} (hpos : r.writePos < r.capacity)
    (hfits : r.writePos + xs.length ≤ r.capacity) :
    r.writeAll xs = { r with
      slots := writeCells r.slots r.writePos xs
      writePos := (r.writePos + xs.length) % r.capacity } := by
  induction xs generalizing r with
  | nil =>
    rw [writeCells_nil, List.length_nil, Nat.add_zero, Nat.mod_eq_of_lt hpos]
    rfl
  | cons x xs ih =>
    rw [List.length_cons] at hfits
    rw [writeCells_cons]
    show (r.write x).writeAll xs = _
    rcases Nat.lt_or_ge (r.writePos + 1) r.capacity with hlt | hge
    · have hnext : (r.write x).writePos = r.writePos + 1 := Nat.mod_eq_of_lt hlt
      rw [ih (by rw [hnext]; exact hlt) (by rw [hnext]; show _ ≤ r.capacity; omega), hnext,
        List.length_cons, show r.writePos + (xs.length + 1) = r.writePos + 1 + xs.length by omega]
      rfl
    · -- the last slot of the array
      obtain rfl : xs = [] := List.length_eq_zero_iff.mp (by omega)
      rw [writeCells_nil]
      rfl

/-- As many pieces as there are elements are enough. -/
theorem copyIn_eq {pieces : Nat} {r : CountedRing α} {xs : List α}
    (hpos : r.writePos < r.capacity) (hpieces : xs.length ≤ pieces) :
    r.copyIn pieces xs = r.writeAll xs := by
  induction pieces generalizing r xs with
  | zero =>
    obtain rfl : xs = [] := List.length_eq_zero_iff.mp (by omega)
    rfl
  | succ pieces ih =>
    unfold copyIn
    split
    · next hnone =>
      obtain rfl : xs = [] := List.length_eq_zero_iff.mp hnone
      rfl
    · next hsome =>
      simp only
      generalize hchunk : min xs.length (r.capacity - r.writePos) = chunk
      have htake : (xs.take chunk).length = chunk := by
        rw [List.length_take]
        omega
      have hpiece := writeAll_eq_writeCells hpos
        (show r.writePos + (xs.take chunk).length ≤ r.capacity by omega)
      rw [htake] at hpiece
      rw [← hpiece, ih]
      · -- the piece and the rest
        show ((xs.drop chunk).foldl write ((xs.take chunk).foldl write r)) = xs.foldl write r
        rw [← List.foldl_append, List.take_append_drop]
      · rw [hpiece]
        exact Nat.mod_lt _ (by omega)
      · rw [List.length_drop]
        omega

/-! ### Out of the ring -/

/-- As many pieces as there are elements are enough. -/
theorem copyOut_eq {pieces : Nat} (r : CountedRing α) {readPos remaining : Nat} (dst : Nat → α)
    (dstOffset : Nat) (hpos : readPos < r.capacity) (hpieces : remaining ≤ pieces) :
    r.copyOut pieces readPos remaining dst dstOffset =
      (writeCells dst dstOffset (ringCells r.capacity r.slots readPos remaining),
        (readPos + remaining) % r.capacity) := by
  induction pieces generalizing readPos remaining dst dstOffset with
  | zero =>
    obtain rfl : remaining = 0 := by omega
    rw [Nat.add_zero, Nat.mod_eq_of_lt hpos]
    exact Prod.ext (writeCells_nil dst dstOffset).symm rfl
  | succ pieces ih =>
    unfold copyOut
    split
    · next hnone =>
      subst hnone
      rw [Nat.add_zero, Nat.mod_eq_of_lt hpos]
      exact Prod.ext (writeCells_nil dst dstOffset).symm rfl
    · next hsome =>
      simp only
      generalize hchunk : min remaining (r.capacity - readPos) = chunk
      -- the piece does not wrap around
      have hpiece : cells (fun i => r.slots (readPos + i)) chunk =
          ringCells r.capacity r.slots readPos chunk := by
        refine cells_congr fun i hi => ?_
        rw [Nat.mod_eq_of_lt (by omega)]
      have hsplit : ringCells r.capacity r.slots readPos remaining =
          ringCells r.capacity r.slots readPos chunk ++
            ringCells r.capacity r.slots ((readPos + chunk) % r.capacity) (remaining - chunk) := by
        rw [ringCells_advance]
        conv_lhs => rw [show remaining = chunk + (remaining - chunk) by omega]
        exact cells_add _ chunk _
      have hlength : (ringCells r.capacity r.slots readPos chunk).length = chunk :=
        length_cells _ _
      rw [ih _ _ (Nat.mod_lt _ (by omega)) (by omega), hpiece, hsplit, ← writeCells_append, hlength,
        Nat.mod_add_mod, show readPos + chunk + (remaining - chunk) = readPos + remaining by omega]

end CountedRing

end FmSdrTuner
