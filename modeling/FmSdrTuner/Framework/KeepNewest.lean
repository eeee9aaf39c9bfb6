import Mathlib.Data.List.DropRight
import Mathlib.Data.Nat.ModEq
import Mathlib.Logic.Function.Basic
import FmSdrTuner.Framework.Cells
import FmSdrTuner.Framework.Machine

/-! # Queues that keep the newest

    A bounded queue between a producer that does not wait and a consumer
    that takes what there is: pushing onto a full queue drops from its
    front, so that the queue holds the newest of what it was given.

    * `KeepNewest`: the queue as a list, with what was popped;
    * `CountedRing`: a ring of slots with a read position, a write position
      and a count; `push_contents` and `pop_spec` are its two laws;
    * `FlagRing`: a ring without a count, where a flag tells full from
      empty; `counted_put` reduces it to the ring with a count. -/

namespace FmSdrTuner

variable {α : Type*}

/-! ### The queue as a list -/

/-- The queue from its oldest element on, and the blocks popped so far. -/
structure KeepNewest (α : Type*) where
  contents : List α
  popped : List (List α)

inductive QueueOp (α : Type*) where
  | push (xs : List α)
  | pop (max : Nat)
  | clear

/-- The queue of a given capacity. -/
def keepNewest (capacity : Nat) : Machine (KeepNewest α) (QueueOp α) where
  step q
    | .push xs => { q with contents := (q.contents ++ xs).rtake capacity }
    | .pop max => ⟨q.contents.drop max, q.popped ++ [q.contents.take max]⟩
    | .clear => { q with contents := [] }

theorem rtake_eq_self {xs : List α} {n : Nat} (h : xs.length ≤ n) : xs.rtake n = xs := by
  rw [List.rtake, Nat.sub_eq_zero_of_le h]
  rfl

theorem length_rtake_le (xs : List α) (n : Nat) : (xs.rtake n).length ≤ n := by
  rw [List.rtake, List.length_drop]
  omega

/-- What is pushed in two parts is pushed at once. -/
theorem rtake_append_rtake (xs ys : List α) (n : Nat) :
    (xs.rtake n ++ ys).rtake n = (xs ++ ys).rtake n := by
  unfold List.rtake
  have h : xs.length - n ≤ xs.length := Nat.sub_le _ _
  rw [← List.drop_append_of_le_length h, List.drop_drop]
  congr 1
  simp only [List.length_append, List.length_drop]
  omega

/-- The newest of a queue and of what is pushed onto it: the oldest of the
    queue give way, and of too long an input only its end is kept. -/
theorem rtake_append (xs ys : List α) (n : Nat) :
    (xs ++ ys).rtake n =
      xs.drop (xs.length + (ys.rtake n).length - n) ++ ys.rtake n := by
  unfold List.rtake
  rw [List.drop_append]
  congr 1
  · rw [List.length_append, List.length_drop]
    rcases Nat.le_total ys.length n with h | h
    · congr 1
      omega
    · -- nothing of the queue is left
      rw [List.drop_of_length_le (by omega), List.drop_of_length_le (by omega)]
  · congr 1
    rw [List.length_append]
    omega

/-! ### Slots of a ring -/

/-- The `n` slots of a ring from the position `start` on. -/
def ringCells (capacity : Nat) (slots : Nat → α) (start n : Nat) : List α :=
  cells (fun i => slots ((start + i) % capacity)) n

/-- Offsets less than a whole turn apart are different slots. -/
theorem ringIndex_ne {capacity start i j : Nat} (hij : i < j) (hj : j < capacity) :
    (start + i) % capacity ≠ (start + j) % capacity := by
  intro h
  have hmod : i ≡ j [MOD capacity] := Nat.ModEq.add_left_cancel' start h
  have heq : i = j := hmod.eq_of_lt_of_lt (by omega) hj
  omega

theorem ringCells_succ (capacity : Nat) (slots : Nat → α) (start n : Nat) :
    ringCells capacity slots start (n + 1) =
      ringCells capacity slots start n ++ [slots ((start + n) % capacity)] :=
  cells_succ _ n

/-- From the position `k` slots further on. -/
theorem ringCells_advance (capacity : Nat) (slots : Nat → α) (start k n : Nat) :
    ringCells capacity slots ((start + k) % capacity) n =
      cells (fun i => slots ((start + (k + i)) % capacity)) n := by
  refine cells_congr fun i _ => ?_
  rw [Nat.mod_add_mod, Nat.add_assoc]

theorem drop_ringCells {capacity start n k : Nat} (slots : Nat → α) (h : k ≤ n) :
    (ringCells capacity slots start n).drop k =
      ringCells capacity slots ((start + k) % capacity) (n - k) := by
  rw [ringCells_advance]
  exact drop_cells _ h

theorem take_ringCells (capacity : Nat) (slots : Nat → α) (start n k : Nat) :
    (ringCells capacity slots start n).take k = ringCells capacity slots start (min k n) :=
  take_cells _ n k

/-- Writing the slot behind the last one read changes none of them. -/
theorem ringCells_update {capacity start n : Nat} (slots : Nat → α) (x : α) (h : n < capacity) :
    ringCells capacity (Function.update slots ((start + n) % capacity) x) start n =
      ringCells capacity slots start n := by
  refine cells_congr fun i hi => ?_
  exact Function.update_of_ne (ringIndex_ne hi h) _ _

/-! ### A ring with a count -/

structure CountedRing (α : Type*) where
  capacity : Nat
  slots : Nat → α
  readPos : Nat
  writePos : Nat
  size : Nat

namespace CountedRing

/-- What the ring holds, from its oldest element on. -/
def contents (r : CountedRing α) : List α := ringCells r.capacity r.slots r.readPos r.size

/-- The write position is `size` slots ahead of the read position. -/
structure Layout (r : CountedRing α) : Prop where
  readPos_lt : r.readPos < r.capacity
  writePos_eq : r.writePos = (r.readPos + r.size) % r.capacity
  size_le : r.size ≤ r.capacity

def clear (r : CountedRing α) : CountedRing α := { r with readPos := 0, writePos := 0, size := 0 }

/-- Drop as many of the oldest elements as `kept` new ones need room. -/
def makeRoom (r : CountedRing α) (kept : Nat) : CountedRing α :=
  if r.capacity < r.size + kept then
    let drop := min (r.size + kept - r.capacity) r.size
    { r with readPos := (r.readPos + drop) % r.capacity, size := r.size - drop }
  else r

/-- Write a slot and move on; the count is adjusted afterwards. -/
def write (r : CountedRing α) (x : α) : CountedRing α :=
  { r with
    slots := Function.update r.slots r.writePos x
    writePos := (r.writePos + 1) % r.capacity }

def writeAll (r : CountedRing α) (xs : List α) : CountedRing α := xs.foldl write r

def grow (r : CountedRing α) (n : Nat) : CountedRing α := { r with size := r.size + n }

/-- Make room for `kept`, write it, and count it. -/
def append (r : CountedRing α) (kept : List α) : CountedRing α :=
  ((r.makeRoom kept.length).writeAll kept).grow kept.length

/-- Push `xs`, of which no more than the capacity is looked at. -/
def push (r : CountedRing α) (xs : List α) : CountedRing α :=
  let start := if r.capacity ≤ xs.length then xs.length - r.capacity else 0
  r.append (xs.drop start)

/-- Read `n` slots, moving the read position on. -/
def readMany : Nat → CountedRing α → List α × CountedRing α
  | 0, r => ([], r)
  | n + 1, r =>
      let rest := readMany n { r with readPos := (r.readPos + 1) % r.capacity }
      (r.slots r.readPos :: rest.1, rest.2)

/-- Pop up to `max` elements. -/
def pop (r : CountedRing α) (max : Nat) : List α × CountedRing α :=
  let toRead := min max r.size
  let read := r.readMany toRead
  (read.1, { read.2 with size := read.2.size - toRead })

theorem length_contents (r : CountedRing α) : r.contents.length = r.size := length_cells _ _

theorem Layout.clear {r : CountedRing α} (h : 0 < r.capacity) : r.clear.Layout :=
  ⟨h, by simp [CountedRing.clear], Nat.zero_le _⟩

theorem Layout.makeRoom {r : CountedRing α} (h : r.Layout) (kept : Nat) :
    (r.makeRoom kept).Layout ∧
      (r.makeRoom kept).contents = r.contents.drop (r.size + kept - r.capacity) := by
  have hsize := h.size_le
  have hread := h.readPos_lt
  unfold CountedRing.makeRoom
  split
  · next hfull =>
    simp only
    generalize hdrop : min (r.size + kept - r.capacity) r.size = drop
    have hle : drop ≤ r.size := by omega
    constructor
    · constructor
      · exact Nat.mod_lt _ (by omega)
      · show r.writePos = ((r.readPos + drop) % r.capacity + (r.size - drop)) % r.capacity
        rw [Nat.mod_add_mod, h.writePos_eq, show r.readPos + drop + (r.size - drop) =
          r.readPos + r.size by omega]
      · show r.size - drop ≤ r.capacity
        omega
    · show ringCells r.capacity r.slots ((r.readPos + drop) % r.capacity) (r.size - drop) = _
      rw [← drop_ringCells r.slots hle]
      -- both drop everything, or the same number
      rcases Nat.le_total (r.size + kept - r.capacity) r.size with hcase | hcase
      · rw [show drop = r.size + kept - r.capacity by omega]
        rfl
      · have hall : r.contents.drop (r.size + kept - r.capacity) = [] :=
          List.drop_of_length_le (by rw [r.length_contents]; omega)
        rw [hall, show drop = r.size by omega]
        exact List.drop_of_length_le (by rw [ringCells, length_cells])
  · next hroom =>
    rw [show r.size + kept - r.capacity = 0 by omega]
    exact ⟨h, rfl⟩

/-- Counting after all writes is counting after each. -/
theorem grow_writeAll_cons (r : CountedRing α) (x : α) (xs : List α) :
    (r.writeAll (x :: xs)).grow (xs.length + 1) =
      (((r.write x).grow 1).writeAll xs).grow xs.length := by
  have hgrow : ∀ (r : CountedRing α) (n : Nat),
      (r.grow n).writeAll xs = (r.writeAll xs).grow n := by
    induction xs with
    | nil => exact fun _ _ => rfl
    | cons y ys ih => exact fun r n => ih (r.write y) n
  rw [hgrow]
  show (_ : CountedRing α) = _
  simp only [grow, writeAll, List.foldl_cons]
  congr 1
  omega

theorem Layout.write {r : CountedRing α} (h : r.Layout) (x : α) (hroom : r.size < r.capacity) :
    ((r.write x).grow 1).Layout ∧ ((r.write x).grow 1).contents = r.contents ++ [x] := by
  constructor
  · constructor
    · exact h.readPos_lt
    · show (r.writePos + 1) % r.capacity = (r.readPos + (r.size + 1)) % r.capacity
      rw [h.writePos_eq, Nat.mod_add_mod, Nat.add_assoc]
    · exact hroom
  · show ringCells r.capacity (Function.update r.slots r.writePos x) r.readPos (r.size + 1) = _
    rw [h.writePos_eq, ringCells_succ, ringCells_update r.slots x hroom,
      Function.update_self]
    rfl

theorem Layout.writeAll {r : CountedRing α} (h : r.Layout) {xs : List α}
    (hroom : r.size + xs.length ≤ r.capacity) :
    ((r.writeAll xs).grow xs.length).Layout ∧
      ((r.writeAll xs).grow xs.length).contents = r.contents ++ xs := by
  induction xs generalizing r with
  | nil => exact ⟨h, (List.append_nil _).symm⟩
  | cons x xs ih =>
    rw [List.length_cons] at hroom
    have hone := h.write x (by omega)
    have hrest := ih hone.1 (by show r.size + 1 + xs.length ≤ r.capacity; omega)
    rw [List.length_cons, grow_writeAll_cons]
    refine ⟨hrest.1, ?_⟩
    rw [hrest.2, hone.2, List.append_assoc]
    rfl

theorem makeRoom_capacity (r : CountedRing α) (kept : Nat) :
    (r.makeRoom kept).capacity = r.capacity := by
  unfold makeRoom
  split <;> rfl

theorem writeAll_capacity (r : CountedRing α) (xs : List α) :
    (r.writeAll xs).capacity = r.capacity := by
  induction xs generalizing r with
  | nil => rfl
  | cons x xs ih => exact ih (r.write x)

/-- Pushing what fits the ring. -/
theorem Layout.append {r : CountedRing α} (h : r.Layout) {kept : List α}
    (hfits : kept.length ≤ r.capacity) :
    (r.append kept).Layout ∧
      (r.append kept).contents = r.contents.drop (r.size + kept.length - r.capacity) ++ kept := by
  obtain ⟨hlayout, hcontents⟩ := h.makeRoom kept.length
  have hsize : (r.makeRoom kept.length).size + kept.length ≤
      (r.makeRoom kept.length).capacity := by
    have hlength := congrArg List.length hcontents
    rw [length_contents, List.length_drop, length_contents] at hlength
    rw [makeRoom_capacity]
    have := h.size_le
    omega
  obtain ⟨hdone, happended⟩ := hlayout.writeAll hsize
  refine ⟨hdone, ?_⟩
  rw [← hcontents]
  exact happended

/-- The part of the input that is kept. -/
theorem drop_start_eq_rtake (xs : List α) (capacity : Nat) :
    xs.drop (if capacity ≤ xs.length then xs.length - capacity else 0) = xs.rtake capacity := by
  unfold List.rtake
  split
  · rfl
  · rw [show xs.length - capacity = 0 by omega]

/-- Pushing keeps the newest of what was held and what is pushed. -/
theorem Layout.push {r : CountedRing α} (h : r.Layout) (xs : List α) :
    (r.push xs).Layout ∧ (r.push xs).contents = (r.contents ++ xs).rtake r.capacity := by
  have hpush : r.push xs = r.append (xs.rtake r.capacity) := by
    rw [← drop_start_eq_rtake]
    rfl
  have happend := h.append (length_rtake_le xs r.capacity)
  rw [hpush, rtake_append, length_contents]
  exact happend

theorem readMany_eq {r : CountedRing α} (h : r.readPos < r.capacity) (n : Nat) :
    r.readMany n = (ringCells r.capacity r.slots r.readPos n,
      { r with readPos := (r.readPos + n) % r.capacity }) := by
  induction n generalizing r with
  | zero =>
    rw [Nat.add_zero, Nat.mod_eq_of_lt h]
    rfl
  | succ n ih =>
    have hpos : 0 < r.capacity := by omega
    have hfirst : ringCells r.capacity r.slots r.readPos (n + 1) =
        r.slots r.readPos ::
          ringCells r.capacity r.slots ((r.readPos + 1) % r.capacity) n := by
      rw [ringCells_advance, ringCells, Nat.add_comm n 1, cells_add]
      simp [cells, Nat.mod_eq_of_lt h]
    rw [readMany, ih (Nat.mod_lt _ hpos), hfirst]
    simp only [Nat.mod_add_mod]
    rw [Nat.add_assoc, Nat.add_comm 1 n]

/-- Popping returns the oldest elements and leaves the rest. -/
theorem Layout.pop {r : CountedRing α} (h : r.Layout) (max : Nat) :
    (r.pop max).2.Layout ∧ (r.pop max).1 = r.contents.take max ∧
      (r.pop max).2.contents = r.contents.drop max := by
  have hread := h.readPos_lt
  have hsize := h.size_le
  unfold CountedRing.pop
  simp only [readMany_eq hread]
  refine ⟨⟨?_, ?_, ?_⟩, ?_, ?_⟩
  · exact Nat.mod_lt _ (by omega)
  · show r.writePos = ((r.readPos + min max r.size) % r.capacity +
      (r.size - min max r.size)) % r.capacity
    rw [Nat.mod_add_mod, h.writePos_eq]
    congr 1
    omega
  · show r.size - min max r.size ≤ r.capacity
    omega
  · exact (take_ringCells r.capacity r.slots r.readPos r.size max).symm
  · show ringCells r.capacity r.slots ((r.readPos + min max r.size) % r.capacity)
      (r.size - min max r.size) = _
    rw [← drop_ringCells r.slots (Nat.min_le_right _ _)]
    rcases Nat.le_total max r.size with hcase | hcase
    · rw [Nat.min_eq_left hcase]
      rfl
    · rw [Nat.min_eq_right hcase, List.drop_of_length_le (by rw [ringCells, length_cells])]
      exact (List.drop_of_length_le (by rw [length_contents]; exact hcase)).symm

end CountedRing

/-! ### A ring with a flag -/

/-- Read and write position are equal in an empty and in a full ring; the
    flag tells them apart. -/
structure FlagRing (α : Type*) where
  capacity : Nat
  slots : Nat → α
  readPos : Nat
  writePos : Nat
  full : Bool

namespace FlagRing

/-- How many elements the ring holds. -/
def available (r : FlagRing α) : Nat :=
  if r.full then r.capacity else (r.writePos + r.capacity - r.readPos) % r.capacity

/-- The same ring with a count. -/
def counted (r : FlagRing α) : CountedRing α where
  capacity := r.capacity
  slots := r.slots
  readPos := r.readPos
  writePos := r.writePos
  size := r.available

/-- What the ring holds, from its oldest element on. -/
def contents (r : FlagRing α) : List α := r.counted.contents

structure Layout (r : FlagRing α) : Prop where
  readPos_lt : r.readPos < r.capacity
  writePos_lt : r.writePos < r.capacity
  full_eq : r.full = true → r.writePos = r.readPos

/-- Write one element; a full ring gives up its oldest. -/
def put (r : FlagRing α) (x : α) : FlagRing α :=
  let writePos := (r.writePos + 1) % r.capacity
  let readPos := if r.full then (r.readPos + 1) % r.capacity else r.readPos
  { r with
    slots := Function.update r.slots r.writePos x
    readPos := readPos
    writePos := writePos
    full := decide (writePos = readPos) }

/-- Move the read position on by `n` elements. -/
def advance (r : FlagRing α) (n : Nat) : FlagRing α :=
  { r with
    readPos := (r.readPos + n) % r.capacity
    full := r.full && decide (n = 0) }

theorem length_contents (r : FlagRing α) : r.contents.length = r.available :=
  r.counted.length_contents

/-- The count, when it is known how far the write position is ahead. -/
theorem available_eq {r : FlagRing α} (hfull : r.full = false) (hread : r.readPos < r.capacity)
    {n : Nat} (hn : n < r.capacity) (h : r.writePos = (r.readPos + n) % r.capacity) :
    r.available = n := by
  have hcases : r.available = (r.writePos + r.capacity - r.readPos) % r.capacity := by
    simp [available, hfull]
  rw [hcases, h]
  rcases Nat.lt_or_ge (r.readPos + n) r.capacity with hlt | hge
  · rw [Nat.mod_eq_of_lt hlt, show r.readPos + n + r.capacity - r.readPos = n + r.capacity by omega,
      Nat.add_mod_right, Nat.mod_eq_of_lt hn]
  · -- the write position has wrapped around
    have hwrap : (r.readPos + n) % r.capacity = r.readPos + n - r.capacity := by
      rw [Nat.mod_eq_sub_mod hge, Nat.mod_eq_of_lt (by omega)]
    rw [hwrap, show r.readPos + n - r.capacity + r.capacity - r.readPos = n by omega,
      Nat.mod_eq_of_lt hn]

theorem Layout.available_le {r : FlagRing α} (h : r.Layout) : r.available ≤ r.capacity := by
  have hpos : 0 < r.capacity := by
    have := h.readPos_lt
    omega
  unfold available
  split
  · exact Nat.le_refl _
  · exact (Nat.mod_lt _ hpos).le

theorem Layout.counted {r : FlagRing α} (h : r.Layout) : r.counted.Layout := by
  have hread := h.readPos_lt
  have hwrite := h.writePos_lt
  refine ⟨hread, ?_, h.available_le⟩
  show r.writePos = (r.readPos + r.available) % r.capacity
  unfold available
  split
  · next hfull => rw [h.full_eq hfull, Nat.add_mod_right, Nat.mod_eq_of_lt hread]
  · rw [Nat.add_mod_mod, show r.readPos + (r.writePos + r.capacity - r.readPos) =
      r.writePos + r.capacity by omega, Nat.add_mod_right, Nat.mod_eq_of_lt hwrite]

theorem Layout.put {r : FlagRing α} (h : r.Layout) (x : α) : (r.put x).Layout := by
  have hpos : 0 < r.capacity := by
    have := h.readPos_lt
    omega
  refine ⟨?_, Nat.mod_lt _ hpos, of_decide_eq_true⟩
  show (if r.full then (r.readPos + 1) % r.capacity else r.readPos) < r.capacity
  split
  · exact Nat.mod_lt _ hpos
  · exact h.readPos_lt

theorem writePos_put {r : FlagRing α} (h : r.Layout) (x : α) :
    (r.put x).writePos = (r.readPos + (r.available + 1)) % r.capacity := by
  have hwrite : r.writePos = (r.readPos + r.available) % r.capacity := h.counted.writePos_eq
  show (r.writePos + 1) % r.capacity = _
  rw [hwrite, Nat.mod_add_mod, Nat.add_assoc]

/-- A ring that is not full holds one element more. -/
theorem available_put {r : FlagRing α} (h : r.Layout) (x : α) (hfull : r.full = false) :
    (r.put x).available = r.available + 1 := by
  have hread := h.readPos_lt
  have hnext := writePos_put h x
  have hreadPos : (r.put x).readPos = r.readPos := by simp [FlagRing.put, hfull]
  have hlt : r.available < r.capacity := by
    have hpos : 0 < r.capacity := by omega
    simp only [available, hfull]
    exact Nat.mod_lt _ hpos
  rcases Nat.lt_or_ge (r.available + 1) r.capacity with hcase | hcase
  · refine available_eq ?_ ?_ hcase ?_
    · -- the write position has not caught up
      have hne : (r.readPos + 0) % r.capacity ≠ (r.readPos + (r.available + 1)) % r.capacity :=
        ringIndex_ne (Nat.succ_pos r.available) hcase
      rw [Nat.add_zero, Nat.mod_eq_of_lt hread] at hne
      show decide ((r.put x).writePos = (r.put x).readPos) = false
      rw [hnext, hreadPos]
      exact decide_eq_false hne.symm
    · rw [hreadPos]
      exact hread
    · rw [hreadPos]
      exact hnext
  · have heq : r.available + 1 = r.capacity := by omega
    have hfullNow : (r.put x).full = true := by
      show decide ((r.put x).writePos = (r.put x).readPos) = true
      rw [hnext, hreadPos, heq, Nat.add_mod_right, Nat.mod_eq_of_lt hread]
      exact decide_eq_true rfl
    rw [heq]
    unfold available
    exact if_pos hfullNow

/-- A full ring stays full: both positions move on together. -/
theorem available_put_of_full {r : FlagRing α} (h : r.Layout) (x : α) (hfull : r.full = true) :
    (r.put x).available = r.capacity := by
  have hsame := h.full_eq hfull
  simp [available, FlagRing.put, hfull, hsame]

/-- In terms of the count, putting an element is pushing it. -/
theorem counted_put {r : FlagRing α} (h : r.Layout) (x : α) :
    (r.put x).counted = r.counted.push [x] := by
  have hread := h.readPos_lt
  have hle := h.available_le
  have hpush : r.counted.push [x] = r.counted.append [x] := by
    have hstart : (if r.capacity ≤ 1 then 1 - r.capacity else 0) = 0 := by
      split <;> omega
    show r.counted.append ([x].drop (if r.capacity ≤ 1 then 1 - r.capacity else 0)) = _
    rw [hstart]
    rfl
  rw [hpush]
  show _ = ((r.counted.makeRoom 1).write x).grow 1
  cases hfull : r.full with
  | true =>
    have havail : r.available = r.capacity := by simp [available, hfull]
    have hroom : r.counted.makeRoom 1 = { r.counted with
        readPos := (r.readPos + 1) % r.capacity, size := r.capacity - 1 } := by
      unfold CountedRing.makeRoom
      simp only [FlagRing.counted, havail]
      rw [if_pos (by omega), show min (r.capacity + 1 - r.capacity) r.capacity = 1 by omega]
    rw [hroom]
    simp only [FlagRing.counted, CountedRing.write, CountedRing.grow,
      available_put_of_full h x hfull]
    rw [show r.capacity - 1 + 1 = r.capacity by omega]
    simp [FlagRing.put, hfull]
  | false =>
    have hput := available_put h x hfull
    -- there is room: what is held after it fits
    have hcapacity : (r.put x).capacity = r.capacity := by simp [FlagRing.put]
    have hafter : (r.put x).available ≤ (r.put x).capacity := (h.put x).available_le
    have hroom : r.counted.makeRoom 1 = r.counted := by
      unfold CountedRing.makeRoom
      exact if_neg (by show ¬r.capacity < r.available + 1; omega)
    rw [hroom]
    simp only [FlagRing.counted, CountedRing.write, CountedRing.grow, hput]
    simp [FlagRing.put, hfull]

/-- Putting elements one by one keeps the newest. -/
theorem Layout.putAll {r : FlagRing α} (h : r.Layout) (xs : List α) :
    (xs.foldl FlagRing.put r).Layout ∧ (xs.foldl FlagRing.put r).capacity = r.capacity ∧
      (xs.foldl FlagRing.put r).contents = (r.contents ++ xs).rtake r.capacity := by
  induction xs generalizing r with
  | nil =>
    refine ⟨h, rfl, ?_⟩
    rw [List.append_nil]
    exact (rtake_eq_self (by rw [length_contents]; exact h.available_le)).symm
  | cons x xs ih =>
    obtain ⟨hlayout, hcap, hcontents⟩ := ih (h.put x)
    have hput : (r.put x).contents = (r.contents ++ [x]).rtake r.capacity := by
      show (r.put x).counted.contents = _
      rw [counted_put h x]
      exact (h.counted.push [x]).2
    refine ⟨hlayout, hcap, ?_⟩
    rw [List.foldl_cons, hcontents, hput]
    show ((r.contents ++ [x]).rtake r.capacity ++ xs).rtake r.capacity = _
    rw [rtake_append_rtake, List.append_assoc]
    rfl

/-- Moving the read position on drops the oldest elements. -/
theorem Layout.advance {r : FlagRing α} (h : r.Layout) {n : Nat} (hn : n ≤ r.available) :
    (r.advance n).Layout ∧ (r.advance n).available = r.available - n ∧
      (r.advance n).contents = r.contents.drop n := by
  have hread := h.readPos_lt
  have hwrite : r.writePos = (r.readPos + r.available) % r.capacity := h.counted.writePos_eq
  have hle := h.available_le
  have hlayout : (r.advance n).Layout := by
    refine ⟨Nat.mod_lt _ (by omega), h.writePos_lt, ?_⟩
    intro hfull
    have hboth : r.full = true ∧ n = 0 := by simpa [FlagRing.advance] using hfull
    show r.writePos = (r.readPos + n) % r.capacity
    rw [hboth.2, Nat.add_zero, Nat.mod_eq_of_lt hread]
    exact h.full_eq hboth.1
  have havail : (r.advance n).available = r.available - n := by
    rcases Nat.eq_zero_or_pos n with rfl | hpos
    · simp [available, FlagRing.advance, Nat.mod_eq_of_lt hread]
    · refine available_eq ?_ hlayout.readPos_lt ?_ ?_
      · simp [FlagRing.advance, Nat.ne_of_gt hpos]
      · show r.available - n < r.capacity
        omega
      · show r.writePos = ((r.readPos + n) % r.capacity + (r.available - n)) % r.capacity
        rw [Nat.mod_add_mod, hwrite, show r.readPos + n + (r.available - n) =
          r.readPos + r.available by omega]
  refine ⟨hlayout, havail, ?_⟩
  show ringCells r.capacity r.slots ((r.readPos + n) % r.capacity) (r.advance n).available = _
  rw [havail, ← drop_ringCells r.slots hn]
  rfl

end FlagRing

end FmSdrTuner
