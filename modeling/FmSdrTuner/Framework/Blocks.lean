import Mathlib.Data.List.Basic
import Mathlib.Data.List.Induction
import Mathlib.Data.List.ReduceOption

/-! # Streams cut into blocks

    A stage that works on blocks of a fixed size collects a stream that
    arrives in segments, and hands a block over when one is complete. If no
    segment is longer than a block, one block per segment is enough to keep
    up, and the blocks do not depend on the segments.

    * `blockAt`, `blocks`, `leftover`: the blocks of a stream, and what is
      behind the last complete one;
    * `offer`: one segment offered to the stage;
    * `offer_leftover`: what the stage does, as a function of the stream;
    * `handovers`: what is handed over for each segment;
      `reduceOption_handovers` and `isSome_handovers` say which blocks, and
      at which segments;
    * `handovers_flatMap`: a stream of elements that are made of units may
      be cut by units. -/

namespace FmSdrTuner

variable {α β : Type*} {size : Nat}

/-! ### The blocks of a stream -/

/-- The block with the index `k`. -/
def blockAt (size : Nat) (xs : List α) (k : Nat) : List α := (xs.drop (k * size)).take size

/-- The complete blocks, in order. -/
def blocks (size : Nat) (xs : List α) : List (List α) :=
  (List.range (xs.length / size)).map (blockAt size xs)

/-- What is behind the last complete block. -/
def leftover (size : Nat) (xs : List α) : List α := xs.drop (xs.length / size * size)

@[simp] theorem blocks_nil : blocks size ([] : List α) = [] := by simp [blocks]

@[simp] theorem leftover_nil : leftover size ([] : List α) = [] := by simp [leftover]

theorem length_leftover (xs : List α) : (leftover size xs).length = xs.length % size := by
  rw [leftover, List.length_drop, Nat.mod_eq_sub_div_mul]

theorem block_end_le {n k : Nat} (h : k < n / size) : (k + 1) * size ≤ n :=
  Nat.le_trans (Nat.mul_le_mul_right size h) (Nat.div_mul_le_self n size)

/-- A complete block stays what it is when the stream goes on. -/
theorem blockAt_append {xs : List α} {k : Nat} (h : (k + 1) * size ≤ xs.length) (ys : List α) :
    blockAt size (xs ++ ys) k = blockAt size xs k := by
  rw [Nat.add_mul, Nat.one_mul] at h
  unfold blockAt
  rw [List.drop_append_of_le_length (by omega),
    List.take_append_of_le_length (by rw [List.length_drop]; omega)]

/-- The blocks and what is left are the stream. -/
theorem flatten_blocks (xs : List α) : (blocks size xs).flatten ++ leftover size xs = xs := by
  have hprefix (n : Nat) (hn : n * size ≤ xs.length) :
      ((List.range n).map (blockAt size xs)).flatten = xs.take (n * size) := by
    induction n with
    | zero => simp
    | succ n ih =>
      rw [Nat.add_mul, Nat.one_mul] at hn
      rw [List.range_succ, List.map_append, List.flatten_append, ih (by omega), Nat.add_mul,
        Nat.one_mul, List.take_add]
      simp [blockAt]
  rw [blocks, leftover, hprefix _ (Nat.div_mul_le_self _ _), List.take_append_drop]

/-! ### One segment -/

/-- Collect a segment; hand over the first block if one is complete. -/
def offer (size : Nat) (held segment : List α) : List α × Option (List α) :=
  if (held ++ segment).length < size then (held ++ segment, none)
  else ((held ++ segment).drop size, some ((held ++ segment).take size))

/-- What is handed over for a segment behind the stream `xs`. -/
def handover (size : Nat) (xs segment : List α) : Option (List α) :=
  if xs.length / size < (xs ++ segment).length / size then
    some (blockAt size (xs ++ segment) (xs.length / size))
  else none

@[simp] theorem handover_nil (size : Nat) (xs : List α) : handover size xs [] = none := by
  unfold handover
  rw [List.append_nil, if_neg (Nat.lt_irrefl _)]

theorem add_div_eq (n m : Nat) (hsize : 0 < size) :
    (n + m) / size = n / size + (n % size + m) / size := by
  conv_lhs => rw [← Nat.div_add_mod n size]
  rw [Nat.add_assoc, Nat.mul_add_div hsize]

/-- A segment completes at most one block. -/
theorem add_div_le (n : Nat) {m : Nat} (hsize : 0 < size) (hm : m ≤ size) :
    (n + m) / size ≤ n / size + 1 := by
  have hmod := Nat.mod_lt n hsize
  have hlt : (n % size + m) / size < 2 := Nat.div_lt_of_lt_mul (by omega)
  rw [add_div_eq n m hsize]
  omega

theorem leftover_append (xs segment : List α) :
    leftover size xs ++ segment = (xs ++ segment).drop (xs.length / size * size) :=
  (List.drop_append_of_le_length (Nat.div_mul_le_self _ _)).symm

/-- A stage that holds what is left of the stream holds what is left of it
    after a segment of at most one block. -/
theorem offer_leftover (hsize : 0 < size) (xs : List α) {segment : List α}
    (hsegment : segment.length ≤ size) :
    offer size (leftover size xs) segment =
      (leftover size (xs ++ segment), handover size xs segment) := by
  have hmod := Nat.mod_lt xs.length hsize
  have hheld : (leftover size xs ++ segment).length = xs.length % size + segment.length := by
    rw [List.length_append, length_leftover]
  have htotal : (xs ++ segment).length / size =
      xs.length / size + (xs.length % size + segment.length) / size := by
    rw [List.length_append]
    exact add_div_eq _ _ hsize
  unfold offer handover
  rw [hheld]
  split
  · next hshort =>
    -- the block is still not complete
    have hsame : (xs ++ segment).length / size = xs.length / size := by
      rw [htotal, Nat.div_eq_of_lt hshort, Nat.add_zero]
    rw [if_neg (by omega), leftover_append, leftover, hsame]
  · next hfull =>
    -- it is, and what is behind it is less than a second one
    have hone : (xs.length % size + segment.length) / size = 1 :=
      Nat.div_eq_of_lt_le (by omega) (by omega)
    rw [if_pos (by omega), leftover_append, leftover, htotal, hone, List.drop_drop, Nat.add_mul,
      Nat.one_mul]
    rfl

/-- The block handed over is the next one. -/
theorem blocks_append (hsize : 0 < size) (xs : List α) {segment : List α}
    (hsegment : segment.length ≤ size) :
    blocks size (xs ++ segment) = blocks size xs ++ (handover size xs segment).toList := by
  have hle : (xs ++ segment).length / size ≤ xs.length / size + 1 := by
    rw [List.length_append]
    exact add_div_le xs.length hsize hsegment
  have hge : xs.length / size ≤ (xs ++ segment).length / size := by
    rw [List.length_append]
    exact Nat.div_le_div_right (Nat.le_add_right _ _)
  -- the blocks that were complete are what they were
  have hold : (List.range (xs.length / size)).map (blockAt size (xs ++ segment)) =
      blocks size xs := by
    refine List.map_congr_left ?_
    intro k hk
    exact blockAt_append (block_end_le (List.mem_range.mp hk)) segment
  unfold handover
  split
  · next hnew =>
    have hnext : (xs ++ segment).length / size = xs.length / size + 1 := by omega
    rw [blocks, hnext, List.range_succ, List.map_append, hold]
    rfl
  · next hnone =>
    have hsame : (xs ++ segment).length / size = xs.length / size := by omega
    rw [blocks, hsame, hold]
    exact (List.append_nil _).symm

/-! ### All segments -/

/-- What is handed over for each of the segments behind the stream `xs`. -/
def handovers (size : Nat) : List α → List (List α) → List (Option (List α))
  | _, [] => []
  | xs, segment :: segments =>
      handover size xs segment :: handovers size (xs ++ segment) segments

/-- The blocks handed over are the blocks of the stream, in order. -/
theorem reduceOption_handovers (hsize : 0 < size) (xs : List α) {segments : List (List α)}
    (hsegments : ∀ s ∈ segments, s.length ≤ size) :
    blocks size (xs ++ segments.flatten) =
      blocks size xs ++ (handovers size xs segments).reduceOption := by
  induction segments generalizing xs with
  | nil => simp [handovers]
  | cons segment segments ih =>
    have hhead : segment.length ≤ size := hsegments segment List.mem_cons_self
    have htail : ∀ s ∈ segments, s.length ≤ size :=
      fun s hs => hsegments s (List.mem_cons_of_mem _ hs)
    rw [List.flatten_cons, ← List.append_assoc, ih _ htail, blocks_append hsize xs hhead,
      List.append_assoc]
    congr 1
    rw [handovers]
    cases handover size xs segment with
    | none => rfl
    | some block => rfl

theorem reduceOption_handovers_nil (hsize : 0 < size) {segments : List (List α)}
    (hsegments : ∀ s ∈ segments, s.length ≤ size) :
    (handovers size [] segments).reduceOption = blocks size segments.flatten := by
  have hall := reduceOption_handovers hsize [] hsegments
  rw [List.nil_append, blocks_nil, List.nil_append] at hall
  exact hall.symm

/-- Whether a block is handed over depends on the lengths only. -/
theorem isSome_handovers {xs : List α} {ys : List β} (hstream : xs.length = ys.length)
    {segments : List (List α)} {segments' : List (List β)}
    (hlengths : segments.map List.length = segments'.map List.length) :
    (handovers size xs segments).map Option.isSome =
      (handovers size ys segments').map Option.isSome := by
  induction segments generalizing xs ys segments' with
  | nil =>
    obtain rfl : segments' = [] := List.map_eq_nil_iff.mp hlengths.symm
    rfl
  | cons segment segments ih =>
    cases segments' with
    | nil => cases hlengths
    | cons segment' segments' =>
      obtain ⟨hhead, htail⟩ : segment.length = segment'.length ∧
          segments.map List.length = segments'.map List.length := by simpa using hlengths
      have hnext : (xs ++ segment).length = (ys ++ segment').length := by
        rw [List.length_append, List.length_append, hstream, hhead]
      have hhandover : (handover size xs segment).isSome = (handover size ys segment').isSome := by
        unfold handover
        rw [hnext, hstream]
        split <;> rfl
      rw [handovers, handovers, List.map_cons, List.map_cons, hhandover, ih hnext htail]

/-! ### Elements made of units -/

section units
variable {f : α → List β} {u : Nat}

theorem length_flatMap_units (hf : ∀ x, (f x).length = u) (xs : List α) :
    (xs.flatMap f).length = xs.length * u := by
  induction xs with
  | nil => simp
  | cons x xs ih =>
    rw [List.flatMap_cons, List.length_append, hf, ih, List.length_cons, Nat.succ_mul,
      Nat.add_comm]

theorem drop_flatMap_units (hf : ∀ x, (f x).length = u) (xs : List α) (k : Nat) :
    (xs.flatMap f).drop (k * u) = (xs.drop k).flatMap f := by
  induction k generalizing xs with
  | zero => simp
  | succ k ih =>
    cases xs with
    | nil => simp
    | cons x xs =>
      rw [List.flatMap_cons, List.drop_succ_cons, ← ih xs, Nat.succ_mul, Nat.add_comm, ← hf x,
        List.drop_length_add_append]

theorem take_flatMap_units (hf : ∀ x, (f x).length = u) (xs : List α) (k : Nat) :
    (xs.flatMap f).take (k * u) = (xs.take k).flatMap f := by
  induction k generalizing xs with
  | zero => simp
  | succ k ih =>
    cases xs with
    | nil => simp
    | cons x xs =>
      rw [List.flatMap_cons, List.take_succ_cons, List.flatMap_cons, ← ih xs, Nat.succ_mul,
        Nat.add_comm, ← hf x, List.take_length_add_append]

theorem blockAt_flatMap (hf : ∀ x, (f x).length = u) (xs : List α) (k : Nat) :
    blockAt (size * u) (xs.flatMap f) k = (blockAt size xs k).flatMap f := by
  unfold blockAt
  rw [← Nat.mul_assoc, drop_flatMap_units hf, take_flatMap_units hf]

theorem length_flatMap_div (hf : ∀ x, (f x).length = u) (hu : 0 < u) (xs : List α) :
    (xs.flatMap f).length / (size * u) = xs.length / size := by
  rw [length_flatMap_units hf, Nat.mul_div_mul_right _ _ hu]

theorem blocks_flatMap (hf : ∀ x, (f x).length = u) (hu : 0 < u) (xs : List α) :
    blocks (size * u) (xs.flatMap f) = (blocks size xs).map (List.flatMap f) := by
  unfold blocks
  rw [length_flatMap_div hf hu, List.map_map]
  exact List.map_congr_left fun k _ => blockAt_flatMap hf xs k

theorem handover_flatMap (hf : ∀ x, (f x).length = u) (hu : 0 < u) (xs segment : List α) :
    handover (size * u) (xs.flatMap f) (segment.flatMap f) =
      (handover size xs segment).map (List.flatMap f) := by
  unfold handover
  rw [← List.flatMap_append, length_flatMap_div hf hu, length_flatMap_div hf hu, blockAt_flatMap hf]
  split <;> rfl

theorem handovers_flatMap (hf : ∀ x, (f x).length = u) (hu : 0 < u) (xs : List α)
    (segments : List (List α)) :
    handovers (size * u) (xs.flatMap f) (segments.map (List.flatMap f)) =
      (handovers size xs segments).map (Option.map (List.flatMap f)) := by
  induction segments generalizing xs with
  | nil => rfl
  | cons segment segments ih =>
    rw [List.map_cons, handovers, handovers, handover_flatMap hf hu, ← List.flatMap_append, ih,
      List.map_cons]

end units

/-! ### Streams of whole blocks -/

theorem length_flatten_blocks {bs : List (List α)} (h : ∀ b ∈ bs, b.length = size) :
    bs.flatten.length = bs.length * size := by
  induction bs with
  | nil => simp
  | cons b bs ih =>
    obtain ⟨hb, hbs⟩ := List.forall_mem_cons.mp h
    rw [List.flatten_cons, List.length_append, hb, ih hbs, List.length_cons, Nat.add_mul,
      Nat.one_mul, Nat.add_comm]

/-- Blocks put together are cut into the same blocks again. -/
theorem blocks_flatten (hsize : 0 < size) {bs : List (List α)}
    (h : ∀ b ∈ bs, b.length = size) : blocks size bs.flatten = bs := by
  induction bs using List.reverseRecOn with
  | nil => exact blocks_nil
  | append_singleton bs b ih =>
    have hb : b.length = size := h b (by simp)
    have hbs : ∀ b ∈ bs, b.length = size := fun x hx => h x (List.mem_append_left _ hx)
    have hlength := length_flatten_blocks hbs
    have hindex : bs.flatten.length / size = bs.length := by
      rw [hlength, Nat.mul_div_cancel _ hsize]
    have hnext : (bs.flatten ++ b).length / size = bs.length + 1 := by
      rw [List.length_append, hb, Nat.add_div_right _ hsize, hindex]
    rw [List.flatten_append, List.flatten_singleton, blocks_append hsize _ (Nat.le_of_eq hb),
      ih hbs]
    congr 1
    unfold handover blockAt
    rw [hindex, hnext, if_pos (Nat.lt_succ_self _), ← hlength, List.drop_left,
      List.take_of_length_le (Nat.le_of_eq hb)]
    rfl

theorem leftover_flatten (hsize : 0 < size) {bs : List (List α)}
    (h : ∀ b ∈ bs, b.length = size) : leftover size bs.flatten = [] := by
  rw [leftover, length_flatten_blocks h, Nat.mul_div_cancel _ hsize, ← length_flatten_blocks h,
    List.drop_length]

end FmSdrTuner
