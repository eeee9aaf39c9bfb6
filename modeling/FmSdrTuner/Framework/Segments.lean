import Mathlib.Data.List.Basic
import Mathlib.Tactic.Common

/-! # A stream that arrives in segments

    A reader receives a stream in segments that it cannot choose, and reads
    on until its buffer is complete. If the buffer gets complete at a fixed
    place of the stream, then what is read ends less than one segment behind
    that place, and every such end is possible.

    * `Segments`: a stream in segments of bounded size;
    * `readUntil`: the reading loop;
    * `CompletesAt`: the place at which a buffer gets complete;
    * `readUntil_take`, `exists_readUntil`: what is read;
    * `find`: the first occurrence of a pattern, which makes a place. -/

namespace FmSdrTuner

variable {α : Type*}

/-! ### Segments -/

/-- Segments that a stream may arrive in. -/
structure Segments (size : Nat) (w : List α) where
  segments : List (List α)
  flatten_eq : segments.flatten = w
  nonempty : ∀ s ∈ segments, s ≠ []
  length_le : ∀ s ∈ segments, s.length ≤ size

/-- Elements one by one. -/
def singles (t : List α) : List (List α) := t.map fun c => [c]

/-- All elements at once, if there are any. -/
def atOnce (t : List α) : List (List α) := if t.isEmpty then [] else [t]

@[simp] theorem flatten_singles (t : List α) : (singles t).flatten = t := by
  induction t with
  | nil => rfl
  | cons c t ih => exact congrArg (c :: ·) ih

@[simp] theorem flatten_atOnce (t : List α) : (atOnce t).flatten = t := by
  cases t with
  | nil => rfl
  | cons c t => exact List.append_nil _

theorem mem_singles {t s : List α} (h : s ∈ singles t) : s.length = 1 := by
  obtain ⟨c, -, rfl⟩ := List.mem_map.mp h
  rfl

theorem mem_atOnce {t s : List α} (h : s ∈ atOnce t) : s = t ∧ s ≠ [] := by
  cases t with
  | nil => cases h
  | cons c t =>
    obtain rfl := List.mem_singleton.mp h
    exact ⟨rfl, List.cons_ne_nil _ _⟩

/-! ### Reading -/

/-- Read segments until the buffer is complete or nothing is left. -/
def readUntil (complete : List α → Bool) (buf : List α) :
    List (List α) → List α × List (List α)
  | [] => (buf, [])
  | s :: ss => if complete buf then (buf, s :: ss) else readUntil complete (buf ++ s) ss

/-- A prefix of `w` is complete if it has at least `n` elements. -/
def CompletesAt (complete : List α → Bool) (w : List α) (n : Nat) : Prop :=
  ∀ i ≤ w.length, complete (w.take i) = decide (n ≤ i)

section reading
variable {complete : List α → Bool} {w buf t : List α} {n size : Nat} {ss : List (List α)}

theorem CompletesAt.eq (h : CompletesAt complete w n) (hw : buf ++ t = w) :
    complete buf = decide (n ≤ buf.length) := by
  subst hw
  have hbuf := h buf.length (by simp)
  rwa [List.take_left' rfl] at hbuf

theorem readUntil_of_complete (h : complete buf = true) (ss : List (List α)) :
    readUntil complete buf ss = (buf, ss) := by
  cases ss with
  | nil => rfl
  | cons s ss => rw [readUntil, if_pos h]

theorem readUntil_of_incomplete (h : complete buf = false) (s : List α) (ss : List (List α)) :
    readUntil complete buf (s :: ss) = readUntil complete (buf ++ s) ss := by
  rw [readUntil, h]
  rfl

/-- A place that is given by the length. -/
theorem completesAt_length (w : List α) (n : Nat) :
    CompletesAt (fun u => decide (n ≤ u.length)) w n := by
  intro i hi
  dsimp only
  rw [List.length_take, Nat.min_eq_left hi]

theorem readUntil_suffix (complete : List α → Bool) (buf : List α) (ss : List (List α)) :
    (readUntil complete buf ss).2 <:+ ss := by
  induction ss generalizing buf with
  | nil => exact List.suffix_refl _
  | cons s ss ih =>
    rw [readUntil]
    split
    · exact List.suffix_refl _
    · exact (ih (buf ++ s)).trans (List.suffix_cons s ss)

/-- A buffer that is not complete yet is read on to less than one segment
    behind the place. -/
theorem readUntil_take (h : CompletesAt complete w n) (hsize : ∀ s ∈ ss, s.length ≤ size)
    (hw : buf ++ ss.flatten = w) (hbuf : buf.length < n) (hpos : 0 < size) :
    ∃ j < size, (readUntil complete buf ss).1 = w.take (n + j) ∧
      (readUntil complete buf ss).2.flatten = w.drop (n + j) := by
  induction ss generalizing buf with
  | nil =>
    -- the stream ends first
    obtain rfl : buf = w := by simpa using hw
    refine ⟨0, hpos, ?_, ?_⟩
    · exact (List.take_of_length_le (Nat.le_of_lt hbuf)).symm
    · exact (List.drop_eq_nil_of_le (Nat.le_of_lt hbuf)).symm
  | cons s ss ih =>
    have hincomplete : complete buf = false := by
      rw [h.eq hw]
      exact decide_eq_false (by omega)
    have hnext : (buf ++ s) ++ ss.flatten = w := by
      rw [List.append_assoc]
      exact hw
    rw [readUntil_of_incomplete hincomplete]
    rcases Nat.lt_or_ge (buf ++ s).length n with hlt | hge
    · exact ih (fun s' hs' => hsize s' (List.mem_cons_of_mem _ hs')) hnext hlt
    · have hcomplete : complete (buf ++ s) = true := by
        rw [h.eq hnext]
        exact decide_eq_true hge
      have hs := hsize s List.mem_cons_self
      have hlength : n + ((buf ++ s).length - n) = (buf ++ s).length := by omega
      rw [readUntil_of_complete hcomplete]
      refine ⟨(buf ++ s).length - n, ?_, ?_, ?_⟩
      · rw [List.length_append]
        omega
      · rw [hlength, ← hnext]
        exact (List.take_left' rfl).symm
      · rw [hlength, ← hnext]
        exact (List.drop_left' rfl).symm

/-- Up to the place, single elements are all read. -/
theorem readUntil_singles (h : CompletesAt complete w n) {t' : List α}
    (hw : buf ++ (t ++ t') = w) (hle : buf.length + t.length ≤ n) :
    readUntil complete buf (singles t ++ ss) = readUntil complete (buf ++ t) ss := by
  induction t generalizing buf with
  | nil => rw [List.append_nil]; rfl
  | cons c t ih =>
    rw [List.length_cons] at hle
    have hincomplete : complete buf = false := by
      rw [h.eq hw]
      exact decide_eq_false (by omega)
    have hstep := readUntil_of_incomplete hincomplete [c] (singles t ++ ss)
    have hnext : (buf ++ [c]) ++ (t ++ t') = w := by
      rw [List.append_assoc]
      exact hw
    have hrest := ih hnext (by rw [List.length_append, List.length_singleton]; omega)
    rw [List.append_assoc] at hrest
    exact hstep.trans hrest

/-- Every end less than one segment behind the place is possible. -/
theorem exists_readUntil (h : CompletesAt complete w n) (hw : buf ++ t = w)
    (hbuf : buf.length < n) {j : Nat} (hj : j < size) :
    ∃ ss : List (List α), buf ++ ss.flatten = w.take (n + j) ∧
      (∀ s ∈ ss, s ≠ [] ∧ s.length ≤ size) ∧
      ∀ more, readUntil complete buf (ss ++ more) = readUntil complete (w.take (n + j)) more := by
  -- single elements up to the place, exclusively, then one segment
  let before := n - 1 - buf.length
  have htake : buf ++ (t.take before ++ (t.drop before).take (j + 1)) = w.take (n + j) := by
    have hbefore : buf.take (n + j) = buf := List.take_of_length_le (by omega)
    have hcount : before + (j + 1) = n + j - buf.length := by omega
    rw [← List.take_add, hcount, ← hw, List.take_append, hbefore]
  refine ⟨singles (t.take before) ++ atOnce ((t.drop before).take (j + 1)), ?_, ?_, ?_⟩
  · rw [List.flatten_append, flatten_singles, flatten_atOnce]
    exact htake
  · intro s hs
    rcases List.mem_append.mp hs with hs | hs
    · have hlength := mem_singles hs
      exact ⟨List.ne_nil_of_length_pos (by omega), by omega⟩
    · obtain ⟨rfl, hne⟩ := mem_atOnce hs
      refine ⟨hne, ?_⟩
      rw [List.length_take]
      omega
  · intro more
    have hlength : buf.length + (t.take before).length ≤ n := by
      rw [List.length_take]
      omega
    have hwhole : buf ++ (t.take before ++ t.drop before) = w := by
      rw [List.take_append_drop]
      exact hw
    rw [List.append_assoc, readUntil_singles h hwhole hlength, ← htake]
    cases hlast : (t.drop before).take (j + 1) with
    | nil => rw [List.append_nil]; rfl
    | cons c last =>
      have hincomplete : complete (buf ++ t.take before) = false := by
        rw [h.eq ((List.append_assoc _ _ _).trans hwhole)]
        apply decide_eq_false
        rw [List.length_append, List.length_take]
        omega
      have hstep := readUntil_of_incomplete hincomplete (c :: last) more
      rw [List.append_assoc] at hstep
      exact hstep

/-- Behind the place nothing more is read. -/
theorem readUntil_behind (h : CompletesAt complete w n) {i : Nat} (hi : n ≤ i) :
    (readUntil complete (w.take i) (singles (w.drop i))).1 = w.take i := by
  rcases Nat.lt_or_ge i w.length with hlt | hge
  · have hcomplete : complete (w.take i) = true := by
      rw [h i (Nat.le_of_lt hlt)]
      exact decide_eq_true hi
    rw [readUntil_of_complete hcomplete]
  · rw [List.drop_eq_nil_of_le hge]
    rfl

end reading

/-! ### A pattern -/

section pattern
variable [DecidableEq α]

/-- Where the pattern occurs first. -/
def find (p : List α) : List α → Option Nat
  | [] => if p = [] then some 0 else none
  | c :: t => if p <+: c :: t then some 0 else (find p t).map (· + 1)

variable {p q t : List α} {i : Nat}

theorem length_of_find (h : find p t = some i) : i + p.length ≤ t.length := by
  induction t generalizing i with
  | nil =>
    simp only [find] at h
    split at h
    · next hp => cases h; simp [hp]
    · cases h
  | cons c t ih =>
    simp only [find] at h
    split at h
    · next hp =>
      cases h
      simpa using hp.length_le
    · obtain ⟨i, hi, rfl⟩ := Option.map_eq_some_iff.mp h
      have hlength := ih hi
      rw [List.length_cons]
      omega

/-- A prefix has the pattern at the same place, or not at all. -/
theorem find_take (h : find p t = some i) (k : Nat) :
    find p (t.take k) = if i + p.length ≤ k then some i else none := by
  induction t generalizing i k with
  | nil =>
    simp only [find] at h
    split at h
    · next hp => cases h; simp [find, hp]
    · cases h
  | cons c t ih =>
    cases k with
    | zero =>
      -- nothing but the empty pattern is found in nothing
      by_cases hp : p = []
      · subst hp
        obtain rfl : i = 0 := by simpa [find] using h.symm
        rfl
      · have hpos := List.length_pos_iff.mpr hp
        rw [List.take_zero, find, if_neg hp, if_neg (by omega)]
    | succ k =>
      rw [List.take_succ_cons, find]
      rw [find] at h
      by_cases hp : p <+: c :: t
      · obtain rfl : i = 0 := by simpa [hp] using h.symm
        have hfits : p <+: c :: t.take k ↔ 0 + p.length ≤ k + 1 := by
          rw [← List.take_succ_cons, List.prefix_take_iff, Nat.zero_add]
          exact and_iff_right hp
        by_cases hlength : 0 + p.length ≤ k + 1
        · rw [if_pos (hfits.mpr hlength), if_pos hlength]
        · -- what is left is too short for the pattern
          have hnone : find p (t.take k) = none := by
            by_contra hfound
            obtain ⟨i, hi⟩ := Option.ne_none_iff_exists'.mp hfound
            have hle := length_of_find hi
            rw [List.length_take] at hle
            omega
          rw [if_neg fun hq => hlength (hfits.mp hq), if_neg hlength, hnone]
          rfl
      · rw [if_neg hp] at h
        obtain ⟨i, hi, rfl⟩ := Option.map_eq_some_iff.mp h
        have hnot : ¬p <+: c :: t.take k := by
          intro hq
          rw [← List.take_succ_cons, List.prefix_take_iff] at hq
          exact hp hq.1
        rw [if_neg hnot, ih hi]
        by_cases hlength : i + p.length ≤ k
        · rw [if_pos hlength, if_pos (by omega)]
          rfl
        · rw [if_neg hlength, if_neg (by omega)]
          rfl

/-- The place at which a pattern has been read. -/
theorem completesAt_find (h : find p t = some i) :
    CompletesAt (fun u => (find p u).isSome) t (i + p.length) := by
  intro k _
  dsimp only
  rw [find_take h k]
  by_cases hk : i + p.length ≤ k
  · rw [if_pos hk, decide_eq_true hk]
    rfl
  · rw [if_neg hk, decide_eq_false hk]
    rfl

/-- The front of a pattern occurs no later than the pattern. -/
theorem find_front (hq : q <+: p) (h : find p t = some i) : ∃ j ≤ i, find q t = some j := by
  induction t generalizing i with
  | nil =>
    rw [find] at h
    split at h
    · next hp =>
      subst hp
      obtain rfl := List.prefix_nil.mp hq
      exact ⟨0, Nat.zero_le _, rfl⟩
    · cases h
  | cons c t ih =>
    rw [find] at h ⊢
    by_cases hfront : q <+: c :: t
    · rw [if_pos hfront]
      exact ⟨0, Nat.zero_le _, rfl⟩
    · have hp : ¬p <+: c :: t := fun hp => hfront (hq.trans hp)
      rw [if_neg hp] at h
      obtain ⟨i, hi, rfl⟩ := Option.map_eq_some_iff.mp h
      obtain ⟨j, hj, hfind⟩ := ih hi
      rw [if_neg hfront, hfind]
      exact ⟨j + 1, Nat.succ_le_succ hj, rfl⟩

end pattern

end FmSdrTuner
