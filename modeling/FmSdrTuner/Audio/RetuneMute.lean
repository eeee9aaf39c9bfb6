import Mathlib.Algebra.Order.Field.Rat
import Mathlib.Algebra.Order.Field.Basic
import Mathlib.Data.List.Range
import Mathlib.Tactic.FieldSimp
import Mathlib.Tactic.Linarith
import Mathlib.Tactic.Positivity

/-! # The mute after a retune

    After a retune `processAudioBlock` mutes the audio for a number of
    samples, which it counts down over the blocks, and applies a gain to
    the first and the last of them. Neither the counters nor the gain
    depend on how the samples are cut into blocks. The gain falls from one
    at either end: what is meant to fade in starts at full gain.

    Main result: `clickFree_iff`. -/

namespace FmSdrTuner

/-! ### The code -/

/-- `retuneMuteSamplesRemaining` and `retuneMuteTotalSamples`. -/
structure RetuneMute where
  remaining : Nat
  total : Nat
  deriving DecidableEq, Repr

namespace RetuneMute

/-- After a retune or a start. -/
def armed (total : Nat) : RetuneMute := ⟨total, total⟩

/-- `static_cast<size_t>` of an `int`. -/
def toSize (v : Int) : Nat := (v % 2 ^ 64).toNat

def fadeSamples (outputRate : Int32) (total : Nat) : Nat :=
  max 1 (min (toSize (outputRate.toInt.tdiv 200)) (total / 2))

/-- The gain of the sample with the index `idx`. -/
def gain (outputRate : Int32) (total idx : Nat) : ℚ :=
  let fade := fadeSamples outputRate total
  let gain : ℚ :=
    if idx < fade then 1 - idx / fade
    -- the samples left: this falls as well
    else if total - fade ≤ idx then (total - idx : Nat) / fade
    else 0
  max 0 (min gain 1)

/-- The part of `processAudioBlock` that mutes a block: what it does to the
    counters, and the gain it applies to each sample. -/
def block (outputRate : Int32) (s : RetuneMute) (outSamples : Nat) : RetuneMute × List ℚ :=
  if 0 < s.remaining ∧ 0 < outSamples then
    let muteCount := min outSamples s.remaining
    let alreadyMuted := if s.remaining < s.total then s.total - s.remaining else 0
    let gains := (List.range muteCount).map fun i => gain outputRate s.total (alreadyMuted + i)
    let remaining := s.remaining - muteCount
    (⟨remaining, if remaining = 0 then 0 else s.total⟩,
      gains ++ List.replicate (outSamples - muteCount) 1)
  else (s, List.replicate outSamples 1)

/-- The gains over some blocks. -/
def blocks (outputRate : Int32) : RetuneMute → List Nat → List ℚ
  | _, [] => []
  | s, n :: ns => (block outputRate s n).2 ++ blocks outputRate (block outputRate s n).1 ns

/-! ### Blocks do not matter -/

/-- The gain of each sample after arming. -/
def envelope (outputRate : Int32) (total k : Nat) : ℚ :=
  if k < total then gain outputRate total k else 1

/-- The counters when `k` samples have been processed. -/
def after (total k : Nat) : RetuneMute := if k < total then ⟨total - k, total⟩ else ⟨0, 0⟩

variable {outputRate : Int32} {total : Nat}

theorem map_range_add (f : Nat → ℚ) (k m n : Nat) :
    ((List.range (m + n)).map fun i => f (k + i)) =
      ((List.range m).map fun i => f (k + i)) ++ (List.range n).map fun i => f (k + m + i) := by
  rw [List.range_add, List.map_append, List.map_map]
  congr 1
  refine List.map_congr_left ?_
  intro i _
  rw [Nat.add_assoc]
  rfl

theorem map_range_envelope (k n : Nat) (h : k + n ≤ total) :
    ((List.range n).map fun i => gain outputRate total (k + i)) =
      (List.range n).map fun i => envelope outputRate total (k + i) := by
  refine List.map_congr_left ?_
  intro i hi
  have hlt := List.mem_range.mp hi
  unfold envelope
  rw [if_pos (by omega)]

theorem replicate_envelope (k n : Nat) (h : total ≤ k) :
    List.replicate n (1 : ℚ) = (List.range n).map fun i => envelope outputRate total (k + i) := by
  refine (List.eq_replicate_iff.mpr ⟨by simp, ?_⟩).symm
  intro g hg
  obtain ⟨i, -, rfl⟩ := List.mem_map.mp hg
  unfold envelope
  rw [if_neg (by omega)]

theorem after_lt {k : Nat} (h : k < total) : after total k = ⟨total - k, total⟩ := if_pos h

theorem after_ge {k : Nat} (h : total ≤ k) : after total k = ⟨0, 0⟩ := if_neg (by omega)

theorem block_after (k n : Nat) :
    block outputRate (after total k) n =
      (after total (k + n), (List.range n).map fun i => envelope outputRate total (k + i)) := by
  rcases Nat.lt_or_ge k total with hk | hk
  · rcases Nat.eq_zero_or_pos n with rfl | hn
    · rw [block, if_neg (by simp)]
      rfl
    · have halready : (if total - k < total then total - (total - k) else 0) = k := by
        split <;> omega
      rw [after_lt hk, block, if_pos ⟨by show 0 < total - k; omega, hn⟩]
      simp only [halready]
      refine Prod.ext ?_ ?_
      · show (⟨_, _⟩ : RetuneMute) = after total (k + n)
        -- the mute goes on behind the block, or ends in it
        rcases Nat.lt_or_ge (k + n) total with hmore | hdone
        · rw [after_lt hmore, if_neg (by omega)]
          congr 1
          omega
        · rw [after_ge hdone, if_pos (by omega)]
          congr 1
          omega
      · -- the muted samples, and those behind them
        have hmuted :
            ((List.range (min n (total - k))).map fun i => gain outputRate total (k + i)) =
            (List.range (min n (total - k))).map fun i => envelope outputRate total (k + i) :=
          map_range_envelope _ _ (by omega)
        have hrest : List.replicate (n - min n (total - k)) (1 : ℚ) =
            (List.range (n - min n (total - k))).map fun i =>
              envelope outputRate total (k + min n (total - k) + i) := by
          rcases Nat.le_total n (total - k) with hle | hge
          · rw [Nat.min_eq_left hle, Nat.sub_self]
            rfl
          · exact replicate_envelope _ _ (by omega)
        have hsum : min n (total - k) + (n - min n (total - k)) = n := by omega
        show ((List.range _).map fun i => gain outputRate total (k + i)) ++ List.replicate _ 1 = _
        rw [hmuted, hrest, ← map_range_add, hsum]
  · rw [after_ge hk, after_ge (by omega), block, if_neg (by simp), replicate_envelope k n hk]

theorem blocks_after (k : Nat) (ns : List Nat) :
    blocks outputRate (after total k) ns =
      (List.range ns.sum).map fun i => envelope outputRate total (k + i) := by
  induction ns generalizing k with
  | nil => rfl
  | cons n ns ih =>
    rw [blocks, block_after, ih, List.sum_cons, map_range_add]

/-- The gain of a sample depends on its index only. -/
theorem blocks_armed (ns : List Nat) :
    blocks outputRate (armed total) ns = (List.range ns.sum).map (envelope outputRate total) := by
  have harmed : armed total = after total 0 := by
    rcases Nat.eq_zero_or_pos total with rfl | hpos
    · rfl
    · rw [after_lt hpos]
      rfl
  rw [harmed, blocks_after]
  simp only [Nat.zero_add]

/-! ### Clicks -/

/-- A gain that starts falling, rises afterwards, and takes no step larger
    than one over the length of a fade. -/
structure ClickFree (outputRate : Int32) (total : Nat) (g : Nat → ℚ) : Prop where
  between : ∀ k, 0 ≤ g k ∧ g k ≤ 1
  valley : ∃ m, (∀ k < m, g (k + 1) ≤ g k) ∧ ∀ k, m ≤ k → g k ≤ g (k + 1)
  steps : ∀ k, |g (k + 1) - g k| ≤ 1 / fadeSamples outputRate total

/-- The gain of the `k`-th sample after arming is `g k`, whatever the
    blocks are. -/
def HasEnvelope (outputRate : Int32) (total : Nat) (g : Nat → ℚ) : Prop :=
  ∀ ns, blocks outputRate (armed total) ns = (List.range ns.sum).map g

theorem hasEnvelope : HasEnvelope outputRate total (envelope outputRate total) := blocks_armed

theorem HasEnvelope.eq {g : Nat → ℚ} (h : HasEnvelope outputRate total g) (k : Nat) :
    g k = envelope outputRate total k := by
  have hmap := (h [k + 1]).symm.trans (blocks_armed [k + 1])
  exact List.map_inj_left.mp hmap k (List.mem_range.mpr (by simp))

variable (outputRate total) in
theorem one_le_fadeSamples : 1 ≤ fadeSamples outputRate total := le_max_left _ _

theorem gain_nonneg (idx : Nat) : 0 ≤ gain outputRate total idx := le_max_left _ _

theorem gain_le_one (idx : Nat) : gain outputRate total idx ≤ 1 :=
  max_le zero_le_one (min_le_right _ _)

variable (outputRate total) in
theorem envelope_mem (k : Nat) :
    0 ≤ envelope outputRate total k ∧ envelope outputRate total k ≤ 1 := by
  unfold envelope
  split
  · exact ⟨gain_nonneg k, gain_le_one k⟩
  · exact ⟨zero_le_one, le_refl _⟩

/-- A fade of one sample leaves the first and the last muted sample as they
    are, and silences the ones between. -/
theorem envelope_of_one (hfade : fadeSamples outputRate total = 1) (k : Nat) :
    envelope outputRate total k = if 0 < k ∧ k + 1 < total then 0 else 1 := by
  unfold envelope gain
  simp only [hfade]
  rcases Nat.lt_or_ge k total with hlt | hge
  · rw [if_pos hlt]
    rcases Nat.eq_zero_or_pos k with rfl | hpos
    · simp
    · rw [if_neg (show ¬k < 1 by omega)]
      rcases Nat.lt_or_ge (k + 1) total with hmore | hlast
      · rw [if_neg (by omega), if_pos ⟨hpos, hmore⟩]
        simp
      · have htail : total - k = 1 := by omega
        rw [if_pos (by omega), if_neg (by omega), htail]
        simp
  · rw [if_neg (by omega), if_neg (by omega)]

theorem clickFree_of_one (hfade : fadeSamples outputRate total = 1) :
    ClickFree outputRate total (envelope outputRate total) where
  between := envelope_mem _ _
  valley := by
    refine ⟨total - 2, ?_, ?_⟩
    · intro k hk
      rw [envelope_of_one hfade, if_pos ⟨by omega, by omega⟩]
      exact (envelope_mem _ _ k).1
    · intro k hk
      rw [envelope_of_one hfade (k + 1), if_neg (by omega)]
      exact (envelope_mem _ _ k).2
  steps := by
    intro k
    obtain ⟨hlow, hhigh⟩ := envelope_mem outputRate total k
    obtain ⟨hlow', hhigh'⟩ := envelope_mem outputRate total (k + 1)
    rw [hfade, abs_le]
    constructor <;> push_cast <;> linarith

/-! ### The tail -/

/-- The tail of the mute as the code computes it: it starts at full gain and
    falls to one over the length of the fade. -/
theorem envelope_tail (hfade : 2 * fadeSamples outputRate total ≤ total) (i : Nat)
    (hpos : 0 < i) (hi : i ≤ fadeSamples outputRate total) :
    envelope outputRate total (total - i) = i / fadeSamples outputRate total := by
  have hF : (0 : ℚ) < fadeSamples outputRate total := by
    exact_mod_cast one_le_fadeSamples outputRate total
  have hback : total - (total - i) = i := by omega
  have hle : (i : ℚ) / fadeSamples outputRate total ≤ 1 := by
    rw [div_le_one hF]
    exact_mod_cast hi
  unfold envelope gain
  simp only [hback]
  rw [if_pos (by omega), if_neg (by omega), if_pos (by omega), min_eq_left hle,
    max_eq_right (by positivity)]

/-- The sample before the tail is all but silent. -/
theorem envelope_before_tail (hfade : 2 * fadeSamples outputRate total ≤ total)
    (htwo : 2 ≤ fadeSamples outputRate total) :
    envelope outputRate total (total - fadeSamples outputRate total - 1) < 1 := by
  have hF : (0 : ℚ) < fadeSamples outputRate total := by
    exact_mod_cast one_le_fadeSamples outputRate total
  unfold envelope gain
  rw [if_pos (by omega)]
  refine max_lt zero_lt_one (min_lt_of_left_lt ?_)
  rcases Nat.lt_or_ge (total - fadeSamples outputRate total - 1) (fadeSamples outputRate total)
    with hin | hout
  · rw [if_pos hin, sub_lt_self_iff]
    have hcast : (0 : ℚ) < ((total - fadeSamples outputRate total - 1 : Nat) : ℚ) := by
      exact_mod_cast (show 0 < total - fadeSamples outputRate total - 1 by omega)
    positivity
  · rw [if_neg (by omega), if_neg (by omega)]
    exact zero_lt_one

theorem two_mul_fadeSamples_le (htwo : 2 ≤ fadeSamples outputRate total) :
    2 * fadeSamples outputRate total ≤ total := by
  unfold fadeSamples at htwo ⊢
  omega

/-- Where the fade has two samples or more, the tail rises at once and then
    falls. -/
theorem not_clickFree (htwo : 2 ≤ fadeSamples outputRate total) :
    ¬ClickFree outputRate total (envelope outputRate total) := by
  intro h
  obtain ⟨m, hfall, hrise⟩ := h.valley
  have hfade := two_mul_fadeSamples_le htwo
  have hF : (0 : ℚ) < fadeSamples outputRate total := by
    exact_mod_cast one_le_fadeSamples outputRate total
  -- the last two muted samples
  have hlast : total - 1 ≤ m := by
    by_contra hm
    have hstep := hrise (total - 2) (by omega)
    rw [show total - 2 + 1 = total - 1 by omega, envelope_tail hfade 2 (by omega) htwo,
      envelope_tail hfade 1 (by omega) (one_le_fadeSamples _ _),
      div_le_div_iff_of_pos_right hF] at hstep
    norm_num at hstep
  -- the first sample of the tail
  have hstep := hfall (total - fadeSamples outputRate total - 1) (by omega)
  rw [show total - fadeSamples outputRate total - 1 + 1 = total - fadeSamples outputRate total by
    omega, envelope_tail hfade _ (by omega) (le_refl _), div_self hF.ne'] at hstep
  exact absurd hstep (not_le.mpr (envelope_before_tail hfade htwo))

/-! ### When the fade has one sample -/

theorem toSize_le_one {q : Int} (hlow : -2 ^ 63 ≤ q) (hhigh : q < 2 ^ 63) :
    toSize q ≤ 1 ↔ q = 0 ∨ q = 1 := by
  unfold toSize
  omega

theorem tdiv_200 (v : Int) : v.tdiv 200 = v / 200 + if 0 ≤ v ∨ 200 ∣ v then 0 else 1 :=
  Int.tdiv_eq_ediv

theorem tdiv_200_eq {v : Int} : v.tdiv 200 = 0 ∨ v.tdiv 200 = 1 ↔ -200 < v ∧ v < 400 := by
  rw [tdiv_200]
  split <;> omega

/-- The fade has one sample: for a mute of fewer than four, and for an
    output rate below 400 Hz. -/
theorem fadeSamples_eq_one_iff :
    fadeSamples outputRate total = 1 ↔
      total < 4 ∨ (-200 < outputRate.toInt ∧ outputRate.toInt < 400) := by
  have hlow := outputRate.le_toInt
  have hhigh := outputRate.toInt_lt
  have hrange : -2 ^ 63 ≤ outputRate.toInt.tdiv 200 ∧ outputRate.toInt.tdiv 200 < 2 ^ 63 := by
    rw [tdiv_200]
    split <;> omega
  rw [← tdiv_200_eq, ← toSize_le_one hrange.1 hrange.2]
  unfold fadeSamples
  omega

theorem exists_clickFree_iff :
    (∃ g, HasEnvelope outputRate total g ∧ ClickFree outputRate total g) ↔
      fadeSamples outputRate total = 1 := by
  constructor
  · rintro ⟨g, hg, hclick⟩
    obtain rfl : g = envelope outputRate total := funext hg.eq
    by_contra hne
    have hone := one_le_fadeSamples outputRate total
    exact not_clickFree (by omega) hclick
  · intro hfade
    exact ⟨_, hasEnvelope, clickFree_of_one hfade⟩

/-- The gains after arming depend on the sample only, and fade out and in
    without a click, if and only if the fade is one sample long. -/
theorem clickFree_iff (outputRate : Int32) (total : Nat) :
    (∃ g, HasEnvelope outputRate total g ∧ ClickFree outputRate total g) ↔
      total < 4 ∨ (-200 < outputRate.toInt ∧ outputRate.toInt < 400) := by
  rw [exists_clickFree_iff, fadeSamples_eq_one_iff]

/-- The mute of a retune at 48 kHz clicks. -/
theorem retune_clicks :
    ¬∃ g, HasEnvelope 48000 1920 g ∧ ClickFree 48000 1920 g := by
  rw [exists_clickFree_iff]
  decide

end RetuneMute

end FmSdrTuner
