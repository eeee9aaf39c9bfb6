import FmSdrTuner.Dsp.SignalMeter
import FmSdrTuner.Framework.OrderStatistics
import Mathlib.Tactic.Linarith
import Mathlib.Tactic.NormNum

/-! # The window that calibration recommends

    `runBandSweep` measures the band and recommends a floor and a ceiling
    for the signal meter: the floor from the weakest readings, the ceiling
    from the strongest that are not saturated. Readings are exact.

    The two come from different samples, and only the ceiling is clamped.
    Main result: `recommends_window_iff`. -/

namespace FmSdrTuner

namespace Calibration

/-! ### The code -/

/-- How `runBandSweep` ends without a recommendation. -/
inductive SweepError where
  /-- "no measurements collected" -/
  | noMeasurements
  /-- A list is indexed behind its end. -/
  | outOfRange
  deriving DecidableEq, Repr

/-- What it prints of the band. -/
structure SignalEnvelope where
  p05 : ℚ
  p50 : ℚ
  p95 : ℚ
  pMax : ℚ
  pMin : ℚ
  saturatedCount : Nat
  cleanP95 : ℚ
  deriving DecidableEq

/-- `signal_floor_dbfs` and `signal_ceil_dbfs`. -/
structure Recommendation where
  floor : Int
  ceil : Int
  deriving DecidableEq, Repr

def kSaturationThresholdDbfs : ℚ := -6

/-- The readings that are not saturated. -/
def clean (readings : List ℚ) : List ℚ := readings.filter (· ≤ kSaturationThresholdDbfs)

/-- The entry at `i` of the sorted list. -/
def sortedAt (readings : List ℚ) (i : Nat) : Except SweepError ℚ :=
  match orderStatistic readings i with
  | some reading => .ok reading
  | none => .error .outOfRange

/-- With few readings left the ceiling falls back on all of them. -/
def cleanP95 (readings : List ℚ) (p95 : ℚ) : Except SweepError ℚ :=
  if 10 ≤ (clean readings).length then
    sortedAt (clean readings) ((clean readings).length * 95 / 100)
  else .ok p95

/-- The percentiles of `runBandSweep`. -/
def envelope (readings : List ℚ) : Except SweepError SignalEnvelope := do
  let p05 ← sortedAt readings (readings.length * 5 / 100)
  let p50 ← sortedAt readings (readings.length / 2)
  let p95 ← sortedAt readings (readings.length * 95 / 100)
  let pMax ← sortedAt readings (readings.length - 1)
  let pMin ← sortedAt readings 0
  let cleanP95 ← cleanP95 readings p95
  return {
    p05 := p05
    p50 := p50
    p95 := p95
    pMax := pMax
    pMin := pMin
    saturatedCount := readings.length - (clean readings).length
    cleanP95 := cleanP95 }

/-- The recommended values. -/
def SignalEnvelope.recommend (e : SignalEnvelope) : Recommendation where
  floor := SignalLevel.lround (e.p05 - 3)
  ceil := SignalLevel.lround (min (e.cleanP95 + 3) kSaturationThresholdDbfs)

/-- `runBandSweep`, from the measurements on. -/
def runBandSweep (readings : List ℚ) : Except SweepError Recommendation :=
  if readings = [] then .error .noMeasurements
  else (envelope readings).map SignalEnvelope.recommend

/-- The sweep recommends a window. -/
def RecommendsWindow (readings : List ℚ) : Prop :=
  ∃ r, runBandSweep readings = .ok r ∧ r.floor < r.ceil

/-- The readings the ceiling is taken from. -/
def ceilingReadings (readings : List ℚ) : List ℚ :=
  if 10 ≤ (clean readings).length then clean readings else readings

/-- There is room for a window: some whole number `t` below the rail has
    more than 5 % of all readings at most at `t + 2.5`, and not more than
    95 % of those for the ceiling at most at `t - 3.5`. -/
def HasRoom (readings : List ℚ) : Prop :=
  ∃ t : Int, t ≤ -6 ∧
    readings.length * 5 / 100 < readings.countP (· ≤ (t : ℚ) + 5 / 2) ∧
    (ceilingReadings readings).countP (· ≤ (t : ℚ) - 7 / 2) ≤
      (ceilingReadings readings).length * 95 / 100

/-! ### The percentiles -/

theorem sortedAt_ok {readings : List ℚ} {i : Nat} (hi : i < readings.length) :
    ∃ x, sortedAt readings i = .ok x ∧ orderStatistic readings i = some x := by
  obtain ⟨x, hx⟩ := Option.isSome_iff_exists.mp (orderStatistic_isSome_iff.mpr hi)
  exact ⟨x, by rw [sortedAt, hx], hx⟩

/-- The percentiles of a sweep with measurements are in range. -/
theorem envelope_ok {readings : List ℚ} (hne : readings ≠ []) :
    ∃ e, envelope readings = .ok e ∧
      orderStatistic readings (readings.length * 5 / 100) = some e.p05 ∧
      orderStatistic (ceilingReadings readings)
        ((ceilingReadings readings).length * 95 / 100) = some e.cleanP95 := by
  have hlen : 0 < readings.length := List.length_pos_of_ne_nil hne
  have hi05 : readings.length * 5 / 100 < readings.length := by omega
  have hi50 : readings.length / 2 < readings.length := by omega
  have hi95 : readings.length * 95 / 100 < readings.length := by omega
  have hiMax : readings.length - 1 < readings.length := by omega
  obtain ⟨p05, h05, ho05⟩ := sortedAt_ok hi05
  obtain ⟨p50, h50, -⟩ := sortedAt_ok hi50
  obtain ⟨p95, h95, ho95⟩ := sortedAt_ok hi95
  obtain ⟨pMax, hMax, -⟩ := sortedAt_ok hiMax
  obtain ⟨pMin, hMin, -⟩ := sortedAt_ok hlen
  obtain ⟨p95c, h95c, ho95c⟩ : ∃ x, cleanP95 readings p95 = .ok x ∧
      orderStatistic (ceilingReadings readings)
        ((ceilingReadings readings).length * 95 / 100) = some x := by
    unfold cleanP95 ceilingReadings
    by_cases hclean : 10 ≤ (clean readings).length
    · rw [if_pos hclean, if_pos hclean]
      exact sortedAt_ok (by omega)
    · rw [if_neg hclean, if_neg hclean]
      exact ⟨p95, rfl, ho95⟩
  refine ⟨⟨p05, p50, p95, pMax, pMin, readings.length - (clean readings).length, p95c⟩,
    ?_, ho05, ho95c⟩
  rw [envelope, h05, h50, h95, hMax, hMin]
  change (cleanP95 readings p95 >>= _) = _
  rw [h95c]
  rfl

/-! ### Rounding -/

/-- Half away from zero, below zero. -/
theorem lround_of_neg {x : ℚ} (hx : x < 0) : SignalLevel.lround x = -⌊-x + 1 / 2⌋ :=
  if_neg (not_le.mpr hx)

theorem lround_lt_iff {x : ℚ} (hx : x < 0) (t : Int) :
    SignalLevel.lround x < t ↔ x ≤ t - 1 / 2 := by
  rw [lround_of_neg hx, neg_lt, Int.lt_iff_add_one_le, Int.le_floor]
  push_cast
  constructor <;> intro h <;> linarith

theorem le_lround_iff {x : ℚ} (hx : x < 0) (t : Int) :
    t ≤ SignalLevel.lround x ↔ (t : ℚ) - 1 / 2 < x := by
  rw [← not_lt, lround_lt_iff hx, not_le]

/-- A floor is below a ceiling where a whole number separates what is
    rounded. -/
theorem recommend_lt_iff {e : SignalEnvelope} (hfloor : e.p05 ≤ 0) :
    e.recommend.floor < e.recommend.ceil ↔
      ∃ t : Int, t ≤ -6 ∧ e.p05 ≤ (t : ℚ) + 5 / 2 ∧ (t : ℚ) - 7 / 2 < e.cleanP95 := by
  have hceil : min (e.cleanP95 + 3) kSaturationThresholdDbfs < 0 :=
    (min_le_right _ _).trans_lt (by norm_num [kSaturationThresholdDbfs])
  have hfloor3 : e.p05 - 3 < 0 := by linarith
  have hrail (t : Int) : (t : ℚ) - 1 / 2 < -6 ↔ t ≤ -6 := by
    constructor
    · intro h
      have hlt : (t : ℚ) < ((-5 : Int) : ℚ) := by
        push_cast
        linarith
      have hlt' : t < -5 := by exact_mod_cast hlt
      omega
    · intro h
      have hle : (t : ℚ) ≤ ((-6 : Int) : ℚ) := by exact_mod_cast h
      push_cast at hle
      linarith
  constructor
  · intro hlt
    have hfirst := (lround_lt_iff hfloor3 _).mp hlt
    have hsecond := (le_lround_iff hceil _).mp (le_refl e.recommend.ceil)
    rw [lt_min_iff, kSaturationThresholdDbfs, hrail] at hsecond
    exact ⟨e.recommend.ceil, hsecond.2, by linarith, by linarith [hsecond.1]⟩
  · intro ⟨t, hle, hfirst, hsecond⟩
    have hbelow : e.recommend.floor < t := (lround_lt_iff hfloor3 t).mpr (by linarith)
    have habove : t ≤ e.recommend.ceil := by
      refine (le_lround_iff hceil t).mpr ?_
      rw [lt_min_iff, kSaturationThresholdDbfs, hrail]
      exact ⟨by linarith, hle⟩
    exact hbelow.trans_le habove

/-! ### Main result -/

/-- Calibration recommends a usable window exactly if the readings have
    room for one. -/
theorem recommends_window_iff (readings : List ℚ) (hrange : ∀ r ∈ readings, r ≤ 0) :
    RecommendsWindow readings ↔ HasRoom readings := by
  by_cases hne : readings = []
  · -- without measurements there is neither
    rw [hne]
    constructor
    · rintro ⟨r, hr, -⟩
      cases hr
    · rintro ⟨t, -, hcount, -⟩
      exact absurd hcount (Nat.not_lt_zero _)
  · obtain ⟨e, he, hp05, hclean⟩ := envelope_ok hne
    have hsweep : runBandSweep readings = .ok e.recommend := by
      rw [runBandSweep, if_neg hne, he]
      rfl
    have hp05le : e.p05 ≤ 0 := hrange _ (orderStatistic_mem hp05)
    have hwindow : RecommendsWindow readings ↔ e.recommend.floor < e.recommend.ceil := by
      constructor
      · intro ⟨r, hr, hlt⟩
        rw [hsweep] at hr
        cases hr
        exact hlt
      · exact fun hlt => ⟨_, hsweep, hlt⟩
    rw [hwindow, recommend_lt_iff hp05le]
    refine exists_congr fun t => and_congr_right fun _ => and_congr ?_ ?_
    · exact orderStatistic_le_iff hp05 _
    · rw [← not_le, orderStatistic_le_iff hclean, not_lt]

/-- A quiet band with one station. -/
theorem recommends_window_quiet : RecommendsWindow [-60, -58, -20] :=
  (recommends_window_iff [-60, -58, -20] (by decide +kernel)).mpr
    ⟨-62, by decide, by decide +kernel, by decide +kernel⟩

/-- A band with nothing but a saturated station: the floor is -3 dBFS, the
    ceiling -6 dBFS. -/
theorem saturated_band_no_window :
    runBandSweep [0] = .ok ⟨-3, -6⟩ ∧ ¬ RecommendsWindow [0] := by
  have hsweep : runBandSweep [0] = .ok ⟨-3, -6⟩ := by decide +kernel
  refine ⟨hsweep, ?_⟩
  intro ⟨r, hr, hlt⟩
  rw [hsweep] at hr
  cases hr
  exact absurd hlt (by decide)

end Calibration

end FmSdrTuner
