import FmSdrTuner.Dsp.SignalMeter
import FmSdrTuner.Dsp.StereoDecoder

/-! # The signal meter

    From the estimates of a block to the level that clients are shown: the
    mapping to the scale of 120, the smoother, and the signal line. The
    floats are exact numbers.

    Main results: `shown_level_settles`, `shown_level_mono`. -/

namespace FmSdrTuner

/-! ### The scale -/

def kPowerFloor : ℚ := 1 / 100000000000000000000
def kSignalLevelSnrGateDb : ℚ := 3
def kSignalLevelSnrCeilDb : ℚ := 30

/-- `snrLevel120FromSnrDb`; `none` is an SNR that is not finite. -/
def snrLevel120FromSnrDb : Option ℚ → ℚ
  | none => 120
  | some snrDb =>
    let snrNorm := (snrDb - kSignalLevelSnrGateDb) / (kSignalLevelSnrCeilDb - kSignalLevelSnrGateDb)
    clampTo (snrNorm * 120) 0 120

/-- The gain and the window of the scale. -/
structure LevelScale where
  appliedGainDb : Int
  gainCompFactor : ℚ
  signalBiasDb : ℚ
  floorDbfs : ℚ
  ceilDbfs : ℚ

/-- `computeDisplaySignalLevel120`. -/
def computeDisplaySignalLevel120 (m : Cmath ℚ) (channelDbfs noiseFloorDbfs : ℚ) (s : LevelScale)
    (channelAware : Bool) : ℚ :=
  let compensatedDbfs := channelDbfs - s.appliedGainDb * s.gainCompFactor + s.signalBiasDb
  let safeCeil := max s.ceilDbfs (s.floorDbfs + 1)
  let absNorm := (compensatedDbfs - s.floorDbfs) / (safeCeil - s.floorDbfs)
  let level120 := clampTo (absNorm * 120) 0 120
  if channelAware then
    let channelPower := m.pow 10 (channelDbfs / 10)
    let noisePower := m.pow 10 (noiseFloorDbfs / 10)
    let signalExcessPower := max kPowerFloor (channelPower - noisePower)
    let snrDb :=
      max 0 (10 * m.log10 ((signalExcessPower + kPowerFloor) / (noisePower + kPowerFloor)))
    min level120 (snrLevel120FromSnrDb (some snrDb))
  else level120

/-! ### A block -/

/-- What `processAudioBlock` knows of a block when it comes to the meter. -/
structure LevelBlock where
  /-- The level that `computeSignalLevel` has found. -/
  level120 : ℚ
  level120_mem : level120 ∈ Set.Icc 0 120
  /-- `none` if it is not finite, as for the SNR. -/
  channelPowerDbfs : Option ℚ
  demodSnrDb : Option ℚ
  scale : LevelScale
  stereoDetected : Bool
  effectiveForceMono : Bool

/-- `displaySignal.level120`. -/
def LevelBlock.displayLevel (m : Cmath ℚ) (b : LevelBlock) : ℚ :=
  match b.channelPowerDbfs with
  | none => b.level120
  | some dbfs =>
    -- the noise floor, which is not a number here, is not looked at
    min (computeDisplaySignalLevel120 m dbfs 0 b.scale false) (snrLevel120FromSnrDb b.demodSnrDb)

/-- `SignalLevelSmoother`. -/
structure SignalLevelSmoother where
  initialized : Bool
  value : ℚ

/-- `smoothSignalLevel`; what it returns is the value. -/
def smoothSignalLevel (input : ℚ) (state : SignalLevelSmoother) : SignalLevelSmoother :=
  if !state.initialized then ⟨true, input⟩
  else
    let alpha := if state.value < input then 42 / 100 else 18 / 100
    { state with value := state.value + (input - state.value) * alpha }

/-- What `XDRServer` keeps for the signal line. -/
structure SignalState where
  signalDeci : Int
  signalStereo : Bool
  signalForcedMono : Bool
  cci : Int
  aci : Int

/-- The constructor's initialiser list. -/
def SignalState.initial : SignalState := ⟨0, false, false, -1, -1⟩

/-- `XDRServer::updateSignal`. -/
def updateSignal (level : ℚ) (stereo forcedMono : Bool) (cci aci : Int) : SignalState where
  signalDeci := SignalLevel.lround (clampTo level 0 120 * 10)
  signalStereo := stereo
  signalForcedMono := forcedMono
  cci := cci
  aci := aci

/-- A level with `std::fixed` and one decimal. -/
def formatDeci (deci : Int) : Text :=
  (if deci < 0 then ['-'] else []) ++ decimal (deci.natAbs / 10) ++ '.' ::
    decimal (deci.natAbs % 10)

/-- `XDRServer::buildSignalLine`. -/
def buildSignalLine (s : SignalState) : Text :=
  let mode :=
    if s.signalForcedMono then if s.signalStereo then 'S' else 'M'
    else if s.signalStereo then 's' else 'm'
  'S' :: mode :: (formatDeci s.signalDeci ++ ',' :: (decimalInt s.cci ++ ',' :: decimalInt s.aci))

/-- The smoother and the server's copy. -/
structure LevelMeter where
  smoother : SignalLevelSmoother
  signal : SignalState

/-- At start-up. -/
def LevelMeter.initial : LevelMeter := ⟨⟨false, 0⟩, .initial⟩

/-- The meter in `processAudioBlock`. -/
def levelMeter (m : Cmath ℚ) : Machine LevelMeter LevelBlock where
  step s b :=
    let smoother := smoothSignalLevel (b.displayLevel m) s.smoother
    -- forced mono is shown as mono, whatever is received
    let stereoIndicator := b.stereoDetected && !b.effectiveForceMono
    ⟨smoother, updateSignal smoother.value stereoIndicator b.effectiveForceMono (-1) (-1)⟩

example : buildSignalLine (updateSignal (4725 / 100) true false (-1) (-1)) =
    "Ss47.3,-1,-1".toList := by
  decide +kernel

/-! ### Ranges -/

theorem snrLevel120_mem (snrDb : Option ℚ) : snrLevel120FromSnrDb snrDb ∈ Set.Icc 0 120 := by
  cases snrDb with
  | none => exact ⟨by norm_num [snrLevel120FromSnrDb], le_refl _⟩
  | some snrDb => exact clampTo_mem _ (by norm_num)

theorem displaySignalLevel_mem (m : Cmath ℚ) (channelDbfs noiseFloorDbfs : ℚ) (s : LevelScale)
    (channelAware : Bool) :
    computeDisplaySignalLevel120 m channelDbfs noiseFloorDbfs s channelAware ∈
      Set.Icc 0 120 := by
  have hclamp : ∀ x : ℚ, clampTo x 0 120 ∈ Set.Icc (0 : ℚ) 120 := fun x =>
    clampTo_mem x (by norm_num)
  unfold computeDisplaySignalLevel120
  simp only
  split
  · exact ⟨le_min (hclamp _).1 (snrLevel120_mem _).1, min_le_of_left_le (hclamp _).2⟩
  · exact hclamp _

theorem LevelBlock.displayLevel_mem (m : Cmath ℚ) (b : LevelBlock) :
    b.displayLevel m ∈ Set.Icc 0 120 := by
  unfold LevelBlock.displayLevel
  split
  · exact b.level120_mem
  · have hlevel := displaySignalLevel_mem m
    exact ⟨le_min (hlevel _ _ _ _).1 (snrLevel120_mem _).1, min_le_of_left_le (hlevel _ _ _ _).2⟩

theorem smoothSignalLevel_mem {input : ℚ} {state : SignalLevelSmoother} {lo hi : ℚ}
    (hstate : state.value ∈ Set.Icc lo hi) (hinput : input ∈ Set.Icc lo hi) :
    (smoothSignalLevel input state).value ∈ Set.Icc lo hi := by
  unfold smoothSignalLevel
  split
  · exact hinput
  · refine smooth_mem_Icc hstate hinput ?_
    split <;> exact ⟨by norm_num, by norm_num⟩

/-- What is kept of the smoother and shown of it. -/
structure LevelMeter.InRange (s : LevelMeter) : Prop where
  value : s.smoother.value ∈ Set.Icc 0 120
  /-- The server has the rounded value in tenths. -/
  shown : |(s.signal.signalDeci : ℚ) - 10 * s.smoother.value| ≤ 1 / 2

theorem abs_lround_sub_le {x : ℚ} (hx : 0 ≤ x) : |(SignalLevel.lround x : ℚ) - x| ≤ 1 / 2 := by
  have hle := Int.floor_le (x + 1 / 2)
  have hlt := Int.lt_floor_add_one (x + 1 / 2)
  rw [SignalLevel.lround, if_pos hx, abs_le]
  constructor <;> linarith

theorem LevelMeter.InRange.step {s : LevelMeter} (h : s.InRange) (m : Cmath ℚ)
    (b : LevelBlock) : ((levelMeter m).step s b).InRange := by
  have hvalue := smoothSignalLevel_mem h.value (b.displayLevel_mem m)
  refine ⟨hvalue, ?_⟩
  show |(SignalLevel.lround (clampTo _ 0 120 * 10) : ℚ) - _| ≤ 1 / 2
  rw [clampTo_of_mem hvalue, mul_comm 10]
  exact abs_lround_sub_le (mul_nonneg hvalue.1 (by norm_num))

theorem LevelMeter.inRange_run (m : Cmath ℚ) (blocks : List LevelBlock) :
    ((levelMeter m).run .initial blocks).InRange := by
  have hstart : LevelMeter.initial.InRange :=
    ⟨⟨le_refl 0, by norm_num [LevelMeter.initial]⟩,
      by norm_num [LevelMeter.initial, SignalState.initial]⟩
  exact Machine.run_invariant_always (fun _ b h => h.step m b) blocks hstart

/-! ### Settling -/

/-- A step leaves at most 82 % of the distance. -/
theorem smoothSignalLevel_settles (input : ℚ) (state : SignalLevelSmoother) :
    |(smoothSignalLevel input state).value - input| ≤ 82 / 100 * |state.value - input| := by
  unfold smoothSignalLevel
  split
  · rw [sub_self, abs_zero]
    positivity
  · have hleft : ∀ alpha : ℚ, state.value + (input - state.value) * alpha - input =
        (state.value - input) * (1 - alpha) := smooth_sub state.value input
    simp only [hleft, abs_mul, mul_comm (82 / 100 : ℚ)]
    refine mul_le_mul_of_nonneg_left ?_ (abs_nonneg _)
    split <;> norm_num [abs_of_nonneg]

/-- Over blocks of one level the distance falls with each of them. -/
theorem value_settles (m : Cmath ℚ) {level : ℚ} (s : LevelMeter) {span : List LevelBlock}
    (hspan : ∀ b ∈ span, b.displayLevel m = level) :
    |((levelMeter m).run s span).smoother.value - level| ≤
      (82 / 100) ^ span.length * |s.smoother.value - level| := by
  induction span generalizing s with
  | nil => simp
  | cons b span ih =>
    obtain ⟨hb, hrest⟩ := List.forall_mem_cons.mp hspan
    have hstep : |((levelMeter m).step s b).smoother.value - level| ≤
        82 / 100 * |s.smoother.value - level| := by
      rw [← hb]
      exact smoothSignalLevel_settles _ _
    calc |((levelMeter m).run ((levelMeter m).step s b) span).smoother.value - level|
        ≤ (82 / 100) ^ span.length * |((levelMeter m).step s b).smoother.value - level| :=
          ih _ hrest
      _ ≤ (82 / 100) ^ span.length * (82 / 100 * |s.smoother.value - level|) :=
          mul_le_mul_of_nonneg_left hstep (by positivity)
      _ = (82 / 100) ^ (b :: span).length * |s.smoother.value - level| := by
          rw [List.length_cons, pow_succ, mul_assoc]

/-- Whatever went before: after a span of blocks of one level, clients are
    shown this level up to 82 % for each block of the span, and half a
    tenth. -/
theorem shown_level_settles (m : Cmath ℚ) (before : List LevelBlock) {level : ℚ}
    (hlevel : level ∈ Set.Icc 0 120) {span : List LevelBlock}
    (hspan : ∀ b ∈ span, b.displayLevel m = level) :
    |(((levelMeter m).run .initial (before ++ span)).signal.signalDeci : ℚ) - 10 * level| ≤
      1200 * (82 / 100) ^ span.length + 1 / 2 := by
  have hstart := (LevelMeter.inRange_run m before).value
  have hshown := (LevelMeter.inRange_run m (before ++ span)).shown
  have hsettled := value_settles m ((levelMeter m).run .initial before) hspan
  rw [← Machine.run_append] at hsettled
  -- the span starts somewhere on the scale
  have hfar : |((levelMeter m).run .initial before).smoother.value - level| ≤ 120 :=
    abs_le.mpr ⟨by linarith [hstart.1, hlevel.2], by linarith [hstart.2, hlevel.1]⟩
  have hnear := hsettled.trans (mul_le_mul_of_nonneg_left hfar (by positivity))
  rw [abs_le] at hshown hnear ⊢
  constructor <;> linarith [hshown.1, hshown.2, hnear.1, hnear.2]

/-- A block on a scale from -80 to -10 dBFS. -/
def meterBlock (dbfs snr : ℚ) : LevelBlock where
  level120 := 0
  level120_mem := ⟨le_refl 0, by norm_num⟩
  channelPowerDbfs := some dbfs
  demodSnrDb := some snr
  scale := ⟨0, 1, 0, -80, -10⟩
  stereoDetected := true
  effectiveForceMono := false

/-- A strong station, and then two blocks of nothing. -/
theorem shown_level_of_silence :
    |(((levelMeter StereoDecoder.silentMath).run .initial
      ([meterBlock (-20) 30] ++ [meterBlock (-80) 0, meterBlock (-90) 0])).signal.signalDeci : ℚ)
        - 10 * 0| ≤
      1200 * (82 / 100) ^ [meterBlock (-80) 0, meterBlock (-90) 0].length + 1 / 2 :=
  shown_level_settles _ _ ⟨le_refl 0, by norm_num⟩ (by decide +kernel)

/-! ### Comparison -/

/-- A block that is received no weaker: on the same scale, with no less power
    and no less SNR. -/
structure LevelBlock.NoWeaker (b b' : LevelBlock) : Prop where
  scale : b.scale = b'.scale
  power : ∃ x y, b.channelPowerDbfs = some x ∧ b'.channelPowerDbfs = some y ∧ x ≤ y
  snr : ∃ x y, b.demodSnrDb = some x ∧ b'.demodSnrDb = some y ∧ x ≤ y

theorem LevelBlock.NoWeaker.displayLevel {b b' : LevelBlock} (h : b.NoWeaker b') (m : Cmath ℚ) :
    b.displayLevel m ≤ b'.displayLevel m := by
  obtain ⟨x, y, hx, hy, hpower⟩ := h.power
  obtain ⟨u, v, hu, hv, hsnr⟩ := h.snr
  -- the window is at least one dB wide, whatever is configured
  have hwindow : 0 < max b'.scale.ceilDbfs (b'.scale.floorDbfs + 1) - b'.scale.floorDbfs := by
    linarith [le_max_right b'.scale.ceilDbfs (b'.scale.floorDbfs + 1)]
  have hdisplay : computeDisplaySignalLevel120 m x 0 b'.scale false ≤
      computeDisplaySignalLevel120 m y 0 b'.scale false := by
    simp only [computeDisplaySignalLevel120, Bool.false_eq_true, if_false]
    refine clampTo_mono ?_
    gcongr
  have hcap : snrLevel120FromSnrDb (some u) ≤ snrLevel120FromSnrDb (some v) := by
    refine clampTo_mono ?_
    unfold kSignalLevelSnrCeilDb kSignalLevelSnrGateDb
    linarith
  simp only [LevelBlock.displayLevel, hx, hy, hu, hv, h.scale]
  exact min_le_min hdisplay hcap

/-- The smoother, whose two speeds meet at its value, keeps the order. -/
theorem smoothSignalLevel_mono {x y : ℚ} {s t : SignalLevelSmoother} (hinput : x ≤ y)
    (hflag : s.initialized = t.initialized) (hvalue : s.value ≤ t.value) :
    (smoothSignalLevel x s).value ≤ (smoothSignalLevel y t).value := by
  unfold smoothSignalLevel
  rw [hflag]
  split
  · exact hinput
  · -- faster up than down, but the two lines meet where the input is the value
    simp only
    split <;> split <;> linarith

theorem lround_mono {x y : ℚ} (hx : 0 ≤ x) (h : x ≤ y) :
    SignalLevel.lround x ≤ SignalLevel.lround y := by
  rw [SignalLevel.lround, SignalLevel.lround, if_pos hx, if_pos (hx.trans h)]
  exact Int.floor_le_floor (by linarith)

/-- What a meter shows is no less than what another one does. -/
structure LevelMeter.NoLess (s t : LevelMeter) : Prop where
  initialized : s.smoother.initialized = t.smoother.initialized
  value : s.smoother.value ≤ t.smoother.value
  shown : s.signal.signalDeci ≤ t.signal.signalDeci

theorem LevelMeter.NoLess.step {s t : LevelMeter} (h : s.NoLess t) {b b' : LevelBlock}
    (hb : b.NoWeaker b') (m : Cmath ℚ) :
    ((levelMeter m).step s b).NoLess ((levelMeter m).step t b') := by
  have hvalue := smoothSignalLevel_mono (hb.displayLevel m) h.initialized h.value
  refine ⟨?_, hvalue, ?_⟩
  · show (smoothSignalLevel _ _).initialized = (smoothSignalLevel _ _).initialized
    unfold smoothSignalLevel
    rw [h.initialized]
    split <;> rfl
  · have hclamped : clampTo _ (0 : ℚ) 120 ≤ clampTo _ 0 120 := clampTo_mono hvalue
    have hscaled := mul_le_mul_of_nonneg_right hclamped (show (0 : ℚ) ≤ 10 by norm_num)
    exact lround_mono (mul_nonneg (le_max_left _ _) (by norm_num)) hscaled

/-- Blocks that are received no weaker, one by one, never show less. -/
theorem shown_level_mono (m : Cmath ℚ) {blocks blocks' : List LevelBlock}
    (h : List.Forall₂ LevelBlock.NoWeaker blocks blocks') :
    ((levelMeter m).run .initial blocks).signal.signalDeci ≤
      ((levelMeter m).run .initial blocks').signal.signalDeci := by
  have hrun : ∀ s t : LevelMeter, s.NoLess t →
      ((levelMeter m).run s blocks).NoLess ((levelMeter m).run t blocks') := by
    induction h with
    | nil => exact fun _ _ hst => hst
    | cons hb _ ih => exact fun _ _ hst => ih _ _ (hst.step hb m)
  exact (hrun .initial .initial ⟨rfl, le_refl _, le_refl _⟩).shown

/-- More power, and then more SNR. -/
theorem shown_level_of_stronger :
    ((levelMeter StereoDecoder.silentMath).run .initial
        [meterBlock (-60) 12, meterBlock (-60) 12]).signal.signalDeci ≤
      ((levelMeter StereoDecoder.silentMath).run .initial
        [meterBlock (-50) 12, meterBlock (-60) 20]).signal.signalDeci :=
  shown_level_mono _
    (.cons ⟨rfl, ⟨_, _, rfl, rfl, by norm_num⟩, ⟨_, _, rfl, rfl, by norm_num⟩⟩
      (.cons ⟨rfl, ⟨_, _, rfl, rfl, by norm_num⟩, ⟨_, _, rfl, rfl, by norm_num⟩⟩ .nil))

end FmSdrTuner
