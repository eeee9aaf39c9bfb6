import FmSdrTuner.Dsp.Cmath
import FmSdrTuner.Dsp.FadeMute
import FmSdrTuner.Framework.Noninterference
import FmSdrTuner.Framework.Smoothing

/-! # The output stage

    The last part of `DspPipeline::runDemodChain`: the squelch with the ramp
    of its gain, and the soft limiter.

    * `output_mem_run`: no sample that leaves the pipeline is out of range;
    * `output_of_span`: while the gate stays open, or closed, the audio is
      multiplied by one exponential, however it is cut into blocks. -/

namespace FmSdrTuner

variable {K : Type*} [Field K] [LinearOrder K]

/-! ### The squelch -/

/-- `Squelch` with the ramp of its gain. -/
structure RampedSquelch (K : Type*) where
  gate : Squelch
  rampAlpha : K
  gain : K

/-- The part of the way that the gain goes in one sample. -/
def rampAlpha (m : Cmath K) (attackReleaseSec : ℚ) (sampleRate : Int) : K :=
  let seconds : K := (max (1 / 1000) attackReleaseSec : ℚ)
  let fs : K := (max 1 sampleRate : Int)
  1 - m.exp (-1 / (seconds * fs))

namespace RampedSquelch

/-- The member initialisers. -/
def initial : RampedSquelch K := ⟨.initial, (1 / 1000 : ℚ), 1⟩

/-- `Squelch::configure`. -/
def configure (m : Cmath K) (sq : RampedSquelch K) (openDbfs hysteresisDb : ℚ)
    (attackReleaseSec : ℚ) (sampleRate : Int) : RampedSquelch K where
  gate := sq.gate.configure openDbfs hysteresisDb
  rampAlpha := FmSdrTuner.rampAlpha m attackReleaseSec sampleRate
  gain := 1

/-- `Squelch::configureFadeMute`. -/
def configureFadeMute (m : Cmath K) (sq : RampedSquelch K) (dropDb hysteresisDb : ℚ)
    (attackReleaseSec : ℚ) (sampleRate : Int) (refDecayDbPerSec updatesPerSec : ℚ) :
    RampedSquelch K where
  gate := sq.gate.configureFadeMute dropDb hysteresisDb refDecayDbPerSec updatesPerSec
  rampAlpha := FmSdrTuner.rampAlpha m attackReleaseSec sampleRate
  gain := 1

/-- `Squelch::reset`. -/
def reset (sq : RampedSquelch K) : RampedSquelch K := { sq with gate := sq.gate.reset, gain := 1 }

/-- `Squelch::updateGate`. -/
def updateGate (sq : RampedSquelch K) (channelPowerDbfs demodSnrDb : Option ℚ) :
    RampedSquelch K :=
  { sq with gate := sq.gate.updateGate channelPowerDbfs demodSnrDb }

/-- The squelch does nothing. -/
def disabled (sq : RampedSquelch K) : Bool := !sq.gate.adaptive && decide (sq.gate.openDbfs ≤ -119)

def target (sq : RampedSquelch K) : K := if sq.gate.isOpen then 1 else 0

/-- One sample of the loop of `Squelch::process`. -/
def processSample (sq : RampedSquelch K) (x : K × K) : RampedSquelch K × (K × K) :=
  let gain := sq.gain + sq.rampAlpha * (sq.target - sq.gain)
  ({ sq with gain := gain }, (x.1 * gain, x.2 * gain))

def processSamples (sq : RampedSquelch K) : List (K × K) → RampedSquelch K × List (K × K)
  | [] => (sq, [])
  | x :: xs =>
    let one := sq.processSample x
    let others := one.1.processSamples xs
    (others.1, one.2 :: others.2)

/-- `Squelch::process`. -/
def process (sq : RampedSquelch K) (audio : List (K × K)) : RampedSquelch K × List (K × K) :=
  -- the gain stays where it is, at one
  if sq.disabled then (sq, audio) else sq.processSamples audio

end RampedSquelch

/-- The time of the ramp, with the fade-mute or without. -/
def attackReleaseSec : Option FadeMute → ℚ
  | some .gentle => 22 / 1000
  | some .strong => 15 / 1000
  | none => 30 / 1000

/-- The squelch as `DspPipeline::DspPipeline` configures it. -/
def DspPipeline.rampedSquelch {κ : Type*} (m : Cmath K) (p : DspPipeline κ)
    (inputRate outputRate : Int) (squelchDbfs : ℚ) : Option FadeMute → RampedSquelch K
  | some .gentle => RampedSquelch.initial.configureFadeMute m 14 4
      (attackReleaseSec (some .gentle)) outputRate FadeMute.gentle.refDecayDbPerSec
      (p.updatesPerSec inputRate)
  | some .strong => RampedSquelch.initial.configureFadeMute m 9 3
      (attackReleaseSec (some .strong)) outputRate FadeMute.strong.refDecayDbPerSec
      (p.updatesPerSec inputRate)
  | none => RampedSquelch.initial.configure m squelchDbfs 3 (attackReleaseSec none) outputRate

/-! ### The limiter -/

def kSoftLimitThreshold : K := (85 / 100 : ℚ)

/-- `DspPipeline::softLimitSample`, with the count of the samples that are
    limited. -/
def softLimitSample (m : Cmath K) (x : K) (softCount : Nat) : K × Nat :=
  let ax := |x|
  if ax ≤ kSoftLimitThreshold then (x, softCount)
  else
    let range : K := 1 - kSoftLimitThreshold
    let soft := kSoftLimitThreshold + range * m.tanh ((ax - kSoftLimitThreshold) / range)
    (clampTo (if x < 0 then -soft else soft) (-1) 1, (softCount + 1) % 2 ^ 32)

/-- The samples of a block, left before right. -/
def softLimitAll (m : Cmath K) : Nat → List (K × K) → List (K × K) × Nat
  | softCount, [] => ([], softCount)
  | softCount, x :: xs =>
    let left := softLimitSample m x.1 softCount
    let right := softLimitSample m x.2 left.2
    let others := softLimitAll m right.2 xs
    ((left.1, right.1) :: others.1, others.2)

/-! ### A block -/

/-- What the output stage adds to the result of a block. -/
structure OutputBlock (K : Type*) where
  audio : List (K × K)
  audioClipRatio : K

/-- The end of `DspPipeline::runDemodChain`. -/
def RampedSquelch.finishBlock (m : Cmath K) (sq : RampedSquelch K)
    (channelPowerDbfs demodSnrDb : Option ℚ) (audio : List (K × K)) :
    RampedSquelch K × OutputBlock K :=
  let gated := (sq.updateGate channelPowerDbfs demodSnrDb).process audio
  let limited := softLimitAll m 0 gated.2
  let outSamples := audio.length
  (gated.1,
    { audio := limited.1
      audioClipRatio := if 0 < outSamples then (limited.2 : K) / (outSamples * 2 : Nat) else 0 })

/-- A block of audio with the estimates that come with it. -/
structure AudioBlock (K : Type*) where
  channelPowerDbfs : Option ℚ
  demodSnrDb : Option ℚ
  audio : List (K × K)

/-- What the pipeline does with its output stage; `none` is a reset. -/
abbrev OutputCall (K : Type*) := Option (AudioBlock K)

def outputStage (m : Cmath K) : Machine (RampedSquelch K) (OutputCall K) where
  step sq
    | some b => (sq.finishBlock m b.channelPowerDbfs b.demodSnrDb b.audio).1
    | none => sq.reset

/-- The block that a call gives. -/
def outputOf (m : Cmath K) (sq : RampedSquelch K) : OutputCall K → OutputBlock K
  | some b => (sq.finishBlock m b.channelPowerDbfs b.demodSnrDb b.audio).2
  | none => ⟨[], 0⟩

/-! ### Ranges -/

variable [IsStrictOrderedRing K] {m : Cmath K}

/-- Nothing is limited past full scale. -/
theorem softLimitSample_mem (m : Cmath K) (x : K) (softCount : Nat) :
    (softLimitSample m x softCount).1 ∈ Set.Icc (-1 : K) 1 := by
  unfold softLimitSample
  simp only
  split
  · next hquiet =>
    have hthreshold : (kSoftLimitThreshold : K) ≤ 1 := by norm_num [kSoftLimitThreshold]
    exact abs_le.mp (le_trans hquiet hthreshold)
  · exact clampTo_mem _ (by linarith [zero_le_one (α := K)])

omit [IsStrictOrderedRing K] in
theorem softLimitSample_count_le (m : Cmath K) (x : K) (softCount : Nat) :
    (softLimitSample m x softCount).2 ≤ softCount + 1 := by
  unfold softLimitSample
  simp only
  split
  · exact Nat.le_succ _
  · exact Nat.mod_le _ _

theorem softLimitAll_mem (m : Cmath K) (softCount : Nat) (audio : List (K × K)) :
    ∀ x ∈ (softLimitAll m softCount audio).1,
      x.1 ∈ Set.Icc (-1 : K) 1 ∧ x.2 ∈ Set.Icc (-1 : K) 1 := by
  induction audio generalizing softCount with
  | nil => intro x hx; cases hx
  | cons y ys ih =>
    rw [softLimitAll, List.forall_mem_cons]
    exact ⟨⟨softLimitSample_mem m _ _, softLimitSample_mem m _ _⟩, ih _⟩

omit [IsStrictOrderedRing K] in
theorem softLimitAll_count_le (m : Cmath K) (softCount : Nat) (audio : List (K × K)) :
    (softLimitAll m softCount audio).2 ≤ softCount + audio.length * 2 := by
  induction audio generalizing softCount with
  | nil => exact Nat.le_refl _
  | cons y ys ih =>
    have hleft := softLimitSample_count_le m y.1 softCount
    have hright := softLimitSample_count_le m y.2 (softLimitSample m y.1 softCount).2
    have hrest := ih (softLimitSample m y.2 (softLimitSample m y.1 softCount).2).2
    rw [List.length_cons]
    exact le_trans hrest (by omega)

omit [LinearOrder K] [IsStrictOrderedRing K] in
theorem length_processSamples (sq : RampedSquelch K) (audio : List (K × K)) :
    (sq.processSamples audio).2.length = audio.length := by
  induction audio generalizing sq with
  | nil => rfl
  | cons x xs ih =>
    rw [RampedSquelch.processSamples, List.length_cons, List.length_cons, ih]

omit [LinearOrder K] [IsStrictOrderedRing K] in
theorem length_process (sq : RampedSquelch K) (audio : List (K × K)) :
    (sq.process audio).2.length = audio.length := by
  unfold RampedSquelch.process
  split
  · rfl
  · exact length_processSamples sq audio

theorem audioClipRatio_mem (sq : RampedSquelch K) (power snr : Option ℚ) (audio : List (K × K)) :
    (sq.finishBlock m power snr audio).2.audioClipRatio ∈ Set.Icc (0 : K) 1 := by
  simp only [RampedSquelch.finishBlock]
  split
  · next hsome =>
    have hcount := softLimitAll_count_le m 0 ((sq.updateGate power snr).process audio).2
    rw [length_process, Nat.zero_add] at hcount
    have hpos : (0 : K) < (audio.length * 2 : Nat) := Nat.cast_pos.mpr (by omega)
    exact ⟨div_nonneg (Nat.cast_nonneg _) hpos.le,
      (div_le_one hpos).mpr (Nat.cast_le.mpr hcount)⟩
  · exact ⟨le_refl 0, zero_le_one⟩

/-! ### The ramp -/

theorem rampAlpha_mem (hm : m.Documented) (attackReleaseSec : ℚ) (sampleRate : Int) :
    rampAlpha m attackReleaseSec sampleRate ∈ Set.Icc (0 : K) 1 := by
  have hseconds : (0 : K) ≤ (max (1 / 1000) attackReleaseSec : ℚ) :=
    Rat.cast_nonneg.mpr (le_trans (by norm_num) (le_max_left _ _))
  have hfs : (0 : K) ≤ (max 1 sampleRate : Int) :=
    Int.cast_nonneg (le_trans zero_le_one (le_max_left _ _))
  exact one_sub_exp_mem hm
    (div_nonpos_of_nonpos_of_nonneg (by norm_num) (mul_nonneg hseconds hfs))

/-- What the squelch keeps. -/
structure RampedSquelch.Ramped (sq : RampedSquelch K) : Prop where
  rampAlpha : sq.rampAlpha ∈ Set.Icc 0 1
  gain : sq.gain ∈ Set.Icc 0 1
  /-- A disabled squelch has never turned the audio down. -/
  disabled : sq.disabled = true → sq.gain = 1

/-- The gains that a block is multiplied by: they follow the gain before it
    without a click, and one another. -/
structure GainsOf (sq sq' : RampedSquelch K) (gains : List K) : Prop where
  slew : (sq.gain :: gains).IsChain fun g g' => |g' - g| ≤ sq.rampAlpha
  range : ∀ g ∈ gains, g ∈ Set.Icc (0 : K) 1
  last : sq'.gain = gains.getLastD sq.gain

/-- A sample multiplied by a gain. -/
def scaled (x : K × K) (gain : K) : K × K := (x.1 * gain, x.2 * gain)

namespace RampedSquelch
variable {sq : RampedSquelch K}

omit [LinearOrder K] [IsStrictOrderedRing K] in
theorem processSample_gain (sq : RampedSquelch K) (x : K × K) :
    (sq.processSample x).1.gain = smooth sq.gain sq.target sq.rampAlpha := by
  rw [smooth, mul_comm (sq.target - sq.gain)]
  rfl

theorem target_mem (sq : RampedSquelch K) : sq.target ∈ Set.Icc (0 : K) 1 := by
  unfold target
  split
  · exact ⟨zero_le_one, le_refl 1⟩
  · exact ⟨le_refl 0, zero_le_one⟩

/-- A step is at most `rampAlpha` long. -/
theorem processSample_slew (h : sq.rampAlpha ∈ Set.Icc 0 1) (hgain : sq.gain ∈ Set.Icc 0 1)
    (x : K × K) : |(sq.processSample x).1.gain - sq.gain| ≤ sq.rampAlpha := by
  obtain ⟨htarget₀, htarget₁⟩ := sq.target_mem
  have hway : |sq.target - sq.gain| ≤ 1 :=
    abs_le.mpr ⟨by linarith [hgain.2], by linarith [hgain.1]⟩
  have hstep : (sq.processSample x).1.gain - sq.gain = sq.rampAlpha * (sq.target - sq.gain) :=
    add_sub_cancel_left _ _
  rw [hstep, abs_mul, abs_of_nonneg h.1]
  exact mul_le_of_le_one_right h.1 hway

theorem processSamples_gains (h : sq.rampAlpha ∈ Set.Icc 0 1) (hgain : sq.gain ∈ Set.Icc 0 1)
    (audio : List (K × K)) :
    ∃ gains, GainsOf sq (sq.processSamples audio).1 gains ∧
      (sq.processSamples audio).2 = List.zipWith scaled audio gains ∧
      gains.length = audio.length := by
  induction audio generalizing sq with
  | nil => exact ⟨[], ⟨List.isChain_singleton _, by simp, rfl⟩, rfl, rfl⟩
  | cons x xs ih =>
    -- a gain between the one before and the target
    have hnext : (sq.processSample x).1.gain ∈ Set.Icc (0 : K) 1 := by
      rw [processSample_gain]
      exact smooth_mem_Icc hgain sq.target_mem h
    obtain ⟨gains, ⟨hslew, hrange, hlast⟩, hout, hlength⟩ :=
      @ih (sq.processSample x).1 h hnext
    refine ⟨(sq.processSample x).1.gain :: gains, ⟨?_, ?_, ?_⟩, ?_, ?_⟩
    · exact List.isChain_cons_cons.mpr ⟨processSample_slew h hgain x, hslew⟩
    · exact List.forall_mem_cons.mpr ⟨hnext, hrange⟩
    · rw [List.getLastD_cons]
      exact hlast
    · show _ :: _ = _
      rw [hout, List.zipWith_cons_cons]
      rfl
    · rw [List.length_cons, List.length_cons, hlength]

/-- What an update changes, a reset makes undone. -/
theorem updateGate_reset (gate : Squelch) (power snr : Option ℚ) :
    (gate.updateGate power snr).reset = gate.reset := by
  unfold Squelch.updateGate
  split
  · cases power with
    | none => rfl
    | some dbfs => cases snr <;> rfl
  · split
    · rfl
    · cases power <;> rfl

theorem updateGate_openDbfs (gate : Squelch) (power snr : Option ℚ) :
    (gate.updateGate power snr).openDbfs = gate.openDbfs := by
  have hreset := congrArg Squelch.openDbfs (updateGate_reset gate power snr)
  exact hreset

omit [Field K] [LinearOrder K] [IsStrictOrderedRing K] in
/-- An update of the gate does not turn the squelch on or off. -/
theorem updateGate_disabled (sq : RampedSquelch K) (power snr : Option ℚ) :
    (sq.updateGate power snr).disabled = sq.disabled := by
  have hadaptive := (Squelch.updateGate_sameSettings sq.gate power snr).adaptive
  have hopen := updateGate_openDbfs sq.gate power snr
  simp only [disabled, updateGate, hadaptive, hopen]

omit [LinearOrder K] [IsStrictOrderedRing K] in
/-- Samples change nothing but the gain. -/
theorem processSamples_frame (sq : RampedSquelch K) (audio : List (K × K)) :
    (sq.processSamples audio).1.gate = sq.gate ∧
      (sq.processSamples audio).1.rampAlpha = sq.rampAlpha := by
  induction audio generalizing sq with
  | nil => exact ⟨rfl, rfl⟩
  | cons x xs ih => exact ih (sq.processSample x).1

omit [LinearOrder K] [IsStrictOrderedRing K] in
theorem process_frame (sq : RampedSquelch K) (audio : List (K × K)) :
    (sq.process audio).1.gate = sq.gate ∧ (sq.process audio).1.rampAlpha = sq.rampAlpha := by
  unfold process
  split
  · exact ⟨rfl, rfl⟩
  · exact processSamples_frame sq audio

omit [IsStrictOrderedRing K] in
theorem finishBlock_reset (m : Cmath K) (sq : RampedSquelch K) (power snr : Option ℚ)
    (audio : List (K × K)) : (sq.finishBlock m power snr audio).1.reset = sq.reset := by
  obtain ⟨hgate, halpha⟩ := (sq.updateGate power snr).process_frame audio
  show RampedSquelch.mk (Squelch.reset _) _ _ = RampedSquelch.mk _ _ _
  rw [finishBlock, hgate, halpha, updateGate, updateGate_reset]

omit [IsStrictOrderedRing K] in
theorem Ramped.updateGate (h : sq.Ramped) (power snr : Option ℚ) :
    (sq.updateGate power snr).Ramped where
  rampAlpha := h.rampAlpha
  gain := h.gain
  disabled hoff := h.disabled (by rwa [updateGate_disabled] at hoff)

/-- A disabled squelch multiplies by one, any other by its gain. -/
theorem Ramped.process (h : sq.Ramped) (audio : List (K × K)) :
    (sq.process audio).1.Ramped ∧ ∃ gains, GainsOf sq (sq.process audio).1 gains ∧
      (sq.process audio).2 = List.zipWith scaled audio gains ∧ gains.length = audio.length := by
  unfold RampedSquelch.process
  split
  · next hoff =>
    -- the samples are left alone, as by a gain of one for each
    have hone := h.disabled hoff
    refine ⟨h, List.replicate audio.length 1, ⟨?_, ?_, ?_⟩, ?_, List.length_replicate⟩
    · rw [hone, ← List.replicate_succ]
      refine List.isChain_replicate_of_rel _ ?_
      rw [sub_self, abs_zero]
      exact h.rampAlpha.1
    · intro g hg
      rw [List.eq_of_mem_replicate hg]
      exact ⟨zero_le_one, le_refl 1⟩
    · have hmem : (List.replicate audio.length (1 : K)).getLastD 1 ∈
          1 :: List.replicate audio.length 1 := List.getLastD_mem_cons
      rw [← List.replicate_succ] at hmem
      rw [hone]
      exact (List.eq_of_mem_replicate hmem).symm
    · refine List.ext_getElem (by simp) fun k hk hk' => ?_
      simp [scaled]
  · next hon =>
    obtain ⟨hgate, halpha⟩ := processSamples_frame sq audio
    obtain ⟨gains, hgains, hout⟩ := processSamples_gains h.rampAlpha h.gain audio
    refine ⟨⟨by rw [halpha]; exact h.rampAlpha, ?_, ?_⟩, gains, hgains, hout⟩
    · have hmem : gains.getLastD sq.gain ∈ sq.gain :: gains := List.getLastD_mem_cons
      rw [hgains.last]
      rcases List.mem_cons.mp hmem with hg | hg
      · rw [hg]
        exact h.gain
      · exact hgains.range _ hg
    · intro hoff
      have hsame : (sq.processSamples audio).1.disabled = sq.disabled := by
        rw [RampedSquelch.disabled, RampedSquelch.disabled, hgate]
      exact absurd (hsame.symm.trans hoff) hon

theorem Ramped.reset (h : sq.Ramped) : sq.reset.Ramped where
  rampAlpha := h.rampAlpha
  gain := ⟨zero_le_one, le_refl 1⟩
  disabled _ := rfl

end RampedSquelch

/-- What is right about a block that leaves the pipeline. -/
structure Clean (m : Cmath K) (sq : RampedSquelch K) (b : AudioBlock K) : Prop where
  samples : ∀ x ∈ (outputOf m sq (some b)).audio,
    x.1 ∈ Set.Icc (-1 : K) 1 ∧ x.2 ∈ Set.Icc (-1 : K) 1
  clipRatio : (outputOf m sq (some b)).audioClipRatio ∈ Set.Icc (0 : K) 1
  /-- The input with gains that do not click, limited. -/
  gains : ∃ gains, GainsOf sq ((outputStage m).step sq (some b)) gains ∧
    gains.length = b.audio.length ∧
    (outputOf m sq (some b)).audio = (softLimitAll m 0 (List.zipWith scaled b.audio gains)).1

theorem RampedSquelch.Ramped.clean {sq : RampedSquelch K} (h : sq.Ramped) (b : AudioBlock K) :
    Clean m sq b where
  samples := softLimitAll_mem m 0 _
  clipRatio := audioClipRatio_mem sq _ _ _
  gains := by
    obtain ⟨-, gains, hgains, hout, hlength⟩ :=
      (h.updateGate b.channelPowerDbfs b.demodSnrDb).process b.audio
    refine ⟨gains, ⟨hgains.slew, hgains.range, hgains.last⟩, hlength, ?_⟩
    rw [← hout]
    rfl

theorem RampedSquelch.Ramped.step {sq : RampedSquelch K} (h : sq.Ramped) (c : OutputCall K) :
    ((outputStage m).step sq c).Ramped := by
  cases c with
  | some b => exact ((h.updateGate b.channelPowerDbfs b.demodSnrDb).process b.audio).1
  | none => exact h.reset

theorem ramped_rampedSquelch {κ : Type*} (hm : m.Documented) (p : DspPipeline κ)
    (inputRate outputRate : Int) (squelchDbfs : ℚ) (mode : Option FadeMute) :
    (p.rampedSquelch m inputRate outputRate squelchDbfs mode).Ramped := by
  have hgain : (1 : K) ∈ Set.Icc 0 1 := ⟨zero_le_one, le_refl 1⟩
  rcases mode with _ | _ | _ <;> exact ⟨rampAlpha_mem hm _ _, hgain, fun _ => rfl⟩

/-- After every run of blocks and resets: every sample of the next block is
    in range, so is its clip ratio, and its gain moves in steps of at most
    `rampAlpha`, from the gain at the end of the block before on. -/
theorem output_mem_run {κ : Type*} (hm : m.Documented) (p : DspPipeline κ)
    (inputRate outputRate : Int) (squelchDbfs : ℚ) (mode : Option FadeMute)
    (calls : List (OutputCall K)) (b : AudioBlock K) :
    Clean m ((outputStage m).run
      (p.rampedSquelch m inputRate outputRate squelchDbfs mode) calls) b := by
  have hramped := Machine.run_invariant_always (M := outputStage m) (fun _ c hs => hs.step c) calls
    (ramped_rampedSquelch hm p inputRate outputRate squelchDbfs mode)
  exact hramped.clean b

/-- A short gentle run. -/
theorem output_mem_blocks :
    Clean realMath ((outputStage realMath).run
      ((DspPipeline.construct 4096 1 : DspPipeline ℚ).rampedSquelch realMath 256000 48000 (-120)
        (some .gentle))
      [some ⟨some (-20), none, [(1, -1)]⟩, none, some ⟨some (-60), none, [(2, 0)]⟩])
      ⟨some (-60), some 3, [(1 / 2, 1)]⟩ :=
  output_mem_run realMath_documented _ _ _ _ _ _ _

/-! ### A span with the gate open, or closed -/

/-- The samples of the block meet the gate open, or closed. -/
def GateIs (isOpen : Bool) (sq : RampedSquelch K) : OutputCall K → Prop
  | some b => (sq.updateGate b.channelPowerDbfs b.demodSnrDb).gate.isOpen = isOpen
  | none => False

instance decidableGateIs (isOpen : Bool) (sq : RampedSquelch K) :
    ∀ c, Decidable (GateIs isOpen sq c)
  | some _ => inferInstanceAs (Decidable (_ = _))
  | none => inferInstanceAs (Decidable False)

/-- What `samples` leave of the way of the gain. -/
def rampLeft (m : Cmath K) (attackReleaseSec : ℚ) (sampleRate : Int) (samples : K) : K :=
  m.exp (-samples / ((max (1 / 1000) attackReleaseSec : ℚ) * (max 1 sampleRate : Int)))

theorem decay_rampLeft (hm : m.Documented) (attackReleaseSec : ℚ) (sampleRate : Int) :
    Decay (rampLeft m attackReleaseSec sampleRate) where
  zero := by rw [rampLeft, neg_zero, zero_div, hm.exp_zero]
  add a b := by
    rw [rampLeft, rampLeft, rampLeft, ← hm.exp_add]
    congr 1
    ring

/-- The gain after `samples` of a span. -/
def spanGain (m : Cmath K) (attackReleaseSec : ℚ) (sampleRate : Int) (isOpen : Bool) (gain : K)
    (samples : Nat) : K :=
  smooth gain (if isOpen then 1 else 0) (1 - rampLeft m attackReleaseSec sampleRate samples)

/-- A sample as it leaves the limiter. -/
def limited (m : Cmath K) (x : K × K) : K × K :=
  ((softLimitSample m x.1 0).1, (softLimitSample m x.2 0).1)

omit [IsStrictOrderedRing K] in
/-- The count does not matter to the samples. -/
theorem softLimitAll_audio (m : Cmath K) (softCount : Nat) (audio : List (K × K)) :
    (softLimitAll m softCount audio).1 = audio.map (limited m) := by
  have hcount : ∀ x c, (softLimitSample m x c).1 = (softLimitSample m x 0).1 := by
    intro x c
    unfold softLimitSample
    simp only
    split <;> rfl
  induction audio generalizing softCount with
  | nil => rfl
  | cons x xs ih =>
    rw [softLimitAll, List.map_cons, ih, limited, hcount x.1, hcount x.2]

section
variable {attackReleaseSec : ℚ} {sampleRate : Int} {isOpen : Bool}

omit [LinearOrder K] [IsStrictOrderedRing K] in
theorem spanGain_one (sq : RampedSquelch K)
    (halpha : sq.rampAlpha = rampAlpha m attackReleaseSec sampleRate)
    (hgate : sq.gate.isOpen = isOpen) (x : K × K) :
    (sq.processSample x).1.gain = spanGain m attackReleaseSec sampleRate isOpen sq.gain 1 := by
  rw [RampedSquelch.processSample_gain, spanGain, halpha, RampedSquelch.target, hgate]
  simp only [rampAlpha, rampLeft, Nat.cast_one]

theorem spanGain_zero (hm : m.Documented) (gain : K) :
    spanGain m attackReleaseSec sampleRate isOpen gain 0 = gain := by
  rw [spanGain, Nat.cast_zero, (decay_rampLeft hm attackReleaseSec sampleRate).smooth_zero]

theorem spanGain_spanGain (hm : m.Documented) (gain : K) (a b : Nat) :
    spanGain m attackReleaseSec sampleRate isOpen
        (spanGain m attackReleaseSec sampleRate isOpen gain a) b =
      spanGain m attackReleaseSec sampleRate isOpen gain (a + b) := by
  rw [spanGain, spanGain, spanGain, (decay_rampLeft hm _ _).smooth_smooth, Nat.cast_add]

/-- The samples of one block. -/
theorem processSamples_span (hm : m.Documented) {sq : RampedSquelch K}
    (halpha : sq.rampAlpha = rampAlpha m attackReleaseSec sampleRate)
    (hgate : sq.gate.isOpen = isOpen) (audio : List (K × K)) :
    (sq.processSamples audio).1.gain =
        spanGain m attackReleaseSec sampleRate isOpen sq.gain audio.length ∧
      (sq.processSamples audio).2 = audio.mapIdx fun k x =>
        scaled x (spanGain m attackReleaseSec sampleRate isOpen sq.gain (k + 1)) := by
  induction audio generalizing sq with
  | nil => exact ⟨(spanGain_zero hm sq.gain).symm, rfl⟩
  | cons x xs ih =>
    have hone := spanGain_one sq halpha hgate x
    obtain ⟨hgain, hout⟩ := @ih (sq.processSample x).1 halpha hgate
    constructor
    · show ((sq.processSample x).1.processSamples xs).1.gain = _
      rw [hgain, hone, spanGain_spanGain hm, List.length_cons, Nat.add_comm]
    · show (sq.processSample x).2 :: ((sq.processSample x).1.processSamples xs).2 = _
      rw [hout, List.mapIdx_cons, hone]
      simp only [spanGain_spanGain hm, Nat.zero_add, Nat.add_comm 1]
      congr 1
      exact congrArg (scaled x) hone

omit [LinearOrder K] [IsStrictOrderedRing K] in
/-- A gain of one stays there while the gate is open. -/
theorem spanGain_open (samples : Nat) :
    spanGain m attackReleaseSec sampleRate true (1 : K) samples = 1 := by
  simp [spanGain]

omit [Field K] [LinearOrder K] [IsStrictOrderedRing K] in
/-- The gate of a disabled squelch is open. -/
theorem isOpen_of_disabled {sq : RampedSquelch K} (hoff : sq.disabled = true)
    (power snr : Option ℚ) : (sq.updateGate power snr).gate.isOpen = true := by
  simp only [RampedSquelch.disabled, Bool.and_eq_true, Bool.not_eq_true',
    decide_eq_true_eq] at hoff
  simp [RampedSquelch.updateGate, Squelch.updateGate, hoff.1, hoff.2]

/-- The samples of one block, whether the squelch is disabled or not. -/
theorem process_span (hm : m.Documented) {sq : RampedSquelch K}
    (halpha : sq.rampAlpha = rampAlpha m attackReleaseSec sampleRate)
    (hgate : sq.gate.isOpen = isOpen)
    (hoff : sq.disabled = true → sq.gain = 1 ∧ isOpen = true) (audio : List (K × K)) :
    (sq.process audio).1.gain =
        spanGain m attackReleaseSec sampleRate isOpen sq.gain audio.length ∧
      (sq.process audio).2 = audio.mapIdx fun k x =>
        scaled x (spanGain m attackReleaseSec sampleRate isOpen sq.gain (k + 1)) := by
  unfold RampedSquelch.process
  split
  · next hdisabled =>
    -- nothing is done, as with a gain of one
    obtain ⟨hgain, rfl⟩ := hoff hdisabled
    simp only [hgain, spanGain_open, scaled, mul_one]
    refine ⟨trivial, List.ext_getElem (by simp) fun k hk hk' => ?_⟩
    simp
  · exact processSamples_span hm halpha hgate audio

/-- A span of blocks. -/
theorem output_of_span_from (hm : m.Documented) {sq : RampedSquelch K}
    (halpha : sq.rampAlpha = rampAlpha m attackReleaseSec sampleRate) (hramped : sq.Ramped)
    {blocks : List (AudioBlock K)}
    (hgate : (outputStage m).Meets (GateIs isOpen) sq (blocks.map some)) :
    (((outputStage m).trace (outputOf m) sq (blocks.map some)).flatMap OutputBlock.audio) =
      (blocks.flatMap AudioBlock.audio).mapIdx fun k x =>
        limited m (scaled x (spanGain m attackReleaseSec sampleRate isOpen sq.gain (k + 1))) := by
  induction blocks generalizing sq with
  | nil => rfl
  | cons b bs ih =>
    obtain ⟨hhere, hlater⟩ := hgate
    have hoff : (sq.updateGate b.channelPowerDbfs b.demodSnrDb).disabled = true →
        (sq.updateGate b.channelPowerDbfs b.demodSnrDb).gain = 1 ∧ isOpen = true := by
      intro hdisabled
      rw [sq.updateGate_disabled] at hdisabled
      exact ⟨hramped.disabled hdisabled, hhere.symm.trans (isOpen_of_disabled hdisabled _ _)⟩
    have halpha' : (sq.updateGate b.channelPowerDbfs b.demodSnrDb).rampAlpha =
        rampAlpha m attackReleaseSec sampleRate := halpha
    obtain ⟨hgain, hout⟩ := process_span hm halpha' hhere hoff b.audio
    obtain ⟨-, hframe⟩ := RampedSquelch.process_frame
      (sq.updateGate b.channelPowerDbfs b.demodSnrDb) b.audio
    have hnext : (outputStage m).step sq (some b) =
        ((sq.updateGate b.channelPowerDbfs b.demodSnrDb).process b.audio).1 := rfl
    have haudio : (outputOf m sq (some b)).audio = b.audio.mapIdx fun k x =>
        limited m (scaled x (spanGain m attackReleaseSec sampleRate isOpen sq.gain (k + 1))) := by
      show (softLimitAll m 0 ((sq.updateGate _ _).process b.audio).2).1 = _
      rw [softLimitAll_audio, hout, List.mapIdx_eq_zipIdx_map, List.map_map,
        List.mapIdx_eq_zipIdx_map]
      rfl
    rw [List.map_cons, Machine.trace_cons, List.flatMap_cons, List.flatMap_cons, haudio,
      List.mapIdx_append]
    congr 1
    -- the next block takes up the gain that this one ends with
    have hramped' := hramped.step (m := m) (some b)
    rw [hnext] at hlater hramped' ⊢
    rw [ih (hframe.trans halpha) hramped' hlater, hgain]
    simp only [spanGain_spanGain hm]
    refine congrArg (fun f => List.mapIdx f _) (funext fun k => funext fun x => ?_)
    rw [← Nat.add_assoc, Nat.add_comm b.audio.length k]
    rfl

end

omit [LinearOrder K] [IsStrictOrderedRing K] in
theorem rampedSquelch_rampAlpha {κ : Type*} (p : DspPipeline κ) (inputRate outputRate : Int)
    (squelchDbfs : ℚ) (mode : Option FadeMute) :
    (p.rampedSquelch m inputRate outputRate squelchDbfs mode).rampAlpha =
      rampAlpha m (attackReleaseSec mode) outputRate := by
  rcases mode with _ | _ | _ <;> rfl

omit [IsStrictOrderedRing K] in
/-- Calls keep the ramp. -/
theorem outputStage_rampAlpha (sq : RampedSquelch K) (calls : List (OutputCall K)) :
    ((outputStage m).run sq calls).rampAlpha = sq.rampAlpha := by
  have hkept : ∀ (s : RampedSquelch K) c, s.rampAlpha = sq.rampAlpha →
      ((outputStage m).step s c).rampAlpha = sq.rampAlpha := by
    intro s c hs
    cases c with
    | some b =>
      obtain ⟨-, halpha⟩ :=
        (s.updateGate b.channelPowerDbfs b.demodSnrDb).process_frame b.audio
      exact halpha.trans hs
    | none => exact hs
  exact Machine.run_invariant_always hkept calls rfl

/-- Whatever went before: while the gate is open, or closed, the audio of all
    blocks together is multiplied by one exponential towards one, or zero,
    sample for sample from the gain at the start, and limited. The blocks it
    comes in do not matter. -/
theorem output_of_span {κ : Type*} (hm : m.Documented) (p : DspPipeline κ)
    (inputRate outputRate : Int) (squelchDbfs : ℚ) (mode : Option FadeMute)
    {calls : List (OutputCall K)} {sq : RampedSquelch K}
    (hrun : (outputStage m).run (p.rampedSquelch m inputRate outputRate squelchDbfs mode) calls =
      sq) {isOpen : Bool} {blocks : List (AudioBlock K)}
    (hgate : (outputStage m).Meets (GateIs isOpen) sq (blocks.map some)) :
    (((outputStage m).trace (outputOf m) sq (blocks.map some)).flatMap OutputBlock.audio) =
      (blocks.flatMap AudioBlock.audio).mapIdx fun k x => limited m (scaled x
        (spanGain m (attackReleaseSec mode) outputRate isOpen sq.gain (k + 1))) := by
  have halpha := outputStage_rampAlpha (m := m)
    (p.rampedSquelch m inputRate outputRate squelchDbfs mode) calls
  have hramped : sq.Ramped := hrun ▸ Machine.run_invariant_always (fun _ c h => h.step c) calls
    (ramped_rampedSquelch hm p inputRate outputRate squelchDbfs mode)
  rw [hrun, rampedSquelch_rampAlpha] at halpha
  exact output_of_span_from hm halpha hramped hgate

/-- A fade, which closes the gate for two blocks. -/
theorem output_of_fade :
    ((outputStage realMath).trace (outputOf realMath)
        ((outputStage realMath).run ((DspPipeline.construct 4096 1 : DspPipeline ℚ).rampedSquelch
          realMath 256000 48000 (-120) (some .gentle)) [some ⟨some (-20), none, []⟩])
        ([⟨some (-60), none, [(1, 1)]⟩, ⟨some (-61), none, [(2, 0)]⟩].map some)).flatMap
        OutputBlock.audio =
      [(1, 1), (2, 0)].mapIdx fun k x => limited realMath (scaled x
        (spanGain realMath (attackReleaseSec (some .gentle)) 48000 false 1 (k + 1))) :=
  output_of_span realMath_documented _ _ _ _ _ rfl
    ⟨by decide +kernel, by decide +kernel, trivial⟩

end FmSdrTuner
