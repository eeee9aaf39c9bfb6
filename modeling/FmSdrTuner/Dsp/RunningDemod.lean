import FmSdrTuner.Dsp.AfPostProcessor
import FmSdrTuner.Dsp.DemodBandwidth
import FmSdrTuner.Dsp.MultipathEq

/-! # FMDemod: the samples

    The demodulator of `Dsp.DemodBandwidth` with its objects: from IQ samples
    to the MPX signal, and from that to mono audio. Wherever a wrapper
    creates its object, the object here is a new one.

    Main results: `soundsAlike_reset`, `demodulate_of_heard`. -/

namespace FmSdrTuner

variable {M : Type}

/-- The liquid objects of the demodulator, with those of the post
    processor. -/
structure DemodObjects (M : Type) extends AudioObjects ℚ M where
  fir : FirObject ℚ → M
  /-- Push a sample, and execute. -/
  firExecute : M → Iq → M × Iq
  /-- Bandwidth and gain. -/
  agc : ℚ → ℚ → M
  agcExecute : M → Iq → M × Iq
  freqDemod : ℚ → M
  freqDemodReset : M → M
  freqDemodExecute : M → Iq → M × ℚ

/-- A reset of the discriminator forgets what it was given. -/
structure DemodObjects.Forgets (ops : DemodObjects M) : Prop where
  execute : ∀ o x, ops.freqDemodReset (ops.freqDemodExecute o x).1 = ops.freqDemodReset o
  reset : ∀ o, ops.freqDemodReset (ops.freqDemodReset o) = ops.freqDemodReset o

/-- `FMDemod`, with what its objects hold. -/
structure RunningDemod (M : Type) where
  config : AgcDemod ℚ
  /-- The bandwidth of the AGC, once there is one. -/
  agcBandwidth : Option ℚ
  equalizer : MultipathEqualizer
  iqFilter : Option M
  iqDcBlockI : Option M
  iqDcBlockQ : Option M
  iqAgc : Option M
  freqDemod : M
  monoResampler : M
  monoDeemphasis : Option M
  monoDcBlock : Option M
  filteredChannelPowerDbfs : ℚ

namespace RunningDemod

/-- `m_liquidMonoResampler`, for the rates. -/
def createMonoResampler (ops : DemodObjects M) (d : FMDemod ℚ) : M :=
  ops.resampler ((d.outputRate : ℚ) / (d.inputRate : ℚ)) 12 (47 / 100) 60 32

section settings
variable [DemodOps ℚ]

/-- `FMDemod::reset`. -/
def reset (ops : DemodObjects M) (d : RunningDemod M) : RunningDemod M :=
  let demod := d.config.demod.reset
  { d with
    config := { d.config with demod := demod }
    equalizer := d.equalizer.reset
    iqFilter := demod.iqFilter.object.map ops.fir
    iqDcBlockI := demod.iqDcBlockI.object.map ops.iir
    iqDcBlockQ := demod.iqDcBlockQ.object.map ops.iir
    iqAgc := d.agcBandwidth.map (ops.agc · 1)
    freqDemod := ops.freqDemodReset d.freqDemod
    monoResampler := createMonoResampler ops demod
    monoDeemphasis :=
      if demod.deemphasisEnabled then demod.monoDeemphasis.object.map ops.iir
      else d.monoDeemphasis
    monoDcBlock := demod.monoDcBlock.object.map ops.iir
    filteredChannelPowerDbfs := -120 }

/-- `FMDemod::setDeemphasis`. -/
def setDeemphasis (ops : DemodObjects M) (d : RunningDemod M) (tau_us : Int) : RunningDemod M :=
  let demod := d.config.demod.setDeemphasis tau_us
  { d with
    config := { d.config with demod := demod }
    monoDeemphasis := demod.monoDeemphasis.object.map ops.iir }

/-- `FMDemod::setBandwidthHz`. -/
def setBandwidthHz (ops : DemodObjects M) (d : RunningDemod M) (bwHz : Int) : RunningDemod M :=
  let demod := d.config.demod
  let selected := demod.selected bwHz
  if (selected : Int) = demod.bandwidthMode then d
  else
    { d with
      config := { d.config with
        demod := { demod with
          bandwidthMode := selected
          iqFilter := demod.iqFilter.configure (demod.iqDesign selected) } } }.reset ops

/-- `FMDemod::setIqFirL1Normalize`. -/
def setIqFirL1Normalize (ops : DemodObjects M) (d : RunningDemod M) (enabled : Bool) :
    RunningDemod M :=
  let demod := d.config.demod
  if enabled = demod.iqFirL1Normalize then d
  else
    let currentBw :=
      if 0 ≤ demod.bandwidthMode ∧ demod.bandwidthMode < kXdrFmBwHz.length then
        kXdrFmBwHz.getD demod.bandwidthMode.toNat 0
      else 0
    { d with
      config := { d.config with
        demod := { demod with
          iqFirL1Normalize := enabled
          bandwidthMode := -1 } } }.setBandwidthHz ops
      (if 0 < currentBw then currentBw else demod.w0BandwidthHz)

/-- `FMDemod::setW0BandwidthHz`. -/
def setW0BandwidthHz (d : RunningDemod M) (bwHz : Int) : RunningDemod M :=
  { d with config := { d.config with demod := d.config.demod.setW0BandwidthHz bwHz } }

/-- `FMDemod::setDspAgcMode`. -/
def setDspAgcMode (ops : DemodObjects M) (d : RunningDemod M) (mode : DspAgcMode) :
    RunningDemod M :=
  if mode = d.config.dspAgcMode then d
  else
    { d with
      config := { d.config with dspAgcMode := mode }
      agcBandwidth :=
        if mode ≠ DspAgcMode.off then some (if mode = DspAgcMode.fast then 1 / 100 else 1 / 1000)
        else d.agcBandwidth }.reset ops

/-- `FMDemod::setMultipathEqMode`. -/
def setMultipathEqMode (d : RunningDemod M) (mode : MultipathEqMode) (taps : Nat) :
    RunningDemod M :=
  { d with equalizer := d.equalizer.init mode taps }

/-- `FMDemod::setMultipathAdaptEnabled`. -/
def setMultipathAdaptEnabled (d : RunningDemod M) (enabled : Bool) : RunningDemod M :=
  { d with equalizer := { d.equalizer with adaptEnabled := enabled } }

/-- `FMDemod::FMDemod`. -/
def construct (ops : DemodObjects M) (inputRate outputRate : Int) : RunningDemod M :=
  let demod : FMDemod ℚ := .create inputRate outputRate
  { config := ⟨demod, .off⟩
    agcBandwidth := none
    equalizer := MultipathEqualizer.initial.init .off 17
    iqFilter := demod.iqFilter.object.map ops.fir
    iqDcBlockI := demod.iqDcBlockI.object.map ops.iir
    iqDcBlockQ := demod.iqDcBlockQ.object.map ops.iir
    iqAgc := none
    freqDemod := ops.freqDemod (75000 / (demod.inputRate : ℚ))
    monoResampler := createMonoResampler ops demod
    monoDeemphasis := demod.monoDeemphasis.object.map ops.iir
    monoDcBlock := demod.monoDcBlock.object.map ops.iir
    filteredChannelPowerDbfs := -120 }

end settings

/-! ### Samples -/

/-- `FIRFilter::push` and `FIRFilter::execute`. -/
def filterIq (ops : DemodObjects M) (object : Option M) (x : Iq) : Option M × Iq :=
  match object with
  | none => (none, 0)
  | some o => (some (ops.firExecute o x).1, (ops.firExecute o x).2)

/-- `AGC::execute`. -/
def applyAgc (ops : DemodObjects M) (object : Option M) (x : Iq) : Option M × Iq :=
  match object with
  | none => (none, x)
  | some o => (some (ops.agcExecute o x).1, (ops.agcExecute o x).2)

/-- One sample of the loop of `demodulate`: its power behind the channel
    filter, and the MPX signal. -/
def demodulateSample (ops : DemodObjects M) (d : RunningDemod M) (x : Iq) :
    RunningDemod M × (ℚ × ℚ) :=
  let iDc := ops.filter d.iqDcBlockI x.re
  let qDc := ops.filter d.iqDcBlockQ x.im
  let filtered := filterIq ops d.iqFilter ⟨iDc.2, qDc.2⟩
  let leveled :=
    if d.config.dspAgcMode ≠ .off then applyAgc ops d.iqAgc filtered.2 else (d.iqAgc, filtered.2)
  let equalized := d.equalizer.execute leveled.2
  let audio := ops.freqDemodExecute d.freqDemod equalized.2
  ({ d with
      iqDcBlockI := iDc.1
      iqDcBlockQ := qDc.1
      iqFilter := filtered.1
      iqAgc := leveled.1
      equalizer := equalized.1
      freqDemod := audio.1 }, (filtered.2.magSq, audio.2))

def demodulateSamples (ops : DemodObjects M) :
    RunningDemod M → List Iq → RunningDemod M × List (ℚ × ℚ)
  | d, [] => (d, [])
  | d, x :: xs =>
    let one := d.demodulateSample ops x
    let others := demodulateSamples ops one.1 xs
    (others.1, one.2 :: others.2)

/-- `FMDemod::demodulate` and `FMDemod::demodulateComplex`, behind the
    conversion of the input. -/
def demodulate (m : Cmath ℚ) (ops : DemodObjects M) (d : RunningDemod M) (iq : List Iq) :
    RunningDemod M × List ℚ :=
  let done := d.demodulateSamples ops iq
  -- the power is taken behind the channel filter, before AGC and equalizer
  let powerSum := (done.2.map Prod.fst).sum
  ({ done.1 with
      filteredChannelPowerDbfs :=
        if 0 < iq.length then
          min 0 (10 * m.log10 (powerSum / (iq.length : ℚ) + 1 / 100000000000000000000))
        else -120 }, done.2.map Prod.snd)

/-- One resampled sample of `downsampleAudio`. -/
def downsampleOne (ops : DemodObjects M) (d : RunningDemod M) (x : ℚ) : RunningDemod M × ℚ :=
  let emphasized :=
    if d.config.demod.deemphasisEnabled then ops.filter d.monoDeemphasis x
    else (d.monoDeemphasis, x)
  let blocked := ops.filter d.monoDcBlock emphasized.2
  ({ d with monoDeemphasis := emphasized.1, monoDcBlock := blocked.1 }, blocked.2)

def downsampleAll (ops : DemodObjects M) : RunningDemod M → List ℚ → RunningDemod M × List ℚ
  | d, [] => (d, [])
  | d, x :: xs =>
    let one := d.downsampleOne ops x
    let others := downsampleAll ops one.1 xs
    (others.1, one.2 :: others.2)

/-- `FMDemod::downsampleAudio`. -/
def downsampleAudio (ops : DemodObjects M) : RunningDemod M → List ℚ → RunningDemod M × List ℚ
  | d, [] => (d, [])
  | d, x :: xs =>
    let resampled := ops.resample d.monoResampler x
    let made := downsampleAll ops { d with monoResampler := resampled.1 } resampled.2
    let others := downsampleAudio ops made.1 xs
    (others.1, made.2 ++ others.2)

/-! ### What can be heard -/

variable {m : Cmath ℚ} {ops : DemodObjects M} {d d' : RunningDemod M}

/-- A de-emphasis that is not in use is forgotten. -/
def heard (d : RunningDemod M) : RunningDemod M :=
  { d with
    monoDeemphasis := if d.config.demod.deemphasisEnabled then d.monoDeemphasis else none }

theorem demodulateSamples_heard (ops : DemodObjects M) (d : RunningDemod M) (iq : List Iq) :
    d.heard.demodulateSamples ops iq =
      ((d.demodulateSamples ops iq).1.heard, (d.demodulateSamples ops iq).2) := by
  induction iq generalizing d with
  | nil => rfl
  | cons x xs ih =>
    have hone : d.heard.demodulateSample ops x =
        ((d.demodulateSample ops x).1.heard, (d.demodulateSample ops x).2) := rfl
    simp only [demodulateSamples, hone, ih]

theorem downsampleOne_heard (ops : DemodObjects M) (d : RunningDemod M) (x : ℚ) :
    d.heard.downsampleOne ops x =
      ((d.downsampleOne ops x).1.heard, (d.downsampleOne ops x).2) := by
  cases henabled : d.config.demod.deemphasisEnabled <;> simp [downsampleOne, heard, henabled]

theorem downsampleAll_heard (ops : DemodObjects M) (d : RunningDemod M) (xs : List ℚ) :
    d.heard.downsampleAll ops xs =
      ((d.downsampleAll ops xs).1.heard, (d.downsampleAll ops xs).2) := by
  induction xs generalizing d with
  | nil => rfl
  | cons x xs ih => simp only [downsampleAll, downsampleOne_heard, ih]

theorem downsampleAudio_heard (ops : DemodObjects M) (d : RunningDemod M) (xs : List ℚ) :
    d.heard.downsampleAudio ops xs =
      ((d.downsampleAudio ops xs).1.heard, (d.downsampleAudio ops xs).2) := by
  induction xs generalizing d with
  | nil => rfl
  | cons x xs ih =>
    have hresampled : ∀ o : M, ({ d.heard with monoResampler := o } : RunningDemod M) =
        ({ d with monoResampler := o } : RunningDemod M).heard := fun _ => rfl
    have hobject : d.heard.monoResampler = d.monoResampler := rfl
    simp only [downsampleAudio, hobject, hresampled, downsampleAll_heard, ih]

/-- Two demodulators that nobody can tell apart, once it is said whether the
    equalizer may adapt. -/
def SoundsAlike (d d' : RunningDemod M) : Prop :=
  (d.setMultipathAdaptEnabled false).heard = (d'.setMultipathAdaptEnabled false).heard

/-- What is set, and what the discriminator was created with. -/
structure SameSettings (ops : DemodObjects M) (d d' : RunningDemod M) : Prop where
  config : d.config = d'.config
  agcBandwidth : d.agcBandwidth = d'.agcBandwidth
  mode : d.equalizer.mode = d'.equalizer.mode
  tapCount : d.equalizer.tapCount = d'.equalizer.tapCount
  mu : d.equalizer.mu = d'.equalizer.mu
  leak : d.equalizer.leak = d'.equalizer.leak
  freqDemod : ops.freqDemodReset d.freqDemod = ops.freqDemodReset d'.freqDemod

theorem SameSettings.refl (ops : DemodObjects M) (d : RunningDemod M) : SameSettings ops d d :=
  ⟨rfl, rfl, rfl, rfl, rfl, rfl, rfl⟩

theorem SameSettings.trans {a b c : RunningDemod M} (h : SameSettings ops a b)
    (h' : SameSettings ops b c) : SameSettings ops a c :=
  ⟨h.1.trans h'.1, h.2.trans h'.2, h.3.trans h'.3, h.4.trans h'.4, h.5.trans h'.5, h.6.trans h'.6,
    h.7.trans h'.7⟩

theorem SameSettings.symm (h : SameSettings ops d d') : SameSettings ops d' d :=
  ⟨h.1.symm, h.2.symm, h.3.symm, h.4.symm, h.5.symm, h.6.symm, h.7.symm⟩

/-- A reset of the equalizer leaves what was set. -/
theorem equalizer_reset_eq (h : SameSettings ops d d') :
    ({ d.equalizer.reset with adaptEnabled := false } : MultipathEqualizer) =
      { d'.equalizer.reset with adaptEnabled := false } := by
  obtain ⟨-, -, hmode, hcount, hmu, hleak, -⟩ := h
  -- field by field: what is not set is rebuilt
  generalize d.equalizer = e at *
  generalize d'.equalizer = e' at *
  obtain ⟨_, _, _, _, _, _, _, _, _, _, _, _⟩ := e
  obtain ⟨_, _, _, _, _, _, _, _, _, _, _, _⟩ := e'
  simp only at hmode hcount hmu hleak
  subst hmode hcount hmu hleak
  rfl

theorem equalizer_execute_settings (e : MultipathEqualizer) (x : Iq) :
    (e.execute x).1.mode = e.mode ∧ (e.execute x).1.tapCount = e.tapCount ∧
      (e.execute x).1.mu = e.mu ∧ (e.execute x).1.leak = e.leak := by
  unfold MultipathEqualizer.execute
  split <;> exact ⟨rfl, rfl, rfl, rfl⟩

theorem demodulate_sameSettings (hops : ops.Forgets) (m : Cmath ℚ) (d : RunningDemod M)
    (iq : List Iq) : SameSettings ops (d.demodulate m ops iq).1 d := by
  have hsamples : SameSettings ops (d.demodulateSamples ops iq).1 d := by
    induction iq generalizing d with
    | nil => exact .refl ops d
    | cons x xs ih =>
      -- the equalizer takes the sample as filter and AGC leave it
      obtain ⟨hmode, hcount, hmu, hleak⟩ := equalizer_execute_settings d.equalizer
        (if d.config.dspAgcMode ≠ .off then applyAgc ops d.iqAgc
          (filterIq ops d.iqFilter ⟨(ops.filter d.iqDcBlockI x.re).2,
            (ops.filter d.iqDcBlockQ x.im).2⟩).2
        else (d.iqAgc, (filterIq ops d.iqFilter ⟨(ops.filter d.iqDcBlockI x.re).2,
            (ops.filter d.iqDcBlockQ x.im).2⟩).2)).2
      exact (ih _).trans ⟨rfl, rfl, hmode, hcount, hmu, hleak, hops.execute _ _⟩
  exact ⟨hsamples.1, hsamples.2, hsamples.3, hsamples.4, hsamples.5, hsamples.6, hsamples.7⟩

theorem downsampleAudio_sameSettings (ops : DemodObjects M) (d : RunningDemod M) (xs : List ℚ) :
    SameSettings ops (d.downsampleAudio ops xs).1 d := by
  have hall : ∀ (d : RunningDemod M) ys, SameSettings ops (d.downsampleAll ops ys).1 d := by
    intro d ys
    induction ys generalizing d with
    | nil => exact .refl ops d
    | cons y ys ih => exact (ih _).trans ⟨rfl, rfl, rfl, rfl, rfl, rfl, rfl⟩
  induction xs generalizing d with
  | nil => exact .refl ops d
  | cons x xs ih => exact (ih _).trans ((hall _ _).trans ⟨rfl, rfl, rfl, rfl, rfl, rfl, rfl⟩)

theorem SoundsAlike.setMultipathAdaptEnabled (h : SoundsAlike d d') (enabled : Bool) :
    (d.setMultipathAdaptEnabled enabled).heard = (d'.setMultipathAdaptEnabled enabled).heard :=
  congrArg (RunningDemod.setMultipathAdaptEnabled · enabled) h

/-- A block gives the same, and leaves the same. -/
theorem demodulate_of_heard (h : d.heard = d'.heard) (m : Cmath ℚ) (ops : DemodObjects M)
    (iq : List Iq) :
    (d.demodulate m ops iq).1.heard = (d'.demodulate m ops iq).1.heard ∧
      (d.demodulate m ops iq).2 = (d'.demodulate m ops iq).2 := by
  have hd := demodulateSamples_heard ops d iq
  rw [h, demodulateSamples_heard ops d' iq] at hd
  obtain ⟨hstate, hout⟩ := Prod.mk.inj hd
  have hpower : ∀ power : ℚ,
      ({ (d.demodulateSamples ops iq).1 with
          filteredChannelPowerDbfs := power } : RunningDemod M).heard =
        ({ (d'.demodulateSamples ops iq).1 with
          filteredChannelPowerDbfs := power } : RunningDemod M).heard := fun power =>
    congrArg (fun e : RunningDemod M => { e with filteredChannelPowerDbfs := power }) hstate.symm
  simp only [RunningDemod.demodulate, hout, and_true]
  exact hpower _

/-- So does the mono path. -/
theorem downsampleAudio_of_heard (h : d.heard = d'.heard) (ops : DemodObjects M) (xs : List ℚ) :
    (d.downsampleAudio ops xs).1.heard = (d'.downsampleAudio ops xs).1.heard ∧
      (d.downsampleAudio ops xs).2 = (d'.downsampleAudio ops xs).2 := by
  have hd := downsampleAudio_heard ops d xs
  rw [h, downsampleAudio_heard ops d' xs] at hd
  obtain ⟨hstate, hout⟩ := Prod.mk.inj hd
  exact ⟨hstate.symm, hout.symm⟩

theorem soundsAlike_of_heard (h : d.heard = d'.heard) : SoundsAlike d d' :=
  congrArg (setMultipathAdaptEnabled · false) h

theorem SoundsAlike.sameSettings (h : SoundsAlike d d') (ops : DemodObjects M) :
    SameSettings ops d d' := by
  have hheard : (d.setMultipathAdaptEnabled false).heard =
      (d'.setMultipathAdaptEnabled false).heard := h
  have hconfig := congrArg (fun e : RunningDemod M => e.config) hheard
  have hagc := congrArg (fun e : RunningDemod M => e.agcBandwidth) hheard
  have hequalizer := congrArg (fun e : RunningDemod M => e.equalizer) hheard
  have hmode := congrArg MultipathEqualizer.mode hequalizer
  have hcount := congrArg MultipathEqualizer.tapCount hequalizer
  have hmu := congrArg MultipathEqualizer.mu hequalizer
  have hleak := congrArg MultipathEqualizer.leak hequalizer
  have hfreqDemod := congrArg (fun e : RunningDemod M => ops.freqDemodReset e.freqDemod) hheard
  exact ⟨hconfig, hagc, hmode, hcount, hmu, hleak, hfreqDemod⟩

section settings
variable [DemodOps ℚ]

/-- After a reset only what was set is left. -/
theorem soundsAlike_reset (h : SameSettings ops d d') :
    SoundsAlike (d.reset ops) (d'.reset ops) := by
  have hequalizer := equalizer_reset_eq h
  have hfreqDemod := h.freqDemod
  obtain ⟨hconfig, hagc, -⟩ := h
  unfold SoundsAlike RunningDemod.reset setMultipathAdaptEnabled heard
  simp only [hconfig, hagc, hfreqDemod, hequalizer]
  cases henabled : d'.config.demod.reset.deemphasisEnabled <;> simp

theorem SameSettings.reset (hops : ops.Forgets) (h : SameSettings ops d d') :
    SameSettings ops (d.reset ops) (d'.reset ops) where
  config := by
    show AgcDemod.mk _ _ = AgcDemod.mk _ _
    rw [h.config]
  agcBandwidth := h.agcBandwidth
  mode := h.mode
  tapCount := congrArg MultipathEqualizer.rebuiltCount h.tapCount
  mu := h.mu
  leak := h.leak
  freqDemod := by
    show ops.freqDemodReset (ops.freqDemodReset _) = ops.freqDemodReset (ops.freqDemodReset _)
    rw [hops.reset, hops.reset, h.freqDemod]

omit [DemodOps ℚ] in
/-- What a change of bandwidth does to the settings, before the reset. -/
theorem SameSettings.withConfig (h : SameSettings ops d d') (config : AgcDemod ℚ) :
    SameSettings ops { d with config := config } { d' with config := config } :=
  ⟨rfl, h.agcBandwidth, h.mode, h.tapCount, h.mu, h.leak, h.freqDemod⟩

theorem SameSettings.setBandwidthHz (hops : ops.Forgets) (h : SameSettings ops d d')
    (bwHz : Int) : SameSettings ops (d.setBandwidthHz ops bwHz) (d'.setBandwidthHz ops bwHz) := by
  unfold RunningDemod.setBandwidthHz
  simp only [h.config]
  split
  · exact h
  · exact (h.withConfig _).reset hops

theorem SameSettings.setDeemphasis (h : SameSettings ops d d') (tau_us : Int) :
    SameSettings ops (d.setDeemphasis ops tau_us) (d'.setDeemphasis ops tau_us) := by
  unfold RunningDemod.setDeemphasis
  simp only [h.config]
  exact ⟨rfl, h.agcBandwidth, h.mode, h.tapCount, h.mu, h.leak, h.freqDemod⟩

theorem SoundsAlike.setBandwidthHz (h : SoundsAlike d d') (ops : DemodObjects M) (bwHz : Int) :
    SoundsAlike (d.setBandwidthHz ops bwHz) (d'.setBandwidthHz ops bwHz) := by
  have hsame := h.sameSettings ops
  unfold RunningDemod.setBandwidthHz
  simp only [hsame.config]
  split
  · exact h
  · exact soundsAlike_reset (hsame.withConfig _)

/-- Setting the de-emphasis creates the filter. -/
theorem SoundsAlike.setDeemphasis (h : SoundsAlike d d') (ops : DemodObjects M) (tau_us : Int) :
    SoundsAlike (d.setDeemphasis ops tau_us) (d'.setDeemphasis ops tau_us) := by
  have hset : ∀ e : RunningDemod M,
      (e.setDeemphasis ops tau_us).setMultipathAdaptEnabled false =
        (e.setMultipathAdaptEnabled false).heard.setDeemphasis ops tau_us := fun _ => rfl
  have hheard : (d.setMultipathAdaptEnabled false).heard =
      (d'.setMultipathAdaptEnabled false).heard := h
  unfold SoundsAlike
  rw [hset, hset, hheard]

end settings

end RunningDemod

end FmSdrTuner
