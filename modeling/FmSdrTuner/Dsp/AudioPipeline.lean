import FmSdrTuner.Dsp.OutputStage
import FmSdrTuner.Dsp.RunningDemod
import FmSdrTuner.Dsp.StereoDecoder

/-! # DspPipeline: from IQ to audio

    The whole of `DspPipeline`: staging and decimation, demodulator, stereo
    decoder, post processor, squelch and limiter, with the reset of the
    audio chain that waits for the next block.

    Main result: `reset_isolates_stations`. -/

namespace FmSdrTuner

variable {M L : Type} {n : Nat}

/-! ### The pipeline -/

/-- What the pipeline is given from outside. -/
structure ChainObjects (M L : Type) where
  cmath : Cmath ℚ
  demod : DemodObjects M
  stereo : StereoLiquid ℚ L
  /-- Factor, taps per phase and stop band. -/
  decimator : Nat → Nat → ℚ → M
  decimate : M → List Iq → M × Iq

/-- `DspPipeline`. -/
structure AudioPipeline (M L : Type) (n : Nat) where
  /-- The sizes, and the two staging rings. -/
  staging : DspPipeline Iq
  stereoEnabled : Bool
  demod : RunningDemod M
  stereo : StereoDecoder ℚ L n
  afPost : AFPostProcessor ℚ M
  iqDecimator : M
  squelch : RampedSquelch ℚ
  pendingAudioReset : Bool

/-- `DspPipeline::Result`, with what the RDS sink was given. -/
structure AudioResult where
  audio : List (ℚ × ℚ)
  demodSamples : Nat
  stereoDetected : Bool
  pilotTenthsKHz : Int
  stereoBlend : ℚ
  stereoQuality : ℚ
  audioClipRatio : ℚ
  channelPowerDbfs : ℚ
  mpxMagnitude : ℚ
  mpxPeak : ℚ
  pilotDeviationKHz : ℚ
  rdsDeviationKHz : ℚ
  demodSnrDb : ℚ
  mpx : List ℚ

/-- `iqNormLut`, for I and Q. -/
def iqNorm (s : IqBytes) : Iq :=
  ⟨((s.1.toNat : ℚ) - 127) / (1275 / 10), ((s.2.toNat : ℚ) - 127) / (1275 / 10)⟩

/-- The conversion of `ComplexDecimator::executeComplex`. -/
def bytesToComplex : List UInt8 → List Iq
  | i :: q :: rest =>
    ⟨((i.toNat : ℚ) - 1275 / 10) / (1275 / 10), ((q.toNat : ℚ) - 1275 / 10) / (1275 / 10)⟩ ::
      bytesToComplex rest
  | _ => []

namespace AudioPipeline

/-- `m_iqDecimator`, for a factor. -/
def createDecimator (ops : ChainObjects M L) (factor : Nat) : M :=
  ops.decimator factor (if 8 ≤ factor then 28 else if 4 ≤ factor then 20 else 12) 80

/-- The blocks of a decimator, one sample for each. -/
def decimateAll (ops : ChainObjects M L) : M → List (List Iq) → M × List Iq
  | o, [] => (o, [])
  | o, b :: bs =>
    let one := ops.decimate o b
    let others := decimateAll ops one.1 bs
    (others.1, one.2 :: others.2)

/-- `ComplexDecimator::executeComplexFromComplex`. -/
def executeDecimator (ops : ChainObjects M L) (o : M) (factor : Nat) (iq : List Iq)
    (outCapacity : Nat) : M × List Iq :=
  decimateAll ops o ((blocks factor iq).take outCapacity)

/-- What demodulator, decoder and post processor make of a block. -/
structure Decoded (M L : Type) (n : Nat) where
  demod : RunningDemod M
  stereo : StereoDecoder ℚ L n
  afPost : AFPostProcessor ℚ M
  mpx : List ℚ
  audio : List (ℚ × ℚ)
  stereoDetected : Bool
  pilotTenthsKHz : Int

/-- The first part of `DspPipeline::runDemodChain`. -/
def decode (ops : ChainObjects M L) (p : AudioPipeline M L n) (iq : List Iq) : Decoded M L n :=
  let demodulated := p.demod.demodulate ops.cmath ops.demod iq
  if !p.stereoEnabled then
    -- one channel, at half its level in both
    let mono := demodulated.1.downsampleAudio ops.demod demodulated.2
    { demod := mono.1
      stereo := p.stereo
      afPost := p.afPost
      mpx := demodulated.2
      audio := mono.2.map fun x => (x * (1 / 2), x * (1 / 2))
      stereoDetected := false
      pilotTenthsKHz := 0 }
  else
    let stereo := p.stereo.processAudio ops.cmath ops.stereo demodulated.2
    let audio := (p.afPost.setSignalQuality stereo.1.stereoQuality).process ops.cmath
      ops.demod.toAudioObjects stereo.2 p.staging.blockSamples
    { demod := demodulated.1
      stereo := stereo.1
      afPost := audio.1
      mpx := demodulated.2
      audio := audio.2
      stereoDetected := stereo.1.stereoDetected
      pilotTenthsKHz := stereo.1.pilotLevelTenthsKHz }

/-- `DspPipeline::runDemodChain`. -/
def runDemodChain (ops : ChainObjects M L) (p : AudioPipeline M L n) (iq : List Iq) :
    AudioPipeline M L n × AudioResult :=
  let done := p.decode ops iq
  let power := done.demod.filteredChannelPowerDbfs
  let snr := done.stereo.getDemodSnrDb ops.cmath
  let finished := p.squelch.finishBlock ops.cmath (some power) (some snr) done.audio
  ({ p with
      demod := done.demod
      stereo := done.stereo
      afPost := done.afPost
      squelch := finished.1 },
    { audio := finished.2.audio
      demodSamples := iq.length
      stereoDetected := done.stereoDetected
      pilotTenthsKHz := done.pilotTenthsKHz
      stereoBlend := done.stereo.stereoBlend
      stereoQuality := done.stereo.stereoQuality
      audioClipRatio := finished.2.audioClipRatio
      channelPowerDbfs := power
      mpxMagnitude := done.stereo.mpxMagnitude
      mpxPeak := done.mpx.foldl (fun peak x => max peak |x|) 0
      pilotDeviationKHz := done.stereo.getPilotDeviationKHz ops.stereo
      rdsDeviationKHz := done.stereo.getRdsDeviationKHz ops.cmath ops.stereo
      demodSnrDb := snr
      mpx := done.mpx })

/-- The start of `DspPipeline::process`: the reset that waits, and whether
    the equalizer may adapt. -/
def beginBlock (ops : ChainObjects M L) (p : AudioPipeline M L n) : AudioPipeline M L n :=
  let p :=
    if p.pendingAudioReset then
      { p with
        stereo := p.stereo.reset ops.stereo
        afPost := p.afPost.reset ops.demod.toAudioObjects
        pendingAudioReset := false }
    else p
  { p with demod := p.demod.setMultipathAdaptEnabled p.stereo.stereoDetected }

/-- A block for the decimator, if there is one. -/
def runDecimated (ops : ChainObjects M L) (p : AudioPipeline M L n) :
    Option (List Iq) → AudioPipeline M L n × Option AudioResult
  | none => (p, none)
  | some iq =>
    let decimated :=
      executeDecimator ops p.iqDecimator p.staging.iqDecimation iq p.staging.blockSamples
    let p := { p with iqDecimator := decimated.1 }
    -- fewer samples than the factor give none
    if decimated.2.length = 0 then (p, none)
    else ((p.runDemodChain ops decimated.2).1, some (p.runDemodChain ops decimated.2).2)

/-- `DspPipeline::process` on bytes; `none` where it returns `false`. -/
def processBytes (ops : ChainObjects M L) (p : AudioPipeline M L n) (iq : List IqBytes) :
    AudioPipeline M L n × Option AudioResult :=
  if iq.length = 0 then (p, none)
  else
    let p := p.beginBlock ops
    -- each call hands over at most one staged block
    if 1 < p.staging.iqDecimation then
      let staged := p.staging.processBytes iq
      { p with staging := staged.1 }.runDecimated ops (staged.2.map bytesToComplex)
    else ((p.runDemodChain ops (iq.map iqNorm)).1, some (p.runDemodChain ops (iq.map iqNorm)).2)

/-- `DspPipeline::process` on complex samples. -/
def processComplexes (ops : ChainObjects M L) (p : AudioPipeline M L n) (iq : List Iq) :
    AudioPipeline M L n × Option AudioResult :=
  if iq.length = 0 then (p, none)
  else
    let p := p.beginBlock ops
    if 1 < p.staging.iqDecimation then
      let staged := p.staging.processComplexes iq
      { p with staging := staged.1 }.runDecimated ops staged.2
    else ((p.runDemodChain ops iq).1, some (p.runDemodChain ops iq).2)

section settings
variable [DemodOps ℚ]

/-- `DspPipeline::reset`. -/
def reset (ops : ChainObjects M L) (p : AudioPipeline M L n) : AudioPipeline M L n :=
  { p with
    staging := p.staging.reset
    demod := p.demod.reset ops.demod
    stereo := p.stereo.reset ops.stereo
    afPost := p.afPost.reset ops.demod.toAudioObjects
    -- without decimation the object is left as it is, and never asked
    iqDecimator :=
      if p.staging.iqDecimation = 1 then p.iqDecimator
      else createDecimator ops p.staging.iqDecimation
    squelch := p.squelch.reset
    pendingAudioReset := false }

/-- `DspPipeline::setBandwidthHz`. -/
def setBandwidthHz (ops : ChainObjects M L) (p : AudioPipeline M L n) (bandwidthHz : Int) :
    AudioPipeline M L n :=
  { p with
    demod := p.demod.setBandwidthHz ops.demod bandwidthHz
    pendingAudioReset := true }

/-- `DspPipeline::setDeemphasisMode`. -/
def setDeemphasisMode (ops : ChainObjects M L) (p : AudioPipeline M L n) (deemphasisMode : Int) :
    AudioPipeline M L n :=
  let tau_us := if deemphasisMode = 0 then 50 else if deemphasisMode = 1 then 75 else 0
  { p with
    afPost := p.afPost.setDeemphasis ops.cmath ops.demod.toAudioObjects tau_us
    demod := p.demod.setDeemphasis ops.demod tau_us
    pendingAudioReset := true }

/-- `DspPipeline::setForceMono`. -/
def setForceMono (p : AudioPipeline M L n) (forceMono : Bool) : AudioPipeline M L n :=
  { p with stereo := { p.stereo with forceMono := forceMono } }

/-- `DspPipeline::setBlendMode`. -/
def setBlendMode (p : AudioPipeline M L n) (mode : BlendMode) : AudioPipeline M L n :=
  { p with stereo := { p.stereo with blendMode := mode } }

end settings

end AudioPipeline

/-! ### Construction -/

/-- What the pipeline reads of `Config::ProcessingSection`. -/
structure ProcessingSection where
  w0_bandwidth_hz : Int
  dsp_agc : String
  stereo_blend : String
  stereo : Bool
  pilot_canceller : Bool
  hicut : String
  multipath_eq : String
  multipath_eq_taps : Int
  fade_mute : String
  iq_fir_l1_normalize : Bool
  squelch_dbfs : ℚ

namespace ProcessingSection

def dspAgcMode (c : ProcessingSection) : DspAgcMode :=
  if c.dsp_agc.toLower = "fast" then .fast else if c.dsp_agc.toLower = "slow" then .slow else .off

def blendMode (c : ProcessingSection) : BlendMode :=
  if c.stereo_blend.toLower = "soft" then .soft
  else if c.stereo_blend.toLower = "aggressive" then .aggressive else .normal

def hicutMode (c : ProcessingSection) : HicutMode :=
  if c.hicut.toLower = "gentle" then .gentle
  else if c.hicut.toLower = "strong" then .strong else .off

def multipathMode (c : ProcessingSection) : MultipathEqMode :=
  if c.multipath_eq.toLower = "light" then .light
  else if c.multipath_eq.toLower = "aggressive" then .aggressive else .off

def fadeMute (c : ProcessingSection) : Option FadeMute :=
  if c.fade_mute.toLower = "gentle" then some .gentle
  else if c.fade_mute.toLower = "strong" then some .strong else none

end ProcessingSection

/-- `DspPipeline::DspPipeline`, with the objects of the stereo decoder as its
    constructor leaves them. -/
def AudioPipeline.construct [DemodOps ℚ] (ops : ChainObjects M L) (liquid : L)
    (inputRate outputRate : Int) (processing : ProcessingSection)
    (blockSamples iqDecimation : Nat) :
    AudioPipeline M L (StereoDecoder.delaySize (max 1 inputRate)) :=
  let inputRate := max 1 inputRate
  let outputRate := max 1 outputRate
  let staging : DspPipeline Iq := .construct blockSamples iqDecimation
  { staging := staging
    stereoEnabled := processing.stereo
    demod :=
      ((((RunningDemod.construct ops.demod inputRate outputRate).setW0BandwidthHz
        processing.w0_bandwidth_hz).setDspAgcMode ops.demod processing.dspAgcMode
        ).setMultipathEqMode processing.multipathMode
          (processing.multipath_eq_taps % 2 ^ 32).toNat).setIqFirL1Normalize ops.demod
            processing.iq_fir_l1_normalize
    stereo :=
      { StereoDecoder.construct inputRate liquid with
        blendMode := processing.blendMode
        pilotCancellerEnabled := processing.pilot_canceller }
    afPost :=
      (AFPostProcessor.construct ops.cmath ops.demod.toAudioObjects inputRate outputRate
        ).setHicutMode ops.cmath ops.demod.toAudioObjects processing.hicutMode
    iqDecimator := createDecimator ops staging.iqDecimation
    squelch := staging.rampedSquelch ops.cmath inputRate outputRate processing.squelch_dbfs
      processing.fadeMute
    pendingAudioReset := false }

/-- What is done with the pipeline. -/
inductive AudioCall where
  | reset
  | setBandwidthHz (bandwidthHz : Int)
  | setDeemphasisMode (deemphasisMode : Int)
  | setForceMono (forceMono : Bool)
  | setBlendMode (mode : BlendMode)
  | bytes (iq : List IqBytes)
  | complexes (iq : List Iq)

/-- Everything but what is received. -/
def AudioCall.isSetting : AudioCall → Bool
  | .bytes _ => false
  | .complexes _ => false
  | _ => true

def audioPipeline [DemodOps ℚ] (ops : ChainObjects M L) :
    Machine (AudioPipeline M L n) AudioCall where
  step p
    | .reset => p.reset ops
    | .setBandwidthHz bandwidthHz => p.setBandwidthHz ops bandwidthHz
    | .setDeemphasisMode deemphasisMode => p.setDeemphasisMode ops deemphasisMode
    | .setForceMono forceMono => p.setForceMono forceMono
    | .setBlendMode mode => p.setBlendMode mode
    | .bytes iq => (p.processBytes ops iq).1
    | .complexes iq => (p.processComplexes ops iq).1

/-- What a call gives. -/
def audioOf (ops : ChainObjects M L) (p : AudioPipeline M L n) : AudioCall → Option AudioResult
  | .bytes iq => (p.processBytes ops iq).2
  | .complexes iq => (p.processComplexes ops iq).2
  | _ => none

/-! ### What was set -/

/-- The objects forget what they were given, when they are reset. -/
structure ChainObjects.Forgets (ops : ChainObjects M L) : Prop where
  demod : ops.demod.Forgets
  stereo : ops.stereo.Forgets

namespace AudioPipeline
variable {ops : ChainObjects M L} {p q r : AudioPipeline M L n}

/-- Two pipelines that were set alike, whatever they received. -/
structure SameSettings (ops : ChainObjects M L) (p q : AudioPipeline M L n) : Prop where
  blockSamples : p.staging.blockSamples = q.staging.blockSamples
  iqDecimation : p.staging.iqDecimation = q.staging.iqDecimation
  stereoEnabled : p.stereoEnabled = q.stereoEnabled
  demod : p.demod.SameSettings ops.demod q.demod
  stereo : p.stereo.SameSettings ops.stereo q.stereo
  afPost : p.afPost.settings = q.afPost.settings
  squelch : p.squelch.reset = q.squelch.reset

theorem SameSettings.refl (ops : ChainObjects M L) (p : AudioPipeline M L n) :
    SameSettings ops p p :=
  ⟨rfl, rfl, rfl, .refl _ _, StereoDecoder.sameSettings_of_eq rfl rfl, rfl, rfl⟩

theorem SameSettings.trans (h : SameSettings ops p q) (h' : SameSettings ops q r) :
    SameSettings ops p r :=
  ⟨h.1.trans h'.1, h.2.trans h'.2, h.3.trans h'.3, h.4.trans h'.4, h.5.trans h'.5,
    h.6.trans h'.6, h.7.trans h'.7⟩

theorem SameSettings.symm (h : SameSettings ops p q) : SameSettings ops q p :=
  ⟨h.1.symm, h.2.symm, h.3.symm, h.4.symm, h.5.symm, h.6.symm, h.7.symm⟩

/-- The rings have their sizes, where they are used. -/
def Shaped (p : AudioPipeline M L n) : Prop :=
  1 < p.staging.iqDecimation → p.staging.Shape p.staging.sdrBlockSamples

theorem beginBlock_sameSettings (hops : ops.Forgets) (p : AudioPipeline M L n) :
    SameSettings ops (p.beginBlock ops) p := by
  have hreset : p.stereo.SameSettings ops.stereo p.stereo :=
    StereoDecoder.sameSettings_of_eq rfl rfl
  unfold beginBlock
  split
  · -- a reset waits, and leaves the settings
    exact ⟨rfl, rfl, rfl, ⟨rfl, rfl, rfl, rfl, rfl, rfl, rfl⟩,
      StereoDecoder.reset_sameSettings hops.stereo p.stereo,
      AFPostProcessor.reset_settings _ p.afPost, rfl⟩
  · exact ⟨rfl, rfl, rfl, ⟨rfl, rfl, rfl, rfl, rfl, rfl, rfl⟩, hreset, rfl, rfl⟩

theorem runDemodChain_sameSettings (hops : ops.Forgets) (p : AudioPipeline M L n)
    (iq : List Iq) : SameSettings ops (p.runDemodChain ops iq).1 p := by
  have hdemod := RunningDemod.demodulate_sameSettings hops.demod ops.cmath p.demod iq
  have hdecoded : (p.decode ops iq).demod.SameSettings ops.demod p.demod ∧
      (p.decode ops iq).stereo.SameSettings ops.stereo p.stereo ∧
      (p.decode ops iq).afPost.settings = p.afPost.settings := by
    unfold decode
    simp only
    split
    · exact ⟨(RunningDemod.downsampleAudio_sameSettings _ _ _).trans hdemod,
        StereoDecoder.sameSettings_of_eq rfl rfl, rfl⟩
    · exact ⟨hdemod, StereoDecoder.processAudio_sameSettings hops.stereo _ _ _,
        AFPostProcessor.process_settings _ _ _ _ _⟩
  exact ⟨rfl, rfl, rfl, hdecoded.1, hdecoded.2.1, hdecoded.2.2,
    RampedSquelch.finishBlock_reset ops.cmath _ _ _ _⟩

theorem runDecimated_sameSettings (hops : ops.Forgets) (p : AudioPipeline M L n)
    (iq : Option (List Iq)) : SameSettings ops (p.runDecimated ops iq).1 p := by
  cases iq with
  | none => exact .refl ops p
  | some iq =>
    unfold runDecimated
    simp only
    split
    · exact ⟨rfl, rfl, rfl, .refl _ _, StereoDecoder.sameSettings_of_eq rfl rfl, rfl, rfl⟩
    · refine (runDemodChain_sameSettings hops _ _).trans ?_
      exact ⟨rfl, rfl, rfl, .refl _ _, StereoDecoder.sameSettings_of_eq rfl rfl, rfl, rfl⟩

/-- Staging changes no setting. -/
theorem SameSettings.withStaging (h : SameSettings ops p q) (staging : DspPipeline Iq)
    (hsizes : staging.blockSamples = p.staging.blockSamples ∧
      staging.iqDecimation = p.staging.iqDecimation) :
    SameSettings ops { p with staging := staging } q :=
  ⟨hsizes.1.trans h.1, hsizes.2.trans h.2, h.3, h.4, h.5, h.6, h.7⟩

theorem processBytes_sameSettings (hops : ops.Forgets) (p : AudioPipeline M L n)
    (iq : List IqBytes) : SameSettings ops (p.processBytes ops iq).1 p := by
  have hbegun := beginBlock_sameSettings hops p
  unfold processBytes
  simp only
  split
  · exact .refl ops p
  · split
    · exact (runDecimated_sameSettings hops _ _).trans
        (hbegun.withStaging _ (DspPipeline.processBytes_sizes _ _))
    · exact (runDemodChain_sameSettings hops _ _).trans hbegun

theorem processComplexes_sameSettings (hops : ops.Forgets) (p : AudioPipeline M L n)
    (iq : List Iq) : SameSettings ops (p.processComplexes ops iq).1 p := by
  have hbegun := beginBlock_sameSettings hops p
  unfold processComplexes
  simp only
  split
  · exact .refl ops p
  · split
    · exact (runDecimated_sameSettings hops _ _).trans
        (hbegun.withStaging _ (DspPipeline.processComplexes_sizes _ _))
    · exact (runDemodChain_sameSettings hops _ _).trans hbegun

theorem beginBlock_staging (ops : ChainObjects M L) (p : AudioPipeline M L n) :
    (p.beginBlock ops).staging = p.staging := by
  unfold beginBlock
  split <;> rfl

theorem runDecimated_staging (ops : ChainObjects M L) (p : AudioPipeline M L n)
    (iq : Option (List Iq)) : (p.runDecimated ops iq).1.staging = p.staging := by
  cases iq with
  | none => rfl
  | some iq =>
    unfold runDecimated
    simp only
    split <;> rfl

/-- Of the rings a call changes what `DspPipeline` of `Dsp.IqStaging` says. -/
theorem processBytes_staging (ops : ChainObjects M L) (p : AudioPipeline M L n)
    (iq : List IqBytes) :
    (p.processBytes ops iq).1.staging = (p.staging.processBytes iq).1 := by
  have hbegun := p.beginBlock_staging ops
  unfold processBytes
  simp only
  split
  · -- both return at once from an empty call
    next hnone =>
    unfold DspPipeline.processBytes
    rw [if_pos (Or.inl hnone)]
  · split
    · rw [runDecimated_staging, hbegun]
    · next hdec =>
      rw [hbegun] at hdec
      unfold DspPipeline.processBytes
      rw [if_pos (Or.inr hdec)]
      exact hbegun

theorem processComplexes_staging (ops : ChainObjects M L) (p : AudioPipeline M L n)
    (iq : List Iq) :
    (p.processComplexes ops iq).1.staging = (p.staging.processComplexes iq).1 := by
  have hbegun := p.beginBlock_staging ops
  unfold processComplexes
  simp only
  split
  · next hnone =>
    unfold DspPipeline.processComplexes
    rw [if_pos (Or.inl hnone)]
  · split
    · rw [runDecimated_staging, hbegun]
    · next hdec =>
      rw [hbegun] at hdec
      unfold DspPipeline.processComplexes
      rw [if_pos (Or.inr hdec)]
      exact hbegun

section settings
variable [DemodOps ℚ]

theorem shaped_construct (ops : ChainObjects M L) (liquid : L) (inputRate outputRate : Int)
    (processing : ProcessingSection) (blockSamples iqDecimation : Nat) :
    (construct ops liquid inputRate outputRate processing blockSamples iqDecimation).Shaped := by
  intro hdec
  have hdec' : 1 < iqDecimation := by
    have hmax : 1 < max 1 iqDecimation := hdec
    omega
  have hshape : (DspPipeline.construct blockSamples iqDecimation : DspPipeline Iq).Shape
      (max 1 blockSamples * iqDecimation) := DspPipeline.Shape.construct hdec'
  have hsize := hshape.size_eq
  rw [← hsize] at hshape
  exact hshape

theorem Shaped.step (h : p.Shaped) (c : AudioCall) : ((audioPipeline ops).step p c).Shaped := by
  cases c with
  | reset => exact fun hdec => (h hdec).reset
  | setBandwidthHz => exact h
  | setDeemphasisMode => exact h
  | setForceMono => exact h
  | setBlendMode => exact h
  | bytes iq =>
    have hsizes := p.staging.processBytes_sizes iq
    intro hdec
    simp only [audioPipeline, processBytes_staging, hsizes, DspPipeline.sdrBlockSamples] at hdec ⊢
    exact (h hdec).processBytes iq
  | complexes iq =>
    have hsizes := p.staging.processComplexes_sizes iq
    intro hdec
    simp only [audioPipeline, processComplexes_staging, hsizes,
      DspPipeline.sdrBlockSamples] at hdec ⊢
    exact (h hdec).processComplexes iq

/-- What is received changes no setting. -/
theorem received_sameSettings (hops : ops.Forgets) (p : AudioPipeline M L n) {c : AudioCall}
    (hc : c.isSetting = false) : SameSettings ops ((audioPipeline ops).step p c) p := by
  cases c with
  | bytes iq => exact processBytes_sameSettings hops p iq
  | complexes iq => exact processComplexes_sameSettings hops p iq
  | reset => cases hc
  | setBandwidthHz => cases hc
  | setDeemphasisMode => cases hc
  | setForceMono => cases hc
  | setBlendMode => cases hc

/-- What is set on both is set alike. -/
theorem SameSettings.step (hops : ops.Forgets) (h : SameSettings ops p q) {c : AudioCall}
    (hc : c.isSetting = true) :
    SameSettings ops ((audioPipeline ops).step p c) ((audioPipeline ops).step q c) := by
  cases c with
  | reset =>
    refine ⟨h.1, h.2, h.3, h.demod.reset hops.demod, ?_, ?_, ?_⟩
    · -- the settings were equal, and neither reset changes them
      exact ((StereoDecoder.reset_sameSettings hops.stereo p.stereo).trans h.stereo).trans
        (StereoDecoder.reset_sameSettings hops.stereo q.stereo).symm
    · exact (AFPostProcessor.reset_settings _ _).trans
        (h.afPost.trans (AFPostProcessor.reset_settings _ _).symm)
    · exact congrArg RampedSquelch.reset h.squelch
  | setBandwidthHz bandwidthHz =>
    exact ⟨h.1, h.2, h.3, h.demod.setBandwidthHz hops.demod bandwidthHz, h.stereo, h.afPost,
      h.squelch⟩
  | setDeemphasisMode deemphasisMode =>
    exact ⟨h.1, h.2, h.3, h.demod.setDeemphasis _, h.stereo,
      AFPostProcessor.setDeemphasis_settings _ _ _ h.afPost, h.squelch⟩
  | setForceMono forceMono =>
    have hs := h.stereo
    exact ⟨h.1, h.2, h.3, h.demod, ⟨hs.1, hs.2, rfl, hs.4, hs.5, hs.6⟩, h.afPost, h.squelch⟩
  | setBlendMode mode =>
    have hs := h.stereo
    exact ⟨h.1, h.2, h.3, h.demod, ⟨hs.1, hs.2, hs.3, rfl, hs.5, hs.6⟩, h.afPost, h.squelch⟩
  | bytes => cases hc
  | complexes => cases hc

/-- Settings are kept apart from what is received. -/
theorem unwinding_sameSettings (hops : ops.Forgets) :
    (audioPipeline (n := n) ops).Unwinding AudioCall.isSetting
      fun p q => SameSettings ops p q ∧ p.Shaped ∧ q.Shaped where
  left p _ c hc h := ⟨(received_sameSettings hops p hc).trans h.1, h.2.1.step c, h.2.2⟩
  right _ q c hc h := ⟨h.1.trans (received_sameSettings hops q hc).symm, h.2.1, h.2.2.step c⟩
  both _ _ c hc h := ⟨h.1.step hops hc, h.2.1.step c, h.2.2.step c⟩

end settings

/-! ### What can be heard -/

/-- Two pipelines that nobody can tell apart. -/
structure SoundsAlike (p q : AudioPipeline M L n) : Prop where
  blockSamples : p.staging.blockSamples = q.staging.blockSamples
  iqDecimation : p.staging.iqDecimation = q.staging.iqDecimation
  staged : 1 < p.staging.iqDecimation →
    DspPipeline.StagedAlike p.staging.sdrBlockSamples p.staging q.staging
  iqDecimator : 1 < p.staging.iqDecimation → p.iqDecimator = q.iqDecimator
  stereoEnabled : p.stereoEnabled = q.stereoEnabled
  demod : p.demod.SoundsAlike q.demod
  stereo : p.stereo.heard = q.stereo.heard
  afPost : p.afPost.SoundsAlike q.afPost
  squelch : p.squelch = q.squelch
  pendingAudioReset : p.pendingAudioReset = q.pendingAudioReset

theorem SoundsAlike.sameSettings (h : SoundsAlike p q) (ops : ChainObjects M L) :
    SameSettings ops p q :=
  ⟨h.blockSamples, h.iqDecimation, h.stereoEnabled, h.demod.sameSettings _,
    StereoDecoder.sameSettings_of_heard h.stereo _, h.afPost.settings,
    congrArg RampedSquelch.reset h.squelch⟩

theorem SoundsAlike.sdrBlockSamples (h : SoundsAlike p q) :
    p.staging.sdrBlockSamples = q.staging.sdrBlockSamples := by
  unfold DspPipeline.sdrBlockSamples
  rw [h.blockSamples, h.iqDecimation]

/-- A block begins alike, the equalizer included. -/
theorem SoundsAlike.beginBlock (h : SoundsAlike p q) (ops : ChainObjects M L) :
    (p.beginBlock ops).SoundsAlike (q.beginBlock ops) ∧
      (p.beginBlock ops).demod.heard = (q.beginBlock ops).demod.heard := by
  have hdemod := h.demod.setMultipathAdaptEnabled
  have hdetected := (StereoDecoder.sameReadings_of_heard h.stereo ops.cmath ops.stereo).1
  have hreset : (p.stereo.reset ops.stereo).heard = (q.stereo.reset ops.stereo).heard :=
    StereoDecoder.heard_reset (StereoDecoder.sameSettings_of_heard h.stereo _)
  unfold AudioPipeline.beginBlock
  -- a reset waits in both or in neither
  simp only [h.pendingAudioReset]
  split
  · exact ⟨⟨h.1, h.2, h.3, h.4, h.5, RunningDemod.soundsAlike_of_heard (hdemod _), hreset,
      h.afPost.reset _, h.squelch, rfl⟩, hdemod _⟩
  · simp only [hdetected]
    exact ⟨⟨h.1, h.2, h.3, h.4, h.5, RunningDemod.soundsAlike_of_heard (hdemod _), h.stereo,
      h.afPost, h.squelch, h.pendingAudioReset⟩, hdemod _⟩

/-- What a block is decoded to. -/
structure Decoded.SoundsAlike (d d' : Decoded M L n) : Prop where
  demod : d.demod.heard = d'.demod.heard
  stereo : d.stereo.heard = d'.stereo.heard
  afPost : d.afPost.SoundsAlike d'.afPost
  mpx : d.mpx = d'.mpx
  audio : d.audio = d'.audio
  stereoDetected : d.stereoDetected = d'.stereoDetected
  pilotTenthsKHz : d.pilotTenthsKHz = d'.pilotTenthsKHz

theorem SoundsAlike.decode (h : SoundsAlike p q) (hdemod : p.demod.heard = q.demod.heard)
    (ops : ChainObjects M L) (iq : List Iq) :
    (p.decode ops iq).SoundsAlike (q.decode ops iq) := by
  obtain ⟨hstate, hmpx⟩ := RunningDemod.demodulate_of_heard hdemod ops.cmath ops.demod iq
  unfold AudioPipeline.decode
  simp only [h.stereoEnabled, hmpx]
  split
  · obtain ⟨hmono, haudio⟩ := RunningDemod.downsampleAudio_of_heard hstate ops.demod
      (q.demod.demodulate ops.cmath ops.demod iq).2
    exact ⟨hmono, h.stereo, h.afPost, rfl,
      congrArg (List.map fun x : ℚ => (x * (1 / 2), x * (1 / 2))) haudio, rfl, rfl⟩
  · obtain ⟨hstereo, hseparated⟩ := StereoDecoder.processAudio_heard h.stereo ops.cmath
      ops.stereo (q.demod.demodulate ops.cmath ops.demod iq).2
    have hreadings := StereoDecoder.sameReadings_of_heard hstereo ops.cmath ops.stereo
    -- what the post processor is told comes from decoders alike
    simp only [hreadings.stereoQuality, hseparated, h.blockSamples]
    obtain ⟨hafPost, haudio⟩ := h.afPost.process ops.cmath ops.demod.toAudioObjects _ _ _
    exact ⟨hstate, hstereo, hafPost, rfl, haudio, hreadings.1, hreadings.2⟩

/-- A block that is demodulated. -/
theorem SoundsAlike.runDemodChain (h : SoundsAlike p q) (hdemod : p.demod.heard = q.demod.heard)
    (ops : ChainObjects M L) (iq : List Iq) :
    (p.runDemodChain ops iq).1.SoundsAlike (q.runDemodChain ops iq).1 ∧
      (p.runDemodChain ops iq).2 = (q.runDemodChain ops iq).2 := by
  have hdecoded := h.decode hdemod ops iq
  have hreadings := StereoDecoder.sameReadings_of_heard hdecoded.stereo ops.cmath ops.stereo
  have hpower : (p.decode ops iq).demod.filteredChannelPowerDbfs =
      (q.decode ops iq).demod.filteredChannelPowerDbfs := by
    have hheard := congrArg (fun d : RunningDemod M => d.filteredChannelPowerDbfs) hdecoded.demod
    exact hheard
  unfold AudioPipeline.runDemodChain
  simp only [hpower, h.squelch, hdecoded.mpx, hdecoded.audio, hdecoded.stereoDetected,
    hdecoded.pilotTenthsKHz, hreadings.demodSnrDb, hreadings.stereoBlend,
    hreadings.stereoQuality, hreadings.mpxMagnitude, hreadings.pilotDeviationKHz,
    hreadings.rdsDeviationKHz, and_true]
  exact ⟨h.1, h.2, h.3, h.4, h.5, RunningDemod.soundsAlike_of_heard hdecoded.demod,
    hdecoded.stereo, hdecoded.afPost, rfl, h.pendingAudioReset⟩

/-- A block for the decimator. -/
theorem SoundsAlike.runDecimated (h : SoundsAlike p q) (hdemod : p.demod.heard = q.demod.heard)
    (hdec : 1 < p.staging.iqDecimation) (ops : ChainObjects M L) (iq : Option (List Iq)) :
    (p.runDecimated ops iq).1.SoundsAlike (q.runDecimated ops iq).1 ∧
      (p.runDecimated ops iq).2 = (q.runDecimated ops iq).2 := by
  cases iq with
  | none => exact ⟨h, rfl⟩
  | some iq =>
    unfold AudioPipeline.runDecimated
    -- one object and one block: the decimated samples are the same
    simp only [h.iqDecimator hdec, h.iqDecimation, h.blockSamples]
    have hdecimated : ∀ o : M, ({ p with iqDecimator := o } : AudioPipeline M L n).SoundsAlike
        { q with iqDecimator := o } := fun o =>
      ⟨h.1, h.2, h.3, fun _ => rfl, h.5, h.demod, h.stereo, h.afPost, h.squelch,
        h.pendingAudioReset⟩
    split
    · exact ⟨hdecimated _, rfl⟩
    · have hrun := fun o => (hdecimated o).runDemodChain hdemod ops
      exact ⟨(hrun _ _).1, congrArg some (hrun _ _).2⟩

/-- Rings that hold the same are put in place of others. -/
theorem SoundsAlike.withStaging (h : SoundsAlike p q) {staging staging' : DspPipeline Iq}
    (hsizes : staging.blockSamples = p.staging.blockSamples ∧
      staging.iqDecimation = p.staging.iqDecimation)
    (hsizes' : staging'.blockSamples = q.staging.blockSamples ∧
      staging'.iqDecimation = q.staging.iqDecimation)
    (hstaged : DspPipeline.StagedAlike p.staging.sdrBlockSamples staging staging') :
    ({ p with staging := staging } : AudioPipeline M L n).SoundsAlike
      { q with staging := staging' } where
  blockSamples := hsizes.1.trans (h.1.trans hsizes'.1.symm)
  iqDecimation := hsizes.2.trans (h.2.trans hsizes'.2.symm)
  staged _ := by
    have hsize := hstaged.shape.size_eq
    rw [← hsize] at hstaged
    exact hstaged
  iqDecimator hdec := h.iqDecimator (by rw [← hsizes.2]; exact hdec)
  stereoEnabled := h.stereoEnabled
  demod := h.demod
  stereo := h.stereo
  afPost := h.afPost
  squelch := h.squelch
  pendingAudioReset := h.pendingAudioReset

theorem SoundsAlike.processBytes (h : SoundsAlike p q) (ops : ChainObjects M L)
    (iq : List IqBytes) :
    (p.processBytes ops iq).1.SoundsAlike (q.processBytes ops iq).1 ∧
      (p.processBytes ops iq).2 = (q.processBytes ops iq).2 := by
  obtain ⟨hbegun, hdemod⟩ := h.beginBlock ops
  unfold AudioPipeline.processBytes
  split
  · exact ⟨h, rfl⟩
  · simp only
    rw [← hbegun.iqDecimation]
    split
    · next hdec =>
      obtain ⟨hstaged, hblock⟩ := (hbegun.staged hdec).processBytes iq
      have hsizes := (p.beginBlock ops).staging.processBytes_sizes iq
      rw [hblock]
      exact (hbegun.withStaging hsizes (DspPipeline.processBytes_sizes _ iq) hstaged).runDecimated
        hdemod (by rw [← hsizes.2] at hdec; exact hdec) ops _
    · obtain ⟨hnext, hresult⟩ := hbegun.runDemodChain hdemod ops (iq.map iqNorm)
      exact ⟨hnext, congrArg some hresult⟩

theorem SoundsAlike.processComplexes (h : SoundsAlike p q) (ops : ChainObjects M L)
    (iq : List Iq) :
    (p.processComplexes ops iq).1.SoundsAlike (q.processComplexes ops iq).1 ∧
      (p.processComplexes ops iq).2 = (q.processComplexes ops iq).2 := by
  obtain ⟨hbegun, hdemod⟩ := h.beginBlock ops
  unfold AudioPipeline.processComplexes
  split
  · exact ⟨h, rfl⟩
  · simp only
    rw [← hbegun.iqDecimation]
    split
    · next hdec =>
      obtain ⟨hstaged, hblock⟩ := (hbegun.staged hdec).processComplexes iq
      have hsizes := (p.beginBlock ops).staging.processComplexes_sizes iq
      rw [hblock]
      exact (hbegun.withStaging hsizes (DspPipeline.processComplexes_sizes _ iq)
        hstaged).runDecimated hdemod (by rw [← hsizes.2] at hdec; exact hdec) ops _
    · obtain ⟨hnext, hresult⟩ := hbegun.runDemodChain hdemod ops iq
      exact ⟨hnext, congrArg some hresult⟩

section settings
variable [DemodOps ℚ]

/-- After a reset only what was set is left. -/
theorem soundsAlike_reset (h : SameSettings ops p q) (hp : p.Shaped) (hq : q.Shaped) :
    (p.reset ops).SoundsAlike (q.reset ops) where
  blockSamples := h.blockSamples
  iqDecimation := h.iqDecimation
  staged hdec := by
    have hdec' : 1 < q.staging.iqDecimation := by
      rw [← h.iqDecimation]
      exact hdec
    have hshape' := hq hdec'
    rw [DspPipeline.sdrBlockSamples, ← h.blockSamples, ← h.iqDecimation] at hshape'
    exact (hp hdec).reset_alike hshape'
  iqDecimator hdec := by
    have hdec' : 1 < p.staging.iqDecimation := hdec
    simp only [reset, ← h.iqDecimation, if_neg (show ¬ p.staging.iqDecimation = 1 by omega)]
  stereoEnabled := h.stereoEnabled
  demod := RunningDemod.soundsAlike_reset h.demod
  stereo := StereoDecoder.heard_reset h.stereo
  afPost := AFPostProcessor.soundsAlike_reset _ h.afPost
  squelch := h.squelch
  pendingAudioReset := rfl

omit [DemodOps ℚ] in
theorem SoundsAlike.shaped (h : SoundsAlike p q) : p.Shaped ∧ q.Shaped := by
  refine ⟨fun hdec => (h.staged hdec).shape, fun hdec => ?_⟩
  rw [← h.iqDecimation] at hdec
  rw [← h.sdrBlockSamples]
  exact (h.staged hdec).shape'

/-- Calls keep pipelines alike. -/
theorem SoundsAlike.step (h : SoundsAlike p q) (ops : ChainObjects M L) (c : AudioCall) :
    ((audioPipeline ops).step p c).SoundsAlike ((audioPipeline ops).step q c) := by
  cases c with
  | reset => exact soundsAlike_reset (h.sameSettings ops) h.shaped.1 h.shaped.2
  | setBandwidthHz bandwidthHz =>
    exact ⟨h.1, h.2, h.3, h.4, h.5, h.demod.setBandwidthHz ops.demod bandwidthHz, h.stereo,
      h.afPost, h.squelch, rfl⟩
  | setDeemphasisMode deemphasisMode =>
    exact ⟨h.1, h.2, h.3, h.4, h.5, h.demod.setDeemphasis ops.demod _, h.stereo,
      h.afPost.setDeemphasis _ _ _, h.squelch, rfl⟩
  | setForceMono forceMono =>
    have hstereo := congrArg (fun s : StereoDecoder ℚ L n => { s with forceMono := forceMono })
      h.stereo
    exact ⟨h.1, h.2, h.3, h.4, h.5, h.demod, hstereo, h.afPost, h.squelch, h.pendingAudioReset⟩
  | setBlendMode mode =>
    have hstereo := congrArg (fun s : StereoDecoder ℚ L n => { s with blendMode := mode })
      h.stereo
    exact ⟨h.1, h.2, h.3, h.4, h.5, h.demod, hstereo, h.afPost, h.squelch, h.pendingAudioReset⟩
  | bytes iq => exact (h.processBytes ops iq).1
  | complexes iq => exact (h.processComplexes ops iq).1

theorem bisimulation_soundsAlike (ops : ChainObjects M L) :
    (audioPipeline (n := n) ops).Bisimulation (audioOf ops) (fun _ => True) SoundsAlike where
  step _ _ c _ h := h.step ops c
  out _ _ c _ h := by
    cases c with
    | bytes iq => exact (h.processBytes ops iq).2
    | complexes iq => exact (h.processComplexes ops iq).2
    | reset => rfl
    | setBandwidthHz => rfl
    | setDeemphasisMode => rfl
    | setForceMono => rfl
    | setBlendMode => rfl

end settings

end AudioPipeline

/-- Whatever was received before a reset, in whatever pieces: only the
    settings made before it show in what the pipeline gives afterwards,
    samples and meters. -/
theorem reset_isolates_stations [DemodOps ℚ] {ops : ChainObjects M L} (hops : ops.Forgets)
    (liquid : L) (inputRate outputRate : Int) (processing : ProcessingSection)
    (blockSamples iqDecimation : Nat) {before before' : List AudioCall}
    (hsame : before.filter AudioCall.isSetting = before'.filter AudioCall.isSetting)
    (later : List AudioCall) :
    let p := AudioPipeline.construct ops liquid inputRate outputRate processing blockSamples
      iqDecimation
    (audioPipeline ops).trace (audioOf ops) ((audioPipeline ops).run p (before ++ [.reset]))
        later =
      (audioPipeline ops).trace (audioOf ops) ((audioPipeline ops).run p (before' ++ [.reset]))
        later := by
  intro p
  have hp : p.Shaped := AudioPipeline.shaped_construct ops liquid inputRate outputRate processing
    blockSamples iqDecimation
  -- the reset turns equal settings into pipelines that sound alike
  have hcut : ∀ s t : AudioPipeline M L (StereoDecoder.delaySize (max 1 inputRate)),
      AudioPipeline.SameSettings ops s t ∧ s.Shaped ∧ t.Shaped →
      ((audioPipeline ops).step s AudioCall.reset).SoundsAlike
        ((audioPipeline ops).step t AudioCall.reset) :=
    fun _ _ h => AudioPipeline.soundsAlike_reset h.1 h.2.1 h.2.2
  exact Machine.trace_after_isolation (AudioPipeline.unwinding_sameSettings hops)
    (AudioPipeline.bisimulation_soundsAlike ops) hcut ⟨.refl ops p, hp, hp⟩ hsame
    fun _ _ => trivial

/-! ### A pipeline of small objects -/

/-- Rational arithmetic, with a rectangular design. -/
@[reducible] def rationalDemodOps : DemodOps ℚ where
  zero := 0
  one := 1
  sixty := 60
  mul x y := x * y
  min x y := if y < x then y else x
  twice x := 2 * x
  negligible x := decide (|x| < 1 / 1000000)
  nonPositive x := decide (x ≤ 0)
  invSumAbs taps :=
    let sumAbs : ℚ := (taps.map abs).sum
    if 1 / 1000000000000 < sumAbs then some (1 / sumAbs) else none
  shiftFactor _ _ := 1
  firdesKaiser length _ _ := List.replicate length (1 / length)
  seventy := 70
  iqDcAlpha := 5 / 10000
  monoDcAlpha := 8 / 10000
  deemphasisAlpha tau_us outputRate := 1000000 / (tau_us * outputRate + 1000000)
  feedback alpha := -(1 - alpha)
  initialCutoffNorm inputRate := clampTo (110000 / inputRate) (1 / 100) (45 / 100)
  iqCutoffNorm inputRate selectedBwHz :=
    let iqCutoffHz : ℚ :=
      if 0 < selectedBwHz then clampTo (selectedBwHz / 2) 9000 (45 / 100 * inputRate)
      else 45 / 100 * inputRate
    clampTo (iqCutoffHz / inputRate) (1 / 100) (45 / 100)

/-- Objects with a memory of one sample, and one audio sample for each. -/
def oneSampleObjects : ChainObjects Iq Unit where
  cmath := StereoDecoder.silentMath
  demod := {
    iir := fun _ => 0
    iirExecute := fun o x => (⟨x, 0⟩, (o.re + x) / 2)
    resampler := fun _ _ _ _ _ => 0
    resamplerExecute := fun _ x => (⟨x, 0⟩, [x])
    fir := fun _ => 0
    firExecute := fun o x => (x, ⟨(o.re + x.re) / 2, (o.im + x.im) / 2⟩)
    agc := fun _ _ => 0
    agcExecute := fun _ x => (x, x)
    freqDemod := fun _ => 0
    freqDemodReset := fun _ => 0
    freqDemodExecute := fun o x => (x, o.re * x.im - o.im * x.re) }
  stereo := StereoDecoder.silentLiquid
  decimator _ _ _ := 0
  decimate _ block := (block.getLastD 0, block.headD 0)

theorem forgets_oneSampleObjects : oneSampleObjects.Forgets where
  demod := ⟨fun _ _ => rfl, fun _ => rfl⟩
  stereo := ⟨fun _ _ => rfl, fun _ _ => rfl, fun _ _ => rfl, fun _ _ => rfl, fun _ => rfl,
    fun _ => rfl, fun _ _ _ => rfl⟩

/-- The defaults of `Config::ProcessingSection`. -/
def defaultProcessing : ProcessingSection where
  w0_bandwidth_hz := 194000
  dsp_agc := "off"
  stereo_blend := "aggressive"
  stereo := true
  pilot_canceller := true
  hicut := "off"
  multipath_eq := "off"
  multipath_eq_taps := 17
  fade_mute := "off"
  iq_fir_l1_normalize := false
  squelch_dbfs := -120

/-- Three samples, the last of which waits for a block to be complete. -/
def threeSamples : List AudioCall :=
  [.setForceMono true, .complexes [⟨3 / 5, 4 / 5⟩, ⟨4 / 5, -3 / 5⟩, ⟨1, 0⟩]]

/-- One sample, which waits too. -/
def oneSample : List AudioCall := [.complexes [⟨0, 1⟩], .setForceMono true]

/-- Three or one sample before a reset: the same is heard afterwards. Without
    the reset the waiting sample completes a block too early. -/
theorem reset_after_samples :
    letI := rationalDemodOps
    let p := AudioPipeline.construct oneSampleObjects () 48000 48000 defaultProcessing 2 2
    let heard (before : List AudioCall) :=
      (audioPipeline oneSampleObjects).trace (audioOf oneSampleObjects)
        ((audioPipeline oneSampleObjects).run p before)
        [.complexes [⟨0, 1⟩], .complexes [⟨3 / 5, 4 / 5⟩, ⟨4 / 5, 3 / 5⟩, ⟨1, 0⟩]]
    heard (threeSamples ++ [.reset]) = heard (oneSample ++ [.reset]) ∧
      (heard (threeSamples ++ [.reset])).map Option.isSome = [false, true] ∧
      (heard threeSamples).map Option.isSome = [true, false] := by
  refine ⟨?_, by decide +kernel, by decide +kernel⟩
  exact @reset_isolates_stations Iq Unit rationalDemodOps oneSampleObjects
    forgets_oneSampleObjects () 48000 48000 defaultProcessing 2 2 threeSamples oneSample rfl
    [.complexes [⟨0, 1⟩], .complexes [⟨3 / 5, 4 / 5⟩, ⟨4 / 5, 3 / 5⟩, ⟨1, 0⟩]]

end FmSdrTuner
