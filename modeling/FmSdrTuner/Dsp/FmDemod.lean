import FmSdrTuner.Dsp.LiquidPrimitives
import FmSdrTuner.Text.Numbers

/-! # FMDemod: the filters and their configuration

    The FM demodulator owns one FIR filter (the channel filter on the IQ
    stream) and four real IIR filters. A change of bandwidth designs the
    channel filter and then resets the whole demodulator.

    Main result: `resets_keep_filters_iff`. -/

namespace FmSdrTuner

/-- The float expressions of `FMDemod` that configure its filters. -/
class DemodOps (F : Type) extends FloatOps F where
  seventy : F
  /-- `0.0005f` and `0.0008f`. -/
  iqDcAlpha : F
  monoDcAlpha : F
  /-- `dt / (tau + dt)` for a time constant in microseconds at a rate. -/
  deemphasisAlpha : Int → Int → F
  /-- `-(1.0f - alpha)`. -/
  feedback : F → F
  /-- `std::clamp(110000.0f / inputRate, 0.01f, 0.45f)`. -/
  initialCutoffNorm : Int → F
  /-- `cutoffNorm` in `setBandwidthHz`, from the input rate and the
      selected bandwidth. -/
  iqCutoffNorm : Int → Int → F

variable {F : Type} [DemodOps F]

/-! ### State -/

structure FMDemod (F : Type) where
  inputRate : Int
  outputRate : Int
  deemphasisEnabled : Bool
  bandwidthMode : Int
  w0BandwidthHz : Int
  iqFirL1Normalize : Bool
  iqFilter : FIRFilter F
  iqDcBlockI : IIRFilterReal F
  iqDcBlockQ : IIRFilterReal F
  monoDeemphasis : IIRFilterReal F
  monoDcBlock : IIRFilterReal F
  deriving DecidableEq, Repr

/-- `kXdrFmBwHz`. -/
def kXdrFmBwHz : List Int :=
  [309000, 298000, 281000, 263000, 246000, 229000, 211000, 194000,
   177000, 159000, 142000, 125000, 108000, 95000, 90000, 83000,
   73000, 63000, 55000, 48000, 42000, 36000, 32000, 27000,
   24000, 20000, 17000, 15000, 9000, 0]

/-- The entry nearest to a positive bandwidth, the last entry otherwise. -/
def selectXdrBandwidth (effectiveBwHz : Int) : Nat :=
  if 0 < effectiveBwHz then
    (kXdrFmBwHz.dropLast.zipIdx.foldl
      (fun best entry =>
        let diff : Int := (entry.1 - effectiveBwHz).natAbs
        if diff < best.1 then (diff, entry.2) else best)
      (intMax, kXdrFmBwHz.length - 1)).2
  else kXdrFmBwHz.length - 1

namespace FMDemod

/-! ### Operations -/

/-- `FMDemod::reset`, as far as the filters are concerned. -/
def reset (d : FMDemod F) : FMDemod F :=
  { d with
    iqFilter := d.iqFilter.reset
    iqDcBlockI := d.iqDcBlockI.reset
    iqDcBlockQ := d.iqDcBlockQ.reset
    monoDeemphasis := if d.deemphasisEnabled then d.monoDeemphasis.reset else d.monoDeemphasis
    monoDcBlock := d.monoDcBlock.reset }

/-- `FMDemod::setDeemphasis`. -/
def setDeemphasis (d : FMDemod F) (tau_us : Int) : FMDemod F :=
  if tau_us ≤ 0 then
    { d with deemphasisEnabled := false, monoDeemphasis := d.monoDeemphasis.reset }
  else
    let alpha : F := DemodOps.deemphasisAlpha tau_us d.outputRate
    { d with
      deemphasisEnabled := true
      monoDeemphasis := d.monoDeemphasis.init [alpha] [FloatOps.one, DemodOps.feedback alpha] }

/-- The constructor. -/
def create (inputRate outputRate : Int) : FMDemod F :=
  let inputRate := max 1 inputRate
  let outputRate := max 1 outputRate
  let d : FMDemod F := {
    inputRate := inputRate
    outputRate := outputRate
    deemphasisEnabled := true
    bandwidthMode := 0
    w0BandwidthHz := 194000
    iqFirL1Normalize := false
    iqFilter := FIRFilter.fresh.init 81 (DemodOps.initialCutoffNorm inputRate) FloatOps.sixty
      FloatOps.zero false
    iqDcBlockI := IIRFilterReal.fresh.initDCBlocker DemodOps.iqDcAlpha
    iqDcBlockQ := IIRFilterReal.fresh.initDCBlocker DemodOps.iqDcAlpha
    monoDeemphasis := IIRFilterReal.fresh
    monoDcBlock := IIRFilterReal.fresh.initDCBlocker DemodOps.monoDcAlpha }
  d.setDeemphasis 50

/-- The table entry that `setBandwidthHz` selects. -/
def selected (d : FMDemod F) (bwHz : Int) : Nat :=
  selectXdrBandwidth (if bwHz ≤ 0 then d.w0BandwidthHz else bwHz)

/-- The design of the channel filter for a table entry. -/
def iqDesign (d : FMDemod F) (selected : Nat) : FirConfig F :=
  let selectedBwHz := kXdrFmBwHz.getD selected 0
  .kaiser
    (if 0 < selectedBwHz ∧ selectedBwHz ≤ 73000 then 121 else 81)
    (DemodOps.iqCutoffNorm d.inputRate selectedBwHz)
    (if 0 < selectedBwHz ∧ selectedBwHz ≤ 42000 then DemodOps.seventy else FloatOps.sixty)
    FloatOps.zero d.iqFirL1Normalize

/-- `FMDemod::setBandwidthHz`. -/
def setBandwidthHz (d : FMDemod F) (bwHz : Int) : FMDemod F :=
  let selected := d.selected bwHz
  if (selected : Int) = d.bandwidthMode then d
  else
    ({ d with
        bandwidthMode := selected
        iqFilter := d.iqFilter.configure (d.iqDesign selected) } : FMDemod F).reset

/-- `FMDemod::setIqFirL1Normalize`. -/
def setIqFirL1Normalize (d : FMDemod F) (enabled : Bool) : FMDemod F :=
  if enabled = d.iqFirL1Normalize then d
  else
    let currentBw :=
      if 0 ≤ d.bandwidthMode ∧ d.bandwidthMode < kXdrFmBwHz.length then
        kXdrFmBwHz.getD d.bandwidthMode.toNat 0
      else 0
    ({ d with iqFirL1Normalize := enabled, bandwidthMode := -1 } : FMDemod F).setBandwidthHz
      (if 0 < currentBw then currentBw else d.w0BandwidthHz)

/-- `FMDemod::setW0BandwidthHz`. -/
def setW0BandwidthHz (d : FMDemod F) (bwHz : Int) : FMDemod F :=
  { d with w0BandwidthHz := clamp bwHz 0 400000 }

end FMDemod

inductive DemodCall where
  | setBandwidthHz (bwHz : Int)
  | setIqFirL1Normalize (enabled : Bool)
  | setW0BandwidthHz (bwHz : Int)
  | setDeemphasis (tau_us : Int)
  | reset
  deriving DecidableEq, Repr

def demodMachine (F : Type) [DemodOps F] : Machine (FMDemod F) DemodCall where
  step d
    | .setBandwidthHz bwHz => d.setBandwidthHz bwHz
    | .setIqFirL1Normalize enabled => d.setIqFirL1Normalize enabled
    | .setW0BandwidthHz bwHz => d.setW0BandwidthHz bwHz
    | .setDeemphasis tau_us => d.setDeemphasis tau_us
    | .reset => d.reset

/-! ### The channel filter -/

theorem FIRFilter.configure_kaiser_remembers (f : FIRFilter F) (d : FMDemod F) (selected : Nat) :
    (f.configure (d.iqDesign selected)).Remembers (d.iqDesign selected) :=
  FIRFilter.init_remembers ..

/-- A change of bandwidth leaves its own design in force if and only if the
    L1-normalised design is not asked for. -/
theorem FMDemod.setBandwidthHz_inForce_iff (d : FMDemod F) (bwHz : Int)
    (h : (d.selected bwHz : Int) ≠ d.bandwidthMode) :
    (d.setBandwidthHz bwHz).iqFilter.InForce (d.iqDesign (d.selected bwHz)) ↔
      d.iqFirL1Normalize = false := by
  simp only [FMDemod.setBandwidthHz, h, if_false, FMDemod.reset]
  exact FIRFilter.reset_inForce_iff (d.iqFilter.configure_kaiser_remembers d _)

/-- `reset` never turns the L1-normalised design on. -/
theorem FIRFilter.reset_l1Normalize {f : FIRFilter F}
    (h : f.useDirectTaps = false ∨ f.l1Normalize = false) : f.reset.l1Normalize = false := by
  cases huse : f.useDirectTaps with
  | false =>
    simp only [FIRFilter.reset, huse, Bool.false_eq_true, if_false]
    exact FIRFilter.init_l1Normalize ..
  | true =>
    have hflag : f.l1Normalize = false := h.resolve_left (by simp [huse])
    simp only [FIRFilter.reset, huse, if_true, FIRFilter.initWithTaps]
    split <;> exact hflag

theorem FMDemod.setBandwidthHz_l1Normalize {d : FMDemod F}
    (h : d.iqFilter.l1Normalize = false) (bwHz : Int) :
    (d.setBandwidthHz bwHz).iqFilter.l1Normalize = false := by
  unfold FMDemod.setBandwidthHz
  simp only
  split
  · exact h
  · exact FIRFilter.reset_l1Normalize
      (Or.inl (d.iqFilter.configure_kaiser_remembers d _).1)

/-- After any calls on a new demodulator the channel filter is not the
    L1-normalised one, whatever `setIqFirL1Normalize` was told. -/
theorem demod_never_l1Normalized (inputRate outputRate : Int) (calls : List DemodCall) :
    ((demodMachine F).run (.create inputRate outputRate) calls).iqFilter.l1Normalize =
      false := by
  have hstart : (FMDemod.create inputRate outputRate : FMDemod F).iqFilter.l1Normalize = false :=
    FIRFilter.init_l1Normalize ..
  revert hstart
  apply @Machine.run_invariant_always _ _ (demodMachine F) fun d => d.iqFilter.l1Normalize = false
  intro d call h
  cases call with
  | setBandwidthHz bwHz => exact FMDemod.setBandwidthHz_l1Normalize h bwHz
  | setIqFirL1Normalize enabled =>
    simp only [demodMachine, FMDemod.setIqFirL1Normalize]
    split
    · exact h
    · apply FMDemod.setBandwidthHz_l1Normalize
      exact h
  | setW0BandwidthHz bwHz => exact h
  | setDeemphasis tau_us =>
    simp only [demodMachine, FMDemod.setDeemphasis]
    split <;> exact h
  | reset => exact FIRFilter.reset_l1Normalize (Or.inr h)

/-! ### Main result -/

/-- Exactly which configurations survive a `reset`: on a FIR filter all but
    the L1-normalised designs; on an IIR filter high-passes, DC blockers
    with a positive coefficient, and plain coefficients if no high-pass was
    ever made; in the demodulator the channel design of a bandwidth change
    unless the L1-normalised one is asked for. -/
theorem resets_keep_filters_iff (F : Type) [DemodOps F] :
    (∀ (calls : List (FirCall F)) (c : FirConfig F),
      c ∈ ((firRun F).run (FIRFilter.fresh, none) calls).2 →
        (((firRun F).run (FIRFilter.fresh, none) calls).1.reset.InForce c ↔
          c.l1Normalized = false)) ∧
    (∀ (calls : List (IirCall F)) (c : IirConfig F),
      ((iirRun F).run (iirStart F) calls).2.last = some c →
        (((iirRun F).run (iirStart F) calls).1.reset.InForce c ↔
          ((iirRun F).run (iirStart F) calls).2.Resettable c)) ∧
    (∀ (d : FMDemod F) (bwHz : Int), (d.selected bwHz : Int) ≠ d.bandwidthMode →
      ((d.setBandwidthHz bwHz).iqFilter.InForce (d.iqDesign (d.selected bwHz)) ↔
        d.iqFirL1Normalize = false)) :=
  ⟨fun calls _ h => firRun_reset_inForce_iff calls h,
    fun calls _ h => iirRun_reset_inForce_iff calls h,
    fun d bwHz h => d.setBandwidthHz_inForce_iff bwHz h⟩

/-- Two histories that end in another filter, whatever the design function
    computes: an L1-normalised low-pass, and coefficients set on a former
    high-pass. -/
theorem resets_that_change_the_filter :
    ¬ ∃ firdesKaiser : Nat → Float32 → Float32 → List Float32,
      letI := float32Ops firdesKaiser
      (∀ c ∈ ((firRun Float32).run (FIRFilter.fresh, none) [.init 81 0.45 60 0 true]).2,
        ((firRun Float32).run (FIRFilter.fresh, none)
          [.init 81 0.45 60 0 true]).1.reset.InForce c) ∨
      (∀ c ∈ ((iirRun Float32).run (iirStart Float32)
          [.initHighpass 4 0.1 60, .init [1] [1]]).2.last,
        ((iirRun Float32).run (iirStart Float32)
          [.initHighpass 4 0.1 60, .init [1] [1]]).1.reset.InForce c) := by
  rintro ⟨firdesKaiser, h⟩
  let ops := float32Ops firdesKaiser
  rcases h with hfir | hiir
  · have hlost := (firRun_reset_inForce_iff [.init 81 0.45 60 0 true]
      (Option.mem_some_self _)).mp (hfir _ (Option.mem_some_self _))
    cases hlost
  · have hstale := (iirRun_reset_inForce_iff [.initHighpass 4 0.1 60, .init [1] [1]]
      rfl).mp (hiir _ rfl)
    cases hstale

end FmSdrTuner
