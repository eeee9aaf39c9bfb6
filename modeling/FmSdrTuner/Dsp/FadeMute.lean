import FmSdrTuner.Dsp.IqStaging
import FmSdrTuner.Framework.PeakHold
import Mathlib.Algebra.Order.Floor.Ring
import Mathlib.Algebra.Order.Archimedean.Basic
import Mathlib.Data.Rat.Floor
import Mathlib.Tactic.NormNum

/-! # Squelch and fade-mute

    The gate of `dsp/squelch.h`: either a fixed threshold, or the adaptive
    fade-mute, which keeps a decaying reference of the channel power and
    one of the demodulator's SNR. Decibels are exact; `none` is an estimate
    that is not finite. The ramp of the gain is left out: it follows
    the gate and nothing reads it back. -/

namespace FmSdrTuner

/-! ### The gate -/

/-- `Squelch`, with what decides the gate. -/
structure Squelch where
  openDbfs : ℚ
  hysteresisDb : ℚ
  isOpen : Bool
  adaptive : Bool
  refInit : Bool
  refDbfs : ℚ
  dropDb : ℚ
  refDecayPerUpdate : ℚ
  snrRefInit : Bool
  snrRef : ℚ
  deriving DecidableEq

namespace Squelch

/-- The member initialisers. -/
def initial : Squelch where
  openDbfs := -120
  hysteresisDb := 3
  isOpen := true
  adaptive := false
  refInit := false
  refDbfs := -120
  dropDb := 10
  refDecayPerUpdate := 0
  snrRefInit := false
  snrRef := 0

/-- `Squelch::configure`. -/
def configure (sq : Squelch) (openDbfs hysteresisDb : ℚ) : Squelch :=
  { sq with
    openDbfs := openDbfs
    hysteresisDb := max 0 hysteresisDb
    isOpen := true }

/-- `Squelch::configureFadeMute`. -/
def configureFadeMute (sq : Squelch) (dropDb hysteresisDb refDecayDbPerSec updatesPerSec : ℚ) :
    Squelch :=
  { sq with
    adaptive := true
    dropDb := max 3 dropDb
    hysteresisDb := max 0 hysteresisDb
    refDecayPerUpdate := max 0 refDecayDbPerSec / max 1 updatesPerSec
    refInit := false
    snrRefInit := false
    isOpen := true }

/-- `Squelch::reset`. -/
def reset (sq : Squelch) : Squelch :=
  { sq with
    isOpen := true
    refInit := false
    refDbfs := -120
    snrRefInit := false
    snrRef := 0 }

/-- The reference after a level: it starts at the first one. -/
def track (init : Bool) (ref decay level : ℚ) : ℚ :=
  peakHold decay (if init then ref else level) level

/-- An open gate closes, a closed one opens. -/
def gate (sq : Squelch) (faded recovered : Bool) : Squelch :=
  { sq with isOpen := if sq.isOpen then !faded else recovered }

/-- `Squelch::updateGate`. -/
def updateGate (sq : Squelch) (channelPowerDbfs demodSnrDb : Option ℚ) : Squelch :=
  if sq.adaptive then
    match channelPowerDbfs with
    | none => sq
    | some dbfs =>
      let refDbfs := track sq.refInit sq.refDbfs sq.refDecayPerUpdate dbfs
      let openLevel := refDbfs - sq.dropDb
      let powerFaded := decide (dbfs < openLevel)
      let powerRecovered := decide (openLevel + sq.hysteresisDb < dbfs)
      match demodSnrDb with
      | none =>
        { sq with refInit := true, refDbfs := refDbfs }.gate powerFaded powerRecovered
      | some snr =>
        let snrRef := track sq.snrRefInit sq.snrRef sq.refDecayPerUpdate snr
        let snrOpenLevel := snrRef - sq.dropDb
        let snrFaded := decide (snr < snrOpenLevel)
        let snrRecovered := decide (snrOpenLevel + sq.hysteresisDb < snr)
        { sq with
          refInit := true
          refDbfs := refDbfs
          snrRefInit := true
          snrRef := snrRef }.gate (powerFaded || snrFaded) (powerRecovered && snrRecovered)
  else if sq.openDbfs ≤ -119 then { sq with isOpen := true }
  else
    match channelPowerDbfs with
    | none => sq
    | some dbfs =>
      sq.gate (decide (dbfs < sq.openDbfs)) (decide (sq.openDbfs + sq.hysteresisDb < dbfs))

end Squelch

/-- What the pipeline does with its squelch. -/
inductive SquelchCall where
  | updateGate (channelPowerDbfs demodSnrDb : Option ℚ)
  | reset

/-- The squelch as a machine. -/
def squelch : Machine Squelch SquelchCall where
  step sq
    | .updateGate channelPowerDbfs demodSnrDb => sq.updateGate channelPowerDbfs demodSnrDb
    | .reset => sq.reset

/-! ### The squelch of the pipeline -/

/-- `processing.fade_mute`. -/
inductive FadeMute where
  | gentle
  | strong
  deriving DecidableEq, Repr

/-- The decay it stands for. -/
def FadeMute.refDecayDbPerSec : FadeMute → ℚ
  | .gentle => 5
  | .strong => 8

/-- The rate at which the constructor expects `updateGate` to be called. -/
def DspPipeline.updatesPerSec {κ : Type*} (p : DspPipeline κ) (inputRate : Int) : ℚ :=
  (max 1 inputRate : Int) / (max 1 p.sdrBlockSamples : Nat)

/-- The squelch as `DspPipeline::DspPipeline` configures it; `none` is the
    fade-mute off. -/
def DspPipeline.squelch {κ : Type*} (p : DspPipeline κ) (inputRate : Int) (squelchDbfs : ℚ) :
    Option FadeMute → Squelch
  | some .gentle =>
    Squelch.initial.configureFadeMute 14 4 FadeMute.gentle.refDecayDbPerSec
      (p.updatesPerSec inputRate)
  | some .strong =>
    Squelch.initial.configureFadeMute 9 3 FadeMute.strong.refDecayDbPerSec
      (p.updatesPerSec inputRate)
  | none => Squelch.initial.configure squelchDbfs 3

namespace Squelch
variable {sq : Squelch}

/-! ### One update of an adaptive gate -/

/-- What no update changes. -/
structure SameSettings (sq sq' : Squelch) : Prop where
  adaptive : sq'.adaptive = sq.adaptive
  dropDb : sq'.dropDb = sq.dropDb
  hysteresisDb : sq'.hysteresisDb = sq.hysteresisDb
  refDecayPerUpdate : sq'.refDecayPerUpdate = sq.refDecayPerUpdate

theorem SameSettings.trans {a b c : Squelch} (hab : SameSettings a b) (hbc : SameSettings b c) :
    SameSettings a c :=
  ⟨hbc.1.trans hab.1, hbc.2.trans hab.2, hbc.3.trans hab.3, hbc.4.trans hab.4⟩

variable (sq) in
theorem updateGate_sameSettings (power snr : Option ℚ) :
    SameSettings sq (sq.updateGate power snr) := by
  unfold updateGate
  split
  · cases power with
    | none => exact ⟨rfl, rfl, rfl, rfl⟩
    | some dbfs => cases snr <;> exact ⟨rfl, rfl, rfl, rfl⟩
  · split
    · exact ⟨rfl, rfl, rfl, rfl⟩
    · cases power <;> exact ⟨rfl, rfl, rfl, rfl⟩

variable (sq) in
theorem run_sameSettings (calls : List SquelchCall) :
    SameSettings sq (squelch.run sq calls) := by
  refine Machine.run_invariant_always (fun s a hs => ?_) calls ⟨rfl, rfl, rfl, rfl⟩
  cases a with
  | updateGate power snr => exact hs.trans (updateGate_sameSettings _ power snr)
  | reset => exact hs.trans ⟨rfl, rfl, rfl, rfl⟩

/-- The references follow the levels of a block. -/
theorem updateGate_references (hadaptive : sq.adaptive = true) (dbfs : ℚ) (snr : Option ℚ) :
    (sq.updateGate (some dbfs) snr).refInit = true ∧
      (sq.updateGate (some dbfs) snr).refDbfs =
        track sq.refInit sq.refDbfs sq.refDecayPerUpdate dbfs := by
  cases snr <;> simp [updateGate, hadaptive, gate]

theorem updateGate_snrReferences (hadaptive : sq.adaptive = true) (dbfs snr : ℚ) :
    (sq.updateGate (some dbfs) (some snr)).snrRefInit = true ∧
      (sq.updateGate (some dbfs) (some snr)).snrRef =
        track sq.snrRefInit sq.snrRef sq.refDecayPerUpdate snr := by
  simp [updateGate, hadaptive, gate]

/-- With both references at the levels of the block the gate is open. -/
theorem updateGate_isOpen (hadaptive : sq.adaptive = true) (hband : sq.hysteresisDb < sq.dropDb)
    (hdrop : 0 ≤ sq.dropDb) {dbfs snr : ℚ}
    (hpower : (sq.updateGate (some dbfs) (some snr)).refDbfs = dbfs)
    (hsnr : (sq.updateGate (some dbfs) (some snr)).snrRef = snr) :
    (sq.updateGate (some dbfs) (some snr)).isOpen = true := by
  rw [(updateGate_references hadaptive dbfs _).2] at hpower
  rw [(updateGate_snrReferences hadaptive dbfs snr).2] at hsnr
  have hfaded (level : ℚ) : ¬ level < level - sq.dropDb := by linarith
  have hrecovered (level : ℚ) : level - sq.dropDb + sq.hysteresisDb < level := by linarith
  simp [updateGate, hadaptive, gate, hpower, hsnr, hfaded, hrecovered]

/-! ### Runs of blocks -/

/-- The calls for blocks of finite power. -/
def blockCalls (blocks : List (ℚ × Option ℚ)) : List SquelchCall :=
  blocks.map fun b => .updateGate (some b.1) b.2

/-- The power reference is a peak reference of the powers. -/
theorem run_refDbfs (hadaptive : sq.adaptive = true) (hinit : sq.refInit = true)
    (blocks : List (ℚ × Option ℚ)) :
    (squelch.run sq (blockCalls blocks)).refDbfs =
      peakHoldRun sq.refDecayPerUpdate sq.refDbfs (blocks.map (·.1)) := by
  induction blocks generalizing sq with
  | nil => rfl
  | cons b blocks ih =>
    have hsame := updateGate_sameSettings sq (some b.1) b.2
    obtain ⟨hnext, href⟩ := updateGate_references hadaptive b.1 b.2
    have hrest := @ih (sq.updateGate (some b.1) b.2) (hsame.adaptive.trans hadaptive) hnext
    rw [hsame.refDecayPerUpdate, href, hinit] at hrest
    exact hrest

/-- The references under a constant power and SNR. One that was not
    initialised starts at the level itself. -/
theorem run_replicate (hadaptive : sq.adaptive = true) (L s : ℚ) (n : Nat) :
    let after := squelch.run sq (List.replicate (n + 1) (.updateGate (some L) (some s)))
    after.refDbfs = peakHoldRun sq.refDecayPerUpdate (if sq.refInit then sq.refDbfs else L)
        (List.replicate (n + 1) L) ∧
      after.snrRef = peakHoldRun sq.refDecayPerUpdate (if sq.snrRefInit then sq.snrRef else s)
        (List.replicate (n + 1) s) := by
  have hsame := updateGate_sameSettings sq (some L) (some s)
  obtain ⟨hinit, href⟩ := updateGate_references hadaptive L (some s)
  obtain ⟨hsnrInit, hsnr⟩ := updateGate_snrReferences hadaptive L s
  induction n generalizing sq with
  | zero => exact ⟨href, hsnr⟩
  | succ n ih =>
    have hadaptive' := hsame.adaptive.trans hadaptive
    have hrest := @ih (sq.updateGate (some L) (some s)) hadaptive'
      (updateGate_sameSettings _ _ _) (updateGate_references hadaptive' L (some s)).1
      (updateGate_references hadaptive' L (some s)).2
      (updateGate_snrReferences hadaptive' L s).1 (updateGate_snrReferences hadaptive' L s).2
    rw [hinit, hsnrInit, href, hsnr, hsame.refDecayPerUpdate] at hrest
    exact hrest

/-- Where a reference starts, the distance to the level is at most what
    the stored value shows. -/
theorem peakHoldRun_settles {d ref level : ℚ} {init : Bool} (hd : 0 < d) {n : Nat} {gap : ℚ}
    (hgap : ref - level ≤ gap) (hpos : 0 ≤ gap) (hn : ⌈gap / d⌉₊ ≤ n) :
    peakHoldRun d (if init then ref else level) (List.replicate (n + 1) level) = level := by
  refine peakHoldRun_reaches hd ?_
  have hstart : (if init then ref else level) - level ≤ gap := by
    cases init with
    | true => exact hgap
    | false => simpa using hpos
  have hceil : gap / d ≤ n := (Nat.le_ceil _).trans (by exact_mod_cast hn)
  have hdiv : ((if init then ref else level) - level) / d ≤ gap / d :=
    div_le_div_of_nonneg_right hstart hd.le
  linarith

end Squelch

/-! ### Main results -/

open Squelch in
/-- A steady station is never muted for good: whatever happened before,
    the gate opens within a number of updates proportional to how far the
    references are above the station, and stays open. -/
theorem fade_mute_opens (sq : Squelch) (dropDb hysteresisDb refDecayDbPerSec updatesPerSec : ℚ)
    (hband : max 0 hysteresisDb < max 3 dropDb)
    (hdecay : 0 < max 0 refDecayDbPerSec / max 1 updatesPerSec)
    (history : List SquelchCall) (L s : ℚ) (n : Nat) :
    let before := squelch.run
      (sq.configureFadeMute dropDb hysteresisDb refDecayDbPerSec updatesPerSec) history
    ⌈max (max (before.refDbfs - L) (before.snrRef - s)) 0 / before.refDecayPerUpdate⌉₊ + 1 ≤ n →
      (squelch.run before (List.replicate n (.updateGate (some L) (some s)))).isOpen = true := by
  intro before hn
  have hsame : SameSettings
      (sq.configureFadeMute dropDb hysteresisDb refDecayDbPerSec updatesPerSec) before :=
    run_sameSettings _ history
  have hadaptive : before.adaptive = true := hsame.adaptive
  have hd : 0 < before.refDecayPerUpdate := by
    rw [hsame.refDecayPerUpdate]
    exact hdecay
  obtain ⟨m, rfl⟩ : ∃ m, n = m + 1 := ⟨n - 1, by omega⟩
  have hm := Nat.le_of_succ_le_succ hn
  obtain ⟨hpower, hsnr⟩ := run_replicate hadaptive L s m
  have hgap := le_max_left (max (before.refDbfs - L) (before.snrRef - s)) 0
  rw [peakHoldRun_settles hd ((le_max_left _ _).trans hgap) (le_max_right _ _) hm] at hpower
  rw [peakHoldRun_settles hd ((le_max_right _ _).trans hgap) (le_max_right _ _) hm] at hsnr
  rw [List.replicate_succ', Machine.run_append] at hpower hsnr ⊢
  have hlast := run_sameSettings before
    (List.replicate m (.updateGate (some L) (some s)))
  refine updateGate_isOpen (hlast.adaptive.trans hadaptive) ?_ ?_ hpower hsnr
  · rw [hlast.hysteresisDb, hlast.dropDb, hsame.hysteresisDb, hsame.dropDb]
    exact hband
  · rw [hlast.dropDb, hsame.dropDb]
    exact le_max_of_le_left (by norm_num)

/-- A fade of 20 dB closes the strong gate, for 20 updates at most. -/
theorem fade_mute_opens_after_fade :
    let before := squelch.run (Squelch.initial.configureFadeMute 9 3 8 8)
      [.updateGate (some (-40)) (some 30)]
    (squelch.run before [.updateGate (some (-60)) (some 20)]).isOpen = false ∧
      (squelch.run before (List.replicate 21 (.updateGate (some (-60)) (some 20)))).isOpen =
        true := by
  intro before
  have hgap : max (max (before.refDbfs - -60) (before.snrRef - 20)) 0 /
      before.refDecayPerUpdate ≤ (20 : Nat) := by decide +kernel
  refine ⟨by decide +kernel, ?_⟩
  exact fade_mute_opens Squelch.initial 9 3 8 8 (by decide +kernel) (by decide +kernel)
    [.updateGate (some (-40)) (some 30)] (-60) 20 21 (Nat.succ_le_succ (Nat.ceil_le.mpr hgap))

/-- The fade-mute decays as its setting says: over blocks whose power stays
    below the reference it falls by `refDecayDbPerSec` for each second of
    their signal. A block is `blockSamples` samples behind the decimator,
    at the rate `inputRate`. -/
def DecaysAsConfigured {κ : Type*} (p : DspPipeline κ) (inputRate : Int) (squelchDbfs : ℚ)
    (fadeMute : FadeMute) : Prop :=
  ∀ (history : List SquelchCall) (blocks : List (ℚ × Option ℚ)),
    let before := squelch.run (p.squelch inputRate squelchDbfs (some fadeMute)) history
    before.refInit = true →
      StaysBelow before.refDecayPerUpdate before.refDbfs (blocks.map (·.1)) →
      before.refDbfs - (squelch.run before (Squelch.blockCalls blocks)).refDbfs =
        fadeMute.refDecayDbPerSec * (blocks.length * p.blockSamples / (max 1 inputRate : Int))

namespace DspPipeline
variable {κ : Type*} {p : DspPipeline κ} {inputRate : Int} {squelchDbfs : ℚ}

variable (p inputRate squelchDbfs) in
theorem squelch_fadeMute (fadeMute : FadeMute) :
    (p.squelch inputRate squelchDbfs (some fadeMute)).adaptive = true ∧
      (p.squelch inputRate squelchDbfs (some fadeMute)).refDecayPerUpdate =
        fadeMute.refDecayDbPerSec / max 1 (p.updatesPerSec inputRate) := by
  have hnonneg : (0 : ℚ) ≤ fadeMute.refDecayDbPerSec := by
    cases fadeMute <;> norm_num [FadeMute.refDecayDbPerSec]
  cases fadeMute <;> exact ⟨rfl, by
    simp only [squelch, Squelch.configureFadeMute, max_eq_right hnonneg]⟩

/-- It does exactly if the constructor expects the rate at which blocks
    come. -/
theorem decaysAsConfigured_iff_rate (fadeMute : FadeMute) :
    DecaysAsConfigured p inputRate squelchDbfs fadeMute ↔
      1 / max 1 (p.updatesPerSec inputRate) = p.blockSamples / (max 1 inputRate : Int) := by
  obtain ⟨hadaptive, hdecay⟩ := squelch_fadeMute p inputRate squelchDbfs fadeMute
  have hpos : (0 : ℚ) < fadeMute.refDecayDbPerSec := by
    cases fadeMute <;> norm_num [FadeMute.refDecayDbPerSec]
  -- over any such blocks the reference falls by the decay of each update
  have hfall (history : List SquelchCall) (blocks : List (ℚ × Option ℚ)) :
      let before := FmSdrTuner.squelch.run (p.squelch inputRate squelchDbfs (some fadeMute)) history
      before.refInit = true →
        StaysBelow before.refDecayPerUpdate before.refDbfs (blocks.map (·.1)) →
        before.refDbfs - (FmSdrTuner.squelch.run before (Squelch.blockCalls blocks)).refDbfs =
          fadeMute.refDecayDbPerSec *
            (blocks.length * (1 / max 1 (p.updatesPerSec inputRate))) := by
    intro before hinit hbelow
    have hsame : Squelch.SameSettings _ before := Squelch.run_sameSettings _ history
    rw [Squelch.run_refDbfs (hsame.adaptive.trans hadaptive) hinit,
      peakHoldRun_of_staysBelow hbelow, hsame.refDecayPerUpdate, hdecay, List.length_map]
    ring
  constructor
  · intro hall
    -- one block far below a first one
    let before := FmSdrTuner.squelch.run (p.squelch inputRate squelchDbfs (some fadeMute))
      [.updateGate (some 0) none]
    have hinit : before.refInit = true := (Squelch.updateGate_references hadaptive 0 none).1
    have hbelow : StaysBelow before.refDecayPerUpdate before.refDbfs
        ([(before.refDbfs - before.refDecayPerUpdate - 1, none)].map
          (Prod.fst : ℚ × Option ℚ → ℚ)) := ⟨by linarith, trivial⟩
    have hasked := hall [.updateGate (some 0) none] _ hinit hbelow
    have hdone := hfall [.updateGate (some 0) none] _ hinit hbelow
    have heq := mul_left_cancel₀ hpos.ne' (hdone.symm.trans hasked)
    simpa using heq
  · intro hrate history blocks before hinit hbelow
    rw [hfall history blocks hinit hbelow, hrate]
    ring

/-- With at least one update a second: without decimation, or with blocks
    of one second. -/
theorem expectedRate_iff {blockSamples iqDecimation : Nat}
    (hp : p.blockSamples = max 1 blockSamples ∧ p.iqDecimation = max 1 iqDecimation)
    (hrate : (max 1 blockSamples : Nat) ≤ max 1 inputRate) :
    1 / max 1 (p.updatesPerSec inputRate) = p.blockSamples / (max 1 inputRate : Int) ↔
      iqDecimation ≤ 1 ∨ max 1 inputRate = (max 1 blockSamples : Nat) := by
  obtain ⟨hblock, hdecimation⟩ := hp
  set B := max 1 blockSamples with hB
  set D := max 1 iqDecimation with hD
  set I := max 1 inputRate with hI
  have hBpos : (0 : ℚ) < B := by exact_mod_cast (by omega : 0 < B)
  have hDpos : (0 : ℚ) < D := by exact_mod_cast (by omega : 0 < D)
  have hIpos : (0 : ℚ) < I := by exact_mod_cast (by omega : 0 < I)
  have hupdates : p.updatesPerSec inputRate = (I : ℚ) / (B * D) := by
    have hsize : max 1 (B * D) = B * D := max_eq_right (Nat.mul_pos (by omega) (by omega))
    rw [updatesPerSec, sdrBlockSamples, hblock, hdecimation, hsize, ← hI, Nat.cast_mul]
  have hratio : (1 : ℚ) ≤ I / B := by
    rw [le_div_iff₀ hBpos, one_mul]
    exact_mod_cast hrate
  have hinverse : (B : ℚ) / I = 1 / (I / B) := by rw [one_div_div]
  rw [hupdates, hblock, hinverse, one_div, one_div, inv_inj, ← div_div]
  -- dividing by the decimation once more changes the rate, unless it is held at one
  constructor
  · intro hmax
    rcases max_cases 1 ((I : ℚ) / B / D) with ⟨hone, -⟩ | ⟨hquot, -⟩
    · right
      rw [hone, eq_div_iff hBpos.ne', one_mul] at hmax
      exact_mod_cast hmax.symm
    · left
      rw [hquot, div_eq_iff hDpos.ne'] at hmax
      have hD1 : (D : ℚ) = 1 := by
        have hcancel : (I : ℚ) / B * 1 = I / B * D := by rw [mul_one]; exact hmax
        exact (mul_left_cancel₀ (by linarith) hcancel).symm
      have hD1' : D = 1 := by exact_mod_cast hD1
      omega
  · rintro (hD1 | hIB)
    · have hD1' : D = 1 := by omega
      rw [hD1', Nat.cast_one, div_one, max_eq_right hratio]
    · have hone : (I : ℚ) / B = 1 := by
        rw [div_eq_one_iff_eq hBpos.ne']
        exact_mod_cast hIB
      rw [hone]
      refine max_eq_left ?_
      rw [div_le_one hDpos]
      exact_mod_cast (by omega : 1 ≤ D)

end DspPipeline

/-- With at least one update a second, the fade-mute decays as its setting
    says exactly without decimation and with blocks of one second. The
    constructor divides the rate behind the decimator by the length of a
    block in front of it. -/
theorem fade_mute_decays_iff {κ : Type*} [Zero κ] (inputRate : Int)
    (blockSamples iqDecimation : Nat) (squelchDbfs : ℚ) (fadeMute : FadeMute)
    (hrate : (max 1 blockSamples : Nat) ≤ max 1 inputRate) :
    DecaysAsConfigured (DspPipeline.construct blockSamples iqDecimation : DspPipeline κ) inputRate
        squelchDbfs fadeMute ↔
      iqDecimation ≤ 1 ∨ max 1 inputRate = (max 1 blockSamples : Nat) := by
  rw [DspPipeline.decaysAsConfigured_iff_rate]
  exact DspPipeline.expectedRate_iff ⟨rfl, rfl⟩ hrate

/-- The usual block without decimation. -/
theorem fade_mute_decays_undecimated :
    DecaysAsConfigured (DspPipeline.construct 8192 1 : DspPipeline Int) 256000 (-120) .strong :=
  (fade_mute_decays_iff 256000 8192 1 (-120) .strong (by decide)).mpr (Or.inl (by decide))

/-- Four times decimated, the strong setting loses 1.024 dB in a block of
    32 ms instead of 0.256 dB. -/
theorem fade_mute_decimated_decays_fast :
    ¬ DecaysAsConfigured (DspPipeline.construct 8192 4 : DspPipeline Int) 256000 (-120)
      .strong := by
  intro hall
  have hblock := hall [.updateGate (some 0) none] [(-100, none)] (by decide +kernel)
    ⟨by decide +kernel, trivial⟩
  exact absurd hblock (by decide +kernel)

end FmSdrTuner
