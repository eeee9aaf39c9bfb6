import Mathlib.Algebra.Order.Floor.Ring
import Mathlib.Data.Rat.Floor
import Mathlib.Tactic.Positivity
import FmSdrTuner.Scan.Abort

/-! # The coverage of a sweep

    The centers of a sweep are `centerStepHz` apart, which is the larger of
    the channel step and a step that the usable span limits. Either way no
    channel falls between two spans: a sweep that is not aborted comes to a
    center with the channel in its span, whichever of the bounds are active.

    Main result: `sweep_coverage`. -/

namespace FmSdrTuner

/-! ### Spans on a grid -/

/-- A value that `for (c = first; c <= last; c += step)` takes. -/
def LoopValue (first last step c : Int) : Prop := ∃ n : Nat, c = first + n * step ∧ c ≤ last

/-- The spans around the centers leave no gap at `f`, if `f` is not further
    above its grid point than a span is wide. -/
theorem exists_loopValue_near {start stop half step f : Int} (hstep : 0 < step)
    (hstart : start ≤ f) (hstop : f ≤ stop) (hgap : (f - start) % step ≤ 2 * half) :
    ∃ c, LoopValue (start + half) (stop + half) step c ∧ c - half ≤ f ∧ f ≤ c + half := by
  have hdiv : (f - start) / step * step + (f - start) % step = f - start :=
    Int.ediv_mul_add_emod _ _
  have hrem : 0 ≤ (f - start) % step := Int.emod_nonneg _ hstep.ne'
  have hquot : (((f - start) / step).toNat : Int) = (f - start) / step :=
    Int.toNat_of_nonneg (Int.ediv_nonneg (by omega) hstep.le)
  refine ⟨start + half + (f - start) / step * step, ⟨((f - start) / step).toNat, ?_, ?_⟩, ?_, ?_⟩
  · rw [hquot]
  · omega
  · omega
  · omega

/-! ### The spacing of the centers -/

/-- The two products that are truncated: what is left of the sample rate
    around a center, and the step that is preferred. -/
structure ScanSpacing where
  usableHalfSpanHz : Int
  preferredStepHz : Int

namespace ScanSpacing

def centerStepHz (g : ScanSpacing) (stepKHz : Int) : Int :=
  max (stepKHz * 1000) (min g.preferredStepHz (max 1 (g.usableHalfSpanHz * 3 / 2)))

/-- A center of the sweep. -/
def IsCenter (g : ScanSpacing) (p : ScanPlan) (centerHz : Int) : Prop :=
  LoopValue (p.startKHz * 1000 + g.usableHalfSpanHz) (p.stopKHz * 1000 + g.usableHalfSpanHz)
    (g.centerStepHz p.stepKHz) centerHz

/-- Every channel lies in the span around some center. -/
def Covers (g : ScanSpacing) (p : ScanPlan) : Prop :=
  ∀ ch, p.freqKHz ch ≤ p.stopKHz → ∃ centerHz, g.IsCenter p centerHz ∧
    centerHz - g.usableHalfSpanHz ≤ p.freqHz ch ∧ p.freqHz ch ≤ centerHz + g.usableHalfSpanHz

/-- A channel is nearer to its grid point than a span is wide: it is the grid
    point if the channel step decides, and the cap keeps the step below the
    width of a span otherwise. -/
theorem gap_le (g : ScanSpacing) (p : ScanPlan) (hhalf : 0 ≤ g.usableHalfSpanHz) (ch : Nat) :
    (p.freqHz ch - p.startKHz * 1000) % g.centerStepHz p.stepKHz ≤ 2 * g.usableHalfSpanHz := by
  have hoffset : p.freqHz ch - p.startKHz * 1000 = ch * (p.stepKHz * 1000) := by
    unfold ScanPlan.freqHz ScanPlan.freqKHz
    ring
  have hmin : 5 ≤ p.stepKHz := le_max_left _ _
  rw [hoffset]
  rcases Int.le_total (min g.preferredStepHz (max 1 (g.usableHalfSpanHz * 3 / 2)))
    (p.stepKHz * 1000) with hchannels | hspans
  · -- every channel is on the grid of the centers
    have hstep : g.centerStepHz p.stepKHz = p.stepKHz * 1000 := max_eq_left hchannels
    rw [hstep, Int.mul_emod_left]
    omega
  · -- the cap keeps a step below three quarters of a span
    have hstep : g.centerStepHz p.stepKHz =
        min g.preferredStepHz (max 1 (g.usableHalfSpanHz * 3 / 2)) := max_eq_right hspans
    have hlt := Int.emod_lt_of_pos (ch * (p.stepKHz * 1000))
      (show 0 < g.centerStepHz p.stepKHz by omega)
    omega

theorem covers (g : ScanSpacing) (p : ScanPlan) (hhalf : 0 ≤ g.usableHalfSpanHz) :
    g.Covers p := by
  intro ch hch
  have hmin : 5 ≤ p.stepKHz := le_max_left _ _
  have hstart : p.startKHz * 1000 ≤ p.freqHz ch := by
    have hoffset : 0 ≤ (ch : Int) * p.stepKHz := by positivity
    unfold ScanPlan.freqHz ScanPlan.freqKHz
    omega
  have hstop : p.freqHz ch ≤ p.stopKHz * 1000 := by
    unfold ScanPlan.freqHz
    omega
  have hstep : 0 < g.centerStepHz p.stepKHz := by
    unfold centerStepHz
    omega
  exact exists_loopValue_near hstep hstart hstop (gap_le g p hhalf ch)

end ScanSpacing

namespace ScanPlan
variable (p : ScanPlan)

/-- As the code computes it, in floating point. -/
def spacing : ScanSpacing := ⟨p.usableHalfSpanHz, p.preferredStepHz⟩

/-- With the fractions 0.85 and 0.60 as they are written. -/
def exactSpacing : ScanSpacing where
  usableHalfSpanHz := min ⌊(p.iqSampleRate * (85 / 100) / 2 : ℚ)⌋ p.maxHalfSpanByNyquist
  preferredStepHz := ⌊(p.iqSampleRate * (60 / 100) : ℚ)⌋

theorem spacing_covers : p.spacing.Covers p := p.spacing.covers p p.usableHalfSpanHz_nonneg

theorem exactSpacing_covers : p.exactSpacing.Covers p := by
  have hfraction : 0 ≤ ⌊(p.iqSampleRate * (85 / 100) / 2 : ℚ)⌋ :=
    Int.floor_nonneg.mpr (by positivity)
  have hnyquist : 1 ≤ p.maxHalfSpanByNyquist := le_max_left _ _
  refine p.exactSpacing.covers p ?_
  show 0 ≤ min _ _
  omega

/-- A center is tuned to as it is. -/
theorem toUInt32_center (hrate : p.iqSampleRate < 2 ^ 32) {centerHz : Int}
    (hcenter : p.spacing.IsCenter p centerHz) : (toUInt32 centerHz : Int) = centerHz := by
  obtain ⟨n, hn, hend⟩ := hcenter
  have hstart := p.startKHz_bounds
  have hstop := p.stopKHz_le
  have hhalf := p.usableHalfSpanHz_nonneg
  have hstep : 0 ≤ (n : Int) * p.spacing.centerStepHz p.stepKHz :=
    Int.mul_nonneg (Int.natCast_nonneg n) p.centerStepHz_pos.le
  have hspan : p.usableHalfSpanHz ≤ 2 ^ 31 := by
    have hbandwidth : 10000 ≤ p.channelBandwidthHz := by
      unfold channelBandwidthHz clamp
      omega
    have hnyquist : p.usableHalfSpanHz ≤ p.maxHalfSpanByNyquist := min_le_right _ _
    unfold maxHalfSpanByNyquist at hnyquist
    omega
  have hspacing : p.spacing.usableHalfSpanHz = p.usableHalfSpanHz := rfl
  rw [hspacing] at hn hend
  unfold toUInt32
  omega

end ScanPlan

/-! ### The rounds of a sweep -/

section rounds
variable {ε β : Type*} (p : ScanPlan) (cb : ScanCallbacks ε β)

/-- How many samples a round reads, and where that leaves it, if it does not
    end before. -/
def ScanPlan.sweepRead (s : ScanPass ε β) (centerHz : Int) : Nat × ScanPass ε β :=
  let env := (cb.consumeScanCancel (cb.shouldRun s.env).2).2
  let tuned := ScanPlan.tune cb { s with env := env } (toUInt32 centerHz)
  ScanPlan.readSamples cb (p.settleAfterRetune cb tuned.2) p.scanReadSamples

/-- The read of a round is long enough for a spectrum, and the buffers for it
    are there. -/
def ScanPlan.ReadSucceeds (s : ScanPass ε β) (centerHz : Int) : Prop :=
  let read := p.sweepRead cb s centerHz
  1024 ≤ read.1 ∧ (cb.ensureSize (nearestPow2 (min read.1 16384)) read.2.env).1 = true

variable [Max β]

/-- The sweep from `s` and `centerHz` on comes to a round that starts in `s'`
    at `centerHz'`. -/
inductive ScanPlan.SweepReaches : ScanPass ε β → Int → ScanPass ε β → Int → Prop
  | here {s : ScanPass ε β} {centerHz : Int} (hin : centerHz ≤ p.endCenterHz) :
      SweepReaches s centerHz s centerHz
  | next {s s' : ScanPass ε β} {centerHz centerHz' : Int} (hin : centerHz ≤ p.endCenterHz)
      (hon : (p.sweepAt cb s centerHz).1 = true)
      (h : SweepReaches (p.sweepAt cb s centerHz).2 (centerHz + p.centerStepHz) s' centerHz') :
      SweepReaches s centerHz s' centerHz'

/-- A round that the sweep goes on from has tuned and read. -/
theorem sweepAt_of_goes_on {s : ScanPass ε β} {centerHz : Int}
    (hon : (p.sweepAt cb s centerHz).1 = true) :
    let read := p.sweepRead cb s centerHz
    read.2.events = s.events ++ [.setFrequency (toUInt32 centerHz)] ∧
    (p.sweepAt cb s centerHz).2 =
      if read.1 = 0 then read.2
      else (p.estimateLevelsFromCapture cb read.2 centerHz read.1 0
        (p.channelCount - 1) false).2 := by
  intro read
  constructor
  · exact readSamples_events cb _ _
  · unfold ScanPlan.sweepAt at hon ⊢
    dsimp only at hon ⊢
    split at hon
    · cases hon
    · next hrun =>
      rw [if_neg hrun]
      split at hon
      · cases hon
      · next hcancel =>
        rw [if_neg hcancel]
        split at hon
        · cases hon
        · next htuned =>
          rw [if_neg htuned]
          exact apply_ite Prod.snd _ _ _

/-- An estimate from enough samples takes the level of every channel in the
    span from the capture. -/
theorem estimate_of_enough (s : ScanPass ε β) (centerHz : Int) {samples : Nat}
    (hlong : 1024 ≤ samples)
    (hsized : (cb.ensureSize (nearestPow2 (min samples 16384)) s.env).1 = true) :
    ∃ (levels : Nat → Option β) (env : ε),
      (p.estimateLevelsFromCapture cb s centerHz samples 0 (p.channelCount - 1)
        false).2.events = s.events ++ [.captured levels] ∧
      ∀ ch, ch < p.channelCount → p.inSpan centerHz ch = true →
        levels ch = cb.channelLevel centerHz (nearestPow2 (min samples 16384)) ch env := by
  have hpow : 2 ^ 10 ≤ nearestPow2 (min samples 16384) := by
    unfold nearestPow2
    exact Nat.pow_le_pow_right (by omega) ((Nat.le_log2 (by omega)).mpr (by omega))
  unfold ScanPlan.estimateLevelsFromCapture
  dsimp only
  rw [if_neg (by omega), if_neg (by simp [hsized])]
  refine ⟨_, (cb.ensureSize (nearestPow2 (min samples 16384)) s.env).2, rfl, ?_⟩
  intro ch hch hspan
  exact if_pos ⟨Nat.zero_le ch, by omega, by simp, hspan⟩

/-- A round that reads enough measures every channel in the span. -/
theorem sweepAt_captures {s : ScanPass ε β} {centerHz : Int}
    (hon : (p.sweepAt cb s centerHz).1 = true) (hread : p.ReadSucceeds cb s centerHz) :
    ∃ (levels : Nat → Option β) (nfft : Nat) (env : ε),
      (p.sweepAt cb s centerHz).2.events =
        s.events ++ [.setFrequency (toUInt32 centerHz), .captured levels] ∧
      ∀ ch, ch < p.channelCount → p.inSpan centerHz ch = true →
        levels ch = cb.channelLevel centerHz nfft ch env := by
  obtain ⟨hlong, hsized⟩ := hread
  obtain ⟨hevents, hround⟩ := sweepAt_of_goes_on p cb hon
  obtain ⟨levels, env, hestimated, hlevels⟩ := estimate_of_enough p cb
    (p.sweepRead cb s centerHz).2 centerHz hlong hsized
  refine ⟨levels, _, env, ?_, hlevels⟩
  rw [hround, if_neg (by omega), hestimated, hevents, List.append_assoc]
  rfl

/-- An aborted round ends the sweep. -/
theorem sweepAt_goes_on {s : ScanPass ε β} {centerHz : Int} (hin : centerHz ≤ p.endCenterHz)
    (hfree : .aborted ∉ (p.sweep cb s centerHz).events) :
    (p.sweepAt cb s centerHz).1 = true ∧
      p.sweep cb s centerHz =
        p.sweep cb (p.sweepAt cb s centerHz).2 (centerHz + p.centerStepHz) := by
  rw [ScanPlan.sweep, if_pos hin] at hfree ⊢
  obtain ⟨t, -, hgoes | hends⟩ := sweepAt_cases p cb s centerHz
  · simp only [hgoes, if_true]
    exact ⟨trivial, trivial⟩
  · simp only [hends, Bool.false_eq_true, if_false] at hfree
    exact absurd (List.mem_append_right _ List.mem_cons_self) hfree

/-- A sweep that is not aborted comes to every center. -/
theorem exists_round {s : ScanPass ε β} {centerHz : Int} (n : Nat)
    (hin : centerHz + n * p.centerStepHz ≤ p.endCenterHz)
    (hfree : .aborted ∉ (p.sweep cb s centerHz).events) :
    ∃ s', p.SweepReaches cb s centerHz s' (centerHz + n * p.centerStepHz) ∧
      p.sweep cb s centerHz = p.sweep cb s' (centerHz + n * p.centerStepHz) := by
  have hstep := p.centerStepHz_pos
  induction n generalizing s centerHz with
  | zero =>
    rw [Nat.cast_zero, zero_mul, add_zero] at hin ⊢
    exact ⟨s, .here hin, rfl⟩
  | succ n ih =>
    have hnext : centerHz + (n + 1 : Nat) * p.centerStepHz =
        centerHz + p.centerStepHz + n * p.centerStepHz := by
      push_cast
      ring
    have hoffset : 0 ≤ (n : Int) * p.centerStepHz := Int.mul_nonneg (Int.natCast_nonneg n) hstep.le
    rw [hnext] at hin ⊢
    have hfirst : centerHz ≤ p.endCenterHz := by omega
    obtain ⟨hon, hsweep⟩ := sweepAt_goes_on p cb hfirst hfree
    obtain ⟨s', hreaches, hrest⟩ := ih hin (hsweep ▸ hfree)
    exact ⟨s', .next hfirst hon hreaches, hsweep.trans hrest⟩

/-- A sweep that goes on from every round is not aborted. -/
theorem sweep_measures (hon : ∀ s centerHz, (p.sweepAt cb s centerHz).1 = true)
    (s : ScanPass ε β) (centerHz : Int) : OnlyMeasures s (p.sweep cb s centerHz) := by
  induction s, centerHz using ScanPlan.sweep.induct p cb with
  | case1 s centerHz hin round hround ih =>
    obtain ⟨t, hmeasures, hgoes | hends⟩ := sweepAt_cases p cb s centerHz
    · rw [ScanPlan.sweep, if_pos hin]
      simp only [hon, if_true]
      refine OnlyMeasures.trans ?_ ih
      have hround : round = (true, t) := hgoes
      rw [hround]
      exact hmeasures
    · have hoff := hon s centerHz
      rw [hends] at hoff
      cases hoff
  | case2 s centerHz hin round hoff => exact absurd (hon s centerHz) hoff
  | case3 s centerHz hout =>
    rw [ScanPlan.sweep, if_neg hout]
    exact .refl s

theorem not_aborted [Zero β] (engine : ScanEngine) {iqSampleRate : Nat} (sdrBufSamples : Nat)
    (print : β → Text) (env : ε) (hactive : engine.active = true) (hrate : 0 < iqSampleRate)
    (hon : ∀ s centerHz,
      (ScanPlan.sweepAt ⟨engine.config, iqSampleRate, sdrBufSamples⟩ cb s centerHz).1 = true) :
    .aborted ∉ (engine.runIfActive true iqSampleRate sdrBufSamples cb print env).2.events := by
  obtain ⟨added, line, tail, hevents, hadded, -, hrestored, -⟩ :=
    run_events engine sdrBufSamples cb print env hactive hrate
  obtain ⟨measured, hmeasured, hmeasures⟩ := sweep_measures _ cb hon (engine.start env)
    (ScanPlan.firstCenterHz ⟨engine.config, iqSampleRate, sdrBufSamples⟩)
  rw [hevents, hmeasured]
  intro haborted
  rcases List.mem_append.mp haborted with hmem | hmem
  · rcases List.mem_append.mp hmem with hnone | hmem
    · cases hnone
    · cases hmeasures _ hmem
  · rcases List.mem_append.mp hmem with hmem | hmem
    · cases hadded _ hmem
    · exact hrestored hmem

end rounds

/-! ### Main result -/

/-- Whatever the range, the step, the bandwidth and the sample rate are, every
    channel lies in the span of a center of the sweep, with the fractions
    taken exactly and as the code rounds them. A sweep that is not aborted
    comes to that center and tunes to it; if the read there succeeds, the
    channel's level is taken from that capture. -/
theorem sweep_coverage {ε β : Type*} [Zero β] [Max β] (engine : ScanEngine)
    (iqSampleRate sdrBufSamples : Nat) (cb : ScanCallbacks ε β) (print : β → Text) (env : ε) :
    let p : ScanPlan := ⟨engine.config, iqSampleRate, sdrBufSamples⟩
    let events := (engine.runIfActive true iqSampleRate sdrBufSamples cb print env).2.events
    p.exactSpacing.Covers p ∧ p.spacing.Covers p ∧
    (engine.active = true → 0 < iqSampleRate → .aborted ∉ events →
      ∀ ch, p.freqKHz ch ≤ p.stopKHz → ∃ centerHz s,
        p.spacing.IsCenter p centerHz ∧ p.inSpan centerHz ch = true ∧
        p.SweepReaches cb (engine.start env) p.firstCenterHz s centerHz ∧
        (iqSampleRate < 2 ^ 32 → (toUInt32 centerHz : Int) = centerHz) ∧
        (p.ReadSucceeds cb s centerHz → ∃ before after levels nfft env',
          events = before ++ [.setFrequency (toUInt32 centerHz), .captured levels] ++ after ∧
          levels ch = cb.channelLevel centerHz nfft ch env')) := by
  intro p events
  refine ⟨p.exactSpacing_covers, p.spacing_covers, ?_⟩
  intro hactive hrate hfree ch hch
  obtain ⟨added, line, tail, hevents, -⟩ := run_events engine sdrBufSamples cb print env
    hactive hrate
  have hswept : .aborted ∉ (p.sweep cb (engine.start env) p.firstCenterHz).events := by
    intro hmem
    refine hfree ?_
    rw [show events = _ from hevents]
    exact List.mem_append_left _ hmem
  -- the center, and the round at it
  obtain ⟨centerHz, hcenter, hlow, hhigh⟩ := p.spacing_covers ch hch
  obtain ⟨n, rfl, hend⟩ := hcenter
  change p.firstCenterHz + n * p.centerStepHz ≤ p.endCenterHz at hend
  obtain ⟨s, hreaches, hsweep⟩ := exists_round p cb n hend hswept
  have hspan : p.inSpan (p.firstCenterHz + n * p.centerStepHz) ch = true :=
    decide_eq_true ⟨hlow, hhigh⟩
  refine ⟨p.firstCenterHz + n * p.centerStepHz, s, ⟨n, rfl, hend⟩, hspan, hreaches, ?_, ?_⟩
  · intro hword
    exact p.toUInt32_center hword ⟨n, rfl, hend⟩
  · intro hread
    obtain ⟨hon, hrest⟩ := sweepAt_goes_on p cb hend (hsweep ▸ hswept)
    obtain ⟨levels, nfft, env', hcapture, hlevels⟩ := sweepAt_captures p cb hon hread
    obtain ⟨t, ⟨more, hmore, -⟩, hrounds⟩ := sweep_cases p cb
      (p.sweepAt cb s (p.firstCenterHz + n * p.centerStepHz)).2
      (p.firstCenterHz + n * p.centerStepHz + p.centerStepHz)
    have hlast : ∃ after, (p.sweep cb (engine.start env) p.firstCenterHz).events =
        s.events ++ [.setFrequency (toUInt32 (p.firstCenterHz + n * p.centerStepHz)),
          .captured levels] ++ after := by
      rw [hsweep, hrest, ← hcapture]
      rcases hrounds with heq | habort
      · exact ⟨more, by rw [heq, hmore]⟩
      · exact ⟨more ++ [.aborted], by rw [habort, ← List.append_assoc, ← hmore]; rfl⟩
    obtain ⟨after, hafter⟩ := hlast
    refine ⟨s.events, after ++ (added ++ tail), levels, nfft, env', ?_,
      hlevels ch ((p.lt_channelCount_iff ch).mpr hch) hspan⟩
    rw [show events = _ from hevents, ← List.append_assoc _ after, ← hafter]

/-- Every call answers, and the level of a channel is its number. -/
def answeringCallbacks : ScanCallbacks Unit Nat :=
  { silentCallbacks false with
    tunerReadIQ := fun want env => (want, env)
    channelLevel := fun _ _ ch _ => some ch }

/-- A scan of 87.5 to 108 MHz in steps of 100 kHz captures 88.6 MHz. -/
theorem answered_scan_covers : ∃ (centerHz : Int) (before after : List (ScanEvent Nat))
    (levels : Nat → Option Nat),
    (ScanEngine.runIfActive ⟨true, {}, 87500000, 0⟩ true 256000 16384
      answeringCallbacks printLevel ()).2.events =
        before ++ [.setFrequency (toUInt32 centerHz), .captured levels] ++ after ∧
      (toUInt32 centerHz : Int) = centerHz ∧
      ScanPlan.inSpan ⟨{}, 256000, 16384⟩ centerHz 11 = true ∧ levels 11 = some 11 := by
  have hfree := not_aborted answeringCallbacks ⟨true, {}, 87500000, 0⟩ 16384 printLevel ()
    rfl (show 0 < 256000 by decide) fun s centerHz => by
      simp only [ScanPlan.sweepAt, answeringCallbacks, silentCallbacks, ScanPlan.tune,
        Bool.not_true, Bool.false_eq_true, if_false]
      exact (apply_ite Prod.fst _ _ _).trans (ite_self true)
  obtain ⟨-, -, hreached⟩ := sweep_coverage ⟨true, {}, 87500000, 0⟩ 256000 16384
    answeringCallbacks printLevel ()
  obtain ⟨centerHz, s, -, hspan, -, hword, hcaptured⟩ :=
    hreached rfl (by decide) hfree 11 (by decide)
  obtain ⟨before, after, levels, nfft, env', hevents, hlevel⟩ :=
    hcaptured ⟨show 1024 ≤ 16384 by decide, rfl⟩
  exact ⟨centerHz, before, after, levels, hevents, hword (by decide), hspan, hlevel⟩

end FmSdrTuner
