import Mathlib.Algebra.Order.Archimedean.Basic
import Mathlib.Data.Rat.Floor
import Mathlib.Tactic.FieldSimp
import Mathlib.Tactic.Linarith
import Mathlib.Tactic.Positivity
import FmSdrTuner.Audio.SampleQueues

/-! # The rate of the live MPX stream

    `MpxAudioOutput::init` sets up a resampler from the source rate to the
    rate that was asked for, and only then asks the device for that rate.
    ALSA may answer with another one. The answer is noted as the target
    rate, but the resampler stays as it is, so the stream is made at a rate
    that the device does not play it at.

    `liquid` is a parameter, and ratios are rationals.

    Main result: `mpx_rate_iff`. -/

namespace FmSdrTuner

/-! ### Growing at a rate -/

/-- A count that stays within a bound of `rate` times the length. -/
def GrowsAt {σ : Type*} (count : List σ → Nat) (rate : ℚ) : Prop :=
  ∃ bound : ℚ, ∀ xs, |(count xs : ℚ) - rate * xs.length| ≤ bound

/-- A count grows at one rate only. -/
theorem GrowsAt.unique {σ : Type*} [Inhabited σ] {count : List σ → Nat} {rate rate' : ℚ}
    (h : GrowsAt count rate) (h' : GrowsAt count rate') : rate = rate' := by
  obtain ⟨bound, hbound⟩ := h
  obtain ⟨bound', hbound'⟩ := h'
  by_contra hne
  have hpos : 0 < |rate - rate'| := abs_pos.mpr (sub_ne_zero.mpr hne)
  -- a stream long enough for the two lines to be further apart than the bounds
  obtain ⟨n, hn⟩ := exists_nat_gt ((bound + bound') / |rate - rate'|)
  have hfar : bound + bound' < n * |rate - rate'| := (div_lt_iff₀ hpos).mp hn
  have hone := hbound (List.replicate n default)
  have htwo := hbound' (List.replicate n default)
  rw [List.length_replicate] at hone htwo
  have hgap : (n : ℚ) * |rate - rate'| = |rate * n - rate' * n| := by
    rw [← sub_mul, abs_mul, Nat.abs_cast, mul_comm]
  have htriangle := abs_sub_le (rate * n) (count (List.replicate n default) : ℚ) (rate' * n)
  rw [abs_sub_comm] at hone
  linarith

/-! ### The resampler -/

/-- `resamp_rrrf_create`, which may fail, and `resamp_rrrf_execute`. -/
structure LiquidResampler (ρ σ : Type*) where
  create : ℚ → Option ρ
  execute : ρ → σ → ρ × List σ

namespace LiquidResampler
variable {ρ σ : Type*} (L : LiquidResampler ρ σ)

def run : ρ → List σ → ρ × List σ
  | o, [] => (o, [])
  | o, x :: xs =>
      let made := L.execute o x
      let rest := run made.1 xs
      (rest.1, made.2 ++ rest.2)

/-- A resampler makes as many samples as its ratio says on average, and no
    more than the ratio, rounded up, of one. -/
structure Documented : Prop where
  average : ∀ ratio o, L.create ratio = some o → GrowsAt (fun xs => (L.run o xs).2.length) ratio
  fits : ∀ ratio o, L.create ratio = some o → ∀ xs x,
    ((L.execute (L.run o xs).1 x).2.length : Int) ≤ ⌈ratio⌉

end LiquidResampler

def kMaxOutput : Nat := 8

/-- The wrapper around a liquid object. -/
structure Resampler (ρ : Type*) where
  object : Option ρ
  ratio : ℚ

namespace Resampler
variable {ρ σ : Type*} (L : LiquidResampler ρ σ)

/-- `Resampler::init`; false if it throws. -/
def init (s : Resampler ρ) (ratio : ℚ) : Bool × Resampler ρ :=
  if ratio < 5 / 1000 ∨ kMaxOutput < ratio then (false, s)
  else
    match L.create ratio with
    | some o => (true, ⟨some o, ratio⟩)
    | none => (false, ⟨none, ratio⟩)

def execute (s : Resampler ρ) (x : σ) : Resampler ρ × List σ :=
  match s.object with
  | none => (s, [])
  | some o =>
      let made := L.execute o x
      ({ s with object := some made.1 }, made.2.take kMaxOutput)

/-- The loop over the samples of a call. -/
def executeAll : Resampler ρ → List σ → Resampler ρ × List σ
  | s, [] => (s, [])
  | s, x :: xs =>
      let made := s.execute L x
      let rest := executeAll made.1 xs
      (rest.1, made.2 ++ rest.2)

end Resampler

/-! ### The output -/

/-- `alsaPcm` is the open device with the rate it has been configured for. -/
structure MpxAudioOutput (ρ σ : Type*) where
  sourceRate : Nat
  targetRate : Nat
  running : Bool
  resampleEnabled : Bool
  resampler : Resampler ρ
  ring : CountedRing σ
  alsaPcm : Option Nat

/-- What the ALSA calls of `init` answer. -/
structure AlsaAnswers where
  /-- Does `snd_pcm_open` succeed? -/
  opened : Bool
  /-- `snd_pcm_hw_params_set_rate_near`: the rate, or an error. -/
  setRateNear : Option Nat
  /-- Does `snd_pcm_hw_params` succeed? -/
  hwParams : Bool

namespace MpxAudioOutput
variable {ρ σ : Type*} (L : LiquidResampler ρ σ)

def kMpxQueueSecondsAtTarget : Nat := 1

def shutdown (s : MpxAudioOutput ρ σ) : MpxAudioOutput ρ σ :=
  { s with running := false, alsaPcm := none }

/-- The start of `init`, up to the resampler. -/
def initResampler (s : MpxAudioOutput ρ σ) (sourceSampleRate targetSampleRate : Nat) :
    Bool × MpxAudioOutput ρ σ :=
  let s := { s with
    sourceRate := sourceSampleRate
    targetRate := targetSampleRate
    resampleEnabled := false }
  if sourceSampleRate ≠ targetSampleRate then
    let initialised := s.resampler.init L (targetSampleRate / sourceSampleRate)
    (initialised.1, { s with resampler := initialised.2, resampleEnabled := initialised.1 })
  else (true, s)

/-- The ring is assigned for the rate asked for, and cleared. -/
def assignRing [Zero σ] (s : MpxAudioOutput ρ σ) (targetSampleRate : Nat) :
    MpxAudioOutput ρ σ :=
  let ring := { s.ring with
    capacity := targetSampleRate * kMpxQueueSecondsAtTarget
    slots := fun _ => 0 }
  { s with ring := clearQueueLocked ring }

/-- The ALSA part of `init`. -/
def openAlsa (s : MpxAudioOutput ρ σ) (targetSampleRate : Nat) (alsa : AlsaAnswers) :
    Bool × MpxAudioOutput ρ σ :=
  if !alsa.opened then (false, { s with alsaPcm := none })
  else
    match alsa.setRateNear with
    | none => (false, { s with alsaPcm := none })
    | some rate =>
        -- the resampler stays the one for the rate asked for
        let s := if rate ≠ targetSampleRate then { s with targetRate := rate } else s
        if !alsa.hwParams then (false, { s with alsaPcm := none })
        else (true, { s with alsaPcm := some rate, running := true })

/-- `MpxAudioOutput::init`. -/
def init [Zero σ] (s : MpxAudioOutput ρ σ) (sourceSampleRate targetSampleRate : Nat)
    (alsa : AlsaAnswers) : Bool × MpxAudioOutput ρ σ :=
  let s := s.shutdown
  if sourceSampleRate = 0 ∨ targetSampleRate = 0 then (false, s)
  else
    let prepared := s.initResampler L sourceSampleRate targetSampleRate
    if !prepared.1 then prepared
    else (prepared.2.assignRing targetSampleRate).openAlsa targetSampleRate alsa

/-- `MpxAudioOutput::enqueueMpx`: the samples made, and the call. -/
def enqueue (scale : σ → σ) (s : MpxAudioOutput ρ σ) (samples : List σ) :
    List σ × MpxAudioOutput ρ σ :=
  if samples.isEmpty || !s.running || s.ring.capacity = 0 then ([], s)
  else
    let made :=
      if s.resampleEnabled then s.resampler.executeAll L samples else (s.resampler, samples)
    let resample := if s.resampleEnabled then some fun _ => made.2 else none
    (made.2, { s with
      resampler := made.1
      ring := (enqueueMpx scale s.running resample s.ring samples).2 })

/-- The samples that some calls put into the ring. -/
def produced (scale : σ → σ) : MpxAudioOutput ρ σ → List (List σ) → List σ
  | _, [] => []
  | s, samples :: blocks =>
      let call := s.enqueue L scale samples
      call.1 ++ produced scale call.2 blocks

/-! ### The property -/

/-- The ratio of the samples put into the ring to those that come in. -/
def ratioInForce (s : MpxAudioOutput ρ σ) : ℚ :=
  if s.resampleEnabled then s.resampler.ratio else 1

/-- The ratio is that of the device's rate to the source's, and the device's
    rate is the target rate. -/
def MatchesDevice (s : MpxAudioOutput ρ σ) : Prop :=
  ∃ device, s.alsaPcm = some device ∧ s.ratioInForce = device / s.sourceRate ∧
    s.targetRate = device

/-- Whatever comes in at the source rate, the device plays it as fast as it
    is put into the ring: the two stay within a bound of each other. -/
def KeepsPace (scale : σ → σ) (s : MpxAudioOutput ρ σ) : Prop :=
  ∃ device, s.alsaPcm = some device ∧ ∃ bound : ℚ, ∀ blocks : List (List σ),
    |((s.produced L scale blocks).length : ℚ) -
      device / s.sourceRate * blocks.flatten.length| ≤ bound

end MpxAudioOutput

/-! ### What is produced -/

section produced
variable {ρ σ : Type*} {L : LiquidResampler ρ σ}

namespace Resampler

/-- The wrapper passes on what the object makes, if that fits its buffer. -/
theorem executeAll_some (ratio : ℚ) (o : ρ) {xs : List σ}
    (hfits : ∀ before x after, xs = before ++ x :: after →
      (L.execute (L.run o before).1 x).2.length ≤ kMaxOutput) :
    (⟨some o, ratio⟩ : Resampler ρ).executeAll L xs =
      (⟨some (L.run o xs).1, ratio⟩, (L.run o xs).2) := by
  induction xs generalizing o with
  | nil => rfl
  | cons x xs ih =>
    have hfirst : (L.execute o x).2.length ≤ kMaxOutput := hfits [] x xs rfl
    have hrest := ih (L.execute o x).1 fun before y after hsplit =>
      hfits (x :: before) y after (by rw [hsplit]; rfl)
    unfold executeAll execute LiquidResampler.run
    dsimp only
    rw [hrest, List.take_of_length_le hfirst]

theorem executeAll_append (s : Resampler ρ) (xs ys : List σ) :
    s.executeAll L (xs ++ ys) =
      (((s.executeAll L xs).1.executeAll L ys).1,
        (s.executeAll L xs).2 ++ ((s.executeAll L xs).1.executeAll L ys).2) := by
  induction xs generalizing s with
  | nil => rfl
  | cons x xs ih =>
    simp only [List.cons_append, executeAll, ih, List.append_assoc]

end Resampler

namespace MpxAudioOutput
variable {scale : σ → σ}

theorem enqueueMpx_capacity (running : Bool) (resampler : Option (List σ → List σ))
    (r : CountedRing σ) (samples : List σ) :
    (enqueueMpx scale running resampler r samples).2.capacity = r.capacity := by
  have hpush : ∀ xs : List σ, (r.push xs).capacity = r.capacity := by
    intro xs
    show ((r.makeRoom _).writeAll _).capacity = r.capacity
    rw [CountedRing.writeAll_capacity, CountedRing.makeRoom_capacity]
  unfold enqueueMpx
  split
  · rfl
  · split
    · dsimp only
      split
      · rfl
      · exact hpush _
    · exact hpush _

/-- Over some calls the output makes of the samples what it would make of them
    in one. -/
theorem produced_eq {s : MpxAudioOutput ρ σ} (hrunning : s.running = true)
    (hcapacity : s.ring.capacity ≠ 0) (blocks : List (List σ)) :
    s.produced L scale blocks =
      if s.resampleEnabled then (s.resampler.executeAll L blocks.flatten).2
      else blocks.flatten := by
  induction blocks generalizing s with
  | nil => cases s.resampleEnabled <;> rfl
  | cons samples blocks ih =>
    rw [List.flatten_cons, produced]
    by_cases hempty : samples.isEmpty = true
    -- an empty block changes nothing
    · have hskip : s.enqueue L scale samples = ([], s) := by
        unfold enqueue
        rw [if_pos (by simp [hempty])]
      rw [hskip, List.isEmpty_iff.mp hempty, List.nil_append]
      exact ih hrunning hcapacity
    · have hcall : (s.enqueue L scale samples).1 =
          (if s.resampleEnabled then s.resampler.executeAll L samples
            else (s.resampler, samples)).2 ∧
          (s.enqueue L scale samples).2.resampler =
            (if s.resampleEnabled then s.resampler.executeAll L samples
              else (s.resampler, samples)).1 ∧
          (s.enqueue L scale samples).2.running = true ∧
          (s.enqueue L scale samples).2.ring.capacity ≠ 0 ∧
          (s.enqueue L scale samples).2.resampleEnabled = s.resampleEnabled := by
        unfold enqueue
        rw [if_neg (by simp [hempty, hrunning, hcapacity])]
        exact ⟨rfl, rfl, hrunning, by rw [enqueueMpx_capacity]; exact hcapacity, rfl⟩
      obtain ⟨hmade, hresampler, hrunning', hcapacity', henabled⟩ := hcall
      rw [ih hrunning' hcapacity', hmade, hresampler, henabled]
      cases s.resampleEnabled with
      | false => rfl
      | true =>
        simp only [if_true]
        rw [Resampler.executeAll_append]

end MpxAudioOutput

end produced

/-! ### After a successful start -/

section start
variable {ρ σ : Type*} {L : LiquidResampler ρ σ}

namespace MpxAudioOutput

/-- The resampler has been made for the rate asked for, or is not needed. -/
structure Prepared (L : LiquidResampler ρ σ) (s : MpxAudioOutput ρ σ)
    (sourceSampleRate targetSampleRate : Nat) : Prop where
  source : s.sourceRate = sourceSampleRate
  target : s.targetRate = targetSampleRate
  resampler : if s.resampleEnabled then
      ∃ o, L.create s.resampler.ratio = some o ∧ s.resampler.object = some o ∧
        s.resampler.ratio ≤ kMaxOutput ∧
        s.resampler.ratio = targetSampleRate / sourceSampleRate
    else sourceSampleRate = targetSampleRate

theorem prepared_initResampler {s : MpxAudioOutput ρ σ} {sourceSampleRate targetSampleRate : Nat}
    (h : (s.initResampler L sourceSampleRate targetSampleRate).1 = true) :
    Prepared L (s.initResampler L sourceSampleRate targetSampleRate).2
      sourceSampleRate targetSampleRate := by
  unfold initResampler at h ⊢
  dsimp only at h ⊢
  by_cases hrates : sourceSampleRate = targetSampleRate
  · rw [if_neg (not_not.mpr hrates)]
    -- no resampler is needed
    exact ⟨rfl, rfl, hrates⟩
  · rw [if_pos hrates] at h ⊢
    refine ⟨rfl, rfl, ?_⟩
    dsimp only at h ⊢
    rw [h, if_pos rfl]
    unfold Resampler.init at h ⊢
    split at h
    · cases h
    · next hrange =>
      rw [if_neg hrange]
      push Not at hrange
      split at h
      · next o hcreate => exact ⟨o, hcreate, rfl, hrange.2, rfl⟩
      · cases h

/-- What is known after `init` has succeeded: the device plays at the rate it
    has answered with, which is the target rate now; the resampler is for the
    rate asked for. -/
structure Started (L : LiquidResampler ρ σ) (s : MpxAudioOutput ρ σ)
    (sourceSampleRate targetSampleRate device : Nat) : Prop where
  source_pos : 0 < sourceSampleRate
  source : s.sourceRate = sourceSampleRate
  target : s.targetRate = device
  running : s.running = true
  capacity : s.ring.capacity ≠ 0
  device : s.alsaPcm = some device
  resampler : if s.resampleEnabled then
      ∃ o, L.create s.resampler.ratio = some o ∧ s.resampler.object = some o ∧
        s.resampler.ratio ≤ kMaxOutput ∧
        s.resampler.ratio = targetSampleRate / sourceSampleRate
    else sourceSampleRate = targetSampleRate

theorem started_of_init [Zero σ] {prior : MpxAudioOutput ρ σ}
    {sourceSampleRate targetSampleRate : Nat} {alsa : AlsaAnswers}
    (h : (prior.init L sourceSampleRate targetSampleRate alsa).1 = true) :
    ∃ device, alsa.setRateNear = some device ∧
      Started L (prior.init L sourceSampleRate targetSampleRate alsa).2
        sourceSampleRate targetSampleRate device := by
  unfold init at h ⊢
  dsimp only at h ⊢
  split at h
  · cases h
  · next hrates =>
    rw [if_neg hrates]
    split at h
    · next hfailed => exact absurd h (by simpa using hfailed)
    · next hprepared =>
      rw [if_neg hprepared]
      obtain ⟨hsource, htarget, hresampler⟩ := prepared_initResampler
        (show (prior.shutdown.initResampler L sourceSampleRate targetSampleRate).1 = true by
          simpa using hprepared)
      unfold openAlsa at h ⊢
      split at h
      · cases h
      · next hopened =>
        rw [if_neg hopened]
        cases hrate : alsa.setRateNear with
        | none =>
          rw [hrate] at h
          cases h
        | some rate =>
          rw [hrate] at h
          dsimp only at h ⊢
          split at h
          · cases h
          · next hparams =>
            rw [if_neg hparams]
            have hring : targetSampleRate * kMpxQueueSecondsAtTarget ≠ 0 := by
              unfold kMpxQueueSecondsAtTarget
              omega
            refine ⟨rate, rfl, ?_⟩
            -- the rate is noted as the target if it is another
            by_cases hsame : rate = targetSampleRate
            · rw [if_neg (not_not.mpr hsame)]
              exact ⟨by omega, hsource, htarget.trans hsame.symm, rfl, hring, rfl, hresampler⟩
            · rw [if_pos hsame]
              exact ⟨by omega, hsource, rfl, rfl, hring, rfl, hresampler⟩

namespace Started
variable {s : MpxAudioOutput ρ σ} {sourceSampleRate targetSampleRate device : Nat}

/-- The ratio in force is the one for the rate asked for. -/
theorem ratioInForce_eq (h : Started L s sourceSampleRate targetSampleRate device) :
    s.ratioInForce = targetSampleRate / sourceSampleRate := by
  have hresampler := h.resampler
  have hpos : (0 : ℚ) < sourceSampleRate := by exact_mod_cast h.source_pos
  unfold ratioInForce
  cases henabled : s.resampleEnabled with
  | true =>
    rw [henabled] at hresampler
    obtain ⟨o, -, -, -, hratio⟩ := hresampler
    exact hratio
  | false =>
    rw [henabled] at hresampler
    rw [show targetSampleRate = sourceSampleRate from Eq.symm hresampler, div_self hpos.ne']
    rfl

theorem ratio_eq_iff (h : Started L s sourceSampleRate targetSampleRate device) :
    (targetSampleRate : ℚ) / sourceSampleRate = device / sourceSampleRate ↔
      device = targetSampleRate := by
  have hpos : (0 : ℚ) < sourceSampleRate := by exact_mod_cast h.source_pos
  rw [div_left_inj' hpos.ne']
  constructor
  · intro heq
    exact_mod_cast heq.symm
  · rintro rfl
    rfl

theorem matchesDevice_iff (h : Started L s sourceSampleRate targetSampleRate device) :
    s.MatchesDevice ↔ device = targetSampleRate := by
  rw [← h.ratio_eq_iff, ← h.ratioInForce_eq]
  constructor
  · rintro ⟨played, hplayed, hratio, -⟩
    obtain rfl := Option.some.inj (hplayed.symm.trans h.device)
    rw [hratio, h.source]
  · intro hratio
    exact ⟨device, h.device, by rw [hratio, h.source], h.target⟩

/-- The stream grows at the ratio in force. -/
theorem produced_grows (h : Started L s sourceSampleRate targetSampleRate device)
    (hL : L.Documented) (scale : σ → σ) :
    ∃ count : List σ → Nat, GrowsAt count s.ratioInForce ∧
      ∀ blocks, (s.produced L scale blocks).length = count blocks.flatten := by
  have hresampler := h.resampler
  unfold ratioInForce
  cases henabled : s.resampleEnabled with
  | false =>
    refine ⟨List.length, ⟨0, by simp⟩, ?_⟩
    intro blocks
    rw [produced_eq h.running h.capacity, henabled]
    rfl
  | true =>
    rw [henabled] at hresampler
    obtain ⟨o, hcreate, hobject, hmax, -⟩ := hresampler
    refine ⟨_, hL.average _ o hcreate, ?_⟩
    intro blocks
    have hceil : ⌈s.resampler.ratio⌉ ≤ (kMaxOutput : Int) :=
      Int.ceil_le.mpr (by exact_mod_cast hmax)
    have hwhole : s.resampler = ⟨some o, s.resampler.ratio⟩ := by rw [← hobject]
    rw [produced_eq h.running h.capacity, henabled, if_pos rfl, hwhole,
      Resampler.executeAll_some]
    intro before x after _
    have hfits := hL.fits _ o hcreate before x
    omega

theorem keepsPace_iff [Inhabited σ] (h : Started L s sourceSampleRate targetSampleRate device)
    (hL : L.Documented) (scale : σ → σ) :
    s.KeepsPace L scale ↔ device = targetSampleRate := by
  obtain ⟨count, hgrows, hcount⟩ := h.produced_grows hL scale
  rw [← h.ratio_eq_iff, ← h.ratioInForce_eq]
  constructor
  · rintro ⟨played, hplayed, bound, hbound⟩
    obtain rfl := Option.some.inj (hplayed.symm.trans h.device)
    refine hgrows.unique ⟨bound, fun xs => ?_⟩
    have hone := hbound [xs]
    rwa [hcount, List.flatten_singleton, h.source] at hone
  · intro hratio
    obtain ⟨bound, hbound⟩ := hgrows
    refine ⟨device, h.device, bound, fun blocks => ?_⟩
    rw [hcount, h.source, ← hratio]
    exact hbound _

end Started

end MpxAudioOutput

end start

/-! ### Main result -/

/-- After a successful start the device plays at the rate it has answered
    with. The ratio in force is right for it, and the device keeps pace with
    the stream, if and only if that is the rate asked for. -/
theorem mpx_rate_iff {ρ σ : Type*} [Zero σ] [Inhabited σ] (L : LiquidResampler ρ σ)
    (hL : L.Documented) (scale : σ → σ) (prior : MpxAudioOutput ρ σ)
    (sourceSampleRate targetSampleRate : Nat) (alsa : AlsaAnswers)
    (h : (prior.init L sourceSampleRate targetSampleRate alsa).1 = true) :
    let started := (prior.init L sourceSampleRate targetSampleRate alsa).2
    (started.MatchesDevice ↔ alsa.setRateNear = some targetSampleRate) ∧
    (started.KeepsPace L scale ↔ alsa.setRateNear = some targetSampleRate) := by
  intro started
  obtain ⟨device, hrate, hstarted⟩ := MpxAudioOutput.started_of_init h
  rw [hrate, Option.some.injEq]
  exact ⟨hstarted.matchesDevice_iff, hstarted.keepsPace_iff hL scale⟩

/-- A resampler that repeats a sample as often as its phase passes an
    integer; it holds the ratio and the phase. -/
def phaseResampler (σ : Type*) : LiquidResampler (ℚ × ℚ) σ where
  create ratio := if 0 ≤ ratio then some (ratio, 0) else none
  execute o x := ((o.1, Int.fract (o.2 + o.1)), List.replicate ⌊o.2 + o.1⌋.toNat x)

theorem phaseResampler_run {σ : Type*} {ratio phase : ℚ} (hratio : 0 ≤ ratio)
    (hlow : 0 ≤ phase) (hhigh : phase < 1) (xs : List σ) :
    ∃ phase', ((phaseResampler σ).run (ratio, phase) xs).1 = (ratio, phase') ∧
      0 ≤ phase' ∧ phase' < 1 ∧
      (((phaseResampler σ).run (ratio, phase) xs).2.length : ℚ) + phase' =
        phase + ratio * xs.length := by
  induction xs generalizing phase with
  | nil => exact ⟨phase, rfl, hlow, hhigh, by simp [LiquidResampler.run]⟩
  | cons x xs ih =>
    obtain ⟨phase', hphase, hlow', hhigh', hlength⟩ :=
      ih (Int.fract_nonneg (phase + ratio)) (Int.fract_lt_one _)
    refine ⟨phase', hphase, hlow', hhigh', ?_⟩
    have hfloor : ((⌊phase + ratio⌋.toNat : Nat) : ℚ) = ⌊phase + ratio⌋ := by
      exact_mod_cast Int.toNat_of_nonneg (Int.floor_nonneg.mpr (by linarith))
    have hsplit := Int.floor_add_fract (phase + ratio)
    have hcons : ((phaseResampler σ).run (ratio, phase) (x :: xs)).2.length =
        ⌊phase + ratio⌋.toNat +
          ((phaseResampler σ).run (ratio, Int.fract (phase + ratio)) xs).2.length := by
      show (List.replicate _ x ++ _).length = _
      rw [List.length_append, List.length_replicate]
      rfl
    rw [hcons, List.length_cons]
    push_cast
    linarith

theorem phaseResampler_documented (σ : Type*) : (phaseResampler σ).Documented where
  average := by
    intro ratio o hcreate
    obtain ⟨hratio, ⟨rfl⟩⟩ := Option.ite_none_right_eq_some.mp hcreate
    refine ⟨1, fun xs => ?_⟩
    obtain ⟨phase', -, hlow, hhigh, hlength⟩ :=
      phaseResampler_run hratio (le_refl 0) zero_lt_one xs
    rw [abs_le]
    constructor <;> linarith
  fits := by
    intro ratio o hcreate xs x
    obtain ⟨hratio, ⟨rfl⟩⟩ := Option.ite_none_right_eq_some.mp hcreate
    obtain ⟨phase', hphase, hlow, hhigh, -⟩ :=
      phaseResampler_run hratio (le_refl 0) zero_lt_one xs
    have hfloor : ⌊phase' + ratio⌋ < ⌈ratio⌉ + 1 := by
      rw [Int.floor_lt]
      push_cast
      linarith [Int.le_ceil ratio]
    rw [hphase]
    show ((List.replicate ⌊phase' + ratio⌋.toNat x).length : Int) ≤ _
    rw [List.length_replicate, Int.toNat_of_nonneg (Int.floor_nonneg.mpr (by linarith))]
    omega

/-- Before the first start. -/
def MpxAudioOutput.fresh : MpxAudioOutput (ℚ × ℚ) ℚ where
  sourceRate := 0
  targetRate := 0
  running := false
  resampleEnabled := false
  resampler := ⟨none, 1⟩
  ring := ⟨0, fun _ => 0, 0, 0, 0⟩
  alsaPcm := none

/-- 256 kHz in and 192 kHz out, whatever the device answers. -/
theorem fresh_starts (rate : Nat) :
    (MpxAudioOutput.fresh.init (phaseResampler ℚ) 256000 192000 ⟨true, some rate, true⟩).1 =
      true := by
  have hinit : ((⟨none, 1⟩ : Resampler (ℚ × ℚ)).init (phaseResampler ℚ)
      ((192000 : Nat) / (256000 : Nat))).1 = true := by
    unfold Resampler.init
    rw [if_neg (by unfold kMaxOutput; norm_num)]
    unfold phaseResampler
    dsimp only
    rw [if_pos (by positivity)]
  have hprepared : (MpxAudioOutput.fresh.shutdown.initResampler (phaseResampler ℚ) 256000
      192000).1 = true := hinit
  unfold MpxAudioOutput.init MpxAudioOutput.openAlsa
  dsimp only
  rw [if_neg (by decide), hprepared]
  rfl

theorem mpx_rate_at_192000 :
    ((MpxAudioOutput.fresh.init (phaseResampler ℚ) 256000 192000
      ⟨true, some 192000, true⟩).2).MatchesDevice :=
  ((mpx_rate_iff (phaseResampler ℚ) (phaseResampler_documented ℚ) id MpxAudioOutput.fresh
    256000 192000 ⟨true, some 192000, true⟩ (fresh_starts 192000)).1).mpr rfl

/-- A device that takes 48 kHz only is sent four times as much as it plays. -/
theorem mpx_rate_not_matched :
    (MpxAudioOutput.fresh.init (phaseResampler ℚ) 256000 192000 ⟨true, some 48000, true⟩).1 =
        true ∧
      ¬((MpxAudioOutput.fresh.init (phaseResampler ℚ) 256000 192000
        ⟨true, some 48000, true⟩).2).MatchesDevice := by
  refine ⟨fresh_starts 48000, ?_⟩
  obtain ⟨device, hrate, hstarted⟩ := MpxAudioOutput.started_of_init (fresh_starts 48000)
  rw [hstarted.matchesDevice_iff, ← Option.some.inj hrate]
  decide

end FmSdrTuner
