import Mathlib.Algebra.GroupWithZero.Nat
import Mathlib.Algebra.Order.Group.Abs
import FmSdrTuner.Scan.Run

/-! # Scan lines are complete

    Whatever the callbacks answer, a scan pushes one line with the level of
    every channel. What the sweep leaves without a level is sampled in
    batches, each around a center from which all of it can be used; a batch
    leaves no channel without a level, whichever way it ends.

    Main result: `scan_line_complete`. -/

namespace FmSdrTuner

/-! ### Events -/

/-- A retune or a capture. -/
def ScanEvent.measures {β : Type*} : ScanEvent β → Bool
  | .setFrequency _ | .captured _ => true
  | _ => false

structure Batch where
  first : Nat
  last : Nat
  centerHz : Nat
  deriving DecidableEq, Repr

def batchesOf {β : Type*} (events : List (ScanEvent β)) : List Batch :=
  events.filterMap fun
    | .batch first last centerHz => some ⟨first, last, centerHz⟩
    | _ => none

def pushedLines {β : Type*} (events : List (ScanEvent β)) : List Text :=
  events.filterMap fun
    | .pushScanLine line => some line
    | _ => none

section events
variable {β : Type*} {events : List (ScanEvent β)}

theorem batchesOf_append (events' : List (ScanEvent β)) :
    batchesOf (events ++ events') = batchesOf events ++ batchesOf events' :=
  List.filterMap_append

theorem pushedLines_append (events' : List (ScanEvent β)) :
    pushedLines (events ++ events') = pushedLines events ++ pushedLines events' :=
  List.filterMap_append

theorem batchesOf_measures (h : ∀ e ∈ events, e.measures = true) : batchesOf events = [] := by
  apply List.filterMap_eq_nil_iff.mpr
  intro e he
  have hmeasures := h e he
  cases e with
  | batch first last centerHz => cases hmeasures
  | _ => rfl

theorem pushedLines_measures (h : ∀ e ∈ events, e.measures = true) : pushedLines events = [] := by
  apply List.filterMap_eq_nil_iff.mpr
  intro e he
  have hmeasures := h e he
  cases e with
  | pushScanLine line => cases hmeasures
  | _ => rfl

end events

namespace ScanPass
variable {ε β : Type*} (s : ScanPass ε β) {first last missing ch : Nat}

theorem setLevel_ne (level : Option β) (h : ch ≠ missing) :
    (s.setLevel missing level).levelByChannel ch = s.levelByChannel ch := if_neg h

variable [Zero β]

theorem zeroLevels_outside (h : ch < first ∨ last < ch) :
    (s.zeroLevels first last).levelByChannel ch = s.levelByChannel ch := if_neg (by omega)

theorem zeroLevels_inside (hfirst : first ≤ ch) (hlast : ch ≤ last) :
    (s.zeroLevels first last).levelByChannel ch = some 0 := if_pos ⟨hfirst, hlast⟩

theorem fillLevels_outside (h : ch < first ∨ last < ch) :
    (s.fillLevels first last).levelByChannel ch = s.levelByChannel ch := if_neg (by omega)

theorem fillLevels_inside (hfirst : first ≤ ch) (hlast : ch ≤ last) :
    (s.fillLevels first last).levelByChannel ch = some ((s.levelByChannel ch).getD 0) :=
  if_pos ⟨hfirst, hlast⟩

end ScanPass

/-! ### What the steps of a scan add -/

/-- Only retunes and captures are added. -/
def OnlyMeasures {ε β : Type*} (s s' : ScanPass ε β) : Prop :=
  ∃ added, s'.events = s.events ++ added ∧ ∀ e ∈ added, e.measures = true

namespace OnlyMeasures
variable {ε β : Type*} {s s' s'' : ScanPass ε β}

theorem refl (s : ScanPass ε β) : OnlyMeasures s s :=
  ⟨[], (List.append_nil _).symm, fun _ he => absurd he List.not_mem_nil⟩

theorem of_events (h : s'.events = s.events) : OnlyMeasures s s' :=
  ⟨[], by rw [h, List.append_nil], fun _ he => absurd he List.not_mem_nil⟩

theorem trans (h : OnlyMeasures s s') (h' : OnlyMeasures s' s'') : OnlyMeasures s s'' := by
  obtain ⟨added, hevents, hadded⟩ := h
  obtain ⟨added', hevents', hadded'⟩ := h'
  refine ⟨added ++ added', by rw [hevents', hevents, List.append_assoc], ?_⟩
  intro e he
  rcases List.mem_append.mp he with hmem | hmem
  · exact hadded e hmem
  · exact hadded' e hmem

end OnlyMeasures

section steps
variable {ε β : Type*} (p : ScanPlan) (cb : ScanCallbacks ε β)

theorem tune_measures (s : ScanPass ε β) (freqHz : Nat) :
    OnlyMeasures s (ScanPlan.tune cb s freqHz).2 :=
  ⟨[.setFrequency freqHz], rfl, by simp [ScanEvent.measures]⟩

theorem readSamples_events (s : ScanPass ε β) (want : Nat) :
    (ScanPlan.readSamples cb s want).2.events = s.events := by
  unfold ScanPlan.readSamples
  dsimp only
  split <;> rfl

theorem readSamples_levels (s : ScanPass ε β) (want : Nat) :
    (ScanPlan.readSamples cb s want).2.levelByChannel = s.levelByChannel := by
  unfold ScanPlan.readSamples
  dsimp only
  split <;> rfl

section
variable [Max β] (s : ScanPass ε β) (tunedCenterHz : Int)
  (samples first last : Nat) (onlyMissing : Bool)

/-- An estimate adds a capture, if it gets that far, and raises the levels by
    what it yields. -/
theorem estimate_cases :
    let estimated := p.estimateLevelsFromCapture cb s tunedCenterHz samples first last onlyMissing
    (estimated.1 = false ∧ estimated.2.events = s.events ∧
      estimated.2.levelByChannel = s.levelByChannel) ∨
    ∃ levels : Nat → Option β, estimated.1 = true ∧
      estimated.2.events = s.events ++ [.captured levels] ∧
      (∀ ch, estimated.2.levelByChannel ch = raiseLevel (s.levelByChannel ch) (levels ch)) ∧
      ∀ ch, ch < first ∨ last < ch → levels ch = none := by
  unfold ScanPlan.estimateLevelsFromCapture
  dsimp only
  split
  · exact Or.inl ⟨rfl, rfl, rfl⟩
  · split
    · exact Or.inl ⟨rfl, rfl, rfl⟩
    · refine Or.inr ⟨_, rfl, rfl, fun _ => rfl, ?_⟩
      intro ch hout
      rw [if_neg]
      rintro ⟨hfirst, hlast, -⟩
      omega

theorem estimate_measures : OnlyMeasures s
    (p.estimateLevelsFromCapture cb s tunedCenterHz samples first last onlyMissing).2 := by
  rcases estimate_cases p cb s tunedCenterHz samples first last onlyMissing with
    ⟨-, hevents, -⟩ | ⟨levels, -, hevents, -⟩
  · exact .of_events hevents
  · exact ⟨[.captured levels], hevents, by simp [ScanEvent.measures]⟩

/-- Channels outside the range keep their level. -/
theorem estimate_levels_outside {ch : Nat} (h : ch < first ∨ last < ch) :
    (p.estimateLevelsFromCapture cb s tunedCenterHz samples first last
      onlyMissing).2.levelByChannel ch = s.levelByChannel ch := by
  rcases estimate_cases p cb s tunedCenterHz samples first last onlyMissing with
    ⟨-, -, hlevels⟩ | ⟨levels, -, -, hlevels, hout⟩
  · rw [hlevels]
  · rw [hlevels, hout ch h]
    cases s.levelByChannel ch <;> rfl

end

/-- Settling and reading leave no trace and the levels alone. -/
theorem settleAndRead_frame (s : ScanPass ε β) (want : Nat) :
    let read := ScanPlan.readSamples cb (p.settleAfterRetune cb s) want
    OnlyMeasures s read.2 ∧ read.2.levelByChannel = s.levelByChannel :=
  ⟨.of_events (readSamples_events cb _ want), readSamples_levels cb _ want⟩

section fallback
variable [Zero β]

theorem sampleChannel_measures (s : ScanPass ε β) (missing : Nat) :
    OnlyMeasures s (p.sampleChannel cb s missing) := by
  have htune := tune_measures cb s (toUInt32 (p.freqKHz missing) * 1000 % 2 ^ 32)
  have hread := htune.trans (settleAndRead_frame p cb _ (min p.sdrBufSamples 4096)).1
  unfold ScanPlan.sampleChannel
  dsimp only
  split
  · exact htune
  · split
    · exact hread
    · exact hread

/-- Only its own channel gets a level. -/
theorem sampleChannel_levels (s : ScanPass ε β) {missing ch : Nat} (h : ch ≠ missing) :
    (p.sampleChannel cb s missing).levelByChannel ch = s.levelByChannel ch := by
  have hread := (settleAndRead_frame p cb (ScanPlan.tune cb s
    (toUInt32 (p.freqKHz missing) * 1000 % 2 ^ 32)).2 (min p.sdrBufSamples 4096)).2
  unfold ScanPlan.sampleChannel
  dsimp only
  split
  · exact ScanPass.setLevel_ne _ _ h
  · split <;> exact (ScanPass.setLevel_ne _ _ h).trans (congrFun hread ch)

theorem sampleChannels_frame (s : ScanPass ε β) (channels : List Nat) :
    OnlyMeasures s (channels.foldl (p.sampleChannel cb) s) ∧
      ∀ ch, ch ∉ channels → (channels.foldl (p.sampleChannel cb) s).levelByChannel ch =
        s.levelByChannel ch := by
  induction channels generalizing s with
  | nil => exact ⟨.refl s, fun _ _ => rfl⟩
  | cons missing channels ih =>
    obtain ⟨hmeasures, hlevels⟩ := ih (p.sampleChannel cb s missing)
    refine ⟨(sampleChannel_measures p cb s missing).trans hmeasures, ?_⟩
    intro ch hch
    obtain ⟨hne, hrest⟩ : ch ≠ missing ∧ ch ∉ channels := by simpa using hch
    exact (hlevels ch hrest).trans (sampleChannel_levels p cb s hne)

variable [Max β]

/-- What a batch does to the trace and to the levels. -/
theorem sampleBatch_cases (s : ScanPass ε β) (first last : Nat) :
    let centerHz := toUInt32 ((p.freqHz first + p.freqHz last) / 2)
    let sampled := p.sampleBatch cb s first last
    (∃ added, sampled.events =
        s.events ++ .batch first last centerHz :: .setFrequency centerHz :: added ∧
        ∀ e ∈ added, e.measures = true) ∧
      (∀ ch, ch < first ∨ last < ch → sampled.levelByChannel ch = s.levelByChannel ch) ∧
      ∀ ch, first ≤ ch → ch ≤ last → (sampled.levelByChannel ch).isSome = true := by
  intro centerHz sampled
  -- all ways through the batch measure, and give every channel a level in the end
  have hends : ∀ t : ScanPass ε β,
      OnlyMeasures (ScanPlan.tune cb (s.record (.batch first last centerHz)) centerHz).2 t →
      (∀ ch, ch < first ∨ last < ch → t.levelByChannel ch = s.levelByChannel ch) →
      sampled = t.zeroLevels first last ∨ sampled = t.fillLevels first last →
      (∃ added, sampled.events =
          s.events ++ .batch first last centerHz :: .setFrequency centerHz :: added ∧
          ∀ e ∈ added, e.measures = true) ∧
        (∀ ch, ch < first ∨ last < ch → sampled.levelByChannel ch = s.levelByChannel ch) ∧
        ∀ ch, first ≤ ch → ch ≤ last → (sampled.levelByChannel ch).isSome = true := by
    intro t ⟨added, hevents, hadded⟩ hlevels hend
    have htrace : t.events =
        s.events ++ .batch first last centerHz :: .setFrequency centerHz :: added := by
      rw [hevents]
      simp [ScanPlan.tune, ScanPass.record]
    rcases hend with hzero | hfill
    · rw [hzero]
      refine ⟨⟨added, htrace, hadded⟩, ?_, ?_⟩
      · intro ch hout
        exact (t.zeroLevels_outside hout).trans (hlevels ch hout)
      · intro ch hfirst hlast
        rw [t.zeroLevels_inside hfirst hlast]
        rfl
    · rw [hfill]
      refine ⟨⟨added, htrace, hadded⟩, ?_, ?_⟩
      · intro ch hout
        exact (t.fillLevels_outside hout).trans (hlevels ch hout)
      · intro ch hfirst hlast
        rw [t.fillLevels_inside hfirst hlast]
        rfl
  generalize htuned : ScanPlan.tune cb (s.record (.batch first last centerHz)) centerHz = tuned
    at hends
  have htunedLevels : tuned.2.levelByChannel = s.levelByChannel := by
    rw [← htuned]
    rfl
  generalize hread : ScanPlan.readSamples cb (p.settleAfterRetune cb tuned.2)
    (min p.sdrBufSamples 4096) = read
  obtain ⟨hmeasures, hlevels⟩ : OnlyMeasures tuned.2 read.2 ∧
      read.2.levelByChannel = tuned.2.levelByChannel :=
    hread ▸ settleAndRead_frame p cb tuned.2 (min p.sdrBufSamples 4096)
  rw [htunedLevels] at hlevels
  have hsampled : sampled = p.sampleBatch cb s first last := rfl
  unfold ScanPlan.sampleBatch at hsampled
  simp only [centerHz] at htuned
  simp only [htuned, hread] at hsampled
  split at hsampled
  · -- the retune fails
    exact hends tuned.2 (.refl _) (fun ch _ => congrFun htunedLevels ch) (Or.inl hsampled)
  · split at hsampled
    · -- nothing is read
      exact hends read.2 hmeasures (fun ch _ => congrFun hlevels ch) (Or.inl hsampled)
    · have hestimate := estimate_measures p cb read.2 centerHz read.1 first last true
      have houtside : ∀ ch, ch < first ∨ last < ch →
          (p.estimateLevelsFromCapture cb read.2 centerHz read.1 first last
            true).2.levelByChannel ch = s.levelByChannel ch := by
        intro ch hout
        rw [estimate_levels_outside p cb read.2 centerHz read.1 first last true hout]
        exact congrFun hlevels ch
      split at hsampled
      · exact hends _ (hmeasures.trans hestimate) houtside (Or.inr hsampled)
      · -- no estimate, every channel of the batch is sampled by itself
        obtain ⟨hchannels, hrest⟩ := sampleChannels_frame p cb
          (p.estimateLevelsFromCapture cb read.2 centerHz read.1 first last true).2
          (List.range' first (last + 1 - first))
        refine hends _ ((hmeasures.trans hestimate).trans hchannels) ?_ (Or.inr hsampled)
        intro ch hout
        rw [hrest ch (by rw [List.mem_range'_1]; omega)]
        exact houtside ch hout

/-- The batch from one channel to another. -/
def batchOf (p : ScanPlan) (b : Nat × Nat) : Batch :=
  ⟨b.1, b.2, toUInt32 ((p.freqHz b.1 + p.freqHz b.2) / 2)⟩

theorem sampleBatches_events (s : ScanPass ε β) (bs : List (Nat × Nat)) :
    let sampled := bs.foldl (fun s b => p.sampleBatch cb s b.1 b.2) s
    batchesOf sampled.events = batchesOf s.events ++ bs.map (batchOf p) ∧
      pushedLines sampled.events = pushedLines s.events := by
  induction bs generalizing s with
  | nil => exact ⟨(List.append_nil _).symm, rfl⟩
  | cons b bs ih =>
    obtain ⟨⟨added, hevents, hadded⟩, -, -⟩ := sampleBatch_cases p cb s b.1 b.2
    obtain ⟨hbatches, hlines⟩ := ih (p.sampleBatch cb s b.1 b.2)
    have hone : batchesOf (p.sampleBatch cb s b.1 b.2).events =
        batchesOf s.events ++ [batchOf p b] := by
      have hadds : batchesOf (.batch b.1 b.2 (batchOf p b).centerHz ::
          .setFrequency (batchOf p b).centerHz :: added) = batchOf p b :: batchesOf added := rfl
      rw [hevents, batchesOf_append]
      exact congrArg (batchesOf s.events ++ ·)
        (hadds.trans (congrArg (batchOf p b :: ·) (batchesOf_measures hadded)))
    have hnone : pushedLines (p.sampleBatch cb s b.1 b.2).events = pushedLines s.events := by
      rw [hevents, pushedLines_append]
      exact (congrArg (pushedLines s.events ++ ·) (pushedLines_measures hadded)).trans
        (List.append_nil _)
    refine ⟨?_, hlines.trans hnone⟩
    show batchesOf (bs.foldl _ (p.sampleBatch cb s b.1 b.2)).events = _
    rw [hbatches, hone, List.append_assoc]
    rfl

/-- The batches that the fallback makes of the channels without a level. -/
def missingBatches (p : ScanPlan) (levels : Nat → Option β) : List (Nat × Nat) :=
  Batching.batches (fun ch => (levels ch).isNone) p.fits p.channelCount 0

theorem fallback_events (s : ScanPass ε β) :
    batchesOf (p.fallback cb s).events =
        batchesOf s.events ++ (missingBatches p s.levelByChannel).map (batchOf p) ∧
      pushedLines (p.fallback cb s).events = pushedLines s.events := by
  unfold ScanPlan.fallback missingBatches
  rw [Batching.loop_eq_foldl]
  · exact sampleBatches_events p cb s _
  · intro s first last ch hout
    rw [(sampleBatch_cases p cb s first last).2.1 ch (Or.inr hout)]

/-- After the fallback every channel has a level. -/
theorem fallback_fills (s : ScanPass ε β) {ch : Nat} (h : ch < p.channelCount) :
    ((p.fallback cb s).levelByChannel ch).isSome = true := by
  have hfilled : ((p.fallback cb s).levelByChannel ch).isNone = false := by
    refine @Batching.loop_fills _ (fun s ch => (s.levelByChannel ch).isNone) p.fits
      p.channelCount (p.sampleBatch cb) ?_ ?_ s 0 ch h (Or.inl (Nat.zero_le ch))
    · intro s first last ch hout
      rw [(sampleBatch_cases p cb s first last).2.1 ch hout]
    · intro s first last ch hfirst hlast
      have hsome := (sampleBatch_cases p cb s first last).2.2 ch hfirst hlast
      simpa using hsome
  simpa using hfilled

end fallback

/-! ### The sweep -/

section sweep
variable [Max β]

/-- A round measures; it may end the sweep. -/
theorem sweepAt_cases (s : ScanPass ε β) (centerHz : Int) :
    ∃ t, OnlyMeasures s t ∧
      (p.sweepAt cb s centerHz = (true, t) ∨ p.sweepAt cb s centerHz = (false, t.abort)) := by
  unfold ScanPlan.sweepAt
  dsimp only
  split
  · exact ⟨{ s with env := (cb.shouldRun s.env).2 }, .of_events rfl, Or.inr rfl⟩
  · split
    · exact ⟨{ s with env := (cb.consumeScanCancel (cb.shouldRun s.env).2).2 }, .of_events rfl,
        Or.inr rfl⟩
    · have htune : OnlyMeasures s (ScanPlan.tune cb
          { s with env := (cb.consumeScanCancel (cb.shouldRun s.env).2).2 }
          (toUInt32 centerHz)).2 :=
        tune_measures cb { s with env := (cb.consumeScanCancel (cb.shouldRun s.env).2).2 } _
      split
      · exact ⟨_, htune, Or.inr rfl⟩
      · have hread := htune.trans (settleAndRead_frame p cb _ p.scanReadSamples).1
        split
        · exact ⟨_, hread, Or.inl rfl⟩
        · exact ⟨_, hread.trans (estimate_measures p cb _ centerHz _ 0 _ false), Or.inl rfl⟩

theorem sweep_cases (s : ScanPass ε β) (centerHz : Int) :
    ∃ t, OnlyMeasures s t ∧ (p.sweep cb s centerHz = t ∨ p.sweep cb s centerHz = t.abort) := by
  induction s, centerHz using ScanPlan.sweep.induct p cb with
  | case1 s centerHz hin round hon ih =>
    obtain ⟨t, hmeasures, hgoes | hends⟩ := sweepAt_cases p cb s centerHz
    · have hround : round = (true, t) := hgoes
      rw [hround] at ih
      -- the sweep goes on from where this round leaves it
      obtain ⟨t', hmeasures', hsweep⟩ := ih
      refine ⟨t', hmeasures.trans hmeasures', ?_⟩
      rw [ScanPlan.sweep, if_pos hin]
      simp only [hgoes, if_true]
      exact hsweep
    · have hround : round = (false, t.abort) := hends
      rw [hround] at hon
      cases hon
  | case2 s centerHz hin round hoff =>
    obtain ⟨t, hmeasures, hgoes | hends⟩ := sweepAt_cases p cb s centerHz
    · have hround : round = (true, t) := hgoes
      rw [hround] at hoff
      exact absurd rfl hoff
    · refine ⟨t, hmeasures, Or.inr ?_⟩
      rw [ScanPlan.sweep, if_pos hin]
      simp only [hends, Bool.false_eq_true, if_false]
  | case3 s centerHz hout =>
    refine ⟨s, .refl s, Or.inl ?_⟩
    rw [ScanPlan.sweep, if_neg hout]

end sweep

end steps

/-! ### Channels and centers -/

namespace ScanPlan
variable (p : ScanPlan)

/-- Channels come in ascending order. -/
theorem freqKHz_lt {ch ch' : Nat} (h : ch < ch') : p.freqKHz ch < p.freqKHz ch' := by
  have hstep := p.stepKHz_pos
  have hlt : (ch : Int) * p.stepKHz < ch' * p.stepKHz :=
    Int.mul_lt_mul_of_pos_right (by omega) hstep
  unfold freqKHz
  omega

theorem freqHz_le {ch ch' : Nat} (h : ch ≤ ch') : p.freqHz ch ≤ p.freqHz ch' := by
  rcases Nat.eq_or_lt_of_le h with rfl | hlt
  · exact Int.le_refl _
  · have hfreq := p.freqKHz_lt hlt
    unfold freqHz
    omega

/-- The center of a batch is no larger than a `uint32_t`, and the whole batch
    is in the usable span around it. -/
theorem batch_in_span {first last ch : Nat} (hlast : last < p.channelCount)
    (hfits : last = first ∨ p.fits first last = true) (hfirst : first ≤ ch) (hch : ch ≤ last) :
    |p.freqHz ch - toUInt32 ((p.freqHz first + p.freqHz last) / 2)| ≤ p.usableHalfSpanHz := by
  have hspan := p.usableHalfSpanHz_nonneg
  have hlow : p.freqHz first ≤ p.freqHz ch := p.freqHz_le hfirst
  have hhigh : p.freqHz ch ≤ p.freqHz last := p.freqHz_le hch
  have hwide : p.freqHz last ≤ p.freqHz first + p.usableHalfSpanHz * 2 := by
    rcases hfits with rfl | hfits
    · omega
    · simpa [fits] using hfits
  have htop : p.freqHz last ≤ 108000000 := by
    have hle := (p.lt_channelCount_iff last).mp hlast
    have hstop := p.stopKHz_le
    unfold freqHz
    omega
  have hbottom : 64000000 ≤ p.freqHz first := by
    have hstart := p.startKHz_bounds.1
    have hnonneg : 0 ≤ (first : Int) * p.stepKHz :=
      Int.mul_nonneg (by omega) p.stepKHz_pos.le
    unfold freqHz freqKHz
    omega
  have hcenter : (toUInt32 ((p.freqHz first + p.freqHz last) / 2) : Int) =
      (p.freqHz first + p.freqHz last) / 2 := by
    unfold toUInt32
    omega
  rw [hcenter, abs_le]
  omega

end ScanPlan

/-! ### Main result -/

theorem finish_events {ε β : Type*} (engine : ScanEngine) (s : ScanPass ε β) :
    batchesOf (engine.finish s).events = batchesOf s.events ∧
      pushedLines (engine.finish s).events = pushedLines s.events := by
  unfold ScanEngine.finish
  split
  · constructor
    · exact (batchesOf_append _).trans (List.append_nil _)
    · exact (pushedLines_append _).trans (List.append_nil _)
  · exact ⟨rfl, rfl⟩

/-- The entries of the scan line are all channels, one after the other. -/
theorem scanEntries_freqKHz {ε β : Type*} (p : ScanPlan) (s : ScanPass ε β)
    (h : ∀ ch, ch < p.channelCount → (s.levelByChannel ch).isSome = true) :
    (p.scanEntries s).map (·.1) = (List.range p.channelCount).map p.freqKHz := by
  unfold ScanPlan.scanEntries
  rw [List.map_filterMap, ← List.filterMap_eq_map]
  apply List.filterMap_congr
  intro ch hch
  obtain ⟨level, hlevel⟩ := Option.isSome_iff_exists.mp (h ch (List.mem_range.mp hch))
  simp [hlevel]

theorem scanLine_ne_nil {β : Type*} (print : β → Text) {entries : List (Int × β)}
    (h : entries ≠ []) : scanLine print entries ≠ [] := by
  obtain ⟨entry, entries, rfl⟩ := List.exists_cons_of_ne_nil h
  simp [scanLine]

theorem channelCount_pos (p : ScanPlan) : 0 < p.channelCount := by
  rw [p.lt_channelCount_iff]
  have hle := p.startKHz_le_stopKHz
  unfold ScanPlan.freqKHz
  omega

/-- The sweep makes no batches and pushes nothing. -/
theorem sweep_events {ε β : Type*} [Max β] (p : ScanPlan) (cb : ScanCallbacks ε β)
    (s : ScanPass ε β) (centerHz : Int) :
    batchesOf (p.sweep cb s centerHz).events = batchesOf s.events ∧
      pushedLines (p.sweep cb s centerHz).events = pushedLines s.events := by
  obtain ⟨t, ⟨added, hevents, hadded⟩, hswept⟩ := sweep_cases p cb s centerHz
  have hmeasured : batchesOf t.events = batchesOf s.events ∧
      pushedLines t.events = pushedLines s.events := by
    rw [hevents, batchesOf_append, pushedLines_append, batchesOf_measures hadded,
      pushedLines_measures hadded, List.append_nil, List.append_nil]
    exact ⟨rfl, rfl⟩
  rcases hswept with heq | habort
  · rw [heq]
    exact hmeasured
  · rw [habort]
    constructor
    · exact ((batchesOf_append _).trans (List.append_nil _)).trans hmeasured.1
    · exact ((pushedLines_append _).trans (List.append_nil _)).trans hmeasured.2

section main
variable {ε β : Type*} [Zero β] [Max β]

/-- A scan sweeps, falls back, pushes its line and finishes. -/
theorem runIfActive_eq (engine : ScanEngine) {iqSampleRate : Nat} (sdrBufSamples : Nat)
    (cb : ScanCallbacks ε β) (print : β → Text) (env : ε)
    (hactive : engine.active = true) (hrate : 0 < iqSampleRate) :
    let p : ScanPlan := ⟨engine.config, iqSampleRate, sdrBufSamples⟩
    let sampled := p.fallback cb (p.sweep cb (engine.start env) p.firstCenterHz)
    (engine.runIfActive true iqSampleRate sdrBufSamples cb print env).2 =
      engine.finish (sampled.record (.pushScanLine (scanLine print (p.scanEntries sampled)))) := by
  intro p sampled
  have hentries : p.scanEntries sampled ≠ [] := by
    intro hempty
    have hfreqs := scanEntries_freqKHz p sampled fun ch hch => fallback_fills p cb _ hch
    rw [hempty] at hfreqs
    have hnone : p.channelCount = 0 :=
      List.range_eq_nil.mp (List.map_eq_nil_iff.mp hfreqs.symm)
    have hpos := channelCount_pos p
    omega
  have hpush : p.pushScanLine print sampled =
      sampled.record (.pushScanLine (scanLine print (p.scanEntries sampled))) :=
    if_pos (scanLine_ne_nil print hentries)
  rw [← hpush]
  unfold ScanEngine.runIfActive
  rw [if_neg (by simp [hactive]), if_neg (Nat.ne_of_gt hrate)]

/-- A scan of an active engine on a connected device with a sample rate
    pushes one line. It has the channels from `startKHz` in steps of
    `stepKHz` up to `stopKHz`, in ascending order. The batches of the
    fallback are disjoint, in ascending order, and cover just the channels
    that the sweep has left without a level; a channel is as near to the
    center of its batch as a capture can be used. -/
theorem scan_line_complete (engine : ScanEngine) (iqSampleRate sdrBufSamples : Nat)
    (cb : ScanCallbacks ε β) (print : β → Text) (env : ε)
    (hactive : engine.active = true) (hrate : 0 < iqSampleRate) :
    let p : ScanPlan := ⟨engine.config, iqSampleRate, sdrBufSamples⟩
    let swept := p.sweep cb (engine.start env) p.firstCenterHz
    let events := (engine.runIfActive true iqSampleRate sdrBufSamples cb print env).2.events
    (∃ entries, pushedLines events = [scanLine print entries] ∧
      (entries.map (·.1)).Pairwise (· < ·) ∧
      ∀ freqKHz, freqKHz ∈ entries.map (·.1) ↔
        ∃ k : Nat, freqKHz = p.startKHz + k * p.stepKHz ∧ freqKHz ≤ p.stopKHz) ∧
    (batchesOf events).Pairwise (fun b b' => b.last < b'.first) ∧
    (∀ ch, (∃ b ∈ batchesOf events, b.first ≤ ch ∧ ch ≤ b.last) ↔
      ch < p.channelCount ∧ swept.levelByChannel ch = none) ∧
    ∀ b ∈ batchesOf events, ∀ ch, b.first ≤ ch → ch ≤ b.last →
      |p.freqHz ch - b.centerHz| ≤ p.usableHalfSpanHz := by
  intro p swept events
  have hevents : batchesOf events = (missingBatches p swept.levelByChannel).map (batchOf p) ∧
      pushedLines events = [scanLine print (p.scanEntries (p.fallback cb swept))] := by
    have hsweep := sweep_events p cb (engine.start env) p.firstCenterHz
    have hfallback := fallback_events p cb swept
    have hfinish := finish_events engine ((p.fallback cb swept).record
      (.pushScanLine (scanLine print (p.scanEntries (p.fallback cb swept)))))
    unfold events
    rw [runIfActive_eq engine sdrBufSamples cb print env hactive hrate, hfinish.1, hfinish.2]
    constructor
    · show batchesOf ((p.fallback cb swept).events ++ _) = _
      rw [batchesOf_append, hfallback.1, hsweep.1]
      exact List.append_nil _
    · show pushedLines ((p.fallback cb swept).events ++ _) = _
      rw [pushedLines_append, hfallback.2, hsweep.2]
      rfl
  have hentries := scanEntries_freqKHz p (p.fallback cb swept)
    fun ch hch => fallback_fills p cb swept hch
  -- the line first, then the batches: disjoint, covering, in span
  refine ⟨⟨_, hevents.2, ?_, ?_⟩, ?_, ?_, ?_⟩
  · rw [hentries]
    exact List.Pairwise.map _ (fun ch ch' hlt => p.freqKHz_lt hlt) List.pairwise_lt_range
  · intro freqKHz
    rw [hentries, List.mem_map]
    constructor
    · rintro ⟨ch, hch, rfl⟩
      exact ⟨ch, rfl, (p.lt_channelCount_iff ch).mp (List.mem_range.mp hch)⟩
    · rintro ⟨ch, rfl, hstop⟩
      exact ⟨ch, List.mem_range.mpr ((p.lt_channelCount_iff ch).mpr hstop), rfl⟩
  · rw [hevents.1]
    exact List.Pairwise.map _ (fun b b' hlt => hlt) Batching.batches_pairwise
  · intro ch
    have hcovered := @Batching.mem_batches_iff (fun ch => (swept.levelByChannel ch).isNone)
      p.fits p.channelCount 0 ch
    simp only [Nat.zero_le, true_and, Option.isNone_iff_eq_none] at hcovered
    rw [hevents.1, ← hcovered]
    constructor
    · rintro ⟨b, hb, hbounds⟩
      obtain ⟨ends, hends, rfl⟩ := List.mem_map.mp hb
      exact ⟨ends, hends, hbounds⟩
    · rintro ⟨ends, hends, hbounds⟩
      exact ⟨_, List.mem_map_of_mem hends, hbounds⟩
  · rw [hevents.1]
    intro b hb ch hfirst hlast
    obtain ⟨ends, hends, rfl⟩ := List.mem_map.mp hb
    exact p.batch_in_span (Batching.mem_batches hends).2.2.1 (Batching.batches_fit hends)
      hfirst hlast

/-- A tuner that can be tuned but delivers no samples. -/
def silentCallbacks (cancel : Bool) : ScanCallbacks Unit Nat where
  shouldRun env := (true, env)
  consumeScanCancel env := (cancel, env)
  tunerSetFrequency _ env := (true, env)
  tunerReadIQ _ env := (0, env)
  writeIqCapture _ env := env
  tunerFlush env := env
  ensureSize _ env := (true, env)
  channelLevel _ _ _ _ := none
  computeSignalLevel _ _ := none

/-- One decimal, for whole levels. -/
def printLevel (level : Nat) : Text := decimal level ++ ['.', '0']

/-- A scan of 87.5 to 108 MHz in steps of 100 kHz reports 88.6 MHz, even if
    nothing is received. -/
theorem silent_scan_line_complete : ∃ entries,
    pushedLines (ScanEngine.runIfActive ⟨true, {}, 87500000, 0⟩ true 256000 16384
      (silentCallbacks false) printLevel ()).2.events =
        [scanLine printLevel entries] ∧
      88600 ∈ entries.map (·.1) := by
  obtain ⟨⟨entries, hline, -, hchannels⟩, -⟩ := scan_line_complete ⟨true, {}, 87500000, 0⟩
    256000 16384 (silentCallbacks false) printLevel () rfl (by decide)
  exact ⟨entries, hline, (hchannels 88600).mpr ⟨11, by decide, by decide⟩⟩

end main

end FmSdrTuner
