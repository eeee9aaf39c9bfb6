import Mathlib.Data.List.TakeWhile
import FmSdrTuner.Scan.ScanLine

/-! # Scans that are aborted

    The sweep ends early when the application shuts down, when a cancel is
    consumed, or when a retune fails. The fallback runs all the same: it
    retunes for every channel that has no level yet, which after an abort
    can be most of the band. Only if the captures before the abort have
    yielded a level for every channel does the abort stop the retunes.

    Main result: `abort_stops_retuning_iff`. -/

namespace FmSdrTuner

/-! ### Before and after the abort -/

namespace ScanEvent
variable {β : Type*}

def isAborted : ScanEvent β → Bool
  | .aborted => true
  | _ => false

def isRestore : ScanEvent β → Bool
  | .restoreAfterScan _ _ => true
  | _ => false

/-- Neither an abort nor a restore. -/
def isWork (e : ScanEvent β) : Bool := !e.isAborted && !e.isRestore

theorem isWork_of_measures {e : ScanEvent β} (h : e.measures = true) : e.isWork = true := by
  cases e with
  | setFrequency freqHz => rfl
  | captured levels => rfl
  | _ => cases h

end ScanEvent

section traces
variable {β : Type*}

/-- What happens before the sweep is aborted. -/
def beforeAbort (events : List (ScanEvent β)) : List (ScanEvent β) :=
  events.takeWhile (!·.isAborted)

/-- What happens from the abort until `restoreAfterScan`. -/
def afterAbort (events : List (ScanEvent β)) : List (ScanEvent β) :=
  (events.dropWhile (!·.isAborted)).takeWhile (!·.isRestore)

/-- Some capture has yielded a level for the channel. -/
def Measured (events : List (ScanEvent β)) (ch : Nat) : Prop :=
  ∃ levels : Nat → Option β, .captured levels ∈ events ∧ (levels ch).isSome = true

variable {events events' : List (ScanEvent β)} {ch : Nat}

theorem beforeAbort_append (h : ∀ e ∈ events, e.isWork = true) :
    beforeAbort (events ++ .aborted :: events') = events := by
  have hbefore : ∀ e ∈ events, (!e.isAborted) = true := by
    intro e he
    exact (Bool.and_eq_true_iff.mp (h e he)).1
  unfold beforeAbort
  rw [List.takeWhile_append_of_pos hbefore]
  exact List.append_nil events

theorem afterAbort_append (h : ∀ e ∈ events, e.isWork = true) :
    afterAbort (events ++ .aborted :: events') =
      .aborted :: events'.takeWhile (!·.isRestore) := by
  have hbefore : ∀ e ∈ events, (!e.isAborted) = true := by
    intro e he
    exact (Bool.and_eq_true_iff.mp (h e he)).1
  unfold afterAbort
  rw [List.dropWhile_append_of_pos hbefore]
  rfl

/-- Until the restore come the added events and a scan line. -/
theorem retunes_afterAbort {added tail : List (ScanEvent β)} {line : Text}
    (h : ∀ e ∈ events, e.isWork = true) (hadded : ∀ e ∈ added, e.isWork = true)
    (hline : tail.takeWhile (!·.isRestore) = [.pushScanLine line]) :
    (∀ freqHz, .setFrequency freqHz ∉ afterAbort (events ++ .aborted :: (added ++ tail))) ↔
      ¬ ∃ freqHz, .setFrequency freqHz ∈ added := by
  have hkept : ∀ e ∈ added, (!e.isRestore) = true := by
    intro e he
    exact (Bool.and_eq_true_iff.mp (hadded e he)).2
  rw [afterAbort_append h, List.takeWhile_append_of_pos hkept, hline]
  simp

theorem afterAbort_eq_nil (h : .aborted ∉ events) : afterAbort events = [] := by
  have hnone : events.dropWhile (!·.isAborted) = [] := by
    rw [List.dropWhile_eq_nil_iff]
    intro e he
    cases e with
    | aborted => exact absurd he h
    | _ => rfl
  unfold afterAbort
  rw [hnone]
  rfl

theorem measured_append : Measured (events ++ events') ch ↔
    Measured events ch ∨ Measured events' ch := by
  unfold Measured
  constructor
  · rintro ⟨levels, hmem, hsome⟩
    rcases List.mem_append.mp hmem with hold | hnew
    · exact Or.inl ⟨levels, hold, hsome⟩
    · exact Or.inr ⟨levels, hnew, hsome⟩
  · rintro (⟨levels, hmem, hsome⟩ | ⟨levels, hmem, hsome⟩)
    · exact ⟨levels, List.mem_append_left _ hmem, hsome⟩
    · exact ⟨levels, List.mem_append_right _ hmem, hsome⟩

theorem measured_captured {levels : Nat → Option β} :
    Measured [.captured levels] ch ↔ (levels ch).isSome = true := by
  simp [Measured]

end traces

/-! ### The levels after the sweep -/

/-- The channels that have a level are those that a capture has yielded one
    for. -/
def LevelsMeasured {ε β : Type*} (s : ScanPass ε β) : Prop :=
  ∀ ch, (s.levelByChannel ch).isSome = true ↔ Measured s.events ch

section sweep
variable {ε β : Type*} (p : ScanPlan) (cb : ScanCallbacks ε β) {s : ScanPass ε β}

theorem raiseLevel_isSome [Max β] (old new : Option β) :
    (raiseLevel old new).isSome = true ↔ old.isSome = true ∨ new.isSome = true := by
  cases old <;> cases new <;> simp [raiseLevel]

/-- Events other than captures change nothing. -/
theorem LevelsMeasured.add {s' : ScanPass ε β} (h : LevelsMeasured s)
    (hlevels : s'.levelByChannel = s.levelByChannel) {added : List (ScanEvent β)}
    (hevents : s'.events = s.events ++ added) (hnone : ∀ ch, ¬ Measured added ch) :
    LevelsMeasured s' := by
  intro ch
  rw [hlevels, hevents, measured_append, h ch]
  exact ⟨Or.inl, fun hany => hany.resolve_right (hnone ch)⟩

theorem LevelsMeasured.abort (h : LevelsMeasured s) : LevelsMeasured s.abort :=
  h.add rfl rfl fun ch hmeasured => by simp [Measured] at hmeasured

/-- The abort itself measures nothing. -/
theorem LevelsMeasured.of_abort (h : LevelsMeasured s.abort) : LevelsMeasured s := by
  intro ch
  have hcaptures : Measured (s.events ++ [.aborted]) ch ↔ Measured s.events ch := by
    rw [measured_append]
    simp [Measured]
  exact (h ch).trans hcaptures

variable [Max β]

theorem LevelsMeasured.estimate (h : LevelsMeasured s) (centerHz : Int)
    (samples first last : Nat) (onlyMissing : Bool) :
    LevelsMeasured
      (p.estimateLevelsFromCapture cb s centerHz samples first last onlyMissing).2 := by
  rcases estimate_cases p cb s centerHz samples first last onlyMissing with
    ⟨-, hevents, hlevels⟩ | ⟨levels, -, hevents, hlevels, -⟩
  · exact h.add hlevels (hevents.trans (List.append_nil _).symm) fun ch hmeasured => by
      simp [Measured] at hmeasured
  · intro ch
    rw [hevents, hlevels, measured_append, measured_captured, raiseLevel_isSome, h ch]

theorem LevelsMeasured.sweepAt (h : LevelsMeasured s) (centerHz : Int) :
    LevelsMeasured (p.sweepAt cb s centerHz).2 := by
  have htune : ∀ env freqHz, LevelsMeasured (ScanPlan.tune cb { s with env := env } freqHz).2 :=
    fun env freqHz => h.add rfl rfl fun ch hmeasured => by simp [Measured] at hmeasured
  unfold ScanPlan.sweepAt
  dsimp only
  split
  · exact LevelsMeasured.abort (s := { s with env := (cb.shouldRun s.env).2 }) h
  · split
    · exact LevelsMeasured.abort
        (s := { s with env := (cb.consumeScanCancel (cb.shouldRun s.env).2).2 }) h
    · split
      · exact (htune _ _).abort
      · have hread := (htune (cb.consumeScanCancel (cb.shouldRun s.env).2).2
          (toUInt32 centerHz)).add
          (settleAndRead_frame p cb _ p.scanReadSamples).2
          ((readSamples_events cb _ p.scanReadSamples).trans (List.append_nil _).symm)
          fun ch hmeasured => by simp [Measured] at hmeasured
        split
        · exact hread
        · exact hread.estimate p cb centerHz _ 0 _ false

theorem LevelsMeasured.sweep (h : LevelsMeasured s) (centerHz : Int) :
    LevelsMeasured (p.sweep cb s centerHz) := by
  induction s, centerHz using ScanPlan.sweep.induct p cb with
  | case1 s centerHz hin round hon ih =>
    rw [ScanPlan.sweep, if_pos hin]
    simp only [show (p.sweepAt cb s centerHz).1 = true from hon, if_true]
    exact ih (h.sweepAt p cb centerHz)
  | case2 s centerHz hin round hoff =>
    rw [ScanPlan.sweep, if_pos hin]
    simp only [show ¬ (p.sweepAt cb s centerHz).1 = true from hoff]
    exact h.sweepAt p cb centerHz
  | case3 s centerHz hout =>
    rw [ScanPlan.sweep, if_neg hout]
    exact h

end sweep

/-! ### The retunes of the fallback -/

section fallback
variable {ε β : Type*} [Zero β] [Max β] (p : ScanPlan) (cb : ScanCallbacks ε β)

/-- A batch starts with a retune. -/
theorem sampleBatches_added (s : ScanPass ε β) (bs : List (Nat × Nat)) :
    ∃ added, (bs.foldl (fun s b => p.sampleBatch cb s b.1 b.2) s).events = s.events ++ added ∧
      (∀ e ∈ added, e.isWork = true) ∧ ((∃ freqHz, .setFrequency freqHz ∈ added) ↔ bs ≠ []) := by
  induction bs generalizing s with
  | nil => exact ⟨[], (List.append_nil _).symm, by simp, by simp⟩
  | cons b bs ih =>
    obtain ⟨⟨first, hfirst, hmeasures⟩, -, -⟩ := sampleBatch_cases p cb s b.1 b.2
    obtain ⟨rest, hrest, hwork, -⟩ := ih (p.sampleBatch cb s b.1 b.2)
    -- the batch is recorded, then comes its retune
    have hevents : (bs.foldl (fun s b => p.sampleBatch cb s b.1 b.2)
        (p.sampleBatch cb s b.1 b.2)).events = s.events ++
        (.batch b.1 b.2 (batchOf p b).centerHz :: .setFrequency (batchOf p b).centerHz ::
          (first ++ rest)) := by
      rw [hrest, hfirst, List.append_assoc]
      rfl
    refine ⟨_, hevents, ?_, ?_⟩
    · intro e he
      rcases List.mem_cons.mp he with rfl | he
      · rfl
      · rcases List.mem_cons.mp he with rfl | he
        · rfl
        · rcases List.mem_append.mp he with he | he
          · exact ScanEvent.isWork_of_measures (hmeasures e he)
          · exact hwork e he
    · refine ⟨fun _ => List.cons_ne_nil b bs, fun _ => ⟨(batchOf p b).centerHz, ?_⟩⟩
      exact List.mem_cons_of_mem _ List.mem_cons_self

/-- The fallback retunes if and only if a channel has no level. -/
theorem fallback_added (s : ScanPass ε β) :
    ∃ added, (p.fallback cb s).events = s.events ++ added ∧
      (∀ e ∈ added, e.isWork = true) ∧
      ((∃ freqHz, .setFrequency freqHz ∈ added) ↔
        ¬ ∀ ch, ch < p.channelCount → (s.levelByChannel ch).isSome = true) := by
  obtain ⟨added, hevents, hwork, hretunes⟩ :=
    sampleBatches_added p cb s (missingBatches p s.levelByChannel)
  refine ⟨added, ?_, hwork, ?_⟩
  · rw [← hevents]
    unfold ScanPlan.fallback missingBatches
    rw [Batching.loop_eq_foldl]
    intro s first last ch hout
    rw [(sampleBatch_cases p cb s first last).2.1 ch (Or.inr hout)]
  · unfold missingBatches at hretunes
    rw [hretunes, ne_eq, Batching.batches_eq_nil_iff]
    simp

end fallback

/-! ### Main result -/

section main
variable {ε β : Type*}

/-- The scan line and the restore come after everything else. -/
theorem finish_tail (engine : ScanEngine) (s : ScanPass ε β) (line : Text) :
    ∃ tail, (engine.finish (s.record (.pushScanLine line))).events = s.events ++ tail ∧
      .aborted ∉ tail ∧ tail.takeWhile (!·.isRestore) = [.pushScanLine line] := by
  unfold ScanEngine.finish
  split
  · refine ⟨[.pushScanLine line,
      .restoreAfterScan engine.restoreFreqHz engine.restoreBandwidthHz], ?_, ?_, rfl⟩
    · exact List.append_assoc _ _ _
    · simp
  · exact ⟨[.pushScanLine line], rfl, by simp, rfl⟩

variable [Zero β] [Max β]

/-- If nothing is scanned, no abort is recorded. -/
theorem idle_not_aborted (engine : ScanEngine) (rtlConnected : Bool)
    (iqSampleRate sdrBufSamples : Nat) (cb : ScanCallbacks ε β) (print : β → Text) (env : ε)
    (hidle : engine.active = false ∨ rtlConnected = false ∨ iqSampleRate = 0) :
    .aborted ∉
      (engine.runIfActive rtlConnected iqSampleRate sdrBufSamples cb print env).2.events := by
  unfold ScanEngine.runIfActive
  dsimp only
  split
  · simp [ScanEngine.start]
  · next hscans =>
    have hrate : iqSampleRate = 0 := by
      rcases hidle with hactive | hconnected | hrate
      · simp [hactive] at hscans
      · simp [hconnected] at hscans
      · exact hrate
    rw [if_pos hrate]
    unfold ScanEngine.finish
    split <;> simp [ScanEngine.start, ScanPass.record]

/-- After the sweep comes the fallback, which retunes if and only if a channel
    has no level, and then the scan line. -/
theorem run_events (engine : ScanEngine) {iqSampleRate : Nat} (sdrBufSamples : Nat)
    (cb : ScanCallbacks ε β) (print : β → Text) (env : ε)
    (hactive : engine.active = true) (hrate : 0 < iqSampleRate) :
    let p : ScanPlan := ⟨engine.config, iqSampleRate, sdrBufSamples⟩
    let swept := p.sweep cb (engine.start env) p.firstCenterHz
    ∃ added line tail,
      (engine.runIfActive true iqSampleRate sdrBufSamples cb print env).2.events =
        swept.events ++ (added ++ tail) ∧
      (∀ e ∈ added, e.isWork = true) ∧
      ((∃ freqHz, .setFrequency freqHz ∈ added) ↔
        ¬ ∀ ch, ch < p.channelCount → (swept.levelByChannel ch).isSome = true) ∧
      .aborted ∉ tail ∧ tail.takeWhile (!·.isRestore) = [.pushScanLine line] := by
  intro p swept
  obtain ⟨added, hadded, hwork, hretunes⟩ := fallback_added p cb swept
  obtain ⟨tail, htail, hrestored, hline⟩ := finish_tail engine (p.fallback cb swept)
    (scanLine print (p.scanEntries (p.fallback cb swept)))
  refine ⟨added, _, tail, ?_, hwork, hretunes, hrestored, hline⟩
  rw [← List.append_assoc, ← hadded, ← htail]
  exact congrArg ScanPass.events
    (runIfActive_eq engine sdrBufSamples cb print env hactive hrate)

/-- From the abort of the sweep until `restoreAfterScan` nothing is retuned,
    if and only if by then every channel has been measured. -/
theorem abort_stops_retuning_iff (engine : ScanEngine) (rtlConnected : Bool)
    (iqSampleRate sdrBufSamples : Nat) (cb : ScanCallbacks ε β) (print : β → Text) (env : ε) :
    let p : ScanPlan := ⟨engine.config, iqSampleRate, sdrBufSamples⟩
    let events :=
      (engine.runIfActive rtlConnected iqSampleRate sdrBufSamples cb print env).2.events
    (∀ freqHz, .setFrequency freqHz ∉ afterAbort events) ↔
      (.aborted ∈ events → ∀ ch, ch < p.channelCount → Measured (beforeAbort events) ch) := by
  intro p events
  have hnever : .aborted ∉ events → ((∀ freqHz, .setFrequency freqHz ∉ afterAbort events) ↔
      (.aborted ∈ events → ∀ ch, ch < p.channelCount → Measured (beforeAbort events) ch)) := by
    intro hnone
    rw [afterAbort_eq_nil hnone]
    exact ⟨fun _ haborted => absurd haborted hnone, fun _ _ hmem => by cases hmem⟩
  by_cases hidle : engine.active = false ∨ rtlConnected = false ∨ iqSampleRate = 0
  · exact hnever (idle_not_aborted engine rtlConnected iqSampleRate sdrBufSamples cb print env
      hidle)
  · obtain ⟨hactive, hconnected, hrate⟩ : engine.active = true ∧ rtlConnected = true ∧
        0 < iqSampleRate := by
      simp only [not_or, Bool.not_eq_false] at hidle
      exact ⟨hidle.1, hidle.2.1, Nat.pos_of_ne_zero hidle.2.2⟩
    subst hconnected
    have hlevels : LevelsMeasured (p.sweep cb (engine.start env) p.firstCenterHz) :=
      LevelsMeasured.sweep p cb (fun ch => by simp [ScanEngine.start, Measured]) _
    obtain ⟨t, ⟨measured, hmeasured, hmeasures⟩, hswept⟩ :=
      sweep_cases p cb (engine.start env) p.firstCenterHz
    obtain ⟨added, line, tail, hevents, hadded, hretunes, hrestored, hline⟩ :
        ∃ added line tail, events =
          (p.sweep cb (engine.start env) p.firstCenterHz).events ++ (added ++ tail) ∧ _ :=
      run_events engine sdrBufSamples cb print env hactive hrate
    have hwork : ∀ e ∈ measured, e.isWork = true := by
      intro e he
      exact ScanEvent.isWork_of_measures (hmeasures e he)
    have htrace : t.events = measured := hmeasured
    rcases hswept with hswept | hswept
    · -- the sweep has come to its end
      apply hnever
      rw [hevents, hswept, htrace]
      intro haborted
      rcases List.mem_append.mp haborted with hmem | hmem
      · cases hwork _ hmem
      · rcases List.mem_append.mp hmem with hmem | hmem
        · cases hadded _ hmem
        · exact hrestored hmem
    · -- the sweep has been aborted, and then comes the fallback
      rw [hswept] at hlevels hretunes hevents
      have habort : events = measured ++ .aborted :: (added ++ tail) := by
        rw [hevents, ← htrace]
        exact List.append_assoc t.events [.aborted] (added ++ tail)
      have hlevel : ∀ ch, (t.abort.levelByChannel ch).isSome = true ↔ Measured measured ch := by
        rw [← htrace]
        exact LevelsMeasured.of_abort hlevels
      -- the fallback retunes just when a channel has no level
      rw [habort, retunes_afterAbort hwork hadded hline, beforeAbort_append hwork, hretunes,
        not_not]
      simp only [hlevel]
      exact ⟨fun hall _ => hall, fun hall => hall (by simp)⟩

end main

/-- A scan of 87.5 MHz alone. -/
def oneChannelPlan : ScanPlan := ⟨⟨87500, 87500, 100, 56000, 0, false⟩, 256000, 16384⟩

/-- The scan is cancelled at once and still tunes to its channel. -/
theorem cancelled_scan_retunes :
    afterAbort (ScanEngine.runIfActive ⟨true, oneChannelPlan.config, 88600000, 0⟩
      true 256000 16384 (silentCallbacks true) printLevel ()).2.events =
    [.aborted, .batch 0 0 87500000, .setFrequency 87500000, .pushScanLine "87500=0.0,".toList] := by
  have hsweep : ∀ s : ScanPass Unit Nat,
      oneChannelPlan.sweep (silentCallbacks true) s oneChannelPlan.firstCenterHz = s.abort := by
    intro s
    rw [ScanPlan.sweep, if_pos (by decide)]
    rfl
  have hfallback : ∀ s : ScanPass Unit Nat, s.levelByChannel 0 = none →
      oneChannelPlan.fallback (silentCallbacks true) s =
        oneChannelPlan.sampleBatch (silentCallbacks true) s 0 0 := by
    intro s hnone
    unfold ScanPlan.fallback
    rw [Batching.loop, if_pos (by decide), if_pos (by rw [hnone]; rfl), Batching.extend,
      if_neg (by intro hmore; exact absurd hmore.1 (by decide)), Batching.loop,
      if_neg (by decide)]
  show afterAbort (ScanEngine.finish _ (oneChannelPlan.pushScanLine printLevel
    (oneChannelPlan.fallback (silentCallbacks true) (oneChannelPlan.sweep (silentCallbacks true)
      _ oneChannelPlan.firstCenterHz)))).events = _
  rw [hsweep, hfallback _ rfl]
  rfl

end FmSdrTuner
