import FmSdrTuner.Framework.Batching
import FmSdrTuner.Scan.Plan

/-! # `ScanEngine::runIfActive`

    One call sweeps the band: it tunes from center to center, reads samples
    and estimates the level of every channel near the center. Channels that
    are left without a level are sampled by a fallback, batch by batch, and
    the levels are pushed as one scan line.

    The callbacks are functions of a state of their own, so they may answer
    differently every time. What is measured is up to them too: a level, or
    none when it is not finite. The retunes and the rest of what happens is
    recorded as a list of events.

    `kScanRetries` and `kFftAverages` are 1, so these loops are single reads. -/

namespace FmSdrTuner

/-! ### Callbacks -/

structure ScanCallbacks (ε β : Type*) where
  shouldRun : ε → Bool × ε
  consumeScanCancel : ε → Bool × ε
  tunerSetFrequency : Nat → ε → Bool × ε
  /-- How many samples are read, given how many are asked for. -/
  tunerReadIQ : Nat → ε → Nat × ε
  writeIqCapture : Nat → ε → ε
  tunerFlush : ε → ε
  /-- `m_fftState.ensureSize`. -/
  ensureSize : Nat → ε → Bool × ε
  /-- `level120` of a channel, from the tuned center and `nfft` samples. -/
  channelLevel : Int → Nat → Nat → ε → Option β
  computeSignalLevel : Nat → ε → Option β

/-- What a call of `runIfActive` does, in order. -/
inductive ScanEvent (β : Type*) where
  | setFrequency (freqHz : Nat)
  /-- A capture, and the levels it yields. -/
  | captured (levels : Nat → Option β)
  /-- The sweep ends early. -/
  | aborted
  | batch (first last : Nat) (centerHz : Nat)
  | pushScanLine (line : Text)
  | restoreAfterScan (freqHz : Nat) (bandwidthHz : Int)

structure ScanPass (ε β : Type*) where
  env : ε
  active : Bool
  levelByChannel : Nat → Option β
  events : List (ScanEvent β)

namespace ScanPass
variable {ε β : Type*}

def record (s : ScanPass ε β) (event : ScanEvent β) : ScanPass ε β :=
  { s with events := s.events ++ [event] }

def setLevel (s : ScanPass ε β) (ch : Nat) (level : Option β) : ScanPass ε β :=
  { s with levelByChannel := fun c => if c = ch then level else s.levelByChannel c }

/-- Level 0 for the channels of a batch. -/
def zeroLevels [Zero β] (s : ScanPass ε β) (first last : Nat) : ScanPass ε β :=
  { s with
      levelByChannel := fun c =>
        if first ≤ c ∧ c ≤ last then some 0 else s.levelByChannel c }

/-- Level 0 for the channels of a batch that have none. -/
def fillLevels [Zero β] (s : ScanPass ε β) (first last : Nat) : ScanPass ε β :=
  { s with
      levelByChannel := fun c =>
        if first ≤ c ∧ c ≤ last then some ((s.levelByChannel c).getD 0)
        else s.levelByChannel c }

/-- `m_active = false` before the end of the sweep. -/
def abort (s : ScanPass ε β) : ScanPass ε β := { s with active := false }.record .aborted

end ScanPass

/-- `std::max` of the old level and what has been measured. -/
def raiseLevel {β : Type*} [Max β] (old new : Option β) : Option β :=
  match old, new with
  | old, none => old
  | none, some level => some level
  | some level, some level' => some (max level level')

/-- The greatest power of two that is not above `n`, or 1. -/
def nearestPow2 (n : Nat) : Nat := 2 ^ n.log2

namespace ScanPlan

section
variable {ε β : Type*} (p : ScanPlan) (cb : ScanCallbacks ε β)

/-! ### Tuning and reading -/

def tune (s : ScanPass ε β) (freqHz : Nat) : Bool × ScanPass ε β :=
  let answer := cb.tunerSetFrequency freqHz s.env
  (answer.1, { s with env := answer.2 }.record (.setFrequency freqHz))

/-- Read and discard until enough is discarded or four reads in a row are
    empty. -/
def settleLoop (env : ε) (discarded emptyReads : Nat) : ε :=
  if discarded < p.retuneSettleSamples ∧ emptyReads < 4 then
    let want := min p.sdrBufSamples (p.retuneSettleSamples - discarded)
    let read := cb.tunerReadIQ want env
    if read.1 = 0 then settleLoop read.2 discarded (emptyReads + 1)
    else settleLoop read.2 (discarded + read.1) 0
  else env
termination_by (p.retuneSettleSamples - discarded, 4 - emptyReads)
decreasing_by
  · exact Prod.Lex.right _ (by omega)
  · next hmore hread =>
    exact Prod.Lex.left _ _
      (Nat.sub_lt_sub_left hmore.1 (Nat.lt_add_of_pos_right (Nat.pos_of_ne_zero hread)))

def settleAfterRetune (s : ScanPass ε β) : ScanPass ε β :=
  { s with env := p.settleLoop cb (cb.tunerFlush s.env) 0 0 }

/-- Read samples, and hand what is read to the capture. -/
def readSamples (s : ScanPass ε β) (want : Nat) : Nat × ScanPass ε β :=
  let read := cb.tunerReadIQ want s.env
  if read.1 = 0 then (0, { s with env := read.2 })
  else (read.1, { s with env := cb.writeIqCapture read.1 read.2 })

/-- A channel in the usable span around a center. -/
def inSpan (tunedCenterHz : Int) (ch : Nat) : Bool :=
  decide (tunedCenterHz - p.usableHalfSpanHz ≤ p.freqHz ch ∧
    p.freqHz ch ≤ tunedCenterHz + p.usableHalfSpanHz)

def estimateLevelsFromCapture [Max β] (s : ScanPass ε β) (tunedCenterHz : Int)
    (samples firstChannel lastChannel : Nat) (onlyMissing : Bool) : Bool × ScanPass ε β :=
  let nfft := nearestPow2 (min samples 16384)
  if nfft < 1024 then (false, s)
  else
    let sized := cb.ensureSize nfft s.env
    if !sized.1 then (false, { s with env := sized.2 })
    else
      let levels := fun ch =>
        if firstChannel ≤ ch ∧ ch ≤ lastChannel ∧
            ¬(onlyMissing = true ∧ (s.levelByChannel ch).isSome = true) ∧
            p.inSpan tunedCenterHz ch = true then
          cb.channelLevel tunedCenterHz nfft ch sized.2
        else none
      (true, { s with
        env := sized.2
        levelByChannel := fun ch => raiseLevel (s.levelByChannel ch) (levels ch)
        events := s.events ++ [.captured levels] })

/-! ### The sweep -/

/-- One round of the sweep, and whether the sweep goes on. -/
def sweepAt [Max β] (s : ScanPass ε β) (centerHz : Int) : Bool × ScanPass ε β :=
  let run := cb.shouldRun s.env
  if !run.1 then (false, { s with env := run.2 }.abort)
  else
    let cancel := cb.consumeScanCancel run.2
    if cancel.1 then (false, { s with env := cancel.2 }.abort)
    else
      let tuned := tune cb { s with env := cancel.2 } (toUInt32 centerHz)
      if !tuned.1 then (false, tuned.2.abort)
      else
        let read := readSamples cb (p.settleAfterRetune cb tuned.2) p.scanReadSamples
        if read.1 = 0 then (true, read.2)
        else
          (true, (p.estimateLevelsFromCapture cb read.2 centerHz read.1 0
            (p.channelCount - 1) false).2)

def sweep [Max β] (s : ScanPass ε β) (centerHz : Int) : ScanPass ε β :=
  if centerHz ≤ p.endCenterHz then
    let round := p.sweepAt cb s centerHz
    if round.1 then sweep round.2 (centerHz + p.centerStepHz) else round.2
  else s
termination_by (p.endCenterHz + 1 - centerHz).toNat
decreasing_by
  have hstep := p.centerStepHz_pos
  omega

/-! ### The fallback -/

/-- The sampling of one channel of a batch by a retune of its own. -/
def sampleChannel [Zero β] (s : ScanPass ε β) (missing : Nat) : ScanPass ε β :=
  let tuned := tune cb s (toUInt32 (p.freqKHz missing) * 1000 % 2 ^ 32)
  if !tuned.1 then tuned.2.setLevel missing (some 0)
  else
    let read := readSamples cb (p.settleAfterRetune cb tuned.2) (min p.sdrBufSamples 4096)
    if read.1 = 0 then read.2.setLevel missing (some 0)
    else read.2.setLevel missing (cb.computeSignalLevel read.1 read.2.env)

def sampleBatch [Zero β] [Max β] (s : ScanPass ε β) (batchStart batchEnd : Nat) :
    ScanPass ε β :=
  let batchCenterHz := toUInt32 ((p.freqHz batchStart + p.freqHz batchEnd) / 2)
  let tuned := tune cb (s.record (.batch batchStart batchEnd batchCenterHz)) batchCenterHz
  if !tuned.1 then tuned.2.zeroLevels batchStart batchEnd
  else
    let read := readSamples cb (p.settleAfterRetune cb tuned.2) (min p.sdrBufSamples 4096)
    if read.1 = 0 then read.2.zeroLevels batchStart batchEnd
    else
      let estimated := p.estimateLevelsFromCapture cb read.2 batchCenterHz read.1
        batchStart batchEnd true
      let sampled :=
        if estimated.1 then estimated.2
        else (List.range' batchStart (batchEnd + 1 - batchStart)).foldl
          (p.sampleChannel cb) estimated.2
      sampled.fillLevels batchStart batchEnd

/-- One retune can cover both channels. -/
def fits (first next : Nat) : Bool :=
  decide (p.freqHz next ≤ p.freqHz first + p.usableHalfSpanHz * 2)

/-- A batch of channels without a level is extended while it fits, then
    sampled. -/
def fallback [Zero β] [Max β] (s : ScanPass ε β) : ScanPass ε β :=
  Batching.loop (fun s ch => (s.levelByChannel ch).isNone) p.fits p.channelCount
    (p.sampleBatch cb) s 0

/-! ### The scan line -/

/-- The channels that have a level, with their frequencies. -/
def scanEntries (s : ScanPass ε β) : List (Int × β) :=
  (List.range p.channelCount).filterMap fun ch =>
    (s.levelByChannel ch).map fun level => (p.freqKHz ch, level)

end

end ScanPlan

/-- The text of a scan line; `print` is `std::fixed` with one decimal. -/
def scanLine {β : Type*} (print : β → Text) (entries : List (Int × β)) : Text :=
  entries.flatMap fun entry => decimalInt entry.1 ++ '=' :: print entry.2 ++ [',']

/-- Push the scan line, unless it is empty. -/
def ScanPlan.pushScanLine {ε β : Type*} (p : ScanPlan) (print : β → Text) (s : ScanPass ε β) :
    ScanPass ε β :=
  let line := scanLine print (p.scanEntries s)
  if line ≠ [] then s.record (.pushScanLine line) else s

namespace ScanEngine
variable {ε β : Type*} [Zero β] [Max β]

/-- No channel has a level yet. -/
def start (engine : ScanEngine) (env : ε) : ScanPass ε β :=
  ⟨env, engine.active, fun _ => none, []⟩

/-- A single scan ends here, and so does one that is no longer active. -/
def finish (engine : ScanEngine) (s : ScanPass ε β) : ScanPass ε β :=
  if !engine.config.continuous || !s.active then
    { s with active := false }.record
      (.restoreAfterScan engine.restoreFreqHz engine.restoreBandwidthHz)
  else s

/-- `ScanEngine::runIfActive`. -/
def runIfActive (engine : ScanEngine) (rtlConnected : Bool) (iqSampleRate sdrBufSamples : Nat)
    (cb : ScanCallbacks ε β) (print : β → Text) (env : ε) : Bool × ScanPass ε β :=
  let p : ScanPlan := ⟨engine.config, iqSampleRate, sdrBufSamples⟩
  if !engine.active || !rtlConnected then (false, engine.start env)
  else if iqSampleRate = 0 then (true, engine.finish (engine.start env))
  else
    let swept := p.sweep cb (engine.start env) p.firstCenterHz
    (true, engine.finish (p.pushScanLine print (p.fallback cb swept)))

end ScanEngine

end FmSdrTuner
