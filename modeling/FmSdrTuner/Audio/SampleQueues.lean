import FmSdrTuner.Framework.KeepNewest

/-! # The sample queues

    Four producers hand samples to slower consumers through rings of their
    own: the speaker ring of `AudioOutput`, the rings of `WavWriter` and of
    `MpxAudioOutput`, and the IQ ring of `SDRplayDevice`, which has a flag
    in place of a count. Each is the same queue: it keeps the newest
    samples it was given and returns the oldest it holds.

    Samples are only moved, so their type is a parameter; what is done to
    them on the way in (gain, encoding, resampling) is one too. -/

namespace FmSdrTuner

variable {σ α : Type*}

/-- A ring with the blocks popped from it so far. -/
structure Popping (ρ α : Type*) where
  ring : ρ
  popped : List (List α)

/-! ### AudioOutput -/

namespace AudioOutput

def CHANNELS : Nat := 2

/-- `AudioOutput::clearSpeakerQueueLocked`. -/
def clearSpeakerQueueLocked (r : CountedRing α) : CountedRing α := r.clear

/-- The samples of the frames from `start` on, left before right. -/
def interleave (left right : Nat → α) (start count : Nat) : List α :=
  (List.range' start count).flatMap fun i => [left i, right i]

/-- `AudioOutput::pushSpeakerSamples`. -/
def pushSpeakerSamples (r : CountedRing α) (left right : Nat → α) (numSamples : Nat) :
    CountedRing α :=
  if numSamples = 0 ∨ r.capacity = 0 then r
  else
    let incomingSamples := numSamples * CHANNELS
    let startSample :=
      if r.capacity ≤ incomingSamples then (incomingSamples - r.capacity) / CHANNELS else 0
    let keptSamples := (numSamples - startSample) * CHANNELS
    if r.capacity < keptSamples then clearSpeakerQueueLocked r
    else
      ((r.makeRoom keptSamples).writeAll
        (interleave left right startSample (numSamples - startSample))).grow keptSamples

/-- `AudioOutput::popSpeakerSamplesLocked`. -/
def popSpeakerSamplesLocked (r : CountedRing α) (maxSamples : Nat) :
    List α × CountedRing α :=
  if maxSamples = 0 ∨ r.capacity = 0 then ([], r) else r.pop maxSamples

end AudioOutput

/-- What happens to the speaker ring. -/
inductive SpeakerOp (α : Type*) where
  | push (left right : Nat → α) (numSamples : Nat)
  | pop (maxSamples : Nat)
  | clear

def speakerQueue : Machine (Popping (CountedRing α) α) (SpeakerOp α) where
  step s
    | .push left right numSamples =>
        { s with ring := AudioOutput.pushSpeakerSamples s.ring left right numSamples }
    | .pop maxSamples =>
        let popped := AudioOutput.popSpeakerSamplesLocked s.ring maxSamples
        ⟨popped.2, s.popped ++ [popped.1]⟩
    | .clear => { s with ring := AudioOutput.clearSpeakerQueueLocked s.ring }

/-! ### WavWriter -/

namespace WavWriter

/-- `WavWriter::enqueueInterleavedFloat`; `encode` scales, clamps and
    converts a sample. -/
def enqueueInterleavedFloat (encode : σ → α) (handle : Bool) (channels : Nat)
    (r : CountedRing α) (samples : Nat → σ) (frameCount : Nat) : Bool × CountedRing α :=
  if !handle || frameCount = 0 || channels = 0 || r.capacity = 0 then (false, r)
  else
    let sampleCount := frameCount * channels
    let encodeScratch := cells (fun i => encode (samples i)) sampleCount
    (true, r.push encodeScratch)

/-- One chunk of `WavWriter::runWriterThread`, into a buffer of the given length. -/
def takeChunk (r : CountedRing α) (bufferSize : Nat) : List α × CountedRing α :=
  r.pop bufferSize

end WavWriter

/-- What happens to the ring of a `WavWriter`; `restart` is `init`. -/
inductive WavOp (σ : Type*) where
  | enqueue (handle : Bool) (channels : Nat) (samples : Nat → σ) (frameCount : Nat)
  | take (bufferSize : Nat)
  | restart

def wavQueue (encode : σ → α) : Machine (Popping (CountedRing α) α) (WavOp σ) where
  step s
    | .enqueue handle channels samples frameCount =>
        { s with ring := (WavWriter.enqueueInterleavedFloat encode handle channels s.ring
            samples frameCount).2 }
    | .take bufferSize =>
        let taken := WavWriter.takeChunk s.ring bufferSize
        ⟨taken.2, s.popped ++ [taken.1]⟩
    | .restart => { s with ring := s.ring.clear }

/-! ### MpxAudioOutput -/

namespace MpxAudioOutput

/-- `MpxAudioOutput::enqueueMpx`. The resampler, if there is one, may make
    any number of samples of those of a call; `scale` applies the gain. -/
def enqueueMpx (scale : σ → α) (running : Bool) (resampler : Option (List σ → List σ))
    (r : CountedRing α) (samples : List σ) : Bool × CountedRing α :=
  if samples.isEmpty || !running || r.capacity = 0 then (false, r)
  else match resampler with
    | some resample =>
        let rsAccum := resample samples
        if rsAccum.isEmpty then (true, r) else (true, r.push (rsAccum.map scale))
    | none => (true, r.push (samples.map scale))

/-- `MpxAudioOutput::clearQueueLocked`. -/
def clearQueueLocked (r : CountedRing α) : CountedRing α := r.clear

/-- One block taken by an audio backend, of at most `maxFrames` samples. -/
def takeBlock (r : CountedRing α) (maxFrames : Nat) : List α × CountedRing α :=
  r.pop maxFrames

end MpxAudioOutput

inductive MpxOp (σ : Type*) where
  | enqueue (running : Bool) (resampler : Option (List σ → List σ)) (samples : List σ)
  | take (maxFrames : Nat)
  | clear

def mpxQueue (scale : σ → α) : Machine (Popping (CountedRing α) α) (MpxOp σ) where
  step s
    | .enqueue running resampler samples =>
        { s with ring := (MpxAudioOutput.enqueueMpx scale running resampler s.ring samples).2 }
    | .take maxFrames =>
        let taken := MpxAudioOutput.takeBlock s.ring maxFrames
        ⟨taken.2, s.popped ++ [taken.1]⟩
    | .clear => { s with ring := MpxAudioOutput.clearQueueLocked s.ring }

/-! ### SDRplayDevice -/

namespace SDRplayDevice

/-- `m_readPos = m_writePos = 0; m_full = false`. -/
def reset (r : FlagRing α) : FlagRing α := { r with readPos := 0, writePos := 0, full := false }

/-- The body of the loop of `ingest`. -/
def ingestSample (r : FlagRing α) (x : α) : FlagRing α :=
  let writePos := (r.writePos + 1) % r.capacity
  let readPos := if r.full then (r.readPos + 1) % r.capacity else r.readPos
  { r with
    slots := Function.update r.slots r.writePos x
    writePos := writePos
    readPos := readPos
    full := if writePos = readPos then true else r.full }

/-- `SDRplayDevice::ingest`; `convert` scales an I and a Q value. -/
def ingest (convert : σ → σ → α) (r : FlagRing α) (xi xq : Nat → σ) (n : Nat)
    (resetFlag : Bool) : FlagRing α :=
  if n = 0 then r
  else
    (cells (fun i => convert (xi i) (xq i)) n).foldl ingestSample
      (if resetFlag then reset r else r)

/-- `SDRplayDevice::drainLocked`. -/
def drainLocked (r : FlagRing α) (maxSamples : Nat) : List α × FlagRing α :=
  if r.available = 0 then ([], r)
  else
    let got := min maxSamples r.available
    let read := r.counted.readMany got
    (read.1, { r with readPos := read.2.readPos, full := if 0 < got then false else r.full })

end SDRplayDevice

/-- What happens to the ring of an `SDRplayDevice`; `clear` is a connect or
    a change of the scan mode. -/
inductive SDRplayOp (σ : Type*) where
  | ingest (xi xq : Nat → σ) (n : Nat) (reset : Bool)
  | drain (maxSamples : Nat)
  | clear

def sdrplayQueue (convert : σ → σ → α) :
    Machine (Popping (FlagRing α) α) (SDRplayOp σ) where
  step s
    | .ingest xi xq n reset =>
        { s with ring := SDRplayDevice.ingest convert s.ring xi xq n reset }
    | .drain maxSamples =>
        let drained := SDRplayDevice.drainLocked s.ring maxSamples
        ⟨drained.2, s.popped ++ [drained.1]⟩
    | .clear => { s with ring := SDRplayDevice.reset s.ring }

/-! ### As queues -/

def KeepNewest.empty : KeepNewest α := ⟨[], []⟩

/-- An empty ring whose slots hold anything. -/
def CountedRing.start (capacity : Nat) (slots : Nat → α) : Popping (CountedRing α) α :=
  ⟨⟨capacity, slots, 0, 0, 0⟩, []⟩

def FlagRing.start (capacity : Nat) (slots : Nat → α) : Popping (FlagRing α) α :=
  ⟨⟨capacity, slots, 0, 0, false⟩, []⟩

/-- What an operation is to the queue: a refused call is nothing. -/
def SpeakerOp.queueOps : SpeakerOp α → List (QueueOp α)
  | .push left right numSamples => [.push (AudioOutput.interleave left right 0 numSamples)]
  | .pop maxSamples => [.pop maxSamples]
  | .clear => [.clear]

def WavOp.queueOps (encode : σ → α) : WavOp σ → List (QueueOp α)
  | .enqueue handle channels samples frameCount =>
      if handle then [.push (cells (fun i => encode (samples i)) (frameCount * channels))] else []
  | .take bufferSize => [.pop bufferSize]
  | .restart => [.clear]

def MpxOp.queueOps (scale : σ → α) : MpxOp σ → List (QueueOp α)
  | .enqueue running resampler samples =>
      if samples.isEmpty || !running then []
      else match resampler with
        | some resample => [.push ((resample samples).map scale)]
        | none => [.push (samples.map scale)]
  | .take maxFrames => [.pop maxFrames]
  | .clear => [.clear]

def SDRplayOp.queueOps (convert : σ → σ → α) : SDRplayOp σ → List (QueueOp α)
  | .ingest xi xq n reset =>
      if n = 0 then []
      else (if reset then [.clear] else []) ++ [.push (cells (fun i => convert (xi i) (xq i)) n)]
  | .drain maxSamples => [.pop maxSamples]
  | .clear => [.clear]

/-- A ring with the blocks popped from it is the queue `q` of the given
    capacity. -/
structure Popping.Refines (capacity : Nat) (s : Popping (CountedRing α) α) (q : KeepNewest α) :
    Prop where
  layout : s.ring.Layout
  capacity_eq : s.ring.capacity = capacity
  contents : s.ring.contents = q.contents
  popped : s.popped = q.popped

namespace Popping.Refines
variable {capacity : Nat} {s : Popping (CountedRing α) α} {q : KeepNewest α}

theorem start (hpos : 0 < capacity) (slots : Nat → α) :
    (CountedRing.start capacity slots).Refines capacity .empty :=
  ⟨⟨hpos, by simp [CountedRing.start], Nat.zero_le _⟩, rfl, rfl, rfl⟩

theorem push (h : s.Refines capacity q) (xs : List α) :
    ({ s with ring := s.ring.push xs }).Refines capacity
      ((keepNewest capacity).step q (.push xs)) := by
  have hpush := h.layout.push xs
  have hcapacity : (s.ring.push xs).capacity = s.ring.capacity := by
    show ((s.ring.makeRoom _).writeAll _).capacity = _
    rw [CountedRing.writeAll_capacity, CountedRing.makeRoom_capacity]
  refine ⟨hpush.1, hcapacity.trans h.capacity_eq, ?_, h.popped⟩
  rw [hpush.2, h.contents, h.capacity_eq]
  rfl

/-- Pushing nothing. -/
theorem push_nil (h : s.Refines capacity q) :
    s.Refines capacity ((keepNewest capacity).step q (.push [])) := by
  refine ⟨h.layout, h.capacity_eq, ?_, h.popped⟩
  show s.ring.contents = (q.contents ++ []).rtake capacity
  rw [List.append_nil, ← h.contents, rtake_eq_self]
  rw [CountedRing.length_contents, ← h.capacity_eq]
  exact h.layout.size_le

theorem pop (h : s.Refines capacity q) (max : Nat) :
    Refines capacity ⟨(s.ring.pop max).2, s.popped ++ [(s.ring.pop max).1]⟩
      ((keepNewest capacity).step q (.pop max)) := by
  obtain ⟨hlayout, hpopped, hcontents⟩ := h.layout.pop max
  have hcapacity : (s.ring.pop max).2.capacity = s.ring.capacity := by
    unfold CountedRing.pop
    simp only [CountedRing.readMany_eq h.layout.readPos_lt]
  refine ⟨hlayout, hcapacity.trans h.capacity_eq, ?_, ?_⟩
  · rw [hcontents, h.contents]
    rfl
  · rw [hpopped, h.contents, h.popped]
    rfl

theorem clear (h : s.Refines capacity q) :
    ({ s with ring := s.ring.clear }).Refines capacity
      ((keepNewest capacity).step q .clear) := by
  have hpos : 0 < s.ring.capacity := by
    have := h.layout.readPos_lt
    omega
  exact ⟨.clear hpos, h.capacity_eq, rfl, h.popped⟩

end Popping.Refines

/-! ### The speaker ring -/

namespace AudioOutput

theorem length_interleave (left right : Nat → α) (start count : Nat) :
    (interleave left right start count).length = 2 * count := by
  simp [interleave, List.length_flatMap, Nat.mul_comm]

/-- Dropping `k` frames of two samples each. -/
theorem drop_interleave (left right : Nat → α) (k start count : Nat) (h : k ≤ count) :
    (interleave left right start count).drop (2 * k) =
      interleave left right (start + k) (count - k) := by
  have hsplit : List.range' start count =
      List.range' start k ++ List.range' (start + k) (count - k) := by
    rw [List.range'_append_1, Nat.add_sub_of_le h]
  have hlength := length_interleave left right start k
  unfold interleave at hlength ⊢
  rw [hsplit, List.flatMap_append]
  exact List.drop_left' hlength

/-- With room for whole frames only, the frames that are skipped are the
    samples that are. -/
theorem pushSpeakerSamples_eq_push {r : CountedRing α} (hpos : 0 < r.capacity)
    (heven : 2 ∣ r.capacity) (left right : Nat → α) {numSamples : Nat} (h : numSamples ≠ 0) :
    pushSpeakerSamples r left right numSamples =
      r.push (interleave left right 0 numSamples) := by
  obtain ⟨half, hhalf⟩ := heven
  have hlength := length_interleave left right 0 numSamples
  unfold pushSpeakerSamples CountedRing.push CHANNELS
  rw [if_neg (by omega)]
  simp only [hlength]
  -- the number of frames that are skipped
  have hstart : ∃ skipped, skipped ≤ numSamples ∧
      (if r.capacity ≤ numSamples * 2 then (numSamples * 2 - r.capacity) / 2 else 0) = skipped ∧
      (if r.capacity ≤ 2 * numSamples then 2 * numSamples - r.capacity else 0) = 2 * skipped ∧
      2 * (numSamples - skipped) ≤ r.capacity := by
    by_cases hcase : r.capacity ≤ 2 * numSamples
    · refine ⟨numSamples - half, by omega, ?_, ?_, by omega⟩
      · rw [if_pos (by omega)]
        omega
      · rw [if_pos hcase]
        omega
    · refine ⟨0, by omega, ?_, ?_, by omega⟩
      · rw [if_neg (by omega)]
      · rw [if_neg hcase]
  obtain ⟨skipped, hle, hframes, hsamples, hfits⟩ := hstart
  rw [hframes, hsamples, if_neg (by omega), drop_interleave _ _ _ _ _ hle, Nat.zero_add]
  unfold CountedRing.append
  rw [length_interleave, Nat.mul_comm 2]

end AudioOutput

theorem speakerQueue_step {capacity : Nat} (hpos : 0 < capacity) (heven : 2 ∣ capacity)
    (s : Popping (CountedRing α) α) (op : SpeakerOp α) (q : KeepNewest α)
    (h : s.Refines capacity q) :
    (speakerQueue.step s op).Refines capacity ((keepNewest capacity).run q op.queueOps) := by
  have hcapacity := h.capacity_eq
  cases op with
  | push left right numSamples =>
    simp only [speakerQueue, SpeakerOp.queueOps, Machine.run_cons, Machine.run_nil]
    by_cases hzero : numSamples = 0
    · have hnone : AudioOutput.pushSpeakerSamples s.ring left right numSamples = s.ring :=
        if_pos (Or.inl hzero)
      rw [hnone, hzero]
      exact h.push_nil
    · rw [AudioOutput.pushSpeakerSamples_eq_push (by omega) (by omega) left right hzero]
      exact h.push _
  | pop maxSamples =>
    simp only [speakerQueue, SpeakerOp.queueOps, Machine.run_cons, Machine.run_nil]
    by_cases hzero : maxSamples = 0
    · -- asking for nothing returns at once
      have hnone : AudioOutput.popSpeakerSamplesLocked s.ring maxSamples = ([], s.ring) :=
        if_pos (Or.inl hzero)
      rw [hnone, hzero]
      refine ⟨h.layout, hcapacity, h.contents, ?_⟩
      rw [h.popped]
      rfl
    · have hsome : AudioOutput.popSpeakerSamplesLocked s.ring maxSamples =
          s.ring.pop maxSamples := if_neg (by omega)
      rw [hsome]
      exact h.pop maxSamples
  | clear => exact h.clear

/-! ### The rings of WavWriter and MpxAudioOutput -/

theorem wavQueue_step {capacity : Nat} (hpos : 0 < capacity) (encode : σ → α)
    (s : Popping (CountedRing α) α) (op : WavOp σ) (q : KeepNewest α)
    (h : s.Refines capacity q) :
    ((wavQueue encode).step s op).Refines capacity
      ((keepNewest capacity).run q (op.queueOps encode)) := by
  cases op with
  | enqueue handle channels samples frameCount =>
    cases handle with
    | false => exact h
    | true =>
      simp only [wavQueue, WavOp.queueOps, WavWriter.enqueueInterleavedFloat, if_true,
        Machine.run_cons, Machine.run_nil]
      split
      · next hrefused =>
        -- the capacity is positive, so there are no samples
        have hnone : frameCount * channels = 0 := by
          have := h.capacity_eq
          simp only [Bool.not_true, Bool.false_or, Bool.or_eq_true, decide_eq_true_eq] at hrefused
          rcases hrefused with (hframes | hchannels) | hempty
          · rw [hframes, Nat.zero_mul]
          · rw [hchannels, Nat.mul_zero]
          · omega
        rw [hnone]
        exact h.push_nil
      · exact h.push _
  | take bufferSize => exact h.pop bufferSize
  | restart => exact h.clear

theorem mpxQueue_step {capacity : Nat} (hpos : 0 < capacity) (scale : σ → α)
    (s : Popping (CountedRing α) α) (op : MpxOp σ) (q : KeepNewest α)
    (h : s.Refines capacity q) :
    ((mpxQueue scale).step s op).Refines capacity
      ((keepNewest capacity).run q (op.queueOps scale)) := by
  cases op with
  | enqueue running resampler samples =>
    have hcapacity : ¬s.ring.capacity = 0 := by
      have := h.capacity_eq
      omega
    simp only [mpxQueue, MpxOp.queueOps, MpxAudioOutput.enqueueMpx, hcapacity, decide_false,
      Bool.or_false]
    split
    · exact h
    · cases resampler with
      | none => exact h.push _
      | some resample =>
        simp only [Machine.run_cons, Machine.run_nil]
        split
        · next hempty =>
          rw [List.isEmpty_iff.mp hempty]
          exact h.push_nil
        · exact h.push _
  | take maxFrames => exact h.pop maxFrames
  | clear => exact h.clear

/-! ### The ring of SDRplayDevice -/

/-- The ring with a count in place of the flag. -/
def Popping.counted (s : Popping (FlagRing α) α) : Popping (CountedRing α) α :=
  ⟨s.ring.counted, s.popped⟩

namespace SDRplayDevice

theorem ingestSample_eq_put {r : FlagRing α} (h : r.Layout) (x : α) :
    ingestSample r x = r.put x := by
  -- a ring that is full stays full: both positions move on
  have hfull : r.full = true → (r.writePos + 1) % r.capacity = (r.readPos + 1) % r.capacity :=
    fun hf => by rw [h.full_eq hf]
  unfold ingestSample FlagRing.put
  cases hf : r.full with
  | true => simp [hfull hf]
  | false => simp

theorem foldl_ingestSample {r : FlagRing α} (h : r.Layout) (xs : List α) :
    xs.foldl ingestSample r = xs.foldl FlagRing.put r := by
  induction xs generalizing r with
  | nil => rfl
  | cons x xs ih =>
    rw [List.foldl_cons, List.foldl_cons, ingestSample_eq_put h]
    exact ih (h.put x)

theorem drainLocked_eq {r : FlagRing α} (h : r.Layout) (maxSamples : Nat) :
    drainLocked r maxSamples =
      (r.contents.take maxSamples, r.advance (min maxSamples r.available)) := by
  have hread : r.counted.readPos < r.counted.capacity := h.readPos_lt
  have htake : r.contents.take maxSamples =
      ringCells r.capacity r.slots r.readPos (min maxSamples r.available) :=
    take_ringCells _ _ _ _ _
  unfold drainLocked
  split
  · next hempty =>
    have hnone : r.contents = [] := by
      apply List.eq_nil_of_length_eq_zero
      rw [r.length_contents, hempty]
    have hstay : r.advance (min maxSamples r.available) = r := by
      simp [FlagRing.advance, hempty, Nat.mod_eq_of_lt h.readPos_lt]
    rw [hnone, hstay, List.take_nil]
  · simp only [CountedRing.readMany_eq hread, htake, FlagRing.advance]
    congr 2
    rcases Nat.eq_zero_or_pos (min maxSamples r.available) with hzero | hsome
    · simp [hzero]
    · simp [hsome, Nat.ne_of_gt hsome]

end SDRplayDevice

/-- The ring is laid out, and with a count it is the queue. -/
structure Popping.FlagRefines (capacity : Nat) (s : Popping (FlagRing α) α) (q : KeepNewest α) :
    Prop where
  layout : s.ring.Layout
  counted : s.counted.Refines capacity q

namespace Popping.FlagRefines
variable {capacity : Nat} {s : Popping (FlagRing α) α} {q : KeepNewest α}

theorem reset (h : s.FlagRefines capacity q) :
    ({ s with ring := SDRplayDevice.reset s.ring }).FlagRefines capacity
      ((keepNewest capacity).step q .clear) := by
  have hpos : 0 < s.ring.capacity := by
    have := h.layout.readPos_lt
    omega
  have hcleared : (SDRplayDevice.reset s.ring).counted = s.ring.counted.clear := by
    simp [SDRplayDevice.reset, FlagRing.counted, FlagRing.available, CountedRing.clear]
  constructor
  · exact ⟨hpos, hpos, fun _ => rfl⟩
  · show Refines capacity ⟨(SDRplayDevice.reset s.ring).counted, s.popped⟩ _
    rw [hcleared]
    exact h.counted.clear

theorem putAll (h : s.FlagRefines capacity q) (xs : List α) :
    ({ s with ring := xs.foldl FlagRing.put s.ring }).FlagRefines capacity
      ((keepNewest capacity).step q (.push xs)) := by
  obtain ⟨hlayout, hcapacity, hcontents⟩ := h.layout.putAll xs
  have heq : s.ring.capacity = capacity := h.counted.capacity_eq
  have hq : s.ring.contents = q.contents := h.counted.contents
  refine ⟨hlayout, hlayout.counted, hcapacity.trans heq, ?_, h.counted.popped⟩
  show (xs.foldl FlagRing.put s.ring).contents = (q.contents ++ xs).rtake capacity
  rw [hcontents, hq, heq]

theorem drain (h : s.FlagRefines capacity q) (maxSamples : Nat) :
    FlagRefines capacity ⟨(SDRplayDevice.drainLocked s.ring maxSamples).2,
        s.popped ++ [(SDRplayDevice.drainLocked s.ring maxSamples).1]⟩
      ((keepNewest capacity).step q (.pop maxSamples)) := by
  rw [SDRplayDevice.drainLocked_eq h.layout]
  have hq : s.ring.contents = q.contents := h.counted.contents
  obtain ⟨hlayout, -, hcontents⟩ := h.layout.advance (Nat.min_le_right maxSamples s.ring.available)
  have hdrop : s.ring.contents.drop (min maxSamples s.ring.available) =
      s.ring.contents.drop maxSamples := by
    rw [← s.ring.length_contents]
    rcases Nat.le_total maxSamples s.ring.contents.length with hcase | hcase
    · rw [Nat.min_eq_left hcase]
    · rw [Nat.min_eq_right hcase, List.drop_length, List.drop_of_length_le hcase]
  refine ⟨hlayout, hlayout.counted, h.counted.capacity_eq, ?_, ?_⟩
  · show (s.ring.advance (min maxSamples s.ring.available)).contents = q.contents.drop maxSamples
    rw [hcontents, hdrop, hq]
  · show s.popped ++ [s.ring.contents.take maxSamples] = q.popped ++ [q.contents.take maxSamples]
    have hpopped : s.popped = q.popped := h.counted.popped
    rw [hpopped, hq]

end Popping.FlagRefines

theorem sdrplayQueue_step {capacity : Nat} (convert : σ → σ → α)
    (s : Popping (FlagRing α) α) (op : SDRplayOp σ) (q : KeepNewest α)
    (h : s.FlagRefines capacity q) :
    ((sdrplayQueue convert).step s op).FlagRefines capacity
      ((keepNewest capacity).run q (op.queueOps convert)) := by
  cases op with
  | ingest xi xq n reset =>
    by_cases hzero : n = 0
    · simpa [sdrplayQueue, SDRplayDevice.ingest, SDRplayOp.queueOps, hzero] using h
    · cases reset with
      | false =>
        have hput := h.putAll (cells (fun i => convert (xi i) (xq i)) n)
        rw [← SDRplayDevice.foldl_ingestSample h.layout] at hput
        simpa [sdrplayQueue, SDRplayDevice.ingest, SDRplayOp.queueOps, hzero] using hput
      | true =>
        -- first the ring is emptied
        have hput := h.reset.putAll (cells (fun i => convert (xi i) (xq i)) n)
        rw [← SDRplayDevice.foldl_ingestSample h.reset.layout] at hput
        simpa [sdrplayQueue, SDRplayDevice.ingest, SDRplayOp.queueOps, hzero] using hput
  | drain maxSamples => exact h.drain maxSamples
  | clear => exact h.reset

/-! ### Frames -/

/-- Frames as samples, left before right. -/
def frameSamples (frames : List (α × α)) : List α := frames.flatMap fun f => [f.1, f.2]

/-- What an operation is to a queue of frames. -/
def SpeakerOp.frameOps : SpeakerOp α → List (QueueOp (α × α))
  | .push left right numSamples =>
      [.push ((List.range' 0 numSamples).map fun i => (left i, right i))]
  | .pop maxSamples => [.pop (maxSamples / 2)]
  | .clear => [.clear]

theorem length_frameSamples (frames : List (α × α)) :
    (frameSamples frames).length = 2 * frames.length := by
  simp [frameSamples, List.length_flatMap, Nat.mul_comm]

theorem frameSamples_append (frames more : List (α × α)) :
    frameSamples (frames ++ more) = frameSamples frames ++ frameSamples more :=
  List.flatMap_append

theorem drop_frameSamples (frames : List (α × α)) (k : Nat) :
    (frameSamples frames).drop (2 * k) = frameSamples (frames.drop k) := by
  induction frames generalizing k with
  | nil => simp [frameSamples]
  | cons f frames ih =>
    cases k with
    | zero => rfl
    | succ k => exact ih k

theorem take_frameSamples (frames : List (α × α)) (k : Nat) :
    (frameSamples frames).take (2 * k) = frameSamples (frames.take k) := by
  induction frames generalizing k with
  | nil => simp [frameSamples]
  | cons f frames ih =>
    cases k with
    | zero => rfl
    | succ k =>
      show f.1 :: f.2 :: (frameSamples frames).take (2 * k) = _
      rw [ih k]
      rfl

/-- A queue of samples that is a queue of frames. -/
structure KeepNewest.OfFrames (frames : KeepNewest (α × α)) (q : KeepNewest α) : Prop where
  contents : q.contents = frameSamples frames.contents
  popped : q.popped = frames.popped.map frameSamples

/-- While whole frames are popped, the queue of samples is one of frames. -/
theorem KeepNewest.OfFrames.step {half : Nat} {frames : KeepNewest (α × α)} {q : KeepNewest α}
    (h : frames.OfFrames q) {op : SpeakerOp α} (hop : ∀ max, op = .pop max → 2 ∣ max) :
    ((keepNewest half).run frames op.frameOps).OfFrames
      ((keepNewest (2 * half)).run q op.queueOps) := by
  cases op with
  | push left right numSamples =>
    refine ⟨?_, h.popped⟩
    show (q.contents ++ AudioOutput.interleave left right 0 numSamples).rtake (2 * half) =
      frameSamples ((frames.contents ++ _).rtake half)
    have hnew : AudioOutput.interleave left right 0 numSamples =
        frameSamples ((List.range' 0 numSamples).map fun i => (left i, right i)) := by
      simp [AudioOutput.interleave, frameSamples, List.flatMap_map]
    rw [hnew, h.contents, ← frameSamples_append, List.rtake, List.rtake, ← drop_frameSamples,
      length_frameSamples, Nat.mul_sub]
  | pop maxSamples =>
    have hhalf : 2 * (maxSamples / 2) = maxSamples := Nat.mul_div_cancel' (hop maxSamples rfl)
    constructor
    · show q.contents.drop maxSamples = frameSamples (frames.contents.drop (maxSamples / 2))
      rw [← drop_frameSamples, hhalf, h.contents]
    · show q.popped ++ [q.contents.take maxSamples] =
        (frames.popped ++ [frames.contents.take (maxSamples / 2)]).map frameSamples
      rw [List.map_append, h.popped, h.contents]
      simp only [List.map_cons, List.map_nil]
      rw [← take_frameSamples, hhalf]
  | clear => exact ⟨rfl, h.popped⟩

theorem KeepNewest.OfFrames.run {half : Nat} {ops : List (SpeakerOp α)}
    (hops : ∀ max, .pop max ∈ ops → 2 ∣ max) {frames : KeepNewest (α × α)} {q : KeepNewest α}
    (h : frames.OfFrames q) :
    ((keepNewest half).run frames (ops.flatMap SpeakerOp.frameOps)).OfFrames
      ((keepNewest (2 * half)).run q (ops.flatMap SpeakerOp.queueOps)) := by
  induction ops generalizing frames q with
  | nil => exact h
  | cons op ops ih =>
    simp only [List.flatMap_cons, Machine.run_append]
    apply ih
    · intro max hmem
      exact hops max (List.mem_cons_of_mem _ hmem)
    · apply KeepNewest.OfFrames.step h
      rintro max rfl
      exact hops max List.mem_cons_self

/-! ### The four queues -/

/-- Each of the four rings, of whatever capacity and through whatever
    pushes, pops and clears, is the queue that keeps the newest; and while
    whole frames are popped, the speaker ring is such a queue of frames. -/
theorem sample_queues_keep_newest {capacity : Nat} (hpos : 0 < capacity) (slots : Nat → α)
    (encode scale : σ → α) (convert : σ → σ → α) :
    (2 ∣ capacity → ∀ ops : List (SpeakerOp α),
      let s := speakerQueue.run (CountedRing.start capacity slots) ops
      s.Refines capacity ((keepNewest capacity).run .empty (ops.flatMap SpeakerOp.queueOps)) ∧
      ((∀ max, .pop max ∈ ops → 2 ∣ max) →
        let frames := (keepNewest (capacity / 2)).run .empty (ops.flatMap SpeakerOp.frameOps)
        s.ring.contents = frameSamples frames.contents ∧
          s.popped = frames.popped.map frameSamples)) ∧
    (∀ ops : List (WavOp σ),
      ((wavQueue encode).run (CountedRing.start capacity slots) ops).Refines capacity
        ((keepNewest capacity).run .empty (ops.flatMap (WavOp.queueOps encode)))) ∧
    (∀ ops : List (MpxOp σ),
      ((mpxQueue scale).run (CountedRing.start capacity slots) ops).Refines capacity
        ((keepNewest capacity).run .empty (ops.flatMap (MpxOp.queueOps scale)))) ∧
    (∀ ops : List (SDRplayOp σ),
      ((sdrplayQueue convert).run (FlagRing.start capacity slots) ops).counted.Refines capacity
        ((keepNewest capacity).run .empty (ops.flatMap (SDRplayOp.queueOps convert)))) := by
  have hstart := Popping.Refines.start hpos slots
  refine ⟨?_, ?_, ?_, ?_⟩
  · intro heven ops s
    have hs := Machine.run_simulation (speakerQueue_step hpos heven) hstart ops
    refine ⟨hs, ?_⟩
    intro hops frames
    have hframes : frames.OfFrames ((keepNewest (2 * (capacity / 2))).run .empty
        (ops.flatMap SpeakerOp.queueOps)) := KeepNewest.OfFrames.run hops ⟨rfl, rfl⟩
    rw [Nat.mul_div_cancel' heven] at hframes
    exact ⟨hs.contents.trans hframes.contents, hs.popped.trans hframes.popped⟩
  · exact Machine.run_simulation (wavQueue_step hpos encode) hstart
  · exact Machine.run_simulation (mpxQueue_step hpos scale) hstart
  · intro ops
    have hflag : (FlagRing.start capacity slots).FlagRefines capacity .empty :=
      ⟨⟨hpos, hpos, fun _ => rfl⟩, by simpa [Popping.counted, FlagRing.start, FlagRing.counted,
        FlagRing.available, CountedRing.start] using hstart⟩
    exact (Machine.run_simulation (sdrplayQueue_step convert) hflag ops).counted

/-- An input longer than a ring that is not empty: the last four of the
    samples are kept, and returned oldest first. -/
theorem sample_queues_oversized :
    ((wavQueue id).run (CountedRing.start 4 id)
      [.enqueue true 1 id 3, .enqueue true 1 id 6]).ring.contents = [2, 3, 4, 5] :=
  ((sample_queues_keep_newest (show 0 < 4 by decide) id id id fun i _ => i).2.1
    [.enqueue true 1 id 3, .enqueue true 1 id 6]).contents

end FmSdrTuner
