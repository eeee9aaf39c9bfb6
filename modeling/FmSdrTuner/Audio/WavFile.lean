import FmSdrTuner.Audio.SampleQueues

/-! # WAV files

    `WavWriter` and `AudioOutput` each have a thread that takes chunks of
    samples from a ring and writes them behind the header of a file; the
    header is written again, with the final sizes, when the file is closed.
    The sizes are 32 bit wide, those that are compared with them 64 bit.

    The counter and the payload move together: after any chunks, and
    whatever the file system does, the counter is twice the number of
    samples written, below the limit of the format, and a failure ends the
    capture for good. -/

namespace FmSdrTuner

variable {α : Type*}

/-! ### The file -/

/-- The fields of the 44 bytes in front of the samples. -/
structure WavHeader where
  fileSize : UInt32
  fmtSize : UInt32
  audioFormat : UInt16
  numChannels : UInt16
  sampleRate : UInt32
  byteRate : UInt32
  blockAlign : UInt16
  bitsPerSample : UInt16
  dataSize : UInt32
  deriving DecidableEq, Repr

/-- What both classes keep about a capture, and the file: its header,
    unless writing it failed halfway, and the samples behind it. -/
structure WavCapture (α : Type*) where
  handle : Bool
  fatalError : Bool
  dataSize : UInt32
  header : Option WavHeader
  payload : List α

/-- An array of 16-bit samples: its size in bytes is a `size_t`. -/
structure WavChunk (α : Type*) where
  samples : List α
  fits : samples.length * 2 < 2 ^ 64

/-- How writing a header can end. -/
inductive HeaderWrite where
  | complete
  | seekFailed
  | cutShort

namespace WavCapture

/-- `static_cast<size_t>(UINT32_MAX) - 36u - m_dataSize`. -/
def maxBytes (s : WavCapture α) : UInt64 := 4294967295 - 36 - s.dataSize.toUInt64

/-- `sampleCount * sizeof(int16_t)`. -/
def wantBytes (chunk : WavChunk α) : UInt64 := UInt64.ofNat chunk.samples.length * 2

/-- What `fwrite` returns if the file still takes `room` samples. -/
def written (chunk : WavChunk α) (room : Nat) : Nat := min room chunk.samples.length

/-- `WavWriter::writeData` and `AudioOutput::writeWAVData`. -/
def writeSamples (s : WavCapture α) (chunk : WavChunk α) (room : Nat) : Bool × WavCapture α :=
  if !s.handle || chunk.samples.isEmpty then (false, s)
  else if s.fatalError then (false, s)
  -- nothing of a chunk is written that the format cannot hold
  else if s.maxBytes < wantBytes chunk then (false, { s with fatalError := true })
  else
    -- what was written counts, even if it is not the whole chunk
    let written := written chunk room
    let s := { s with
      payload := s.payload ++ chunk.samples.take written
      dataSize := s.dataSize + UInt32.ofNat written * 2 }
    if written ≠ chunk.samples.length then (false, { s with fatalError := true })
    else (true, s)

/-- Write a header in front of the samples. -/
def putHeader (s : WavCapture α) (header : WavHeader) : HeaderWrite → Bool × WavCapture α
  | .complete => (s.handle, if s.handle then { s with header := some header } else s)
  | .seekFailed => (false, s)
  | .cutShort => (false, if s.handle then { s with header := none } else s)

end WavCapture

/-! ### The two classes -/

namespace WavWriter

def BITS_PER_SAMPLE : Nat := 16

def kWriterChunkSamples : Nat := 8192

/-- The fields `writeHeader` writes; a stream that cannot be patched later
    gets the greatest sizes there are. -/
def headerFields (sampleRate : UInt32) (channels : UInt16) (seekable : Bool)
    (s : WavCapture α) : WavHeader where
  fileSize := if seekable then 36 + s.dataSize else 0xFFFFFFFF
  fmtSize := 16
  audioFormat := 1
  numChannels := channels
  sampleRate := sampleRate
  byteRate := sampleRate * channels.toUInt32 * 16 / 8
  blockAlign := UInt16.ofNat (channels.toNat * BITS_PER_SAMPLE / 8)
  bitsPerSample := UInt16.ofNat BITS_PER_SAMPLE
  dataSize := if seekable then s.dataSize else 0xFFFFFFFF

/-- `WavWriter::writeData`. -/
def writeData (s : WavCapture α) (chunk : WavChunk α) (room : Nat) : Bool × WavCapture α :=
  s.writeSamples chunk room

/-- `WavWriter::shutdown`, when the thread has ended. -/
def shutdown (sampleRate : UInt32) (channels : UInt16) (seekable : Bool) (s : WavCapture α)
    (outcome : HeaderWrite) : WavCapture α :=
  if !s.handle then s
  else
    let s := if seekable then
        (s.putHeader (headerFields sampleRate channels seekable s) outcome).2
      else s
    { s with handle := false }

end WavWriter

namespace AudioOutput

def SAMPLE_RATE : Nat := 48000

def BITS_PER_SAMPLE : Nat := 16

def FRAMES_PER_BUFFER : Nat := 4096

/-- The fields `writeWAVHeader` writes. -/
def wavHeaderFields (s : WavCapture α) : WavHeader where
  fileSize := 36 + s.dataSize
  fmtSize := 16
  audioFormat := 1
  numChannels := UInt16.ofNat CHANNELS
  sampleRate := UInt32.ofNat SAMPLE_RATE
  byteRate := UInt32.ofNat (SAMPLE_RATE * CHANNELS * BITS_PER_SAMPLE / 8)
  blockAlign := UInt16.ofNat (CHANNELS * BITS_PER_SAMPLE / 8)
  bitsPerSample := UInt16.ofNat BITS_PER_SAMPLE
  dataSize := s.dataSize

/-- `AudioOutput::writeWAVData`. -/
def writeWAVData (s : WavCapture α) (chunk : WavChunk α) (room : Nat) : Bool × WavCapture α :=
  s.writeSamples chunk room

/-- `AudioOutput::closeWAV`, when the thread has ended. -/
def closeWAV (s : WavCapture α) (outcome : HeaderWrite) : WavCapture α :=
  if !s.handle then s
  else { (s.putHeader (wavHeaderFields s) outcome).2 with handle := false }

end AudioOutput

/-- Whose file it is. -/
inductive WavOwner where
  | wavWriter (sampleRate : UInt32) (channels : UInt16) (seekable : Bool)
  | audioOutput

namespace WavOwner

/-- A file that is not seekable keeps the header it was opened with; that
    of `AudioOutput` is opened as a regular file. -/
def seekable : WavOwner → Bool
  | .wavWriter _ _ seekable => seekable
  | .audioOutput => true

def headerFields : WavOwner → WavCapture α → WavHeader
  | .wavWriter sampleRate channels seekable =>
      WavWriter.headerFields sampleRate channels seekable
  | .audioOutput => AudioOutput.wavHeaderFields

def writeData : WavOwner → WavCapture α → WavChunk α → Nat → Bool × WavCapture α
  | .wavWriter _ _ _ => WavWriter.writeData
  | .audioOutput => AudioOutput.writeWAVData

def close : WavOwner → WavCapture α → HeaderWrite → WavCapture α
  | .wavWriter sampleRate channels seekable => WavWriter.shutdown sampleRate channels seekable
  | .audioOutput => AudioOutput.closeWAV

/-- The length of the thread's `localBuffer`. -/
def bufferSize : WavOwner → Nat
  | .wavWriter _ _ _ => WavWriter.kWriterChunkSamples
  | .audioOutput => AudioOutput.FRAMES_PER_BUFFER * AudioOutput.CHANNELS

/-- A file that was just opened: `WavWriter::init`, `AudioOutput::initWAV`. -/
def opened (u : WavOwner) : WavCapture α :=
  let s : WavCapture α := ⟨true, false, 0, none, []⟩
  (s.putHeader (u.headerFields s) .complete).2

/-- A call of `writeData`, with what `fwrite` makes of it. -/
def calls (u : WavOwner) : Machine (WavCapture α) (WavChunk α × Nat) where
  step s call := (u.writeData s call.1 call.2).2

end WavOwner

/-! ### The thread -/

/-- The thread between its ring and its file. `running` is what `shutdown`
    clears, `looping` says that the thread has not left its loop. -/
structure WavThread (α : Type*) where
  ring : CountedRing α
  running : Bool
  looping : Bool
  capture : WavCapture α
  /-- What the thread has taken from the ring so far. -/
  dequeued : List α

/-- What happens: samples are pushed onto the ring, the thread makes one
    pass of its loop, or it is told to stop. -/
inductive WavThreadOp (α : Type*) where
  | push (samples : List α)
  | pass (room : Nat)
  | stop

theorem CountedRing.length_pop_le (r : CountedRing α) (max : Nat) :
    (r.pop max).1.length ≤ max := by
  have hread (n : Nat) (r : CountedRing α) : (r.readMany n).1.length = n := by
    induction n generalizing r with
    | zero => rfl
    | succ n ih => exact congrArg (· + 1) (ih _)
  show ((r.readMany (min max r.size)).1).length ≤ max
  rw [hread]
  exact Nat.min_le_left _ _

namespace WavOwner

theorem bufferSize_le (u : WavOwner) : u.bufferSize ≤ 8192 := by
  cases u with
  | wavWriter _ _ _ => exact Nat.le_refl 8192
  | audioOutput => exact Nat.le_refl 8192

/-- What one pass takes, as the array it is. -/
def taken (u : WavOwner) (r : CountedRing α) : WavChunk α where
  samples := (WavWriter.takeChunk r u.bufferSize).1
  fits := by
    have hlength := r.length_pop_le u.bufferSize
    have hbuffer := u.bufferSize_le
    show (r.pop u.bufferSize).1.length * 2 < 2 ^ 64
    omega

/-- One pass of `runWriterThread`, `runWavWriterThread`. The buffer is
    local to the thread, so that taking a chunk and writing it is a single
    step for everyone else. -/
def pass (u : WavOwner) (t : WavThread α) (room : Nat) : WavThread α :=
  if !t.looping then t
  -- it ends when it is told to, but not before the ring is empty
  else if !t.running && t.ring.size = 0 then { t with looping := false }
  else if t.ring.size = 0 then t
  else
    let chunk := u.taken t.ring
    let result := u.writeData t.capture chunk room
    { t with
      ring := (WavWriter.takeChunk t.ring u.bufferSize).2
      dequeued := t.dequeued ++ chunk.samples
      capture := result.2
      -- a call that fails is the last one
      looping := result.1 }

def thread (u : WavOwner) : Machine (WavThread α) (WavThreadOp α) where
  step t
    | .push samples => { t with ring := t.ring.push samples }
    | .pass room => u.pass t room
    | .stop => { t with running := false }

/-- The thread when it is started, with an empty ring. -/
def started (u : WavOwner) (capacity : Nat) (slots : Nat → α) : WavThread α :=
  ⟨⟨capacity, slots, 0, 0, 0⟩, true, true, u.opened, []⟩

end WavOwner

/-! ### The counter -/

namespace WavCapture

variable {s : WavCapture α}

/-- The counter is the size of the payload, and below the limit. -/
structure Consistent (s : WavCapture α) : Prop where
  dataSize_eq : s.dataSize.toNat = 2 * s.payload.length
  dataSize_le : s.dataSize.toNat ≤ 2 ^ 32 - 1 - 36

/-- The subtraction does not underflow. -/
theorem Consistent.maxBytes_toNat (h : s.Consistent) :
    s.maxBytes.toNat = 2 ^ 32 - 1 - 36 - s.dataSize.toNat := by
  have hle := h.dataSize_le
  have hlimit : (4294967295 - 36 : UInt64).toNat = 2 ^ 32 - 1 - 36 := rfl
  unfold maxBytes
  rw [UInt64.toNat_sub_of_le, hlimit, UInt32.toNat_toUInt64]
  rw [UInt64.le_iff_toNat_le, hlimit, UInt32.toNat_toUInt64]
  exact hle

/-- Nor does the size of the whole file. -/
theorem Consistent.fileSize_toNat (h : s.Consistent) :
    (36 + s.dataSize).toNat = 36 + s.dataSize.toNat := by
  have hle := h.dataSize_le
  have hfront : (36 : UInt32).toNat = 36 := rfl
  rw [UInt32.toNat_add, hfront]
  omega

theorem wantBytes_toNat (chunk : WavChunk α) :
    (wantBytes chunk).toNat = 2 * chunk.samples.length := by
  have hfits := chunk.fits
  have hlength : (UInt64.ofNat chunk.samples.length).toNat = chunk.samples.length := by
    rw [UInt64.toNat_ofNat']
    exact Nat.mod_eq_of_lt (by omega)
  have htwo : (2 : UInt64).toNat = 2 := rfl
  unfold wantBytes
  rw [UInt64.toNat_mul, hlength, htwo, Nat.mod_eq_of_lt hfits, Nat.mul_comm]

theorem written_le (chunk : WavChunk α) (room : Nat) : written chunk room ≤ chunk.samples.length :=
  Nat.min_le_right _ _

/-- A chunk that passes the comparison leaves the counter in its range. -/
theorem Consistent.dataSize_add (h : s.Consistent) {chunk : WavChunk α} (room : Nat)
    (hpasses : ¬ s.maxBytes < wantBytes chunk) :
    s.dataSize.toNat + 2 * written chunk room ≤ 2 ^ 32 - 1 - 36 ∧
      (s.dataSize + UInt32.ofNat (written chunk room) * 2).toNat =
        s.dataSize.toNat + 2 * written chunk room := by
  have hle := h.dataSize_le
  have hwritten := written_le chunk room
  have hroom : 2 * chunk.samples.length ≤ 2 ^ 32 - 1 - 36 - s.dataSize.toNat := by
    rw [← wantBytes_toNat, ← h.maxBytes_toNat]
    exact UInt64.le_iff_toNat_le.mp (UInt64.not_lt.mp hpasses)
  have htwo : (2 : UInt32).toNat = 2 := rfl
  refine ⟨by omega, ?_⟩
  rw [UInt32.toNat_add, UInt32.toNat_mul, UInt32.toNat_ofNat', htwo]
  omega

/-- What a call does: nothing, or it gives up, or it writes and counts. -/
theorem writeSamples_cases (s : WavCapture α) (chunk : WavChunk α) (room : Nat) :
    (s.writeSamples chunk room = (false, s) ∧
        (s.handle = false ∨ chunk.samples = [] ∨ s.fatalError = true)) ∨
      s.writeSamples chunk room = (false, { s with fatalError := true }) ∨
      (¬ s.maxBytes < wantBytes chunk ∧
        ∃ failed : Bool, (failed = false → written chunk room = chunk.samples.length) ∧
          s.fatalError = false ∧
          s.writeSamples chunk room = (!failed, { s with
            fatalError := failed
            payload := s.payload ++ chunk.samples.take (written chunk room)
            dataSize := s.dataSize + UInt32.ofNat (written chunk room) * 2 })) := by
  unfold writeSamples
  split
  · next hnone =>
    refine Or.inl ⟨rfl, ?_⟩
    rcases Bool.or_eq_true _ _ ▸ hnone with hhandle | hempty
    · exact Or.inl (by simpa using hhandle)
    · exact Or.inr (Or.inl (List.isEmpty_iff.mp hempty))
  · split
    · next hfatal => exact Or.inl ⟨rfl, Or.inr (Or.inr hfatal)⟩
    · next hfatal =>
      have hfatal' : s.fatalError = false := Bool.eq_false_iff.mpr hfatal
      split
      · exact Or.inr (Or.inl rfl)
      · next hpasses =>
        refine Or.inr (Or.inr ⟨hpasses, ?_⟩)
        by_cases hall : written chunk room = chunk.samples.length
        · exact ⟨false, fun _ => hall, hfatal', by simp [hall, hfatal']⟩
        · exact ⟨true, nofun, hfatal', by simp [hall]⟩

theorem Consistent.writeSamples (h : s.Consistent) (chunk : WavChunk α) (room : Nat) :
    (s.writeSamples chunk room).2.Consistent := by
  rcases s.writeSamples_cases chunk room with ⟨heq, -⟩ | heq | ⟨hpasses, failed, -, -, heq⟩
  · rw [heq]
    exact h
  · rw [heq]
    exact ⟨h.dataSize_eq, h.dataSize_le⟩
  · obtain ⟨hle, hadd⟩ := h.dataSize_add room hpasses
    have hwritten := written_le chunk room
    rw [heq]
    refine ⟨?_, ?_⟩
    · show (s.dataSize + UInt32.ofNat (written chunk room) * 2).toNat =
        2 * (s.payload ++ chunk.samples.take (written chunk room)).length
      rw [hadd, h.dataSize_eq, List.length_append, List.length_take]
      omega
    · show (s.dataSize + UInt32.ofNat (written chunk room) * 2).toNat ≤ _
      rw [hadd]
      exact hle

/-! ### The payload -/

/-- The file is open, and of the samples offered so far it has a first
    part, or all as long as nothing failed. -/
structure Follows (s : WavCapture α) (offered : List α) : Prop where
  handle_eq : s.handle = true
  whole : s.fatalError = false → s.payload = offered
  front : s.payload <+: offered

theorem Follows.writeSamples {offered : List α} (h : s.Follows offered) (chunk : WavChunk α)
    (room : Nat) : (s.writeSamples chunk room).2.Follows (offered ++ chunk.samples) := by
  have hlonger : s.payload <+: offered ++ chunk.samples :=
    h.front.trans (List.prefix_append _ _)
  rcases s.writeSamples_cases chunk room with ⟨heq, hwhy⟩ | heq | ⟨-, failed, hall, hok, heq⟩
  · rw [heq]
    refine ⟨h.handle_eq, ?_, hlonger⟩
    intro hok
    rcases hwhy with hhandle | hempty | hfatal
    · rw [h.handle_eq] at hhandle
      cases hhandle
    · rw [hempty, List.append_nil]
      exact h.whole hok
    · rw [hok] at hfatal
      cases hfatal
  · rw [heq]
    exact ⟨h.handle_eq, nofun, hlonger⟩
  · rw [heq]
    refine ⟨h.handle_eq, ?_, ?_⟩
    · intro hfailed
      show s.payload ++ chunk.samples.take (written chunk room) = _
      rw [hall hfailed, List.take_length, h.whole hok]
    · show s.payload ++ chunk.samples.take (written chunk room) <+: _
      rw [h.whole hok]
      exact (List.prefix_append_right_inj offered).mpr (List.take_prefix _ _)

/-- A chunk that the file and the format have room for is written whole. -/
theorem writeSamples_of_room (h : s.Consistent) (hok : s.fatalError = false)
    {chunk : WavChunk α} {room : Nat} (hroom : chunk.samples.length ≤ room)
    (hlimit : 2 * (s.payload.length + chunk.samples.length) ≤ 2 ^ 32 - 1 - 36) :
    (s.writeSamples chunk room).2.fatalError = false := by
  have hpasses : ¬ s.maxBytes < wantBytes chunk := by
    rw [UInt64.lt_iff_toNat_lt, h.maxBytes_toNat, wantBytes_toNat, h.dataSize_eq]
    omega
  have hall : written chunk room = chunk.samples.length := Nat.min_eq_right hroom
  unfold writeSamples
  rw [hok, if_neg hpasses]
  split
  · exact hok
  · simp [hall]

/-- A call that fails on an open file sets the flag. -/
theorem writeSamples_failed {chunk : WavChunk α} {room : Nat} (hhandle : s.handle = true)
    (hsome : chunk.samples ≠ []) (hfailed : (s.writeSamples chunk room).1 = false) :
    (s.writeSamples chunk room).2.fatalError = true := by
  rcases s.writeSamples_cases chunk room with ⟨heq, hwhy⟩ | heq | ⟨-, failed, -, -, heq⟩
  · rw [heq]
    rcases hwhy with hclosed | hempty | hfatal
    · rw [hhandle] at hclosed
      cases hclosed
    · exact absurd hempty hsome
    · exact hfatal
  · rw [heq]
  · rw [heq] at hfailed ⊢
    simpa using hfailed

theorem writeSamples_of_fatal (h : s.fatalError = true) (chunk : WavChunk α) (room : Nat) :
    (s.writeSamples chunk room).2 = s := by
  unfold writeSamples
  split <;> rfl

end WavCapture

/-! ### Whole captures -/

namespace WavOwner

open WavCapture

variable {u : WavOwner}

theorem writeData_eq (u : WavOwner) (s : WavCapture α) (chunk : WavChunk α) (room : Nat) :
    u.writeData s chunk room = s.writeSamples chunk room := by
  cases u <;> rfl

theorem calls_step (u : WavOwner) (s : WavCapture α) (call : WavChunk α × Nat) :
    u.calls.step s call = (s.writeSamples call.1 call.2).2 :=
  congrArg Prod.snd (u.writeData_eq s call.1 call.2)

theorem opened_consistent (u : WavOwner) : (u.opened : WavCapture α).Consistent :=
  ⟨rfl, Nat.zero_le _⟩

theorem opened_follows (u : WavOwner) : (u.opened : WavCapture α).Follows [] :=
  ⟨rfl, fun _ => rfl, List.prefix_refl []⟩

theorem run_consistent {s : WavCapture α} (h : s.Consistent) (calls : List (WavChunk α × Nat)) :
    (u.calls.run s calls).Consistent := by
  have hstep : ∀ (s : WavCapture α) call, s.Consistent → (u.calls.step s call).Consistent := by
    intro s call hs
    rw [calls_step]
    exact hs.writeSamples call.1 call.2
  exact Machine.run_invariant_always hstep calls h

theorem run_follows {s : WavCapture α} {offered : List α} (h : s.Follows offered)
    (calls : List (WavChunk α × Nat)) :
    (u.calls.run s calls).Follows (offered ++ calls.flatMap fun call => call.1.samples) := by
  induction calls generalizing s offered with
  | nil => simpa using h
  | cons call calls ih =>
    rw [Machine.run_cons, calls_step, List.flatMap_cons, ← List.append_assoc]
    exact ih (h.writeSamples call.1 call.2)

/-- Nothing fails as long as there is room. -/
theorem run_of_room {s : WavCapture α} {offered : List α} (h : s.Consistent)
    (hfollows : s.Follows offered) (hok : s.fatalError = false) {calls : List (WavChunk α × Nat)}
    (hroom : ∀ call ∈ calls, call.1.samples.length ≤ call.2)
    (hlimit : 2 * (offered ++ calls.flatMap fun call => call.1.samples).length ≤
      2 ^ 32 - 1 - 36) :
    (u.calls.run s calls).fatalError = false := by
  induction calls generalizing s offered with
  | nil => exact hok
  | cons call calls ih =>
    rw [List.flatMap_cons, ← List.append_assoc] at hlimit
    -- while nothing has failed the payload is all that was offered so far
    have hhere : 2 * (s.payload.length + call.1.samples.length) ≤ 2 ^ 32 - 1 - 36 := by
      rw [hfollows.whole hok]
      simp only [List.length_append] at hlimit
      omega
    rw [Machine.run_cons, calls_step]
    exact ih (h.writeSamples call.1 call.2) (hfollows.writeSamples call.1 call.2)
      (writeSamples_of_room h hok (hroom call List.mem_cons_self) hhere)
      (fun c hc => hroom c (List.mem_cons_of_mem _ hc)) hlimit

/-- After a failure nothing changes any more. -/
theorem run_of_fatal {s : WavCapture α} (h : s.fatalError = true)
    (calls : List (WavChunk α × Nat)) : u.calls.run s calls = s := by
  induction calls with
  | nil => rfl
  | cons call calls ih =>
    rw [Machine.run_cons, calls_step, writeSamples_of_fatal h]
    exact ih

/-- The header a seekable file is closed with. -/
theorem close_header {s : WavCapture α} (hhandle : s.handle = true)
    (hseekable : u.seekable = true) :
    ∃ header, (u.close s .complete).header = some header ∧ header.dataSize = s.dataSize ∧
      header.fileSize = 36 + s.dataSize := by
  cases u with
  | wavWriter sampleRate channels seekable =>
    have hseek : seekable = true := hseekable
    subst hseek
    refine ⟨WavWriter.headerFields sampleRate channels true s, ?_, rfl, rfl⟩
    simp [close, WavWriter.shutdown, putHeader, hhandle]
  | audioOutput =>
    refine ⟨AudioOutput.wavHeaderFields s, ?_, rfl, rfl⟩
    simp [close, AudioOutput.closeWAV, putHeader, hhandle]

/-- The thread makes calls with the chunks it takes, in their order. -/
theorem thread_calls (capacity : Nat) (slots : Nat → α) (ops : List (WavThreadOp α)) :
    ∃ calls, (u.thread.run (u.started capacity slots) ops).capture = u.calls.run u.opened calls ∧
      (calls.flatMap fun call => call.1.samples) =
        (u.thread.run (u.started capacity slots) ops).dequeued := by
  apply @Machine.run_invariant_always _ _ u.thread fun t => ∃ calls,
    t.capture = u.calls.run u.opened calls ∧
      (calls.flatMap fun call => call.1.samples) = t.dequeued
  swap
  · exact ⟨[], rfl, rfl⟩
  rintro t op ⟨calls, hcapture, hdequeued⟩
  cases op with
  | push samples => exact ⟨calls, hcapture, hdequeued⟩
  | stop => exact ⟨calls, hcapture, hdequeued⟩
  | pass room =>
    show ∃ calls, (u.pass t room).capture = _ ∧ _ = (u.pass t room).dequeued
    unfold pass
    split
    · exact ⟨calls, hcapture, hdequeued⟩
    · split
      · exact ⟨calls, hcapture, hdequeued⟩
      · split
        · exact ⟨calls, hcapture, hdequeued⟩
        · refine ⟨calls ++ [(u.taken t.ring, room)], ?_, ?_⟩
          · rw [Machine.run_append, ← hcapture]
            rfl
          · rw [List.flatMap_append, hdequeued]
            simp

/-- A thread that has left its loop writes nothing more. -/
theorem thread_ended {t : WavThread α} (h : t.looping = false) (ops : List (WavThreadOp α)) :
    (u.thread.run t ops).capture = t.capture := by
  have hstep : ∀ (t' : WavThread α) op, t'.looping = false ∧ t'.capture = t.capture →
      (u.thread.step t' op).looping = false ∧ (u.thread.step t' op).capture = t.capture := by
    rintro t' op ⟨hended, hcapture⟩
    cases op with
    | push samples => exact ⟨hended, hcapture⟩
    | stop => exact ⟨hended, hcapture⟩
    | pass room =>
      have hpass : u.thread.step t' (.pass room) = t' := by
        show u.pass t' room = t'
        unfold pass
        rw [hended]
        rfl
      rw [hpass]
      exact ⟨hended, hcapture⟩
  exact (Machine.run_invariant_always hstep ops ⟨h, rfl⟩).2

end WavOwner

section captures
open WavCapture

/-- Both classes, over any calls and any outcomes of `fwrite`: the counter
    is twice the number of samples written and below the limit, neither the
    subtraction nor the addition wraps, a failure is the end, the payload
    is a first part of what was offered, and all of it while nothing has
    failed, as nothing does while there is room, and the header of a
    seekable file that is closed has the two sizes. The calls are those of
    the thread with what it takes from its ring, and end when it leaves its
    loop. -/
theorem wav_capture (u : WavOwner) :
    (∀ calls : List (WavChunk α × Nat),
      let s : WavCapture α := u.calls.run u.opened calls
      s.dataSize.toNat = 2 * s.payload.length ∧ s.dataSize.toNat ≤ 2 ^ 32 - 1 - 36 ∧
      s.maxBytes.toNat + s.dataSize.toNat = 2 ^ 32 - 1 - 36 ∧
      (∀ (chunk : WavChunk α) room, ¬ s.maxBytes < wantBytes chunk →
        s.dataSize.toNat + 2 * written chunk room < 2 ^ 32) ∧
      (∀ (chunk : WavChunk α) room later, chunk.samples ≠ [] →
        (u.writeData s chunk room).1 = false →
        u.calls.run (u.writeData s chunk room).2 later = (u.writeData s chunk room).2) ∧
      s.payload <+: (calls.flatMap fun call => call.1.samples) ∧
      (s.fatalError = false → s.payload = calls.flatMap fun call => call.1.samples) ∧
      ((∀ call ∈ calls, call.1.samples.length ≤ call.2) →
        2 * (calls.flatMap fun call => call.1.samples).length ≤ 2 ^ 32 - 1 - 36 →
        s.fatalError = false) ∧
      (u.seekable = true → ∃ header, (u.close s .complete).header = some header ∧
        header.dataSize = s.dataSize ∧ header.fileSize.toNat = 36 + s.dataSize.toNat)) ∧
    ∀ capacity slots (ops : List (WavThreadOp α)),
      let t := u.thread.run (u.started capacity slots) ops
      (∃ calls, t.capture = u.calls.run u.opened calls ∧
        (calls.flatMap fun call => call.1.samples) = t.dequeued) ∧
      t.capture.payload <+: t.dequeued ∧
      (t.looping = false → ∀ later, (u.thread.run t later).capture = t.capture) := by
  have hcalls (calls : List (WavChunk α × Nat)) :
      (u.calls.run u.opened calls).payload <+: (calls.flatMap fun call => call.1.samples) :=
    (WavOwner.run_follows u.opened_follows calls).front
  constructor
  · intro calls s
    have hconsistent : s.Consistent := WavOwner.run_consistent u.opened_consistent calls
    have hfollows := WavOwner.run_follows u.opened_follows (u := u) calls
    have hle := hconsistent.dataSize_le
    refine ⟨hconsistent.dataSize_eq, hle, ?_, ?_, ?_, hcalls calls, hfollows.whole, ?_, ?_⟩
    · rw [hconsistent.maxBytes_toNat]
      omega
    · intro chunk room hpasses
      have hnext := (hconsistent.dataSize_add room hpasses).1
      omega
    · -- a failed write closes the file, and every later call returns at once
      intro chunk room later hsome hfailed
      rw [WavOwner.writeData_eq] at hfailed ⊢
      exact WavOwner.run_of_fatal
        (writeSamples_failed hfollows.handle_eq hsome hfailed) later
    · intro hroom hlimit
      exact WavOwner.run_of_room u.opened_consistent u.opened_follows rfl hroom hlimit
    · intro hseekable
      obtain ⟨header, hheader, hdata, hfile⟩ :=
        WavOwner.close_header hfollows.handle_eq hseekable
      refine ⟨header, hheader, hdata, ?_⟩
      rw [hfile]
      exact hconsistent.fileSize_toNat
  · -- the thread makes some calls of `writeData`, so the first part applies to it
    intro capacity slots ops t
    obtain ⟨calls, hcapture, hdequeued⟩ := WavOwner.thread_calls (u := u) capacity slots ops
    refine ⟨⟨calls, hcapture, hdequeued⟩, ?_, WavOwner.thread_ended⟩
    show t.capture.payload <+: t.dequeued
    rw [← hdequeued]
    show (u.thread.run (u.started capacity slots) ops).capture.payload <+: _
    rw [hcapture]
    exact hcalls calls

/-- Two chunks that are taken whole, one that is cut short, and one that
    comes too late. -/
theorem capture_cut_short :
    let u : WavOwner := .wavWriter 48000 2 true
    let two : List (WavChunk Nat × Nat) := [(⟨[1, 2], by decide⟩, 9), (⟨[3, 4], by decide⟩, 7)]
    let all := two ++ [(⟨[5, 6], by decide⟩, 1), (⟨[7, 8], by decide⟩, 9)]
    (u.calls.run u.opened two).payload = [1, 2, 3, 4] ∧
      (u.calls.run u.opened all).payload = [1, 2, 3, 4, 5] ∧
      (u.calls.run u.opened all).dataSize.toNat = 10 ∧
      ∃ header, (u.close (u.calls.run u.opened all) .complete).header = some header ∧
        header.dataSize = (u.calls.run u.opened all).dataSize ∧
        header.fileSize.toNat = 46 := by
  intro u two all
  obtain ⟨-, -, -, -, -, -, hwhole, hfails, -⟩ := (wav_capture u).1 two
  obtain ⟨hsize, -, -, -, -, -, -, -, hclose⟩ := (wav_capture u).1 all
  have hpayload : (u.calls.run u.opened all).payload = [1, 2, 3, 4, 5] := by decide
  rw [hpayload] at hsize
  refine ⟨hwhole (hfails (by decide) (by decide)), hpayload, hsize, ?_⟩
  obtain ⟨header, hheader, hdata, hfile⟩ := hclose rfl
  exact ⟨header, hheader, hdata, by rw [hfile, hsize]; rfl⟩

end captures

end FmSdrTuner
