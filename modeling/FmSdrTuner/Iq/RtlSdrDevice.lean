import FmSdrTuner.Framework.KeepNewest

/-! # RTLSDRDevice: the IQ ring

    The driver's callback writes IQ bytes into a ring of 4 MiB, byte by
    byte, and overwrites the oldest when the reader is late; `readIQ`
    copies them out, in low-latency mode after skipping a backlog, and
    `flushBuffers` forgets them. `IqStream` says what this is for: every
    byte delivered has one fate, the fates are in the order of delivery,
    and what has none yet is in the ring. -/

namespace FmSdrTuner

/-! ### The ring -/

/-- A buffer of the driver: whole IQ pairs. -/
structure IqBuffer where
  bytes : List UInt8
  even : 2 ∣ bytes.length

namespace RTLSDRDevice

def kIqRingBytes : Nat := 4 * 1024 * 1024

/-- `if (++pos >= ringSize) pos = 0`. -/
def nextPos (ringSize pos : Nat) : Nat := if ringSize ≤ pos + 1 then 0 else pos + 1

/-- The body of the loop of `asyncCallback`. -/
def deliverByte (r : FlagRing UInt8) (byte : UInt8) : FlagRing UInt8 :=
  let writePos := nextPos r.capacity r.writePos
  let readPos := if r.full then nextPos r.capacity r.readPos else r.readPos
  { r with
    slots := Function.update r.slots r.writePos byte
    writePos := writePos
    readPos := readPos
    full := decide (writePos = readPos) }

/-- `RTLSDRDevice::asyncCallback`. -/
def asyncCallback (r : FlagRing UInt8) (buf : List UInt8) : FlagRing UInt8 :=
  if buf.isEmpty || r.capacity = 0 then r else buf.foldl deliverByte r

/-- `RTLSDRDevice::flushBuffers`. -/
def flushBuffers (r : FlagRing UInt8) : FlagRing UInt8 :=
  { r with readPos := r.writePos, full := false }

/-- `RTLSDRDevice::availableBytesLocked`. -/
def availableBytesLocked (r : FlagRing UInt8) : Nat :=
  if r.full then r.capacity
  else if r.readPos ≤ r.writePos then r.writePos - r.readPos
  else (r.capacity - r.readPos) + r.writePos

/-- The copy loop of `readIQ`: up to the end of the ring, then from its
    start. Returns what is copied and the read position. -/
def copyOut (r : FlagRing UInt8) (remaining readPos : Nat) (out : List UInt8) :
    List UInt8 × Nat :=
  let head := r.capacity - readPos
  let chunk := min remaining head
  -- a read position beyond the ring would make the loop spin; there is none
  if _h : chunk = 0 then (out, readPos)
  else
    let copied := out ++ cells (fun i => r.slots (readPos + i)) chunk
    copyOut r (remaining - chunk)
      (if r.capacity ≤ readPos + chunk then 0 else readPos + chunk) copied
termination_by remaining
decreasing_by omega

/-- `requestedBytes`: a `size_t`, and at most 1 MiB. -/
def requestedBytes (maxSamples : Nat) : Nat :=
  min (maxSamples * 2 % 0x10000000000000000) 0x100000

/-- `RTLSDRDevice::readIQ`, from where its wait has ended. -/
def readIQ (r : FlagRing UInt8) (lowLatencyMode : Bool) (maxSamples : Nat) :
    List UInt8 × FlagRing UInt8 :=
  if maxSamples = 0 then ([], r)
  else
    let requested := requestedBytes maxSamples
    let available := availableBytesLocked r
    if available = 0 then ([], r)
    else
      -- `drop &= ~1`
      let drop := if lowLatencyMode && requested < available then
          (available - requested) / 2 * 2 else 0
      let r := if 0 < drop then
          { r with readPos := (r.readPos + drop) % r.capacity, full := false } else r
      let bytesToRead := min (availableBytesLocked r) requested / 2 * 2
      if bytesToRead = 0 then ([], r)
      else
        let copied := copyOut r bytesToRead r.readPos []
        (copied.1, { r with readPos := copied.2, full := false })

end RTLSDRDevice

/-! ### Runs -/

/-- What happens to the ring, each under its mutex. While a read waits for
    data, for its deadline or for a failure, it holds neither the mutex nor
    anything it read from the ring, so it happens when the wait ends. -/
inductive IqRingOp where
  | deliver (buf : IqBuffer)
  | read (lowLatencyMode : Bool) (maxSamples : Nat)
  | flush

/-- The ring and the blocks that reads returned so far. -/
structure IqRing where
  ring : FlagRing UInt8
  returned : List (List UInt8)

def IqRing.start : IqRing := ⟨⟨RTLSDRDevice.kIqRingBytes, fun _ => 0, 0, 0, false⟩, []⟩

def iqRing : Machine IqRing IqRingOp where
  step s
    | .deliver buf => { s with ring := RTLSDRDevice.asyncCallback s.ring buf.bytes }
    | .read lowLatencyMode maxSamples =>
        let read := RTLSDRDevice.readIQ s.ring lowLatencyMode maxSamples
        ⟨read.2, s.returned ++ [read.1]⟩
    | .flush => { s with ring := RTLSDRDevice.flushBuffers s.ring }

/-! ### The stream -/

/-- What becomes of a delivered byte that is no longer in the ring. -/
inductive IqFate where
  | returned
  | overwritten
  | skipped
  | flushed
  deriving DecidableEq, Repr

/-- Consecutive bytes of the stream with one fate. -/
structure IqSegment where
  fate : IqFate
  bytes : List UInt8

/-- What is held of the stream, and the fates of all bytes before. -/
structure IqStream where
  contents : List UInt8
  log : List IqSegment

/-- How much of the backlog a read skips: nothing, or all but what it asks for. -/
def skippedBytes (held : Nat) (lowLatencyMode : Bool) (maxSamples : Nat) : Nat :=
  if lowLatencyMode && maxSamples ≠ 0 then held - RTLSDRDevice.requestedBytes maxSamples else 0

/-- A stream of which `capacity` bytes can be held. -/
def iqStream (capacity : Nat) : Machine IqStream IqRingOp where
  step s
    | .deliver buf =>
        let all := s.contents ++ buf.bytes
        -- only what there is no room for is overwritten
        let excess := all.length - capacity
        ⟨all.drop excess, s.log ++ [⟨.overwritten, all.take excess⟩]⟩
    | .read lowLatencyMode maxSamples =>
        let skipped := skippedBytes s.contents.length lowLatencyMode maxSamples
        let requested := RTLSDRDevice.requestedBytes maxSamples
        let kept := s.contents.drop skipped
        ⟨kept.drop requested, s.log ++
          [⟨.skipped, s.contents.take skipped⟩, ⟨.returned, kept.take requested⟩]⟩
    | .flush => ⟨[], s.log ++ [⟨.flushed, s.contents⟩]⟩

def IqStream.empty : IqStream := ⟨[], []⟩

/-- The blocks that were returned. -/
def IqStream.returned (s : IqStream) : List (List UInt8) :=
  (s.log.filter fun segment => segment.fate = .returned).map (·.bytes)

def IqRingOp.delivered : IqRingOp → List UInt8
  | .deliver buf => buf.bytes
  | .read _ _ => []
  | .flush => []

/-! ### The ring is the stream's -/

namespace RTLSDRDevice
variable {r : FlagRing UInt8}

theorem nextPos_eq {capacity pos : Nat} (h : pos < capacity) :
    nextPos capacity pos = (pos + 1) % capacity := by
  unfold nextPos
  split
  · next hlast =>
    have heq : pos + 1 = capacity := by omega
    rw [heq, Nat.mod_self]
  · next hinner => exact (Nat.mod_eq_of_lt (by omega)).symm

theorem deliverByte_eq_put (h : r.Layout) (byte : UInt8) : deliverByte r byte = r.put byte := by
  unfold deliverByte FlagRing.put
  rw [nextPos_eq h.readPos_lt, nextPos_eq h.writePos_lt]

theorem asyncCallback_eq (h : r.Layout) (buf : List UInt8) :
    asyncCallback r buf = buf.foldl FlagRing.put r := by
  have hloop : ∀ {r : FlagRing UInt8}, r.Layout →
      buf.foldl deliverByte r = buf.foldl FlagRing.put r := by
    induction buf with
    | nil => exact fun _ => rfl
    | cons byte buf ih =>
      intro r h
      rw [List.foldl_cons, List.foldl_cons, deliverByte_eq_put h]
      exact ih (h.put byte)
  have hpos : ¬r.capacity = 0 := by
    have := h.readPos_lt
    omega
  unfold asyncCallback
  split
  · next hnone =>
    have hempty : buf = [] := by simpa [hpos] using hnone
    rw [hempty]
    rfl
  · exact hloop h

theorem availableBytesLocked_eq (h : r.Layout) : availableBytesLocked r = r.available := by
  have hread := h.readPos_lt
  have hwrite := h.writePos_lt
  unfold availableBytesLocked FlagRing.available
  split
  · rfl
  · split
    · rw [show r.writePos + r.capacity - r.readPos = r.writePos - r.readPos + r.capacity by omega,
        Nat.add_mod_right, Nat.mod_eq_of_lt (by omega)]
    · rw [Nat.mod_eq_of_lt (by omega)]
      omega

/-- The chunks that are copied are, put together, what the ring holds from
    the read position on. -/
theorem copyOut_eq (r : FlagRing UInt8) {remaining readPos : Nat} (h : readPos < r.capacity)
    (out : List UInt8) :
    copyOut r remaining readPos out =
      (out ++ ringCells r.capacity r.slots readPos remaining,
        (readPos + remaining) % r.capacity) := by
  induction remaining using Nat.strong_induction_on generalizing readPos out with
  | _ remaining ih =>
    rw [copyOut]
    simp only
    split
    · next hnone =>
      have hzero : remaining = 0 := by omega
      rw [hzero, Nat.add_zero, Nat.mod_eq_of_lt h]
      exact congrArg (·, readPos) (List.append_nil out).symm
    · next hsome =>
      generalize hchunk : min remaining (r.capacity - readPos) = chunk at hsome ⊢
      -- where the next chunk starts
      have hnext : (if r.capacity ≤ readPos + chunk then 0 else readPos + chunk) =
          (readPos + chunk) % r.capacity := by
        split
        · next hend =>
          rw [show readPos + chunk = r.capacity by omega, Nat.mod_self]
        · exact (Nat.mod_eq_of_lt (by omega)).symm
      have hsplit : ringCells r.capacity r.slots readPos remaining =
          cells (fun i => r.slots (readPos + i)) chunk ++
            ringCells r.capacity r.slots ((readPos + chunk) % r.capacity) (remaining - chunk) := by
        rw [ringCells_advance]
        conv_lhs => rw [ringCells, show remaining = chunk + (remaining - chunk) by omega]
        rw [cells_add]
        congr 1
        refine cells_congr fun i hi => ?_
        rw [Nat.mod_eq_of_lt (by omega)]
      rw [hnext, ih (remaining - chunk) (by omega) (Nat.mod_lt _ (by omega)), hsplit,
        List.append_assoc, Nat.mod_add_mod,
        show readPos + chunk + (remaining - chunk) = readPos + remaining by omega]

theorem two_dvd_requestedBytes (maxSamples : Nat) : 2 ∣ requestedBytes maxSamples := by
  unfold requestedBytes
  omega

theorem skippedBytes_le (held : Nat) (lowLatencyMode : Bool) (maxSamples : Nat) :
    skippedBytes held lowLatencyMode maxSamples ≤ held := by
  unfold skippedBytes
  split <;> omega

theorem two_dvd_skippedBytes {held : Nat} (heven : 2 ∣ held) (lowLatencyMode : Bool)
    (maxSamples : Nat) : 2 ∣ skippedBytes held lowLatencyMode maxSamples := by
  have hrequested := two_dvd_requestedBytes maxSamples
  unfold skippedBytes
  split <;> omega

/-- The backlog is a whole number of IQ pairs, so nothing is rounded off. -/
theorem skippedBytes_eq {held : Nat} (heven : 2 ∣ held) (lowLatencyMode : Bool) {maxSamples : Nat}
    (hsome : maxSamples ≠ 0) :
    (if lowLatencyMode && decide (requestedBytes maxSamples < held) then
      (held - requestedBytes maxSamples) / 2 * 2 else 0) =
      skippedBytes held lowLatencyMode maxSamples := by
  have hrequested := two_dvd_requestedBytes maxSamples
  unfold skippedBytes
  cases lowLatencyMode with
  | false => rfl
  | true =>
    simp only [Bool.true_and, decide_eq_true_eq, hsome, ne_eq, not_false_eq_true, decide_true,
      if_true]
    split <;> omega

/-- Moving the read position on by at least one byte clears the flag. -/
theorem advance_eq {n : Nat} (h : 0 < n) :
    { r with readPos := (r.readPos + n) % r.capacity, full := false } = r.advance n := by
  simp [FlagRing.advance, Nat.ne_of_gt h]

/-- Once the backlog is skipped: the oldest bytes held, up to the number
    that is asked for, are copied. -/
theorem copy_read (h : r.Layout) {n : Nat} (hn : n ≤ r.available) (hpos : 0 < n) :
    ((copyOut r n r.readPos []).1,
      { r with readPos := (copyOut r n r.readPos []).2, full := false }) =
      (r.contents.take n, r.advance n) := by
  rw [copyOut_eq r h.readPos_lt]
  simp only [List.nil_append]
  have htake : r.contents.take n = ringCells r.capacity r.slots r.readPos n := by
    have h := take_ringCells r.capacity r.slots r.readPos r.available n
    rw [Nat.min_eq_left hn] at h
    exact h
  rw [htake, advance_eq hpos]

/-- What a read returns and leaves: it skips a backlog in low-latency mode
    and takes the oldest bytes of the rest. -/
theorem readIQ_spec (h : r.Layout) (heven : 2 ∣ r.available) (lowLatencyMode : Bool)
    (maxSamples : Nat) :
    let skipped := skippedBytes r.available lowLatencyMode maxSamples
    let requested := requestedBytes maxSamples
    let read := readIQ r lowLatencyMode maxSamples
    read.1 = (r.contents.drop skipped).take requested ∧ read.2.Layout ∧
      read.2.capacity = r.capacity ∧
      read.2.contents = (r.contents.drop skipped).drop requested := by
  intro skipped requested
  have hlength := r.length_contents
  unfold readIQ
  split
  · next hzero =>
    -- nothing is asked for
    have hnone : requested = 0 := by
      show requestedBytes maxSamples = 0
      rw [hzero]
      rfl
    have hskip : skipped = 0 := by simp [skipped, skippedBytes, hzero]
    rw [hnone, hskip]
    exact ⟨rfl, h, rfl, rfl⟩
  · next hsome =>
    simp only [availableBytesLocked_eq h]
    split
    · next hempty =>
      have hnil : r.contents = [] := by
        apply List.eq_nil_of_length_eq_zero
        rw [hlength, hempty]
      rw [hnil, List.drop_nil, List.take_nil, List.drop_nil]
      exact ⟨rfl, h, rfl, rfl⟩
    · -- the ring once the backlog is skipped
      have hring : (if 0 < skipped then
          { r with readPos := (r.readPos + skipped) % r.capacity, full := false } else r) =
          r.advance skipped := by
        split
        · next hpos => exact advance_eq hpos
        · next hpos =>
          have hzero : skipped = 0 := by omega
          rw [hzero]
          simp [FlagRing.advance, Nat.mod_eq_of_lt h.readPos_lt]
      rw [skippedBytes_eq heven lowLatencyMode hsome, hring]
      have hskipped : skipped ≤ r.available := skippedBytes_le _ _ _
      obtain ⟨hlayout, hrest, hcontents⟩ := h.advance hskipped
      have hwhole : min (r.advance skipped).available requested / 2 * 2 =
          min (r.advance skipped).available requested := by
        have hrequested : 2 ∣ requested := two_dvd_requestedBytes maxSamples
        have hparity : 2 ∣ skipped := two_dvd_skippedBytes heven lowLatencyMode maxSamples
        rw [hrest]
        omega
      rw [availableBytesLocked_eq hlayout, hwhole, ← hcontents]
      -- taking or dropping more than there is makes no difference
      rw [List.take_eq_take_min, List.drop_eq_drop_min, FlagRing.length_contents,
        Nat.min_comm requested]
      split
      · next hnone =>
        rw [hnone]
        exact ⟨rfl, hlayout, rfl, rfl⟩
      · next hpos =>
        have hle : min (r.advance skipped).available requested ≤ (r.advance skipped).available :=
          Nat.min_le_left _ _
        rw [copy_read hlayout hle (Nat.pos_of_ne_zero hpos)]
        obtain ⟨hafter, -, hleft⟩ := hlayout.advance hle
        exact ⟨rfl, hafter, rfl, hleft⟩

/-- With a backlog, a read in low-latency mode returns the newest bytes. -/
theorem readIQ_newest (h : r.Layout) (heven : 2 ∣ r.available) {maxSamples : Nat}
    (hbacklog : requestedBytes maxSamples < r.contents.length) :
    (readIQ r true maxSamples).1 =
      r.contents.drop (r.contents.length - requestedBytes maxSamples) := by
  obtain ⟨hblock, -⟩ := readIQ_spec h heven true maxSamples
  rw [hblock, ← r.length_contents]
  by_cases hzero : maxSamples = 0
  · -- nothing is asked for
    have hnone : requestedBytes maxSamples = 0 := by
      rw [hzero]
      rfl
    rw [hnone, List.take_zero, Nat.sub_zero, List.drop_length]
  · have hskipped : skippedBytes r.contents.length true maxSamples =
        r.contents.length - requestedBytes maxSamples := by
      unfold skippedBytes
      simp [hzero]
    rw [hskipped]
    exact List.take_of_length_le (by rw [List.length_drop]; omega)

theorem flushBuffers_spec (h : r.Layout) :
    (flushBuffers r).Layout ∧ (flushBuffers r).contents = [] := by
  constructor
  · exact ⟨h.writePos_lt, h.writePos_lt, fun _ => rfl⟩
  · apply List.eq_nil_of_length_eq_zero
    rw [FlagRing.length_contents]
    simp [FlagRing.available, flushBuffers]

end RTLSDRDevice

/-- The ring holds what is held of the stream, and the blocks returned are
    those of the log. -/
structure IqRing.Follows (capacity : Nat) (s : IqRing) (t : IqStream) : Prop where
  layout : s.ring.Layout
  capacity_eq : s.ring.capacity = capacity
  even : 2 ∣ s.ring.available
  contents : s.ring.contents = t.contents
  returned : s.returned = t.returned

theorem IqStream.returned_append (contents : List UInt8) (log more : List IqSegment) :
    IqStream.returned ⟨contents, log ++ more⟩ =
      IqStream.returned ⟨contents, log⟩ ++ IqStream.returned ⟨contents, more⟩ := by
  simp [IqStream.returned]

theorem iqRing_step {capacity : Nat} (heven : 2 ∣ capacity) (s : IqRing) (op : IqRingOp)
    (t : IqStream) (h : s.Follows capacity t) :
    (iqRing.step s op).Follows capacity ((iqStream capacity).step t op) := by
  have hlength : t.contents.length = s.ring.available := by
    rw [← h.contents, s.ring.length_contents]
  have hreturned : s.returned = IqStream.returned ⟨t.contents, t.log⟩ := h.returned
  -- the length of what is held afterwards, and with it its parity
  have havailable : ∀ {r : FlagRing UInt8} {xs : List UInt8}, r.contents = xs →
      r.available = xs.length := fun hr => by rw [← hr, FlagRing.length_contents]
  cases op with
  | deliver buf =>
    have hput := h.layout.putAll buf.bytes
    rw [← RTLSDRDevice.asyncCallback_eq h.layout] at hput
    obtain ⟨hlayout, hcapacity, hcontents⟩ := hput
    rw [h.contents, h.capacity_eq] at hcontents
    refine ⟨hlayout, hcapacity.trans h.capacity_eq, ?_, hcontents, ?_⟩
    · show 2 ∣ (RTLSDRDevice.asyncCallback s.ring buf.bytes).available
      rw [havailable hcontents, List.rtake, List.length_drop, List.length_append, hlength]
      have hbuf := buf.even
      have hheld := h.even
      omega
    · show s.returned = IqStream.returned ⟨_, t.log ++ [_]⟩
      rw [hreturned, IqStream.returned_append]
      exact (List.append_nil _).symm
  | read lowLatencyMode maxSamples =>
    obtain ⟨hblock, hlayout, hcapacity, hcontents⟩ :=
      RTLSDRDevice.readIQ_spec h.layout h.even lowLatencyMode maxSamples
    rw [h.contents, ← hlength] at hblock hcontents
    refine ⟨hlayout, hcapacity.trans h.capacity_eq, ?_, hcontents, ?_⟩
    · show 2 ∣ (RTLSDRDevice.readIQ s.ring lowLatencyMode maxSamples).2.available
      rw [havailable hcontents, List.length_drop, List.length_drop, hlength]
      have hrequested := RTLSDRDevice.two_dvd_requestedBytes maxSamples
      have hskipped := RTLSDRDevice.two_dvd_skippedBytes h.even lowLatencyMode maxSamples
      have hheld := h.even
      omega
    · show s.returned ++ [_] = IqStream.returned ⟨_, t.log ++ [_, _]⟩
      rw [hreturned, IqStream.returned_append, hblock]
      rfl
  | flush =>
    obtain ⟨hlayout, hcontents⟩ := RTLSDRDevice.flushBuffers_spec h.layout
    refine ⟨hlayout, h.capacity_eq, ?_, hcontents, ?_⟩
    · show 2 ∣ (RTLSDRDevice.flushBuffers s.ring).available
      rw [havailable hcontents]
      exact Nat.dvd_zero 2
    · show s.returned = IqStream.returned ⟨_, t.log ++ [_]⟩
      rw [hreturned, IqStream.returned_append]
      exact (List.append_nil _).symm

theorem IqRing.follows_start :
    IqRing.start.Follows RTLSDRDevice.kIqRingBytes .empty := by
  have hpos : 0 < RTLSDRDevice.kIqRingBytes := by decide
  have hempty : IqRing.start.ring.available = 0 := by
    simp [IqRing.start, FlagRing.available]
  refine ⟨⟨hpos, hpos, fun _ => rfl⟩, rfl, ?_, ?_, rfl⟩
  · rw [hempty]
    exact Nat.dvd_zero 2
  · apply List.eq_nil_of_length_eq_zero
    rw [FlagRing.length_contents, hempty]

/-! ### Fates -/

/-- What the log and the contents say about the bytes delivered. -/
structure IqStream.Accounts (t : IqStream) (delivered : List UInt8) : Prop where
  conserved : t.log.flatMap (·.bytes) ++ t.contents = delivered
  whole : ∀ segment ∈ t.log, 2 ∣ segment.bytes.length
  whole_contents : 2 ∣ t.contents.length

theorem IqStream.Accounts.step {capacity : Nat} (heven : 2 ∣ capacity) {t : IqStream}
    {delivered : List UInt8} (h : t.Accounts delivered) (op : IqRingOp) :
    ((iqStream capacity).step t op).Accounts (delivered ++ op.delivered) := by
  have hconserved := h.conserved
  have hcontents := h.whole_contents
  have hmem : ∀ {more : List IqSegment}, (∀ segment ∈ more, 2 ∣ segment.bytes.length) →
      ∀ segment ∈ t.log ++ more, 2 ∣ segment.bytes.length := by
    intro more hmore segment hsegment
    rcases List.mem_append.mp hsegment with hold | hnew
    · exact h.whole segment hold
    · exact hmore segment hnew
  cases op with
  | deliver buf =>
    have hbuf := buf.even
    -- what is pushed out is what exceeds the capacity, which is even
    have hexcess : 2 ∣ (t.contents ++ buf.bytes).length - capacity := by
      rw [List.length_append]
      omega
    refine ⟨?_, hmem ?_, ?_⟩
    · simp [iqStream, IqRingOp.delivered, ← hconserved]
    · intro segment hsegment
      rw [List.mem_singleton.mp hsegment, List.length_take, List.length_append]
      rw [List.length_append] at hexcess
      omega
    · show 2 ∣ ((t.contents ++ buf.bytes).drop _).length
      rw [List.length_drop, List.length_append]
      rw [List.length_append] at hexcess
      omega
  | read lowLatencyMode maxSamples =>
    have hrequested := RTLSDRDevice.two_dvd_requestedBytes maxSamples
    have hskipped := RTLSDRDevice.two_dvd_skippedBytes hcontents lowLatencyMode maxSamples
    refine ⟨?_, hmem ?_, ?_⟩
    · -- skipped, returned and kept are, in this order, what was held
      have hparts : ∀ (xs : List UInt8) (n m : Nat),
          (xs.take n ++ (xs.drop n).take m) ++ (xs.drop n).drop m = xs := by
        intro xs n m
        rw [List.append_assoc, List.take_append_drop, List.take_append_drop]
      have hheld := hparts t.contents (skippedBytes t.contents.length lowLatencyMode maxSamples)
        (RTLSDRDevice.requestedBytes maxSamples)
      show (t.log ++ [_, _]).flatMap IqSegment.bytes ++ (t.contents.drop _).drop _ =
        delivered ++ []
      rw [← hconserved, List.append_nil, List.flatMap_append, List.append_assoc]
      congr 1
      simpa only [List.flatMap_cons, List.flatMap_nil, List.append_nil] using hheld
    · intro segment hsegment
      rcases List.mem_pair.mp hsegment with rfl | rfl
      · rw [List.length_take]
        omega
      · rw [List.length_take, List.length_drop]
        omega
    · show 2 ∣ ((t.contents.drop _).drop _).length
      rw [List.length_drop, List.length_drop]
      omega
  | flush =>
    refine ⟨?_, hmem ?_, Nat.dvd_zero 2⟩
    · simp [iqStream, IqRingOp.delivered, ← hconserved]
    · intro segment hsegment
      rw [List.mem_singleton.mp hsegment]
      exact hcontents

theorem IqStream.Accounts.run {capacity : Nat} (heven : 2 ∣ capacity) {t : IqStream}
    {delivered : List UInt8} (h : t.Accounts delivered) (ops : List IqRingOp) :
    ((iqStream capacity).run t ops).Accounts
      (delivered ++ ops.flatMap IqRingOp.delivered) := by
  induction ops generalizing t delivered with
  | nil => simpa using h
  | cons op ops ih =>
    have hrest := ih (h.step heven op)
    rw [List.append_assoc] at hrest
    exact hrest

/-- A segment of whole samples, at an even offset, is where it is in what
    was delivered. -/
theorem IqStream.Accounts.segment {t : IqStream} {delivered : List UInt8}
    (h : t.Accounts delivered) {before after : List IqSegment} {segment : IqSegment}
    (heq : t.log = before ++ segment :: after) :
    let offset := (before.flatMap (·.bytes)).length
    2 ∣ offset ∧ 2 ∣ segment.bytes.length ∧
      segment.bytes = (delivered.drop offset).take segment.bytes.length := by
  intro offset
  have hwhole := h.whole
  rw [heq] at hwhole
  refine ⟨?_, hwhole segment (by simp), ?_⟩
  · -- whole samples before it
    have hbefore : ∀ s ∈ before, 2 ∣ s.bytes.length :=
      fun s hs => hwhole s (List.mem_append_left _ hs)
    have hsum : ∀ log : List IqSegment, (∀ s ∈ log, 2 ∣ s.bytes.length) →
        2 ∣ (log.flatMap (·.bytes)).length := by
      intro log hlog
      induction log with
      | nil => exact Nat.dvd_zero 2
      | cons s log ih =>
        rw [List.flatMap_cons, List.length_append]
        exact Nat.dvd_add (hlog s List.mem_cons_self)
          (ih fun s hs => hlog s (List.mem_cons_of_mem _ hs))
    exact hsum before hbefore
  · rw [← h.conserved, heq]
    simp [offset]

/-- The blocks returned, put together, in what the log holds. -/
theorem IqStream.returned_sublist (t : IqStream) :
    List.Sublist t.returned.flatten (t.log.flatMap (·.bytes)) := by
  have hlog : ∀ log : List IqSegment,
      List.Sublist ((log.filter fun s => s.fate = .returned).flatMap (·.bytes))
        (log.flatMap (·.bytes)) := by
    intro log
    induction log with
    | nil => exact List.Sublist.refl _
    | cons s log ih =>
      rw [List.filter_cons, List.flatMap_cons]
      split
      · exact List.Sublist.append (List.Sublist.refl _) ih
      · exact ih.trans (List.sublist_append_right _ _)
  have hflat : t.returned.flatten =
      (t.log.filter fun s => s.fate = .returned).flatMap (·.bytes) := by
    simp [IqStream.returned, List.flatMap_def]
  rw [hflat]
  exact hlog t.log

/-- What has to happen for bytes to get their fate; bytes are overwritten
    only by a delivery that leaves the ring full. -/
def IqSegment.Justified (capacity : Nat) (t : IqStream) (op : IqRingOp) (segment : IqSegment) :
    Prop :=
  match segment.fate with
  | .returned => ∃ lowLatencyMode maxSamples, op = .read lowLatencyMode maxSamples
  | .overwritten => (∃ buf, op = .deliver buf) ∧
      ((iqStream capacity).step t op).contents.length = capacity
  | .skipped => ∃ maxSamples, op = .read true maxSamples
  | .flushed => op = .flush

theorem iqStream_step_justified (capacity : Nat) (t : IqStream) (op : IqRingOp) :
    ∃ new, ((iqStream capacity).step t op).log = t.log ++ new ∧
      ∀ segment ∈ new, segment.bytes ≠ [] → segment.Justified capacity t op := by
  cases op with
  | deliver buf =>
    refine ⟨_, rfl, ?_⟩
    intro segment hsegment hbytes
    rw [List.mem_singleton.mp hsegment] at hbytes ⊢
    refine ⟨⟨buf, rfl⟩, ?_⟩
    have hsome : (t.contents ++ buf.bytes).length - capacity ≠ 0 := by
      intro hzero
      rw [hzero] at hbytes
      exact hbytes rfl
    show ((t.contents ++ buf.bytes).drop _).length = capacity
    rw [List.length_drop]
    omega
  | read lowLatencyMode maxSamples =>
    refine ⟨_, rfl, ?_⟩
    intro segment hsegment hbytes
    rcases List.mem_pair.mp hsegment with rfl | rfl
    · -- without low latency nothing is skipped
      cases lowLatencyMode with
      | false => exact absurd rfl hbytes
      | true => exact ⟨maxSamples, rfl⟩
    · exact ⟨lowLatencyMode, maxSamples, rfl⟩
  | flush =>
    refine ⟨_, rfl, ?_⟩
    intro segment hsegment _
    rw [List.mem_singleton.mp hsegment]
    rfl

/-- The ring is a window of the stream: after any deliveries, reads and
    flushes, the blocks returned are those the log calls so, in the order
    of delivery; all that was delivered is logged once or held; blocks are
    contiguous, whole and at even offsets; a byte that is not returned was
    overwritten in a full ring, skipped, flushed, or is held. A read
    returns the oldest bytes held, or in low-latency mode, when there is a
    backlog, exactly the newest it asks for. -/
theorem iqRing_stream (ops : List IqRingOp) :
    let s := iqRing.run .start ops
    let t := (iqStream RTLSDRDevice.kIqRingBytes).run .empty ops
    let delivered := ops.flatMap IqRingOp.delivered
    (s.returned = t.returned ∧ s.ring.contents = t.contents) ∧
    (t.log.flatMap (·.bytes) ++ s.ring.contents = delivered ∧
      List.Sublist s.returned.flatten delivered) ∧
    (∀ before segment after, t.log = before ++ segment :: after →
      let offset := (before.flatMap (·.bytes)).length
      2 ∣ offset ∧ 2 ∣ segment.bytes.length ∧
        segment.bytes = (delivered.drop offset).take segment.bytes.length) ∧
    (∀ op, ∃ new,
      ((iqStream RTLSDRDevice.kIqRingBytes).step t op).log = t.log ++ new ∧
      ∀ segment ∈ new, segment.bytes ≠ [] →
        segment.Justified RTLSDRDevice.kIqRingBytes t op) ∧
    ∀ maxSamples,
      let requested := RTLSDRDevice.requestedBytes maxSamples
      (RTLSDRDevice.readIQ s.ring false maxSamples).1 = s.ring.contents.take requested ∧
      (requested < s.ring.contents.length →
        (RTLSDRDevice.readIQ s.ring true maxSamples).1 =
          s.ring.contents.drop (s.ring.contents.length - requested)) := by
  intro s t delivered
  have heven : 2 ∣ RTLSDRDevice.kIqRingBytes := by decide
  have hfollows : s.Follows RTLSDRDevice.kIqRingBytes t := by
    have hrun : s.Follows RTLSDRDevice.kIqRingBytes
        ((iqStream RTLSDRDevice.kIqRingBytes).run .empty (ops.flatMap fun op => [op])) :=
      Machine.run_simulation (iqRing_step heven) IqRing.follows_start ops
    simpa using hrun
  have haccounts : t.Accounts delivered := by
    have hempty : IqStream.empty.Accounts [] := by
      constructor <;> simp [IqStream.empty]
    exact hempty.run heven ops
  refine ⟨⟨hfollows.returned, hfollows.contents⟩, ⟨?_, ?_⟩, ?_, ?_, ?_⟩
  · rw [hfollows.contents]
    exact haccounts.conserved
  · rw [hfollows.returned, ← haccounts.conserved]
    exact t.returned_sublist.trans (List.sublist_append_left _ _)
  · intro before segment after heq
    exact haccounts.segment heq
  · intro op
    exact iqStream_step_justified _ t op
  · intro maxSamples requested
    constructor
    · obtain ⟨hblock, -⟩ := RTLSDRDevice.readIQ_spec hfollows.layout hfollows.even false maxSamples
      exact hblock
    · exact RTLSDRDevice.readIQ_newest hfollows.layout hfollows.even

end FmSdrTuner
