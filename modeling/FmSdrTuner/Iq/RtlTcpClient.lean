import FmSdrTuner.Framework.Cells
import FmSdrTuner.Framework.Machine

/-! # RTLTCPClient: IQ bytes from a stream

    `rtl_tcp` sends I and Q bytes in turn, and TCP delivers them in pieces
    of any length. `readIQ` returns whole samples and keeps an odd byte
    for the next call. One byte lost or repeated would swap I and Q from
    there on; here a session is run over everything `recv` may do. -/

namespace FmSdrTuner

/-! ### The client -/

/-- The fields of `RTLTCPClient` that reading samples uses. -/
structure RTLTCPClient where
  connected : Bool
  /-- `m_socket >= 0`. -/
  socketOpen : Bool
  havePendingIqByte : Bool
  pendingIqByte : UInt8
  deriving DecidableEq, Repr

/-- The pending byte, if one is held. -/
def RTLTCPClient.pending (c : RTLTCPClient) : List UInt8 :=
  if c.havePendingIqByte then [c.pendingIqByte] else []

/-- How far an attempt to connect gets. -/
inductive ConnectOutcome where
  /-- No socket library, or an address that does not resolve. -/
  | unresolved
  /-- No connection, or no valid header. -/
  | refused
  | accepted
  deriving DecidableEq, Repr

/-- `RTLTCPClient::connect`. -/
def RTLTCPClient.connect (c : RTLTCPClient) : ConnectOutcome → RTLTCPClient
  | .unresolved => c
  | .refused => { c with socketOpen := false }
  | .accepted => { c with socketOpen := true, havePendingIqByte := false, connected := true }

/-- `RTLTCPClient::disconnect`. -/
def RTLTCPClient.disconnect (c : RTLTCPClient) : RTLTCPClient :=
  { c with socketOpen := false, connected := false, havePendingIqByte := false }

/-! ### Receiving -/

/-- What one call of `recv` comes back with. -/
inductive RecvResult where
  /-- Bytes, of which no more are taken than were asked for. -/
  | data (bytes : List UInt8)
  /-- `0`: the peer has closed the connection. -/
  | closed
  /-- `EINTR`. -/
  | interrupted
  /-- `EAGAIN`, `EWOULDBLOCK`, or the receive timeout. -/
  | wouldBlock
  | failed
  deriving DecidableEq, Repr

/-- The most that Linux transfers in one call. -/
def kMaxTransfer : Nat := 0x7ffff000

/-- How many bytes a `recv` of `static_cast<int>(len)` bytes may return. A
    negative `int` turns into a huge `size_t`, which the kernel cuts. -/
def recvLimit (len : Nat) : Nat :=
  let low := len % 0x100000000
  if low < 0x80000000 then min low kMaxTransfer else kMaxTransfer

/-- The locals of the receive loop. `received` is not one of the source: it
    collects what `recv` returned. -/
structure RecvLoop where
  buffer : Nat → UInt8
  totalRead : Nat
  connected : Bool
  received : List UInt8

/-- The loop of `readIQ`. After the results given, `recv` times out. -/
def RecvLoop.run (bytesToRead : Nat) (l : RecvLoop) : List RecvResult → RecvLoop
  | [] => l
  | result :: results =>
      if l.totalRead < bytesToRead then
        match result with
        | .data bytes =>
            match bytes.take (recvLimit (bytesToRead - l.totalRead)) with
            | [] => { l with connected := false }
            | byte :: more =>
                let got := byte :: more
                RecvLoop.run bytesToRead
                  { l with
                    buffer := writeCells l.buffer l.totalRead got
                    totalRead := l.totalRead + got.length
                    received := l.received ++ got } results
        | .closed => { l with connected := false }
        | .interrupted => l.run bytesToRead results
        | .wouldBlock => l
        | .failed => l
      else l

/-- What a call of `readIQ` leaves behind. -/
structure IqRead where
  client : RTLTCPClient
  buffer : Nat → UInt8
  samples : Nat
  received : List UInt8

/-- `RTLTCPClient::readIQ`. -/
def RTLTCPClient.readIQ (c : RTLTCPClient) (buffer : Nat → UInt8) (maxSamples : Nat)
    (results : List RecvResult) : IqRead :=
  if !c.connected || !c.socketOpen then ⟨c, buffer, 0, []⟩
  else
    -- a `size_t`
    let bytesToRead := maxSamples * 2 % 0x10000000000000000
    if bytesToRead = 0 then ⟨c, buffer, 0, []⟩
    else
      let start : RecvLoop := {
        buffer := writeCells buffer 0 c.pending
        totalRead := c.pending.length
        connected := c.connected
        received := [] }
      let l := start.run bytesToRead results
      if l.totalRead % 2 ≠ 0 then
        ⟨{ c with
            connected := l.connected
            havePendingIqByte := true
            pendingIqByte := l.buffer (l.totalRead - 1) },
          l.buffer, (l.totalRead - 1) / 2, l.received⟩
      else
        ⟨{ c with connected := l.connected, havePendingIqByte := false },
          l.buffer, l.totalRead / 2, l.received⟩

/-- The bytes a call returns to its caller. -/
def IqRead.bytes (r : IqRead) : List UInt8 := cells r.buffer (2 * r.samples)

/-! ### What `recv` delivers -/

/-- The bytes of a result. -/
def RecvResult.bytes : RecvResult → List UInt8
  | .data bytes => bytes
  | .closed | .interrupted | .wouldBlock | .failed => []

/-- Reading can go on behind this result. -/
def RecvResult.goesOn : RecvResult → Bool
  | .data bytes => !bytes.isEmpty
  | .interrupted => true
  | .closed | .wouldBlock | .failed => false

/-- What calls of `recv` with these results deliver to a reader who wants
    this many bytes: each call what it has, within its limit. A call that
    delivers nothing is the last one, unless it was interrupted. -/
def delivered (wanted : Nat) : List RecvResult → List UInt8
  | [] => []
  | result :: results =>
      let got := result.bytes.take (recvLimit wanted)
      if wanted = 0 then []
      else if result = .interrupted then delivered wanted results
      else if got = [] then []
      else got ++ delivered (wanted - got.length) results

/-- How much a client reads in a call, with the byte held before in front. -/
def RTLTCPClient.wanted (c : RTLTCPClient) (maxSamples : Nat) : Nat :=
  if c.connected && c.socketOpen then
    maxSamples * 2 % 0x10000000000000000 - c.pending.length
  else 0

@[simp] theorem delivered_zero (results : List RecvResult) : delivered 0 results = [] := by
  cases results <;> rfl

theorem delivered_data {wanted : Nat} {bytes : List UInt8} (results : List RecvResult)
    (hsome : bytes.take (recvLimit wanted) ≠ []) (hwanted : wanted ≠ 0) :
    delivered wanted (.data bytes :: results) = bytes.take (recvLimit wanted) ++
      delivered (wanted - (bytes.take (recvLimit wanted)).length) results := by
  simp [delivered, RecvResult.bytes, hsome, hwanted]

theorem recvLimit_of_le {len : Nat} (h : len ≤ kMaxTransfer) : recvLimit len = len := by
  have hmax : kMaxTransfer = 2147479552 := rfl
  unfold recvLimit
  rw [Nat.mod_eq_of_lt (by omega)]
  simp only
  rw [if_pos (by omega), Nat.min_eq_left h]

/-- Below the limit of one transfer it is the bytes of the results that go
    on, as far as they are wanted. -/
theorem delivered_eq_take {wanted : Nat} (h : wanted ≤ kMaxTransfer)
    (results : List RecvResult) :
    delivered wanted results =
      ((results.takeWhile RecvResult.goesOn).flatMap RecvResult.bytes).take wanted := by
  induction results generalizing wanted with
  | nil => simp [delivered]
  | cons result results ih =>
    by_cases hnone : wanted = 0
    · simp [hnone]
    · cases result with
      | data bytes =>
        by_cases hempty : bytes = []
        · simp [delivered, RecvResult.bytes, RecvResult.goesOn, hempty]
        · have hsome : bytes.take (recvLimit wanted) ≠ [] := by
            simp [recvLimit_of_le h, hnone, hempty]
          -- a call that is cut delivers all that was wanted, so nothing follows it
          rw [delivered_data results hsome hnone, recvLimit_of_le h, ih (by omega),
            List.takeWhile_cons_of_pos (by simp [RecvResult.goesOn, hempty]), List.flatMap_cons,
            RecvResult.bytes, List.take_append, List.length_take]
          congr 2
          omega
      | interrupted =>
        rw [List.takeWhile_cons_of_pos rfl, List.flatMap_cons, RecvResult.bytes, List.nil_append,
          ← ih h]
        simp [delivered, hnone]
      | _ => simp [delivered, RecvResult.bytes, RecvResult.goesOn]

/-! ### One call -/

/-- No more comes back than was asked for, whatever the casts do. -/
theorem recvLimit_le (len : Nat) : recvLimit len ≤ len := by
  have hmax : kMaxTransfer = 2147479552 := rfl
  unfold recvLimit
  simp only
  split
  · exact Nat.le_trans (Nat.min_le_left _ _) (Nat.mod_le _ _)
  · -- a negative `int` means a length of at least 2 GiB
    next hlow => omega

/-- What the loop keeps: the buffer starts with what was there and what
    was received, and ends where it should. -/
structure RecvLoop.Keeps (bytesToRead : Nat) (start l : RecvLoop) : Prop where
  filled : cells l.buffer l.totalRead = cells start.buffer start.totalRead ++ l.received
  bounded : l.totalRead ≤ bytesToRead
  beyond : ∀ i, bytesToRead ≤ i → l.buffer i = start.buffer i

theorem RecvLoop.run_keeps {bytesToRead : Nat} {start l : RecvLoop}
    (h : Keeps bytesToRead start l) (results : List RecvResult) :
    Keeps bytesToRead start (l.run bytesToRead results) := by
  induction results generalizing l with
  | nil => exact h
  | cons result results ih =>
    unfold RecvLoop.run
    split
    · next hroom =>
      cases result with
      | data bytes =>
        simp only
        split
        · exact ⟨h.filled, h.bounded, h.beyond⟩
        · next byte more hgot =>
          have hlength : (byte :: more).length ≤ bytesToRead - l.totalRead := by
            rw [← hgot, List.length_take]
            have := recvLimit_le (bytesToRead - l.totalRead)
            omega
          apply ih
          constructor
          · -- what was received is written behind what is there
            rw [cells_writeCells, h.filled, List.append_assoc]
          · show l.totalRead + (byte :: more).length ≤ bytesToRead
            omega
          · intro i hi
            rw [← h.beyond i hi]
            exact writeCells_after (by omega)
      | closed => exact ⟨h.filled, h.bounded, h.beyond⟩
      | interrupted => exact ih h
      | wouldBlock => exact h
      | failed => exact h
    · exact h

/-- The loop receives what is delivered. -/
theorem RecvLoop.run_received {bytesToRead : Nat} (l : RecvLoop)
    (results : List RecvResult) :
    (l.run bytesToRead results).received =
      l.received ++ delivered (bytesToRead - l.totalRead) results := by
  induction results generalizing l with
  | nil => simp [RecvLoop.run, delivered]
  | cons result results ih =>
    unfold RecvLoop.run
    split
    · next hroom =>
      have hwanted : bytesToRead - l.totalRead ≠ 0 := by omega
      cases result with
      | data bytes =>
        simp only
        split
        · next hnone => simp [delivered, RecvResult.bytes, hnone]
        · next byte more hgot =>
          rw [ih, delivered_data results (by simp [hgot]) hwanted, hgot, ← List.append_assoc,
            Nat.sub_sub]
      | interrupted =>
        rw [ih]
        simp [delivered, hwanted]
      | _ => simp [delivered, RecvResult.bytes]
    · next hfull => simp [show bytesToRead - l.totalRead = 0 by omega]

/-- A call receives what is delivered to it. -/
theorem RTLTCPClient.readIQ_received (c : RTLTCPClient) (buffer : Nat → UInt8)
    (maxSamples : Nat) (results : List RecvResult) :
    (c.readIQ buffer maxSamples results).received = delivered (c.wanted maxSamples) results := by
  unfold RTLTCPClient.readIQ RTLTCPClient.wanted
  split
  · next hoff =>
    have hwanted : (c.connected && c.socketOpen) = false := by
      cases hc : c.connected <;> cases hs : c.socketOpen <;> simp [hc, hs] at hoff ⊢
    simp [hwanted]
  · next hon =>
    have hwanted : (c.connected && c.socketOpen) = true := by
      cases hc : c.connected <;> cases hs : c.socketOpen <;> simp [hc, hs] at hon ⊢
    simp only [hwanted, if_true]
    split
    · next hzero => simp [hzero]
    · split <;> simp [RecvLoop.run_received]

/-- What a call is to its caller: the byte held before and the bytes
    received are those returned and the byte held after, within bounds. -/
structure IqRead.Faithful (c : RTLTCPClient) (buffer : Nat → UInt8) (maxSamples : Nat)
    (r : IqRead) : Prop where
  conserved : r.bytes ++ r.client.pending = c.pending ++ r.received
  samples_le : r.samples ≤ maxSamples
  untouched : ∀ i, 2 * maxSamples ≤ i → r.buffer i = buffer i

theorem RTLTCPClient.readIQ_faithful (c : RTLTCPClient) (buffer : Nat → UInt8)
    (maxSamples : Nat) (results : List RecvResult) :
    (c.readIQ buffer maxSamples results).Faithful c buffer maxSamples := by
  have hidle : IqRead.Faithful c buffer maxSamples ⟨c, buffer, 0, []⟩ :=
    ⟨by simp [IqRead.bytes], Nat.zero_le _, fun _ _ => rfl⟩
  unfold RTLTCPClient.readIQ
  split
  · exact hidle
  · simp only
    split
    · exact hidle
    · next hnonzero =>
      -- the product may wrap around, but only downwards and to an even number
      have hwrap : maxSamples * 2 % 0x10000000000000000 ≤ 2 * maxSamples := by omega
      have hpending : c.pending.length ≤ 1 := by
        unfold RTLTCPClient.pending
        split <;> simp
      have hstart : cells (writeCells buffer 0 c.pending) c.pending.length = c.pending := by
        have h := cells_writeCells buffer 0 c.pending
        simpa using h
      generalize hl : RecvLoop.run _ _ results = l
      have hkeeps : RecvLoop.Keeps (maxSamples * 2 % 0x10000000000000000)
          ⟨writeCells buffer 0 c.pending, c.pending.length, c.connected, []⟩ l := by
        rw [← hl]
        refine RecvLoop.run_keeps ⟨?_, ?_, ?_⟩ results
        · simp
        · show c.pending.length ≤ _
          omega
        · intro i _
          rfl
      have hfilled : cells l.buffer l.totalRead = c.pending ++ l.received := by
        rw [hkeeps.filled, hstart]
      have hbounded := hkeeps.bounded
      have huntouched : ∀ i, 2 * maxSamples ≤ i → l.buffer i = buffer i := by
        intro i hi
        have hpast : 0 + c.pending.length ≤ i := by omega
        rw [hkeeps.beyond i (by omega)]
        exact writeCells_after hpast
      split
      · next hodd =>
        -- the last byte is held back
        have hsplit : l.totalRead = 2 * ((l.totalRead - 1) / 2) + 1 := by omega
        constructor
        · show cells l.buffer (2 * ((l.totalRead - 1) / 2)) ++ [l.buffer (l.totalRead - 1)] = _
          rw [← hfilled]
          conv_rhs => rw [hsplit, cells_succ]
          rw [show l.totalRead - 1 = 2 * ((l.totalRead - 1) / 2) by omega]
          simp
        · show (l.totalRead - 1) / 2 ≤ maxSamples
          omega
        · exact huntouched
      · next heven =>
        have hsplit : 2 * (l.totalRead / 2) = l.totalRead := by omega
        constructor
        · show cells l.buffer (2 * (l.totalRead / 2)) ++ [] = _
          rw [hsplit, List.append_nil]
          exact hfilled
        · show l.totalRead / 2 ≤ maxSamples
          omega
        · exact huntouched

/-! ### A session -/

/-- One call of `readIQ`: the caller's buffer, how much is asked for, and
    what `recv` does meanwhile. -/
structure IqCall where
  buffer : Nat → UInt8
  maxSamples : Nat
  results : List RecvResult

/-- A client since it was connected, with the blocks returned and the
    bytes received so far. -/
structure IqSession where
  client : RTLTCPClient
  returned : List (List UInt8)
  received : List UInt8

/-- A session begins with a successful connect, whatever was before. -/
def IqSession.start (c : RTLTCPClient) : IqSession := ⟨c.connect .accepted, [], []⟩

def iqSession : Machine IqSession IqCall where
  step s call :=
    let r := s.client.readIQ call.buffer call.maxSamples call.results
    ⟨r.client, s.returned ++ [r.bytes], s.received ++ r.received⟩

theorem length_iqRead_bytes (r : IqRead) : r.bytes.length = 2 * r.samples :=
  length_cells _ _

/-- What was returned and the byte held are what was received, and every
    block is of whole samples. -/
structure IqSession.Aligned (s : IqSession) : Prop where
  conserved : s.returned.flatten ++ s.client.pending = s.received
  whole : ∀ block ∈ s.returned, 2 ∣ block.length

theorem IqSession.Aligned.step {s : IqSession} (hs : s.Aligned) (call : IqCall) :
    (iqSession.step s call).Aligned := by
  have hcall := s.client.readIQ_faithful call.buffer call.maxSamples call.results
  constructor
  · show (s.returned ++ [_]).flatten ++ _ = s.received ++ _
    calc (s.returned ++ [(s.client.readIQ call.buffer call.maxSamples call.results).bytes]).flatten
          ++ (s.client.readIQ call.buffer call.maxSamples call.results).client.pending
        = s.returned.flatten
          ++ ((s.client.readIQ call.buffer call.maxSamples call.results).bytes
            ++ (s.client.readIQ call.buffer call.maxSamples call.results).client.pending) := by
          simp
      _ = s.returned.flatten ++ (s.client.pending
            ++ (s.client.readIQ call.buffer call.maxSamples call.results).received) := by
          rw [hcall.conserved]
      _ = _ := by
          rw [← List.append_assoc, hs.conserved]
  · intro block hblock
    rcases List.mem_append.mp hblock with hblock | hblock
    · exact hs.whole block hblock
    · rw [List.mem_singleton.mp hblock, length_iqRead_bytes]
      exact Nat.dvd_mul_right 2 _

/-- Blocks of whole samples put together are of whole samples. -/
theorem two_dvd_length_flatten {blocks : List (List UInt8)}
    (h : ∀ block ∈ blocks, 2 ∣ block.length) : 2 ∣ blocks.flatten.length := by
  induction blocks with
  | nil => exact Nat.dvd_zero 2
  | cons block blocks ih =>
    rw [List.flatten_cons, List.length_append]
    exact Nat.dvd_add (h block List.mem_cons_self)
      (ih fun b hb => h b (List.mem_cons_of_mem _ hb))

/-- Framing never slips: after any calls, whatever `recv` did in them, the
    bytes returned and the byte held are the bytes received since the
    connect, and every block starts at an even offset of these, with an I
    byte. A further call receives what `recv` delivers, the bytes of its
    results as far as they are wanted, returns no more samples than it is
    asked for, and leaves the buffer beyond them alone. -/
theorem readIQ_framing (c : RTLTCPClient) (calls : List IqCall) :
    let s := iqSession.run (.start c) calls
    s.returned.flatten ++ s.client.pending = s.received ∧
    (∀ before block after, s.returned = before ++ block :: after →
      2 ∣ before.flatten.length ∧
        block = (s.received.drop before.flatten.length).take block.length) ∧
    ∀ call : IqCall,
      let r := s.client.readIQ call.buffer call.maxSamples call.results
      r.received = delivered (s.client.wanted call.maxSamples) call.results ∧
        (s.client.wanted call.maxSamples ≤ kMaxTransfer →
          r.received = ((call.results.takeWhile RecvResult.goesOn).flatMap RecvResult.bytes).take
            (s.client.wanted call.maxSamples)) ∧
        r.samples ≤ call.maxSamples ∧
        ∀ i, 2 * call.maxSamples ≤ i → r.buffer i = call.buffer i := by
  intro s
  have hstart : (IqSession.start c).Aligned :=
    ⟨by simp [IqSession.start, RTLTCPClient.connect, RTLTCPClient.pending], by
      simp [IqSession.start]⟩
  have hstep : ∀ s call, IqSession.Aligned s → (iqSession.step s call).Aligned :=
    fun _ call hs => hs.step call
  have hs : s.Aligned := Machine.run_invariant_always hstep calls hstart
  refine ⟨hs.conserved, ?_, ?_⟩
  · intro before block after heq
    have hbefore : ∀ b ∈ before, 2 ∣ b.length := by
      intro b hb
      apply hs.whole
      rw [heq]
      exact List.mem_append_left _ hb
    have hreceived := hs.conserved
    rw [heq] at hreceived
    constructor
    · exact two_dvd_length_flatten hbefore
    · rw [← hreceived]
      simp
  · intro call r
    have hcall := s.client.readIQ_faithful call.buffer call.maxSamples call.results
    have hreceived : r.received = delivered (s.client.wanted call.maxSamples) call.results :=
      s.client.readIQ_received call.buffer call.maxSamples call.results
    refine ⟨hreceived, fun hsmall => ?_, hcall.samples_le, hcall.untouched⟩
    rw [hreceived, delivered_eq_take hsmall]

/-- Three bytes for two samples: the third is held, and the next call
    returns it in front of what it receives. -/
theorem odd_byte_carried_over :
    let three : IqCall := ⟨fun _ => 0, 2, [.data [1, 2], .interrupted, .data [3], .wouldBlock]⟩
    let two : IqCall := ⟨fun _ => 0, 2, [.data [4, 5], .closed]⟩
    let s := iqSession.run (.start ⟨false, false, true, 9⟩) [three, two]
    s.received = [1, 2, 3, 4, 5] ∧ s.client.pending = [5] ∧
      s.returned = [[1, 2], [3, 4]] ∧ s.returned.flatten ++ s.client.pending = s.received := by
  intro three two s
  have hframing := (readIQ_framing ⟨false, false, true, 9⟩ [three, two]).1
  exact ⟨by decide, by decide, by decide, hframing⟩

end FmSdrTuner
