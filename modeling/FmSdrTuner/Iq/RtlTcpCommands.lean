import FmSdrTuner.Framework.Blocks
import FmSdrTuner.Iq.RtlTcpClient

/-! # RTLTCPClient: header and commands

    A server greets with a header of 12 bytes, and then takes commands: a
    byte and a parameter of four. `send` may take any part of the five; if
    it fails then, the call fails too, but what was taken stays sent, and
    the connection stays open.

    Main results: `header_accepted_iff`, `commands_delivered_iff`. -/

namespace FmSdrTuner

/-! ### Words on the wire -/

/-- The bytes of `htonl`, the highest first. -/
def htonl (x : UInt32) : List UInt8 :=
  [.ofNat (x.toNat / 0x1000000), .ofNat (x.toNat / 0x10000), .ofNat (x.toNat / 0x100),
    .ofNat x.toNat]

/-- `readBe32`. -/
def readBe32 : List UInt8 → UInt32
  | a :: b :: c :: d :: _ =>
    .ofNat (a.toNat * 0x1000000 + b.toNat * 0x10000 + c.toNat * 0x100 + d.toNat)
  | _ => 0

@[simp] theorem readBe32_htonl (x : UInt32) : readBe32 (htonl x) = x := by
  have hx : x.toNat < 2 ^ 32 := x.toNat_lt
  apply UInt32.toNat_inj.mp
  simp only [readBe32, htonl, UInt32.toNat_ofNat', UInt8.toNat_ofNat']
  omega

/-- Four bytes are those of a word. -/
theorem htonl_readBe32 {bytes : List UInt8} (h : bytes.length = 4) :
    htonl (readBe32 bytes) = bytes := by
  obtain ⟨a, b, c, d, rfl⟩ := List.length_eq_four.mp h
  have ha : a.toNat < 2 ^ 8 := a.toNat_lt
  have hb : b.toNat < 2 ^ 8 := b.toNat_lt
  have hc : c.toNat < 2 ^ 8 := c.toNat_lt
  have hd : d.toNat < 2 ^ 8 := d.toNat_lt
  simp only [htonl, readBe32, UInt32.toNat_ofNat', List.cons.injEq, and_true,
    ← UInt8.toNat_inj, UInt8.toNat_ofNat']
  omega

/-- Nothing is read behind the four bytes. -/
theorem readBe32_take (bytes : List UInt8) : readBe32 (bytes.take 4) = readBe32 bytes := by
  rcases bytes with _ | ⟨a, _ | ⟨b, _ | ⟨c, _ | ⟨d, rest⟩⟩⟩⟩ <;> rfl

/-! ### The header -/

def kRtlTcpMaxTunerType : UInt32 := 6
def kRtlTcpMaxGainCount : UInt32 := 512

/-- `"RTL0"`. -/
def rtl0 : List UInt8 := [0x52, 0x54, 0x4C, 0x30]

/-- `validateRtlTcpHeader`. -/
def validateRtlTcpHeader (header : List UInt8) : Bool :=
  if header.take 4 ≠ rtl0 then false
  else
    let tunerType := readBe32 (header.drop 4)
    let gainCount := readBe32 (header.drop 8)
    if kRtlTcpMaxTunerType < tunerType then false
    else if kRtlTcpMaxGainCount < gainCount then false
    else true

/-- The loop of `RTLTCPClient::readResponse`, with `len` bytes still to read.
    Unlike the loop of `readIQ` it does not try again after `EINTR`. -/
def readResponse : Nat → List RecvResult → Option (List UInt8)
  | len, [] => if len = 0 then some [] else none
  | len, result :: results =>
    if len = 0 then some []
    else
      match result with
      | .data bytes =>
        if bytes.length = 0 then none
        else (readResponse (len - bytes.length) results).map (bytes.take len ++ ·)
      | _ => none

/-- What `RTLTCPClient::connect` makes of an open connection. -/
def headerOutcome (results : List RecvResult) : ConnectOutcome :=
  match readResponse 12 results with
  | none => .refused
  | some header => if validateRtlTcpHeader header then .accepted else .refused

/-- What is received before `recv` first comes back without data. -/
def dataBefore : List RecvResult → List UInt8
  | .data bytes :: results => if bytes.length = 0 then [] else bytes ++ dataBefore results
  | _ => []

/-- A header as a server writes it. -/
def headerBytes (tunerType gainCount : UInt32) : List UInt8 :=
  rtl0 ++ (htonl tunerType ++ htonl gainCount)

/-- In whatever pieces the bytes arrive, the first `len` are read. -/
theorem readResponse_eq (len : Nat) (results : List RecvResult) :
    readResponse len results =
      if len ≤ (dataBefore results).length then some ((dataBefore results).take len)
      else none := by
  induction results generalizing len with
  | nil => simp [readResponse, dataBefore]
  | cons result results ih =>
    unfold readResponse
    split
    · next hdone => simp [hdone]
    · next hmore =>
      have hnone : ¬ len ≤ ([] : List UInt8).length := by simpa using hmore
      cases result with
      | data bytes =>
        simp only [dataBefore, ih]
        split
        · rfl
        · -- what this piece leaves to read is read from the pieces behind it
          have hrest : len - bytes.length ≤ (dataBefore results).length ↔
              len ≤ (bytes ++ dataBefore results).length := by
            rw [List.length_append]
            omega
          simp only [hrest, List.take_append]
          split <;> rfl
      | closed => exact (if_neg hnone).symm
      | interrupted => exact (if_neg hnone).symm
      | wouldBlock => exact (if_neg hnone).symm
      | failed => exact (if_neg hnone).symm

theorem validateRtlTcpHeader_iff {header : List UInt8} (h : header.length = 12) :
    validateRtlTcpHeader header = true ↔
      ∃ tunerType gainCount, tunerType ≤ kRtlTcpMaxTunerType ∧
        gainCount ≤ kRtlTcpMaxGainCount ∧ header = headerBytes tunerType gainCount := by
  constructor
  · intro hvalid
    simp only [validateRtlTcpHeader] at hvalid
    split at hvalid
    · cases hvalid
    · next hmagic =>
      split at hvalid
      · cases hvalid
      · next htuner =>
        split at hvalid
        · cases hvalid
        · next hgain =>
          refine ⟨_, _, UInt32.not_lt.mp htuner, UInt32.not_lt.mp hgain, ?_⟩
          have htype : ((header.drop 4).take 4).length = 4 := by
            rw [List.length_take, List.length_drop]
            omega
          have hcount : (header.drop 8).length = 4 := by
            rw [List.length_drop]
            omega
          rw [← readBe32_take (header.drop 4), headerBytes, htonl_readBe32 htype,
            htonl_readBe32 hcount, ← Decidable.not_not.mp hmagic]
          conv_lhs => rw [← List.take_append_drop 4 header,
            ← List.take_append_drop 4 (header.drop 4), List.drop_drop]
  · rintro ⟨tunerType, gainCount, htuner, hgain, rfl⟩
    have htype : readBe32 ((headerBytes tunerType gainCount).drop 4) = tunerType := by
      rw [← readBe32_take]
      exact readBe32_htonl tunerType
    have hcount : readBe32 ((headerBytes tunerType gainCount).drop 8) = gainCount :=
      readBe32_htonl gainCount
    have hmagic : ¬ (headerBytes tunerType gainCount).take 4 ≠ rtl0 := fun h => h rfl
    simp only [validateRtlTcpHeader, htype, hcount]
    rw [if_neg hmagic, if_neg (UInt32.not_lt.mpr htuner), if_neg (UInt32.not_lt.mpr hgain)]

/-- A connection is accepted exactly when the first bytes that arrive, in
    whatever pieces, are the header of a known tuner. -/
theorem header_accepted_iff (results : List RecvResult) :
    headerOutcome results = .accepted ↔
      ∃ tunerType gainCount rest, tunerType ≤ kRtlTcpMaxTunerType ∧
        gainCount ≤ kRtlTcpMaxGainCount ∧
        dataBefore results = headerBytes tunerType gainCount ++ rest := by
  have hlength (tunerType gainCount : UInt32) :
      (headerBytes tunerType gainCount).length = 12 := rfl
  unfold headerOutcome
  rw [readResponse_eq]
  by_cases henough : 12 ≤ (dataBefore results).length
  · have htake : ((dataBefore results).take 12).length = 12 := by
      rw [List.length_take]
      omega
    have hvalid : validateRtlTcpHeader ((dataBefore results).take 12) = true ↔
        ∃ tunerType gainCount rest, tunerType ≤ kRtlTcpMaxTunerType ∧
          gainCount ≤ kRtlTcpMaxGainCount ∧
          dataBefore results = headerBytes tunerType gainCount ++ rest := by
      rw [validateRtlTcpHeader_iff htake]
      constructor
      · rintro ⟨tunerType, gainCount, htuner, hgain, hheader⟩
        refine ⟨tunerType, gainCount, (dataBefore results).drop 12, htuner, hgain, ?_⟩
        rw [← hheader, List.take_append_drop]
      · rintro ⟨tunerType, gainCount, rest, htuner, hgain, hheader⟩
        refine ⟨tunerType, gainCount, htuner, hgain, ?_⟩
        rw [hheader]
        exact List.take_left' (hlength tunerType gainCount)
    simp only [if_pos henough]
    rw [← hvalid]
    cases validateRtlTcpHeader ((dataBefore results).take 12) with
    | true => simp
    | false => simp
  · -- with fewer bytes there is no header to look at
    simp only [if_neg henough]
    constructor
    · intro h
      cases h
    · rintro ⟨tunerType, gainCount, rest, -, -, hheader⟩
      rw [hheader, List.length_append, hlength] at henough
      omega

/-! ### Sending -/

/-- What one call of `send` comes back with. -/
inductive SendResult where
  /-- So many bytes are taken, or all that are left. -/
  | taken (count : Nat)
  | failed
  deriving DecidableEq, Repr

/-- The loop of `RTLTCPClient::sendAll` over what is still to be sent:
    whether all of it is, and what `send` takes. After the results given,
    `send` fails. -/
def sendAll : List UInt8 → List SendResult → Bool × List UInt8
  | data, [] => (data.length = 0, [])
  | data, result :: results =>
    if data.length = 0 then (true, [])
    else
      match result with
      | .failed => (false, [])
      | .taken count =>
        if count = 0 then (false, [])
        else
          let rest := sendAll (data.drop count) results
          (rest.1, data.take count ++ rest.2)

/-- The bytes that `send` is ready to take before it fails. -/
def bytesTaken : List SendResult → Nat
  | [] => 0
  | .failed :: _ => 0
  | .taken count :: results => if count = 0 then 0 else count + bytesTaken results

theorem sendAll_eq (data : List UInt8) (results : List SendResult) :
    sendAll data results =
      (decide (data.length ≤ bytesTaken results), data.take (bytesTaken results)) := by
  induction results generalizing data with
  | nil => simp [sendAll, bytesTaken]
  | cons result results ih =>
    unfold sendAll
    split
    · next hdone =>
      have hnil : data = [] := List.length_eq_zero_iff.mp hdone
      simp [hnil]
    · next hleft =>
      cases result with
      | failed => simp [bytesTaken, List.length_eq_zero_iff.not.mp hleft]
      | taken count =>
        simp only [bytesTaken, ih, List.length_drop]
        split
        · simp [List.length_eq_zero_iff.not.mp hleft]
        · next hcount =>
          have hlength : data.length - count ≤ bytesTaken results ↔
              data.length ≤ count + bytesTaken results := by omega
          simp only [hlength, List.take_add]

/-! ### The setters -/

/-- A command as a server reads it. -/
structure RtlTcpCommand where
  cmd : UInt8
  param : UInt32
  deriving DecidableEq, Repr

/-- The buffer of `RTLTCPClient::sendCommand`. -/
def RtlTcpCommand.bytes (command : RtlTcpCommand) : List UInt8 :=
  command.cmd :: htonl command.param

@[simp] theorem RtlTcpCommand.length_bytes (command : RtlTcpCommand) :
    command.bytes.length = 5 := rfl

/-- A call of a setter of `RTLTCPClient`. -/
inductive TuningCall where
  | setFrequency (freqHz : UInt32)
  | setSampleRate (rate : UInt32)
  | setFrequencyCorrection (ppm : Int32)
  | setGainMode (manual : Bool)
  | setGain (gain : UInt32)
  | setAGC (enable : Bool)
  deriving DecidableEq

/-- The arguments of `sendCommand`. -/
def TuningCall.command : TuningCall → RtlTcpCommand
  | .setFrequency freqHz => ⟨0x01, freqHz⟩
  | .setSampleRate rate => ⟨0x02, rate⟩
  | .setFrequencyCorrection ppm => ⟨0x05, ppm.toUInt32⟩
  | .setGainMode manual => ⟨0x03, if manual then 1 else 0⟩
  | .setGain gain => ⟨0x04, gain⟩
  | .setAGC enable => ⟨0x08, if enable then 1 else 0⟩

/-- `RTLTCPClient` with the tuning it reports. -/
structure TuningClient where
  client : RTLTCPClient
  frequency : UInt32
  sampleRate : UInt32

/-- `RTLTCPClient::sendCommand`. -/
def TuningClient.sendCommand (c : TuningClient) (command : RtlTcpCommand)
    (results : List SendResult) : Bool × List UInt8 :=
  -- `sendAll` asks the same once more
  if !c.client.connected || !c.client.socketOpen then (false, [])
  else sendAll command.bytes results

/-- The setters: what is reported follows a command that was sent. -/
def TuningClient.call (c : TuningClient) (call : TuningCall) (results : List SendResult) :
    TuningClient × Bool × List UInt8 :=
  let sent := c.sendCommand call.command results
  let c :=
    match call with
    | .setFrequency freqHz => if sent.1 then { c with frequency := freqHz } else c
    | .setSampleRate rate => if sent.1 then { c with sampleRate := rate } else c
    | _ => c
  (c, sent)

/-! ### A session -/

/-- What is done with a client between two connects. -/
inductive TuningStep where
  | call (call : TuningCall) (results : List SendResult)
  | read (read : IqCall)
  | disconnect

/-- A client since `connect`, with the bytes that `send` took and the calls
    that returned true. -/
structure TuningSession where
  client : TuningClient
  sent : List UInt8
  succeeded : List TuningCall

/-- A session begins when `connect` reads the header. -/
def TuningSession.start (c : TuningClient) (header : List RecvResult) : TuningSession :=
  ⟨{ c with client := c.client.connect (headerOutcome header) }, [], []⟩

def tuningSession : Machine TuningSession TuningStep where
  step s
    | .call call results =>
      let r := s.client.call call results
      ⟨r.1, s.sent ++ r.2.2, if r.2.1 then s.succeeded ++ [call] else s.succeeded⟩
    | .read read =>
      let r := s.client.client.readIQ read.buffer read.maxSamples read.results
      { s with client := { s.client with client := r.client } }
    | .disconnect => { s with client := { s.client with client := s.client.client.disconnect } }

/-- A server takes five bytes for a command. -/
def readCommand (block : List UInt8) : RtlTcpCommand := ⟨block.headD 0, readBe32 block.tail⟩

/-- The commands a server reads from a stream. -/
def commandsIn (stream : List UInt8) : List RtlTcpCommand := (blocks 5 stream).map readCommand

/-- While connected, `send` takes a command whole, or nothing of it. -/
def CutsNoCommand (s : TuningSession) : TuningStep → Prop
  | .call _ results =>
    s.client.client.connected = true ∧ s.client.client.socketOpen = true →
      bytesTaken results = 0 ∨ 5 ≤ bytesTaken results
  | _ => True

theorem readCommand_bytes (command : RtlTcpCommand) : readCommand command.bytes = command := by
  simp [readCommand, RtlTcpCommand.bytes]

theorem commandsIn_flatten (commands : List RtlTcpCommand) :
    commandsIn (commands.map RtlTcpCommand.bytes).flatten = commands ∧
      leftover 5 (commands.map RtlTcpCommand.bytes).flatten = [] := by
  have hsize : ∀ b ∈ commands.map RtlTcpCommand.bytes, b.length = 5 := by
    intro b hb
    obtain ⟨command, -, rfl⟩ := List.mem_map.mp hb
    exact command.length_bytes
  refine ⟨?_, leftover_flatten (by omega) hsize⟩
  rw [commandsIn, blocks_flatten (by omega) hsize, List.map_map]
  exact List.map_id'' readCommand_bytes commands

/-! ### One step -/

/-- A step sends nothing, or the command of a call that returns true; or it
    cuts a command, and the call returns false. -/
theorem tuningStep_cases (s : TuningSession) (step : TuningStep) :
    (CutsNoCommand s step ∧ (tuningSession.step s step).sent = s.sent ∧
      (tuningSession.step s step).succeeded = s.succeeded) ∨
    (∃ call, CutsNoCommand s step ∧
      (tuningSession.step s step).sent = s.sent ++ call.command.bytes ∧
      (tuningSession.step s step).succeeded = s.succeeded ++ [call]) ∨
    (¬ CutsNoCommand s step ∧ s.sent.length < (tuningSession.step s step).sent.length ∧
      (tuningSession.step s step).succeeded = s.succeeded) := by
  cases step with
  | read read => exact .inl ⟨trivial, rfl, rfl⟩
  | disconnect => exact .inl ⟨trivial, rfl, rfl⟩
  | call call results =>
    have hlength : call.command.bytes.length = 5 := call.command.length_bytes
    by_cases hopen : s.client.client.connected = true ∧ s.client.client.socketOpen = true
    · obtain ⟨hconnected, hsocket⟩ := hopen
      have hsent : (s.client.call call results).2 = sendAll call.command.bytes results := by
        simp [TuningClient.call, TuningClient.sendCommand, hconnected, hsocket]
      simp only [tuningSession, CutsNoCommand, hsent, sendAll_eq, hlength, hconnected, hsocket,
        and_self, true_implies, decide_eq_true_eq, List.length_append, List.length_take]
      by_cases hwhole : 5 ≤ bytesTaken results
      · refine .inr (.inl ⟨call, .inr hwhole, ?_, if_pos hwhole⟩)
        rw [List.take_of_length_le (by omega)]
      · rw [if_neg hwhole]
        rcases Nat.eq_zero_or_pos (bytesTaken results) with hnone | hpart
        · exact .inl ⟨.inl hnone, by simp [hnone], rfl⟩
        · exact .inr (.inr ⟨by omega, by omega, rfl⟩)
    · -- without a connection no byte is sent
      have hsent : (s.client.call call results).2 = (false, []) := by
        simp only [TuningClient.call, TuningClient.sendCommand]
        rw [if_pos]
        cases hconnected : s.client.client.connected <;>
          cases hsocket : s.client.client.socketOpen <;> simp_all
      refine .inl ⟨fun h => absurd h hopen, ?_, ?_⟩
      · simp [tuningSession, hsent]
      · simp [tuningSession, hsent]

/-! ### All steps -/

/-- What was sent is the commands of the calls that returned true. -/
def TuningSession.Whole (s : TuningSession) : Prop :=
  s.sent = ((s.succeeded.map TuningCall.command).map RtlTcpCommand.bytes).flatten

theorem TuningSession.Whole.step {s : TuningSession} {step : TuningStep} (h : s.Whole)
    (hstep : CutsNoCommand s step) : (tuningSession.step s step).Whole := by
  unfold TuningSession.Whole at h ⊢
  obtain ⟨-, hsent, hsucceeded⟩ | ⟨call, -, hsent, hsucceeded⟩ | ⟨hcut, -⟩ :=
    tuningStep_cases s step
  · rw [hsent, hsucceeded, h]
  · rw [hsent, hsucceeded, h]
    simp
  · exact absurd hstep hcut

/-- More is never sent for a call that returns true than its command. -/
theorem length_sent_run (s : TuningSession) (steps : List TuningStep) :
    s.sent.length + 5 * (tuningSession.run s steps).succeeded.length ≤
      (tuningSession.run s steps).sent.length + 5 * s.succeeded.length := by
  induction steps generalizing s with
  | nil => exact Nat.le_refl _
  | cons step steps ih =>
    have hrest := ih (tuningSession.step s step)
    rw [Machine.run_cons]
    obtain ⟨-, hsent, hsucceeded⟩ | ⟨call, -, hsent, hsucceeded⟩ | ⟨-, hsent, hsucceeded⟩ :=
      tuningStep_cases s step
    · rw [hsent, hsucceeded] at hrest
      exact hrest
    · rw [hsent, hsucceeded, List.length_append, List.length_append, RtlTcpCommand.length_bytes,
        List.length_singleton] at hrest
      omega
    · rw [hsucceeded] at hrest
      omega

/-- A session that is out of step stays so, by as many bytes: what is sent
    whole behind a cut does not bring it back. -/
theorem length_leftover_run (s : TuningSession) {steps : List TuningStep}
    (h : tuningSession.Meets CutsNoCommand s steps) :
    (leftover 5 (tuningSession.run s steps).sent).length = (leftover 5 s.sent).length := by
  induction steps generalizing s with
  | nil => rfl
  | cons step steps ih =>
    obtain ⟨hclean, hrest⟩ := h
    rw [Machine.run_cons, ih _ hrest, length_leftover, length_leftover]
    obtain ⟨-, hsent, -⟩ | ⟨call, -, hsent, -⟩ | ⟨hcut, -⟩ := tuningStep_cases s step
    · rw [hsent]
    · rw [hsent, List.length_append, RtlTcpCommand.length_bytes, Nat.add_mod_right]
    · exact absurd hclean hcut

/-- If nothing else was sent, no command was cut. -/
theorem cutsNoCommand_of_length (s : TuningSession) (steps : List TuningStep)
    (h : (tuningSession.run s steps).sent.length + 5 * s.succeeded.length =
      s.sent.length + 5 * (tuningSession.run s steps).succeeded.length) :
    tuningSession.Meets CutsNoCommand s steps := by
  induction steps generalizing s with
  | nil => trivial
  | cons step steps ih =>
    have hrest := length_sent_run (tuningSession.step s step) steps
    rw [Machine.run_cons] at h
    obtain ⟨hclean, hsent, hsucceeded⟩ | ⟨call, hclean, hsent, hsucceeded⟩ |
        ⟨-, hsent, hsucceeded⟩ := tuningStep_cases s step
    · refine ⟨hclean, ih _ ?_⟩
      rw [hsent, hsucceeded]
      exact h
    · refine ⟨hclean, ih _ ?_⟩
      rw [hsent, hsucceeded, List.length_append, List.length_append, RtlTcpCommand.length_bytes,
        List.length_singleton]
      omega
    · -- the bytes of a command that was cut are never made up for
      rw [hsucceeded] at hrest
      omega

theorem commandsIn_sent (c : TuningClient) (header : List RecvResult) {steps : List TuningStep}
    (hclean : tuningSession.Meets CutsNoCommand (.start c header) steps) :
    let s := tuningSession.run (.start c header) steps
    commandsIn s.sent = s.succeeded.map TuningCall.command ∧ leftover 5 s.sent = [] := by
  intro s
  have hstep : ∀ s step, TuningSession.Whole s → CutsNoCommand s step →
      (tuningSession.step s step).Whole := fun _ _ h hstep => h.step hstep
  have hstart : (TuningSession.start c header).Whole := rfl
  have hwhole : s.Whole := Machine.run_invariant hstep hstart hclean
  unfold TuningSession.Whole at hwhole
  rw [hwhole]
  exact commandsIn_flatten _

/-- A server reads exactly the commands whose calls returned true, with
    nothing behind them, if and only if `send` never cuts a command. -/
theorem commands_delivered_iff (c : TuningClient) (header : List RecvResult)
    (steps : List TuningStep) :
    let s := tuningSession.run (.start c header) steps
    (commandsIn s.sent = s.succeeded.map TuningCall.command ∧ leftover 5 s.sent = []) ↔
      tuningSession.Meets CutsNoCommand (.start c header) steps := by
  intro s
  constructor
  · rintro ⟨hcommands, hleft⟩
    have hcount := congrArg List.length hcommands
    have hrest : (leftover 5 s.sent).length = s.sent.length % 5 := length_leftover s.sent
    rw [hleft, List.length_nil] at hrest
    simp only [commandsIn, blocks, List.length_map, List.length_range] at hcount
    refine cutsNoCommand_of_length _ _ ?_
    show s.sent.length + 5 * 0 = 0 + 5 * s.succeeded.length
    omega
  · exact commandsIn_sent c header

-- two bytes of a tune command get out, then a gain: the server reads a
-- frequency that nobody asked for
example :
    let s := tuningSession.run (.start ⟨⟨false, false, false, 0⟩, 0, 0⟩ [.data (headerBytes 5 29)])
      [.call (.setFrequency 98500000) [.taken 2, .failed], .call (.setGain 30) [.taken 5]]
    s.succeeded = [.setGain 30] ∧ commandsIn s.sent = [⟨0x01, 0x05040000⟩] := by
  decide

/-! ### What is reported -/

/-- The frequency after a call that gets through. -/
def TuningCall.tunes (frequency : UInt32) : TuningCall → UInt32
  | .setFrequency freqHz => freqHz
  | _ => frequency

/-- The frequency of a server after a command. -/
def RtlTcpCommand.tunes (frequency : UInt32) (command : RtlTcpCommand) : UInt32 :=
  if command.cmd = 0x01 then command.param else frequency

theorem tunes_command (frequency : UInt32) (call : TuningCall) :
    call.command.tunes frequency = call.tunes frequency := by
  cases call <;> rfl

theorem TuningClient.call_frequency (c : TuningClient) (call : TuningCall)
    (results : List SendResult) :
    (c.call call results).1.frequency =
      if (c.call call results).2.1 then call.tunes c.frequency else c.frequency := by
  cases call with
  | setFrequency => exact apply_ite TuningClient.frequency _ _ _
  | setSampleRate => exact apply_ite TuningClient.frequency _ _ _
  | setFrequencyCorrection => exact (ite_self _).symm
  | setGainMode => exact (ite_self _).symm
  | setGain => exact (ite_self _).symm
  | setAGC => exact (ite_self _).symm

/-- The frequency that is reported is that of the calls that returned true. -/
theorem frequency_reported (c : TuningClient) (header : List RecvResult) (steps : List TuningStep) :
    (tuningSession.run (.start c header) steps).client.frequency =
      (tuningSession.run (.start c header) steps).succeeded.foldl TuningCall.tunes c.frequency := by
  have hstep : ∀ (s : TuningSession) step,
      s.client.frequency = s.succeeded.foldl TuningCall.tunes c.frequency →
      (tuningSession.step s step).client.frequency =
        (tuningSession.step s step).succeeded.foldl TuningCall.tunes c.frequency := by
    intro s step h
    cases step with
    | read => exact h
    | disconnect => exact h
    | call call results =>
      show (s.client.call call results).1.frequency = List.foldl _ _ (if _ then _ else _)
      rw [TuningClient.call_frequency]
      split
      · rw [List.foldl_append, ← h]
        rfl
      · exact h
  exact Machine.run_invariant_always hstep steps rfl

/-- As long as no command is cut, the server is tuned to the frequency that
    the client reports. -/
theorem tuned_as_reported (c : TuningClient) (header : List RecvResult) {steps : List TuningStep}
    (h : tuningSession.Meets CutsNoCommand (.start c header) steps) :
    (tuningSession.run (.start c header) steps).client.frequency =
      (commandsIn (tuningSession.run (.start c header) steps).sent).foldl RtlTcpCommand.tunes
        c.frequency := by
  obtain ⟨hcommands, -⟩ := commandsIn_sent c header h
  rw [hcommands, List.foldl_map, frequency_reported]
  simp only [tunes_command]

end FmSdrTuner
