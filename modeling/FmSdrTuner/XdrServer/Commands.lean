import FmSdrTuner.XdrServer.State

/-! # XDRServer: the two command processors

    `XDRServer::processCommand` (XDR dialect) and
    `XDRServer::processFmdxCommand` (FM-DX dialect), with their argument
    parsers. A command is a pure function from the server, the installed
    callbacks and the line to its effects and its reply; the server is
    read only where the source reads a field to build a reply. -/

namespace FmSdrTuner

/-! ### Argument parsers -/

def parseIntValue (arg : Text) : Option Int := stoiAll arg

/-- Two characters, each `'0'` or `'1'`; the value is `10·rf + if`. -/
def parseTefCustomValue : Text → Option Int
  | [a, b] =>
      if (a = '0' ∨ a = '1') ∧ (b = '0' ∨ b = '1') then
        some (((a.toNat - '0'.toNat : Nat) : Int) * 10 + ((b.toNat - '0'.toNat : Nat) : Int))
      else none
  | _ => none

/-- A frequency in Hz, or in kHz when below 1 000 000. -/
def parseFrequencyHz (arg : Text) : Option Nat :=
  match stoullAll arg with
  | none => none
  | some raw =>
      if raw = 0 then none
      else
        let hz := if raw < 1000000 then raw * 1000 else raw
        if 0xFFFFFFFF < hz then none else some hz

/-- `G%02d`. -/
def formatGain (gain : Int) : Text :=
  let digits := decimalInt gain
  'G' :: (if digits.length < 2 then '0' :: digits else digits)

def formatSampling (interval detector : Int) : Text :=
  'I' :: decimalInt interval ++ ',' :: decimalInt detector

/-- `XDRServer::buildXdrStateSnapshot`. -/
def buildXdrStateSnapshot (s : XDRServer) : Text :=
  let line (name : Char) (v : Int) : Text := name :: decimalInt v ++ ['\n']
  line 'M' s.mode ++ line 'Y' s.volume ++ 'T' :: decimal (s.frequency / 1000) ++ '\n' ::
    line 'D' s.deemphasis ++ line 'A' s.agcMode ++ line 'W' s.bandwidth ++
    line 'Z' s.antenna ++ formatGain s.gain ++ '\n' :: line 'V' s.daa ++
    line 'Q' s.squelch ++ line 'C' s.rotator ++ formatSampling s.samplingInterval s.detector

/-! ### Shared bodies

    Most commands of either dialect parse one integer, bring it into
    range, store it, hand it to a callback and answer. -/

/-- A command that does nothing and answers nothing. -/
def silent : CommandResult := ⟨[], []⟩

/-- Parse, normalise with `norm`, store, call back, echo `name` and the value. -/
def xdrSetter (hooks : Hooks) (name : Char) (norm : Int → Int)
    (store : Int → ServerStore) (callback : Int → Callback) (arg : Text) : CommandResult :=
  match parseIntValue arg with
  | none => silent
  | some parsed =>
      let v := norm parsed
      ⟨.store (store v) :: hooks.invoke (callback v), name :: decimalInt v⟩

/-- The FM-DX form of the same body: `OK` or `ER`. -/
def fmdxSetter (hooks : Hooks) (norm : Int → Int)
    (store : Int → ServerStore) (callback : Int → Callback) (arg : Text) : CommandResult :=
  match parseIntValue arg with
  | none => ⟨[], "ER".toList⟩
  | some parsed =>
      let v := norm parsed
      ⟨.store (store v) :: hooks.invoke (callback v), "OK".toList⟩

/-- TEF alignment: 6 dB steps up to 36 dB. -/
def quantiseAlignment (daa : Int) : Int :=
  clamp ((clamp daa 0 36 + 3) / 6 * 6) 0 36

/-! ### XDR dialect -/

/-- Case `'S'`: TEF-style scan control. -/
def scanCommand : Text → CommandResult
  | [] => ⟨[.store (.scanContinuous false), .store .scanStartPending], []⟩
  | ['m'] => ⟨[.store (.scanContinuous true), .store .scanStartPending], []⟩
  | sub :: value =>
      match parseIntValue value with
      | none => silent
      | some v =>
          match sub with
          | 'a' => ⟨[.store (.scanStartKHz
              (clamp v kFmBroadcastMinFreqKHz kFmBroadcastMaxFreqKHz))], []⟩
          | 'b' => ⟨[.store (.scanStopKHz
              (clamp v kFmBroadcastMinFreqKHz kFmBroadcastMaxFreqKHz))], []⟩
          | 'c' => ⟨[.store (.scanStepKHz (clamp v 5 1000))], []⟩
          | 'w' => ⟨[.store (.scanBandwidthHz (clamp v 0 400000))], []⟩
          | 'z' => ⟨[.store (.scanAntenna (clamp v 0 9))], []⟩
          | _ => silent

/-- Case `'T'`. -/
def tuneCommand (hooks : Hooks) (arg : Text) : CommandResult :=
  match parseFrequencyHz arg with
  | none => silent
  | some freqHz =>
      if isValidFmBroadcastFreqHz freqHz then
        ⟨.store (.frequency freqHz) :: hooks.invoke (.freq freqHz),
          'T' :: decimal (freqHz / 1000)⟩
      else silent

/-- Case `'G'`: the callback is asked first, the field follows its answer. -/
def gainCommand (s : XDRServer) (hooks : Hooks) (arg : Text) : CommandResult :=
  match parseTefCustomValue arg with
  | none => silent
  | some gain =>
      if !hooks.installed (.gain gain) || hooks.acceptsGain gain then
        ⟨hooks.invoke (.gain gain) ++ [.store (.gain gain)], formatGain gain⟩
      else ⟨hooks.invoke (.gain gain), formatGain s.gain⟩

/-- Case `'A'`. -/
def agcCommand (s : XDRServer) (hooks : Hooks) (arg : Text) : CommandResult :=
  match parseIntValue arg with
  | none => silent
  | some parsed =>
      let agcMode := clamp parsed 0 3
      if !hooks.installed (.agc agcMode) || hooks.acceptsAgc agcMode then
        ⟨hooks.invoke (.agc agcMode) ++ [.store (.agcMode agcMode)],
          'A' :: decimalInt agcMode⟩
      else ⟨hooks.invoke (.agc agcMode), 'A' :: decimalInt s.agcMode⟩

/-- Case `'F'`: only the subcommand `Fb<n>` does anything. -/
def blendCommand (hooks : Hooks) : Text → CommandResult
  | 'b' :: value =>
      match parseIntValue value with
      | none => silent
      | some parsed =>
          let blend := clamp parsed 0 2
          ⟨hooks.invoke (.blendMode blend), "Fb".toList ++ decimalInt blend⟩
  | _ => silent

/-- Case `'I'`: interval and, after a comma, detector. -/
def samplingCommand (s : XDRServer) (hooks : Hooks) (arg : Text) : CommandResult :=
  if arg.isEmpty then ⟨[], formatSampling s.samplingInterval s.detector⟩
  else
    let parsed : Option (Int × Int) :=
      if ',' ∈ arg then
        match parseIntValue (arg.takeWhile (· ≠ ',')),
            parseIntValue ((arg.dropWhile (· ≠ ',')).drop 1) with
        | some interval, some detector => some (interval, detector)
        | _, _ => none
      else (parseIntValue arg).map fun interval => (interval, s.detector)
    match parsed with
    | none => silent
    | some p =>
        let interval := clamp p.1 0 1000
        let detector := clamp p.2 0 1
        ⟨.store (.samplingInterval interval) :: .store (.detector detector) ::
            hooks.invoke (.sampling interval detector),
          formatSampling interval detector⟩

/-- Case `'B'`. -/
def forceMonoCommand (hooks : Hooks) (arg : Text) : CommandResult :=
  match parseIntValue arg with
  | none => silent
  | some forceMono =>
      let mono := decide (forceMono ≠ 0)
      ⟨.store (.forceMono mono) :: hooks.invoke (.forceMono mono),
        if mono then "B1".toList else "B0".toList⟩

/-- `XDRServer::processCommand`. -/
def processCommand (s : XDRServer) (hooks : Hooks) (cmd : Text)
    (authenticated guestSession : Bool) : CommandResult :=
  match cmd with
  | [] => ⟨[.store .scanCancelPending], []⟩
  | command :: arg =>
      if !authenticated then ⟨[], "a0".toList⟩
      else match command with
        | 'x' => ⟨hooks.invoke .start, "OK".toList⟩
        | 'X' => ⟨.store .scanCancelPending :: hooks.invoke .stop, "X".toList⟩
        | 'P' => ⟨[], "a2".toList⟩
        | 'S' => scanCommand arg
        | 'T' => tuneCommand hooks arg
        | 'Y' => xdrSetter hooks 'Y' (clamp · 0 100) .volume .volume arg
        | 'V' => xdrSetter hooks 'V' quantiseAlignment .daa .alignment arg
        | 'G' => gainCommand s hooks arg
        | 'A' => agcCommand s hooks arg
        | 'M' => xdrSetter hooks 'M' (clamp · 0 1) .mode .mode arg
        | 'D' => xdrSetter hooks 'D' (clamp · 0 2) .deemphasis .deemphasis arg
        | 'F' => blendCommand hooks arg
        | 'W' => xdrSetter hooks 'W' id .bandwidth .bandwidth arg
        | 'Z' => xdrSetter hooks 'Z' (clamp · 0 9) .antenna .antenna arg
        | 'Q' => xdrSetter hooks 'Q' (clamp · 0 100) .squelch .squelch arg
        | 'C' => xdrSetter hooks 'C' (clamp · (-1) 1) .rotator .rotator arg
        | 'I' => samplingCommand s hooks arg
        | 'B' => forceMonoCommand hooks arg
        | 'N' => ⟨[], 'N' :: decimalInt s.pilotTenthsKHz⟩
        | 'o' => ⟨[], if guestSession then "o0,1".toList else "o1,0".toList⟩
        | _ => silent

/-! ### FM-DX dialect -/

/-- Case `'T'`: unlike the XDR command it does not ask whether the
    frequency is one of the FM broadcast band. -/
def fmdxTuneCommand (hooks : Hooks) (arg : Text) : CommandResult :=
  match parseFrequencyHz arg with
  | none => ⟨[], "ER".toList⟩
  | some freqHz => ⟨.store (.frequency freqHz) :: hooks.invoke (.freq freqHz), "OK".toList⟩

/-- Case `'A'`. -/
def fmdxAgcCommand (hooks : Hooks) (arg : Text) : CommandResult :=
  match parseIntValue arg with
  | none => ⟨[], "ER".toList⟩
  | some parsed =>
      let agc := clamp parsed 0 2
      if !hooks.installed (.agc agc) || hooks.acceptsAgc agc then
        ⟨hooks.invoke (.agc agc) ++ [.store (.agcMode agc)], "OK".toList⟩
      else ⟨hooks.invoke (.agc agc), "ER".toList⟩

/-- Case `'B'`. -/
def fmdxForceMonoCommand (hooks : Hooks) (arg : Text) : CommandResult :=
  match parseIntValue arg with
  | none => ⟨[], "ER".toList⟩
  | some forceMono =>
      let mono := decide (forceMono ≠ 0)
      ⟨.store (.forceMono mono) :: hooks.invoke (.forceMono mono), "OK".toList⟩

/-- Case `'F'`. -/
def fmdxBlendCommand (hooks : Hooks) : Text → CommandResult
  | 'b' :: value =>
      match parseIntValue value with
      | none => ⟨[], "ER".toList⟩
      | some parsed => ⟨hooks.invoke (.blendMode (clamp parsed 0 2)), "OK".toList⟩
  | _ => ⟨[], "ER".toList⟩

/-- The FM-DX volume `-100..100` mapped to `0..100`. -/
def mapFmdxVolume (vol : Int) : Int := clamp ((clamp vol (-100) 100 + 100) / 2) 0 100

/-- `XDRServer::processFmdxCommand`. -/
def processFmdxCommand (s : XDRServer) (hooks : Hooks) (cmd : Text) : CommandResult :=
  match cmd with
  | [] => silent
  | 'T' :: arg => fmdxTuneCommand hooks arg
  | 'Y' :: arg => fmdxSetter hooks mapFmdxVolume .volume .volume arg
  | 'A' :: arg => fmdxAgcCommand hooks arg
  | 'I' :: _ => ⟨[], "F=".toList ++ decimal s.frequency⟩
  | 'B' :: arg => fmdxForceMonoCommand hooks arg
  | 'W' :: arg => fmdxSetter hooks id .bandwidth .bandwidth arg
  | 'F' :: arg => fmdxBlendCommand hooks arg
  | 'D' :: arg => fmdxSetter hooks (clamp · 0 2) .deemphasis .deemphasis arg
  | _ :: _ => ⟨[], "ER".toList⟩

end FmSdrTuner
