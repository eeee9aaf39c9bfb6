import FmSdrTuner.Text.Numbers

/-! # XDRServer: state, stores and callbacks

    The fields of `XDRServer` that the command processors, the scan engine
    and the RDS path read and write. Every field is an atomic in the
    source (the PI history and the RDS queue sit behind `m_rdsMutex`), so
    a command is modelled by the *sequence* of its effects: atomic stores
    to the server's fields and invocations of the installed callbacks, in
    program order. Running the sequence at once is the sequential meaning
    of the command; the main-loop model interleaves it with other threads. -/

namespace FmSdrTuner

/-! ### Tuning limits (`tuning_limits.h`) -/

def kFmBroadcastMinFreqKHz : Nat := 64000
def kFmBroadcastMaxFreqKHz : Nat := 108000
def kFmBroadcastMinFreqHz : Nat := kFmBroadcastMinFreqKHz * 1000
def kFmBroadcastMaxFreqHz : Nat := kFmBroadcastMaxFreqKHz * 1000

def isValidFmBroadcastFreqHz (freqHz : Nat) : Bool :=
  kFmBroadcastMinFreqHz ≤ freqHz && freqHz ≤ kFmBroadcastMaxFreqHz

/-! ### PI history (guarded by `m_rdsMutex`) -/

/-- The ring of received PI codes, its packed error bits, and what the
    debounce remembers. -/
structure PiHistory where
  buffer : List (BitVec 16)
  errorBuffer : List (BitVec 8)
  fill : Nat
  pos : Nat
  lastState : Nat
  lastValue : BitVec 16
  deriving DecidableEq, Repr

/-- The history after construction and after a reset. -/
def PiHistory.cleared : PiHistory where
  buffer := List.replicate 64 0
  errorBuffer := List.replicate 8 0
  fill := 0
  pos := 63
  lastState := 4
  lastValue := 0xFFFF

/-! ### Scan configuration -/

/-- `XDRServer::ScanConfig`. -/
structure ScanConfig where
  startKHz : Int := 87500
  stopKHz : Int := 108000
  stepKHz : Int := 100
  bandwidthHz : Int := 0
  antenna : Int := 0
  continuous : Bool := false
  deriving DecidableEq, Repr

/-! ### Server -/

structure XDRServer where
  mode : Int
  frequency : Nat
  volume : Int
  deemphasis : Int
  bandwidth : Int
  antenna : Int
  gain : Int
  agcMode : Int
  daa : Int
  squelch : Int
  rotator : Int
  samplingInterval : Int
  detector : Int
  forceMono : Bool
  pilotTenthsKHz : Int
  /-- `m_scanStartKHz` .. `m_scanContinuous`. -/
  scan : ScanConfig
  scanStartPending : Bool
  scanCancelPending : Bool
  pi : PiHistory
  rdsQueue : List (Nat × Text)
  rdsNextSeq : Nat
  lastRdsMs : Nat
  deriving DecidableEq, Repr

/-- The constructor's initialiser list. -/
def XDRServer.initial : XDRServer where
  mode := 0
  frequency := 88500000
  volume := 100
  deemphasis := 0
  bandwidth := 0
  antenna := 0
  gain := 0
  agcMode := 2
  daa := 0
  squelch := 0
  rotator := 0
  samplingInterval := 66
  detector := 0
  forceMono := false
  pilotTenthsKHz := 0
  scan := {}
  scanStartPending := false
  scanCancelPending := false
  pi := PiHistory.cleared
  rdsQueue := []
  rdsNextSeq := 1
  lastRdsMs := 0

/-! ### Effects of a command -/

/-- One atomic store to a field of the server. -/
inductive ServerStore where
  | mode (v : Int)
  | frequency (hz : Nat)
  | volume (v : Int)
  | deemphasis (v : Int)
  | bandwidth (v : Int)
  | antenna (v : Int)
  | gain (v : Int)
  | agcMode (v : Int)
  | daa (v : Int)
  | squelch (v : Int)
  | rotator (v : Int)
  | samplingInterval (v : Int)
  | detector (v : Int)
  | forceMono (b : Bool)
  | scanStartKHz (v : Int)
  | scanStopKHz (v : Int)
  | scanStepKHz (v : Int)
  | scanBandwidthHz (v : Int)
  | scanAntenna (v : Int)
  | scanContinuous (b : Bool)
  | scanStartPending
  | scanCancelPending
  deriving DecidableEq, Repr

def XDRServer.store (s : XDRServer) : ServerStore → XDRServer
  | .mode v => { s with mode := v }
  | .frequency hz => { s with frequency := hz }
  | .volume v => { s with volume := v }
  | .deemphasis v => { s with deemphasis := v }
  | .bandwidth v => { s with bandwidth := v }
  | .antenna v => { s with antenna := v }
  | .gain v => { s with gain := v }
  | .agcMode v => { s with agcMode := v }
  | .daa v => { s with daa := v }
  | .squelch v => { s with squelch := v }
  | .rotator v => { s with rotator := v }
  | .samplingInterval v => { s with samplingInterval := v }
  | .detector v => { s with detector := v }
  | .forceMono b => { s with forceMono := b }
  | .scanStartKHz v => { s with scan.startKHz := v }
  | .scanStopKHz v => { s with scan.stopKHz := v }
  | .scanStepKHz v => { s with scan.stepKHz := v }
  | .scanBandwidthHz v => { s with scan.bandwidthHz := v }
  | .scanAntenna v => { s with scan.antenna := v }
  | .scanContinuous b => { s with scan.continuous := b }
  | .scanStartPending => { s with scanStartPending := true }
  | .scanCancelPending => { s with scanCancelPending := true }

/-- An invocation of one of the server's callbacks, with its arguments. -/
inductive Callback where
  | freq (freqHz : Nat)
  | volume (volume : Int)
  | gain (gain : Int)
  | agc (mode : Int)
  | mode (mode : Int)
  | deemphasis (mode : Int)
  | bandwidth (bandwidth : Int)
  | antenna (antenna : Int)
  | squelch (squelch : Int)
  | rotator (rotator : Int)
  | alignment (daa : Int)
  | sampling (interval detector : Int)
  | blendMode (blend : Int)
  | forceMono (mono : Bool)
  | start
  | stop
  deriving DecidableEq, Repr

/-- Which callbacks are installed (`if (m_xxxCallback)`), and what the two
    callbacks that can reject answer. -/
structure Hooks where
  installed : Callback → Bool
  acceptsGain : Int → Bool
  acceptsAgc : Int → Bool

inductive Effect where
  | store (w : ServerStore)
  | call (c : Callback)
  deriving DecidableEq, Repr

/-- `if (m_xxxCallback) m_xxxCallback(...)`. -/
def Hooks.invoke (hooks : Hooks) (c : Callback) : List Effect :=
  if hooks.installed c then [.call c] else []

@[simp] theorem Hooks.mem_invoke {hooks : Hooks} {c : Callback} {e : Effect} :
    e ∈ hooks.invoke c ↔ hooks.installed c = true ∧ e = .call c := by
  unfold Hooks.invoke
  split <;> simp_all

/-- What running a command does and answers. -/
structure CommandResult where
  effects : List Effect
  reply : Text
  deriving DecidableEq, Repr

/-- The server after the stores of a command; callbacks act elsewhere. -/
def XDRServer.perform (s : XDRServer) (effects : List Effect) : XDRServer :=
  effects.foldl (fun s e => match e with
    | .store w => s.store w
    | .call _ => s) s

end FmSdrTuner
