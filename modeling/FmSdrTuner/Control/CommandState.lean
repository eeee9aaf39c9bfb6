import FmSdrTuner.XdrServer.Commands
import FmSdrTuner.RestServer.Params

/-! # The state shared by clients and the main loop

    `XdrCommandState` holds what clients ask for and the flags that tell
    the main loop to look. XDR and FM-DX commands reach it through the
    callbacks that `XdrFacade` installs, REST requests through the controls
    that `Application::run` installs. Either way a request becomes a list
    of writes to shared atomics, in program order; `Write` is one of them. -/

namespace FmSdrTuner

/-! ### XdrCommandState -/

structure XdrCommandState where
  requestedFrequencyHz : Nat
  requestedCustomGain : Int
  requestedAGCMode : Int
  requestedBandwidthHz : Int
  requestedVolume : Int
  requestedDeemphasis : Int
  requestedForceMono : Bool
  requestedBlendMode : Int
  pendingFrequency : Bool
  pendingGain : Bool
  pendingAGC : Bool
  pendingBandwidth : Bool
  pendingBlendMode : Bool
  deriving DecidableEq, Repr

/-- The constructor: no live blend mode, nothing pending. -/
def XdrCommandState.create (frequencyHz : Nat) (customGain agcMode bandwidthHz volumePercent
    deemphasisMode : Int) (forceMono : Bool) : XdrCommandState where
  requestedFrequencyHz := frequencyHz
  requestedCustomGain := customGain
  requestedAGCMode := agcMode
  requestedBandwidthHz := bandwidthHz
  requestedVolume := volumePercent
  requestedDeemphasis := deemphasisMode
  requestedForceMono := forceMono
  requestedBlendMode := -1
  pendingFrequency := false
  pendingGain := false
  pendingAGC := false
  pendingBandwidth := false
  pendingBlendMode := false

/-- One atomic store; a flag is only ever set by clients. -/
inductive CommandStore where
  | requestedFrequencyHz (hz : Nat)
  | requestedCustomGain (gain : Int)
  | requestedAGCMode (mode : Int)
  | requestedBandwidthHz (hz : Int)
  | requestedVolume (volume : Int)
  | requestedDeemphasis (mode : Int)
  | requestedForceMono (mono : Bool)
  | requestedBlendMode (mode : Int)
  | pendingFrequency
  | pendingGain
  | pendingAGC
  | pendingBandwidth
  | pendingBlendMode
  deriving DecidableEq, Repr

def XdrCommandState.store (c : XdrCommandState) : CommandStore → XdrCommandState
  | .requestedFrequencyHz hz => { c with requestedFrequencyHz := hz }
  | .requestedCustomGain gain => { c with requestedCustomGain := gain }
  | .requestedAGCMode mode => { c with requestedAGCMode := mode }
  | .requestedBandwidthHz hz => { c with requestedBandwidthHz := hz }
  | .requestedVolume volume => { c with requestedVolume := volume }
  | .requestedDeemphasis mode => { c with requestedDeemphasis := mode }
  | .requestedForceMono mono => { c with requestedForceMono := mono }
  | .requestedBlendMode mode => { c with requestedBlendMode := mode }
  | .pendingFrequency => { c with pendingFrequency := true }
  | .pendingGain => { c with pendingGain := true }
  | .pendingAGC => { c with pendingAGC := true }
  | .pendingBandwidth => { c with pendingBandwidth := true }
  | .pendingBlendMode => { c with pendingBlendMode := true }

/-! ### Writes -/

/-- A write of a client thread to shared memory. -/
inductive Write where
  | server (w : ServerStore)
  | command (w : CommandStore)
  /-- `pendingStartRequest.store(true)`. -/
  | startRequest
  /-- `pendingStopRequest.store(true)`. -/
  | stopRequest
  deriving DecidableEq, Repr

/-! ### XdrFacade -/

/-- `XdrFacade::Options`, without the logging. -/
structure FacadeOptions where
  useSdrppGainStrategy : Bool
  allowClientGainOverride : Bool
  fixedLocalGain : Bool
  deriving DecidableEq, Repr

/-- The three checks shared by the gain and the AGC callback. -/
def FacadeOptions.acceptsGain (o : FacadeOptions) : Bool :=
  !o.useSdrppGainStrategy && !o.fixedLocalGain && o.allowClientGainOverride

/-- The callbacks that `installCallbacks` sets. -/
def facadeHooks (o : FacadeOptions) : Hooks where
  installed
    | .antenna _ | .squelch _ | .rotator _ | .alignment _ | .sampling _ _ => false
    | _ => true
  acceptsGain _ := o.acceptsGain
  acceptsAgc _ := o.acceptsGain

/-- The bodies of the callbacks in `installCallbacks`, as writes. -/
def callbackWrites (o : FacadeOptions) : Callback → List Write
  | .freq freqHz => [.command (.requestedFrequencyHz freqHz), .command .pendingFrequency]
  | .volume volume => [.command (.requestedVolume (clamp volume 0 100))]
  | .gain newGain =>
      if o.acceptsGain then
        let rf : Int := if (newGain.tdiv 10).tmod 10 ≠ 0 then 1 else 0
        let ifv : Int := if newGain.tmod 10 ≠ 0 then 1 else 0
        [.command (.requestedCustomGain (rf * 10 + ifv)), .command .pendingGain]
      else []
  | .agc agcMode =>
      if o.acceptsGain then
        [.command (.requestedAGCMode (clamp agcMode 0 3)), .command .pendingAGC]
      else []
  | .bandwidth bandwidth =>
      [.command (.requestedBandwidthHz bandwidth), .command .pendingBandwidth]
  | .deemphasis deemphasis => [.command (.requestedDeemphasis (clamp deemphasis 0 2))]
  | .forceMono forceMono => [.command (.requestedForceMono forceMono)]
  | .blendMode blend =>
      [.command (.requestedBlendMode (clamp blend 0 2)), .command .pendingBlendMode]
  | .start => [.startRequest]
  | .stop => [.stopRequest]
  | _ => []

/-- An effect of a command as writes. -/
def effectWrites (o : FacadeOptions) : Effect → List Write
  | .store w => [.server w]
  | .call c => callbackWrites o c

/-! ### REST controls -/

/-- The controls of `Application::run`, as writes. Those that act on the
    tuner, on the REST panel or on the statistics write nothing here. -/
def controlWrites : ControlCall → List Write
  | .setFrequencyHz hz => [.command (.requestedFrequencyHz hz), .command .pendingFrequency]
  | .setBandwidthHz hz => [.command (.requestedBandwidthHz hz), .command .pendingBandwidth]
  | .setDeemphasis mode =>
      if mode < 0 ∨ 2 < mode then [] else [.command (.requestedDeemphasis mode)]
  | .setBlendMode mode =>
      if mode < 0 ∨ 2 < mode then []
      else [.command (.requestedBlendMode mode), .command .pendingBlendMode]
  | .setForceMono mono => [.command (.requestedForceMono mono)]
  | .setVolume volume => [.command (.requestedVolume (clamp volume 0 100))]
  | .start => [.startRequest]
  | .stop => [.stopRequest]
  | _ => []

/-! ### Requests and their flags

    Wherever a frequency or a bandwidth is requested, the flag is set by a
    later write of the same thread. -/

/-- Every write of `ws` that makes a request is followed by its signal. -/
def Signalled (request : Write → Bool) (signal : Write) : List Write → Prop
  | [] => True
  | w :: ws => (request w = true → signal ∈ ws) ∧ Signalled request signal ws

section signalled
variable {request : Write → Bool} {signal : Write}

theorem Signalled.append {ws ws' : List Write} (h : Signalled request signal ws)
    (h' : Signalled request signal ws') : Signalled request signal (ws ++ ws') := by
  induction ws with
  | nil => exact h'
  | cons w ws ih => exact ⟨fun hr => List.mem_append_left _ (h.1 hr), ih h.2⟩

theorem Signalled.flatMap {β : Type} {f : β → List Write}
    (hf : ∀ b, Signalled request signal (f b)) (bs : List β) :
    Signalled request signal (bs.flatMap f) := by
  induction bs with
  | nil => exact trivial
  | cons b bs ih =>
    rw [List.flatMap_cons]
    exact (hf b).append ih

end signalled

/-- A write of `requestedFrequencyHz`. -/
def isFrequencyRequest : Write → Bool
  | .command (.requestedFrequencyHz _) => true
  | _ => false

/-- A write of `requestedBandwidthHz`. -/
def isBandwidthRequest : Write → Bool
  | .command (.requestedBandwidthHz _) => true
  | _ => false

theorem effectWrites_frequency (o : FacadeOptions) (e : Effect) :
    Signalled isFrequencyRequest (.command .pendingFrequency) (effectWrites o e) := by
  cases e with
  | store w => simp [effectWrites, Signalled, isFrequencyRequest]
  | call c =>
    cases c <;> simp [effectWrites, callbackWrites, Signalled, isFrequencyRequest]
    all_goals split <;> simp [Signalled, isFrequencyRequest]

theorem effectWrites_bandwidth (o : FacadeOptions) (e : Effect) :
    Signalled isBandwidthRequest (.command .pendingBandwidth) (effectWrites o e) := by
  cases e with
  | store w => simp [effectWrites, Signalled, isBandwidthRequest]
  | call c =>
    cases c <;> simp [effectWrites, callbackWrites, Signalled, isBandwidthRequest]
    all_goals split <;> simp [Signalled, isBandwidthRequest]

theorem controlWrites_frequency (c : ControlCall) :
    Signalled isFrequencyRequest (.command .pendingFrequency) (controlWrites c) := by
  cases c <;> simp [controlWrites, Signalled, isFrequencyRequest]
  all_goals split <;> simp [Signalled, isFrequencyRequest]

theorem controlWrites_bandwidth (c : ControlCall) :
    Signalled isBandwidthRequest (.command .pendingBandwidth) (controlWrites c) := by
  cases c <;> simp [controlWrites, Signalled, isBandwidthRequest]
  all_goals split <;> simp [Signalled, isBandwidthRequest]

/-- A kind of request: the variable it writes, and the flag that announces
    it, which clients only raise. -/
structure RequestSignal (β : Type) where
  value : XdrCommandState → β
  request : Write → Bool
  signal : CommandStore
  flag : XdrCommandState → Bool
  unchanged : ∀ (c : XdrCommandState) st, request (.command st) = false →
    value (c.store st) = value c
  raises : ∀ c : XdrCommandState, flag (c.store signal) = true
  keeps : ∀ (c : XdrCommandState) st, flag c = true → flag (c.store st) = true
  effect : ∀ o e, Signalled request (.command signal) (effectWrites o e)
  control : ∀ c, Signalled request (.command signal) (controlWrites c)

def frequencySignal : RequestSignal Nat where
  value c := c.requestedFrequencyHz
  request := isFrequencyRequest
  signal := .pendingFrequency
  flag c := c.pendingFrequency
  unchanged c st h := by cases st <;> first | rfl | cases h
  raises _ := rfl
  keeps c st h := by cases st <;> first | rfl | exact h
  effect := effectWrites_frequency
  control := controlWrites_frequency

def bandwidthSignal : RequestSignal Int where
  value c := c.requestedBandwidthHz
  request := isBandwidthRequest
  signal := .pendingBandwidth
  flag c := c.pendingBandwidth
  unchanged c st h := by cases st <;> first | rfl | cases h
  raises _ := rfl
  keeps c st h := by cases st <;> first | rfl | exact h
  effect := effectWrites_bandwidth
  control := controlWrites_bandwidth

end FmSdrTuner
