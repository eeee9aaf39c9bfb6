import FmSdrTuner.Framework.Settings
import FmSdrTuner.RestServer.Request
import FmSdrTuner.XdrServer.State

/-! # Config: the sections

    The configuration is a record of ten sections. Each section has a
    function that is given a key and a value, both trimmed: a chain of
    comparisons with the keys of the section, each followed by a parser, a
    check or a clamp, and an assignment. The chain is a list of settings.

    A `double` is read and clamped by the parameter `Doubles`. -/

namespace FmSdrTuner

/-- What the loader does with a `double`: `stod` with the check that the
    whole string is read, constants, and `std::clamp`. -/
structure Doubles (δ : Type) where
  stodAll : Text → Option δ
  ofInt : Int → δ
  clamp : δ → δ → δ → δ

namespace Config

/-! ### The record (`config.h`) -/

structure RTLTCPSection where
  host : Text := "localhost".toList
  port : Nat := 1234
  sampleRate : Nat := 256000

structure AudioSection where
  device : Text := []
  enableAudio : Bool := true
  startupVolume : Int := 100

structure SDRSection (δ : Type) where
  rtlGainDb : Int := -1
  freqCorrectionPpm : Int := 0
  defaultCustomGainFlags : Int := 0
  gainStrategy : Text := "tef".toList
  sdrppRtlAgc : Bool := false
  sdrppRtlAgcGainDb : Int := 18
  signalFloorDbfs : δ
  signalCeilDbfs : δ
  signalBiasDb : δ
  lowLatencyIq : Bool := false

structure TunerSection where
  source : Text := "rtl_sdr".toList
  rtlDevice : Nat := 0
  defaultFreq : Nat := 87500
  deemphasis : Int := 0

structure SDRplaySection where
  agc : Bool := true
  lnaState : Int := 8
  antenna : Int := 0
  biasTee : Bool := false

structure RestSection where
  enabled : Bool := false
  port : Nat := 0
  bindAddress : Text := "127.0.0.1".toList

structure XDRSection where
  port : Nat := 7373
  password : Text := []
  guestMode : Bool := false

structure ProcessingSection (δ : Type) where
  agcMode : Int := 2
  clientGainAllowed : Bool := true
  dspBlockSamples : Int := 8192
  w0BandwidthHz : Int := 194000
  dspAgc : Text := "off".toList
  stereoBlend : Text := "aggressive".toList
  stereo : Bool := true
  pilotCanceller : Bool := true
  hicut : Text := "off".toList
  adaptiveBandwidth : Text := "off".toList
  multipathEq : Text := "off".toList
  multipathEqTaps : Int := 17
  fadeMute : Text := "off".toList
  iqFirL1Normalize : Bool := false
  squelchDbfs : δ

structure DebugSection where
  logLevel : Int := 1

structure ReconnectionSection where
  autoReconnect : Bool := true

end Config

structure Config (δ : Type) where
  rtlTcp : Config.RTLTCPSection
  audio : Config.AudioSection
  sdr : Config.SDRSection δ
  tuner : Config.TunerSection
  sdrplay : Config.SDRplaySection
  rest : Config.RestSection
  xdr : Config.XDRSection
  processing : Config.ProcessingSection δ
  debug : Config.DebugSection
  reconnection : Config.ReconnectionSection

namespace Config

variable {δ : Type} (D : Doubles δ)

/-- `Config::loadDefaults`. -/
def loadDefaults : Config δ where
  rtlTcp := {}
  audio := {}
  sdr :=
    { signalFloorDbfs := D.ofInt (-65)
      signalCeilDbfs := D.ofInt (-5)
      signalBiasDb := D.ofInt 0 }
  tuner := {}
  sdrplay := {}
  rest := {}
  xdr := {}
  processing := { squelchDbfs := D.ofInt (-120) }
  debug := {}
  reconnection := {}

/-! ### Parsers -/

/-- `toLower`. -/
def toLower (value : Text) : Text := value.map Char.toLower

/-- `parseBool`. -/
def parseBool (raw : Text) : Option Bool :=
  let value := toLower (trim raw)
  if value = "1".toList ∨ value = "true".toList ∨ value = "yes".toList ∨ value = "on".toList then
    some true
  else if value = "0".toList ∨ value = "false".toList ∨ value = "no".toList ∨
      value = "off".toList then some false
  else none

/-- `parseInt`. -/
def parseInt (raw : Text) : Option Int := stoiAll (trim raw)

/-- `parseDouble`. -/
def parseDouble (raw : Text) : Option δ := D.stodAll (trim raw)

/-- `fm_tuner::isValidFmBroadcastFreqKHz`. -/
def isValidFmBroadcastFreqKHz (freqKHz : Nat) : Bool :=
  kFmBroadcastMinFreqKHz ≤ freqKHz && freqKHz ≤ kFmBroadcastMaxFreqKHz

/-- `static_cast<uint16_t>` of an `int`. -/
def toUInt16 (v : Int) : Nat := (v % 2 ^ 16).toNat

/-! ### Kinds of settings -/

section kinds
variable {S V : Type}

/-- `if (key == …) section.field = value`. -/
def text (key : String) (field : Lens S Text) : KeyedSetting Text Text S :=
  ⟨key.toList, Text, some, field⟩

/-- A flag that `parseBool` reads. -/
def flag (key : String) (field : Lens S Bool) : KeyedSetting Text Text S :=
  ⟨key.toList, Bool, parseBool, field⟩

/-- An `int` that `parseInt` reads, and the field's value for it, if any. -/
def int (key : String) (accept : Int → Option V) (field : Lens S V) : KeyedSetting Text Text S :=
  ⟨key.toList, V, fun value => (parseInt value).bind accept, field⟩

/-- One of some words, in any case. -/
def keyword (key : String) (words : List String) (field : Lens S Text) : KeyedSetting Text Text S :=
  ⟨key.toList, Text, fun value =>
    let parsed := toLower (trim value)
    if parsed ∈ words.map String.toList then some parsed else none, field⟩

/-- A `double` that `parseDouble` reads. -/
def double (key : String) (adjust : δ → δ) (field : Lens S δ) : KeyedSetting Text Text S :=
  ⟨key.toList, δ, fun value => (parseDouble D value).map adjust, field⟩

end kinds

/-- `if (parsed >= lo && parsed <= hi)`. -/
def inRange {V : Type} (lo hi : Int) (convert : Int → V) (parsed : Int) : Option V :=
  if lo ≤ parsed ∧ parsed ≤ hi then some (convert parsed) else none

/-- `std::clamp(parsed, lo, hi)`. -/
def clamped (lo hi parsed : Int) : Option Int := some (clamp parsed lo hi)

/-- The RF and the IF flag of a gain mode, each 0 or 1; the divisions
    truncate. -/
def gainFlags (parsed : Int) : Int :=
  let rf : Int := if (parsed.tdiv 10).tmod 10 ≠ 0 then 1 else 0
  let ifv : Int := if parsed.tmod 10 ≠ 0 then 1 else 0
  rf * 10 + ifv

/-! ### The sections -/

/-- The chain of `parseRtlTcpSection`. -/
def rtlTcpSettings : List (KeyedSetting Text Text RTLTCPSection) :=
  [text "host" ⟨(·.host), fun s v => { s with host := v }, fun _ _ => rfl, fun _ => rfl⟩,
   int "port" (inRange 1 65535 toUInt16)
    ⟨(·.port), fun s v => { s with port := v }, fun _ _ => rfl, fun _ => rfl⟩,
   int "sample_rate"
    (fun parsed => if parsed = 256000 ∨ parsed = 1024000 ∨ parsed = 2048000 then
      some (toUInt32 parsed) else none)
    ⟨(·.sampleRate), fun s v => { s with sampleRate := v }, fun _ _ => rfl, fun _ => rfl⟩]

def parseRtlTcpSection (key value : Text) (rtlTcp : RTLTCPSection) : RTLTCPSection :=
  assign rtlTcpSettings key value rtlTcp

/-- The chain of `parseAudioSection`. -/
def audioSettings : List (KeyedSetting Text Text AudioSection) :=
  [text "device" ⟨(·.device), fun s v => { s with device := v }, fun _ _ => rfl, fun _ => rfl⟩,
   flag "enable_audio"
    ⟨(·.enableAudio), fun s v => { s with enableAudio := v }, fun _ _ => rfl, fun _ => rfl⟩,
   int "startup_volume" (clamped 0 100)
    ⟨(·.startupVolume), fun s v => { s with startupVolume := v }, fun _ _ => rfl, fun _ => rfl⟩]

def parseAudioSection (key value : Text) (audio : AudioSection) : AudioSection :=
  assign audioSettings key value audio

/-- The chain of `parseSdrSection`. -/
def sdrSettings : List (KeyedSetting Text Text (SDRSection δ)) :=
  [int "rtl_gain_db" some
    ⟨(·.rtlGainDb), fun s v => { s with rtlGainDb := v }, fun _ _ => rfl, fun _ => rfl⟩,
   int "freq_correction_ppm" (clamped (-250) 250)
    ⟨(·.freqCorrectionPpm), fun s v => { s with freqCorrectionPpm := v },
      fun _ _ => rfl, fun _ => rfl⟩,
   int "default_custom_gain_flags" (fun parsed => some (gainFlags parsed))
    ⟨(·.defaultCustomGainFlags), fun s v => { s with defaultCustomGainFlags := v },
      fun _ _ => rfl, fun _ => rfl⟩,
   keyword "gain_strategy" ["tef", "sdrpp"]
    ⟨(·.gainStrategy), fun s v => { s with gainStrategy := v }, fun _ _ => rfl, fun _ => rfl⟩,
   flag "sdrpp_rtl_agc"
    ⟨(·.sdrppRtlAgc), fun s v => { s with sdrppRtlAgc := v }, fun _ _ => rfl, fun _ => rfl⟩,
   int "sdrpp_rtl_agc_gain_db" (clamped 0 28)
    ⟨(·.sdrppRtlAgcGainDb), fun s v => { s with sdrppRtlAgcGainDb := v },
      fun _ _ => rfl, fun _ => rfl⟩,
   double D "signal_floor_dbfs" id
    ⟨(·.signalFloorDbfs), fun s v => { s with signalFloorDbfs := v },
      fun _ _ => rfl, fun _ => rfl⟩,
   double D "signal_ceil_dbfs" id
    ⟨(·.signalCeilDbfs), fun s v => { s with signalCeilDbfs := v },
      fun _ _ => rfl, fun _ => rfl⟩,
   double D "signal_bias_db" (fun parsed => D.clamp parsed (D.ofInt (-30)) (D.ofInt 30))
    ⟨(·.signalBiasDb), fun s v => { s with signalBiasDb := v }, fun _ _ => rfl, fun _ => rfl⟩,
   flag "low_latency_iq"
    ⟨(·.lowLatencyIq), fun s v => { s with lowLatencyIq := v }, fun _ _ => rfl, fun _ => rfl⟩]

def parseSdrSection (key value : Text) (sdr : SDRSection δ) : SDRSection δ :=
  assign (sdrSettings D) key value sdr

/-- The chain of `parseTunerSection`. -/
def tunerSettings : List (KeyedSetting Text Text TunerSection) :=
  [keyword "source" ["rtl_sdr", "rtl_tcp", "sdrplay"]
    ⟨(·.source), fun s v => { s with source := v }, fun _ _ => rfl, fun _ => rfl⟩,
   int "rtl_device" (fun parsed => if 0 ≤ parsed then some (toUInt32 parsed) else none)
    ⟨(·.rtlDevice), fun s v => { s with rtlDevice := v }, fun _ _ => rfl, fun _ => rfl⟩,
   int "default_freq"
    -- the band is checked behind the cast
    (fun parsed => if 0 < parsed ∧ isValidFmBroadcastFreqKHz (toUInt32 parsed) = true then
      some (toUInt32 parsed) else none)
    ⟨(·.defaultFreq), fun s v => { s with defaultFreq := v }, fun _ _ => rfl, fun _ => rfl⟩,
   int "deemphasis" some
    ⟨(·.deemphasis), fun s v => { s with deemphasis := v }, fun _ _ => rfl, fun _ => rfl⟩]

def parseTunerSection (key value : Text) (tuner : TunerSection) : TunerSection :=
  assign tunerSettings key value tuner

/-- The chain of `parseSdrplaySection`. -/
def sdrplaySettings : List (KeyedSetting Text Text SDRplaySection) :=
  [flag "agc" ⟨(·.agc), fun s v => { s with agc := v }, fun _ _ => rfl, fun _ => rfl⟩,
   int "lna_state" (inRange 0 27 id)
    ⟨(·.lnaState), fun s v => { s with lnaState := v }, fun _ _ => rfl, fun _ => rfl⟩,
   int "antenna" (inRange 0 2 id)
    ⟨(·.antenna), fun s v => { s with antenna := v }, fun _ _ => rfl, fun _ => rfl⟩,
   flag "bias_tee" ⟨(·.biasTee), fun s v => { s with biasTee := v }, fun _ _ => rfl, fun _ => rfl⟩]

def parseSdrplaySection (key value : Text) (sdrplay : SDRplaySection) : SDRplaySection :=
  assign sdrplaySettings key value sdrplay

/-- The chain of `parseRestSection`. -/
def restSettings : List (KeyedSetting Text Text RestSection) :=
  [flag "enabled" ⟨(·.enabled), fun s v => { s with enabled := v }, fun _ _ => rfl, fun _ => rfl⟩,
   int "port" (inRange 0 65535 toUInt16)
    ⟨(·.port), fun s v => { s with port := v }, fun _ _ => rfl, fun _ => rfl⟩,
   ⟨"bind_address".toList, Text,
    fun value => if (trim value).isEmpty then none else some (trim value),
    ⟨(·.bindAddress), fun s v => { s with bindAddress := v }, fun _ _ => rfl, fun _ => rfl⟩⟩]

def parseRestSection (key value : Text) (rest : RestSection) : RestSection :=
  assign restSettings key value rest

/-- The chain of `parseXdrSection`. -/
def xdrSettings : List (KeyedSetting Text Text XDRSection) :=
  [int "port" (inRange 1 65535 toUInt16)
    ⟨(·.port), fun s v => { s with port := v }, fun _ _ => rfl, fun _ => rfl⟩,
   text "password"
    ⟨(·.password), fun s v => { s with password := v }, fun _ _ => rfl, fun _ => rfl⟩,
   flag "guest_mode"
    ⟨(·.guestMode), fun s v => { s with guestMode := v }, fun _ _ => rfl, fun _ => rfl⟩]

def parseXdrSection (key value : Text) (xdr : XDRSection) : XDRSection :=
  assign xdrSettings key value xdr

/-- The chain of `parseProcessingSection`. -/
def processingSettings : List (KeyedSetting Text Text (ProcessingSection δ)) :=
  [int "agc_mode" some
    ⟨(·.agcMode), fun s v => { s with agcMode := v }, fun _ _ => rfl, fun _ => rfl⟩,
   flag "client_gain_allowed"
    ⟨(·.clientGainAllowed), fun s v => { s with clientGainAllowed := v },
      fun _ _ => rfl, fun _ => rfl⟩,
   int "dsp_block_samples" (clamped 1024 32768)
    ⟨(·.dspBlockSamples), fun s v => { s with dspBlockSamples := v },
      fun _ _ => rfl, fun _ => rfl⟩,
   int "w0_bandwidth_hz" (clamped 0 400000)
    ⟨(·.w0BandwidthHz), fun s v => { s with w0BandwidthHz := v }, fun _ _ => rfl, fun _ => rfl⟩,
   keyword "dsp_agc" ["off", "fast", "slow"]
    ⟨(·.dspAgc), fun s v => { s with dspAgc := v }, fun _ _ => rfl, fun _ => rfl⟩,
   keyword "stereo_blend" ["soft", "normal", "aggressive"]
    ⟨(·.stereoBlend), fun s v => { s with stereoBlend := v }, fun _ _ => rfl, fun _ => rfl⟩,
   flag "stereo" ⟨(·.stereo), fun s v => { s with stereo := v }, fun _ _ => rfl, fun _ => rfl⟩,
   flag "pilot_canceller"
    ⟨(·.pilotCanceller), fun s v => { s with pilotCanceller := v },
      fun _ _ => rfl, fun _ => rfl⟩,
   keyword "hicut" ["off", "gentle", "strong"]
    ⟨(·.hicut), fun s v => { s with hicut := v }, fun _ _ => rfl, fun _ => rfl⟩,
   keyword "adaptive_bandwidth" ["off", "conservative", "aggressive"]
    ⟨(·.adaptiveBandwidth), fun s v => { s with adaptiveBandwidth := v },
      fun _ _ => rfl, fun _ => rfl⟩,
   keyword "multipath_eq" ["off", "light", "aggressive"]
    ⟨(·.multipathEq), fun s v => { s with multipathEq := v }, fun _ _ => rfl, fun _ => rfl⟩,
   int "multipath_eq_taps" (clamped 5 65)
    ⟨(·.multipathEqTaps), fun s v => { s with multipathEqTaps := v },
      fun _ _ => rfl, fun _ => rfl⟩,
   keyword "fade_mute" ["off", "gentle", "strong"]
    ⟨(·.fadeMute), fun s v => { s with fadeMute := v }, fun _ _ => rfl, fun _ => rfl⟩,
   flag "iq_fir_l1_normalize"
    ⟨(·.iqFirL1Normalize), fun s v => { s with iqFirL1Normalize := v },
      fun _ _ => rfl, fun _ => rfl⟩,
   double D "squelch_dbfs" (fun parsed => D.clamp parsed (D.ofInt (-120)) (D.ofInt 0))
    ⟨(·.squelchDbfs), fun s v => { s with squelchDbfs := v }, fun _ _ => rfl, fun _ => rfl⟩]

def parseProcessingSection (key value : Text) (processing : ProcessingSection δ) :
    ProcessingSection δ :=
  assign (processingSettings D) key value processing

/-- The chain of `parseDebugSection`. -/
def debugSettings : List (KeyedSetting Text Text DebugSection) :=
  [int "log_level" some ⟨(·.logLevel), fun _ v => ⟨v⟩, fun _ _ => rfl, fun _ => rfl⟩]

def parseDebugSection (key value : Text) (debug : DebugSection) : DebugSection :=
  assign debugSettings key value debug

/-- The chain of `parseReconnectionSection`. -/
def reconnectionSettings : List (KeyedSetting Text Text ReconnectionSection) :=
  [flag "auto_reconnect" ⟨(·.autoReconnect), fun _ v => ⟨v⟩, fun _ _ => rfl, fun _ => rfl⟩]

def parseReconnectionSection (key value : Text) (reconnection : ReconnectionSection) :
    ReconnectionSection :=
  assign reconnectionSettings key value reconnection

/-- `parseSection`. -/
def parseSection (name key value : Text) (config : Config δ) : Config δ :=
  if name = "rtl_tcp".toList then
    { config with rtlTcp := parseRtlTcpSection key value config.rtlTcp }
  else if name = "audio".toList then
    { config with audio := parseAudioSection key value config.audio }
  else if name = "sdr".toList then
    { config with sdr := parseSdrSection D key value config.sdr }
  else if name = "tuner".toList then
    { config with tuner := parseTunerSection key value config.tuner }
  else if name = "sdrplay".toList then
    { config with sdrplay := parseSdrplaySection key value config.sdrplay }
  else if name = "rest".toList then
    { config with rest := parseRestSection key value config.rest }
  else if name = "xdr".toList then
    { config with xdr := parseXdrSection key value config.xdr }
  else if name = "processing".toList then
    { config with processing := parseProcessingSection D key value config.processing }
  else if name = "debug".toList then
    { config with debug := parseDebugSection key value config.debug }
  else if name = "reconnection".toList then
    { config with reconnection := parseReconnectionSection key value config.reconnection }
  else config

/-- The chain of `parseSection`, as a list of groups. -/
def groups : List (Group Text Text (Config δ)) :=
  [⟨"rtl_tcp".toList, RTLTCPSection,
    ⟨(·.rtlTcp), fun c v => { c with rtlTcp := v }, fun _ _ => rfl, fun _ => rfl⟩,
    rtlTcpSettings⟩,
   ⟨"audio".toList, AudioSection,
    ⟨(·.audio), fun c v => { c with audio := v }, fun _ _ => rfl, fun _ => rfl⟩, audioSettings⟩,
   ⟨"sdr".toList, SDRSection δ,
    ⟨(·.sdr), fun c v => { c with sdr := v }, fun _ _ => rfl, fun _ => rfl⟩, sdrSettings D⟩,
   ⟨"tuner".toList, TunerSection,
    ⟨(·.tuner), fun c v => { c with tuner := v }, fun _ _ => rfl, fun _ => rfl⟩, tunerSettings⟩,
   ⟨"sdrplay".toList, SDRplaySection,
    ⟨(·.sdrplay), fun c v => { c with sdrplay := v }, fun _ _ => rfl, fun _ => rfl⟩,
    sdrplaySettings⟩,
   ⟨"rest".toList, RestSection,
    ⟨(·.rest), fun c v => { c with rest := v }, fun _ _ => rfl, fun _ => rfl⟩, restSettings⟩,
   ⟨"xdr".toList, XDRSection,
    ⟨(·.xdr), fun c v => { c with xdr := v }, fun _ _ => rfl, fun _ => rfl⟩, xdrSettings⟩,
   ⟨"processing".toList, ProcessingSection δ,
    ⟨(·.processing), fun c v => { c with processing := v }, fun _ _ => rfl, fun _ => rfl⟩,
    processingSettings D⟩,
   ⟨"debug".toList, DebugSection,
    ⟨(·.debug), fun c v => { c with debug := v }, fun _ _ => rfl, fun _ => rfl⟩, debugSettings⟩,
   ⟨"reconnection".toList, ReconnectionSection,
    ⟨(·.reconnection), fun c v => { c with reconnection := v }, fun _ _ => rfl, fun _ => rfl⟩,
    reconnectionSettings⟩]

theorem parseSection_eq (name key value : Text) (config : Config δ) :
    parseSection D name key value config = assignIn (groups D) name key value config := by
  unfold groups
  rw [assignIn_cons, assignIn_cons, assignIn_cons, assignIn_cons, assignIn_cons, assignIn_cons,
    assignIn_cons, assignIn_cons, assignIn_cons, assignIn_cons]
  rfl

end Config

end FmSdrTuner
