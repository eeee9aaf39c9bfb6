import FmSdrTuner.Config.LoadFile
import FmSdrTuner.Framework.ArgumentScan

/-! # The command line

    `parseAppOptions` goes over the arguments twice. The first pass looks
    for the configuration file alone, since the file is loaded before the
    command line overrides it. The second pass knows all options; here they
    are a table, in the order of its comparisons.

    What stands outside is a parameter: which files open and what they
    contain, whether the audio devices can be listed, and floating-point
    numbers. The messages are left out. -/

namespace FmSdrTuner

/-! ### The options -/

/-- `AppOptions`. -/
structure AppOptions (δ : Type) where
  config : Config δ
  configPath : Text := []
  tcpHost : Text := []
  tcpPort : Nat := 1234
  iqSampleRate : Nat := 256000
  tunerSource : Text := "rtl_sdr".toList
  rtlDeviceIndex : Nat := 0
  freqKHz : Nat := 87500
  gain : Int := -1
  wavFile : Text := []
  mpxWavFile : Text := []
  mpxWavSampleRate : Nat := 0
  mpxGainDb : δ
  mpxAudioEnabled : Bool := false
  mpxAudioDevice : Text := []
  iqFile : Text := []
  enableSpeaker : Bool := false
  audioDevice : Text := []
  xdrPassword : Text := []
  xdrGuestMode : Bool := false
  xdrPort : Nat := 7373
  autoReconnect : Bool := true
  autoStart : Bool := false
  lowLatencyIq : Bool := false
  verboseLogging : Bool := true
  stereoBlendOverride : Text := []
  calibrate : Bool := false

/-- `AppParseOutcome`. -/
inductive AppParseOutcome where
  | run
  | exitSuccess
  | exitFailure
  deriving DecidableEq, Repr

/-- The files that open, with their contents. -/
abbrev FileSystem := Text → Option Text

/-- What `parseAppOptions` finds outside the command line. -/
structure Startup (δ : Type) where
  doubles : Doubles δ
  files : FileSystem
  /-- `AudioOutput::listDevices`. -/
  listDevices : Bool
  /-- `std::stof`; `none` where it throws. -/
  stof : Text → Option δ
  /-- `operator<` of `float`, false where one is not a number. -/
  less : δ → δ → Bool

namespace CommandLine

variable {δ : Type}

/-! ### Values -/

/-- `std::stoi`; `none` where it throws. -/
def stoi (s : Text) : Option Int :=
  match scanInteger s with
  | none => none
  | some n => if intMin ≤ n.value ∧ n.value ≤ intMax then some n.value else none

/-- A value and whether the options take it. -/
abbrev Accept (δ : Type) := Text → AppOptions δ → Bool × AppOptions δ

/-- `value.empty() || !parse…(value)` fails. -/
def nonempty (accept : Accept δ) : Accept δ := fun value opts =>
  if value.isEmpty then (false, opts) else accept value opts

/-- The value is stored as it is. -/
def stored (store : Text → AppOptions δ → AppOptions δ) : Accept δ :=
  nonempty fun value opts => (true, store value opts)

/-- An integer that `std::stoi` reads, if it can be used. -/
def integer (store : Int → AppOptions δ → Option (AppOptions δ)) : Accept δ := fun value opts =>
  match stoi value with
  | none => (false, opts)
  | some parsed =>
    match store parsed opts with
    | none => (false, opts)
    | some opts => (true, opts)

/-- `parseSourceOption`. -/
def parseSourceOption (value : Text) : Option Text :=
  let value := Config.toLower value
  if value = "rtl_tcp".toList ∨ value = "tcp".toList then some "rtl_tcp".toList
  else if value = "rtl_sdr".toList ∨ value = "sdr".toList then some "rtl_sdr".toList
  else if value = "sdrplay".toList ∨ value = "rsp".toList then some "sdrplay".toList
  else none

/-- `parseTcpOption`. The host is stored before the port is read. -/
def parseTcpOption : Accept δ := fun value opts =>
  match find [':'] value with
  | some colon =>
    integer (fun parsedPort opts =>
        if parsedPort < 1 ∨ 65535 < parsedPort then none
        else some { opts with tcpPort := Config.toUInt16 parsedPort })
      (value.drop (colon + 1)) { opts with tcpHost := value.take colon }
  | none => (true, { opts with tcpHost := value })

/-- `parseIntOption`, for the gain. -/
def parseIntOption : Accept δ := integer fun parsed opts => some { opts with gain := parsed }

/-- `parseUIntFreqKHz`. -/
def parseUIntFreqKHz : Accept δ := integer fun parsedFreq opts =>
  if parsedFreq ≤ 0 ∨ Config.isValidFmBroadcastFreqKHz (toUInt32 parsedFreq) = false then none
  else some { opts with freqKHz := toUInt32 parsedFreq }

/-- `parseDeviceIndexOption`. -/
def parseDeviceIndexOption : Accept δ := integer fun parsed opts =>
  if parsed < 0 then none else some { opts with rtlDeviceIndex := toUInt32 parsed }

/-! ### The table -/

/-- What an option does. -/
inductive OptionAction (δ : Type) where
  | set (effect : AppOptions δ → AppOptions δ)
  | stop (outcome : AppParseOutcome)
  | value (accept : Accept δ)

/-- An option with its names, without the dashes of the long one. -/
structure CommandOption (δ : Type) where
  short : Option Text
  long : Text
  action : OptionAction δ

def option (short : Option String) (long : String) (action : OptionAction δ) : CommandOption δ :=
  ⟨short.map String.toList, long.toList, action⟩

/-- The configuration file; the second pass only stores its path. -/
def configOption : CommandOption δ :=
  option (some "-c") "config" (.value (stored fun value opts => { opts with configPath := value }))

variable (env : Startup δ)

/-- The comparisons of the second pass, in their order. -/
def commandOptions : List (CommandOption δ) := [
  option (some "-h") "help" (.stop .exitSuccess),
  option none "no-audio" (.set fun opts => { opts with enableSpeaker := false }),
  option (some "-s") "audio" (.set fun opts => { opts with enableSpeaker := true }),
  option none "low-latency-iq" (.set fun opts => { opts with lowLatencyIq := true }),
  option none "auto-start" (.set fun opts => { opts with autoStart := true }),
  option (some "-v") "verbose" (.set fun opts => { opts with verboseLogging := true }),
  option (some "-q") "quiet" (.set fun opts => { opts with verboseLogging := false }),
  option none "no-low-latency-iq" (.set fun opts => { opts with lowLatencyIq := false }),
  option (some "-G") "guest" (.set fun opts => { opts with xdrGuestMode := true }),
  option (some "-l") "list-audio" (.stop (if env.listDevices then .exitSuccess else .exitFailure)),
  option none "calibrate" (.set fun opts => { opts with calibrate := true }),
  configOption,
  option (some "-t") "tcp" (.value (nonempty parseTcpOption)),
  option none "iq-rate" (.value (integer fun parsed opts =>
    if parsed = 256000 ∨ parsed = 1024000 ∨ parsed = 2048000 then
      some { opts with iqSampleRate := toUInt32 parsed }
    else none)),
  option none "source" (.value (nonempty fun value opts =>
    match parseSourceOption value with
    | some source => (true, { opts with tunerSource := source })
    | none => (false, opts))),
  option none "rtl-device" (.value (nonempty parseDeviceIndexOption)),
  option (some "-f") "freq" (.value (nonempty parseUIntFreqKHz)),
  option (some "-g") "gain" (.value (nonempty parseIntOption)),
  option (some "-w") "wav" (.value (stored fun value opts => { opts with wavFile := value })),
  option none "mpx-wav" (.value (stored fun value opts => { opts with mpxWavFile := value })),
  option none "mpx-audio" (.set fun opts => { opts with mpxAudioEnabled := true }),
  option none "mpx-audio-device" (.value (stored fun value opts =>
    { opts with mpxAudioDevice := value, mpxAudioEnabled := true })),
  option none "mpx-rate" (.value (nonempty fun value opts =>
    match strtolPrefix value with
    | some parsed =>
      if parsed < 8000 ∨ 384000 < parsed then (false, opts)
      else (true, { opts with mpxWavSampleRate := toUInt32 parsed })
    | none => (false, opts))),
  option none "mpx-gain-db" (.value (nonempty fun value opts =>
    match env.stof value with
    | some parsed =>
      if env.less parsed (env.doubles.ofInt (-24)) ∨ env.less (env.doubles.ofInt 24) parsed then
        (false, opts)
      else (true, { opts with mpxGainDb := parsed })
    | none => (false, opts))),
  option (some "-i") "iq" (.value (stored fun value opts => { opts with iqFile := value })),
  option (some "-d") "device" (.value (stored fun value opts =>
    { opts with audioDevice := value })),
  option (some "-P") "password" (.value (stored fun value opts =>
    { opts with xdrPassword := value })),
  option none "rest-port" (.value (nonempty (integer fun parsed opts =>
    if parsed < 0 ∨ 65535 < parsed then none
    else
      let rest := { opts.config.rest with
        port := Config.toUInt16 parsed
        enabled := decide (parsed ≠ 0) }
      some { opts with config := { opts.config with rest := rest } }))),
  option none "rest-bind" (.value (stored fun value opts =>
    let rest := { opts.config.rest with bindAddress := value }
    { opts with config := { opts.config with rest := rest } })),
  option (some "-b") "blend" (.value fun value opts =>
    let value := Config.toLower value
    if value ≠ "soft".toList ∧ value ≠ "normal".toList ∧ value ≠ "aggressive".toList then
      (false, opts)
    else (true, { opts with stereoBlendOverride := value }))]

/-! ### The second pass -/

namespace CommandOption
variable (o : CommandOption δ)

/-- The long form with its value attached, up to the value. -/
def attachedPrefix : Text := "--".toList ++ o.long ++ "=".toList

/-- The comparison of an argument with the names of the option. -/
def named (arg : Text) : Bool := o.short = some arg || arg = "--".toList ++ o.long

/-- Does the argument stand for the option? -/
def isOption (arg : Text) : Bool :=
  match o.action with
  | .value _ => o.named arg || o.attachedPrefix.isPrefixOf arg
  | _ => o.named arg

/-- `readValue`: the value, and whether it is the following argument. -/
def readValue (current : Text) (following : Option Text) : Text × Bool :=
  if o.attachedPrefix.isPrefixOf current then (current.drop o.attachedPrefix.length, false)
  else
    match following with
    | some value => (value, true)
    | none => ([], false)

end CommandOption

/-- What one argument leads to. -/
inductive ArgumentResult (δ : Type) where
  | exit (outcome : AppParseOutcome) (opts : AppOptions δ)
  /-- On to the next argument, or to the one behind it. -/
  | go (opts : AppOptions δ) (skip : Bool)

/-- The branch of an option. -/
def CommandOption.branch (o : CommandOption δ) (arg : Text) (following : Option Text)
    (opts : AppOptions δ) : ArgumentResult δ :=
  match o.action with
  | .set effect => .go (effect opts) false
  | .stop outcome => .exit outcome opts
  | .value accept =>
    let read := o.readValue arg following
    let accepted := accept read.1 opts
    if accepted.1 then .go accepted.2 read.2 else .exit .exitFailure accepted.2

/-- The option an argument stands for. -/
def findOption (arg : Text) : Option (CommandOption δ) :=
  (commandOptions env).find? (·.isOption arg)

/-- The body of the loop; an unknown option ends it. -/
def handleArgument (arg : Text) (following : Option Text) (opts : AppOptions δ) :
    ArgumentResult δ :=
  match findOption env arg with
  | some o => o.branch arg following opts
  | none => .exit .exitFailure opts

/-- The second pass. -/
def secondPass : List Text → AppOptions δ → AppParseOutcome × AppOptions δ
  | [], opts => (.run, opts)
  | [arg], opts =>
    match handleArgument env arg none opts with
    | .exit outcome opts => (outcome, opts)
    | .go opts _ => (.run, opts)
  | arg :: following :: rest, opts =>
    match handleArgument env arg (some following) opts with
    | .exit outcome opts => (outcome, opts)
    | .go opts true => secondPass rest opts
    | .go opts false => secondPass (following :: rest) opts

/-! ### The first pass -/

/-- The first pass, over what is stored so far. -/
def firstPass (configPath : Text) : List Text → Text
  | [] => configPath
  | [arg] => if "--config=".toList.isPrefixOf arg then arg.drop 9 else configPath
  | arg :: value :: rest =>
    if arg = "-c".toList then firstPass value rest
    else if "--config=".toList.isPrefixOf arg then firstPass (arg.drop 9) (value :: rest)
    else if arg = "--config".toList then firstPass value rest
    else firstPass configPath (value :: rest)

def autoConfig : Text := "fm-sdr-tuner.ini".toList

/-- The path of the configuration file; the file in the working directory
    stands in where none is given. -/
def configPath (files : FileSystem) (argv : List Text) : Text :=
  let path := firstPass [] argv
  if path.isEmpty ∧ (files autoConfig).isSome then autoConfig else path

/-- The file that is loaded. -/
def loadedFile (files : FileSystem) (argv : List Text) : Option Text :=
  let path := configPath files argv
  if path.isEmpty then none else some path

/-! ### Both passes -/

/-- `AppOptions` with its member initialisers. -/
def initialOptions (config : Config δ) (path : Text) : AppOptions δ where
  config := config
  configPath := path
  mpxGainDb := env.doubles.ofInt (-6)

/-- The options as the configuration sets them. -/
def fromConfig (config : Config δ) (path : Text) : AppOptions δ :=
  { initialOptions env config path with
    verboseLogging := decide (0 < config.debug.logLevel)
    tcpHost := config.rtlTcp.host
    tcpPort := config.rtlTcp.port
    iqSampleRate := config.rtlTcp.sampleRate
    tunerSource := (parseSourceOption config.tuner.source).getD "rtl_sdr".toList
    rtlDeviceIndex := config.tuner.rtlDevice
    freqKHz := config.tuner.defaultFreq
    gain := config.sdr.rtlGainDb
    enableSpeaker := config.audio.enableAudio
    xdrPassword := config.xdr.password
    xdrGuestMode := config.xdr.guestMode
    xdrPort := config.xdr.port
    autoReconnect := config.reconnection.autoReconnect
    lowLatencyIq := config.sdr.lowLatencyIq }

/-- The checks behind the second pass. -/
def checkOptions (inputRate : Nat) (opts : AppOptions δ) : AppParseOutcome :=
  if opts.calibrate = false ∧ opts.wavFile = [] ∧ opts.mpxWavFile = [] ∧ opts.iqFile = [] ∧
      opts.enableSpeaker = false ∧ opts.mpxAudioEnabled = false then .exitFailure
  else if ¬(opts.iqSampleRate = 256000 ∨ opts.iqSampleRate = 1024000 ∨
      opts.iqSampleRate = 2048000) then .exitFailure
  else if opts.iqSampleRate / inputRate = 0 ∨ opts.iqSampleRate % inputRate ≠ 0 then .exitFailure
  else .run

/-- The configuration, and whether its file could be read. -/
def loadConfig (argv : List Text) : Bool × Config δ :=
  let defaults := Config.loadDefaults env.doubles
  match loadedFile env.files argv with
  | some file => Config.loadFromFile env.doubles (env.files file) defaults
  | none => (true, defaults)

/-- `parseAppOptions`, for the arguments behind the name of the program. -/
def parseAppOptions (inputRate : Nat) (argv : List Text) : AppParseOutcome × AppOptions δ :=
  let path := configPath env.files argv
  let loaded := loadConfig env argv
  if loaded.1 = false then (.exitFailure, initialOptions env loaded.2 path)
  else
    match secondPass env argv (fromConfig env loaded.2 path) with
    | (.run, opts) => (checkOptions inputRate opts, opts)
    | stopped => stopped

end CommandLine

end FmSdrTuner
