import FmSdrTuner.Framework.Machine
import FmSdrTuner.Text.RoundTrip
import FmSdrTuner.XdrServer.Effects
import FmSdrTuner.XdrServer.Rejection

/-! # XDRServer: the state snapshot

    After authentication a client is sent the state of the server as a
    text of commands. Printer and parser are written separately, field by
    field; here they are shown to be inverse to each other on the states
    that commands can reach, whatever they normalise (ranges, 6 dB steps
    of the alignment, gain flags), except that the tuned frequency is
    printed in whole kHz. -/

namespace FmSdrTuner

/-! ### Values a command can store -/

/-- A value that `norm` leaves alone and that can be printed and read back. -/
structure Storable (norm : Int → Int) (v : Int) : Prop where
  norm_eq : norm v = v
  min_le : intMin ≤ v
  le_max : v ≤ intMax

theorem Storable.parse {norm : Int → Int} {v : Int} (h : Storable norm v) :
    parseIntValue (decimalInt v) = some v := stoiAll_decimalInt h.min_le h.le_max

theorem Storable.of_bounds {v lo hi : Int} (h : lo ≤ v ∧ v ≤ hi) (hmin : intMin ≤ lo)
    (hmax : hi ≤ intMax) : Storable (clamp · lo hi) v :=
  ⟨clamp_of_mem h.1 h.2, by omega, by omega⟩

/-- Quantising again changes nothing. -/
theorem Storable.of_steps {v : Int} (h : 0 ≤ v ∧ v ≤ 36 ∧ v % 6 = 0) :
    Storable quantiseAlignment v := by
  have hagain : quantiseAlignment v = v := by
    unfold quantiseAlignment
    rw [clamp_of_mem (v := v) h.1 h.2.1]
    rw [clamp_of_mem (by omega) (by omega)]
    omega
  have hmin : intMin = -2147483648 := rfl
  have hmax : intMax = 2147483647 := rfl
  exact ⟨hagain, by omega, by omega⟩

theorem Storable.of_parse {arg : Text} {v : Int} (h : parseIntValue arg = some v) :
    Storable id v :=
  ⟨rfl, (stoiAll_bounds h).1, (stoiAll_bounds h).2⟩

theorem Storable.clamp (v : Int) {lo hi : Int} (hle : lo ≤ hi) (hmin : intMin ≤ lo)
    (hmax : hi ≤ intMax) : Storable (clamp · lo hi) (clamp v lo hi) :=
  .of_bounds (clamp_bounds v hle) hmin hmax

theorem Storable.quantiseAlignment (v : Int) :
    Storable quantiseAlignment (quantiseAlignment v) :=
  .of_steps (quantiseAlignment_steps v)

/-- What a command may store in a field: a fixed point of what the command
    of that field does to its argument. -/
def ServerStore.InRange : ServerStore → Prop
  | .mode v => Storable (clamp · 0 1) v
  | .frequency hz => isValidFmBroadcastFreqHz hz = true
  | .volume v => Storable (clamp · 0 100) v
  | .deemphasis v => Storable (clamp · 0 2) v
  | .bandwidth v => Storable id v
  | .antenna v => Storable (clamp · 0 9) v
  | .gain v => v = 0 ∨ v = 1 ∨ v = 10 ∨ v = 11
  | .agcMode v => Storable (clamp · 0 3) v
  | .daa v => Storable quantiseAlignment v
  | .squelch v => Storable (clamp · 0 100) v
  | .rotator v => Storable (clamp · (-1) 1) v
  | .samplingInterval v => Storable (clamp · 0 1000) v
  | .detector v => Storable (clamp · 0 1) v
  | _ => True

/-- The fields of the snapshot hold values that a command may store. -/
structure XDRServer.InRange (s : XDRServer) : Prop where
  mode : (ServerStore.mode s.mode).InRange
  frequency : (ServerStore.frequency s.frequency).InRange
  volume : (ServerStore.volume s.volume).InRange
  deemphasis : (ServerStore.deemphasis s.deemphasis).InRange
  bandwidth : (ServerStore.bandwidth s.bandwidth).InRange
  antenna : (ServerStore.antenna s.antenna).InRange
  gain : (ServerStore.gain s.gain).InRange
  agcMode : (ServerStore.agcMode s.agcMode).InRange
  daa : (ServerStore.daa s.daa).InRange
  squelch : (ServerStore.squelch s.squelch).InRange
  rotator : (ServerStore.rotator s.rotator).InRange
  samplingInterval : (ServerStore.samplingInterval s.samplingInterval).InRange
  detector : (ServerStore.detector s.detector).InRange

instance (norm : Int → Int) (v : Int) : Decidable (Storable norm v) :=
  decidable_of_iff (norm v = v ∧ intMin ≤ v ∧ v ≤ intMax)
    ⟨fun h => ⟨h.1, h.2.1, h.2.2⟩, fun h => ⟨h.1, h.2, h.3⟩⟩

theorem XDRServer.inRange_initial : XDRServer.initial.InRange := by
  constructor <;> simp only [ServerStore.InRange] <;> decide

theorem XDRServer.InRange.store {s : XDRServer} (hs : s.InRange) {w : ServerStore}
    (hw : w.InRange) : (s.store w).InRange := by
  obtain ⟨hmode, hfreq, hvol, hdeem, hbw, hant, hgain, hagc, hdaa, hsq, hrot, hint, hdet⟩ := hs
  cases w <;> constructor <;> simp only [XDRServer.store] <;> assumption

theorem XDRServer.InRange.perform {s : XDRServer} (hs : s.InRange) {effects : List Effect}
    (h : ∀ w, Effect.store w ∈ effects → w.InRange) : (s.perform effects).InRange := by
  induction effects generalizing s with
  | nil => exact hs
  | cons e effects ih =>
    have hrest : ∀ w, Effect.store w ∈ effects → w.InRange :=
      fun w hw => h w (List.mem_cons_of_mem _ hw)
    cases e with
    | store w => exact ih (hs.store (h w List.mem_cons_self)) hrest
    | call c => exact ih hs hrest

/-! ### Commands store values in range -/

theorem Setter.inRange {tunes : Nat → Prop} {w : ServerStore} {c : Callback}
    (h : Setter tunes w c) (htunes : ∀ hz, tunes hz → isValidFmBroadcastFreqHz hz = true) :
    w.InRange := by
  cases h with
  | frequency hhz => exact htunes _ hhz
  | bandwidth hv => exact ⟨rfl, hv.1, hv.2⟩
  | alignment hv => exact .of_steps hv
  | forceMono _ | scanCancel => trivial
  | volume hv | mode hv | deemphasis hv | antenna hv | squelch hv | rotator hv =>
    exact .of_bounds hv (by decide) (by decide)

theorem Requester.inRange {hooks : Hooks} {w : ServerStore} {c : Callback} {accepts : Bool}
    (h : Requester hooks w c accepts) : w.InRange := by
  cases h with
  | gain hv => exact hv
  | agc hv => exact .of_bounds hv (by decide) (by decide)

/-- The scan settings are not part of the snapshot. -/
theorem ScanStore.inRange {w : ServerStore} (h : ScanStore w) : w.InRange := by
  cases h <;> trivial

/-- A store is in range; callbacks act elsewhere. -/
def Effect.InRange : Effect → Prop
  | .store w => w.InRange
  | .call _ => True

theorem CommandEffects.inRange {hooks : Hooks} {tunes : Nat → Prop} {effects : List Effect}
    (h : CommandEffects hooks tunes effects)
    (htunes : ∀ hz, tunes hz → isValidFmBroadcastFreqHz hz = true) :
    ∀ e ∈ effects, e.InRange := by
  apply h.forall_mem (P := Effect.InRange)
  · intro w c hsetter
    exact ⟨hsetter.inRange htunes, trivial⟩
  · intro w c accepts hrequester
    exact ⟨hrequester.inRange, trivial⟩
  · intro interval detector hinterval hdetector
    exact ⟨.of_bounds hinterval (by decide) (by decide),
      .of_bounds hdetector (by decide) (by decide), trivial⟩
  · intro c _
    trivial
  · intro w hscan
    exact hscan.inRange

/-- Every store of an XDR command is in range. -/
theorem processCommand_store {s : XDRServer} {hooks : Hooks} {cmd : Text}
    {authenticated guestSession : Bool} {w : ServerStore}
    (h : Effect.store w ∈ (processCommand s hooks cmd authenticated guestSession).effects) :
    w.InRange :=
  (processCommand_effects s hooks cmd authenticated guestSession).inRange (fun _ hband => hband)
    _ h

/-- One line given to the command processor. -/
structure CommandLine where
  line : Text
  authenticated : Bool
  guestSession : Bool

/-- Callbacks that accept what they are asked. -/
def Hooks.accepting (installed : Callback → Bool) : Hooks :=
  ⟨installed, fun _ => true, fun _ => true⟩

/-- The server under XDR commands. -/
def commandMachine (hooks : Hooks) : Machine XDRServer CommandLine where
  step s c := s.perform (processCommand s hooks c.line c.authenticated c.guestSession).effects

theorem XDRServer.InRange.run {s : XDRServer} (hs : s.InRange) (hooks : Hooks)
    (commands : List CommandLine) : ((commandMachine hooks).run s commands).InRange := by
  have hstep : ∀ s c, XDRServer.InRange s → ((commandMachine hooks).step s c).InRange :=
    fun _ _ hs => hs.perform fun _ => processCommand_store
  exact Machine.run_invariant_always hstep commands hs

/-! ### Echoes -/

/-- `line` is answered by itself, and leaves the server in the state `s'`. -/
structure Echoes (hooks : Hooks) (guestSession : Bool) (s : XDRServer) (line : Text)
    (s' : XDRServer) : Prop where
  reply : (processCommand s hooks line true guestSession).reply = line
  server : s.perform (processCommand s hooks line true guestSession).effects = s'

/-- The server tuned to a whole kHz. -/
def XDRServer.wholeKHz (s : XDRServer) : XDRServer :=
  { s with frequency := s.frequency / 1000 * 1000 }

theorem XDRServer.perform_store_invoke (s : XDRServer) (w : ServerStore) (hooks : Hooks)
    (c : Callback) : s.perform (.store w :: hooks.invoke c) = s.store w :=
  (s.store w).perform_invoke hooks c

theorem XDRServer.perform_append (s : XDRServer) (effects more : List Effect) :
    s.perform (effects ++ more) = (s.perform effects).perform more := by
  unfold XDRServer.perform
  exact List.foldl_append

theorem XDRServer.perform_invoke_store (s : XDRServer) (w : ServerStore) (hooks : Hooks)
    (c : Callback) : s.perform (hooks.invoke c ++ [.store w]) = s.store w := by
  rw [s.perform_append, s.perform_invoke]
  rfl

section echoes
variable {installed : Callback → Bool} {guestSession : Bool}

/-- A setter whose argument is the print of a value it leaves alone. -/
theorem Echoes.of_xdrSetter {hooks : Hooks} {s : XDRServer} (name : Char) {norm : Int → Int}
    (store : Int → ServerStore) (callback : Int → Callback)
    (hcommand : ∀ arg, processCommand s hooks (name :: arg) true guestSession =
      xdrSetter hooks name norm store callback arg)
    {v : Int} (h : Storable norm v) :
    Echoes hooks guestSession s (name :: decimalInt v) (s.store (store v)) := by
  have hresult : xdrSetter hooks name norm store callback (decimalInt v) =
      ⟨.store (store v) :: hooks.invoke (callback v), name :: decimalInt v⟩ := by
    unfold xdrSetter
    simp only [h.parse, h.norm_eq]
  constructor
  · rw [hcommand, hresult]
  · rw [hcommand, hresult]
    exact s.perform_store_invoke _ hooks _

theorem isValidFmBroadcastFreqHz_iff (hz : Nat) :
    isValidFmBroadcastFreqHz hz = true ↔ 64000000 ≤ hz ∧ hz ≤ 108000000 := by
  have hmin : kFmBroadcastMinFreqHz = 64000000 := by decide
  have hmax : kFmBroadcastMaxFreqHz = 108000000 := by decide
  unfold isValidFmBroadcastFreqHz
  rw [hmin, hmax, Bool.and_eq_true, decide_eq_true_eq, decide_eq_true_eq]

/-- The tune command with a frequency in kHz, as the snapshot prints it. -/
theorem Echoes.tune {s : XDRServer} {hooks : Hooks} {hz : Nat}
    (h : isValidFmBroadcastFreqHz hz = true) :
    Echoes hooks guestSession s ('T' :: decimal (hz / 1000))
      (s.store (.frequency (hz / 1000 * 1000))) := by
  have hband := (isValidFmBroadcastFreqHz_iff hz).mp h
  have hparse : parseFrequencyHz (decimal (hz / 1000)) = some (hz / 1000 * 1000) := by
    unfold parseFrequencyHz
    rw [stoullAll_decimal (by omega)]
    simp only [show ¬hz / 1000 = 0 by omega, show hz / 1000 < 1000000 by omega,
      show ¬0xFFFFFFFF < hz / 1000 * 1000 by omega, if_true, if_false]
  have hfloor : isValidFmBroadcastFreqHz (hz / 1000 * 1000) = true :=
    (isValidFmBroadcastFreqHz_iff _).mpr (by omega)
  have hresult : processCommand s hooks ('T' :: decimal (hz / 1000)) true guestSession =
      ⟨.store (.frequency (hz / 1000 * 1000)) :: hooks.invoke (.freq (hz / 1000 * 1000)),
        'T' :: decimal (hz / 1000)⟩ := by
    show tuneCommand hooks (decimal (hz / 1000)) = _
    unfold tuneCommand
    simp only [hparse, hfloor, if_true, Nat.mul_div_cancel _ (show 0 < 1000 by decide)]
  constructor
  · rw [hresult]
  · rw [hresult]
    exact s.perform_store_invoke _ hooks _

theorem formatGain_eq {gain : Int} (h : (ServerStore.gain gain).InRange) :
    ∃ arg, formatGain gain = 'G' :: arg ∧ parseTefCustomValue arg = some gain := by
  rcases h with rfl | rfl | rfl | rfl
  · exact ⟨"00".toList, by decide⟩
  · exact ⟨"01".toList, by decide⟩
  · exact ⟨"10".toList, by decide⟩
  · exact ⟨"11".toList, by decide⟩

theorem Echoes.gain {s : XDRServer} {gain : Int} (h : (ServerStore.gain gain).InRange) :
    Echoes (.accepting installed) guestSession s (formatGain gain) (s.store (.gain gain)) := by
  obtain ⟨arg, hformat, hparse⟩ := formatGain_eq h
  have hresult : processCommand s (.accepting installed) ('G' :: arg) true guestSession =
      ⟨(Hooks.accepting installed).invoke (.gain gain) ++ [.store (.gain gain)],
        formatGain gain⟩ := by
    show gainCommand s _ arg = _
    unfold gainCommand
    simp only [hparse, Hooks.accepting, Bool.or_true, if_true]
  rw [hformat]
  constructor
  · rw [hresult, hformat]
  · rw [hresult]
    exact s.perform_invoke_store _ _ _

theorem Echoes.agc {s : XDRServer} {mode : Int} (h : (ServerStore.agcMode mode).InRange) :
    Echoes (.accepting installed) guestSession s ('A' :: decimalInt mode)
      (s.store (.agcMode mode)) := by
  have hparse : parseIntValue (decimalInt mode) = some mode := Storable.parse h
  have hnorm : clamp mode 0 3 = mode := Storable.norm_eq h
  have hresult : processCommand s (.accepting installed) ('A' :: decimalInt mode) true
      guestSession =
      ⟨(Hooks.accepting installed).invoke (.agc mode) ++ [.store (.agcMode mode)],
        'A' :: decimalInt mode⟩ := by
    show agcCommand s _ (decimalInt mode) = _
    unfold agcCommand
    simp only [hparse, hnorm, Hooks.accepting, Bool.or_true, if_true]
  constructor
  · rw [hresult]
  · rw [hresult]
    exact s.perform_invoke_store _ _ _

/-- The two numbers of a sampling command are found at the comma. -/
theorem Echoes.sampling {s : XDRServer} {hooks : Hooks} {interval detector : Int}
    (hinterval : (ServerStore.samplingInterval interval).InRange)
    (hdetector : (ServerStore.detector detector).InRange) :
    Echoes hooks guestSession s (formatSampling interval detector)
      ((s.store (.samplingInterval interval)).store (.detector detector)) := by
  have hcomma : ∀ c ∈ decimalInt interval, (decide (c ≠ ',')) = true := by
    intro c hc
    have hne : c ≠ ',' := by
      rintro rfl
      exact not_mem_decimalInt (by decide) rfl hc
    simpa using hne
  have htake : (decimalInt interval ++ ',' :: decimalInt detector).takeWhile (· ≠ ',') =
      decimalInt interval := by
    rw [List.takeWhile_append_of_pos hcomma]
    simp
  have hdrop : (decimalInt interval ++ ',' :: decimalInt detector).dropWhile (· ≠ ',') =
      ',' :: decimalInt detector := by
    rw [List.dropWhile_append_of_pos hcomma]
    simp
  have hresult : processCommand s hooks (formatSampling interval detector) true guestSession =
      ⟨.store (.samplingInterval interval) :: .store (.detector detector) ::
          hooks.invoke (.sampling interval detector), formatSampling interval detector⟩ := by
    show samplingCommand s hooks (decimalInt interval ++ ',' :: decimalInt detector) = _
    unfold samplingCommand
    rw [if_neg (by simp)]
    simp only [htake, hdrop, List.drop_succ_cons, List.drop_zero, Storable.parse hinterval,
      Storable.parse hdetector, List.mem_append, List.mem_cons, true_or, or_true, if_true,
      hinterval.norm_eq, hdetector.norm_eq]
  constructor
  · rw [hresult]
  · rw [hresult]
    exact (s.store (.samplingInterval interval)).perform_store_invoke _ hooks _

theorem Echoes.blend {s : XDRServer} {hooks : Hooks} {blend : Int}
    (h : Storable (clamp · 0 2) blend) :
    Echoes hooks guestSession s ("Fb".toList ++ decimalInt blend) s := by
  have hnorm : clamp blend 0 2 = blend := h.norm_eq
  have hresult : processCommand s hooks ("Fb".toList ++ decimalInt blend) true guestSession =
      ⟨hooks.invoke (.blendMode blend), "Fb".toList ++ decimalInt blend⟩ := by
    show blendCommand hooks ('b' :: decimalInt blend) = _
    unfold blendCommand
    simp only [h.parse, hnorm]
  constructor
  · rw [hresult]
  · rw [hresult]
    exact s.perform_invoke hooks _

theorem Echoes.forceMono {s : XDRServer} {hooks : Hooks} (mono : Bool) :
    Echoes hooks guestSession s (if mono then "B1".toList else "B0".toList)
      (s.store (.forceMono mono)) := by
  have hresult : processCommand s hooks (if mono then "B1".toList else "B0".toList) true
      guestSession = ⟨.store (.forceMono mono) :: hooks.invoke (.forceMono mono),
        if mono then "B1".toList else "B0".toList⟩ := by
    cases mono <;> rfl
  constructor
  · rw [hresult]
  · rw [hresult]
    exact s.perform_store_invoke _ hooks _

/-! ### The lines of the snapshot -/

def snapshotLines (s : XDRServer) : List Text :=
  ['M' :: decimalInt s.mode, 'Y' :: decimalInt s.volume, 'T' :: decimal (s.frequency / 1000),
    'D' :: decimalInt s.deemphasis, 'A' :: decimalInt s.agcMode, 'W' :: decimalInt s.bandwidth,
    'Z' :: decimalInt s.antenna, formatGain s.gain, 'V' :: decimalInt s.daa,
    'Q' :: decimalInt s.squelch, 'C' :: decimalInt s.rotator,
    formatSampling s.samplingInterval s.detector]

/-- No line contains the separator. -/
theorem newline_not_mem_snapshotLines {s : XDRServer} {line : Text}
    (h : line ∈ snapshotLines s) : '\n' ∉ line := by
  have hint : ∀ v : Int, '\n' ∉ decimalInt v :=
    fun v => not_mem_decimalInt (by decide) rfl
  have hnat : ∀ n : Nat, '\n' ∉ decimal n := fun n => not_mem_decimal rfl
  have hgain : '\n' ∉ formatGain s.gain := by
    unfold formatGain
    simp only
    split <;> simp [hint]
  simp only [snapshotLines, List.mem_cons, List.not_mem_nil, or_false] at h
  rcases h with rfl | rfl | rfl | rfl | rfl | rfl | rfl | rfl | rfl | rfl | rfl | rfl
  case inr.inr.inr.inr.inr.inr.inr.inl => exact hgain
  all_goals simp [formatSampling, hint, hnat]

theorem splitOn_snapshot (s : XDRServer) :
    (buildXdrStateSnapshot s).splitOn '\n' = snapshotLines s := by
  have hjoin : buildXdrStateSnapshot s = ['\n'].intercalate (snapshotLines s) := by
    simp [buildXdrStateSnapshot, snapshotLines, formatSampling]
  rw [hjoin]
  exact List.splitOn_intercalate '\n' (fun _ => newline_not_mem_snapshotLines)
    (List.cons_ne_nil _ _)

/-- Every line of the snapshot echoes; only the frequency may change. -/
theorem snapshotLine_echoes {s : XDRServer} (hs : s.InRange) {line : Text}
    (h : line ∈ snapshotLines s) :
    Echoes (.accepting installed) guestSession s line
      (if line.head? = some 'T' then s.wholeKHz else s) := by
  simp only [snapshotLines, List.mem_cons, List.not_mem_nil, or_false] at h
  rcases h with rfl | rfl | rfl | rfl | rfl | rfl | rfl | rfl | rfl | rfl | rfl | rfl
  · exact .of_xdrSetter 'M' .mode .mode (fun _ => rfl) hs.mode
  · exact .of_xdrSetter 'Y' .volume .volume (fun _ => rfl) hs.volume
  · exact .tune hs.frequency
  · exact .of_xdrSetter 'D' .deemphasis .deemphasis (fun _ => rfl) hs.deemphasis
  · exact .agc hs.agcMode
  · exact .of_xdrSetter 'W' .bandwidth .bandwidth (fun _ => rfl) hs.bandwidth
  · exact .of_xdrSetter 'Z' .antenna .antenna (fun _ => rfl) hs.antenna
  · exact .gain hs.gain
  · exact .of_xdrSetter 'V' .daa .alignment (fun _ => rfl) hs.daa
  · exact .of_xdrSetter 'Q' .squelch .squelch (fun _ => rfl) hs.squelch
  · exact .of_xdrSetter 'C' .rotator .rotator (fun _ => rfl) hs.rotator
  · exact .sampling hs.samplingInterval hs.detector

/-! ### The reply of a setter -/

/-- The commands that set a value and report it. -/
def setterCommands : List Char :=
  ['T', 'Y', 'V', 'G', 'A', 'M', 'D', 'F', 'W', 'Z', 'Q', 'C', 'I', 'B']

theorem xdrSetter_reply_echoes {hooks : Hooks} {s : XDRServer} (name : Char) (norm : Int → Int)
    (store : Int → ServerStore) (callback : Int → Callback) {arg : Text}
    (hcommand : ∀ s' arg, processCommand s' hooks (name :: arg) true guestSession =
      xdrSetter hooks name norm store callback arg)
    (hnorm : ∀ v, parseIntValue arg = some v → Storable norm (norm v))
    (htwice : ∀ v, (s.store (store v)).store (store v) = s.store (store v))
    (hreply : (xdrSetter hooks name norm store callback arg).reply ≠ []) :
    Echoes hooks guestSession (s.perform (xdrSetter hooks name norm store callback arg).effects)
      (xdrSetter hooks name norm store callback arg).reply
      (s.perform (xdrSetter hooks name norm store callback arg).effects) := by
  unfold xdrSetter at hreply ⊢
  split at hreply
  · exact absurd rfl hreply
  · next v hparse =>
    simp only [s.perform_store_invoke]
    have h := Echoes.of_xdrSetter (s := s.store (store (norm v))) name store callback
      (fun arg => hcommand _ arg) (hnorm v hparse)
    rw [htwice] at h
    exact h

theorem tuneCommand_reply_echoes {hooks : Hooks} {s : XDRServer} {arg : Text}
    (hreply : (tuneCommand hooks arg).reply ≠ []) :
    Echoes hooks guestSession (s.perform (tuneCommand hooks arg).effects)
      (tuneCommand hooks arg).reply (s.perform (tuneCommand hooks arg).effects).wholeKHz := by
  unfold tuneCommand at hreply ⊢
  split at hreply
  · exact absurd rfl hreply
  · next hz hparse =>
    split at hreply
    · next hband =>
      simp only [if_pos hband, s.perform_store_invoke]
      exact .tune hband
    · exact absurd rfl hreply

theorem gainCommand_reply_echoes {s : XDRServer} {arg : Text}
    (hreply : (gainCommand s (.accepting installed) arg).reply ≠ []) :
    Echoes (.accepting installed) guestSession
      (s.perform (gainCommand s (.accepting installed) arg).effects)
      (gainCommand s (.accepting installed) arg).reply
      (s.perform (gainCommand s (.accepting installed) arg).effects) := by
  unfold gainCommand at hreply ⊢
  split at hreply
  · exact absurd rfl hreply
  · next gain hparse =>
    have haccept : (!(Hooks.accepting installed).installed (.gain gain) ||
        (Hooks.accepting installed).acceptsGain gain) = true := Bool.or_true _
    simp only [if_pos haccept, s.perform_invoke_store]
    exact .gain (parseTefCustomValue_range hparse)

theorem agcCommand_reply_echoes {s : XDRServer} {arg : Text}
    (hreply : (agcCommand s (.accepting installed) arg).reply ≠ []) :
    Echoes (.accepting installed) guestSession
      (s.perform (agcCommand s (.accepting installed) arg).effects)
      (agcCommand s (.accepting installed) arg).reply
      (s.perform (agcCommand s (.accepting installed) arg).effects) := by
  unfold agcCommand at hreply ⊢
  split at hreply
  · exact absurd rfl hreply
  · next parsed hparse =>
    have haccept : (!(Hooks.accepting installed).installed (.agc (clamp parsed 0 3)) ||
        (Hooks.accepting installed).acceptsAgc (clamp parsed 0 3)) = true := Bool.or_true _
    simp only [if_pos haccept, s.perform_invoke_store]
    exact .agc (.clamp parsed (by decide) (by decide) (by decide))

theorem blendCommand_reply_echoes {hooks : Hooks} {s : XDRServer} {arg : Text}
    (hreply : (blendCommand hooks arg).reply ≠ []) :
    Echoes hooks guestSession (s.perform (blendCommand hooks arg).effects)
      (blendCommand hooks arg).reply (s.perform (blendCommand hooks arg).effects) := by
  unfold blendCommand at hreply ⊢
  split at hreply
  · split at hreply
    · exact absurd rfl hreply
    · next parsed hparse =>
      simp only [s.perform_invoke]
      exact .blend (.clamp parsed (by decide) (by decide) (by decide))
  · exact absurd rfl hreply

theorem forceMonoCommand_reply_echoes {hooks : Hooks} {s : XDRServer} {arg : Text}
    (hreply : (forceMonoCommand hooks arg).reply ≠ []) :
    Echoes hooks guestSession (s.perform (forceMonoCommand hooks arg).effects)
      (forceMonoCommand hooks arg).reply
      (s.perform (forceMonoCommand hooks arg).effects) := by
  unfold forceMonoCommand at hreply ⊢
  split at hreply
  · exact absurd rfl hreply
  · simp only [s.perform_store_invoke]
    exact .forceMono _

/-- With an empty argument the command only reports; then the values it
    reports have to be in range already. -/
theorem samplingCommand_reply_echoes {hooks : Hooks} {s : XDRServer} {arg : Text}
    (hs : s.InRange) (hreply : (samplingCommand s hooks arg).reply ≠ []) :
    Echoes hooks guestSession (s.perform (samplingCommand s hooks arg).effects)
      (samplingCommand s hooks arg).reply (s.perform (samplingCommand s hooks arg).effects) := by
  unfold samplingCommand at hreply ⊢
  split at hreply
  · next hempty =>
    rw [if_pos hempty]
    exact .sampling hs.samplingInterval hs.detector
  · next hempty =>
    rw [if_neg hempty]
    simp only at hreply ⊢
    split at hreply
    · exact absurd rfl hreply
    · next p hparse =>
      have hperform := (s.store (.samplingInterval (clamp p.1 0 1000))).perform_store_invoke
        (.detector (clamp p.2 0 1)) hooks (.sampling (clamp p.1 0 1000) (clamp p.2 0 1))
      simp only [XDRServer.perform, List.foldl_cons] at hperform ⊢
      rw [hperform]
      exact .sampling (.clamp p.1 (by decide) (by decide) (by decide))
        (.clamp p.2 (by decide) (by decide) (by decide))

/-- The reply of an accepted setter is a command that echoes and sets the
    same values again. -/
theorem setter_reply_echoes {s : XDRServer} (hs : s.InRange) {command : Char} {arg : Text}
    (hcommand : command ∈ setterCommands) {r : CommandResult}
    (hr : r = processCommand s (.accepting installed) (command :: arg) true guestSession)
    (hreply : r.reply ≠ []) :
    Echoes (.accepting installed) guestSession (s.perform r.effects) r.reply
      (if command = 'T' then (s.perform r.effects).wholeKHz else s.perform r.effects) := by
  subst hr
  simp only [setterCommands, List.mem_cons, List.not_mem_nil, or_false] at hcommand
  rcases hcommand with rfl | rfl | rfl | rfl | rfl | rfl | rfl | rfl | rfl | rfl | rfl | rfl |
    rfl | rfl
  -- in the order of `setterCommands`
  · exact tuneCommand_reply_echoes hreply
  · exact xdrSetter_reply_echoes 'Y' (clamp · 0 100) .volume .volume (fun _ _ => rfl)
      (fun v _ => .clamp v (by decide) (by decide) (by decide)) (fun _ => rfl) hreply
  · exact xdrSetter_reply_echoes 'V' quantiseAlignment .daa .alignment (fun _ _ => rfl)
      (fun v _ => .quantiseAlignment v) (fun _ => rfl) hreply
  · exact gainCommand_reply_echoes hreply
  · exact agcCommand_reply_echoes hreply
  · exact xdrSetter_reply_echoes 'M' (clamp · 0 1) .mode .mode (fun _ _ => rfl)
      (fun v _ => .clamp v (by decide) (by decide) (by decide)) (fun _ => rfl) hreply
  · exact xdrSetter_reply_echoes 'D' (clamp · 0 2) .deemphasis .deemphasis (fun _ _ => rfl)
      (fun v _ => .clamp v (by decide) (by decide) (by decide)) (fun _ => rfl) hreply
  · exact blendCommand_reply_echoes hreply
  · exact xdrSetter_reply_echoes 'W' id .bandwidth .bandwidth (fun _ _ => rfl)
      (fun v h => .of_parse h) (fun _ => rfl) hreply
  · exact xdrSetter_reply_echoes 'Z' (clamp · 0 9) .antenna .antenna (fun _ _ => rfl)
      (fun v _ => .clamp v (by decide) (by decide) (by decide)) (fun _ => rfl) hreply
  · exact xdrSetter_reply_echoes 'Q' (clamp · 0 100) .squelch .squelch (fun _ _ => rfl)
      (fun v _ => .clamp v (by decide) (by decide) (by decide)) (fun _ => rfl) hreply
  · exact xdrSetter_reply_echoes 'C' (clamp · (-1) 1) .rotator .rotator (fun _ _ => rfl)
      (fun v _ => .clamp v (by decide) (by decide) (by decide)) (fun _ => rfl) hreply
  · exact samplingCommand_reply_echoes hs hreply
  · exact forceMonoCommand_reply_echoes hreply

end echoes

/-! ### Feeding the snapshot back -/

theorem XDRServer.wholeKHz_idem (s : XDRServer) : s.wholeKHz.wholeKHz = s.wholeKHz := by
  simp [XDRServer.wholeKHz]

theorem buildXdrStateSnapshot_wholeKHz (s : XDRServer) :
    buildXdrStateSnapshot s.wholeKHz = buildXdrStateSnapshot s := by
  simp [buildXdrStateSnapshot, XDRServer.wholeKHz]

theorem snapshotLines_wholeKHz (s : XDRServer) :
    snapshotLines s.wholeKHz = snapshotLines s := by
  simp [snapshotLines, XDRServer.wholeKHz]

theorem XDRServer.InRange.wholeKHz {s : XDRServer} (hs : s.InRange) : s.wholeKHz.InRange := by
  have hband := (isValidFmBroadcastFreqHz_iff s.frequency).mp hs.frequency
  have hfloor : isValidFmBroadcastFreqHz (s.frequency / 1000 * 1000) = true :=
    (isValidFmBroadcastFreqHz_iff _).mpr (by omega)
  exact { hs with frequency := hfloor }

theorem snapshotLine_ne_nil {s : XDRServer} {line : Text} (h : line ∈ snapshotLines s) :
    line ≠ [] := by
  rintro rfl
  simp [snapshotLines, formatGain, formatSampling] at h

section feeding
variable (installed : Callback → Bool) (guestSession : Bool)

/-- A line of the snapshot of `s`, given to a session whose server is `s` up
    to the floor of the frequency. -/
theorem handleXdrLine_snapshotLine {s : XDRServer} (hs : s.InRange) {session : Session}
    (hserver : session.server = s ∨ session.server = s.wholeKHz) {line : Text}
    (h : line ∈ snapshotLines s) :
    let next := (handleXdrLine (.accepting installed) guestSession session line).1
    next.replies = session.replies ++ [line ++ ['\n']] ∧
      next.server = (if line.head? = some 'T' then s.wholeKHz else session.server) := by
  have hecho : Echoes (.accepting installed) guestSession session.server line
      (if line.head? = some 'T' then s.wholeKHz else session.server) := by
    rcases hserver with heq | heq
    · rw [heq]
      exact snapshotLine_echoes hs h
    · rw [heq]
      have hline : Echoes (.accepting installed) guestSession s.wholeKHz line _ :=
        snapshotLine_echoes hs.wholeKHz (snapshotLines_wholeKHz s ▸ h)
      rwa [s.wholeKHz_idem] at hline
  have hne : line.isEmpty = false := by
    have h := snapshotLine_ne_nil h
    cases line with
    | nil => exact absurd rfl h
    | cons c arg => rfl
  intro next
  refine ⟨?_, hecho.server⟩
  show (if (processCommand _ _ line true guestSession).reply.isEmpty then _ else _) = _
  rw [hecho.reply, hne]
  rfl

/-- Lines of the snapshot, one after the other. -/
theorem runLines_snapshotLines {s : XDRServer} (hs : s.InRange) {lines : List Text}
    (hlines : ∀ line ∈ lines, line ∈ snapshotLines s) {session : Session}
    (hserver : session.server = s ∨ session.server = s.wholeKHz) :
    let fed := (runLines (handleXdrLine (.accepting installed) guestSession) session lines).1
    fed.replies = session.replies ++ lines.map (· ++ ['\n']) ∧
      fed.server = (if ∃ line ∈ lines, line.head? = some 'T' then s.wholeKHz
        else session.server) := by
  induction lines generalizing session with
  | nil => exact ⟨by simp [runLines], by simp [runLines]⟩
  | cons line lines ih =>
    intro fed
    have hline := handleXdrLine_snapshotLine installed guestSession hs hserver
      (hlines line List.mem_cons_self)
    have hnext : (handleXdrLine (.accepting installed) guestSession session line).1.server = s ∨
        (handleXdrLine (.accepting installed) guestSession session line).1.server =
          s.wholeKHz := by
      -- only the line of the frequency changes anything, and only by the floor
      rw [hline.2]
      split
      · exact Or.inr rfl
      · exact hserver
    obtain ⟨hreplies, hend⟩ := ih (fun l hl => hlines l (List.mem_cons_of_mem _ hl)) hnext
    have hfed : fed = (runLines (handleXdrLine (.accepting installed) guestSession)
        (handleXdrLine (.accepting installed) guestSession session line).1 lines).1 := by
      simp [fed, runLines, handleXdrLine]
    rw [hfed]
    constructor
    · rw [hreplies, hline.1]
      simp
    · rw [hend, hline.2]
      by_cases hT : line.head? = some 'T'
      · simp [hT]
      · simp [hT]

/-- The whole snapshot, given to a session whose server is `s` up to the
    floor of the frequency: the replies are its lines. -/
theorem runLines_snapshot {s s' : XDRServer} (hs : s.InRange)
    (hserver : s' = s ∨ s' = s.wholeKHz) :
    let fed := (runLines (handleXdrLine (.accepting installed) guestSession)
      (Session.start s') (snapshotLines s)).1
    fed.replies = (snapshotLines s).map (· ++ ['\n']) ∧ fed.server = s.wholeKHz := by
  have h := runLines_snapshotLines installed guestSession hs
    (fun _ h => h) (show (Session.start s').server = s ∨ _ from hserver)
  have hT : ∃ line ∈ snapshotLines s, line.head? = some 'T' :=
    ⟨'T' :: decimal (s.frequency / 1000), by simp [snapshotLines], rfl⟩
  rw [if_pos hT] at h
  exact ⟨h.1, h.2⟩

end feeding

/-- Snapshot and commands are inverse to each other on every server that
    XDR commands reach while the callbacks accept: each line of the
    snapshot is echoed and changes nothing but the frequency, to its whole
    kHz; all lines together do just that, and a second time nothing; and
    the reply of an accepted setter sets the same values again. -/
theorem snapshot_and_commands_inverse (installed : Callback → Bool) (commands : List CommandLine)
    (guestSession : Bool) :
    let hooks := Hooks.accepting installed
    let s := (commandMachine hooks).run .initial commands
    let lines := (buildXdrStateSnapshot s).splitOn '\n'
    let feed := fun server => (runLines (handleXdrLine hooks guestSession)
      (Session.start server) lines).1
    (∀ line ∈ lines, Echoes hooks guestSession s line
      (if line.head? = some 'T' then s.wholeKHz else s)) ∧
    ((feed s).replies = lines.map (· ++ ['\n']) ∧ (feed s).server = s.wholeKHz) ∧
    (buildXdrStateSnapshot (feed s).server = buildXdrStateSnapshot s ∧
      (feed (feed s).server).server = (feed s).server) ∧
    (∀ command arg, command ∈ setterCommands →
      let r := processCommand s hooks (command :: arg) true guestSession
      r.reply ≠ [] → Echoes hooks guestSession (s.perform r.effects) r.reply
        (if command = 'T' then (s.perform r.effects).wholeKHz else s.perform r.effects)) := by
  intro hooks s lines feed
  have hs : s.InRange := XDRServer.inRange_initial.run hooks commands
  -- the printed text and the lines of the state are the same
  have hlines : lines = snapshotLines s := splitOn_snapshot s
  have hfeed : ∀ server, feed server = (runLines (handleXdrLine hooks guestSession)
      (Session.start server) (snapshotLines s)).1 := by
    intro server
    rw [← hlines]
  have hfirst := runLines_snapshot installed guestSession hs
    (Or.inl rfl : s = s ∨ _)
  have hsecond := runLines_snapshot installed guestSession hs
    (Or.inr rfl : s.wholeKHz = s ∨ _)
  refine ⟨?_, ?_, ?_, ?_⟩
  · intro line hline
    exact snapshotLine_echoes hs (hlines ▸ hline)
  · rw [hfeed, hlines]
    exact hfirst
  · have hserver : (feed s).server = s.wholeKHz := by rw [hfeed]; exact hfirst.2
    rw [hserver]
    refine ⟨buildXdrStateSnapshot_wholeKHz s, ?_⟩
    rw [hfeed]
    exact hsecond.2
  · intro command arg hcommand r hreply
    exact setter_reply_echoes hs hcommand rfl hreply

/-- An alignment of 14 dB is set to 12 dB and reported so, and setting what
    was reported is no change. -/
theorem alignment_reply_echoes :
    let hooks := Hooks.accepting fun _ => true
    let s := (commandMachine hooks).run .initial [⟨"T101712345".toList, true, false⟩]
    let r := processCommand s hooks "V14".toList true false
    r.reply = "V12".toList ∧
      Echoes hooks false (s.perform r.effects) r.reply (s.perform r.effects) :=
  ⟨by decide, (snapshot_and_commands_inverse (fun _ => true)
    [⟨"T101712345".toList, true, false⟩] false).2.2.2 'V' ['1', '4'] (by decide) (by decide)⟩

end FmSdrTuner
