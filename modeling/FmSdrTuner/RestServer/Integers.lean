import FmSdrTuner.RestServer.Params
import FmSdrTuner.Text.RoundTrip

/-! # RestServer: integer parameters

    Eleven keys take an integer. `toInt` reads it with `strtol`, which
    ignores what follows the digits, and the branches convert it to the type
    of the control's argument without a check of its range. So a value is
    passed on as it is, or rejected, unless something follows the digits or
    the number does not fit.

    Main result: `passesIntegers_iff`. -/

namespace FmSdrTuner

/-! ### Decimal integers -/

/-- The text begins with the decimal integer: white space, a sign or none, and
    all the digits there are. The rest follows. -/
def Begins (s : Text) (v : Int) (rest : Text) : Prop :=
  ∃ space sign digits : Text, s = space ++ (sign ++ (digits ++ rest)) ∧
    (∀ c ∈ space, isspace c = true) ∧ digits ≠ [] ∧ (∀ c ∈ digits, c.isDigit = true) ∧
    (∀ c ∈ rest.head?, c.isDigit = false) ∧
    ((sign = [] ∨ sign = ['+']) ∧ v = digitsValue digits ∨
      sign = ['-'] ∧ v = -(digitsValue digits : Int))

/-- The whole text is the decimal integer. -/
def Denotes (s : Text) (v : Int) : Prop := Begins s v []

theorem scanInteger_space {space : Text} (hspace : ∀ c ∈ space, isspace c = true) (t : Text) :
    scanInteger (space ++ t) = scanInteger t := by
  unfold scanInteger
  rw [List.dropWhile_append_of_pos hspace]

/-- The sign that has been scanned, in front of the rest. -/
theorem scanSign_spec (t : Text) :
    ∃ sign, t = sign ++ (scanSign t).2 ∧
      (((scanSign t).1 = false ∧ (sign = [] ∨ sign = ['+'])) ∨
        ((scanSign t).1 = true ∧ sign = ['-'])) := by
  unfold scanSign
  split
  · exact ⟨['-'], rfl, Or.inr ⟨rfl, rfl⟩⟩
  · exact ⟨['+'], rfl, Or.inl ⟨rfl, Or.inr rfl⟩⟩
  · exact ⟨[], rfl, Or.inl ⟨rfl, Or.inl rfl⟩⟩

/-- What the scanner reads is the integer that the text begins with. -/
theorem begins_iff {s rest : Text} {v : Int} :
    Begins s v rest ↔ ∃ n, scanInteger s = some n ∧ n.value = v ∧ n.rest = rest := by
  constructor
  · rintro ⟨space, sign, digits, rfl, hspace, hne, hdigits, hrest, hsign⟩
    rw [scanInteger_space hspace]
    have hspaces := dropWhile_isspace_digits hne hdigits rest
    have hplus : scanSign ('+' :: (digits ++ rest)) = (false, digits ++ rest) := rfl
    have hminus : scanSign ('-' :: (digits ++ rest)) = (true, digits ++ rest) := rfl
    rcases hsign with ⟨rfl | rfl, rfl⟩ | ⟨rfl, rfl⟩
    · exact ⟨_, scanInteger_digits_rest hspaces (scanSign_digits hne hdigits rest) hne hdigits
        hrest, rfl, rfl⟩
    · exact ⟨_, scanInteger_digits_rest (List.dropWhile_cons_of_neg (by decide)) hplus hne hdigits
        hrest, rfl, rfl⟩
    · exact ⟨_, scanInteger_digits_rest (List.dropWhile_cons_of_neg (by decide)) hminus hne hdigits
        hrest, rfl, rfl⟩
  · rintro ⟨n, hscan, rfl, rfl⟩
    unfold scanInteger at hscan
    dsimp only at hscan
    split at hscan
    · cases hscan
    · next hne =>
      obtain rfl := Option.some.inj hscan
      obtain ⟨sign, hsplit, hsign⟩ := scanSign_spec (s.dropWhile isspace)
      -- the parts the scan went through are the parts of the text
      refine ⟨s.takeWhile isspace, sign,
        (scanSign (s.dropWhile isspace)).2.takeWhile Char.isDigit, ?_, ?_, ?_, ?_, ?_, ?_⟩
      · rw [List.takeWhile_append_dropWhile, ← hsplit, List.takeWhile_append_dropWhile]
      · exact fun c hc => List.mem_takeWhile_imp hc
      · simpa using hne
      · exact fun c hc => List.mem_takeWhile_imp hc
      · intro c hc
        have hhead := List.head?_dropWhile_not Char.isDigit (scanSign (s.dropWhile isspace)).2
        rw [Option.mem_def] at hc
        rw [hc] at hhead
        simpa using hhead
      · rcases hsign with ⟨hpositive, hsign⟩ | ⟨hnegative, hsign⟩
        · exact Or.inl ⟨hsign, by simp [Scanned.value, hpositive]⟩
        · exact Or.inr ⟨hsign, by simp [Scanned.value, hnegative]⟩

theorem Begins.unique {s rest rest' : Text} {v v' : Int} (h : Begins s v rest)
    (h' : Begins s v' rest') : v = v' ∧ rest = rest' := by
  obtain ⟨n, hscan, rfl, rfl⟩ := begins_iff.mp h
  obtain ⟨n', hscan', rfl, rfl⟩ := begins_iff.mp h'
  obtain rfl := Option.some.inj (hscan.symm.trans hscan')
  exact ⟨rfl, rfl⟩

/-- `toInt` yields the integer, whatever follows it, if it fits a `long`. -/
theorem toInt_eq_some_iff {s : Text} {v : Int} :
    toInt s = some v ↔ (∃ rest, Begins s v rest) ∧ longMin ≤ v ∧ v ≤ longMax := by
  unfold toInt strtolPrefix
  constructor
  · intro hv
    split at hv
    · cases hv
    · next n hscan =>
      split at hv
      · next hrange =>
        obtain rfl := Option.some.inj hv
        exact ⟨⟨n.rest, begins_iff.mpr ⟨n, hscan, rfl, rfl⟩⟩, hrange⟩
      · cases hv
  · rintro ⟨⟨rest, hbegins⟩, hrange⟩
    obtain ⟨n, hscan, rfl, -⟩ := begins_iff.mp hbegins
    rw [hscan]
    exact if_pos hrange

/-! ### The keys -/

/-- The argument of a control that takes an integer. -/
def ControlCall.argument : ControlCall → Option Int
  | .setFrequencyHz hz => some hz
  | .setBandwidthHz v | .setLnaState v | .setAntenna v | .setPpm v | .setDeemphasis v
  | .setBlendMode v | .setVolume v => some v
  | _ => none

/-- A key that takes an integer. -/
structure IntegerParam where
  key : Text
  control : Int → ControlCall
  /-- The integer to pass on, for one that is given. -/
  factor : Int
  /-- What the branch passes on. -/
  convert : Int → Int
  /-- Does the branch call its control? -/
  accepts : Int → Bool
  /-- The range of the argument. -/
  lo : Int
  hi : Int

/-- A frequency is a `uint32_t`, and positive. -/
def frequencyParam (key : String) (factor : Int) (convert : Int → Int) : IntegerParam where
  key := key.toList
  control := fun v => .setFrequencyHz v.toNat
  factor := factor
  convert := convert
  accepts := fun v => decide (0 < v)
  lo := 0
  hi := 2 ^ 32 - 1

/-- Everything else is an `int`. -/
def intParam (key : String) (control : Int → ControlCall) : IntegerParam where
  key := key.toList
  control := control
  factor := 1
  convert := toInt32
  accepts := fun _ => true
  lo := intMin
  hi := intMax

def integerParams : List IntegerParam :=
  [frequencyParam "freq_hz" 1 fun v => toUInt32 v,
    frequencyParam "frequency" 1 fun v => toUInt32 v,
    -- a product of unsigned integers wraps around
    frequencyParam "freq_khz" 1000 fun v => (toUInt32 v * 1000 % 2 ^ 32 : Nat),
    intParam "bandwidth_hz" .setBandwidthHz,
    { intParam "bandwidth_khz" .setBandwidthHz with
      factor := 1000
      convert := fun v => toInt32 (toInt32 v * 1000) },
    intParam "lna" .setLnaState, intParam "antenna" .setAntenna, intParam "ppm" .setPpm,
    intParam "deemphasis" .setDeemphasis, intParam "blend" .setBlendMode,
    intParam "volume" .setVolume]

/-- The branches of `applyParams` are those of the table. -/
theorem requestedControl_integer (controls : Controls) {p : IntegerParam}
    (hp : p ∈ integerParams) (val : Text) :
    requestedControl controls p.key val =
      (toInt val).map fun v =>
        if p.accepts v = true then some (p.control (p.convert v)) else none := by
  have hpositive : ∀ (v : Int) (c : ControlCall),
      (if 0 < v then some c else none) = if decide (0 < v) = true then some c else none := by
    intro v c
    simp only [decide_eq_true_eq]
  simp only [integerParams, List.mem_cons, List.not_mem_nil, or_false] at hp
  rcases hp with rfl | rfl | rfl | rfl | rfl | rfl | rfl | rfl | rfl | rfl | rfl
  · exact congrArg (fun f => (toInt val).map f) (funext fun v => hpositive v _)
  · exact congrArg (fun f => (toInt val).map f) (funext fun v => hpositive v _)
  · exact congrArg (fun f => (toInt val).map f) (funext fun v => hpositive v _)
  all_goals rfl

/-! ### Conversions -/

theorem toUInt32_emod (v : Int) : (toUInt32 v : Int) = v % 2 ^ 32 := by
  unfold toUInt32
  omega

theorem toInt32_spec (v : Int) : intMin ≤ toInt32 v ∧ toInt32 v ≤ intMax ∧
    toInt32 v % 2 ^ 32 = v % 2 ^ 32 := by
  unfold toInt32 intMin intMax
  dsimp only
  split <;> omega

/-- The control's argument is the integer to pass on, up to a multiple of
    2^32, and in the range of its type. -/
theorem convert_spec {p : IntegerParam} (hp : p ∈ integerParams) (v : Int) :
    p.lo ≤ p.convert v ∧ p.convert v ≤ p.hi ∧
      p.convert v % 2 ^ 32 = (p.factor * v) % 2 ^ 32 ∧ p.hi - p.lo < 2 ^ 32 ∧
      (p.control (p.convert v)).argument = some (p.convert v) := by
  -- every conversion is a cast to 32 bits, twice for kHz
  have hunsigned := toUInt32_emod v
  have hsigned := toInt32_spec v
  have hkhz := toInt32_spec (toInt32 v * 1000)
  have hrange : intMax - intMin < 2 ^ 32 := by decide
  simp only [integerParams, List.mem_cons, List.not_mem_nil, or_false] at hp
  rcases hp with rfl | rfl | rfl | rfl | rfl | rfl | rfl | rfl | rfl | rfl | rfl
  all_goals
    dsimp only [frequencyParam, intParam, ControlCall.argument]
    exact ⟨by omega, by omega, by omega, by omega, rfl⟩

theorem convert_eq_iff {p : IntegerParam} (hp : p ∈ integerParams) (v : Int) :
    p.convert v = p.factor * v ↔ p.lo ≤ p.factor * v ∧ p.factor * v ≤ p.hi := by
  obtain ⟨hlo, hhi, hmod, hwidth, -⟩ := convert_spec hp v
  constructor
  · intro heq
    rw [heq] at hlo hhi
    exact ⟨hlo, hhi⟩
  · rintro ⟨hlo', hhi'⟩
    omega

theorem key_ne_nil {p : IntegerParam} (hp : p ∈ integerParams) : p.key.isEmpty = false := by
  simp only [integerParams, List.mem_cons, List.not_mem_nil, or_false] at hp
  rcases hp with rfl | rfl | rfl | rfl | rfl | rfl | rfl | rfl | rfl | rfl | rfl
  all_goals rfl

/-! ### One parameter -/

namespace IntegerParam
variable (p : IntegerParam)

/-- The control is called with what the whole value stands for, or no control
    is called and the key is noted as rejected. -/
def PassedExactly (val : Text) (before after : ParamsResult) : Prop :=
  (∃ a v, after.calls = before.calls ++ [p.control a] ∧ Denotes val v ∧
    (p.control a).argument = some (p.factor * v)) ∨
  (after.calls = before.calls ∧ after.rejected = before.rejected ++ [p.key])

/-- If the value begins with an integer that fits a `long` and the branch lets
    through, and the control is set, then nothing follows the integer, and it
    fits the type of the argument. -/
def Fits (controls : Controls) (val : Text) : Prop :=
  ∀ v rest, Begins val v rest → longMin ≤ v → v ≤ longMax → p.accepts v = true →
    controls.installed (p.control (p.convert v)) = true →
    rest = [] ∧ p.lo ≤ p.factor * v ∧ p.factor * v ≤ p.hi

variable {p} {controls : Controls} {val : Text}

/-- The parameter is rejected, or its control is called with the converted
    value. -/
theorem applyParam_cases (hp : p ∈ integerParams) (before : ParamsResult) :
    let after := applyParam controls before (p.key, val)
    ((∀ v, toInt val = some v → p.accepts v = true →
      controls.installed (p.control (p.convert v)) = false) ∧
      after.calls = before.calls ∧ after.rejected = before.rejected ++ [p.key]) ∨
    ∃ v, toInt val = some v ∧ p.accepts v = true ∧
      controls.installed (p.control (p.convert v)) = true ∧
      after.calls = before.calls ++ [p.control (p.convert v)] := by
  have hkey := key_ne_nil hp
  unfold applyParam
  dsimp only
  rw [requestedControl_integer controls hp]
  cases hval : toInt val with
  | none =>
    refine Or.inl ⟨fun v hv => (Option.some_ne_none v hv.symm).elim, ?_⟩
    simp only [Option.map_none, hkey, Bool.false_eq_true, if_false]
    exact ⟨trivial, trivial⟩
  | some v =>
    simp only [Option.map_some]
    cases haccepts : p.accepts v with
    | false =>
      refine Or.inl ⟨?_, by simp, by simp⟩
      rintro _ ⟨rfl⟩ hv
      exact absurd (haccepts.symm.trans hv) (by decide)
    | true =>
      simp only [if_true]
      cases hinstalled : controls.installed (p.control (p.convert v)) with
      | false =>
        refine Or.inl ⟨?_, by simp, by simp⟩
        rintro _ ⟨rfl⟩ -
        exact hinstalled
      | true =>
        refine Or.inr ⟨v, rfl, haccepts, hinstalled, ?_⟩
        simp only [if_true]
        split <;> rfl

theorem passedExactly_iff (hp : p ∈ integerParams) (before : ParamsResult) :
    p.PassedExactly val before (applyParam controls before (p.key, val)) ↔
      p.Fits controls val := by
  rcases applyParam_cases hp before with
    ⟨hnone, hcalls, hrejected⟩ | ⟨v, hval, haccepts, hinstalled, hcalls⟩
  · refine iff_of_true (Or.inr ⟨hcalls, hrejected⟩) ?_
    intro v rest hbegins hlo hhi haccepts hinstalled
    have hval := toInt_eq_some_iff.mpr ⟨⟨rest, hbegins⟩, hlo, hhi⟩
    exact absurd ((hnone v hval haccepts).symm.trans hinstalled) (by decide)
  · have hargument := (convert_spec hp v).2.2.2.2
    obtain ⟨⟨rest, hbegins⟩, hlo, hhi⟩ := toInt_eq_some_iff.mp hval
    constructor
    · rintro (⟨a, w, hcalls', hdenotes, ha⟩ | ⟨hcalls', -⟩)
      · obtain ⟨rfl, rfl⟩ := hbegins.unique hdenotes
        have hcall := List.append_cancel_left (hcalls.symm.trans hcalls')
        rw [← (List.cons.inj hcall).1, hargument] at ha
        intro v' rest' hbegins' _ _ _ _
        obtain ⟨rfl, rfl⟩ := hbegins.unique hbegins'
        exact ⟨rfl, (convert_eq_iff hp v).mp (Option.some.inj ha)⟩
      · rw [hcalls'] at hcalls
        exact absurd hcalls (by simp)
    · intro hfits
      obtain ⟨rfl, hrange⟩ := hfits v rest hbegins hlo hhi haccepts hinstalled
      refine Or.inl ⟨p.convert v, v, hcalls, hbegins, ?_⟩
      rw [hargument, (convert_eq_iff hp v).mpr hrange]

end IntegerParam

/-! ### Main result -/

/-- Wherever an integer key stands in a request, its value is passed on
    exactly or rejected. -/
def PassesIntegers (controls : Controls) (params : List (Text × Text)) : Prop :=
  ∀ p ∈ integerParams, ∀ val before after, params = before ++ (p.key, val) :: after →
    p.PassedExactly val (applyParams controls before)
      (applyParams controls (before ++ [(p.key, val)]))

theorem applyParams_concat (controls : Controls) (params : List (Text × Text))
    (kv : Text × Text) :
    applyParams controls (params ++ [kv]) =
      applyParam controls (applyParams controls params) kv := by
  unfold applyParams
  rw [List.foldl_append]
  rfl

/-- The integers of a request are passed on exactly or rejected, if and only
    if each value that reaches its control is an integer to its end and fits
    the control's argument. -/
theorem passesIntegers_iff (controls : Controls) (params : List (Text × Text)) :
    PassesIntegers controls params ↔
      ∀ p ∈ integerParams, ∀ val, (p.key, val) ∈ params → p.Fits controls val := by
  constructor
  · intro h p hp val hmem
    obtain ⟨before, after, hsplit⟩ := List.append_of_mem hmem
    have hpassed := h p hp val before after hsplit
    rw [applyParams_concat] at hpassed
    exact (IntegerParam.passedExactly_iff hp _).mp hpassed
  · intro h p hp val before after hsplit
    rw [applyParams_concat]
    refine (IntegerParam.passedExactly_iff hp _).mpr (h p hp val ?_)
    rw [hsplit]
    exact List.mem_append_right _ List.mem_cons_self

/-- All controls are set, and succeed. -/
def allControls : Controls := ⟨fun _ => true, fun _ _ => true, fun _ => true⟩

/-- Text behind the digits is dropped, and a number that does not fit is
    wrapped round: both calls set a volume and a correction that were not
    given. -/
theorem integers_not_passed :
    ¬PassesIntegers allControls [("volume".toList, "50abc".toList)] ∧
      ¬PassesIntegers allControls [("ppm".toList, "4294967297".toList)] := by
  constructor
  · intro h
    have hfits := (IntegerParam.passedExactly_iff (p := intParam "volume" .setVolume)
      (by simp [integerParams]) ⟨[], 0, []⟩).mp (h _ (by simp [integerParams]) _ [] [] rfl)
    have hbegins : Begins "50abc".toList 50 "abc".toList :=
      begins_iff.mpr ⟨⟨false, 50, "abc".toList⟩, rfl, rfl, rfl⟩
    have hrest := (hfits 50 _ hbegins (by decide) (by decide) rfl rfl).1
    exact absurd hrest (by decide)
  · intro h
    have hfits := (IntegerParam.passedExactly_iff (p := intParam "ppm" .setPpm)
      (by simp [integerParams]) ⟨[], 0, []⟩).mp (h _ (by simp [integerParams]) _ [] [] rfl)
    have hbegins : Begins "4294967297".toList 4294967297 [] :=
      begins_iff.mpr ⟨⟨false, 4294967297, []⟩, rfl, rfl, rfl⟩
    have hrange := (hfits 4294967297 _ hbegins (by decide) (by decide) rfl rfl).2
    exact absurd hrange.2 (by decide)

end FmSdrTuner
