import FmSdrTuner.Config.AppOptions

/-! # Which configuration file is loaded

    The first pass over the command line knows the options `-c` and
    `--config` only, the second one all options. Both are scanners of the
    same arguments: an argument that another option takes as its value is
    passed over by the second pass, and looked at by the first.

    Main results:
    * `parseAppOptions_configPath`: a run ends with what the second scanner
      picks last;
    * `passes_agree_iff`: when the file that is loaded is the one named. -/

namespace FmSdrTuner

namespace CommandLine

variable {δ : Type} (env : Startup δ)

/-! ### The passes as scanners -/

/-- The configuration option as the first pass sees it. -/
def firstScanner : Scanner Text Text where
  takes arg := arg = "-c".toList || arg = "--config".toList
  picks arg next :=
    if arg = "-c".toList ∨ arg = "--config".toList then next
    else if "--config=".toList.isPrefixOf arg then some (arg.drop 9)
    else none

/-- An option that takes a value, in a form without one attached. -/
def CommandOption.takesNext (o : CommandOption δ) (arg : Text) : Bool :=
  match o.action with
  | .value _ => !o.attachedPrefix.isPrefixOf arg
  | _ => false

/-- The second pass, which picks the values of the configuration option. -/
def secondScanner : Scanner Text Text where
  takes arg := ((findOption env arg).map (·.takesNext arg)).getD false
  picks arg next :=
    match findOption env arg with
    | some o =>
      if o.long = "config".toList then
        if o.attachedPrefix.isPrefixOf arg then some (arg.drop o.attachedPrefix.length) else next
      else none
    | none => none

/-- The last value that was picked. -/
def lastPick (path : Text) (picked : List (Nat × Text)) : Text :=
  (picked.getLast?.map Prod.snd).getD path

/-- The file that the command line names: the value of the last
    configuration option, as the second pass reads it, or the file in the
    working directory. An option at the end that has no value is passed
    over, and an empty value names no file. -/
def namedFile (argv : List Text) : Option Text :=
  let path := lastPick [] ((secondScanner env).scan 1 argv)
  if path.isEmpty then if (env.files autoConfig).isSome then some autoConfig else none
  else some path

/-- The arguments that other options take as their values. -/
def otherValues (argv : List Text) : List (PassedValue Text) :=
  Scanner.foreignValues firstScanner (secondScanner env) 1 argv

/-- The first pass loads the file that the command line names, and takes no
    value of another option for a configuration option. -/
def PassesAgree (argv : List Text) : Prop :=
  loadedFile env.files argv = namedFile env argv ∧
    ∀ pick ∈ firstScanner.scan 1 argv, ∀ v ∈ otherValues env argv, pick.1 ≠ v.place

/-- No value of another option looks like a configuration option with a
    value. -/
def ValuesPlain (argv : List Text) : Prop :=
  ∀ v ∈ otherValues env argv, "--config=".toList.isPrefixOf v.argument = false ∧
    (v.argument = "-c".toList ∨ v.argument = "--config".toList → v.next = none)

/-! ### The configuration option in the table -/

/-- In its three forms. -/
theorem findOption_config :
    findOption env "-c".toList = some configOption ∧
      findOption env "--config".toList = some configOption ∧
      ∀ value : Text, findOption env ("--config=".toList ++ value) = some configOption :=
  ⟨rfl, rfl, fun _ => rfl⟩

/-- No other option has its long name. -/
theorem config_short {o : CommandOption δ} (ho : o ∈ commandOptions env)
    (hlong : o.long = "config".toList) : o.short = some "-c".toList := by
  have hall : (commandOptions env).all
      (fun o => o.long ≠ "config".toList || o.short = some "-c".toList) = true := rfl
  have hentry := List.all_eq_true.mp hall o ho
  simpa [hlong] using hentry

/-- An argument with the option's prefix has it attached. -/
theorem exists_of_isPrefixOf {arg : Text} (h : "--config=".toList.isPrefixOf arg = true) :
    ∃ value, arg = "--config=".toList ++ value := by
  obtain ⟨value, hvalue⟩ := List.isPrefixOf_iff_prefix.mp h
  exact ⟨value, hvalue.symm⟩

/-- The option is found for its three forms only. -/
theorem isConfig_of_findOption {arg : Text} {o : CommandOption δ} (ho : findOption env arg = some o)
    (hlong : o.long = "config".toList) : arg = "-c".toList ∨ arg = "--config".toList ∨
      "--config=".toList.isPrefixOf arg = true := by
  have hmem := List.mem_of_find?_eq_some ho
  have his := List.find?_some (p := fun o : CommandOption δ => o.isOption arg) ho
  have hnamed : o.named arg = true ∨ o.attachedPrefix.isPrefixOf arg = true := by
    simp only [CommandOption.isOption] at his
    split at his
    · exact (Bool.or_eq_true _ _).mp his
    · exact Or.inl his
  rcases hnamed with hnamed | hattach
  · unfold CommandOption.named at hnamed
    rw [config_short env hmem hlong, hlong] at hnamed
    simp only [Bool.or_eq_true, decide_eq_true_eq, Option.some.injEq] at hnamed
    rcases hnamed with h | h
    · exact Or.inl h.symm
    · exact Or.inr (Or.inl h)
  · unfold CommandOption.attachedPrefix at hattach
    rw [hlong] at hattach
    exact Or.inr (Or.inr hattach)

theorem firstScanner_takes {arg : Text} :
    firstScanner.takes arg = true ↔ arg = "-c".toList ∨ arg = "--config".toList := by
  change (decide (arg = "-c".toList) || decide (arg = "--config".toList)) = true ↔ _
  rw [Bool.or_eq_true, decide_eq_true_iff, decide_eq_true_iff]

/-- Both passes pick the same of an argument. -/
theorem picks_eq : firstScanner.picks = (secondScanner env).picks := by
  funext arg next
  obtain ⟨hc, hconfig, hattached⟩ := findOption_config env
  by_cases harg : arg = "-c".toList ∨ arg = "--config".toList
  · rcases harg with rfl | rfl
    · simp only [secondScanner, hc]
      rfl
    · simp only [secondScanner, hconfig]
      rfl
  · by_cases hattach : "--config=".toList.isPrefixOf arg = true
    · obtain ⟨value, rfl⟩ := exists_of_isPrefixOf hattach
      simp only [secondScanner, hattached value]
      rfl
    · have hfirst : firstScanner.picks arg next = none := by
        simp only [firstScanner, if_neg harg, if_neg hattach]
      rw [hfirst]
      cases hfound : findOption env arg with
      | none => simp only [secondScanner, hfound]
      | some o =>
        have hlong : o.long ≠ "config".toList := by
          intro hlong
          rcases isConfig_of_findOption env hfound hlong with h | h | h
          · exact harg (Or.inl h)
          · exact harg (Or.inr h)
          · exact hattach h
        simp only [secondScanner, hfound, if_neg hlong]

/-- The first pass knows some of the options of the second, and the
    configuration option as the second one does. -/
theorem restricts : firstScanner.Restricts (secondScanner env) where
  picks_eq := picks_eq env
  takes arg harg := by
    obtain ⟨hc, hconfig, -⟩ := findOption_config env
    rcases firstScanner_takes.mp harg with rfl | rfl
    · simp only [secondScanner, hc]
      rfl
    · simp only [secondScanner, hconfig]
      rfl
  foreign arg next htakes hnot := by
    have hforms : ¬(arg = "-c".toList ∨ arg = "--config".toList) := by
      rw [← firstScanner_takes, hnot]
      exact Bool.false_ne_true
    have hattach : ¬"--config=".toList.isPrefixOf arg = true := by
      intro hattach
      obtain ⟨value, rfl⟩ := exists_of_isPrefixOf hattach
      simp only [secondScanner, (findOption_config env).2.2 value] at htakes
      cases htakes
    simp only [firstScanner, if_neg hforms, if_neg hattach]
  value arg value harg := by
    simp only [firstScanner, if_pos (firstScanner_takes.mp harg)]
    rfl

/-! ### The first pass -/

theorem lastPick_append (path : Text) (picked picked' : List (Nat × Text)) :
    lastPick path (picked ++ picked') = lastPick (lastPick path picked) picked' := by
  unfold lastPick
  rw [List.getLast?_append]
  cases picked'.getLast? with
  | none => rfl
  | some p => rfl

theorem lastPick_pickAt (path : Text) (S : Scanner Text Text) (i : Nat) (arg : Text)
    (next : Option Text) : lastPick path (S.pickAt i arg next) = (S.picks arg next).getD path := by
  unfold Scanner.pickAt
  cases S.picks arg next <;> rfl

/-- The first pass ends with its last pick. -/
theorem firstPass_eq (path : Text) (argv : List Text) (i : Nat) :
    firstPass path argv = lastPick path (firstScanner.scan i argv) := by
  induction argv using List.twoStepInduction generalizing path i with
  | nil => rfl
  | singleton arg =>
    rw [Scanner.scan, lastPick_pickAt, firstPass, firstScanner]
    dsimp only
    split
    · rename_i hattach
      have hforms : ¬(arg = "-c".toList ∨ arg = "--config".toList) := by
        rintro (rfl | rfl) <;> exact absurd hattach (by decide)
      rw [if_neg hforms]
      rfl
    · split <;> rfl
  | cons_cons arg value rest ih ih' =>
    rw [Scanner.scan, lastPick_append, lastPick_pickAt, firstPass]
    by_cases hforms : arg = "-c".toList ∨ arg = "--config".toList
    · have hpicks : firstScanner.picks arg (some value) = some value := if_pos hforms
      rw [hpicks, if_pos (firstScanner_takes.mpr hforms), Option.getD_some, ← ih value (i + 2)]
      rcases hforms with rfl | rfl <;> rfl
    · have htakes : firstScanner.takes arg = false := by
        rw [← Bool.not_eq_true, firstScanner_takes]
        exact hforms
      rw [htakes, if_neg fun h => hforms (Or.inl h)]
      by_cases hattach : "--config=".toList.isPrefixOf arg = true
      · have hpicks : firstScanner.picks arg (some value) = some (arg.drop 9) := by
          simp only [firstScanner, if_neg hforms, if_pos hattach]
        rw [hpicks, if_pos hattach]
        exact ih' value (arg.drop 9) (i + 1)
      · have hpicks : firstScanner.picks arg (some value) = none := by
          simp only [firstScanner, if_neg hforms, if_neg hattach]
        rw [hpicks, if_neg hattach, if_neg fun h => hforms (Or.inr h)]
        exact ih' value path (i + 1)

/-- The file that is loaded, by what the first pass picks. -/
theorem loadedFile_eq (files : FileSystem) (argv : List Text) :
    loadedFile files argv =
      let path := lastPick [] (firstScanner.scan 1 argv)
      if path.isEmpty then if (files autoConfig).isSome then some autoConfig else none
      else some path := by
  have hpath : configPath files argv =
      if (lastPick [] (firstScanner.scan 1 argv)).isEmpty ∧ (files autoConfig).isSome then
        autoConfig
      else lastPick [] (firstScanner.scan 1 argv) := by
    rw [configPath, firstPass_eq [] argv 1]
  dsimp only [loadedFile]
  by_cases hempty : (lastPick [] (firstScanner.scan 1 argv)).isEmpty = true
  · by_cases hauto : (files autoConfig).isSome = true
    · rw [if_pos ⟨hempty, hauto⟩] at hpath
      rw [hpath, if_pos hempty, if_pos hauto]
      rfl
    · rw [if_neg fun h => hauto h.2] at hpath
      rw [hpath, if_pos hempty, if_pos hempty, if_neg hauto]
  · rw [if_neg fun h => hempty h.1] at hpath
    rw [hpath, if_neg hempty, if_neg hempty]

/-! ### The second pass -/

/-- The action leaves the path of the configuration file alone. -/
def OptionAction.KeepsPath : OptionAction δ → Prop
  | .set effect => ∀ opts, (effect opts).configPath = opts.configPath
  | .stop _ => True
  | .value accept => ∀ value opts, (accept value opts).2.configPath = opts.configPath

/-- The same of what accepts a value. -/
def KeepsPath (accept : Accept δ) : Prop :=
  ∀ value opts, (accept value opts).2.configPath = opts.configPath

theorem keepsPath_nonempty {accept : Accept δ} (h : KeepsPath accept) :
    KeepsPath (nonempty accept) := by
  intro value opts
  unfold nonempty
  split
  · rfl
  · exact h value opts

theorem keepsPath_stored {store : Text → AppOptions δ → AppOptions δ}
    (h : ∀ value opts, (store value opts).configPath = opts.configPath) :
    KeepsPath (stored store) :=
  keepsPath_nonempty h

theorem keepsPath_integer {store : Int → AppOptions δ → Option (AppOptions δ)}
    (h : ∀ parsed opts, ∀ opts' ∈ store parsed opts, opts'.configPath = opts.configPath) :
    KeepsPath (integer store) := by
  intro value opts
  unfold integer
  split
  · rfl
  · split
    · rfl
    · rename_i opts' hstore
      exact h _ opts opts' hstore

/-- An integer that is checked before it is stored. -/
theorem keepsPath_integer_if {check : Int → Prop} [DecidablePred check]
    {store : Int → AppOptions δ → AppOptions δ}
    (h : ∀ parsed opts, (store parsed opts).configPath = opts.configPath) :
    KeepsPath (integer fun parsed opts =>
      if check parsed then none else some (store parsed opts)) := by
  refine keepsPath_integer fun parsed opts opts' hopts => ?_
  split at hopts
  · cases hopts
  · cases hopts
    exact h parsed opts

theorem keepsPath_parseTcpOption : KeepsPath (parseTcpOption (δ := δ)) := by
  intro value opts
  unfold parseTcpOption
  split
  · refine keepsPath_integer_if ?_ _ _
    exact fun _ _ => rfl
  · rfl

/-- Only the configuration option stores the path. -/
theorem keepsPath : ∀ o ∈ commandOptions env,
    o.long = "config".toList ∨ o.action.KeepsPath := by
  unfold commandOptions
  simp only [List.forall_mem_cons, List.not_mem_nil, false_implies, implies_true, and_true]
  repeat' apply And.intro
  all_goals first
    | exact Or.inl rfl
    | exact Or.inr fun _ => rfl
    | exact Or.inr trivial
    | exact Or.inr (keepsPath_stored fun _ _ => rfl)
    | refine Or.inr ?_
  -- the options that read a number or a word
  · exact keepsPath_nonempty keepsPath_parseTcpOption
  · refine keepsPath_integer fun parsed opts opts' hopts => ?_
    split at hopts <;> cases hopts
    rfl
  · refine keepsPath_nonempty fun value opts => ?_
    split <;> rfl
  · refine keepsPath_nonempty (keepsPath_integer_if ?_)
    exact fun _ _ => rfl
  · refine keepsPath_nonempty (keepsPath_integer_if ?_)
    exact fun _ _ => rfl
  · refine keepsPath_nonempty (keepsPath_integer fun parsed opts opts' hopts => ?_)
    cases hopts
    rfl
  · refine keepsPath_nonempty fun value opts => ?_
    split
    · split <;> rfl
    · rfl
  · refine keepsPath_nonempty fun value opts => ?_
    split
    · split <;> rfl
    · rfl
  · refine keepsPath_nonempty (keepsPath_integer_if ?_)
    exact fun _ _ => rfl
  · intro value opts
    beta_reduce
    split <;> rfl

/-- What an accepted option does. -/
theorem branch_go {o : CommandOption δ} {arg : Text} {following : Option Text}
    {opts opts' : AppOptions δ} {skip : Bool} (h : o.branch arg following opts = .go opts' skip) :
    (∃ effect, o.action = .set effect ∧ opts' = effect opts ∧ skip = false) ∨
      ∃ accept, o.action = .value accept ∧
        accept (o.readValue arg following).1 opts = (true, opts') ∧
          skip = (o.readValue arg following).2 := by
  unfold CommandOption.branch at h
  cases haction : o.action with
  | set effect =>
    rw [haction] at h
    cases h
    exact Or.inl ⟨effect, rfl, rfl, rfl⟩
  | stop outcome =>
    rw [haction] at h
    cases h
  | value accept =>
    rw [haction] at h
    dsimp only at h
    split at h
    · rename_i haccepted
      cases h
      exact Or.inr ⟨accept, rfl, Prod.ext haccepted rfl, rfl⟩
    · cases h

/-- It passes over the following argument exactly if it takes it as its
    value. -/
theorem branch_skip {o : CommandOption δ} {arg : Text} {following : Option Text}
    {opts opts' : AppOptions δ} {skip : Bool} (h : o.branch arg following opts = .go opts' skip) :
    skip = (o.takesNext arg && following.isSome) := by
  unfold CommandOption.takesNext
  rcases branch_go h with ⟨effect, haction, -, rfl⟩ | ⟨accept, haction, -, rfl⟩
  · rw [haction]
    rfl
  · rw [haction]
    unfold CommandOption.readValue
    cases o.attachedPrefix.isPrefixOf arg <;> cases following <;> rfl

/-- It leaves the path alone if its action does. -/
theorem branch_keepsPath {o : CommandOption δ} (hkeeps : o.action.KeepsPath) {arg : Text}
    {following : Option Text} {opts opts' : AppOptions δ} {skip : Bool}
    (h : o.branch arg following opts = .go opts' skip) : opts'.configPath = opts.configPath := by
  rcases branch_go h with ⟨effect, haction, rfl, -⟩ | ⟨accept, haction, haccept, -⟩
  · rw [haction] at hkeeps
    exact hkeeps opts
  · rw [haction] at hkeeps
    have hpath := hkeeps (o.readValue arg following).1 opts
    rw [haccept] at hpath
    exact hpath

/-- An argument for the configuration option stands for the one in the
    table. -/
theorem eq_configOption {arg : Text} {o : CommandOption δ} (hfound : findOption env arg = some o)
    (hlong : o.long = "config".toList) : o = configOption := by
  obtain ⟨hc, hconfig, hattached⟩ := findOption_config env
  rcases isConfig_of_findOption env hfound hlong with rfl | rfl | hattach
  · exact Option.some.inj (hfound.symm.trans hc)
  · exact Option.some.inj (hfound.symm.trans hconfig)
  · obtain ⟨value, rfl⟩ := exists_of_isPrefixOf hattach
    exact Option.some.inj (hfound.symm.trans (hattached value))

/-- The value it reads is the one that is picked; without one it reads the
    empty text. -/
theorem readValue_config {arg : Text} (following : Option Text)
    (hfound : findOption env arg = some configOption) :
    ((configOption (δ := δ)).readValue arg following).1 =
      ((secondScanner env).picks arg following).getD [] := by
  have hlong : (configOption (δ := δ)).long = "config".toList := rfl
  simp only [secondScanner, hfound, if_pos hlong, CommandOption.readValue]
  split
  · rfl
  · cases following <;> rfl

/-- The configuration option stores that value. -/
theorem branch_config {arg : Text} {following : Option Text} {opts opts' : AppOptions δ}
    {skip : Bool} (hfound : findOption env arg = some configOption)
    (h : configOption.branch arg following opts = .go opts' skip) :
    opts'.configPath = ((secondScanner env).picks arg following).getD opts.configPath := by
  have hvalue := readValue_config env following hfound
  rcases branch_go h with ⟨effect, haction, -, -⟩ | ⟨accept, haction, haccept, -⟩
  · cases haction
  · obtain rfl := OptionAction.value.inj haction
    rw [hvalue] at haccept
    cases hpick : (secondScanner env).picks arg following with
    | none =>
      -- the empty text is rejected
      rw [hpick] at haccept
      cases haccept
    | some value =>
      rw [hpick, Option.getD_some, stored, nonempty] at haccept
      split at haccept <;> cases haccept
      rfl

/-- What is stored of an accepted option. -/
theorem handleArgument_go {arg : Text} {following : Option Text} {opts opts' : AppOptions δ}
    {skip : Bool} (h : handleArgument env arg following opts = .go opts' skip) :
    opts'.configPath = ((secondScanner env).picks arg following).getD opts.configPath ∧
      skip = ((secondScanner env).takes arg && following.isSome) := by
  unfold handleArgument at h
  cases hfound : findOption env arg with
  | none =>
    rw [hfound] at h
    cases h
  | some o =>
    rw [hfound] at h
    have htakes : (secondScanner env).takes arg = o.takesNext arg := by
      simp only [secondScanner, hfound, Option.map_some, Option.getD_some]
    refine ⟨?_, by rw [htakes]; exact branch_skip h⟩
    by_cases hlong : o.long = "config".toList
    · obtain rfl : o = configOption := eq_configOption env hfound hlong
      exact branch_config env hfound h
    · have hpick : (secondScanner env).picks arg following = none := by
        simp only [secondScanner, hfound, if_neg hlong]
      have hkeeps := (keepsPath env o (List.mem_of_find?_eq_some hfound)).resolve_left hlong
      rw [hpick]
      exact branch_keepsPath hkeeps h

/-- No option of the table stops with the outcome of a run. -/
theorem stop_ne_run : ∀ o ∈ commandOptions env, o.action ≠ .stop .run := by
  unfold commandOptions
  simp only [List.forall_mem_cons, List.not_mem_nil, false_implies, implies_true, and_true]
  repeat' apply And.intro
  all_goals intro haction
  all_goals first
    | cases haction
    | have houtcome := OptionAction.stop.inj haction
      split at houtcome <;> cases houtcome

/-- So an argument that ends the pass does not end it as a run. -/
theorem branch_exit {o : CommandOption δ} (hne : o.action ≠ .stop .run) {arg : Text}
    {following : Option Text} {opts opts' : AppOptions δ} {outcome : AppParseOutcome}
    (h : o.branch arg following opts = .exit outcome opts') : outcome ≠ .run := by
  unfold CommandOption.branch at h
  cases haction : o.action with
  | set effect =>
    rw [haction] at h
    cases h
  | stop outcome' =>
    rw [haction] at h hne
    cases h
    exact fun hrun => hne (congrArg _ hrun)
  | value accept =>
    rw [haction] at h
    dsimp only at h
    split at h <;> cases h
    exact AppParseOutcome.noConfusion

theorem handleArgument_exit {arg : Text} {following : Option Text} {opts opts' : AppOptions δ}
    {outcome : AppParseOutcome} (h : handleArgument env arg following opts = .exit outcome opts') :
    outcome ≠ .run := by
  unfold handleArgument at h
  cases hfound : findOption env arg with
  | none =>
    rw [hfound] at h
    cases h
    exact AppParseOutcome.noConfusion
  | some o =>
    rw [hfound] at h
    exact branch_exit (stop_ne_run env o (List.mem_of_find?_eq_some hfound)) h

/-- The second pass ends with its last pick, if no argument stops it. -/
theorem secondPass_configPath (argv : List Text) (i : Nat) (opts : AppOptions δ)
    (hrun : (secondPass env argv opts).1 = .run) :
    (secondPass env argv opts).2.configPath =
      lastPick opts.configPath ((secondScanner env).scan i argv) := by
  induction argv using List.twoStepInduction generalizing i opts with
  | nil => rfl
  | singleton arg =>
    rw [Scanner.scan, lastPick_pickAt]
    rw [secondPass] at hrun ⊢
    cases hresult : handleArgument env arg none opts with
    | exit outcome opts' =>
      rw [hresult] at hrun
      exact absurd hrun (handleArgument_exit env hresult)
    | go opts' skip => exact (handleArgument_go env hresult).1
  | cons_cons arg following rest ih ih' =>
    rw [Scanner.scan, lastPick_append, lastPick_pickAt]
    rw [secondPass] at hrun ⊢
    cases hresult : handleArgument env arg (some following) opts with
    | exit outcome opts' =>
      rw [hresult] at hrun
      exact absurd hrun (handleArgument_exit env hresult)
    | go opts' skip =>
      obtain ⟨hpath, hskip⟩ := handleArgument_go env hresult
      rw [hresult] at hrun
      rw [Option.isSome_some, Bool.and_true] at hskip
      rw [← hpath, ← hskip]
      cases skip with
      | true => exact ih (i + 2) opts' hrun
      | false => exact ih' following (i + 1) opts' hrun

/-- So a run has the path that the last configuration option gives it. -/
theorem parseAppOptions_configPath (inputRate : Nat) (argv : List Text)
    (hrun : (parseAppOptions env inputRate argv).1 = .run) :
    (parseAppOptions env inputRate argv).2.configPath =
      lastPick (configPath env.files argv) ((secondScanner env).scan 1 argv) := by
  unfold parseAppOptions at hrun ⊢
  dsimp only at hrun ⊢
  generalize loadConfig env argv = loaded at hrun ⊢
  by_cases hloaded : loaded.1 = false
  · rw [if_pos hloaded] at hrun
    cases hrun
  · rw [if_neg hloaded] at hrun ⊢
    have hsecond := secondPass_configPath env argv 1
      (fromConfig env loaded.2 (configPath env.files argv))
    generalize secondPass env argv
      (fromConfig env loaded.2 (configPath env.files argv)) = result at *
    obtain ⟨outcome, opts⟩ := result
    cases outcome with
    | run => exact hsecond rfl
    | exitSuccess => cases hrun
    | exitFailure => cases hrun

/-! ### Main result -/

theorem valuesPlain_iff (argv : List Text) :
    ValuesPlain env argv ↔
      ∀ v ∈ otherValues env argv, firstScanner.picks v.argument v.next = none := by
  refine forall₂_congr fun v _ => ?_
  simp only [firstScanner]
  by_cases hforms : v.argument = "-c".toList ∨ v.argument = "--config".toList
  · have hattach : "--config=".toList.isPrefixOf v.argument = false := by
      rcases hforms with h | h <;> rw [h] <;> rfl
    rw [if_pos hforms]
    exact ⟨fun h => h.2 hforms, fun h => ⟨hattach, fun _ => h⟩⟩
  · rw [if_neg hforms]
    cases hattach : "--config=".toList.isPrefixOf v.argument with
    | true => exact ⟨fun h => (Bool.noConfusion h.1), fun h => by cases h⟩
    | false => exact ⟨fun _ => rfl, fun _ => ⟨rfl, fun h => absurd h hforms⟩⟩

/-- The passes agree exactly if no value of another option looks like a
    configuration option. -/
theorem passes_agree_iff (argv : List Text) : PassesAgree env argv ↔ ValuesPlain env argv := by
  rw [valuesPlain_iff]
  have hagrees := Scanner.scan_agrees_iff (restricts env) argv 1
  constructor
  · exact fun hagree => Scanner.unpicked_of_apart (restricts env) argv 1 hagree.2
  · intro hplain
    obtain ⟨hscan, hapart⟩ := hagrees.mpr hplain
    refine ⟨?_, hapart⟩
    rw [loadedFile_eq, hscan]
    rfl

/-- The name of a recording that looks like the configuration option: the
    second pass takes it as the name, the first one aborts on a file that
    does not exist. -/
theorem recording_taken_for_config :
    let env : Startup Unit := ⟨⟨fun _ => none, fun _ => (), fun _ _ _ => ()⟩, fun _ => none, true,
      fun _ => none, fun _ _ => false⟩
    let argv := ["-w".toList, "--config=foo".toList]
    namedFile env argv = none ∧ loadedFile env.files argv = some "foo".toList ∧
      (parseAppOptions env 256000 argv).1 = .exitFailure ∧
      (secondPass env argv (fromConfig env (Config.loadDefaults env.doubles) [])).1 = .run ∧
      ¬PassesAgree env argv := by
  intro env argv
  have hnamed : namedFile env argv = none := rfl
  have hloaded : loadedFile env.files argv = some "foo".toList := rfl
  refine ⟨hnamed, hloaded, rfl, rfl, fun hagree => ?_⟩
  rw [PassesAgree, hnamed, hloaded] at hagree
  cases hagree.1

end CommandLine

end FmSdrTuner
