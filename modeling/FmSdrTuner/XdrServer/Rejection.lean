import FmSdrTuner.XdrServer.Session

/-! # XDRServer: rejected commands

    A command is rejected when the XDR processor answers nothing (the scan
    subcommands apart, which never answer), when the FM-DX processor
    answers `ER`, or when a callback that can reject does. The processors
    store a field in some branches before the callback is asked and in
    others after, so that a rejection leaves the server alone is a fact
    about every branch: no effect of a rejected command is a store. -/

namespace FmSdrTuner

/-! ### Effects without a store -/

/-- Callbacks act elsewhere: effects that store nothing leave the server
    as it is, whatever the other threads do meanwhile. -/
theorem XDRServer.perform_of_no_store (s : XDRServer) {effects : List Effect}
    (h : ∀ w, Effect.store w ∉ effects) : s.perform effects = s := by
  induction effects with
  | nil => rfl
  | cons e effects ih =>
    have hrest : ∀ w, Effect.store w ∉ effects := fun w hw => h w (List.mem_cons_of_mem _ hw)
    cases e with
    | store w => exact absurd List.mem_cons_self (h w)
    | call c => exact ih hrest

theorem XDRServer.perform_invoke (s : XDRServer) (hooks : Hooks) (c : Callback) :
    s.perform (hooks.invoke c) = s := by
  apply s.perform_of_no_store
  intro w hw
  simp at hw

/-- The answer of the two callbacks that can reject; the others cannot. -/
def Hooks.rejects (hooks : Hooks) : Callback → Bool
  | .gain gain => !hooks.acceptsGain gain
  | .agc mode => !hooks.acceptsAgc mode
  | _ => false

/-- Nothing is stored, and every callback that was invoked is an AGC
    callback that rejected. -/
structure CommandResult.ChangesNothing (r : CommandResult) (hooks : Hooks) : Prop where
  stores : ∀ w, Effect.store w ∉ r.effects
  calls : ∀ c, Effect.call c ∈ r.effects → ∃ mode, c = .agc mode ∧ hooks.rejects c = true

namespace CommandResult.ChangesNothing
variable {hooks : Hooks} {reply : Text}

theorem of_no_effects : (CommandResult.mk [] reply).ChangesNothing hooks where
  stores _ := List.not_mem_nil
  calls _ hc := absurd hc List.not_mem_nil

theorem of_rejected_agc {mode : Int} (h : hooks.acceptsAgc mode = false) :
    (CommandResult.mk (hooks.invoke (.agc mode)) reply).ChangesNothing hooks where
  stores w hw := by simp at hw
  calls c hc := by
    obtain ⟨-, heq⟩ := Hooks.mem_invoke.mp hc
    cases heq
    exact ⟨mode, rfl, by simp [Hooks.rejects, h]⟩

end CommandResult.ChangesNothing

/-! ### XDR dialect -/

theorem xdrSetter_of_reply_nil {hooks : Hooks} {name : Char} {norm : Int → Int}
    {store : Int → ServerStore} {callback : Int → Callback} {arg : Text}
    (h : (xdrSetter hooks name norm store callback arg).reply = []) :
    xdrSetter hooks name norm store callback arg = silent := by
  unfold xdrSetter at h ⊢
  split at h
  · rfl
  · cases h

theorem tuneCommand_of_reply_nil {hooks : Hooks} {arg : Text}
    (h : (tuneCommand hooks arg).reply = []) : tuneCommand hooks arg = silent := by
  unfold tuneCommand at h ⊢
  split at h
  · rfl
  · split at h
    · cases h
    · next hband => rw [if_neg hband]

theorem gainCommand_of_reply_nil {s : XDRServer} {hooks : Hooks} {arg : Text}
    (h : (gainCommand s hooks arg).reply = []) : gainCommand s hooks arg = silent := by
  unfold gainCommand at h ⊢
  split at h
  · rfl
  · split at h <;> cases h

theorem agcCommand_of_reply_nil {s : XDRServer} {hooks : Hooks} {arg : Text}
    (h : (agcCommand s hooks arg).reply = []) : agcCommand s hooks arg = silent := by
  unfold agcCommand at h ⊢
  split at h
  · rfl
  · simp only at h
    split at h <;> cases h

theorem blendCommand_of_reply_nil {hooks : Hooks} {arg : Text}
    (h : (blendCommand hooks arg).reply = []) : blendCommand hooks arg = silent := by
  unfold blendCommand at h ⊢
  split at h
  · split at h
    · rfl
    · cases h
  · rfl

theorem samplingCommand_of_reply_nil {s : XDRServer} {hooks : Hooks} {arg : Text}
    (h : (samplingCommand s hooks arg).reply = []) : samplingCommand s hooks arg = silent := by
  unfold samplingCommand at h ⊢
  split at h
  · cases h
  · next hne =>
    rw [if_neg hne]
    simp only at h ⊢
    split at h
    · rfl
    · cases h

theorem forceMonoCommand_of_reply_nil {hooks : Hooks} {arg : Text}
    (h : (forceMonoCommand hooks arg).reply = []) : forceMonoCommand hooks arg = silent := by
  unfold forceMonoCommand at h ⊢
  split at h
  · rfl
  · simp only at h
    split at h <;> cases h

/-- An XDR command other than a scan command that answers nothing does
    nothing. -/
theorem processCommand_of_reply_nil {s : XDRServer} {hooks : Hooks} {command : Char} {arg : Text}
    {guestSession : Bool} (hscan : command ≠ 'S')
    (h : (processCommand s hooks (command :: arg) true guestSession).reply = []) :
    processCommand s hooks (command :: arg) true guestSession = silent := by
  unfold processCommand at h ⊢
  simp only [Bool.not_true, Bool.false_eq_true, if_false] at h ⊢
  split at h
  case h_4 => exact absurd rfl hscan
  case h_5 => exact tuneCommand_of_reply_nil h
  case h_8 => exact gainCommand_of_reply_nil h
  case h_9 => exact agcCommand_of_reply_nil h
  case h_12 => exact blendCommand_of_reply_nil h
  case h_17 => exact samplingCommand_of_reply_nil h
  case h_18 => exact forceMonoCommand_of_reply_nil h
  case h_20 => split at h <;> cases h
  case h_21 => rfl
  all_goals first | exact xdrSetter_of_reply_nil h | cases h

/-- A gain command whose callback rejects. -/
theorem gainCommand_of_rejected {s : XDRServer} {hooks : Hooks} {arg : Text} {gain : Int}
    (hcall : Effect.call (.gain gain) ∈ (gainCommand s hooks arg).effects)
    (hrejects : hooks.rejects (.gain gain) = true) :
    (gainCommand s hooks arg).reply = formatGain s.gain ∧
      ∀ w, Effect.store w ∉ (gainCommand s hooks arg).effects := by
  unfold gainCommand at hcall ⊢
  split at hcall
  · cases hcall
  · next parsed hparsed =>
    split at hcall
    · next hgo =>
      -- an accepted value is the one the callback was given
      have hsame : hooks.installed (.gain parsed) = true ∧ gain = parsed := by simpa using hcall
      have haccepts : hooks.acceptsGain parsed = true := by simpa [hsame.1] using hgo
      rw [hsame.2] at hrejects
      simp [Hooks.rejects, haccepts] at hrejects
    · next hgo =>
      rw [if_neg hgo]
      exact ⟨rfl, fun w hw => by simp at hw⟩

/-- An AGC command whose callback rejects. -/
theorem agcCommand_of_rejected {s : XDRServer} {hooks : Hooks} {arg : Text} {mode : Int}
    (hcall : Effect.call (.agc mode) ∈ (agcCommand s hooks arg).effects)
    (hrejects : hooks.rejects (.agc mode) = true) :
    (agcCommand s hooks arg).reply = 'A' :: decimalInt s.agcMode ∧
      ∀ w, Effect.store w ∉ (agcCommand s hooks arg).effects := by
  unfold agcCommand at hcall ⊢
  split at hcall
  · cases hcall
  · next parsed hparsed =>
    simp only at hcall ⊢
    split at hcall
    · next hgo =>
      have hsame : hooks.installed (.agc (clamp parsed 0 3)) = true ∧
          mode = clamp parsed 0 3 := by simpa using hcall
      have haccepts : hooks.acceptsAgc (clamp parsed 0 3) = true := by
        simpa [hsame.1] using hgo
      rw [hsame.2] at hrejects
      simp [Hooks.rejects, haccepts] at hrejects
    · next hgo =>
      rw [if_neg hgo]
      exact ⟨rfl, fun w hw => by simp at hw⟩

/-! ### FM-DX dialect -/

theorem ok_ne_er : "OK".toList ≠ "ER".toList := by decide

theorem fmdxSetter_of_reply_er {hooks : Hooks} {norm : Int → Int}
    {store : Int → ServerStore} {callback : Int → Callback} {arg : Text}
    (h : (fmdxSetter hooks norm store callback arg).reply = "ER".toList) :
    (fmdxSetter hooks norm store callback arg).ChangesNothing hooks := by
  unfold fmdxSetter at h ⊢
  split at h
  · exact .of_no_effects
  · exact absurd h ok_ne_er

theorem fmdxTuneCommand_of_reply_er {hooks : Hooks} {arg : Text}
    (h : (fmdxTuneCommand hooks arg).reply = "ER".toList) :
    (fmdxTuneCommand hooks arg).ChangesNothing hooks := by
  unfold fmdxTuneCommand at h ⊢
  split at h
  · exact .of_no_effects
  · exact absurd h ok_ne_er

theorem fmdxAgcCommand_of_reply_er {hooks : Hooks} {arg : Text}
    (h : (fmdxAgcCommand hooks arg).reply = "ER".toList) :
    (fmdxAgcCommand hooks arg).ChangesNothing hooks := by
  unfold fmdxAgcCommand at h ⊢
  split at h
  · exact .of_no_effects
  · simp only at h ⊢
    split at h
    · exact absurd h ok_ne_er
    · next hgo =>
      -- the callback answered false, and the mode is left alone
      rw [if_neg hgo]
      exact .of_rejected_agc (by simp_all)

theorem fmdxForceMonoCommand_of_reply_er {hooks : Hooks} {arg : Text}
    (h : (fmdxForceMonoCommand hooks arg).reply = "ER".toList) :
    (fmdxForceMonoCommand hooks arg).ChangesNothing hooks := by
  unfold fmdxForceMonoCommand at h ⊢
  split at h
  · exact .of_no_effects
  · exact absurd h ok_ne_er

theorem fmdxBlendCommand_of_reply_er {hooks : Hooks} {arg : Text}
    (h : (fmdxBlendCommand hooks arg).reply = "ER".toList) :
    (fmdxBlendCommand hooks arg).ChangesNothing hooks := by
  unfold fmdxBlendCommand at h ⊢
  split at h
  · split at h
    · exact .of_no_effects
    · exact absurd h ok_ne_er
  · exact .of_no_effects

/-- An FM-DX command that answers `ER` changes nothing. -/
theorem processFmdxCommand_of_reply_er {s : XDRServer} {hooks : Hooks} {cmd : Text}
    (h : (processFmdxCommand s hooks cmd).reply = "ER".toList) :
    (processFmdxCommand s hooks cmd).ChangesNothing hooks := by
  unfold processFmdxCommand at h ⊢
  split at h
  case h_1 => exact .of_no_effects
  case h_2 => exact fmdxTuneCommand_of_reply_er h
  case h_4 => exact fmdxAgcCommand_of_reply_er h
  case h_5 => simp at h
  case h_6 => exact fmdxForceMonoCommand_of_reply_er h
  case h_8 => exact fmdxBlendCommand_of_reply_er h
  case h_10 => exact .of_no_effects
  all_goals exact fmdxSetter_of_reply_er h

/-! ### Rejection -/

theorem CommandResult.ChangesNothing.perform_eq {r : CommandResult} {hooks : Hooks}
    (h : r.ChangesNothing hooks) (s : XDRServer) : s.perform r.effects = s :=
  s.perform_of_no_store h.stores

/-- A rejected command changes nothing: no field of the server is stored
    to, and no callback is invoked but an AGC callback that rejects. When
    the gain or the AGC callback of the XDR dialect rejects, the old value
    is reported and no field is stored to. -/
theorem rejected_command_changes_nothing (s : XDRServer) (hooks : Hooks) (command : Char)
    (arg : Text) (guestSession : Bool) :
    let xdr := processCommand s hooks (command :: arg) true guestSession
    let fmdx := processFmdxCommand s hooks (command :: arg)
    (command ≠ 'S' → xdr.reply = [] →
      s.perform xdr.effects = s ∧ xdr.ChangesNothing hooks) ∧
    (fmdx.reply = "ER".toList →
      s.perform fmdx.effects = s ∧ fmdx.ChangesNothing hooks) ∧
    (∀ gain, command = 'G' → Effect.call (.gain gain) ∈ xdr.effects →
      hooks.rejects (.gain gain) = true →
      xdr.reply = formatGain s.gain ∧ s.perform xdr.effects = s ∧
        ∀ w, Effect.store w ∉ xdr.effects) ∧
    (∀ mode, command = 'A' → Effect.call (.agc mode) ∈ xdr.effects →
      hooks.rejects (.agc mode) = true →
      xdr.reply = 'A' :: decimalInt s.agcMode ∧ s.perform xdr.effects = s ∧
        ∀ w, Effect.store w ∉ xdr.effects) := by
  intro xdr fmdx
  refine ⟨?_, ?_, ?_, ?_⟩
  -- XDR without a reply, FM-DX with `ER`, and the two callbacks that can reject
  · intro hscan hreply
    have hnothing : xdr.ChangesNothing hooks := by
      rw [show xdr = silent from processCommand_of_reply_nil hscan hreply]
      exact .of_no_effects
    exact ⟨hnothing.perform_eq s, hnothing⟩
  · intro hreply
    have hnothing := processFmdxCommand_of_reply_er hreply
    exact ⟨hnothing.perform_eq s, hnothing⟩
  · rintro gain rfl hcall hrejects
    obtain ⟨hreply, hstores⟩ := gainCommand_of_rejected hcall hrejects
    exact ⟨hreply, s.perform_of_no_store hstores, hstores⟩
  · rintro mode rfl hcall hrejects
    obtain ⟨hreply, hstores⟩ := agcCommand_of_rejected hcall hrejects
    exact ⟨hreply, s.perform_of_no_store hstores, hstores⟩

/-- Callbacks that are all installed and reject whatever they can. -/
def Hooks.rejectAll : Hooks := ⟨fun _ => true, fun _ => false, fun _ => false⟩

theorem rejected_gain_changes_nothing :
    (processCommand .initial .rejectAll "G11".toList true false).reply = "G00".toList ∧
      XDRServer.initial.perform
        (processCommand .initial .rejectAll "G11".toList true false).effects = .initial := by
  have h := (rejected_command_changes_nothing .initial .rejectAll 'G' ['1', '1'] false).2.2.1 11
    rfl (by decide) rfl
  exact ⟨h.1.trans (by decide), h.2.1⟩

end FmSdrTuner
