import FmSdrTuner.Framework.Copies
import FmSdrTuner.Control.ScanInvariant
import FmSdrTuner.Control.Station
import FmSdrTuner.XdrServer.Snapshot

/-! # The state that XDR clients are sent

    Volume, de-emphasis, AGC mode, bandwidth and frequency are held twice:
    by `XDRServer`, which sends them to a client that connects, and by
    `XdrCommandState`, which the main loop acts on. XDR and FM-DX commands
    write both. REST, the automatic gain, the adaptive bandwidth and scans
    write the second only, and start-up leaves the first at the defaults of
    the constructor. The frequency alone is copied back, when a retune
    succeeds. So clients are sent the state in force as long as the other
    writers write what the server has. -/

namespace FmSdrTuner

/-! ### Settings held twice -/

/-- The settings that are held twice and never copied. -/
inductive Setting where
  | volume
  | deemphasis
  | agc
  | bandwidth
  deriving DecidableEq, Repr

namespace Setting

def all : List Setting := [.volume, .deemphasis, .agc, .bandwidth]

theorem mem_all (m : Setting) : m ∈ all := by cases m <;> decide

/-- The copy of the server. -/
def server : Setting → XDRServer → Int
  | .volume, s => s.volume
  | .deemphasis, s => s.deemphasis
  | .agc, s => s.agcMode
  | .bandwidth, s => s.bandwidth

/-- The copy of the command state. -/
def command : Setting → XdrCommandState → Int
  | .volume, c => c.requestedVolume
  | .deemphasis, c => c.requestedDeemphasis
  | .agc, c => c.requestedAGCMode
  | .bandwidth, c => c.requestedBandwidthHz

/-- What a write stores in the server's copy. -/
def serverWrite : Setting → Write → Option Int
  | .volume, .server (.volume v) => some v
  | .deemphasis, .server (.deemphasis v) => some v
  | .agc, .server (.agcMode v) => some v
  | .bandwidth, .server (.bandwidth v) => some v
  | _, _ => none

/-- What a write stores in the copy of the command state. -/
def commandWrite : Setting → Write → Option Int
  | .volume, .command (.requestedVolume v) => some v
  | .deemphasis, .command (.requestedDeemphasis v) => some v
  | .agc, .command (.requestedAGCMode v) => some v
  | .bandwidth, .command (.requestedBandwidthHz v) => some v
  | _, _ => none

theorem server_write (m : Setting) (s : Application) (w : Write) :
    m.server (s.write w).server = (m.serverWrite w).getD (m.server s.server) := by
  cases w with
  | server st => cases m <;> cases st <;> rfl
  | _ => cases m <;> rfl

theorem command_write (m : Setting) (c : XdrCommandState) (w : Write) :
    m.command (c.write w) = (m.commandWrite w).getD (m.command c) := by
  cases w with
  | command st => cases m <;> cases st <;> rfl
  | _ => cases m <;> rfl

theorem command_writes (m : Setting) (c : XdrCommandState) (ws : List Write) :
    m.command (ws.foldl XdrCommandState.write c) = settle m.commandWrite (m.command c) ws := by
  induction ws generalizing c with
  | nil => rfl
  | cons w ws ih => rw [List.foldl_cons, settle_cons, ih, command_write]

end Setting

/-! ### Commands write both copies -/

/-- A store of the server's frequency. -/
def isFrequencyStore : Write → Bool
  | .server (.frequency _) => true
  | _ => false

/-- The writes of a command: they leave equal copies equal, and a frequency
    is also requested. -/
structure WritesBoth (ws : List Write) : Prop where
  matched : ∀ m : Setting, Matched m.serverWrite m.commandWrite ws
  announced : Signalled isFrequencyStore (.command .pendingFrequency) ws

/-- A write that has nothing to do with these settings. -/
def Write.isNeutral : Write → Bool
  | .server (.frequency _) => false
  | w => Setting.all.all fun m => (m.serverWrite w).isNone && (m.commandWrite w).isNone

theorem WritesBoth.of_neutral {ws : List Write} (h : ∀ w ∈ ws, w.isNeutral = true) :
    WritesBoth ws := by
  have hparts : ∀ w ∈ ws, isFrequencyStore w = false ∧
      ∀ m : Setting, m.serverWrite w = none ∧ m.commandWrite w = none := by
    intro w hw
    have hneutral := h w hw
    have hfrequency : isFrequencyStore w = false := by
      cases w with
      | server st => cases st <;> first | rfl | cases hneutral
      | _ => rfl
    refine ⟨hfrequency, fun m => ?_⟩
    have hall : (Setting.all.all fun m =>
        (m.serverWrite w).isNone && (m.commandWrite w).isNone) = true := by
      cases w with
      | server st => cases st <;> first | exact hneutral | cases hfrequency
      | _ => exact hneutral
    have hm := List.all_eq_true.mp hall m m.mem_all
    simpa using hm
  -- neither copy is touched, and no frequency is stored
  constructor
  · intro m
    apply Matched.of_untouched
    · apply List.any_eq_false.mpr
      intro w hw
      rw [((hparts w hw).2 m).1]
      exact Bool.false_ne_true
    · apply List.any_eq_false.mpr
      intro w hw
      rw [((hparts w hw).2 m).2]
      exact Bool.false_ne_true
  · induction ws with
    | nil => trivial
    | cons w ws ih =>
      constructor
      · intro hfrequency
        rw [(hparts w List.mem_cons_self).1] at hfrequency
        cases hfrequency
      · exact ih (fun w' hw' => h w' (List.mem_cons_of_mem _ hw'))
          fun w' hw' => hparts w' (List.mem_cons_of_mem _ hw')

section commands
variable {o : FacadeOptions}

/-- The writes behind the effects of a command. -/
def commandWrites (o : FacadeOptions) (effects : List Effect) : List Write :=
  effects.flatMap (effectWrites o)

/-- A command that has nothing to do with these settings. -/
theorem writesBoth_of_neutral {effects : List Effect}
    (h : ∀ e ∈ effects, ∀ w ∈ effectWrites o e, w.isNeutral = true) :
    WritesBoth (commandWrites o effects) := by
  apply WritesBoth.of_neutral
  intro w hw
  obtain ⟨e, he, hmem⟩ := List.mem_flatMap.mp hw
  exact h e he w hmem

theorem writesBoth_nil : WritesBoth (commandWrites o []) :=
  writesBoth_of_neutral fun e he => by cases he

theorem neutral_store {st : ServerStore} (h : (Write.server st).isNeutral = true) :
    ∀ w ∈ effectWrites o (.store st), w.isNeutral = true := by
  intro w hw
  rw [List.mem_singleton.mp hw]
  exact h

theorem neutral_invoke {hooks : Hooks} {c : Callback} {e : Effect} (he : e ∈ hooks.invoke c)
    (hc : ∀ w ∈ callbackWrites o c, w.isNeutral = true) :
    ∀ w ∈ effectWrites o e, w.isNeutral = true := by
  rw [(Hooks.mem_invoke.mp he).2]
  exact hc

/-- A store and its callback, both without meaning here. -/
theorem writesBoth_store_invoke {st : ServerStore} {c : Callback} {hooks : Hooks}
    (hst : (Write.server st).isNeutral = true)
    (hc : ∀ w ∈ callbackWrites o c, w.isNeutral = true) :
    WritesBoth (commandWrites o (.store st :: hooks.invoke c)) := by
  apply writesBoth_of_neutral
  intro e he
  rcases List.mem_cons.mp he with rfl | he
  · exact neutral_store hst
  · exact neutral_invoke he hc

theorem writesBoth_volume {v : Int} (h : 0 ≤ v ∧ v ≤ 100) :
    WritesBoth (commandWrites o (.store (.volume v) :: (facadeHooks o).invoke (.volume v))) := by
  have hws : commandWrites o (.store (.volume v) :: (facadeHooks o).invoke (.volume v)) =
      [.server (.volume v), .command (.requestedVolume v)] := by
    have hclamp := clamp_of_mem h.1 h.2
    simp [commandWrites, Hooks.invoke, facadeHooks, effectWrites, callbackWrites, hclamp]
  rw [hws]
  constructor
  · intro m u
    cases m <;> rfl
  · simp [Signalled, isFrequencyStore]

theorem writesBoth_deemphasis {v : Int} (h : 0 ≤ v ∧ v ≤ 2) :
    WritesBoth (commandWrites o
      (.store (.deemphasis v) :: (facadeHooks o).invoke (.deemphasis v))) := by
  have hws : commandWrites o
      (.store (.deemphasis v) :: (facadeHooks o).invoke (.deemphasis v)) =
      [.server (.deemphasis v), .command (.requestedDeemphasis v)] := by
    have hclamp := clamp_of_mem h.1 h.2
    simp [commandWrites, Hooks.invoke, facadeHooks, effectWrites, callbackWrites, hclamp]
  rw [hws]
  constructor
  · intro m u
    cases m <;> rfl
  · simp [Signalled, isFrequencyStore]

theorem writesBoth_bandwidth (v : Int) :
    WritesBoth (commandWrites o
      (.store (.bandwidth v) :: (facadeHooks o).invoke (.bandwidth v))) := by
  have hws : commandWrites o
      (.store (.bandwidth v) :: (facadeHooks o).invoke (.bandwidth v)) =
      [.server (.bandwidth v), .command (.requestedBandwidthHz v),
        .command .pendingBandwidth] := by
    simp [commandWrites, Hooks.invoke, facadeHooks, effectWrites, callbackWrites]
  rw [hws]
  constructor
  · intro m u
    cases m <;> rfl
  · simp [Signalled, isFrequencyStore]

theorem writesBoth_frequency (hz : Nat) :
    WritesBoth (commandWrites o (.store (.frequency hz) :: (facadeHooks o).invoke (.freq hz))) := by
  have hws : commandWrites o (.store (.frequency hz) :: (facadeHooks o).invoke (.freq hz)) =
      [.server (.frequency hz), .command (.requestedFrequencyHz hz),
        .command .pendingFrequency] := by
    simp [commandWrites, Hooks.invoke, facadeHooks, effectWrites, callbackWrites]
  rw [hws]
  constructor
  · intro m u
    cases m <;> rfl
  · simp [Signalled, isFrequencyStore]

/-- The AGC mode is stored by the server if and only if the facade takes it. -/
theorem writesBoth_agc {v : Int} (h : 0 ≤ v ∧ v ≤ 3) :
    WritesBoth (commandWrites o
      (if !(facadeHooks o).installed (.agc v) || (facadeHooks o).acceptsAgc v then
        (facadeHooks o).invoke (.agc v) ++ [.store (.agcMode v)]
      else (facadeHooks o).invoke (.agc v))) := by
  have hclamp := clamp_of_mem h.1 h.2
  cases haccepts : o.acceptsGain with
  | true =>
    have hws : commandWrites o
        (if !(facadeHooks o).installed (.agc v) || (facadeHooks o).acceptsAgc v then
          (facadeHooks o).invoke (.agc v) ++ [.store (.agcMode v)]
        else (facadeHooks o).invoke (.agc v)) =
        [.command (.requestedAGCMode v), .command .pendingAGC, .server (.agcMode v)] := by
      simp [commandWrites, Hooks.invoke, facadeHooks, effectWrites, callbackWrites, haccepts,
        hclamp]
    rw [hws]
    constructor
    · intro m u
      cases m <;> rfl
    · simp [Signalled, isFrequencyStore]
  | false =>
    have hws : commandWrites o
        (if !(facadeHooks o).installed (.agc v) || (facadeHooks o).acceptsAgc v then
          (facadeHooks o).invoke (.agc v) ++ [.store (.agcMode v)]
        else (facadeHooks o).invoke (.agc v)) = [] := by
      simp [commandWrites, Hooks.invoke, facadeHooks, effectWrites, callbackWrites, haccepts]
    rw [hws]
    exact writesBoth_nil (o := o)

/-- The gain is neither sent from a copy nor announced. -/
theorem writesBoth_gain {hooks : Hooks} {v : Int} {accepts : Bool} :
    WritesBoth (commandWrites o
      (if !hooks.installed (.gain v) || accepts then hooks.invoke (.gain v) ++ [.store (.gain v)]
      else hooks.invoke (.gain v))) := by
  have hcallback : ∀ w ∈ callbackWrites o (.gain v), w.isNeutral = true := by
    intro w hw
    simp only [callbackWrites] at hw
    split at hw
    · rcases List.mem_pair.mp hw with rfl | rfl <;> rfl
    · cases hw
  apply writesBoth_of_neutral
  intro e he
  split at he
  · rcases List.mem_append.mp he with he | he
    · exact neutral_invoke he hcallback
    · rw [List.mem_singleton.mp he]
      exact neutral_store rfl
  · exact neutral_invoke he hcallback

theorem Setter.writesBoth {tunes : Nat → Prop} {st : ServerStore} {c : Callback}
    (h : Setter tunes st c) :
    WritesBoth (commandWrites o (.store st :: (facadeHooks o).invoke c)) := by
  cases h with
  | frequency _ => exact writesBoth_frequency _
  | volume hv => exact writesBoth_volume hv
  | deemphasis hv => exact writesBoth_deemphasis hv
  | bandwidth _ => exact writesBoth_bandwidth _
  | forceMono _ | scanCancel =>
    apply writesBoth_store_invoke rfl
    intro w hw
    rw [List.mem_singleton.mp hw]
    rfl
  | alignment _ | mode _ | antenna _ | squelch _ | rotator _ =>
    -- the facade does nothing in these callbacks
    apply writesBoth_store_invoke rfl
    intro w hw
    cases hw

theorem Notice.neutral {c : Callback} (h : Notice c) :
    ∀ w ∈ callbackWrites o c, w.isNeutral = true := by
  intro w hw
  cases h with
  | start =>
    rw [List.mem_singleton.mp hw]
    rfl
  | blendMode _ => rcases List.mem_pair.mp hw with rfl | rfl <;> rfl

theorem CommandEffects.writesBoth {tunes : Nat → Prop} {effects : List Effect}
    (h : CommandEffects (facadeHooks o) tunes effects) :
    WritesBoth (commandWrites o effects) := by
  cases h with
  | nothing => exact writesBoth_nil
  | told hnotice =>
    apply writesBoth_of_neutral
    intro e he
    exact neutral_invoke he hnotice.neutral
  | stored hsetter => exact hsetter.writesBoth
  | asked hrequester =>
    cases hrequester with
    | gain _ => exact writesBoth_gain
    | agc hv => exact writesBoth_agc hv
  | sampled _ _ =>
    apply writesBoth_of_neutral
    intro e he
    rcases List.mem_cons.mp he with rfl | he
    · exact neutral_store rfl
    · rcases List.mem_cons.mp he with rfl | he
      · exact neutral_store rfl
      · exact neutral_invoke he fun w hw => by cases hw
  | scan hstores =>
    apply writesBoth_of_neutral
    intro e he
    obtain ⟨st, hst, rfl⟩ := List.mem_map.mp he
    cases hstores st hst <;> exact neutral_store rfl

end commands

end FmSdrTuner
