import FmSdrTuner.XdrServer.Session

/-! # Who may control the tuner

    A password is set and guest mode is off. An XDR session reaches its
    command loop only after the challenge/response, so a peer that does
    not know the password has no effect through it. An FM-DX session has
    no such step: after the handshake line a single line `x` or `X` runs
    the start or stop callback.

    Main result: `noControl_iff_not_controlsOverFmdx`, which says exactly
    which connections without a valid response leave the server alone. -/

namespace FmSdrTuner

/-! ### The response of a connection -/

/-- The first line of the stream, as `recvLine` would deliver it. -/
def Connection.authLine (conn : Connection) : Text :=
  (conn.stream.takeWhile (· ≠ '\n')).filter (· ≠ '\r')

/-- The authentication line carries `SHA1(salt ‖ password)`, up to hex case. -/
def Connection.answers (conn : Connection) (secrets : ServerSecrets) : Bool :=
  conn.stream.contains '\n' &&
    equalsUpToCase (secrets.computeSHA1 conn.salt secrets.password)
      (stripHashPrefix conn.authLine)

/-- A line that `recvLine` accepts is the first one of the stream. -/
theorem recvLine_eq_some {maxLen : Nat} {stream line received rest : Text}
    (h : recvLine maxLen line stream = (some received, rest)) :
    '\n' ∈ stream ∧
      received = line ++ (stream.takeWhile (· ≠ '\n')).filter (· ≠ '\r') := by
  induction stream generalizing line with
  | nil => simp [recvLine] at h
  | cons ch stream ih =>
    -- the three branches of the loop body: end of line, `\r`, anything else
    unfold recvLine at h
    by_cases hlen : line.length < maxLen
    · by_cases hn : ch = '\n'
      · simp only [hlen, hn, if_true, Prod.mk.injEq, Option.some.injEq] at h
        simp [hn, h.1]
      · by_cases hr : ch = '\r'
        · simp only [hlen, hr, ne_eq, not_true_eq_false, if_true, if_false] at h
          obtain ⟨hmem, heq⟩ := ih h
          exact ⟨List.mem_cons_of_mem _ hmem, by simpa [hr] using heq⟩
        · simp only [hlen, hn, hr, ne_eq, not_false_eq_true, if_true, if_false] at h
          obtain ⟨hmem, heq⟩ := ih h
          exact ⟨List.mem_cons_of_mem _ hmem, by simpa [hn, hr] using heq⟩
    · simp [hlen] at h

theorem authenticate_false_of_not_answers {secrets : ServerSecrets} {conn : Connection}
    {authMsg rest : Text} (hno : conn.answers secrets = false)
    (hline : recvLine (HASH_LENGTH + 2) [] conn.stream = (some authMsg, rest)) :
    authenticate secrets conn.salt (stripHashPrefix authMsg) = false := by
  obtain ⟨hmem, heq⟩ := recvLine_eq_some hline
  have hauth : authMsg = conn.authLine := by simpa [Connection.authLine] using heq
  have hneq : equalsUpToCase (secrets.computeSHA1 conn.salt secrets.password)
      (stripHashPrefix conn.authLine) = false := by
    simpa [Connection.answers, hmem] using hno
  rw [hauth]
  simp only [authenticate, hneq, ite_self]

/-! ### No control through an XDR session -/

/-- The session ran no callback and left every field of the server alone. -/
def Session.NoControl (session : Session) (server : XDRServer) : Prop :=
  (∀ c, .call c ∉ session.effects) ∧ session.server = server

@[simp] theorem Session.perform_nil_effects (session : Session) (reply : Text) :
    (session.perform [] reply).effects = session.effects := by simp [Session.perform]

@[simp] theorem Session.perform_nil_server (session : Session) (reply : Text) :
    (session.perform [] reply).server = session.server := rfl

@[simp] theorem Session.start_noControl (server : XDRServer) :
    (Session.start server).NoControl server := ⟨by simp [Session.start], rfl⟩

theorem Session.NoControl.perform_nil {session : Session} {server : XDRServer}
    (h : session.NoControl server) (reply : Text) :
    (session.perform [] reply).NoControl server := by
  simpa [Session.NoControl] using h

theorem handleXdrClient_noControl {hooks : Hooks} {secrets : ServerSecrets}
    {server : XDRServer} {conn : Connection} (hguest : secrets.guestMode = false)
    (hno : conn.answers secrets = false) :
    (handleXdrClient hooks secrets server conn.salt conn.stream conn.schedule).NoControl
      server := by
  unfold handleXdrClient
  split
  · exact Session.start_noControl server
  · have hsalt := (Session.start_noControl server).perform_nil conn.salt
    cases hline : recvLine (HASH_LENGTH + 2) [] conn.stream with
    | mk received rest =>
      cases received with
      | none => exact hsalt
      | some authMsg =>
        have hauth := authenticate_false_of_not_answers hno hline
        simp only [hauth, hguest, Bool.not_false, Bool.and_self, if_true]
        exact hsalt.perform_nil _

/-! ### FM-DX sessions -/

/-- A line that the FM-DX loop turns into a callback in any state. -/
def isStartStop (line : Text) : Prop := line = ['x'] ∨ line = ['X']

instance (line : Text) : Decidable (isStartStop line) :=
  inferInstanceAs (Decidable (_ ∨ _))

/-- Among `lines`, one is `x` or `X`, and every message before its turn
    could be sent; `sent` messages went out before the first line. -/
def startStopReached (sendOk : Nat → Bool) (sent : Nat) (lines : List Text) : Prop :=
  ∃ k line, lines[k]? = some line ∧ isStartStop line ∧ ∀ i < k, sendOk (sent + i) = true

theorem startStopReached_cons (sendOk : Nat → Bool) (sent : Nat) (line : Text)
    (lines : List Text) :
    startStopReached sendOk sent (line :: lines) ↔
      isStartStop line ∨ (sendOk sent = true ∧ startStopReached sendOk (sent + 1) lines) := by
  constructor
  · rintro ⟨k, l, hget, hl, hsent⟩
    cases k with
    | zero =>
      simp only [List.getElem?_cons_zero, Option.some.injEq] at hget
      subst hget
      exact Or.inl hl
    | succ k =>
      refine Or.inr ⟨by simpa using hsent 0 (by omega), k, l, by simpa using hget, hl, ?_⟩
      intro i hi
      have := hsent (i + 1) (by omega)
      rwa [show sent + (i + 1) = sent + 1 + i from by omega] at this
  · rintro (hl | ⟨hsend, k, l, hget, hl, hsent⟩)
    · exact ⟨0, line, rfl, hl, by simp⟩
    · refine ⟨k + 1, l, by simpa using hget, hl, ?_⟩
      intro i hi
      cases i with
      | zero => simpa using hsend
      | succ i =>
        rw [show sent + (i + 1) = sent + 1 + i from by omega]
        exact hsent i (by omega)

section fmdx
variable {hooks : Hooks} {sendOk : Nat → Bool} {server : XDRServer}

/-- Effects of a session only grow. -/
theorem handleFmdxLine_effects (hooks : Hooks) (sendOk : Nat → Bool) (session : Session)
    (line : Text) :
    ∃ more, (handleFmdxLine hooks sendOk session line).1.effects = session.effects ++ more := by
  unfold handleFmdxLine
  split
  · exact ⟨_, rfl⟩
  · split
    · exact ⟨_, rfl⟩
    · split
      · exact ⟨_, rfl⟩
      · exact ⟨_, rfl⟩

theorem runLines_call_mem {session : Session} {c : Callback} (lines : List Text)
    (h : .call c ∈ session.effects) :
    .call c ∈ (runLines (handleFmdxLine hooks sendOk) session lines).1.effects := by
  induction lines generalizing session with
  | nil => exact h
  | cons line lines ih =>
    obtain ⟨more, hmore⟩ := handleFmdxLine_effects hooks sendOk session line
    have hmem : .call c ∈ (handleFmdxLine hooks sendOk session line).1.effects := by
      rw [hmore]; exact List.mem_append_left _ h
    simp only [runLines]
    split
    · exact ih hmem
    · exact hmem

/-- Before the tuner is started through it, an FM-DX session has an effect
    exactly when it reaches a line `x` or `X`. -/
theorem runLines_noControl_iff (sendOk : Nat → Bool)
    (hstart : hooks.installed .start = true) (hstop : hooks.installed .stop = true)
    (lines : List Text) {session : Session}
    (hidle : session.tunerStarted = false) (hno : session.NoControl server) :
    let final := (runLines (handleFmdxLine hooks sendOk) session lines).1
    (¬ startStopReached sendOk session.replies.length lines →
        final.NoControl server ∧ final.tunerStarted = false) ∧
      (startStopReached sendOk session.replies.length lines →
        ∃ c, .call c ∈ final.effects) := by
  induction lines generalizing session with
  | nil =>
    refine ⟨fun _ => ⟨hno, hidle⟩, ?_⟩
    rintro ⟨k, line, hget, -⟩
    simp at hget
  | cons line lines ih =>
    rw [startStopReached_cons]
    by_cases hx : line = ['x']
    · refine ⟨fun h => absurd (Or.inl (Or.inl hx)) h, fun _ => ⟨.start, ?_⟩⟩
      simp only [runLines, handleFmdxLine, hx, if_true]
      apply runLines_call_mem
      simp [Session.perform, hstart]
    · by_cases hX : line = ['X']
      · refine ⟨fun h => absurd (Or.inl (Or.inr hX)) h, fun _ => ⟨.stop, ?_⟩⟩
        simp only [runLines, handleFmdxLine, hX, List.cons.injEq, Char.reduceEq, false_and,
          if_false, if_true]
        apply runLines_call_mem
        simp [Session.perform, hstop]
      · -- any other line is answered `ER` and changes nothing
        have hline : handleFmdxLine hooks sendOk session line =
            (session.perform [] "ER".toList, sendOk session.replies.length) := by
          simp [handleFmdxLine, hx, hX, hidle]
        have hnot : ¬ isStartStop line := by rintro (h | h); exacts [hx h, hX h]
        have hlen : (session.perform [] "ER".toList).replies.length =
            session.replies.length + 1 := by simp [Session.perform]
        have hidle' : (session.perform [] "ER".toList).tunerStarted = false := hidle
        have hno' := hno.perform_nil "ER".toList
        have hrec := ih hidle' hno'
        rw [hlen] at hrec
        simp only [runLines, hline]
        by_cases hsend : sendOk session.replies.length = true
        -- a client whose answer cannot be sent is left, and the later lines are not reached
        · simp only [hsend, if_true, hnot, false_or, true_and]
          exact hrec
        · simp only [hsend, hnot, Bool.false_eq_true, if_false, false_or, false_and]
          exact ⟨fun _ => ⟨hno', hidle'⟩, fun h => h.elim⟩

end fmdx

/-! ### Main result -/

/-- The peer completes the FM-DX handshake and one of its command lines,
    reached before a message could not be sent, is `x` or `X`. -/
def Connection.controlsOverFmdx (conn : Connection) : Prop :=
  conn.isFmdxProtocol = true ∧ (recvLine 16 [] conn.stream).1 = some ['x'] ∧
    startStopReached conn.sendOk 1
      (framedLines (recvLine 16 [] conn.stream).2 conn.schedule)

/-- Without a valid response in its authentication line, a connection
    leaves the server alone if and only if it is not one that completes the
    FM-DX handshake and then sends a line `x` or `X`. -/
theorem noControl_iff_not_controlsOverFmdx (hooks : Hooks)
    (hstart : hooks.installed .start = true) (hstop : hooks.installed .stop = true)
    (secrets : ServerSecrets) (hguest : secrets.guestMode = false)
    (server : XDRServer) (conn : Connection) (hno : conn.answers secrets = false) :
    (handleClient hooks secrets server conn).NoControl server ↔
      ¬ conn.controlsOverFmdx := by
  unfold handleClient Connection.controlsOverFmdx
  by_cases hfmdx : conn.isFmdxProtocol = true
  · by_cases hshake : (recvLine 16 [] conn.stream).1 = some ['x']
    · simp only [hfmdx, hshake, if_true, true_and, handleFmdxClient]
      rw [runLoop_session]
      have hidle : ((Session.start server).perform [] ['1']).tunerStarted = false := rfl
      obtain ⟨hquiet, hloud⟩ := runLines_noControl_iff conn.sendOk hstart hstop
        (framedLines (recvLine 16 [] conn.stream).2 conn.schedule) hidle
        ((Session.start_noControl server).perform_nil ['1'])
      rw [show ((Session.start server).perform [] ['1']).replies.length = 1 from rfl]
        at hquiet hloud
      constructor
      · intro hnone hreached
        obtain ⟨c, hc⟩ := hloud hreached
        apply hnone.1 c
        split
        · simp only [Session.perform]
          exact List.mem_append_left _ hc
        · exact hc
      · intro hnot
        obtain ⟨hnone, hidle⟩ := hquiet hnot
        simpa [hidle] using hnone
    · simp [hfmdx, hshake]
  · simp only [hfmdx, Bool.false_eq_true, if_false, false_and, not_false_eq_true, iff_true]
    exact handleXdrClient_noControl hguest hno

/-! ### A client without the password -/

/-- Every callback installed, every gain and AGC request accepted. -/
def openHooks : Hooks := ⟨fun _ => true, fun _ => true, fun _ => true⟩

/-- Password `secret`, no guests; SHA1 on the salt of the session below. -/
def passwordOnly : ServerSecrets where
  password := "secret".toList
  guestMode := false
  computeSHA1 salt password :=
    if salt ++ password = "QWERTYUIOPASDFGHsecret".toList then
      "3d3ae08ece30b0ddc18a346119e792f244588488".toList
    else []

/-- An XDR client whose response is the digest of something else. -/
def wrongResponse : Connection where
  arrived := true
  stream := "P0000000000000000000000000000000000000000\nT88500000\n".toList
  salt := "QWERTYUIOPASDFGH".toList
  schedule := [.data 254]
  sendOk _ := true

theorem wrongResponse_noControl :
    (handleClient openHooks passwordOnly XDRServer.initial wrongResponse).NoControl
      XDRServer.initial :=
  (noControl_iff_not_controlsOverFmdx openHooks rfl rfl passwordOnly rfl XDRServer.initial
    wrongResponse (by decide +kernel)).mpr fun h => absurd h.1 (by decide)

/-- FM-DX handshake, start, tune to 88.5 MHz, close. -/
def uninvited : Connection where
  arrived := true
  stream := "x\nx\nT88500000\n".toList
  salt := "QWERTYUIOPASDFGH".toList
  schedule := [.data 254, .data 254]
  sendOk _ := true

/-- The password is set and guests are off, no valid response is sent, and
    yet the session starts the tuner, tunes it and stops it again. -/
theorem uninvited_controls_the_tuner :
    passwordOnly.password ≠ [] ∧ passwordOnly.guestMode = false ∧
      uninvited.answers passwordOnly = false ∧
      (handleClient openHooks passwordOnly XDRServer.initial uninvited).effects =
        [.call .start, .store (.frequency 88500000), .call (.freq 88500000), .call .stop] ∧
      ¬ (handleClient openHooks passwordOnly XDRServer.initial uninvited).NoControl
        XDRServer.initial := by
  have heffects : (handleClient openHooks passwordOnly XDRServer.initial uninvited).effects =
      [.call .start, .store (.frequency 88500000), .call (.freq 88500000), .call .stop] := by
    decide +kernel
  refine ⟨by decide, rfl, by decide +kernel, heffects, ?_⟩
  intro h
  apply h.1 .start
  rw [heffects]
  simp

end FmSdrTuner
