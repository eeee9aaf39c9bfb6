import FmSdrTuner.XdrServer.Authentication
import FmSdrTuner.XdrServer.Framing

/-! # XDRServer: the end of a session

    A command loop can be left in many ways. One of them, the `return` for a
    line of more than 1024 bytes inside the drain loop, would skip what comes
    behind the loop. It is never taken: the check before the drain loop has
    refused a long first line, and every later one lies within the 255 bytes
    received last. So an XDR session always cancels the scan on its way out,
    and an FM-DX session stops the tuner if it has been started last.

    Main result: `disconnect_cleanup`. -/

namespace FmSdrTuner

/-! ### The return is never taken -/

theorem not_oversized_of_short {maxLen : Nat} {t : Text} (h : t.length ≤ maxLen) :
    ¬Oversized maxLen t := by
  induction t using line_induction with
  | unterminated line hline =>
    rw [oversized_unterminated hline]
    omega
  | terminated line t hline ih =>
    rw [List.length_append, List.length_cons] at h
    rw [oversized_terminated hline]
    rintro (hlong | hlater)
    · omega
    · exact ih (by omega) hlater

/-- What passes the check has only short lines: the first one has been
    checked, the others are part of the last piece. -/
theorem not_oversized_of_accepted {command piece : Text} (hcommand : '\n' ∉ command)
    (hpiece : piece.length ≤ 255) (h : ¬commandBufferOverflowed (command ++ piece) = true) :
    ¬Oversized kMaxClientCommandLen (command ++ piece) := by
  have hmax : kMaxClientCommandLen = 1024 := rfl
  rw [commandBufferOverflowed_iff, Nat.not_lt] at h
  by_cases hmem : '\n' ∈ piece
  · obtain ⟨a, b, rfl, ha⟩ := List.eq_append_cons_of_mem hmem
    -- the first line ends in the piece, and the others are all of the piece
    have hfirst : '\n' ∉ command ++ a := by simp [hcommand, ha]
    rw [List.length_append, List.length_cons] at hpiece
    rw [← List.append_assoc] at h ⊢
    rw [firstLine_terminated hfirst] at h
    rw [oversized_terminated hfirst]
    rintro (hlong | hlater)
    · omega
    · exact not_oversized_of_short (by omega) hlater
  · have hall : '\n' ∉ command ++ piece := by simp [hcommand, hmem]
    rw [firstLine_unterminated hall] at h
    rw [oversized_unterminated hall]
    omega

/-- A drain that ends early has met a long line. -/
theorem drain_of_short {text : Text} (hshort : ¬Oversized kMaxClientCommandLen text)
    (lines : List Text) :
    (drain noteLine [] lines text).1 = .running ∧ '\n' ∉ (drain noteLine [] lines text).2.1 := by
  obtain ⟨-, hrunning, hended⟩ := drain_lines text lines
  have hgoes : (drain noteLine [] lines text).1 = .running := by
    by_contra hne
    exact hshort (hended hne)
  rw [(hrunning hgoes).1]
  exact ⟨hgoes, newline_not_mem_lastLine text⟩

/-- Between two receives the buffer holds an unfinished line. -/
structure CommandLoop.Framed {σ : Type} (loop : CommandLoop σ) : Prop where
  not_returned : loop.status ≠ .returned
  unfinished : loop.status = .running → '\n' ∉ loop.command

theorem CommandLoop.Framed.step {loop : CommandLoop (List Text)} (h : loop.Framed)
    (r : RecvStep) : (loop.step noteLine r).Framed := by
  cases hstatus : loop.status with
  | left | returned =>
    -- a loop that has been left stays as it is
    have hstay : loop.step noteLine r = loop := by
      unfold CommandLoop.step
      simp only [hstatus]
    rw [hstay]
    exact h
  | running =>
    have hcommand := h.unfinished hstatus
    have hleft : ∀ command stream session,
        (⟨.left, command, stream, session⟩ : CommandLoop (List Text)).Framed :=
      fun _ _ _ => ⟨by simp, fun hrun => by simp at hrun⟩
    unfold CommandLoop.step
    rw [hstatus]
    dsimp only
    cases r with
    | error => exact hleft _ _ _
    | idle sendOk =>
      cases sendOk with
      | true => exact h
      | false => exact hleft _ _ _
    | data k =>
      dsimp only
      split
      · exact hleft _ _ _
      · split
        · exact hleft _ _ _
        · next haccepted =>
          -- the piece has passed the check
          have hpiece : (cString (loop.stream.take (min (k + 1) 255))).length ≤ 255 := by
            have hle := (List.takeWhile_prefix (· ≠ '\x00')
              (l := loop.stream.take (min (k + 1) 255))).length_le
            rw [List.length_take] at hle
            exact hle.trans (by omega)
          have hshort := not_oversized_of_accepted hcommand hpiece haccepted
          obtain ⟨hgoes, hrest⟩ := drain_of_short hshort loop.session
          exact ⟨fun hreturned => absurd (hgoes.symm.trans hreturned) (by decide), fun _ => hrest⟩

/-- Whatever the handler does and the pieces are, the loop is not left by its
    `return`. -/
theorem runLoop_not_returned {σ : Type} (handle : σ → Text → σ × Bool) (session : σ)
    (stream : Text) (schedule : List RecvStep) :
    (runLoop handle session stream schedule).status ≠ .returned := by
  have hframed : (runLoop noteLine [] stream schedule).Framed := by
    suffices ∀ loop : CommandLoop (List Text), loop.Framed →
        (schedule.foldl (CommandLoop.step noteLine) loop).Framed from
      this _ ⟨by simp, fun _ => by simp⟩
    intro loop h
    induction schedule generalizing loop with
    | nil => exact h
    | cons r schedule ih => exact ih _ (h.step r)
  -- the loop with the handler is in step with the one that only notes the lines
  have hstep : InStep handle session _ _ := runLoop_inStep session stream schedule
  cases hgo : (runLines handle session (runLoop noteLine [] stream schedule).session).2 with
  | true =>
    rw [(hstep.running hgo).1]
    exact hframed.not_returned
  | false =>
    rw [hstep.ended hgo]
    decide

/-! ### What a session has processed -/

/-- The handler, noting the lines it is given beside what it does. -/
def recording {σ : Type} (handle : σ → Text → σ × Bool) (s : σ × List Text) (line : Text) :
    (σ × List Text) × Bool :=
  (((handle s.1 line).1, s.2 ++ [line]), (handle s.1 line).2)

/-- Noting the lines changes nothing else. -/
theorem runLines_recording {σ : Type} (handle : σ → Text → σ × Bool) (s : σ × List Text)
    (lines : List Text) :
    (runLines (recording handle) s lines).1.1 = (runLines handle s.1 lines).1 := by
  induction lines generalizing s with
  | nil => rfl
  | cons line lines ih =>
    unfold runLines
    dsimp only [recording]
    split
    · exact ih _
    · rfl

theorem runLoop_recording {σ : Type} (handle : σ → Text → σ × Bool) (session : σ)
    (stream : Text) (schedule : List RecvStep) :
    (runLoop (recording handle) (session, []) stream schedule).session.1 =
      (runLoop handle session stream schedule).session := by
  rw [runLoop_session, runLoop_session, runLines_recording]

/-- The last `x` or `X` among some lines. -/
def lastStartStop (lines : List Text) : Option Text :=
  (lines.filter fun line => isStartStop line).getLast?

theorem lastStartStop_append (lines : List Text) (line : Text) :
    lastStartStop (lines ++ [line]) =
      if isStartStop line then some line else lastStartStop lines := by
  unfold lastStartStop
  rw [List.filter_append]
  by_cases h : isStartStop line
  · rw [if_pos h, List.filter_cons_of_pos (by simpa using h)]
    simp
  · rw [if_neg h, List.filter_cons_of_neg (by simpa using h)]
    simp

/-- `tunerStarted` tells whether the last `x` or `X` was `x`. -/
def StartedLast (s : Session × List Text) : Prop :=
  s.1.tunerStarted = true ↔ lastStartStop s.2 = some ['x']

theorem StartedLast.line {hooks : Hooks} {sendOk : Nat → Bool} {s : Session × List Text}
    (h : StartedLast s) (line : Text) :
    StartedLast (recording (handleFmdxLine hooks sendOk) s line).1 := by
  unfold StartedLast recording
  rw [lastStartStop_append]
  by_cases hx : line = ['x']
  · rw [if_pos (show isStartStop line from Or.inl hx)]
    unfold handleFmdxLine
    rw [if_pos hx]
    simp [hx]
  · by_cases hX : line = ['X']
    · rw [if_pos (show isStartStop line from Or.inr hX)]
      unfold handleFmdxLine
      rw [if_neg hx, if_pos hX]
      simp [hX]
    · rw [if_neg (by simp [isStartStop, hx, hX])]
      unfold handleFmdxLine
      rw [if_neg hx, if_neg hX]
      split <;> exact h

theorem StartedLast.lines {hooks : Hooks} {sendOk : Nat → Bool} {s : Session × List Text}
    (h : StartedLast s) (lines : List Text) :
    StartedLast (runLines (recording (handleFmdxLine hooks sendOk)) s lines).1 := by
  induction lines generalizing s with
  | nil => exact h
  | cons line lines ih =>
    unfold runLines
    dsimp only
    split
    · exact ih (h.line line)
    · exact h.line line

/-! ### XDR sessions -/

/-- A session that `handleXdrClient` admits, as it enters the command loop:
    whether it is a guest's, what has been done so far, and the rest of the
    stream. -/
def admitted (secrets : ServerSecrets) (server : XDRServer) (salt stream : Text) :
    Option (Bool × Session × Text) :=
  if salt.isEmpty then none
  else
    match recvLine (HASH_LENGTH + 2) [] stream with
    | (none, _) => none
    | (some authMsg, rest) =>
        let authSuccess := authenticate secrets salt (stripHashPrefix authMsg)
        if !authSuccess && !secrets.guestMode then none
        else
          let session := (Session.start server).perform [] salt
          let session := session.perform [] (if !authSuccess then "a1" else "a2").toList
          let session := session.perform [] (if !authSuccess then "o0,1" else "o1,0").toList
          some (!authSuccess, session.perform [] (buildXdrStateSnapshot server), rest)

theorem handleXdrClient_of_refused {hooks : Hooks} {secrets : ServerSecrets}
    {server : XDRServer} {salt stream : Text} (schedule : List RecvStep)
    (h : admitted secrets server salt stream = none) :
    (handleXdrClient hooks secrets server salt stream schedule).effects = [] := by
  unfold admitted at h
  unfold handleXdrClient
  split
  · rfl
  · next hsalt =>
    rw [if_neg hsalt] at h
    dsimp only at h ⊢
    split
    · rfl
    · next authMsg rest hline =>
      rw [hline] at h
      dsimp only at h
      split
      · rfl
      · next hauth =>
        rw [if_neg hauth] at h
        cases h

theorem handleXdrClient_of_admitted {hooks : Hooks} {secrets : ServerSecrets}
    {server : XDRServer} {salt stream rest : Text} {guest : Bool} {session : Session}
    (schedule : List RecvStep)
    (h : admitted secrets server salt stream = some (guest, session, rest)) :
    handleXdrClient hooks secrets server salt stream schedule =
      (runLoop (handleXdrLine hooks guest) session rest schedule).session.perform
        [.store .scanCancelPending] [] := by
  unfold admitted at h
  unfold handleXdrClient
  split
  · next hsalt =>
    rw [if_pos hsalt] at h
    cases h
  · next hsalt =>
    rw [if_neg hsalt] at h
    dsimp only at h ⊢
    split
    · next rest' hline =>
      rw [hline] at h
      cases h
    · next authMsg rest' hline =>
      rw [hline] at h
      dsimp only at h
      split
      · next hauth =>
        rw [if_pos hauth] at h
        cases h
      · next hauth =>
        rw [if_neg hauth] at h
        cases h
        exact if_neg (runLoop_not_returned _ _ _ _)

/-! ### FM-DX sessions -/

/-- The command loop of an FM-DX connection, with the lines that have been
    processed. -/
def Connection.fmdxLoop (conn : Connection) (hooks : Hooks) (server : XDRServer) :
    CommandLoop (Session × List Text) :=
  runLoop (recording (handleFmdxLine hooks conn.sendOk))
    ((Session.start server).perform [] ['1'], []) (recvLine 16 [] conn.stream).2 conn.schedule

theorem Connection.fmdxLoop_startedLast (conn : Connection) (hooks : Hooks)
    (server : XDRServer) : StartedLast (conn.fmdxLoop hooks server).session := by
  unfold Connection.fmdxLoop
  rw [runLoop_session]
  exact StartedLast.lines (by simp [StartedLast, lastStartStop, Session.start, Session.perform]) _

/-! ### Main result -/

/-- No session ends by the `return` in its drain loop. An XDR session that has
    been admitted cancels the scan after everything else it does, and an
    FM-DX session that has shaken hands stops the tuner after everything
    else, if and only if its last `x` or `X` was `x`; a connection that does
    not get as far does nothing. -/
theorem disconnect_cleanup (hooks : Hooks) (secrets : ServerSecrets) (server : XDRServer)
    (conn : Connection) :
    (∀ (σ : Type) (handle : σ → Text → σ × Bool) session stream schedule,
      (runLoop handle session stream schedule).status ≠ .returned) ∧
    (conn.isFmdxProtocol = false →
      match admitted secrets server conn.salt conn.stream with
      | none => (handleClient hooks secrets server conn).effects = []
      | some (guest, session, rest) =>
          (handleClient hooks secrets server conn).effects =
            (runLoop (handleXdrLine hooks guest) session rest conn.schedule).session.effects ++
              [.store .scanCancelPending] ∧
          (handleClient hooks secrets server conn).server.scanCancelPending = true) ∧
    (conn.isFmdxProtocol = true →
      if (recvLine 16 [] conn.stream).1 = some ['x'] then
        (handleClient hooks secrets server conn).effects =
          (conn.fmdxLoop hooks server).session.1.effects ++
            if lastStartStop (conn.fmdxLoop hooks server).session.2 = some ['x'] then
              hooks.invoke .stop
            else []
      else (handleClient hooks secrets server conn).effects = []) := by
  refine ⟨fun _ => runLoop_not_returned, ?_, ?_⟩
  · intro hxdr
    have hclient : handleClient hooks secrets server conn =
        handleXdrClient hooks secrets server conn.salt conn.stream conn.schedule := by
      unfold handleClient
      rw [hxdr]
      rfl
    rw [hclient]
    split
    · next hrefused => exact handleXdrClient_of_refused conn.schedule hrefused
    · next guest session rest hadmitted =>
      rw [handleXdrClient_of_admitted conn.schedule hadmitted]
      exact ⟨rfl, rfl⟩
  · intro hfmdx
    unfold handleClient
    rw [if_pos hfmdx]
    dsimp only
    split
    · -- the loop with the history is the loop of the source
      have hstarted := conn.fmdxLoop_startedLast hooks server
      have hsame := runLoop_recording (handleFmdxLine hooks conn.sendOk)
        ((Session.start server).perform [] ['1']) (recvLine 16 [] conn.stream).2 conn.schedule
      change (conn.fmdxLoop hooks server).session.1 = _ at hsame
      unfold handleFmdxClient
      dsimp only
      rw [← hsame]
      by_cases hx : lastStartStop (conn.fmdxLoop hooks server).session.2 = some ['x']
      · rw [if_pos ⟨runLoop_not_returned _ _ _ _, hstarted.mpr hx⟩, if_pos hx]
        rfl
      · rw [if_neg (fun h => hx (hstarted.mp h.2)), if_neg hx, List.append_nil]
    · rfl

end FmSdrTuner
