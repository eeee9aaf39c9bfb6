import FmSdrTuner.XdrServer.Commands

/-! # XDRServer: client sessions

    `handleClient` and the two session loops it chooses between. A
    connection is the byte stream the peer sends before it closes, plus a
    schedule: how much of the stream each `recv` of the command loop
    returns, where it would block, and where the connection fails. A
    schedule that ends while the loop still runs is the server's `stop()`.

    Both loops carry the same line framing, so the loop is written once
    with the line handler as a parameter; the handlers are the loops'
    own. -/

namespace FmSdrTuner

/-! ### Receiving one line (`recvLine`) -/

/-- `recvLine`: the received line, or `none`, and what is left of the
    stream. `line` is what has been stored so far. -/
def recvLine (maxLen : Nat) (line : Text) : Text → Option Text × Text
  | [] => (none, [])
  | ch :: stream =>
      if line.length < maxLen then
        if ch = '\n' then (some line, stream)
        else if ch ≠ '\r' then recvLine maxLen (line ++ [ch]) stream
        else recvLine maxLen line stream
      else (none, ch :: stream)

/-! ### The command loop -/

def kMaxClientCommandLen : Nat := 1024

/-- What one iteration of a command loop gets from the socket. -/
inductive RecvStep where
  /-- Up to `k + 1` bytes, at most 255; end of file when none are left. -/
  | data (k : Nat)
  /-- The receive timed out; `sendOk` tells whether what the XDR loop then
      pushes to the client could be sent. The FM-DX loop pushes nothing, so
      there a failed push is only one more receive error. -/
  | idle (sendOk : Bool)
  /-- Any other receive error. -/
  | error
  deriving DecidableEq, Repr

inductive LoopStatus where
  | running
  /-- Left by `break` or by the loop condition. -/
  | left
  /-- Left by `return` out of the drain loop. -/
  | returned
  deriving DecidableEq, Repr

/-- A command loop: its buffer, the rest of the stream and the session. -/
structure CommandLoop (σ : Type) where
  status : LoopStatus
  command : Text
  stream : Text
  session : σ
  deriving Repr

/-- `commandBufferOverflowed`. -/
def commandBufferOverflowed (command : Text) : Bool :=
  let pos := (command.takeWhile (· ≠ '\n')).length
  kMaxClientCommandLen < pos

/-- `if (!line.empty() && line.back() == '\r') line.pop_back();` -/
def dropTrailingCR (line : Text) : Text :=
  if line.getLast? = some '\r' then line.dropLast else line

section loop
variable {σ : Type} (handle : σ → Text → σ × Bool)

/-- The drain loop `while ((pos = command.find('\n')) != npos)`, walking the
    buffer with the characters of the current line in `line`. The handler
    answers whether the session goes on. -/
def drain (line : Text) (session : σ) : Text → LoopStatus × Text × σ
  | [] => (.running, line, session)
  | c :: rest =>
      if c = '\n' then
        if kMaxClientCommandLen < line.length then (.returned, line ++ c :: rest, session)
        else
          let handled := handle session (dropTrailingCR line)
          if handled.2 then drain [] handled.1 rest else (.left, rest, handled.1)
      else drain (line ++ [c]) session rest

/-- One iteration of the command loop. -/
def CommandLoop.step (loop : CommandLoop σ) (r : RecvStep) : CommandLoop σ :=
  match loop.status with
  | .running =>
      match r with
      | .error => { loop with status := .left }
      | .idle sendOk => if sendOk then loop else { loop with status := .left }
      | .data k =>
          let n := min (k + 1) 255
          let chunk := loop.stream.take n
          if chunk.isEmpty then { loop with status := .left }
          else
            -- `command += cmdBuffer` appends a C string: up to the first NUL
            let command := loop.command ++ chunk.takeWhile (· ≠ '\x00')
            if commandBufferOverflowed command then
              { loop with status := .left, command := command, stream := loop.stream.drop n }
            else
              let drained := drain handle [] loop.session command
              ⟨drained.1, drained.2.1, loop.stream.drop n, drained.2.2⟩
  | _ => loop

/-- The whole command loop. -/
def runLoop (session : σ) (stream : Text) (schedule : List RecvStep) : CommandLoop σ :=
  schedule.foldl (CommandLoop.step handle) ⟨.running, [], stream, session⟩

end loop

/-! ### Sessions -/

/-- What a client's session has done so far. -/
structure Session where
  server : XDRServer
  tunerStarted : Bool
  effects : List Effect
  /-- One entry for each send of a reply. -/
  replies : List Text
  deriving Repr

/-- Add the outcome of a command; an empty reply is not sent. -/
def Session.perform (session : Session) (effects : List Effect) (reply : Text) : Session :=
  { session with
    server := session.server.perform effects
    effects := session.effects ++ effects
    replies := if reply.isEmpty then session.replies else session.replies ++ [reply ++ ['\n']] }

def Session.start (server : XDRServer) : Session := ⟨server, false, [], []⟩

/-- One line in `handleFmdxClient`; `sendOk i` tells whether the `i`-th
    message of the session could be sent. -/
def handleFmdxLine (hooks : Hooks) (sendOk : Nat → Bool) (session : Session) (line : Text) :
    Session × Bool :=
  if line = ['x'] then
    ({ session.perform (hooks.invoke .start) ['1'] with tunerStarted := true }, true)
  else if line = ['X'] then
    ({ session.perform (hooks.invoke .stop) ['1'] with tunerStarted := false }, true)
  else if session.tunerStarted then
    let result := processFmdxCommand session.server hooks line
    -- the newline is sent even after an empty response
    ({ session.perform result.effects [] with
        replies := session.replies ++ [result.reply ++ ['\n']] },
      sendOk session.replies.length)
  else (session.perform [] "ER".toList, sendOk session.replies.length)

/-- `handleFmdxClient`: the loop, then the stop on the way out. -/
def handleFmdxClient (hooks : Hooks) (sendOk : Nat → Bool) (session : Session)
    (stream : Text) (schedule : List RecvStep) : Session :=
  let loop := runLoop (handleFmdxLine hooks sendOk) session stream schedule
  if loop.status ≠ .returned ∧ loop.session.tunerStarted then
    loop.session.perform (hooks.invoke .stop) []
  else loop.session

/-- One line in `handleXdrClient`; the result of sending is ignored. -/
def handleXdrLine (hooks : Hooks) (guestSession : Bool) (session : Session) (line : Text) :
    Session × Bool :=
  let result := processCommand session.server hooks line true guestSession
  (session.perform result.effects result.reply, true)

/-! ### Authentication -/

def HASH_LENGTH : Nat := 40

/-- What the server is configured with, and its cryptographic oracles.
    `computeSHA1 salt password` is empty when OpenSSL fails. -/
structure ServerSecrets where
  password : Text
  guestMode : Bool
  computeSHA1 : Text → Text → Text

/-- Equal strings up to the case of ASCII letters. -/
def equalsUpToCase (a b : Text) : Bool :=
  a.map Char.toLower == b.map Char.toLower

/-- `XDRServer::authenticate`. -/
def authenticate (secrets : ServerSecrets) (salt passwordHash : Text) : Bool :=
  let expected := secrets.computeSHA1 salt secrets.password
  if expected.isEmpty || expected.length ≠ passwordHash.length then false
  else equalsUpToCase expected passwordHash

/-- The hash in an authentication line: an optional `P` before 40 digits. -/
def stripHashPrefix (authMsg : Text) : Text :=
  match authMsg with
  | c :: rest =>
      if authMsg.length = HASH_LENGTH + 1 ∧ (c = 'P' ∨ c = 'p') then rest else authMsg
  | [] => []

/-- `handleXdrClient`, with the salt the generator issued (empty when it
    failed). The replies start with the salt. -/
def handleXdrClient (hooks : Hooks) (secrets : ServerSecrets)
    (server : XDRServer) (salt stream : Text) (schedule : List RecvStep) : Session :=
  if salt.isEmpty then Session.start server
  else
    let session := (Session.start server).perform [] salt
    match recvLine (HASH_LENGTH + 2) [] stream with
    | (none, _) => session
    | (some authMsg, rest) =>
        let authSuccess := authenticate secrets salt (stripHashPrefix authMsg)
        if !authSuccess && !secrets.guestMode then session.perform [] "a0".toList
        else
          let guestSession := !authSuccess
          let session := session.perform [] (if guestSession then "a1" else "a2").toList
          let session := session.perform [] (if guestSession then "o0,1" else "o1,0").toList
          let session := session.perform [] (buildXdrStateSnapshot server)
          let loop := runLoop (handleXdrLine hooks guestSession) session rest schedule
          if loop.status = .returned then loop.session
          else loop.session.perform [.store .scanCancelPending] []

/-! ### Connections -/

/-- A connection as the server meets it. -/
structure Connection where
  /-- Did the first byte arrive while `handleClient` peeked (200 ms)? -/
  arrived : Bool
  /-- Everything the peer sends before it closes. -/
  stream : Text
  /-- The salt issued if the session turns out to be an XDR one. -/
  salt : Text
  schedule : List RecvStep
  /-- Can the `i`-th message of an FM-DX session be sent? -/
  sendOk : Nat → Bool

/-- `isFmdxProtocol`: the peeked first byte is `x`. -/
def Connection.isFmdxProtocol (conn : Connection) : Bool :=
  conn.arrived && conn.stream.head? == some 'x'

/-- `handleClient`: choose the dialect and run its session. -/
def handleClient (hooks : Hooks) (secrets : ServerSecrets) (server : XDRServer)
    (conn : Connection) : Session :=
  if conn.isFmdxProtocol then
    let handshake := recvLine 16 [] conn.stream
    if handshake.1 = some ['x'] then
      handleFmdxClient hooks conn.sendOk ((Session.start server).perform [] ['1'])
        handshake.2 conn.schedule
    else Session.start server
  else handleXdrClient hooks secrets server conn.salt conn.stream conn.schedule

/-! ### Framing and handling are independent

    What a line handler does cannot change how the rest of the stream is
    cut into lines, except that a failed send ends the session. -/

section framing
variable {σ : Type} (handle : σ → Text → σ × Bool)

/-- Hand lines to the handler until it ends the session. -/
def runLines (session : σ) : List Text → σ × Bool
  | [] => (session, true)
  | line :: lines =>
      let handled := handle session line
      if handled.2 then runLines handled.1 lines else (handled.1, false)

/-- The handler that only notes the lines it is given. -/
def noteLine (lines : List Text) (line : Text) : List Text × Bool := (lines ++ [line], true)

/-- The lines that the loop cuts out of the stream. -/
def framedLines (stream : Text) (schedule : List RecvStep) : List Text :=
  (runLoop noteLine [] stream schedule).session

theorem runLines_append_of_ended {session : σ} {lines : List Text} {ended : σ}
    (h : runLines handle session lines = (ended, false)) (more : List Text) :
    runLines handle session (lines ++ more) = (ended, false) := by
  induction lines generalizing session with
  | nil => simp [runLines] at h
  | cons line lines ih =>
    simp only [runLines, List.cons_append] at h ⊢
    split at h
    · next hgo => rw [if_pos hgo]; exact ih h
    · next hgo => rw [if_neg hgo]; exact h

theorem runLines_append_of_running {session : σ} {lines : List Text} {next : σ}
    (h : runLines handle session lines = (next, true)) (more : List Text) :
    runLines handle session (lines ++ more) = runLines handle next more := by
  induction lines generalizing session with
  | nil => simp only [runLines, Prod.mk.injEq, and_true] at h; simp [h]
  | cons line lines ih =>
    simp only [runLines, List.cons_append] at h ⊢
    split at h
    · next hgo => rw [if_pos hgo]; exact ih h
    · next hgo => simp at h

/-- Draining one buffer with the handler, against draining it with the
    noting handler. -/
theorem drain_noteLine (text line : Text) (session : σ) (lines : List Text) :
    ∃ more, (drain noteLine line lines text).2.2 = lines ++ more ∧
      (runLines handle session more).1 = (drain handle line session text).2.2 ∧
      ((runLines handle session more).2 = true →
        (drain handle line session text).1 = (drain noteLine line lines text).1 ∧
        (drain handle line session text).2.1 = (drain noteLine line lines text).2.1) ∧
      ((runLines handle session more).2 = false →
        (drain handle line session text).1 = .left) := by
  induction text generalizing line session lines with
  | nil => exact ⟨[], by simp [drain, runLines]⟩
  | cons c rest ih =>
    by_cases hc : c = '\n'
    · by_cases hlen : kMaxClientCommandLen < line.length
      · exact ⟨[], by simp [drain, hc, hlen, runLines]⟩
      · cases hgo : (handle session (dropTrailingCR line)).2 with
        | true =>
          obtain ⟨more, hmore, hsess, hrun, hend⟩ :=
            ih [] (handle session (dropTrailingCR line)).1 (lines ++ [dropTrailingCR line])
          refine ⟨dropTrailingCR line :: more, ?_, ?_, ?_, ?_⟩
          · simpa [drain, hc, hlen, noteLine] using hmore
          · simpa [drain, hc, hlen, hgo, runLines] using hsess
          · simpa [drain, hc, hlen, hgo, runLines, noteLine] using hrun
          · simpa [drain, hc, hlen, hgo, runLines] using hend
        | false =>
          -- the handler ends the session: the noting loop reads on alone
          obtain ⟨more, hmore, -⟩ :=
            ih [] (handle session (dropTrailingCR line)).1 (lines ++ [dropTrailingCR line])
          refine ⟨dropTrailingCR line :: more, ?_, ?_, ?_, ?_⟩
          · simpa [drain, hc, hlen, noteLine] using hmore
          · simp [drain, hc, hlen, hgo, runLines]
          · simp [runLines, hgo]
          · simp [drain, hc, hlen, hgo]
    · obtain ⟨more, h⟩ := ih (line ++ [c]) session lines
      exact ⟨more, by simpa [drain, hc] using h⟩

/-- The loop with the handler, against the noting loop over the same input:
    in step until the handler ends the session. -/
structure InStep (session : σ) (loop : CommandLoop σ) (note : CommandLoop (List Text)) :
    Prop where
  session_eq : (runLines handle session note.session).1 = loop.session
  running : (runLines handle session note.session).2 = true →
    loop.status = note.status ∧ loop.command = note.command ∧ loop.stream = note.stream
  ended : (runLines handle session note.session).2 = false → loop.status = .left

variable {handle}

/-- The noting loop only adds lines. -/
theorem step_noteLine_session (note : CommandLoop (List Text)) (r : RecvStep) :
    ∃ more, (note.step noteLine r).session = note.session ++ more := by
  unfold CommandLoop.step
  split
  · split
    · exact ⟨[], by simp⟩
    · split <;> exact ⟨[], by simp⟩
    · simp only
      split
      · exact ⟨[], by simp⟩
      · split
        · exact ⟨[], by simp⟩
        · obtain ⟨more, hm, -⟩ := drain_noteLine noteLine
            (note.command ++ (note.stream.take (min (_ + 1) 255)).takeWhile (· ≠ '\x00'))
            [] note.session note.session
          exact ⟨more, hm⟩
  · exact ⟨[], by simp⟩

/-- Steps that hand no line to the handler. -/
theorem InStep.congr {session : σ} {loop loop' : CommandLoop σ}
    {note note' : CommandLoop (List Text)} (h : InStep handle session loop note)
    (hgo : (runLines handle session note.session).2 = true)
    (hsession : loop'.session = loop.session) (hlines : note'.session = note.session)
    (hstatus : loop'.status = note'.status) (hcommand : loop'.command = note'.command)
    (hstream : loop'.stream = note'.stream) : InStep handle session loop' note' := by
  refine ⟨?_, ?_, ?_⟩
  · rw [hlines, hsession, h.session_eq]
  · intro _; exact ⟨hstatus, hcommand, hstream⟩
  · intro hended
    rw [hlines, hgo] at hended
    cases hended

theorem inStep_step {session : σ} {loop : CommandLoop σ} {note : CommandLoop (List Text)}
    (h : InStep handle session loop note) (r : RecvStep) :
    InStep handle session (loop.step handle r) (note.step noteLine r) := by
  cases hgo : (runLines handle session note.session).2 with
  | false =>
    -- only the noting loop moves
    have hleft := h.ended hgo
    have hsess : runLines handle session note.session = (loop.session, false) := by
      rw [← h.session_eq, ← hgo]
    obtain ⟨more, hmore⟩ := step_noteLine_session note r
    have hrun := runLines_append_of_ended handle hsess more
    have hstay : loop.step handle r = loop := by simp [CommandLoop.step, hleft]
    rw [hstay]
    refine ⟨?_, ?_, ?_⟩
    · rw [hmore, hrun]
    · rw [hmore, hrun]; simp
    · intro _; exact hleft
  | true =>
    obtain ⟨hstatus, hcommand, hstream⟩ := h.running hgo
    have hsess : runLines handle session note.session = (loop.session, true) := by
      rw [← h.session_eq, ← hgo]
    unfold CommandLoop.step
    rw [hstatus]
    cases hn : note.status with
    | left => exact h.congr hgo rfl rfl (by simp [hstatus, hn]) hcommand hstream
    | returned => exact h.congr hgo rfl rfl (by simp [hstatus, hn]) hcommand hstream
    | running =>
      cases r with
      | error => exact h.congr hgo rfl rfl rfl hcommand hstream
      | idle sendOk =>
        cases sendOk with
        | true => exact h.congr hgo rfl rfl (by simp [hstatus, hn]) hcommand hstream
        | false => exact h.congr hgo rfl rfl rfl hcommand hstream
      | data k =>
        simp only [hcommand, hstream]
        by_cases hempty : (note.stream.take (min (k + 1) 255)).isEmpty
        · simp only [hempty, if_true]
          exact h.congr hgo rfl rfl rfl rfl rfl
        · simp only [hempty, Bool.false_eq_true, if_false]
          split
          · exact h.congr hgo rfl rfl rfl rfl rfl
          · -- both loops drain the same buffer
            obtain ⟨more, hm, hs, hr, he⟩ := drain_noteLine handle
              (note.command ++ (note.stream.take (min (k + 1) 255)).takeWhile (· ≠ '\x00'))
              [] loop.session note.session
            have hlines := runLines_append_of_running handle hsess more
            refine ⟨?_, ?_, ?_⟩
            · simp only [hm, hlines]; exact hs
            · simp only [hm, hlines]
              intro ht
              exact ⟨(hr ht).1, (hr ht).2, trivial⟩
            · simp only [hm, hlines]; exact he

theorem runLoop_inStep (session : σ) (stream : Text) (schedule : List RecvStep) :
    InStep handle session (runLoop handle session stream schedule)
      (runLoop noteLine [] stream schedule) := by
  suffices h : ∀ (loop : CommandLoop σ) (note : CommandLoop (List Text)),
      InStep handle session loop note →
      InStep handle session (schedule.foldl (CommandLoop.step handle) loop)
        (schedule.foldl (CommandLoop.step noteLine) note) from
    h _ _ ⟨rfl, fun _ => ⟨rfl, rfl, rfl⟩, fun h => by simp [runLines] at h⟩
  intro loop note h
  induction schedule generalizing loop note with
  | nil => exact h
  | cons r schedule ih => exact ih _ _ (inStep_step h r)

/-- A session loop hands its handler exactly the framed lines, up to the
    line at which the handler ends the session. -/
theorem runLoop_session (session : σ) (stream : Text) (schedule : List RecvStep) :
    (runLoop handle session stream schedule).session =
      (runLines handle session (framedLines stream schedule)).1 :=
  (runLoop_inStep session stream schedule).session_eq.symm

end framing

end FmSdrTuner
