import Mathlib.Data.List.Nodup
import FmSdrTuner.Framework.Machine

/-! # Stopping the server

    `XDRServer::stop` ends three kinds of threads: it stops listening so that
    the accept loop ends, shuts down every registered client socket so that
    the client threads end, and joins both. A thread that waits in a `recv`
    without time-out ends only if its socket is shut down.

    A socket is registered by the accept loop, in a step of its own after
    `accept`, and unregistered by its client thread, before it is closed.
    What is not registered when `stop` takes its snapshot is not shut down.

    Main result: `stop_shuts_client_sockets`. -/

namespace FmSdrTuner

/-! ### Threads and sockets -/

/-- An accepted socket. -/
structure ClientSocket where
  fd : Nat
  /-- `shutdownSocket` has been called on it. -/
  shut : Bool
  deriving DecidableEq, Repr

/-- The next step of a client thread. How long `handleClient` lasts is not
    up to the server: it may wait for the client for ever. -/
inductive ClientPc where
  | handleClient
  | removeClientSocket
  | closeSocket
  | finished
  deriving DecidableEq, Repr

def ClientPc.next : ClientPc → ClientPc
  | .handleClient => .removeClientSocket
  | .removeClientSocket => .closeSocket
  | .closeSocket | .finished => .finished

structure ClientThread where
  socket : ClientSocket
  pc : ClientPc
  deriving DecidableEq, Repr

/-- The next step of the accept thread. -/
inductive AcceptPc where
  /-- The condition of `while (m_running)`. -/
  | testRunning
  | accept
  | addClientSocket (clientSocket : ClientSocket)
  | spawnThread (clientSocket : ClientSocket)
  | finished
  deriving DecidableEq, Repr

/-- The next step of `stop`. -/
inductive StopPc where
  | testRunning
  | clearRunning
  | closeServerSocket
  | snapshot
  | shutdownClients (clients : List Nat)
  | joinAcceptThread
  | joinClientThreads
  | returned
  deriving DecidableEq, Repr

structure ServerThreads where
  running : Bool
  /-- The server socket is neither shut down nor closed. -/
  listening : Bool
  clientSockets : List Nat
  clientThreads : List ClientThread
  acceptPc : AcceptPc
  stopPc : StopPc
  deriving DecidableEq, Repr

/-- After `start` has returned. -/
def ServerThreads.started : ServerThreads where
  running := true
  listening := true
  clientSockets := []
  clientThreads := []
  acceptPc := .testRunning
  stopPc := .testRunning

/-! ### Steps -/

/-- The socket that the accept thread has in its hands. -/
def AcceptPc.socket : AcceptPc → Option ClientSocket
  | .addClientSocket clientSocket | .spawnThread clientSocket => some clientSocket
  | _ => none

def ClientSocket.shutdownSocket (sock : Nat) (s : ClientSocket) : ClientSocket :=
  { s with shut := s.shut || s.fd == sock }

/-- A thread that has finished has closed its socket. -/
def ClientThread.shutdownSocket (sock : Nat) (t : ClientThread) : ClientThread :=
  if t.pc = .finished then t else { t with socket := t.socket.shutdownSocket sock }

def AcceptPc.shutdownSocket (sock : Nat) : AcceptPc → AcceptPc
  | .addClientSocket clientSocket => .addClientSocket (clientSocket.shutdownSocket sock)
  | .spawnThread clientSocket => .spawnThread (clientSocket.shutdownSocket sock)
  | pc => pc

namespace ServerThreads

/-- The accepted sockets that are not closed yet. -/
def openSockets (s : ServerThreads) : List ClientSocket :=
  (s.clientThreads.filter (·.pc ≠ .finished)).map (·.socket) ++ s.acceptPc.socket.toList

/-- The accept thread takes a step; `accepted` is what `accept` returns, if
    it gets that far. The kernel hands out no descriptor that is in use, and
    none once the server socket is shut down. -/
def acceptStep (s : ServerThreads) (accepted : Option Nat) : ServerThreads :=
  match s.acceptPc with
  | .testRunning => { s with acceptPc := if s.running then .accept else .finished }
  | .accept =>
      match accepted with
      | none => { s with acceptPc := .testRunning }
      | some fd =>
          if s.listening = true ∧ fd ∉ s.openSockets.map (·.fd) then
            { s with acceptPc := .addClientSocket ⟨fd, false⟩ }
          else { s with acceptPc := .testRunning }
  | .addClientSocket clientSocket =>
      { s with
          clientSockets := s.clientSockets ++ [clientSocket.fd]
          acceptPc := .spawnThread clientSocket }
  | .spawnThread clientSocket =>
      { s with
          clientThreads := s.clientThreads ++ [⟨clientSocket, .handleClient⟩]
          acceptPc := .testRunning }
  | .finished => s

/-- A client thread takes a step. -/
def clientStep (s : ServerThreads) (i : Nat) : ServerThreads :=
  match s.clientThreads[i]? with
  | none => s
  | some t =>
      { s with
          clientSockets :=
            if t.pc = .removeClientSocket then s.clientSockets.erase t.socket.fd
            else s.clientSockets
          clientThreads := s.clientThreads.set i { t with pc := t.pc.next } }

/-- `shutdownSocket(sock)` reaches whatever socket has the descriptor. -/
def shutdownSocket (s : ServerThreads) (sock : Nat) : ServerThreads :=
  { s with
      clientThreads := s.clientThreads.map (·.shutdownSocket sock)
      acceptPc := s.acceptPc.shutdownSocket sock }

/-- `stop` takes a step. A join waits until the threads have finished. -/
def stopStep (s : ServerThreads) : ServerThreads :=
  match s.stopPc with
  | .testRunning => { s with stopPc := if s.running then .clearRunning else .returned }
  | .clearRunning => { s with running := false, stopPc := .closeServerSocket }
  | .closeServerSocket =>
      -- from its `shutdownSocket` on, nothing is accepted
      { s with listening := false, stopPc := .snapshot }
  | .snapshot => { s with stopPc := .shutdownClients s.clientSockets }
  | .shutdownClients (sock :: clients) =>
      { s.shutdownSocket sock with stopPc := .shutdownClients clients }
  | .shutdownClients [] => { s with stopPc := .joinAcceptThread }
  | .joinAcceptThread =>
      if s.acceptPc = .finished then { s with stopPc := .joinClientThreads } else s
  | .joinClientThreads =>
      if s.clientThreads.all (·.pc = .finished) then
        { s with clientThreads := [], stopPc := .returned }
      else s
  | .returned => s

end ServerThreads

inductive ThreadAction where
  | accept (accepted : Option Nat)
  | client (i : Nat)
  | stop
  deriving DecidableEq, Repr

/-- The threads of the server, in any order of steps. -/
def serverThreads : Machine ServerThreads ThreadAction where
  step s
    | .accept accepted => s.acceptStep accepted
    | .client i => s.clientStep i
    | .stop => s.stopStep

/-- Between `accept` and `addClientSocket`. -/
def AcceptPc.unregistered : AcceptPc → Bool
  | .addClientSocket _ => true
  | _ => false

/-- When `stop` takes its snapshot, the accept thread is not between `accept`
    and `addClientSocket`, and no client thread is between
    `removeClientSocket` and its end. -/
def SnapshotComplete (s : ServerThreads) : ThreadAction → Prop
  | .stop => s.stopPc = .snapshot →
      s.acceptPc.unregistered = false ∧ ∀ t ∈ s.clientThreads, t.pc ≠ .closeSocket
  | _ => True

instance (s : ServerThreads) : ∀ a, Decidable (SnapshotComplete s a)
  | .stop => inferInstanceAs (Decidable (_ → _))
  | .accept _ | .client _ => isTrue trivial

/-! ### What is registered -/

/-- A thread has its socket registered until it removes it. -/
def ClientPc.registered : ClientPc → Bool
  | .handleClient | .removeClientSocket => true
  | _ => false

theorem ClientPc.unfinished_of_registered {pc : ClientPc} (h : pc.registered = true) :
    pc ≠ .finished := by
  intro hfinished
  rw [hfinished] at h
  cases h

def AcceptPc.registered : AcceptPc → Option Nat
  | .spawnThread clientSocket => some clientSocket.fd
  | _ => none

namespace ServerThreads

/-- The descriptors that are registered, in the order of their threads. -/
def registered (s : ServerThreads) : List Nat :=
  (s.clientThreads.filter (·.pc.registered)).map (·.socket.fd) ++ s.acceptPc.registered.toList

/-- `m_clientSockets` lists the sockets that are registered, and open sockets
    have different descriptors. -/
structure Registered (s : ServerThreads) : Prop where
  distinct : (s.openSockets.map (·.fd)).Nodup
  listed : s.clientSockets = s.registered

section steps
variable {s : ServerThreads}

/-- The accept thread only ever adds a socket, with a new descriptor. -/
theorem acceptStep_openSockets (s : ServerThreads) (accepted : Option Nat) :
    (s.acceptStep accepted).openSockets = s.openSockets ∨
      s.listening = true ∧ ∃ fd, fd ∉ s.openSockets.map (·.fd) ∧
        (s.acceptStep accepted).openSockets = s.openSockets ++ [⟨fd, false⟩] := by
  cases hpc : s.acceptPc with
  | testRunning =>
    refine Or.inl ?_
    cases hrun : s.running <;> simp [acceptStep, openSockets, hpc, hrun, AcceptPc.socket]
  | accept =>
    cases accepted with
    | none => exact Or.inl (by simp [acceptStep, openSockets, hpc, AcceptPc.socket])
    | some fd =>
      by_cases hfd : s.listening = true ∧ fd ∉ s.openSockets.map (·.fd)
      · refine Or.inr ⟨hfd.1, fd, hfd.2, ?_⟩
        simp only [acceptStep, hpc, if_pos hfd]
        simp [openSockets, hpc, AcceptPc.socket]
      · refine Or.inl ?_
        simp only [acceptStep, hpc, if_neg hfd]
        simp [openSockets, hpc, AcceptPc.socket]
  | addClientSocket clientSocket =>
    exact Or.inl (by simp [acceptStep, openSockets, hpc, AcceptPc.socket])
  | spawnThread clientSocket =>
    exact Or.inl (by simp [acceptStep, openSockets, hpc, AcceptPc.socket])
  | finished => exact Or.inl (by simp [acceptStep, hpc])

theorem Registered.acceptStep (h : s.Registered) (accepted : Option Nat) :
    (s.acceptStep accepted).Registered := by
  constructor
  · rcases s.acceptStep_openSockets accepted with hsame | ⟨-, fd, hnew, hadded⟩
    · rw [hsame]
      exact h.distinct
    · rw [hadded, List.map_append]
      exact List.Nodup.append h.distinct (List.nodup_singleton _) (by simpa using hnew)
  · have hlisted : s.clientSockets = s.registered := h.listed
    unfold registered at hlisted ⊢
    cases hpc : s.acceptPc with
    | testRunning =>
      cases hrun : s.running <;>
        simpa [ServerThreads.acceptStep, hpc, hrun, AcceptPc.registered] using hlisted
    | accept =>
      simp only [ServerThreads.acceptStep, hpc]
      (repeat' split) <;> simpa [hpc, AcceptPc.registered] using hlisted
    | addClientSocket clientSocket =>
      simpa [ServerThreads.acceptStep, hpc, AcceptPc.registered] using hlisted
    | spawnThread clientSocket =>
      simpa [ServerThreads.acceptStep, hpc, AcceptPc.registered, ClientPc.registered]
        using hlisted
    | finished => simpa [ServerThreads.acceptStep, hpc] using hlisted

/-- The thread that takes a step, among the others. -/
theorem clientStep_cases (s : ServerThreads) (i : Nat) :
    s.clientStep i = s ∨ ∃ before t after, s.clientThreads = before ++ t :: after ∧
      s.clientStep i = { s with
        clientSockets :=
          if t.pc = .removeClientSocket then s.clientSockets.erase t.socket.fd
          else s.clientSockets
        clientThreads := before ++ { t with pc := t.pc.next } :: after } := by
  unfold clientStep
  cases hi : s.clientThreads[i]? with
  | none => exact Or.inl rfl
  | some t =>
    obtain ⟨hlt, ht⟩ := List.getElem?_eq_some_iff.mp hi
    refine Or.inr ⟨s.clientThreads.take i, t, s.clientThreads.drop (i + 1), ?_, ?_⟩
    · rw [← ht, List.getElem_cons_drop, List.take_append_drop]
    · simp only [List.set_eq_take_append_cons_drop, if_pos hlt]

/-- A client thread only ever closes its own socket. -/
theorem clientStep_openSockets (s : ServerThreads) (i : Nat) :
    (s.clientStep i).openSockets.Sublist s.openSockets := by
  rcases s.clientStep_cases i with hsame | ⟨before, t, after, hthreads, hstep⟩
  · rw [hsame]
  · rw [hstep]
    unfold openSockets
    rw [hthreads]
    cases hpc : t.pc <;> simp [hpc, ClientPc.next]

theorem Registered.clientStep (h : s.Registered) (i : Nat) : (s.clientStep i).Registered := by
  refine ⟨((s.clientStep_openSockets i).map _).nodup h.distinct, ?_⟩
  have hlisted : s.clientSockets = s.registered := h.listed
  have hdistinct := h.distinct
  rcases s.clientStep_cases i with hsame | ⟨before, t, after, hthreads, hstep⟩
  · rw [hsame]
    exact hlisted
  · rw [hstep]
    unfold registered at hlisted ⊢
    unfold openSockets at hdistinct
    rw [hthreads] at hlisted hdistinct
    cases hpc : t.pc with
    | removeClientSocket =>
      have hout : t.socket.fd ∉ (before.filter (·.pc.registered)).map (·.socket.fd) := by
        intro hmem
        obtain ⟨other, hother, heq⟩ := List.mem_map.mp hmem
        obtain ⟨hbefore, hreg⟩ := List.mem_filter.mp hother
        have hopen : other.pc ≠ .finished := ClientPc.unfinished_of_registered hreg
        -- both sockets are open, so their descriptors differ
        simp only [List.filter_append, List.map_append, List.append_assoc, List.map_map]
          at hdistinct
        refine List.disjoint_of_nodup_append hdistinct (a := t.socket.fd) ?_ (by simp [hpc])
        exact List.mem_map.mpr ⟨other, List.mem_filter.mpr ⟨hbefore, by simpa using hopen⟩, heq⟩
      simp only [hlisted, if_true, List.filter_append, List.map_append, List.append_assoc]
      rw [List.erase_append_right _ hout]
      simp [hpc, ClientPc.registered, ClientPc.next]
    | _ => simpa [hpc, ClientPc.next, ClientPc.registered] using hlisted

/-- Shutting a socket down closes nothing and changes no descriptor. -/
theorem shutdownSocket_openSockets (s : ServerThreads) (sock : Nat) :
    (s.shutdownSocket sock).openSockets = s.openSockets.map (·.shutdownSocket sock) := by
  have hthreads : ((s.clientThreads.map (·.shutdownSocket sock)).filter
        (·.pc ≠ .finished)).map (·.socket) =
      ((s.clientThreads.filter (·.pc ≠ .finished)).map (·.socket)).map
        (·.shutdownSocket sock) := by
    induction s.clientThreads with
    | nil => rfl
    | cons t threads ih =>
      by_cases hfin : t.pc = .finished
      · simpa [hfin, ClientThread.shutdownSocket] using ih
      · simpa [hfin, ClientThread.shutdownSocket] using ih
  have haccept : (s.acceptPc.shutdownSocket sock).socket.toList =
      s.acceptPc.socket.toList.map (·.shutdownSocket sock) := by
    cases s.acceptPc <;> rfl
  unfold openSockets
  rw [List.map_append, ← hthreads, ← haccept]
  rfl

theorem shutdownSocket_registered (s : ServerThreads) (sock : Nat) :
    (s.shutdownSocket sock).registered = s.registered := by
  have hthreads : ((s.clientThreads.map (·.shutdownSocket sock)).filter
        (·.pc.registered)).map (·.socket.fd) =
      (s.clientThreads.filter (·.pc.registered)).map (·.socket.fd) := by
    induction s.clientThreads with
    | nil => rfl
    | cons t threads ih =>
      have hpc : (t.shutdownSocket sock).pc = t.pc := by
        unfold ClientThread.shutdownSocket
        split <;> rfl
      have hfd : (t.shutdownSocket sock).socket.fd = t.socket.fd := by
        unfold ClientThread.shutdownSocket
        split <;> rfl
      cases hreg : t.pc.registered <;> simpa [hpc, hfd, hreg] using ih
  have haccept : (s.acceptPc.shutdownSocket sock).registered = s.acceptPc.registered := by
    cases s.acceptPc <;> rfl
  unfold registered
  rw [← hthreads, ← haccept]
  rfl

theorem finished_sockets {threads : List ClientThread} (hall : threads.all (·.pc = .finished)) :
    threads.filter (·.pc ≠ .finished) = [] ∧ threads.filter (·.pc.registered) = [] := by
  simp only [List.all_eq_true, decide_eq_true_eq] at hall
  constructor
  · exact List.filter_eq_nil_iff.mpr fun t ht => by simp [hall t ht]
  · exact List.filter_eq_nil_iff.mpr fun t ht => by simp [hall t ht, ClientPc.registered]

theorem Registered.stopStep (h : s.Registered) : s.stopStep.Registered := by
  unfold ServerThreads.stopStep
  split
  · exact ⟨h.distinct, h.listed⟩
  · exact ⟨h.distinct, h.listed⟩
  · exact ⟨h.distinct, h.listed⟩
  · exact ⟨h.distinct, h.listed⟩
  · next sock clients hpc =>
    constructor
    · show ((s.shutdownSocket sock).openSockets.map (·.fd)).Nodup
      rw [shutdownSocket_openSockets, List.map_map]
      exact h.distinct
    · show s.clientSockets = (s.shutdownSocket sock).registered
      rw [shutdownSocket_registered]
      exact h.listed
  · exact ⟨h.distinct, h.listed⟩
  · split
    · exact ⟨h.distinct, h.listed⟩
    · exact h
  · split
    · next hall =>
      -- threads that have finished hold no socket
      obtain ⟨hopen, hregistered⟩ := finished_sockets hall
      constructor
      · have hdistinct := h.distinct
        unfold openSockets at hdistinct
        rw [hopen] at hdistinct
        exact hdistinct
      · have hlisted := h.listed
        unfold registered at hlisted
        rw [hregistered] at hlisted
        exact hlisted
    · exact h
  · exact h

end steps

end ServerThreads

/-! ### The invariant -/

/-- What `stop` has still to shut down, once it has taken its snapshot. -/
def StopPc.remaining : StopPc → Option (List Nat)
  | .shutdownClients clients => some clients
  | .joinAcceptThread | .joinClientThreads => some []
  | _ => none

/-- From the snapshot on, every open socket has been shut down or will be. -/
structure ShutOrRemaining (s : ServerThreads) : Prop where
  registered : s.Registered
  silent : s.stopPc = .snapshot ∨ s.stopPc.remaining ≠ none → s.listening = false
  reached : ∀ clients, s.stopPc.remaining = some clients →
    ∀ sock ∈ s.openSockets, sock.shut = true ∨ sock.fd ∈ clients
  joined : s.stopPc = .joinClientThreads → s.acceptPc = .finished

section invariant
variable {s : ServerThreads}

/-- The snapshot lists every open socket. -/
theorem snapshot_lists_open (h : s.Registered) (hc : SnapshotComplete s .stop)
    (hpc : s.stopPc = .snapshot) : ∀ sock ∈ s.openSockets, sock.fd ∈ s.clientSockets := by
  obtain ⟨haccept, hthreads⟩ := hc hpc
  rw [h.listed]
  intro sock hsock
  unfold ServerThreads.registered
  rcases List.mem_append.mp hsock with hthread | hheld
  · obtain ⟨t, ht, hsocket⟩ := List.mem_map.mp hthread
    obtain ⟨hmem, hopen⟩ := List.mem_filter.mp ht
    have hclosing : t.pc ≠ .closeSocket := hthreads t hmem
    refine List.mem_append_left _ (List.mem_map.mpr ⟨t, List.mem_filter.mpr ⟨hmem, ?_⟩, ?_⟩)
    · cases hat : t.pc with
      | handleClient | removeClientSocket => rfl
      | closeSocket => exact absurd hat hclosing
      | finished => simp [hat] at hopen
    · rw [hsocket]
  · refine List.mem_append_right _ ?_
    cases hat : s.acceptPc with
    | spawnThread clientSocket =>
      rw [hat] at hheld
      obtain rfl : sock = clientSocket := by simpa [AcceptPc.socket] using hheld
      simp [AcceptPc.registered]
    | addClientSocket clientSocket =>
      rw [hat] at haccept
      cases haccept
    | _ =>
      rw [hat] at hheld
      simp [AcceptPc.socket] at hheld

theorem acceptStep_frame (s : ServerThreads) (accepted : Option Nat) :
    (s.acceptStep accepted).stopPc = s.stopPc ∧
      (s.acceptStep accepted).listening = s.listening ∧
      (s.acceptPc = .finished → (s.acceptStep accepted).acceptPc = .finished) := by
  unfold ServerThreads.acceptStep
  cases hpc : s.acceptPc with
  | accept =>
    cases accepted with
    | none => simp
    | some fd =>
      dsimp only
      split <;> simp
  | _ => simp [hpc]

theorem clientStep_frame (s : ServerThreads) (i : Nat) :
    (s.clientStep i).stopPc = s.stopPc ∧ (s.clientStep i).listening = s.listening ∧
      (s.clientStep i).acceptPc = s.acceptPc := by
  unfold ServerThreads.clientStep
  split <;> exact ⟨rfl, rfl, rfl⟩

theorem ShutOrRemaining.accept (h : ShutOrRemaining s) (accepted : Option Nat) :
    ShutOrRemaining (s.acceptStep accepted) := by
  obtain ⟨hstop, hlistening, hfinished⟩ := acceptStep_frame s accepted
  refine ⟨h.registered.acceptStep accepted, ?_, ?_, ?_⟩
  · rw [hstop, hlistening]
    exact h.silent
  · intro clients hremaining
    rw [hstop] at hremaining
    have hsilent : s.listening = false :=
      h.silent (Or.inr (by rw [hremaining]; exact Option.some_ne_none _))
    rcases s.acceptStep_openSockets accepted with hsame | ⟨hlistens, -⟩
    · rw [hsame]
      exact h.reached clients hremaining
    · rw [hsilent] at hlistens
      cases hlistens
  · rw [hstop]
    exact fun hjoining => hfinished (h.joined hjoining)

theorem ShutOrRemaining.client (h : ShutOrRemaining s) (i : Nat) :
    ShutOrRemaining (s.clientStep i) := by
  obtain ⟨hstop, hlistening, haccept⟩ := clientStep_frame s i
  refine ⟨h.registered.clientStep i, ?_, ?_, ?_⟩
  · rw [hstop, hlistening]
    exact h.silent
  · rw [hstop]
    intro clients hremaining sock hsock
    exact h.reached clients hremaining sock ((s.clientStep_openSockets i).subset hsock)
  · rw [hstop, haccept]
    exact h.joined

theorem ShutOrRemaining.stop (h : ShutOrRemaining s) (hc : SnapshotComplete s .stop) :
    ShutOrRemaining s.stopStep := by
  have hregistered := h.registered.stopStep
  cases hpc : s.stopPc with
  | testRunning =>
    have hstep : s.stopStep =
        { s with stopPc := if s.running then .clearRunning else .returned } := by
      simp only [ServerThreads.stopStep, hpc]
    rw [hstep] at hregistered ⊢
    refine ⟨hregistered, ?_, ?_, ?_⟩ <;> cases s.running <;> simp [StopPc.remaining]
  | clearRunning =>
    have hstep : s.stopStep = { s with running := false, stopPc := .closeServerSocket } := by
      simp only [ServerThreads.stopStep, hpc]
    rw [hstep] at hregistered ⊢
    exact ⟨hregistered, by simp [StopPc.remaining], by simp [StopPc.remaining], by simp⟩
  | closeServerSocket =>
    have hstep : s.stopStep = { s with listening := false, stopPc := .snapshot } := by
      simp only [ServerThreads.stopStep, hpc]
    rw [hstep] at hregistered ⊢
    exact ⟨hregistered, fun _ => rfl, by simp [StopPc.remaining], by simp⟩
  | snapshot =>
    have hstep : s.stopStep = { s with stopPc := .shutdownClients s.clientSockets } := by
      simp only [ServerThreads.stopStep, hpc]
    rw [hstep] at hregistered ⊢
    refine ⟨hregistered, fun _ => h.silent (Or.inl hpc), ?_, by simp⟩
    intro clients hremaining sock hsock
    -- the snapshot lists every open socket, that is the condition
    obtain rfl : s.clientSockets = clients := by simpa [StopPc.remaining] using hremaining
    exact Or.inr (snapshot_lists_open h.registered hc hpc sock hsock)
  | shutdownClients clients =>
    have hsilent : s.listening = false := h.silent (Or.inr (by simp [hpc, StopPc.remaining]))
    have hreached := h.reached clients (by rw [hpc]; rfl)
    cases clients with
    | nil =>
      have hstep : s.stopStep = { s with stopPc := .joinAcceptThread } := by
        simp only [ServerThreads.stopStep, hpc]
      rw [hstep] at hregistered ⊢
      refine ⟨hregistered, fun _ => hsilent, ?_, by simp⟩
      intro clients hremaining sock hsock
      obtain rfl : [] = clients := by simpa [StopPc.remaining] using hremaining
      exact hreached sock hsock
    | cons fd clients =>
      have hstep : s.stopStep =
          { s.shutdownSocket fd with stopPc := .shutdownClients clients } := by
        simp only [ServerThreads.stopStep, hpc]
      rw [hstep] at hregistered ⊢
      refine ⟨hregistered, fun _ => hsilent, ?_, by simp⟩
      intro clients' hremaining sock hsock
      obtain rfl : clients = clients' := by simpa [StopPc.remaining] using hremaining
      have hsock' : sock ∈ (s.shutdownSocket fd).openSockets := hsock
      rw [s.shutdownSocket_openSockets] at hsock'
      obtain ⟨before, hbefore, rfl⟩ := List.mem_map.mp hsock'
      rcases hreached before hbefore with hshut | hin
      -- shut down already, shut down by this step, or still in the list
      · exact Or.inl (by simp [ClientSocket.shutdownSocket, hshut])
      · rcases List.mem_cons.mp hin with heq | hlater
        · exact Or.inl (by simp [ClientSocket.shutdownSocket, heq])
        · exact Or.inr hlater
  | joinAcceptThread =>
    have hsilent : s.listening = false := h.silent (Or.inr (by simp [hpc, StopPc.remaining]))
    -- the join lets nothing happen until the accept thread has finished
    by_cases hfinished : s.acceptPc = .finished
    · have hstep : s.stopStep = { s with stopPc := .joinClientThreads } := by
        simp only [ServerThreads.stopStep, hpc, if_pos hfinished]
      rw [hstep] at hregistered ⊢
      exact ⟨hregistered, fun _ => hsilent, fun clients hremaining =>
        h.reached clients (by rw [hpc]; exact hremaining), fun _ => hfinished⟩
    · have hstep : s.stopStep = s := by
        simp only [ServerThreads.stopStep, hpc, if_neg hfinished]
      rw [hstep]
      exact h
  | joinClientThreads =>
    by_cases hall : s.clientThreads.all (·.pc = .finished) = true
    · have hstep : s.stopStep = { s with clientThreads := [], stopPc := .returned } := by
        simp only [ServerThreads.stopStep, hpc, if_pos hall]
      rw [hstep] at hregistered ⊢
      exact ⟨hregistered, by simp [StopPc.remaining], by simp [StopPc.remaining], by simp⟩
    · have hstep : s.stopStep = s := by
        simp only [ServerThreads.stopStep, hpc, if_neg hall]
      rw [hstep]
      exact h
  | returned =>
    have hstep : s.stopStep = s := by simp only [ServerThreads.stopStep, hpc]
    rw [hstep]
    exact h

end invariant

theorem shutOrRemaining_step (s : ServerThreads) (a : ThreadAction) (h : ShutOrRemaining s)
    (hc : SnapshotComplete s a) : ShutOrRemaining (serverThreads.step s a) := by
  cases a with
  | accept accepted => exact h.accept accepted
  | client i => exact h.client i
  | stop => exact h.stop hc

theorem shutOrRemaining_started : ShutOrRemaining .started where
  registered := ⟨List.nodup_nil, rfl⟩
  silent h := by simp [ServerThreads.started, StopPc.remaining] at h
  reached _ h := by cases h
  joined h := by cases h

/-! ### Sockets that the snapshot misses -/

/-- Before the snapshot no open socket has been shut down. -/
structure BeforeSnapshot (s : ServerThreads) : Prop where
  registered : s.Registered
  silent : s.stopPc = .snapshot → s.listening = false
  unshut : s.stopPc.remaining = none → s.stopPc ≠ .returned →
    ∀ sock ∈ s.openSockets, sock.shut = false

/-- The snapshot has been taken, and the socket is not in it. -/
structure Missed (fd : Nat) (s : ServerThreads) : Prop where
  silent : s.listening = false
  past : s.stopPc = .returned ∨ ∃ clients, s.stopPc.remaining = some clients ∧ fd ∉ clients
  unshut : ∀ sock ∈ s.openSockets, sock.fd = fd → sock.shut = false

section missed
variable {s : ServerThreads} {fd : Nat}

theorem stopStep_openSockets (h : s.stopPc.remaining = none ∨ s.stopPc.remaining = some []) :
    s.stopStep.openSockets = s.openSockets := by
  cases hpc : s.stopPc with
  | shutdownClients clients =>
    obtain rfl : clients = [] := by simpa [hpc, StopPc.remaining] using h
    simp [ServerThreads.stopStep, hpc, ServerThreads.openSockets]
  | joinAcceptThread =>
    simp only [ServerThreads.stopStep, hpc]
    split <;> rfl
  | joinClientThreads =>
    simp only [ServerThreads.stopStep, hpc]
    split
    · next hall =>
      unfold ServerThreads.openSockets
      rw [(ServerThreads.finished_sockets hall).1]
      rfl
    · rfl
  | _ => simp only [ServerThreads.stopStep, hpc, ServerThreads.openSockets]

/-- The snapshot is only reached from `closeServerSocket`. -/
theorem stopStep_silent (s : ServerThreads) (hnext : s.stopStep.stopPc = .snapshot) :
    s.stopStep.listening = false := by
  cases hpc : s.stopPc with
  | closeServerSocket => simp [ServerThreads.stopStep, hpc]
  | snapshot => simp [ServerThreads.stopStep, hpc] at hnext
  | shutdownClients clients => cases clients <;> simp [ServerThreads.stopStep, hpc] at hnext
  | testRunning | joinAcceptThread | joinClientThreads =>
    simp only [ServerThreads.stopStep, hpc] at hnext
    split at hnext <;> simp_all
  | _ => simp [ServerThreads.stopStep, hpc] at hnext

theorem beforeSnapshot_step (s : ServerThreads) (a : ThreadAction) (h : BeforeSnapshot s) :
    BeforeSnapshot (serverThreads.step s a) := by
  cases a with
  | accept accepted =>
    obtain ⟨hstop, hlistening, -⟩ := acceptStep_frame s accepted
    refine ⟨h.registered.acceptStep accepted, hstop ▸ hlistening ▸ h.silent, ?_⟩
    intro hearly hreturned sock hsock
    have hbefore := h.unshut (hstop ▸ hearly) (hstop ▸ hreturned)
    rcases s.acceptStep_openSockets accepted with hsame | ⟨-, fd, -, hadded⟩
    · exact hbefore sock (hsame ▸ hsock)
    · have hmem : sock ∈ s.openSockets ++ [⟨fd, false⟩] := hadded ▸ hsock
      -- a socket is not shut when it is accepted
      rcases List.mem_append.mp hmem with hold | hnew
      · exact hbefore sock hold
      · rw [List.mem_singleton.mp hnew]
  | client i =>
    obtain ⟨hstop, hlistening, -⟩ := clientStep_frame s i
    refine ⟨h.registered.clientStep i, hstop ▸ hlistening ▸ h.silent, ?_⟩
    intro hearly hreturned sock hsock
    exact h.unshut (hstop ▸ hearly) (hstop ▸ hreturned) sock
      ((s.clientStep_openSockets i).subset hsock)
  | stop =>
    refine ⟨h.registered.stopStep, stopStep_silent s, ?_⟩
    intro hearly hreturned sock hsock
    have hbefore : s.stopPc.remaining = none ∧ s.stopPc ≠ .returned := by
      change s.stopStep.stopPc.remaining = none at hearly
      change s.stopStep.stopPc ≠ .returned at hreturned
      cases hpc : s.stopPc with
      | shutdownClients clients =>
        cases clients <;> simp [ServerThreads.stopStep, hpc, StopPc.remaining] at hearly
      | joinAcceptThread | joinClientThreads =>
        simp only [ServerThreads.stopStep, hpc] at hearly hreturned
        split at hearly <;> simp_all [StopPc.remaining]
      | returned => simp [ServerThreads.stopStep, hpc] at hreturned
      | _ => exact ⟨rfl, by simp⟩
    refine h.unshut hbefore.1 hbefore.2 sock ?_
    rw [← stopStep_openSockets (Or.inl hbefore.1)]
    exact hsock

/-- A socket that is not registered yet is missed by the snapshot. -/
theorem snapshot_misses {sock : ClientSocket} (h : BeforeSnapshot s)
    (hpc : s.stopPc = .snapshot) (hheld : s.acceptPc = .addClientSocket sock) :
    Missed sock.fd s.stopStep := by
  have hstep : s.stopStep = { s with stopPc := .shutdownClients s.clientSockets } := by
    simp only [ServerThreads.stopStep, hpc]
  have hunshut := h.unshut (by rw [hpc]; rfl) (by simp [hpc])
  rw [hstep]
  refine ⟨h.silent hpc, Or.inr ⟨_, rfl, ?_⟩, fun other hother _ => hunshut other hother⟩
  rw [h.registered.listed]
  intro hmem
  -- its descriptor would be open twice
  have hdistinct := h.registered.distinct
  unfold ServerThreads.registered at hmem
  unfold ServerThreads.openSockets at hdistinct
  rw [hheld, List.map_append, List.map_map] at hdistinct
  rw [hheld] at hmem
  obtain ⟨t, ⟨ht, hreg⟩, hfd⟩ : ∃ t, (t ∈ s.clientThreads ∧ t.pc.registered = true) ∧
      t.socket.fd = sock.fd := by simpa [AcceptPc.registered] using hmem
  have hopen : t.pc ≠ .finished := ClientPc.unfinished_of_registered hreg
  refine List.disjoint_of_nodup_append hdistinct (a := sock.fd) ?_ (by simp [AcceptPc.socket])
  exact List.mem_map.mpr ⟨t, List.mem_filter.mpr ⟨ht, by simpa using hopen⟩, hfd⟩

theorem missed_step (s : ServerThreads) (a : ThreadAction) (h : Missed fd s) :
    Missed fd (serverThreads.step s a) := by
  cases a with
  | accept accepted =>
    obtain ⟨hstop, hlistening, -⟩ := acceptStep_frame s accepted
    have hsame : (s.acceptStep accepted).openSockets = s.openSockets := by
      rcases s.acceptStep_openSockets accepted with hsame | ⟨hlistens, -⟩
      · exact hsame
      · -- the listening socket is closed, so nothing is accepted
        rw [h.silent] at hlistens
        cases hlistens
    exact ⟨hlistening.trans h.silent, hstop ▸ h.past, hsame ▸ h.unshut⟩
  | client i =>
    obtain ⟨hstop, hlistening, -⟩ := clientStep_frame s i
    refine ⟨hlistening.trans h.silent, hstop ▸ h.past, ?_⟩
    intro sock hsock
    exact h.unshut sock ((s.clientStep_openSockets i).subset hsock)
  | stop =>
    show Missed fd s.stopStep
    rcases h.past with hreturned | ⟨clients, hremaining, hout⟩
    · have hstep : s.stopStep = s := by simp only [ServerThreads.stopStep, hreturned]
      rw [hstep]
      exact h
    · cases hpc : s.stopPc with
      | shutdownClients clients' =>
        obtain rfl : clients' = clients := by simpa [hpc, StopPc.remaining] using hremaining
        cases clients' with
        | nil =>
          have hstep : s.stopStep = { s with stopPc := .joinAcceptThread } := by
            simp only [ServerThreads.stopStep, hpc]
          rw [hstep]
          exact ⟨h.silent, Or.inr ⟨[], rfl, hout⟩, h.unshut⟩
        | cons other clients' =>
          -- `stop` shuts a socket of its copy of the list, and `fd` is not in it
          have hne : fd ≠ other := by
            intro heq
            exact hout (heq ▸ List.mem_cons_self)
          have hout' : fd ∉ clients' := by
            intro hin
            exact hout (List.mem_cons_of_mem _ hin)
          have hstep : s.stopStep =
              { s.shutdownSocket other with stopPc := .shutdownClients clients' } := by
            simp only [ServerThreads.stopStep, hpc]
          rw [hstep]
          refine ⟨h.silent, Or.inr ⟨clients', rfl, hout'⟩, ?_⟩
          intro sock hsock hfd
          have hsock' : sock ∈ (s.shutdownSocket other).openSockets := hsock
          rw [s.shutdownSocket_openSockets] at hsock'
          obtain ⟨before, hbefore, rfl⟩ := List.mem_map.mp hsock'
          have hold : before.shut = false := h.unshut before hbefore hfd
          have hother : before.fd ≠ other := by
            intro heq
            exact hne (hfd.symm.trans heq)
          simp [ClientSocket.shutdownSocket, hold, hother]
      | joinAcceptThread | joinClientThreads =>
        -- only waiting is left, and no socket changes
        have hsame := stopStep_openSockets (s := s) (Or.inr (by rw [hpc]; rfl))
        refine ⟨?_, ?_, hsame ▸ h.unshut⟩
        · simp only [ServerThreads.stopStep, hpc]
          split <;> exact h.silent
        · simp only [ServerThreads.stopStep, hpc]
          split <;> simp [StopPc.remaining, hpc]
      | _ => simp [hpc, StopPc.remaining] at hremaining

end missed

/-- Nothing shuts down a socket that the accept thread has not registered at
    the snapshot: its thread finishes by itself, or not at all. -/
theorem missed_socket_not_shut (acts acts' : List ThreadAction) {sock : ClientSocket}
    (hpc : (serverThreads.run .started acts).stopPc = .snapshot)
    (hheld : (serverThreads.run .started acts).acceptPc = .addClientSocket sock) :
    let s := serverThreads.run .started (acts ++ .stop :: acts')
    ∀ t ∈ s.clientThreads, t.socket.fd = sock.fd → t.pc ≠ .finished →
      t.socket.shut = false := by
  intro s t ht hfd hunfinished
  have hbefore : BeforeSnapshot (serverThreads.run .started acts) :=
    Machine.run_invariant_always beforeSnapshot_step acts
      { registered := shutOrRemaining_started.registered
        silent := by intro h; cases h
        unshut := by intro _ _ sock hsock; cases hsock }
  have hmissed : Missed sock.fd s := by
    unfold s
    rw [Machine.run_append]
    exact Machine.run_invariant_always missed_step acts' (snapshot_misses hbefore hpc hheld)
  refine hmissed.unshut t.socket ?_ hfd
  exact List.mem_append_left _ (List.mem_map_of_mem (List.mem_filter.mpr ⟨ht, by simpa⟩))

/-! ### Main result -/

/-- In every order of steps in which the snapshot of `stop` is complete, when
    `stop` reaches `joinClientThreads` nothing is accepted any more, and every
    client thread that has not finished has had its socket shut down. -/
theorem stop_shuts_client_sockets (acts : List ThreadAction)
    (hsnapshot : serverThreads.Meets SnapshotComplete .started acts) :
    let s := serverThreads.run .started acts
    s.stopPc = .joinClientThreads →
      s.acceptPc = .finished ∧
      ∀ t ∈ s.clientThreads, t.pc ≠ .finished → t.socket.shut = true := by
  intro s hpc
  have h : ShutOrRemaining s :=
    Machine.run_invariant shutOrRemaining_step shutOrRemaining_started hsnapshot
  refine ⟨h.joined hpc, ?_⟩
  intro t ht hunfinished
  have hopen : t.socket ∈ s.openSockets :=
    List.mem_append_left _ (List.mem_map_of_mem (List.mem_filter.mpr ⟨ht, by simpa⟩))
  rcases h.reached [] (by rw [hpc]; rfl) t.socket hopen with hshut | hin
  · exact hshut
  · cases hin

/-- One client, registered before the snapshot, in the middle of its session. -/
theorem stop_shuts_one_client :
    let acts := [.accept none, .accept (some 5), .accept none, .accept none] ++
      List.replicate 6 .stop ++ [.accept none, .accept none] ++ [.stop]
    let s := serverThreads.run .started acts
    s.acceptPc = .finished ∧ ∀ t ∈ s.clientThreads, t.pc ≠ .finished → t.socket.shut = true := by
  intro acts
  exact stop_shuts_client_sockets acts (by decide +kernel) (by decide +kernel)

/-- The accept thread has accepted a client; before it registers the socket,
    `stop` takes its snapshot. The thread of the client waits, and `stop`
    waits for the thread. -/
theorem unregistered_socket_not_shut :
    let acts := [.accept none, .accept (some 5)] ++ List.replicate 5 .stop ++
      [.accept none, .accept none, .accept none, .stop, .stop]
    let s := serverThreads.run .started acts
    s.stopPc = .joinClientThreads ∧ s.clientSockets = [5] ∧
      s.clientThreads = [⟨⟨5, false⟩, .handleClient⟩] := by
  decide +kernel

end FmSdrTuner
