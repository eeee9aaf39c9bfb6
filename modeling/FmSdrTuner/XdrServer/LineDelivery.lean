import Mathlib.Logic.Function.Basic
import FmSdrTuner.Framework.Machine
import FmSdrTuner.XdrServer.LineQueues

/-! # XDRServer: delivery of RDS and scan lines

    Any number of authenticated clients read the two line queues while
    `updateRDS` and `pushScanLine` fill them. The threads are interleaved
    where they can be: a client holds a mutex while it initialises a
    cursor or collects lines, and sends without it. A client whose send
    fails leaves; it then takes no more steps.

    Main result: `lines_delivered_in_order`. -/

namespace FmSdrTuner

/-! ### Clients -/

/-- Where the thread of `handleXdrClient` is, from authentication on. What
    it has collected and not yet sent keeps its numbers here; the code
    keeps the texts alone. -/
inductive XdrClientPc where
  | initRds
  | initScan
  /-- In `recv`, or running a command. -/
  | waiting
  | drainRds
  | sendRds (lines : List (Nat × Text))
  | drainScan
  | sendScan (lines : List (Nat × Text))
  deriving DecidableEq, Repr

structure XdrClient where
  pc : XdrClientPc
  lastRdsSeq : Nat
  lastScanSeq : Nat
  deriving DecidableEq, Repr

/-- A client that has just been authenticated. -/
def XdrClient.start : XdrClient := ⟨.initRds, 0, 0⟩

/-- The next step of a client's thread; `timedOut` says whether its `recv`
    timed out. -/
def XdrClient.step (rds scan : SequencedQueue Text) (timedOut : Bool) (c : XdrClient) :
    XdrClient :=
  match c.pc with
  | .initRds => { c with pc := .initScan, lastRdsSeq := rds.latest }
  | .initScan => { c with pc := .waiting, lastScanSeq := scan.latest }
  | .waiting => if timedOut then { c with pc := .drainRds } else c
  | .drainRds =>
      let collected := rds.collect c.lastRdsSeq
      { c with pc := .sendRds collected.1, lastRdsSeq := collected.2 }
  | .sendRds [] => { c with pc := .drainScan }
  | .sendRds (_ :: lines) => { c with pc := .sendRds lines }
  | .drainScan =>
      let collected := scan.collect c.lastScanSeq
      { c with pc := .sendScan collected.1, lastScanSeq := collected.2 }
  | .sendScan [] => { c with pc := .waiting }
  | .sendScan (_ :: lines) => { c with pc := .sendScan lines }

/-- How many steps of its own a client takes at most until it waits again. -/
def XdrClient.stepsToWait (c : XdrClient) : Nat :=
  match c.pc with
  | .initRds => 2
  | .initScan => 1
  | .waiting => 0
  | .drainRds => kMaxRdsQueue + kMaxScanQueue + 4
  | .sendRds lines => lines.length + kMaxScanQueue + 3
  | .drainScan => kMaxScanQueue + 2
  | .sendScan lines => lines.length + 1

theorem XdrClient.waiting_of_stepsToWait {c : XdrClient} (h : c.stepsToWait = 0) :
    c.pc = .waiting := by
  obtain ⟨pc, lastRds, lastScan⟩ := c
  cases pc <;> simp [stepsToWait] at h ⊢

/-! ### The server and its clients -/

structure LineDelivery (ι : Type) where
  server : XDRServer
  /-- `m_scanQueue` and `m_scanNextSeq`. -/
  scanQueue : SequencedQueue Text
  clients : ι → XdrClient

inductive DeliveryAction (ι : Type) where
  | updateRDS (g : RdsGroup) (nowMs : Nat)
  | setFrequencyState (freqHz : Nat)
  | pushScanLine (line : Text)
  | client (i : ι) (timedOut : Bool)

/-- Is this a step of client `i`? -/
def DeliveryAction.isOf {ι : Type} [DecidableEq ι] (i : ι) : DeliveryAction ι → Bool
  | .client j _ => decide (j = i)
  | _ => false

def LineDelivery.initial (ι : Type) : LineDelivery ι := ⟨.initial, .empty, fun _ => .start⟩

section delivery
variable {ι : Type} [DecidableEq ι]

def deliveryMachine : Machine (LineDelivery ι) (DeliveryAction ι) where
  step s
    | .updateRDS g nowMs => { s with server := s.server.updateRDS g nowMs }
    | .setFrequencyState freqHz => { s with server := s.server.setFrequencyState freqHz }
    | .pushScanLine line => { s with scanQueue := pushScanLine s.scanQueue line }
    | .client i timedOut =>
        let c := (s.clients i).step s.server.rdsLines s.scanQueue timedOut
        { s with clients := Function.update s.clients i c }

/-! ### What a client has received -/

/-- The history of one client on one queue. -/
structure Subscription where
  /-- How many lines had been queued when the cursor was initialised. -/
  joined : Nat
  /-- How many when the queue was read last. -/
  seen : Nat
  /-- How many when the client's `recv` last timed out, 0 before it did. -/
  due : Nat
  sent : List (Nat × Text)
  /-- Lines evicted between two readings of the queue. -/
  missed : List (Nat × Text)
  deriving DecidableEq, Repr

def Subscription.join (queued : List Text) : Subscription :=
  ⟨queued.length, queued.length, 0, [], []⟩

/-- The client's `recv` times out. -/
def Subscription.timeOut (sub : Subscription) (queued : List Text) : Subscription :=
  { sub with due := queued.length }

/-- The queue is read by a client at `cursor`. -/
def Subscription.read (sub : Subscription) (q : SequencedQueue Text) (queued : List Text)
    (cursor : Nat) : Subscription :=
  { sub with seen := queued.length, missed := sub.missed ++ q.missed queued cursor }

def Subscription.send (sub : Subscription) (line : Nat × Text) : Subscription :=
  { sub with sent := sub.sent ++ [line] }

/-- Everything ever queued, and what each client got of it. -/
structure DeliveryHistory (ι : Type) where
  rdsQueued : List Text
  scanQueued : List Text
  rds : ι → Subscription
  scan : ι → Subscription

def DeliveryHistory.initial (ι : Type) : DeliveryHistory ι :=
  ⟨[], [], fun _ => .join [], fun _ => .join []⟩

/-- What a client's step does to its RDS subscription. -/
def observeRdsClient (q : SequencedQueue Text) (queued : List Text) (timedOut : Bool)
    (c : XdrClient) (sub : Subscription) : Subscription :=
  match c.pc with
  | .initRds => .join queued
  | .waiting => if timedOut then sub.timeOut queued else sub
  | .drainRds => sub.read q queued c.lastRdsSeq
  | .sendRds (line :: _) => sub.send line
  | _ => sub

/-- What a client's step does to its scan subscription. -/
def observeScanClient (q : SequencedQueue Text) (queued : List Text) (timedOut : Bool)
    (c : XdrClient) (sub : Subscription) : Subscription :=
  match c.pc with
  | .initScan => .join queued
  | .waiting => if timedOut then sub.timeOut queued else sub
  | .drainScan => sub.read q queued c.lastScanSeq
  | .sendScan (line :: _) => sub.send line
  | _ => sub

def observeDelivery (h : DeliveryHistory ι) (s : LineDelivery ι) :
    DeliveryAction ι → DeliveryHistory ι
  | .updateRDS g _ => { h with rdsQueued := h.rdsQueued ++ s.server.groupLines g }
  | .setFrequencyState _ => h
  | .pushScanLine line => { h with scanQueued := h.scanQueued ++ scanLines line }
  | .client i timedOut => { h with
      rds := Function.update h.rds i
        (observeRdsClient s.server.rdsLines h.rdsQueued timedOut (s.clients i) (h.rds i))
      scan := Function.update h.scan i
        (observeScanClient s.scanQueue h.scanQueued timedOut (s.clients i) (h.scan i)) }

/-! ### The books of one client -/

/-- Its RDS cursor has been initialised. -/
def XdrClient.readsRds (c : XdrClient) : Prop := c.pc ≠ .initRds

/-- Its scan cursor has been initialised. -/
def XdrClient.readsScan (c : XdrClient) : Prop := c.pc ≠ .initRds ∧ c.pc ≠ .initScan

instance (c : XdrClient) : Decidable c.readsRds := inferInstanceAs (Decidable (_ ≠ _))
instance (c : XdrClient) : Decidable c.readsScan := inferInstanceAs (Decidable (_ ∧ _))

/-- The RDS lines it has collected and not yet sent. -/
def XdrClient.rdsInHand (c : XdrClient) : List (Nat × Text) :=
  match c.pc with
  | .sendRds lines => lines
  | _ => []

/-- The scan lines it has collected and not yet sent. -/
def XdrClient.scanInHand (c : XdrClient) : List (Nat × Text) :=
  match c.pc with
  | .sendScan lines => lines
  | _ => []

/-- The cursor is where the history says, the books balance, and what the
    client missed had been evicted. -/
structure Subscription.Balanced (sub : Subscription) (cap : Nat) (queued : List Text)
    (cursor : Nat) (inHand : List (Nat × Text)) : Prop where
  cursor_eq : cursor = sub.seen
  due_le : sub.due ≤ queued.length
  delivered : SequencedQueue.Delivered queued sub.joined sub.seen (sub.sent ++ inHand) sub.missed
  evicted : ∀ e ∈ sub.missed, e.1 + cap ≤ queued.length

namespace Subscription.Balanced
variable {sub : Subscription} {queued : List Text} {cursor cap : Nat}
  {inHand : List (Nat × Text)} {q : SequencedQueue Text}

theorem join (hcap : 0 < cap) (hq : q.Holds cap queued) :
    (Subscription.join queued).Balanced cap queued q.latest [] where
  cursor_eq := hq.latest_eq hcap
  due_le := Nat.zero_le _
  delivered := .join queued
  evicted _ he := absurd he List.not_mem_nil

theorem queue (h : sub.Balanced cap queued cursor inHand) (lines : List Text) :
    sub.Balanced cap (queued ++ lines) cursor inHand where
  cursor_eq := h.cursor_eq
  due_le := by
    have := h.due_le
    rw [List.length_append]
    omega
  delivered := h.delivered.pushAll lines
  evicted e he := by
    have := h.evicted e he
    rw [List.length_append]
    omega

theorem timeOut (h : sub.Balanced cap queued cursor inHand) :
    (sub.timeOut queued).Balanced cap queued cursor inHand where
  cursor_eq := h.cursor_eq
  due_le := Nat.le_refl _
  delivered := h.delivered
  evicted := h.evicted

/-- Reading the queue with nothing in hand. -/
theorem read (hcap : 0 < cap) (hq : q.Holds cap queued) (h : sub.Balanced cap queued cursor []) :
    (sub.read q queued cursor).Balanced cap queued (q.collect cursor).2 (q.collect cursor).1 := by
  have hle : cursor ≤ queued.length := by
    rw [h.cursor_eq]
    exact h.delivered.cursor_le
  have hdelivered := h.delivered.collect hq
  rw [hq.collect_eq hcap hle]
  rw [List.append_nil, ← h.cursor_eq] at hdelivered
  refine ⟨rfl, h.due_le, hdelivered, ?_⟩
  intro e he
  rcases List.mem_append.mp he with hold | hnew
  · exact h.evicted e hold
  · exact hq.evicted_of_missed hnew

/-- A reading that comes early enough misses nothing. -/
theorem read_missed (hq : q.Holds cap queued) (h : sub.Balanced cap queued cursor inHand)
    (hfew : queued.length - sub.seen ≤ cap) : (sub.read q queued cursor).missed = sub.missed := by
  have hnone : q.missed queued cursor = [] := by
    rw [h.cursor_eq]
    exact hq.missed_eq_nil hfew
  unfold Subscription.read
  rw [hnone, List.append_nil]

/-- What it missed is no longer there. -/
theorem missed_gone (h : sub.Balanced cap queued cursor inHand) (hq : q.Holds cap queued) :
    ∀ e ∈ sub.missed, e ∉ q.entries := by
  intro e he hin
  have hfollowed := h.evicted e he
  have hqueue := (hq.mem_entries.mp hin).2
  omega

theorem send {line : Nat × Text} (h : sub.Balanced cap queued cursor (line :: inHand)) :
    (sub.send line).Balanced cap queued cursor inHand where
  cursor_eq := h.cursor_eq
  due_le := h.due_le
  evicted := h.evicted
  delivered := by
    have hdelivered := h.delivered
    rw [List.append_cons] at hdelivered
    exact hdelivered

end Subscription.Balanced

/-- How far a client has got with what was there when its `recv` timed out. -/
def CaughtUp (rds scan : Subscription) : XdrClientPc → Prop
  | .initRds | .drainRds => True
  | .initScan | .sendRds _ | .drainScan => rds.due ≤ rds.seen
  | .waiting | .sendScan _ => rds.due ≤ rds.seen ∧ scan.due ≤ scan.seen

/-- The books of a client, from the initialisation of its cursors on. -/
structure ClientBalanced (c : XdrClient) (rdsQueued scanQueued : List Text)
    (rds scan : Subscription) : Prop where
  caughtUp : CaughtUp rds scan c.pc
  rds : c.readsRds → rds.Balanced kMaxRdsQueue rdsQueued c.lastRdsSeq c.rdsInHand
  scan : c.readsScan → scan.Balanced kMaxScanQueue scanQueued c.lastScanSeq c.scanInHand

/-- A client's step keeps its books. -/
theorem ClientBalanced.step {rdsQ scanQ : SequencedQueue Text} {rdsQueued scanQueued : List Text}
    {rds scan : Subscription} (hrds : rdsQ.Holds kMaxRdsQueue rdsQueued)
    (hscan : scanQ.Holds kMaxScanQueue scanQueued) {c : XdrClient}
    (h : ClientBalanced c rdsQueued scanQueued rds scan) (timedOut : Bool) :
    ClientBalanced (c.step rdsQ scanQ timedOut) rdsQueued scanQueued
      (observeRdsClient rdsQ rdsQueued timedOut c rds)
      (observeScanClient scanQ scanQueued timedOut c scan) := by
  obtain ⟨pc, lastRds, lastScan⟩ := c
  obtain ⟨hcaught, hr, hs⟩ := h
  -- a client joins a queue once, then takes from it and sends what it took in turn
  cases pc with
  | initRds =>
    exact ⟨Nat.zero_le _, fun _ => .join (by decide) hrds, fun hreads => absurd rfl hreads.2⟩
  | initScan =>
    have hr' := hr (by simp [XdrClient.readsRds])
    exact ⟨⟨hcaught, Nat.zero_le _⟩, fun _ => hr', fun _ => .join (by decide) hscan⟩
  | waiting =>
    have hr' := hr (by simp [XdrClient.readsRds])
    have hs' := hs (by simp [XdrClient.readsScan])
    cases timedOut with
    | false => exact ⟨hcaught, fun _ => hr', fun _ => hs'⟩
    | true => exact ⟨trivial, fun _ => hr'.timeOut, fun _ => hs'.timeOut⟩
  | drainRds =>
    have hr' := hr (by simp [XdrClient.readsRds])
    have hs' := hs (by simp [XdrClient.readsScan])
    exact ⟨hr'.due_le, fun _ => hr'.read (by decide) hrds, fun _ => hs'⟩
  | sendRds lines =>
    have hr' := hr (by simp [XdrClient.readsRds])
    have hs' := hs (by simp [XdrClient.readsScan])
    cases lines with
    | nil => exact ⟨hcaught, fun _ => hr', fun _ => hs'⟩
    | cons line lines => exact ⟨hcaught, fun _ => hr'.send, fun _ => hs'⟩
  | drainScan =>
    have hr' := hr (by simp [XdrClient.readsRds])
    have hs' := hs (by simp [XdrClient.readsScan])
    exact ⟨⟨hcaught, hs'.due_le⟩, fun _ => hr', fun _ => hs'.read (by decide) hscan⟩
  | sendScan lines =>
    have hr' := hr (by simp [XdrClient.readsRds])
    have hs' := hs (by simp [XdrClient.readsScan])
    cases lines with
    | nil => exact ⟨hcaught, fun _ => hr', fun _ => hs'⟩
    | cons line lines => exact ⟨hcaught, fun _ => hr', fun _ => hs'.send⟩

theorem ClientBalanced.queue {c : XdrClient} {rdsQueued scanQueued : List Text}
    {rds scan : Subscription} (h : ClientBalanced c rdsQueued scanQueued rds scan)
    (rdsMore scanMore : List Text) :
    ClientBalanced c (rdsQueued ++ rdsMore) (scanQueued ++ scanMore) rds scan where
  caughtUp := h.caughtUp
  rds hreads := (h.rds hreads).queue rdsMore
  scan hreads := (h.scan hreads).queue scanMore

/-- Each step of a client that is not waiting brings it nearer to waiting. -/
theorem XdrClient.stepsToWait_step {rdsQ scanQ : SequencedQueue Text}
    {rdsQueued scanQueued : List Text} (hrds : rdsQ.Holds kMaxRdsQueue rdsQueued)
    (hscan : scanQ.Holds kMaxScanQueue scanQueued) {c : XdrClient} (hpc : c.pc ≠ .waiting)
    (timedOut : Bool) : (c.step rdsQ scanQ timedOut).stepsToWait < c.stepsToWait := by
  obtain ⟨pc, lastRds, lastScan⟩ := c
  cases pc with
  | waiting => exact absurd rfl hpc
  | initRds | initScan => simp [step, stepsToWait]
  | drainRds =>
    have hle := hrds.length_collect_le lastRds
    simp only [step, stepsToWait]
    omega
  | sendRds lines =>
    cases lines <;> simp only [step, stepsToWait, List.length_cons, List.length_nil] <;> omega
  | drainScan =>
    have hle := hscan.length_collect_le lastScan
    simp only [step, stepsToWait]
    omega
  | sendScan lines =>
    cases lines <;> simp only [step, stepsToWait, List.length_cons, List.length_nil] <;> omega

/-! ### Every interleaving -/

/-- The queues hold the last lines, and the books of every client balance. -/
structure AllBalanced (p : LineDelivery ι × DeliveryHistory ι) : Prop where
  rdsQueue : p.1.server.rdsLines.Holds kMaxRdsQueue p.2.rdsQueued
  scanQueue : p.1.scanQueue.Holds kMaxScanQueue p.2.scanQueued
  clients : ∀ i, ClientBalanced (p.1.clients i) p.2.rdsQueued p.2.scanQueued
    (p.2.rds i) (p.2.scan i)

omit [DecidableEq ι] in
theorem allBalanced_initial : AllBalanced (LineDelivery.initial ι, DeliveryHistory.initial ι) where
  rdsQueue := .empty kMaxRdsQueue
  scanQueue := .empty kMaxScanQueue
  clients _ := ⟨trivial, fun hreads => absurd rfl hreads, fun hreads => absurd rfl hreads.1⟩

theorem setFrequencyState_rdsLines (s : XDRServer) (freqHz : Nat) :
    (s.setFrequencyState freqHz).rdsLines = s.rdsLines := by
  unfold XDRServer.setFrequencyState
  simp only
  split
  · rfl
  · split <;> rfl

theorem allBalanced_step (p : LineDelivery ι × DeliveryHistory ι) (a : DeliveryAction ι)
    (h : AllBalanced p) : AllBalanced ((deliveryMachine.withHistory observeDelivery).step p a) := by
  obtain ⟨s, hist⟩ := p
  obtain ⟨hrds, hscan, hclients⟩ := h
  cases a with
  | updateRDS g nowMs =>
    have hqueue := hrds.pushAll (by decide) (s.server.groupLines g)
    rw [← s.server.updateRDS_rdsLines g nowMs] at hqueue
    -- the clients have not seen the new lines yet
    refine ⟨hqueue, hscan, ?_⟩
    intro i
    have hi := (hclients i).queue (s.server.groupLines g) []
    rwa [List.append_nil] at hi
  | setFrequencyState freqHz =>
    have hqueue : (s.server.setFrequencyState freqHz).rdsLines.Holds kMaxRdsQueue
        hist.rdsQueued := by
      rw [setFrequencyState_rdsLines]
      exact hrds
    exact ⟨hqueue, hscan, hclients⟩
  | pushScanLine line =>
    have hqueue := hscan.pushAll (by decide) (scanLines line)
    rw [← pushScanLine_eq] at hqueue
    refine ⟨hrds, hqueue, ?_⟩
    intro i
    have hi := (hclients i).queue [] (scanLines line)
    rwa [List.append_nil] at hi
  | client i timedOut =>
    refine ⟨hrds, hscan, ?_⟩
    intro j
    by_cases hj : j = i
    · rw [hj]
      have hstep := (hclients i).step hrds hscan timedOut
      simpa only [Machine.withHistory_step, deliveryMachine, observeDelivery,
        Function.update_self] using hstep
    · have hsame := hclients j
      simpa only [Machine.withHistory_step, deliveryMachine, observeDelivery,
        Function.update_of_ne hj] using hsame

/-- At this step client `i` does not read the RDS queue, or at most as many
    lines as the queue holds were queued since it read it last. -/
def FewRdsLines (i : ι) (p : LineDelivery ι × DeliveryHistory ι) (a : DeliveryAction ι) : Prop :=
  (∃ timedOut, a = .client i timedOut) → (p.1.clients i).pc = .drainRds →
    p.2.rdsQueued.length - (p.2.rds i).seen ≤ kMaxRdsQueue

/-- The same for the scan queue. -/
def FewScanLines (i : ι) (p : LineDelivery ι × DeliveryHistory ι) (a : DeliveryAction ι) : Prop :=
  (∃ timedOut, a = .client i timedOut) → (p.1.clients i).pc = .drainScan →
    p.2.scanQueued.length - (p.2.scan i).seen ≤ kMaxScanQueue

theorem isOf_iff {i : ι} {a : DeliveryAction ι} :
    a.isOf i = true ↔ ∃ timedOut, a = .client i timedOut := by
  cases a with
  | client j timedOut => simp [DeliveryAction.isOf]
  | _ => simp [DeliveryAction.isOf]

instance (i : ι) (p : LineDelivery ι × DeliveryHistory ι) (a : DeliveryAction ι) :
    Decidable (FewRdsLines i p a) :=
  decidable_of_iff (a.isOf i = true → (p.1.clients i).pc = .drainRds →
    p.2.rdsQueued.length - (p.2.rds i).seen ≤ kMaxRdsQueue) (by rw [isOf_iff]; rfl)

instance (i : ι) (p : LineDelivery ι × DeliveryHistory ι) (a : DeliveryAction ι) :
    Decidable (FewScanLines i p a) :=
  decidable_of_iff (a.isOf i = true → (p.1.clients i).pc = .drainScan →
    p.2.scanQueued.length - (p.2.scan i).seen ≤ kMaxScanQueue) (by rw [isOf_iff]; rfl)

/-- The books of a client change with its own steps only. -/
theorem observeDelivery_other (i : ι) (p : LineDelivery ι × DeliveryHistory ι)
    (a : DeliveryAction ι) (h : ¬ ∃ timedOut, a = .client i timedOut) :
    (observeDelivery p.2 p.1 a).rds i = p.2.rds i ∧
      (observeDelivery p.2 p.1 a).scan i = p.2.scan i := by
  cases a with
  | client j timedOut =>
    have hne : i ≠ j := by
      intro heq
      exact h ⟨timedOut, heq ▸ rfl⟩
    exact ⟨Function.update_of_ne hne _ _, Function.update_of_ne hne _ _⟩
  | _ => exact ⟨rfl, rfl⟩

theorem missed_rds_step (i : ι) (p : LineDelivery ι × DeliveryHistory ι) (a : DeliveryAction ι)
    (h : AllBalanced p ∧ (p.2.rds i).missed = []) (hfew : FewRdsLines i p a) :
    AllBalanced ((deliveryMachine.withHistory observeDelivery).step p a) ∧
      (((deliveryMachine.withHistory observeDelivery).step p a).2.rds i).missed = [] := by
  obtain ⟨hall, hnone⟩ := h
  refine ⟨allBalanced_step p a hall, ?_⟩
  by_cases hmine : ∃ timedOut, a = .client i timedOut
  · have hread := hfew hmine
    obtain ⟨timedOut, rfl⟩ := hmine
    simp only [Machine.withHistory_step, observeDelivery, Function.update_self]
    unfold observeRdsClient
    split
    · rfl
    · split
      · exact hnone
      · exact hnone
    · next hpc =>
      -- the queue is read
      have hreads : (p.1.clients i).readsRds := by
        unfold XdrClient.readsRds
        rw [hpc]
        decide
      rw [((hall.clients i).rds hreads).read_missed hall.rdsQueue (hread hpc), hnone]
    · exact hnone
    · exact hnone
  · show ((observeDelivery p.2 p.1 a).rds i).missed = []
    rw [(observeDelivery_other i p a hmine).1]
    exact hnone

theorem missed_scan_step (i : ι) (p : LineDelivery ι × DeliveryHistory ι) (a : DeliveryAction ι)
    (h : AllBalanced p ∧ (p.2.scan i).missed = []) (hfew : FewScanLines i p a) :
    AllBalanced ((deliveryMachine.withHistory observeDelivery).step p a) ∧
      (((deliveryMachine.withHistory observeDelivery).step p a).2.scan i).missed = [] := by
  obtain ⟨hall, hnone⟩ := h
  refine ⟨allBalanced_step p a hall, ?_⟩
  by_cases hmine : ∃ timedOut, a = .client i timedOut
  · have hread := hfew hmine
    obtain ⟨timedOut, rfl⟩ := hmine
    simp only [Machine.withHistory_step, observeDelivery, Function.update_self]
    unfold observeScanClient
    split
    · rfl
    · split
      · exact hnone
      · exact hnone
    · next hpc =>
      -- the queue is read
      have hreads : (p.1.clients i).readsScan := by
        unfold XdrClient.readsScan
        rw [hpc]
        decide
      rw [((hall.clients i).scan hreads).read_missed hall.scanQueue (hread hpc), hnone]
    · exact hnone
    · exact hnone
  · show ((observeDelivery p.2 p.1 a).scan i).missed = []
    rw [(observeDelivery_other i p a hmine).2]
    exact hnone

/-- A step that is not the client's leaves it where it is. -/
theorem clients_step_other {i : ι} (s : LineDelivery ι) {a : DeliveryAction ι}
    (h : a.isOf i = false) : (deliveryMachine.step s a).clients i = s.clients i := by
  cases a with
  | client j timedOut =>
    have hne : i ≠ j := by
      intro heq
      simp [DeliveryAction.isOf, heq] at h
    exact Function.update_of_ne hne _ _
  | _ => rfl

/-- A client that takes enough steps of its own waits again, whatever
    happens in between. -/
theorem waits_again {i : ι} {p : LineDelivery ι × DeliveryHistory ι} (hall : AllBalanced p)
    {more : List (DeliveryAction ι)}
    (henough : (p.1.clients i).stepsToWait ≤ more.countP (DeliveryAction.isOf i)) :
    ∃ k ≤ more.length, (((deliveryMachine.withHistory observeDelivery).run p
      (more.take k)).1.clients i).pc = .waiting := by
  induction more generalizing p with
  | nil =>
    have hzero : (p.1.clients i).stepsToWait = 0 := Nat.le_zero.mp henough
    exact ⟨0, Nat.le_refl _, XdrClient.waiting_of_stepsToWait hzero⟩
  | cons a more ih =>
    by_cases hwaits : (p.1.clients i).pc = .waiting
    · exact ⟨0, Nat.zero_le _, hwaits⟩
    have hnext : ((deliveryMachine.step p.1 a).clients i).stepsToWait ≤
        more.countP (DeliveryAction.isOf i) := by
      cases hmine : a.isOf i with
      | false =>
        rw [clients_step_other p.1 hmine]
        rwa [List.countP_cons_of_neg (by simp [hmine])] at henough
      | true =>
        obtain ⟨timedOut, rfl⟩ := isOf_iff.mp hmine
        have hless := XdrClient.stepsToWait_step hall.rdsQueue hall.scanQueue hwaits timedOut
        rw [List.countP_cons_of_pos (by simp [hmine])] at henough
        have hself : (deliveryMachine.step p.1 (.client i timedOut)).clients i =
            (p.1.clients i).step p.1.server.rdsLines p.1.scanQueue timedOut :=
          Function.update_self _ _ _
        rw [hself]
        omega
    obtain ⟨k, hk, hwaits'⟩ := ih (allBalanced_step p a hall) hnext
    exact ⟨k + 1, Nat.succ_le_succ hk, hwaits'⟩

/-- What one step of a client does to its cursors: a `recv` that times out
    leads to the readings, and each takes its cursor to the end of its queue. -/
theorem drained_step {i : ι} {p : LineDelivery ι × DeliveryHistory ι} (hall : AllBalanced p)
    (timedOut : Bool) :
    let c := p.1.clients i
    let next := (deliveryMachine.withHistory observeDelivery).step p (.client i timedOut)
    let c' := next.1.clients i
    (c.pc = .waiting → timedOut = true → c'.pc = .drainRds ∧
      (next.2.rds i).due = p.2.rdsQueued.length ∧
      (next.2.scan i).due = p.2.scanQueued.length) ∧
    (c.pc = .drainRds → c'.lastRdsSeq = p.2.rdsQueued.length) ∧
    (c.pc = .drainScan → c'.lastScanSeq = p.2.scanQueued.length) := by
  intro c next c'
  have hc' : c' = c.step p.1.server.rdsLines p.1.scanQueue timedOut := Function.update_self _ _ _
  have hrds : next.2.rds i = observeRdsClient p.1.server.rdsLines p.2.rdsQueued timedOut c
      (p.2.rds i) := Function.update_self _ _ _
  have hscan : next.2.scan i = observeScanClient p.1.scanQueue p.2.scanQueued timedOut c
      (p.2.scan i) := Function.update_self _ _ _
  refine ⟨?_, ?_, ?_⟩
  · intro hpc htimedOut
    rw [hc', hrds, hscan]
    simp [XdrClient.step, observeRdsClient, observeScanClient, hpc, htimedOut,
      Subscription.timeOut]
  · intro hpc
    have hreads : c.readsRds := by simp [XdrClient.readsRds, hpc]
    have hbalanced := (hall.clients i).rds hreads
    have hle : c.lastRdsSeq ≤ p.2.rdsQueued.length := by
      rw [hbalanced.cursor_eq]
      exact hbalanced.delivered.cursor_le
    rw [hc']
    simp only [XdrClient.step, hpc, hall.rdsQueue.collect_eq (by decide) hle]
  · intro hpc
    have hreads : c.readsScan := by simp [XdrClient.readsScan, hpc]
    have hbalanced := (hall.clients i).scan hreads
    have hle : c.lastScanSeq ≤ p.2.scanQueued.length := by
      rw [hbalanced.cursor_eq]
      exact hbalanced.delivered.cursor_le
    rw [hc']
    simp only [XdrClient.step, hpc, hall.scanQueue.collect_eq (by decide) hle]

/-- Delivery, for every interleaving and each client. What it has been sent
    and has in hand is in the order of the numbers; together with what it
    missed it is, line for line, what was queued after the client joined
    and up to its cursor; what it missed had been evicted; and it misses
    nothing when at most as many lines as the queue holds are queued between
    two of its readings. A `recv` that times out leads to the readings, each
    of which takes its cursor to the end of the queue; a client that goes on
    waits again, and then it has read all that was queued when its `recv`
    last timed out. -/
theorem lines_delivered_in_order (acts : List (DeliveryAction ι)) (i : ι) :
    let M : Machine (LineDelivery ι × DeliveryHistory ι) (DeliveryAction ι) :=
      deliveryMachine.withHistory observeDelivery
    let start := (LineDelivery.initial ι, DeliveryHistory.initial ι)
    let p := M.run start acts
    let c := p.1.clients i
    let rds := p.2.rds i
    let scan := p.2.scan i
    (c.readsRds →
      c.lastRdsSeq = rds.seen ∧
      (rds.sent ++ c.rdsInHand).Pairwise (·.1 < ·.1) ∧
      (rds.sent ++ c.rdsInHand ++ rds.missed).Perm
        ((SequencedQueue.numbered p.2.rdsQueued).filter
          fun e => rds.joined < e.1 ∧ e.1 ≤ rds.seen) ∧
      ∀ e ∈ rds.missed, e ∉ p.1.server.rdsQueue) ∧
    (c.readsScan →
      c.lastScanSeq = scan.seen ∧
      (scan.sent ++ c.scanInHand).Pairwise (·.1 < ·.1) ∧
      (scan.sent ++ c.scanInHand ++ scan.missed).Perm
        ((SequencedQueue.numbered p.2.scanQueued).filter
          fun e => scan.joined < e.1 ∧ e.1 ≤ scan.seen) ∧
      ∀ e ∈ scan.missed, e ∉ p.1.scanQueue.entries) ∧
    (M.Meets (FewRdsLines i) start acts → rds.missed = []) ∧
    (M.Meets (FewScanLines i) start acts → scan.missed = []) ∧
    (∀ timedOut,
      let next := M.step p (.client i timedOut)
      let c' := next.1.clients i
      (c.pc = .waiting → timedOut = true → c'.pc = .drainRds ∧
        (next.2.rds i).due = p.2.rdsQueued.length ∧
        (next.2.scan i).due = p.2.scanQueued.length) ∧
      (c.pc = .drainRds → c'.lastRdsSeq = p.2.rdsQueued.length) ∧
      (c.pc = .drainScan → c'.lastScanSeq = p.2.scanQueued.length)) ∧
    (c.pc = .waiting → rds.due ≤ rds.seen ∧ scan.due ≤ scan.seen) ∧
    ∀ more : List (DeliveryAction ι), c.stepsToWait ≤ more.countP (DeliveryAction.isOf i) →
      ∃ k ≤ more.length, ((M.run p (more.take k)).1.clients i).pc = .waiting := by
  intro M start p c rds scan
  have hall : AllBalanced p :=
    Machine.run_invariant_always (fun q a => allBalanced_step q a) acts allBalanced_initial
  refine ⟨?_, ?_, ?_, ?_, drained_step hall, ?_, fun _ => waits_again hall⟩
  · intro hreads
    have hbalanced := (hall.clients i).rds hreads
    exact ⟨hbalanced.cursor_eq, hbalanced.delivered.ordered, hbalanced.delivered.accounted,
      hbalanced.missed_gone hall.rdsQueue⟩
  · intro hreads
    have hbalanced := (hall.clients i).scan hreads
    exact ⟨hbalanced.cursor_eq, hbalanced.delivered.ordered, hbalanced.delivered.accounted,
      hbalanced.missed_gone hall.scanQueue⟩
  · intro hfew
    exact (Machine.run_invariant (missed_rds_step i) ⟨allBalanced_initial, rfl⟩ hfew).2
  · intro hfew
    exact (Machine.run_invariant (missed_scan_step i) ⟨allBalanced_initial, rfl⟩ hfew).2
  · intro hwaits
    have hcaught := (hall.clients i).caughtUp
    rwa [show (p.1.clients i).pc = .waiting from hwaits] at hcaught

end delivery

/-- One client, which joins, an RDS line and a scan line that are queued, and
    a `recv` that times out: both lines are read and sent. -/
def oneLineEach : List (DeliveryAction Unit) :=
  [.client () false, .client () false, .updateRDS ⟨0xD3C2, 0x2410, 0xE20D, 0x4152, 0⟩ 0,
    .pushScanLine "f=88500,".toList, .client () true, .client () true, .client () true,
    .client () true, .client () true, .client () true, .client () true]

theorem one_line_each_delivered :
    let p := (deliveryMachine.withHistory observeDelivery).run
      (LineDelivery.initial Unit, DeliveryHistory.initial Unit) oneLineEach
    (p.2.rds ()).sent = [(1, "R2410E20D415200".toList)] ∧
      (p.2.scan ()).sent = [(1, "Uf=88500,".toList)] ∧
      (p.2.rds ()).due = 1 ∧ (p.2.rds ()).due ≤ (p.2.rds ()).seen ∧
      (p.2.rds ()).missed = [] ∧ (p.2.scan ()).missed = [] ∧
      ∀ e ∈ (p.2.scan ()).missed, e ∉ p.1.scanQueue.entries := by
  obtain ⟨-, hscan, hfewRds, hfewScan, -, hwaits, -⟩ := lines_delivered_in_order oneLineEach ()
  refine ⟨by decide +kernel, by decide +kernel, by decide +kernel, ?_, ?_, ?_, ?_⟩
  · exact (hwaits (by decide +kernel)).1
  · exact hfewRds (by decide +kernel)
  · exact hfewScan (by decide +kernel)
  · exact (hscan (by decide +kernel)).2.2.2

end FmSdrTuner
