import FmSdrTuner.Framework.Machine

/-! # RdsWorker

    The queue between the signal path and the RDS decoder thread. Blocks
    of samples are queued under a mutex, at most 32 of them. The worker
    takes the reset flag and one block in one critical section, releases
    the mutex, then resets the decoder and processes the block.
    `requestReset` has two steps: it sets the flag without the mutex, then
    locks and clears the queue.

    A worker that gets the mutex between these two steps takes the flag
    together with a block that `requestReset` was about to drop: it resets
    the decoder and feeds it the old station again.

    Main result: `resets_isolate_stations`. -/

namespace FmSdrTuner

/-- `kQueueLimit`. -/
def kQueueLimit : Nat := 32

/-! ### State -/

/-- A block of samples. The ordinal says how many blocks were passed to
    `enqueue` before it; the source does not keep it. -/
structure RdsBlock (α : Type) where
  ordinal : Nat
  samples : List α
  deriving DecidableEq, Repr

/-- Where the worker thread is in `RdsWorker::run`. -/
inductive WorkerThread (α : Type) where
  /-- Not started, or joined. -/
  | notRunning
  /-- At the loop condition `!m_stop.load()`. -/
  | loopHead
  /-- About to enter the critical section, or waiting in `wait_for`. -/
  | locking
  /-- Mutex released; `rds.reset()` comes next if `doReset`. -/
  | took (doReset : Bool) (block : Option (RdsBlock α))
  /-- `rds.process` comes next if there is a block. -/
  | processing (block : Option (RdsBlock α))
  deriving DecidableEq, Repr

/-- The block that the worker holds outside the mutex. -/
def WorkerThread.held {α : Type} : WorkerThread α → List (RdsBlock α)
  | .took _ block => block.toList
  | .processing block => block.toList
  | _ => []

structure RdsWorker (α : Type) where
  queue : List (RdsBlock α)
  /-- `m_reset`. -/
  reset : Bool
  /-- `m_stop`. -/
  stop : Bool
  thread : WorkerThread α
  /-- The `requestReset` calls between their two steps, each given by the
      number of blocks enqueued before it began. -/
  clearing : List Nat
  /-- How many blocks were passed to `enqueue`. -/
  enqueued : Nat
  deriving DecidableEq, Repr

def RdsWorker.initial (α : Type) : RdsWorker α := ⟨[], false, false, .notRunning, [], 0⟩

/-! ### Steps -/

inductive WorkerAction (α : Type) where
  | enqueue (samples : List α)
  /-- A `requestReset` begins: `m_reset = true`. -/
  | resetFlag
  /-- One of the calls in progress locks the mutex and clears the queue. -/
  | resetClear (i : Nat)
  /-- The worker's next step. `wait_for` returns on a notification as well
      as by timeout, so nothing is asked of the state. -/
  | worker
  | start
  | stop
  deriving DecidableEq, Repr

namespace RdsWorker
variable {α : Type}

/-- `RdsWorker::enqueue`. -/
def enqueue (w : RdsWorker α) (samples : List α) : RdsWorker α :=
  if samples.isEmpty then w
  else if kQueueLimit ≤ w.queue.length then { w with enqueued := w.enqueued + 1 }
  else { w with
    queue := w.queue ++ [⟨w.enqueued, samples⟩]
    enqueued := w.enqueued + 1 }

/-- The critical section of `RdsWorker::run`. -/
def takeOne (w : RdsWorker α) : RdsWorker α :=
  if w.stop then { w with thread := .notRunning }
  else { w with
    reset := false
    queue := w.queue.drop 1
    thread := .took w.reset w.queue.head? }

/-- One step of the worker thread. -/
def workerStep (w : RdsWorker α) : RdsWorker α :=
  match w.thread with
  | .notRunning => w
  | .loopHead => { w with thread := if w.stop then .notRunning else .locking }
  | .locking => w.takeOne
  | .took _ block => { w with thread := .processing block }
  | .processing _ => { w with thread := .loopHead }

def step (w : RdsWorker α) : WorkerAction α → RdsWorker α
  | .enqueue samples => w.enqueue samples
  | .resetFlag => { w with reset := true, clearing := w.clearing ++ [w.enqueued] }
  | .resetClear i =>
      if i < w.clearing.length then { w with queue := [], clearing := w.clearing.eraseIdx i }
      else w
  | .worker => w.workerStep
  | .start =>
      match w.thread with
      | .notRunning => { w with stop := false, thread := .loopHead }
      | _ => w
  | .stop => { w with stop := true }

end RdsWorker

def rdsWorkerMachine (α : Type) : Machine (RdsWorker α) (WorkerAction α) := ⟨RdsWorker.step⟩

@[simp] theorem rdsWorkerMachine_step {α : Type} (w : RdsWorker α) (a : WorkerAction α) :
    (rdsWorkerMachine α).step w a = w.step a := rfl

/-! ### What happened -/

/-- A record of the run. `requestReset` calls are named by the number of
    blocks enqueued before they began. -/
structure RdsHistory where
  /-- The latest `requestReset` that began. -/
  requested : Nat
  /-- The latest one whose flag a critical section has taken. -/
  taken : Nat
  /-- The latest one on account of which the decoder has been reset. -/
  applied : Nat
  /-- Blocks passed to `rds.process`, each with `applied` at that time. -/
  processed : List (Nat × Nat)
  /-- Blocks that `enqueue` did not queue, with the queue's length. -/
  refused : List (Nat × Nat)
  /-- Blocks that a `requestReset` removed from the queue. -/
  cleared : List Nat
  deriving DecidableEq, Repr

def RdsHistory.initial : RdsHistory := ⟨0, 0, 0, [], [], []⟩

/-- The ordinals of a list of blocks. -/
def ordinals {α : Type} (blocks : List (RdsBlock α)) : List Nat := blocks.map RdsBlock.ordinal

def observeRds {α : Type} (h : RdsHistory) (w : RdsWorker α) (a : WorkerAction α) :
    RdsHistory :=
  match a with
  | .enqueue _ =>
      if w.enqueued < (w.step a).enqueued ∧ w.enqueued ∉ ordinals (w.step a).queue then
        { h with refused := h.refused ++ [(w.enqueued, w.queue.length)] }
      else h
  | .resetFlag => { h with requested := w.enqueued }
  | .resetClear _ =>
      { h with cleared := h.cleared ++
          (ordinals w.queue).filter (· ∉ ordinals (w.step a).queue) }
  | .worker =>
      match w.thread with
      | .locking => if w.reset && !w.stop then { h with taken := h.requested } else h
      | .took doReset _ => if doReset then { h with applied := h.taken } else h
      | .processing block =>
          { h with processed := h.processed ++ block.toList.map (·.ordinal, h.applied) }
      | _ => h
  | _ => h

/-- The worker with the record of its run. -/
abbrev rdsRun (α : Type) : Machine (RdsWorker α × RdsHistory) (WorkerAction α) :=
  (rdsWorkerMachine α).withHistory observeRds

def rdsStart (α : Type) : RdsWorker α × RdsHistory := (.initial α, .initial)

section properties
variable {α : Type}

/-! ### The worker's steps -/

section workerSteps
variable {w : RdsWorker α} (h : RdsHistory)

theorem rdsRun_notRunning (ht : w.thread = .notRunning) :
    (rdsRun α).step (w, h) .worker = (w, h) := by
  simp [RdsWorker.step, RdsWorker.workerStep, observeRds, ht]

theorem rdsRun_loopHead (ht : w.thread = .loopHead) :
    (rdsRun α).step (w, h) .worker =
      ({ w with thread := if w.stop then .notRunning else .locking }, h) := by
  simp [RdsWorker.step, RdsWorker.workerStep, observeRds, ht]

theorem rdsRun_locking_stop (ht : w.thread = .locking) (hstop : w.stop = true) :
    (rdsRun α).step (w, h) .worker = ({ w with thread := .notRunning }, h) := by
  simp [RdsWorker.step, RdsWorker.workerStep, RdsWorker.takeOne, observeRds, ht, hstop]

theorem rdsRun_locking (ht : w.thread = .locking) (hstop : w.stop = false) :
    (rdsRun α).step (w, h) .worker =
      ({ w with
          reset := false
          queue := w.queue.drop 1
          thread := .took w.reset w.queue.head? },
        { h with taken := if w.reset then h.requested else h.taken }) := by
  cases hr : w.reset <;>
    simp [RdsWorker.step, RdsWorker.workerStep, RdsWorker.takeOne, observeRds, ht, hstop, hr]

theorem rdsRun_took {doReset : Bool} {block : Option (RdsBlock α)}
    (ht : w.thread = .took doReset block) :
    (rdsRun α).step (w, h) .worker =
      ({ w with thread := .processing block },
        { h with applied := if doReset then h.taken else h.applied }) := by
  cases doReset <;> simp [RdsWorker.step, RdsWorker.workerStep, observeRds, ht]

theorem rdsRun_processing {block : Option (RdsBlock α)} (ht : w.thread = .processing block) :
    (rdsRun α).step (w, h) .worker =
      ({ w with thread := .loopHead },
        { h with processed := h.processed ++ block.toList.map (·.ordinal, h.applied) }) := by
  simp [RdsWorker.step, RdsWorker.workerStep, observeRds, ht]

end workerSteps

/-! ### Properties of a run -/

/-- Blocks are processed in enqueue order, each at most once. -/
def RdsHistory.InOrder (h : RdsHistory) : Prop := (h.processed.map Prod.fst).Pairwise (· < ·)

/-- The blocks that were processed, then the one in the worker's hands, then
    the queued ones. -/
def lifeline (p : RdsWorker α × RdsHistory) : List Nat :=
  p.2.processed.map Prod.fst ++ (ordinals p.1.thread.held ++ ordinals p.1.queue)

/-- A block that is neither processed nor still on its way was refused
    because 32 blocks were queued, or cleared by a `requestReset`. -/
def Accounted (p : RdsWorker α × RdsHistory) : Prop :=
  (∀ o < p.1.enqueued, o ∈ lifeline p ∨ o ∈ p.2.refused.map Prod.fst ∨ o ∈ p.2.cleared) ∧
    ∀ r ∈ p.2.refused, r.2 = kQueueLimit

/-- No block was processed after the decoder had been reset on account of a
    `requestReset` that began after the block was enqueued. -/
def RdsHistory.Isolated (h : RdsHistory) : Prop := ∀ b ∈ h.processed, b.2 ≤ b.1

instance (h : RdsHistory) : Decidable h.Isolated :=
  inferInstanceAs (Decidable (∀ b ∈ h.processed, b.2 ≤ b.1))

/-- Not a critical section that takes a block older than a `requestReset`
    which has set the flag and not yet cleared the queue. -/
def PopsNothingStale (w : RdsWorker α) (a : WorkerAction α) : Prop :=
  a = .worker → w.thread = .locking → w.stop = false →
    ∀ b ∈ w.queue.head?, ∀ m ∈ w.clearing, m ≤ b.ordinal

/-! ### Order and accounting -/

structure Orderly (p : RdsWorker α × RdsHistory) : Prop where
  ordered : (lifeline p).Pairwise (· < ·)
  issued : ∀ o ∈ lifeline p, o < p.1.enqueued
  length_le : p.1.queue.length ≤ kQueueLimit
  accounted : Accounted p

theorem orderly_start : Orderly (rdsStart α) := by
  refine ⟨?_, ?_, ?_, ?_, ?_⟩ <;> simp [rdsStart, lifeline, RdsWorker.initial,
    RdsHistory.initial, WorkerThread.held, ordinals]

@[simp] theorem ordinals_nil : ordinals ([] : List (RdsBlock α)) = [] := rfl

@[simp] theorem ordinals_append (bs cs : List (RdsBlock α)) :
    ordinals (bs ++ cs) = ordinals bs ++ ordinals cs := by simp [ordinals]

theorem ordinals_head_append_drop (bs : List (RdsBlock α)) :
    ordinals bs.head?.toList ++ ordinals (bs.drop 1) = ordinals bs := by
  cases bs <;> simp [ordinals]

/-- The worker moves blocks along the lifeline without changing it. -/
theorem lifeline_worker (p : RdsWorker α × RdsHistory) :
    lifeline ((rdsRun α).step p .worker) = lifeline p := by
  obtain ⟨w, h⟩ := p
  cases ht : w.thread with
  | notRunning => rw [rdsRun_notRunning h ht]
  | loopHead =>
    rw [rdsRun_loopHead h ht]
    cases w.stop <;> simp [lifeline, WorkerThread.held, ht]
  | locking =>
    cases hstop : w.stop with
    | true =>
      rw [rdsRun_locking_stop h ht hstop]
      simp [lifeline, WorkerThread.held, ht]
    | false =>
      rw [rdsRun_locking h ht hstop]
      simp only [lifeline, WorkerThread.held, ht, ordinals_head_append_drop]
      simp
  | took doReset block =>
    rw [rdsRun_took h ht]
    simp [lifeline, WorkerThread.held, ht]
  | processing block =>
    rw [rdsRun_processing h ht]
    cases block <;> simp [lifeline, WorkerThread.held, ht, ordinals]

/-- The fields that only `enqueue` and `requestReset` change. -/
theorem worker_frame (p : RdsWorker α × RdsHistory) :
    let p' := (rdsRun α).step p .worker
    p'.1.enqueued = p.1.enqueued ∧ p'.1.queue.length ≤ p.1.queue.length ∧
      p'.2.refused = p.2.refused ∧ p'.2.cleared = p.2.cleared := by
  obtain ⟨w, h⟩ := p
  cases ht : w.thread with
  | notRunning => rw [rdsRun_notRunning h ht]; simp
  | loopHead => rw [rdsRun_loopHead h ht]; simp
  | locking =>
    cases hstop : w.stop with
    | true => rw [rdsRun_locking_stop h ht hstop]; simp
    | false => rw [rdsRun_locking h ht hstop]; simp
  | took doReset block => rw [rdsRun_took h ht]; simp
  | processing block => rw [rdsRun_processing h ht]; simp

theorem Orderly.worker {p : RdsWorker α × RdsHistory} (hp : Orderly p) :
    Orderly ((rdsRun α).step p .worker) := by
  have hline := lifeline_worker p
  obtain ⟨henq, hlen, href, hclr⟩ := worker_frame p
  refine ⟨?_, ?_, ?_, ?_, ?_⟩
  · rw [hline]; exact hp.ordered
  · rw [hline, henq]; exact hp.issued
  · exact Nat.le_trans hlen hp.length_le
  · rw [hline, henq, href, hclr]; exact hp.accounted.1
  · rw [href]; exact hp.accounted.2

theorem Orderly.enqueue {p : RdsWorker α × RdsHistory} (hp : Orderly p) (samples : List α) :
    Orderly ((rdsRun α).step p (.enqueue samples)) := by
  obtain ⟨w, h⟩ := p
  by_cases hempty : samples.isEmpty = true
  · have hstay : (rdsRun α).step (w, h) (.enqueue samples) = (w, h) := by
      simp [RdsWorker.step, RdsWorker.enqueue, observeRds, hempty]
    rw [hstay]; exact hp
  by_cases hfull : kQueueLimit ≤ w.queue.length
  · -- refused: its ordinal is not among the queued ones
    have hnew : w.enqueued ∉ ordinals w.queue := by
      intro hmem
      have hlt := hp.issued w.enqueued (by simp [lifeline, hmem])
      exact Nat.lt_irrefl _ hlt
    have hstep : (rdsRun α).step (w, h) (.enqueue samples) =
        ({ w with enqueued := w.enqueued + 1 },
          { h with refused := h.refused ++ [(w.enqueued, w.queue.length)] }) := by
      simp [RdsWorker.step, RdsWorker.enqueue, observeRds, hempty, hfull, hnew]
    rw [hstep]
    refine ⟨hp.ordered, ?_, hp.length_le, ?_, ?_⟩
    · intro o ho
      exact Nat.lt_succ_of_lt (hp.issued o ho)
    · intro o ho
      rw [List.map_append, List.mem_append]
      rcases Nat.lt_succ_iff_lt_or_eq.mp ho with hlt | rfl
      · rcases hp.accounted.1 o hlt with hlife | href | hclr
        · exact Or.inl hlife
        · exact Or.inr (Or.inl (Or.inl href))
        · exact Or.inr (Or.inr hclr)
      · exact Or.inr (Or.inl (Or.inr (by simp)))
    · intro r hr
      rcases List.mem_append.mp hr with hr | hr
      · exact hp.accounted.2 r hr
      · rw [List.mem_singleton] at hr
        subst hr
        exact Nat.le_antisymm hp.length_le hfull
  · -- queued: the new ordinal is above all others and ends the lifeline
    have hstep : (rdsRun α).step (w, h) (.enqueue samples) =
        ({ w with
            queue := w.queue ++ [⟨w.enqueued, samples⟩]
            enqueued := w.enqueued + 1 }, h) := by
      simp [RdsWorker.step, RdsWorker.enqueue, observeRds, hempty, hfull, ordinals]
    have hline : lifeline ((rdsRun α).step (w, h) (.enqueue samples)) =
        lifeline (w, h) ++ [w.enqueued] := by
      rw [hstep]; simp [lifeline, ordinals]
    rw [hstep] at hline ⊢
    refine ⟨?_, ?_, ?_, ?_, hp.accounted.2⟩
    · rw [hline, List.pairwise_append]
      refine ⟨hp.ordered, List.pairwise_singleton _ _, ?_⟩
      -- every ordinal in use is below the next one to be issued
      intro o ho n hn
      rw [List.mem_singleton] at hn
      subst hn
      exact hp.issued o ho
    · rw [hline]
      intro o ho
      rcases List.mem_append.mp ho with ho | ho
      · exact Nat.lt_succ_of_lt (hp.issued o ho)
      · rw [List.mem_singleton] at ho
        subst ho
        exact Nat.lt_succ_self _
    · simp only [List.length_append, List.length_singleton]
      omega
    · rw [hline]
      intro o ho
      rw [List.mem_append]
      rcases Nat.lt_succ_iff_lt_or_eq.mp ho with hlt | rfl
      · rcases hp.accounted.1 o hlt with hlife | hgone
        · exact Or.inl (Or.inl hlife)
        · exact Or.inr hgone
      · exact Or.inl (Or.inr (by simp))

theorem Orderly.resetClear {p : RdsWorker α × RdsHistory} (hp : Orderly p) (i : Nat) :
    Orderly ((rdsRun α).step p (.resetClear i)) := by
  obtain ⟨w, h⟩ := p
  by_cases hi : i < w.clearing.length
  · -- the queue, the end of the lifeline, is cut off
    have hstep : (rdsRun α).step (w, h) (.resetClear i) =
        ({ w with queue := [], clearing := w.clearing.eraseIdx i },
          { h with cleared := h.cleared ++ ordinals w.queue }) := by
      simp [RdsWorker.step, observeRds, hi]
    have hline : lifeline (w, h) =
        lifeline ((rdsRun α).step (w, h) (.resetClear i)) ++ ordinals w.queue := by
      rw [hstep]; simp [lifeline]
    rw [hstep] at hline ⊢
    refine ⟨?_, ?_, Nat.zero_le _, ?_, hp.accounted.2⟩
    · have hord := hp.ordered
      rw [hline, List.pairwise_append] at hord
      -- a prefix of the old lifeline is in order too
      exact hord.1
    · intro o ho
      apply hp.issued
      rw [hline]
      exact List.mem_append_left _ ho
    · intro o ho
      have hold := hp.accounted.1 o ho
      rw [hline, List.mem_append] at hold
      rw [List.mem_append]
      tauto
  · have hstay : (rdsRun α).step (w, h) (.resetClear i) = (w, h) := by
      have hnone : (ordinals w.queue).filter (fun o => !decide (o ∈ ordinals w.queue)) = [] := by
        rw [List.filter_eq_nil_iff]
        intro o ho
        simp [ho]
      simp [RdsWorker.step, observeRds, hi, hnone]
    rw [hstay]; exact hp

theorem orderly_step (p : RdsWorker α × RdsHistory) (a : WorkerAction α) (hp : Orderly p) :
    Orderly ((rdsRun α).step p a) := by
  cases a with
  | enqueue samples => exact hp.enqueue samples
  | resetFlag => exact ⟨hp.ordered, hp.issued, hp.length_le, hp.accounted⟩
  | resetClear i => exact hp.resetClear i
  | worker => exact hp.worker
  | start =>
    obtain ⟨w, h⟩ := p
    cases ht : w.thread with
    | notRunning =>
      have hstep : (rdsRun α).step (w, h) .start =
          ({ w with stop := false, thread := .loopHead }, h) := by
        simp [RdsWorker.step, observeRds, ht]
      have hline : lifeline ((rdsRun α).step (w, h) .start) = lifeline (w, h) := by
        rw [hstep]; simp [lifeline, ht, WorkerThread.held]
      rw [hstep] at hline ⊢
      refine ⟨?_, ?_, hp.length_le, ?_, hp.accounted.2⟩
      · rw [hline]; exact hp.ordered
      · rw [hline]; exact hp.issued
      · rw [hline]; exact hp.accounted.1
    | _ => simpa [RdsWorker.step, observeRds, ht] using hp
  | stop => exact ⟨hp.ordered, hp.issued, hp.length_le, hp.accounted⟩

/-! ### Isolation -/

/-- What holds while no critical section takes a stale block. -/
structure Fresh (p : RdsWorker α × RdsHistory) : Prop where
  applied_le : p.2.applied ≤ p.2.taken
  taken_le : p.2.taken ≤ p.2.requested
  requested_le : p.2.requested ≤ p.1.enqueued
  /-- The latest `requestReset` is still to clear the queue, or has. -/
  owed : p.2.requested ∈ p.1.clearing ∨ ∀ b ∈ p.1.queue, p.2.requested ≤ b.ordinal
  held : ∀ b ∈ p.1.thread.held, p.2.taken ≤ b.ordinal
  isolated : p.2.Isolated

theorem fresh_start : Fresh (rdsStart α) := by
  refine ⟨Nat.le_refl _, Nat.le_refl _, Nat.le_refl _, Or.inr ?_, ?_, ?_⟩ <;>
    simp [rdsStart, RdsWorker.initial, RdsHistory.initial, WorkerThread.held,
      RdsHistory.Isolated]

theorem Fresh.worker {p : RdsWorker α × RdsHistory} (hp : Fresh p)
    (hpop : PopsNothingStale p.1 .worker) : Fresh ((rdsRun α).step p .worker) := by
  obtain ⟨w, h⟩ := p
  cases ht : w.thread with
  | notRunning => rw [rdsRun_notRunning h ht]; exact hp
  | loopHead =>
    rw [rdsRun_loopHead h ht]
    refine ⟨hp.applied_le, hp.taken_le, hp.requested_le, hp.owed, ?_, hp.isolated⟩
    cases w.stop <;> simp [WorkerThread.held]
  | locking =>
    cases hstop : w.stop with
    | true =>
      rw [rdsRun_locking_stop h ht hstop]
      exact ⟨hp.applied_le, hp.taken_le, hp.requested_le, hp.owed, by simp [WorkerThread.held],
        hp.isolated⟩
    | false =>
      rw [rdsRun_locking h ht hstop]
      have htaken : (if w.reset then h.requested else h.taken) ≤ h.requested := by
        split
        · exact Nat.le_refl _
        · exact hp.taken_le
      refine ⟨?_, htaken, hp.requested_le, ?_, ?_, hp.isolated⟩
      · have h1 := hp.applied_le
        have h2 := hp.taken_le
        simp only at h1 h2 ⊢
        split <;> omega
      · rcases hp.owed with hin | hall
        · exact Or.inl hin
        · exact Or.inr fun b hb => hall b (List.mem_of_mem_drop hb)
      · -- the block taken is not older than the reset taken with it
        intro b hb
        simp only [WorkerThread.held, Option.mem_toList] at hb
        refine Nat.le_trans htaken ?_
        rcases hp.owed with hin | hall
        · exact hpop rfl ht hstop b hb _ hin
        · exact hall b (List.mem_of_mem_head? hb)
  | took doReset block =>
    rw [rdsRun_took h ht]
    refine ⟨?_, hp.taken_le, hp.requested_le, hp.owed, ?_, hp.isolated⟩
    · simp only
      split
      · exact Nat.le_refl _
      · exact hp.applied_le
    · have hheld := hp.held
      rw [ht] at hheld
      exact hheld
  | processing block =>
    rw [rdsRun_processing h ht]
    refine ⟨hp.applied_le, hp.taken_le, hp.requested_le, hp.owed, by simp [WorkerThread.held], ?_⟩
    -- only the block in hand is new among the processed ones
    intro q hq
    rcases List.mem_append.mp hq with hq | hq
    · exact hp.isolated q hq
    · obtain ⟨b, hb, rfl⟩ := List.mem_map.mp hq
      have hheld := hp.held b (by rw [ht]; exact hb)
      exact Nat.le_trans hp.applied_le hheld

/-- `enqueue` notes at most a refusal. -/
theorem observeRds_enqueue (h : RdsHistory) (w : RdsWorker α) (samples : List α) :
    ∃ refused, observeRds h w (.enqueue samples) = { h with refused := refused } := by
  simp only [observeRds]
  split
  · exact ⟨_, rfl⟩
  · exact ⟨h.refused, rfl⟩

theorem Fresh.enqueue {p : RdsWorker α × RdsHistory} (hp : Fresh p) (samples : List α) :
    Fresh ((rdsRun α).step p (.enqueue samples)) := by
  obtain ⟨w, h⟩ := p
  obtain ⟨refused, hobs⟩ := observeRds_enqueue h w samples
  rw [Machine.withHistory_step, hobs, rdsWorkerMachine_step]
  simp only [RdsWorker.step, RdsWorker.enqueue]
  have hle := hp.requested_le
  split
  · exact ⟨hp.applied_le, hp.taken_le, hp.requested_le, hp.owed, hp.held, hp.isolated⟩
  · split
    · exact ⟨hp.applied_le, hp.taken_le, Nat.le_succ_of_le hle, hp.owed, hp.held, hp.isolated⟩
    · refine ⟨hp.applied_le, hp.taken_le, Nat.le_succ_of_le hle, ?_, hp.held, hp.isolated⟩
      rcases hp.owed with hin | hall
      · exact Or.inl hin
      · right
        intro b hb
        rcases List.mem_append.mp hb with hb | hb
        · exact hall b hb
        · rw [List.mem_singleton] at hb
          subst hb
          exact hle

theorem fresh_step (p : RdsWorker α × RdsHistory) (a : WorkerAction α) (hp : Fresh p)
    (hpop : PopsNothingStale p.1 a) : Fresh ((rdsRun α).step p a) := by
  obtain ⟨w, h⟩ := p
  cases a with
  | enqueue samples => exact hp.enqueue samples
  | resetFlag =>
    exact ⟨hp.applied_le, Nat.le_trans hp.taken_le hp.requested_le, Nat.le_refl _,
      Or.inl (List.mem_append_right _ (List.mem_singleton_self _)), hp.held, hp.isolated⟩
  | resetClear i =>
    by_cases hi : i < w.clearing.length
    · simp only [Machine.withHistory_step, rdsWorkerMachine_step, RdsWorker.step, hi, if_true,
        observeRds]
      exact ⟨hp.applied_le, hp.taken_le, hp.requested_le, Or.inr (by simp), hp.held,
        hp.isolated⟩
    · simp only [Machine.withHistory_step, rdsWorkerMachine_step, RdsWorker.step, hi, if_false,
        observeRds]
      exact ⟨hp.applied_le, hp.taken_le, hp.requested_le, hp.owed, hp.held, hp.isolated⟩
  | worker => exact hp.worker hpop
  | start =>
    cases ht : w.thread with
    | notRunning =>
      simp only [Machine.withHistory_step, rdsWorkerMachine_step, RdsWorker.step, ht, observeRds]
      exact ⟨hp.applied_le, hp.taken_le, hp.requested_le, hp.owed, by simp [WorkerThread.held],
        hp.isolated⟩
    | _ => simpa [RdsWorker.step, observeRds, ht] using hp
  | stop => exact ⟨hp.applied_le, hp.taken_le, hp.requested_le, hp.owed, hp.held, hp.isolated⟩

/-! ### A stale block is processed

    Once a critical section has taken a stale block, nothing keeps it from
    the decoder: the next two steps of the worker reset the decoder and
    process the block. -/

/-- How the marks of the run hang together. -/
structure Marked (p : RdsWorker α × RdsHistory) : Prop where
  clearing_le : ∀ m ∈ p.1.clearing, m ≤ p.2.requested
  requested_le : p.2.requested ≤ p.1.enqueued
  unset : p.1.reset = false → p.2.taken = p.2.requested
  /-- Between critical sections a taken reset is soon an applied one. -/
  settled : (∀ b, p.1.thread ≠ .took true b) → p.2.applied = p.2.taken

theorem marked_start : Marked (rdsStart α) :=
  ⟨by simp [rdsStart, RdsWorker.initial], Nat.le_refl _, fun _ => rfl, fun _ => rfl⟩

theorem Marked.worker {p : RdsWorker α × RdsHistory} (hp : Marked p) :
    Marked ((rdsRun α).step p .worker) := by
  obtain ⟨w, h⟩ := p
  have hsame : (∀ b, w.thread ≠ .took true b) → h.applied = h.taken := hp.settled
  cases ht : w.thread with
  | notRunning => rw [rdsRun_notRunning h ht]; exact hp
  | loopHead =>
    rw [rdsRun_loopHead h ht]
    exact ⟨hp.clearing_le, hp.requested_le, hp.unset, fun _ => hsame (by simp [ht])⟩
  | locking =>
    cases hstop : w.stop with
    | true =>
      rw [rdsRun_locking_stop h ht hstop]
      exact ⟨hp.clearing_le, hp.requested_le, hp.unset, fun _ => hsame (by simp [ht])⟩
    | false =>
      rw [rdsRun_locking h ht hstop]
      cases hr : w.reset with
      | true =>
        -- the flag is taken: the reset is applied in the next step
        refine ⟨hp.clearing_le, hp.requested_le, fun _ => rfl, ?_⟩
        intro hnot
        exact absurd rfl (hnot w.queue.head?)
      | false =>
        refine ⟨hp.clearing_le, hp.requested_le, fun _ => hp.unset hr, ?_⟩
        intro _
        exact hsame (by simp [ht])
  | took doReset block =>
    rw [rdsRun_took h ht]
    refine ⟨hp.clearing_le, hp.requested_le, hp.unset, ?_⟩
    intro _
    cases doReset with
    | true => rfl
    | false => exact hsame (by simp [ht])
  | processing block =>
    rw [rdsRun_processing h ht]
    exact ⟨hp.clearing_le, hp.requested_le, hp.unset, fun _ => hsame (by simp [ht])⟩

theorem marked_step (p : RdsWorker α × RdsHistory) (a : WorkerAction α) (hp : Marked p) :
    Marked ((rdsRun α).step p a) := by
  obtain ⟨w, h⟩ := p
  cases a with
  | enqueue samples =>
    obtain ⟨refused, hobs⟩ := observeRds_enqueue h w samples
    rw [Machine.withHistory_step, hobs, rdsWorkerMachine_step]
    simp only [RdsWorker.step, RdsWorker.enqueue]
    have hle := Nat.le_succ_of_le hp.requested_le
    split
    · exact ⟨hp.clearing_le, hp.requested_le, hp.unset, hp.settled⟩
    · split <;> exact ⟨hp.clearing_le, hle, hp.unset, hp.settled⟩
  | resetFlag =>
    refine ⟨?_, Nat.le_refl _, fun hr => (by cases hr), hp.settled⟩
    intro m hm
    rcases List.mem_append.mp hm with hm | hm
    · exact Nat.le_trans (hp.clearing_le m hm) hp.requested_le
    · rw [List.mem_singleton] at hm
      exact Nat.le_of_eq hm
  | resetClear i =>
    simp only [Machine.withHistory_step, rdsWorkerMachine_step, RdsWorker.step, observeRds]
    split
    · exact ⟨fun m hm => hp.clearing_le m (List.mem_of_mem_eraseIdx hm), hp.requested_le,
        hp.unset, hp.settled⟩
    · exact ⟨hp.clearing_le, hp.requested_le, hp.unset, hp.settled⟩
  | worker => exact hp.worker
  | start =>
    cases ht : w.thread with
    | notRunning =>
      simp only [Machine.withHistory_step, rdsWorkerMachine_step, RdsWorker.step, ht, observeRds]
      exact ⟨hp.clearing_le, hp.requested_le, hp.unset, fun _ => hp.settled (by simp [ht])⟩
    | _ => simpa [RdsWorker.step, observeRds, ht] using hp
  | stop => exact ⟨hp.clearing_le, hp.requested_le, hp.unset, hp.settled⟩

/-- A block older than a reset that was taken before or with it has been
    processed, or is in the worker's hands. -/
def Doomed (p : RdsWorker α × RdsHistory) : Prop :=
  ¬ p.2.Isolated ∨ ∃ b ∈ p.1.thread.held, b.ordinal < p.2.taken

theorem RdsHistory.not_isolated_append {h : RdsHistory} (hnot : ¬ h.Isolated)
    (more : List (Nat × Nat)) :
    ¬ RdsHistory.Isolated { h with processed := h.processed ++ more } :=
  fun hall => hnot fun b hb => hall b (List.mem_append_left _ hb)

theorem not_isolated_worker {p : RdsWorker α × RdsHistory} (hnot : ¬ p.2.Isolated) :
    ¬ ((rdsRun α).step p .worker).2.Isolated := by
  obtain ⟨w, h⟩ := p
  cases ht : w.thread with
  | notRunning => rw [rdsRun_notRunning h ht]; exact hnot
  | loopHead => rw [rdsRun_loopHead h ht]; exact hnot
  | locking =>
    cases hstop : w.stop with
    | true => rw [rdsRun_locking_stop h ht hstop]; exact hnot
    | false => rw [rdsRun_locking h ht hstop]; exact hnot
  | took doReset block => rw [rdsRun_took h ht]; exact hnot
  | processing block =>
    rw [rdsRun_processing h ht]
    exact RdsHistory.not_isolated_append hnot _

theorem not_isolated_processing {w : RdsWorker α} {h : RdsHistory} (hmark : Marked (w, h))
    {block : Option (RdsBlock α)} (ht : w.thread = .processing block) {b : RdsBlock α}
    (hb : b ∈ w.thread.held) (hlt : b.ordinal < h.taken) :
    ¬ ((rdsRun α).step (w, h) .worker).2.Isolated := by
  rw [rdsRun_processing h ht]
  rw [ht] at hb
  intro hall
  have hmem : (b.ordinal, h.applied) ∈ h.processed ++ block.toList.map (·.ordinal, h.applied) :=
    List.mem_append_right _ (List.mem_map.mpr ⟨b, hb, rfl⟩)
  have hle : h.applied ≤ b.ordinal := hall _ hmem
  have hsame : h.applied = h.taken := hmark.settled (by simp [ht])
  omega

theorem Doomed.worker {p : RdsWorker α × RdsHistory} (hmark : Marked p) (hp : Doomed p) :
    Doomed ((rdsRun α).step p .worker) := by
  obtain ⟨w, h⟩ := p
  rcases hp with hnot | ⟨b, hb, hlt⟩
  · exact Or.inl (not_isolated_worker hnot)
  · cases ht : w.thread with
    | took doReset block =>
      rw [rdsRun_took h ht]
      rw [ht] at hb
      exact Or.inr ⟨b, hb, hlt⟩
    | processing block => exact Or.inl (not_isolated_processing hmark ht hb hlt)
    | _ => rw [ht] at hb; simp [WorkerThread.held] at hb

theorem doomed_step (p : RdsWorker α × RdsHistory) (a : WorkerAction α) (hmark : Marked p)
    (hp : Doomed p) : Doomed ((rdsRun α).step p a) := by
  obtain ⟨w, h⟩ := p
  cases a with
  | enqueue samples =>
    obtain ⟨refused, hobs⟩ := observeRds_enqueue h w samples
    rw [Machine.withHistory_step, hobs, rdsWorkerMachine_step]
    simp only [RdsWorker.step, RdsWorker.enqueue]
    split
    · exact hp
    · split <;> exact hp
  | resetFlag => exact hp
  | resetClear i =>
    simp only [Machine.withHistory_step, rdsWorkerMachine_step, RdsWorker.step, observeRds]
    split <;> exact hp
  | worker => exact hp.worker hmark
  | start =>
    cases ht : w.thread with
    | notRunning =>
      -- a thread that is not running holds no block
      rcases hp with hnot | ⟨b, hb, -⟩
      · simp only [Machine.withHistory_step, rdsWorkerMachine_step, RdsWorker.step, ht,
          observeRds]
        exact Or.inl hnot
      · rw [ht] at hb; simp [WorkerThread.held] at hb
    | _ => simpa [RdsWorker.step, observeRds, ht] using hp
  | stop => exact hp

/-- A stale block taken is a stale block on its way to the decoder. -/
theorem doomed_of_stale {p : RdsWorker α × RdsHistory} {a : WorkerAction α} (hmark : Marked p)
    (hstale : ¬ PopsNothingStale p.1 a) : Doomed ((rdsRun α).step p a) := by
  obtain ⟨w, h⟩ := p
  simp only [PopsNothingStale, not_forall, Nat.not_le] at hstale
  obtain ⟨rfl, ht, hstop, b, hb, m, hm, hlt⟩ := hstale
  rw [rdsRun_locking h ht hstop]
  refine Or.inr ⟨b, Option.mem_toList.mpr hb, ?_⟩
  have hle : m ≤ h.requested := hmark.clearing_le m hm
  -- flag or no flag, after this critical section all resets are taken
  have htaken : (if w.reset then h.requested else h.taken) = h.requested := by
    cases hr : w.reset with
    | true => rfl
    | false => exact hmark.unset hr
  simp only [htaken]
  omega

/-- Two steps of the worker carry the block it holds through the decoder. -/
theorem not_isolated_of_doomed {p : RdsWorker α × RdsHistory} (hmark : Marked p)
    (hp : Doomed p) : ¬ ((rdsRun α).run p [.worker, .worker]).2.Isolated := by
  obtain ⟨w, h⟩ := p
  rcases hp with hnot | ⟨b, hb, hlt⟩
  · exact not_isolated_worker (not_isolated_worker hnot)
  · cases ht : w.thread with
    | took doReset block =>
      have hmark' := hmark.worker
      rw [Machine.run_cons, Machine.run_cons, Machine.run_nil]
      rw [rdsRun_took h ht] at hmark' ⊢
      rw [ht] at hb
      exact not_isolated_processing hmark' rfl hb hlt
    | processing block => exact not_isolated_worker (not_isolated_processing hmark ht hb hlt)
    | _ => rw [ht] at hb; simp [WorkerThread.held] at hb

/-- While nothing stale was taken, the worker's next two steps keep the
    stations apart as well: a block taken now is not processed before. -/
theorem Fresh.isolated_after {p : RdsWorker α × RdsHistory} (hp : Fresh p) :
    ((rdsRun α).run p [.worker, .worker]).2.Isolated := by
  by_cases hlock : p.1.thread = .locking
  · obtain ⟨w, h⟩ := p
    rw [Machine.run_cons, Machine.run_cons, Machine.run_nil]
    cases hstop : w.stop with
    | true =>
      rw [rdsRun_locking_stop h hlock hstop, rdsRun_notRunning h rfl]
      exact hp.isolated
    | false =>
      rw [rdsRun_locking h hlock hstop, rdsRun_took _ rfl]
      exact hp.isolated
  · have hfirst : Fresh ((rdsRun α).step p .worker) :=
      hp.worker fun _ hl => absurd hl hlock
    rw [Machine.run_cons, Machine.run_cons, Machine.run_nil]
    generalize (rdsRun α).step p .worker = q at hfirst
    obtain ⟨w, h⟩ := q
    cases ht : w.thread with
    | locking =>
      cases hstop : w.stop with
      | true => rw [rdsRun_locking_stop h ht hstop]; exact hfirst.isolated
      | false => rw [rdsRun_locking h ht hstop]; exact hfirst.isolated
    | _ => exact (hfirst.worker fun _ hl => by rw [ht] at hl; cases hl).isolated

/-! ### Main result -/

theorem isolated_iff_meets {p : RdsWorker α × RdsHistory} (hfresh : Fresh p)
    (hmark : Marked p) (acts : List (WorkerAction α)) :
    (rdsRun α).Meets (fun q => PopsNothingStale q.1) p acts ↔
      ((rdsRun α).run p (acts ++ [.worker, .worker])).2.Isolated := by
  rw [Machine.run_append]
  induction acts generalizing p with
  | nil => exact ⟨fun _ => hfresh.isolated_after, fun _ => trivial⟩
  | cons a acts ih =>
    by_cases hpop : PopsNothingStale p.1 a
    · have hrest := ih (fresh_step p a hfresh hpop) (marked_step p a hmark)
      exact ⟨fun h => hrest.mp h.2, fun h => ⟨hpop, hrest.mpr h⟩⟩
    · refine ⟨fun h => absurd h.1 hpop, ?_⟩
      intro hiso
      -- the stale block stays on its way whatever follows
      have hrest : Marked ((rdsRun α).run p (a :: acts)) ∧
          Doomed ((rdsRun α).run p (a :: acts)) :=
        @Machine.run_invariant_always _ _ (rdsRun α) (fun q => Marked q ∧ Doomed q)
          (fun q b hq => ⟨marked_step q b hq.1, doomed_step q b hq.1 hq.2⟩) _ acts
          ⟨marked_step p a hmark, doomed_of_stale hmark hpop⟩
      exact absurd hiso (not_isolated_of_doomed hrest.1 hrest.2)

/-- In every run blocks are processed in enqueue order, each at most once,
    and none is lost but for a full queue or a `requestReset`. Stations stay
    isolated, up to the end of what the worker has in hand, if and only if
    no critical section takes a block older than a `requestReset` that has
    set the flag and not yet cleared the queue. -/
theorem resets_isolate_stations (α : Type) (acts : List (WorkerAction α)) :
    ((rdsRun α).run (rdsStart α) acts).2.InOrder ∧
      Accounted ((rdsRun α).run (rdsStart α) acts) ∧
      ((rdsRun α).Meets (fun q => PopsNothingStale q.1) (rdsStart α) acts →
        ((rdsRun α).run (rdsStart α) acts).2.Isolated) ∧
      ((rdsRun α).Meets (fun q => PopsNothingStale q.1) (rdsStart α) acts ↔
        ((rdsRun α).run (rdsStart α) (acts ++ [.worker, .worker])).2.Isolated) := by
  have hord : Orderly ((rdsRun α).run (rdsStart α) acts) :=
    Machine.run_invariant_always orderly_step acts orderly_start
  refine ⟨?_, hord.accounted, ?_, isolated_iff_meets fresh_start marked_start acts⟩
  · have hline := hord.ordered
    rw [lifeline, List.pairwise_append] at hline
    exact hline.1
  · intro hmeets
    exact (Machine.run_invariant fresh_step fresh_start hmeets).isolated

/-- One block is queued when a reset begins; before the queue is cleared
    the worker takes the flag and the block together. -/
theorem reset_then_old_station :
    ¬ ((rdsRun Nat).run (rdsStart Nat) [.start, .enqueue [7], .worker, .resetFlag, .worker,
      .worker, .worker, .resetClear 0]).2.Isolated := by decide

end properties

end FmSdrTuner
