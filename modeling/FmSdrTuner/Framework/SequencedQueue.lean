import Mathlib.Data.List.DropRight
import Mathlib.Data.List.Nodup

/-! # Bounded queues with sequence numbers

    A producer numbers its items and keeps the last `cap` of them; any
    number of consumers read the queue, each with a cursor of its own (the
    number of the last item it has seen). A slow consumer loses what is
    evicted before it reads again, and nothing else:

    * `SequencedQueue.Holds`: the queue against everything ever pushed;
    * `SequencedQueue.Delivered`: a consumer against everything pushed
      since it joined; every item is collected, lost or still to come, and
      none of these twice. -/

namespace FmSdrTuner

/-- The numbered items, oldest first, and the next number. -/
structure SequencedQueue (α : Type*) where
  entries : List (Nat × α)
  nextSeq : Nat
  deriving DecidableEq, Repr

namespace SequencedQueue
variable {α : Type*}

def empty : SequencedQueue α := ⟨[], 1⟩

/-- Number an item and append it, dropping the oldest when the queue is full. -/
def push (cap : Nat) (q : SequencedQueue α) (x : α) : SequencedQueue α where
  entries := (if cap ≤ q.entries.length then q.entries.drop 1 else q.entries) ++ [(q.nextSeq, x)]
  nextSeq := q.nextSeq + 1

/-- Items pushed one after the other. -/
def pushAll (cap : Nat) (q : SequencedQueue α) (xs : List α) : SequencedQueue α :=
  xs.foldl (push cap) q

/-- The number of the newest item, 0 when the queue is empty. -/
def latest (q : SequencedQueue α) : Nat :=
  match q.entries.getLast? with
  | some e => e.1
  | none => 0

/-- A consumer walks the queue: it takes each item above its cursor and
    moves the cursor there. -/
def collectFrom (last : Nat) : List (Nat × α) → List (Nat × α) × Nat
  | [] => ([], last)
  | e :: entries =>
      if last < e.1 then
        let rest := collectFrom e.1 entries
        (e :: rest.1, rest.2)
      else collectFrom last entries

/-- Read the queue, unless the cursor is at the newest item. -/
def collect (q : SequencedQueue α) (last : Nat) : List (Nat × α) × Nat :=
  if last < q.latest then collectFrom last q.entries else ([], last)

/-! ### Everything ever pushed -/

/-- The items with their numbers, from 1 on. -/
def numbered (pushed : List α) : List (Nat × α) := pushed.mapIdx fun i x => (i + 1, x)

@[simp] theorem numbered_nil : numbered ([] : List α) = [] := rfl

@[simp] theorem length_numbered (pushed : List α) : (numbered pushed).length = pushed.length :=
  List.length_mapIdx

theorem numbered_concat (pushed : List α) (x : α) :
    numbered (pushed ++ [x]) = numbered pushed ++ [(pushed.length + 1, x)] :=
  List.mapIdx_concat

theorem getElem_numbered {pushed : List α} {i : Nat} (h : i < (numbered pushed).length) :
    (numbered pushed)[i].1 = i + 1 := by
  simp [numbered]

theorem numbered_ordered (pushed : List α) : (numbered pushed).Pairwise (·.1 < ·.1) := by
  rw [List.pairwise_iff_getElem]
  intro i j hi hj hij
  rw [getElem_numbered hi, getElem_numbered hj]
  omega

theorem nodup_of_ordered {l : List (Nat × α)} (h : l.Pairwise (·.1 < ·.1)) : l.Nodup := by
  apply h.imp
  intro e e' hlt heq
  rw [heq] at hlt
  exact Nat.lt_irrefl _ hlt

theorem seq_le_of_mem_numbered {pushed : List α} {e : Nat × α} (h : e ∈ numbered pushed) :
    e.1 ≤ pushed.length := by
  obtain ⟨i, hi, rfl⟩ := List.getElem_of_mem h
  rw [getElem_numbered hi]
  rw [length_numbered] at hi
  omega

theorem seq_pos_of_mem_numbered {pushed : List α} {e : Nat × α} (h : e ∈ numbered pushed) :
    0 < e.1 := by
  obtain ⟨i, hi, rfl⟩ := List.getElem_of_mem h
  rw [getElem_numbered hi]
  omega

/-- What is behind the first `k` items. -/
theorem mem_drop_numbered {pushed : List α} {k : Nat} {e : Nat × α} :
    e ∈ (numbered pushed).drop k ↔ e ∈ numbered pushed ∧ k < e.1 := by
  constructor
  · intro h
    obtain ⟨i, hi, rfl⟩ := List.getElem_of_mem h
    rw [List.getElem_drop]
    rw [List.length_drop] at hi
    exact ⟨List.getElem_mem _, by rw [getElem_numbered]; omega⟩
  · rintro ⟨h, hk⟩
    obtain ⟨i, hi, rfl⟩ := List.getElem_of_mem h
    rw [getElem_numbered hi] at hk
    rw [List.mem_drop_iff_getElem]
    exact ⟨i - k, by omega, by simp [show k + (i - k) = i by omega]⟩

/-! ### The queue -/

/-- The queue holds the last `cap` of the items pushed. -/
structure Holds (cap : Nat) (q : SequencedQueue α) (pushed : List α) : Prop where
  nextSeq_eq : q.nextSeq = pushed.length + 1
  entries_eq : q.entries = (numbered pushed).rtake cap

namespace Holds
variable {cap : Nat} {q : SequencedQueue α} {pushed : List α}

theorem empty (cap : Nat) : Holds cap (SequencedQueue.empty : SequencedQueue α) [] where
  nextSeq_eq := rfl
  entries_eq := by simp [SequencedQueue.empty]

theorem length_entries (h : q.Holds cap pushed) : q.entries.length = min cap pushed.length := by
  rw [h.entries_eq]
  simp only [List.rtake, List.length_drop, length_numbered]
  omega

theorem push (hcap : 0 < cap) (h : q.Holds cap pushed) (x : α) :
    (q.push cap x).Holds cap (pushed ++ [x]) := by
  constructor
  · rw [List.length_append, List.length_singleton, ← h.nextSeq_eq]
    rfl
  · have hlen := h.length_entries
    have hkept : (if cap ≤ q.entries.length then q.entries.drop 1 else q.entries) =
        (numbered pushed).drop (pushed.length + 1 - cap) := by
      split
      · rw [h.entries_eq, List.rtake, List.drop_drop, length_numbered]
        congr 1
        omega
      · rw [h.entries_eq, List.rtake, length_numbered]
        congr 1
        omega
    show _ ++ [(q.nextSeq, x)] = _
    rw [hkept, numbered_concat, h.nextSeq_eq, List.rtake]
    rw [List.drop_append_of_le_length (by simp; omega)]
    congr 2
    simp

theorem pushAll (hcap : 0 < cap) (h : q.Holds cap pushed) (xs : List α) :
    (q.pushAll cap xs).Holds cap (pushed ++ xs) := by
  induction xs generalizing q pushed with
  | nil => simpa [SequencedQueue.pushAll] using h
  | cons x xs ih =>
    have hnext := ih (h.push hcap x)
    rwa [List.append_assoc] at hnext

/-- An item is in the queue as long as fewer than `cap` have followed it. -/
theorem mem_entries (h : q.Holds cap pushed) {e : Nat × α} :
    e ∈ q.entries ↔ e ∈ numbered pushed ∧ pushed.length - cap < e.1 := by
  rw [h.entries_eq, List.rtake, length_numbered]
  exact mem_drop_numbered

theorem ordered (h : q.Holds cap pushed) : q.entries.Pairwise (·.1 < ·.1) := by
  rw [h.entries_eq]
  exact (numbered_ordered pushed).sublist (List.drop_sublist _ _)

theorem latest_eq (hcap : 0 < cap) (h : q.Holds cap pushed) : q.latest = pushed.length := by
  have hlen := h.length_entries
  unfold latest
  cases hlast : q.entries.getLast? with
  | none =>
    rw [List.getLast?_eq_none_iff] at hlast
    rw [hlast, List.length_nil] at hlen
    show 0 = _
    omega
  | some e =>
    rw [List.getLast?_eq_getElem?, List.getElem?_eq_some_iff] at hlast
    obtain ⟨hlt, rfl⟩ := hlast
    simp only [h.entries_eq, List.rtake, List.getElem_drop]
    rw [getElem_numbered]
    simp only [List.length_drop, length_numbered]
    omega

end Holds

/-! ### Reading -/

/-- On items in order, the walk takes what is above the cursor. -/
theorem collectFrom_items {l : List (Nat × α)} (h : l.Pairwise (·.1 < ·.1)) (last : Nat) :
    (collectFrom last l).1 = l.filter (last < ·.1) := by
  induction l generalizing last with
  | nil => rfl
  | cons e l ih =>
    obtain ⟨hhead, htail⟩ := List.pairwise_cons.mp h
    by_cases hlt : last < e.1
    · -- everything that follows is above both cursors
      have hall : ∀ k ≤ e.1, l.filter (k < ·.1) = l := by
        intro k hk
        rw [List.filter_eq_self]
        intro e' he'
        exact decide_eq_true (Nat.lt_of_le_of_lt hk (hhead e' he'))
      simp only [collectFrom, if_pos hlt]
      rw [ih htail, hall e.1 (Nat.le_refl _), List.filter_cons_of_pos (by simpa using hlt),
        hall last (Nat.le_of_lt hlt)]
    · simp only [collectFrom, if_neg hlt]
      rw [ih htail, List.filter_cons_of_neg (by simpa using hlt)]

/-- The cursor ends at the highest number. -/
theorem collectFrom_cursor {l : List (Nat × α)} {n : Nat} (hle : ∀ e ∈ l, e.1 ≤ n) {last : Nat}
    (hlast : last ≤ n) (hmem : last = n ∨ ∃ e ∈ l, e.1 = n) : (collectFrom last l).2 = n := by
  induction l generalizing last with
  | nil =>
    rcases hmem with heq | ⟨e, he, -⟩
    · exact heq
    · exact absurd he List.not_mem_nil
  | cons e l ih =>
    have htail : ∀ e' ∈ l, e'.1 ≤ n := fun e' he' => hle e' (List.mem_cons_of_mem _ he')
    have hhead := hle e List.mem_cons_self
    by_cases hlt : last < e.1
    · simp only [collectFrom, if_pos hlt]
      apply ih htail hhead
      rcases hmem with heq | ⟨e', he', heq⟩
      · omega
      · rcases List.mem_cons.mp he' with rfl | hin
        · exact Or.inl heq
        · exact Or.inr ⟨e', hin, heq⟩
    · simp only [collectFrom, if_neg hlt]
      apply ih htail hlast
      rcases hmem with heq | ⟨e', he', heq⟩
      · exact Or.inl heq
      · rcases List.mem_cons.mp he' with rfl | hin
        · exact Or.inl (by omega)
        · exact Or.inr ⟨e', hin, heq⟩

/-- A consumer that reads the queue takes every item above its cursor that
    is still there, and has then seen the newest. -/
theorem Holds.collect_eq {cap : Nat} {q : SequencedQueue α} {pushed : List α} (hcap : 0 < cap)
    (h : q.Holds cap pushed) {last : Nat} (hlast : last ≤ pushed.length) :
    q.collect last = (q.entries.filter (last < ·.1), pushed.length) := by
  have hlatest := h.latest_eq hcap
  have hle : ∀ e ∈ q.entries, e.1 ≤ pushed.length :=
    fun e he => seq_le_of_mem_numbered (h.mem_entries.mp he).1
  unfold collect
  by_cases hlt : last < q.latest
  · have hnewest : ∃ e ∈ q.entries, e.1 = pushed.length := by
      -- the last item pushed is never evicted
      have hlong : pushed.length - 1 < (numbered pushed).length := by
        rw [length_numbered]
        omega
      refine ⟨(numbered pushed)[pushed.length - 1], ?_, ?_⟩
      · rw [h.mem_entries, getElem_numbered hlong]
        exact ⟨List.getElem_mem _, by omega⟩
      · rw [getElem_numbered hlong]
        omega
    rw [if_pos hlt]
    exact Prod.ext (collectFrom_items h.ordered last)
      (collectFrom_cursor hle hlast (Or.inr hnewest))
  · have hnone : q.entries.filter (last < ·.1) = [] := by
      rw [List.filter_eq_nil_iff]
      intro e he
      -- no number in the queue is above the cursor
      have := hle e he
      simp only [decide_eq_true_eq]
      omega
    rw [if_neg hlt, hnone]
    exact Prod.ext rfl (show last = _ by omega)

/-- What a consumer takes is part of the queue. -/
theorem collectFrom_sublist (last : Nat) (l : List (Nat × α)) : (collectFrom last l).1.Sublist l := by
  induction l generalizing last with
  | nil => exact .slnil
  | cons e l ih =>
    by_cases hlt : last < e.1
    · simp only [collectFrom, if_pos hlt]
      exact (ih e.1).cons_cons e
    · simp only [collectFrom, if_neg hlt]
      exact (ih last).cons e

theorem Holds.length_collect_le {cap : Nat} {q : SequencedQueue α} {pushed : List α}
    (h : q.Holds cap pushed) (last : Nat) : (q.collect last).1.length ≤ cap := by
  have hlen := h.length_entries
  unfold collect
  split
  · have hle := (collectFrom_sublist last q.entries).length_le
    omega
  · exact Nat.zero_le _

/-! ### Consumers -/

/-- A consumer joined when `joined` items had been pushed, its cursor is at
    `cursor`, it has collected `collected` and lost `lost`. -/
structure Delivered (pushed : List α) (joined cursor : Nat)
    (collected lost : List (Nat × α)) : Prop where
  joined_le : joined ≤ cursor
  cursor_le : cursor ≤ pushed.length
  ordered : collected.Pairwise (·.1 < ·.1)
  /-- The books balance: what was pushed between the two is in one of the
      two lists, once. -/
  accounted : (collected ++ lost).Perm
    ((numbered pushed).filter fun e => joined < e.1 ∧ e.1 ≤ cursor)

/-- What a consumer at `cursor` loses when it reads the queue now: the items
    above its cursor that are no longer there. -/
def missed [DecidableEq α] (q : SequencedQueue α) (pushed : List α) (cursor : Nat) :
    List (Nat × α) :=
  (numbered pushed).filter fun e => cursor < e.1 ∧ e ∉ q.entries

/-- What is missed has been evicted: `cap` items at least have followed it. -/
theorem Holds.evicted_of_missed [DecidableEq α] {cap : Nat} {q : SequencedQueue α}
    {pushed : List α} (h : q.Holds cap pushed) {cursor : Nat} {e : Nat × α}
    (he : e ∈ q.missed pushed cursor) : e.1 + cap ≤ pushed.length := by
  obtain ⟨hmem, hout⟩ := List.mem_filter.mp he
  simp only [decide_eq_true_eq] at hout
  have hpos := seq_pos_of_mem_numbered hmem
  by_contra hlt
  exact hout.2 (h.mem_entries.mpr ⟨hmem, by omega⟩)

/-- What is above the cursor is in the queue or missed. -/
theorem Holds.above_cursor_perm [DecidableEq α] {cap : Nat} {q : SequencedQueue α}
    {pushed : List α} (h : q.Holds cap pushed) (cursor : Nat) :
    (q.entries.filter (cursor < ·.1) ++ q.missed pushed cursor).Perm
      ((numbered pushed).filter (cursor < ·.1)) := by
  have hnodup := nodup_of_ordered (numbered_ordered pushed)
  have hentries := nodup_of_ordered h.ordered
  have hboth : (q.entries.filter (cursor < ·.1) ++ q.missed pushed cursor).Nodup := by
    apply List.Nodup.append (hentries.filter _) (hnodup.filter _)
    intro e he hmissed
    have hout := (List.mem_filter.mp hmissed).2
    simp only [decide_eq_true_eq] at hout
    exact hout.2 (List.mem_filter.mp he).1
  rw [List.perm_ext_iff_of_nodup hboth (hnodup.filter _)]
  intro e
  have hin : e ∈ q.entries → e ∈ numbered pushed := fun he => (h.mem_entries.mp he).1
  simp only [missed, List.mem_append, List.mem_filter, decide_eq_true_eq]
  by_cases he : e ∈ q.entries
  · simp [he, hin he]
  · simp [he]

/-- The items behind a cursor and those above it. -/
theorem filter_cursor_perm (pushed : List α) {joined cursor : Nat} (h : joined ≤ cursor) :
    ((numbered pushed).filter (fun e => joined < e.1 ∧ e.1 ≤ cursor) ++
      (numbered pushed).filter (cursor < ·.1)).Perm
      ((numbered pushed).filter fun e => joined < e.1 ∧ e.1 ≤ pushed.length) := by
  have hnodup := nodup_of_ordered (numbered_ordered pushed)
  have hboth : ((numbered pushed).filter (fun e => joined < e.1 ∧ e.1 ≤ cursor) ++
      (numbered pushed).filter (cursor < ·.1)).Nodup := by
    apply List.Nodup.append (hnodup.filter _) (hnodup.filter _)
    intro e he he'
    have hle := (List.mem_filter.mp he).2
    have hlt := (List.mem_filter.mp he').2
    simp only [decide_eq_true_eq] at hle hlt
    omega
  rw [List.perm_ext_iff_of_nodup hboth (hnodup.filter _)]
  intro e
  simp only [List.mem_append, List.mem_filter, decide_eq_true_eq]
  constructor
  · rintro (⟨he, hj, -⟩ | ⟨he, hc⟩)
    · exact ⟨he, hj, seq_le_of_mem_numbered he⟩
    · exact ⟨he, by omega, seq_le_of_mem_numbered he⟩
  · rintro ⟨he, hj, -⟩
    by_cases hc : e.1 ≤ cursor
    · exact Or.inl ⟨he, hj, hc⟩
    · exact Or.inr ⟨he, by omega⟩

namespace Delivered
variable {pushed : List α} {joined cursor : Nat} {collected lost : List (Nat × α)}

theorem join (pushed : List α) : Delivered pushed pushed.length pushed.length [] [] where
  joined_le := Nat.le_refl _
  cursor_le := Nat.le_refl _
  ordered := List.Pairwise.nil
  accounted := by
    rw [List.append_nil, List.filter_eq_nil_iff.mpr]
    intro e _
    simp only [decide_eq_true_eq]
    omega

/-- A new item is above every cursor. -/
theorem push (h : Delivered pushed joined cursor collected lost) (x : α) :
    Delivered (pushed ++ [x]) joined cursor collected lost where
  joined_le := h.joined_le
  cursor_le := by
    have := h.cursor_le
    simp only [List.length_append, List.length_singleton]
    omega
  ordered := h.ordered
  accounted := by
    have hle := h.cursor_le
    have hnew : ¬(joined < pushed.length + 1 ∧ pushed.length + 1 ≤ cursor) := by omega
    have hnone : [(pushed.length + 1, x)].filter (fun e => joined < e.1 ∧ e.1 ≤ cursor) = [] := by
      rw [List.filter_eq_nil_iff]
      intro e he
      rw [List.mem_singleton.mp he, decide_eq_true_iff]
      exact hnew
    rw [numbered_concat, List.filter_append, hnone, List.append_nil]
    exact h.accounted

theorem pushAll (h : Delivered pushed joined cursor collected lost) (xs : List α) :
    Delivered (pushed ++ xs) joined cursor collected lost := by
  induction xs generalizing pushed with
  | nil => rwa [List.append_nil]
  | cons x xs ih =>
    have hnext := ih (h.push x)
    rwa [List.append_assoc] at hnext

theorem collect [DecidableEq α] {cap : Nat} {q : SequencedQueue α} (hq : q.Holds cap pushed)
    (h : Delivered pushed joined cursor collected lost) :
    Delivered pushed joined pushed.length (collected ++ q.entries.filter (cursor < ·.1))
      (lost ++ q.missed pushed cursor) where
  joined_le := Nat.le_trans h.joined_le h.cursor_le
  cursor_le := Nat.le_refl _
  ordered := by
    rw [List.pairwise_append]
    refine ⟨h.ordered, hq.ordered.filter _, ?_⟩
    intro e he e' he'
    have hseen : e.1 ≤ cursor := by
      have hmem := h.accounted.subset (List.mem_append_left lost he)
      simp only [List.mem_filter, decide_eq_true_eq] at hmem
      exact hmem.2.2
    have hnew : cursor < e'.1 := by simpa using (List.mem_filter.mp he').2
    omega
  accounted := by
    have hnew := hq.above_cursor_perm cursor
    have hall := filter_cursor_perm pushed h.joined_le
    -- what is above the cursor is either in the queue or lost
    have hswap : (collected ++ q.entries.filter (cursor < ·.1) ++
        (lost ++ q.missed pushed cursor)).Perm
        ((collected ++ lost) ++ (q.entries.filter (cursor < ·.1) ++ q.missed pushed cursor)) := by
      simp only [List.append_assoc]
      exact (List.perm_append_comm_assoc _ _ _).append_left collected
    exact hswap.trans ((h.accounted.append hnew).trans hall)

end Delivered

/-- Nothing is missed while at most `cap` items were pushed since the
    cursor. -/
theorem Holds.missed_eq_nil [DecidableEq α] {cap : Nat} {q : SequencedQueue α} {pushed : List α}
    (h : q.Holds cap pushed) {cursor : Nat} (hfew : pushed.length - cursor ≤ cap) :
    q.missed pushed cursor = [] := by
  unfold missed
  rw [List.filter_eq_nil_iff]
  intro e he
  simp only [decide_eq_true_eq, not_and, not_not]
  intro hlt
  exact h.mem_entries.mpr ⟨he, by omega⟩

end SequencedQueue

end FmSdrTuner
