import FmSdrTuner.XdrServer.Session

/-! # One line from an unauthenticated peer

    `recvLine` reads the handshake and the authentication line byte by
    byte. What it accepts is exact. Its bound is on the stored line, and
    carriage returns are not stored: a peer that sends nothing else keeps
    it reading. -/

namespace FmSdrTuner

/-! ### What is read -/

/-- The bytes that are stored. -/
def storedBytes (t : Text) : Text := t.filter (· ≠ '\r')

/-- The number of bytes that `recvLine` takes from the stream. -/
def bytesRead (maxLen : Nat) (line stream : Text) : Nat :=
  stream.length - (recvLine maxLen line stream).2.length

/-- `line` is the first line of the stream, without its carriage returns
    and shorter than `maxLen`, and `rest` is what follows it. -/
def IsFirstLine (maxLen : Nat) (stream line rest : Text) : Prop :=
  ∃ u, stream = u ++ '\n' :: rest ∧ '\n' ∉ u ∧ line = storedBytes u ∧ line.length < maxLen

/-- The line received is the first line of the stream, consumed to its end
    and no further, or there is none; and no more than `bound` bytes are
    read. -/
def ExactAndBounded (maxLen bound : Nat) (stream : Text) : Prop :=
  (∀ line rest, recvLine maxLen [] stream = (some line, rest) ↔
      IsFirstLine maxLen stream line rest) ∧
    bytesRead maxLen [] stream ≤ bound

/-- The stream, its first line, or the line to be stored ends within
    `bound` bytes. -/
def EndsWithin (maxLen bound : Nat) (stream : Text) : Prop :=
  stream.length ≤ bound ∨ '\n' ∈ stream.take bound ∨
    maxLen ≤ (storedBytes (stream.take bound)).length

/-! ### One byte -/

variable {maxLen : Nat} {line stream : Text}

theorem recvLine_newline (hlen : line.length < maxLen) :
    recvLine maxLen line ('\n' :: stream) = (some line, stream) := by
  rw [recvLine, if_pos hlen, if_pos rfl]

/-- A byte that does not end the line is stored, or dropped. -/
theorem recvLine_cons {ch : Char} (hlen : line.length < maxLen) (hch : ch ≠ '\n') :
    recvLine maxLen line (ch :: stream) = recvLine maxLen (line ++ storedBytes [ch]) stream := by
  rw [recvLine, if_pos hlen, if_neg hch]
  by_cases hcr : ch = '\r'
  · rw [if_neg (not_not_intro hcr), hcr]
    simp [storedBytes]
  · rw [if_pos hcr]
    simp [storedBytes, hcr]

theorem recvLine_full {t : Text} (hlen : ¬ line.length < maxLen) :
    recvLine maxLen line t = (none, t) := by
  cases t with
  | nil => rfl
  | cons ch t => rw [recvLine, if_neg hlen]

theorem storedBytes_cons (ch : Char) (t : Text) :
    storedBytes (ch :: t) = storedBytes [ch] ++ storedBytes t := by
  rw [storedBytes, storedBytes, storedBytes, ← List.filter_append, List.singleton_append]

theorem length_recvLine_le : (recvLine maxLen line stream).2.length ≤ stream.length := by
  induction stream generalizing line with
  | nil => exact Nat.le_refl 0
  | cons ch stream ih =>
    by_cases hlen : line.length < maxLen
    · by_cases hch : ch = '\n'
      · rw [hch, recvLine_newline hlen]
        exact Nat.le_succ _
      · rw [recvLine_cons hlen hch]
        exact Nat.le_succ_of_le ih
    · have hfull : recvLine maxLen line (ch :: stream) = (none, ch :: stream) := recvLine_full hlen
      exact Nat.le_of_eq (congrArg (fun r => r.2.length) hfull)

/-! ### Exactness -/

/-- What is received is what was stored before and the rest of the line. -/
theorem recvLine_eq_some_iff {received rest : Text} :
    recvLine maxLen line stream = (some received, rest) ↔
      ∃ u, stream = u ++ '\n' :: rest ∧ '\n' ∉ u ∧ received = line ++ storedBytes u ∧
        received.length < maxLen := by
  induction stream generalizing line with
  | nil =>
    constructor
    · intro h
      cases h
    · rintro ⟨u, hu, -⟩
      simp at hu
  | cons ch stream ih =>
    by_cases hlen : line.length < maxLen
    · by_cases hch : ch = '\n'
      · -- the line ends here
        subst hch
        rw [recvLine_newline hlen]
        constructor
        · intro h
          cases h
          exact ⟨[], rfl, List.not_mem_nil, (List.append_nil _).symm, hlen⟩
        · rintro ⟨u, hu, hnot, hreceived, -⟩
          cases u with
          | nil =>
            cases hu
            rw [hreceived]
            exact congrArg (fun l => (some l, _)) (List.append_nil line).symm
          | cons d u =>
            obtain ⟨rfl, -⟩ := List.cons.inj hu
            exact absurd List.mem_cons_self hnot
      · -- the character is dropped or stored, and the line goes on
        rw [recvLine_cons hlen hch, ih]
        constructor
        · rintro ⟨u, rfl, hnot, hreceived, hshort⟩
          refine ⟨ch :: u, rfl, ?_, ?_, hshort⟩
          · exact fun hmem => (List.mem_cons.mp hmem).elim (fun h => hch h.symm) hnot
          · rw [hreceived, storedBytes_cons ch u, List.append_assoc]
        · rintro ⟨u, hu, hnot, hreceived, hshort⟩
          cases u with
          | nil => exact absurd (List.cons.inj hu).1 hch
          | cons d u =>
            obtain ⟨rfl, hrest⟩ := List.cons.inj hu
            refine ⟨u, hrest, fun hmem => hnot (List.mem_cons_of_mem _ hmem), ?_, hshort⟩
            rw [hreceived, storedBytes_cons ch u, List.append_assoc]
    · -- the line is full already
      rw [recvLine_full hlen]
      constructor
      · intro h
        cases h
      · rintro ⟨u, -, -, hreceived, hshort⟩
        rw [hreceived, List.length_append] at hshort
        omega

/-! ### Boundedness -/

/-- The bytes read are bounded where the stream, the line, or what is
    stored of it ends. -/
theorem bytesRead_le_iff (bound : Nat) :
    bytesRead maxLen line stream ≤ bound ↔
      stream.length ≤ bound ∨ '\n' ∈ stream.take bound ∨
        maxLen ≤ line.length + (storedBytes (stream.take bound)).length := by
  induction stream generalizing line bound with
  | nil => simp [bytesRead]
  | cons ch stream ih =>
    by_cases hlen : line.length < maxLen
    · by_cases hch : ch = '\n'
      · subst hch
        rw [bytesRead, recvLine_newline hlen, List.length_cons, Nat.add_sub_cancel_left]
        cases bound with
        | zero => simp [storedBytes, hlen]
        | succ bound => simp
      · have hcount : bytesRead maxLen line (ch :: stream) =
            bytesRead maxLen (line ++ storedBytes [ch]) stream + 1 := by
          rw [bytesRead, bytesRead, recvLine_cons hlen hch, List.length_cons]
          have hle := @length_recvLine_le maxLen (line ++ storedBytes [ch]) stream
          omega
        rw [hcount]
        cases bound with
        | zero => simp [storedBytes, hlen]
        | succ bound =>
          rw [Nat.succ_le_succ_iff, ih, List.take_succ_cons,
            storedBytes_cons ch (stream.take bound)]
          simp only [List.length_append, List.length_cons, List.mem_cons, Nat.succ_le_succ_iff,
            Nat.add_assoc, Ne.symm hch, false_or]
    · have hnone : bytesRead maxLen line (ch :: stream) = 0 := by
        rw [bytesRead, recvLine_full hlen, Nat.sub_self]
      rw [hnone]
      exact ⟨fun _ => Or.inr (Or.inr (by omega)), fun _ => Nat.zero_le _⟩

/-! ### Main result -/

/-- `recvLine` is exact on every stream, and bounded exactly on those whose
    first bytes end the line or fill it. -/
theorem recvLine_exactAndBounded_iff (maxLen bound : Nat) (stream : Text) :
    ExactAndBounded maxLen bound stream ↔ EndsWithin maxLen bound stream := by
  have hexact : ∀ line rest, recvLine maxLen [] stream = (some line, rest) ↔
      IsFirstLine maxLen stream line rest := fun line rest => recvLine_eq_some_iff
  have hbound := @bytesRead_le_iff maxLen [] stream bound
  rw [List.length_nil, Nat.zero_add] at hbound
  exact ⟨fun h => hbound.mp h.2, fun h => ⟨hexact, hbound.mpr h⟩⟩

/-- No bound holds for every stream: carriage returns are read for ever. -/
theorem recvLine_unbounded :
    ¬ ∃ bound : Nat → Nat, ∀ maxLen, 0 < maxLen → ∀ stream : Text,
      bytesRead maxLen [] stream ≤ bound maxLen := by
  rintro ⟨bound, hbound⟩
  have hflood := hbound 16 (by decide) (List.replicate (bound 16 + 1) '\r')
  rcases (bytesRead_le_iff _).mp hflood with h | h | h
  · rw [List.length_replicate] at h
    omega
  · rw [List.take_replicate] at h
    exact absurd (List.eq_of_mem_replicate h) (by decide)
  · have hnone : storedBytes ((List.replicate (bound 16 + 1) '\r').take (bound 16)) = [] := by
      rw [List.take_replicate, storedBytes, List.filter_replicate]
      rfl
    rw [hnone] at h
    exact absurd h (by decide)

end FmSdrTuner
