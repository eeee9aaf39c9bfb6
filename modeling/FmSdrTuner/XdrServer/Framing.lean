import Mathlib.Data.List.TakeWhile
import FmSdrTuner.Text.Lines
import FmSdrTuner.XdrServer.Session

/-! # XDRServer: framing and segmentation

    The command loops cut lines out of whatever pieces `recv` returns. A
    piece is appended to the buffer as a C string, so of a piece with a NUL
    byte the rest is lost; apart from that the lines are those of the
    stream, cut at its newlines, whatever the pieces. Hence the lines
    depend on the segmentation exactly when it matters what is lost. -/

namespace FmSdrTuner

/-! ### Pieces -/

/-- The schedule splits the stream into pieces of 1 to 255 bytes, with
    receives that time out between them. -/
def SplitsStream : Text → List RecvStep → Prop
  | stream, [] => stream = []
  | stream, .data k :: schedule =>
      stream ≠ [] ∧ SplitsStream (stream.drop (min (k + 1) 255)) schedule
  | stream, .idle sendOk :: schedule => sendOk = true ∧ SplitsStream stream schedule
  | _, .error :: _ => False

instance decidableSplitsStream :
    ∀ stream schedule, Decidable (SplitsStream stream schedule)
  | stream, [] => inferInstanceAs (Decidable (stream = []))
  | stream, .data k :: schedule =>
      have := decidableSplitsStream (stream.drop (min (k + 1) 255)) schedule
      inferInstanceAs (Decidable (_ ∧ _))
  | stream, .idle _ :: schedule =>
      have := decidableSplitsStream stream schedule
      inferInstanceAs (Decidable (_ ∧ _))
  | _, .error :: _ => isFalse id

/-- What `command += cmdBuffer` appends of a piece. -/
def cString (piece : Text) : Text := piece.takeWhile (· ≠ '\x00')

/-- What reaches the buffer of a stream that is split by the schedule. -/
def surviving : Text → List RecvStep → Text
  | _, [] => []
  | stream, .data k :: schedule =>
      cString (stream.take (min (k + 1) 255)) ++
        surviving (stream.drop (min (k + 1) 255)) schedule
  | stream, _ :: schedule => surviving stream schedule

/-! ### Draining a buffer -/

theorem drain_append {σ : Type} {handle : σ → Text → σ × Bool} {line : Text} (h : '\n' ∉ line)
    (pre : Text) (session : σ) (rest : Text) :
    drain handle pre session (line ++ rest) = drain handle (pre ++ line) session rest := by
  induction line generalizing pre with
  | nil => rw [List.nil_append, List.append_nil]
  | cons c line ih =>
    have hc : c ≠ '\n' := by
      rintro rfl
      exact h List.mem_cons_self
    have hline : '\n' ∉ line := fun hmem => h (List.mem_cons_of_mem _ hmem)
    rw [List.cons_append, drain, if_neg hc, ih hline, List.append_assoc, List.singleton_append]

/-- The lines of a text as they are handed to the command processors. -/
def commandLines (t : Text) : List Text :=
  (handedLines kMaxClientCommandLen t).map dropTrailingCR

/-- Draining hands over the lines of the buffer; it ends the loop only at a
    line that is too long. -/
theorem drain_lines (text : Text) (lines : List Text) :
    let drained := drain noteLine [] lines text
    drained.2.2 = lines ++ commandLines text ∧
    (drained.1 = .running → drained.2.1 = lastLine text ∧
      (Oversized kMaxClientCommandLen text ↔
        kMaxClientCommandLen < (lastLine text).length)) ∧
    (drained.1 ≠ .running → Oversized kMaxClientCommandLen text) := by
  induction text using line_induction generalizing lines with
  | unterminated line h =>
    have hdrain : drain noteLine [] lines line = (.running, line, lines) := by
      have hall : drain noteLine [] lines (line ++ []) = drain noteLine ([] ++ line) lines [] :=
        drain_append h [] lines []
      rwa [List.append_nil, List.nil_append] at hall
    simp only [hdrain, commandLines, handedLines_unterminated h, lastLine_unterminated h,
      oversized_unterminated h]
    simp
  | terminated line t h ih =>
    have hdrain : drain noteLine [] lines (line ++ '\n' :: t) =
        drain noteLine line lines ('\n' :: t) := by
      rw [drain_append h, List.nil_append]
    by_cases hlong : kMaxClientCommandLen < line.length
    · have hrefused : drain noteLine line lines ('\n' :: t) =
          (.returned, line ++ '\n' :: t, lines) := by
        rw [drain, if_pos rfl, if_pos hlong]
      rw [hdrain, hrefused]
      simp only [commandLines, handedLines_terminated h, if_neg (Nat.not_le.mpr hlong),
        oversized_terminated h]
      simp [hlong]
    · have hgo : drain noteLine line lines ('\n' :: t) =
          drain noteLine [] (lines ++ [dropTrailingCR line]) t := by
        rw [drain, if_pos rfl, if_neg hlong]
        rfl
      obtain ⟨hlines, hrunning, hended⟩ := ih (lines ++ [dropTrailingCR line])
      rw [hdrain, hgo]
      simp only [commandLines, handedLines_terminated h, if_pos (Nat.not_lt.mp hlong),
        oversized_terminated h, lastLine_terminated h, hlong, false_or]
      refine ⟨?_, hrunning, hended⟩
      rw [hlines]
      simp [commandLines]

/-! ### The overflow check -/

theorem firstLine_unterminated {line : Text} (h : '\n' ∉ line) :
    line.takeWhile (· ≠ '\n') = line := by
  have hall : ∀ c ∈ line, decide (c ≠ '\n') = true := by
    intro c hc
    have hne : c ≠ '\n' := fun heq => h (heq ▸ hc)
    simpa using hne
  exact List.takeWhile_eq_self_iff.mpr hall

theorem firstLine_terminated {line : Text} (h : '\n' ∉ line) (t : Text) :
    (line ++ '\n' :: t).takeWhile (· ≠ '\n') = line := by
  have hall : ∀ c ∈ line, decide (c ≠ '\n') = true := by
    intro c hc
    have hne : c ≠ '\n' := fun heq => h (heq ▸ hc)
    simpa using hne
  rw [List.takeWhile_append_of_pos hall]
  simp

/-- The check before draining refuses a buffer whose first line is too long. -/
theorem commandBufferOverflowed_iff (t : Text) :
    commandBufferOverflowed t = true ↔
      kMaxClientCommandLen < (t.takeWhile (· ≠ '\n')).length := by
  unfold commandBufferOverflowed
  exact decide_eq_true_iff

theorem overflowed_lines {t : Text} (h : commandBufferOverflowed t = true) :
    Oversized kMaxClientCommandLen t ∧ commandLines t = [] := by
  rw [commandBufferOverflowed_iff] at h
  unfold commandLines
  by_cases hmem : '\n' ∈ t
  · obtain ⟨line, rest, rfl, hline⟩ := List.eq_append_cons_of_mem hmem
    rw [firstLine_terminated hline] at h
    rw [oversized_terminated hline, handedLines_terminated hline, if_neg (by omega)]
    exact ⟨Or.inl h, rfl⟩
  · rw [firstLine_unterminated hmem] at h
    rw [oversized_unterminated hmem, handedLines_unterminated hmem]
    exact ⟨h, rfl⟩

/-- After the check the last line of the buffer is short: it is the whole
    buffer, or part of the last piece. -/
theorem lastLine_le {command piece : Text} (hcommand : '\n' ∉ command)
    (hpiece : piece.length ≤ 255)
    (h : ¬commandBufferOverflowed (command ++ piece) = true) :
    (lastLine (command ++ piece)).length ≤ kMaxClientCommandLen := by
  have hmax : kMaxClientCommandLen = 1024 := rfl
  rw [commandBufferOverflowed_iff, Nat.not_lt] at h
  by_cases hmem : '\n' ∈ piece
  · obtain ⟨a, b, rfl, ha⟩ := List.eq_append_cons_of_mem hmem
    have hfirst : '\n' ∉ command ++ a := by
      simp [hcommand, ha]
    have hle := length_lastLine_le b
    rw [← List.append_assoc, lastLine_terminated hfirst]
    rw [List.length_append, List.length_cons] at hpiece
    omega
  · have hall : '\n' ∉ command ++ piece := by simp [hcommand, hmem]
    rw [firstLine_unterminated hall] at h
    rwa [lastLine_unterminated hall]

/-! ### The loop -/

/-- The loop has read `received` of the stream and has `rest` before it. -/
structure LoopRead (loop : CommandLoop (List Text)) (received rest : Text) : Prop where
  lines : loop.session = commandLines received
  running : loop.status = .running →
    loop.command = lastLine received ∧ loop.stream = rest ∧
      ¬Oversized kMaxClientCommandLen received
  ended : loop.status ≠ .running → Oversized kMaxClientCommandLen received

/-- A piece is read, or the loop has ended and its text no longer matters. -/
theorem LoopRead.data {loop : CommandLoop (List Text)} {received rest : Text}
    (h : LoopRead loop received rest) (hrest : rest ≠ []) (k : Nat) :
    LoopRead (loop.step noteLine (.data k))
      (received ++ cString (rest.take (min (k + 1) 255))) (rest.drop (min (k + 1) 255)) := by
  have hsplit : ∀ piece, ¬Oversized kMaxClientCommandLen received →
      commandLines (received ++ piece) =
        commandLines received ++ commandLines (lastLine received ++ piece) := by
    intro piece hshort
    unfold commandLines
    rw [handedLines_append hshort, List.map_append]
  cases hstatus : loop.status with
  | running =>
    obtain ⟨hcommand, hstream, hshort⟩ := h.running hstatus
    have hsome : (rest.take (min (k + 1) 255)).isEmpty = false := by
      cases rest with
      | nil => exact absurd rfl hrest
      | cons c rest => rw [show min (k + 1) 255 = min k 254 + 1 by omega]; rfl
    generalize hpiece : cString (rest.take (min (k + 1) 255)) = piece
    have hlen : piece.length ≤ 255 := by
      have htake : (rest.take (min (k + 1) 255)).length ≤ 255 := by
        rw [List.length_take]
        omega
      have hprefix := (List.takeWhile_prefix (· ≠ '\x00')
        (l := rest.take (min (k + 1) 255))).length_le
      rw [← hpiece]
      exact Nat.le_trans hprefix htake
    unfold CommandLoop.step
    simp only [hstatus, hcommand, hstream, hsome, Bool.false_eq_true, if_false]
    rw [show (rest.take (min (k + 1) 255)).takeWhile (· ≠ '\x00') = piece from hpiece]
    by_cases hover : commandBufferOverflowed (lastLine received ++ piece) = true
    · rw [if_pos hover]
      obtain ⟨hlong, hnone⟩ := overflowed_lines hover
      -- the loop leaves, and the piece has not completed a line
      refine ⟨?_, fun hrun => by simp at hrun, fun _ => (oversized_append hshort piece).mpr hlong⟩
      rw [hsplit piece hshort, hnone, List.append_nil]
      exact h.lines
    · rw [if_neg hover]
      have hlast := lastLine_le (newline_not_mem_lastLine received) hlen hover
      -- the lines of the piece are handed over, the first one completed
      obtain ⟨hlines, hrunning, hended⟩ :=
        drain_lines (lastLine received ++ piece) loop.session
      refine ⟨?_, ?_, ?_⟩
      · rw [hsplit piece hshort, ← h.lines]
        exact hlines
      · intro hrun
        obtain ⟨hcmd, hlong⟩ := hrunning hrun
        refine ⟨hcmd.trans (lastLine_append received piece).symm, rfl, ?_⟩
        rw [oversized_append hshort, hlong]
        omega
      · intro hstop
        exact (oversized_append hshort piece).mpr (hended hstop)
  | left | returned =>
    have hlong : Oversized kMaxClientCommandLen received := h.ended (by simp [hstatus])
    -- the loop has ended: whatever follows, the long line stays
    obtain ⟨hstill, hsame⟩ := hlong.append (cString (rest.take (min (k + 1) 255)))
    have hstay : loop.step noteLine (.data k) = loop := by
      unfold CommandLoop.step
      simp only [hstatus]
    rw [hstay]
    refine ⟨?_, fun hrun => absurd (hstatus.symm.trans hrun) (by decide), fun _ => hstill⟩
    unfold commandLines
    rw [hsame]
    exact h.lines

theorem step_idle (loop : CommandLoop (List Text)) :
    loop.step noteLine (.idle true) = loop := by
  unfold CommandLoop.step
  split <;> rfl

/-- However the stream is split, the lines handed over are those of what
    survives, and the loop goes on unless one of these is too long. -/
theorem framedLines_surviving {stream : Text} {schedule : List RecvStep}
    (h : SplitsStream stream schedule) :
    framedLines stream schedule = commandLines (surviving stream schedule) ∧
    ((runLoop noteLine [] stream schedule).status = .running ↔
      ¬Oversized kMaxClientCommandLen (surviving stream schedule)) := by
  suffices ∀ (loop : CommandLoop (List Text)) received stream, SplitsStream stream schedule →
      LoopRead loop received stream →
      LoopRead (schedule.foldl (CommandLoop.step noteLine) loop)
        (received ++ surviving stream schedule) [] by
    have hstart : LoopRead ⟨.running, [], stream, []⟩ [] stream :=
      ⟨rfl, fun _ => ⟨rfl, rfl, by decide⟩, fun hne => absurd rfl hne⟩
    have hread := this _ _ _ h hstart
    rw [List.nil_append] at hread
    refine ⟨hread.lines, fun hrun => (hread.running hrun).2.2, ?_⟩
    intro hshort
    by_contra hne
    exact hshort (hread.ended hne)
  clear h stream
  -- what has been received grows by one piece after the other
  induction schedule with
  | nil =>
    intro loop received stream hsplit hread
    rw [show stream = [] from hsplit] at hread
    rw [surviving, List.append_nil]
    exact hread
  | cons r schedule ih =>
    intro loop received stream hsplit hread
    rw [List.foldl_cons]
    cases r with
    | data k =>
      have hnext := ih _ _ _ hsplit.2 (hread.data hsplit.1 k)
      rwa [List.append_assoc] at hnext
    | idle sendOk =>
      obtain ⟨hok, hrest⟩ := hsplit
      rw [hok, step_idle]
      exact ih _ _ _ hrest hread
    | error => exact absurd hsplit id

/-! ### What can survive -/

/-- What may reach the buffer of a stream: at a NUL byte the rest of the
    piece is lost, and that is any number of bytes up to the size of the
    receive buffer. -/
inductive Survives : Text → Text → Prop where
  | nil : Survives [] []
  | keep {c : Char} {t e : Text} : c ≠ '\x00' → Survives t e → Survives (c :: t) (c :: e)
  | lose {t e : Text} (d : Nat) : d ≤ 254 → Survives (t.drop d) e → Survives ('\x00' :: t) e

theorem Survives.piece {rest e : Text} (h : Survives rest e) {piece : Text}
    (hlen : piece.length ≤ 255) : Survives (piece ++ rest) (cString piece ++ e) := by
  induction piece with
  | nil => exact h
  | cons c piece ih =>
    rw [List.length_cons] at hlen
    by_cases hc : c = '\x00'
    · rw [hc]
      apply Survives.lose piece.length (by omega)
      have hdrop : (piece ++ rest).drop piece.length = rest := List.drop_left
      have hnone : cString ('\x00' :: piece) ++ e = e := by simp [cString]
      show Survives ((piece ++ rest).drop piece.length) (cString ('\x00' :: piece) ++ e)
      rw [hdrop, hnone]
      exact h
    · have hkeep : cString (c :: piece) = c :: cString piece := by
        unfold cString
        exact List.takeWhile_cons_of_pos (by simpa using hc)
      rw [hkeep]
      exact Survives.keep hc (ih (by omega))

/-- Every split lets something survive. -/
theorem survives_of_split {stream : Text} {schedule : List RecvStep}
    (h : SplitsStream stream schedule) : Survives stream (surviving stream schedule) := by
  induction schedule generalizing stream with
  | nil =>
    rw [show stream = [] from h]
    exact .nil
  | cons r schedule ih =>
    cases r with
    | data k =>
      have hpiece : (stream.take (min (k + 1) 255)).length ≤ 255 := by
        rw [List.length_take]
        omega
      have hsurvives := (ih h.2).piece hpiece
      rwa [List.take_append_drop] at hsurvives
    | idle sendOk => exact ih h.2
    | error => exact absurd h id

/-- Whatever may survive does, with some split. -/
theorem Survives.split {stream e : Text} (h : Survives stream e) :
    ∃ schedule, SplitsStream stream schedule ∧ surviving stream schedule = e := by
  induction h with
  | nil => exact ⟨[], rfl, rfl⟩
  | @keep c t e hc _ ih =>
    obtain ⟨schedule, hsplit, heq⟩ := ih
    refine ⟨.data 0 :: schedule, ⟨List.cons_ne_nil c t, hsplit⟩, ?_⟩
    have hpiece : cString [c] = [c] := by
      unfold cString
      exact List.takeWhile_cons_of_pos (by simpa using hc)
    show cString [c] ++ surviving t schedule = c :: e
    rw [hpiece, heq]
    rfl
  | @lose t e d hd _ ih =>
    obtain ⟨schedule, hsplit, heq⟩ := ih
    have hsize : min (d + 1) 255 = d + 1 := by omega
    refine ⟨.data d :: schedule, ⟨List.cons_ne_nil _ t, ?_⟩, ?_⟩
    · rw [hsize]
      exact hsplit
    · rw [surviving, hsize]
      show cString ('\x00' :: t.take d) ++ surviving (t.drop d) schedule = e
      rw [heq]
      simp [cString]

theorem Survives.exists (t : Text) : ∃ e, Survives t e := by
  induction t with
  | nil => exact ⟨[], .nil⟩
  | cons c t ih =>
    obtain ⟨e, he⟩ := ih
    by_cases hc : c = '\x00'
    · rw [hc]
      exact ⟨e, .lose 0 (by decide) he⟩
    · exact ⟨c :: e, .keep hc he⟩

theorem Survives.subset {t e : Text} (h : Survives t e) : e ⊆ t := by
  induction h with
  | nil => exact List.Subset.refl []
  | keep _ _ ih => exact List.cons_subset_cons _ ih
  | lose d _ _ ih =>
    have hdrop := List.Subset.trans ih (List.drop_subset d _)
    exact List.Subset.trans hdrop (List.subset_cons_self _ _)

theorem Survives.nul_not_mem {t e : Text} (h : Survives t e) : '\x00' ∉ e := by
  induction h with
  | nil => exact List.not_mem_nil
  | keep hc _ ih =>
    intro hmem
    rcases List.mem_cons.mp hmem with heq | hin
    · exact hc heq.symm
    · exact ih hin
  | lose _ _ _ ih => exact ih

/-- Text without a NUL byte survives as it is. -/
theorem survives_append_iff {line : Text} (h : '\x00' ∉ line) (t e : Text) :
    Survives (line ++ t) e ↔ ∃ e', e = line ++ e' ∧ Survives t e' := by
  induction line generalizing e with
  | nil => simp
  | cons c line ih =>
    have hc : c ≠ '\x00' := by
      rintro rfl
      exact h List.mem_cons_self
    have hline : '\x00' ∉ line := fun hmem => h (List.mem_cons_of_mem _ hmem)
    rw [List.cons_append]
    constructor
    · intro hs
      cases hs with
      | keep _ hrest =>
        obtain ⟨e', rfl, hs'⟩ := (ih hline _).mp hrest
        exact ⟨e', rfl, hs'⟩
      | lose => exact absurd rfl hc
    · rintro ⟨e', rfl, hs'⟩
      exact .keep hc ((ih hline _).mpr ⟨e', rfl, hs'⟩)

/-! ### When nothing depends on the split -/

/-- Whatever is lost, `need` bytes are left before the next newline. -/
def staysLong : Nat → Text → Bool
  | 0, _ => true
  | _ + 1, [] => false
  | need + 1, c :: t =>
      if c = '\n' then false
      else if c = '\x00' then (List.range 255).all fun d => staysLong (need + 1) (t.drop d)
      else staysLong need t
  termination_by _ t => t.length
  decreasing_by
    all_goals simp only [List.length_drop, List.length_cons]
    all_goals omega

/-- The length of the first line. -/
def firstLineLength (t : Text) : Nat := (t.takeWhile (· ≠ '\n')).length

theorem staysLong_iff (need : Nat) (t : Text) :
    staysLong need t = true ↔ ∀ e, Survives t e → need ≤ firstLineLength e := by
  induction hn : t.length using Nat.strongRecOn generalizing need t with
  | _ n ih =>
    cases need with
    | zero => simp [staysLong]
    | succ need =>
      cases t with
      | nil =>
        rw [staysLong]
        constructor
        · intro hfalse
          cases hfalse
        · intro hall
          exact absurd (hall [] .nil) (by simp [firstLineLength])
      | cons c t =>
        have hshort : t.length < n := by
          rw [← hn]
          exact Nat.lt_succ_self _
        rw [staysLong]
        by_cases hnewline : c = '\n'
        · -- the newline itself survives
          rw [if_pos hnewline]
          constructor
          · intro hfalse
            cases hfalse
          · intro hall
            obtain ⟨e, he⟩ := Survives.exists t
            have hlen := hall (c :: e) (.keep (by rw [hnewline]; decide) he)
            simp [firstLineLength, hnewline] at hlen
        · rw [if_neg hnewline]
          by_cases hnul : c = '\x00'
          · rw [if_pos hnul, hnul, List.all_eq_true]
            -- any number of bytes may be lost here
            constructor
            · intro hall e he
              cases he with
              | keep hne _ => exact absurd rfl hne
              | lose d hd hrest =>
                have hd' := hall d (List.mem_range.mpr (by omega))
                have hdrop : (t.drop d).length < n := by
                  rw [List.length_drop]
                  omega
                exact (ih _ hdrop _ _ rfl).mp hd' e hrest
            · intro hall d hd
              have hdrop : (t.drop d).length < n := by
                rw [List.length_drop]
                omega
              rw [ih _ hdrop _ _ rfl]
              intro e he
              have hd' := List.mem_range.mp hd
              exact hall e (.lose d (by omega) he)
          · rw [if_neg hnul, ih _ hshort _ _ rfl]
            -- the byte survives, and the line is longer by one
            have hlen : ∀ e, firstLineLength (c :: e) = firstLineLength e + 1 := by
              intro e
              unfold firstLineLength
              rw [List.takeWhile_cons_of_pos (by simpa using hnewline), List.length_cons]
            constructor
            · intro hall e he
              cases he with
              | keep _ hrest =>
                have := hall _ hrest
                rw [hlen]
                omega
              | lose => exact absurd rfl hnul
            · intro hall e he
              have := hall (c :: e) (.keep hnul he)
              rw [hlen] at this
              omega

/-- No NUL byte in a line that is handed over; and if a line is too long, it
    is too long whatever is lost at its NUL bytes. -/
def FramingSafe (stream : Text) : Prop :=
  (∀ line ∈ commandLines stream, '\x00' ∉ line) ∧
  (Oversized kMaxClientCommandLen stream →
    staysLong (kMaxClientCommandLen + 1) (behindLines kMaxClientCommandLen stream) = true)

instance (stream : Text) : Decidable (FramingSafe stream) :=
  inferInstanceAs (Decidable (_ ∧ _))

theorem nul_mem_dropTrailingCR {line : Text} :
    '\x00' ∈ dropTrailingCR line ↔ '\x00' ∈ line := by
  unfold dropTrailingCR
  split
  · next hlast =>
    constructor
    · intro hmem
      exact List.dropLast_subset line hmem
    · intro hmem
      have hsplit := List.dropLast_append_getLast? '\r' hlast
      rw [← hsplit] at hmem
      rcases List.mem_append.mp hmem with hin | hin
      · exact hin
      · exact absurd (List.mem_singleton.mp hin) (by decide)
  · exact Iff.rfl

/-- The first line is too long if and only if it is refused at once. -/
theorem refused_at_once_iff (e : Text) :
    (commandLines e = [] ∧ Oversized kMaxClientCommandLen e) ↔
      kMaxClientCommandLen + 1 ≤ firstLineLength e := by
  have hsucc : ∀ k, kMaxClientCommandLen + 1 ≤ k ↔ kMaxClientCommandLen < k := fun _ => Iff.rfl
  unfold commandLines firstLineLength
  rw [hsucc]
  induction e using line_induction with
  | unterminated line h =>
    rw [firstLine_unterminated h, handedLines_unterminated h, oversized_unterminated h]
    simp
  | terminated line t h _ =>
    rw [firstLine_terminated h, handedLines_terminated h, oversized_terminated h]
    by_cases hlong : kMaxClientCommandLen < line.length
    · rw [if_neg (by omega)]
      simp [hlong]
    · rw [if_pos (by omega)]
      simp [hlong]

/-- The lines of every survivor are those of the stream, and a line that is
    too long stays so. -/
def SurvivorsAgree (stream : Text) : Prop :=
  ∀ e, Survives stream e → commandLines e = commandLines stream ∧
    (Oversized kMaxClientCommandLen stream → Oversized kMaxClientCommandLen e)

/-- Where no line is handed over, what counts is that a line that is too
    long is refused at once. -/
theorem survivorsAgree_of_no_lines {stream : Text} (hnone : commandLines stream = [])
    (hbehind : behindLines kMaxClientCommandLen stream = stream)
    (hlines : Oversized kMaxClientCommandLen stream ∨
      ∀ e, Survives stream e → commandLines e = []) :
    SurvivorsAgree stream ↔ FramingSafe stream := by
  unfold SurvivorsAgree FramingSafe
  rw [hbehind, staysLong_iff, hnone]
  constructor
  · intro hall
    refine ⟨fun l hl => absurd hl List.not_mem_nil, ?_⟩
    intro hlong e he
    exact (refused_at_once_iff e).mp ⟨(hall e he).1, (hall e he).2 hlong⟩
  · rintro ⟨-, hstays⟩ e he
    constructor
    · rcases hlines with hlong | hempty
      · exact ((refused_at_once_iff e).mpr (hstays hlong e he)).1
      · exact hempty e he
    · intro hlong
      exact ((refused_at_once_iff e).mpr (hstays hlong e he)).2

/-- Where the first line is handed over, the rest decides, if that line has
    no NUL byte. -/
theorem survivorsAgree_terminated {line t : Text} (h : '\n' ∉ line)
    (hle : line.length ≤ kMaxClientCommandLen) (ih : SurvivorsAgree t ↔ FramingSafe t) :
    SurvivorsAgree (line ++ '\n' :: t) ↔ FramingSafe (line ++ '\n' :: t) := by
  unfold SurvivorsAgree FramingSafe at ih ⊢
  have hcons : ∀ u, commandLines (line ++ '\n' :: u) =
      dropTrailingCR line :: commandLines u := by
    intro u
    unfold commandLines
    rw [handedLines_terminated h, if_pos hle]
    rfl
  have hover : ∀ u, Oversized kMaxClientCommandLen (line ++ '\n' :: u) ↔
      Oversized kMaxClientCommandLen u := by
    intro u
    rw [oversized_terminated h]
    exact or_iff_right (Nat.not_lt.mpr hle)
  rw [behindLines_terminated h t hle, hcons t, hover t]
  by_cases hnul : '\x00' ∈ line
  · -- a line that is handed over has lost its NUL byte
    constructor
    · intro hall
      obtain ⟨e, he⟩ := Survives.exists (line ++ '\n' :: t)
      have hmem : dropTrailingCR line ∈ commandLines e := by
        rw [(hall e he).1]
        exact List.mem_cons_self
      obtain ⟨l, hl, heq⟩ := List.mem_map.mp hmem
      have hin : '\x00' ∈ l := by
        rw [← nul_mem_dropTrailingCR, heq, nul_mem_dropTrailingCR]
        exact hnul
      exact absurd (mem_of_mem_handedLines hl hin) he.nul_not_mem
    · rintro ⟨hclean, -⟩
      exact absurd (nul_mem_dropTrailingCR.mpr hnul)
        (hclean _ List.mem_cons_self)
  · -- a line without a NUL byte arrives as it is, so only the rest is in doubt
    have hsurvive : ∀ e, Survives (line ++ '\n' :: t) e ↔
        ∃ e', e = line ++ '\n' :: e' ∧ Survives t e' := by
      intro e
      have hline : '\x00' ∉ line ++ ['\n'] := by simp [hnul]
      have := survives_append_iff hline t e
      simpa only [List.append_assoc, List.singleton_append] using this
    have hclean : (∀ l ∈ dropTrailingCR line :: commandLines t, '\x00' ∉ l) ↔
        ∀ l ∈ commandLines t, '\x00' ∉ l := by
      simp [nul_mem_dropTrailingCR, hnul]
    rw [hclean, ← ih]
    constructor
    · intro hall e he
      have hall' := hall _ ((hsurvive _).mpr ⟨e, rfl, he⟩)
      rw [hcons, hover] at hall'
      exact ⟨(List.cons.inj hall'.1).2, hall'.2⟩
    · intro hall e he
      obtain ⟨e', rfl, he'⟩ := (hsurvive e).mp he
      rw [hcons, hover]
      exact ⟨by rw [(hall e' he').1], (hall e' he').2⟩

theorem survivorsAgree_iff (stream : Text) : SurvivorsAgree stream ↔ FramingSafe stream := by
  induction stream using line_induction with
  | unterminated line h =>
    apply survivorsAgree_of_no_lines
    · unfold commandLines
      rw [handedLines_unterminated h]
      rfl
    · exact behindLines_unterminated h
    · -- no survivor has a newline either
      refine Or.inr fun e he => ?_
      have hunterminated : '\n' ∉ e := fun hmem => h (he.subset hmem)
      unfold commandLines
      rw [handedLines_unterminated hunterminated]
      rfl
  | terminated line t h ih =>
    by_cases hlong : kMaxClientCommandLen < line.length
    · -- the first line is refused
      apply survivorsAgree_of_no_lines
      · unfold commandLines
        rw [handedLines_terminated h, if_neg (by omega)]
        rfl
      · exact behindLines_refused h t hlong
      · exact Or.inl ((oversized_terminated h t).mpr (Or.inl hlong))
    · exact survivorsAgree_terminated h (by omega) ih

/-! ### The two session loops -/

/-- For every split, a command loop hands its handler the lines of the
    stream, and does not go on behind a line that is too long. The handlers
    are those of `handleXdrClient` and `handleFmdxClient` among others. -/
def FramingIndependent (stream : Text) : Prop :=
  ∀ schedule, SplitsStream stream schedule →
    ∀ (σ : Type) (handle : σ → Text → σ × Bool) (session : σ),
      (runLoop handle session stream schedule).session =
        (runLines handle session (commandLines stream)).1 ∧
      (Oversized kMaxClientCommandLen stream →
        (runLoop handle session stream schedule).status ≠ .running)

theorem runLines_noteLine (lines more : List Text) :
    runLines noteLine lines more = (lines ++ more, true) := by
  induction more generalizing lines with
  | nil => simp [runLines]
  | cons line more ih => simp [runLines, noteLine, ih]

theorem framingIndependent_iff_survivorsAgree (stream : Text) :
    FramingIndependent stream ↔ SurvivorsAgree stream := by
  constructor
  · intro hall e he
    obtain ⟨schedule, hsplit, rfl⟩ := he.split
    obtain ⟨hframed, hstatus⟩ := framedLines_surviving hsplit
    obtain ⟨hlines, hended⟩ := hall schedule hsplit (List Text) noteLine []
    rw [runLines_noteLine, List.nil_append] at hlines
    refine ⟨hframed.symm.trans hlines, ?_⟩
    intro hlong
    by_contra hshort
    exact hended hlong (hstatus.mpr hshort)
  · intro hall schedule hsplit σ handle session
    obtain ⟨hframed, hstatus⟩ := framedLines_surviving hsplit
    obtain ⟨hlines, hlong⟩ := hall _ (survives_of_split hsplit)
    have hstep : InStep handle session (runLoop handle session stream schedule) _ :=
      runLoop_inStep session stream schedule
    constructor
    · rw [runLoop_session, hframed, hlines]
    · intro hover
      have hnote : (runLoop noteLine [] stream schedule).status ≠ .running := by
        intro hrun
        exact hstatus.mp hrun (hlong hover)
      cases hgo : (runLines handle session
          (runLoop noteLine [] stream schedule).session).2 with
      | true =>
        rw [(hstep.running hgo).1]
        exact hnote
      | false =>
        rw [hstep.ended hgo]
        decide

/-- Framing does not depend on the segmentation exactly for the streams
    whose NUL bytes, if any, make no difference: for these the lines are
    the stream cut at its newlines, with a trailing CR removed from each,
    up to the first line of more than 1024 bytes. -/
theorem framing_independent_iff (stream : Text) :
    FramingIndependent stream ↔ FramingSafe stream :=
  (framingIndependent_iff_survivorsAgree stream).trans (survivorsAgree_iff stream)

/-- A text without NUL bytes is safe. -/
theorem framingSafe_of_nul_not_mem {stream : Text} (h : '\x00' ∉ stream) :
    FramingSafe stream := by
  rw [← survivorsAgree_iff]
  intro e he
  rw [← List.append_nil stream] at he
  obtain ⟨e', rfl, he'⟩ := (survives_append_iff h [] e).mp he
  cases he'
  rw [List.append_nil]
  exact ⟨rfl, id⟩

/-- Two tune commands with a NUL byte between them: in one piece nothing of
    the second arrives, byte by byte both do. -/
def nulStream : Text := "T88500\n\x00T90000\n".toList

theorem framing_depends_on_split :
    SplitsStream nulStream [.data 254] ∧
    SplitsStream nulStream (List.replicate 15 (.data 0)) ∧
    framedLines nulStream [.data 254] = ["T88500".toList] ∧
    framedLines nulStream (List.replicate 15 (.data 0)) =
      ["T88500".toList, "T90000".toList] ∧
    commandLines nulStream = ["T88500".toList, "\x00T90000".toList] := by
  decide

end FmSdrTuner
