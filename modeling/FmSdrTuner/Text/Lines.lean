import FmSdrTuner.Text.Numbers

/-! # Lines of bounded length

    A text is cut at its newlines. A reader that refuses lines of more than
    `maxLen` characters gets the terminated lines up to the first one that
    is too long; what is behind them is an unterminated line or starts
    with the one that is refused.

    Every fact is proved by cutting off the first line, and the facts about
    `t ++ u` say how a reader goes on from an unterminated last line. -/

namespace FmSdrTuner

/-- The terminated lines before the first that is too long. -/
def handedLines (maxLen : Nat) (t : Text) : List Text :=
  (t.splitOn '\n').dropLast.takeWhile (·.length ≤ maxLen)

/-- Some line, terminated or not, is too long. -/
def Oversized (maxLen : Nat) (t : Text) : Prop := ∃ line ∈ t.splitOn '\n', maxLen < line.length

instance (maxLen : Nat) (t : Text) : Decidable (Oversized maxLen t) :=
  inferInstanceAs (Decidable (∃ line ∈ _, _))

/-- What follows the last newline. -/
def lastLine (t : Text) : Text := (t.splitOn '\n').getLastD []

/-- What is behind the lines that are handed over. -/
def behindLines (maxLen : Nat) (t : Text) : Text :=
  ['\n'].intercalate ((t.splitOn '\n').drop (handedLines maxLen t).length)

/-! ### Cutting off the first line -/

theorem splitOn_unterminated {sep : Char} {line : Text} (h : sep ∉ line) :
    line.splitOn sep = [line] := by
  rw [List.splitOn_eq_splitOnP]
  apply List.splitOnP_eq_singleton
  intro c hc
  have hne : c ≠ sep := fun heq => h (heq ▸ hc)
  simpa using hne

theorem splitOn_terminated {sep : Char} {line : Text} (h : sep ∉ line) (t : Text) :
    (line ++ sep :: t).splitOn sep = line :: t.splitOn sep := by
  rw [List.splitOn_eq_splitOnP]
  apply List.splitOnP_append_cons_of_forall_mem
  · intro c hc
    have hne : c ≠ sep := fun heq => h (heq ▸ hc)
    simpa using hne
  · exact beq_self_eq_true sep

section cut
variable {maxLen : Nat} {line : Text} (h : '\n' ∉ line)
include h

theorem handedLines_unterminated : handedLines maxLen line = [] := by
  simp [handedLines, splitOn_unterminated h]

theorem oversized_unterminated : Oversized maxLen line ↔ maxLen < line.length := by
  simp [Oversized, splitOn_unterminated h]

theorem lastLine_unterminated : lastLine line = line := by
  simp [lastLine, splitOn_unterminated h]

theorem behindLines_unterminated : behindLines maxLen line = line := by
  simp [behindLines, handedLines_unterminated h, splitOn_unterminated h]

theorem handedLines_terminated (t : Text) : handedLines maxLen (line ++ '\n' :: t) =
    if line.length ≤ maxLen then line :: handedLines maxLen t else [] := by
  have hne : t.splitOn '\n' ≠ [] := List.splitOnP_ne_nil _ t
  unfold handedLines
  rw [splitOn_terminated h, List.dropLast_cons_of_ne_nil hne]
  split
  · next hle => rw [List.takeWhile_cons_of_pos (by simpa using hle)]
  · next hgt => rw [List.takeWhile_cons_of_neg (by simpa using hgt)]

theorem oversized_terminated (t : Text) :
    Oversized maxLen (line ++ '\n' :: t) ↔ maxLen < line.length ∨ Oversized maxLen t := by
  simp [Oversized, splitOn_terminated h]

theorem lastLine_terminated (t : Text) : lastLine (line ++ '\n' :: t) = lastLine t := by
  have hne : t.splitOn '\n' ≠ [] := List.splitOnP_ne_nil _ t
  unfold lastLine
  rw [splitOn_terminated h, List.getLastD_cons]
  cases hs : t.splitOn '\n' with
  | nil => exact absurd hs hne
  | cons a l => rfl

theorem behindLines_terminated (t : Text) (hle : line.length ≤ maxLen) :
    behindLines maxLen (line ++ '\n' :: t) = behindLines maxLen t := by
  unfold behindLines
  rw [handedLines_terminated h, splitOn_terminated h, if_pos hle]
  rfl

theorem behindLines_refused (t : Text) (hgt : maxLen < line.length) :
    behindLines maxLen (line ++ '\n' :: t) = line ++ '\n' :: t := by
  unfold behindLines
  rw [handedLines_terminated h, if_neg (by omega)]
  exact List.intercalate_splitOn '\n'

end cut

/-- Every text is an unterminated line, or a line and what follows. -/
theorem line_induction {motive : Text → Prop}
    (unterminated : ∀ line, '\n' ∉ line → motive line)
    (terminated : ∀ line t, '\n' ∉ line → motive t → motive (line ++ '\n' :: t)) (t : Text) :
    motive t := by
  induction hn : t.length using Nat.strongRecOn generalizing t with
  | _ n ih =>
    by_cases hmem : '\n' ∈ t
    · obtain ⟨line, rest, rfl, hline⟩ := List.eq_append_cons_of_mem hmem
      have hshort : rest.length < n := by
        rw [← hn, List.length_append, List.length_cons]
        omega
      exact terminated line rest hline (ih _ hshort rest rfl)
    · exact unterminated t hmem

theorem mem_of_mem_handedLines {maxLen : Nat} {t line : Text} (hline : line ∈ handedLines maxLen t)
    {c : Char} (hc : c ∈ line) : c ∈ t := by
  induction t using line_induction with
  | unterminated first h =>
    rw [handedLines_unterminated h] at hline
    exact absurd hline List.not_mem_nil
  | terminated first t h ih =>
    rw [handedLines_terminated h] at hline
    split at hline
    · rcases List.mem_cons.mp hline with rfl | hin
      · exact List.mem_append_left _ hc
      · exact List.mem_append_right _ (List.mem_cons_of_mem _ (ih hin))
    · exact absurd hline List.not_mem_nil

/-! ### Reading on -/

theorem newline_not_mem_lastLine (t : Text) : '\n' ∉ lastLine t := by
  induction t using line_induction with
  | unterminated line h => rwa [lastLine_unterminated h]
  | terminated line t h ih => rwa [lastLine_terminated h]

theorem length_lastLine_le (t : Text) : (lastLine t).length ≤ t.length := by
  induction t using line_induction with
  | unterminated line h => exact Nat.le_of_eq (congrArg List.length (lastLine_unterminated h))
  | terminated line t h ih =>
    rw [lastLine_terminated h, List.length_append, List.length_cons]
    omega

/-- Cutting `t ++ u` is cutting `t`, then its last line followed by `u`. -/
theorem handedLines_append {maxLen : Nat} {t : Text} (h : ¬Oversized maxLen t) (u : Text) :
    handedLines maxLen (t ++ u) = handedLines maxLen t ++ handedLines maxLen (lastLine t ++ u) := by
  induction t using line_induction with
  | unterminated line hline =>
    rw [handedLines_unterminated hline, lastLine_unterminated hline, List.nil_append]
  | terminated line t hline ih =>
    rw [oversized_terminated hline, not_or] at h
    have hle : line.length ≤ maxLen := by omega
    rw [List.append_assoc, List.cons_append, handedLines_terminated hline,
      handedLines_terminated hline, lastLine_terminated hline, if_pos hle, if_pos hle, ih h.2,
      List.cons_append]

theorem oversized_append {maxLen : Nat} {t : Text} (h : ¬Oversized maxLen t) (u : Text) :
    Oversized maxLen (t ++ u) ↔ Oversized maxLen (lastLine t ++ u) := by
  induction t using line_induction with
  | unterminated line hline => rw [lastLine_unterminated hline]
  | terminated line t hline ih =>
    rw [oversized_terminated hline, not_or] at h
    rw [List.append_assoc, List.cons_append, oversized_terminated hline,
      lastLine_terminated hline, ih h.2]
    simp only [h.1, false_or]

theorem lastLine_append (t u : Text) : lastLine (t ++ u) = lastLine (lastLine t ++ u) := by
  induction t using line_induction with
  | unterminated line hline => rw [lastLine_unterminated hline]
  | terminated line t hline ih =>
    rw [List.append_assoc, List.cons_append, lastLine_terminated hline,
      lastLine_terminated hline, ih]

/-- Once a line is too long, more text changes nothing. -/
theorem Oversized.append {maxLen : Nat} {t : Text} (h : Oversized maxLen t) (u : Text) :
    Oversized maxLen (t ++ u) ∧ handedLines maxLen (t ++ u) = handedLines maxLen t := by
  induction t using line_induction with
  | unterminated line hline =>
    rw [oversized_unterminated hline] at h
    rw [handedLines_unterminated hline]
    -- whatever is appended, the first line is too long
    have hfirst : ∀ more, '\n' ∉ more → '\n' ∉ line ++ more := by
      intro more hmore hmem
      rcases List.mem_append.mp hmem with hin | hin
      · exact hline hin
      · exact hmore hin
    induction u using line_induction with
    | unterminated more hmore =>
      rw [oversized_unterminated (hfirst more hmore), handedLines_unterminated (hfirst more hmore),
        List.length_append]
      exact ⟨by omega, rfl⟩
    | terminated more u hmore _ =>
      rw [← List.append_assoc, oversized_terminated (hfirst more hmore),
        handedLines_terminated (hfirst more hmore), List.length_append, if_neg (by omega)]
      exact ⟨Or.inl (by omega), rfl⟩
  | terminated line t hline ih =>
    rw [List.append_assoc, List.cons_append, oversized_terminated hline,
      handedLines_terminated hline, handedLines_terminated hline]
    rw [oversized_terminated hline] at h
    by_cases hle : line.length ≤ maxLen
    · have ht := ih (h.resolve_left (by omega))
      rw [if_pos hle, if_pos hle, ht.2]
      exact ⟨Or.inr ht.1, rfl⟩
    · rw [if_neg hle, if_neg hle]
      exact ⟨Or.inl (by omega), rfl⟩

end FmSdrTuner
