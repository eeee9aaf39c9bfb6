import FmSdrTuner.RestServer.Request

/-! # Flat JSON objects

    What `parseFlatJson` makes of the objects it is meant for: members
    whose keys are in quotes and whose values are in quotes or bare, with
    any white space between the tokens. It reads back the pairs that were
    printed, in order. On any text at all its loop ends, after at most as
    many rounds as the text has characters. -/

namespace FmSdrTuner

/-! ### Printed objects -/

/-- White space. -/
structure Spaces where
  text : Text
  isSpace : ∀ c ∈ text, isspace c = true

/-- A string that is put between quotes as it is. -/
structure QuotedString where
  text : Text
  noQuote : '"' ∉ text
  noLeadingSpace : ∀ c ∈ text.head?, isspace c = false
  noTrailingSpace : ∀ c ∈ text.getLast?, isspace c = false

/-- A number, a word, or the like. -/
structure BareScalar where
  text : Text
  nonempty : text ≠ []
  plain : ∀ c ∈ text, c ≠ ',' ∧ c ≠ '\x7d' ∧ c ≠ '"' ∧ isspace c = false

inductive FlatValue where
  | quoted (s : QuotedString)
  | bare (s : BareScalar)

def FlatValue.text : FlatValue → Text
  | .quoted s => s.text
  | .bare s => s.text

def FlatValue.print : FlatValue → Text
  | .quoted s => '"' :: (s.text ++ ['"'])
  | .bare s => s.text

/-- A member with the white space around its tokens. -/
structure FlatMember where
  beforeKey : Spaces
  key : QuotedString
  beforeColon : Spaces
  afterColon : Spaces
  value : FlatValue
  afterValue : Spaces

namespace FlatMember

def pair (m : FlatMember) : Text × Text := (m.key.text, m.value.text)

def print (m : FlatMember) : Text :=
  m.beforeKey.text ++ '"' :: (m.key.text ++ '"' :: (m.beforeColon.text ++ ':' ::
    (m.afterColon.text ++ (m.value.print ++ m.afterValue.text))))

end FlatMember

/-- The members with commas between them. Without any there may still be
    white space. -/
def printMembers (inner : Spaces) : List FlatMember → Text
  | [] => inner.text
  | [m] => m.print
  | m :: m' :: members => m.print ++ ',' :: printMembers inner (m' :: members)

/-- The object, and what follows it. -/
def printObject (before inner : Spaces) (members : List FlatMember) (after : Text) : Text :=
  before.text ++ '\x7b' :: (printMembers inner members ++ '\x7d' :: after)

/-! ### Tokens -/

theorem dropWhile_spaces (w : Spaces) (t : Text) :
    (w.text ++ t).dropWhile isspace = t.dropWhile isspace :=
  List.dropWhile_append_of_pos w.isSpace

/-- White space ends at a character that is none. -/
theorem dropWhile_spaces_cons (w : Spaces) {c : Char} (hc : isspace c = false) (t : Text) :
    (w.text ++ c :: t).dropWhile isspace = c :: t := by
  rw [dropWhile_spaces, List.dropWhile_cons_of_neg (by simp [hc])]

theorem untilQuote_append {s : Text} (hs : '"' ∉ s) (t : Text) :
    untilQuote (s ++ '"' :: t) = (s, t) := by
  have hall : ∀ c ∈ s, decide (c ≠ '"') = true := by
    intro c hc
    exact decide_eq_true fun heq => hs (heq ▸ hc)
  rw [untilQuote, List.takeWhile_append_of_pos hall, List.dropWhile_append_of_pos hall]
  simp

theorem trim_eq_self {t : Text} (hfirst : ∀ c ∈ t.head?, isspace c = false)
    (hlast : ∀ c ∈ t.getLast?, isspace c = false) : trim t = t := by
  have hdrop : t.dropWhile isspace = t := by
    cases t with
    | nil => rfl
    | cons c t => exact List.dropWhile_cons_of_neg (by simp [hfirst c rfl])
  rw [trim, hdrop, List.rdropWhile_eq_self_iff]
  intro hne
  simp [hlast _ (List.getLast?_eq_some_getLast hne)]

theorem QuotedString.trim_text (s : QuotedString) : trim s.text = s.text :=
  trim_eq_self s.noLeadingSpace s.noTrailingSpace

theorem BareScalar.trim_text (s : BareScalar) : trim s.text = s.text :=
  trim_eq_self (fun c hc => (s.plain c (List.mem_of_mem_head? hc)).2.2.2)
    (fun c hc => (s.plain c (List.mem_of_mem_getLast? hc)).2.2.2)

theorem FlatValue.trim_text (v : FlatValue) : trim v.text = v.text := by
  cases v with
  | quoted s => exact s.trim_text
  | bare s => exact s.trim_text

/-- A value starts with a character that is no white space. -/
theorem FlatValue.print_cons (v : FlatValue) :
    ∃ c t, v.print = c :: t ∧ isspace c = false := by
  cases v with
  | quoted s => exact ⟨'"', _, rfl, by decide⟩
  | bare s =>
    obtain ⟨c, t, ht⟩ := List.exists_cons_of_ne_nil s.nonempty
    exact ⟨c, t, ht, (s.plain c (by rw [ht]; exact List.mem_cons_self)).2.2.2⟩

/-! ### Members -/

/-- Behind a value there is white space, a comma, or the closing brace. -/
theorem head_endsValue (w : Spaces) {c : Char} (hc : c = ',' ∨ c = '\x7d') (t : Text) :
    ∀ d ∈ (w.text ++ c :: t).head?, endsValue d = true := by
  intro d hd
  cases hw : w.text with
  | nil =>
    rw [hw] at hd
    cases hd
    rcases hc with rfl | rfl <;> decide
  | cons e u =>
    rw [hw] at hd
    cases hd
    have hspace := w.isSpace d (by rw [hw]; exact List.mem_cons_self)
    simp [endsValue, hspace]

theorem readValue_print (v : FlatValue) {rest : Text}
    (hrest : ∀ d ∈ rest.head?, endsValue d = true) :
    readValue (v.print ++ rest) = (v.text, rest) := by
  cases v with
  | quoted s =>
    have hsplit : (FlatValue.quoted s).print ++ rest = '"' :: (s.text ++ '"' :: rest) := by
      simp [FlatValue.print]
    rw [hsplit]
    exact untilQuote_append s.noQuote rest
  | bare s =>
    obtain ⟨c, t, ht⟩ := List.exists_cons_of_ne_nil s.nonempty
    have hquote : c ≠ '"' := (s.plain c (by rw [ht]; exact List.mem_cons_self)).2.2.1
    have hunfold : readValue (s.text ++ rest) =
        ((s.text ++ rest).takeWhile (!endsValue ·), (s.text ++ rest).dropWhile (!endsValue ·)) := by
      rw [ht, List.cons_append]
      unfold readValue
      split
      · rename_i heq
        exact absurd (List.cons.inj heq).1 hquote
      · rfl
    have hall : ∀ c ∈ s.text, (!endsValue c) = true := by
      intro c hc
      obtain ⟨hcomma, hbrace, -, hspace⟩ := s.plain c hc
      simp [endsValue, hcomma, hbrace, hspace]
    have hstop : rest.takeWhile (!endsValue ·) = [] ∧ rest.dropWhile (!endsValue ·) = rest := by
      cases rest with
      | nil => exact ⟨rfl, rfl⟩
      | cons d u => simp [hrest d rfl]
    change readValue (s.text ++ rest) = (s.text, rest)
    rw [hunfold, List.takeWhile_append_of_pos hall, List.dropWhile_append_of_pos hall, hstop.1,
      hstop.2, List.append_nil]

/-- One round reads one member. -/
theorem readMember_print (m : FlatMember) {c : Char} (hc : c = ',' ∨ c = '\x7d') (t : Text) :
    readMember (m.print ++ c :: t) = some (m.pair, skipChar ',' (c :: t)) := by
  obtain ⟨d, u, hvalue, hd⟩ := m.value.print_cons
  have hcspace : isspace c = false := by rcases hc with rfl | rfl <;> decide
  -- the text behind each token
  let afterValue := m.afterValue.text ++ c :: t
  let afterColon := m.afterColon.text ++ (m.value.print ++ afterValue)
  let afterKey := m.beforeColon.text ++ ':' :: afterColon
  have hprint : m.print ++ c :: t =
      m.beforeKey.text ++ '"' :: (m.key.text ++ '"' :: afterKey) := by
    simp [FlatMember.print, afterKey, afterColon, afterValue]
  have hcolon : skipChar ':' (afterKey.dropWhile isspace) = afterColon := by
    rw [dropWhile_spaces_cons _ (by decide), skipChar, if_pos rfl]
  have hread : readValue (afterColon.dropWhile isspace) = (m.value.text, afterValue) := by
    have hstart : afterColon.dropWhile isspace = m.value.print ++ afterValue := by
      rw [hvalue]
      simp only [afterColon, hvalue, List.cons_append]
      exact dropWhile_spaces_cons _ hd _
    rw [hstart, readValue_print _ (head_endsValue _ hc t)]
  rw [readMember, hprint, dropWhile_spaces_cons _ (by decide)]
  simp only [untilQuote_append m.key.noQuote, hcolon, hread, m.key.trim_text, m.value.trim_text]
  rw [dropWhile_spaces_cons _ hcspace]
  rfl

/-- A round on the closing brace ends the loop. -/
theorem readMember_brace (w : Spaces) (t : Text) :
    readMember (w.text ++ '\x7d' :: t) = none := by
  rw [readMember, dropWhile_spaces_cons _ (by decide)]
  rfl

/-! ### The loop -/

theorem parseMembers_of_none {t : Text} (h : readMember t = none) : parseMembers t = [] := by
  rw [parseMembers]
  split
  · rfl
  · rename_i hsome
    rw [h] at hsome
    cases hsome

theorem parseMembers_of_some {t rest : Text} {kv : Text × Text}
    (h : readMember t = some (kv, rest)) : parseMembers t = kv :: parseMembers rest := by
  rw [parseMembers]
  split
  · rename_i hnone
    rw [h] at hnone
    cases hnone
  · rename_i hsome
    rw [h] at hsome
    cases hsome
    rfl

/-- The members are read back, up to the closing brace. -/
theorem parseMembers_print (inner : Spaces) (members : List FlatMember) (after : Text) :
    parseMembers (printMembers inner members ++ '\x7d' :: after) =
      members.map FlatMember.pair := by
  induction members with
  | nil => exact parseMembers_of_none (readMember_brace inner after)
  | cons m members ih =>
    cases members with
    | nil =>
      have hend : readMember (skipChar ',' ('\x7d' :: after)) = none := by
        have hskip : skipChar ',' ('\x7d' :: after) = '\x7d' :: after := rfl
        rw [hskip]
        exact readMember_brace ⟨[], by simp⟩ after
      rw [printMembers, parseMembers_of_some (readMember_print m (Or.inr rfl) after),
        parseMembers_of_none hend]
      rfl
    | cons m' members =>
      rw [printMembers, List.append_assoc, List.cons_append,
        parseMembers_of_some (readMember_print m (Or.inl rfl) _)]
      exact congrArg (m.pair :: ·) ih

/-- The loop of `parseFlatJson` for so many rounds at most; `none` where it
    would go on. -/
def membersWithin : Nat → Text → Option (List (Text × Text))
  | 0, _ => none
  | rounds + 1, t =>
    match readMember t with
    | none => some []
    | some (kv, rest) => (membersWithin rounds rest).map (kv :: ·)

/-- `parseFlatJson` with that loop. -/
def parseFlatJsonWithin (rounds : Nat) (body : Text) : Option (List (Text × Text)) :=
  match body.dropWhile isspace with
  | '\x7b' :: t => membersWithin rounds t
  | _ => some []

/-- Each round uses up a character, so the loop ends. -/
theorem membersWithin_eq {rounds : Nat} {t : Text} (h : t.length < rounds) :
    membersWithin rounds t = some (parseMembers t) := by
  induction rounds generalizing t with
  | zero => exact absurd h (Nat.not_lt_zero _)
  | succ rounds ih =>
    unfold membersWithin
    cases hround : readMember t with
    | none => rw [parseMembers_of_none hround]
    | some next =>
      obtain ⟨kv, rest⟩ := next
      have hshorter := length_readMember hround
      simp only [ih (Nat.lt_of_lt_of_le hshorter (Nat.le_of_lt_succ h)),
        parseMembers_of_some hround, Option.map_some]

/-! ### Main result -/

/-- On every text the loop of `parseFlatJson` ends, within as many rounds
    as the text is long, and on a printed object it yields the pairs that
    were printed. -/
theorem parseFlatJson_reads_back :
    (∀ body : Text, parseFlatJsonWithin body.length body = some (parseFlatJson body)) ∧
      ∀ (before inner : Spaces) (members : List FlatMember) (after : Text),
        parseFlatJson (printObject before inner members after) =
          members.map FlatMember.pair := by
  constructor
  · intro body
    have hshorter := length_dropWhile isspace body
    rw [parseFlatJsonWithin, parseFlatJson]
    cases hbody : body.dropWhile isspace with
    | nil => rfl
    | cons c t =>
      rw [hbody, List.length_cons] at hshorter
      by_cases hbrace : c = '\x7b'
      · rw [hbrace]
        exact membersWithin_eq hshorter
      · simp [hbrace]
  · intro before inner members after
    rw [parseFlatJson, printObject, dropWhile_spaces_cons _ (by decide)]
    exact parseMembers_print inner members after

end FmSdrTuner
