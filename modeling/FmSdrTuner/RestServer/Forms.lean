import FmSdrTuner.RestServer.Request
import FmSdrTuner.Text.Lines

/-! # Forms

    `parseFormParams` on encoded forms. A byte may be written as an escape
    in either hex case, a space as `+`, and a byte that means nothing to
    the parser as itself; the choice is free for every byte. Since the
    separators cannot occur in what is encoded, the form is cut where it
    was joined, and each part decodes to what it was made of.

    On any text the loop takes one part a round, and yields at most one
    pair for it. -/

namespace FmSdrTuner

/-! ### Encoded forms -/

/-- A hex digit in upper or lower case. -/
def hexChar (upper : Bool) (n : Nat) : Char :=
  Char.ofNat (if n < 10 then '0'.toNat + n else (if upper then 'A' else 'a').toNat + (n - 10))

/-- The ways to write a byte in a form. -/
inductive EncodesByte : Char → Text → Prop where
  | percent (c : Char) (byte : c.toNat < 256) (upperHi upperLo : Bool) :
      EncodesByte c ['%', hexChar upperHi (c.toNat / 16), hexChar upperLo (c.toNat % 16)]
  | plus : EncodesByte ' ' ['+']
  | literal (c : Char) (plain : c ≠ '%' ∧ c ≠ '+' ∧ c ≠ '&' ∧ c ≠ '=') : EncodesByte c [c]

/-- A byte and how it is written. -/
structure EncodedByte where
  byte : Char
  text : Text
  encodes : EncodesByte byte text

/-- A string, byte by byte. -/
abbrev EncodedString := List EncodedByte

namespace EncodedString

def decoded (s : EncodedString) : Text := s.map (·.byte)

def encoded (s : EncodedString) : Text := s.flatMap (·.text)

end EncodedString

/-- A key and its value. -/
structure EncodedPair where
  key : EncodedString
  value : EncodedString

namespace EncodedPair

def decoded (p : EncodedPair) : Text × Text := (p.key.decoded, p.value.decoded)

def encoded (p : EncodedPair) : Text := p.key.encoded ++ '=' :: p.value.encoded

end EncodedPair

/-- The form of a list of pairs. -/
def formBody (pairs : List EncodedPair) : Text := ['&'].intercalate (pairs.map (·.encoded))

/-! ### One byte -/

theorem hexDigit_hexChar (upper : Bool) {n : Nat} (hn : n < 16) :
    hexDigit (hexChar upper n) = some n := by
  have hall : ∀ upper : Bool, ∀ n < 16, hexDigit (hexChar upper n) = some n := by decide
  exact hall upper n hn

/-- A hex digit is no separator. -/
theorem hexChar_ne (upper : Bool) {n : Nat} (hn : n < 16) :
    hexChar upper n ≠ '&' ∧ hexChar upper n ≠ '=' := by
  have hall : ∀ upper : Bool, ∀ n < 16, hexChar upper n ≠ '&' ∧ hexChar upper n ≠ '=' := by decide
  exact hall upper n hn

/-- What a byte is written as is decoded to the byte, whatever follows. -/
theorem urlDecode_encodes {c : Char} {text : Text} (h : EncodesByte c text) (rest : Text) :
    urlDecode (text ++ rest) = c :: urlDecode rest := by
  cases h with
  | percent c byte upperHi upperLo =>
    have hhi := hexDigit_hexChar upperHi (n := c.toNat / 16) (by omega)
    have hlo := hexDigit_hexChar upperLo (n := c.toNat % 16) (by omega)
    have hvalue : c.toNat / 16 * 16 + c.toNat % 16 = c.toNat := by omega
    simp only [List.cons_append, List.nil_append, urlDecode, hhi, hlo, hvalue, Char.ofNat_toNat]
  | plus => rfl
  | literal c plain =>
    obtain ⟨hpercent, hplus, -⟩ := plain
    simp [urlDecode, hpercent]

theorem not_mem_of_encodes {c sep : Char} {text : Text} (h : EncodesByte c text)
    (hsep : sep = '&' ∨ sep = '=') : sep ∉ text := by
  cases h with
  | percent c byte upperHi upperLo =>
    have hhi := hexChar_ne upperHi (n := c.toNat / 16) (by omega)
    have hlo := hexChar_ne upperLo (n := c.toNat % 16) (by omega)
    rcases hsep with rfl | rfl
    · simp [hhi.1.symm, hlo.1.symm]
    · simp [hhi.2.symm, hlo.2.symm]
  | plus => rcases hsep with rfl | rfl <;> decide
  | literal c plain =>
    obtain ⟨-, -, hamp, heq⟩ := plain
    rcases hsep with rfl | rfl
    · simpa using hamp.symm
    · simpa using heq.symm

/-! ### Strings and pairs -/

namespace EncodedString

theorem urlDecode_encoded (s : EncodedString) : urlDecode s.encoded = s.decoded := by
  induction s with
  | nil => rfl
  | cons b s ih =>
    have hfirst := urlDecode_encodes b.encodes (encoded s)
    rw [ih] at hfirst
    exact hfirst

theorem not_mem_encoded (s : EncodedString) {sep : Char} (hsep : sep = '&' ∨ sep = '=') :
    sep ∉ s.encoded := by
  intro hmem
  obtain ⟨b, -, hb⟩ := List.mem_flatMap.mp hmem
  exact not_mem_of_encodes b.encodes hsep hb

end EncodedString

/-- Where a character occurs first. -/
theorem find_singleton {c : Char} {t : Text} (h : c ∉ t) (rest : Text) :
    find [c] (t ++ c :: rest) = some t.length := by
  induction t with
  | nil => simp [find]
  | cons d t ih =>
    have hne : c ≠ d := fun heq => h (heq ▸ List.mem_cons_self)
    have hrest := ih fun hmem => h (List.mem_cons_of_mem d hmem)
    simp [find, hne, hrest]

theorem formPair_encoded (p : EncodedPair) : formPair p.encoded = some p.decoded := by
  have hkey := p.key.not_mem_encoded (Or.inr rfl : '=' = '&' ∨ '=' = '=')
  rw [formPair, EncodedPair.encoded, find_singleton hkey]
  simp [EncodedString.urlDecode_encoded, EncodedPair.decoded]

theorem not_mem_encodedPair (p : EncodedPair) : '&' ∉ p.encoded := by
  have hkey := p.key.not_mem_encoded (Or.inl rfl : '&' = '&' ∨ '&' = '=')
  have hvalue := p.value.not_mem_encoded (Or.inl rfl : '&' = '&' ∨ '&' = '=')
  simp [EncodedPair.encoded, hkey, hvalue]

/-! ### The loop -/

/-- The loop of `parseFormParams` from a position on, for so many rounds at
    most; `none` where it would go on. -/
def formParamsWithin : Nat → Text → Option (List (Text × Text))
  | _, [] => some []
  | 0, _ => none
  | rounds + 1, body =>
    let amp := body.takeWhile (· ≠ '&')
    let behind := (body.dropWhile (· ≠ '&')).drop 1
    (formParamsWithin rounds behind).map ((formPair amp).toList ++ ·)

/-- The part before the first separator, and what is behind it. -/
theorem splitOn_takeWhile (sep : Char) (t : Text) :
    (sep ∈ t ∧ t.splitOn sep =
        t.takeWhile (· ≠ sep) :: ((t.dropWhile (· ≠ sep)).drop 1).splitOn sep) ∨
      (t.splitOn sep = [t] ∧ t.takeWhile (· ≠ sep) = t ∧
        (t.dropWhile (· ≠ sep)).drop 1 = []) := by
  have hbefore : sep ∉ t.takeWhile (· ≠ sep) := fun hmem => by
    simpa using List.mem_takeWhile_imp hmem
  by_cases hmem : sep ∈ t
  · left
    refine ⟨hmem, ?_⟩
    cases hbehind : t.dropWhile (· ≠ sep) with
    | nil =>
      have hall := List.dropWhile_eq_nil_iff.mp hbehind sep hmem
      simp at hall
    | cons c rest =>
      have hc : c = sep := by
        have hhead := List.head?_dropWhile_not (· ≠ sep) t
        rw [hbehind] at hhead
        simpa using hhead
      subst hc
      have hsplit : t.takeWhile (· ≠ c) ++ c :: rest = t := by
        rw [← hbehind]
        exact List.takeWhile_append_dropWhile
      have hterminated := splitOn_terminated hbefore rest
      rw [hsplit] at hterminated
      exact hterminated
  · right
    have hall : ∀ c ∈ t, decide (c ≠ sep) = true := fun c hc =>
      decide_eq_true fun heq => hmem (heq ▸ hc)
    refine ⟨splitOn_unterminated hmem, List.takeWhile_eq_self_iff.mpr hall, ?_⟩
    rw [List.dropWhile_eq_nil_iff.mpr hall]
    rfl

/-- As many rounds as there are parts are enough. -/
theorem formParamsWithin_eq {rounds : Nat} {t : Text} (h : (t.splitOn '&').length ≤ rounds) :
    formParamsWithin rounds t = some (parseFormParams t) := by
  induction rounds generalizing t with
  | zero => exact absurd (List.length_eq_zero_iff.mp (Nat.le_zero.mp h)) (List.splitOnP_ne_nil _ t)
  | succ rounds ih =>
    cases t with
    | nil => rfl
    | cons c t =>
      have hround : formParamsWithin (rounds + 1) (c :: t) =
          (formParamsWithin rounds (((c :: t).dropWhile (· ≠ '&')).drop 1)).map
            ((formPair ((c :: t).takeWhile (· ≠ '&'))).toList ++ ·) := rfl
      rw [hround, parseFormParams]
      rcases splitOn_takeWhile '&' (c :: t) with ⟨-, hsplit⟩ | ⟨hsplit, hall, hbehind⟩
      · rw [hsplit, List.length_cons] at h
        rw [hsplit, ih (Nat.le_of_succ_le_succ h), List.filterMap_cons]
        cases formPair ((c :: t).takeWhile (· ≠ '&')) <;> rfl
      · rw [hsplit, hall, hbehind, List.filterMap_cons]
        cases rounds <;> cases formPair (c :: t) <;> rfl

/-! ### Main result -/

/-- A form is cut where it was joined. -/
theorem parseFormParams_formBody (pairs : List EncodedPair) :
    parseFormParams (formBody pairs) = pairs.map (·.decoded) := by
  induction pairs with
  | nil => rfl
  | cons p pairs ih =>
    cases pairs with
    | nil =>
      have hsingle : formBody [p] = p.encoded := by simp [formBody]
      rw [parseFormParams, hsingle, splitOn_unterminated (not_mem_encodedPair p)]
      simp [formPair_encoded]
    | cons p' pairs =>
      have hjoin : formBody (p :: p' :: pairs) = p.encoded ++ '&' :: formBody (p' :: pairs) := by
        simp [formBody, List.intercalate]
      rw [parseFormParams, hjoin, splitOn_terminated (not_mem_encodedPair p),
        List.filterMap_cons_some (formPair_encoded p)]
      exact congrArg (p.decoded :: ·) ih

/-- A form is decoded to what was encoded; and on every text the loop ends
    after one round a part, with at most one pair for each. -/
theorem form_reads_back :
    (∀ pairs : List EncodedPair,
        parseFormParams (formBody pairs) = pairs.map (·.decoded)) ∧
      ∀ body : Text,
        formParamsWithin (body.splitOn '&').length body = some (parseFormParams body) ∧
          (parseFormParams body).length ≤ (body.splitOn '&').length :=
  ⟨parseFormParams_formBody, fun _ =>
    ⟨formParamsWithin_eq (le_refl _), List.length_filterMap_le _ _⟩⟩

end FmSdrTuner
