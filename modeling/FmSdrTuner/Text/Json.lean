import Mathlib.Data.List.Basic
import Mathlib.Tactic.Common

/-! # JSON texts

    A reader for JSON as RFC 8259 defines it, on strings of bytes: the
    text has to be UTF-8 throughout, and within strings only the quote,
    the backslash and the control characters need an escape. Strings are
    read as the bytes they stand for, numbers as they are written.

    * `scanString_spec`: what reading a string consumes and yields;
    * `scanString_quoted`: bytes put between quotes as they are read back
      as themselves exactly when they are plain;
    * `Scans`: a value that is read from a text is read from the front of
      every longer text that goes on with a delimiter. -/

namespace FmSdrTuner

/-! ### UTF-8 -/

/-- The bytes that may follow a first byte: a range for each of them. -/
def utf8Trail (b : Nat) : Option (List (Nat × Nat)) :=
  if b < 0x80 then some []
  else if 0xC2 ≤ b ∧ b ≤ 0xDF then some [(0x80, 0xBF)]
  else if b = 0xE0 then some [(0xA0, 0xBF), (0x80, 0xBF)]
  else if b = 0xED then some [(0x80, 0x9F), (0x80, 0xBF)]
  else if 0xE1 ≤ b ∧ b ≤ 0xEF then some [(0x80, 0xBF), (0x80, 0xBF)]
  else if b = 0xF0 then some [(0x90, 0xBF), (0x80, 0xBF), (0x80, 0xBF)]
  else if 0xF1 ≤ b ∧ b ≤ 0xF3 then some [(0x80, 0xBF), (0x80, 0xBF), (0x80, 0xBF)]
  else if b = 0xF4 then some [(0x80, 0x8F), (0x80, 0xBF), (0x80, 0xBF)]
  else none

/-- One byte, where the bytes `pending` are expected. -/
def utf8Step (pending : List (Nat × Nat)) (c : Char) : Option (List (Nat × Nat)) :=
  match pending with
  | [] => utf8Trail c.toNat
  | range :: rest => if range.1 ≤ c.toNat ∧ c.toNat ≤ range.2 then some rest else none

def utf8From : List (Nat × Nat) → List Char → Bool
  | pending, [] => pending.isEmpty
  | pending, c :: t =>
      match utf8Step pending c with
      | none => false
      | some pending => utf8From pending t

/-- The bytes are UTF-8. -/
def validUtf8 (t : List Char) : Bool := utf8From [] t

/-- Following bytes are never ASCII. -/
def NonAscii (pending : List (Nat × Nat)) : Prop := ∀ range ∈ pending, 0x80 ≤ range.1

theorem utf8Trail_nonAscii {b : Nat} {pending : List (Nat × Nat)}
    (h : utf8Trail b = some pending) : NonAscii pending := by
  unfold utf8Trail at h
  intro range hrange
  split_ifs at h <;> cases h <;> simp only [List.mem_cons, List.not_mem_nil, or_false] at hrange
  all_goals
    rcases hrange with rfl | rfl | rfl <;> decide

theorem utf8Step_nonAscii {pending pending' : List (Nat × Nat)} {c : Char}
    (hp : NonAscii pending) (h : utf8Step pending c = some pending') : NonAscii pending' := by
  cases pending with
  | nil => exact utf8Trail_nonAscii h
  | cons range rest =>
    simp only [utf8Step] at h
    split at h
    · cases h
      exact fun r hr => hp r (List.mem_cons_of_mem _ hr)
    · cases h

/-- At an ASCII byte a text falls into two that are UTF-8 each. -/
theorem utf8From_append_ascii {pending : List (Nat × Nat)} (hp : NonAscii pending)
    (a : List Char) {c : Char} (hc : c.toNat < 0x80) (b : List Char) :
    utf8From pending (a ++ c :: b) = (utf8From pending a && validUtf8 b) := by
  induction a generalizing pending with
  | nil =>
    cases pending with
    | nil =>
      have hstep : utf8Step [] c = some [] := if_pos hc
      simp only [List.nil_append, utf8From, hstep]
      rfl
    | cons range rest =>
      have hlow := hp range List.mem_cons_self
      have hstep : utf8Step (range :: rest) c = none := if_neg (by omega)
      simp only [List.nil_append, utf8From, hstep]
      rfl
  | cons d a ih =>
    simp only [List.cons_append, utf8From]
    cases hstep : utf8Step pending d with
    | none => rfl
    | some pending' => exact ih (utf8Step_nonAscii hp hstep)

theorem validUtf8_append_ascii (a : List Char) {c : Char} (hc : c.toNat < 0x80)
    (b : List Char) : validUtf8 (a ++ c :: b) = (validUtf8 a && validUtf8 b) :=
  utf8From_append_ascii (by simp [NonAscii]) a hc b

theorem validUtf8_ascii_append {a : List Char} (ha : ∀ c ∈ a, c.toNat < 0x80)
    (b : List Char) : validUtf8 (a ++ b) = validUtf8 b := by
  induction a with
  | nil => rfl
  | cons c a ih =>
    have hcons : validUtf8 (c :: (a ++ b)) = (true && validUtf8 (a ++ b)) :=
      validUtf8_append_ascii [] (ha c List.mem_cons_self) (a ++ b)
    rw [List.cons_append, hcons, Bool.true_and]
    exact ih fun d hd => ha d (List.mem_cons_of_mem _ hd)

/-! ### Values -/

inductive Json where
  | null
  | bool (b : Bool)
  | number (text : List Char)
  | string (bytes : List Char)
  | array (elements : List Json)
  | object (members : List (List Char × Json))

def isJsonSpace (c : Char) : Bool := c = ' ' || c = '\t' || c = '\n' || c = '\r'

def skipWs (t : List Char) : List Char := t.dropWhile isJsonSpace

/-! ### Strings -/

def hexDigit (c : Char) : Option Nat :=
  if '0' ≤ c ∧ c ≤ '9' then some (c.toNat - '0'.toNat)
  else if 'a' ≤ c ∧ c ≤ 'f' then some (c.toNat - 'a'.toNat + 10)
  else if 'A' ≤ c ∧ c ≤ 'F' then some (c.toNat - 'A'.toNat + 10)
  else none

/-- The code unit of `\uXXXX`. -/
def codeUnit (a b c d : Char) : Option Nat :=
  match hexDigit a, hexDigit b, hexDigit c, hexDigit d with
  | some a, some b, some c, some d => some (a * 4096 + b * 256 + c * 16 + d)
  | _, _, _, _ => none

/-- The bytes of a code point. -/
def utf8Encode (cp : Nat) : List Char :=
  if cp < 0x80 then [Char.ofNat cp]
  else if cp < 0x800 then [Char.ofNat (0xC0 + cp / 64), Char.ofNat (0x80 + cp % 64)]
  else if cp < 0x10000 then
    [Char.ofNat (0xE0 + cp / 4096), Char.ofNat (0x80 + cp / 64 % 64), Char.ofNat (0x80 + cp % 64)]
  else
    [Char.ofNat (0xF0 + cp / 262144), Char.ofNat (0x80 + cp / 4096 % 64),
      Char.ofNat (0x80 + cp / 64 % 64), Char.ofNat (0x80 + cp % 64)]

def isHighSurrogate (unit : Nat) : Bool := 0xD800 ≤ unit && unit < 0xDC00

def isLowSurrogate (unit : Nat) : Bool := 0xDC00 ≤ unit && unit < 0xE000

/-- The escapes of one letter. -/
def simpleEscape (e : Char) : Option Char :=
  if e = '"' then some '"'
  else if e = '\\' then some '\\'
  else if e = '/' then some '/'
  else if e = 'b' then some '\x08'
  else if e = 'f' then some '\x0c'
  else if e = 'n' then some '\n'
  else if e = 'r' then some '\r'
  else if e = 't' then some '\t'
  else none

/-- Put bytes before what was read behind them. -/
def prepend (bytes : List Char) (read : Option (List Char × List Char)) :
    Option (List Char × List Char) :=
  read.map fun p => (bytes ++ p.1, p.2)

/-- Read a string behind its opening quote: its bytes, and the text behind
    its closing quote. -/
def scanString : List Char → Option (List Char × List Char)
  | [] => none
  | c :: rest =>
      if c = '"' then some ([], rest)
      else if c = '\\' then
        match rest with
        | [] => none
        | e :: rest =>
            if e = 'u' then
              match rest with
              | h₁ :: h₂ :: h₃ :: h₄ :: rest =>
                  match codeUnit h₁ h₂ h₃ h₄ with
                  | none => none
                  | some unit =>
                      if isHighSurrogate unit then
                        match rest with
                        | '\\' :: 'u' :: l₁ :: l₂ :: l₃ :: l₄ :: rest =>
                            match codeUnit l₁ l₂ l₃ l₄ with
                            | none => none
                            | some low =>
                                if isLowSurrogate low then
                                  prepend (utf8Encode
                                    (0x10000 + (unit - 0xD800) * 1024 + (low - 0xDC00)))
                                    (scanString rest)
                                else none
                        | _ => none
                      else if isLowSurrogate unit then none
                      else prepend (utf8Encode unit) (scanString rest)
              | _ => none
            else
              match simpleEscape e with
              | none => none
              | some x => prepend [x] (scanString rest)
      else if c.toNat < 0x20 then none
      else prepend [c] (scanString rest)
termination_by structural t => t

/-- Bytes that a JSON string may hold as they are. -/
def isPlainChar (c : Char) : Bool := c ≠ '"' && c ≠ '\\' && 0x20 ≤ c.toNat

theorem length_utf8Encode_lt (cp : Nat) : (utf8Encode cp).length < 6 := by
  unfold utf8Encode
  split_ifs <;> simp

theorem prepend_eq_some {bytes s rest : List Char} {read : Option (List Char × List Char)}
    (h : prepend bytes read = some (s, rest)) :
    ∃ s', read = some (s', rest) ∧ s = bytes ++ s' := by
  cases read with
  | none => cases h
  | some p =>
    cases h
    exact ⟨p.1, rfl, rfl⟩

/-- A string as it is written, and the bytes it stands for: escapes only
    make it longer, and every quote in it is escaped. -/
structure Stands (raw bytes : List Char) : Prop where
  length_le : bytes.length ≤ raw.length
  count_le : raw.count '"' ≤ bytes.count '"'
  plain : bytes.length = raw.length → raw = bytes ∧ ∀ c ∈ raw, isPlainChar c = true

/-- An escape is longer than what it stands for. -/
theorem Stands.escape {raw bytes escape meant : List Char} (h : Stands raw bytes)
    (hlength : meant.length < escape.length) (hcount : escape.count '"' ≤ meant.count '"') :
    Stands (escape ++ raw) (meant ++ bytes) := by
  have hle := h.length_le
  have hquotes := h.count_le
  refine ⟨?_, ?_, ?_⟩
  · simp only [List.length_append]
    omega
  · simp only [List.count_append]
    omega
  · intro heq
    simp only [List.length_append] at heq
    omega

theorem Stands.cons {raw bytes : List Char} (h : Stands raw bytes) {c : Char}
    (hc : isPlainChar c = true) : Stands (c :: raw) (c :: bytes) := by
  refine ⟨Nat.succ_le_succ h.length_le, ?_, ?_⟩
  · have hquotes := h.count_le
    simp only [List.count_cons]
    omega
  · intro heq
    obtain ⟨hraw, hplain⟩ := h.plain (Nat.succ.inj heq)
    refine ⟨by rw [hraw], ?_⟩
    intro d hd
    rcases List.mem_cons.mp hd with rfl | hd
    · exact hc
    · exact hplain d hd

theorem hexDigit_ne_quote {c : Char} {n : Nat} (h : hexDigit c = some n) : c ≠ '"' := by
  rintro rfl
  have hnone : hexDigit '"' = none := by decide
  rw [hnone] at h
  cases h

theorem codeUnit_ne_quote {a b c d : Char} {n : Nat} (h : codeUnit a b c d = some n) :
    a ≠ '"' ∧ b ≠ '"' ∧ c ≠ '"' ∧ d ≠ '"' := by
  unfold codeUnit at h
  split at h
  · next ha hb hc hd =>
    exact ⟨hexDigit_ne_quote ha, hexDigit_ne_quote hb, hexDigit_ne_quote hc,
      hexDigit_ne_quote hd⟩
  · cases h

/-- What is read ends at a quote, and is what the text before it stands for. -/
theorem scanString_spec {t s rest : List Char} (h : scanString t = some (s, rest)) :
    ∃ raw, t = raw ++ '"' :: rest ∧ Stands raw s := by
  -- an escape in front of a string that is read
  have hescape : ∀ {t s : List Char} (escape : List Char) {meant : List Char},
      (∀ {s}, scanString t = some (s, rest) → ∃ raw, t = raw ++ '"' :: rest ∧ Stands raw s) →
      prepend meant (scanString t) = some (s, rest) → meant.length < escape.length →
      escape.count '"' ≤ meant.count '"' →
      ∃ raw, escape ++ t = raw ++ '"' :: rest ∧ Stands raw s := by
    intro t s escape meant ih h hlength hcount
    obtain ⟨s', hread, rfl⟩ := prepend_eq_some h
    obtain ⟨raw, rfl, hraw⟩ := ih hread
    exact ⟨escape ++ raw, (List.append_assoc _ _ _).symm, hraw.escape hlength hcount⟩
  fun_induction scanString t generalizing s with
  | case2 rest' =>
    cases h
    exact ⟨[], rfl, Nat.le_refl _, Nat.le_refl _, fun _ => ⟨rfl, by simp⟩⟩
  | case6 h₁ h₂ h₃ h₄ unit hunit hhigh l₁ l₂ l₃ l₄ rest' low hlow _ _ ih =>
    -- a surrogate pair
    obtain ⟨n₁, n₂, n₃, n₄⟩ := codeUnit_ne_quote hunit
    obtain ⟨m₁, m₂, m₃, m₄⟩ := codeUnit_ne_quote hlow
    have hcount : ['\\', 'u', h₁, h₂, h₃, h₄, '\\', 'u', l₁, l₂, l₃, l₄].count '"' = 0 :=
      List.count_eq_zero.mpr (by
        simp [n₁.symm, n₂.symm, n₃.symm, n₄.symm, m₁.symm, m₂.symm, m₃.symm, m₄.symm])
    have hlength := length_utf8Encode_lt (0x10000 + (unit - 0xD800) * 1024 + (low - 0xDC00))
    refine hescape ['\\', 'u', h₁, h₂, h₃, h₄, '\\', 'u', l₁, l₂, l₃, l₄] ih h ?_ ?_
    · show (utf8Encode _).length < 12
      omega
    · rw [hcount]
      exact Nat.zero_le _
  | case10 h₁ h₂ h₃ h₄ rest' unit hunit _ _ _ ih =>
    obtain ⟨n₁, n₂, n₃, n₄⟩ := codeUnit_ne_quote hunit
    have hcount : ['\\', 'u', h₁, h₂, h₃, h₄].count '"' = 0 :=
      List.count_eq_zero.mpr (by simp [n₁.symm, n₂.symm, n₃.symm, n₄.symm])
    refine hescape ['\\', 'u', h₁, h₂, h₃, h₄] ih h (length_utf8Encode_lt unit) ?_
    rw [hcount]
    exact Nat.zero_le _
  | case13 e rest' _ x hx _ ih =>
    -- only an escaped quote is a quote
    have hcount : ['\\', e].count '"' ≤ [x].count '"' := by
      by_cases hquote : e = '"'
      · have hsame : x = '"' := by
          rw [hquote] at hx
          exact (Option.some.inj hx).symm
        rw [hquote, hsame]
        decide
      · simp [hquote]
    exact hescape ['\\', e] ih h (Nat.lt_succ_self 1) hcount
  | case15 c rest' hquote hbackslash hcontrol ih =>
    obtain ⟨s', hread, rfl⟩ := prepend_eq_some h
    obtain ⟨raw, rfl, hraw⟩ := ih hread
    have hplain : isPlainChar c = true := by
      simp only [isPlainChar, Bool.and_eq_true, decide_eq_true_eq]
      exact ⟨⟨hquote, hbackslash⟩, by omega⟩
    exact ⟨c :: raw, rfl, hraw.cons hplain⟩
  | _ => cases h

/-- Bytes of which none needs an escape are read as they are. -/
theorem scanString_plain {key : List Char} (h : ∀ c ∈ key, isPlainChar c = true)
    (more : List Char) : scanString (key ++ '"' :: more) = some (key, more) := by
  induction key with
  | nil =>
    rw [List.nil_append, scanString.eq_def]
    exact if_pos rfl
  | cons c key ih =>
    have hc := h c List.mem_cons_self
    simp only [isPlainChar, Bool.and_eq_true, decide_eq_true_eq] at hc
    have hrest := ih fun d hd => h d (List.mem_cons_of_mem _ hd)
    rw [List.cons_append, scanString.eq_def]
    simp only
    rw [if_neg hc.1.1, if_neg hc.1.2, if_neg (by omega), hrest]
    rfl

/-- Bytes between quotes are read back as themselves exactly when none of
    them needs an escape: with an escape in them, the string that is read
    would have more quotes than they, or be shorter than they. -/
theorem scanString_quoted {key rest more : List Char} :
    scanString (key ++ '"' :: more) = some (key, rest) ↔
      (∀ c ∈ key, isPlainChar c = true) ∧ rest = more := by
  constructor
  · intro h
    obtain ⟨raw, heq, hraw⟩ := scanString_spec h
    have hle := hraw.length_le
    have hcount := hraw.count_le
    have hlength : raw.length = key.length := by
      by_contra hne
      -- the string would go on behind the quote, and this one is escaped
      have hprefix : (key ++ ['"']).IsPrefix raw := by
        have hkey : (key ++ ['"']).IsPrefix (key ++ '"' :: more) := ⟨more, by simp⟩
        have hread : raw.IsPrefix (key ++ '"' :: more) := ⟨'"' :: rest, heq.symm⟩
        apply List.prefix_of_prefix_length_le hkey hread
        rw [List.length_append, List.length_singleton]
        omega
      obtain ⟨tail, rfl⟩ := hprefix
      simp only [List.count_append, List.count_singleton_self] at hcount
      omega
    obtain ⟨hkey, hmore⟩ := List.append_inj heq hlength.symm
    obtain ⟨-, hplain⟩ := hraw.plain hlength.symm
    refine ⟨?_, ?_⟩
    · rw [hkey]
      exact hplain
    · exact (List.cons.inj hmore).2.symm
  · rintro ⟨hplain, rfl⟩
    exact scanString_plain hplain rest

/-! ### Numbers and literals -/

def isAtomChar (c : Char) : Bool := c.isAlphanum || c = '+' || c = '-' || c = '.'

/-- Digits without a leading zero. -/
def isJsonInt (digits : List Char) : Bool :=
  digits.length = 1 || (digits ≠ [] && digits.head? ≠ some '0')

/-- The exponent of a number, if there is one. -/
def isExponent : List Char → Bool
  | [] => true
  | e :: t =>
      let digits := match t with
        | [] => []
        | sign :: u => if sign = '+' || sign = '-' then u else t
      (e = 'e' || e = 'E') && digits ≠ [] && digits.all Char.isDigit

/-- Fraction and exponent. -/
def isFraction : List Char → Bool
  | [] => true
  | c :: t =>
      if c = '.' then
        t.takeWhile Char.isDigit ≠ [] && isExponent (t.dropWhile Char.isDigit)
      else isExponent (c :: t)

def isJsonNumber (t : List Char) : Bool :=
  let u := if t.head? = some '-' then t.drop 1 else t
  isJsonInt (u.takeWhile Char.isDigit) && isFraction (u.dropWhile Char.isDigit)

def atomValue (atom : List Char) : Option Json :=
  if atom = "null".toList then some .null
  else if atom = "true".toList then some (.bool true)
  else if atom = "false".toList then some (.bool false)
  else if isJsonNumber atom then some (.number atom)
  else none

def scanAtom (t : List Char) : Option (Json × List Char) :=
  (atomValue (t.takeWhile isAtomChar)).map fun v => (v, t.dropWhile isAtomChar)

/-! ### The reader -/

mutual

/-- Read a value, with `fuel` for the nesting. -/
def scanValue : Nat → List Char → Option (Json × List Char)
  | 0, _ => none
  | fuel + 1, t =>
      match skipWs t with
      | [] => none
      | c :: u =>
          if c = '"' then (scanString u).map fun p => (.string p.1, p.2)
          else if c = '[' then
            if (skipWs u).head? = some ']' then some (.array [], (skipWs u).drop 1)
            else (scanElements fuel u).map fun p => (.array p.1, p.2)
          else if c = '\x7b' then
            if (skipWs u).head? = some '\x7d' then some (.object [], (skipWs u).drop 1)
            else (scanMembers fuel u).map fun p => (.object p.1, p.2)
          else scanAtom (c :: u)

/-- The elements of an array, behind its bracket or a comma. -/
def scanElements : Nat → List Char → Option (List Json × List Char)
  | 0, _ => none
  | fuel + 1, t =>
      match scanValue fuel t with
      | none => none
      | some (v, rest) =>
          match skipWs rest with
          | [] => none
          | c :: u =>
              if c = ',' then (scanElements fuel u).map fun p => (v :: p.1, p.2)
              else if c = ']' then some ([v], u)
              else none

/-- The members of an object, behind its brace or a comma. -/
def scanMembers : Nat → List Char → Option (List (List Char × Json) × List Char)
  | 0, _ => none
  | fuel + 1, t =>
      match skipWs t with
      | [] => none
      | q :: u =>
          if q ≠ '"' then none
          else match scanString u with
            | none => none
            | some (name, rest) =>
                match skipWs rest with
                | [] => none
                | colon :: u =>
                    if colon ≠ ':' then none
                    else match scanValue fuel u with
                      | none => none
                      | some (v, rest) =>
                          match skipWs rest with
                          | [] => none
                          | c :: u =>
                              if c = ',' then
                                (scanMembers fuel u).map fun p => ((name, v) :: p.1, p.2)
                              else if c = '\x7d' then some ([(name, v)], u)
                              else none

end

/-- The value of a JSON text. Each level of nesting takes two units of fuel
    and a character. -/
def parseJson (t : List Char) : Option Json :=
  if validUtf8 t then
    match scanValue (2 * t.length + 4) t with
    | some (v, rest) => if skipWs rest = [] then some v else none
    | none => none
  else none

/-! ### What the reader reads -/

/-- A value of an array, then a comma and more of them or the bracket. -/
theorem scanElements_eq_some {n : Nat} {t rest : List Char} {vs : List Json} :
    scanElements (n + 1) t = some (vs, rest) ↔
      ∃ v u c w, scanValue n t = some (v, u) ∧ skipWs u = c :: w ∧
        ((c = ',' ∧ ∃ vs', scanElements n w = some (vs', rest) ∧ vs = v :: vs') ∨
          (c = ']' ∧ vs = [v] ∧ rest = w)) := by
  constructor
  · intro h
    rw [scanElements] at h
    split at h
    · cases h
    · next v u hvalue =>
      split at h
      · cases h
      · next c w hskip =>
        refine ⟨v, u, c, w, hvalue, hskip, ?_⟩
        split at h
        · next hcomma =>
          obtain ⟨p, hmore, hp⟩ := Option.map_eq_some_iff.mp h
          cases hp
          exact .inl ⟨hcomma, p.1, hmore, rfl⟩
        · split at h
          · next hbracket =>
            cases h
            exact .inr ⟨hbracket, rfl, rfl⟩
          · cases h
  · rintro ⟨v, u, c, w, hvalue, hskip, hnext⟩
    rw [scanElements, hvalue]
    simp only [hskip]
    rcases hnext with ⟨rfl, vs', hmore, rfl⟩ | ⟨rfl, rfl, rfl⟩
    · rw [if_pos rfl, hmore]
      rfl
    · rw [if_neg (by decide), if_pos rfl]

/-- A member of an object, then a comma and more of them or the brace. -/
theorem scanMembers_eq_some {n : Nat} {t rest : List Char} {ms : List (List Char × Json)} :
    scanMembers (n + 1) t = some (ms, rest) ↔
      ∃ s name u v w x c y, skipWs t = '"' :: s ∧ scanString s = some (name, u) ∧
        skipWs u = ':' :: v ∧ scanValue n v = some (w, x) ∧ skipWs x = c :: y ∧
        ((c = ',' ∧ ∃ ms', scanMembers n y = some (ms', rest) ∧ ms = (name, w) :: ms') ∨
          (c = '\x7d' ∧ ms = [(name, w)] ∧ rest = y)) := by
  constructor
  · intro h
    rw [scanMembers] at h
    split at h
    · cases h
    · next q s hquote =>
      split at h
      · cases h
      · next hq =>
        rw [not_not.mp hq] at hquote
        split at h
        · cases h
        · next name u hname =>
          split at h
          · cases h
          · next colon v hcolon =>
            split at h
            · cases h
            · next hc =>
              rw [not_not.mp hc] at hcolon
              split at h
              · cases h
              · next w x hvalue =>
                split at h
                · cases h
                · next c y hskip =>
                  refine ⟨s, name, u, v, w, x, c, y, hquote, hname, hcolon, hvalue, hskip, ?_⟩
                  split at h
                  · next hcomma =>
                    obtain ⟨p, hmore, hp⟩ := Option.map_eq_some_iff.mp h
                    cases hp
                    exact .inl ⟨hcomma, p.1, hmore, rfl⟩
                  · split at h
                    · next hbrace =>
                      cases h
                      exact .inr ⟨hbrace, rfl, rfl⟩
                    · cases h
  · rintro ⟨s, name, u, v, w, x, c, y, hquote, hname, hcolon, hvalue, hskip, hnext⟩
    rw [scanMembers]
    simp only [hquote, hname, hcolon, hvalue, hskip, ne_eq, not_true_eq_false, if_false]
    rcases hnext with ⟨rfl, ms', hmore, rfl⟩ | ⟨rfl, rfl, rfl⟩
    · rw [if_pos rfl, hmore]
      rfl
    · rw [if_neg (by decide), if_pos rfl]

/-- An array that is not empty. -/
theorem scanValue_array {n : Nat} {t u rest : List Char} {v : Json} (h : skipWs t = '[' :: u)
    (hsome : (skipWs u).head? ≠ some ']') :
    scanValue (n + 1) t = some (v, rest) ↔
      ∃ vs, scanElements n u = some (vs, rest) ∧ v = .array vs := by
  rw [scanValue]
  simp only [h]
  rw [if_neg (by decide), if_pos trivial, if_neg hsome, Option.map_eq_some_iff]
  constructor
  · rintro ⟨p, hp, heq⟩
    cases heq
    exact ⟨p.1, hp, rfl⟩
  · rintro ⟨vs, hp, rfl⟩
    exact ⟨(vs, rest), hp, rfl⟩

/-- An object that is not empty. -/
theorem scanValue_object {n : Nat} {t u rest : List Char} {v : Json}
    (h : skipWs t = '\x7b' :: u) (hsome : (skipWs u).head? ≠ some '\x7d') :
    scanValue (n + 1) t = some (v, rest) ↔
      ∃ ms, scanMembers n u = some (ms, rest) ∧ v = .object ms := by
  rw [scanValue]
  simp only [h]
  rw [if_neg (by decide), if_neg (by decide), if_pos trivial, if_neg hsome,
    Option.map_eq_some_iff]
  constructor
  · rintro ⟨p, hp, heq⟩
    cases heq
    exact ⟨p.1, hp, rfl⟩
  · rintro ⟨ms, hp, rfl⟩
    exact ⟨(ms, rest), hp, rfl⟩

theorem scanValue_string {n : Nat} {t u : List Char} (h : skipWs t = '"' :: u) :
    scanValue (n + 1) t = (scanString u).map fun p => (.string p.1, p.2) := by
  rw [scanValue]
  simp only [h]
  exact if_pos trivial

/-- The text goes on with what is no part of a number or a literal. -/
def Delimited (more : List Char) : Prop := ∀ c, more.head? = some c → isAtomChar c = false

/-- A number or a literal in front of a delimiter. -/
theorem scanValue_atom {n : Nat} {atom more : List Char} {v : Json}
    (hatom : ∀ c ∈ atom, isAtomChar c = true) (hvalue : atomValue atom = some v)
    (hmore : Delimited more) : scanValue (n + 1) (atom ++ more) = some (v, more) := by
  have hne : atom ≠ [] := by
    rintro rfl
    have hnone : atomValue [] = none := by rfl
    rw [hnone] at hvalue
    cases hvalue
  obtain ⟨c, u, rfl⟩ := List.exists_cons_of_ne_nil hne
  have hc := hatom c List.mem_cons_self
  have hspace : isJsonSpace c = false := by
    cases hs : isJsonSpace c with
    | false => rfl
    | true =>
      simp only [isJsonSpace, Bool.or_eq_true, decide_eq_true_eq] at hs
      rcases hs with ((rfl | rfl) | rfl) | rfl <;> exact absurd hc (by decide)
  have htake : ((c :: u) ++ more).takeWhile isAtomChar = c :: u := by
    rw [List.takeWhile_append_of_pos hatom]
    cases more with
    | nil => rw [List.takeWhile_nil, List.append_nil]
    | cons d more =>
      rw [List.takeWhile_cons_of_neg (by simp [hmore d rfl]), List.append_nil]
  have hdrop : ((c :: u) ++ more).dropWhile isAtomChar = more := by
    rw [List.dropWhile_append_of_pos hatom]
    cases more with
    | nil => rfl
    | cons d more => exact List.dropWhile_cons_of_neg (by simp [hmore d rfl])
  have hskip : skipWs ((c :: u) ++ more) = c :: (u ++ more) :=
    List.dropWhile_cons_of_neg (by simp [hspace])
  rw [scanValue]
  simp only [hskip]
  rw [if_neg (by rintro rfl; exact absurd hc (by decide)),
    if_neg (by rintro rfl; exact absurd hc (by decide)),
    if_neg (by rintro rfl; exact absurd hc (by decide)), scanAtom, ← List.cons_append, htake,
    hdrop, hvalue]
  rfl

/-! ### Longer texts -/

theorem skipWs_append {t u : List Char} {c : Char} (h : skipWs t = c :: u) (more : List Char) :
    skipWs (t ++ more) = c :: (u ++ more) := by
  unfold skipWs at h ⊢
  rw [List.dropWhile_append, h]
  rfl

theorem scanString_append {t s rest : List Char} (h : scanString t = some (s, rest))
    (more : List Char) : scanString (t ++ more) = some (s, rest ++ more) := by
  -- what is read first is the same, and so is what is read behind it
  have hprepend : ∀ {t s meant : List Char}, prepend meant (scanString t) = some (s, rest) →
      (∀ {s}, scanString t = some (s, rest) → scanString (t ++ more) = some (s, rest ++ more)) →
      prepend meant (scanString (t ++ more)) = some (s, rest ++ more) := by
    intro t s meant h ih
    obtain ⟨s', hread, rfl⟩ := prepend_eq_some h
    rw [ih hread]
    rfl
  fun_induction scanString t generalizing s with
  | case2 rest' =>
    cases h
    rw [List.cons_append, scanString.eq_def]
    exact if_pos rfl
  | case6 h₁ h₂ h₃ h₄ unit hunit hhigh l₁ l₂ l₃ l₄ rest' low hlow hislow _ ih =>
    simp only [List.cons_append]
    rw [scanString.eq_def]
    simp only [hunit, hhigh, hlow, hislow, if_true]
    rw [if_neg (by decide)]
    exact hprepend h ih
  | case10 h₁ h₂ h₃ h₄ rest' unit hunit hhigh hislow _ ih =>
    simp only [List.cons_append]
    rw [scanString.eq_def]
    simp only [hunit, if_neg hhigh, if_neg hislow, if_true]
    rw [if_neg (by decide)]
    exact hprepend h ih
  | case13 e rest' hu x hx _ ih =>
    simp only [List.cons_append]
    rw [scanString.eq_def]
    simp only [if_neg hu, hx, if_true]
    rw [if_neg (by decide)]
    exact hprepend h ih
  | case15 c rest' hquote hbackslash hcontrol ih =>
    rw [List.cons_append, scanString.eq_def]
    simp only [if_neg hquote, if_neg hbackslash, if_neg hcontrol]
    exact hprepend h ih
  | _ => cases h

theorem scanAtom_append {t rest : List Char} {v : Json} (h : scanAtom t = some (v, rest))
    {more : List Char} (hmore : Delimited more) :
    scanAtom (t ++ more) = some (v, rest ++ more) := by
  have hends : more.takeWhile isAtomChar = [] ∧ more.dropWhile isAtomChar = more := by
    cases more with
    | nil => exact ⟨rfl, rfl⟩
    | cons d more =>
      exact ⟨List.takeWhile_cons_of_neg (by simp [hmore d rfl]),
        List.dropWhile_cons_of_neg (by simp [hmore d rfl])⟩
  have hsplit : t.takeWhile isAtomChar ++ t.dropWhile isAtomChar = t :=
    List.takeWhile_append_dropWhile
  have htake : (t ++ more).takeWhile isAtomChar = t.takeWhile isAtomChar := by
    rw [List.takeWhile_append, hends.1, List.append_nil]
    split
    · next hall => exact ((List.takeWhile_prefix _).eq_of_length hall).symm
    · rfl
  have hdrop : (t ++ more).dropWhile isAtomChar = t.dropWhile isAtomChar ++ more := by
    rw [List.dropWhile_append, hends.2]
    split
    · next hnone => rw [List.isEmpty_iff.mp hnone, List.nil_append]
    · rfl
  unfold scanAtom at h ⊢
  rw [htake, hdrop]
  obtain ⟨w, hw, heq⟩ := Option.map_eq_some_iff.mp h
  cases heq
  rw [hw]
  rfl

/-- What is read with `n` units of fuel is read with more of them from the
    front of a longer text. -/
structure Scans (n : Nat) : Prop where
  value : ∀ {t v rest m more}, scanValue n t = some (v, rest) → n ≤ m → Delimited more →
    scanValue m (t ++ more) = some (v, rest ++ more)
  elements : ∀ {t vs rest m more}, scanElements n t = some (vs, rest) → n ≤ m →
    Delimited more → scanElements m (t ++ more) = some (vs, rest ++ more)
  members : ∀ {t ms rest m more}, scanMembers n t = some (ms, rest) → n ≤ m →
    Delimited more → scanMembers m (t ++ more) = some (ms, rest ++ more)

theorem skipWs_ne_nil_of_scanElements {n : Nat} {t rest : List Char} {vs : List Json}
    (h : scanElements n t = some (vs, rest)) : skipWs t ≠ [] := by
  intro hnil
  match n with
  | 0 => cases h
  | 1 =>
    obtain ⟨v, u, c, w, hvalue, -⟩ := scanElements_eq_some.mp h
    cases hvalue
  | n + 2 =>
    obtain ⟨v, u, c, w, hvalue, -⟩ := scanElements_eq_some.mp h
    rw [scanValue, hnil] at hvalue
    cases hvalue

theorem skipWs_ne_nil_of_scanMembers {n : Nat} {t rest : List Char}
    {ms : List (List Char × Json)} (h : scanMembers n t = some (ms, rest)) : skipWs t ≠ [] := by
  intro hnil
  cases n with
  | zero => cases h
  | succ n =>
    obtain ⟨s, name, u, v, w, x, c, y, hquote, -⟩ := scanMembers_eq_some.mp h
    rw [hnil] at hquote
    cases hquote

theorem Scans.value_succ {n : Nat} (ih : Scans n) {t rest more : List Char} {v : Json} {m : Nat}
    (h : scanValue (n + 1) t = some (v, rest)) (hle : n ≤ m) (hmore : Delimited more) :
    scanValue (m + 1) (t ++ more) = some (v, rest ++ more) := by
  rw [scanValue] at h
  split at h
  · cases h
  · next c u hskip =>
    have hlong := skipWs_append hskip more
    split at h
    · next hquote =>
      obtain ⟨p, hp, heq⟩ := Option.map_eq_some_iff.mp h
      cases heq
      rw [scanValue_string (hquote ▸ hlong), scanString_append hp]
      rfl
    · split at h
      · next hbracket =>
        rw [hbracket] at hlong
        split at h
        · next hempty =>
          -- the bracket that closes is where it was
          cases h
          obtain ⟨w, hw⟩ := List.head?_eq_some_iff.mp hempty
          rw [scanValue]
          simp only [hlong, skipWs_append hw more]
          rw [if_neg (by decide), if_pos trivial, if_pos List.head?_cons, hw]
          rfl
        · next hsome =>
          obtain ⟨p, hp, heq⟩ := Option.map_eq_some_iff.mp h
          cases heq
          obtain ⟨d, w, hw⟩ := List.exists_cons_of_ne_nil (skipWs_ne_nil_of_scanElements hp)
          have hstill : (skipWs (u ++ more)).head? ≠ some ']' := by
            rw [skipWs_append hw more]
            rw [hw] at hsome
            exact hsome
          exact (scanValue_array hlong hstill).mpr ⟨p.1, ih.elements hp hle hmore, rfl⟩
      · split at h
        · next hbrace =>
          rw [hbrace] at hlong
          split at h
          · next hempty =>
            cases h
            obtain ⟨w, hw⟩ := List.head?_eq_some_iff.mp hempty
            rw [scanValue]
            simp only [hlong, skipWs_append hw more]
            rw [if_neg (by decide), if_neg (by decide), if_pos trivial, if_pos List.head?_cons, hw]
            rfl
          · next hsome =>
            obtain ⟨p, hp, heq⟩ := Option.map_eq_some_iff.mp h
            cases heq
            obtain ⟨d, w, hw⟩ := List.exists_cons_of_ne_nil (skipWs_ne_nil_of_scanMembers hp)
            have hstill : (skipWs (u ++ more)).head? ≠ some '\x7d' := by
              rw [skipWs_append hw more]
              rw [hw] at hsome
              exact hsome
            exact (scanValue_object hlong hstill).mpr ⟨p.1, ih.members hp hle hmore, rfl⟩
        · next hquote hbracket hbrace =>
          rw [scanValue]
          simp only [hlong]
          rw [if_neg hquote, if_neg hbracket, if_neg hbrace]
          exact scanAtom_append h hmore

theorem scans (n : Nat) : Scans n := by
  induction n with
  | zero => constructor <;> intro _ _ _ _ _ h <;> cases h
  | succ n ih =>
    constructor
    · intro t v rest m more h hle hmore
      obtain ⟨m, rfl⟩ : ∃ k, m = k + 1 := ⟨m - 1, by omega⟩
      exact ih.value_succ h (by omega) hmore
    · intro t vs rest m more h hle hmore
      obtain ⟨m, rfl⟩ : ∃ k, m = k + 1 := ⟨m - 1, by omega⟩
      obtain ⟨v, u, c, w, hvalue, hskip, hnext⟩ := scanElements_eq_some.mp h
      refine scanElements_eq_some.mpr ⟨v, u ++ more, c, w ++ more,
        ih.value hvalue (by omega) hmore, skipWs_append hskip more, ?_⟩
      rcases hnext with ⟨hcomma, vs', hrest, hvs⟩ | ⟨hbracket, hvs, rfl⟩
      · exact .inl ⟨hcomma, vs', ih.elements hrest (by omega) hmore, hvs⟩
      · exact .inr ⟨hbracket, hvs, rfl⟩
    · intro t ms rest m more h hle hmore
      obtain ⟨m, rfl⟩ : ∃ k, m = k + 1 := ⟨m - 1, by omega⟩
      obtain ⟨s, name, u, v, w, x, c, y, hquote, hname, hcolon, hvalue, hskip, hnext⟩ :=
        scanMembers_eq_some.mp h
      refine scanMembers_eq_some.mpr ⟨s ++ more, name, u ++ more, v ++ more, w, x ++ more, c,
        y ++ more, skipWs_append hquote more, scanString_append hname more,
        skipWs_append hcolon more, ih.value hvalue (by omega) hmore, skipWs_append hskip more, ?_⟩
      rcases hnext with ⟨hcomma, ms', hrest, hms⟩ | ⟨hbrace, hms, rfl⟩
      · exact .inl ⟨hcomma, ms', ih.members hrest (by omega) hmore, hms⟩
      · exact .inr ⟨hbrace, hms, rfl⟩

/-- A JSON text, and its value at the front of a longer text. -/
theorem scanValue_of_parseJson {t : List Char} {v : Json} (h : parseJson t = some v) {m : Nat}
    (hm : 2 * t.length + 4 ≤ m) {more : List Char} (hmore : Delimited more) :
    validUtf8 t = true ∧ ∃ rest, skipWs rest = [] ∧
      scanValue m (t ++ more) = some (v, rest ++ more) := by
  unfold parseJson at h
  split at h
  · next hvalid =>
    refine ⟨hvalid, ?_⟩
    split at h
    · next w rest hscan =>
      split at h
      · next hspace =>
        cases h
        exact ⟨rest, hspace, (scans _).value hscan hm hmore⟩
      · cases h
    · cases h
  · cases h

end FmSdrTuner
