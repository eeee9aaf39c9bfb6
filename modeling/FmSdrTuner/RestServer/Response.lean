import Mathlib.Data.Bool.AllAny
import FmSdrTuner.RestServer.Params
import FmSdrTuner.Text.Json
import FmSdrTuner.Text.RoundTrip

/-! # RestServer: the response

    What `applyParams` answers: how many parameters were applied, which
    keys were rejected, and the status. The keys are what the client sent,
    decoded, and are put between quotes as they are; the response is the
    JSON text it means to be exactly when none of them needs an escape. -/

namespace FmSdrTuner

/-! ### Accounting -/

/-- Which of the parameters are accepted: a control is called for them, and
    it answers yes. The number counts the calls before. -/
def acceptedParams (controls : Controls) : Nat → List (Text × Text) → List Bool
  | _, [] => []
  | calls, kv :: params =>
      match requestedControl controls kv.1 kv.2 with
      | some (some c) =>
          if controls.installed c then
            controls.answers calls c :: acceptedParams controls (calls + 1) params
          else false :: acceptedParams controls calls params
      | _ => false :: acceptedParams controls calls params

/-- The keys of the other parameters, but for empty ones. -/
def remainingKeys (params : List (Text × Text)) (accepted : List Bool) : List Text :=
  ((params.zip accepted).filter fun p => !p.2 && !p.1.1.isEmpty).map fun p => p.1.1

theorem requestedControl_nil (controls : Controls) (val : Text) :
    requestedControl controls [] val = none := by
  unfold requestedControl
  simp

/-- One round, in terms of what it answers for its parameter. -/
theorem applyParam_accounts (controls : Controls) (result : ParamsResult) (kv : Text × Text)
    (params : List (Text × Text)) :
    let next := applyParam controls result kv
    ∃ ok, acceptedParams controls result.calls.length (kv :: params) =
        ok :: acceptedParams controls next.calls.length params ∧
      (ok = true → kv.1 ≠ []) ∧
      next.appliedCount = result.appliedCount + (if ok then 1 else 0) ∧
      next.rejected = result.rejected ++ (if !ok && !kv.1.isEmpty then [kv.1] else []) := by
  have hkey : ∀ request, requestedControl controls kv.1 kv.2 = some request → kv.1 ≠ [] := by
    intro request h hnil
    rw [hnil, requestedControl_nil] at h
    cases h
  have hsome : ∀ {request}, requestedControl controls kv.1 kv.2 = some request →
      kv.1.isEmpty = false := by
    intro request h
    cases hk : kv.1 with
    | nil => exact absurd hk (hkey request h)
    | cons c key => rfl
  intro next
  cases hreq : requestedControl controls kv.1 kv.2 with
  | none =>
    refine ⟨false, ?_⟩
    by_cases hempty : kv.1.isEmpty = true
    · simp [next, applyParam, acceptedParams, hreq, hempty]
    · simp [next, applyParam, acceptedParams, hreq, hempty]
  | some request =>
    have hne := hsome hreq
    cases request with
    | none =>
      refine ⟨false, ?_⟩
      simp [next, applyParam, acceptedParams, hreq, hne]
    | some c =>
      by_cases hinstalled : controls.installed c = true
      · refine ⟨controls.answers result.calls.length c, ?_⟩
        cases hanswer : controls.answers result.calls.length c with
        | false => simp [next, applyParam, acceptedParams, hreq, hinstalled, hanswer, hne]
        | true =>
          simp [next, applyParam, acceptedParams, hreq, hinstalled, hanswer, hkey _ hreq]
      · refine ⟨false, ?_⟩
        simp [next, applyParam, acceptedParams, hreq, hinstalled, hne]

/-- The accounts of the pairs that are still to come. -/
theorem foldl_applyParam_accounts (controls : Controls) (params : List (Text × Text))
    (result : ParamsResult) :
    let accepted := acceptedParams controls result.calls.length params
    let final := params.foldl (applyParam controls) result
    final.appliedCount = result.appliedCount + accepted.count true ∧
      final.rejected = result.rejected ++ remainingKeys params accepted ∧
      accepted.count true + (remainingKeys params accepted).length =
        params.countP fun kv => !kv.1.isEmpty := by
  induction params generalizing result with
  | nil => exact ⟨rfl, (List.append_nil _).symm, rfl⟩
  | cons kv params ih =>
    obtain ⟨ok, haccepted, hkey, hcount, hrejected⟩ :=
      applyParam_accounts controls result kv params
    obtain ⟨hcounts, hrejecteds, htotal⟩ := ih (applyParam controls result kv)
    simp only [List.foldl_cons, haccepted, hcounts, hrejecteds, hcount, hrejected]
    cases ok with
    | true =>
      -- a parameter that is applied has a key
      have hsome : kv.1.isEmpty = false := by
        cases hk : kv.1 with
        | nil => exact absurd hk (hkey rfl)
        | cons c key => rfl
      refine ⟨?_, ?_, ?_⟩
      · simp only [if_true, List.count_cons_self]
        omega
      · simp [remainingKeys]
      · rw [List.countP_cons, ← htotal, List.count_cons_self]
        simp only [remainingKeys, List.zip_cons_cons, hsome, Bool.not_false, if_true]
        rw [List.filter_cons_of_neg (by simp)]
        omega
    | false =>
      refine ⟨?_, ?_, ?_⟩
      · simp
      · by_cases hempty : kv.1.isEmpty = true
        · simp [remainingKeys, hempty]
        · simp [remainingKeys, hempty]
      · rw [List.countP_cons, ← htotal]
        by_cases hempty : kv.1.isEmpty = true
        · simp [remainingKeys, hempty]
        · simp only [remainingKeys, List.zip_cons_cons, hempty, Bool.not_false]
          rw [List.filter_cons_of_pos (by simp [hempty])]
          simp only [List.map_cons, List.length_cons,
            List.count_cons_of_ne (by decide : false ≠ true), if_true]
          omega

/-- The counter and the noted keys are those of the parameters, and with
    them every parameter with a key is accounted for. -/
theorem applyParams_accounts (controls : Controls) (params : List (Text × Text)) :
    let result := applyParams controls params
    let accepted := acceptedParams controls 0 params
    result.appliedCount = accepted.count true ∧
      result.rejected = remainingKeys params accepted ∧
      result.appliedCount + result.rejected.length =
        params.countP fun kv => !kv.1.isEmpty := by
  intro result accepted
  obtain ⟨hcount, hrejected, htotal⟩ := foldl_applyParam_accounts controls params ⟨[], 0, []⟩
  have happlied : result.appliedCount = accepted.count true := hcount.trans (Nat.zero_add _)
  have hkeys : result.rejected = remainingKeys params accepted := hrejected
  refine ⟨happlied, hkeys, ?_⟩
  rw [happlied, hkeys]
  exact htotal

/-! ### The body as members -/

/-- A member of an object, with what follows its colon. -/
def memberText (name value : Text) : Text := '"' :: name ++ '"' :: ':' :: value

theorem rejectedKeys_cons (key : Text) (keys : List Text) (more : Text) :
    rejectedKeys (key :: keys) ++ ']' :: more =
      '"' :: (key ++ '"' ::
        (if keys.isEmpty then ']' :: more else ',' :: (rejectedKeys keys ++ ']' :: more))) := by
  cases keys with
  | nil => simp [rejectedKeys]
  | cons key' keys => simp [rejectedKeys]

/-- `"rejected"`, if there are rejected keys, and the member behind it. -/
def rejectedMember (rejected : List Text) (next : Text) : Text :=
  if rejected.isEmpty then next
  else memberText "rejected".toList ('[' :: (rejectedKeys rejected ++ ']' :: ',' :: next))

theorem ParamsResult.body_eq (result : ParamsResult) (status : Text) :
    result.body status =
      '\x7b' :: memberText "ok".toList
        ((if result.rejected.isEmpty then "true" else "false").toList ++ ',' ::
          memberText "applied".toList (decimal result.appliedCount ++ ',' ::
            rejectedMember result.rejected
              (memberText "status".toList (status ++ ['\x7d'])))) := by
  unfold ParamsResult.body rejectedMember memberText
  split <;> simp

/-! ### UTF-8 -/

theorem ascii_of_isDigit {c : Char} (h : c.isDigit = true) : c.toNat < 0x80 := by
  have hdigit := Char.isDigit_iff_toNat.mp h
  have hlast : '9'.toNat = 57 := rfl
  omega

theorem validUtf8_member {name : Text} (hname : (name.all fun c => c.toNat < 0x80) = true)
    (value : Text) : validUtf8 (memberText name value) = validUtf8 value := by
  have hfront : memberText name value = ('"' :: (name ++ ['"', ':'])) ++ value := by
    simp [memberText]
  rw [hfront]
  apply validUtf8_ascii_append
  intro c hc
  simp only [List.mem_cons, List.mem_append, List.not_mem_nil, or_false] at hc
  rcases hc with rfl | hc | rfl | rfl
  · decide
  · exact List.all_iff_forall_prop.mp hname c hc
  · decide
  · decide

theorem validUtf8_cons {c : Char} (hc : c.toNat < 0x80) (t : Text) :
    validUtf8 (c :: t) = validUtf8 t := by
  have hone : ∀ d ∈ [c], d.toNat < 0x80 := by simpa using hc
  exact validUtf8_ascii_append hone t

/-- The keys are the only part of the response that may be no UTF-8. -/
theorem validUtf8_rejectedKeys (keys : List Text) (more : Text) :
    validUtf8 (rejectedKeys keys ++ ']' :: more) = (keys.all validUtf8 && validUtf8 more) := by
  induction keys with
  | nil => exact validUtf8_cons (by decide) more
  | cons key keys ih =>
    rw [rejectedKeys_cons, validUtf8_cons (by decide), validUtf8_append_ascii key (by decide),
      List.all_cons, Bool.and_assoc]
    congr 1
    cases keys with
    | nil => exact validUtf8_cons (by decide) more
    | cons key' keys =>
      rw [← ih]
      exact validUtf8_cons (by decide) _

theorem ParamsResult.validUtf8_body (result : ParamsResult) {status : Text}
    (hstatus : validUtf8 status = true) :
    validUtf8 (result.body status) = result.rejected.all validUtf8 := by
  have hlast : validUtf8 (memberText "status".toList (status ++ ['\x7d'])) = true := by
    rw [validUtf8_member (by decide), validUtf8_append_ascii status (by decide), hstatus]
    rfl
  have hrejected : validUtf8 (rejectedMember result.rejected
      (memberText "status".toList (status ++ ['\x7d']))) = result.rejected.all validUtf8 := by
    unfold rejectedMember
    split
    · next hnone => rw [hlast, List.isEmpty_iff.mp hnone, List.all_nil]
    · rw [validUtf8_member (by decide), validUtf8_cons (by decide), validUtf8_rejectedKeys,
        validUtf8_cons (by decide), hlast, Bool.and_true]
  have hcount : ∀ c ∈ decimal result.appliedCount, c.toNat < 0x80 :=
    fun c hc => ascii_of_isDigit (isDigit_of_mem_decimal hc)
  have hok : ∀ c ∈ (if result.rejected.isEmpty then "true" else "false").toList,
      c.toNat < 0x80 := by
    split <;> exact List.all_iff_forall_prop.mp (by decide)
  rw [result.body_eq, validUtf8_cons (by decide), validUtf8_member (by decide),
    validUtf8_ascii_append hok, validUtf8_cons (by decide), validUtf8_member (by decide),
    validUtf8_ascii_append hcount, validUtf8_cons (by decide), hrejected]

/-! ### Reading the members -/

theorem delimited_cons {c : Char} (hc : isAtomChar c = false) (t : Text) : Delimited (c :: t) := by
  rintro d ⟨⟩
  exact hc

/-- A member whose name needs no escape. -/
theorem scanMembers_memberText {n : Nat} {name value rest : Text} {ms : List (Text × Json)}
    (hname : ∀ c ∈ name, isPlainChar c = true) :
    scanMembers (n + 1) (memberText name value) = some (ms, rest) ↔
      ∃ w x c y, scanValue n value = some (w, x) ∧ skipWs x = c :: y ∧
        ((c = ',' ∧ ∃ ms', scanMembers n y = some (ms', rest) ∧ ms = (name, w) :: ms') ∨
          (c = '\x7d' ∧ ms = [(name, w)] ∧ rest = y)) := by
  have hquote : skipWs (memberText name value) = '"' :: (name ++ '"' :: ':' :: value) := rfl
  have hread := scanString_plain hname (':' :: value)
  rw [scanMembers_eq_some]
  constructor
  · -- only one reading of the name is possible
    rintro ⟨s, name', u, v, w, x, c, y, hs, hscan, hcolon, hvalue, hskip, hnext⟩
    rw [hquote] at hs
    obtain rfl := (List.cons.inj hs).2
    rw [hread] at hscan
    cases hscan
    cases hcolon
    exact ⟨w, x, c, y, hvalue, hskip, hnext⟩
  · rintro ⟨w, x, c, y, hvalue, hskip, hnext⟩
    exact ⟨_, name, ':' :: value, value, w, x, c, y, hquote, hread, rfl, hvalue, hskip, hnext⟩

/-- A member with a number or a literal, and more members. -/
theorem scanMembers_atom {n : Nat} {name atom next rest : Text} {v : Json}
    {ms : List (Text × Json)} (hname : ∀ c ∈ name, isPlainChar c = true)
    (hatom : ∀ c ∈ atom, isAtomChar c = true) (hvalue : atomValue atom = some v) :
    scanMembers (n + 2) (memberText name (atom ++ ',' :: next)) = some (ms, rest) ↔
      ∃ ms', scanMembers (n + 1) next = some (ms', rest) ∧ ms = (name, v) :: ms' := by
  have hread : scanValue (n + 1) (atom ++ ',' :: next) = some (v, ',' :: next) :=
    scanValue_atom hatom hvalue (delimited_cons (by decide) next)
  have hcomma : skipWs (',' :: next) = ',' :: next := rfl
  rw [scanMembers_memberText hname, hread]
  constructor
  · rintro ⟨w, x, c, y, heq, hskip, hnext⟩
    cases heq
    rw [hcomma] at hskip
    cases hskip
    rcases hnext with ⟨-, hmore⟩ | ⟨hbrace, -⟩
    · exact hmore
    · exact absurd hbrace (by decide)
  · intro hmore
    exact ⟨v, ',' :: next, ',', next, rfl, hcomma, .inl ⟨rfl, hmore⟩⟩

/-- Text between quotes is read back as it is if and only if it is plain. -/
theorem scanValue_quoted {n : Nat} {key after rest : Text} :
    scanValue (n + 1) ('"' :: (key ++ '"' :: after)) = some (.string key, rest) ↔
      (∀ c ∈ key, isPlainChar c = true) ∧ rest = after := by
  rw [scanValue_string rfl, ← scanString_quoted, Option.map_eq_some_iff]
  constructor
  · rintro ⟨p, hp, heq⟩
    cases heq
    exact hp
  · intro hp
    exact ⟨(key, rest), hp, rfl⟩

/-- Keys between quotes are read back as the keys exactly when none of them
    needs an escape. -/
theorem scanElements_rejectedKeys {keys : List Text} (hkeys : keys ≠ []) {n : Nat}
    (hn : keys.length < n) {more rest : Text} :
    scanElements n (rejectedKeys keys ++ ']' :: more) = some (keys.map .string, rest) ↔
      (∀ key ∈ keys, ∀ c ∈ key, isPlainChar c = true) ∧ rest = more := by
  induction keys generalizing n with
  | nil => exact absurd rfl hkeys
  | cons key keys ih =>
    rw [List.length_cons] at hn
    obtain ⟨n, rfl⟩ : ∃ k, n = k + 2 := ⟨n - 2, by omega⟩
    rw [rejectedKeys_cons]
    generalize hafter : (if keys.isEmpty then ']' :: more
      else ',' :: (rejectedKeys keys ++ ']' :: more)) = after
    rw [scanElements_eq_some]
    have hfirst : ∀ u, scanValue (n + 1) ('"' :: (key ++ '"' :: after)) =
        some (.string key, u) ↔ (∀ c ∈ key, isPlainChar c = true) ∧ u = after :=
      fun _ => scanValue_quoted
    cases keys with
    | nil =>
      obtain rfl : ']' :: more = after := hafter
      constructor
      · rintro ⟨v, u, c, w, hread, hskip, ⟨hcomma, vs', -, hvs⟩ | ⟨-, hvs, rfl⟩⟩
        · -- the list has one element only
          obtain ⟨rfl, rfl⟩ := List.cons.inj hvs
          obtain ⟨hplain, rfl⟩ := (hfirst u).mp hread
          cases hskip
          exact absurd hcomma (by decide)
        · obtain ⟨rfl, -⟩ := List.cons.inj hvs
          obtain ⟨hplain, rfl⟩ := (hfirst u).mp hread
          cases hskip
          exact ⟨by simpa using hplain, rfl⟩
      · rintro ⟨hplain, rfl⟩
        exact ⟨.string key, _, ']', rest, (hfirst _).mpr ⟨by simpa using hplain, rfl⟩, rfl,
          .inr ⟨rfl, rfl, rfl⟩⟩
    | cons key' keys =>
      obtain rfl : ',' :: (rejectedKeys (key' :: keys) ++ ']' :: more) = after := hafter
      have hrest := ih (List.cons_ne_nil _ _) (n := n + 1) (by omega)
      constructor
      · rintro ⟨v, u, c, w, hread, hskip, ⟨-, vs', hmore, hvs⟩ | ⟨hbracket, hvs, -⟩⟩
        · -- behind the comma the remaining keys are read in the same way
          obtain ⟨rfl, rfl⟩ := List.cons.inj hvs
          obtain ⟨hplain, rfl⟩ := (hfirst u).mp hread
          cases hskip
          obtain ⟨hplains, hend⟩ := hrest.mp hmore
          exact ⟨List.forall_mem_cons.mpr ⟨hplain, hplains⟩, hend⟩
        · cases hvs
      · rintro ⟨hplains, hend⟩
        obtain ⟨hplain, hothers⟩ := List.forall_mem_cons.mp hplains
        exact ⟨.string key, _, ',', _, (hfirst _).mpr ⟨hplain, rfl⟩, rfl,
          .inl ⟨rfl, _, hrest.mpr ⟨hothers, hend⟩, rfl⟩⟩

/-! ### Numbers -/

/-- No leading zero. -/
theorem decimal_head {n : Nat} (hn : 0 < n) : (decimal n).head? ≠ some '0' := by
  induction n using Nat.strong_induction_on with
  | _ n ih =>
    unfold decimal
    rcases Nat.lt_or_ge n 10 with hlt | hge
    · have hdigits : ∀ d, d < 10 → 0 < d → Nat.digitChar d ≠ '0' := by decide
      rw [Nat.toDigits_of_lt_base hlt, List.head?_cons]
      intro h
      exact hdigits n hlt hn (Option.some.inj h)
    · have hpos : 0 < n / 10 := Nat.div_pos hge (by decide)
      have hhigh := ih (n / 10) (Nat.div_lt_self hn (by decide)) hpos
      rw [Nat.toDigits_of_base_le (by decide) hge, List.head?_append]
      intro h
      cases hhead : (Nat.toDigits 10 (n / 10)).head? with
      | none => exact absurd (List.head?_eq_none_iff.mp hhead) Nat.toDigits_ne_nil
      | some d =>
        rw [hhead] at h
        exact hhigh (hhead.trans h)

theorem isAtomChar_of_isDigit {c : Char} (h : c.isDigit = true) : isAtomChar c = true := by
  simp [isAtomChar, Char.isAlphanum, h]

/-- Numbers are printed as JSON writes them. -/
theorem atomValue_decimal (n : Nat) : atomValue (decimal n) = some (.number (decimal n)) := by
  have hdigits : ∀ c ∈ decimal n, c.isDigit = true := fun c hc => isDigit_of_mem_decimal hc
  have hliteral : ∀ {literal : Text} {c : Char}, c ∈ literal → c.isDigit = false →
      decimal n ≠ literal := by
    rintro _ c hmem hc rfl
    rw [hdigits c hmem] at hc
    cases hc
  have hsign : (decimal n).head? ≠ some '-' := by
    intro h
    have hminus := hdigits '-' (List.mem_of_head? h)
    exact absurd hminus (by decide)
  have htake : (decimal n).takeWhile Char.isDigit = decimal n :=
    List.takeWhile_eq_self_iff.mpr hdigits
  have hdrop : (decimal n).dropWhile Char.isDigit = [] :=
    List.dropWhile_eq_nil_iff.mpr hdigits
  have hint : isJsonInt (decimal n) = true := by
    unfold isJsonInt
    rcases Nat.eq_zero_or_pos n with rfl | hpos
    · rfl
    · simp [decimal_ne_nil, decimal_head hpos]
  have hnumber : isJsonNumber (decimal n) = true := by
    unfold isJsonNumber
    simp only [if_neg hsign, htake, hdrop, hint]
    rfl
  unfold atomValue
  rw [if_neg (hliteral (c := 'n') (by decide) (by decide)),
    if_neg (hliteral (c := 't') (by decide) (by decide)),
    if_neg (hliteral (c := 'f') (by decide) (by decide)), if_pos hnumber]

/-! ### The response -/

/-- A key that can stand between quotes as it is: UTF-8 without a quote, a
    backslash or a control character. -/
def PlainKey (key : Text) : Prop := validUtf8 key = true ∧ ∀ c ∈ key, isPlainChar c = true

instance (key : Text) : Decidable (PlainKey key) :=
  decidable_of_iff (validUtf8 key = true ∧ key.all isPlainChar = true)
    (and_congr_right fun _ => List.all_eq_true)

/-- The object that the response means to be. -/
def responseObject (applied : Nat) (rejected : List Text) (status : Json) : Json :=
  .object (("ok".toList, .bool rejected.isEmpty) ::
    ("applied".toList, .number (decimal applied)) ::
      ((if rejected.isEmpty then [] else [("rejected".toList, .array (rejected.map .string))]) ++
        [("status".toList, status)]))

/-- The last member: the status, whatever its value. -/
theorem scanMembers_status {status : Text} {v : Json} (hstatus : parseJson status = some v)
    {m : Nat} (hm : 2 * status.length + 4 ≤ m) :
    scanMembers (m + 1) (memberText "status".toList (status ++ ['\x7d'])) =
      some ([("status".toList, v)], []) := by
  obtain ⟨-, rest, hspace, hscan⟩ :=
    scanValue_of_parseJson hstatus hm (delimited_cons (by decide) [] : Delimited ['\x7d'])
  have hskip : skipWs (rest ++ ['\x7d']) = ['\x7d'] := by
    have hall : ∀ c ∈ rest, isJsonSpace c = true := List.dropWhile_eq_nil_iff.mp hspace
    exact List.dropWhile_append_of_pos hall
  exact (scanMembers_memberText (List.all_eq_true.mp (by decide))).mpr
    ⟨v, rest ++ ['\x7d'], '\x7d', [], hscan, hskip, .inr ⟨rfl, rfl, rfl⟩⟩

/-- A member that lists keys, and more members. -/
theorem scanMembers_keys {n : Nat} {name next rest last : Text} {keys : List Text}
    {ms : List (Text × Json)} (hname : ∀ c ∈ name, isPlainChar c = true) (hkeys : keys ≠ [])
    (hn : keys.length < n) (hnext : scanMembers (n + 1) next = some (ms, last)) :
    scanMembers (n + 2) (memberText name ('[' :: (rejectedKeys keys ++ ']' :: ',' :: next))) =
        some ((name, .array (keys.map .string)) :: ms, rest) ↔
      (∀ key ∈ keys, ∀ c ∈ key, isPlainChar c = true) ∧ rest = last := by
  have hbracket : skipWs ('[' :: (rejectedKeys keys ++ ']' :: ',' :: next)) =
      '[' :: (rejectedKeys keys ++ ']' :: ',' :: next) := rfl
  have hfirst : (skipWs (rejectedKeys keys ++ ']' :: ',' :: next)).head? ≠ some ']' := by
    obtain ⟨key, keys, rfl⟩ := List.exists_cons_of_ne_nil hkeys
    rw [rejectedKeys_cons]
    show some '"' ≠ some ']'
    decide
  have hcomma : skipWs (',' :: next) = ',' :: next := rfl
  rw [scanMembers_memberText hname]
  simp only [scanValue_array hbracket hfirst]
  constructor
  · rintro ⟨w, x, c, y, ⟨vs, helements, rfl⟩, hskip, hmore⟩
    -- the value read is the list of the keys, so each key was read as it is
    have hvs : vs = keys.map .string := by
      rcases hmore with ⟨-, ms', -, heq⟩ | ⟨-, heq, -⟩
      · exact (Json.array.inj (Prod.mk.inj (List.cons.inj heq).1).2).symm
      · exact (Json.array.inj (Prod.mk.inj (List.cons.inj heq).1).2).symm
    rw [hvs] at helements
    obtain ⟨hplain, rfl⟩ := (scanElements_rejectedKeys hkeys hn).mp helements
    rw [hcomma] at hskip
    cases hskip
    rcases hmore with ⟨-, ms', hmembers, -⟩ | ⟨hbrace, -⟩
    · rw [hnext] at hmembers
      cases hmembers
      exact ⟨hplain, rfl⟩
    · exact absurd hbrace (by decide)
  · rintro ⟨hplain, rfl⟩
    have helements : scanElements n (rejectedKeys keys ++ ']' :: ',' :: next) =
        some (keys.map .string, ',' :: next) :=
      (scanElements_rejectedKeys hkeys hn).mpr ⟨hplain, rfl⟩
    exact ⟨_, _, ',', next, ⟨_, helements, rfl⟩, hcomma, .inl ⟨rfl, ms, hnext, rfl⟩⟩

/-- The members behind the two counts. -/
theorem scanMembers_rejectedMember {status : Text} {v : Json}
    (hstatus : parseJson status = some v) (rejected : List Text) {n : Nat}
    (hn : 2 * status.length + 4 ≤ n) (hkeys : rejected.length < n) (rest : Text) :
    scanMembers (n + 2) (rejectedMember rejected
        (memberText "status".toList (status ++ ['\x7d']))) =
      some ((if rejected.isEmpty then []
        else [("rejected".toList, .array (rejected.map .string))]) ++
          [("status".toList, v)], rest) ↔
      (∀ key ∈ rejected, ∀ c ∈ key, isPlainChar c = true) ∧ rest = [] := by
  have hname : ∀ c ∈ "rejected".toList, isPlainChar c = true :=
    List.all_eq_true.mp (by decide)
  unfold rejectedMember
  by_cases hempty : rejected.isEmpty = true
  · rw [if_pos hempty, if_pos hempty, List.isEmpty_iff.mp hempty,
      scanMembers_status hstatus (by omega), List.nil_append]
    constructor
    · intro h
      exact ⟨List.forall_mem_nil _, (Prod.mk.inj (Option.some.inj h)).2.symm⟩
    · rintro ⟨-, rfl⟩
      rfl
  · have hne : rejected ≠ [] := fun h => hempty (List.isEmpty_iff.mpr h)
    rw [if_neg hempty, if_neg hempty, List.singleton_append]
    exact scanMembers_keys hname hne hkeys (scanMembers_status hstatus (by omega))

theorem length_le_rejectedKeys (keys : List Text) (more : Text) :
    keys.length + more.length < (rejectedKeys keys ++ ']' :: more).length := by
  induction keys with
  | nil => simp [rejectedKeys]
  | cons key keys ih =>
    rw [rejectedKeys_cons]
    cases keys with
    | nil =>
      simp only [List.isEmpty_nil, if_true, List.length_cons, List.length_append, List.length_nil]
      omega
    | cons key' keys =>
      simp only [List.isEmpty_cons, Bool.false_eq_true, if_false, List.length_cons,
        List.length_append] at ih ⊢
      omega

/-- The body is longer than the status and the list of rejected keys. -/
theorem ParamsResult.length_body (result : ParamsResult) (status : Text) :
    status.length + result.rejected.length + 4 ≤ (result.body status).length := by
  rw [result.body_eq]
  unfold rejectedMember memberText
  have hlong := length_le_rejectedKeys result.rejected
    (',' :: '"' :: ("status".toList ++ '"' :: ':' :: (status ++ ['\x7d'])))
  split
  · next hempty =>
    simp only [List.isEmpty_iff.mp hempty, List.length_nil, List.length_cons, List.length_append]
    omega
  · simp only [List.length_cons, List.length_append, List.cons_append] at hlong ⊢
    omega

/-- Reading the body, given fuel for the status and for the keys. -/
theorem ParamsResult.scanValue_body {status : Text} {v : Json}
    (hstatus : parseJson status = some v) (result : ParamsResult) {n : Nat}
    (hn : 2 * status.length + 4 ≤ n) (hkeys : result.rejected.length < n) (rest : Text) :
    scanValue (n + 6) (result.body status) =
        some (responseObject result.appliedCount result.rejected v, rest) ↔
      (∀ key ∈ result.rejected, ∀ c ∈ key, isPlainChar c = true) ∧ rest = [] := by
  have hok : ∀ c ∈ (if result.rejected.isEmpty then "true" else "false").toList,
      isAtomChar c = true := by
    split <;> exact List.all_eq_true.mp (by decide)
  have hokValue : atomValue (if result.rejected.isEmpty then "true" else "false").toList =
      some (.bool result.rejected.isEmpty) := by
    cases result.rejected.isEmpty <;> rfl
  have hcount : ∀ c ∈ decimal result.appliedCount, isAtomChar c = true :=
    fun c hc => isAtomChar_of_isDigit (isDigit_of_mem_decimal hc)
  have hbrace : (skipWs (memberText "ok".toList
      ((if result.rejected.isEmpty then "true" else "false").toList ++ ',' ::
        memberText "applied".toList (decimal result.appliedCount ++ ',' ::
          rejectedMember result.rejected
            (memberText "status".toList (status ++ ['\x7d'])))))).head? ≠ some '\x7d' := by
    show some '"' ≠ some '\x7d'
    decide
  have hokName : ∀ c ∈ "ok".toList, isPlainChar c = true :=
    List.all_eq_true.mp (by decide)
  have happliedName : ∀ c ∈ "applied".toList, isPlainChar c = true :=
    List.all_eq_true.mp (by decide)
  rw [result.body_eq, scanValue_object rfl hbrace]
  rw [← scanMembers_rejectedMember hstatus result.rejected (n := n + 1) (by omega) (by omega)
    rest]
  simp only [scanMembers_atom hokName hok hokValue,
    scanMembers_atom happliedName hcount (atomValue_decimal _), responseObject]
  constructor
  · rintro ⟨ms, ⟨ms₁, ⟨ms₂, hmembers, rfl⟩, rfl⟩, heq⟩
    have hms := Json.object.inj heq
    rw [hmembers, (List.cons.inj (List.cons.inj hms).2).2]
  · intro hmembers
    exact ⟨_, ⟨_, ⟨_, hmembers, rfl⟩, rfl⟩, rfl⟩

/-- The response is the object it means to be exactly when every rejected
    key can stand between quotes as it is. -/
theorem ParamsResult.parseJson_body {status : Text} {v : Json}
    (hstatus : parseJson status = some v) (result : ParamsResult) :
    parseJson (result.body status) =
        some (responseObject result.appliedCount result.rejected v) ↔
      ∀ key ∈ result.rejected, PlainKey key := by
  obtain ⟨hvalid, -⟩ := scanValue_of_parseJson hstatus (Nat.le_refl _)
    (delimited_cons (by decide) [] : Delimited ['\x7d'])
  obtain ⟨n, hfuel, hn, hkeys⟩ : ∃ n, 2 * (result.body status).length + 4 = n + 6 ∧
      2 * status.length + 4 ≤ n ∧ result.rejected.length < n := by
    have hlength := result.length_body status
    exact ⟨2 * (result.body status).length - 2, by omega, by omega, by omega⟩
  have hscan := result.scanValue_body hstatus hn hkeys
  -- the UTF-8 check sees the keys, and so does the scanner
  unfold parseJson
  rw [result.validUtf8_body hvalid, hfuel]
  constructor
  · intro h key hkey
    split at h
    · next hutf8 =>
      split at h
      · next w rest hread =>
        split at h
        · cases h
          exact ⟨List.all_eq_true.mp hutf8 key hkey, ((hscan rest).mp hread).1 key hkey⟩
        · cases h
      · cases h
    · cases h
  · intro hplain
    rw [if_pos (List.all_eq_true.mpr fun key hkey => (hplain key hkey).1),
      (hscan []).mpr ⟨fun key hkey => (hplain key hkey).2, rfl⟩]
    rfl

/-- The response of every request is the object that says how many controls
    accepted, which other parameters with a key there were, and the status,
    exactly when these keys can stand between quotes as they are; and every
    parameter with a key is counted once. -/
theorem response_well_formed_iff (controls : Controls) (params : List (Text × Text))
    {status : Text} {v : Json} (hstatus : parseJson status = some v) :
    let accepted := acceptedParams controls 0 params
    let rejected := remainingKeys params accepted
    (parseJson ((applyParams controls params).body status) =
        some (responseObject (accepted.count true) rejected v) ∧
      accepted.count true + rejected.length = params.countP fun kv => !kv.1.isEmpty) ↔
    ∀ key ∈ rejected, PlainKey key := by
  intro accepted rejected
  obtain ⟨hcount, hrejected, htotal⟩ := applyParams_accounts controls params
  have hbody := (applyParams controls params).parseJson_body hstatus
  rw [hcount, hrejected] at hbody htotal
  rw [← hbody]
  exact and_iff_left htotal

/-- One accepted parameter, one unknown key and one without a key. -/
theorem response_well_formed_volume :
    let controls : Controls := ⟨fun _ => true, fun _ _ => true, fun _ => false⟩
    let params := [("volume".toList, "50".toList), ("x".toList, []), ([], "1".toList)]
    parseJson ((applyParams controls params).body "\x7b\x7d".toList) =
      some (responseObject 1 ["x".toList] (.object [])) := by
  intro controls params
  have hempty : parseJson "\x7b\x7d".toList = some (.object []) := rfl
  have haccepted : acceptedParams controls 0 params = [true, false, false] := by decide +kernel
  have hplain : ∀ key ∈ remainingKeys params (acceptedParams controls 0 params),
      PlainKey key := by decide +kernel
  have hbody := ((response_well_formed_iff controls params hempty).mpr hplain).1
  rw [haccepted] at hbody
  exact hbody

/-- A key with a quote in it ends its string early: the response is no JSON. -/
theorem response_quoted_key :
    let controls : Controls := ⟨fun _ => true, fun _ _ => true, fun _ => false⟩
    parseJson "\x7b\x7d".toList = some (.object []) ∧
      (parseJson ((applyParams controls [("a\"b".toList, "1".toList)]).body
        "\x7b\x7d".toList)).isNone = true := by
  constructor
  · rfl
  · decide +kernel

end FmSdrTuner
