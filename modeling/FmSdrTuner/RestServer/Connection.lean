import FmSdrTuner.RestServer.Request

/-! # RestServer: one connection

    `RestServer::handleConnection` receives a request in segments: until the
    head is complete, then until the body is as long as the head says. It
    takes whatever has been received behind the head for the body, so what
    follows the body counts as body if it is in the same segment.

    Main result: `request_framing_iff`. -/

namespace FmSdrTuner

/-! ### Receiving -/

/-- `sizeof(buf)`. -/
def recvSize : Nat := 2048

def requestLimit : Nat := 65536

/-- The loop that reads the head: the request as far as it is received, the
    place where its head ends, and the segments to come. `none` if there is
    no such place. -/
def readHead (request : Text) : List Text → Option (Text × Nat × List Text)
  | [] => none
  | s :: ss =>
      if request.length < requestLimit then
        match find headBreak (request ++ s) with
        | some headerEnd => some (request ++ s, headerEnd, ss)
        | none => readHead (request ++ s) ss
      else none

/-- The loop that reads the body. -/
def readBody (contentLength : Nat) (body : Text) : List Text → Text
  | [] => body
  | s :: ss =>
      if body.length < contentLength ∧ body.length < requestLimit then
        readBody contentLength (body ++ s) ss
      else body

/-- How a request is answered. -/
inductive Outcome where
  | badRequest
  /-- `OPTIONS`. -/
  | noContent
  | status
  /-- The pairs go to `applyParams`. -/
  | applied (params : List (Text × Text))
  deriving DecidableEq, Repr

/-- The answer to a request with this body. -/
def RequestLine.outcome (line : RequestLine) (body : Text) : Outcome :=
  if line.method = "OPTIONS".toList then .noContent
  else if line.asksStatus then .status
  else .applied ((if line.query.isEmpty then [] else parseFormParams line.query) ++ parseBody body)

/-- `RestServer::handleConnection`, on the segments that `recv` returns. -/
def handleConnection (segments : List Text) : Outcome :=
  match readHead [] segments with
  | none => .badRequest
  | some (request, headerEnd, ss) =>
      let body := request.drop (headerEnd + headBreak.length)
      (parseRequestLine request).outcome (readBody (contentLength request headerEnd) body ss)

structure Response where
  status : Nat
  statusText : Text
  body : Text
  deriving DecidableEq, Repr

/-- What is sent. -/
def Outcome.response (controls : Controls) (statusJson : Text) : Outcome → Response
  | .badRequest => ⟨400, "Bad Request".toList, "\x7b\"ok\":false\x7d".toList⟩
  | .noContent => ⟨204, "No Content".toList, []⟩
  | .status => ⟨200, "OK".toList, statusJson⟩
  | .applied params => ⟨200, "OK".toList, (applyParams controls params).body statusJson⟩

/-! ### Both loops read until their buffer is complete -/

theorem readBody_eq (length : Nat) (body : Text) (ss : List Text) :
    readBody length body ss =
      (readUntil (fun u => decide (min length requestLimit ≤ u.length)) body ss).1 := by
  induction ss generalizing body with
  | nil => rfl
  | cons s ss ih =>
    rw [readBody, readUntil]
    by_cases hread : body.length < length ∧ body.length < requestLimit
    · have hincomplete : ¬min length requestLimit ≤ body.length := by omega
      rw [if_pos hread, if_neg (by simpa using hincomplete)]
      exact ih (body ++ s)
    · have hcomplete : min length requestLimit ≤ body.length := by omega
      rw [if_neg hread, if_pos (decide_eq_true hcomplete)]

theorem readHead_eq {w request : Text} {headerEnd : Nat} {ss : List Text}
    (hfind : find headBreak w = some headerEnd)
    (hlimit : headerEnd + headBreak.length ≤ requestLimit) (hw : request ++ ss.flatten = w)
    (hrequest : request.length < headerEnd + headBreak.length) :
    let read := readUntil (fun u => (find headBreak u).isSome) request ss
    readHead request ss = some (read.1, headerEnd, read.2) := by
  induction ss generalizing request with
  | nil =>
    -- the stream would end before its head does
    obtain rfl : request = w := by simpa using hw
    have hlength := length_of_find hfind
    omega
  | cons s ss ih =>
    have htake : ∀ u : Text, ∀ t, u ++ t = w → find headBreak u =
        if headerEnd + headBreak.length ≤ u.length then some headerEnd else none := by
      rintro u t rfl
      have hfits := find_take hfind u.length
      rwa [List.take_left' rfl] at hfits
    have hincomplete : (find headBreak request).isSome = false := by
      rw [htake request _ hw, if_neg (by omega)]
      rfl
    have hnext : (request ++ s) ++ ss.flatten = w := by
      rw [List.append_assoc]
      exact hw
    have hroom : request.length < requestLimit := by omega
    rw [readHead, if_pos hroom, readUntil_of_incomplete hincomplete]
    rcases Nat.lt_or_ge (request ++ s).length (headerEnd + headBreak.length) with hlt | hge
    · have hnone : find headBreak (request ++ s) = none := by
        rw [htake _ _ hnext, if_neg (by omega)]
      rw [hnone]
      exact ih hnext hlt
    · have hsome : find headBreak (request ++ s) = some headerEnd := by
        rw [htake _ _ hnext, if_pos hge]
      have hcomplete : (find headBreak (request ++ s)).isSome = true := by rw [hsome]; rfl
      rw [hsome, readUntil_of_complete hcomplete]

/-! ### A request and what follows it -/

/-- The bytes that a client sends: a head, which the first empty line ends,
    and what follows. A head of less than 64 KiB. -/
structure RequestStream where
  head : Text
  rest : Text
  find_eq : find headBreak (head ++ (headBreak ++ rest)) = some head.length
  head_le : head.length + headBreak.length ≤ requestLimit

namespace RequestStream
variable (r : RequestStream)

/-- The whole stream. -/
def text : Text := r.head ++ (headBreak ++ r.rest)

def line : RequestLine := parseRequestLine r.text

/-- The header field Content-Length, 0 if there is none. A name of a field has
    no upper and lower case, and the value may have blanks around it. -/
def declaredLength : Nat :=
  match ((r.head.splitOn '\n').drop 1).find? fun field =>
      decide (contentLengthName <+: field.map Char.toLower) with
  | some field => digitsValue (trim (field.drop contentLengthName.length))
  | none => 0

/-- The answer, were exactly the first Content-Length bytes behind the head
    the body. -/
def expected : Outcome := r.line.outcome (r.rest.take r.declaredLength)

/-- The stream up to `k` bytes behind the head. -/
def upTo (k : Nat) : Text := r.head ++ (headBreak ++ r.rest.take k)

/-- How much of the body the server wants, if `k` bytes of it have come with
    the head. It may read the number out of these bytes, where a last field
    has a name that ends in `content-length` and an empty value. -/
def wanted (k : Nat) : Nat := min (contentLength (r.upTo k) r.head.length) requestLimit

/-- How many bytes behind the head are received, if `k` come with the head,
    and `j` behind the wanted ones. -/
def received (k j : Nat) : Nat := if r.wanted k ≤ k then k else r.wanted k + j

theorem upTo_eq (k : Nat) : r.text.take (r.head.length + headBreak.length + k) = r.upTo k := by
  rw [text, upTo, Nat.add_assoc, List.take_append, List.take_of_length_le (by omega),
    Nat.add_sub_cancel_left, List.take_append, List.take_of_length_le (by omega),
    Nat.add_sub_cancel_left]

theorem drop_upTo (k : Nat) :
    (r.upTo k).drop (r.head.length + headBreak.length) = r.rest.take k := by
  rw [upTo, ← List.drop_drop, List.drop_left' rfl, List.drop_left' rfl]

/-- The request line is complete when the head is. -/
theorem parseRequestLine_upTo (k : Nat) : parseRequestLine (r.upTo k) = r.line := by
  obtain ⟨lineEnd, hle, hfind⟩ := find_front (q := lineBreak) (by decide) r.find_eq
  have hupTo := find_take hfind (r.head.length + headBreak.length + k)
  have hlength : lineEnd + lineBreak.length ≤ r.head.length + headBreak.length + k := by
    have hbreaks : lineBreak.length ≤ headBreak.length := by decide
    omega
  rw [if_pos hlength] at hupTo
  have hline : (r.upTo k).take lineEnd = r.text.take lineEnd := by
    rw [← upTo_eq, List.take_take, Nat.min_eq_left (by omega)]
  rw [← show r.text = r.head ++ (headBreak ++ r.rest) from rfl] at hfind hupTo
  rw [upTo_eq] at hupTo
  rw [line, parseRequestLine, parseRequestLine, hfind, hupTo]
  dsimp only
  rw [hline]

theorem append_drop (k : Nat) : r.upTo k ++ r.rest.drop k = r.text := by
  rw [upTo, text, List.append_assoc, List.append_assoc, List.take_append_drop]

theorem drop_text (k : Nat) :
    r.text.drop (r.head.length + headBreak.length + k) = r.rest.drop k := by
  rw [text, Nat.add_assoc, ← List.drop_drop, List.drop_left' rfl, ← List.drop_drop,
    List.drop_left' rfl]

/-- Once the head is complete. -/
theorem handleConnection_eq {segments : List Text} (hflatten : segments.flatten = r.text)
    {k : Nat} {ss : List Text}
    (hread : readUntil (fun u => (find headBreak u).isSome) [] segments = (r.upTo k, ss)) :
    handleConnection segments = r.line.outcome
      (readUntil (fun u => decide (r.wanted k ≤ u.length)) (r.rest.take k) ss).1 := by
  have hhead := readHead_eq r.find_eq r.head_le
    (show [] ++ segments.flatten = r.text from hflatten) (by simp [headBreak])
  rw [hread] at hhead
  rw [handleConnection, hhead]
  dsimp only
  rw [r.parseRequestLine_upTo, r.drop_upTo, readBody_eq]
  rfl

/-- What is read of the body, `k` bytes of which came with the head. -/
theorem readBody_received {k : Nat} (hk : k < recvSize) {ss : List Text}
    (hflatten : ss.flatten = r.rest.drop k) (hsize : ∀ s ∈ ss, s.length ≤ recvSize) :
    ∃ j < recvSize, (readUntil (fun u => decide (r.wanted k ≤ u.length)) (r.rest.take k) ss).1 =
      r.rest.take (r.received k j) := by
  have hw : r.rest.take k ++ ss.flatten = r.rest := by rw [hflatten, List.take_append_drop]
  -- is there more of the body to read than came with the head?
  rcases Nat.lt_or_ge (r.rest.take k).length (r.wanted k) with hlt | hge
  · obtain ⟨j, hj, hread, -⟩ :=
      readUntil_take (completesAt_length _ _) hsize hw hlt (Nat.zero_lt_of_lt hk)
    refine ⟨j, hj, hread.trans ?_⟩
    rw [received]
    split
    · -- the stream has ended before
      rw [List.length_take] at hlt
      rw [List.take_of_length_le (by omega), List.take_of_length_le (by omega)]
    · rfl
  · refine ⟨0, Nat.zero_lt_of_lt hk, ?_⟩
    have hle : r.wanted k ≤ k := by
      rw [List.length_take] at hge
      omega
    rw [readUntil_of_complete (decide_eq_true hge), received, if_pos hle]

/-- Whatever the segments, the body is what may be received. -/
theorem handleConnection_received (s : Segments recvSize r.text) :
    ∃ k < recvSize, ∃ j < recvSize,
      handleConnection s.segments = r.line.outcome (r.rest.take (r.received k j)) := by
  have hhead : CompletesAt _ r.text _ := completesAt_find r.find_eq
  have hstart : ([] : Text).length < r.head.length + headBreak.length := by simp [headBreak]
  obtain ⟨k, hk, hread, hleft⟩ := readUntil_take hhead s.length_le
    (show [] ++ s.segments.flatten = r.text from s.flatten_eq) hstart (by decide)
  rw [upTo_eq] at hread
  rw [drop_text] at hleft
  have hsuffix := readUntil_suffix (fun u => (find headBreak u).isSome) [] s.segments
  obtain ⟨j, hj, hbody⟩ := r.readBody_received hk hleft
    fun s' hs' => s.length_le s' (hsuffix.mem hs')
  refine ⟨k, hk, j, hj, ?_⟩
  rw [r.handleConnection_eq s.flatten_eq (Prod.ext hread rfl), hbody]

/-- All of that may be received. -/
theorem exists_readBody (k : Nat) {j : Nat} (hj : j < recvSize) :
    ∃ ss : List Text, ss.flatten = r.rest.drop k ∧ (∀ s ∈ ss, s ≠ [] ∧ s.length ≤ recvSize) ∧
      (readUntil (fun u => decide (r.wanted k ≤ u.length)) (r.rest.take k) ss).1 =
        r.rest.take (r.received k j) := by
  have hsingles : ∀ t : Text, ∀ s ∈ singles t, s ≠ [] ∧ s.length ≤ recvSize := by
    intro t s hs
    have hlength := mem_singles hs
    have hone : 1 ≤ recvSize := by decide
    exact ⟨List.ne_nil_of_length_pos (by omega), by omega⟩
  rcases Nat.lt_or_ge (r.rest.take k).length (r.wanted k) with hlt | hge
  · obtain ⟨ss, hflatten, hsize, hread⟩ := exists_readUntil (completesAt_length r.rest (r.wanted k))
      (List.take_append_drop k r.rest) hlt hj
    -- what is left behind the body comes byte by byte, and is not read
    refine ⟨ss ++ singles (r.rest.drop (r.wanted k + j)), ?_, ?_, ?_⟩
    · have hwhole : r.rest.take k ++ (ss ++ singles (r.rest.drop (r.wanted k + j))).flatten =
          r.rest.take k ++ r.rest.drop k := by
        rw [List.flatten_append, flatten_singles, ← List.append_assoc, hflatten,
          List.take_append_drop, List.take_append_drop]
      exact List.append_cancel_left hwhole
    · intro s hs
      rcases List.mem_append.mp hs with hs | hs
      · exact hsize s hs
      · exact hsingles _ s hs
    · rw [hread, readUntil_behind (completesAt_length _ _) (Nat.le_add_right _ _), received]
      split
      · rw [List.length_take] at hlt
        rw [List.take_of_length_le (by omega), List.take_of_length_le (by omega)]
      · rfl
  · have hle : r.wanted k ≤ k := by
      rw [List.length_take] at hge
      omega
    refine ⟨singles (r.rest.drop k), flatten_singles _, hsingles _, ?_⟩
    rw [readUntil_of_complete (decide_eq_true hge), received, if_pos hle]

theorem exists_handleConnection {k j : Nat} (hk : k < recvSize) (hj : j < recvSize) :
    ∃ s : Segments recvSize r.text,
      handleConnection s.segments = r.line.outcome (r.rest.take (r.received k j)) := by
  have hhead : CompletesAt _ r.text _ := completesAt_find r.find_eq
  have hstart : ([] : Text).length < r.head.length + headBreak.length := by simp [headBreak]
  obtain ⟨first, hfirst, hsize, hread⟩ :=
    exists_readUntil hhead (List.nil_append r.text) hstart hk
  obtain ⟨second, hsecond, hsize', hbody⟩ := r.exists_readBody k hj
  rw [upTo_eq] at hfirst hread
  have hflatten : (first ++ second).flatten = r.text := by
    rw [List.flatten_append, hsecond, ← r.append_drop k, ← hfirst]
    rfl
  have hcomplete : (find headBreak (r.upTo k)).isSome = true := by
    rw [← upTo_eq, text, find_take r.find_eq, if_pos (Nat.le_add_right _ _)]
    rfl
  have hsegments : ∀ s ∈ first ++ second, s ≠ [] ∧ s.length ≤ recvSize := by
    intro s hs
    rcases List.mem_append.mp hs with hs | hs
    · exact hsize s hs
    · exact hsize' s hs
  refine ⟨⟨first ++ second, hflatten, fun s hs => (hsegments s hs).1,
    fun s hs => (hsegments s hs).2⟩, ?_⟩
  have hstop := (hread second).trans (readUntil_of_complete hcomplete second)
  rw [r.handleConnection_eq hflatten hstop, hbody]

/-- Where nothing follows the body, and the length found in the head is its
    Content-Length, the segments do not matter. -/
theorem handleConnection_of_exact (hrest : r.rest.length ≤ r.declaredLength)
    (hwanted : ∀ k < recvSize, r.rest.length ≤ r.wanted k) (s : Segments recvSize r.text) :
    handleConnection s.segments = r.expected := by
  obtain ⟨k, hk, j, -, hhandle⟩ := r.handleConnection_received s
  have hle := hwanted k hk
  have hreceived : r.rest.length ≤ r.received k j := by
    rw [received]
    split <;> omega
  rw [hhandle, expected, List.take_of_length_le hreceived, List.take_of_length_le hrest]

end RequestStream

/-! ### Framing -/

/-- Is the request one that sets something? -/
def RequestLine.takesParams (line : RequestLine) : Bool :=
  decide (line.method ≠ "OPTIONS".toList) && !line.asksStatus

theorem RequestLine.outcome_eq_iff (line : RequestLine) (body body' : Text) :
    line.outcome body = line.outcome body' ↔
      (line.takesParams = true → parseBody body = parseBody body') := by
  unfold outcome takesParams
  by_cases hmethod : line.method = "OPTIONS".toList
  · rw [if_pos hmethod, if_pos hmethod, decide_eq_false (not_not_intro hmethod)]
    exact iff_of_true rfl fun h => by cases h
  · rw [if_neg hmethod, if_neg hmethod, decide_eq_true hmethod]
    cases line.asksStatus with
    | true => exact iff_of_true rfl fun h => by cases h
    | false => simp

/-- However the stream of a request is cut into segments, it is answered as
    if exactly the first Content-Length bytes behind the head were the body,
    exactly if all that may be received behind the head parses as they do. -/
theorem request_framing_iff (r : RequestStream) :
    (∀ s : Segments recvSize r.text, handleConnection s.segments = r.expected) ↔
      (r.line.takesParams = true → ∀ k < recvSize, ∀ j < recvSize,
        parseBody (r.rest.take (r.received k j)) = parseBody (r.rest.take r.declaredLength)) := by
  constructor
  · intro h htakes k hk j hj
    obtain ⟨s, hs⟩ := r.exists_handleConnection hk hj
    have houtcome := hs.symm.trans (h s)
    exact (r.line.outcome_eq_iff _ _).mp houtcome htakes
  · intro h s
    obtain ⟨k, hk, j, hj, hs⟩ := r.handleConnection_received s
    rw [hs]
    exact (r.line.outcome_eq_iff _ _).mpr fun htakes => h htakes k hk j hj

/-- One byte follows a body of eight: in a segment of its own it is not read,
    in the segment of the body it is taken for a part of it. -/
theorem further_byte_changes_volume :
    let r : RequestStream := ⟨"POST /api HTTP/1.1\r\nContent-Length: 8".toList,
      "volume=50".toList, by decide +kernel, by decide +kernel⟩
    let together : Segments recvSize r.text :=
      ⟨[r.text], by simp, by decide +kernel, by decide +kernel⟩
    let apart : Segments recvSize r.text :=
      ⟨[r.upTo 8, "0".toList], by decide +kernel, by decide +kernel, by decide +kernel⟩
    r.expected = .applied [("volume".toList, "5".toList)] ∧
      handleConnection apart.segments = .applied [("volume".toList, "5".toList)] ∧
      handleConnection together.segments = .applied [("volume".toList, "50".toList)] ∧
      ¬∀ s : Segments recvSize r.text, handleConnection s.segments = r.expected := by
  intro r together apart
  have htogether : handleConnection together.segments =
      .applied [("volume".toList, "50".toList)] := by
    decide +kernel
  have hexpected : r.expected = .applied [("volume".toList, "5".toList)] := by decide +kernel
  refine ⟨hexpected, by decide +kernel, htogether, ?_⟩
  intro h
  have heq := htogether.symm.trans ((h together).trans hexpected)
  revert heq
  decide +kernel

end FmSdrTuner
