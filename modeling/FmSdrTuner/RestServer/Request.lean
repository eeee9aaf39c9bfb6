import Mathlib.Data.List.DropRight
import FmSdrTuner.Framework.Segments
import FmSdrTuner.RestServer.Params
import FmSdrTuner.Text.Json

/-! # RestServer: requests

    How `RestServer::handleConnection` takes a request apart: the request
    line, the length of the body, and the key/value pairs in the query
    string and in the body. A body that begins with a brace is read as a
    flat JSON object, any other as a form. -/

namespace FmSdrTuner

/-! ### Forms -/

/-- `urlDecode`. -/
def urlDecode : Text → Text
  | [] => []
  | '%' :: a :: b :: t =>
      match hexDigit a, hexDigit b with
      | some hi, some lo => Char.ofNat (hi * 16 + lo) :: urlDecode t
      | _, _ => '%' :: urlDecode (a :: b :: t)
  | '+' :: t => ' ' :: urlDecode t
  | c :: t => c :: urlDecode t

/-- `trim`. -/
def trim (t : Text) : Text := (t.dropWhile isspace).rdropWhile isspace

/-- What one of the parts between `&` says. -/
def formPair (part : Text) : Option (Text × Text) :=
  match find ['='] part with
  | some eq => some (urlDecode (part.take eq), urlDecode (part.drop (eq + 1)))
  | none => if part.isEmpty then none else some (urlDecode part, [])

/-- `parseFormParams`. -/
def parseFormParams (body : Text) : List (Text × Text) := (body.splitOn '&').filterMap formPair

/-! ### Flat JSON -/

/-- The text behind an opening quote, up to the next quote if there is one,
    and what follows. -/
def untilQuote (t : Text) : Text × Text := (t.takeWhile (· ≠ '"'), (t.dropWhile (· ≠ '"')).drop 1)

/-- Skip one character, if it is next. -/
def skipChar (c : Char) : Text → Text
  | [] => []
  | d :: t => if d = c then t else d :: t

/-- Does the character end a value without quotes? -/
def endsValue (c : Char) : Bool := c = ',' || c = '\x7d' || isspace c

/-- A value, in quotes or not, and what follows. -/
def readValue : Text → Text × Text
  | '"' :: t => untilQuote t
  | t => (t.takeWhile (!endsValue ·), t.dropWhile (!endsValue ·))

/-- One round of the loop in `parseFlatJson`: the pair and what follows it,
    or `none` where the loop ends. -/
def readMember (t : Text) : Option ((Text × Text) × Text) :=
  match t.dropWhile isspace with
  | '"' :: t =>
      let key := untilQuote t
      let value := readValue ((skipChar ':' (key.2.dropWhile isspace)).dropWhile isspace)
      some ((trim key.1, trim value.1), skipChar ',' (value.2.dropWhile isspace))
  | _ => none

theorem length_untilQuote (t : Text) : (untilQuote t).2.length ≤ t.length := by
  have hdrop := (List.dropWhile_suffix (l := t) (· ≠ '"')).length_le
  rw [untilQuote, List.length_drop]
  omega

theorem length_skipChar (c : Char) (t : Text) : (skipChar c t).length ≤ t.length := by
  cases t with
  | nil => exact Nat.le_refl _
  | cons d t =>
    rw [skipChar]
    split
    · exact Nat.le_succ _
    · exact Nat.le_refl _

theorem length_dropWhile (p : Char → Bool) (t : Text) : (t.dropWhile p).length ≤ t.length :=
  (List.dropWhile_suffix p).length_le

theorem length_readValue (t : Text) : (readValue t).2.length ≤ t.length := by
  unfold readValue
  split
  · exact Nat.le_succ_of_le (length_untilQuote _)
  · exact length_dropWhile _ _

/-- A round uses up the opening quote at least. -/
theorem length_readMember {t rest : Text} {kv : Text × Text}
    (h : readMember t = some (kv, rest)) : rest.length < t.length := by
  unfold readMember at h
  split at h
  · next u hu =>
    have hquote := length_dropWhile isspace t
    rw [hu, List.length_cons] at hquote
    cases h
    calc
      _ ≤ _ := length_skipChar _ _
      _ ≤ _ := length_dropWhile _ _
      _ ≤ _ := length_readValue _
      _ ≤ _ := length_dropWhile _ _
      _ ≤ _ := length_skipChar _ _
      _ ≤ _ := length_dropWhile _ _
      _ ≤ u.length := length_untilQuote u
      _ < t.length := hquote
  · cases h

/-- The loop of `parseFlatJson`. -/
def parseMembers (t : Text) : List (Text × Text) :=
  match _ : readMember t with
  | none => []
  | some (kv, rest) => kv :: parseMembers rest
termination_by t.length
decreasing_by exact length_readMember ‹_›

/-- `parseFlatJson`. -/
def parseFlatJson (body : Text) : List (Text × Text) :=
  match body.dropWhile isspace with
  | '\x7b' :: t => parseMembers t
  | _ => []

/-- The pairs of a body. -/
def parseBody (body : Text) : List (Text × Text) :=
  if body.isEmpty then []
  else if (trim body).head? = some '\x7b' then parseFlatJson (trim body)
  else parseFormParams (trim body)

/-! ### The head -/

/-- The characters that end a line, and the two such in a row that end the
    head. -/
def lineBreak : Text := ['\r', '\n']
def headBreak : Text := ['\r', '\n', '\r', '\n']

/-- A word read from a stream with `>>`, and what follows. -/
def nextWord (t : Text) : Text × Text :=
  ((t.dropWhile isspace).takeWhile (!isspace ·), (t.dropWhile isspace).dropWhile (!isspace ·))

structure RequestLine where
  method : Text
  path : Text
  query : Text
  deriving DecidableEq, Repr

/-- The request line, up to the first line break. -/
def parseRequestLine (request : Text) : RequestLine :=
  let line := match find lineBreak request with
    | some lineEnd => request.take lineEnd
    | none => request
  let method := nextWord line
  let target := (nextWord method.2).1
  match find ['?'] target with
  | some q => ⟨method.1, target.take q, target.drop (q + 1)⟩
  | none => ⟨method.1, target, []⟩

def contentLengthName : Text := "content-length:".toList

/-- The length of the body: the number behind the first `content-length:` in
    the head in lower case, wherever that is. -/
def contentLength (request : Text) (headerEnd : Nat) : Nat :=
  match find contentLengthName ((request.take headerEnd).map Char.toLower) with
  | some cl => strtoul (request.drop (cl + contentLengthName.length))
  | none => 0

/-- Is the request answered with the status? -/
def RequestLine.asksStatus (line : RequestLine) : Bool :=
  line.path = "/api/status".toList || line.path = "/status".toList ||
    (line.method = "GET".toList && (line.path = "/".toList || line.path = "/api".toList))

end FmSdrTuner
