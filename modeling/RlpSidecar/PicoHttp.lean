/-
**The request parser** (`picohttpparser.c`).

A position in the buffer is the list of the bytes from there to the end. `CHECK_EOF` is the empty
list, and reports that the head is incomplete. The loops over several bytes at a time only skip
bytes that the loop after them accepts; they have a module of their own.

A header points into the buffer, and nothing ends its value: who reads it as a C string reads on.
`value_ptr` is what there is from the first byte of the value on.

The functions have the names of the source, macros included, and fail where the source returns `-1`
or `-2`. The headers are a list of the slots that were filled, and a parser takes the number of
slots that there are.
-/
import RlpSidecar.Decimal
import Mathlib.Data.List.DropRight

set_option autoImplicit false

namespace PicoHttp

/-- The two failures of the parser, by their return values: −2, the text may still become a head,
and −1, it cannot. -/
inductive Fail
  | incomplete
  | failed
  deriving DecidableEq, Repr

/-- `phr_header`. The name is null for a line that continues the one before it. -/
structure phr_header where
  name : Option (List UInt8)
  value : List UInt8
  value_ptr : List UInt8
  deriving DecidableEq, Repr

/-- What `phr_parse_request` stores through its pointers. The texts point into the buffer; here
they are the bytes themselves, with the rest of the buffer behind a value beside it. -/
structure Request where
  method : List UInt8
  path : List UInt8
  minor : ℕ
  headers : List phr_header
  deriving DecidableEq, Repr

/-- What `phr_parse_response` stores. Nobody reads on after the end of a value here, so names and
values are all that is kept of the headers. -/
structure Response where
  minor : ℕ
  status : ℕ
  msg : List UInt8
  headers : List (Option (List UInt8) × List UInt8)
  deriving DecidableEq, Repr

/-! ## Characters -/

/-- A space or a tab, which may stand around a value. -/
def isBlank (c : UInt8) : Bool := c = 32 || c = 9

/-- A control character other than a tab: what ends a value, whether as the end of the line or as
an error. -/
def isCtl (c : UInt8) : Bool := (c.toNat < 32 && c ≠ 9) || c = 127

/-- The class of `token_char_map`, in ranges. `token_char_map_eq` compares it with the table as the
source has it. -/
def token_char (c : UInt8) : Bool :=
  Decimal.isDigit c || (65 ≤ c.toNat && c.toNat ≤ 90) || (94 ≤ c.toNat && c.toNat ≤ 122)
    || decide (c ∈ ([33, 35, 36, 37, 38, 39, 42, 43, 45, 46, 124, 126] : List UInt8))

/-! ## Scanning -/

/-- `EXPECT_CHAR`, with the `CHECK_EOF` in front of it. -/
def expect_char (ch : UInt8) : List UInt8 → Except Fail (List UInt8)
  | [] => .error .incomplete
  | c :: rest => if c = ch then .ok rest else .error .failed

/-- `EXPECT_CHAR` for one byte after the other; the first that is missing or wrong ends it. -/
def expect_chars : List UInt8 → List UInt8 → Except Fail (List UInt8)
  | [], buf => .ok buf
  | ch :: chs, buf => do
    let buf ← expect_char ch buf
    expect_chars chs buf

/-- The end of a line, a newline with or without a carriage return. A carriage return alone is
none. -/
def expect_eol : List UInt8 → Except Fail (List UInt8)
  | [] => .error .incomplete
  | c :: rest =>
    if c = 13 then expect_char 10 rest
    else if c = 10 then .ok rest
    else .error .failed

/-- The bytes up to one at which the loop stops, and what follows from it on. All of them must be
`allowed`. -/
def scan (stop allowed : UInt8 → Bool) : List UInt8 → Except Fail (List UInt8 × List UInt8)
  | [] => .error .incomplete
  | c :: rest =>
    if stop c then .ok ([], c :: rest)
    else if allowed c then do
      let (token, buf) ← scan stop allowed rest
      .ok (c :: token, buf)
    else .error .failed

/-- `parse_token`: bytes of tokens up to `next_char`, which stays in the rest. Any other byte is a
failure. -/
def parse_token (next_char : UInt8) (buf : List UInt8) : Except Fail (List UInt8 × List UInt8) :=
  scan (· = next_char) token_char buf

/-- `ADVANCE_TOKEN`: the target of a request, up to the next space. Bytes from 128 on are let
through. -/
def advance_token (buf : List UInt8) : Except Fail (List UInt8 × List UInt8) :=
  scan (· = 32) (fun c => !(c.toNat < 32 || c = 127)) buf

/-- `get_token_to_eol`: the line up to the first control character, which has to be its end, and
what follows that. -/
def get_token_to_eol (buf : List UInt8) : Except Fail (List UInt8 × List UInt8) := do
  let (token, buf) ← scan isCtl (fun _ => true) buf
  let buf ← expect_eol buf
  .ok (token, buf)

/-- `++buf` over bytes of a kind, with a `CHECK_EOF` before each is looked at. -/
def skip_while (p : UInt8 → Bool) (buf : List UInt8) : Except Fail (List UInt8) := do
  let (_, buf) ← scan (fun c => !p c) (fun _ => true) buf
  .ok buf

/-- `is_complete`: whether two line ends follow each other. `ret_cnt` is the number just seen. -/
def is_complete : ℕ → List UInt8 → Except Fail Unit
  | _, [] => .error .incomplete
  | ret_cnt, c :: rest =>
    if c = 13 then
      match rest with
      -- a carriage return at the very end, whose line feed is still to come
      | [] => .error .incomplete
      | d :: rest =>
        if d = 10 then if ret_cnt = 1 then .ok () else is_complete (ret_cnt + 1) rest
        else .error .failed
    else if c = 10 then if ret_cnt = 1 then .ok () else is_complete (ret_cnt + 1) rest
    -- any other byte begins a line
    else is_complete 0 rest

/-! ## Lines -/

/-- "HTTP/1.", the part of the version that is fixed. -/
def VERSION : List UInt8 := [72, 84, 84, 80, 47, 49, 46]

/-- `parse_http_version`: the minor version, one digit. Nine bytes have to be there before anything
is compared. -/
def parse_http_version (buf : List UInt8) : Except Fail (ℕ × List UInt8) := do
  if buf.length < 9 then .error .incomplete
  else
    match ← expect_chars VERSION buf with
    | [] => .error .incomplete
    | c :: rest =>
      if Decimal.isDigit c then .ok (Decimal.digitValue c, rest) else .error .failed

/-- What `parse_headers` does before a value. A line that starts with a blank has no name, unless
it is the first, and keeps its blanks. -/
def parse_name (first : Bool) (buf : List UInt8) : Except Fail (Option (List UInt8) × List UInt8) :=
  if first = false ∧ buf.head?.any isBlank then .ok (none, buf)
  else do
    let (name, buf) ← parse_token 58 buf
    if name = [] then .error .failed
    else
      let buf ← skip_while isBlank buf.tail
      .ok (some name, buf)

/-- One line of `parse_headers`: the name, unless the line goes on with the header before it, and
the value without the blanks at its end. The third component is the buffer from the value on. -/
def parse_header (first : Bool) (buf : List UInt8) : Except Fail (phr_header × List UInt8) := do
  let (name, buf) ← parse_name first buf
  let (value, rest) ← get_token_to_eol buf
  .ok (⟨name, value.rdropWhile isBlank, buf⟩, rest)

/-- `parse_headers`, with room for `slots` more headers. The empty line ends it, and a header
without a slot is a failure. -/
def parse_headers : ℕ → Bool → List UInt8 → Except Fail (List phr_header × List UInt8)
  | _, _, [] => .error .incomplete
  | slots, first, c :: rest =>
    -- the empty line, which ends the head
    if c = 13 ∨ c = 10 then do
      let buf ← expect_eol (c :: rest)
      .ok ([], buf)
    else
      match slots with
      -- more headers than there are slots
      | 0 => .error .failed
      | slots + 1 => do
        let (header, buf) ← parse_header first (c :: rest)
        let (headers, buf) ← parse_headers slots false buf
        .ok (header :: headers, buf)

/-- "skip first empty line (some clients add CRLF after POST content)", in a request only. One such
line is skipped. -/
def skip_empty_line : List UInt8 → Except Fail (List UInt8)
  | [] => .error .incomplete
  | c :: rest => if c = 13 ∨ c = 10 then expect_eol (c :: rest) else .ok (c :: rest)

/-- `parse_request`: method, target and version, any number of spaces between them, and the
headers. Whether method and target are empty is asked only after both. -/
def parse_request (max_headers : ℕ) (buf : List UInt8) : Except Fail (Request × List UInt8) := do
  let buf ← skip_empty_line buf
  let (method, buf) ← parse_token 32 buf
  -- `do { ++buf; } while (*buf == ' ')`
  let buf ← skip_while (· = 32) buf.tail
  let (path, buf) ← advance_token buf
  let buf ← skip_while (· = 32) buf.tail
  if method = [] ∨ path = [] then .error .failed
  else
    let (minor, buf) ← parse_http_version buf
    let buf ← expect_eol buf
    let (headers, buf) ← parse_headers max_headers true buf
    .ok (⟨method, path, minor, headers⟩, buf)

/-- `phr_parse_request`: the request, and the size of its head. `last_len` bytes were there when the
head was last found to be incomplete. -/
def phr_parse_request (buf : List UInt8) (max_headers last_len : ℕ) :
    Except Fail (Request × ℕ) := do
  if last_len ≠ 0 then is_complete 0 (buf.drop (last_len - 3))
  let (request, rest) ← parse_request max_headers buf
  .ok (request, buf.length - rest.length)

/-! ## Responses -/

/-- `PARSE_INT_3`: exactly three digits, with the four bytes of the caller's check behind it. -/
def parse_int_3 : List UInt8 → Except Fail (ℕ × List UInt8)
  | c :: d :: e :: rest =>
    if Decimal.isDigit c && Decimal.isDigit d && Decimal.isDigit e then
      .ok (Decimal.value [c, d, e], rest)
    else .error .failed
  | _ => .error .incomplete

/-- The reason of a status line, after the spaces before it. Behind the three digits of the status
nothing or a space has to stand. -/
def reason_of : List UInt8 → Except Fail (List UInt8)
  | [] => .ok []
  | c :: msg => if c = 32 then .ok (msg.dropWhile (· = 32)) else .error .failed

/-- `parse_response`: version, status, reason and headers. The names and the values are all that
its callers read. -/
def parse_response (max_headers : ℕ) (buf : List UInt8) : Except Fail (Response × List UInt8) := do
  let (minor, buf) ← parse_http_version buf
  match buf with
  | [] => .error .incomplete
  | c :: rest =>
    if c ≠ 32 then .error .failed
    else
      let buf ← skip_while (· = 32) rest
      -- three digits and one byte behind them are looked at together
      if buf.length < 4 then .error .incomplete
      else
        let (status, buf) ← parse_int_3 buf
        let (token, buf) ← get_token_to_eol buf
        let msg ← reason_of token
        let (headers, buf) ← parse_headers max_headers true buf
        .ok (⟨minor, status, msg, headers.map fun h => (h.name, h.value)⟩, buf)

/-- `phr_parse_response`, with the length of the head instead of a pointer. If part of the text was
seen before, `is_complete` first looks for the end of the head in the new part, from three bytes
before it on. -/
def phr_parse_response (buf : List UInt8) (max_headers last_len : ℕ) :
    Except Fail (Response × ℕ) := do
  if last_len ≠ 0 then is_complete 0 (buf.drop (last_len - 3))
  let (response, rest) ← parse_response max_headers buf
  .ok (response, buf.length - rest.length)

end PicoHttp
