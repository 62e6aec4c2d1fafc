/-
**The scanners that take several bytes at a time** (`picohttpparser.c`).

The parser is built in two ways. With SSE 4.2, sixteen bytes at once are compared with up to eight
ranges of bytes, before the loop over the single bytes; without, eight single steps of the scan for
the end of a line are written out. A scanner then cuts its token out of the buffer, between where
it started and where it stopped. Neither build reads anything else out of a head than the scanners
that take one byte after the other.

The two builds are the values of `Build`, and a function that differs between them takes one; the
parser over these functions is written once more. `scan_from` is the reason why the difference does
not show, and `phr_parse_eq` says so for every buffer, any number of headers and any bytes looked
at before.
-/
import RlpSidecar.PicoHttpSpec
import Mathlib.Data.List.TakeWhile

set_option autoImplicit false

namespace PicoHttp

/-! ## Characters -/

/-- `IS_PRINTABLE_ASCII`. The subtraction is on unsigned numbers, so that what is below the space
is far above it. -/
def IS_PRINTABLE_ASCII (c : UInt8) : Bool := decide (((c.toNat : ℤ) - 32) % 2 ^ 32 < 95)

/-- `token_char_map`, as it is written there, a row of 32 after the other. -/
def token_char_map : List ℕ :=
  [0,0,0,0,0,0,0,0,0,0,0,0,0,0,0,0,0,0,0,0,0,0,0,0,0,0,0,0,0,0,0,0,
   0,1,0,1,1,1,1,1,0,0,1,1,0,1,1,0,1,1,1,1,1,1,1,1,1,1,0,0,0,0,0,0,
   0,1,1,1,1,1,1,1,1,1,1,1,1,1,1,1,1,1,1,1,1,1,1,1,1,1,1,0,0,0,1,1,
   1,1,1,1,1,1,1,1,1,1,1,1,1,1,1,1,1,1,1,1,1,1,1,1,1,1,1,0,1,0,1,0,
   0,0,0,0,0,0,0,0,0,0,0,0,0,0,0,0,0,0,0,0,0,0,0,0,0,0,0,0,0,0,0,0,
   0,0,0,0,0,0,0,0,0,0,0,0,0,0,0,0,0,0,0,0,0,0,0,0,0,0,0,0,0,0,0,0,
   0,0,0,0,0,0,0,0,0,0,0,0,0,0,0,0,0,0,0,0,0,0,0,0,0,0,0,0,0,0,0,0,
   0,0,0,0,0,0,0,0,0,0,0,0,0,0,0,0,0,0,0,0,0,0,0,0,0,0,0,0,0,0,0,0]

/-- The first and the last byte of each range, as pairs: the source has them in a string, one after
the other. -/
abbrev Ranges := List (UInt8 × UInt8)

/-- Whether one of the ranges has the byte, as `_mm_cmpestri` asks it with `_SIDD_CMP_RANGES`. -/
def in_ranges (ranges : Ranges) (c : UInt8) : Bool := ranges.any fun r => r.1 ≤ c && c ≤ r.2

/-- `ranges1` of `get_token_to_eol`: the control characters other than the tab. -/
def ranges1 : Ranges := [(0, 8), (10, 31), (127, 127)]

/-- `ranges2` of `ADVANCE_TOKEN`: the control characters, the tab among them, and the space. -/
def ranges2 : Ranges := [(0, 32), (127, 127)]

/-- `ranges` of `parse_token`. "This instruction can take no more than eight character ranges", and
'|' and '~' are in the last of them. -/
def token_ranges : Ranges :=
  [(0, 32), (34, 34), (40, 41), (44, 44), (47, 47), (58, 64), (91, 93), (123, 255)]

/-! ## Several bytes at a time -/

/-- `_mm_cmpestri`: where the first byte in a range is, and otherwise how many bytes there are. -/
def cmpestri (ranges : Ranges) (b16 : List UInt8) : ℕ := b16.findIdx (in_ranges ranges)

/-- The loop of `findchar_fast`, over the blocks of 16 bytes that are left. It stops inside a
block, at the first byte of the ranges, or behind the last whole block. -/
def find_blocks (ranges : Ranges) : ℕ → List UInt8 → List UInt8 × Bool
  | 0, buf => (buf, false)
  | left + 1, buf =>
    let r := cmpestri ranges (buf.take 16)
    if r ≠ 16 then (buf.drop r, true) else find_blocks ranges left (buf.drop 16)

/-- `DOIT`, over and over: where it is left, and whether a byte was not printable there. -/
def DOIT : ℕ → List UInt8 → List UInt8 × Bool
  | 0, buf => (buf, false)
  | _ + 1, [] => ([], false)
  | n + 1, c :: rest => if IS_PRINTABLE_ASCII c then DOIT n rest else (c :: rest, true)

/-- `n` uses of `DOIT` move by `n` bytes unless one of them finds something. -/
theorem DOIT_length (n : ℕ) (buf : List UInt8) :
    (DOIT n buf).1.length ≤ buf.length
      ∧ ((DOIT n buf).2 = false → (DOIT n buf).1.length = buf.length - n) := by
  induction n generalizing buf with
  | zero => simp [DOIT]
  | succ n ih =>
      cases buf with
      | nil => simp [DOIT]
      | cons c rest =>
          unfold DOIT
          split_ifs
          · obtain ⟨hle, heq⟩ := ih rest
            exact ⟨by simp only [List.length_cons]; omega, fun h => by rw [heq h]; simp⟩
          · simp

/-- "find non-printable char within the next 8 bytes": where it stops, and whether at a control
character. -/
def printable_blocks (buf : List UInt8) : List UInt8 × Bool :=
  if 8 ≤ buf.length then
    match _h : DOIT 8 buf with
    | (buf', false) => printable_blocks buf'
    | ([], true) => ([], false)
    | (c :: rest, true) => if isCtl c then (c :: rest, true) else printable_blocks rest
  else (buf, false)
termination_by buf.length
decreasing_by
  · have hlen := (DOIT_length 8 buf).2
    rw [_h] at hlen
    have := hlen rfl
    dsimp only at this
    omega
  · have hlen := (DOIT_length 8 buf).1
    rw [_h, List.length_cons] at hlen
    omega

/-! ## The two builds -/

/-- Whether `__SSE4_2__` is defined: the two versions of the parser that the same source gives. -/
inductive Build
  | sse4_2
  | portable
  deriving DecidableEq, Repr

/-- `findchar_fast`: how far it gets, and `*found`. Without SSE it does nothing and finds
nothing. -/
def Build.findchar_fast (ranges : Ranges) (buf : List UInt8) : Build → List UInt8 × Bool
  | sse4_2 => find_blocks ranges (buf.length / 16) buf
  | portable => (buf, false)

/-- What `get_token_to_eol` does before its last loop, and whether that loop is left out. -/
def Build.find_ctl (buf : List UInt8) : Build → List UInt8 × Bool
  | sse4_2 => sse4_2.findchar_fast ranges1 buf
  | portable => printable_blocks buf

/-- What is between two pointers into the buffer, of which the second is not before the first. -/
def between (tok_start buf : List UInt8) : List UInt8 :=
  tok_start.take (tok_start.length - buf.length)

/-- `parse_token` of a build: the fast search skips what is surely part of a token, and the loop
over the table goes on from there, whatever the search has found. -/
def Build.parse_token (build : Build) (next_char : UInt8) (buf_start : List UInt8) :
    Except Fail (List UInt8 × List UInt8) := do
  let (_, buf) ← scan (· = next_char) (fun c => token_char_map.getD c.toNat 0 ≠ 0)
    (build.findchar_fast token_ranges buf_start).1
  .ok (between buf_start buf, buf)

/-- `ADVANCE_TOKEN` of a build. The test for a printable byte in front of the others is a
shortcut. -/
def Build.advance_token (build : Build) (tok_start : List UInt8) :
    Except Fail (List UInt8 × List UInt8) := do
  let (_, buf) ← scan (· = 32) (fun c => IS_PRINTABLE_ASCII c || !(c.toNat < 32 || c = 127))
    (build.findchar_fast ranges2 tok_start).1
  .ok (between tok_start buf, buf)

/-- How `get_token_to_eol` comes to `FOUND_CTL`: by the fast search, or by the loop for the last
few bytes. -/
def Build.found_ctl (build : Build) (token_start : List UInt8) : Except Fail (List UInt8) :=
  let (buf, found) := build.find_ctl token_start
  if found then .ok buf
  else (scan (fun c => !IS_PRINTABLE_ASCII c && isCtl c) (fun _ => true) buf).map Prod.snd

/-- `get_token_to_eol` of a build: the text up to the end of the line, and what follows the
line. -/
def Build.get_token_to_eol (build : Build) (token_start : List UInt8) :
    Except Fail (List UInt8 × List UInt8) := do
  let buf ← build.found_ctl token_start
  let rest ← expect_eol buf
  .ok (between token_start buf, rest)

/-! ## The parser over them -/

/-- What `parse_headers` does before a value: nothing for a line that goes on with the header
before it, or the name, the colon and the blanks. -/
def Build.parse_name (build : Build) (first : Bool) (buf : List UInt8) :
    Except Fail (Option (List UInt8) × List UInt8) :=
  -- a line that starts with a blank continues the value before it
  if first = false ∧ buf.head?.any isBlank then .ok (none, buf)
  else do
    let (name, buf) ← build.parse_token 58 buf
    if name = [] then .error .failed
    else
      let buf ← skip_while isBlank buf.tail
      .ok (some name, buf)

/-- One line of `parse_headers` of a build: a name, unless the line continues the one before, and a
value. -/
def Build.parse_header (build : Build) (first : Bool) (buf : List UInt8) :
    Except Fail (phr_header × List UInt8) := do
  let (name, buf) ← build.parse_name first buf
  let (value, rest) ← build.get_token_to_eol buf
  .ok (⟨name, value.rdropWhile isBlank, buf⟩, rest)

/-- `parse_headers` of a build. From here on a build differs from the plain parser only in what it
calls. -/
def Build.parse_headers (build : Build) : ℕ → Bool → List UInt8 →
    Except Fail (List phr_header × List UInt8)
  | _, _, [] => .error .incomplete
  | slots, first, c :: rest =>
    -- the empty line, which ends the head
    if c = 13 ∨ c = 10 then do
      let buf ← expect_eol (c :: rest)
      .ok ([], buf)
    else
      match slots with
      -- more headers than there are slots
      | 0 => .error .failed
      | slots + 1 => do
        let (header, buf) ← build.parse_header first (c :: rest)
        let (headers, buf) ← build.parse_headers slots false buf
        .ok (header :: headers, buf)

/-- `parse_request` of a build: the request line, and then the headers. -/
def Build.parse_request (build : Build) (max_headers : ℕ) (buf : List UInt8) :
    Except Fail (Request × List UInt8) := do
  let buf ← skip_empty_line buf
  let (method, buf) ← build.parse_token 32 buf
  -- `do { ++buf; } while (*buf == ' ')`
  let buf ← skip_while (· = 32) buf.tail
  let (path, buf) ← build.advance_token buf
  let buf ← skip_while (· = 32) buf.tail
  if method = [] ∨ path = [] then .error .failed
  else
    let (minor, buf) ← parse_http_version buf
    let buf ← expect_eol buf
    let (headers, buf) ← build.parse_headers max_headers true buf
    .ok (⟨method, path, minor, headers⟩, buf)

/-- `phr_parse_request` of a build, which first looks for the end of the head behind what was seen
before. -/
def Build.phr_parse_request (build : Build) (buf : List UInt8) (max_headers last_len : ℕ) :
    Except Fail (Request × ℕ) := do
  if last_len ≠ 0 then is_complete 0 (buf.drop (last_len - 3))
  let (request, rest) ← build.parse_request max_headers buf
  .ok (request, buf.length - rest.length)

/-- `parse_response` of a build: the status line, and then the headers. -/
def Build.parse_response (build : Build) (max_headers : ℕ) (buf : List UInt8) :
    Except Fail (Response × List UInt8) := do
  let (minor, buf) ← parse_http_version buf
  match buf with
  | [] => .error .incomplete
  | c :: rest =>
    if c ≠ 32 then .error .failed
    else
      let buf ← skip_while (· = 32) rest
      -- three digits and one byte behind them are looked at together
      if buf.length < 4 then .error .incomplete
      else
        let (status, buf) ← parse_int_3 buf
        let (token, buf) ← build.get_token_to_eol buf
        let msg ← reason_of token
        let (headers, buf) ← build.parse_headers max_headers true buf
        .ok (⟨minor, status, msg, headers.map fun h => (h.name, h.value)⟩, buf)

/-- `phr_parse_response` of a build, which first looks for the end of the head behind what was seen
before. -/
def Build.phr_parse_response (build : Build) (buf : List UInt8) (max_headers last_len : ℕ) :
    Except Fail (Response × ℕ) := do
  if last_len ≠ 0 then is_complete 0 (buf.drop (last_len - 3))
  let (response, rest) ← build.parse_response max_headers buf
  .ok (response, buf.length - rest.length)

/-! ## What the characters are -/

/-- What holds of each of the 256 is checked for each. The facts about tables and ranges below are
shown in this way. -/
theorem forall_byte {p : UInt8 → Prop} (h : ∀ n < 256, p (UInt8.ofNat n)) (c : UInt8) : p c := by
  have hc := h c.toNat c.toNat_lt
  rwa [UInt8.ofNat_toNat] at hc

/-- The table is the class that the plain parser asks for. -/
theorem token_char_map_eq (c : UInt8) : decide (token_char_map.getD c.toNat 0 ≠ 0) = token_char c :=
  forall_byte (p := fun c => decide (token_char_map.getD c.toNat 0 ≠ 0) = token_char c)
    (by decide +kernel) c

/-- A byte that is not printable is a control character, or one of those above. -/
theorem printable_ctl (c : UInt8) : (!IS_PRINTABLE_ASCII c && isCtl c) = isCtl c :=
  forall_byte (p := fun c => (!IS_PRINTABLE_ASCII c && isCtl c) = isCtl c) (by decide +kernel) c

/-- The shortcut in `ADVANCE_TOKEN` changes nothing: a printable byte passes the other tests. -/
theorem printable_path (c : UInt8) :
    (IS_PRINTABLE_ASCII c || !(c.toNat < 32 || c = 127)) = !(c.toNat < 32 || c = 127) :=
  forall_byte (p := fun c => (IS_PRINTABLE_ASCII c || !(c.toNat < 32 || c = 127))
    = !(c.toNat < 32 || c = 127))
    (by decide +kernel) c

/-- The first ranges are the control characters that end a line. -/
theorem in_ranges1 (c : UInt8) : in_ranges ranges1 c = isCtl c :=
  forall_byte (p := fun c => in_ranges ranges1 c = isCtl c) (by decide +kernel) c

/-- What the search of `ADVANCE_TOKEN` skips, its loop would have passed. -/
theorem not_in_ranges2 (c : UInt8) (h : in_ranges ranges2 c = false) :
    decide (c = 32) = false ∧ (!(c.toNat < 32 || c = 127)) = true :=
  forall_byte (p := fun c => in_ranges ranges2 c = false →
    decide (c = 32) = false ∧ (!(c.toNat < 32 || c = 127)) = true) (by decide +kernel) c h

/-- What the search of `parse_token` skips is part of a token, and is neither of the two bytes that
end one. -/
theorem not_in_token_ranges (c : UInt8) (h : in_ranges token_ranges c = false) :
    c ≠ 32 ∧ c ≠ 58 ∧ token_char c = true :=
  forall_byte (p := fun c => in_ranges token_ranges c = false → c ≠ 32
    ∧ c ≠ 58 ∧ token_char c = true)
    (by decide +kernel) c h

/-! ## What is skipped -/

section Skips

variable {p : UInt8 → Bool} {a b c : List UInt8}

/-- One pointer is behind the other, and no byte between them is of a kind. -/
def Skips (p : UInt8 → Bool) (a b : List UInt8) : Prop :=
  ∃ skipped, a = skipped ++ b ∧ ∀ x ∈ skipped, p x = false

/-- Nothing is skipped, so nothing was passed over that should not be. -/
theorem Skips.refl (a : List UInt8) : Skips p a a := ⟨[], rfl, by simp⟩

/-- One skip after another is a skip over both texts. -/
theorem Skips.trans (hab : Skips p a b) (hbc : Skips p b c) : Skips p a c := by
  obtain ⟨s, rfl, hs⟩ := hab
  obtain ⟨t, rfl, ht⟩ := hbc
  refine ⟨s ++ t, (List.append_assoc s t c).symm, fun x hx => ?_⟩
  rcases List.mem_append.mp hx with hx | hx
  · exact hs x hx
  · exact ht x hx

/-- One more byte in front is skipped, if it may be passed over. -/
theorem Skips.cons {x : UInt8} (hx : p x = false) (hab : Skips p a b) : Skips p (x :: a) b := by
  obtain ⟨s, rfl, hs⟩ := hab
  exact ⟨x :: s, rfl, List.forall_mem_cons.mpr ⟨hx, hs⟩⟩

end Skips

/-- The instruction skips what is in no range, and stops at what is in one. -/
theorem cmpestri_skips (ranges : Ranges) (buf : List UInt8) :
    Skips (in_ranges ranges) buf (buf.drop (cmpestri ranges (buf.take 16)))
      ∧ (cmpestri ranges (buf.take 16) < (buf.take 16).length →
        ∃ c ∈ (buf.drop (cmpestri ranges (buf.take 16))).head?, in_ranges ranges c = true) := by
  unfold cmpestri
  have hle : (buf.take 16).findIdx (in_ranges ranges) ≤ (buf.take 16).length :=
    List.findIdx_le_length
  refine ⟨⟨(buf.take 16).take ((buf.take 16).findIdx (in_ranges ranges)), ?_, fun c hc => ?_⟩,
    fun hlt => ?_⟩
  · have h16 : (buf.take 16).findIdx (in_ranges ranges) ≤ 16 := by
      rw [List.length_take] at hle
      omega
    rw [List.take_take, min_eq_left h16, List.take_append_drop]
  · obtain ⟨i, hi, rfl⟩ := List.mem_iff_getElem.mp hc
    rw [List.length_take] at hi
    rw [List.getElem_take]
    simpa using List.not_of_lt_findIdx (lt_of_lt_of_le hi (min_le_left _ _))
  · refine ⟨(buf.take 16)[(buf.take 16).findIdx (in_ranges ranges)], ?_, List.findIdx_getElem⟩
    rw [List.head?_drop, List.getElem_take]
    exact List.getElem?_eq_getElem _

/-- Block after block, up to the first byte that is in a range. -/
theorem find_blocks_skips (ranges : Ranges) (left : ℕ) (buf : List UInt8)
    (hleft : 16 * left ≤ buf.length) :
    Skips (in_ranges ranges) buf (find_blocks ranges left buf).1
      ∧ ((find_blocks ranges left buf).2 = true →
        ∃ c ∈ (find_blocks ranges left buf).1.head?, in_ranges ranges c = true) := by
  induction left generalizing buf with
  | zero => exact ⟨.refl buf, fun h => by cases h⟩
  | succ left ih =>
      obtain ⟨hskips, hstop⟩ := cmpestri_skips ranges buf
      have hlen : (buf.take 16).length = 16 := by
        rw [List.length_take]
        omega
      have hle : cmpestri ranges (buf.take 16) ≤ (buf.take 16).length := List.findIdx_le_length
      unfold find_blocks
      dsimp only
      split_ifs with hr
      · exact ⟨hskips, fun _ => hstop (by omega)⟩
      · obtain ⟨hrest, hfound⟩ := ih (buf.drop 16) (by rw [List.length_drop]; omega)
        rw [not_not] at hr
        rw [hr] at hskips
        exact ⟨hskips.trans hrest, hfound⟩

/-- The fast search skips bytes outside the ranges only, and what it has found is in one of
them. -/
theorem findchar_fast_skips (build : Build) (ranges : Ranges) (buf : List UInt8) :
    Skips (in_ranges ranges) buf (build.findchar_fast ranges buf).1
      ∧ ((build.findchar_fast ranges buf).2 = true →
        ∃ c ∈ (build.findchar_fast ranges buf).1.head?, in_ranges ranges c = true) := by
  cases build with
  | sse4_2 => exact find_blocks_skips ranges _ buf (Nat.mul_div_le _ _)
  | portable => exact ⟨.refl buf, fun h => by cases h⟩

/-- What a pass of the loop over eight printable bytes comes to: it goes on behind a byte that is
no control character, and stops at one that is. -/
theorem printable_blocks_eq (buf : List UInt8) :
    printable_blocks buf
      = if 8 ≤ buf.length then
          match DOIT 8 buf with
          | (buf', false) => printable_blocks buf'
          | ([], true) => ([], false)
          | (c :: rest, true) => if isCtl c then (c :: rest, true) else printable_blocks rest
        else (buf, false) := by
  rw [printable_blocks]
  split_ifs
  · split <;> rename_i h <;> rw [h]
  · rfl

/-- What is printable is no control character. The test of `IS_PRINTABLE_ASCII` wraps, so this is
checked byte by byte. -/
theorem isCtl_of_printable {c : UInt8} (h : IS_PRINTABLE_ASCII c = true) : isCtl c = false := by
  rw [← printable_ctl c, h]
  rfl

/-- `DOIT` passes over printable bytes only, and stops at the first byte that is not. -/
theorem DOIT_skips (n : ℕ) (buf : List UInt8) : Skips isCtl buf (DOIT n buf).1 := by
  induction n generalizing buf with
  | zero => exact .refl buf
  | succ n ih =>
      cases buf with
      | nil => exact .refl []
      | cons c rest =>
          unfold DOIT
          split_ifs with hc
          · exact (ih rest).cons (isCtl_of_printable hc)
          · exact .refl (c :: rest)

/-- The induction is on what is left of the buffer: the eight steps go through all of it, or stop
at one byte, which is then skipped or found. -/
theorem printable_blocks_skips (buf : List UInt8) :
    Skips isCtl buf (printable_blocks buf).1
      ∧ ((printable_blocks buf).2 = true → ∃ c ∈ (printable_blocks buf).1.head?,
        isCtl c = true) := by
  induction buf using printable_blocks.induct with
  -- A whole block of printable bytes: what it skips goes in front of what the rest skips.
  | case1 buf h8 buf' hdoit ih =>
      have hskips := DOIT_skips 8 buf
      rw [hdoit] at hskips
      rw [printable_blocks_eq, if_pos h8, hdoit]
      exact ⟨hskips.trans ih.1, ih.2⟩
  | case2 buf h8 hdoit =>
      have hskips := DOIT_skips 8 buf
      rw [hdoit] at hskips
      rw [printable_blocks_eq, if_pos h8, hdoit]
      exact ⟨hskips, fun h => by cases h⟩
  -- The block stops at a control byte, which is where the scan is to stop.
  | case3 buf h8 c rest hdoit hctl =>
      have hskips := DOIT_skips 8 buf
      rw [hdoit] at hskips
      rw [printable_blocks_eq, if_pos h8, hdoit]
      dsimp only
      rw [if_pos hctl]
      exact ⟨hskips, fun _ => ⟨c, rfl, hctl⟩⟩
  -- The block stops at a byte that is neither printable nor a control: a tab, or one from 0x80 on.
  | case4 buf h8 c rest hdoit hctl ih =>
      have hskips := DOIT_skips 8 buf
      rw [hdoit] at hskips
      rw [printable_blocks_eq, if_pos h8, hdoit]
      dsimp only
      rw [if_neg hctl]
      exact ⟨hskips.trans (ih.1.cons (Bool.eq_false_iff.mpr hctl)), ih.2⟩
  | case5 buf h8 =>
      rw [printable_blocks_eq, if_neg h8]
      exact ⟨.refl buf, fun h => by cases h⟩

/-- Both builds come to the first control character or stop before it, with the same answer to
whether there is one. -/
theorem find_ctl_skips (build : Build) (buf : List UInt8) :
    Skips isCtl buf (build.find_ctl buf).1
      ∧ ((build.find_ctl buf).2 = true → ∃ c ∈ (build.find_ctl buf).1.head?, isCtl c = true) := by
  cases build with
  | sse4_2 =>
      have h := findchar_fast_skips .sse4_2 ranges1 buf
      rw [show in_ranges ranges1 = isCtl from funext in_ranges1] at h
      exact h
  | portable => exact printable_blocks_skips buf

/-! ## The scanners agree -/

section Agree

variable {stop allowed : UInt8 → Bool} {buf fast : List UInt8}

/-- What a scan starts behind is put in front of what it finds. -/
theorem scan_append {skipped : List UInt8} (h : ∀ c ∈ skipped, stop c = false ∧ allowed c = true)
    (fast : List UInt8) :
    scan stop allowed (skipped ++ fast) = (scan stop allowed fast).map fun x =>
      (skipped ++ x.1, x.2) := by
  induction skipped with
  | nil =>
      cases hscan : scan stop allowed fast with
      | error e => rw [List.nil_append, hscan]; rfl
      | ok x => rw [List.nil_append, hscan]; rfl
  | cons c skipped ih =>
      obtain ⟨⟨hstop, hallowed⟩, hskipped⟩ := List.forall_mem_cons.mp h
      rw [List.cons_append, scan, if_neg (by rw [hstop]; simp), if_pos hallowed, ih hskipped]
      cases hscan : scan stop allowed fast with
      | error e => rfl
      | ok x => rfl

/-- What was read is what is between the pointers. -/
theorem between_append (token rest : List UInt8) : between (token ++ rest) rest = token := by
  unfold between
  rw [List.length_append, Nat.add_sub_cancel, List.take_left']
  rfl

/-- **A scan that starts further on finds the same token**, when it is cut out from the start: what
was skipped would have been gone through one by one. -/
theorem scan_from {p : UInt8 → Bool} (hp : ∀ c, p c = false → stop c = false ∧ allowed c = true)
    (hskips : Skips p buf fast) :
    (scan stop allowed fast >>= fun x => .ok (between buf x.2, x.2)) = scan stop allowed buf := by
  obtain ⟨skipped, rfl, hskipped⟩ := hskips
  rw [scan_append fun c hc => hp c (hskipped c hc)]
  cases hscan : scan stop allowed fast with
  | error e => rfl
  | ok x =>
      obtain ⟨hfast, _, _⟩ := scan_eq_ok.mp hscan
      have hcut : between (skipped ++ fast) x.2 = skipped ++ x.1 := by
        rw [hfast, ← List.append_assoc, between_append]
      change Except.ok (between (skipped ++ fast) x.2, x.2) = Except.ok (skipped ++ x.1, x.2)
      rw [hcut]

end Agree

/-- A build reads the tokens that the plain parser reads, for the two delimiters that the parser
asks for. -/
theorem parse_token_eq (build : Build) {next_char : UInt8} (hnext : next_char = 32 ∨ next_char = 58)
    (buf : List UInt8) : build.parse_token next_char buf = parse_token next_char buf := by
  unfold Build.parse_token parse_token
  rw [show (fun c : UInt8 => decide (token_char_map.getD c.toNat 0 ≠ 0)) = token_char
    from funext token_char_map_eq]
  refine scan_from (fun c hc => ?_) (findchar_fast_skips build token_ranges buf).1
  obtain ⟨h32, h58, htoken⟩ := not_in_token_ranges c hc
  rcases hnext with rfl | rfl
  · exact ⟨decide_eq_false h32, htoken⟩
  · exact ⟨decide_eq_false h58, htoken⟩

/-- A build reads the targets that the plain parser reads, to the same end. -/
theorem advance_token_eq (build : Build) (buf : List UInt8) :
    build.advance_token buf = advance_token buf := by
  unfold Build.advance_token advance_token
  rw [show (fun c : UInt8 => IS_PRINTABLE_ASCII c || !(c.toNat < 32 || c = 127))
    = (fun c : UInt8 => !(c.toNat < 32 || c = 127)) from funext printable_path]
  exact scan_from not_in_ranges2 (findchar_fast_skips build ranges2 buf).1

/-- Where the last loop is left out, it would have stopped at once. -/
theorem found_ctl_eq (build : Build) (buf : List UInt8) :
    build.found_ctl buf = (scan isCtl (fun _ => true) (build.find_ctl buf).1).map Prod.snd := by
  unfold Build.found_ctl
  rw [show (fun c => !IS_PRINTABLE_ASCII c && isCtl c) = isCtl from funext printable_ctl]
  have hstop := (find_ctl_skips build buf).2
  generalize build.find_ctl buf = x at hstop ⊢
  obtain ⟨buf', found⟩ := x
  dsimp only at hstop ⊢
  split_ifs with hfound
  · obtain ⟨c, hc, hctl⟩ := hstop hfound
    rw [show scan isCtl (fun _ => true) buf' = .ok ([], buf')
      from scan_eq_ok.mpr ⟨rfl, ⟨c, hc, hctl⟩, by simp⟩]
    rfl
  · rfl

/-- A build reads the lines that the plain parser reads, and what follows them. -/
theorem get_token_to_eol_eq (build : Build) (buf : List UInt8) :
    build.get_token_to_eol buf = get_token_to_eol buf := by
  have hplain : (scan isCtl (fun _ => true) (build.find_ctl buf).1 >>= fun x =>
      .ok (between buf x.2, x.2))
      = scan isCtl (fun _ => true) buf :=
    scan_from (fun _ hc => ⟨hc, rfl⟩) (find_ctl_skips build buf).1
  unfold Build.get_token_to_eol get_token_to_eol
  rw [found_ctl_eq, ← hplain]
  cases scan isCtl (fun _ => true) (build.find_ctl buf).1 with
  | error e => rfl
  | ok x => rfl

/-! ## The parsers agree -/

/-- A build reads the header lines that the plain parser reads. -/
theorem parse_header_eq (build : Build) (first : Bool) (buf : List UInt8) :
    build.parse_header first buf = parse_header first buf := by
  unfold Build.parse_header parse_header Build.parse_name parse_name
  simp only [parse_token_eq build (.inr rfl), get_token_to_eol_eq]

/-- A build reads the headers that the plain parser reads, by induction on the slots. -/
theorem parse_headers_eq (build : Build) (slots : ℕ) (first : Bool) (buf : List UInt8) :
    build.parse_headers slots first buf = parse_headers slots first buf := by
  induction slots generalizing first buf with
  | zero =>
      cases buf with
      | nil => rfl
      | cons c rest => rfl
  | succ slots ih =>
      cases buf with
      | nil => rfl
      | cons c rest =>
          unfold Build.parse_headers parse_headers
          simp only [parse_header_eq, ih]

/-- A build reads the requests that the plain parser reads, or fails as it does. -/
theorem parse_request_eq (build : Build) (max_headers : ℕ) (buf : List UInt8) :
    build.parse_request max_headers buf = parse_request max_headers buf := by
  unfold Build.parse_request parse_request
  simp only [parse_token_eq build (.inl rfl), advance_token_eq, parse_headers_eq]

/-- A build reads the responses that the plain parser reads, or fails as it does. -/
theorem parse_response_eq (build : Build) (max_headers : ℕ) (buf : List UInt8) :
    build.parse_response max_headers buf = parse_response max_headers buf := by
  unfold Build.parse_response
  simp only [get_token_to_eol_eq, parse_headers_eq]
  rfl

/-- **Both builds parse alike.** Of any buffer, with room for any number of headers and after any
number of bytes already looked at, the build for SSE 4.2 and the one without make the same request
and the same response as the parser that takes one byte after the other, or they fail like it. -/
theorem phr_parse_eq (build : Build) (buf : List UInt8) (max_headers last_len : ℕ) :
    build.phr_parse_request buf max_headers last_len = phr_parse_request buf max_headers last_len
      ∧ build.phr_parse_response buf max_headers last_len
        = phr_parse_response buf max_headers last_len := by
  constructor
  · unfold Build.phr_parse_request phr_parse_request
    rw [parse_request_eq]
  · unfold Build.phr_parse_response phr_parse_response
    rw [parse_response_eq]

end PicoHttp
