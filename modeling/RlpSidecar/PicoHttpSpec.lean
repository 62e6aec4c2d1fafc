/-
**What the request parser accepts, and what it makes of it.**

Each scanner takes a text off the front of the buffer, and what it returns says which text. A head
that is accepted has a method, a path and headers of the right characters, and the headers stand in
the buffer one after the other. In the other direction, a head that is written out of such parts is
read back, as long as there is room for its headers.

`parse_request_ok` and `parse_response_ok` are the first direction, `parse_request_text` and the
lemmas on the status line the second. What a reader finds that goes on behind a value, as `strtoul`
does for the value of a length, is `parse_headers_numbers`.
-/
import RlpSidecar.PicoHttp

set_option autoImplicit false

namespace PicoHttp

variable {buf rest : List UInt8}

theorem bind_ok {α β : Type} {x : Except Fail α} {f : α → Except Fail β} {b : β} :
    (x >>= f) = .ok b ↔ ∃ a, x = .ok a ∧ f a = .ok b := by
  cases x with
  | error e => simp [bind, Except.bind]
  | ok a => simp [bind, Except.bind]

@[simp] theorem ok_then {α β : Type} (a : α) (f : α → Except Fail β) :
    (Except.ok a >>= f) = f a := rfl

/-! ## Scanners -/

theorem expect_char_eq_ok {ch : UInt8} : expect_char ch buf = .ok rest ↔ buf = ch :: rest := by
  cases buf with
  | nil => simp [expect_char]
  | cons c buf =>
      unfold expect_char
      by_cases h : c = ch
      · simp [h]
      · simp [h]

theorem expect_chars_eq_ok {chs : List UInt8} : expect_chars chs buf = .ok rest
    ↔ buf = chs ++ rest := by
  induction chs generalizing buf with
  | nil => simp [expect_chars]
  | cons ch chs ih =>
      unfold expect_chars
      rw [bind_ok]
      simp only [expect_char_eq_ok, ih]
      constructor
      · rintro ⟨buf', rfl, rfl⟩
        rfl
      · rintro rfl
        exact ⟨_, rfl, rfl⟩

/-- The two line ends that the parser accepts: a carriage return and a line feed, or a line feed
alone. -/
def IsEol (eol : List UInt8) : Prop := eol = [13, 10] ∨ eol = [10]

theorem expect_eol_eq_ok : expect_eol buf = .ok rest ↔ ∃ eol, IsEol eol ∧ buf = eol ++ rest := by
  unfold IsEol
  cases buf with
  | nil =>
      constructor
      · intro h
        cases h
      · rintro ⟨eol, rfl | rfl, h⟩
        · cases h
        · cases h
  | cons c buf =>
      unfold expect_eol
      dsimp only
      by_cases hcr : c = 13
      · subst hcr
        rw [if_pos rfl, expect_char_eq_ok]
        simp
      · rw [if_neg hcr]
        by_cases hlf : c = 10
        · subst hlf
          simp
        · simp [hcr, hlf]

/-- **A scanner takes the longest text without a stop byte**, all of whose bytes are allowed. -/
theorem scan_eq_ok {stop allowed : UInt8 → Bool} {token : List UInt8} :
    scan stop allowed buf = .ok (token, rest)
      ↔ buf = token ++ rest ∧ (∃ c ∈ rest.head?, stop c = true)
        ∧ ∀ c ∈ token, stop c = false ∧ allowed c = true := by
  -- On the buffer; a byte is either the end of the token or its next byte.
  induction buf generalizing token with
  | nil =>
      constructor
      · intro h
        cases h
      · rintro ⟨hnil, ⟨c, hc, _⟩, _⟩
        obtain ⟨_, rfl⟩ := List.append_eq_nil_iff.mp hnil.symm
        cases hc
  | cons c buf ih =>
      unfold scan
      constructor
      · intro h
        split_ifs at h with hstop hallowed
        · obtain ⟨rfl, rfl⟩ := Prod.mk.inj (Except.ok.inj h)
          exact ⟨rfl, ⟨c, rfl, hstop⟩, by simp⟩
        · obtain ⟨⟨token', buf'⟩, hrec, h⟩ := bind_ok.mp h
          obtain ⟨rfl, rfl⟩ := Prod.mk.inj (Except.ok.inj h)
          obtain ⟨rfl, hhead, htoken⟩ := ih.mp hrec
          refine ⟨rfl, hhead, fun d hd => ?_⟩
          rcases List.mem_cons.mp hd with rfl | hd
          · exact ⟨Bool.eq_false_iff.mpr hstop, hallowed⟩
          · exact htoken d hd
      · rintro ⟨happ, ⟨s, hs, hstop⟩, htoken⟩
        cases token with
        | nil =>
            rw [List.nil_append] at happ
            subst happ
            obtain rfl := Option.some.inj hs
            rw [if_pos hstop]
        | cons d token =>
            obtain ⟨rfl, htail⟩ := List.cons.inj happ
            obtain ⟨hgo, hallowed⟩ := htoken c List.mem_cons_self
            have hrec :=
              ih.mpr ⟨htail, ⟨s, hs, hstop⟩, fun d hd => htoken d (List.mem_cons_of_mem _ hd)⟩
            rw [if_neg (by rw [hgo]; simp), if_pos hallowed, hrec]
            rfl

/-- `skip_while` stops at the first other byte, and fails if there is none yet. -/
theorem skip_while_eq_ok {p : UInt8 → Bool} :
    skip_while p buf = .ok rest
      ↔ ∃ skipped, buf = skipped ++ rest ∧ (∃ c ∈ rest.head?, p c = false)
        ∧ ∀ c ∈ skipped, p c = true := by
  unfold skip_while
  rw [bind_ok]
  constructor
  · rintro ⟨⟨skipped, buf'⟩, hscan, h⟩
    obtain rfl := Except.ok.inj h
    obtain ⟨happ, ⟨c, hc, hstop⟩, hskipped⟩ := scan_eq_ok.mp hscan
    refine ⟨skipped, happ, ⟨c, hc, by simpa using hstop⟩, fun d hd => ?_⟩
    simpa using (hskipped d hd).1
  · rintro ⟨skipped, happ, ⟨c, hc, hstop⟩, hskipped⟩
    refine ⟨(skipped, rest),
      scan_eq_ok.mpr ⟨happ, ⟨c, hc, by simpa using hstop⟩, fun d hd => ?_⟩, rfl⟩
    exact ⟨by simpa using hskipped d hd, rfl⟩

/-- A line: no control characters, then one of the two line ends. -/
theorem get_token_to_eol_eq_ok {token : List UInt8} :
    get_token_to_eol buf = .ok (token, rest)
      ↔ ∃ eol, IsEol eol ∧ buf = token ++ (eol ++ rest) ∧ ∀ c ∈ token, isCtl c = false := by
  unfold get_token_to_eol
  rw [bind_ok]
  constructor
  · rintro ⟨⟨token', buf'⟩, hscan, h⟩
    obtain ⟨buf'', heol, h⟩ := bind_ok.mp h
    obtain ⟨rfl, rfl⟩ := Prod.mk.inj (Except.ok.inj h)
    obtain ⟨rfl, _, htoken⟩ := scan_eq_ok.mp hscan
    obtain ⟨eol, hkind, rfl⟩ := expect_eol_eq_ok.mp heol
    exact ⟨eol, hkind, rfl, fun c hc => (htoken c hc).1⟩
  · rintro ⟨eol, hkind, rfl, htoken⟩
    have hhead : ∃ c ∈ (eol ++ rest).head?, isCtl c = true := by
      rcases hkind with rfl | rfl
      · exact ⟨13, rfl, rfl⟩
      · exact ⟨10, rfl, rfl⟩
    refine ⟨(token, eol ++ rest), scan_eq_ok.mpr ⟨rfl, hhead, fun c hc => ⟨htoken c hc, rfl⟩⟩, ?_⟩
    dsimp only
    rw [expect_eol_eq_ok.mpr ⟨eol, hkind, rfl⟩]
    rfl

/-! ## The parts of a head -/

/-- A method or the name of a header: some of the bytes of `token_char_map`. -/
def IsToken (token : List UInt8) : Prop := token ≠ [] ∧ ∀ c ∈ token, token_char c = true

/-- The value of a header: no control characters, and no blanks at either end. -/
structure IsValue (value : List UInt8) : Prop where
  printable : ∀ c ∈ value, isCtl c = false
  head : ∀ c ∈ value.head?, isBlank c = false
  last : value.rdropWhile isBlank = value

/-- A path: neither spaces nor control characters, and not empty. -/
def IsTarget (path : List UInt8) : Prop :=
  path ≠ [] ∧ ∀ c ∈ path, c ≠ 32 ∧ ¬ c.toNat < 32 ∧ c ≠ 127

/-- Bytes that a token does not have differ from all that it has. -/
theorem token_char_ne {c d : UInt8} (hc : token_char c = true)
    (hd : token_char d = false) : c ≠ d := by
  rintro rfl
  rw [hc] at hd
  cases hd

theorem token_char_not_blank {c : UInt8} (hc : token_char c = true) : isBlank c = false := by
  have hspace : c ≠ 32 := token_char_ne hc (by decide)
  have htab : c ≠ 9 := token_char_ne hc (by decide)
  simp [isBlank, hspace, htab]

/-- A token is printable, and has no spaces: its bytes are between 33 and 126. -/
theorem token_char_range {c : UInt8} (hc : token_char c = true) : 33 ≤ c.toNat ∧ c.toNat ≤ 126 := by
  unfold token_char Decimal.isDigit at hc
  simp only [Bool.or_eq_true, Bool.and_eq_true, decide_eq_true_eq] at hc
  rcases hc with ((hdigit | hupper) | hlower) | hother
  · omega
  · omega
  · omega
  · have hall : ∀ d ∈ ([33, 35, 36, 37, 38, 39, 42, 43, 45, 46, 124, 126] : List UInt8), 33
        ≤ d.toNat ∧ d.toNat ≤ 126 := by
      decide +kernel
    exact hall c hother

/-! ## Headers stand one after the other -/

/-- The headers are those of the lines from `buf` on: a header's name starts its line, and its
value is followed by blanks, a line end and the next line. -/
def Laid : List phr_header → List UInt8 → Prop
  | [], _ => True
  | h :: hs, buf =>
    (∀ name, h.name = some name → IsToken name ∧ IsValue h.value ∧ ∃ tail, buf = name ++ 58 :: tail)
      ∧ ∃ blanks eol next, h.value_ptr = h.value ++ (blanks ++ (eol ++ next))
        ∧ (∀ c ∈ blanks, isBlank c = true) ∧ IsEol eol ∧ Laid hs next

theorem parse_token_eq_ok {next_char : UInt8} {token : List UInt8} :
    parse_token next_char buf = .ok (token, rest)
      ↔ buf = token ++ rest ∧ rest.head? = some next_char
        ∧ ∀ c ∈ token, c ≠ next_char ∧ token_char c = true := by
  unfold parse_token
  rw [scan_eq_ok]
  simp

/-- **A name**: the line starts with it and a colon, and the value does not start with a blank. -/
theorem parse_name_eq_ok {first : Bool} {name : List UInt8}
    (h : parse_name first buf = .ok (some name, rest)) :
    IsToken name ∧ (∃ tail, buf = name ++ 58 :: tail) ∧ ∀ c ∈ rest.head?, isBlank c = false := by
  unfold parse_name at h
  split_ifs at h with hfold
  · cases h
  obtain ⟨⟨token, buf'⟩, htoken, hname⟩ := bind_ok.mp h
  obtain ⟨rfl, hcolon, hchars⟩ := parse_token_eq_ok.mp htoken
  dsimp only at hname
  split_ifs at hname with hnil
  obtain ⟨buf'', hskip, hname⟩ := bind_ok.mp hname
  obtain ⟨hsome, rfl⟩ := Prod.mk.inj (Except.ok.inj hname)
  obtain rfl := Option.some.inj hsome
  obtain ⟨skipped, _, ⟨c, hc, hstop⟩, _⟩ := skip_while_eq_ok.mp hskip
  obtain ⟨tail, rfl⟩ := List.head?_eq_some_iff.mp hcolon
  refine ⟨⟨hnil, fun c hc => (hchars c hc).2⟩, ⟨tail, rfl⟩, fun d hd => ?_⟩
  rw [hc] at hd
  obtain rfl := Option.some.inj hd
  exact hstop

theorem isValue_rdropWhile {line next : List UInt8} (hline : ∀ c ∈ line, isCtl c = false)
    (hhead : ∀ c ∈ (line ++ next).head?, isBlank c = false) :
    IsValue (line.rdropWhile isBlank) where
  printable := fun c hc => hline c ((List.rdropWhile_prefix _ _).subset hc)
  head := fun c hc => by
    obtain ⟨t, ht⟩ := List.rdropWhile_prefix isBlank (l := line)
    apply hhead
    rw [← ht, List.append_assoc, List.head?_append, hc]
    rfl
  last := List.rdropWhile_idempotent _ _

/-- **A header**: the value is a line without the blanks at its end. -/
theorem parse_header_line_of {first : Bool} {h : phr_header}
    (hparse : parse_header first buf = .ok (h, rest)) :
    (∀ name, h.name = some name → IsToken name ∧ IsValue h.value ∧ ∃ tail, buf = name ++ 58 :: tail)
      ∧ ∃ blanks eol, h.value_ptr = h.value ++ (blanks ++ (eol ++ rest))
        ∧ (∀ c ∈ blanks, isBlank c = true) ∧ IsEol eol := by
  unfold parse_header at hparse
  obtain ⟨⟨name, buf'⟩, hname, hparse⟩ := bind_ok.mp hparse
  obtain ⟨⟨line, rest'⟩, hline, hparse⟩ := bind_ok.mp hparse
  obtain ⟨rfl, rfl⟩ := Prod.mk.inj (Except.ok.inj hparse)
  obtain ⟨eol, heol, rfl, hctl⟩ := get_token_to_eol_eq_ok.mp hline
  refine ⟨?_, line.rtakeWhile isBlank, eol, ?_, fun c hc => List.mem_rtakeWhile_imp hc, heol⟩
  · rintro token rfl
    obtain ⟨htoken, hstart, hhead⟩ := parse_name_eq_ok hname
    exact ⟨htoken, isValue_rdropWhile hctl hhead, hstart⟩
  · dsimp only
    rw [← List.append_assoc (line.rdropWhile isBlank), List.rdropWhile_append_rtakeWhile]

theorem parse_header_laid {first : Bool} {h : phr_header}
    (hparse : parse_header first buf = .ok (h, rest)) {hs : List phr_header}
    (hrest : Laid hs rest) :
    Laid (h :: hs) buf := by
  obtain ⟨hname, blanks, eol, hptr, hblanks, heol⟩ := parse_header_line_of hparse
  exact ⟨hname, blanks, eol, rest, hptr, hblanks, heol, hrest⟩

theorem parse_headers_laid {slots : ℕ} {first : Bool} {hs : List phr_header}
    (hparse : parse_headers slots first buf = .ok (hs, rest)) :
    Laid hs buf ∧ hs.length ≤ slots := by
  -- On the slots that are left, as the parser's loop.
  induction slots generalizing first buf hs with
  | zero =>
      unfold parse_headers at hparse
      split at hparse
      · cases hparse
      split_ifs at hparse
      · obtain ⟨buf', _, hparse⟩ := bind_ok.mp hparse
        obtain ⟨rfl, _⟩ := Prod.mk.inj (Except.ok.inj hparse)
        exact ⟨trivial, Nat.zero_le _⟩
  | succ slots ih =>
      unfold parse_headers at hparse
      split at hparse
      · cases hparse
      split_ifs at hparse
      · obtain ⟨buf', _, hparse⟩ := bind_ok.mp hparse
        obtain ⟨rfl, _⟩ := Prod.mk.inj (Except.ok.inj hparse)
        exact ⟨trivial, Nat.zero_le _⟩
      · obtain ⟨⟨h, buf'⟩, hheader, hparse⟩ := bind_ok.mp hparse
        obtain ⟨⟨hs', rest'⟩, hheaders, hparse⟩ := bind_ok.mp hparse
        obtain ⟨rfl, rfl⟩ := Prod.mk.inj (Except.ok.inj hparse)
        obtain ⟨hlaid, hlength⟩ := ih hheaders
        exact ⟨parse_header_laid hheader hlaid, Nat.succ_le_succ hlength⟩

/-- Where there are no headers, the head ends with the line end that comes next. -/
theorem parse_headers_nil {slots : ℕ} {first : Bool}
    (hparse : parse_headers slots first buf = .ok ([], rest)) :
    ∃ eol, IsEol eol ∧ buf = eol ++ rest := by
  unfold parse_headers at hparse
  split at hparse
  · cases hparse
  split_ifs at hparse
  · obtain ⟨buf', heol, hparse⟩ := bind_ok.mp hparse
    obtain ⟨_, rfl⟩ := Prod.mk.inj (Except.ok.inj hparse)
    exact expect_eol_eq_ok.mp heol
  · split at hparse
    · cases hparse
    · obtain ⟨⟨h, buf'⟩, _, hparse⟩ := bind_ok.mp hparse
      obtain ⟨⟨hs', rest'⟩, _, hparse⟩ := bind_ok.mp hparse
      cases hparse

/-! ## Numbers behind the names

A number is read from where a value starts, and nothing ends it there: if the value is empty, it is
read from the name on the next line, and on the last line from what stands behind the head. -/

/-- Where the number of a header is found that stands before `hs`, the last ones of a head. -/
def number_text (behind : List UInt8) (h : phr_header) (hs : List phr_header) : List UInt8 :=
  if h.value = [] then hs.head?.elim behind fun x => x.name.getD [] else h.value

/-- What a reader of numbers finds in each of the headers, if the head ends with the buffer. Only
behind an empty value on the last line it goes on after the head. -/
def NumbersIn (behind : List UInt8) : List phr_header → Prop
  | [] => True
  | h :: hs =>
    Decimal.scan (h.value_ptr ++ behind) = Decimal.scan (number_text behind h hs)
      ∧ (h.value ≠ [] ∨ hs ≠ [] → Decimal.runs_on (h.value_ptr ++ behind) = false)
      ∧ NumbersIn behind hs

theorem isSpace_of_isBlank {c : UInt8} (h : isBlank c = true) : Decimal.isSpace c = true := by
  unfold isBlank at h
  rw [Bool.or_eq_true, decide_eq_true_eq, decide_eq_true_eq] at h
  rcases h with rfl | rfl
  · decide
  · decide

theorem IsEol.ne_nil {eol : List UInt8} (h : IsEol eol) : eol ≠ [] := by
  rcases h with rfl | rfl
  · exact List.cons_ne_nil _ _
  · exact List.cons_ne_nil _ _

theorem IsEol.isSpace {eol : List UInt8} (h : IsEol eol) : ∀ c ∈ eol, Decimal.isSpace c = true := by
  rcases h with rfl | rfl
  · decide +kernel
  · decide +kernel

/-- A value does not start with white space, which the parser has skipped. -/
theorem IsValue.head_not_space {value : List UInt8} (h : IsValue value) :
    ∀ c ∈ value.head?, Decimal.isSpace c = false := by
  intro c hc
  have hblank := h.head c hc
  have hctl := h.printable c (List.mem_of_mem_head? hc)
  unfold isBlank at hblank
  unfold isCtl at hctl
  unfold Decimal.isSpace
  simp only [Bool.or_eq_false_iff, Bool.and_eq_false_imp, decide_eq_false_iff_not,
    decide_eq_true_eq] at *
  refine ⟨hblank.1, fun hlow hhigh => ?_⟩
  exact hctl.1 (by omega) hblank.2

theorem IsToken.head_not_space {token : List UInt8} (h : IsToken token) :
    ∀ c ∈ token.head?, Decimal.isSpace c = false := by
  intro c hc
  have hchar := h.2 c (List.mem_of_mem_head? hc)
  have hrange := token_char_range hchar
  have hne : c ≠ 32 := token_char_ne hchar (by decide)
  unfold Decimal.isSpace
  simp only [Bool.or_eq_false_iff, Bool.and_eq_false_imp, decide_eq_false_iff_not,
    decide_eq_true_eq]
  exact ⟨hne, fun _ => by omega⟩

/-- **Numbers are found in the values**, or behind empty ones, where `strtoul` reads on. -/
theorem parse_headers_numbers {slots : ℕ} {first : Bool} {hs : List phr_header}
    (hparse : parse_headers slots first buf = .ok (hs, [])) (hnames : ∀ h ∈ hs, h.name ≠ none)
    (behind : List UInt8) : NumbersIn behind hs := by
  induction slots generalizing first buf hs with
  | zero =>
      unfold parse_headers at hparse
      split at hparse
      · cases hparse
      split_ifs at hparse
      · obtain ⟨buf', _, hparse⟩ := bind_ok.mp hparse
        obtain ⟨rfl, _⟩ := Prod.mk.inj (Except.ok.inj hparse)
        exact trivial
  | succ slots ih =>
      unfold parse_headers at hparse
      split at hparse
      · cases hparse
      split_ifs at hparse
      · obtain ⟨buf', _, hparse⟩ := bind_ok.mp hparse
        obtain ⟨rfl, _⟩ := Prod.mk.inj (Except.ok.inj hparse)
        exact trivial
      obtain ⟨⟨h, buf'⟩, hheader, hparse⟩ := bind_ok.mp hparse
      obtain ⟨⟨hs', rest'⟩, hheaders, hparse⟩ := bind_ok.mp hparse
      obtain ⟨rfl, rfl⟩ := Prod.mk.inj (Except.ok.inj hparse)
      obtain ⟨hname, blanks, eol, hptr, hblanks, heol⟩ := parse_header_line_of hheader
      obtain ⟨name, hsome⟩ := Option.ne_none_iff_exists'.mp (hnames h List.mem_cons_self)
      obtain ⟨_, hvalue, _⟩ := hname name hsome
      have hspaces : ∀ c ∈ blanks ++ eol, Decimal.isSpace c = true := by
        intro c hc
        rcases List.mem_append.mp hc with hc | hc
        · exact isSpace_of_isBlank (hblanks c hc)
        · exact heol.isSpace c hc
      have htext : h.value_ptr ++ behind = h.value ++ ((blanks ++ eol) ++ (buf' ++ behind)) := by
        rw [hptr]
        simp only [List.append_assoc]
      unfold NumbersIn number_text
      rw [htext]
      have hrest := ih hheaders fun x hx => hnames x (List.mem_cons_of_mem _ hx)
      by_cases hempty : h.value = []
      · -- white space is skipped up to the next line, or to the end of the head
        rw [if_pos hempty, hempty, List.nil_append, Decimal.scan_spaces hspaces,
          Decimal.runs_on_spaces hspaces]
        cases hs' with
        | nil =>
            obtain ⟨last, hlast, rfl⟩ := parse_headers_nil hheaders
            rw [List.append_nil, Decimal.scan_spaces hlast.isSpace]
            refine ⟨rfl, ?_, hrest⟩
            rintro (hne | hne)
            · exact absurd rfl hne
            · exact absurd rfl hne
        | cons x hs' =>
            obtain ⟨next, hnext⟩ :=
              Option.ne_none_iff_exists'.mp (hnames x (List.mem_cons_of_mem _ List.mem_cons_self))
            obtain ⟨htoken, _, tail, rfl⟩ := (parse_headers_laid hheaders).1.1 next hnext
            rw [List.head?_cons, Option.elim_some, hnext, Option.getD_some,
              List.append_assoc, List.cons_append]
            refine ⟨?_, fun _ => ?_, hrest⟩
            · refine Decimal.scan_append htoken.1 htoken.head_not_space fun c hc => ?_
              obtain rfl := Option.some.inj hc
              rfl
            · exact Decimal.runs_on_append htoken.1 htoken.head_not_space rfl _
      · -- the value ends with white space, or with the line
        rw [if_neg hempty]
        obtain ⟨c, spaces, hcons⟩ := List.exists_cons_of_ne_nil
          (show blanks ++ eol ≠ [] from fun hnil => heol.ne_nil (List.append_eq_nil_iff.mp hnil).2)
        have hdigit : Decimal.isDigit c = false := by
          by_contra hdigit
          rw [Bool.not_eq_false] at hdigit
          have hspace := hspaces c (by rw [hcons]; exact List.mem_cons_self)
          rw [(Decimal.not_space_of_digit hdigit).1] at hspace
          cases hspace
        rw [hcons, List.cons_append]
        refine ⟨?_, fun _ => ?_, hrest⟩
        · refine Decimal.scan_append hempty hvalue.head_not_space ?_
          intro d hd
          obtain rfl := Option.some.inj hd
          exact hdigit
        · exact Decimal.runs_on_append hempty hvalue.head_not_space hdigit _

theorem parse_http_version_lt {minor : ℕ} (h : parse_http_version buf = .ok (minor, rest)) :
    minor < 10 := by
  unfold parse_http_version at h
  split_ifs at h
  obtain ⟨buf', _, hdigit⟩ := bind_ok.mp h
  split at hdigit
  · cases hdigit
  split_ifs at hdigit with hc
  obtain ⟨rfl, _⟩ := Prod.mk.inj (Except.ok.inj hdigit)
  unfold Decimal.isDigit at hc
  unfold Decimal.digitValue
  simp only [Bool.and_eq_true, decide_eq_true_eq] at hc
  omega

/-- **What is accepted is well formed**, and its headers are found where they stand. -/
theorem parse_request_ok {max_headers : ℕ} {r : Request}
    (hparse : parse_request max_headers buf = .ok (r, rest)) :
    IsToken r.method ∧ IsTarget r.path ∧ r.minor < 10 ∧ r.headers.length ≤ max_headers
      ∧ ∃ buf', Laid r.headers buf' := by
  unfold parse_request at hparse
  obtain ⟨buf₁, _, hparse⟩ := bind_ok.mp hparse
  obtain ⟨⟨method, buf₂⟩, hmethod, hparse⟩ := bind_ok.mp hparse
  obtain ⟨buf₃, _, hparse⟩ := bind_ok.mp hparse
  obtain ⟨⟨path, buf₄⟩, hpath, hparse⟩ := bind_ok.mp hparse
  obtain ⟨buf₅, _, hparse⟩ := bind_ok.mp hparse
  dsimp only at hparse
  split_ifs at hparse with hempty
  obtain ⟨⟨minor, buf₆⟩, hminor, hparse⟩ := bind_ok.mp hparse
  obtain ⟨buf₇, _, hparse⟩ := bind_ok.mp hparse
  obtain ⟨⟨headers, buf₈⟩, hheaders, hparse⟩ := bind_ok.mp hparse
  obtain ⟨rfl, rfl⟩ := Prod.mk.inj (Except.ok.inj hparse)
  obtain ⟨hlaid, hlength⟩ := parse_headers_laid hheaders
  obtain ⟨_, _, hmethod⟩ := parse_token_eq_ok.mp hmethod
  unfold advance_token at hpath
  obtain ⟨_, _, hpath⟩ := scan_eq_ok.mp hpath
  refine ⟨⟨fun h => hempty (.inl h), fun c hc => (hmethod c hc).2⟩,
    ⟨fun h => hempty (.inr h), fun c hc => ?_⟩, parse_http_version_lt hminor, hlength, _, hlaid⟩
  simpa using hpath c hc

/-- The headers of a request, with what follows its head, are those that `parse_headers` reads
behind the request line. -/
theorem parse_request_headers {max_headers : ℕ} {r : Request}
    (hparse : parse_request max_headers buf = .ok (r, rest)) :
    ∃ buf', parse_headers max_headers true buf' = .ok (r.headers, rest) := by
  unfold parse_request at hparse
  obtain ⟨buf₁, _, hparse⟩ := bind_ok.mp hparse
  obtain ⟨⟨method, buf₂⟩, _, hparse⟩ := bind_ok.mp hparse
  obtain ⟨buf₃, _, hparse⟩ := bind_ok.mp hparse
  obtain ⟨⟨path, buf₄⟩, _, hparse⟩ := bind_ok.mp hparse
  obtain ⟨buf₅, _, hparse⟩ := bind_ok.mp hparse
  dsimp only at hparse
  split_ifs at hparse
  obtain ⟨⟨minor, buf₆⟩, _, hparse⟩ := bind_ok.mp hparse
  obtain ⟨buf₇, _, hparse⟩ := bind_ok.mp hparse
  obtain ⟨⟨headers, buf₈⟩, hheaders, hparse⟩ := bind_ok.mp hparse
  obtain ⟨rfl, rfl⟩ := Prod.mk.inj (Except.ok.inj hparse)
  exact ⟨buf₇, hheaders⟩

/-- What the caller gets: the request, and how much of the buffer is its head. -/
theorem phr_parse_request_ok {max_headers last_len hdr_size : ℕ} {r : Request}
    (h : phr_parse_request buf max_headers last_len = .ok (r, hdr_size)) :
    ∃ rest, parse_request max_headers buf = .ok (r, rest) ∧ hdr_size
      = buf.length - rest.length := by
  unfold phr_parse_request at h
  split_ifs at h
  · obtain ⟨_, _, h⟩ := bind_ok.mp h
    obtain ⟨⟨r', rest⟩, hparse, h⟩ := bind_ok.mp h
    obtain ⟨rfl, rfl⟩ := Prod.mk.inj (Except.ok.inj h)
    exact ⟨rest, hparse, rfl⟩
  · obtain ⟨⟨r', rest⟩, hparse, h⟩ := bind_ok.mp h
    obtain ⟨rfl, rfl⟩ := Prod.mk.inj (Except.ok.inj h)
    exact ⟨rest, hparse, rfl⟩

/-! ## What is written is read back -/

/-- The text of one header: its name, a colon and a space, its value and the line end. -/
def header_line (h : List UInt8 × List UInt8) : List UInt8 := h.1 ++ [58, 32] ++ h.2 ++ [13, 10]

/-- The text of a head: the request line, the lines of the headers, and the empty line. -/
def request_text (method path : List UInt8) (minor : ℕ) (lines : List (List UInt8 × List UInt8)) :
    List UInt8 :=
  method ++ [32] ++ path ++ [32] ++ VERSION ++ [Decimal.digit minor] ++ [13, 10]
    ++ lines.flatMap header_line ++ [13, 10]

/-- The names and values, without the text that stands behind each value in the buffer. -/
def texts (hs : List phr_header) : List (Option (List UInt8) × List UInt8) :=
  hs.map fun h => (h.name, h.value)

theorem parse_name_line {first : Bool} {name value : List UInt8} (hname : IsToken name)
    (hvalue : IsValue value) (rest : List UInt8) :
    parse_name first (header_line (name, value) ++ rest)
      = .ok (some name, value ++ ([13, 10] ++ rest)) := by
  obtain ⟨c, tail, rfl⟩ := List.exists_cons_of_ne_nil hname.1
  have hblank := token_char_not_blank (hname.2 c List.mem_cons_self)
  have htext : header_line (c :: tail, value) ++ rest
      = (c :: tail) ++ 58 :: 32 :: (value ++ ([13, 10] ++ rest)) := by
    unfold header_line
    simp
  have htoken : parse_token 58 (header_line (c :: tail, value) ++ rest)
      = .ok (c :: tail, 58 :: 32 :: (value ++ ([13, 10] ++ rest))) :=
    parse_token_eq_ok.mpr ⟨htext, rfl, fun d hd =>
      ⟨token_char_ne (hname.2 d hd) (by decide), hname.2 d hd⟩⟩
  -- the value, or the line end after an empty one, is not a blank
  have hhead : ∃ d ∈ (value ++ ([13, 10] ++ rest)).head?, isBlank d = false := by
    cases value with
    | nil => exact ⟨13, rfl, rfl⟩
    | cons d value => exact ⟨d, rfl, hvalue.head d rfl⟩
  have hskip : skip_while isBlank (32 :: (value ++ ([13, 10] ++ rest)))
      = .ok (value ++ ([13, 10] ++ rest)) :=
    skip_while_eq_ok.mpr ⟨[32], rfl, hhead, by simp [isBlank]⟩
  unfold parse_name
  rw [if_neg (by rw [htext]; simp [hblank]), htoken, ok_then]
  dsimp only
  rw [if_neg hname.1, List.tail_cons, hskip]
  rfl

theorem parse_header_line {first : Bool} {name value : List UInt8} (hname : IsToken name)
    (hvalue : IsValue value) (rest : List UInt8) :
    parse_header first (header_line (name, value) ++ rest)
      = .ok (⟨some name, value, value ++ ([13, 10] ++ rest)⟩, rest) := by
  have hline : get_token_to_eol (value ++ ([13, 10] ++ rest)) = .ok (value, rest) :=
    get_token_to_eol_eq_ok.mpr ⟨[13, 10], .inl rfl, rfl, hvalue.printable⟩
  unfold parse_header
  rw [parse_name_line hname hvalue, ok_then]
  dsimp only
  rw [hline, ok_then]
  dsimp only
  rw [hvalue.last]

/-- A line of a header does not end the head, as it begins with a byte of a token. -/
theorem header_line_not_eol {name value : List UInt8} (hname : IsToken name) (rest : List UInt8) :
    ∃ c tail, header_line (name, value) ++ rest = c :: tail ∧ ¬ (c = 13 ∨ c = 10) := by
  obtain ⟨c, tail, rfl⟩ := List.exists_cons_of_ne_nil hname.1
  have hchar := hname.2 c List.mem_cons_self
  refine ⟨c, _, rfl, ?_⟩
  rintro (h | h)
  · exact token_char_ne hchar (by decide) h
  · exact token_char_ne hchar (by decide) h

/-- **Headers that fit into the slots are read back, and more are refused.** -/
theorem parse_headers_lines {lines : List (List UInt8 × List UInt8)}
    (hlines : ∀ h ∈ lines, IsToken h.1 ∧ IsValue h.2) (slots : ℕ) (first : Bool)
    (rest : List UInt8) :
    (lines.length ≤ slots →
      ∃ hs, parse_headers slots first (lines.flatMap header_line ++ ([13, 10] ++ rest))
        = .ok (hs, rest) ∧ texts hs = lines.map fun h => (some h.1, h.2))
      ∧ (slots < lines.length →
          parse_headers slots first (lines.flatMap header_line ++ ([13, 10] ++ rest))
            = .error .failed) := by
  induction lines generalizing slots first with
  | nil =>
      refine ⟨fun _ => ⟨[], ?_, rfl⟩, fun h => absurd h (by simp)⟩
      unfold parse_headers
      rfl
  | cons line lines ih =>
      obtain ⟨name, value⟩ := line
      obtain ⟨hname, hvalue⟩ := hlines _ List.mem_cons_self
      obtain ⟨c, tail, htext, hgo⟩ : ∃ c tail, header_line (name, value)
          ++ (lines.flatMap header_line ++ ([13, 10] ++ rest)) = c :: tail ∧ ¬ (c = 13 ∨ c = 10) :=
        header_line_not_eol hname _
      rw [List.flatMap_cons, List.append_assoc, htext]
      cases slots with
      | zero =>
          -- no slot is left for this line
          refine ⟨fun h => absurd h (by simp), fun _ => ?_⟩
          unfold parse_headers
          rw [if_neg hgo]
      | succ slots =>
          -- the line is read, and the others into the slots behind it
          have hstep : parse_headers (slots + 1) first (c :: tail) = (do
              let read ← parse_headers slots false (lines.flatMap header_line ++ ([13, 10] ++ rest))
              .ok (⟨some name, value, value ++ ([13, 10]
                ++ (lines.flatMap header_line ++ ([13, 10] ++ rest)))⟩ :: read.1, read.2)) := by
            conv_lhs => unfold parse_headers
            rw [if_neg hgo, ← htext, parse_header_line hname hvalue]
            rfl
          obtain ⟨hfit, hmore⟩ := ih (fun h hh => hlines h (List.mem_cons_of_mem _ hh)) slots false
          rw [hstep]
          constructor
          · intro hle
            obtain ⟨hs, hparse, htexts⟩ := hfit (Nat.le_of_succ_le_succ hle)
            rw [hparse]
            refine ⟨_, rfl, ?_⟩
            unfold texts at htexts ⊢
            rw [List.map_cons, List.map_cons, htexts]
          · intro hlt
            rw [hmore (Nat.lt_of_succ_lt_succ hlt)]
            rfl

theorem parse_http_version_text {minor : ℕ} (hminor : minor < 10) (rest : List UInt8) :
    parse_http_version (VERSION ++ Decimal.digit minor :: 13 :: 10 :: rest)
      = .ok (minor, 13 :: 10 :: rest) := by
  unfold parse_http_version
  rw [if_neg (by simp [VERSION]), expect_chars_eq_ok.mpr rfl, ok_then]
  dsimp only
  rw [if_pos (Decimal.isDigit_digit hminor), Decimal.digitValue_digit hminor]

/-- The request line of a text is read, and the headers are parsed from what follows it. -/
theorem parse_request_line {method path : List UInt8} {minor : ℕ} (hmethod : IsToken method)
    (hpath : IsTarget path) (hminor : minor < 10) (max_headers : ℕ) (body : List UInt8) :
    parse_request max_headers
        (method ++ 32 :: (path ++ 32 :: (VERSION ++ Decimal.digit minor :: 13 :: 10 :: body))) = (do
      let (headers, buf) ← parse_headers max_headers true body
      .ok (⟨method, path, minor, headers⟩, buf)) := by
  have hversion := parse_http_version_text hminor body
  have htarget : ∃ d ∈ (VERSION ++ Decimal.digit minor :: 13 :: 10 :: body).head?,
      decide (d = 32) = false :=
    ⟨72, rfl, by decide⟩
  -- What stands behind the path matters only in that it does not start with a blank.
  generalize VERSION ++ Decimal.digit minor :: 13 :: 10 :: body = version at *
  have hpathhead : ∃ d ∈ (path ++ 32 :: version).head?, decide (d = 32) = false := by
    obtain ⟨d, tail, rfl⟩ := List.exists_cons_of_ne_nil hpath.1
    exact ⟨d, rfl, decide_eq_false (hpath.2 d List.mem_cons_self).1⟩
  have hline : skip_empty_line (method ++ 32 :: (path ++ 32 :: version))
      = .ok (method ++ 32 :: (path ++ 32 :: version)) := by
    obtain ⟨c, tail, rfl⟩ := List.exists_cons_of_ne_nil hmethod.1
    have hchar := hmethod.2 c List.mem_cons_self
    unfold skip_empty_line
    rw [List.cons_append]
    dsimp only
    rw [if_neg]
    rintro (h | h)
    · exact token_char_ne hchar (by decide) h
    · exact token_char_ne hchar (by decide) h
  have htoken : parse_token 32 (method ++ 32 :: (path ++ 32 :: version))
      = .ok (method, 32 :: (path ++ 32 :: version)) :=
    parse_token_eq_ok.mpr ⟨rfl, rfl, fun d hd =>
      ⟨token_char_ne (hmethod.2 d hd) (by decide), hmethod.2 d hd⟩⟩
  have hadvance : advance_token (path ++ 32 :: version) = .ok (path, 32 :: version) := by
    unfold advance_token
    refine scan_eq_ok.mpr ⟨rfl, ⟨32, rfl, rfl⟩, fun d hd => ?_⟩
    simpa using hpath.2 d hd
  have hskip : skip_while (fun x => decide (x = 32)) (path ++ 32 :: version)
      = .ok (path ++ 32 :: version) := skip_while_eq_ok.mpr ⟨[], rfl, hpathhead, by simp⟩
  have heol : expect_eol (13 :: 10 :: body) = .ok body :=
    expect_eol_eq_ok.mpr ⟨[13, 10], .inl rfl, rfl⟩
  have hskip' : skip_while (fun x => decide (x = 32)) version = .ok version :=
    skip_while_eq_ok.mpr ⟨[], rfl, htarget, by simp⟩
  unfold parse_request
  rw [hline, ok_then, htoken, ok_then]
  dsimp only
  rw [List.tail_cons, hskip, ok_then, hadvance, ok_then]
  dsimp only
  rw [List.tail_cons, hskip', ok_then, if_neg (not_or.mpr ⟨hmethod.1, hpath.1⟩), hversion, ok_then]
  dsimp only
  rw [heol, ok_then]

/-- **A head that is written is read back**, if there is room for its headers. -/
theorem parse_request_text {method path : List UInt8} {minor : ℕ}
    {lines : List (List UInt8 × List UInt8)} (hmethod : IsToken method)
    (hpath : IsTarget path) (hminor : minor < 10) (hlines : ∀ h ∈ lines, IsToken h.1 ∧ IsValue h.2)
    (max_headers : ℕ) :
    (lines.length ≤ max_headers →
      ∃ hs, parse_request max_headers (request_text method path minor lines)
        = .ok (⟨method, path, minor, hs⟩, []) ∧ texts hs = lines.map fun h => (some h.1, h.2))
      ∧ (max_headers < lines.length →
          parse_request max_headers (request_text method path minor lines) = .error .failed) := by
  have htext : request_text method path minor lines
      = method ++ 32 :: (path ++ 32 :: (VERSION ++ Decimal.digit minor :: 13 :: 10
          :: (lines.flatMap header_line ++ ([13, 10] ++ [])))) := by
    unfold request_text
    simp
  obtain ⟨hfit, hmore⟩ := parse_headers_lines hlines max_headers true []
  rw [htext, parse_request_line hmethod hpath hminor]
  constructor
  · intro hle
    obtain ⟨hs, hparse, htexts⟩ := hfit hle
    rw [hparse]
    exact ⟨hs, rfl, htexts⟩
  · intro hlt
    rw [hmore hlt]
    rfl

/-! ## Responses -/

/-- A reason, without the spaces before it: no control characters, and no space in front. -/
def IsReason (msg : List UInt8) : Prop := (∀ c ∈ msg, isCtl c = false) ∧ ∀ c ∈ msg.head?, c ≠ 32

theorem reason_of_ok {token msg : List UInt8} (htoken : ∀ c ∈ token, isCtl c = false)
    (h : reason_of token = .ok msg) :
    IsReason msg := by
  unfold reason_of at h
  split at h
  · obtain rfl := Except.ok.inj h
    exact ⟨by simp, by simp⟩
  split_ifs at h
  obtain rfl := Except.ok.inj h
  refine ⟨fun c hc => ?_, fun c hc => ?_⟩
  · exact htoken c (List.mem_cons_of_mem _ ((List.dropWhile_sublist _).subset hc))
  · have hstop := List.head?_dropWhile_not (fun x : UInt8 => decide (x = 32)) ‹List UInt8›
    rw [Option.mem_def.mp hc] at hstop
    simpa using hstop

/-- A reason is read back from what stands behind the status. -/
theorem reason_of_text {msg : List UInt8} (hmsg : IsReason msg) :
    reason_of (32 :: msg) = .ok msg := by
  unfold reason_of
  dsimp only
  rw [if_pos rfl]
  cases msg with
  | nil => rfl
  | cons c msg => rw [List.dropWhile_cons_of_neg (by simpa using hmsg.2 c rfl)]

theorem parse_int_3_lt {status : ℕ} (h : parse_int_3 buf = .ok (status, rest)) : status < 1000 := by
  unfold parse_int_3 at h
  split at h
  · split_ifs at h with hdigits
    rename_i c d e tail
    obtain ⟨rfl, _⟩ := Prod.mk.inj (Except.ok.inj h)
    have hvalue : Decimal.value [c, d, e] < 10 ^ [c, d, e].length :=
      Decimal.value_lt (by simpa [and_assoc] using hdigits)
    have hpow : 10 ^ [c, d, e].length = 1000 := by simp
    omega
  · cases h

/-- **A status of three digits is read back**, from the digits that the writer makes of it. -/
theorem parse_int_3_status {status : ℕ} (hlow : 100 ≤ status) (hhigh : status < 1000)
    (rest : List UInt8) :
    parse_int_3 (Decimal.ofNat status ++ rest) = .ok (status, rest) := by
  have hvalue : Decimal.value (Decimal.ofNat status) = status :=
    Decimal.value_digits (Nat.le_refl _)
  have hdigits := Decimal.isDigit_of_mem_digits status status
  have hle : (Decimal.ofNat status).length ≤ 3 := Decimal.length_digits_le (by decide) hhigh
  have hlt := Decimal.value_lt hdigits
  have hge : 3 ≤ (Decimal.ofNat status).length := by
    by_contra hshort
    have hpow : 10 ^ (Decimal.ofNat status).length ≤ 10 ^ 2 :=
      Nat.pow_le_pow_right (by decide) (by omega)
    unfold Decimal.ofNat at hvalue hpow
    omega
  have hall : ∀ c ∈ Decimal.ofNat status, Decimal.isDigit c = true := hdigits
  match Decimal.ofNat status, hvalue, hle, hge, hall with
  | [c, d, e], hvalue, _, _, hall =>
      unfold parse_int_3
      rw [List.cons_append, List.cons_append, List.cons_append, List.nil_append]
      dsimp only
      rw [hall c (by simp), hall d (by simp), hall e (by simp), hvalue]
      rfl

/-- **A smaller one is written with fewer**, and is refused: the parser takes exactly three. -/
theorem parse_int_3_short {status : ℕ} (hhigh : status < 100) {rest : List UInt8}
    (hrest : rest ≠ []) :
    parse_int_3 (Decimal.ofNat status ++ 32 :: rest) = .error .failed := by
  have hne : Decimal.ofNat status ≠ [] := Decimal.digits_ne_nil status status
  have hle : (Decimal.ofNat status).length ≤ 2 := Decimal.length_digits_le (by decide) hhigh
  obtain ⟨x, rest, rfl⟩ := List.exists_cons_of_ne_nil hrest
  have hspace : Decimal.isDigit 32 = false := by decide
  match Decimal.ofNat status, hne, hle with
  | [c], _, _ =>
      unfold parse_int_3
      rw [List.cons_append, List.nil_append]
      dsimp only
      rw [hspace, Bool.and_false, Bool.false_and]
      rfl
  | [c, d], _, _ =>
      unfold parse_int_3
      rw [List.cons_append, List.cons_append, List.nil_append]
      dsimp only
      rw [hspace, Bool.and_false]
      rfl

/-- **What is accepted is well formed**, and its headers are found where they stand. -/
theorem parse_response_ok {max_headers : ℕ} {r : Response}
    (hparse : parse_response max_headers buf = .ok (r, rest)) :
    r.minor < 10 ∧ r.status < 1000 ∧ IsReason r.msg ∧ r.headers.length ≤ max_headers
      ∧ ∃ hs buf', r.headers = texts hs ∧ Laid hs buf' := by
  unfold parse_response at hparse
  obtain ⟨⟨minor, buf₁⟩, hminor, hparse⟩ := bind_ok.mp hparse
  dsimp only at hparse
  split at hparse
  · cases hparse
  split_ifs at hparse
  obtain ⟨buf₃, _, hparse⟩ := bind_ok.mp hparse
  split_ifs at hparse
  obtain ⟨⟨status, buf₄⟩, hstatus, hparse⟩ := bind_ok.mp hparse
  obtain ⟨⟨token, buf₅⟩, hline, hparse⟩ := bind_ok.mp hparse
  obtain ⟨msg, hmsg, hparse⟩ := bind_ok.mp hparse
  obtain ⟨⟨headers, buf₆⟩, hheaders, hparse⟩ := bind_ok.mp hparse
  obtain ⟨rfl, rfl⟩ := Prod.mk.inj (Except.ok.inj hparse)
  obtain ⟨hlaid, hlength⟩ := parse_headers_laid hheaders
  obtain ⟨_, _, _, htoken⟩ := get_token_to_eol_eq_ok.mp hline
  exact ⟨parse_http_version_lt hminor, parse_int_3_lt hstatus, reason_of_ok htoken hmsg,
    by rw [List.length_map]; exact hlength, headers, _, rfl, hlaid⟩

/-- A line without a name is only read behind another, and not as it is written. -/
theorem parse_headers_folded {lines : List (List UInt8 × List UInt8)}
    (hlines : ∀ h ∈ lines, IsToken h.1 ∧ IsValue h.2) {slots : ℕ} (hslots : lines.length < slots)
    (first : Bool) (rest : List UInt8) :
    parse_headers slots first (lines.flatMap header_line ++ 58 :: rest) = .error .failed := by
  -- On the lines in front of the one that has no name.
  induction lines generalizing slots first with
  | nil =>
      obtain ⟨slots, rfl⟩ : ∃ k, slots = k + 1 :=
        Nat.exists_eq_succ_of_ne_zero (by simp at hslots; omega)
      have hname : parse_name first (58 :: rest) = .error .failed := by
        unfold parse_name
        rw [if_neg (by simp [isBlank])]
        unfold parse_token scan
        rfl
      rw [List.flatMap_nil, List.nil_append]
      unfold parse_headers parse_header
      rw [if_neg (by decide), hname]
      rfl
  | cons line lines ih =>
      obtain ⟨name, value⟩ := line
      obtain ⟨hname, hvalue⟩ := hlines _ List.mem_cons_self
      obtain ⟨c, tail, htext, hgo⟩ : ∃ c tail, header_line (name, value)
        ++ (lines.flatMap header_line ++ 58 :: rest)
          = c :: tail ∧ ¬ (c = 13 ∨ c = 10) := header_line_not_eol hname _
      rw [List.length_cons] at hslots
      obtain ⟨slots, rfl⟩ : ∃ k, slots = k + 1 := Nat.exists_eq_succ_of_ne_zero (by omega)
      rw [List.flatMap_cons, List.append_assoc, htext]
      unfold parse_headers
      rw [if_neg hgo, ← htext, parse_header_line hname hvalue]
      dsimp only
      rw [ok_then]
      dsimp only
      rw [ih (fun h hh => hlines h (List.mem_cons_of_mem _ hh)) (by omega)]
      rfl

theorem parse_http_version_digit {minor : ℕ} (hminor : minor < 10) {rest : List UInt8}
    (hrest : rest ≠ []) :
    parse_http_version (VERSION ++ Decimal.digit minor :: rest) = .ok (minor, rest) := by
  have hpos := List.length_pos_iff.mpr hrest
  unfold parse_http_version
  rw [if_neg (by rw [List.length_append, List.length_cons]; simp only [VERSION,
    List.length_cons, List.length_nil]; omega),
    expect_chars_eq_ok.mpr rfl, ok_then]
  dsimp only
  rw [if_pos (Decimal.isDigit_digit hminor), Decimal.digitValue_digit hminor]

/-- The status line of a text is read if its status has three digits, and the headers are parsed
from what follows it. -/
theorem parse_status_line {minor status : ℕ} {msg : List UInt8} (hminor : minor < 10)
    (hstatus : status < 1000) (hmsg : IsReason msg) (max_headers : ℕ) (lines : List UInt8) :
    parse_response max_headers
        (VERSION ++ Decimal.digit minor :: 32
          :: (Decimal.ofNat status ++ 32 :: (msg ++ 13 :: 10 :: lines)))
      = if status < 100 then .error .failed
        else (do
          let (headers, buf) ← parse_headers max_headers true lines
          .ok (⟨minor, status, msg, headers.map fun h => (h.name, h.value)⟩, buf)) := by
  have hversion := parse_http_version_digit hminor
    (List.cons_ne_nil 32 (Decimal.ofNat status ++ 32 :: (msg ++ 13 :: 10 :: lines)))
  have hhead : ∃ c ∈ (Decimal.ofNat status ++ 32 :: (msg ++ 13 :: 10 :: lines)).head?,
      decide (c = 32) = false := by
    obtain ⟨c, tail, htail⟩ := List.exists_cons_of_ne_nil (Decimal.digits_ne_nil status status)
    have hdigit :=
      Decimal.isDigit_of_mem_digits status status c (by rw [htail]; exact List.mem_cons_self)
    refine ⟨c, ?_, ?_⟩
    · unfold Decimal.ofNat
      rw [htail]
      rfl
    · rw [decide_eq_false_iff_not]
      rintro rfl
      cases hdigit
  have hskip : skip_while (fun x => decide (x = 32))
      (Decimal.ofNat status ++ 32 :: (msg ++ 13 :: 10 :: lines))
      = .ok (Decimal.ofNat status ++ 32 :: (msg ++ 13 :: 10 :: lines)) :=
    skip_while_eq_ok.mpr ⟨[], rfl, hhead, by simp⟩
  have hlength : ¬ (Decimal.ofNat status ++ 32 :: (msg ++ 13 :: 10 :: lines)).length < 4 := by
    have hpos := List.length_pos_iff.mpr (Decimal.digits_ne_nil status status)
    unfold Decimal.ofNat
    rw [List.length_append, List.length_cons, List.length_append, List.length_cons,
      List.length_cons]
    omega
  unfold parse_response
  rw [hversion, ok_then]
  dsimp only
  rw [if_neg (not_not.mpr rfl), hskip, ok_then, if_neg hlength]
  -- The three digits are read as they stand, so a number below 100 has too few of them.
  by_cases hlow : status < 100
  · rw [if_pos hlow, parse_int_3_short hlow (by simp)]
    rfl
  · have hline : get_token_to_eol (32 :: (msg ++ 13 :: 10 :: lines)) = .ok (32 :: msg, lines) := by
      refine get_token_to_eol_eq_ok.mpr ⟨[13, 10], .inl rfl, rfl, fun c hc => ?_⟩
      rcases List.mem_cons.mp hc with rfl | hc
      · decide
      · exact hmsg.1 c hc
    rw [if_neg hlow, parse_int_3_status (by omega) hstatus, ok_then]
    dsimp only
    rw [hline, ok_then]
    dsimp only
    rw [reason_of_text hmsg, ok_then]

end PicoHttp
