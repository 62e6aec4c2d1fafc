/-
**Decimal text**, as C writes and reads it.

`ofInt` is what `%lld` writes, `stoll` and `strtoul` are the readers of the C and C++ libraries in
base ten: white space, an optional sign, then digits up to the first other byte. What is written is
read back, whatever follows it, as long as that does not start with a digit. Nothing here depends on
the program.

`runs_on` is for a text that ends in the middle of a number: C reads on behind it, to the first
byte that is no digit. `number` is the plain reading, by which a text is a number as a whole or not
at all; `stoll_number` says that the reader of the library agrees with it where the number fits.
-/
import Mathlib.Algebra.Group.Int.Defs
import Mathlib.Algebra.Group.Nat.Defs
import Mathlib.Data.Nat.Basic
import Mathlib.Data.List.TakeWhile
import Mathlib.Tactic.Common

set_option autoImplicit false

namespace Decimal

/-! ## Digits -/

/-- The character of a digit. -/
def digit (d : ℕ) : UInt8 := UInt8.ofNat (48 + d)

/-- Whether a byte is the character of a digit. -/
def isDigit (c : UInt8) : Bool := 48 ≤ c.toNat && c.toNat ≤ 57

/-- The value of the character of a digit. -/
def digitValue (c : UInt8) : ℕ := c.toNat - 48

theorem digit_toNat {d : ℕ} (h : d < 10) : (digit d).toNat = 48 + d := by
  unfold digit
  rw [UInt8.toNat_ofNat']
  omega

theorem isDigit_digit {d : ℕ} (h : d < 10) : isDigit (digit d) = true := by
  unfold isDigit
  rw [digit_toNat h]
  simp only [Bool.and_eq_true, decide_eq_true_eq]
  omega

theorem digitValue_digit {d : ℕ} (h : d < 10) : digitValue (digit d) = d := by
  unfold digitValue
  rw [digit_toNat h]
  omega

/-- The value of a list of digits, the most significant first. -/
def value (s : List UInt8) : ℕ := s.foldl (fun n c => n * 10 + digitValue c) 0

theorem value_append_digit (s : List UInt8) {d : ℕ} (h : d < 10) :
    value (s ++ [digit d]) = value s * 10 + d := by
  unfold value
  rw [List.foldl_append, List.foldl_cons, List.foldl_nil, digitValue_digit h]

/-! ## Writing -/

/-- The digits of `n`, if it has at most `fuel + 1` of them. -/
def digits : ℕ → ℕ → List UInt8
  | 0, n => [digit (n % 10)]
  | fuel + 1, n => if n < 10 then [digit n] else digits fuel (n / 10) ++ [digit (n % 10)]

/-- `%llu`: a number without leading zeros, and "0" for zero. -/
def ofNat (n : ℕ) : List UInt8 := digits n n

/-- `%lld`: the number, with a sign when it is negative. -/
def ofInt (z : ℤ) : List UInt8 := if z < 0 then 45 :: ofNat z.natAbs else ofNat z.natAbs

theorem isDigit_of_mem_digits (fuel n : ℕ) : ∀ c ∈ digits fuel n, isDigit c = true := by
  induction fuel generalizing n with
  | zero =>
      intro c hc
      rw [digits, List.mem_singleton] at hc
      subst hc
      exact isDigit_digit (Nat.mod_lt n (by omega))
  | succ fuel ih =>
      intro c hc
      rw [digits] at hc
      split_ifs at hc with hn
      · rw [List.mem_singleton] at hc
        subst hc
        exact isDigit_digit hn
      · rcases List.mem_append.mp hc with hc | hc
        · exact ih (n / 10) c hc
        · rw [List.mem_singleton] at hc
          subst hc
          exact isDigit_digit (Nat.mod_lt n (by omega))

theorem digits_ne_nil (fuel n : ℕ) : digits fuel n ≠ [] := by
  cases fuel with
  | zero => simp [digits]
  | succ fuel =>
      rw [digits]
      split_ifs <;> simp

theorem value_digits {fuel n : ℕ} (h : n ≤ fuel) : value (digits fuel n) = n := by
  induction fuel generalizing n with
  | zero =>
      obtain rfl : n = 0 := by omega
      rfl
  | succ fuel ih =>
      rw [digits]
      split_ifs with hn
      · have hone := value_append_digit [] hn
        rw [List.nil_append] at hone
        rw [hone]
        simp [value]
      · rw [value_append_digit _ (Nat.mod_lt n (by omega)), ih (by omega)]
        omega

/-- A text of `k` digits has a value below `10 ^ k`. -/
theorem value_lt {s : List UInt8} (hs : ∀ c ∈ s, isDigit c = true) : value s < 10 ^ s.length := by
  have hfold : ∀ (s : List UInt8) (n : ℕ), (∀ c ∈ s, isDigit c = true) →
      s.foldl (fun n c => n * 10 + digitValue c) n < (n + 1) * 10 ^ s.length := by
    intro s
    induction s with
    | nil =>
        intro n _
        rw [List.foldl_nil, List.length_nil]
        omega
    | cons c s ih =>
        intro n hs
        have hdigit := hs c List.mem_cons_self
        unfold isDigit at hdigit
        simp only [Bool.and_eq_true, decide_eq_true_eq] at hdigit
        have hlt := ih (n * 10 + digitValue c) fun d hd => hs d (List.mem_cons_of_mem _ hd)
        rw [List.foldl_cons, List.length_cons, Nat.pow_succ, Nat.mul_comm (10 ^ s.length),
          ← Nat.mul_assoc]
        refine hlt.trans_le (Nat.mul_le_mul_right _ ?_)
        unfold digitValue
        omega
  have hlt := hfold s 0 hs
  rw [Nat.zero_add, Nat.one_mul] at hlt
  exact hlt

/-- A number below `10 ^ k` has at most `k` digits, which bounds the texts that the sidecar writes
itself. -/
theorem length_digits_le {k : ℕ} (hk : 0 < k) {fuel n : ℕ} (h : n < 10 ^ k) :
    (digits fuel n).length ≤ k := by
  induction fuel generalizing n k with
  | zero => rw [digits]; exact hk
  | succ fuel ih =>
      rw [digits]
      split_ifs with hn
      · exact hk
      · obtain ⟨j, rfl⟩ : ∃ j, k = j + 1 := ⟨k - 1, by omega⟩
        have hj : 0 < j := by
          by_contra hzero
          obtain rfl : j = 0 := by omega
          omega
        have hlt : n / 10 < 10 ^ j := by
          rw [Nat.pow_succ] at h
          exact (Nat.div_lt_iff_lt_mul (by omega)).mpr h
        have hrest := ih hj hlt
        rw [List.length_append, List.length_singleton]
        omega

/-! ## Reading -/

/-- How a conversion fails. The C functions say it by `errno` or by an exception. -/
inductive Error
  /-- No digits. -/
  | noConversion
  /-- The number does not fit. -/
  | outOfRange
  deriving DecidableEq, Repr

/-- `isspace` in the C locale: the space, and the five controls from the tab on. -/
def isSpace (c : UInt8) : Bool := c = 32 || (9 ≤ c.toNat && c.toNat ≤ 13)

/-- The sign and the digits a text starts with, after white space. -/
def scan (s : List UInt8) : Bool × List UInt8 :=
  match s.dropWhile isSpace with
  | [] => (false, [])
  | c :: rest =>
    if c = 45 then (true, rest.takeWhile isDigit)
    else if c = 43 then (false, rest.takeWhile isDigit)
    else (false, (c :: rest).takeWhile isDigit)

/-- Nothing but the end of the text ends what is scanned: white space, a sign and digits reach up
to it. A scan of a longer array would go on. -/
def runs_on (s : List UInt8) : Bool :=
  match s.dropWhile isSpace with
  | [] => true
  | c :: rest => if c = 45 ∨ c = 43 then rest.all isDigit else (c :: rest).all isDigit

/-- `std::stoll`: white space, a sign and digits are scanned, and what follows them is not looked
at. -/
def stoll (s : List UInt8) : Except Error ℤ :=
  let (negative, ds) := scan s
  if ds = [] then .error .noConversion
  else
    let z : ℤ := if negative then -(value ds) else value ds
    if z < -2 ^ 63 ∨ 2 ^ 63 - 1 < z then .error .outOfRange else .ok z

/-- `strtoul`, with 64 bits: a negative number is negated as an unsigned one, what does not fit is
the largest, and no digits are zero. -/
def strtoul (s : List UInt8) : BitVec 64 :=
  let (negative, ds) := scan s
  if 2 ^ 64 ≤ value ds then BitVec.allOnes 64
  else if negative then -BitVec.ofNat 64 (value ds) else BitVec.ofNat 64 (value ds)

/-- `std::from_chars` for an `int`: it takes neither white space nor a plus sign. -/
def from_chars (s : List UInt8) : Except Error ℤ :=
  let negative := s.head? = some 45
  let ds := (if negative then s.tail else s).takeWhile isDigit
  if ds = [] then .error .noConversion
  else
    let z : ℤ := if negative then -(value ds) else value ds
    if z < -2 ^ 31 ∨ 2 ^ 31 - 1 < z then .error .outOfRange else .ok z

theorem takeWhile_isDigit {ds rest : List UInt8} (hds : ∀ c ∈ ds, isDigit c = true)
    (hrest : ∀ c ∈ rest.head?, isDigit c = false) : (ds ++ rest).takeWhile isDigit = ds := by
  rw [List.takeWhile_append_of_pos hds]
  cases rest with
  | nil => simp
  | cons c rest => rw [List.takeWhile_cons_of_neg (by rw [hrest c rfl]; simp), List.append_nil]

theorem not_space_of_digit {c : UInt8} (h : isDigit c = true) :
    isSpace c = false ∧ c ≠ 45 ∧ c ≠ 43 := by
  unfold isDigit at h
  simp only [Bool.and_eq_true, decide_eq_true_eq] at h
  have hne : ∀ d : UInt8, d.toNat < 48 → c ≠ d := by
    rintro d hd rfl
    omega
  refine ⟨?_, hne 45 (by decide), hne 43 (by decide)⟩
  unfold isSpace
  simp only [Bool.or_eq_false_iff, decide_eq_false_iff_not, Bool.and_eq_false_imp,
    decide_eq_true_eq]
  exact ⟨hne 32 (by decide), fun _ => by omega⟩

/-- What stands behind a text that is read takes no part, unless it starts with a digit. -/
theorem takeWhile_isDigit_append (s : List UInt8) {rest : List UInt8}
    (hrest : ∀ c ∈ rest.head?, isDigit c = false) :
    (s ++ rest).takeWhile isDigit = s.takeWhile isDigit := by
  induction s with
  | nil =>
      have hnone := takeWhile_isDigit (show ∀ d ∈ ([] : List UInt8), isDigit d = true by simp) hrest
      rw [hnone]
      rfl
  | cons c s ih =>
      rw [List.cons_append]
      by_cases hc : isDigit c = true
      · rw [List.takeWhile_cons_of_pos hc, List.takeWhile_cons_of_pos hc, ih]
      · rw [List.takeWhile_cons_of_neg hc, List.takeWhile_cons_of_neg hc]

theorem scan_append {s rest : List UInt8} (hne : s ≠ []) (hhead : ∀ c ∈ s.head?, isSpace c = false)
    (hrest : ∀ c ∈ rest.head?, isDigit c = false) : scan (s ++ rest) = scan s := by
  obtain ⟨c, s, rfl⟩ := List.exists_cons_of_ne_nil hne
  have hspace : ¬ isSpace c = true := by
    rw [hhead c rfl]
    exact Bool.false_ne_true
  have hall := takeWhile_isDigit_append (c :: s) hrest
  unfold scan
  rw [List.cons_append] at hall ⊢
  rw [List.dropWhile_cons_of_neg hspace, List.dropWhile_cons_of_neg hspace]
  dsimp only
  rw [takeWhile_isDigit_append s hrest, hall]

/-- White space in front is skipped. -/
theorem scan_spaces {spaces : List UInt8} (hspaces : ∀ c ∈ spaces, isSpace c = true)
    (s : List UInt8) :
    scan (spaces ++ s) = scan s := by
  unfold scan
  rw [List.dropWhile_append_of_pos hspaces]

theorem runs_on_spaces {spaces : List UInt8} (hspaces : ∀ c ∈ spaces, isSpace c = true)
    (s : List UInt8) :
    runs_on (spaces ++ s) = runs_on s := by
  unfold runs_on
  rw [List.dropWhile_append_of_pos hspaces]

/-- A scan that has begun ends at what is no digit, so what stands behind does not matter. -/
theorem runs_on_append {s : List UInt8} (hne : s ≠ [])
    (hhead : ∀ c ∈ s.head?, isSpace c = false) {d : UInt8} (hd : isDigit d = false)
    (rest : List UInt8) : runs_on (s ++ d :: rest) = false := by
  obtain ⟨c, s, rfl⟩ := List.exists_cons_of_ne_nil hne
  have hspace : ¬ isSpace c = true := by
    rw [hhead c rfl]
    exact Bool.false_ne_true
  have hstop : (s ++ d :: rest).all isDigit = false := by
    rw [List.all_append, List.all_cons, hd, Bool.false_and, Bool.and_false]
  unfold runs_on
  rw [List.cons_append, List.dropWhile_cons_of_neg hspace]
  dsimp only
  split_ifs
  · exact hstop
  · rw [List.all_cons, hstop, Bool.and_false]

theorem strtoul_congr {s t : List UInt8} (h : scan s = scan t) : strtoul s = strtoul t := by
  unfold strtoul
  rw [h]

/-- The digits of an unsigned number are scanned as they are, up to the first byte that is none. -/
theorem scan_digits {ds rest : List UInt8} (hne : ds ≠ []) (hds : ∀ c ∈ ds, isDigit c = true)
    (hrest : ∀ c ∈ rest.head?, isDigit c = false) : scan (ds ++ rest) = (false, ds) := by
  obtain ⟨c, tail, rfl⟩ := List.exists_cons_of_ne_nil hne
  obtain ⟨hspace, hminus, hplus⟩ := not_space_of_digit (hds c List.mem_cons_self)
  have htake := takeWhile_isDigit hds hrest
  unfold scan
  rw [List.cons_append, List.dropWhile_cons_of_neg (by rw [hspace]; simp)]
  dsimp only
  rw [if_neg hminus, if_neg hplus]
  rw [List.cons_append] at htake
  rw [htake]

/-- **What `%lld` writes, `stoll` reads back**, whatever follows, for every `long long`. -/
theorem stoll_ofInt {z : ℤ} (hlow : -2 ^ 63 ≤ z) (hhigh : z ≤ 2 ^ 63 - 1) {rest : List UInt8}
    (hrest : ∀ c ∈ rest.head?, isDigit c = false) : stoll (ofInt z ++ rest) = .ok z := by
  have hne := digits_ne_nil z.natAbs z.natAbs
  have hds := isDigit_of_mem_digits z.natAbs z.natAbs
  have hvalue := value_digits (le_refl z.natAbs)
  -- the sign and the digits, which end where the text of the number does
  have hscan : scan (ofInt z ++ rest) = (decide (z < 0), digits z.natAbs z.natAbs) := by
    unfold ofInt ofNat
    split_ifs with hneg
    · have htake := takeWhile_isDigit hds hrest
      unfold scan
      rw [List.cons_append, List.dropWhile_cons_of_neg (by decide)]
      dsimp only
      rw [if_pos rfl, htake, decide_eq_true hneg]
    · rw [scan_digits hne hds hrest, decide_eq_false hneg]
  unfold stoll
  rw [hscan]
  dsimp only
  rw [if_neg hne, hvalue]
  -- the sign is put back
  have hz : (if decide (z < 0) = true then -(z.natAbs : ℤ) else (z.natAbs : ℤ)) = z := by
    split_ifs with hneg
    · rw [decide_eq_true_eq] at hneg
      omega
    · rw [decide_eq_true_eq] at hneg
      omega
  rw [hz, if_neg (by omega)]

/-! ### Texts that are numbers -/

/-- The number that a text is, up to a zero byte: an optional sign, digits, and nothing else. -/
def number (s : List UInt8) : Option ℤ :=
  match s.takeWhile (· ≠ 0) with
  | [] => none
  | c :: rest =>
    if c = 45 then if rest ≠ [] ∧ rest.all isDigit then some (-(value rest)) else none
    else if c = 43 then if rest ≠ [] ∧ rest.all isDigit then some (value rest) else none
    else if (c :: rest).all isDigit then some (value (c :: rest)) else none

/-- What `scan` finds in such a text: its sign, and all of its digits. -/
theorem scan_number {s : List UInt8} {z : ℤ} (h : number s = some z) :
    ∃ negative ds, scan s = (negative, ds) ∧ ds ≠ []
      ∧ z = if negative = true then -(value ds : ℤ) else (value ds : ℤ) := by
  -- what follows the zero byte is not read as a digit
  obtain ⟨tail, hs, htail⟩ : ∃ tail, s = s.takeWhile (· ≠ 0) ++ tail
      ∧ ∀ c ∈ tail.head?, isDigit c = false := by
    refine ⟨s.dropWhile (· ≠ 0), List.takeWhile_append_dropWhile.symm, fun c hc => ?_⟩
    have hzero : c = 0 := by
      have hne := List.head?_dropWhile_not (fun c : UInt8 => decide (c ≠ 0)) s
      rw [Option.mem_def.mp hc] at hne
      simpa using hne
    rw [hzero]
    rfl
  unfold number at h
  revert h hs
  generalize s.takeWhile (· ≠ 0) = t
  intro h hs
  subst hs
  match t with
  | [] => cases h
  | c :: rest =>
    have hdigits : ∀ {ds : List UInt8}, ds.all isDigit = true →
        (ds ++ tail).takeWhile isDigit = ds := fun hall =>
      takeWhile_isDigit (List.all_eq_true.mp hall) htail
    dsimp only at h
    split_ifs at h with hminus hrest hplus hrest hall
    · -- behind a minus
      obtain rfl := Option.some.inj h
      refine ⟨true, rest, ?_, hrest.1, rfl⟩
      subst hminus
      unfold scan
      rw [List.cons_append, List.dropWhile_cons_of_neg (by decide)]
      dsimp only
      rw [if_pos rfl, hdigits hrest.2]
    · -- behind a plus
      obtain rfl := Option.some.inj h
      refine ⟨false, rest, ?_, hrest.1, rfl⟩
      subst hplus
      unfold scan
      rw [List.cons_append, List.dropWhile_cons_of_neg (by decide)]
      dsimp only
      rw [if_neg hminus, if_pos rfl, hdigits hrest.2]
    · obtain rfl := Option.some.inj h
      exact ⟨false, c :: rest, scan_digits (List.cons_ne_nil _ _) (List.all_eq_true.mp hall) htail,
        List.cons_ne_nil _ _, rfl⟩

/-- **A number that fits is read as it is.** This is the plain reading that headers are compared
with. -/
theorem stoll_number {s : List UInt8} {z : ℤ} (h : number s = some z) (hlow : -2 ^ 63 ≤ z)
    (hhigh : z ≤ 2 ^ 63 - 1) : stoll s = .ok z := by
  obtain ⟨negative, ds, hscan, hne, hz⟩ := scan_number h
  unfold stoll
  rw [hscan]
  dsimp only
  rw [if_neg hne, ← hz, if_neg (by omega)]

end Decimal
