/-
**The request parser on heads that come in pieces** (`picohttpparser.c`).

The caller keeps what has come so far and calls the parser with all of it after each piece. Two
things make this work. None of the scanners takes back an answer when more comes behind it, so the
parser finds in the whole head what it finds in one call. And `is_complete`, which looks at the
last piece for the end of the head before anything is parsed again, never misses an end: a head
ends with two line ends, and at most three of their bytes came before.

The first of these is a property of readers, which is developed for all of them in a module of its
own; here it is shown of each scanner and of the two parsers. `heads_iff` is the result in terms of
a caller: a text is found as the head of a message, called with more and more of it, exactly if the
parser reads the whole of it at once and leaves nothing.
-/
import RlpSidecar.HttpReads
import RlpSidecar.Incremental
import RlpSidecar.PicoHttpSpec

set_option autoImplicit false

open Incremental

namespace PicoHttp

variable {buf rest : List UInt8}

/-! ## Scanners are settled -/

/-- `CHECK_EOF`, and then the next byte: at the end of the input nothing is decided. -/
theorem settled_next {γ : Type} {pushγ : List UInt8 → γ → γ}
    {g : UInt8 → List UInt8 → Except Fail γ} (hg : ∀ c, Settled .incomplete behind pushγ (g c)) :
    Settled .incomplete behind pushγ fun buf =>
      match buf with
      | [] => .error .incomplete
      | c :: rest => g c rest := by
  intro s p h
  cases p with
  | nil => exact absurd rfl h
  | cons c p => exact hg c s p h

/-- A reader that looks at nothing before there are `k` bytes, and waits until then. -/
theorem settled_at_least {γ : Type} {pushγ : List UInt8 → γ → γ}
    {g : List UInt8 → Except Fail γ} (k : ℕ) (hg : Settled .incomplete behind pushγ g) :
    Settled .incomplete behind pushγ fun buf => if buf.length < k then .error .incomplete
      else g buf := by
  intro s p h
  dsimp only at h ⊢
  by_cases hshort : p.length < k
  · rw [if_pos hshort] at h
    exact absurd rfl h
  have hlong : ¬ (behind s p).length < k := by
    unfold behind
    rw [List.length_append]
    omega
  rw [if_neg hshort] at h
  rw [if_neg hshort, if_neg hlong]
  exact hg s p h

theorem settled_expect_char (ch : UInt8) : Settled .incomplete behind behind (expect_char ch) := by
  have hchar : Settled .incomplete behind behind fun buf : List UInt8 =>
      match buf with
      | [] => .error .incomplete
      | c :: rest => if c = ch then .ok rest else (.error .failed : Except Fail (List UInt8)) :=
    settled_next fun c => .ite (fun _ _ => Iff.rfl) (.map fun _ _ => rfl) (.error Fail.failed)
  intro s p h
  unfold expect_char
  exact hchar s p h

theorem settled_expect_chars (chs : List UInt8) :
    Settled .incomplete behind behind (expect_chars chs) := by
  induction chs with
  | nil => exact .map fun _ _ => rfl
  | cons ch chs ih => exact (settled_expect_char ch).bind ih

theorem settled_expect_eol : Settled .incomplete behind behind expect_eol := by
  have heol : Settled .incomplete behind behind fun buf : List UInt8 =>
      match buf with
      | [] => .error .incomplete
      | c :: rest =>
        if c = 13 then expect_char 10 rest
        else if c = 10 then .ok rest
        else (.error .failed : Except Fail (List UInt8)) := by
    refine settled_next fun c => .ite (fun _ _ => Iff.rfl) (settled_expect_char 10) ?_
    exact .ite (fun _ _ => Iff.rfl) (.map fun _ _ => rfl) (.error Fail.failed)
  intro s p h
  unfold expect_eol
  exact heol s p h

theorem settled_scan (stop allowed : UInt8 → Bool) :
    Settled .incomplete behind behindRest (scan stop allowed) := by
  intro s p
  induction p with
  | nil => exact fun h => absurd rfl h
  | cons c p ih =>
      intro h
      unfold scan at h ⊢
      unfold behind
      rw [List.cons_append]
      dsimp only at h ⊢
      by_cases hstop : stop c = true
      · rw [if_pos hstop, if_pos hstop]
        rfl
      rw [if_neg hstop] at h
      rw [if_neg hstop, if_neg hstop]
      by_cases hallowed : allowed c = true
      · -- the scan goes on, and what it says of the rest is settled
        rw [if_pos hallowed] at h
        rw [if_pos hallowed, if_pos hallowed]
        cases hrec : scan stop allowed p with
        | error e =>
            rw [hrec] at h
            have hstep := ih (by rw [hrec]; exact fun heq => h (by cases heq; rfl))
            unfold behind at hstep
            rw [hstep, hrec]
            rfl
        | ok x =>
            have hstep := ih (by rw [hrec]; exact fun heq => by cases heq)
            unfold behind at hstep
            rw [hstep, hrec]
            rfl
      · rw [if_neg hallowed, if_neg hallowed]
        rfl

theorem settled_get_token_to_eol : Settled .incomplete behind behindRest get_token_to_eol := by
  unfold get_token_to_eol
  refine (settled_scan _ _).bind (.ofRest fun token => ?_)
  exact settled_expect_eol.bind (.map fun _ _ => rfl)

theorem settled_skip_while (p : UInt8 → Bool) :
    Settled .incomplete behind behind (skip_while p) := by
  unfold skip_while
  exact (settled_scan _ _).bind (.ofRest fun _ => .map fun _ _ => rfl)

theorem settled_skip_empty_line : Settled .incomplete behind behind skip_empty_line := by
  intro s p h
  cases p with
  | nil => exact absurd rfl h
  | cons c p =>
      unfold skip_empty_line at h ⊢
      unfold behind
      rw [List.cons_append]
      dsimp only at h ⊢
      by_cases hend : c = 13 ∨ c = 10
      · rw [if_pos hend] at h
        rw [if_pos hend, if_pos hend]
        exact settled_expect_eol s (c :: p) h
      · rw [if_neg hend, if_neg hend]
        rfl

/-- There must be nine bytes before the version is looked at, so a shorter text is not refused. -/
theorem settled_parse_http_version : Settled .incomplete behind behindRest parse_http_version := by
  unfold parse_http_version
  refine settled_at_least 9 ((settled_expect_chars VERSION).bind (settled_next fun c => ?_))
  exact .ite (fun _ _ => Iff.rfl) (.map fun _ _ => rfl) (.error Fail.failed)

/-- A byte that is known to be there is passed over, and what stands behind it decides. -/
theorem settled_tail {γ : Type} {pushγ : List UInt8 → γ → γ} {g : List UInt8 → Except Fail γ}
    (hg : Settled .incomplete behind pushγ g) (hnil : g [] = .error .incomplete) :
    Settled .incomplete behind pushγ fun buf => g buf.tail := by
  intro s p h
  cases p with
  | nil => exact absurd hnil h
  | cons c p => exact hg s p h

/-- Whether a line continues the one before is seen from its first byte. -/
theorem settled_parse_name (first : Bool) :
    Settled .incomplete behind behindRest (parse_name first) := by
  have hvalue : ∀ name : List UInt8, Settled .incomplete behind behindRest fun buf => (do
      let buf ← skip_while isBlank buf
      .ok (some name, buf) : Except Fail (Option (List UInt8) × List UInt8)) := fun name =>
    (settled_skip_while isBlank).bind (.map fun _ _ => rfl)
  have hname : Settled .incomplete behind behindRest fun buf => (do
      let token ← parse_token 58 buf
      if token.1 = [] then .error .failed
      else
        let buf ← skip_while isBlank token.2.tail
        .ok (some token.1, buf) : Except Fail (Option (List UInt8) × List UInt8)) := by
    refine (settled_scan _ _).bind (.ofRest fun name => ?_)
    exact .ite (fun _ _ => Iff.rfl) (.error Fail.failed) (settled_tail (hvalue name) rfl)
  intro s p h
  -- The first byte decides between a folded line and a name, so it has to be there.
  cases p with
  | nil =>
      unfold parse_name at h
      rw [if_neg (by simp)] at h
      exact absurd rfl h
  | cons c p =>
      unfold parse_name at h ⊢
      by_cases hfold : first = false ∧ (c :: p).head?.any isBlank
      · rw [if_pos hfold, if_pos (by exact hfold)]
        rfl
      · rw [if_neg hfold] at h
        rw [if_neg hfold, if_neg (by exact hfold)]
        exact hname s (c :: p) h

/-- What comes later stands behind the values that were read before, since they point into the
buffer. -/
def phr_header.push (s : List UInt8) (h : phr_header) : phr_header :=
  { h with value_ptr := h.value_ptr ++ s }

theorem settled_parse_header (first : Bool) :
    Settled .incomplete behind (fun s x => (phr_header.push s x.1, x.2 ++ s))
      (parse_header first) := by
  unfold parse_header
  refine (settled_parse_name first).bind (.ofRest fun name => ?_)
  exact settled_get_token_to_eol.result fun _ _ _ => rfl

theorem settled_parse_headers (slots : ℕ) (first : Bool) :
    Settled .incomplete behind (fun s x => (x.1.map (phr_header.push s), x.2 ++ s))
      (parse_headers slots first) := by
  have hend : Settled .incomplete behind (fun s x => (x.1.map (phr_header.push s), x.2 ++ s))
      fun buf => (do
      let buf ← expect_eol buf
      .ok ([], buf) : Except Fail (List phr_header × List UInt8)) :=
    settled_expect_eol.bind (.map fun _ _ => rfl)
  induction slots generalizing first with
  | zero =>
      -- without a place, the end of the head is all that is accepted, and its first byte decides
      intro s p h
      cases p with
      | nil => exact absurd rfl h
      | cons c p =>
          unfold parse_headers at h ⊢
          unfold behind
          rw [List.cons_append]
          dsimp only at h ⊢
          by_cases heol : c = 13 ∨ c = 10
          · rw [if_pos heol] at h
            rw [if_pos heol, if_pos heol]
            exact hend s (c :: p) h
          · rw [if_neg heol, if_neg heol]
            rfl
  | succ slots ih =>
      have hline : Settled .incomplete behind
          (fun s x => (x.1.map (phr_header.push s), x.2 ++ s)) fun buf => (do
          let header ← parse_header first buf
          let headers ← parse_headers slots false header.2
          .ok (header.1 :: headers.1, headers.2) : Except Fail (List phr_header × List UInt8)) := by
        refine (settled_parse_header first).bind ?_
        have hrest : Settled .incomplete
            (fun s (x : phr_header × List UInt8) => (x.1.push s, x.2 ++ s))
            (fun s x => (x.1.map (phr_header.push s), x.2 ++ s)) fun x =>
              parse_headers slots false x.2 :=
          fun s x h => ih false s x.2 h
        exact hrest.result fun _ _ _ => rfl
      intro s p h
      cases p with
      | nil => exact absurd rfl h
      | cons c p =>
          unfold parse_headers at h ⊢
          unfold behind
          rw [List.cons_append]
          dsimp only at h ⊢
          by_cases heol : c = 13 ∨ c = 10
          · rw [if_pos heol] at h
            rw [if_pos heol, if_pos heol]
            exact hend s (c :: p) h
          · rw [if_neg heol] at h
            rw [if_neg heol, if_neg heol]
            exact hline s (c :: p) h

/-- What comes later stands behind all the values of a request. -/
def Request.push (s : List UInt8) (r : Request) : Request :=
  { r with headers := r.headers.map (phr_header.push s) }

theorem settled_parse_request (max_headers : ℕ) :
    Settled .incomplete behind (fun s x => (Request.push s x.1, x.2 ++ s))
      (parse_request max_headers) := by
  unfold parse_request
  refine settled_skip_empty_line.bind ((settled_scan _ _).bind (.ofRest fun method => ?_))
  refine settled_tail
    ((settled_skip_while _).bind ((settled_scan _ _).bind (.ofRest fun path => ?_))) rfl
  refine settled_tail
    ((settled_skip_while _).bind (.ite (fun _ _ => Iff.rfl) (.error Fail.failed) ?_)) rfl
  refine settled_parse_http_version.bind (.ofRest fun minor => settled_expect_eol.bind ?_)
  exact (settled_parse_headers max_headers true).bind (.map fun _ _ => rfl)

theorem settled_parse_int_3 : Settled .incomplete behind behindRest parse_int_3 := by
  intro s p h
  match p with
  | [] => exact absurd rfl h
  | [c] => exact absurd rfl h
  | [c, d] => exact absurd rfl h
  | c :: d :: e :: p =>
      unfold behind parse_int_3
      dsimp only [List.cons_append]
      split_ifs <;> rfl

/-- A response has nothing of what comes later: the model keeps no text behind its values. -/
def Response.push (_ : List UInt8) (r : Response) : Response := r

theorem settled_parse_response (max_headers : ℕ) :
    Settled .incomplete behind (fun s x => (Response.push s x.1, x.2 ++ s))
      (parse_response max_headers) := by
  -- The pieces in their order, each settled once what stands in front of it is read.
  have hheaders : ∀ (minor status : ℕ) (msg : List UInt8),
      Settled .incomplete behind behindRest fun buf => (do
      let headers ← parse_headers max_headers true buf
      .ok (⟨minor, status, msg, headers.1.map fun h => (h.name, h.value)⟩, headers.2) :
        Except Fail (Response × List UInt8)) := by
    intro minor status msg
    refine (settled_parse_headers max_headers true).bind (.map fun s x => ?_)
    unfold behindRest
    rw [List.map_map]
    rfl
  have hstatus : ∀ minor : ℕ, Settled .incomplete behind behindRest fun buf => (do
      let status ← parse_int_3 buf
      let token ← get_token_to_eol status.2
      let msg ← reason_of token.1
      let headers ← parse_headers max_headers true token.2
      .ok (⟨minor, status.1, msg, headers.1.map fun h => (h.name, h.value)⟩, headers.2) :
        Except Fail (Response × List UInt8)) := by
    intro minor
    refine settled_parse_int_3.bind (.ofRest fun status => ?_)
    dsimp only
    refine settled_get_token_to_eol.bind (.ofRest fun token => ?_)
    dsimp only
    exact .after fun msg => hheaders minor status msg
  unfold parse_response
  refine settled_parse_http_version.bind (.ofRest fun minor => settled_next fun c => ?_)
  refine .ite (fun _ _ => Iff.rfl) (.error Fail.failed) ((settled_skip_while _).bind ?_)
  exact settled_at_least 4 (hstatus minor)

/-! ## The end of a head -/

/-- Every carriage return is followed by a line feed, also one at the very end of the text, which
therefore is none. -/
def LineEnds : List UInt8 → Prop
  | [] => True
  | c :: rest => (c = 13 → rest.head? = some 10) ∧ LineEnds rest

theorem LineEnds.append {a b : List UInt8} (ha : LineEnds a) (hb : LineEnds b) :
    LineEnds (a ++ b) := by
  induction a with
  | nil => exact hb
  | cons c a ih =>
      refine ⟨fun hc => ?_, ih ha.2⟩
      have hnext := ha.1 hc
      change (a ++ b).head? = some 10
      rw [List.head?_append, hnext]
      rfl

theorem LineEnds.drop {a : List UInt8} (h : LineEnds a) (k : ℕ) : LineEnds (a.drop k) := by
  induction k generalizing a with
  | zero => exact h
  | succ k ih =>
      cases a with
      | nil => exact trivial
      | cons c a => exact ih h.2

theorem LineEnds.of_forall {a : List UInt8} (h : ∀ c ∈ a, c ≠ 13) : LineEnds a := by
  induction a with
  | nil => exact trivial
  | cons c a ih =>
      exact ⟨fun hc => absurd hc (h c List.mem_cons_self),
        ih fun d hd => h d (List.mem_cons_of_mem _ hd)⟩

theorem IsEol.lineEnds {eol : List UInt8} (h : IsEol eol) : LineEnds eol := by
  rcases h with rfl | rfl
  · exact ⟨fun _ => rfl, (fun hc => absurd hc (by decide)), trivial⟩
  · exact ⟨(fun hc => absurd hc (by decide)), trivial⟩

/-- A text that ends with two line ends, and with them the head. -/
def EndsTwice (head : List UInt8) : Prop :=
  ∃ front eol₁ eol₂, head = front ++ (eol₁ ++ eol₂) ∧ IsEol eol₁ ∧ IsEol eol₂

theorem is_complete_eol {eol : List UInt8} (heol : IsEol eol) (ret_cnt : ℕ) (rest : List UInt8) :
    is_complete ret_cnt (eol ++ rest) = if ret_cnt = 1 then .ok ()
      else is_complete (ret_cnt + 1) rest := by
  rcases heol with rfl | rfl
  · rfl
  · rw [List.singleton_append]
    conv_lhs => unfold is_complete
    rw [if_neg (by decide), if_pos rfl]

theorem IsEol.length_le {eol : List UInt8} (h : IsEol eol) : eol.length ≤ 2 := by
  rcases h with rfl | rfl
  · exact Nat.le_refl 2
  · exact Nat.le_succ 1

/-- Four bytes hold two line ends, so a search that starts at most that far before the end finds
them. -/
theorem EndsTwice.drop {head : List UInt8} (h : EndsTwice head) {k : ℕ} (hk : k ≤ head.length - 4) :
    EndsTwice (head.drop k) := by
  obtain ⟨front, eol₁, eol₂, rfl, h₁, h₂⟩ := h
  have hlength₁ := h₁.length_le
  have hlength₂ := h₂.length_le
  rw [List.length_append, List.length_append] at hk
  exact ⟨front.drop k, eol₁, eol₂, List.drop_append_of_le_length (by omega), h₁, h₂⟩

/-- **A part of a head is never refused** by `is_complete`: it asks for more. -/
theorem is_complete_part {p s : List UInt8} (ret_cnt : ℕ) (h : LineEnds (p ++ s)) :
    is_complete ret_cnt p ≠ .error .failed := by
  induction ret_cnt, p using is_complete.induct with
  | case1 ret_cnt => exact fun hfail => by cases hfail
  | case2 ret_cnt => exact fun hfail => by cases hfail
  | case3 rest => exact fun hfail => by cases hfail
  | case4 ret_cnt rest hcnt ih =>
      have hstep := is_complete_eol (.inl rfl) ret_cnt rest
      rw [if_neg hcnt] at hstep
      exact hstep ▸ ih h.2.2
  | case5 ret_cnt c rest hc => exact absurd (Option.some.inj (h.1 rfl)) hc
  | case6 rest =>
      have hstep := is_complete_eol (.inr rfl) 1 rest
      exact hstep ▸ fun hfail => by cases hfail
  | case7 ret_cnt rest hcnt _ ih =>
      have hstep := is_complete_eol (.inr rfl) ret_cnt rest
      rw [if_neg hcnt] at hstep
      exact hstep ▸ ih h.2
  | case8 ret_cnt c rest hcr hlf ih =>
      unfold is_complete
      rw [if_neg hcr, if_neg hlf]
      exact ih h.2

theorem is_complete_eols {eol₁ eol₂ : List UInt8} (h₁ : IsEol eol₁) (h₂ : IsEol eol₂)
    {ret_cnt : ℕ} (hcnt : ret_cnt ≤ 1) (rest : List UInt8) :
    is_complete ret_cnt (eol₁ ++ (eol₂ ++ rest)) = .ok () := by
  rw [is_complete_eol h₁]
  split_ifs with hone
  · rfl
  · rw [is_complete_eol h₂, if_pos (by omega)]

/-- **An end is found** wherever the search starts before it, with whatever follows it. -/
theorem is_complete_ends {head : List UInt8} (hends : EndsTwice head)
    (h : LineEnds head) {ret_cnt : ℕ} (hcnt : ret_cnt ≤ 1) (rest : List UInt8) :
    is_complete ret_cnt (head ++ rest) = .ok () := by
  obtain ⟨front, eol₁, eol₂, rfl, h₁, h₂⟩ := hends
  induction hn : front.length using Nat.strong_induction_on generalizing front ret_cnt with
  | _ n ih =>
      subst hn
      match front, h with
      | [], _ =>
          rw [List.nil_append, List.append_assoc]
          exact is_complete_eols h₁ h₂ hcnt rest
      | c :: front, h =>
          by_cases hcr : c = 13
          · subst hcr
            have hnext := h.1 rfl
            cases front with
            | nil =>
                -- the search starts between a carriage return and its line feed
                rcases h₁ with rfl | rfl
                · exact absurd (Option.some.inj hnext) (by decide)
                · exact is_complete_eols (.inl rfl) h₂ hcnt rest
            | cons d front =>
                obtain rfl : d = 10 := Option.some.inj hnext
                have hstep := is_complete_eol (.inl rfl) ret_cnt ((front ++ (eol₁ ++ eol₂)) ++ rest)
                refine hstep.trans ?_
                split_ifs with hone
                · rfl
                · exact ih front.length (by simp) (by omega) front h.2.2 rfl
          · by_cases hlf : c = 10
            · subst hlf
              have hstep := is_complete_eol (.inr rfl) ret_cnt ((front ++ (eol₁ ++ eol₂)) ++ rest)
              refine hstep.trans ?_
              split_ifs with hone
              · rfl
              · exact ih front.length (by simp) (by omega) front h.2 rfl
            · -- any other byte sets the count back
              rw [List.cons_append, List.cons_append]
              unfold is_complete
              rw [if_neg hcr, if_neg hlf]
              exact ih front.length (by simp) (by omega) front h.2 rfl

/-! ## Accepted heads -/

/-- What was taken from the front has whole line ends, none of them cut in two. -/
def Passes (buf rest : List UInt8) : Prop := ∃ taken, buf = taken ++ rest ∧ LineEnds taken

theorem Passes.refl (buf : List UInt8) : Passes buf buf := ⟨[], rfl, trivial⟩

theorem Passes.trans {buf₁ buf₂ buf₃ : List UInt8} (h : Passes buf₁ buf₂)
    (h' : Passes buf₂ buf₃) : Passes buf₁ buf₃ := by
  obtain ⟨taken, rfl, hends⟩ := h
  obtain ⟨taken', rfl, hends'⟩ := h'
  exact ⟨taken ++ taken', (List.append_assoc _ _ _).symm, hends.append hends'⟩

theorem IsEol.passes {eol : List UInt8} (h : IsEol eol) : Passes (eol ++ rest) rest :=
  ⟨eol, rfl, h.lineEnds⟩

theorem passes_tail {d : UInt8} (h : buf.head? = some d) (hd : d ≠ 13) : Passes buf buf.tail := by
  obtain ⟨tail, rfl⟩ := List.head?_eq_some_iff.mp h
  exact ⟨[d], rfl, fun hcr => absurd hcr hd, trivial⟩

theorem scan_passes {stop allowed : UInt8 → Bool} {token : List UInt8}
    (hcr : stop 13 = true ∨ allowed 13 = false) (h : scan stop allowed buf = .ok (token, rest)) :
    Passes buf rest := by
  obtain ⟨rfl, _, htoken⟩ := scan_eq_ok.mp h
  refine ⟨token, rfl, .of_forall fun c hc => ?_⟩
  rintro rfl
  obtain ⟨hgo, hallowed⟩ := htoken 13 hc
  rcases hcr with hcr | hcr
  · rw [hcr] at hgo
    cases hgo
  · rw [hcr] at hallowed
    cases hallowed

theorem skip_while_passes {p : UInt8 → Bool} (hcr : p 13 = false)
    (h : skip_while p buf = .ok rest) : Passes buf rest := by
  obtain ⟨skipped, rfl, _, hskipped⟩ := skip_while_eq_ok.mp h
  refine ⟨skipped, rfl, .of_forall fun c hc => ?_⟩
  rintro rfl
  rw [hskipped 13 hc] at hcr
  cases hcr

theorem expect_eol_passes (h : expect_eol buf = .ok rest) : Passes buf rest := by
  obtain ⟨eol, heol, rfl⟩ := expect_eol_eq_ok.mp h
  exact heol.passes

theorem skip_empty_line_passes (h : skip_empty_line buf = .ok rest) : Passes buf rest := by
  unfold skip_empty_line at h
  split at h
  · cases h
  split_ifs at h
  · exact expect_eol_passes h
  · obtain rfl := Except.ok.inj h
    exact .refl _

theorem parse_http_version_passes {minor : ℕ} (h : parse_http_version buf = .ok (minor, rest)) :
    Passes buf rest := by
  unfold parse_http_version at h
  split_ifs at h with hshort
  obtain ⟨buf', hversion, hdigit⟩ := bind_ok.mp h
  obtain rfl := expect_chars_eq_ok.mp hversion
  cases buf' with
  | nil => cases hdigit
  | cons c tail =>
      dsimp only at hdigit
      split_ifs at hdigit with hc
      obtain ⟨_, rfl⟩ := Prod.mk.inj (Except.ok.inj hdigit)
      refine ⟨VERSION ++ [c], (List.append_assoc VERSION [c] tail).symm, .of_forall fun d hd => ?_⟩
      rcases List.mem_append.mp hd with hd | hd
      · exact (by decide +kernel : ∀ d ∈ VERSION, d ≠ 13) d hd
      · obtain rfl := List.mem_singleton.mp hd
        rintro rfl
        cases hc

theorem parse_int_3_passes {status : ℕ} (h : parse_int_3 buf = .ok (status, rest)) :
    Passes buf rest := by
  unfold parse_int_3 at h
  split at h
  · rename_i c d e tail
    split_ifs at h with hdigits
    obtain ⟨_, rfl⟩ := Prod.mk.inj (Except.ok.inj h)
    refine ⟨[c, d, e], rfl, .of_forall fun x hx => ?_⟩
    rintro rfl
    simp only [Bool.and_eq_true, and_assoc] at hdigits
    simp only [List.mem_cons, List.not_mem_nil, or_false] at hx
    rcases hx with rfl | rfl | rfl
    · cases hdigits.1
    · cases hdigits.2.1
    · cases hdigits.2.2
  · cases h

theorem parse_name_passes {first : Bool} {name : Option (List UInt8)}
    (h : parse_name first buf = .ok (name, rest)) :
    Passes buf rest := by
  unfold parse_name at h
  split_ifs at h
  · obtain ⟨_, rfl⟩ := Prod.mk.inj (Except.ok.inj h)
    exact .refl _
  obtain ⟨⟨token, buf'⟩, htoken, h⟩ := bind_ok.mp h
  dsimp only at h
  split_ifs at h
  obtain ⟨buf'', hskip, h⟩ := bind_ok.mp h
  obtain ⟨_, rfl⟩ := Prod.mk.inj (Except.ok.inj h)
  have hcolon := (parse_token_eq_ok.mp htoken).2.1
  have hname : Passes buf buf' := scan_passes (.inr rfl) htoken
  exact hname.trans ((passes_tail hcolon (by decide)).trans (skip_while_passes rfl hskip))

theorem get_token_to_eol_ends {token : List UInt8} (h : get_token_to_eol buf = .ok (token, rest)) :
    ∃ eol, IsEol eol ∧ Passes buf (eol ++ rest) := by
  obtain ⟨eol, heol, rfl, htoken⟩ := get_token_to_eol_eq_ok.mp h
  refine ⟨eol, heol, token, rfl, .of_forall fun c hc => ?_⟩
  rintro rfl
  cases htoken 13 hc

theorem parse_header_ends {first : Bool} {header : phr_header}
    (h : parse_header first buf = .ok (header, rest)) :
    ∃ eol, IsEol eol ∧ Passes buf (eol ++ rest) := by
  unfold parse_header at h
  obtain ⟨⟨name, buf'⟩, hname, h⟩ := bind_ok.mp h
  obtain ⟨⟨line, rest'⟩, hline, h⟩ := bind_ok.mp h
  obtain ⟨_, rfl⟩ := Prod.mk.inj (Except.ok.inj h)
  obtain ⟨eol, heol, hpasses⟩ := get_token_to_eol_ends hline
  exact ⟨eol, heol, (parse_name_passes hname).trans hpasses⟩

/-- What was taken from the front ends with two line ends, the last of a line and the empty one. -/
def Ends (buf rest : List UInt8) : Prop := ∃ eol₁ eol₂, IsEol eol₁ ∧ IsEol eol₂
    ∧ Passes buf (eol₁ ++ (eol₂ ++ rest))

/-- **Headers** end with an empty line, which is all there is if there are none. -/
theorem parse_headers_ends {slots : ℕ} {first : Bool} {headers : List phr_header}
    (h : parse_headers slots first buf = .ok (headers, rest)) :
    (∃ eol, IsEol eol ∧ buf = eol ++ rest) ∨ Ends buf rest := by
  induction headers generalizing slots first buf with
  | nil => exact .inl (parse_headers_nil h)
  | cons header headers ih =>
      unfold parse_headers at h
      split at h
      · cases h
      split_ifs at h
      · obtain ⟨buf', _, h⟩ := bind_ok.mp h
        cases h
      split at h
      · cases h
      obtain ⟨⟨header', buf'⟩, hheader, h⟩ := bind_ok.mp h
      obtain ⟨⟨headers', rest'⟩, hheaders, h⟩ := bind_ok.mp h
      obtain ⟨hcons, rfl⟩ := Prod.mk.inj (Except.ok.inj h)
      obtain ⟨_, rfl⟩ := List.cons.inj hcons
      obtain ⟨eol₁, h₁, hpasses⟩ := parse_header_ends hheader
      rcases ih hheaders with ⟨eol₂, h₂, rfl⟩ | ⟨eol, eol₂, heol, h₂, hrest⟩
      · exact .inr ⟨eol₁, eol₂, h₁, h₂, hpasses⟩
      · exact .inr ⟨eol, eol₂, heol, h₂, hpasses.trans (h₁.passes.trans hrest)⟩

/-- The line before the headers, and they: together they end with two line ends. -/
theorem Ends.of_headers {eol : List UInt8} {slots : ℕ} {headers : List phr_header}
    {buf' : List UInt8} (hline : Passes buf (eol ++ buf')) (heol : IsEol eol)
    (h : parse_headers slots true buf' = .ok (headers, rest)) : Ends buf rest := by
  rcases parse_headers_ends h with ⟨eol₂, h₂, rfl⟩ | ⟨eol₁, eol₂, h₁, h₂, hrest⟩
  · exact ⟨eol, eol₂, heol, h₂, hline⟩
  · exact ⟨eol₁, eol₂, h₁, h₂, hline.trans (heol.passes.trans hrest)⟩

theorem Ends.head {head : List UInt8} (h : Ends (head ++ rest) rest) :
    EndsTwice head ∧ LineEnds head := by
  obtain ⟨eol₁, eol₂, h₁, h₂, front, heq, hfront⟩ := h
  have hhead : head = front ++ (eol₁ ++ eol₂) := by
    apply List.append_cancel_right
    rw [heq, List.append_assoc, List.append_assoc]
  subst hhead
  exact ⟨⟨front, eol₁, eol₂, rfl, h₁, h₂⟩, hfront.append (h₁.lineEnds.append h₂.lineEnds)⟩

theorem parse_request_ends {max_headers : ℕ} {r : Request}
    (h : parse_request max_headers buf = .ok (r, rest)) :
    Ends buf rest := by
  unfold parse_request at h
  obtain ⟨buf₁, hempty, h⟩ := bind_ok.mp h
  obtain ⟨⟨method, buf₂⟩, hmethod, h⟩ := bind_ok.mp h
  obtain ⟨buf₃, hskip, h⟩ := bind_ok.mp h
  obtain ⟨⟨path, buf₄⟩, hpath, h⟩ := bind_ok.mp h
  obtain ⟨buf₅, hskip', h⟩ := bind_ok.mp h
  dsimp only at h
  split_ifs at h
  obtain ⟨⟨minor, buf₆⟩, hminor, h⟩ := bind_ok.mp h
  obtain ⟨buf₇, heol, h⟩ := bind_ok.mp h
  obtain ⟨⟨headers, buf₈⟩, hheaders, h⟩ := bind_ok.mp h
  obtain ⟨_, rfl⟩ := Prod.mk.inj (Except.ok.inj h)
  obtain ⟨eol, hkind, rfl⟩ := expect_eol_eq_ok.mp heol
  have hspace := (parse_token_eq_ok.mp hmethod).2.1
  obtain ⟨_, ⟨d, hd, hspace'⟩, _⟩ := scan_eq_ok.mp hpath
  obtain rfl : d = 32 := of_decide_eq_true hspace'
  -- No piece in front of the headers stops inside an end of the head.
  have hfirst : Passes buf buf₃ :=
    (skip_empty_line_passes hempty).trans ((scan_passes (.inr rfl) hmethod).trans
      ((passes_tail hspace (by decide)).trans (skip_while_passes rfl hskip)))
  have hsecond : Passes buf₃ buf₅ :=
    (scan_passes (.inr rfl) hpath).trans
      ((passes_tail hd (by decide)).trans (skip_while_passes rfl hskip'))
  exact .of_headers (hfirst.trans (hsecond.trans (parse_http_version_passes hminor))) hkind hheaders

theorem parse_response_ends {max_headers : ℕ} {r : Response}
    (h : parse_response max_headers buf = .ok (r, rest)) :
    Ends buf rest := by
  unfold parse_response at h
  obtain ⟨⟨minor, buf₁⟩, hminor, h⟩ := bind_ok.mp h
  dsimp only at h
  split at h
  · cases h
  rename_i c buf₂
  split_ifs at h with hspace
  obtain ⟨buf₃, hskip, h⟩ := bind_ok.mp h
  split_ifs at h
  obtain ⟨⟨status, buf₄⟩, hstatus, h⟩ := bind_ok.mp h
  obtain ⟨⟨token, buf₅⟩, hline, h⟩ := bind_ok.mp h
  obtain ⟨msg, _, h⟩ := bind_ok.mp h
  obtain ⟨⟨headers, buf₆⟩, hheaders, h⟩ := bind_ok.mp h
  obtain ⟨_, rfl⟩ := Prod.mk.inj (Except.ok.inj h)
  obtain ⟨eol, heol, hends⟩ := get_token_to_eol_ends hline
  have hspace' : Passes (c :: buf₂) buf₂ := by
    rw [not_not] at hspace
    subst hspace
    exact passes_tail rfl (by decide)
  -- No piece in front of the status line's end stops inside an end of the head.
  have hfirst : Passes buf buf₃ :=
    (parse_http_version_passes hminor).trans (hspace'.trans (skip_while_passes rfl hskip))
  exact .of_headers (hfirst.trans ((parse_int_3_passes hstatus).trans hends)) heol hheaders

/-! ## Calls with more and more of a head -/

section Calls

variable {R : Type} {parse : List UInt8 → Except Fail (R × List UInt8)}
    {push : List UInt8 → R → R} {head : List UInt8}
  {r : R}

/-- The two functions that are called: `is_complete` on the bytes that are new, and then all of it
is parsed. -/
def phr_parse (parse : List UInt8 → Except Fail (R × List UInt8))
    (buf : List UInt8) (last_len : ℕ) :
    Except Fail (R × ℕ) := do
  if last_len ≠ 0 then is_complete 0 (buf.drop (last_len - 3))
  let (r, rest) ← parse buf
  .ok (r, buf.length - rest.length)

theorem phr_parse_request_eq (buf : List UInt8) (max_headers last_len : ℕ) :
    phr_parse_request buf max_headers last_len = phr_parse (parse_request max_headers)
      buf last_len := rfl

theorem phr_parse_response_eq (buf : List UInt8) (max_headers last_len : ℕ) :
    phr_parse_response buf max_headers last_len
      = phr_parse (parse_response max_headers) buf last_len := rfl

/-- **A part of a head is incomplete**, whatever was there at the call before. -/
theorem phr_parse_part (hsettled :
    Settled .incomplete behind (fun s x => (push s x.1, x.2 ++ s)) parse)
    (hends : Ends head []) (h : parse head = .ok (r, [])) {p : List UInt8}
    (hp : p <+: head) (hne : p ≠ head) (last_len : ℕ) :
    phr_parse parse p last_len = .error .incomplete := by
  obtain ⟨s, rfl⟩ := hp
  have hs : s ≠ [] := by
    rintro rfl
    exact hne (List.append_nil _).symm
  have hparse : parse p = .error .incomplete := by
    rcases hsettled.of_ok h with hmore | ⟨⟨r', rest⟩, _, heq⟩
    · exact hmore
    · -- nothing is left of the head, so nothing came after the part
      exact absurd (List.append_eq_nil_iff.mp (Prod.mk.inj heq).2.symm).2 hs
  unfold phr_parse
  rw [hparse]
  split_ifs with hlast
  · have hline : LineEnds (p.drop (last_len - 3) ++ s.drop (last_len - 3 - p.length)) := by
      rw [← List.drop_append]
      have hhead : Ends ((p ++ s) ++ []) [] := by
        rw [List.append_nil]
        exact hends
      exact hhead.head.2.drop _
    have hpart := is_complete_part 0 hline
    cases hcomplete : is_complete 0 (p.drop (last_len - 3)) with
    | ok _ => rfl
    | error e =>
        cases e with
        | incomplete => rfl
        | failed => exact absurd hcomplete hpart
  · rfl

/-- **The whole head** is found, with what follows it, however much of it was there at an earlier
call. -/
theorem phr_parse_whole (hsettled :
    Settled .incomplete behind (fun s x => (push s x.1, x.2 ++ s)) parse)
    (hends : Ends head []) (h : parse head = .ok (r, [])) (rest : List UInt8) {last_len : ℕ}
    (hlast : last_len < head.length) : phr_parse parse (head ++ rest) last_len
      = .ok (push rest r, head.length) := by
  have hparse := hsettled.ok h rest
  have hlength : (head ++ rest).length - rest.length = head.length := by
    rw [List.length_append]
    omega
  unfold phr_parse
  unfold behind at hparse
  rw [hparse]
  dsimp only
  rw [List.nil_append]
  -- The fast check for an end of the head runs only where something was read before.
  split_ifs with hzero
  · have hcomplete : is_complete 0 ((head ++ rest).drop (last_len - 3)) = .ok () := by
      have hhead : Ends (head ++ []) [] := by
        rw [List.append_nil]
        exact hends
      rw [List.drop_append_of_le_length (by omega)]
      exact is_complete_ends (hhead.head.1.drop (by omega)) (hhead.head.2.drop _)
        (Nat.zero_le 1) rest
    rw [hcomplete]
    exact congrArg (fun k => Except.ok (push rest r, k)) hlength
  · exact congrArg (fun k => Except.ok (push rest r, k)) hlength

/-- **The calls agree with one call.** The parser finds the message in a head that comes in any
pieces exactly where the head is taken as a whole when it is parsed at once. -/
theorem phr_parse_heads_iff {phr : List UInt8 → ℕ → ℕ → Except Fail (R × ℕ)}
    (hphr : ∀ buf last_len, phr buf RlpSidecar.http1MaxHeaders last_len
      = phr_parse parse buf last_len)
    (hsettled : Settled .incomplete behind (fun s x => (push s x.1, x.2 ++ s)) parse)
    (hends : ∀ buf rest r, parse buf = .ok (r, rest) → Ends buf rest) (body : List UInt8)
    (hpush : ∀ s, s <+: body → push s r = r) : RlpSidecar.Heads phr head body r
      ↔ parse head = .ok (r, []) := by
  constructor
  · -- The whole head alone is one of the divisions.
    intro h
    have hpos := List.length_pos_iff.mpr h.nonempty
    have hwhole := h.whole [] List.nil_prefix 0 hpos
    rw [List.append_nil, hphr] at hwhole
    obtain ⟨⟨r', rest⟩, hparse, hok⟩ := bind_ok.mp hwhole
    obtain ⟨rfl, hlength⟩ := Prod.mk.inj (Except.ok.inj hok)
    have hrest : rest = [] := List.eq_nil_of_length_eq_zero (by omega)
    rw [hparse, hrest]
  · intro h
    refine ⟨?_, fun p hp hne last_len _ => ?_, fun rest hrest last_len hlast => ?_⟩
    · rintro rfl
      obtain ⟨eol₁, _, h₁, _, front, heq, _⟩ := hends _ _ _ h
      have hnil := (List.append_eq_nil_iff.mp heq.symm).2
      exact h₁.ne_nil (List.append_eq_nil_iff.mp hnil).1
    · rw [hphr]
      exact phr_parse_part hsettled (hends _ _ _ h) h hp hne last_len
    · rw [hphr, phr_parse_whole hsettled (hends _ _ _ h) h rest hlast, hpush rest hrest]

end Calls

theorem Request.push_nil (r : Request) : r.push [] = r := by
  have hheader : ∀ h ∈ r.headers, h.push [] = h := by
    intro h _
    unfold phr_header.push
    rw [List.append_nil]
  unfold Request.push
  rw [List.map_congr_left hheader, List.map_id']

/-- **Requests and responses in pieces**: `is_complete` does not change what is found, or when. A
text is the head of a message, for a reader that is called with more of it each time, exactly if
the parser reads it as a whole and leaves nothing. -/
theorem heads_iff (head body : List UInt8) :
    (∀ r, RlpSidecar.Heads phr_parse_request head [] r
        ↔ parse_request RlpSidecar.http1MaxHeaders head = .ok (r, []))
      ∧ ∀ r, RlpSidecar.Heads phr_parse_response head body r
        ↔ parse_response RlpSidecar.http1MaxHeaders head = .ok (r, []) := by
  constructor
  · intro r
    refine phr_parse_heads_iff (phr_parse_request_eq · _ ·) (settled_parse_request _)
      (fun _ _ _ => parse_request_ends) [] fun s hs => ?_
    rw [List.prefix_nil.mp hs]
    exact r.push_nil
  · intro r
    exact phr_parse_heads_iff (phr_parse_response_eq · _ ·) (settled_parse_response _)
      (fun _ _ _ => parse_response_ends) body fun _ _ => rfl

end PicoHttp
