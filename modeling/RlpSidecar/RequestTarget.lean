/-
The service in a request target (`rpc_message.cc`, `parse_service_from_request_target`).

A target is `["http://" authority] path ["?" query]`, and the service is meant to be the first
segment of the path. The function looks for the first slash, then for the first question mark
behind it, each in all that is left. So it takes the whole path, and where there is no path the
slash may be one of the query.

`first_segment_found_iff` says for which targets the two agree: those whose path has one segment,
or none, and whose query is not in the place of the path. The texts are bytes, and nothing is
decoded.
-/
import RlpSidecar.Messages
import Mathlib.Data.List.TakeWhile

set_option autoImplicit false

namespace RlpSidecar

open HTTPMessage

/-- '/', with which the path begins. -/
def SLASH : UInt8 := 47

/-- '?', with which the query begins. -/
def QUESTION : UInt8 := 63

/-- A request target by its parts. The path is without its leading slash. -/
structure RequestTarget where
  authority : Option Bytes
  path : Option Bytes
  query : Option Bytes
  authority_plain : ∀ a, authority = some a → SLASH ∉ a ∧ QUESTION ∉ a
  path_plain : ∀ p, path = some p → QUESTION ∉ p

namespace RequestTarget

/-- The query with its question mark, and nothing without a query. -/
def query_text (t : RequestTarget) : Bytes := t.query.elim [] (QUESTION :: ·)

/-- The path and the query, the target without scheme and authority. -/
def origin_form (t : RequestTarget) : Bytes := t.path.elim [] (SLASH :: ·) ++ t.query_text

/-- The target as it is received, in any of its forms. -/
def text (t : RequestTarget) : Bytes := t.authority.elim [] (SCHEME ++ ·) ++ t.origin_form

/-- **The service of a target**: what is behind the leading slash of its path, up to the next
slash. -/
def first_segment (t : RequestTarget) : Option Bytes :=
  match t.path with
  | none | some [] => none
  | some (c :: rest) => some ((c :: rest).takeWhile (· ≠ SLASH))

/-! ## The search -/

/-- What is between the first slash of a text and the first question mark behind it. -/
def behind_slash (s : Bytes) : Option Bytes :=
  match s.dropWhile (· ≠ SLASH) with
  | [] => none
  | [_] => none
  | _ :: rest => some (rest.takeWhile (· ≠ QUESTION))

theorem parse_eq (s : Bytes) :
    parse_service_from_request_target s = behind_slash (if SCHEME <+: s then s.drop 7 else s) := rfl

theorem behind_slash_cons (rest : Bytes) :
    behind_slash (SLASH :: rest) = if rest = [] then none
      else some (rest.takeWhile (· ≠ QUESTION)) := by
  unfold behind_slash
  rw [List.dropWhile_cons_of_neg (by simp)]
  cases rest <;> rfl

/-- A part without a slash is passed over, since the search starts at the first slash. -/
theorem behind_slash_append {a s : Bytes} (ha : SLASH ∉ a) :
    behind_slash (a ++ s) = behind_slash s := by
  unfold behind_slash
  rw [List.dropWhile_append_of_pos]
  intro c hc
  rw [decide_eq_true_iff]
  rintro rfl
  exact ha hc

/-- The search finds nothing in a text without a slash, and in one whose first slash is its last
byte. -/
theorem behind_slash_eq_none {s : Bytes} : behind_slash s = none ↔ SLASH ∉ s.dropLast := by
  induction s with
  | nil => exact ⟨fun _ => List.not_mem_nil, fun _ => rfl⟩
  | cons c s ih =>
      by_cases hc : c = SLASH
      · rw [hc, behind_slash_cons]
        cases s with
        | nil => exact ⟨fun _ => List.not_mem_nil, fun _ => rfl⟩
        | cons d s => simp
      · have hplain : SLASH ∉ [c] := fun h => hc (List.mem_singleton.mp h).symm
        have hskip := behind_slash_append (s := s) hplain
        rw [List.singleton_append] at hskip
        rw [hskip, ih]
        cases s with
        | nil => simp
        | cons d s =>
            rw [List.dropLast_cons_cons, List.mem_cons, not_or]
            exact ⟨fun h => ⟨fun heq => hc heq.symm, h⟩, fun h => h.2⟩

/-! ## What is found -/

/-- The scheme is taken off, if there is one; what is left begins with the authority. -/
theorem without_scheme (t : RequestTarget) :
    (if SCHEME <+: t.text then t.text.drop 7 else t.text) = t.authority.getD []
    ++ t.origin_form := by
  unfold text
  cases t.authority with
  | some a =>
      rw [Option.elim_some, List.append_assoc, if_pos (List.prefix_append _ _)]
      exact List.drop_left' rfl
  | none =>
      rw [Option.elim_none, List.nil_append, if_neg]
      · rfl
      · -- what is in front is a slash, a question mark, or nothing
        unfold origin_form query_text
        cases t.path with
        | some p => exact fun h => absurd (List.cons_prefix_cons.mp h).1 (by decide)
        | none =>
            cases t.query with
            | some q => exact fun h => absurd (List.cons_prefix_cons.mp h).1 (by decide)
            | none => exact fun h => absurd (List.prefix_nil.mp h) (by decide)

/-- The authority is passed over, as it has no slash. -/
theorem parse_text (t : RequestTarget) : parse_service_from_request_target t.text
    = behind_slash t.origin_form := by
  rw [parse_eq, without_scheme]
  apply behind_slash_append
  cases hauthority : t.authority with
  | none => exact List.not_mem_nil
  | some a => exact (t.authority_plain a hauthority).1

/-- The whole path is found, even where only the query makes it end behind the slash. -/
theorem parse_path {t : RequestTarget} {p : Bytes} (hpath : t.path = some p) :
    parse_service_from_request_target t.text = if p = [] ∧ t.query = none then none
      else some p := by
  have hplain : ∀ c ∈ p, decide (c ≠ QUESTION) = true := by
    intro c hc
    rw [decide_eq_true_iff]
    rintro rfl
    exact t.path_plain p hpath hc
  rw [parse_text]
  unfold origin_form query_text
  rw [hpath, Option.elim_some, List.cons_append, behind_slash_cons,
    List.takeWhile_append_of_pos hplain]
  cases t.query with
  | none =>
      rw [Option.elim_none, List.append_nil, List.takeWhile_nil, List.append_nil]
      exact if_congr (by simp) rfl rfl
  | some q =>
      rw [Option.elim_some, List.takeWhile_cons_of_neg (by simp), List.append_nil,
        if_neg (by simp), if_neg (by simp)]

/-- Without a path the service is one of the query: what stands behind its first slash. -/
theorem parse_query {t : RequestTarget} (hpath : t.path = none) :
    parse_service_from_request_target t.text = behind_slash (t.query.getD []) := by
  rw [parse_text]
  unfold origin_form query_text
  rw [hpath, Option.elim_none, List.nil_append]
  cases t.query with
  | none => rfl
  | some q => exact behind_slash_append (a := [QUESTION]) (by decide)

/-! ## The first segment -/

/-- The path has one segment, and the query cannot be taken for it. -/
def OneSegment (t : RequestTarget) : Prop :=
  match t.path with
  | some p => SLASH ∉ p ∧ (p = [] → t.query = none)
  | none => ∀ q, t.query = some q → SLASH ∉ q.dropLast

/-- The first segment has no slash and no question mark, and so it ends before the next of them. -/
theorem first_segment_plain {t : RequestTarget} {service : Bytes}
    (h : t.first_segment = some service) :
    SLASH ∉ service ∧ QUESTION ∉ service := by
  unfold first_segment at h
  split at h
  · cases h
  · cases h
  · rename_i c rest hpath
    obtain rfl := Option.some.inj h
    constructor
    · intro hmem
      have := List.mem_takeWhile_imp hmem
      simp at this
    · intro hmem
      exact t.path_plain _ hpath (List.takeWhile_subset _ hmem)

theorem takeWhile_eq_path {p : Bytes} : p.takeWhile (· ≠ SLASH) = p ↔ SLASH ∉ p := by
  rw [List.takeWhile_eq_self_iff]
  constructor
  · intro hall hmem
    have := hall SLASH hmem
    simp at this
  · intro hplain c hc
    rw [decide_eq_true_iff]
    rintro rfl
    exact hplain hc

/-- **When the first segment is found**: the function returns the first segment of the path, or
refuses the target if there is none, exactly if the path has no other segment and the query is not
in its place. -/
theorem first_segment_found_iff (t : RequestTarget) :
    (parse_service_from_request_target t.text = t.first_segment
        ∧ ∀ service, parse_service_from_request_target t.text = some service →
          SLASH ∉ service ∧ QUESTION ∉ service)
      ↔ t.OneSegment := by
  -- The second clause follows from the first: a first segment has neither sign in it.
  have hplain : parse_service_from_request_target t.text = t.first_segment →
      ∀ service, parse_service_from_request_target t.text = some service →
        SLASH ∉ service ∧ QUESTION ∉ service := by
    intro heq service hservice
    exact first_segment_plain (heq.symm.trans hservice)
  rw [and_iff_left_of_imp hplain]
  unfold OneSegment first_segment
  cases hpath : t.path with
  | none =>
      dsimp only
      rw [parse_query hpath, behind_slash_eq_none]
      cases t.query with
      | none => simp
      | some q => simp
  | some p =>
      rw [parse_path hpath]
      cases p with
      | nil =>
          cases t.query with
          | none => simp
          | some q => simp
      | cons c rest =>
          have hne : ¬ (c :: rest = [] ∧ t.query = none) := fun h => List.cons_ne_nil c rest h.1
          dsimp only
          rw [if_neg hne, Option.some.injEq, eq_comm, takeWhile_eq_path]
          exact ⟨fun h => ⟨h, fun hnil => absurd hnil (List.cons_ne_nil c rest)⟩, fun h => h.1⟩

/-- "/a/b": the service is "a/b", as only the query is cut off. -/
theorem two_segments_kept :
    ¬ ∀ t : RequestTarget, parse_service_from_request_target t.text = t.first_segment := by
  intro hall
  have h :=
    hall ⟨none, some [97, SLASH, 98], none, fun a ha => (Option.some_ne_none a ha.symm).elim,
    fun p hp => Option.some.inj hp ▸ by decide⟩
  exact absurd h (by decide)

/-- "?a/b" has no path, and its service is "b". -/
example : parse_service_from_request_target [QUESTION, 97, SLASH, 98] = some [98] := by decide

end RequestTarget

end RlpSidecar
