/-
**Fixed-layout byte records**: fields written at fixed positions into a buffer, and read
back by position.

Two things a hand-written codec relies on. An integer survives being cut into bytes, most
significant first, and put together again with shifts (`decode_encode`). And a field is
read back as it was written, however many other fields are written before and after it, as
long as the places do not overlap (the `window_overwrite` lemmas).

Integers are `BitVec`s, so shifts and casts are those of the source. Writes that do not overlap are
`Apart`; after any number of writes that are pairwise apart, each can be read back at its place
(`window_overwrites`).
-/
import Mathlib.Data.Nat.Basic
import Mathlib.Data.List.Basic
import Mathlib.Tactic.Common

set_option autoImplicit false

namespace Wire

/-! ## Integers, most significant byte first -/

variable {w : ℕ}

/-- The low `n` bytes of `v`: `v >> 8 * (n - 1)`, …, `v >> 8`, `v`, each cut to a byte. The shift
is the arithmetic one of a signed type. -/
def encode (v : BitVec w) : ℕ → List UInt8
  | 0 => []
  | n + 1 => ⟨(v.sshiftRight (8 * n)).setWidth 8⟩ :: encode v n

/-- `b₀ << 8 * n | … | bₙ`, on a type of `w` bits. -/
def decode (w : ℕ) : List UInt8 → BitVec w
  | [] => 0
  | b :: bs => (b.toBitVec.setWidth w) <<< (8 * bs.length) ||| decode w bs

@[simp] theorem length_encode (v : BitVec w) (n : ℕ) : (encode v n).length = n := by
  induction n with
  | zero => rfl
  | succ n ih => rw [encode, List.length_cons, ih]

/-- Bit `i` of the bytes put together is bit `i` of the value, below the bytes written. -/
theorem getLsbD_decode_encode (v : BitVec w) (i : ℕ) (hi : i < w) :
    ∀ n, 8 * n ≤ w → (decode w (encode v n)).getLsbD i = (decide (i < 8 * n) && v.getLsbD i)
  | 0, _ => by simp [encode, decode]
  | n + 1, hn => by
      have ih := getLsbD_decode_encode v i hi n (by omega)
      rw [encode, decode, BitVec.getLsbD_or, ih, length_encode]
      simp only [BitVec.getLsbD_shiftLeft, BitVec.getLsbD_setWidth, BitVec.getLsbD_sshiftRight]
      -- the byte just added holds the bits from `8 * n` up
      rcases Nat.lt_or_ge i (8 * n) with hlow | hhigh
      · simp [hi, hlow, show i < 8 * (n + 1) by omega]
      · have hsum : 8 * n + (i - 8 * n) = i := by omega
        by_cases htop : i < 8 * (n + 1)
        · have hbyte : i - 8 * n < 8 := by omega
          simp [hi, Nat.not_lt.mpr hhigh, htop, hbyte, hsum, show i - 8 * n < w by omega,
            show ¬ w ≤ i - 8 * n by omega]
        · have hbyte : ¬ i - 8 * n < 8 := by omega
          simp [Nat.not_lt.mpr hhigh, htop, hbyte]

/-- **An integer survives its bytes**, if there are as many of them as it has. -/
theorem decode_encode {n : ℕ} (hn : 8 * n = w) (v : BitVec w) : decode w (encode v n) = v := by
  apply BitVec.eq_of_getLsbD_eq
  intro i hi
  rw [getLsbD_decode_encode v i hi n (by omega)]
  simp [show i < 8 * n by omega]

/-! ## Windows -/

variable {α : Type*}

/-- The `n` entries from position `pos` on, or fewer where the list ends. -/
def window (l : List α) (pos n : ℕ) : List α := (l.drop pos).take n

/-- `l` with `bs` written over it from position `pos` on, as `copy_n` and `memcpy` do it. -/
def overwrite (l : List α) (pos : ℕ) (bs : List α) : List α :=
  l.take pos ++ bs ++ l.drop (pos + bs.length)

theorem length_overwrite {l bs : List α} {pos : ℕ} (h : pos + bs.length ≤ l.length) :
    (overwrite l pos bs).length = l.length := by
  simp only [overwrite, List.length_append, List.length_take, List.length_drop]
  omega

theorem getElem?_overwrite {l bs : List α} {pos : ℕ} (h : pos + bs.length ≤ l.length) (i : ℕ) :
    (overwrite l pos bs)[i]?
      = if i < pos then l[i]? else if i < pos + bs.length then bs[i - pos]? else l[i]? := by
  have htake : (l.take pos).length = pos := by rw [List.length_take]; omega
  unfold overwrite
  rw [List.append_assoc, List.getElem?_append, htake]
  split_ifs with h1 h2
  · rw [List.getElem?_take, if_pos h1]
  · rw [List.getElem?_append, if_pos (by omega)]
  · rw [List.getElem?_append, if_neg (by omega), List.getElem?_drop]
    congr 1
    omega

theorem getElem?_window (l : List α) (pos n i : ℕ) :
    (window l pos n)[i]? = if i < n then l[pos + i]? else none := by
  unfold window
  rw [List.getElem?_take, List.getElem?_drop]

/-- A field is read back as written, if it lies within the list. -/
theorem window_overwrite_self {l bs : List α} {pos : ℕ} (h : pos + bs.length ≤ l.length) :
    window (overwrite l pos bs) pos bs.length = bs := by
  apply List.ext_getElem?
  intro i
  rw [getElem?_window, getElem?_overwrite h]
  split_ifs with h1 h2 <;> first
    | omega
    | (rw [Nat.add_sub_cancel_left])
    | (rw [List.getElem?_eq_none (by omega)])

/-- A field is not changed by a write beside it, on either side. -/
theorem window_overwrite_ne {l bs : List α} {pos q n : ℕ} (h : pos + bs.length ≤ l.length)
    (hd : q + n ≤ pos ∨ pos + bs.length ≤ q) : window (overwrite l pos bs) q n = window l q n := by
  apply List.ext_getElem?
  intro i
  rw [getElem?_window, getElem?_window, getElem?_overwrite h]
  split_ifs with h1 h2 h3
  · rfl
  · omega
  · rfl
  · rfl

/-- A copy carries its fields with it, as far as it goes. -/
theorem window_overwrite_copy {l m : List α} {f q n : ℕ} (hm : f ≤ m.length) (hl : f ≤ l.length)
    (hq : q + n ≤ f) : window (overwrite l 0 (m.take f)) q n = window m q n := by
  have hlen : (m.take f).length = f := by rw [List.length_take]; omega
  apply List.ext_getElem?
  intro i
  rw [getElem?_window, getElem?_window, getElem?_overwrite (by omega), hlen]
  split_ifs with h1 h2 h3
  · omega
  · rw [Nat.sub_zero, List.getElem?_take, if_pos (by omega)]
  · omega
  · rfl

/-! ## Several fields -/

/-- Each entry of `ws` written at its position, in order, so that later ones win. -/
def overwrites (l : List α) (ws : List (ℕ × List α)) : List α :=
  ws.foldl (fun l w => overwrite l w.1 w.2) l

/-- Two writes that do not overlap, whichever of them is in front. -/
def Apart (w w' : ℕ × List α) : Prop := w.1 + w.2.length ≤ w'.1 ∨ w'.1 + w'.2.length ≤ w.1

theorem length_overwrites {l : List α} {ws : List (ℕ × List α)}
    (h : ∀ w ∈ ws, w.1 + w.2.length ≤ l.length) : (overwrites l ws).length = l.length := by
  induction ws generalizing l with
  | nil => rfl
  | cons w ws ih =>
      have hw := length_overwrite (h w List.mem_cons_self)
      have hrest : ∀ x ∈ ws, x.1 + x.2.length ≤ (overwrite l w.1 w.2).length := by
        intro x hx; rw [hw]; exact h x (List.mem_cons_of_mem _ hx)
      exact (ih hrest).trans hw

/-- A place none of the writes touches keeps its contents, however many there are. -/
theorem window_overwrites_ne {l : List α} {ws : List (ℕ × List α)}
    (h : ∀ w ∈ ws, w.1 + w.2.length ≤ l.length) {q n : ℕ}
    (hd : ∀ w ∈ ws, q + n ≤ w.1 ∨ w.1 + w.2.length ≤ q) :
    window (overwrites l ws) q n = window l q n := by
  induction ws generalizing l with
  | nil => rfl
  | cons w ws ih =>
      have hw := h w List.mem_cons_self
      have hrest : ∀ x ∈ ws, x.1 + x.2.length ≤ (overwrite l w.1 w.2).length := by
        intro x hx; rw [length_overwrite hw]; exact h x (List.mem_cons_of_mem _ hx)
      rw [overwrites, List.foldl_cons]
      refine (ih hrest fun x hx => hd x (List.mem_cons_of_mem _ hx)).trans ?_
      exact window_overwrite_ne hw (hd w List.mem_cons_self)

/-- **Fields that do not overlap are all read back as written**, in whatever order they were. -/
theorem window_overwrites {l : List α} {ws : List (ℕ × List α)}
    (h : ∀ w ∈ ws, w.1 + w.2.length ≤ l.length) (hapart : ws.Pairwise Apart) {w : ℕ × List α}
    (hw : w ∈ ws) : window (overwrites l ws) w.1 w.2.length = w.2 := by
  induction ws generalizing l with
  | nil => simp at hw
  | cons x ws ih =>
      have hx := h x List.mem_cons_self
      have hrest : ∀ y ∈ ws, y.1 + y.2.length ≤ (overwrite l x.1 x.2).length := by
        intro y hy; rw [length_overwrite hx]; exact h y (List.mem_cons_of_mem _ hy)
      obtain ⟨hhead, htail⟩ := List.pairwise_cons.mp hapart
      rw [overwrites, List.foldl_cons]
      rcases List.mem_cons.mp hw with rfl | hw
      · exact (window_overwrites_ne hrest fun y hy => hhead y hy).trans (window_overwrite_self hx)
      · exact ih hrest htail hw

end Wire
