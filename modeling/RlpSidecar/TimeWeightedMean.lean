/-
Time-weighted means (`stats.h`, `TimeWeightedMean`).

The object has the level of its signal, when that was last looked at, the area below the signal
since then, and when the window began that the next read is about. A read ends the window. What it
returns is compared with the integral of the signal, which is what the calls before it say:
`update` sets the level, `up` and `down` change it by one. Times are in seconds. Numbers are exact,
of any field; the theorems are about the real numbers.

`samples` and `windows` are read off the calls: the signal that they describe, and the windows that
the reads end. `Tracks` relates the object to them, and is kept by each kind of call; `mean_exact`
says of every series of calls, in the order of their times, that each read later than the start of
its window returns the average over the window.
-/
import RlpSidecar.Abort
import RlpSidecar.Signals

set_option autoImplicit false

namespace RlpSidecar

section Model

variable {K : Type} [Field K] [LinearOrder K]

/-- `last_flush_` and `last_t_`, which are set together by the first sample. -/
structure Clocks (K : Type) where
  last_flush_ : K
  last_t_ : K

/-- `TimeWeightedMean`: the clocks, the area since the last flush, and the level. -/
structure TimeWeightedMean (K : Type) where
  clocks : Option (Clocks K)
  area_ : K
  last_x_ : K

namespace TimeWeightedMean

/-- The constructor, without any sample. -/
def create : TimeWeightedMean K := ⟨none, 0, 0⟩

/-- `update`: the area grows by the old level, and the level is the sample from now on. -/
def update (m : TimeWeightedMean K) (sample t : K) : TimeWeightedMean K :=
  match m.clocks with
  | none => { m with clocks := some ⟨t, t⟩, last_x_ := sample }
  | some c =>
    let dt := t - c.last_t_
    { clocks := some { c with last_t_ := t }
      area_ := if 0 < dt then m.area_ + m.last_x_ * dt else m.area_
      last_x_ := sample }

/-- What `up` and `down` start from: the level, or zero without any sample. -/
def base (m : TimeWeightedMean K) : K := if m.clocks.isSome then m.last_x_ else 0

/-- `up`, an update to the next higher level. -/
def up (m : TimeWeightedMean K) (t : K) : TimeWeightedMean K := m.update (m.base + 1) t

/-- `down`, an update to the next lower level. Below zero it ends the process. -/
def down (m : TimeWeightedMean K) (t : K) : Except Abort (TimeWeightedMean K) :=
  if m.base - 1 < 0 then .error .negativeMean else .ok (m.update (m.base - 1) t)

/-- `value`, the mean since the last flush, which becomes the current time. -/
def value (m : TimeWeightedMean K) (now : K) : K × TimeWeightedMean K :=
  match m.clocks with
  | none => (0, m)
  | some c =>
    if c.last_flush_ < now then
      let area := if c.last_t_ < now then m.area_ + m.last_x_ * (now - c.last_t_) else m.area_
      (area / (now - c.last_flush_), { m with clocks := some ⟨now, now⟩, area_ := 0 })
    else (0, m)

/-! ## Runs -/

/-- A call, with its time, as the handlers make them. -/
inductive Call (K : Type)
  | update (sample t : K)
  | up (t : K)
  | down (t : K)
  | value (now : K)

/-- When the call is made. -/
def Call.time : Call K → K
  | .update _ t | .up t | .down t | .value t => t

/-- A series of calls: the object afterwards, and what the reads have returned that were later than
the window's start. -/
def run : List (Call K) → TimeWeightedMean K → Except Abort (TimeWeightedMean K × List K)
  | [], m => .ok (m, [])
  | .update sample t :: calls, m => run calls (m.update sample t)
  | .up t :: calls, m => run calls (m.up t)
  | .down t :: calls, m => do
    let m ← m.down t
    run calls m
  | .value now :: calls, m => do
    let (m', vs) ← run calls (m.value now).2
    -- the read of an empty window returns zero and is not listed
    .ok (m', if m.clocks.any (·.last_flush_ < now) then (m.value now).1 :: vs else vs)

/-! ## What the calls say -/

/-- **The signal**: the level that each call but the reads sets, and from when on. -/
def samples : K → List (Call K) → List (K × K)
  | _, [] => []
  | _, .update sample t :: calls => (t, sample) :: samples sample calls
  | level, .up t :: calls => (t, level + 1) :: samples (level + 1) calls
  | level, .down t :: calls => (t, level - 1) :: samples (level - 1) calls
  | level, .value _ :: calls => samples level calls

/-- **The windows**: the first begins with the first sample, each ends with the first read that is
later than its start, and that begins the next. -/
def windows : Option K → List (Call K) → List (K × K)
  | _, [] => []
  -- before the first sample a read starts no window
  | none, .value _ :: calls => windows none calls
  | some start, .value now :: calls =>
    -- a read at the start of its window does not end it
    if start < now then (start, now) :: windows (some now) calls else windows (some start) calls
  | none, .update _ t :: calls | none, .up t :: calls | none,
    .down t :: calls => windows (some t) calls
  | some start, .update _ _ :: calls | some start, .up _ :: calls | some start, .down _ :: calls =>
    windows (some start) calls

end TimeWeightedMean

end Model

open Signals

namespace TimeWeightedMean

/-! ## One call -/

/-- The object after the samples `h`, at time `now`: the area is that of the signal since the
window began, and from then on the level is the last one. -/
def Tracks (m : TimeWeightedMean ℝ) (h : List (ℝ × ℝ)) (now : ℝ) : Prop :=
  match m.clocks with
  | none => h = [] ∧ m.last_x_ = 0 ∧ m.area_ = 0
  | some c =>
    c.last_flush_ ≤ c.last_t_ ∧ c.last_t_ ≤ now ∧ m.area_ = ∫ u in c.last_flush_..c.last_t_,
      signal h u
      ∧ ∀ u, c.last_t_ ≤ u → signal h u = m.last_x_

variable {m : TimeWeightedMean ℝ} {h : List (ℝ × ℝ)} {now t : ℝ}

theorem create_tracks (now : ℝ) : Tracks create [] now := ⟨rfl, rfl, rfl⟩

theorem Tracks.base_eq (hm : Tracks m h now) : m.base = m.last_x_ := by
  unfold Tracks at hm
  unfold base
  cases hc : m.clocks with
  | none =>
      rw [hc] at hm
      rw [hm.2.1]
      rfl
  | some c => rfl

/-- Time passes without a call, and nothing changes. -/
theorem Tracks.mono (hm : Tracks m h now) (hle : now ≤ t) : Tracks m h t := by
  unfold Tracks at hm ⊢
  cases hc : m.clocks with
  | none =>
      rw [hc] at hm
      exact hm
  | some c =>
      rw [hc] at hm
      exact ⟨hm.1, hm.2.1.trans hle, hm.2.2⟩

/-- The area up to a time that is not before the last one looked at. -/
theorem area_eq {c : Clocks ℝ} (hm : Tracks m h now) (hc : m.clocks = some c)
    (hle : c.last_t_ ≤ t) :
    (if c.last_t_ < t then m.area_ + m.last_x_ * (t - c.last_t_) else m.area_)
      = ∫ u in c.last_flush_..t, signal h u := by
  unfold Tracks at hm
  rw [hc] at hm
  obtain ⟨-, -, harea, hlevel⟩ := hm
  have hsum : m.area_ + m.last_x_ * (t - c.last_t_) = ∫ u in c.last_flush_..t, signal h u := by
    rw [harea, ← integral_constant hle hlevel, integral_add]
  split_ifs with hlt
  · exact hsum
  · -- nothing is added where no time has passed
    have heq : t = c.last_t_ := le_antisymm (not_lt.mp hlt) hle
    rw [← hsum, heq, sub_self, mul_zero, add_zero]

/-- **A sample** ends the level before it, not the window, which only a flush ends. -/
theorem Tracks.update (hm : Tracks m h now) (hle : now ≤ t) (sample : ℝ) :
    Tracks (m.update sample t) (h ++ [(t, sample)]) t
      ∧ (m.update sample t).clocks.map Clocks.last_flush_
        = some ((m.clocks.map Clocks.last_flush_).getD t)
      ∧ (m.update sample t).last_x_ = sample := by
  unfold TimeWeightedMean.update
  -- The first call starts the clocks; every later one adds the area since the call before.
  cases hc : m.clocks with
  | none =>
      unfold Tracks at hm ⊢
      rw [hc] at hm
      obtain ⟨rfl, -, harea⟩ := hm
      refine ⟨⟨le_rfl, le_rfl, ?_, ?_⟩, rfl, rfl⟩
      · rw [intervalIntegral.integral_same]
        exact harea
      · intro u hu
        rw [signal_concat, if_pos hu]
  | some c =>
      have harea := @area_eq m h now t c hm hc
      unfold Tracks at hm ⊢
      rw [hc] at hm
      obtain ⟨hflush, hlast, -, -⟩ := hm
      have hct : c.last_t_ ≤ t := hlast.trans hle
      refine ⟨⟨hflush.trans hct, le_rfl, ?_, ?_⟩, rfl, rfl⟩
      · have hlater : ∀ p ∈ [(t, sample)], t ≤ p.1 := by
          intro p hp
          rw [List.mem_singleton.mp hp]
        dsimp only
        rw [integral_append (hflush.trans hct) hlater, ← harea hct]
        exact if_congr sub_pos rfl rfl
      · intro u hu
        rw [signal_concat, if_pos hu]

/-- **A read** later than the start of the window returns the average over it, and begins the next
one. -/
theorem Tracks.value {c : Clocks ℝ} (hm : Tracks m h now) (hle : now ≤ t) (hc : m.clocks = some c)
    (hlt : c.last_flush_ < t) :
    (m.value t).1 = average h c.last_flush_ t ∧ Tracks (m.value t).2 h t
      ∧ (m.value t).2.clocks = some ⟨t, t⟩ ∧ (m.value t).2.last_x_ = m.last_x_ := by
  have harea := @area_eq m h now t c hm hc
  unfold TimeWeightedMean.value
  rw [hc]
  dsimp only
  rw [if_pos hlt]
  unfold Tracks at hm
  rw [hc] at hm
  obtain ⟨-, hlast, -, hlevel⟩ := hm
  refine ⟨?_, ⟨le_rfl, le_rfl, ?_, ?_⟩, rfl, rfl⟩
  · rw [harea (hlast.trans hle)]
    rfl
  · rw [intervalIntegral.integral_same]
  · intro u hu
    exact hlevel u ((hlast.trans hle).trans hu)

/-- Another read at the same time changes nothing, and returns zero. -/
theorem value_early (hlt : ¬ m.clocks.any (·.last_flush_ < t) = true) : m.value t = (0, m) := by
  unfold TimeWeightedMean.value
  cases hc : m.clocks with
  | none => rfl
  | some c =>
      rw [hc, Option.any_some, decide_eq_true_iff] at hlt
      dsimp only
      rw [if_neg hlt]

/-! ## What the windows are -/

section Windows

variable {calls : List (Call ℝ)}

theorem samples_time {level : ℝ} {p : ℝ × ℝ} (hp : p ∈ samples level calls) :
    ∃ c ∈ calls, p.1 = c.time := by
  induction calls generalizing level with
  | nil => cases hp
  | cons c calls ih =>
      have hrest : ∀ {l : ℝ}, p ∈ samples l calls → ∃ c' ∈ c :: calls, p.1 = c'.time := by
        intro l hl
        obtain ⟨c', hc', htime⟩ := ih hl
        exact ⟨c', List.mem_cons_of_mem _ hc', htime⟩
      cases c with
      | value now => exact hrest hp
      | update sample t =>
          rcases List.mem_cons.mp hp with rfl | hp
          · exact ⟨_, List.mem_cons_self, rfl⟩
          · exact hrest hp
      | up t =>
          rcases List.mem_cons.mp hp with rfl | hp
          · exact ⟨_, List.mem_cons_self, rfl⟩
          · exact hrest hp
      | down t =>
          rcases List.mem_cons.mp hp with rfl | hp
          · exact ⟨_, List.mem_cons_self, rfl⟩
          · exact hrest hp

/-- Every window has a length, and they join: the first begins where it should, and each with the
end of the one before. -/
theorem windows_join (start : ℝ) (calls : List (Call ℝ)) :
    (∀ w ∈ windows (some start) calls, w.1 < w.2)
      ∧ ((start, start) :: windows (some start) calls).IsChain fun w w' => w.2 = w'.1 := by
  -- On the calls, from the end of the window before.
  induction calls generalizing start with
  | nil => exact ⟨fun w hw => absurd hw List.not_mem_nil, List.isChain_singleton _⟩
  | cons c calls ih =>
      cases c with
      | update sample t => exact ih start
      | up t => exact ih start
      | down t => exact ih start
      | value now =>
          unfold windows
          split_ifs with hlt
          · obtain ⟨hpos, hjoin⟩ := ih now
            refine ⟨?_, List.isChain_cons_cons.mpr ⟨rfl, ?_⟩⟩
            · intro w hw
              rcases List.mem_cons.mp hw with rfl | hw
              · exact hlt
              · exact hpos w hw
            · cases hrest : windows (some now) calls with
              | nil => exact List.isChain_singleton _
              | cons w ws =>
                  rw [hrest] at hjoin
                  exact List.isChain_cons_cons.mpr (List.isChain_cons_cons.mp hjoin)
          · exact ih start

/-- The first window begins with the first sample, not with the construction. -/
theorem windows_first (calls : List (Call ℝ)) :
    windows none calls = [] ∨ ∃ level rest, samples 0 calls = level :: rest
      ∧ ∃ calls', windows none calls = windows (some level.1) calls' := by
  induction calls with
  | nil => exact .inl rfl
  | cons c calls ih =>
      cases c with
      | value now => exact ih
      | update sample t => exact .inr ⟨_, _, rfl, calls, rfl⟩
      | up t => exact .inr ⟨_, _, rfl, calls, rfl⟩
      | down t => exact .inr ⟨_, _, rfl, calls, rfl⟩

end Windows

/-! ## Runs -/

/-- A sample begins the first window, and does nothing to a window that is open. -/
theorem windows_sampled (last : Option ℝ) {c : Call ℝ} (calls : List (Call ℝ))
    (hc : (∃ sample, c = .update sample t) ∨ c = .up t ∨ c = .down t) :
    windows last (c :: calls) = windows (some (last.getD t)) calls := by
  rcases hc with ⟨sample, rfl⟩ | rfl | rfl <;> cases last <;> rfl

/-- A read that is not later than the start of the window is none of its ends. -/
theorem windows_early (hlt : ¬ m.clocks.any (·.last_flush_ < t) = true) (calls : List (Call ℝ)) :
    windows (m.clocks.map Clocks.last_flush_) (.value t :: calls)
      = windows (m.clocks.map Clocks.last_flush_) calls := by
  cases hc : m.clocks with
  | none => rfl
  | some k =>
      rw [hc, Option.any_some, decide_eq_true_iff] at hlt
      exact if_neg hlt

/-- **What a series of calls returns.** The induction is on the calls; `h` is what the calls before
them have sampled. -/
theorem run_values {calls : List (Call ℝ)} {m' : TimeWeightedMean ℝ} {vs : List ℝ}
    (hm : Tracks m h now) (hlater : ∀ c ∈ calls, now ≤ c.time)
    (htimes : (calls.map Call.time).Pairwise (· ≤ ·)) (hrun : run calls m = .ok (m', vs)) :
    vs = (windows (m.clocks.map Clocks.last_flush_) calls).map fun w =>
      average (h ++ samples m.last_x_ calls) w.1 w.2 := by
  induction calls generalizing m h now m' vs with
  | nil =>
      obtain ⟨-, rfl⟩ := Prod.mk.inj (Except.ok.inj hrun)
      unfold windows
      rfl
  | cons c calls ih =>
      rw [List.map_cons, List.pairwise_cons] at htimes
      obtain ⟨hfirst, hrest⟩ := htimes
      have hnow := hlater c List.mem_cons_self
      have hlater' : ∀ c' ∈ calls, c.time ≤ c'.time :=
        fun c' hc' => hfirst _ (List.mem_map_of_mem hc')
      -- a call that samples leaves the window, and its sample is the next of the signal
      have hsample : ∀ (sample t : ℝ) {m'' : TimeWeightedMean ℝ} {vs : List ℝ}, t = c.time →
          run calls (m.update sample t) = .ok (m'', vs) →
          vs = (windows (some ((m.clocks.map Clocks.last_flush_).getD t)) calls).map fun w =>
            average (h ++ (t, sample) :: samples sample calls) w.1 w.2 := by
        rintro sample t m'' vs rfl hrun
        obtain ⟨htracks, hflush, hlevel⟩ := hm.update hnow sample
        have hvs := ih htracks hlater' hrest hrun
        rw [hflush, hlevel, List.append_assoc, List.singleton_append] at hvs
        exact hvs
      cases c with
      | update sample t =>
          rw [windows_sampled _ calls (.inl ⟨sample, rfl⟩)]
          exact hsample sample t rfl hrun
      | up t =>
          rw [windows_sampled _ calls (.inr (.inl rfl))]
          have hvs := hsample (m.base + 1) t rfl hrun
          rw [hm.base_eq] at hvs
          exact hvs
      | down t =>
          rw [windows_sampled _ calls (.inr (.inr rfl))]
          obtain ⟨m₁, hdown, hrun⟩ := bind_eq_ok.mp hrun
          unfold TimeWeightedMean.down at hdown
          split_ifs at hdown
          obtain rfl := Except.ok.inj hdown
          have hvs := hsample (m.base - 1) t rfl hrun
          rw [hm.base_eq] at hvs
          exact hvs
      | value t =>
          obtain ⟨⟨m₁, rest⟩, hsub, hend⟩ := bind_eq_ok.mp hrun
          obtain ⟨rfl, hvs⟩ := Prod.mk.inj (Except.ok.inj hend)
          by_cases hlt : m.clocks.any (·.last_flush_ < t) = true
          · -- the read is one of the window that is open
            rw [if_pos hlt] at hvs
            obtain ⟨k, hc, hk⟩ := (Option.any_eq_true _ _).mp hlt
            have hk := of_decide_eq_true hk
            obtain ⟨hv, htracks, hclocks, hlevel⟩ := hm.value (show now ≤ t from hnow) hc hk
            have hrest' := ih htracks hlater' hrest hsub
            rw [hclocks, hlevel] at hrest'
            have hfuture : ∀ p ∈ samples m.last_x_ calls, t ≤ p.1 := by
              intro p hp
              obtain ⟨c', hc', htime⟩ := samples_time hp
              rw [htime]
              exact hlater' c' hc'
            have hwindow : windows (m.clocks.map Clocks.last_flush_) (.value t :: calls)
                = (k.last_flush_, t) :: windows (some t) calls := by
              rw [hc]
              exact if_pos hk
            have hsame := @average_append h _ _ _ hk.le hfuture
            rw [← hvs, hwindow, List.map_cons, hv, hrest', ← hsame]
            rfl
          · rw [if_neg hlt] at hvs
            rw [value_early hlt] at hsub
            have hrest' := ih (hm.mono hnow) hlater' hrest hsub
            rw [← hvs, windows_early hlt]
            exact hrest'

/-- **The mean is the exact average of its signal.** The reads later than the start of their
windows return the integral of the signal over the window, divided by its length; a window begins
with the first sample or with such a read. So a mean is between the bounds of the signal in its
window, and the means with the lengths of their windows add up to the integral from the first
sample to the last of these reads. -/
theorem mean_exact {calls : List (Call ℝ)} {vs : List ℝ}
    (htimes : (calls.map Call.time).Pairwise (· ≤ ·)) (hrun : run calls create = .ok (m, vs)) :
    let x := signal (samples 0 calls)
    let ws := windows none calls
    vs = ws.map (fun w => (∫ u in w.1..w.2, x u) / (w.2 - w.1))
      ∧ (∀ w ∈ ws, w.1 < w.2 ∧ ∀ lo hi, (∀ u, w.1 ≤ u → u < w.2 → lo ≤ x u ∧ x u ≤ hi) →
          lo ≤ (∫ u in w.1..w.2, x u) / (w.2 - w.1) ∧ (∫ u in w.1..w.2, x u) / (w.2 - w.1) ≤ hi)
      ∧ ws.IsChain (fun w w' => w.2 = w'.1)
      ∧ ∀ hne : ws ≠ [], (samples 0 calls).head?.map Prod.fst = some (ws.head hne).1
        ∧ (List.zipWith (fun v w => v * (w.2 - w.1)) vs ws).sum
          = ∫ u in (ws.head hne).1..(ws.getLast hne).2, x u := by
  dsimp only
  have hvs : vs = (windows none calls).map fun w => average (samples 0 calls) w.1 w.2 := by
    cases calls with
    | nil =>
        obtain ⟨-, rfl⟩ := Prod.mk.inj (Except.ok.inj hrun)
        unfold windows
        rfl
    | cons c calls =>
        have hlater : ∀ c' ∈ c :: calls, c.time ≤ c'.time := by
          intro c' hc'
          rcases List.mem_cons.mp hc' with rfl | hc'
          · exact le_rfl
          · exact (List.pairwise_cons.mp htimes).1 _ (List.mem_map_of_mem hc')
        exact run_values (create_tracks c.time) hlater htimes hrun
  have hjoin : (∀ w ∈ windows none calls, w.1 < w.2)
      ∧ (windows none calls).IsChain (fun w w' => w.2 = w'.1)
      ∧ ∀ hne : windows none calls ≠ [],
        (samples 0 calls).head?.map Prod.fst = some ((windows none calls).head hne).1 := by
    -- The first window starts at the first sample, and each later one where the one before ended.
    rcases windows_first calls with hnil | ⟨p, rest, hsamples, calls', hfirst⟩
    · rw [hnil]
      exact ⟨fun w hw => absurd hw List.not_mem_nil, List.isChain_nil, fun hne => absurd rfl hne⟩
    · obtain ⟨hpos, hchain⟩ := windows_join p.1 calls'
      rw [hfirst, hsamples]
      refine ⟨hpos, hchain.tail, ?_⟩
      intro hne
      obtain ⟨w, ws, hws⟩ := List.exists_cons_of_ne_nil hne
      simp only [hws] at hchain ⊢
      exact congrArg some (List.isChain_cons_cons.mp hchain).1
  refine ⟨hvs, ?_, hjoin.2.1, ?_⟩
  · intro w hw
    refine ⟨hjoin.1 w hw, ?_⟩
    intro lo hi hbounds
    exact ⟨le_average (hjoin.1 w hw) fun u hu hu' => (hbounds u hu hu').1,
      average_le (hjoin.1 w hw) fun u hu hu' => (hbounds u hu hu').2⟩
  · intro hne
    refine ⟨hjoin.2.2 hne, ?_⟩
    obtain ⟨w, ws, hws⟩ := List.exists_cons_of_ne_nil hne
    have htotal := @total_eq (samples 0 calls) w ws (hws ▸ hjoin.1) (hws ▸ hjoin.2.1)
    have hsum : (List.zipWith (fun v w => v * (w.2 - w.1)) vs (windows none calls)).sum
        = total (samples 0 calls) (windows none calls) := by
      unfold total
      rw [hvs, List.zipWith_map_left]
      congr 1
      rw [List.zipWith_self]
    rw [hsum]
    simp only [hws]
    exact htotal

/-- A level of 2 for a second, and one of 3 for another. -/
theorem mean_exact_two_seconds :
    run [.update (2 : ℝ) 0, .up 1, .value 2] create = .ok (⟨some ⟨2, 2⟩, 0, 3⟩, [5 / 2])
      ∧ ∫ u in (0 : ℝ)..2, signal (samples 0 [.update 2 0, .up 1, .value 2]) u = 5 := by
  let twoSeconds : List (Call ℝ) := [.update 2 0, .up 1, .value 2]
  have hrun : run twoSeconds create = .ok (⟨some ⟨2, 2⟩, 0, 3⟩, [5 / 2]) := by
    norm_num [twoSeconds, run, create, TimeWeightedMean.update, up, base,
      TimeWeightedMean.value, pure, Except.pure]
  have htimes : (twoSeconds.map Call.time).Pairwise (· ≤ ·) := by norm_num [twoSeconds, Call.time]
  have hws : windows none twoSeconds = [(0, 2)] := by norm_num [twoSeconds, windows]
  have hvs := (mean_exact htimes hrun).1
  rw [hws, List.map_singleton, List.singleton_inj] at hvs
  refine ⟨hrun, ?_⟩
  norm_num at hvs
  linarith

end TimeWeightedMean

end RlpSidecar
