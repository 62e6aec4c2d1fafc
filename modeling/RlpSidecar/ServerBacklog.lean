/-
**What is left waiting** after a handler has returned.

`check_credit_transmission` grants one queued request per event. That is enough exactly as long
as no event makes two requests grantable at once. A response, a return and an egress request
lower one counter by one, and an arrival adds one request, so each of them makes at most one
grantable. But a Credit Request is also a sample, and every 2000th sample sets the limits anew:
a limit that rises by two or more over a queue that has that many requests leaves all but one of
them waiting, until some later event looks again.

`AtMostOne` says of an event, and of the state before it, that it is not such a request.
`nothing_left_waiting` is an equivalence over whole runs: every handler leaves nothing grantable
exactly if each of its events has that property. `nothing_left_waiting_fails` is a run in which one
does not.
-/
import RlpSidecar.ServerSpec

set_option autoImplicit false

open Runs

namespace RlpSidecar

namespace Server

variable {config : ServerConfig}

/-- Some hosted service has a queued request that its limits would let through. -/
def LeftWaiting (config : ServerConfig) (s : Server) : Prop :=
  ∃ p, CreditQueue.HasGrantable config.hosted p s.credit_queue

instance (s : Server) : Decidable (LeftWaiting config s) := by unfold LeftWaiting; infer_instance

/-- The requests that could be granted one after the other in this room. -/
def grantable (config : ServerConfig) (r : Admission.Room (Fin PriorityCount) Bytes Buffer) : ℕ :=
  r.backlog config.hosted.toFinset

/-- For a Credit Request: with the limits this sample sets, and with the request in its line, at
most one request is grantable. -/
def AtMostOne (config : ServerConfig) (s : Server) : Event → Prop
  | .datagram req env =>
    match read_server_message req with
    | .ok (.credit_request service _ priority _) =>
      ∀ p : Fin PriorityCount, priority.toSize = p.val →
        grantable config ((sampleRoom config env.ratio service s).enqueue p service req) ≤ 1
    | _ => True
  | _ => True

instance (s : Server) (ev : Event) : Decidable (AtMostOne config s ev) := by
  unfold AtMostOne
  repeat' split
  all_goals infer_instance

/-- The events of the handlers: all but the limit updates made on their own. -/
def Event.handler : Event → Bool
  | .endpoint_limit .. | .global_limit _ => false
  | _ => true

theorem leftWaiting_iff {s : Server} : LeftWaiting config s ↔ grantable config s.room ≠ 0 := by
  have hready : LeftWaiting config s ↔ ∃ p, ∃ e ∈ config.hosted, s.room.Ready p e := Iff.rfl
  have hzero : s.room.backlog config.hosted.toFinset = 0 ↔ _ := Admission.Room.backlog_eq_zero
  simp only [List.mem_toFinset] at hzero
  unfold grantable
  rw [hready, ne_eq, hzero]
  push Not
  rfl

/-- The number of grantable requests does not depend on which buffer arrived. -/
theorem grantable_enqueue (r : Admission.Room (Fin PriorityCount) Bytes Buffer)
    (p : Fin PriorityCount) (e : Bytes) (b c : Buffer) :
    grantable config (r.enqueue p e b) = grantable config (r.enqueue p e c) := by
  have hload : (r.enqueue p e b).load = (r.enqueue p e c).load := by
    funext e'
    rw [Admission.Room.load_enqueue, Admission.Room.load_enqueue]
  unfold grantable Admission.Room.backlog Admission.Room.demand
  rw [hload]
  rfl

/-- **Looking for a credit to grant takes one** off the requests that could be granted. -/
theorem Checked.grantable_eq {s s' : Server} {now_ts : BitVec 64}
    (h : Checked config now_ts s s') : grantable config s'.room = grantable config s.room - 1 := by
  cases h with
  | nothing hroom _ hnone =>
      have hzero : grantable config s.room = 0 :=
        Admission.Room.backlog_eq_zero.mpr fun p e he => hnone p e (List.mem_toFinset.mp he)
      rw [hroom, hzero]
  | granted p e _ he hready _ hroom _ =>
      have hgrant := Admission.Room.backlog_grant (List.mem_toFinset.mpr he) hready
      unfold grantable
      rw [hroom]
      omega

/-- Between two events nothing is grantable, so the change an event makes leaves at most one
request grantable exactly under `AtMostOne`. -/
theorem Effect.grantable_le {s : Server} {ev : Event}
    {r : Admission.Room (Fin PriorityCount) Bytes Buffer} (h : Effect config s ev r)
    (hev : ev.handler = true) (hs : grantable config s.room = 0) :
    (grantable config r ≤ 1 ↔ AtMostOne config s ev)
      ∧ (ev.check? = none → grantable config r = 0) := by
  have hrelease : ∀ service, grantable config (s.room.release service) ≤ 1 := fun service =>
    (Admission.Room.backlog_release_le s.room service).trans (by unfold grantable at hs; omega)
  -- A slot that is freed makes at most one more buffer grantable; only a request can make more, as
  -- its sample may raise the limits.
  cases h with
  | request req env service id priority rtt p resp hread hp he =>
      refine ⟨?_, fun hnone => by simp [Event.check?] at hnone⟩
      simp only [AtMostOne, hread, grantable_enqueue _ p service resp req]
      constructor
      · intro hle p' hp'
        obtain rfl : p' = p := Fin.val_inj.mp (hp'.symm.trans hp)
        exact hle
      · intro hle
        exact hle p hp
  | credit_return req env service hread he =>
      refine ⟨?_, fun hnone => by simp [Event.check?] at hnone⟩
      simp only [AtMostOne, hread, hrelease service]
  | ingress_response service now_ts he =>
      exact ⟨by simp only [AtMostOne, hrelease service],
        fun hnone => by simp [Event.check?] at hnone⟩
  | egress_request service now_ts he =>
      exact ⟨by simp only [AtMostOne, hrelease service],
        fun hnone => by simp [Event.check?] at hnone⟩
  | egress_response service he =>
      have hzero : grantable config (s.room.acquire service) = 0 :=
        Nat.le_zero.mp ((Admission.Room.backlog_acquire_le s.room service).trans hs.le)
      exact ⟨by simp only [AtMostOne, hzero, zero_le], fun _ => hzero⟩
  | endpoint_limit | global_limit => simp [Event.handler] at hev

/-- **One handler**: from a state where nothing is grantable it leaves nothing grantable exactly
under `AtMostOne`. -/
theorem step_leftWaiting {s s' : Server} {ev : Event} (h : s.Wf config) (hs : Step config s ev s')
    (hev : ev.handler = true) (hnone : ¬ LeftWaiting config s) :
    ¬ LeftWaiting config s' ↔ AtMostOne config s ev := by
  obtain ⟨_, mid, _, _, heffect, hend⟩ := step_spec h hs
  have hzero : grantable config s.room = 0 := by
    by_contra hne
    exact hnone (leftWaiting_iff.mpr hne)
  obtain ⟨hiff, hidle⟩ := heffect.grantable_le hev hzero
  rw [leftWaiting_iff, not_not, ← hiff]
  cases hcheck : ev.check? with
  | some now_ts =>
      rw [hcheck] at hend
      have hone := Checked.grantable_eq hend
      omega
  | none =>
      rw [hcheck] at hend
      rw [hend.1, hidle hcheck]
      omega

/-- From a state where nothing is grantable, all the states a run goes through are such states
exactly if every Credit Request of the run was under `AtMostOne`. -/
theorem exec_leftWaiting {s s' : Server} {ts : List (Transition Server Event)}
    (hrun : Exec (Step config) s ts s') (h : s.Wf config) (hnone : ¬ LeftWaiting config s)
    (hev : ∀ t ∈ ts, t.label.handler = true) :
    (∀ t ∈ ts, ¬ LeftWaiting config t.post) ↔ ∀ t ∈ ts, AtMostOne config t.pre t.label := by
  induction hrun with
  | nil => simp
  | @cons s t u ev ts head _ ih =>
      have hone := step_leftWaiting h head (hev _ List.mem_cons_self) hnone
      rw [List.forall_mem_cons, List.forall_mem_cons, ← hone]
      -- the rest of the run starts from a state where nothing is grantable
      exact and_congr_right fun hpost =>
        ih (step_spec h head).1 hpost fun x hx => hev x (List.mem_cons_of_mem _ hx)

/-- An empty queue has nothing to grant, so nothing is left waiting at the start. -/
theorem start_leftWaiting {counts : LocalMap (BitVec 32)} {s : Server} (hne : config.mapping ≠ [])
    (h : start config counts = .ok s) : ¬ LeftWaiting config s := by
  obtain ⟨_, hfresh, _⟩ := start_spec hne h
  rintro ⟨p, e, _, hline, _⟩
  exact hline (hfresh.waiting p e)

/-- **No grantable Credit Request is left waiting**, as far as it goes: in every run of the
handlers from an empty queue, every handler leaves nothing grantable exactly if each Credit
Request, with the limits its sample sets, makes at most one request grantable. -/
theorem nothing_left_waiting {counts : LocalMap (BitVec 32)} {s₀ s : Server}
    {ts : List (Transition Server Event)} (hne : config.mapping ≠ [])
    (hstart : start config counts = .ok s₀) (hrun : Exec (Step config) s₀ ts s)
    (hev : ∀ t ∈ ts, t.label.handler = true) :
    (∀ t ∈ ts, ∀ p, ¬ CreditQueue.HasGrantable config.hosted p t.post.credit_queue)
      ↔ ∀ t ∈ ts, AtMostOne config t.pre t.label := by
  have hiff := exec_leftWaiting hrun (start_spec hne hstart).1 (start_leftWaiting hne hstart) hev
  rw [← hiff]
  unfold LeftWaiting
  push Not
  rfl

/-- Two requests at a leaf with room for both: nothing is ever left waiting. -/
theorem nothing_left_waiting_run :
    ∃ ts : List (Transition Server Event), ts.length = 3 ∧
      ∀ t ∈ ts, ∀ p, ¬ CreditQueue.HasGrantable oneService.hosted p t.post.credit_queue := by
  have hcheck : (do
      let counts ← LocalMap.ofKeys [[97]] 0
      let s₀ ← start oneService counts
      let (ts, _) ← trace (next oneService) s₀
        [.datagram (requestFor [97] 0) plainEnv, .datagram (requestFor [97] 2) plainEnv,
          .ingress_response [97] 0]
      .ok (decide (∀ t ∈ ts, t.label.handler = true) && decide (ts.length = 3)
        && decide (∀ t ∈ ts, AtMostOne oneService t.pre t.label)))
        = (.ok true : Except Abort Bool) := by
    decide +kernel
  obtain ⟨counts, _, hcheck⟩ := bind_eq_ok.mp hcheck
  obtain ⟨s₀, hstart, hcheck⟩ := bind_eq_ok.mp hcheck
  obtain ⟨⟨ts, s⟩, htrace, hcheck⟩ := bind_eq_ok.mp hcheck
  have hall := Except.ok.inj hcheck
  simp only [Bool.and_eq_true, decide_eq_true_eq] at hall
  obtain ⟨⟨hev, hlen⟩, hone⟩ := hall
  have hnext : ∀ s a l t, next oneService s a = .ok (l, t) → Step oneService s l t ∧ id l = a :=
    fun _ _ _ _ => step_of_next
  have hrun := (exec_of_trace hnext htrace).1
  exact ⟨ts, hlen, (nothing_left_waiting (by decide) hstart hrun hev).mpr hone⟩

/-- **A request is left waiting.** The fifth of five requests is the 2000th sample; the limit goes
from two to four, one of the three waiting requests is granted, and another one could be. -/
theorem nothing_left_waiting_fails :
    ∃ (counts : LocalMap (BitVec 32)) (s₀ s : Server) (ts : List (Transition Server Event)),
      start oneService counts = .ok s₀ ∧ s₀.credit_queue._size = 0
        ∧ Exec (Step oneService) s₀ ts s ∧ (∀ t ∈ ts, t.label.handler = true)
        ∧ CreditQueue.HasGrantable oneService.hosted 0 s.credit_queue := by
  have hcheck : (do
      let counts ← LocalMap.ofKeys [[97]] 1995
      let s₀ ← start oneService counts
      let (ts, s) ← trace (next oneService) s₀
        (List.replicate 5 (.datagram (requestFor [97] 0) plainEnv))
      .ok (decide (s₀.credit_queue._size = 0) && decide (∀ t ∈ ts, t.label.handler = true)
        && decide (CreditQueue.HasGrantable oneService.hosted 0 s.credit_queue)))
        = (.ok true : Except Abort Bool) := by
    decide +kernel
  obtain ⟨counts, _, hcheck⟩ := bind_eq_ok.mp hcheck
  obtain ⟨s₀, hstart, hcheck⟩ := bind_eq_ok.mp hcheck
  obtain ⟨⟨ts, s⟩, htrace, hcheck⟩ := bind_eq_ok.mp hcheck
  have hall := Except.ok.inj hcheck
  simp only [Bool.and_eq_true, decide_eq_true_eq] at hall
  obtain ⟨⟨hempty, hev⟩, hleft⟩ := hall
  have hnext : ∀ s a l t, next oneService s a = .ok (l, t) → Step oneService s l t ∧ id l = a :=
    fun _ _ _ _ => step_of_next
  exact ⟨counts, s₀, s, ts, hstart, hempty, (exec_of_trace hnext htrace).1, hev, hleft⟩

end Server

end RlpSidecar
