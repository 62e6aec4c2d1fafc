/-
**What counts as active**, at every moment.

A request is active from its arrival to its answer, except while it waits for a response. Whether a
counter ever says more is a question about parallel fan-outs: the counter goes down with the last
branch that is forwarded and up with the first response, and nothing orders the two. If every
response to a branch comes after all branches have been forwarded, each open ingress RPC counts for
at most one; otherwise one of them counts for two.

`step_opened` counts, at each event, the grants that open an ingress RPC or come back, and
`exec_opened` adds them up along the run. `active_at_most_once` states both bounds: no counter is
ever below zero, and, for runs in which the responses come in that order, none is above what is
granted and not yet given back.
-/
import RlpSidecar.MeshConservation

set_option autoImplicit false

open Runs

namespace RlpSidecar

/-- What an open ingress RPC of `e` counts for in a count of those. -/
def opens (e : Bytes) : Option Entry → ℤ
  | none => 0
  | some en => if en.service = e then 1 else 0

namespace Book

variable {config : MeshConfig} {s : Mesh} {B B' : Book}

/-- The open ingress RPCs of `e`, as a sum over all ids. -/
noncomputable def opened (B : Book) (e : Bytes) : ℤ := ∑ i, opens e (B.entry i)

theorem opened_set (B : Book) (i : RPCID) (o : Option Entry) (e : Bytes) :
    (B.set i o).opened e = B.opened e - opens e (B.entry i) + opens e o := sum_set (opens e) B i o

/-- An entry that changes stays open: its service is the same. -/
theorem opened_set_some {i : RPCID} {en en' : Entry} (hentry : B.entry i = some en)
    (hservice : en'.service = en.service) (e : Bytes) :
    (B.set i (some en')).opened e = B.opened e := by
  rw [opened_set, hentry]
  simp only [opens, hservice]
  omega

theorem opened_enlist (B : Book) (id : RPCID) (e : Bytes) :
    (B.enlist id).opened e = B.opened e ∧ (B.enlist id).spent = B.spent := by
  unfold enlist
  split
  · exact ⟨rfl, rfl⟩
  · rename_i en hentry
    refine ⟨?_, rfl⟩
    rw [opened_set, hentry]
    simp only [opens]
    omega

theorem opened_foldl_enlist (rpcs : List RPCMessage) (B : Book) (e : Bytes) :
    (rpcs.foldl (fun B rpc => B.enlist rpc.local_id) B).opened e = B.opened e
      ∧ (rpcs.foldl (fun B rpc => B.enlist rpc.local_id) B).spent = B.spent := by
  induction rpcs generalizing B with
  | nil => exact ⟨rfl, rfl⟩
  | cons rpc rpcs ih =>
      obtain ⟨hopened, hspent⟩ := ih (B.enlist rpc.local_id)
      obtain ⟨hone, hsame⟩ := B.opened_enlist rpc.local_id e
      exact ⟨hopened.trans hone, hspent.trans hsame⟩

end Book

namespace Mesh

variable {config : MeshConfig} {G : List Used} {w w' : Mesh × Book}

/-! ## Responses and returns -/

/-- The event forwards an INGRESS response of `e`, which ends the ingress RPC. -/
def answers (e : Bytes) (s : Mesh) : Event → Bool
  | .ingress_response id _ => (s.ingress_rpcs.lookup id).any fun rpc => rpc.service = e
  | _ => false

/-- The event is a Credit Return for `e`, which gives back a grant that was not used. -/
def returns (e : Bytes) : Event → Bool
  | .datagram req _ => decide (read_server_message req = .ok (.credit_return e))
  | _ => false

/-- The INGRESS responses of `e` forwarded in a run, counted with the state before each. -/
def responsesOf (e : Bytes) (ts : List (Transition (Mesh × Book) Event)) : ℕ :=
  ts.countP fun t => t.pre.1.answers e t.label

/-- The Credit Returns for `e` handled in a run, counted by their content. -/
def returnsOf (e : Bytes) (ts : List (Transition (Mesh × Book) Event)) : ℕ :=
  ts.countP fun t => returns e t.label

/-- **One event**: a grant that is used opens an ingress RPC or comes back, and an ingress RPC that
is answered is not open any more. -/
theorem step_opened {ev : Event} (h : Coherent config G w) (hs : Step config w ev w') (e : Bytes) :
    (w'.2.spent e : ℤ) - w'.2.opened e = w.2.spent e - w.2.opened e
      + (if w.1.answers e ev then 1 else 0) + (if returns e ev then 1 else 0) := by
  obtain ⟨s, B⟩ := w
  obtain ⟨s', B'⟩ := w'
  obtain ⟨_, hbook⟩ := hs
  dsimp only at hbook ⊢
  -- an event of the egress side keeps the service of each open ingress RPC
  have hkept : ∀ {i : RPCID} {en en' : Entry}, B.entry i = some en → en'.service = en.service →
      (B.spent e : ℤ) - (B.set i (some en')).opened e = B.spent e - B.opened e + 0 + 0 := by
    intro i en en' hentry hservice
    rw [Book.opened_set_some hentry hservice]
    omega
  cases hbook with
  | ingress_request service info hinfo hgrant hids =>
      have hnew : B.entry (newId 0 B.ids) = none := h.agrees.book.entry_newId hids
      have hopened :
          (((B.set (newId 0 B.ids) (some ⟨service, info, 0, []⟩)).spend service).count).opened e
          = B.opened e + if service = e then 1 else 0 := by
        refine (B.opened_set _ _ e).trans ?_
        rw [hnew]
        simp only [opens]
        omega
      have hspent :
          (((B.set (newId 0 B.ids) (some ⟨service, info, 0, []⟩)).spend service).count).spent e
          = B.spent e + if service = e then 1 else 0 := Book.spent_spend _ service e
      rw [hopened, hspent]
      simp only [answers, returns, Bool.false_eq_true, if_false]
      split_ifs <;> omega
  | egress_request parent service priority en hentry hrouting hmay hids => exact hkept hentry rfl
  | credit_requests =>
      obtain ⟨hopened, hspent⟩ := Book.opened_foldl_enlist s.rpc_queue B e
      rw [hopened, hspent]
      simp [answers, returns]
  | grant buf env m en l₁ c l₂ pending kept hread hone hat hphase hpending =>
      exact hkept hat.entry rfl
  | egress_response id en l₁ c l₂ hat hphase => exact hkept hat.entry rfl
  | ingress_response id now_ts en hentry hdone hall =>
      -- the registry has the service of the ingress RPC
      have hrel := h.agrees.ingress id
      dsimp only at hrel
      rw [hentry] at hrel
      cases hlookup : s.ingress_rpcs.lookup id with
      | none => rw [hlookup] at hrel; simp at hrel
      | some rpc =>
          rw [hlookup] at hrel
          have hservice : rpc.service = en.service := (Option.rel_some_some.mp hrel).service
          have hspent : (B.set id none).spent = B.spent := rfl
          rw [Book.opened_set, hentry, hspent]
          simp only [opens, answers, hlookup, returns, Option.any_some, hservice, decide_eq_true_eq,
            Bool.false_eq_true, if_false]
          split_ifs <;> omega
  | credit_request req env service id priority rtt hdispatch hread =>
      simp [answers, returns, hread]
  | credit_return req env service hdispatch hread hgrant =>
      have hopened : (B.spend service).opened e = B.opened e := rfl
      rw [hopened, B.spent_spend service e]
      simp only [answers, returns, hread, Bool.false_eq_true, if_false, Except.ok.injEq,
        ServerMessage.credit_return.injEq, decide_eq_true_eq]
      split_ifs <;> omega

/-- **A whole run**: the grants used are the open ingress RPCs, those that were answered and the
returns. -/
theorem exec_opened {ts : List (Transition (Mesh × Book) Event)} (hvalid : config.Valid)
    (hrun : Exec (Step config) w ts w') (h : Coherent config G w) (e : Bytes) :
    (w'.2.spent e : ℤ) - w'.2.opened e
      = w.2.spent e - w.2.opened e + responsesOf e ts + returnsOf e ts := by
  induction hrun generalizing G with
  | nil => simp [responsesOf, returnsOf]
  | @cons w w₁ w' ev ts head _ ih =>
      have hone := step_opened h head e
      have hrest := ih (step_coherent hvalid h head)
      unfold responsesOf returnsOf at hrest ⊢
      rw [List.countP_cons, List.countP_cons]
      push_cast
      omega

/-! ## What was sent stays sent -/

theorem send_credit_requests_server (config : MeshConfig) (id : RPCID) (services : List Bytes)
    (s : Mesh) :
    Ends (fun _ => True) (fun s' => s'.server = s.server)
      (s.send_credit_requests config id services) :=
  ((Agrees.send_credit_requests_spec id services s).blame_mono fun _ _ => trivial).mono
    fun s' hs' => by rw [hs']

theorem admit_requests_server (config : MeshConfig) (rpcs : List RPCMessage) (s : Mesh) :
    Ends (fun _ => True) (fun s' => s'.server = s.server) (admit_requests config rpcs s) := by
  induction rpcs generalizing s with
  | nil => exact rfl
  | cons rpc rpcs ih =>
      have hone : Ends (fun _ => True) (fun s' => s'.server = s.server)
          (s.admit_request config rpc) := by
        refine Ends.bind_any _ fun queue => Ends.bind_any _ fun r => Ends.bind_any _ fun info => ?_
        split_ifs
        · exact send_credit_requests_server _ _ _ _
        · exact ((Agrees.send_credit_request_spec _ _ _).blame_mono fun _ _ => trivial).mono
            fun s' hs' => by rw [hs']
      exact hone.bind fun s₁ hs₁ => (ih s₁).mono fun s' hs' => hs'.trans hs₁

theorem send_sub_request_server (config : MeshConfig) (rpc : RPCMessage) (s : Mesh) :
    Ends (fun _ => True) (fun s' => s'.server = s.server) (send_sub_request config rpc s) := by
  unfold send_sub_request
  dsimp only
  split_ifs
  · trivial
  · trivial
  · exact rfl
  · trivial

theorem release_prefix (s : Mesh) (service : Bytes) (now_ts : BitVec 64) :
    Ends (fun _ => True) (fun s' => s.server.sent <+: s'.server.sent) (s.release service now_ts) :=
  (Server.release_prefix s.server service now_ts).bind fun _ hserver => hserver

theorem fanout_req_management_prefix (config : MeshConfig) (env : GrantEnv) (id : RPCID)
    (service : Bytes) (buf : Buffer) (s : Mesh) :
    Ends (fun _ => True) (fun s' => s.server.sent <+: s'.server.sent)
      (s.fanout_req_management config env id service buf) := by
  -- a forwarded RPC leaves the server side alone, a release may send one more grant
  have hsent : ∀ {rpc : RPCMessage} {s₁ : Mesh} {f : Mesh → Except Abort Mesh},
      s₁.server = s.server →
      (∀ s₂ : Mesh, s₂.server = s.server →
        Ends (fun _ => True) (fun s' => s.server.sent <+: s'.server.sent) (f s₂)) →
      Ends (fun _ => True) (fun s' => s.server.sent <+: s'.server.sent)
        (send_sub_request config rpc s₁ >>= f) := by
    intro rpc s₁ f hs₁ hf
    exact (send_sub_request_server config rpc s₁).bind fun s₂ hs₂ => hf s₂ (hs₂.trans hs₁)
  have hrelease : ∀ (s₂ : Mesh) (e : Bytes), s₂.server = s.server →
      Ends (fun _ => True) (fun s' => s.server.sent <+: s'.server.sent)
        (s₂.release e env.now_ts) := by
    intro s₂ e hs₂
    rw [← hs₂]
    exact release_prefix s₂ e env.now_ts
  refine Ends.bind_any _ fun r => Ends.bind_any _ fun info => ?_
  obtain ⟨ingress_id, ingress_rpc⟩ := r
  dsimp only
  by_cases hp : info.pfanout = true
  · rw [if_pos hp]
    refine Ends.bind_any _ fun popped => hsent rfl fun s₂ hs₂ => ?_
    split_ifs
    · exact hs₂ ▸ List.prefix_refl _
    · exact hrelease s₂ _ hs₂
  · rw [if_neg hp]
    by_cases hd : info.dfanout = true
    · rw [if_pos hd]
      split
      · trivial
      · refine Ends.bind_any _ fun filled => ?_
        split_ifs
        · exact List.prefix_refl _
        · exact Ends.bind_any _ fun popped => hsent rfl fun s₂ hs₂ => hrelease _ _ hs₂
    · rw [if_neg hd]
      exact Ends.bind_any _ fun popped => hsent rfl fun s₂ hs₂ => hrelease s₂ _ hs₂

theorem credit_post_process_server (s : Mesh) (env : GrantEnv) (buf : Buffer) :
    Ends (fun _ => True) (fun r => r.2.server = s.server) (s.credit_post_process env buf) := by
  refine Ends.bind_any _ fun m => Ends.bind_any _ fun _ => Ends.bind_any _ fun rtt =>
    Ends.bind_any _ fun last_rtt_us => ?_
  split_ifs
  · trivial
  · trivial
  · exact rfl

theorem use_credits_prefix (config : MeshConfig) (env : GrantEnv) (id : RPCID) (service : Bytes)
    (buf : Buffer) (n : ℕ) (s : Mesh) :
    Ends (fun _ => True) (fun s' => s.server.sent <+: s'.server.sent)
      (use_credits config env id service buf n s) := by
  induction n generalizing s with
  | zero => exact List.prefix_refl _
  | succ n ih =>
      refine ( fanout_req_management_prefix config env id service buf s).bind fun s₁ hs₁ => ?_
      exact (ih s₁).mono fun s' hs' => hs₁.trans hs'

/-- **What was sent stays sent**, whatever happens: a handler only appends datagrams. -/
theorem handle_prefix (config : MeshConfig) (ev : Event) (s : Mesh) :
    Ends (fun _ => True) (fun s' => s.server.sent <+: s'.server.sent) (s.handle config ev) := by
  -- Grants are only ever appended, by whichever handler.
  cases ev with
  | ingress_request service =>
      refine Ends.bind_any _ fun r => ?_
      dsimp only
      split_ifs
      · exact List.prefix_refl _
      · trivial
  | ingress_response id now_ts =>
      show Ends _ _ (s.forward_ingress_response id now_ts)
      unfold forward_ingress_response
      split
      · trivial
      · exact (Server.release_prefix s.server _ now_ts).bind fun server hserver =>
          Ends.bind_any _ fun _ => hserver
  | egress_request parent service priority =>
      exact Ends.bind_any _ fun r => List.prefix_refl _
  | credit_requests =>
      refine (admit_requests_server config s.rpc_queue { s with rpc_queue := [] }).mono
        fun s' hs' => ?_
      rw [hs']
  | grant buf env =>
      refine (credit_post_process_server s env buf).bind fun r hr => ?_
      rw [← hr]
      exact use_credits_prefix config env _ _ buf _ r.2
  | egress_response id =>
      show Ends _ _ (s.forward_egress_response config id)
      unfold forward_egress_response
      split
      · trivial
      · rename_i rpc _
        have hone : Ends (fun _ => True) (fun s' => s.server.sent <+: s'.server.sent)
            (s.fanout_res_credit_management config rpc.local_id) := by
          refine Ends.bind_any _ fun r => Ends.bind_any _ fun info => ?_
          dsimp only
          split_ifs
          · exact List.prefix_refl _
          · exact (Server.acquire_prefix s.server _).bind fun server hserver => hserver
          · exact (Server.acquire_prefix s.server _).bind fun server hserver => hserver
        exact hone.bind fun s₁ hs₁ => hs₁
  | datagram req env =>
      exact (Server.protocol_server_prefix s.server env req).bind fun server hserver => hserver

/-- No more grants are used than were issued, since a request arrives on a grant of its service. -/
theorem step_spent {ev : Event} (hs : Step config w ev w')
    (hle : ∀ e, w.2.spent e ≤ Server.grantsFor e w.1.server.sent) (e : Bytes) :
    w'.2.spent e ≤ Server.grantsFor e w'.1.server.sent := by
  obtain ⟨s, B⟩ := w
  obtain ⟨s', B'⟩ := w'
  obtain ⟨hhandle, hbook⟩ := hs
  dsimp only at hhandle hbook hle ⊢
  have hprefix := ( handle_prefix config ev s).of_ok hhandle
  have hgrows : Server.grantsFor e s.server.sent ≤ Server.grantsFor e s'.server.sent :=
    List.Sublist.countP_le hprefix.sublist
  -- The neighbour spends a credit only if one of its grants is not yet spent.
  have hspend : ∀ service, B.spent service < Server.grantsFor service s.server.sent →
      (B.spend service).spent e ≤ Server.grantsFor e s.server.sent := by
    intro service hgrant
    rw [B.spent_spend]
    split_ifs with hservice
    · subst hservice
      exact hgrant
    · exact hle e
  refine le_trans ?_ hgrows
  cases hbook with
  | ingress_request service info hinfo hgrant hids => exact hspend service hgrant
  | credit_requests =>
      rw [(Book.opened_foldl_enlist s.rpc_queue B e).2]
      exact hle e
  | credit_return req env service hdispatch hread hgrant => exact hspend service hgrant
  | egress_request | grant | egress_response | ingress_response | credit_request => exact hle e

end Mesh

/-! ## What one ingress RPC counts for -/

/-- At most one egress RPC of a plain ingress RPC is unanswered. -/
def Entry.Synchronous (en : Entry) : Prop := en.info.fanout = .plain → en.children.length ≤ 1

/-- All branches of a parallel ingress RPC are forwarded once one is answered. -/
def Entry.Ordered (en : Entry) : Prop :=
  en.info.fanout = .pfanout → en.children.length < en.issued →
    en.unsent = 0 ∧ en.issued = en.info.downstreams.length

namespace Entry

variable {config : MeshConfig} {ids : ℕ} {i : RPCID} {en : Entry}
    {l₁ l₂ : List Child} {c c' : Child}

/-- A synchronous ingress RPC never counts for less than nothing: it has at most one open
branch. -/
theorem Synchronous.value_nonneg (h : en.Synchronous) (hwf : en.Wf config ids i) :
    0 ≤ en.value := by
  have hcount := List.countP_le_length (p := Child.isForwarded) (l := en.children)
  have hissued := hwf.issued
  unfold value
  cases hf : en.info.fanout with
  | plain =>
      have hone := h hf
      dsimp only
      omega
  | dfanout =>
      have hone := (hwf.dynamic hf).1
      dsimp only
      omega
  | pfanout =>
      dsimp only
      split_ifs <;> omega

/-- An ingress RPC whose responses come in order counts for at most one. -/
theorem Ordered.value_le_one (h : en.Ordered) : en.value ≤ 1 := by
  unfold value
  cases hf : en.info.fanout with
  | plain | dfanout =>
      dsimp only
      omega
  | pfanout =>
      have hordered := h hf
      dsimp only
      split_ifs <;> omega

end Entry

namespace Book

variable {config : MeshConfig} {queue : List RPCMessage} {s s' : Mesh} {B B' : Book}

/-- A property of all open ingress RPCs, after one has changed or was closed. -/
theorem forall_set {P : Entry → Prop} (hall : ∀ i en, B.entry i = some en → P en) {i : RPCID}
    {o : Option Entry} (ho : ∀ en ∈ o, P en) : ∀ j en, (B.set i o).entry j = some en → P en := by
  intro j en hentry
  unfold set at hentry
  dsimp only at hentry
  by_cases hj : j = i
  · subst hj; rw [Function.update_self] at hentry; exact ho en hentry
  · rw [Function.update_of_ne hj] at hentry; exact hall j en hentry

/-- Admitting requests changes egress RPCs that are not forwarded, so it keeps what does not depend
on their phase. -/
theorem forall_admitted {P : Entry → Prop} {rpcs : List RPCMessage}
    (hrun : Agrees.Admitted config rpcs s B s' B')
    (hphase : ∀ (en : Entry) (l₁ : List Child) (c c' : Child) (l₂ : List Child),
      en.children = l₁ ++ c :: l₂ → c.isForwarded = false → P en → P (en.withChild l₁ (some c') l₂))
    (hall : ∀ i en, B.entry i = some en → P en) : ∀ i en, B'.entry i = some en → P en := by
  induction hrun with
  | nil => exact hall
  | cons pre _ _ ih =>
      obtain ⟨c, hchild, hqueued, _⟩ := pre.head_queued
      obtain ⟨en, l₁, l₂, hat⟩ := exists_at hchild
      refine ih ?_
      rw [hat.enlist pre.book]
      refine forall_set hall fun en' hen' => ?_
      obtain rfl := Option.some.inj hen'
      refine hphase en l₁ _ _ l₂ hat.children ?_ (hall _ _ hat.entry)
      unfold Child.isForwarded
      rw [hqueued]

/-- **The entry rule.** A property of open ingress RPCs that a new one has and that every event
keeps for the one it changes holds of all of them. -/
theorem forall_step {P : Entry → Prop} {ev : Mesh.Event} (hvalid : config.Valid)
    (h : Agrees config s.rpc_queue s B) (hs : Step config s B ev B')
    (hhandle : s.handle config ev = .ok s')
    (hnew : ∀ service info, P ⟨service, info, 0, []⟩)
    (hissue : ∀ parent service priority en, ev = .egress_request parent service priority →
      B.entry parent = some en → en.MayIssue service → P en → P (B.issue parent en service))
    (hphase : ∀ (en : Entry) (l₁ : List Child) (c c' : Child) (l₂ : List Child),
      en.children = l₁ ++ c :: l₂ → c.isForwarded = false → P en → P (en.withChild l₁ (some c') l₂))
    (hanswer : ∀ id en l₁ c l₂, ev = .egress_response id → B.At id en l₁ c l₂ → P en →
      P (en.withChild l₁ none l₂))
    (hall : ∀ i en, B.entry i = some en → P en) : ∀ i en, B'.entry i = some en → P en := by
  obtain ⟨_, houtcome⟩ := (step_agrees hvalid h hs).of_ok hhandle
  cases hs with
  | ingress_request service info hinfo hgrant hids =>
      refine forall_set hall fun en hen => ?_
      obtain rfl := Option.some.inj hen
      exact hnew service info
  | egress_request parent service priority en hentry hrouting hmay hids =>
      refine forall_set hall fun en' hen' => ?_
      obtain rfl := Option.some.inj hen'
      exact hissue parent service priority en rfl hentry hmay (hall _ _ hentry)
  | credit_requests =>
      cases houtcome with
      | kept _ hev => exact absurd rfl hev.2
      | admitted hrun => exact forall_admitted hrun hphase hall
  | grant buf env m en l₁ c l₂ pending kept hread hone hat hwaiting hpending =>
      refine forall_set hall fun en' hen' => ?_
      obtain rfl := Option.some.inj hen'
      -- whatever the grant makes of the egress RPC, it was not forwarded before
      refine hphase en l₁ c _ l₂ hat.children ?_ (hall _ _ hat.entry)
      unfold Child.isForwarded
      rw [hwaiting]
  | egress_response id en l₁ c l₂ hat hforwarded =>
      refine forall_set hall fun en' hen' => ?_
      obtain rfl := Option.some.inj hen'
      exact hanswer id en l₁ c l₂ rfl hat (hall _ _ hat.entry)
  | ingress_response id now_ts en hentry hdone hanswered =>
      exact forall_set hall fun en' hen' => by simp at hen'
  | credit_request => exact hall
  | credit_return => exact hall

end Book

namespace Mesh

variable {config : MeshConfig} {G : List Used} {w w' : Mesh × Book}

/-! ## Runs -/

/-- A plain ingress RPC sends an egress request when none of it is unanswered. -/
def Synchronous (t : Transition (Mesh × Book) Event) : Prop :=
  ∀ parent service priority en, t.label = .egress_request parent service priority →
    t.pre.2.entry parent = some en → en.info.fanout = .plain → en.children = []

/-- The response to a branch of a parallel ingress RPC comes when all its branches are forwarded. -/
def InOrder (t : Transition (Mesh × Book) Event) : Prop :=
  ∀ id en, t.label = .egress_response id → t.pre.2.entry (id >>> 32) = some en →
    en.info.fanout = .pfanout → en.unsent = 0 ∧ en.issued = en.info.downstreams.length

theorem step_synchronous {ev : Event} (hvalid : config.Valid) (h : Coherent config G w)
    (hs : Step config w ev w') (hsync : Synchronous ⟨w, ev, w'⟩)
    (hall : ∀ i en, w.2.entry i = some en → en.Synchronous) :
    ∀ i en, w'.2.entry i = some en → en.Synchronous := by
  refine Book.forall_step hvalid h.agrees hs.2 hs.1 (fun _ _ _ => Nat.zero_le 1)
    (fun parent service priority en hev hentry _ _ hplain => ?_)
    (fun en l₁ c c' l₂ hchildren _ hen hplain => ?_) (fun id en l₁ c l₂ _ hat hen hplain => ?_) hall
  · have hnil := hsync parent service priority en hev hentry hplain
    unfold Book.issue
    simp [hnil]
  · have hlen := Entry.length_withChild hchildren (some c')
    have hone := hen hplain
    simp only [Option.isSome_some, if_true] at hlen
    omega
  · have hlen := Entry.length_withChild hat.children none
    have hone := hen hplain
    simp only [Option.isSome_none, Bool.false_eq_true, if_false] at hlen
    omega

theorem step_ordered {ev : Event} (hvalid : config.Valid) (h : Coherent config G w)
    (hs : Step config w ev w') (horder : InOrder ⟨w, ev, w'⟩)
    (hall : ∀ i en, w.2.entry i = some en → en.Ordered) :
    ∀ i en, w'.2.entry i = some en → en.Ordered := by
  refine Book.forall_step hvalid h.agrees hs.2 hs.1 (fun _ _ _ hlt => absurd hlt (lt_irrefl 0))
    (fun parent service priority en _ hentry hmay hen hp hlt => ?_)
    (fun en l₁ c c' l₂ hchildren hunsent hen hp hlt => ?_)
    (fun id en l₁ c l₂ hev hat hen hp _ => ?_) hall
  · -- a branch that is still to be issued is not forwarded
    have hp' : en.info.fanout = .pfanout := hp
    have hlt' : en.children.length < en.issued := by
      have hlen : (w.2.issue parent en service).children.length = en.children.length + 1 := by
        simp [Book.issue]
      have hiss : (w.2.issue parent en service).issued = en.issued + 1 := rfl
      omega
    unfold Entry.MayIssue at hmay
    rw [hp'] at hmay
    have hfull := (hen hp' hlt').2
    dsimp only at hmay
    omega
  · have hlen := Entry.length_withChild hchildren (some c')
    simp only [Option.isSome_some, if_true] at hlen
    have hiss : (en.withChild l₁ (some c') l₂).issued = en.issued := rfl
    have hzero := (hen hp (by omega)).1
    unfold Entry.unsent at hzero
    have hc := List.countP_eq_zero.mp hzero c (by rw [hchildren]; simp)
    rw [hunsent] at hc
    simp at hc
  · obtain ⟨hzero, hfull⟩ := horder id en hev hat.entry hp
    refine ⟨?_, hfull⟩
    have hcount := Entry.countP_withChild (fun c => !c.isForwarded) hat.children none
    unfold Entry.unsent at hzero ⊢
    rw [hzero] at hcount
    simp only [Option.any_none, Bool.false_eq_true, if_false] at hcount
    omega

/-- What every step keeps for the open ingress RPCs, a whole run keeps. -/
theorem exec_forall {P : Entry → Prop} {Q : Transition (Mesh × Book) Event → Prop}
    {ts : List (Transition (Mesh × Book) Event)} (hvalid : config.Valid)
    (hstep : ∀ {G : List Used} {w w' : Mesh × Book} {ev : Event}, Coherent config G w →
      Step config w ev w' → Q ⟨w, ev, w'⟩ → (∀ i en, w.2.entry i = some en → P en) →
      ∀ i en, w'.2.entry i = some en → P en)
    (hrun : Exec (Step config) w ts w') (h : Coherent config G w) (hQ : ∀ t ∈ ts, Q t)
    (hall : ∀ i en, w.2.entry i = some en → P en) : ∀ i en, w'.2.entry i = some en → P en := by
  induction hrun generalizing G with
  | nil => exact hall
  | cons head _ ih =>
      exact ih (step_coherent hvalid h head) (fun t ht => hQ t (List.mem_cons_of_mem _ ht))
        (hstep h head (hQ _ List.mem_cons_self) hall)

/-- **An RPC counts at most once.** In every run of a sidecar whose plain services are synchronous
no counter is ever below zero; and if no branch of a parallel RPC is answered before all its
branches are forwarded, no counter is ever above the grants issued less the responses and returns.
The run hands out fewer than 2³² - 2 local ids: their lower halves are counted up, and with a
repeated one two RPCs would be the same to the sidecar. -/
theorem active_at_most_once {counts : LocalMap (BitVec 32)} {s₀ s : Mesh} {B : Book}
    {ts : List (Transition (Mesh × Book) Event)} (hvalid : config.Valid)
    (hstart : start config counts = .ok s₀) (hrun : Exec (Step config) (s₀, .empty) ts (s, B))
    (hsync : ∀ t ∈ ts, Synchronous t) :
    (∀ e, 0 ≤ s.server.credit_queue.counters.active e)
      ∧ ((∀ t ∈ ts, InOrder t) → ∀ e, s.server.credit_queue.counters.active e
          ≤ (Server.grantsFor e s.server.sent : ℤ) - responsesOf e ts - returnsOf e ts) := by
  have hstarted := start_coherent hvalid hstart
  have h := run_coherent hvalid hstart hrun
  have hnone : ∀ {P : Entry → Prop} i en, Book.empty.entry i = some en → P en := by
    intro P i en hentry
    simp [Book.empty] at hentry
  have hsynchronous := exec_forall hvalid (step_synchronous hvalid) hrun hstarted hsync hnone
  refine ⟨fun e => ?_, fun horder e => ?_⟩
  · -- no more grants are used than were issued, and no RPC counts for less than nothing
    have hspent : ∀ e, B.spent e ≤ Server.grantsFor e s.server.sent :=
      hrun.invariant (fun w => ∀ e, w.2.spent e ≤ Server.grantsFor e w.1.server.sent)
        (fun _ _ hle hs => step_spent hs hle) fun e => Nat.zero_le _
    have hworth : 0 ≤ ∑ i, worth e (B.entry i) := by
      refine Finset.sum_nonneg fun i _ => ?_
      cases hentry : B.entry i with
      | none => exact le_rfl
      | some en =>
          have hnonneg :=
            (hsynchronous i en hentry).value_nonneg (h.agrees.book.entries i en hentry)
          unfold worth
          dsimp only
          split_ifs <;> omega
    have hactive := h.active_eq e
    have hle := hspent e
    dsimp only at hactive
    omega
  · have hordered := exec_forall hvalid (step_ordered hvalid) hrun hstarted horder hnone
    have hworth : ∑ i, worth e (B.entry i) ≤ B.opened e := by
      refine Finset.sum_le_sum fun i _ => ?_
      cases hentry : B.entry i with
      | none => exact le_rfl
      | some en =>
          have hone := (hordered i en hentry).value_le_one
          unfold worth opens
          dsimp only
          split_ifs <;> omega
    have hactive := h.active_eq e
    have hledger := exec_opened hvalid hrun hstarted e
    have hzero : Book.empty.opened e = 0 := Finset.sum_eq_zero fun _ _ => rfl
    have hspent : Book.empty.spent e = 0 := rfl
    dsimp only at hactive hledger
    rw [hzero, hspent] at hledger
    omega

/-! ## Two branches -/

/-- The service `a`, which asks `b` and `c` at once, on a host with one processor. -/
def pair : MeshConfig :=
  { server := { limits := ⟨1, 0, false, fun _ => 0⟩,
                mapping := [([97], ⟨[[98], [99]], true, false⟩)] }
    routing := [[98], [99]]
    ids := ⟨false, false⟩ }

theorem pair_find {service : Bytes} {info : MappingInfo}
    (hinfo : pair.server.find service = some info) : ⟨[[98], [99]], true, false⟩ = info := by
  simp only [ServerConfig.find, pair, List.lookup_cons, List.lookup_nil] at hinfo
  split at hinfo
  · exact Option.some.inj hinfo
  · simp at hinfo

theorem pair_valid : pair.Valid where
  nonempty := by decide
  info service info hinfo := by
    rw [← pair_find hinfo]
    exact ⟨by simp, by decide, fun h => by simp [MappingInfo.fanout] at h⟩

/-- The entry of an ingress RPC of `a`, for the concrete run. -/
def pairEntry (issued : ℕ) (children : List Child) : Entry :=
  ⟨[97], ⟨[[98], [99]], true, false⟩, issued, children⟩

/-- It is the only one that is open. -/
theorem pair_entry {issued spent ids : ℕ} {children : List Child} {i : RPCID} {en : Entry}
    (h : (soleBook (some (pairEntry issued children)) spent ids).entry i = some en) :
    en = pairEntry issued children := by
  unfold soleBook at h
  dsimp only at h
  rw [Function.update_apply] at h
  split_ifs at h
  exact (Option.some.inj h).symm

/-- The id of the second branch, which is for `c`. -/
def secondChild : RPCID := newId 2 2

/-- What the grant for it says, as the datagram is read. -/
def secondGrant : GrantMessage := ⟨[99], secondChild, 0, 0, 1, 1⟩

/-- Both branches are requested and the first is granted and forwarded. Then it is answered, before
the grant for the second or after it. -/
theorem pair_run : ∃ counts s₀ s ts early s' late B₁ B₂ B₃ B₄, start pair counts = .ok s₀
    ∧ Exec (Step pair) (s₀, .empty) ts (s, B₁) ∧ (∀ t ∈ ts, Synchronous t ∧ InOrder t)
    ∧ responsesOf [97] ts = 0 ∧ returnsOf [97] ts = 0
    ∧ Step pair (s, B₁) (.egress_response firstChild) (early, B₂)
    ∧ early.server.credit_queue.counters.active [97] = 2
    ∧ Server.grantsFor [97] early.server.sent = 1
    ∧ Step pair (s, B₁) (.grant (grantFor [99] secondChild) grantEnv) (s', B₃)
    ∧ Step pair (s', B₃) (.egress_response firstChild) (late, B₄)
    ∧ InOrder ⟨(s', B₃), .egress_response firstChild, (late, B₄)⟩
    ∧ Server.grantsFor [97] late.server.sent = 1 := by
  -- One RPC with two sub-requests in parallel; after six steps it goes on in two ways.
  have hcheck : (do
      let counts ← LocalMap.ofKeys [[97]] 0
      let s₀ ← start pair counts
      let s₁ ← s₀.handle pair (.datagram (Server.requestFor [97] 0) Server.plainEnv)
      let s₂ ← s₁.handle pair (.ingress_request [97])
      let s₃ ← s₂.handle pair (.egress_request 2 [98] 0)
      let s₄ ← s₃.handle pair (.egress_request 2 [99] 0)
      let s₅ ← s₄.handle pair .credit_requests
      let s₆ ← s₅.handle pair (.grant (grantFor [98] firstChild) grantEnv)
      let early ← s₆.handle pair (.egress_response firstChild)
      let s₇ ← s₆.handle pair (.grant (grantFor [99] secondChild) grantEnv)
      let late ← s₇.handle pair (.egress_response firstChild)
      .ok (decide (Server.grantsFor [97] s₁.server.sent = 1)
        && decide (s₄.rpc_queue.map RPCMessage.local_id = [firstChild, secondChild])
        && decide (early.server.credit_queue.counters.active [97] = 2)
        && decide (Server.grantsFor [97] early.server.sent = 1)
        && decide (Server.grantsFor [97] late.server.sent = 1)))
      = (.ok true : Except Abort Bool) := by
    decide +kernel
  obtain ⟨counts, _, hcheck⟩ := bind_eq_ok.mp hcheck
  obtain ⟨s₀, hstart, hcheck⟩ := bind_eq_ok.mp hcheck
  obtain ⟨s₁, h₁, hcheck⟩ := bind_eq_ok.mp hcheck
  obtain ⟨s₂, h₂, hcheck⟩ := bind_eq_ok.mp hcheck
  obtain ⟨s₃, h₃, hcheck⟩ := bind_eq_ok.mp hcheck
  obtain ⟨s₄, h₄, hcheck⟩ := bind_eq_ok.mp hcheck
  obtain ⟨s₅, h₅, hcheck⟩ := bind_eq_ok.mp hcheck
  obtain ⟨s₆, h₆, hcheck⟩ := bind_eq_ok.mp hcheck
  obtain ⟨early, hearly, hcheck⟩ := bind_eq_ok.mp hcheck
  obtain ⟨s₇, h₇, hcheck⟩ := bind_eq_ok.mp hcheck
  obtain ⟨late, hlate, hcheck⟩ := bind_eq_ok.mp hcheck
  have hall := Except.ok.inj hcheck
  simp only [Bool.and_eq_true, decide_eq_true_eq] at hall
  obtain ⟨⟨⟨⟨hgrants, hqueue⟩, hactive⟩, hearlysent⟩, hlatesent⟩ := hall
  have w₁ : Step pair (s₀, .empty) (.datagram (Server.requestFor [97] 0) Server.plainEnv)
      (s₁, .empty) :=
    ⟨h₁, .credit_request _ _ [97] 7 0 0 (by decide +kernel) (by decide +kernel)⟩
  have w₂ : Step pair (s₁, .empty) (.ingress_request [97])
      (s₂, soleBook (some (pairEntry 0 [])) 1 1) := by
    rw [← soleBook_empty]
    refine ⟨h₂, .to (.ingress_request [97] _ rfl (by rw [hgrants]; exact Nat.one_pos)
      (by dsimp only; decide)) ?_⟩
    have hid : newId 0 (soleBook none 0 0).ids = 2 := by decide
    dsimp only
    rw [hid, soleBook_set, soleBook_spend, soleBook_count]
    rfl
  have w₃ : Step pair (s₂, soleBook (some (pairEntry 0 [])) 1 1) (.egress_request 2 [98] 0)
      (s₃, soleBook (some (pairEntry 1 [⟨firstChild, [98], .queued⟩])) 1 2) :=
    ⟨h₃, .to (.egress_request 2 [98] 0 (pairEntry 0 []) (soleBook_entry ..) (by decide)
      Nat.two_pos (by dsimp only; decide)) (congrArg Book.count (soleBook_set ..))⟩
  have w₄ : Step pair (s₃, soleBook (some (pairEntry 1 [⟨firstChild, [98], .queued⟩])) 1 2)
      (.egress_request 2 [99] 0)
      (s₄, soleBook (some (pairEntry 2
        [⟨firstChild, [98], .queued⟩, ⟨secondChild, [99], .queued⟩])) 1 3) :=
    ⟨h₄, .to (.egress_request 2 [99] 0 (pairEntry 1 [⟨firstChild, [98], .queued⟩])
      (soleBook_entry ..) (by decide) Nat.one_lt_two (by dsimp only; decide))
      (congrArg Book.count (soleBook_set ..))⟩
  have w₅ : Step pair (s₄, soleBook (some (pairEntry 2
        [⟨firstChild, [98], .queued⟩, ⟨secondChild, [99], .queued⟩])) 1 3) .credit_requests
      (s₅, soleBook (some (pairEntry 2
        [⟨firstChild, [98], .waiting [[98]] []⟩, ⟨secondChild, [99], .waiting [[99]] []⟩]))
        1 3) := by
    refine ⟨h₅, .to .credit_requests ?_⟩
    have hfirst : (soleBook (some (pairEntry 2
        [⟨firstChild, [98], .queued⟩, ⟨secondChild, [99], .queued⟩])) 1 3).enlist firstChild
        = soleBook (some (pairEntry 2
            [⟨firstChild, [98], .waiting [[98]] []⟩, ⟨secondChild, [99], .queued⟩])) 1 3 :=
      soleBook_set ..
    have hfold : ∀ B : Book, s₄.rpc_queue.foldl (fun B rpc => B.enlist rpc.local_id) B
        = (s₄.rpc_queue.map RPCMessage.local_id).foldl Book.enlist B := fun B => List.foldl_map.symm
    refine (hfold _).trans ?_
    dsimp only
    rw [hqueue, List.foldl_cons, List.foldl_cons, List.foldl_nil, hfirst]
    exact soleBook_set ..
  have w₆ : Step pair (s₅, soleBook (some (pairEntry 2
        [⟨firstChild, [98], .waiting [[98]] []⟩, ⟨secondChild, [99], .waiting [[99]] []⟩])) 1 3)
      (.grant (grantFor [98] firstChild) grantEnv)
      (s₆, soleBook (some (pairEntry 2
        [⟨firstChild, [98], .forwarded⟩, ⟨secondChild, [99], .waiting [[99]] []⟩])) 1 3) :=
    ⟨h₆, .to (.grant _ _ firstGrant (pairEntry 2
      [⟨firstChild, [98], .waiting [[98]] []⟩, ⟨secondChild, [99], .waiting [[99]] []⟩]) [] _ _
      [[98]] [] (by decide +kernel) rfl ⟨soleBook_entry .., rfl, rfl⟩ rfl (by decide))
      (soleBook_set ..)⟩
  -- The first response comes before the second grant, and the RPC counts twice.
  have wearly : Step pair (s₆, soleBook (some (pairEntry 2
        [⟨firstChild, [98], .forwarded⟩, ⟨secondChild, [99], .waiting [[99]] []⟩])) 1 3)
      (.egress_response firstChild)
      (early, soleBook (some (pairEntry 2 [⟨secondChild, [99], .waiting [[99]] []⟩])) 1 3) :=
    ⟨hearly, .to (.egress_response firstChild (pairEntry 2
      [⟨firstChild, [98], .forwarded⟩, ⟨secondChild, [99], .waiting [[99]] []⟩]) [] _ _
      ⟨soleBook_entry .., rfl, rfl⟩ rfl) (soleBook_set ..)⟩
  have w₇ : Step pair (s₆, soleBook (some (pairEntry 2
        [⟨firstChild, [98], .forwarded⟩, ⟨secondChild, [99], .waiting [[99]] []⟩])) 1 3)
      (.grant (grantFor [99] secondChild) grantEnv)
      (s₇, soleBook (some (pairEntry 2
        [⟨firstChild, [98], .forwarded⟩, ⟨secondChild, [99], .forwarded⟩])) 1 3) :=
    ⟨h₇, .to (.grant _ _ secondGrant (pairEntry 2
      [⟨firstChild, [98], .forwarded⟩, ⟨secondChild, [99], .waiting [[99]] []⟩])
      [⟨firstChild, [98], .forwarded⟩] _ [] [[99]] [] (by decide +kernel) rfl
      ⟨soleBook_entry .., rfl, rfl⟩ rfl (by decide)) (soleBook_set ..)⟩
  -- It comes behind the second grant, and the RPC counts once.
  have wlate : Step pair (s₇, soleBook (some (pairEntry 2
        [⟨firstChild, [98], .forwarded⟩, ⟨secondChild, [99], .forwarded⟩])) 1 3)
      (.egress_response firstChild)
      (late, soleBook (some (pairEntry 2 [⟨secondChild, [99], .forwarded⟩])) 1 3) :=
    ⟨hlate, .to (.egress_response firstChild (pairEntry 2
      [⟨firstChild, [98], .forwarded⟩, ⟨secondChild, [99], .forwarded⟩]) [] _ _
      ⟨soleBook_entry .., rfl, rfl⟩ rfl) (soleBook_set ..)⟩
  refine ⟨counts, s₀, s₆, _, early, s₇, late, _, _, _, _, hstart, .cons w₁ (.cons w₂ (.cons w₃
    (.cons w₄ (.cons w₅ (.cons w₆ (.nil _)))))), ?_, ?_, ?_, wearly, hactive, hearlysent, w₇, wlate,
    ?_, hlatesent⟩
  · intro t ht
    have hparallel : ∀ {issued spent ids : ℕ} {children : List Child} {i : RPCID} {en : Entry},
        (soleBook (some (pairEntry issued children)) spent ids).entry i = some en →
        en.info.fanout ≠ .plain := by
      intro issued spent ids children i en hentry
      rw [pair_entry hentry]
      show MappingInfo.fanout ⟨[[98], [99]], true, false⟩ ≠ .plain
      decide
    simp only [List.mem_cons, List.not_mem_nil, or_false] at ht
    refine ⟨fun parent service priority en hev hentry hplain => ?_, fun id en hev => ?_⟩
    · rcases ht with rfl | rfl | rfl | rfl | rfl | rfl
      · simp at hev
      · simp at hev
      · exact absurd hplain (hparallel hentry)
      · exact absurd hplain (hparallel hentry)
      · simp at hev
      · simp at hev
    · rcases ht with rfl | rfl | rfl | rfl | rfl | rfl <;> simp at hev
  · rfl
  · have hread : returns [97] (.datagram (Server.requestFor [97] 0) Server.plainEnv) = false := by
      decide +kernel
    unfold returnsOf
    rw [List.countP_cons, hread]
    rfl
  · intro id en _ hentry _
    rw [pair_entry hentry]
    exact ⟨rfl, rfl⟩

/-- With the second grant before the first response, the two branches count once: a concrete run of
the theorem. -/
theorem active_at_most_once_pair : ∃ (s : Mesh) (ts : List (Transition (Mesh × Book) Event)),
    Server.grantsFor [97] s.server.sent = 1 ∧ (∀ e, 0 ≤ s.server.credit_queue.counters.active e)
      ∧ s.server.credit_queue.counters.active [97]
        ≤ (Server.grantsFor [97] s.server.sent : ℤ) - responsesOf [97] ts - returnsOf [97] ts := by
  obtain ⟨counts, s₀, s, ts, early, s', late, B₁, B₂, B₃, B₄, hstart, hrun,
    hall, _, _, _, _, _, hgrant,
    hlate, horder, hsent⟩ := pair_run
  have hwhole := (hrun.append (.single hgrant)).append (.single hlate)
  have hsync : ∀ t ∈ ts ++ [⟨(s, B₁), .grant (grantFor [99] secondChild) grantEnv, (s', B₃)⟩]
      ++ [⟨(s', B₃), .egress_response firstChild, (late, B₄)⟩], Synchronous t := by
    intro t ht
    simp only [List.mem_append, List.mem_singleton] at ht
    rcases ht with (ht | rfl) | rfl
    · exact (hall t ht).1
    · intro parent service priority en hev
      simp at hev
    · intro parent service priority en hev
      simp at hev
  -- In the second continuation every grant has come before the first response.
  have hinorder : ∀ t ∈ ts ++ [⟨(s, B₁), .grant (grantFor [99] secondChild) grantEnv, (s', B₃)⟩]
      ++ [⟨(s', B₃), .egress_response firstChild, (late, B₄)⟩], InOrder t := by
    intro t ht
    simp only [List.mem_append, List.mem_singleton] at ht
    rcases ht with (ht | rfl) | rfl
    · exact (hall t ht).2
    · intro id en hev
      simp at hev
    · exact horder
  have h := active_at_most_once pair_valid hstart hwhole hsync
  exact ⟨late, _, hsent, h.1, h.2 hinorder [97]⟩

/-- With the response first, one RPC counts for two: one grant was issued, none has been answered or
returned, and the counter is at two. -/
theorem active_at_most_once_fails : ∃ (counts : LocalMap (BitVec 32)) (s₀ s : Mesh) (B : Book)
    (ts : List (Transition (Mesh × Book) Event)), pair.Valid ∧ start pair counts = .ok s₀
      ∧ Exec (Step pair) (s₀, .empty) ts (s, B) ∧ (∀ t ∈ ts, Synchronous t)
      ∧ s.server.credit_queue.counters.active [97] = 2
      ∧ (Server.grantsFor [97] s.server.sent : ℤ) - responsesOf [97] ts
        - returnsOf [97] ts = 1 := by
  obtain ⟨counts, s₀, s, ts, early, s', late, B₁, B₂, B₃, B₄, hstart, hrun,
    hall, hresponses, hreturns,
    hearly, hactive, hsent, _⟩ := pair_run
  refine ⟨counts, s₀, early, B₂, _, pair_valid, hstart,
    hrun.append (.single hearly), fun t ht => ?_,
    hactive, ?_⟩
  · rcases List.mem_append.mp ht with ht | ht
    · exact (hall t ht).1
    · obtain rfl := List.mem_singleton.mp ht
      intro parent service priority en hev
      simp at hev
  · unfold responsesOf at hresponses ⊢
    unfold returnsOf at hreturns ⊢
    rw [List.countP_append, List.countP_append, hresponses, hreturns, hsent]
    rfl

end Mesh

end RlpSidecar
