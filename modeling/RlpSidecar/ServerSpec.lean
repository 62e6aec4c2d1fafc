/-
What each server-side handler does to the room of requests.

`check_spec` is the one lemma about `check_credit_transmission`: either nothing was ready and
nothing changes, or one ready request is granted and its grant is sent. Every handler is a
change of the room followed by it. `Named` keeps track of the bytes: the buffers waiting for
an endpoint carry its name, so the grants sent for it can be counted from the datagrams.

`Effect` lists the changes of the room, one for each handler, and `Handled` is an effect with the
check behind it. `step_spec` says that every handler keeps `Wf` and is `Handled`; the modules on
accounting, on the backlog and on leaves only use this.
-/
import RlpSidecar.DatagramRoundTrip
import RlpSidecar.Server

set_option autoImplicit false

namespace RlpSidecar

/-! ## Bytes -/

namespace Buffer

/-- What `extract_service_from_rlp_req` reads decides what it returns: two bytes of the header, and
the name. -/
theorem extract_congr {b c : Buffer} (h0 : b.byte 0 = c.byte 0) (h1 : b.byte 1 = c.byte 1)
    (hname : charToSize (c.byte 0) ≤ udpBufferLength →
      Wire.window b.data headerSize (charToSize (c.byte 0) - headerSize)
        = Wire.window c.data headerSize (charToSize (c.byte 0) - headerSize)) :
    extract_service_from_rlp_req b = extract_service_from_rlp_req c := by
  unfold extract_service_from_rlp_req
  rw [h0, h1]
  split_ifs with h2 h3 h4
  · rfl
  · rfl
  · rfl
  · rw [hname (by omega)]

/-- A byte away from a write keeps its value, wherever the write is. -/
theorem byte_put_ne (b : Buffer) {pos : ℕ} {bytes : Bytes}
    (h : pos + bytes.length ≤ udpBufferLength) {i : ℕ} (hd : i < pos ∨ pos + bytes.length ≤ i) :
    (b.put pos bytes h).byte i = b.byte i := by
  have hle : pos + bytes.length ≤ b.data.length := by rw [b.length_data]; exact h
  have hget := Wire.getElem?_overwrite hle i
  unfold byte put
  rw [List.getD_eq_getElem?_getD, List.getD_eq_getElem?_getD, hget]
  rcases hd with hlt | hge
  · rw [if_pos hlt]
  · rw [if_neg (by omega), if_neg (by omega)]

/-- A byte of a copy is that of the original, as far as the copy goes. -/
theorem byte_copy_n (b src : Buffer) {i : ℕ} (hi : i < src.filled) :
    (b.copy_n src).byte i = src.byte i := by
  have hs := src.filled_lt
  have hlen : (src.data.take src.filled).length = src.filled := by
    rw [List.length_take, src.length_data]; omega
  have hle : 0 + (src.data.take src.filled).length ≤ b.data.length := by
    rw [hlen, b.length_data]; omega
  have hget := Wire.getElem?_overwrite hle i
  unfold byte copy_n
  rw [List.getD_eq_getElem?_getD, List.getD_eq_getElem?_getD, hget, if_neg (by omega),
    if_pos (by omega), Nat.sub_zero, List.getElem?_take, if_pos hi]

/-- Stamping a grant does not touch the name in it, which stands behind the fields that are
written. -/
theorem extract_stamp (b : Buffer) (now_ts : BitVec 64) :
    extract_service_from_rlp_req (stamp_queuing_time b now_ts)
      = extract_service_from_rlp_req b := by
  have hlen : (Wire.encode ((now_ts - b.enter_queue_ts).setWidth 32) 4).length = 4 :=
    Wire.length_encode _ 4
  have h26 : headerSize = 26 := rfl
  refine extract_congr (byte_put_ne b _ (by omega)) (byte_put_ne b _ (by omega)) fun _ => ?_
  exact window_put_ne b _ (by omega)

end Buffer

/-- **The grant built from a request names the same service**, on a datagram that went through
`dispatch_rlp_recv`: the length byte covers no more than what was copied. -/
theorem extract_of_response {req fresh resp : Buffer} {service : Bytes}
    (hdispatch : dispatch_rlp_recv req = .ok .protocol_server)
    (hservice : extract_service_from_rlp_req req = .ok service)
    (hresp : write_failed_dn_response req fresh = .ok resp) :
    extract_service_from_rlp_req resp = .ok service := by
  have h26 : headerSize = 26 := rfl
  -- the length byte: at least the header, at most what is filled
  have hlen : headerSize ≤ (req.byte 0).toNat ∧ (req.byte 0).toNat ≤ req.filled := by
    unfold dispatch_rlp_recv at hdispatch
    split_ifs at hdispatch <;> omega
  obtain ⟨grant, hgrant, hresp⟩ := bind_eq_ok.mp hresp
  obtain rfl := Except.ok.inj hresp
  unfold write_credit_grant at hgrant
  dsimp only at hgrant
  split_ifs at hgrant with hover
  obtain ⟨hdata, _, _⟩ := Buffer.set_filled_eq_ok hgrant
  have hbyte : ∀ i, i < 2 → (grant.prepare_sendmsg req.addr).byte i = req.byte i := by
    intro i hi
    have hb : (grant.prepare_sendmsg req.addr).byte i = grant.data.getD i 0 := rfl
    rw [hb, hdata]
    exact (Buffer.byte_put_ne _ _ (.inl (by omega))).trans
      ((Buffer.byte_put_ne _ _ (.inl (by omega))).trans (Buffer.byte_copy_n _ _ (by omega)))
  rw [← hservice]
  refine Buffer.extract_congr (hbyte 0 (by omega)) (hbyte 1 (by omega)) fun hsize => ?_
  -- a `char` that is read as a length of at most 256 is not negative
  have hnat : charToSize (req.byte 0) = (req.byte 0).toNat := by
    have hlt : (req.byte 0).toNat < 256 := (req.byte 0).toNat_lt
    have hof : req.byte 0 = UInt8.ofNat (req.byte 0).toNat := by simp
    have hsz : charToSize (req.byte 0) ≤ 256 := hsize
    rw [hof, charToSize_ofNat hlt] at hsz
    split_ifs at hsz with h128
    · conv_lhs => rw [hof, charToSize_ofNat hlt, if_pos h128]
    · omega
  have hdata' : (grant.prepare_sendmsg req.addr).data = grant.data := rfl
  rw [hdata', hdata, Buffer.window_patch _ _ _ _ (.inr (by omega)),
    Buffer.window_patch _ _ _ _ (.inr (by omega))]
  exact Buffer.window_copy_n fresh req (by omega)

namespace Server

variable {config : ServerConfig}

/-- The room of the server side: who waits, who is active, and the limits. -/
def room (s : Server) : Admission.Room (Fin PriorityCount) Bytes Buffer := s.credit_queue.view

/-- The buffers waiting for an endpoint carry its name, so a grant is for the endpoint it was
counted for. -/
def Named (r : Admission.Room (Fin PriorityCount) Bytes Buffer) : Prop :=
  ∀ p e, ∀ b ∈ r.waiting p e, extract_service_from_rlp_req b = .ok e

/-- **The invariant** of the server side: a well-formed queue, whose buffers are in the right
lines. -/
structure Wf (config : ServerConfig) (s : Server) : Prop where
  queue : s.credit_queue.Wf config.hosted
  named : Named s.room

/-- A change of the queue that leaves every line alone keeps the invariant. -/
theorem Wf.of_waiting {s s' : Server} (h : s.Wf config) (hq : s'.credit_queue.Wf config.hosted)
    (hw : s'.room.waiting = s.room.waiting) : s'.Wf config :=
  ⟨hq, by intro p e b hb; rw [hw] at hb; exact h.named p e b hb⟩

/-! ## Granting -/

/-- What `check_credit_transmission` comes to: nothing, if nothing is ready, or one grant. -/
inductive Checked (config : ServerConfig) (now_ts : BitVec 64) (s s' : Server) : Prop
  | nothing (hroom : s'.room = s.room) (hsent : s'.sent = s.sent)
      (hnone : ∀ p, ∀ e ∈ config.hosted, ¬ s.room.Ready p e)
  | granted (p : Fin PriorityCount) (e : Bytes) (b : Buffer) (he : e ∈ config.hosted)
      (hready : s.room.Ready p e) (hline : ∃ rest, s.room.waiting p e = b :: rest)
      (hroom : s'.room = s.room.grant p e)
        (hsent : s'.sent = s.sent ++ [stamp_queuing_time b now_ts])

/-- **`check_credit_transmission`** grants one ready request, if there is one, and never more. -/
theorem check_spec {s s' : Server} (h : s.Wf config) {now_ts : BitVec 64}
    (hs : s.check_credit_transmission now_ts = .ok s') :
    s'.Wf config ∧ s'.rtt_count = s.rtt_count ∧ Checked config now_ts s s' := by
  unfold check_credit_transmission at hs
  obtain ⟨⟨r, q⟩, hpop, hs⟩ := bind_eq_ok.mp hs
  -- The queue's own refinement says which step of the room its pop is.
  obtain ⟨p, r', q', _, hpop', hpopped⟩ := CreditQueue.pop_spec h.queue
  obtain ⟨rfl, rfl⟩ := Prod.mk.inj (Except.ok.inj (hpop.symm.trans hpop'))
  obtain ⟨hwf, ev, hobs, href⟩ := hpopped.refines h.queue
  cases r with
  | none =>
      obtain rfl := Except.ok.inj hs
      cases hobs
      have hview : q.view = s.credit_queue.view := href
      exact ⟨h.of_waiting hwf (congrArg _ hview), rfl,
        .nothing hview rfl (hpopped.none_ready h.queue)⟩
  | some b =>
      obtain rfl := Except.ok.inj hs
      cases hobs with
      | pop _ p e =>
          obtain ⟨hstep, he⟩ := href
          obtain ⟨hready, hline, hview⟩ := hstep.grant_inv
          refine ⟨⟨hwf, ?_⟩, rfl, .granted p e b (he e rfl) hready hline hview rfl⟩
          intro p' e' b' hb'
          have hb'' : b' ∈ (s.room.grant p e).waiting p' e' := by
            have hroom : q.view = s.room.grant p e := hview
            rw [← hroom]; exact hb'
          simp only [Admission.Room.grant] at hb''
          split_ifs at hb''
          · exact h.named p' e' b' (List.mem_of_mem_tail hb'')
          · exact h.named p' e' b' hb''

/-! ## Limits -/

/-- The room once `update_limits` has taken a sample for `service`: every 2000th sample sets the
endpoint's limit, and on a leaf the global one from all of them. -/
def sampleRoom (config : ServerConfig) (ratio : ℤ) (service : Bytes) (s : Server) :
    Admission.Room (Fin PriorityCount) Bytes Buffer :=
  match s.rtt_count.lookup service, config.find service with
  | some count, some info =>
    if (count + 1).toNat % 2000 = 0 then
      let r := s.room.setCap service (newEndpointLimit config info ratio)
      -- with the new limit of the service among the others
      if config.limits.leaf then r.setTotalCap (combineLimits config (config.hosted.map r.cap))
        else r
    else s.room
  | _, _ => s.room

theorem sampleRoom_waiting (config : ServerConfig) (ratio : ℤ) (service : Bytes) (s : Server) :
    (sampleRoom config ratio service s).waiting = s.room.waiting
      ∧ (sampleRoom config ratio service s).active = s.room.active
      ∧ (sampleRoom config ratio service s).total = s.room.total := by
  unfold sampleRoom
  split
  · split_ifs <;> exact ⟨rfl, rfl, rfl⟩
  · exact ⟨rfl, rfl, rfl⟩

/-- Reading the limits of the hosted services succeeds, for any list of them. -/
theorem mapM_limits {q : CreditQueue Buffer} {es : List Bytes} (h : q.Wf es) :
    ∀ {l : List Bytes}, (∀ e ∈ l, e ∈ es) →
      l.mapM q.get_per_endpoint_limit = .ok (l.map q.view.cap)
  | [], _ => rfl
  | e :: l, hl => by
      have he : q.get_per_endpoint_limit e = .ok (q.view.cap e) :=
        h.counters.limits.get (hl e List.mem_cons_self) 0
      have hrest := mapM_limits h fun e' he' => hl e' (List.mem_cons_of_mem _ he')
      rw [List.mapM_cons, he, ok_bind, hrest]
      rfl

theorem recompute_limits_spec {q q' : CreditQueue Buffer} {ratio : ℤ} {service : Bytes}
    (h : q.Wf config.hosted) (hq : recompute_limits config ratio service q = .ok q') :
    ∃ info, config.find service = some info ∧ q'.Wf config.hosted
      ∧ q'.view = if config.limits.leaf
          then (q.view.setCap service (newEndpointLimit config info ratio)).setTotalCap
            (combineLimits config (config.hosted.map
              (q.view.setCap service (newEndpointLimit config info ratio)).cap))
          else q.view.setCap service (newEndpointLimit config info ratio) := by
  unfold recompute_limits at hq
  split at hq
  · simp at hq
  rename_i info hinfo
  obtain ⟨q₁, hq₁, hq⟩ := bind_eq_ok.mp hq
  obtain ⟨_, hwf₁, hview₁, _⟩ := CreditQueue.update_endpoint_limit_spec h hq₁
  refine ⟨info, hinfo, ?_⟩
  split_ifs at hq ⊢ with hleaf
  · rw [mapM_limits hwf₁ fun _ he => he, ok_bind] at hq
    obtain rfl := Except.ok.inj hq
    obtain ⟨hwf₂, hview₂⟩ := CreditQueue.update_global_limit_spec hwf₁
      (combineLimits config (config.hosted.map q₁.view.cap))
    exact ⟨hwf₂, by rw [hview₂, hview₁]⟩
  · obtain rfl := Except.ok.inj hq
    exact ⟨hwf₁, hview₁⟩

/-- **`update_limits`** changes limits only, as `sampleRoom` says; no counter and no line
changes. -/
theorem update_limits_spec {s s' : Server} (h : s.Wf config) {ratio : ℤ} {service : Bytes}
    (hs : s.update_limits config ratio service = .ok s') :
    s'.Wf config ∧ s'.sent = s.sent ∧ s'.room = sampleRoom config ratio service s := by
  unfold update_limits at hs
  obtain ⟨count, hcount, hs⟩ := bind_eq_ok.mp hs
  obtain ⟨counts, _, hs⟩ := bind_eq_ok.mp hs
  have hlook := LocalMap.get_eq_ok.mp hcount
  have hwaiting := (sampleRoom_waiting config ratio service s).1
  unfold sampleRoom at hwaiting ⊢
  rw [hlook] at hwaiting ⊢
  dsimp only at hs
  -- Every 2000th sample recomputes the limits; the others are only counted.
  split_ifs at hs with hdue
  · obtain ⟨q, hq, hs⟩ := bind_eq_ok.mp hs
    obtain rfl := Except.ok.inj hs
    obtain ⟨info, hinfo, hwf, hview⟩ := recompute_limits_spec h.queue hq
    rw [hinfo] at hwaiting ⊢
    dsimp only at hwaiting ⊢
    rw [if_pos hdue] at hwaiting ⊢
    refine ⟨h.of_waiting hwf ?_, rfl, hview⟩
    exact (congrArg Admission.Room.waiting hview).trans hwaiting
  · obtain rfl := Except.ok.inj hs
    refine ⟨⟨h.queue, h.named⟩, rfl, ?_⟩
    cases config.find service with
    | none => rfl
    | some info => simp only [hdue, if_false]; rfl

/-! ## Handlers -/

/-- The change an event makes before any credit is granted, on the room of the server side. -/
inductive Effect (config : ServerConfig) (s : Server) :
    Event → Admission.Room (Fin PriorityCount) Bytes Buffer → Prop
  | request (req : Buffer) (env : Env) (service : Bytes) (id : RPCID) (priority : Priority)
      (rtt : BitVec 32) (p : Fin PriorityCount) (resp : Buffer)
      (hread : read_server_message req = .ok (.credit_request service id priority rtt))
      (hp : priority.toSize = p.val) (he : service ∈ config.hosted) :
      Effect config s (.datagram req env)
        ((sampleRoom config env.ratio service s).enqueue p service resp)
  | credit_return (req : Buffer) (env : Env) (service : Bytes)
      (hread : read_server_message req = .ok (.credit_return service))
      (he : service ∈ config.hosted) :
      Effect config s (.datagram req env) (s.room.release service)
  | ingress_response (service : Bytes) (now_ts : BitVec 64) (he : service ∈ config.hosted) :
      Effect config s (.ingress_response service now_ts) (s.room.release service)
  | egress_request (service : Bytes) (now_ts : BitVec 64) (he : service ∈ config.hosted) :
      Effect config s (.egress_request service now_ts) (s.room.release service)
  | egress_response (service : Bytes) (he : service ∈ config.hosted) :
      Effect config s (.egress_response service) (s.room.acquire service)
  | endpoint_limit (limit : ℤ) (service : Bytes) (he : service ∈ config.hosted) :
      Effect config s (.endpoint_limit limit service) (s.room.setCap service limit)
  | global_limit (limit : ℤ) : Effect config s (.global_limit limit) (s.room.setTotalCap limit)

/-- The time at which an event's handler looks for a credit to grant, if it does. -/
def Event.check? : Event → Option (BitVec 64)
  | .datagram _ env => some env.now_ts
  | .ingress_response _ now_ts | .egress_request _ now_ts => some now_ts
  | _ => none

/-- What a handler leaves: the change of its event, and at most one grant if it looks for one. -/
def Handled (config : ServerConfig) (s : Server) (ev : Event) (s' : Server) : Prop :=
  ∃ mid : Server, mid.Wf config ∧ mid.sent = s.sent ∧ Effect config s ev mid.room
    ∧ match ev.check? with
      | some now_ts => Checked config now_ts mid s'
      | none => s'.room = mid.room ∧ s'.sent = mid.sent

theorem release_spec {s s' : Server} (h : s.Wf config) {service : Bytes} {now_ts : BitVec 64}
    (hs : s.release service now_ts = .ok s') :
    service ∈ config.hosted ∧ s'.Wf config ∧ ∃ mid : Server, mid.Wf config ∧ mid.sent = s.sent
      ∧ mid.room = s.room.release service ∧ Checked config now_ts mid s' := by
  unfold release at hs
  obtain ⟨q, hq, hs⟩ := bind_eq_ok.mp hs
  obtain ⟨he, hwf, hview, _⟩ := CreditQueue.decrement_in_flight_spec h.queue hq
  have hw : q.view.waiting = s.room.waiting := by rw [hview]; rfl
  have hmid : ({ s with credit_queue := q } : Server).Wf config := h.of_waiting hwf hw
  obtain ⟨hwf', _, hchecked⟩ := check_spec hmid hs
  exact ⟨he, hwf', _, hmid, rfl, hview, hchecked⟩

theorem acquire_spec {s s' : Server} (h : s.Wf config) {service : Bytes}
    (hs : s.acquire service = .ok s') :
    service ∈ config.hosted ∧ s'.Wf config ∧ s'.sent = s.sent
      ∧ s'.room = s.room.acquire service := by
  unfold acquire at hs
  obtain ⟨q, hq, hs⟩ := bind_eq_ok.mp hs
  obtain rfl := Except.ok.inj hs
  obtain ⟨he, hwf, hview, _⟩ := CreditQueue.increment_in_flight_spec h.queue hq
  have hw : q.view.waiting = s.room.waiting := by rw [hview]; rfl
  exact ⟨he, h.of_waiting hwf hw, rfl, hview⟩

/-- A message read as a request or a return names the service `extract_service_from_rlp_req`
finds. -/
theorem extract_of_read {req : Buffer} {m : ServerMessage} (h : read_server_message req = .ok m) :
    match m with
    | .credit_request service _ _ _ => extract_service_from_rlp_req req = .ok service
    | .credit_return service => extract_service_from_rlp_req req = .ok service := by
  unfold read_server_message at h
  split_ifs at h
  · obtain ⟨service, hservice, h⟩ := bind_eq_ok.mp h
    dsimp only at h
    split_ifs at h
    obtain rfl := Except.ok.inj h
    exact hservice
  · obtain ⟨service, hservice, h⟩ := bind_eq_ok.mp h
    obtain rfl := Except.ok.inj h
    exact hservice

/-- **`protocol_server`**, on a dispatched datagram: its effect on the room, and then at most one
grant. -/
theorem protocol_server_spec {s s' : Server} (h : s.Wf config) {req : Buffer} {env : Env}
    (hdispatch : dispatch_rlp_recv req = .ok .protocol_server)
    (hs : s.protocol_server config env req = .ok s') :
    s'.Wf config ∧ Handled config s (.datagram req env) s' := by
  unfold protocol_server at hs
  obtain ⟨m, hread, hs⟩ := bind_eq_ok.mp hs
  have hservice := extract_of_read hread
  cases m with
  | credit_request service id priority rtt =>
      obtain ⟨s₁, hs₁, hs⟩ := bind_eq_ok.mp hs
      obtain ⟨resp, hresp, hs⟩ := bind_eq_ok.mp hs
      obtain ⟨q, hq, hs⟩ := bind_eq_ok.mp hs
      obtain ⟨hwf₁, hsent₁, hroom₁⟩ := update_limits_spec h hs₁
      obtain ⟨p, hp, he, hwf, hview, _⟩ := CreditQueue.push_spec hwf₁.queue hq
      -- what is in the lines names its service: the old buffers do, and the new one was just made
      have hmid : ({ s₁ with credit_queue := q } : Server).Wf config := by
        refine ⟨hwf, fun p' e' b hb => ?_⟩
        have hb' : b
            ∈ (s₁.room.enqueue p service { resp with enter_queue_ts := env.enter_ts }).waiting
            p' e' := by
          have hroom : q.view = s₁.room.enqueue p service _ := hview
          rw [← hroom]; exact hb
        simp only [Admission.Room.enqueue] at hb'
        split_ifs at hb' with heq
        · rcases List.mem_append.mp hb' with hold | hnew
          · exact hwf₁.named p' e' b hold
          · have hx := extract_of_response hdispatch hservice hresp
            rw [List.mem_singleton.mp hnew, heq.2]
            exact hx
        · exact hwf₁.named p' e' b hb'
      -- then one grant at most is sent
      obtain ⟨hwf', _, hchecked⟩ := check_spec hmid hs
      have heffect : Effect config s (.datagram req env) _ := .request req env service id priority
        rtt p { resp with enter_queue_ts := env.enter_ts } hread hp he
      have hroom : ({ s₁ with credit_queue := q } : Server).room
          = s₁.room.enqueue p service { resp with enter_queue_ts := env.enter_ts } := hview
      rw [← hroom₁, ← hroom] at heffect
      exact ⟨hwf', _, hmid, hsent₁, heffect, hchecked⟩
  | credit_return service =>
      obtain ⟨he, hwf', mid, hmid, hsent, hroom, hchecked⟩ := release_spec h hs
      exact ⟨hwf', mid, hmid, hsent, hroom ▸ .credit_return req env service hread he, hchecked⟩

/-- **Every handler** keeps the invariant and is its event's change followed by at most one
grant. -/
theorem step_spec {s s' : Server} {ev : Event} (h : s.Wf config) (hs : Step config s ev s') :
    s'.Wf config ∧ Handled config s ev s' := by
  obtain ⟨hdispatch, hs⟩ := hs
  -- One case for each handler: its own change of the room, and the check behind it.
  cases ev with
  | datagram req env => exact protocol_server_spec h (hdispatch req env rfl) hs
  | ingress_response service now_ts =>
      obtain ⟨he, hwf', mid, hmid, hsent, hroom, hchecked⟩ := release_spec h hs
      exact ⟨hwf', mid, hmid, hsent, hroom ▸ .ingress_response service now_ts he, hchecked⟩
  | egress_request service now_ts =>
      obtain ⟨he, hwf', mid, hmid, hsent, hroom, hchecked⟩ := release_spec h hs
      exact ⟨hwf', mid, hmid, hsent, hroom ▸ .egress_request service now_ts he, hchecked⟩
  | egress_response service =>
      obtain ⟨he, hwf', hsent, hroom⟩ := acquire_spec h hs
      exact ⟨hwf', s', hwf', hsent, hroom ▸ .egress_response service he, rfl, rfl⟩
  | endpoint_limit limit service =>
      obtain ⟨q, hq, hs⟩ := bind_eq_ok.mp hs
      obtain rfl := Except.ok.inj hs
      obtain ⟨he, hwf, hview, _⟩ := CreditQueue.update_endpoint_limit_spec h.queue hq
      have hw : q.view.waiting = s.room.waiting := by rw [hview]; rfl
      have hwf' : ({ s with credit_queue := q } : Server).Wf config := h.of_waiting hwf hw
      have hroom : ({ s with credit_queue := q } : Server).room
          = s.room.setCap service limit := hview
      exact ⟨hwf', _, hwf', rfl, hroom ▸ .endpoint_limit limit service he, rfl, rfl⟩
  | global_limit limit =>
      obtain rfl := Except.ok.inj hs
      obtain ⟨hwf, hview⟩ := CreditQueue.update_global_limit_spec h.queue limit
      have hwf' : ({ s with credit_queue := s.credit_queue.update_global_limit limit } : Server).Wf
          config := h.of_waiting hwf rfl
      exact ⟨hwf', _, hwf', rfl, .global_limit limit, rfl, rfl⟩

/-- The server side starts well-formed, with nothing queued, active or sent. -/
theorem start_spec {counts : LocalMap (BitVec 32)} {s : Server} (hne : config.mapping ≠ [])
    (h : start config counts = .ok s) :
    s.Wf config ∧ CreditQueue.Fresh config.limits config.hosted s.credit_queue ∧ s.sent = [] := by
  obtain ⟨q, hq, h⟩ := bind_eq_ok.mp h
  obtain rfl := Except.ok.inj h
  have hhosted : config.hosted ≠ [] := by
    unfold ServerConfig.hosted; simpa using hne
  have hfresh := CreditQueue.create_spec hhosted hq
  refine ⟨⟨hfresh.wf, fun p e b hb => ?_⟩, hfresh, rfl⟩
  have hnil : q.view.waiting p e = [] := hfresh.waiting p e
  have hb' : b ∈ q.view.waiting p e := hb
  rw [hnil] at hb'
  simp at hb'

end Server

end RlpSidecar
