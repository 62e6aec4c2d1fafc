/-
The RTT between two sidecars (`state.cc`, `credit_post_process`, `send_credit_request`,
`check_credit_transmission` and `protocol_server`).

A Credit Request carries the time it was sent, and the grant brings that time back together with
the time the request has spent in the queue of the server, which is measured on the server's clock
and cut to 32 bits. The client cuts the time since the request to 32 bits too and takes the
difference. The clocks need not agree, and a request may wait for any time, so either number may
have wrapped around. If one has and the other has not, the signed difference is out of range,
although the RTT itself is a few microseconds.

Both kinds of client read a grant, a mesh sidecar for the services of its routing table and an
ingress sidecar for its only service. The name in the grant has to come back as it was sent, which
it does if it has at most 101 bytes.
-/
import RlpSidecar.DatagramRoundTrip
import RlpSidecar.IngressWorkerSpec
import RlpSidecar.LocalMapLookups
import RlpSidecar.Mesh
import RlpSidecar.SignedInt

set_option autoImplicit false

namespace RlpSidecar

/-! ## Clocks -/

/-- A time in microseconds that a clock can show: it counts nanoseconds in 64 bits. -/
def Reading (t : ℤ) : Prop := -2 ^ 63 ≤ 1000 * t ∧ 1000 * t < 2 ^ 63

instance (t : ℤ) : Decidable (Reading t) := by
  unfold Reading; infer_instance

/-- `duration_cast<microseconds>(…).count()`, of a reading of the clock, in the 64 bits that it is
kept in. -/
def micros (t : ℤ) : BitVec 64 := BitVec.ofInt 64 t

/-- A grant as it arrives at the client: it answers a Credit Request for one credit of the service
that was sent at `ts`, has entered the queue of the server at `enter` and left it at `leave`. The
buffers on the way, the priority, the RTT that was told and the addresses may be any. -/
inductive Granted (service : Bytes) (id : RPCID) (ts enter leave : ℤ) : Buffer → Prop
  | arrived (b₁ b₂ rx₁ rx₂ req resp : Buffer) (priority : Priority) (last_rtt : BitVec 32)
      (client server : SockAddr)
      (hreq : write_credit_request b₁ service 1 id priority (micros ts) last_rtt = .ok req)
      (hresp : write_failed_dn_response (rx₁.receive req client) b₂ = .ok resp) :
      Granted service id ts enter leave (rx₂.receive
        (stamp_queuing_time { resp with enter_queue_ts := micros enter } (micros leave)) server)

/-- **The server is told** this RTT by each Credit Request for the service that carries it: the
request is written, and `protocol_server` reads it with that service and that RTT. -/
def Tells (service : Bytes) (last_rtt : BitVec 32) : Prop :=
  ∀ (b rx : Buffer) (id : RPCID) (priority : Priority) (now_us : BitVec 64) (client : SockAddr),
    ∃ req, write_credit_request b service 1 id priority now_us last_rtt = .ok req
      ∧ read_server_message (rx.receive req client)
        = .ok (.credit_request service id ((priority.setWidth 8).signExtend 32) last_rtt)

/-- **The RTT is exact**, for a request that was sent at `ts`, has entered the queue of the server
at `enter`, left it at `leave` and brought a grant at `now`. The server reads every request that
tells it an RTT. Each client takes the grant, whatever else it holds: it computes the difference of
the two times, stores it for the service, leaves the other services alone, and the next request for
this service tells that RTT to the server. -/
structure RttExact (service : Bytes) (ts now enter leave : ℤ) : Prop where
  told : ∀ last_rtt : BitVec 32, 0 ≤ last_rtt.toInt → Tells service last_rtt
  mesh : ∀ (s : Mesh) (keys : List Bytes) (id : RPCID) (grant : Buffer) (env : Mesh.GrantEnv),
    s.last_rtt_us.Hosts keys → service ∈ keys → service ∈ s.ppm_queue → env.now_us = micros now →
    Granted service id ts enter leave grant →
    ∃ rtt s', s.credit_post_process env grant = .ok ((service, id, 1), s')
      ∧ rtt.toInt = (now - ts) - (leave - enter)
      ∧ (∀ e ∈ keys, s'.last_rtt_us.get e = if e = service then .ok rtt else s.last_rtt_us.get e)
      ∧ (∀ config : MeshConfig, config.get_pool service = .ok () →
          Mesh.credit_request_rtt config s'.last_rtt_us service = .ok rtt)
      ∧ Tells service rtt
  ingress : ∀ (n : ℕ) (w : IngressWorker n) (id : RPCID) (grant : Buffer) (env : IngressWorker.Env),
    w.ingress.ingress_service = service → env.now_us = micros now →
    Granted service id ts enter leave grant →
    ∃ rtt, w.credit_post_process env grant = .ok (1, { w with last_rtt_us := rtt })
      ∧ rtt.toInt = (now - ts) - (leave - enter) ∧ Tells service rtt

/-- The two times lie in the same span of 2³² microseconds, so that taking both of them to 32 bits
shifts them alike. -/
def SameSpan (total queued : ℤ) : Prop := (total + 2 ^ 31) / 2 ^ 32 = (queued + 2 ^ 31) / 2 ^ 32

instance (total queued : ℤ) : Decidable (SameSpan total queued) := by
  unfold SameSpan; infer_instance

/-! ## The difference -/

section Difference

variable {ts now enter leave : ℤ}

/-- A difference of two readings fits into 64 bits, and no overflow happens before the
conversion. -/
theorem toInt_micros_sub {a b : ℤ} (ha : Reading a) (hb : Reading b) :
    (micros a - micros b).toInt = a - b := by
  unfold Reading at ha hb
  unfold micros
  rw [BitVec.toInt_sub, BitVec.toInt_ofInt_eq_self (by omega) (by omega) (by omega),
    BitVec.toInt_ofInt_eq_self (by omega) (by omega) (by omega)]
  apply Int.bmod_eq_of_le
  · omega
  · omega

theorem subtract_micros {a b : ℤ} (ha : Reading a) (hb : Reading b) :
    subtract (micros a) (micros b) = .ok (micros a - micros b) := by
  have hsub : SignedInt.sub (micros a) (micros b) = some (micros a - micros b) := by
    rw [SignedInt.sub_eq_some_iff, toInt_micros_sub ha hb]
    unfold Reading at ha hb
    unfold micros
    rw [BitVec.toInt_ofInt_eq_self (by omega) (by omega) (by omega),
      BitVec.toInt_ofInt_eq_self (by omega) (by omega) (by omega)]
  unfold subtract
  rw [hsub]

/-- What the grant says of the times: when the request was sent, and how long it was queued. -/
structure Says (m : GrantMessage) (ts enter leave : ℤ) : Prop where
  timestamp : m.timestamp = micros ts
  queueing_time : m.queueing_time = (micros leave - micros enter).setWidth 32

section

variable {m : GrantMessage} (hgrant : Says m ts enter leave) (hts : Reading ts)
  (hnow : Reading now) (henter : Reading enter) (hleave : Reading leave)
  (hpos : 0 < (now - ts) - (leave - enter)) (hlt : (now - ts) - (leave - enter) < 2 ^ 31)

include hgrant hts hnow henter hleave

/-- The two times of 32 bits, and the RTT that is computed from them if it does not overflow. -/
theorem credit_rtt_times :
    ((micros now - micros ts).setWidth 32).toInt = Int.bmod (now - ts) (2 ^ 32)
      ∧ m.queueing_time.toInt = Int.bmod (leave - enter) (2 ^ 32)
      ∧ credit_rtt m (micros now) = (do
          let rtt ← subtract ((micros now - micros ts).setWidth 32) m.queueing_time
          if 0 < rtt.toInt then .ok rtt else .error .invalidRtt) := by
  refine ⟨?_, ?_, ?_⟩
  · rw [SignedInt.toInt_setWidth_32, toInt_micros_sub hnow hts]
  · rw [hgrant.queueing_time, SignedInt.toInt_setWidth_32, toInt_micros_sub hleave henter]
  · unfold credit_rtt
    rw [hgrant.timestamp, subtract_micros hnow hts, ok_bind]

include hpos hlt

/-- **The RTT of a grant** is the difference of the times, if they lie in the same span. -/
theorem credit_rtt_eq (hspan : SameSpan (now - ts) (leave - enter)) :
    ∃ rtt, credit_rtt m (micros now) = .ok rtt ∧ rtt.toInt = (now - ts) - (leave - enter) := by
  obtain ⟨htotal, hqueued, hcredit⟩ := credit_rtt_times hgrant hts hnow henter hleave
  -- what is left of both differs by the RTT
  have hdiff := (SignedInt.bmod_sub_bmod hpos hlt).mpr hspan
  have hrtt : (BitVec.ofInt 32 ((now - ts) - (leave - enter))).toInt
      = (now - ts) - (leave - enter) :=
    BitVec.toInt_ofInt_eq_self (by omega) (by omega) (by omega)
  have hsub : SignedInt.sub ((micros now - micros ts).setWidth 32) m.queueing_time
      = some (BitVec.ofInt 32 ((now - ts) - (leave - enter))) := by
    rw [SignedInt.sub_eq_some_iff, htotal, hqueued, hdiff, hrtt]
  refine ⟨BitVec.ofInt 32 ((now - ts) - (leave - enter)), ?_, hrtt⟩
  rw [hcredit]
  unfold subtract
  rw [hsub, ok_bind, if_pos (by rw [hrtt]; exact hpos)]

/-- If they do not, the subtraction overflows, which is undefined in the source. -/
theorem credit_rtt_overflow (hspan : ¬ SameSpan (now - ts) (leave - enter)) :
    credit_rtt m (micros now) = .error .undefined := by
  obtain ⟨htotal, hqueued, hcredit⟩ := credit_rtt_times hgrant hts hnow henter hleave
  have hout := SignedInt.bmod_sub_bmod_out hpos hlt hspan
  have hsub : SignedInt.sub ((micros now - micros ts).setWidth 32) m.queueing_time = none := by
    rw [Option.eq_none_iff_forall_ne_some]
    intro z hz
    have hlow := BitVec.le_toInt z
    rw [SignedInt.toInt_of_sub hz, htotal, hqueued] at hlow
    omega
  rw [hcredit]
  unfold subtract
  rw [hsub]
  rfl

end

end Difference

/-! ## From request to request -/

/-- A name of at most 101 bytes comes back in the grant, with the two times and one credit. -/
theorem Granted.reads {service : Bytes} {id : RPCID} {ts enter leave : ℤ} {grant : Buffer}
    (h : Granted service id ts enter leave grant) (hlen : service.length ≤ 101) :
    ∃ m, read_credit_grant grant = .ok m ∧ Says m ts enter leave ∧ m.service = service ∧ m.id = id
      ∧ m.requested = 1 ∧ m.granted = 1 := by
  obtain ⟨b₁, b₂, rx₁, rx₂, req, resp, priority, last_rtt, client, server, hreq, hresp⟩ := h
  have hreceived := (Buffer.write_credit_request_spec hreq).receive rx₁ client
  obtain ⟨granted, hwritten, heq⟩ := bind_eq_ok.mp hresp
  obtain rfl := Except.ok.inj heq
  obtain ⟨hgranted, hfour⟩ := Buffer.write_credit_grant_spec hreceived hwritten
  -- the address and the time of entry are not among the fields
  have hentered : ({ granted.prepare_sendmsg (rx₁.receive req client).addr with
      enter_queue_ts := micros enter } : Buffer).Holds _ := ⟨hgranted.filled, hgranted.len,
    hgranted.kind, hgranted.flag, hgranted.requested, hgranted.id, hgranted.priority,
    hgranted.timestamp, hgranted.elapsed, hgranted.service⟩
  obtain ⟨hstamped, hfour'⟩ := Buffer.stamp_queuing_time_spec hentered (micros leave)
  have harrived := hstamped.receive rx₂ server
  have hsent : 4 + 1 ≤ (stamp_queuing_time
      { granted.prepare_sendmsg (rx₁.receive req client).addr with enter_queue_ts := micros enter }
      (micros leave)).filled := by
    have h26 : headerSize = 26 := rfl
    rw [hstamped.filled]; omega
  have hbyte := Buffer.byte_eq ((Buffer.window_copy_n rx₂ _ hsent).trans (hfour'.trans hfour))
  exact ⟨_, read_grant_spec harrived rfl hlen, ⟨rfl, rfl⟩, rfl, rfl, rfl, hbyte⟩

/-- There is such a grant for each name that is accepted, from the writers of the two messages. -/
theorem exists_granted (service : Bytes) (hlen : headerSize + service.length < udpBufferLength)
    (id : RPCID) (ts enter leave : ℤ) : ∃ grant, Granted service id ts enter leave grant := by
  obtain ⟨req, hreq⟩ := Buffer.write_credit_request_ok .blank 1 id 0 (micros ts) 0 hlen
  obtain ⟨granted, hwritten⟩ :=
    Buffer.write_credit_grant_ok (Buffer.blank.receive req ⟨0, 0⟩) 1 (rfl : Buffer.blank.filled = 0)
  have hresp : write_failed_dn_response (Buffer.blank.receive req ⟨0, 0⟩) .blank
      = .ok (granted.prepare_sendmsg (Buffer.blank.receive req ⟨0, 0⟩).addr) := by
    unfold write_failed_dn_response
    rw [hwritten]
    rfl
  exact ⟨_, .arrived .blank .blank .blank .blank req _ 0 0 ⟨0, 0⟩ ⟨0, 0⟩ hreq hresp⟩

/-- **What a request tells** is read by the server if the name has at most 101 bytes. -/
theorem tells_of_length_le {service : Bytes} (hlen : service.length ≤ 101) {last_rtt : BitVec 32}
    (hrtt : 0 ≤ last_rtt.toInt) : Tells service last_rtt := by
  intro b rx id priority now_us client
  have h26 : headerSize = 26 := rfl
  have h256 : udpBufferLength = 256 := rfl
  obtain ⟨req, hreq⟩ := Buffer.write_credit_request_ok b 1 id priority now_us last_rtt
    (show headerSize + service.length < udpBufferLength by omega)
  have hreceived := (Buffer.write_credit_request_spec hreq).receive rx client
  exact ⟨req, hreq, read_request_spec hreceived rfl rfl rfl hrtt hlen⟩

/-- A longer name is not read, so nothing is told about it. -/
theorem length_le_of_tells {service : Bytes} {last_rtt : BitVec 32} (h : Tells service last_rtt) :
    service.length ≤ 101 := by
  obtain ⟨req, hreq, hread⟩ := h .blank .blank 0 0 0 ⟨0, 0⟩
  by_contra hlen
  have hreceived := (Buffer.write_credit_request_spec hreq).receive .blank ⟨0, 0⟩
  rw [read_request_undefined hreceived rfl rfl rfl (not_le.mp hlen)] at hread
  cases hread

/-- **A Credit Request of the mesh is one that is written**: its caller finds the pool, and the
bytes of `send_credit_request` go out with the RTT that is stored for the service. -/
theorem Mesh.credit_request_rtt_eq_ok {config : MeshConfig} {last_rtt_us : LocalMap (BitVec 32)}
    {service : Bytes} {rtt : BitVec 32} (b : Buffer) (id : RPCID) (priority : Priority)
    (now_us : BitVec 64) :
    credit_request_rtt config last_rtt_us service = .ok rtt
      ↔ config.get_pool service = .ok () ∧ last_rtt_us.get service = .ok rtt
        ∧ ∃ req, write_credit_request b service 1 id priority now_us rtt = .ok req := by
  -- The two size checks of the writer come down to one bound on the name.
  have hwrites : (∃ req, write_credit_request b service 1 id priority now_us rtt = .ok req)
      ↔ headerSize + service.length < udpBufferLength := by
    constructor
    · rintro ⟨req, hreq⟩
      have hholds := Buffer.write_credit_request_spec hreq
      exact hholds.filled ▸ req.filled_lt
    · exact Buffer.write_credit_request_ok b 1 id priority now_us rtt
  rw [hwrites]
  unfold credit_request_rtt
  constructor
  · intro h
    obtain ⟨_, hpool, h⟩ := bind_eq_ok.mp h
    split_ifs at h with hsize hfilled
    · obtain ⟨_, -, h⟩ := bind_eq_ok.mp h
      cases h
    · obtain ⟨last_rtt, hget, h⟩ := bind_eq_ok.mp h
      obtain rfl := Except.ok.inj h
      exact ⟨hpool, hget, not_le.mp hfilled⟩
  · rintro ⟨hpool, hget, hlen⟩
    rw [hpool, ok_bind, if_neg (by omega), hget, ok_bind, if_neg (by omega)]

/-- **`credit_post_process` on a mesh sidecar** takes a grant exactly if its service is routed, its
RTT is positive and can be stored, and its credits are those that were asked for. It changes nothing
but the RTT of the service. -/
theorem Mesh.credit_post_process_rtt {s s' : Mesh} {env : GrantEnv} {buf : Buffer}
    {r : Bytes × RPCID × ℕ} :
    s.credit_post_process env buf = .ok (r, s')
      ↔ ∃ m rtt last_rtt_us, read_credit_grant buf = .ok m ∧ m.service ∈ s.ppm_queue
        ∧ credit_rtt m env.now_us = .ok rtt ∧ s.last_rtt_us.set m.service rtt = .ok last_rtt_us
        ∧ m.requested = m.granted ∧ m.granted ≠ 0 ∧ r = (m.service, m.id, charToSize m.granted)
        ∧ s' = { s with last_rtt_us := last_rtt_us } := by
  unfold credit_post_process PPMQueue.check
  constructor
  · intro h
    obtain ⟨m, hread, h⟩ := bind_eq_ok.mp h
    obtain ⟨_, hcheck, h⟩ := bind_eq_ok.mp h
    split_ifs at hcheck with hline
    obtain ⟨rtt, hrtt, h⟩ := bind_eq_ok.mp h
    obtain ⟨last_rtt_us, hset, h⟩ := bind_eq_ok.mp h
    split_ifs at h with hrequested hzero
    obtain ⟨rfl, rfl⟩ := Prod.mk.inj (Except.ok.inj h)
    exact ⟨m, rtt, last_rtt_us, hread, hline, hrtt, hset, not_not.mp hrequested, hzero, rfl, rfl⟩
  · rintro ⟨m, rtt, last_rtt_us, hread, hline, hrtt, hset, hrequested, hzero, rfl, rfl⟩
    rw [hread, ok_bind, if_pos hline, ok_bind, hrtt, ok_bind, hset, ok_bind,
      if_neg (not_not.mpr hrequested), if_neg hzero]

/-! ## Exact RTTs -/

section Exact

variable {service : Bytes} {id : RPCID} {ts now enter leave : ℤ} {grant : Buffer} {rtt : BitVec 32}

/-- A mesh sidecar stores the RTT of the grant under its service, and leaves those of the
others. -/
theorem Granted.stored_mesh (h : Granted service id ts enter leave grant)
    (hlen : service.length ≤ 101) {m : GrantMessage} (hread : read_credit_grant grant = .ok m)
    (hrtt : credit_rtt m (micros now) = .ok rtt) {s : Mesh} {keys : List Bytes}
    (hhosts : s.last_rtt_us.Hosts keys) (hmem : service ∈ keys) (hline : service ∈ s.ppm_queue)
    {env : Mesh.GrantEnv} (hnow : env.now_us = micros now) :
    ∃ s', s.credit_post_process env grant = .ok ((service, id, 1), s')
      ∧ ∀ e ∈ keys, s'.last_rtt_us.get e = if e = service then .ok rtt
        else s.last_rtt_us.get e := by
  obtain ⟨m', hread', -, rfl, rfl, hrequested, hgranted⟩ := h.reads hlen
  obtain rfl := Except.ok.inj (hread.symm.trans hread')
  -- The map hosts the service, so the value is stored and no other entry changes.
  obtain ⟨last_rtt_us, hset⟩ := hhosts.modify_exists hmem fun _ => rtt
  obtain ⟨-, -, hlookup, -⟩ := hhosts.modify hset
  have hone : charToSize m.granted = 1 := by rw [hgranted]; rfl
  refine ⟨{ s with last_rtt_us := last_rtt_us }, ?_, fun e he => ?_⟩
  · rw [Mesh.credit_post_process_rtt]
    refine ⟨m, rtt, last_rtt_us, hread, hline, hnow ▸ hrtt, hset,
      hrequested.trans hgranted.symm, ?_, ?_, rfl⟩
    · rw [hgranted]; decide
    · rw [hone]
  · obtain ⟨old, hold⟩ := hhosts.found e he
    have hnew := hlookup e
    dsimp only
    split_ifs with hsame
    · rw [if_pos hsame, ← hsame, hold] at hnew
      exact LocalMap.get_eq_ok.mpr hnew
    · rw [if_neg hsame, hold] at hnew
      rw [LocalMap.get_eq_ok.mpr hnew, LocalMap.get_eq_ok.mpr hold]

/-- An ingress sidecar stores the RTT of the grant, of which it has one. -/
theorem Granted.stored_ingress (h : Granted service id ts enter leave grant)
    (hlen : service.length ≤ 101) {m : GrantMessage} (hread : read_credit_grant grant = .ok m)
    (hrtt : credit_rtt m (micros now) = .ok rtt) {n : ℕ} {w : IngressWorker n}
    (hservice : w.ingress.ingress_service = service) {env : IngressWorker.Env}
    (hnow : env.now_us = micros now) :
    w.credit_post_process env grant = .ok (1, { w with last_rtt_us := rtt }) := by
  obtain ⟨m', hread', -, hnamed, -, hrequested, hgranted⟩ := h.reads hlen
  obtain rfl := Except.ok.inj (hread.symm.trans hread')
  rw [IngressWorker.credit_post_process_eq_ok]
  refine ⟨m, rtt, hread, hnow ▸ hrtt, hrequested.trans hgranted.symm, ?_,
    hnamed.trans hservice.symm, ?_, rfl⟩
  · rw [hgranted]; decide
  · rw [hgranted]; rfl

end Exact

/-- A worker of the ingress of this service, without objects, for the concrete grants below. -/
def IngressWorker.idle (service : Bytes) : IngressWorker (0 + 0) :=
  { rpc_mapper := .create 0 0 (fun _ => .EGRESS) (fun _ => 0)
    http := fun rpc => rpc.elim0
    rpc_queue := fun _ _ => []
    local_id_counter := 1
    ingress := Ingress.init 2 1 service
    connections := fun _ => none
    pools := fun _ => none
    answers := []
    clients := ∅
    last_rtt_us := 0
    on_fly := []
    written := [] }

/-- **RTT arithmetic is exact** for a service whose name has at most 101 bytes, as long as the time
since the request and the time in the queue lie in the same span of 2³² microseconds. It overflows
for other times, and for a longer name the server reads outside of the request. -/
theorem rtt_exact_iff (service : Bytes) {ts now enter leave : ℤ} (hts : Reading ts)
    (hnow : Reading now) (henter : Reading enter) (hleave : Reading leave) (_horder : enter ≤ leave)
    (hpos : 0 < (now - ts) - (leave - enter)) (hlt : (now - ts) - (leave - enter) < 2 ^ 31) :
    RttExact service ts now enter leave
      ↔ service.length ≤ 101 ∧ SameSpan (now - ts) (leave - enter) := by
  have h26 : headerSize = 26 := rfl
  have h256 : udpBufferLength = 256 := rfl
  constructor
  · intro hexact
    have hlen := length_le_of_tells (hexact.told 0 (by decide))
    refine ⟨hlen, ?_⟩
    by_contra hspan
    -- any worker of the service serves
    obtain ⟨grant, hgrant⟩ := exists_granted service (by omega) 0 ts enter leave
    obtain ⟨rtt, hpost, -⟩ := hexact.ingress _ (.idle service) 0 grant ⟨none, .blank, micros now⟩
      rfl rfl hgrant
    obtain ⟨m, hread, hsays, -⟩ := hgrant.reads hlen
    obtain ⟨m', rtt', hread', hrtt, -⟩ := IngressWorker.credit_post_process_eq_ok.mp hpost
    obtain rfl := Except.ok.inj (hread.symm.trans hread')
    rw [credit_rtt_overflow hsays hts hnow henter hleave hpos hlt hspan] at hrtt
    cases hrtt
  · rintro ⟨hlen, hspan⟩
    have htells : ∀ {rtt : BitVec 32}, rtt.toInt = (now - ts) - (leave - enter) →
        Tells service rtt :=
      fun hvalue => tells_of_length_le hlen (by omega)
    constructor
    case told => exact fun last_rtt hrtt => tells_of_length_le hlen hrtt
    case mesh =>
      intro s keys id grant env hhosts hmem hline hclock hgrant
      obtain ⟨m, hread, hsays, -⟩ := hgrant.reads hlen
      obtain ⟨rtt, hrtt, hvalue⟩ := credit_rtt_eq hsays hts hnow henter hleave hpos hlt hspan
      obtain ⟨s', hpost, hget⟩ := hgrant.stored_mesh hlen hread hrtt hhosts hmem hline hclock
      refine ⟨rtt, s', hpost, hvalue, hget, fun config hpool => ?_, htells hvalue⟩
      obtain ⟨req, hreq, -⟩ := htells hvalue .blank .blank 0 0 0 ⟨0, 0⟩
      exact (Mesh.credit_request_rtt_eq_ok .blank 0 0 0).mpr
        ⟨hpool, (hget service hmem).trans (if_pos rfl), req, hreq⟩
    case ingress =>
      intro n w id grant env hservice hclock hgrant
      obtain ⟨m, hread, hsays, -⟩ := hgrant.reads hlen
      obtain ⟨rtt, hrtt, hvalue⟩ := credit_rtt_eq hsays hts hnow henter hleave hpos hlt hspan
      exact ⟨rtt, hgrant.stored_ingress hlen hread hrtt hservice hclock, hvalue, htells hvalue⟩

/-- A wait of 35 minutes, and an RTT of 10 microseconds: the times do not fit into 32 bits, but lie
in one span. -/
theorem rtt_exact_long_wait : RttExact [115] 0 2100000010 5000 2100005000 :=
  (rtt_exact_iff [115] (by decide) (by decide) (by decide) (by decide) (by decide) (by decide)
    (by decide)).mpr (by decide)

/-- After 2³¹ - 1 microseconds in the queue, 10 more overflow: the two times are in different
spans. -/
theorem rtt_overflow : ¬ ∀ ts now enter leave : ℤ, Reading ts → Reading now → Reading enter →
    Reading leave → enter ≤ leave → 0 < (now - ts) - (leave - enter) →
    (now - ts) - (leave - enter) < 2 ^ 31 → RttExact [115] ts now enter leave := by
  intro hall
  have hexact := hall 0 (2 ^ 31 + 9) 0 (2 ^ 31 - 1) (by decide) (by decide) (by decide) (by decide)
    (by decide) (by decide) (by decide)
  obtain ⟨grant, hgrant⟩ := exists_granted [115] (by decide) 0 0 0 (2 ^ 31 - 1)
  obtain ⟨rtt, hpost, -⟩ := hexact.ingress _ (.idle [115]) 0 grant
    ⟨none, .blank, micros (2 ^ 31 + 9)⟩ rfl rfl hgrant
  obtain ⟨m, hread, hsays, -⟩ := hgrant.reads (by decide)
  obtain ⟨m', rtt', hread', hrtt, -⟩ := IngressWorker.credit_post_process_eq_ok.mp hpost
  obtain rfl := Except.ok.inj (hread.symm.trans hread')
  rw [credit_rtt_overflow hsays (by decide) (by decide) (by decide) (by decide) (by decide)
    (by decide) (by decide)] at hrtt
  cases hrtt

end RlpSidecar
