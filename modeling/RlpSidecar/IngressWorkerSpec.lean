/-
What the operations of an ingress worker do (`state.cc`, `ingress.cc`, `connection.cc`): to the
registry, and to the requests that wait.

The ledger says which requests are open. An operation opens one, which then waits or has been
dropped; or sends the first of those that wait; or closes one that has its response. What it does
not handle it leaves as it is, with its id, its priority and its text.

The handlers of the worker are those of the upstream half and those for its clients, so
`Orderly.frame` is used throughout: what happens at a client may open and close requests, but
touches none that was sent over a connection. `Reply`, `Asks` and `Requested` say what an answer
and a Credit Request are about.
-/
import RlpSidecar.IngressWorker

set_option autoImplicit false

open Runs Tables

namespace RlpSidecar

variable {n : ℕ}

/-! ## A grant is read -/

/-- **`credit_post_process`** takes a grant exactly if its RTT is positive, its credits are those
that were asked for, at least one, and it names the service of the worker. It changes nothing but
the RTT. -/
theorem IngressWorker.credit_post_process_eq_ok {env : Env} {buf : Buffer}
    {w w' : IngressWorker n} {num_credits : ℕ} :
    w.credit_post_process env buf = .ok (num_credits, w')
      ↔ ∃ m rtt, read_credit_grant buf = .ok m ∧ credit_rtt m env.now_us = .ok rtt
        ∧ m.requested = m.granted
        ∧ m.granted ≠ 0 ∧ m.service = w.ingress.ingress_service ∧ num_credits = charToSize m.granted
        ∧ w' = { w with last_rtt_us := rtt } := by
  unfold credit_post_process
  constructor
  · intro h
    obtain ⟨m, hread, h⟩ := bind_eq_ok.mp h
    obtain ⟨rtt, hrtt, h⟩ := bind_eq_ok.mp h
    split_ifs at h with hrequested hzero hservice
    obtain ⟨rfl, rfl⟩ := Prod.mk.inj (Except.ok.inj h)
    exact ⟨m, rtt, hread, hrtt, not_not.mp hrequested, hzero, (not_not.mp hservice).symm, rfl, rfl⟩
  · rintro ⟨m, rtt, hread, hrtt, hrequested, hzero, hservice, rfl, rfl⟩
    rw [hread, ok_bind, hrtt, ok_bind, if_neg (not_not.mpr hrequested), if_neg hzero,
      if_neg (not_not.mpr hservice.symm)]

/-! ## A request is read -/

namespace Traffic.Coherent

variable {config : TrafficConfig} {t : Traffic n} {L : Ledger} {k : StreamKey} {rpc : Fin n}

/-- Headers are read into the object of a request that is being received. -/
theorem modify (h : Coherent config (t, L)) {http : HTTP}
    (hk : L.request k = some ⟨http, .receiving⟩) (hds : t.rpc_mapper.find_ds k = some rpc)
    {msg : RPCMessage} (hhttp : msg.http = (t.rpc_mapper.heap rpc).http)
    (hkey : (msg.type, msg.ds_fd, msg.ds_stream_id) = t.rpc_mapper.ds_key rpc)
    (herror : msg.error = true → (t.rpc_mapper.heap rpc).http = .HTTP1) (counter : RPCID) :
    Coherent config
      ({ t with rpc_mapper := t.rpc_mapper.modify rpc fun _ => msg, local_id_counter := counter },
        L) := by
  obtain ⟨hlive, hrpc⟩ := (h.tracks.ds k rpc).mp hds
  have hunsent : L.upstream (t.rpc_mapper.ds_key rpc) = none := by
    rw [hrpc, upstream_of_request hk]
    rfl
  exact ⟨h.ledger, h.tracks.modify (f := fun _ => msg) hlive hunsent hhttp hkey fun herr =>
    .inl (herror herr), h.drop_id,
    h.answers⟩

/-- A request is complete. -/
theorem ready (h : Coherent config (t, L)) {http : HTTP}
    (hk : L.request k = some ⟨http, .receiving⟩) :
    Coherent config (t, L.set k (some ⟨http, .ready⟩)) :=
  ⟨h.ledger.set fun us hus => by simp [OpenRequest.upstream?] at hus, h.tracks.relabel hk rfl rfl,
    h.drop_id, h.answers⟩

end Traffic.Coherent

namespace HTTP1Connection

/-- What making an RPC of a request does to the registry. -/
theorem make_rpc_registry {config : HttpConfig} {c c' : HTTP1Connection n}
    {w w' : HttpWorker n} {r : PicoHttp.Request} {rpc : Fin n}
    (h : c.make_rpc config w r = .ok (rpc, c', w')) :
    ∃ m msg, w.rpc_mapper.allocate_rpc c.type (c.last_id + 1) c.fd .HTTP1 = .ok m
      ∧ m.find_ds (c.type, c.fd, c.last_id + 1) = some rpc ∧ w'.rpc_mapper
        = m.modify rpc (fun _ => msg)
      ∧ msg.http = (m.heap rpc).http ∧ (msg.type, msg.ds_fd, msg.ds_stream_id) = m.ds_key rpc := by
  unfold make_rpc at h
  obtain ⟨last_id, hnext, h⟩ := bind_eq_ok.mp h
  unfold next_id at hnext
  split_ifs at hnext with hlimit
  obtain rfl := Except.ok.inj hnext
  dsimp only at h
  obtain ⟨m, hallocate, h⟩ := bind_eq_ok.mp h
  obtain ⟨rpc', hfound, h⟩ := bind_eq_ok.mp h
  obtain ⟨⟨m₁, counter⟩, hheaders, h⟩ := bind_eq_ok.mp h
  -- Storing the headers leaves the fields that the mapper keys the message by.
  have hstream := (add_request_headers_spec hheaders).stream
  dsimp only at h
  obtain ⟨m₂, hservice, h⟩ := bind_eq_ok.mp h
  unfold HTTPMessage.set_service at hservice
  split at hservice
  · cases hservice
  rename_i service htarget
  obtain rfl := Except.ok.inj hservice
  cases h
  refine ⟨m, _, hallocate, RPCMapper.get_ds_rpc_eq_ok.mp hfound, rfl, hstream.http, ?_⟩
  unfold RPCMapper.ds_key
  dsimp only
  rw [hstream.type, hstream.ds_fd, hstream.ds_stream_id]
  rfl

end HTTP1Connection

namespace HttpWorker

/-- What admitting a request does to the registry; or else it is dropped. -/
theorem ingress_enqueue_registry {config : IdConfig} {w w' : HttpWorker n} {rpc : Fin n}
    (h : w.ingress_enqueue config rpc = .ok w') :
    (w.Queued rpc w'
        ∧ w'.ingress = { w.ingress with last_rpc_id := w.ingress.last_rpc_id + 1,
                                        queue := w.ingress.queue ++ [rpc] }
        ∧ ∃ msg, w'.rpc_mapper = w.rpc_mapper.modify rpc (fun _ => msg)
        ∧ SameStream (w.rpc_mapper.heap rpc) msg)
      ∨ w.Declined rpc w' ∧ w.drop_rpc rpc = .ok w' := by
  unfold ingress_enqueue at h
  split_ifs at h with hservice hfull
  · exact .inr ⟨(drop_rpc_spec h hfull).1, h⟩
  · obtain ⟨⟨m₁, counter₁, ingress⟩, hfirst, h⟩ := bind_eq_ok.mp h
    obtain ⟨⟨m₂, counter₂⟩, hsecond, h⟩ := bind_eq_ok.mp h
    obtain rfl := Except.ok.inj h
    -- The two headers that the edge puts in front, the RPC's id and its priority.
    unfold Ingress.add_rpc_id_header at hfirst
    obtain ⟨⟨m₃, counter₃⟩, hid, hfirst⟩ := bind_eq_ok.mp hfirst
    obtain ⟨rfl, hrest⟩ := Prod.mk.inj (Except.ok.inj hfirst)
    obtain ⟨rfl, rfl⟩ := Prod.mk.inj hrest
    unfold Ingress.add_priority_header at hsecond
    rw [Message.add_http_header_eq] at hid
    obtain ⟨⟨ids₁, headers₁, c₁⟩, hstore₁, hid⟩ := bind_eq_ok.mp hid
    obtain ⟨rfl, rfl⟩ := Prod.mk.inj (Except.ok.inj hid)
    rw [Message.add_http_header_eq] at hsecond
    obtain ⟨⟨ids₂, headers₂, c₂⟩, hstore₂, hsecond⟩ := bind_eq_ok.mp hsecond
    obtain ⟨rfl, rfl⟩ := Prod.mk.inj (Except.ok.inj hsecond)
    exact .inl ⟨⟨by omega, rfl, rfl, rfl⟩, rfl, _, rfl,
      (store_stream hstore₁).1.trans (store_stream hstore₂).1⟩

/-- The part of a worker that `Traffic` is about. -/
def traffic (answers : List (StreamKey × ℤ × ℤ)) (w : HttpWorker n) : Traffic n :=
  { rpc_mapper := w.rpc_mapper
    local_id_counter := w.local_id_counter
    drop_id := w.ingress.drop_id
    answers := answers }

/-- A drop is the event of the registry. -/
theorem drop_rpc_handle {config : TrafficConfig} {w w' : HttpWorker n} {rpc : Fin n} {ds : ℤ × ℤ}
    (answers : List (StreamKey × ℤ × ℤ))
    (hservice : w.ingress.ingress_service = config.ingress_service)
    (hfd : w.ingress.drop_fd = config.drop_fd) (hds : w.rpc_mapper.find_ds (.EGRESS, ds) = some rpc)
    (h : w.drop_rpc rpc = .ok w') :
    (w.traffic answers).handle config (.drop_rpc ds.1 ds.2) = .ok (w'.traffic answers)
      ∧ w'.ingress = { w.ingress with drop_id := w.ingress.drop_id + 1 } := by
  unfold drop_rpc HttpCalls.cast_http at h
  obtain ⟨_, hkind, h⟩ := bind_eq_ok.mp h
  split_ifs at hkind with hhttp
  split_ifs at h with hmismatch
  obtain ⟨m, hroute, h⟩ := bind_eq_ok.mp h
  obtain rfl := Except.ok.inj h
  refine ⟨?_, rfl⟩
  have hget : w.rpc_mapper.get_ds_rpc .EGRESS ds.2 ds.1 = .ok rpc :=
    RPCMapper.get_ds_rpc_eq_ok.mpr hds
  rw [hfd] at hroute
  unfold Traffic.handle Traffic.drop_rpc traffic
  dsimp only
  rw [hget, ok_bind, if_neg (not_not.mpr hhttp), ← hservice, if_neg hmismatch, hroute]
  rfl

end HttpWorker

namespace HTTP1Connection

section Accept

variable {config : UpstreamConfig} {c c' : HTTP1Connection n} {w w' : HttpWorker n}
    {L : Ledger} {r : PicoHttp.Request}
  {answers : List (StreamKey × ℤ × ℤ)}

/-- The stream of the next request of a connection. -/
def next_key (c : HTTP1Connection n) : StreamKey := (.EGRESS, c.fd, c.last_id + 1)

/-- **A request of a client** opens an entry of the ledger. It waits, or it has been dropped, and
then it counts as sent on the stream that was made up for it. -/
theorem accept_request_coherent (hedge : config.ids.is_ingress = true)
    (hrole : config.is_frontend = false)
    (hservice : w.ingress.ingress_service = config.ingress_service)
    (hfd : w.ingress.drop_fd = config.drop_fd) (hdrops : w.ingress.drop_id.toNat + 1 < 2 ^ 31)
    (htype : c.type = .EGRESS)
    (hcoherent : Traffic.Coherent config.toTrafficConfig (w.traffic answers, L))
    (h : c.accept_request ⟨config.ids, config.is_frontend⟩ w r = .ok (c', w')) :
    ∃ rpc, L.request c.next_key = none ∧ c.Taken w rpc w'
      ∧ (w.Queued rpc w'
          ∧ w'.ingress = { w.ingress with last_rpc_id := w.ingress.last_rpc_id + 1,
                                          queue := w.ingress.queue ++ [rpc] }
          ∧ Traffic.Coherent config.toTrafficConfig
            (w'.traffic answers, L.set c.next_key (some ⟨.HTTP1, .ready⟩))
        ∨ w.Declined rpc w' ∧ w'.ingress = { w.ingress with drop_id := w.ingress.drop_id + 1 }
          ∧ ∃ us L', us.1 = config.drop_fd ∧ us = (w.ingress.drop_fd, (w.ingress.drop_id + 1).toInt)
            ∧ L'.request = Function.update L.request c.next_key (some ⟨.HTTP1, .forwarded us⟩)
            ∧ L'.routes = (c.next_key, us) :: L.routes
            ∧ Traffic.Coherent config.toTrafficConfig (w'.traffic answers, L')) := by
  rw [accept_request_eq] at h
  obtain ⟨⟨rpc, c₁, w₁⟩, hmake, h⟩ := bind_eq_ok.mp h
  obtain ⟨rfl, -, hnew, -, -, -, hallocated⟩ := make_rpc_spec hmake
  obtain ⟨m, msg, hallocate, hfound, hmapper, hhttp, hkey⟩ := make_rpc_registry hmake
  rw [give_rpc_edge hedge hrole (by exact htype)] at h
  obtain ⟨w₂, henqueue, h⟩ := bind_eq_ok.mp h
  split_ifs at h
  obtain ⟨-, rfl⟩ := Prod.mk.inj (Except.ok.inj h)
  rw [htype] at hallocate hfound hnew
  -- for the registry, a stream begins here, and is complete or dropped in the same handler
  have hbegin : (w.traffic answers).handle config.toTrafficConfig (.begin_headers c.next_key .HTTP1)
      = .ok { w.traffic answers with rpc_mapper := m } := by
    unfold Traffic.handle HttpWorker.traffic next_key
    dsimp only
    rw [hallocate]
    rfl
  have hopen : L.request c.next_key = none := hcoherent.begin_headers hbegin
  have hk : (L.set c.next_key (some ⟨.HTTP1, .receiving⟩)).request c.next_key
      = some ⟨.HTTP1, .receiving⟩ :=
    Function.update_self _ _ _
  have hbegun : Traffic.Coherent config.toTrafficConfig
      ({ w.traffic answers with rpc_mapper := m }, L.set c.next_key (some ⟨.HTTP1, .receiving⟩)) :=
    Traffic.step_coherent hcoherent ⟨hbegin, .begin_headers _ _⟩
  have hkind : (m.heap rpc).http = .HTTP1 := by
    obtain ⟨hlive, hrpc⟩ := (hbegun.tracks.ds _ rpc).mp hfound
    exact (hbegun.tracks.kind rpc ⟨.HTTP1, .receiving⟩ hlive (by rw [hrpc]; exact hk)).1
  have hmade : Traffic.Coherent config.toTrafficConfig
      (w₁.traffic answers, L.set c.next_key (some ⟨.HTTP1, .receiving⟩)) := by
    have hmodified := hbegun.modify hk hfound hhttp hkey (fun _ => hkind) w₁.local_id_counter
    unfold HttpWorker.traffic at hmodified ⊢
    rw [hmapper, hallocated.ingress]
    exact hmodified
  have hfound₁ : w₁.rpc_mapper.find_ds c.next_key = some rpc := by
    rw [hallocated.find_ds, htype]
    exact Function.update_self _ _ _
  have hkind₁ : (w₁.rpc_mapper.heap rpc).http = .HTTP1 := by
    rw [hmapper, RPCMapper.modify_heap, if_pos rfl]
    exact hhttp.trans hkind
  have hset (phase : Phase) : (L.set c.next_key (some ⟨.HTTP1, .receiving⟩)).set
      c.next_key (some ⟨.HTTP1, phase⟩)
      = L.set c.next_key (some ⟨.HTTP1, phase⟩) := by
    unfold Ledger.set
    dsimp only
    rw [Function.update_idem]
  refine ⟨rpc, hopen, taken_of_enqueue htype hmake henqueue, ?_⟩
  rcases HttpWorker.ingress_enqueue_registry henqueue with ⟨hqueued, hingress,
    msg₂, hmapper₂, hstream⟩ | ⟨hdeclined, hdrop⟩
  · -- there was room in the queue
    rw [hallocated.ingress] at hingress
    refine .inl ⟨?_, hingress, ?_⟩
    · rcases (taken_of_enqueue htype hmake henqueue).outcome with hqueued' | hdeclined
      · exact hqueued'
      · exact absurd hqueued.room (by rw [hallocated.ingress]; exact Nat.not_lt.mpr hdeclined.full)
    · have hmodified := hmade.modify hk hfound₁ hstream.http
        (by unfold RPCMapper.ds_key HttpWorker.traffic; dsimp only; rw [hstream.type,
          hstream.ds_fd, hstream.ds_stream_id])
        (fun _ => hkind₁) w₂.local_id_counter
      have hready := hmodified.ready hk
      rw [hset] at hready
      unfold HttpWorker.traffic at hready ⊢
      rw [hmapper₂, hingress]
      rw [hallocated.ingress] at hready
      exact hready
  · have hservice₁ : w₁.ingress.ingress_service = config.toTrafficConfig.ingress_service := by
      rw [hallocated.ingress]
      exact hservice
    have hfd₁ : w₁.ingress.drop_fd = config.toTrafficConfig.drop_fd := by
      rw [hallocated.ingress]
      exact hfd
    obtain ⟨hhandle, hingress⟩ := HttpWorker.drop_rpc_handle answers hservice₁ hfd₁
      (show w₁.rpc_mapper.find_ds (.EGRESS, c.fd, c.last_id + 1) = some rpc from hfound₁) hdrop
    -- the counter of the drops is their number
    have hcount : w.ingress.drop_id = BitVec.ofNat 32 L.drops := hcoherent.drop_id
    have hnumber : L.drops + 1 < 2 ^ 32 - 2 := by
      have hlt := hcoherent.ledger.drops
      dsimp only at hlt
      rw [hcount, BitVec.toNat_ofNat, Nat.mod_eq_of_lt hlt] at hdrops
      omega
    have hledger :=
      @Ledger.Step.drop_rpc config.toTrafficConfig (L.set c.next_key (some ⟨.HTTP1, .receiving⟩))
      (c.fd, c.last_id + 1) .HTTP1 hk hnumber
    have hstep := Traffic.step_coherent hmade
      (show Traffic.Step config.toTrafficConfig _ _ (w₂.traffic answers, _) from ⟨hhandle, hledger⟩)
    refine .inr ⟨?_, ?_, _, _, rfl, ?_, ?_, rfl, hstep⟩
    · rcases (taken_of_enqueue htype hmake henqueue).outcome with hqueued | hdeclined'
      · exact absurd hqueued.room
          (by rw [← hallocated.ingress]; exact Nat.not_lt.mpr hdeclined.full)
      · exact hdeclined'
    · rw [hingress, hallocated.ingress]
    · unfold Ledger.dropStream
      rw [hfd, hcount, BitVec.ofNat_add]
      rfl
    · exact congrArg Ledger.request (hset _)

end Accept

/-- A read of a client's bytes leaves the worker alone, and of the connection what it says about
its requests, or it makes an RPC of the request. -/
theorem http_read_client {parser : HttpParser} {config : HttpConfig} {c : HTTP1Connection n}
    {w : HttpWorker n} {data : Bytes} {x : HttpRead n} (hdirection : c.direction = .DOWNSTREAM)
    (h : c.http_read parser config data w = .ok x) :
    (∃ c', (x = .returned c' w ∨ x = .thrown c' w) ∧ (c'.fd, c'.type, c'.direction)
        = (c.fd, c.type, c.direction)
      ∧ (c'.idle, c'.last_id, c'.rpc_message) = (c.idle, c.last_id, c.rpc_message))
      ∨ ∃ r c' w', x = .returned c' w' ∧ (c.fill data).accept_request config w r
        = .ok (c', w') := by
  by_cases hnil : data = []
  · unfold http_read at h
    rw [if_pos (by rw [hnil, List.length_nil])] at h
    obtain rfl := Except.ok.inj h
    exact .inl ⟨c, .inl rfl, rfl, rfl⟩
  by_cases hfits : c.buf.length + data.length ≤ http1BufSize
  · rw [http_read_downstream parser config w hdirection hnil hfits] at h
    unfold read_request at h
    dsimp only at h
    split at h
    · obtain rfl := Except.ok.inj h
      exact .inl ⟨_, .inl rfl, rfl, rfl⟩
    · -- a bad head, which ends the process anywhere but at the edge
      split_ifs at h
      obtain rfl := Except.ok.inj h
      exact .inl ⟨_, .inr rfl, rfl, rfl⟩
    · -- a head with a body, or for another service; or the request is accepted
      obtain ⟨number, -, h⟩ := bind_eq_ok.mp h
      split_ifs at h
      · obtain rfl := Except.ok.inj h
        exact .inl ⟨_, .inr rfl, rfl, rfl⟩
      · obtain rfl := Except.ok.inj h
        exact .inl ⟨_, .inr rfl, rfl, rfl⟩
      · obtain ⟨⟨c', w'⟩, haccept, h⟩ := bind_eq_ok.mp h
        obtain rfl := Except.ok.inj h
        rw [accept_request_buf] at haccept
        exact .inr ⟨_, c', w', rfl, haccept⟩
  · have hpos : 0 < data.length := List.length_pos_iff.mpr hnil
    unfold http_read at h
    rw [if_neg (by omega), if_pos (by omega)] at h
    cases h

end HTTP1Connection

/-! ## Requests are sent -/

namespace HttpUpstreams

section Frame

variable {config : UpstreamConfig} {s s' : HttpUpstreams n} {L L' : Ledger}
    {ts : HttpUpstreams.Run n}

/-- **The frame rule** of the upstream half: what happens elsewhere may open and close requests,
but none that was sent over one of its connections, and may only take responses out of the
queues. -/
theorem Orderly.frame (h : Orderly config (s, L) ts)
    (hcoherent : Traffic.Coherent config.toTrafficConfig (s'.traffic, L'))
    (hconnections : s'.connections = s.connections) (hpools : s'.pools = s.pools)
    (hroutes : ∀ k us, 0 < us.1 → ((k, us) ∈ L'.routes ↔ (k, us) ∈ L.routes))
    (hqueue : ∀ type fd, 0 < fd → ((s'.rpc_queue type .UPSTREAM).filter fun x => x.1 = fd).Sublist
      ((s.rpc_queue type .UPSTREAM).filter fun x => x.1 = fd))
    (hrequest : ∀ k http us, 0 < us.1 → L.request k = some ⟨http, .forwarded us⟩ →
      L'.request k = some ⟨http, .forwarded us⟩) : Orderly config (s', L') ts := by
  refine ⟨hcoherent, ?_, ?_⟩
  · intro fd c hc
    dsimp only at hc
    rw [hconnections] at hc
    have hpaired := h.paired fd c hc
    exact hpaired.carry rfl rfl (fun k us => hroutes k (fd, us) hpaired.real) ⟨rfl, rfl, rfl⟩
      (hqueue c.type fd hpaired.real) fun k http us hk _ => hrequest k http (fd, us) hpaired.real hk
  · dsimp only
    rw [hpools, hconnections]
    exact h.pools

/-- Over a connection of this type, sending leaves the objects alone, but for where they were
sent. -/
theorem forward_request_egress {k : StreamKey} {fd us_stream_id : ℤ} {text : Bytes}
    {c : HTTP1Connection n} (hc : s.connections fd = some c) (htype : c.type = .EGRESS)
    (h : s.forward_request config k fd = .ok (us_stream_id, text, s')) :
    ∃ rpc, s.rpc_mapper.find_ds k = some rpc ∧ text = HTTP1Connection.request_text (s.http rpc)
      ∧ s'.http = s.http ∧ s'.pools = s.pools
      ∧ s'.ingress = s.ingress ∧ s'.rpc_mapper.find_ds = s.rpc_mapper.find_ds
      ∧ s'.rpc_mapper.heap rpc
        = { s.rpc_mapper.heap rpc with us_fd := fd, us_stream_id := us_stream_id }
      ∧ ∀ a, a ≠ rpc → s'.rpc_mapper.heap a = s.rpc_mapper.heap a := by
  unfold forward_request at h
  obtain ⟨rpc, hrpc, h⟩ := bind_eq_ok.mp h
  rw [hc] at h
  dsimp only at h
  obtain ⟨s₁, hadd, h⟩ := bind_eq_ok.mp h
  unfold add_local_id at hadd
  rw [htype] at hadd
  obtain rfl := Except.ok.inj hadd
  obtain ⟨⟨us, c₁⟩, hsubmit, h⟩ := bind_eq_ok.mp h
  obtain ⟨t, hforward, h⟩ := bind_eq_ok.mp h
  obtain ⟨⟨text', c₂⟩, hwrite, h⟩ := bind_eq_ok.mp h
  obtain ⟨rfl, hrest⟩ := Prod.mk.inj (Except.ok.inj h)
  obtain ⟨rfl, rfl⟩ := Prod.mk.inj hrest
  -- the request that was submitted is the one that is written
  unfold HTTP1Connection.submit_request at hsubmit
  obtain ⟨-, -, hsubmit⟩ := bind_eq_ok.mp hsubmit
  split_ifs at hsubmit
  obtain ⟨last_id, -, hsubmit⟩ := bind_eq_ok.mp hsubmit
  obtain ⟨-, rfl⟩ := Prod.mk.inj (Except.ok.inj hsubmit)
  unfold HTTP1Connection.http_write_request at hwrite
  dsimp only at hwrite
  split_ifs at hwrite
  obtain ⟨rfl, -⟩ := Prod.mk.inj (Except.ok.inj hwrite)
  -- the registry files it
  unfold Traffic.forward_request traffic at hforward
  obtain ⟨rpc', hrpc', hforward⟩ := bind_eq_ok.mp hforward
  obtain rfl := Except.ok.inj (hrpc.symm.trans hrpc')
  dsimp only at hforward
  split_ifs at hforward
  obtain ⟨m, hroute, hforward⟩ := bind_eq_ok.mp hforward
  obtain rfl := Except.ok.inj hforward
  obtain ⟨-, -, -, hds, hheap, -⟩ := RPCMapper.route_frame hroute
  refine ⟨rpc, RPCMapper.get_ds_rpc_eq_ok.mp hrpc, rfl, rfl, rfl, rfl, hds, ?_, ?_⟩
  · rw [set_connection, set_traffic]
    dsimp only
    rw [hheap, RPCMapper.modify_modify, RPCMapper.modify_heap, if_pos rfl]
  · intro a ha
    rw [set_connection, set_traffic]
    dsimp only
    rw [hheap, RPCMapper.modify_modify, RPCMapper.modify_heap, if_neg ha]

end Frame

end HttpUpstreams

/-! ## Responses go back, and credits are asked for -/

/-- A client whose connection can be forgotten has no request. -/
theorem RPCMapper.find_ds_none {m : RPCMapper n} {type : ConnectionType} {fd : ℤ}
    (h : m.check_fd_exists type fd false = false) (stream_id : ℤ) :
    m.find_ds (type, fd, stream_id) = none := by
  unfold check_fd_exists at h
  unfold find_ds Nested.find
  dsimp only at h ⊢
  rw [if_neg Bool.false_ne_true] at h
  cases hlookup : (m.ds_map type).lookup fd with
  | none => rfl
  | some streams =>
      rw [hlookup] at h
      dsimp only at h
      have hnil : streams.entries = [] :=
        List.length_eq_zero_iff.mp (Nat.eq_zero_of_not_pos (of_decide_eq_false h))
      rw [Option.bind_some]
      unfold AList.lookup
      rw [hnil]
      rfl

namespace IngressWorker

/-- What is to be written for the response on an upstream stream: the text of the response that is
stored for the request sent there (or the 503 of one that was dropped), on the stream that the
request came from. -/
def Reply (config : UpstreamConfig) (w : HttpUpstreams n) (src : ℤ × ℤ)
    (x : StreamKey × Bytes) : Prop :=
  ∃ rpc, w.rpc_mapper.find_us (.EGRESS, src) = some rpc ∧ x.1 = w.rpc_mapper.ds_key rpc
    ∧ HTTP1Connection.response_text config.buffer_size (w.message rpc) = .ok x.2

/-- What sending a response to its client does. -/
structure Returned (config : UpstreamConfig) (src : ℤ × ℤ) (rpc : Fin n)
    (w w' : IngressWorker n) : Prop where
  found : w.rpc_mapper.find_us (.EGRESS, src) = some rpc
  written : ∃ x, Reply config w.toHttpUpstreams src x ∧ w'.written = w.written ++ [x]
  handled : w.toHttpUpstreams.traffic.handle config.toTrafficConfig
    (.forward_response .EGRESS src.1 src.2 false (w.ingress.queue.count rpc))
      = .ok w'.toHttpUpstreams.traffic
  frame : w'.connections = w.connections ∧ w'.pools = w.pools ∧ w'.rpc_queue = w.rpc_queue
    ∧ w'.ingress = w.ingress
    ∧ w'.on_fly = w.on_fly
  find_ds : w'.rpc_mapper.find_ds = Function.update w.rpc_mapper.find_ds
    (w.rpc_mapper.ds_key rpc) none
  others : ∀ a, a ≠ rpc → w'.http a = w.http a ∧ w'.rpc_mapper.heap a = w.rpc_mapper.heap a
  returns : (w'.rpc_mapper.heap rpc).credit_return_queue = []
  clients : ∃ c c', w.clients.lookup (w.rpc_mapper.heap rpc).ds_fd = some c
    ∧ (c'.fd, c'.type, c'.direction) = (c.fd, c.type, c.direction) ∧ c'.rpc_message = none
    ∧ w'.clients = w.clients.insert (w.rpc_mapper.heap rpc).ds_fd c'

/-- A response is written on the connection of its client, and the object of the request goes back
to the pool. -/
theorem forward_response_spec {config : UpstreamConfig} {src : ℤ × ℤ} {w w' : IngressWorker n}
    (hclients : ∀ fd c, w.clients.lookup fd = some c → c.type = .EGRESS)
    (htype : ∀ rpc, w.rpc_mapper.find_us (.EGRESS, src) = some rpc →
      (w.rpc_mapper.heap rpc).type = .EGRESS)
    (h : w.forward_response config src = .ok w') : ∃ rpc, Returned config src rpc w w' := by
  unfold forward_response at h
  obtain ⟨rpc, hrpc, h⟩ := bind_eq_ok.mp h
  have hfound := RPCMapper.get_us_rpc_eq_ok.mp hrpc
  dsimp only at h
  split at h
  · cases h
  rename_i conn hconn
  split_ifs at h
  obtain ⟨conn₁, hsubmit, h⟩ := bind_eq_ok.mp h
  obtain ⟨⟨text, conn₂, calls⟩, hwrite, h⟩ := bind_eq_ok.mp h
  obtain rfl := Except.ok.inj h
  unfold HTTP1Connection.submit_response HttpCalls.cast_http at hsubmit
  obtain ⟨_, hcast, hsubmit⟩ := bind_eq_ok.mp hsubmit
  split_ifs at hcast with hhttp
  split_ifs at hsubmit
  obtain rfl := Except.ok.inj hsubmit
  unfold HTTP1Connection.http_write_response at hwrite
  dsimp only at hwrite
  obtain ⟨text', htext, hwrite⟩ := bind_eq_ok.mp hwrite
  split_ifs at hwrite
  obtain ⟨m, -, hwrite⟩ := bind_eq_ok.mp hwrite
  obtain ⟨rpc_mapper, hremove, hwrite⟩ := bind_eq_ok.mp hwrite
  obtain ⟨rfl, hrest⟩ := Prod.mk.inj (Except.ok.inj hwrite)
  obtain ⟨rfl, rfl⟩ := Prod.mk.inj hrest
  rw [hclients _ _ hconn] at hremove
  obtain ⟨-, hds, -, m₁, hfree, hheap, -⟩ := RPCMapper.remove_rpc_spec hremove (htype rpc hfound)
  have hkey : (ConnectionType.EGRESS, (w.rpc_mapper.heap rpc).ds_fd,
      (w.rpc_mapper.heap rpc).ds_stream_id)
      = w.rpc_mapper.ds_key rpc := Prod.ext (htype rpc hfound).symm rfl
  obtain ⟨-, -, -, ⟨msg, hmsg, -, -, hreturns⟩, -⟩ := RPCMapper.free_rpc_spec hfree
  refine ⟨rpc, hfound, ⟨_, ⟨rpc, hfound, hkey, htext⟩, rfl⟩, ?_, ⟨rfl, rfl, rfl, rfl, rfl⟩, hds, ?_,
    ?_, ⟨conn, { conn with rpc_message := none, idle := true }, hconn, rfl, rfl, rfl⟩⟩
  · -- nothing has failed, so the object is as it was
    have hsame : w.rpc_mapper.modify rpc (fun msg => { msg with error := msg.error || false })
        = w.rpc_mapper :=
      RPCMapper.modify_same (by rw [Bool.or_false])
    unfold Traffic.handle Traffic.forward_response HttpUpstreams.traffic
    dsimp only
    rw [hrpc, ok_bind, hsame, if_pos (.inr hhttp), hremove]
    rfl
  · intro a ha
    refine ⟨Function.update_of_ne ha _ _, ?_⟩
    show rpc_mapper.heap a = _
    rw [hmsg, hheap, Function.update_of_ne ha]
  · show (rpc_mapper.heap rpc).credit_return_queue = []
    rw [hmsg, Function.update_self]
    exact hreturns

/-- The request goes out over the connection that `route_request` finds. -/
theorem send_sub_request_here {config : UpstreamConfig} {rpc : Fin n} {w : IngressWorker n}
    {s₁ s : HttpUpstreams n} {us_fd us_stream_id : ℤ} {text : Bytes} {k : StreamKey}
    (hkey : (ConnectionType.EGRESS, (w.rpc_mapper.heap rpc).ds_fd,
      (w.rpc_mapper.heap rpc).ds_stream_id) = k)
    (hroute : w.toHttpUpstreams.route_request k = .ok (us_fd, s₁))
    (hsent : s₁.forward_request config k us_fd = .ok (us_stream_id, text, s)) :
    w.send_sub_request config rpc = .ok ((k, text), { w with toHttpUpstreams := s }) := by
  unfold send_sub_request
  dsimp only
  rw [hkey]
  exact bind_eq_ok.mpr ⟨_, hroute, bind_eq_ok.mpr ⟨_, hsent, rfl⟩⟩

/-- The Credit Request asks for the request. -/
def Asks (w : IngressWorker n) (req : Buffer) (rpc : Fin n) : Prop :=
  ∃ now_us rtt,
    req.Holds (Buffer.requestFields w.ingress.ingress_service 1 (w.rpc_mapper.heap rpc).local_id
    (w.rpc_mapper.heap rpc).priority now_us rtt)

/-- What asking for a credit does. -/
structure Requested (w w' : IngressWorker n) : Prop where
  upstreams : ∃ ingress, w'.toHttpUpstreams = { w.toHttpUpstreams with ingress := ingress }
  clients : w'.clients = w.clients
  written : w'.written = w.written
  queue : w'.ingress.queue = w.ingress.queue
  drop : w'.ingress.drop_id = w.ingress.drop_id ∧ w'.ingress.drop_fd = w.ingress.drop_fd
  service : w'.ingress.ingress_service = w.ingress.ingress_service
  priority : w'.ingress.priority = w.ingress.priority
  cap : 1 ≤ w.ingress.ingress_size_cap → 1 ≤ w'.ingress.ingress_size_cap
  sent : (w.ingress.queue = [] ∨ w.ingress.has_credit_request_on_fly = true) ∧ w'.on_fly = w.on_fly
      ∧ w'.ingress.has_credit_request_on_fly = w.ingress.has_credit_request_on_fly
    ∨ w.ingress.has_credit_request_on_fly = false ∧ w'.ingress.has_credit_request_on_fly = true
      ∧ ∃ rpc rest req, w.ingress.queue = rpc :: rest ∧ w'.on_fly = w.on_fly ++ [req]
        ∧ w.Asks req rpc

theorem ingress_pre_credit_spec {env : Env} {w w' : IngressWorker n}
    (h : w.ingress_pre_credit env = .ok w') :
    Requested w w' := by
  obtain ⟨ingress, hingress⟩ : ∃ ingress, ingress = w.ingress.update_cap env.cap := ⟨_, rfl⟩
  have hsame : ingress.queue = w.ingress.queue ∧ ingress.has_credit_request_on_fly
      = w.ingress.has_credit_request_on_fly
      ∧ (ingress.drop_id = w.ingress.drop_id ∧ ingress.drop_fd = w.ingress.drop_fd)
      ∧ ingress.ingress_service = w.ingress.ingress_service
      ∧ ingress.priority = w.ingress.priority
      ∧ (1 ≤ w.ingress.ingress_size_cap → 1 ≤ ingress.ingress_size_cap) := by
    rw [hingress]
    unfold Ingress.update_cap
    cases env.cap with
    | none => exact ⟨rfl, rfl, ⟨rfl, rfl⟩, rfl, rfl, id⟩
    | some cap => exact ⟨rfl, rfl, ⟨rfl, rfl⟩, rfl, rfl, fun _ => Nat.le_max_left 1 cap⟩
  obtain ⟨hqueue, hflag, hdrop, hservice, hpriority, hcap⟩ := hsame
  unfold ingress_pre_credit Ingress.send_credit_request_checker at h
  rw [← hingress] at h
  dsimp only at h
  by_cases hcheck : (decide (0 < ingress.queue.length) && !ingress.has_credit_request_on_fly) = true
  · rw [hcheck, if_neg Bool.noConfusion, if_pos rfl] at h
    obtain ⟨rpc, hfront, h⟩ := bind_eq_ok.mp h
    unfold send_credit_request at h
    obtain ⟨-, -, h⟩ := bind_eq_ok.mp h
    obtain ⟨req, hwrite, h⟩ := bind_eq_ok.mp h
    obtain rfl := Except.ok.inj h
    have hheld := Buffer.write_credit_request_spec hwrite
    unfold Ingress.front at hfront
    dsimp only at hfront hheld
    split at hfront
    · cases hfront
    rename_i rpc' rest hlist
    obtain rfl := Except.ok.inj hfront
    rw [Bool.and_eq_true, Bool.not_eq_true'] at hcheck
    refine ⟨⟨_, rfl⟩, rfl, rfl, hqueue, hdrop, hservice, hpriority, hcap,
      .inr ⟨hflag.symm.trans hcheck.2, rfl, ?_⟩⟩
    refine ⟨rpc', rest, req, hqueue.symm.trans hlist, rfl, env.now_us, w.last_rtt_us, ?_⟩
    rw [← hservice]
    exact hheld
  · rw [Bool.not_eq_true] at hcheck
    rw [hcheck, if_pos rfl, if_neg Bool.false_ne_true] at h
    obtain rfl := Except.ok.inj h
    refine ⟨⟨_, rfl⟩, rfl, rfl, hqueue, hdrop, hservice, hpriority, hcap,
      .inl ⟨?_, rfl, hflag⟩⟩
    -- what the checker asks for, as a fact about the worker
    rw [Bool.and_eq_false_iff, decide_eq_false_iff_not, Nat.not_lt, Nat.le_zero,
      List.length_eq_zero_iff, hqueue,
      Bool.not_eq_false', hflag] at hcheck
    exact hcheck

end IngressWorker

end RlpSidecar
