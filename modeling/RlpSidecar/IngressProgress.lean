/-
**The next Credit Grant is handled** (`state.cc`, `ingress_post_credit`): the first request goes to
a frontend, every answer that waits goes to its client, and the next Credit Request goes out.

Each part of the handler can end the process: the queue may be empty, there may be no connection,
the connection of a client may be busy with something else, an object may be held by somebody when
it is freed. The invariants of the worker exclude most of this. What is left to ask for is in
`Usable`: a grant that is the answer to what was asked, an idle connection to a frontend, an id that
is not in use, and texts that fit a buffer. For each part there is a lemma that says when it
succeeds, and `ingress_post_credit_exists` puts them together.

`one_request_on_fly` is the account of the whole: in every run, which Credit Requests are on the
fly, what waits for them, and that the next grant finds what it is for.
-/
import RlpSidecar.IngressRegular

set_option autoImplicit false

open Runs Tables

namespace RlpSidecar

variable {n : ℕ}

/-! ## Sending goes through -/

namespace HttpUpstreams

/-- `get_pool` finds a pool as long as no pool has gone. -/
theorem find_pool_exists {s s' : HttpUpstreams n} {type : ConnectionType} {service : Bytes}
    {id : PoolId} (h : s.find_pool type service = .ok id)
    (hpools : ∀ id, (s.pools id).isSome → (s'.pools id).isSome) :
    ∃ id', s'.find_pool type service = .ok id' := by
  unfold find_pool at h ⊢
  cases type with
  | INGRESS => exact ⟨_, rfl⟩
  | EGRESS =>
      dsimp only at h ⊢
      split_ifs at h with hservice hany
      · rw [if_pos (hpools _ hservice)]
        exact ⟨_, rfl⟩
      · rw [if_pos (hpools _ hany)]
        split_ifs
        · exact ⟨_, rfl⟩
        · exact ⟨_, rfl⟩

/-- **`route_request` succeeds** if one connection of the pool is available, wherever the iterator
of the pool stands. -/
theorem route_request_exists {s : HttpUpstreams n} {k : StreamKey} {rpc : Fin n} {id : PoolId}
    {pool : ConnectionPool} (hrpc : s.rpc_mapper.get_ds_rpc k.1 k.2.2 k.2.1 = .ok rpc)
    (hid : s.find_pool k.1 (s.rpc_mapper.heap rpc).service = .ok id)
    (hpool : s.pools id = some pool) (havailable : ∃ fd ∈ pool.fds, s.available fd = true) :
    ∃ fd c pool', fd ∈ pool.fds ∧ s.connections fd = some c ∧ s.route_request k
      = .ok (fd, { s with pools := Function.update s.pools id (some pool') }) := by
  unfold route_request
  rw [hrpc, ok_bind, hid, ok_bind, hpool]
  dsimp only
  cases hany : pool.get_any_connection s.available with
  | error e =>
      obtain ⟨fd, hmem, hup⟩ := havailable
      rw [(ConnectionPool.get_any_connection_error hany).2 fd hmem] at hup
      cases hup
  | ok x =>
      obtain ⟨fd, pool'⟩ := x
      obtain ⟨hmem, hup, -⟩ := ConnectionPool.get_any_connection_ok hany
      unfold available at hup
      cases hc : s.connections fd with
      | none =>
          rw [hc] at hup
          cases hup
      | some c =>
          -- what is available is up
          rw [hc] at hup
          have hstatus : c.status = .UP := of_decide_eq_true (Bool.and_eq_true_iff.mp hup).2
          refine ⟨fd, c, pool', hmem, hc, ?_⟩
          rw [ok_bind]
          dsimp only
          rw [hc, Option.map_some, hstatus]

/-- **`forward_request` succeeds** over a connection without a message that has a number left, for
an object with an id, which nobody else has, and a priority, whose text fits the buffer. -/
theorem forward_request_exists {config : UpstreamConfig} {s : HttpUpstreams n} {k : StreamKey}
    {fd : ℤ} {c : HTTP1Connection n} {rpc : Fin n} (hfind : s.rpc_mapper.find_ds k = some rpc)
    (hkey : s.rpc_mapper.ds_key rpc = k) (hhttp : (s.rpc_mapper.heap rpc).http = .HTTP1)
    (hid : (s.rpc_mapper.heap rpc).local_id ≠ -1)
    (hpriority : (s.rpc_mapper.heap rpc).priority ≠ -1)
    (hfree : s.rpc_mapper.find_id (k.1, (s.rpc_mapper.heap rpc).local_id) = none)
    (hsize : (HTTP1Connection.request_text (s.http rpc)).length < config.buffer_size)
    (hc : s.connections fd = some c) (htype : c.type = .EGRESS) (hmessage : c.rpc_message = none)
    (hnext : c.last_id + 1 < 2 ^ 31) : ∃ x, s.forward_request config k fd = .ok x := by
  have hrpc := RPCMapper.get_ds_rpc_eq_ok.mpr hfind
  obtain ⟨t, htraffic⟩ : ∃ t,
      s.traffic.forward_request config.toTrafficConfig k fd (c.last_id + 1) = .ok t := by
    have hds : s.rpc_mapper.find_ds
        (k.1, (s.rpc_mapper.heap rpc).ds_fd, (s.rpc_mapper.heap rpc).ds_stream_id) = some rpc := by
      rw [← hkey] at hfind ⊢
      exact hfind
    obtain ⟨m, hroute⟩ := @RPCMapper.route_exists _
      (s.rpc_mapper.modify rpc fun msg => { msg with us_fd := fd, us_stream_id := c.last_id + 1 })
      k.1 (s.rpc_mapper.heap rpc).ds_stream_id (s.rpc_mapper.heap rpc).ds_fd rpc hds
      (by rw [RPCMapper.modify_heap, if_pos rfl]; exact hfree) (c.last_id + 1) fd
    unfold Traffic.forward_request traffic
    dsimp only
    rw [hrpc, ok_bind, RPCMapper.modify_modify, RPCMapper.modify_heap, if_pos rfl]
    dsimp only
    rw [if_neg fun h => hid h.1, if_neg fun h => hpriority h.1, hroute]
    exact ⟨_, rfl⟩
  unfold forward_request
  rw [hrpc, ok_bind, hc]
  dsimp only
  unfold add_local_id
  rw [htype]
  dsimp only
  unfold HTTP1Connection.submit_request HttpCalls.cast_http HTTP1Connection.next_id
  rw [ok_bind, if_pos hhttp, ok_bind, if_neg (not_not.mpr hmessage), if_pos hnext, ok_bind, ok_bind]
  dsimp only
  rw [htraffic, ok_bind]
  unfold HTTP1Connection.http_write_request
  dsimp only
  rw [if_neg (Nat.not_le_of_lt (by exact hsize)), if_neg Bool.false_ne_true]
  exact ⟨_, rfl⟩

end HttpUpstreams

namespace IngressWorker

section Progress

variable {config : UpstreamConfig} {w w' : IngressWorker n} {L : Ledger}

/-- A Credit Request can be sent for the service: it has a pool, and its name fits into a
datagram. -/
structure Sendable (w : IngressWorker n) : Prop where
  pool : ∃ id, w.find_pool .EGRESS w.ingress.ingress_service = .ok id
  name : headerSize + w.ingress.ingress_service.length < udpBufferLength

/-- **`ingress_pre_credit` succeeds**: it looks at the front only of a queue that is not empty. -/
theorem ingress_pre_credit_exists (h : Sendable w) (env : Env) :
    ∃ w', w.ingress_pre_credit env = .ok w' := by
  obtain ⟨id, hid⟩ := h.pool
  obtain ⟨ingress, hingress⟩ : ∃ ingress, ingress = w.ingress.update_cap env.cap := ⟨_, rfl⟩
  have hservice : ingress.ingress_service = w.ingress.ingress_service := by
    rw [hingress]
    unfold Ingress.update_cap
    cases env.cap <;> rfl
  unfold ingress_pre_credit Ingress.send_credit_request_checker
  rw [← hingress]
  dsimp only
  by_cases hcheck : (decide (0 < ingress.queue.length) && !ingress.has_credit_request_on_fly) = true
  · rw [hcheck, if_neg Bool.noConfusion, if_pos rfl]
    rw [Bool.and_eq_true] at hcheck
    obtain ⟨rpc, rest, hqueue⟩ :=
      List.exists_cons_of_length_pos (of_decide_eq_true hcheck.1)
    unfold Ingress.front
    dsimp only
    rw [hqueue, ok_bind]
    obtain ⟨req, hwrite⟩ := Buffer.write_credit_request_ok env.fresh 1
      (w.rpc_mapper.heap rpc).local_id (w.rpc_mapper.heap rpc).priority env.now_us w.last_rtt_us
      h.name
    unfold send_credit_request
    rw [hservice]
    refine ⟨_, bind_eq_ok.mpr ⟨id, hid, bind_eq_ok.mpr ⟨req, hwrite, rfl⟩⟩⟩
  · rw [Bool.not_eq_true] at hcheck
    rw [hcheck, if_pos rfl]
    exact ⟨_, rfl⟩

/-- What `forward_response` asks for, for a response that is a drop. -/
theorem forward_response_here {src : ℤ × ℤ} {rpc : Fin n} {c : HTTP1Connection n} {text : Bytes}
    {msg : HTTPMessage} {m : RPCMapper n} (hfind : w.rpc_mapper.find_us (.EGRESS, src) = some rpc)
    (hc : w.clients.lookup (w.rpc_mapper.heap rpc).ds_fd = some c)
    (hdrop : (w.message rpc).is_drop = true) (hhttp : (w.rpc_mapper.heap rpc).http = .HTTP1)
    (hmessage : c.rpc_message = none) (hbusy : c.idle = false)
    (htext : HTTP1Connection.response_text config.buffer_size (w.message rpc) = .ok text)
    (hclear : (w.message rpc).clear = .ok msg)
    (hremove : w.rpc_mapper.remove_rpc c.type rpc (w.ingress.queue.count rpc) = .ok m) :
    ∃ w', w.forward_response config src = .ok w' := by
  unfold IngressWorker.forward_response
  rw [RPCMapper.get_us_rpc_eq_ok.mpr (by exact hfind), ok_bind]
  dsimp only
  rw [hc]
  dsimp only
  rw [if_neg fun hlost => Bool.noConfusion (hdrop.symm.trans hlost.1)]
  unfold HTTP1Connection.submit_response HttpCalls.cast_http
  rw [if_pos hhttp, ok_bind, if_neg (not_not.mpr hmessage), ok_bind]
  unfold HTTP1Connection.http_write_response
  dsimp only
  rw [htext, ok_bind, hbusy, if_neg Bool.false_ne_true, hclear, ok_bind, hremove]
  exact ⟨_, rfl⟩

/-- **A drop goes back**: its object is an error with the status 503, and its client is connected
and busy with it. -/
theorem forward_response_exists (h : Regular config w) (hconsistent : Consistent config w L)
    {src : ℤ × ℤ} (rest : List (ℤ × ℤ)) (hdrop : src.1 = config.drop_fd)
    (hreply : ∃ x, Reply config w.toHttpUpstreams src x) :
    ∃ w', { w with toHttpCalls := w.set_queue .EGRESS .UPSTREAM rest }.forward_response config src
      = .ok w' := by
  obtain ⟨x, rpc, hfind, -, htext⟩ := hreply
  obtain ⟨hds, htype, hk⟩ := hconsistent.sent hfind
  have hwaits : rpc ∉ w.ingress.queue := fun hmem => hconsistent.not_sent hmem hfind
  have hlive := ((hconsistent.tracks.ds _ rpc).mp hds).1
  have hhttp : (w.rpc_mapper.heap rpc).http = .HTTP1 := (hconsistent.tracks.kind rpc _ hlive hk).1
  have husfd : (w.rpc_mapper.heap rpc).us_fd = config.drop_fd :=
    (congrArg (fun k => k.2.1) ((hconsistent.tracks.us _ rpc).mp hfind).2).trans hdrop
  have hisdrop := h.dropped _ rpc hds hwaits husfd
  obtain ⟨c, hc, hbusy, -⟩ := h.busy _ rpc hds
  obtain ⟨m, hremove⟩ := hconsistent.tracks.remove_rpc_exists hds
    (by rw [Traffic.upstream_of_request hk]; rfl) (h.returns rpc)
  obtain ⟨m', hclear⟩ : ∃ m', (w.message rpc).clear = .ok m' := by
    unfold HTTPMessage.clear RPCMessage.clear HttpCalls.message
    dsimp only
    rw [h.returns rpc, List.length_nil, if_neg (by decide), ok_bind]
    exact ⟨_, rfl⟩
  have hcount : w.ingress.queue.count rpc = 0 := List.count_eq_zero_of_not_mem hwaits
  refine @forward_response_here _ config _ src rpc c x.2 m' m hfind hc hisdrop hhttp
    (h.clients _ c hc) hbusy htext hclear ?_
  show w.rpc_mapper.remove_rpc c.type rpc (w.ingress.queue.count rpc) = .ok m
  rw [hcount, (hconsistent.clients _ c hc).2.1]
  rw [show (w.rpc_mapper.ds_key rpc).1 = .EGRESS from htype] at hremove
  exact hremove

/-- So do all of them, one after the other. -/
theorem forward_exists (h : Regular config w) (hconsistent : Consistent config w L)
    {queue : List (ℤ × ℤ)} (hqueue : w.rpc_queue .EGRESS .UPSTREAM = queue)
    (hdrops : ∀ us ∈ queue, us.1 = config.drop_fd ∧ ∃ x, Reply config w.toHttpUpstreams us x) :
    ∃ w', w.forward config queue = .ok w' ∧ w'.pools = w.pools ∧ w'.ingress = w.ingress := by
  induction queue generalizing w L with
  | nil => exact ⟨w, rfl, rfl, rfl⟩
  | cons src rest ih =>
      obtain ⟨hdrop, hreply⟩ := hdrops src List.mem_cons_self
      obtain ⟨w₁, hone⟩ := forward_response_exists h hconsistent rest hdrop hreply
      obtain ⟨rpc, hreturned⟩ := hconsistent.returned hone
      obtain ⟨L₁, hconsistent₁, -, hqueue₁, -, hreplies⟩ :=
        hconsistent.forward_response hqueue hone
      obtain ⟨w', hrest, hpools, hingress⟩ :=
        ih (h.forward_response hconsistent hreturned) hconsistent₁ hqueue₁ fun us hus => by
          obtain ⟨hus', x, hx⟩ := hdrops us (List.mem_cons_of_mem _ hus)
          exact ⟨hus', x, (hreplies us hus x).mpr hx⟩
      refine ⟨w', ?_, hpools.trans hreturned.frame.2.1, hingress.trans hreturned.frame.2.2.2.1⟩
      unfold IngressWorker.forward
      dsimp only
      rw [hconsistent.connected (by rw [hqueue]; exact List.mem_cons_self),
        if_neg Bool.false_ne_true]
      exact bind_eq_ok.mpr ⟨w₁, hone, hrest⟩

/-- **A grant that can be used.** The datagram is a Credit Grant for the service of the worker,
which gives the one credit that was asked for and an RTT that is in range; a connection of the pool
is idle, and none has used up its numbers; the id of the request is not that of another one; and
the texts that are to be written fit a buffer. -/
structure Usable (config : UpstreamConfig) (env : Env) (buf : Buffer) (w : IngressWorker n) :
    Prop where
  kind : dispatch_rlp_recv buf = .ok .credit_grant
  grant : ∃ m rtt, read_credit_grant buf = .ok m ∧ credit_rtt m env.now_us = .ok rtt
    ∧ m.requested = 1 ∧ m.granted = 1 ∧ m.service = w.ingress.ingress_service
  frontend : ∃ id pool, w.find_pool .EGRESS w.ingress.ingress_service = .ok id
    ∧ w.pools id = some pool ∧ (∃ fd ∈ pool.fds, w.available fd = true)
    ∧ ∀ fd ∈ pool.fds, ∀ c, w.connections fd = some c → c.last_id + 1 < 2 ^ 31
  id : ∀ rpc ∈ w.ingress.queue.head?,
    w.rpc_mapper.find_id (.EGRESS, (w.rpc_mapper.heap rpc).local_id) = none
  text : ∀ rpc ∈ w.ingress.queue.head?,
    (HTTP1Connection.request_text (w.http rpc)).length < config.buffer_size
  replies : ∀ us ∈ w.rpc_queue .EGRESS .UPSTREAM, ∃ x, Reply config w.toHttpUpstreams us x
  name : headerSize + w.ingress.ingress_service.length < udpBufferLength

/-- It does not depend on the RTT, or on what has been asked for. -/
theorem Usable.credits {env : Env} {buf : Buffer} (h : Usable config env buf w)
    (on_fly : List Buffer) (last_rtt_us : BitVec 32) :
    Usable config env buf { w with on_fly := on_fly, last_rtt_us := last_rtt_us } :=
  ⟨h.kind, h.grant, h.frontend, h.id, h.text, h.replies, h.name⟩

/-- The first request of the queue can be sent. -/
theorem send_sub_request_exists (h : Regular config w) (hconsistent : Consistent config w L)
    {env : Env} {buf : Buffer} (husable : Usable config env buf w) {rpc : Fin n}
    {rest : List (Fin n)} (hqueue : w.ingress.queue = rpc :: rest) :
    ∃ x, (Consistent.dequeued w rest).send_sub_request config rpc = .ok x := by
  have hfirst : rpc ∈ w.ingress.queue := by
    rw [hqueue]
    exact List.mem_cons_self
  have hhead : rpc ∈ w.ingress.queue.head? := by
    rw [hqueue]
    rfl
  obtain ⟨hservice, hid, hpriority⟩ := h.waiting rpc hfirst
  obtain ⟨hfind, hk⟩ := hconsistent.ready hfirst
  have hlive := ((hconsistent.tracks.ds _ rpc).mp hfind).1
  have hhttp : (w.rpc_mapper.heap rpc).http = .HTTP1 := (hconsistent.tracks.kind rpc _ hlive hk).1
  have htype : (w.rpc_mapper.heap rpc).type = .EGRESS := (hconsistent.request _ _ hk).1
  obtain ⟨id, pool, hpoolid, hpool, havailable, hnumbers⟩ := husable.frontend
  have hrpc := RPCMapper.get_ds_rpc_eq_ok.mpr hfind
  obtain ⟨fd, c, pool', hmem, hc, hroute⟩ := HttpUpstreams.route_request_exists
    (s := (Consistent.dequeued w rest).toHttpUpstreams) (k := w.rpc_mapper.ds_key rpc) hrpc (by
      show w.find_pool (w.rpc_mapper.heap rpc).type (w.rpc_mapper.heap rpc).service = .ok id
      rw [htype, hservice]
      exact hpoolid) hpool havailable
  obtain ⟨⟨us_stream_id, text, s⟩, hsent⟩ :=
    @HttpUpstreams.forward_request_exists _ config
      { (Consistent.dequeued w rest).toHttpUpstreams with
        pools := Function.update w.pools id (some pool') } _ _ _ _
      (by exact hfind) rfl (by exact hhttp) (by exact hid)
      (by
        show (w.rpc_mapper.heap rpc).priority ≠ -1
        rw [hpriority]
        exact h.priority)
      (by
        show w.rpc_mapper.find_id ((w.rpc_mapper.heap rpc).type, _) = none
        rw [htype]
        exact husable.id rpc hhead)
      (by exact husable.text rpc hhead) (by exact hc) (hconsistent.egress fd c hc)
      (h.frontends fd c hc) (hnumbers fd hmem c hc)
  have hkey : (ConnectionType.EGRESS, (w.rpc_mapper.heap rpc).ds_fd,
      (w.rpc_mapper.heap rpc).ds_stream_id) = w.rpc_mapper.ds_key rpc := Prod.ext htype.symm rfl
  exact ⟨_, send_sub_request_here hkey hroute hsent⟩

/-- **The next Credit Grant is handled**, if it can be used. -/
theorem ingress_post_credit_exists (h : Regular config w) (hconsistent : Consistent config w L)
    {env : Env} {buf : Buffer} (husable : Usable config env buf w)
    (hdrops : ∀ us ∈ w.rpc_queue .EGRESS .UPSTREAM, us.1 = config.drop_fd)
    (hwaits : w.ingress.queue ≠ []) : ∃ x, w.ingress_post_credit config env buf = .ok x := by
  obtain ⟨rpc, rest, hqueue⟩ := List.exists_cons_of_ne_nil hwaits
  obtain ⟨m, rtt, hread, hrtt, hrequested, hgranted, hservice⟩ := husable.grant
  have hpost : w.credit_post_process env buf = .ok (1, { w with last_rtt_us := rtt }) :=
    credit_post_process_eq_ok.mpr ⟨m, rtt, hread, hrtt, hrequested.trans hgranted.symm,
      by rw [hgranted]; decide, hservice, by rw [hgranted]; decide, rfl⟩
  have hregular := h.credits w.on_fly rtt
  have hconsistent' := hconsistent.credits w.on_fly rtt
  obtain ⟨⟨sent, w₁⟩, hsend⟩ :=
    send_sub_request_exists hregular hconsistent' (husable.credits w.on_fly rtt) hqueue
  obtain ⟨L₁, hconsistent₁, -, hqueues, hkeeps, -, hsends, hreplies⟩ :=
    hconsistent'.send_sub_request hqueue hsend
  have hregular₁ := hregular.send_sub_request hconsistent' hqueue hsend
  obtain ⟨w₂, hforward, hpools, hingress⟩ :=
    forward_exists hregular₁ hconsistent₁ rfl fun us hus => by
      rw [hqueues] at hus
      obtain ⟨x, hx⟩ := husable.replies us hus
      exact ⟨hdrops us hus, x, (hreplies us hus x).mpr hx⟩
  have hname : w₂.ingress.ingress_service = w.ingress.ingress_service := by
    rw [hingress, hkeeps.ingress]
    rfl
  obtain ⟨id, _, hid, -⟩ := husable.frontend
  have hsendable : Sendable w₂ := by
    refine ⟨?_, by rw [hname]; exact husable.name⟩
    rw [hname]
    refine HttpUpstreams.find_pool_exists hid fun id hsome => ?_
    rw [hpools]
    exact hsends.pools id hsome
  obtain ⟨w₃, hpre⟩ := ingress_pre_credit_exists hsendable env
  have hdequeue : ({ w with last_rtt_us := rtt } : IngressWorker n).ingress.dequeue
      = .ok (rpc, (Consistent.dequeued w rest).ingress) := by
    unfold Ingress.dequeue
    dsimp only
    rw [hqueue]
    rfl
  refine ⟨(sent, w₃), bind_eq_ok.mpr ⟨_, hpost, ?_⟩⟩
  dsimp only
  rw [if_neg (by decide)]
  exact bind_eq_ok.mpr ⟨_, hdequeue, bind_eq_ok.mpr ⟨_, hsend, bind_eq_ok.mpr ⟨_, hforward,
    bind_eq_ok.mpr ⟨_, hpre, rfl⟩⟩⟩⟩

end Progress

/-- **What holds between the handlers** of an ingress worker. -/
structure OneOnFly (parser : HttpParser) (config : UpstreamConfig) (w : IngressWorker n)
    (ts : Run n) : Prop where
  at_most_one : w.on_fly.length ≤ 1
  flag : w.ingress.has_credit_request_on_fly = true ↔ w.on_fly.length = 1
  waits : w.ingress.has_credit_request_on_fly = true ↔ w.ingress.queue ≠ []
  /-- What a grant dequeues is the request whose id and priority are in the Credit Request that it
  answers. -/
  front : ∀ req ∈ w.on_fly, ∃ rpc ingress, w.ingress.dequeue = .ok (rpc, ingress) ∧ w.Asks req rpc
  granted : ∀ t ∈ ts, Granted t
  /-- What was admitted was sent, or waits to be sent: in this order, and once. -/
  order : admitted ts = forwarded ts ++ w.ingress.queue.map w.entry
  drops : ∀ us ∈ w.rpc_queue .EGRESS .UPSTREAM, us.1 = config.drop_fd ∧ w.on_fly.length = 1
  /-- The next Credit Grant is handled, if it can be used, -/
  next : ∀ req ∈ w.on_fly, ∀ env buf, Usable config env buf w →
    ∃ sent w', Step parser config w (.grant req buf sent) w'
  /-- and then all that waits in the queue of the responses goes back. -/
  flushes : ∀ req buf sent w', Step parser config w (.grant req buf sent) w' →
    AllBack config w.toHttpUpstreams w w'

/-- **One Credit Request on the fly**: in every run of an ingress worker there is exactly one while
a request waits, and none otherwise. The next grant that can be used finds the request that has
asked for it, sends it, and takes the answers of the dropped requests back. `hedge` and `hrole` say
that the sidecar is the ingress edge. -/
theorem one_request_on_fly {parser : HttpParser} {config : UpstreamConfig} {grpc_n http_n : ℕ}
    {w₀ w : IngressWorker (http_n + grpc_n)} {ts : Run (http_n + grpc_n)}
    (hedge : config.ids.is_ingress = true) (hrole : config.is_frontend = false)
    (hstart : Start config grpc_n http_n w₀) (hrun : Exec (Step parser config) w₀ ts w) :
    OneOnFly parser config w ts := by
  obtain ⟨hsteady, hregular⟩ : Steady parser config w ts ∧ Regular config w :=
    hrun.history (fun w ts => Steady parser config w ts ∧ Regular config w)
      (fun _ _ _ hbefore hstep => by
        obtain ⟨L, hconsistent⟩ := hbefore.1.consistent
        exact ⟨hbefore.1.step hedge hrole hstep, hbefore.2.step hconsistent hedge hrole hstep⟩)
      ⟨start_steady hstart, start_regular hstart⟩
  obtain ⟨L, hconsistent⟩ := hsteady.consistent
  have hwaits : w.ingress.has_credit_request_on_fly = true ↔ w.ingress.queue ≠ [] := by
    refine ⟨fun h => ?_, hsteady.asked.waits⟩
    obtain ⟨rpc, rest, -, hqueue, -⟩ := hsteady.asked.asked h
    rw [hqueue]
    exact List.cons_ne_nil _ _
  have hone : w.ingress.has_credit_request_on_fly = true → w.on_fly.length = 1 := by
    intro h
    obtain ⟨_, _, req, -, hfly, -⟩ := hsteady.asked.asked h
    rw [hfly]
    rfl
  have hnone : w.ingress.has_credit_request_on_fly = false → w.on_fly = [] := hsteady.asked.quiet
  have hfly : ∀ req ∈ w.on_fly, w.ingress.has_credit_request_on_fly = true := by
    intro req hreq
    by_contra hflag
    rw [hnone (Bool.not_eq_true _ ▸ hflag)] at hreq
    cases hreq
  constructor
  case at_most_one =>
    cases hflag : w.ingress.has_credit_request_on_fly with
    | false =>
        rw [hnone hflag]
        exact Nat.zero_le 1
    | true => exact (hone hflag).le
  case flag =>
    refine ⟨hone, fun hlength => ?_⟩
    obtain ⟨req, hreq⟩ := List.length_eq_one_iff.mp hlength
    exact hfly req (by rw [hreq]; exact List.mem_cons_self)
  case waits => exact hwaits
  case front =>
    intro req hreq
    obtain ⟨rpc, rest, req', hqueue, hlist, hasks⟩ := hsteady.asked.asked (hfly req hreq)
    obtain rfl := List.mem_singleton.mp (hlist ▸ hreq)
    have hdequeue : w.ingress.dequeue = .ok (rpc, (Consistent.dequeued w rest).ingress) := by
      unfold Ingress.dequeue
      rw [hqueue]
      rfl
    exact ⟨rpc, _, hdequeue, hasks⟩
  case granted => exact fun t ht => (hsteady.steps t ht).2
  case order => exact hsteady.order
  case drops =>
    intro us hus
    exact ⟨hsteady.drops us hus,
      hone (hwaits.mpr (hsteady.behind (List.ne_nil_of_mem hus)))⟩
  case next =>
    intro req hreq env buf husable
    obtain ⟨_, _, req', -, hlist, -⟩ := hsteady.asked.asked (hfly req hreq)
    obtain rfl := List.mem_singleton.mp (hlist ▸ hreq)
    -- the grant takes the Credit Request out of `on_fly`, which the handler does not look at
    obtain ⟨⟨sent, w'⟩, hok⟩ := ingress_post_credit_exists (hregular.credits [] w.last_rtt_us)
      (hconsistent.credits [] w.last_rtt_us) (husable.credits [] w.last_rtt_us)
      hsteady.drops (hwaits.mp (hfly req hreq))
    exact ⟨sent, w', @Step.grant _ parser config w w' env [] [] req buf sent hlist husable.kind hok⟩
  case flushes =>
    intro req buf sent w' hstep
    exact ((hsteady.step hedge hrole hstep).steps _ (List.mem_append_right _ List.mem_cons_self)).1


/-- Two clients, and a queue with room for one request: while the first waits for its grant, the
answer to the second, which was dropped, waits with it. The grant for it can be used. -/
theorem one_request_on_fly_drop :
    ∃ (w : IngressWorker (2 + 0)) (ts : Run (2 + 0)),
      OneOnFly .pico ⟨⟨⟨true, false⟩, 1, [115]⟩, false, 1000⟩ w ts
        ∧ w.on_fly.length = 1 ∧ w.rpc_queue .EGRESS .UPSTREAM = [(-1, 1)]
        ∧ ∃ env buf, Usable ⟨⟨⟨true, false⟩, 1, [115]⟩, false, 1000⟩ env buf w := by
  let config : UpstreamConfig := ⟨⟨⟨true, false⟩, 1, [115]⟩, false, 1000⟩
  let env (now_us : BitVec 64) : Env := ⟨some 1, Buffer.blank, now_us⟩
  let w₁ := (edgeStart.handle_accept 5).handle_accept 6
  let w₂ := { w₁ with
    toHttpUpstreams := w₁.set_connection 7 { HTTP1Connection.create 7 .EGRESS with status := .UP } }
  have hcheck : (do
      let w₃ ← w₂.handle_request .pico config (env 10) 5 HTTP1Connection.questionHead
      let w ← w₃.handle_request .pico config (env 20) 6 HTTP1Connection.questionHead
      let buf ← write_credit_grant 1 (w.on_fly.headD Buffer.blank) Buffer.blank
      let kind ← dispatch_rlp_recv buf
      let m ← read_credit_grant buf
      let rtt ← credit_rtt m (env 500).now_us
      let id ← w.find_pool .EGRESS w.ingress.ingress_service
      let rpc ← w.rpc_mapper.get_us_rpc .EGRESS 1 (-1)
      let text ← HTTP1Connection.response_text config.buffer_size (w.message rpc)
      .ok (decide (w₃.ingress.drop_id = 0 ∧ w.on_fly.length = 1
        ∧ w.rpc_queue .EGRESS .UPSTREAM = [(-1, 1)] ∧ kind = .credit_grant
        ∧ (m.requested = 1 ∧ m.granted = 1 ∧ m.service = w.ingress.ingress_service)
        ∧ (w.pools id).map ConnectionPool.fds = some [7] ∧ w.available 7 = true
        ∧ (w.connections 7).map HTTP1Connection.last_id = some 0
        ∧ (∀ rpc ∈ w.ingress.queue.head?,
          w.rpc_mapper.find_id (.EGRESS, (w.rpc_mapper.heap rpc).local_id) = none
            ∧ (HTTP1Connection.request_text (w.http rpc)).length < config.buffer_size)
        ∧ headerSize + w.ingress.ingress_service.length < udpBufferLength)))
          = (.ok true : Except Abort Bool) := by
    decide +kernel
  obtain ⟨w₃, h₃, hcheck⟩ := bind_eq_ok.mp hcheck
  obtain ⟨w, h₄, hcheck⟩ := bind_eq_ok.mp hcheck
  obtain ⟨buf, -, hcheck⟩ := bind_eq_ok.mp hcheck
  obtain ⟨kind, hkind, hcheck⟩ := bind_eq_ok.mp hcheck
  obtain ⟨m, hread, hcheck⟩ := bind_eq_ok.mp hcheck
  obtain ⟨rtt, hrtt, hcheck⟩ := bind_eq_ok.mp hcheck
  obtain ⟨id, hid, hcheck⟩ := bind_eq_ok.mp hcheck
  obtain ⟨rpc, hrpc, hcheck⟩ := bind_eq_ok.mp hcheck
  obtain ⟨text, htext, hcheck⟩ := bind_eq_ok.mp hcheck
  obtain ⟨hdrops, hone, hqueue, rfl, ⟨hrequested, hgranted, hservice⟩, hpool, havailable, hnumber,
    hfront, hname⟩ := of_decide_eq_true (Except.ok.inj hcheck)
  obtain ⟨pool, hpool, hfds⟩ := Option.map_eq_some_iff.mp hpool
  have hrun : Exec (Step .pico config) edgeStart _ w :=
    .cons (.accept 5) (.cons (.accept 6) (.cons (.set_status .UP rfl)
      (.cons (.request (by decide) h₃) (.cons (.request (by rw [hdrops]; decide) h₄) (.nil _)))))
  refine ⟨w, _, one_request_on_fly rfl rfl edgeStart_start hrun, hone, hqueue, env 500, buf, hkind,
    ⟨m, rtt, hread, hrtt, hrequested, hgranted, hservice⟩, ⟨id, pool, hid, hpool, ?_, ?_⟩,
    fun rpc hrpc => (hfront rpc hrpc).1, fun rpc hrpc => (hfront rpc hrpc).2, ?_, hname⟩
  · exact ⟨7, by rw [hfds]; exact List.mem_cons_self, havailable⟩
  · intro fd hfd c hc
    rw [hfds, List.mem_singleton] at hfd
    rw [hfd] at hc
    rw [hc] at hnumber
    rw [show c.last_id = 0 from Option.some.inj hnumber]
    decide
  · rw [hqueue]
    intro us hus
    rw [List.mem_singleton.mp hus]
    exact ⟨(w.rpc_mapper.ds_key rpc, text), rpc, RPCMapper.get_us_rpc_eq_ok.mp hrpc, rfl, htext⟩

end IngressWorker

end RlpSidecar
