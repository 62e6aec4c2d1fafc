/-
**The credits of an ingress worker** (`event_loop.cc`, `state.cc`, `ingress.cc`): whatever the
clients, the frontends and the servers send, and in whatever order, requests go out in the order in
which they were read, each of them once and with the text it had, and each for a Credit Request
that has asked for it.

Nothing in the code says that a Credit Request is on its way whenever a request waits. It is so
because a handler looks for one after everything it has done. The answers to the requests that are
dropped depend on it: they wait for the next response or the next Credit Grant, and a request is
dropped only behind others that wait.
-/
import RlpSidecar.IngressWorkerSpec

set_option autoImplicit false

open Runs Tables

namespace RlpSidecar

variable {n : ℕ}

namespace IngressWorker

/-! ## The registry, the queue and the clients -/

/-- **The first invariant**, which holds between any two parts of a handler. The queue has the
objects of the requests that are complete and were not sent. All requests are those of clients in
the listener, and the responses to go back are the responses of requests that are open. -/
structure Consistent (config : UpstreamConfig) (w : IngressWorker n) (L : Ledger) : Prop where
  orderly : ∃ ts, HttpUpstreams.Orderly config (w.toHttpUpstreams, L) ts
  egress : ∀ fd c, w.connections fd = some c → c.type = .EGRESS
  waiting : ∀ a, a ∈ w.ingress.queue ↔ ∃ k, w.rpc_mapper.find_ds k = some a
    ∧ L.request k = some ⟨.HTTP1, .ready⟩
  nodup : w.ingress.queue.Nodup
  request : ∀ k r, L.request k = some r → k.1 = .EGRESS ∧ (∃ c, w.clients.lookup k.2.1 = some c)
    ∧ (r = ⟨.HTTP1, .ready⟩ ∨ ∃ us, r = ⟨.HTTP1, .forwarded us⟩)
  clients : ∀ fd c, w.clients.lookup fd = some c → c.fd = fd ∧ c.type = .EGRESS
    ∧ c.direction = .DOWNSTREAM
  returning : ∀ us ∈ w.rpc_queue .EGRESS .UPSTREAM, ∃ k, L.request k = some ⟨.HTTP1, .forwarded us⟩
  once : (w.rpc_queue .EGRESS .UPSTREAM).Nodup
  service : w.ingress.ingress_service = config.ingress_service
  drop_fd : w.ingress.drop_fd = config.drop_fd
  cap : 1 ≤ w.ingress.ingress_size_cap

/-- The requests that wait are left alone: they are in the queue as before, with the same texts. -/
structure Keeps (w w' : IngressWorker n) : Prop where
  ingress : w'.ingress = w.ingress
  on_fly : w'.on_fly = w.on_fly
  waiting : ∀ a ∈ w.ingress.queue, w'.http a = w.http a ∧ w'.rpc_mapper.heap a = w.rpc_mapper.heap a

theorem Keeps.refl (w : IngressWorker n) : Keeps w w := ⟨rfl, rfl, fun _ _ => ⟨rfl, rfl⟩⟩

theorem Keeps.trans {w w' w'' : IngressWorker n} (h : Keeps w w') (h' : Keeps w' w'') :
    Keeps w w'' := by
  refine ⟨h'.ingress.trans h.ingress, h'.on_fly.trans h.on_fly, ?_⟩
  intro a ha
  obtain ⟨hhttp, hheap⟩ := h'.waiting a (by rw [h.ingress]; exact ha)
  exact ⟨hhttp.trans (h.waiting a ha).1, hheap.trans (h.waiting a ha).2⟩

section Consistent

variable {config : UpstreamConfig} {w w' : IngressWorker n} {L L' : Ledger}

namespace Consistent

theorem coherent (h : Consistent config w L) :
    Traffic.Coherent config.toTrafficConfig (w.toHttpUpstreams.traffic, L) := by
  obtain ⟨ts, horderly⟩ := h.orderly
  exact horderly.coherent

theorem tracks (h : Consistent config w L) : w.rpc_mapper.Tracks L := h.coherent.tracks

/-- The connections are still those to frontends, if one of them changes. -/
theorem egress_update (h : Consistent config w L) {c : HTTP1Connection n}
    (htype : c.type = .EGRESS) (fd : ℤ) :
    ∀ fd' c', Function.update w.connections fd (some c) fd' = some c' → c'.type = .EGRESS := by
  refine (Function.forall_update_iff w.connections fun _ conn => ∀ c', conn = some c' →
    c'.type = .EGRESS).mpr
    ⟨?_, fun fd' _ => h.egress fd'⟩
  rintro c' heq
  obtain rfl := Option.some.inj heq
  exact htype

/-- The stream of a request that waits is that of its object. -/
theorem ready (h : Consistent config w L) {a : Fin n} (ha : a ∈ w.ingress.queue) :
    w.rpc_mapper.find_ds (w.rpc_mapper.ds_key a) = some a
      ∧ L.request (w.rpc_mapper.ds_key a) = some ⟨.HTTP1, .ready⟩ := by
  obtain ⟨k, hfind, hk⟩ := (h.waiting a).mp ha
  obtain ⟨-, hkey⟩ := (h.tracks.ds k a).mp hfind
  rw [hkey]
  exact ⟨hfind, hk⟩

/-- It has not been sent, so no response is for it: the registry has no upstream stream of it. -/
theorem not_sent (h : Consistent config w L) {a : Fin n} (ha : a ∈ w.ingress.queue)
    {k : StreamKey} :
    w.rpc_mapper.find_us k ≠ some a := by
  intro hfind
  obtain ⟨⟨-, hsent⟩, -⟩ := (h.tracks.us k a).mp hfind
  rw [Traffic.upstream_of_request (h.ready ha).2] at hsent
  cases hsent

/-- An object under an upstream stream is that of a request that was sent there. -/
theorem sent (h : Consistent config w L) {us : ℤ × ℤ} {a : Fin n}
    (hfind : w.rpc_mapper.find_us (.EGRESS, us) = some a) :
    w.rpc_mapper.find_ds (w.rpc_mapper.ds_key a) = some a ∧ (w.rpc_mapper.heap a).type = .EGRESS
      ∧ L.request (w.rpc_mapper.ds_key a) = some ⟨.HTTP1, .forwarded us⟩ := by
  obtain ⟨⟨hlive, hsent⟩, hkey⟩ := (h.tracks.us _ a).mp hfind
  obtain ⟨us', hus'⟩ := Option.isSome_iff_exists.mp hsent
  have hsame : us = us' := (Prod.mk.inj hkey).2.symm.trans (h.tracks.sent a us' hlive hus')
  subst hsame
  refine ⟨(h.tracks.ds _ a).mpr ⟨hlive, rfl⟩, (Prod.mk.inj hkey).1, ?_⟩
  obtain ⟨r, hr, hup⟩ := Option.bind_eq_some_iff.mp hus'
  obtain ⟨-, -, rfl | ⟨us', rfl⟩⟩ := h.request _ r hr
  · cases hup
  · obtain rfl := Option.some.inj hup
    exact hr

/-- A response that is to go back is that of a request that was sent, and is found under both its
streams. -/
theorem of_returning (h : Consistent config w L) {us : ℤ × ℤ}
    (hus : us ∈ w.rpc_queue .EGRESS .UPSTREAM) :
    ∃ a, w.rpc_mapper.find_us (.EGRESS, us) = some a
      ∧ w.rpc_mapper.find_ds (w.rpc_mapper.ds_key a) = some a
      ∧ L.request (w.rpc_mapper.ds_key a) = some ⟨.HTTP1, .forwarded us⟩ := by
  obtain ⟨k, hk⟩ := h.returning us hus
  obtain ⟨a, hlive, rfl⟩ := (h.tracks.opened k).mp (by rw [hk]; rfl)
  have hup : L.upstream (w.rpc_mapper.ds_key a) = some us := Traffic.upstream_of_request hk
  refine ⟨a, (h.tracks.us _ a).mpr ⟨⟨hlive, by rw [hup]; rfl⟩, ?_⟩,
    (h.tracks.ds _ a).mpr ⟨hlive, rfl⟩, hk⟩
  exact Prod.ext (h.request _ _ hk).1 (h.tracks.sent a us hlive hup)

/-- What is to be written for a response stays the same as long as its request, and the object of
it, do. -/
theorem reply_iff (h : Consistent config w L) (h' : Consistent config w' L') {us : ℤ × ℤ}
    (hus : us ∈ w.rpc_queue .EGRESS .UPSTREAM)
    (hsame : ∀ a, w.rpc_mapper.find_us (.EGRESS, us) = some a →
      L.request (w.rpc_mapper.ds_key a) = some ⟨.HTTP1, .forwarded us⟩ →
      L'.request (w.rpc_mapper.ds_key a) = some ⟨.HTTP1, .forwarded us⟩
        ∧ w'.rpc_mapper.find_ds (w.rpc_mapper.ds_key a)
          = w.rpc_mapper.find_ds (w.rpc_mapper.ds_key a)
        ∧ w'.http a = w.http a ∧ w'.rpc_mapper.heap a = w.rpc_mapper.heap a)
    {x : StreamKey × Bytes} :
    Reply config w'.toHttpUpstreams us x ↔ Reply config w.toHttpUpstreams us x := by
  obtain ⟨a, hfind, hds, hk⟩ := h.of_returning hus
  obtain ⟨hk', hds', hhttp, hheap⟩ := hsame a hfind hk
  have hkey : w'.rpc_mapper.ds_key a = w.rpc_mapper.ds_key a := by
    unfold RPCMapper.ds_key
    rw [hheap]
  -- the object under the upstream stream is still this one
  have hlive : w'.rpc_mapper.Live a := ((h'.tracks.ds _ a).mp (hds'.trans hds)).1
  have hup : L'.upstream (w'.rpc_mapper.ds_key a) = some us := by
    rw [hkey]
    exact Traffic.upstream_of_request hk'
  have hfind' : w'.rpc_mapper.find_us (.EGRESS, us) = some a := by
    refine (h'.tracks.us _ a).mpr ⟨⟨hlive, by rw [hup]; rfl⟩,
      Prod.ext ?_ (h'.tracks.sent a us hlive hup)⟩
    exact (congrArg RPCMessage.type hheap).trans (h.sent hfind).2.1
  have hmessage : w'.message a = w.message a := by
    unfold HttpCalls.message
    rw [hhttp, hheap]
  constructor
  · rintro ⟨b, hb, hstream, htext⟩
    obtain rfl := Option.some.inj (hfind'.symm.trans hb)
    exact ⟨a, hfind, hstream.trans hkey, hmessage ▸ htext⟩
  · rintro ⟨b, hb, hstream, htext⟩
    obtain rfl := Option.some.inj (hfind.symm.trans hb)
    exact ⟨a, hfind', hstream.trans hkey.symm, hmessage.symm ▸ htext⟩

/-- What is found under a downstream stream is the object of a request, whose client is
connected. -/
theorem found (h : Consistent config w L) {k : StreamKey} {a : Fin n}
    (hk : w.rpc_mapper.find_ds k = some a) :
    k.1 = .EGRESS ∧ ∃ c, w.clients.lookup k.2.1 = some c := by
  obtain ⟨r, hr⟩ := Option.isSome_iff_exists.mp ((h.tracks.opened k).mpr
    ⟨a, (h.tracks.ds k a).mp hk⟩)
  exact ⟨(h.request k r hr).1, (h.request k r hr).2.1⟩

/-- Parts of the worker that nothing of this depends on, and what must stay of the others. -/
theorem congr (h : Consistent config w L) (hupstreams : ∃ http ingress,
      w'.toHttpUpstreams = { w.toHttpUpstreams with http := http, ingress := ingress })
    (hdrop : w'.ingress.drop_id = w.ingress.drop_id ∧ w'.ingress.drop_fd = w.ingress.drop_fd)
    (hqueue : w'.ingress.queue = w.ingress.queue)
    (hservice : w'.ingress.ingress_service = w.ingress.ingress_service)
    (hcap : 1 ≤ w.ingress.ingress_size_cap → 1 ≤ w'.ingress.ingress_size_cap)
    (hclients : ∀ k r c, L.request k = some r → w.clients.lookup k.2.1 = some c →
      ∃ c', w'.clients.lookup k.2.1 = some c')
    (hkeys : ∀ fd c, w'.clients.lookup fd = some c → c.fd = fd ∧ c.type = .EGRESS
      ∧ c.direction = .DOWNSTREAM) :
    Consistent config w' L := by
  obtain ⟨http, ingress, hupstreams⟩ := hupstreams
  have hmapper : w'.rpc_mapper = w.rpc_mapper := congrArg (fun s => s.rpc_mapper) hupstreams
  have hqueues : w'.rpc_queue = w.rpc_queue := congrArg (fun s => s.rpc_queue) hupstreams
  have hconnections : w'.connections = w.connections := congrArg (fun s => s.connections) hupstreams
  have hpools : w'.pools = w.pools := congrArg (fun s => s.pools) hupstreams
  -- What the upstream half reads of the state is the ids of its drops, and they have not moved.
  have htraffic : w'.toHttpUpstreams.traffic = w.toHttpUpstreams.traffic := by
    have hingress : w'.ingress = ingress := congrArg (fun s => s.ingress) hupstreams
    rw [hingress] at hdrop
    rw [hupstreams]
    unfold HttpUpstreams.traffic
    dsimp only
    rw [hdrop.1]
  constructor
  case orderly =>
    obtain ⟨ts, horderly⟩ := h.orderly
    refine ⟨ts, horderly.frame ?_ hconnections hpools (fun _ _ _ => Iff.rfl)
      ?_ fun _ _ _ _ hk => hk⟩
    · rw [htraffic]
      exact horderly.coherent
    · intro type fd _
      rw [hqueues]
  case egress =>
    rw [hconnections]
    exact h.egress
  case waiting =>
    rw [hqueue, hmapper]
    exact h.waiting
  case nodup =>
    rw [hqueue]
    exact h.nodup
  case request =>
    intro k r hk
    obtain ⟨htype, ⟨c, hc⟩, hr⟩ := h.request k r hk
    exact ⟨htype, hclients k r c hk hc, hr⟩
  case clients => exact hkeys
  case returning =>
    rw [hqueues]
    exact h.returning
  case once =>
    rw [hqueues]
    exact h.once
  case service => exact hservice.trans h.service
  case drop_fd => exact hdrop.2.trans h.drop_fd
  case cap => exact hcap h.cap

/-- The RTT is not among these facts, nor is what has been asked for. -/
theorem credits (h : Consistent config w L) (on_fly : List Buffer) (last_rtt_us : BitVec 32) :
    Consistent config { w with on_fly := on_fly, last_rtt_us := last_rtt_us } L :=
  h.congr ⟨w.http, w.ingress, rfl⟩ ⟨rfl, rfl⟩ rfl rfl id (fun _ _ c _ hc => ⟨c, hc⟩) h.clients

/-- A connection of a client changes, but not what it is: its descriptor, its type and its
direction stay. -/
theorem set_client (h : Consistent config w L) {fd : ℤ} {c c' : HTTP1Connection n}
    (hc : w.clients.lookup fd = some c)
    (hsame : (c'.fd, c'.type, c'.direction) = (c.fd, c.type, c.direction)) :
    Consistent config (w.set_client fd c') L := by
  obtain ⟨hfd, hrest⟩ := Prod.mk.inj hsame
  obtain ⟨htype, hdirection⟩ := Prod.mk.inj hrest
  refine h.congr ⟨w.http, w.ingress, rfl⟩ ⟨rfl, rfl⟩ rfl rfl id ?_ ?_
  · intro k r c₁ _ hlookup
    have hinsert := congrFun (lookup_insert_eq w.clients fd c') k.2.1
    by_cases heq : k.2.1 = fd
    · rw [heq] at hinsert ⊢
      exact ⟨c', hinsert.trans (Function.update_self _ _ _)⟩
    · exact ⟨c₁, hinsert.trans ((Function.update_of_ne heq _ _).trans hlookup)⟩
  · intro fd' c₁ hlookup
    have hinsert := (congrFun (lookup_insert_eq w.clients fd c') fd').symm.trans hlookup
    by_cases heq : fd' = fd
    · rw [heq, Function.update_self] at hinsert
      obtain rfl := Option.some.inj hinsert
      rw [hfd, htype, hdirection, heq]
      exact h.clients fd c hc
    · rw [Function.update_of_ne heq] at hinsert
      exact h.clients fd' c₁ hinsert

/-! ## A request is read -/

variable {c c' : HTTP1Connection n} {s : HttpWorker n} {rpc : Fin n} {fd : ℤ}

/-- The object for a new request is none of those that wait. -/
theorem not_waiting (h : Consistent config w L) (htaken : c.Taken w.toHttpWorker rpc s) :
    rpc ∉ w.ingress.queue := by
  intro hmem
  obtain ⟨hlive, -⟩ := (h.tracks.ds _ rpc).mp (h.ready hmem).1
  refine RPCMapper.live_iff.mp hlive .HTTP1 ?_
  show rpc ∈ w.rpc_mapper.http_pool
  rw [htaken.pool]
  exact List.mem_cons_self

/-- A request that is opened for a client, ready or sent on a stream that was made up. -/
theorem opened (h : Consistent config w L) (hc : w.clients.lookup fd = some c)
    (htaken : c.Taken w.toHttpWorker rpc s) (hnew : L.request c.next_key = none) {r : OpenRequest}
    (hr : r = ⟨.HTTP1, .ready⟩ ∨ ∃ us, r = ⟨.HTTP1, .forwarded us⟩)
    (hrequest : L'.request = Function.update L.request c.next_key (some r))
    (hroutes : ∀ k us, 0 < us.1 → ((k, us) ∈ L'.routes ↔ (k, us) ∈ L.routes))
    (hcoherent : Traffic.Coherent config.toTrafficConfig (s.traffic w.answers, L'))
    (hingress : s.ingress.ingress_service = w.ingress.ingress_service
      ∧ s.ingress.drop_fd = w.ingress.drop_fd
      ∧ s.ingress.ingress_size_cap = w.ingress.ingress_size_cap)
    (hqueue : r = ⟨.HTTP1, .ready⟩ ∧ s.ingress.queue = w.ingress.queue ++ [rpc]
      ∨ r ≠ ⟨.HTTP1, .ready⟩ ∧ s.ingress.queue = w.ingress.queue)
    (hreal : ∀ type fd, 0 < fd → ((s.rpc_queue type .UPSTREAM).filter fun x => x.1 = fd)
      = (w.rpc_queue type .UPSTREAM).filter fun x => x.1 = fd)
    (hreturning : ∀ us ∈ s.rpc_queue .EGRESS .UPSTREAM, us ∈ w.rpc_queue .EGRESS .UPSTREAM
      ∨ r = ⟨.HTTP1, .forwarded us⟩)
    (honce : (s.rpc_queue .EGRESS .UPSTREAM).Nodup) :
    Consistent config { w with toHttpWorker := s } L' := by
  have hother : ∀ k r', L.request k = some r' → L'.request k = some r' := by
    intro k r' hk
    rw [hrequest, Function.update_of_ne, hk]
    rintro rfl
    rw [hnew] at hk
    cases hk
  have hself : L'.request c.next_key = some r := by rw [hrequest, Function.update_self]
  -- the new object is found under the stream that is next on the connection; nothing else has
  -- moved
  have hfound : s.rpc_mapper.find_ds = Function.update w.rpc_mapper.find_ds c.next_key (some rpc) :=
    htaken.find_ds
  constructor
  case orderly =>
    obtain ⟨ts, horderly⟩ := h.orderly
    refine ⟨ts, horderly.frame hcoherent rfl rfl hroutes ?_ fun k http us _ hk => hother k _ hk⟩
    intro type fd hfd
    exact (hreal type fd hfd).symm ▸ List.Sublist.refl _
  case egress => exact h.egress
  case waiting =>
    intro a
    show a ∈ s.ingress.queue ↔ ∃ k, s.rpc_mapper.find_ds k = some a ∧ _
    have hmem : a ∈ s.ingress.queue ↔ a ∈ w.ingress.queue ∨ r = ⟨.HTTP1, .ready⟩ ∧ a = rpc := by
      rcases hqueue with ⟨hready, hqueue⟩ | ⟨hready, hqueue⟩
      · rw [hqueue, List.mem_append, List.mem_singleton, and_iff_right hready]
      · rw [hqueue, or_iff_left fun heq => hready heq.1]
    rw [hmem, hfound, h.waiting a]
    constructor
    · rintro (⟨k, hfind, hk⟩ | ⟨hready, rfl⟩)
      · refine ⟨k, ?_, hother k _ hk⟩
        rw [Function.update_of_ne, hfind]
        rintro rfl
        rw [hnew] at hk
        cases hk
      · exact ⟨c.next_key, Function.update_self _ _ _, by rw [hself, hready]⟩
    · rintro ⟨k, hfind, hk⟩
      by_cases hkey : k = c.next_key
      · subst hkey
        rw [hself] at hk
        rw [Function.update_self] at hfind
        exact .inr ⟨Option.some.inj hk, (Option.some.inj hfind).symm⟩
      · rw [hrequest, Function.update_of_ne hkey] at hk
        exact .inl ⟨k, (Function.update_of_ne hkey _ _).symm.trans hfind, hk⟩
  case nodup =>
    show s.ingress.queue.Nodup
    rcases hqueue with ⟨-, hqueue⟩ | ⟨-, hqueue⟩
    · -- an object that waits is not in the pool, and this one was taken from there
      rw [hqueue, List.nodup_append]
      refine ⟨h.nodup, List.nodup_singleton _, ?_⟩
      intro a ha b hb
      rw [List.mem_singleton.mp hb]
      rintro rfl
      exact h.not_waiting htaken ha
    · rw [hqueue]
      exact h.nodup
  case request =>
    intro k r' hk
    by_cases hkey : k = c.next_key
    · subst hkey
      obtain rfl := Option.some.inj (hself.symm.trans hk)
      refine ⟨rfl, ⟨c, ?_⟩, hr⟩
      show w.clients.lookup c.fd = some c
      rw [(h.clients fd c hc).1, hc]
    · rw [hrequest, Function.update_of_ne hkey] at hk
      exact h.request k r' hk
  case clients => exact h.clients
  case returning =>
    intro us hus
    rcases hreturning us hus with hold | rfl
    · obtain ⟨k, hk⟩ := h.returning us hold
      exact ⟨k, hother k _ hk⟩
    · exact ⟨c.next_key, hself⟩
  case once => exact honce
  case service => exact hingress.1.trans h.service
  case drop_fd => exact hingress.2.1.trans h.drop_fd
  case cap =>
    show 1 ≤ s.ingress.ingress_size_cap
    rw [hingress.2.2]
    exact h.cap

/-- **A request of a client** joins the queue, or its answer joins the responses that go back. -/
theorem accept_request (h : Consistent config w L) (hedge : config.ids.is_ingress = true)
    (hrole : config.is_frontend = false) (hdrops : w.ingress.drop_id.toNat + 1 < 2 ^ 31)
    (hc : w.clients.lookup fd = some c) {r : PicoHttp.Request} {data : Bytes}
    (haccept : (c.fill data).accept_request ⟨config.ids, config.is_frontend⟩ w.toHttpWorker r
      = .ok (c', s)) :
    ∃ rpc L', Consistent config ({ w with toHttpWorker := s }.set_client fd c') L'
      ∧ c.Taken w.toHttpWorker rpc s
      ∧ (s.ingress = { w.ingress with last_rpc_id := w.ingress.last_rpc_id + 1,
                                      queue := w.ingress.queue ++ [rpc] }
          ∧ s.rpc_queue = w.rpc_queue
        ∨ w.ingress.ingress_size_cap ≤ w.ingress.queue.length ∧ s.ingress
          = { w.ingress with drop_id := w.ingress.drop_id + 1 }
          ∧ ∃ id, s.rpc_queue .EGRESS .UPSTREAM = w.rpc_queue .EGRESS .UPSTREAM
            ++ [(w.ingress.drop_fd, id)]) := by
  obtain ⟨hfd, htype, -⟩ := h.clients fd c hc
  obtain ⟨rpc, hnew, hfilled, houtcome⟩ :=
    HTTP1Connection.accept_request_coherent (c := c.fill data) hedge hrole
    h.service h.drop_fd hdrops htype h.coherent haccept
  obtain ⟨hconnection, -⟩ :=
    HTTP1Connection.accept_request_taken (c := c.fill data) hedge hrole htype haccept
  have htaken : c.Taken w.toHttpWorker rpc s := hfilled.of_fill
  have hsame : (c'.fd, c'.type, c'.direction) = (c.fd, c.type, c.direction) := by
    rw [hconnection]; rfl
  rcases houtcome with ⟨hqueued, hingress, hcoherent⟩
    | ⟨hdeclined, hingress, us, L', hus, hdrop, hrequest, hroutes, hcoherent⟩
  · have hopened : Consistent config { w with toHttpWorker := s }
        (L.set c.next_key (some ⟨.HTTP1, .ready⟩)) :=
      h.opened hc htaken hnew (.inl rfl) rfl
      (fun _ _ _ => Iff.rfl) hcoherent (by rw [hingress]; exact ⟨rfl, rfl, rfl⟩)
        (.inl ⟨rfl, by rw [hingress]⟩)
      (fun _ _ _ => by rw [hqueued.rpc_queue])
        (fun us hmem => .inl (by rw [← hqueued.rpc_queue]; exact hmem))
      (by rw [hqueued.rpc_queue]; exact h.once)
    exact ⟨rpc, _, hopened.set_client hc hsame, htaken, .inl ⟨hingress, hqueued.rpc_queue⟩⟩
  · have hqueue : s.rpc_queue .EGRESS .UPSTREAM = w.rpc_queue .EGRESS .UPSTREAM ++ [us] := by
      rw [hdeclined.rpc_queue, hdrop]
      unfold HttpCalls.enqueue
      rw [HttpCalls.rpc_queue_set_queue, if_pos ⟨rfl, rfl⟩]
    -- the descriptor of the drops is not that of a connection
    have hmade : us.1 ≤ 0 := by
      rw [hus]
      unfold TrafficConfig.drop_fd
      omega
    have hopened := h.opened (r := ⟨.HTTP1, .forwarded us⟩) hc htaken hnew
      (.inr ⟨us, rfl⟩) hrequest ?_ hcoherent
      (by rw [hingress]; exact ⟨rfl, rfl, rfl⟩)
      (.inr ⟨fun heq => Phase.noConfusion (OpenRequest.mk.inj heq).2, by rw [hingress]⟩) ?_ ?_ ?_
    · exact ⟨rpc, _, hopened.set_client hc hsame, htaken,
        .inr ⟨hdeclined.full, hingress, us.2, by rw [hqueue, hdrop]⟩⟩
    · intro k us' hreal
      rw [hroutes, List.mem_cons, or_iff_right]
      rintro heq
      obtain rfl := (Prod.mk.inj heq).2
      omega
    · intro type fd hreal
      rw [hdeclined.rpc_queue]
      unfold HttpCalls.enqueue
      rw [HttpCalls.rpc_queue_set_queue]
      by_cases htype : type = .EGRESS
      · rw [if_pos ⟨htype, rfl⟩, ← hdrop, htype, List.filter_append, List.filter_singleton,
          decide_eq_false (by omega)]
        exact List.append_nil _
      · rw [if_neg fun heq => htype heq.1]
    · intro us' hmem
      rw [hqueue] at hmem
      rcases List.mem_append.mp hmem with hold | hlast
      · exact .inl hold
      · rw [List.mem_singleton.mp hlast]
        exact .inr rfl
    · rw [hqueue]
      refine List.nodup_append.mpr ⟨h.once, List.nodup_singleton _, ?_⟩
      intro us₁ hmem us₂ hlast
      rw [List.mem_singleton.mp hlast]
      rintro rfl
      -- the stream for a drop is new
      obtain ⟨k, hk⟩ := h.returning us₁ hmem
      have hroute := h.coherent.ledger.routed k us₁ (Traffic.upstream_of_request hk)
      have hdistinct := hcoherent.ledger.distinct
      dsimp only at hdistinct hroute
      rw [hroutes, List.map_cons] at hdistinct
      refine (List.nodup_cons.mp hdistinct).1 (List.mem_map.mpr ⟨_, hroute, ?_⟩)
      exact Prod.ext (h.request k _ hk).1 rfl

/-! ## Responses -/

/-- Bytes of a frontend. If they complete a response, it joins those that go back. -/
theorem read (h : Consistent config w L) {parser : HttpParser} {data : Bytes} {s : HttpUpstreams n}
    (hok : w.toHttpUpstreams.read parser config fd data = .ok s) :
    Consistent config { w with toHttpUpstreams := s } L ∧ Keeps w { w with toHttpUpstreams := s }
      ∧ w.rpc_queue .EGRESS .UPSTREAM <+: s.rpc_queue .EGRESS .UPSTREAM := by
  obtain ⟨ts, horderly⟩ := h.orderly
  obtain ⟨c, hc⟩ : ∃ c, w.connections fd = some c := by
    unfold HttpUpstreams.read at hok
    split at hok
    · cases hok
    · rename_i c hc
      exact ⟨c, hc⟩
  have hpaired := horderly.paired fd c hc
  have htype := h.egress fd c hc
  obtain ⟨c', calls, heffect, hs⟩ := HttpUpstreams.read_effect hc hpaired.direction hok
  have hmapper : s.rpc_mapper = w.rpc_mapper := by rw [hs]; exact heffect.rpc_mapper
  have hqueues : s.rpc_queue = calls.rpc_queue := by rw [hs]; rfl
  have hconnections : s.connections = Function.update w.connections fd (some c') := by rw [hs]; rfl
  have hingress : s.ingress = w.ingress := by rw [hs]; rfl
  -- the response that is complete is that of a request that is open, and is not in the queue
  obtain ⟨answer, hanswer, hnew⟩ : ∃ answer, s.rpc_queue = w.answerQueue c.type fd answer
      ∧ ∀ us_stream_id, answer = some us_stream_id → (fd, us_stream_id)
        ∉ w.rpc_queue .EGRESS .UPSTREAM
        ∧ ∃ k, L.request k = some ⟨.HTTP1, .forwarded (fd, us_stream_id)⟩ := by
    rcases heffect.queue with ⟨-, hsame⟩ | ⟨hidle, -, hsame⟩
    · exact ⟨none, hqueues.trans hsame, fun _ heq => by cases heq⟩
    · -- the connection was busy with the request it sent last
      refine ⟨some c.last_id, ?_, ?_⟩
      · rw [hqueues, hsame, hpaired.direction, hpaired.descriptor]
        rfl
      · intro us_stream_id heq
        obtain rfl := Option.some.inj heq
        obtain ⟨k, http, hk⟩ := hpaired.busy hidle
        refine ⟨fun hmem => ?_, k, ?_⟩
        · rw [← htype] at hmem
          exact hpaired.busy_last hidle (hpaired.queued _ hmem).1
        · obtain ⟨-, -, heq | ⟨us, heq⟩⟩ := h.request k _ hk
          · cases heq
          · rw [hk, (OpenRequest.mk.inj heq).1]
  have hfirst : s.rpc_queue .EGRESS .UPSTREAM
      = w.rpc_queue .EGRESS .UPSTREAM
        ++ (answer.map fun us_stream_id => (fd, us_stream_id)).toList := by
    rw [hanswer, htype]
    exact HttpUpstreams.answerQueue_eq w.toHttpUpstreams .EGRESS fd answer
  refine ⟨?_, ?_, ⟨_, hfirst.symm⟩⟩
  · constructor
    case orderly => exact ⟨_, HttpUpstreams.read_orderly horderly hc hok hanswer⟩
    case egress =>
      show ∀ fd' c₁, s.connections fd' = some c₁ → _
      rw [hconnections]
      exact h.egress_update ((congrArg (fun x => x.2.1) heffect.same.1).trans htype) fd
    case waiting =>
      show ∀ a, a ∈ s.ingress.queue ↔ ∃ k, s.rpc_mapper.find_ds k = some a ∧ _
      rw [hingress, hmapper]
      exact h.waiting
    case nodup =>
      show s.ingress.queue.Nodup
      rw [hingress]
      exact h.nodup
    case request => exact h.request
    case clients => exact h.clients
    case returning =>
      intro us hus
      rw [show ({ w with toHttpUpstreams := s } : IngressWorker n).rpc_queue = s.rpc_queue
        from rfl, hfirst,
        List.mem_append] at hus
      rcases hus with hold | hlast
      · exact h.returning us hold
      · cases answer with
        | none => cases hlast
        | some us_stream_id =>
            obtain rfl := List.mem_singleton.mp hlast
            exact (hnew us_stream_id rfl).2
    case once =>
      show (s.rpc_queue .EGRESS .UPSTREAM).Nodup
      rw [hfirst]
      cases answer with
      | none =>
          rw [Option.map_none, Option.toList_none, List.append_nil]
          exact h.once
      | some us_stream_id =>
          refine List.nodup_append.mpr ⟨h.once, List.nodup_singleton _, ?_⟩
          intro us hus us' hlast
          rw [List.mem_singleton.mp hlast]
          rintro rfl
          exact (hnew us_stream_id rfl).1 hus
    case service => exact (congrArg Ingress.ingress_service hingress).trans h.service
    case drop_fd => exact (congrArg Ingress.drop_fd hingress).trans h.drop_fd
    case cap =>
      show 1 ≤ s.ingress.ingress_size_cap
      rw [hingress]
      exact h.cap
  · refine ⟨hingress, rfl, ?_⟩
    intro a ha
    constructor
    · -- only the object of a request that was sent may change
      by_contra hne
      have hobject := heffect.object a (by rw [hs] at hne; exact hne)
      exact h.not_sent ha (RPCMapper.get_us_rpc_eq_ok.mp hobject)
    · show s.rpc_mapper.heap a = _
      rw [hmapper]

/-- For the upstream half, a response that goes back leaves its queue, and its request is closed. -/
theorem respond_eq {src : ℤ × ℤ} {rest : List (ℤ × ℤ)}
    (hqueue : w.rpc_queue .EGRESS .UPSTREAM = src :: rest)
    (hreturned : Returned config src rpc
      { w with toHttpCalls := w.set_queue .EGRESS .UPSTREAM rest } w') :
    w.toHttpUpstreams.respond config .EGRESS false (w.ingress.queue.count rpc)
      = .ok { w.toHttpUpstreams.set_traffic w'.toHttpUpstreams.traffic with
          toHttpCalls := (w.toHttpUpstreams.set_traffic w'.toHttpUpstreams.traffic).set_queue
            .EGRESS .UPSTREAM rest } := by
  have hhandled : w.toHttpUpstreams.traffic.handle config.toTrafficConfig
      (.forward_response .EGRESS src.1 src.2 false (w.ingress.queue.count rpc))
        = .ok w'.toHttpUpstreams.traffic :=
    hreturned.handled
  unfold HttpUpstreams.respond
  rw [hqueue]
  dsimp only
  rw [hhandled]
  rfl

/-- The request of the first response is closed, once that has gone back to its client. -/
theorem closed (h : Consistent config w L) {src : ℤ × ℤ} {rest : List (ℤ × ℤ)}
    (hqueue : w.rpc_queue .EGRESS .UPSTREAM = src :: rest)
    (hreturned : Returned config src rpc
      { w with toHttpCalls := w.set_queue .EGRESS .UPSTREAM rest } w') :
    Consistent config w' (L.set (w.rpc_mapper.ds_key rpc) none) := by
  obtain ⟨-, htype, hk⟩ := h.sent hreturned.found
  obtain ⟨ts, horderly⟩ := h.orderly
  obtain ⟨hconnections, hpools, hqueues, hingress, -⟩ := hreturned.frame
  obtain ⟨c, c', hc, hsame, -, hclients⟩ := hreturned.clients
  have hrest : w'.rpc_queue .EGRESS .UPSTREAM = rest := by
    rw [hqueues]
    exact (HttpCalls.rpc_queue_set_queue w.toHttpCalls _ _ _ _ _).trans (if_pos ⟨rfl, rfl⟩)
  have hledger : L.Step config.toTrafficConfig
      (.forward_response .EGRESS src.1 src.2 false (w.ingress.queue.count rpc))
      (L.set (w.rpc_mapper.ds_key rpc) none) := by
    have hstep := @Ledger.Step.forward_response config.toTrafficConfig
      L (w.rpc_mapper.ds_key rpc) src .HTTP1 false
      (w.ingress.queue.count rpc) hk
    rwa [if_pos (.inl rfl), show (w.rpc_mapper.ds_key rpc).1 = .EGRESS from htype] at hstep
  have hdone := HttpUpstreams.respond_orderly horderly hqueue (respond_eq hqueue hreturned) hledger
  have honce := h.once
  rw [hqueue] at honce
  constructor
  case orderly =>
    refine ⟨_, hdone.frame hdone.coherent hconnections hpools (fun _ _ _ => Iff.rfl)
      ?_ fun _ _ _ _ hk => hk⟩
    intro type fd _
    rw [hqueues]
    exact List.Sublist.refl _
  case egress =>
    rw [hconnections]
    exact h.egress
  case waiting =>
    intro a
    rw [hingress, hreturned.find_ds]
    -- the entry that is closed was sent, so it is not one of those that wait
    refine (h.waiting a).trans ⟨?_, ?_⟩
    · rintro ⟨k, hfind', hready⟩
      have hne : k ≠ w.rpc_mapper.ds_key rpc := by
        rintro rfl
        rw [hk] at hready
        cases hready
      exact ⟨k, (Function.update_of_ne hne _ _).trans hfind',
        Ledger.request_set_none.mpr ⟨hne, hready⟩⟩
    · rintro ⟨k, hfind', hopen⟩
      obtain ⟨hne, hready⟩ := Ledger.request_set_none.mp hopen
      exact ⟨k, (Function.update_of_ne hne _ _).symm.trans hfind', hready⟩
  case nodup =>
    rw [hingress]
    exact h.nodup
  case request =>
    intro k r hopen
    obtain ⟨htype', hclient, hphase⟩ :=
      (h.set_client hc hsame).request k r (Ledger.request_set_none.mp hopen).2
    rw [hclients]
    exact ⟨htype', hclient, hphase⟩
  case clients =>
    rw [hclients]
    exact (h.set_client hc hsame).clients
  case returning =>
    rw [hrest]
    intro us hus
    obtain ⟨k, hopen⟩ := h.returning us (by rw [hqueue]; exact List.mem_cons_of_mem _ hus)
    refine ⟨k, Ledger.request_set_none.mpr ⟨?_, hopen⟩⟩
    -- the queue has each response once, so this one is of another request
    rintro rfl
    rw [hk] at hopen
    obtain rfl := Phase.forwarded.inj (OpenRequest.mk.inj (Option.some.inj hopen)).2
    exact (List.nodup_cons.mp honce).1 hus
  case once =>
    rw [hrest]
    exact (List.nodup_cons.mp honce).2
  case service => exact (congrArg Ingress.ingress_service hingress).trans h.service
  case drop_fd => exact (congrArg Ingress.drop_fd hingress).trans h.drop_fd
  case cap =>
    rw [hingress]
    exact h.cap

/-- What is done for the first of the responses. -/
theorem returned (h : Consistent config w L) {src : ℤ × ℤ} {rest : List (ℤ × ℤ)}
    (hok : { w with toHttpCalls := w.set_queue .EGRESS .UPSTREAM rest }.forward_response config src
      = .ok w') :
    ∃ rpc, Returned config src rpc
      { w with toHttpCalls := w.set_queue .EGRESS .UPSTREAM rest } w' :=
  forward_response_spec (w := { w with toHttpCalls := w.set_queue .EGRESS .UPSTREAM rest })
    (fun fd c hc => (h.clients fd c hc).2.1) (fun _ hrpc => (h.sent hrpc).2.1) hok

/-- The first of the responses goes back to its client, with the content of the object that it
belongs to; the others are not touched. -/
theorem forward_response (h : Consistent config w L) {src : ℤ × ℤ} {rest : List (ℤ × ℤ)}
    (hqueue : w.rpc_queue .EGRESS .UPSTREAM = src :: rest)
    (hok : { w with toHttpCalls := w.set_queue .EGRESS .UPSTREAM rest }.forward_response config src
      = .ok w') :
    ∃ L', Consistent config w' L' ∧ Keeps w w' ∧ w'.rpc_queue .EGRESS .UPSTREAM = rest
      ∧ (∃ x, Reply config w.toHttpUpstreams src x ∧ w'.written = w.written ++ [x])
      ∧ ∀ us ∈ rest, ∀ x, Reply config w'.toHttpUpstreams us x
        ↔ Reply config w.toHttpUpstreams us x := by
  obtain ⟨rpc, hreturned⟩ := h.returned hok
  obtain ⟨-, -, hqueues, hingress, hfly⟩ := hreturned.frame
  have hconsistent := h.closed hqueue hreturned
  refine ⟨_, hconsistent, ⟨hingress, hfly, ?_⟩, ?_, hreturned.written, ?_⟩
  · intro a ha
    refine hreturned.others a ?_
    rintro rfl
    exact h.not_sent ha hreturned.found
  · rw [hqueues]
    exact (HttpCalls.rpc_queue_set_queue w.toHttpCalls _ _ _ _ _).trans (if_pos ⟨rfl, rfl⟩)
  · -- the other responses are those of other requests: the queue has each of them once
    intro us hus x
    refine h.reply_iff hconsistent (by rw [hqueue]; exact List.mem_cons_of_mem _ hus)
      fun a _ hopen => ?_
    have hne : w.rpc_mapper.ds_key a ≠ w.rpc_mapper.ds_key rpc := by
      intro heq
      rw [heq, (h.sent hreturned.found).2.2] at hopen
      obtain rfl := Phase.forwarded.inj (OpenRequest.mk.inj (Option.some.inj hopen)).2
      have honce := h.once
      rw [hqueue] at honce
      exact (List.nodup_cons.mp honce).1 hus
    refine ⟨Ledger.request_set_none.mpr ⟨hne, hopen⟩, ?_,
      hreturned.others a fun heq => hne (congrArg w.rpc_mapper.ds_key heq)⟩
    rw [hreturned.find_ds]
    exact Function.update_of_ne hne _ _

/-- While a response is to go back there is a client: it answers a request, and the client of a
request that is open is connected. -/
theorem connected (h : Consistent config w L) {us : ℤ × ℤ}
    (hus : us ∈ w.rpc_queue .EGRESS .UPSTREAM) : w.clients.entries.isEmpty = false := by
  obtain ⟨k, hk⟩ := h.returning us hus
  obtain ⟨-, ⟨c, hc⟩, -⟩ := h.request k _ hk
  rw [List.isEmpty_eq_false_iff]
  intro hnil
  unfold AList.lookup at hc
  rw [hnil] at hc
  cases hc

/-- **All responses go back**, each to the client whose request it answers, in the order of the
queue. While one is to go back there is a client, so the loop does not return before its end. -/
theorem forward (h : Consistent config w L) {queue : List (ℤ × ℤ)}
    (hqueue : w.rpc_queue .EGRESS .UPSTREAM = queue) (hok : w.forward config queue = .ok w') :
    ∃ L', Consistent config w' L' ∧ Keeps w w' ∧ w'.rpc_queue .EGRESS .UPSTREAM = []
      ∧ ∃ new, List.Forall₂ (Reply config w.toHttpUpstreams) queue new
      ∧ w'.written = w.written ++ new := by
  -- On the queue the loop walks; the ledger changes with every response it writes.
  induction queue generalizing w L with
  | nil =>
      obtain rfl := Except.ok.inj hok
      exact ⟨L, h, .refl w, hqueue, [], .nil, (List.append_nil _).symm⟩
  | cons src rest ih =>
      unfold IngressWorker.forward at hok
      dsimp only at hok
      -- The return of the loop when no client is connected is not taken.
      rw [h.connected (by rw [hqueue]; exact List.mem_cons_self), if_neg Bool.false_ne_true] at hok
      obtain ⟨w₁, hone, hrest⟩ := bind_eq_ok.mp hok
      obtain ⟨L₁, h₁, hkeeps, hqueue₁, ⟨x, hx, hwritten⟩, hlater⟩ := h.forward_response hqueue hone
      obtain ⟨L', h', hkeeps', hdone, new, hnew, hwritten'⟩ := ih h₁ hqueue₁ hrest
      refine ⟨L', h', hkeeps.trans hkeeps', hdone, x :: new, .cons hx ?_, ?_⟩
      · have hboth := (List.forall₂_and_left _ _).mpr ⟨hlater, hnew⟩
        exact hboth.imp fun us y hy => (hy.1 y).mp hy.2
      · rw [hwritten', hwritten, List.append_assoc]
        rfl

/-! ## A request is sent -/

/-- The first request of the queue is taken out of it, and its Credit Request is no longer on the
fly. -/
def dequeued (w : IngressWorker n) (rest : List (Fin n)) : IngressWorker n :=
  { w with ingress := { w.ingress with queue := rest, has_credit_request_on_fly := false } }

/-- The first request of the queue is sent: it leaves the queue, and the ledger has the stream that
it was sent on. -/
theorem forwarded (h : Consistent config w L) {rest : List (Fin n)}
    (hqueue : w.ingress.queue = rpc :: rest) {s : HttpUpstreams n} {us : ℤ × ℤ}
    {ts : HttpUpstreams.Run n}
    (horderly : HttpUpstreams.Orderly config
      (s, HttpUpstreams.sendLedger L (w.rpc_mapper.ds_key rpc) .HTTP1 us) ts)
    (hegress : ∀ fd c, s.connections fd = some c → c.type = .EGRESS)
    (hingress : s.ingress = (dequeued w rest).ingress)
    (hds : s.rpc_mapper.find_ds = w.rpc_mapper.find_ds) (hqueues : s.rpc_queue = w.rpc_queue) :
    Consistent config { dequeued w rest with toHttpUpstreams := s }
      (HttpUpstreams.sendLedger L (w.rpc_mapper.ds_key rpc) .HTTP1 us) := by
  obtain ⟨hfind, hk⟩ := h.ready (by rw [hqueue]; exact List.mem_cons_self)
  have hnodup := h.nodup
  rw [hqueue] at hnodup
  obtain ⟨hnot, hnodup⟩ := List.nodup_cons.mp hnodup
  have hsame : ∀ k, k ≠ w.rpc_mapper.ds_key rpc →
      (HttpUpstreams.sendLedger L (w.rpc_mapper.ds_key rpc) .HTTP1 us).request k = L.request k :=
    fun k hne => Function.update_of_ne hne _ _
  have hself : (HttpUpstreams.sendLedger L (w.rpc_mapper.ds_key rpc) .HTTP1 us).request
      (w.rpc_mapper.ds_key rpc) = some ⟨.HTTP1, .forwarded us⟩ := Function.update_self _ _ _
  constructor
  case orderly => exact ⟨_, horderly⟩
  case egress => exact hegress
  case waiting =>
    intro a
    show a ∈ s.ingress.queue ↔ ∃ k, s.rpc_mapper.find_ds k = some a ∧ _
    rw [hingress, hds]
    show a ∈ rest ↔ _
    -- of the requests that wait only the one that is sent gets another phase, and it is not in
    -- `rest`
    constructor
    · intro ha
      obtain ⟨k, hka, hk'⟩ := (h.waiting a).mp (by rw [hqueue]; exact List.mem_cons_of_mem _ ha)
      refine ⟨k, hka, (hsame k ?_).trans hk'⟩
      rintro rfl
      obtain rfl := Option.some.inj (hfind.symm.trans hka)
      exact hnot ha
    · rintro ⟨k, hka, hk'⟩
      by_cases hne : k = w.rpc_mapper.ds_key rpc
      · rw [hne, hself] at hk'
        cases hk'
      · rw [hsame k hne] at hk'
        have hmem := (h.waiting a).mpr ⟨k, hka, hk'⟩
        rw [hqueue] at hmem
        refine (List.mem_cons.mp hmem).resolve_left ?_
        rintro rfl
        exact hne ((h.tracks.ds k a).mp hka).2.symm
  case nodup =>
    show s.ingress.queue.Nodup
    rw [hingress]
    exact hnodup
  case request =>
    intro k r hr
    by_cases hne : k = w.rpc_mapper.ds_key rpc
    · subst hne
      obtain rfl := Option.some.inj (hself.symm.trans hr)
      exact ⟨(h.request _ _ hk).1, (h.request _ _ hk).2.1, .inr ⟨_, rfl⟩⟩
    · exact h.request k r ((hsame k hne).symm.trans hr)
  case clients => exact h.clients
  case returning =>
    intro us' hus
    obtain ⟨k, hk'⟩ := h.returning us' (by rw [← hqueues]; exact hus)
    refine ⟨k, (hsame k ?_).trans hk'⟩
    rintro rfl
    rw [hk] at hk'
    cases hk'
  case once =>
    show (s.rpc_queue .EGRESS .UPSTREAM).Nodup
    rw [hqueues]
    exact h.once
  case service => exact (congrArg Ingress.ingress_service hingress).trans h.service
  case drop_fd => exact (congrArg Ingress.drop_fd hingress).trans h.drop_fd
  case cap =>
    show 1 ≤ s.ingress.ingress_size_cap
    rw [hingress]
    exact h.cap

/-- What sending a request does to the objects and the connections: the object of the request gets
the stream it was sent on, and no connection is left with something to write. -/
structure Sends (w w' : IngressWorker n) (rpc : Fin n) : Prop where
  clients : w'.clients = w.clients
  http : w'.http = w.http
  find_ds : w'.rpc_mapper.find_ds = w.rpc_mapper.find_ds
  object : ∃ us : ℤ × ℤ, 0 < us.1 ∧ w'.rpc_mapper.heap rpc
    = { w.rpc_mapper.heap rpc with us_fd := us.1, us_stream_id := us.2 }
  others : ∀ a, a ≠ rpc → w'.rpc_mapper.heap a = w.rpc_mapper.heap a
  connections : ∀ fd c, w'.connections fd = some c → c.rpc_message = none
    ∨ w.connections fd = some c
  pools : ∀ id, (w.pools id).isSome → (w'.pools id).isSome

/-- The request whose turn it is goes out, with the text it was admitted with. -/
theorem send_sub_request (h : Consistent config w L) {rest : List (Fin n)}
    (hqueue : w.ingress.queue = rpc :: rest) {sent : StreamKey × Bytes}
    (hok : (dequeued w rest).send_sub_request config rpc = .ok (sent, w')) :
    ∃ L', Consistent config w' L' ∧ sent = w.entry rpc ∧ w'.rpc_queue = w.rpc_queue
      ∧ Keeps (dequeued w rest) w'
      ∧ w'.written = w.written ∧ Sends w w' rpc ∧ ∀ us ∈ w.rpc_queue .EGRESS .UPSTREAM, ∀ x,
        Reply config w'.toHttpUpstreams us x ↔ Reply config w.toHttpUpstreams us x := by
  obtain ⟨hfind, hk⟩ := h.ready (by rw [hqueue]; exact List.mem_cons_self)
  obtain ⟨ts, horderly⟩ := h.orderly
  have hkey : (ConnectionType.EGRESS, (w.rpc_mapper.heap rpc).ds_fd,
      (w.rpc_mapper.heap rpc).ds_stream_id)
      = w.rpc_mapper.ds_key rpc := Prod.ext (h.request _ _ hk).1.symm rfl
  -- the queue of requests is not part of the upstream half
  have hstart : HttpUpstreams.Orderly config ((dequeued w rest).toHttpUpstreams, L) ts :=
    horderly.frame horderly.coherent rfl rfl (fun _ _ _ => Iff.rfl)
      (fun _ _ _ => List.Sublist.refl _)
      fun _ _ _ _ hk => hk
  unfold IngressWorker.send_sub_request at hok
  dsimp only at hok
  rw [show (dequeued w rest).rpc_mapper = w.rpc_mapper from rfl, hkey] at hok
  obtain ⟨⟨us_fd, s₁⟩, hroute, hok⟩ := bind_eq_ok.mp hok
  obtain ⟨⟨us_stream_id, text, s⟩, hforward, hok⟩ := bind_eq_ok.mp hok
  obtain ⟨rfl, rfl⟩ := Prod.mk.inj (Except.ok.inj hok)
  obtain ⟨c, heffect⟩ := HttpUpstreams.send_effect hroute hforward hstart.pools fun rpc' hrpc' => by
    obtain ⟨-, -, hkey', -⟩ := hstart.coherent.get_ds_rpc hk hrpc'
    exact congrArg Prod.fst hkey'
  have htype := h.egress us_fd c heffect.found
  obtain ⟨id, _, pool', -, -, -, -, -, rfl⟩ := HttpUpstreams.route_request_effect hroute
  obtain ⟨rpc', hfind', rfl, hhttp, hpools, hingress, hds, hself, hothers⟩ :=
    HttpUpstreams.forward_request_egress (by exact heffect.found) htype hforward
  obtain rfl := Option.some.inj (hfind.symm.trans hfind')
  have hqueues : s.rpc_queue = w.rpc_queue := heffect.queue
  have hegress : ∀ fd' c₁, s.connections fd' = some c₁ → c₁.type = .EGRESS := by
    rw [heffect.connections]
    refine h.egress_update ?_ us_fd
    exact htype
  have hconsistent := h.forwarded hqueue
    (HttpUpstreams.forward_orderly hstart hk hroute hforward) hegress hingress hds hqueues
  have hreal : 0 < us_fd := (hstart.paired us_fd c heffect.found).real
  refine ⟨_, hconsistent, rfl, hqueues, ⟨hingress, rfl, ?_⟩, rfl,
    ⟨rfl, hhttp, hds, ⟨(us_fd, us_stream_id), hreal, hself⟩, hothers, ?_, ?_⟩, ?_⟩
  · intro a ha
    have hne : a ≠ rpc := by
      rintro rfl
      have hnodup := h.nodup
      rw [hqueue] at hnodup
      exact (List.nodup_cons.mp hnodup).1 ha
    exact ⟨congrFun hhttp a, hothers a hne⟩
  · show ∀ fd' c₁, s.connections fd' = some c₁ → _
    rw [heffect.connections]
    intro fd' c₁ hc₁
    by_cases hfd : fd' = us_fd
    · rw [hfd, Function.update_self] at hc₁
      obtain rfl := Option.some.inj hc₁
      exact .inl rfl
    · rw [Function.update_of_ne hfd] at hc₁
      exact .inr hc₁
  · intro id' hsome
    show (s.pools id').isSome
    rw [hpools]
    show (Function.update w.pools id (some pool') id').isSome
    by_cases hid : id' = id
    · rw [hid, Function.update_self]
      rfl
    · rw [Function.update_of_ne hid]
      exact hsome
  · intro us hus x
    refine h.reply_iff hconsistent hus fun a hfound hka => ?_
    have hne : w.rpc_mapper.ds_key a ≠ w.rpc_mapper.ds_key rpc := by
      intro heq
      rw [heq, hk] at hka
      cases hka
    exact ⟨(Function.update_of_ne hne _ _).trans hka, congrFun hds _, congrFun hhttp a,
      hothers a fun heq => hne (congrArg _ heq)⟩

/-! ## Handlers that send nothing -/

/-- A client connects: its connection is new, and no request is on it. -/
theorem handle_accept (h : Consistent config w L) (fd : ℤ) :
    Consistent config (w.handle_accept fd) L := by
  refine h.congr ⟨w.http, w.ingress, rfl⟩ ⟨rfl, rfl⟩ rfl rfl id ?_ ?_
  · intro k r c _ hc
    refine Option.isSome_iff_exists.mp (AList.lookup_isSome.mpr (mem_emplace.mpr (.inr ?_)))
    exact AList.lookup_isSome.mp (by rw [hc]; rfl)
  · intro fd' c hc
    unfold IngressWorker.handle_accept emplace at hc
    dsimp only at hc
    split_ifs at hc
    · exact h.clients fd' c hc
    · by_cases hfd : fd' = fd
      · rw [hfd, AList.lookup_insert] at hc
        obtain rfl := Option.some.inj hc
        exact ⟨hfd.symm, rfl, rfl⟩
      · rw [AList.lookup_insert_ne hfd] at hc
        exact h.clients fd' c hc

/-- The connection of a client is taken out of the listener. None of its requests is open. -/
theorem handle_cancel (h : Consistent config w L) (hok : w.handle_cancel fd = .ok w') :
    Consistent config w' L ∧ w' = { w with clients := w.clients.erase fd } := by
  unfold IngressWorker.handle_cancel at hok
  split_ifs at hok with hexists
  obtain rfl := Except.ok.inj hok
  rw [Bool.not_eq_true] at hexists
  refine ⟨h.congr ⟨w.http, w.ingress, rfl⟩ ⟨rfl, rfl⟩ rfl rfl id ?_ ?_, rfl⟩
  · intro k r c hk hc
    refine ⟨c, (AList.lookup_erase_ne ?_).trans hc⟩
    rintro rfl
    obtain ⟨a, hfind, -⟩ := h.tracks.object hk
    have hnone := RPCMapper.find_ds_none hexists k.2.2
    rw [← (h.request k r hk).1] at hnone
    rw [hnone] at hfind
    cases hfind
  · intro fd' c hc
    by_cases hfd : fd' = fd
    · rw [hfd, AList.lookup_erase] at hc
      cases hc
    · rw [AList.lookup_erase_ne hfd] at hc
      exact h.clients fd' c hc

/-- The status of a connection to a frontend changes, as it is closed or established. -/
theorem set_status (h : Consistent config w L) (hc : w.connections fd = some c)
    (status : ConnectionStatus) :
    Consistent config { w with toHttpUpstreams := w.set_connection fd { c with status := status } }
      L := by
  obtain ⟨ts, horderly⟩ := h.orderly
  refine { h with orderly := ⟨_, HttpUpstreams.set_status_orderly status horderly hc⟩,
                  egress := ?_ }
  refine h.egress_update ?_ fd
  exact h.egress fd c hc

/-- A Credit Request changes nothing of this: it reads the first request of the queue and sends a
datagram. -/
theorem requested (h : Consistent config w L) (hrequested : Requested w w') :
    Consistent config w' L := by
  obtain ⟨ingress, hupstreams⟩ := hrequested.upstreams
  refine h.congr ⟨w.http, ingress, hupstreams⟩ hrequested.drop hrequested.queue
    hrequested.service hrequested.cap ?_ ?_
  · intro k r c _ hc
    rw [hrequested.clients]
    exact ⟨c, hc⟩
  · rw [hrequested.clients]
    exact h.clients

end Consistent

/-! ## The parts of a handler -/

/-- Bytes of a client change what its connection has read, or make a request of it; and then a
Credit Request may be due, unless the connection is closed. -/
theorem handle_request_parts {parser : HttpParser} {env : Env} {fd : ℤ} {data : Bytes}
    (hclients : ∀ fd c, w.clients.lookup fd = some c → c.direction = .DOWNSTREAM)
    (h : w.handle_request parser config env fd data = .ok w') :
    ∃ c c', w.clients.lookup fd = some c
      ∧ ((c'.fd, c'.type, c'.direction) = (c.fd, c.type, c.direction)
          ∧ (c'.idle, c'.last_id, c'.rpc_message) = (c.idle, c.last_id, c.rpc_message)
          ∧ (w' = w.set_client fd c' ∨ Requested (w.set_client fd c') w')
        ∨ ∃ r s, (c.fill data).accept_request ⟨config.ids, config.is_frontend⟩ w.toHttpWorker r
            = .ok (c', s)
          ∧ Requested ({ w with toHttpWorker := s }.set_client fd c') w') := by
  unfold handle_request at h
  split at h
  · cases h
  rename_i c hc
  obtain ⟨x, hread, h⟩ := bind_eq_ok.mp h
  rcases HTTP1Connection.http_read_client (hclients fd c hc) hread with
    ⟨c', rfl | rfl, hsame, hkept⟩ | ⟨r, c', s, rfl, haccept⟩
  · exact ⟨c, c', hc, .inl ⟨hsame, hkept, .inr (ingress_pre_credit_spec h)⟩⟩
  · obtain rfl := Except.ok.inj h
    exact ⟨c, { c' with status := .TEARDOWN }, hc, .inl ⟨hsame, hkept, .inl rfl⟩⟩
  · exact ⟨c, c', hc, .inr ⟨r, s, haccept, ingress_pre_credit_spec h⟩⟩

/-- A Credit Grant sends the first request of the queue, then all responses go back, and then a
Credit Request may be due. -/
theorem ingress_post_credit_parts {env : Env} {buf : Buffer} {sent : StreamKey × Bytes}
    (h : w.ingress_post_credit config env buf = .ok (sent, w')) :
    ∃ last_rtt_us rpc rest w₁ w₂, w.ingress.queue = rpc :: rest
      ∧ (Consistent.dequeued { w with last_rtt_us := last_rtt_us } rest).send_sub_request config rpc
        = .ok (sent, w₁)
      ∧ w₁.forward config (w₁.rpc_queue .EGRESS .UPSTREAM) = .ok w₂ ∧ Requested w₂ w' := by
  unfold ingress_post_credit at h
  obtain ⟨⟨num_credits, w₀⟩, hpost, h⟩ := bind_eq_ok.mp h
  obtain ⟨_, last_rtt_us, -, -, -, -, -, -, rfl⟩ := credit_post_process_eq_ok.mp hpost
  dsimp only at h
  split_ifs at h
  obtain ⟨⟨rpc, ingress⟩, hdequeue, h⟩ := bind_eq_ok.mp h
  unfold Ingress.dequeue at hdequeue
  cases hqueue : w.ingress.queue with
  | nil =>
      rw [hqueue] at hdequeue
      cases hdequeue
  | cons front rest =>
      rw [hqueue] at hdequeue
      obtain ⟨rfl, rfl⟩ := Prod.mk.inj (Except.ok.inj hdequeue)
      obtain ⟨⟨sent', w₁⟩, hsend, h⟩ := bind_eq_ok.mp h
      obtain ⟨w₂, hforward, h⟩ := bind_eq_ok.mp h
      obtain ⟨w₃, hpre, h⟩ := bind_eq_ok.mp h
      obtain ⟨rfl, rfl⟩ := Prod.mk.inj (Except.ok.inj h)
      exact ⟨last_rtt_us, front, rest, w₁, w₂, rfl, hsend, hforward, ingress_pre_credit_spec hpre⟩

/-! ## The credits -/

/-- **The second invariant**, between any two parts of a handler: the Credit Request that is on its
way, if there is one, is the only one, and asks for the first request of the queue. -/
structure Pending (w : IngressWorker n) : Prop where
  asked : w.ingress.has_credit_request_on_fly = true →
    ∃ rpc rest req, w.ingress.queue = rpc :: rest ∧ w.on_fly = [req] ∧ w.Asks req rpc
  quiet : w.ingress.has_credit_request_on_fly = false → w.on_fly = []

/-- After a handler, there is one if a request waits; `Pending` says for which one. -/
structure Asked (w : IngressWorker n) : Prop extends Pending w where
  waits : w.ingress.queue ≠ [] → w.ingress.has_credit_request_on_fly = true

/-- Requests may join the queue behind the first one, which the Credit Request is for. -/
theorem Pending.extend (h : Pending w) (hqueue : w.ingress.queue <+: w'.ingress.queue)
    (hflag : w'.ingress.has_credit_request_on_fly = w.ingress.has_credit_request_on_fly)
    (hfly : w'.on_fly = w.on_fly)
    (hservice : w'.ingress.ingress_service = w.ingress.ingress_service)
    (hheap : ∀ a ∈ w.ingress.queue, w'.rpc_mapper.heap a = w.rpc_mapper.heap a) : Pending w' := by
  constructor
  · intro hasked
    obtain ⟨rpc, rest, req, hlist, hreq, now_us, rtt, hholds⟩ := h.asked (hflag ▸ hasked)
    obtain ⟨more, hmore⟩ := hqueue
    refine ⟨rpc, rest ++ more, req, ?_, hfly.trans hreq, now_us, rtt, ?_⟩
    · rw [← hmore, hlist]
      rfl
    · rw [hheap rpc (by rw [hlist]; exact List.mem_cons_self), hservice]
      exact hholds
  · intro hquiet
    exact hfly.trans (h.quiet (hflag ▸ hquiet))

theorem Pending.keeps (h : Pending w) (hkeeps : Keeps w w') : Pending w' := by
  refine h.extend ?_ ?_ hkeeps.on_fly ?_ fun a ha => (hkeeps.waiting a ha).2
  all_goals rw [hkeeps.ingress]

namespace Requested

theorem rpc_queue (h : Requested w w') : w'.rpc_queue = w.rpc_queue := by
  obtain ⟨ingress, hupstreams⟩ := h.upstreams
  exact congrArg (fun s => s.rpc_queue) hupstreams

theorem rpc_mapper (h : Requested w w') : w'.rpc_mapper = w.rpc_mapper := by
  obtain ⟨ingress, hupstreams⟩ := h.upstreams
  exact congrArg (fun s => s.rpc_mapper) hupstreams

theorem entry (h : Requested w w') : w'.entry = w.entry := by
  obtain ⟨ingress, hupstreams⟩ := h.upstreams
  have hhttp : w'.http = w.http := congrArg (fun s => s.http) hupstreams
  unfold IngressWorker.entry
  rw [hhttp, h.rpc_mapper]

/-- **A handler ends** with a Credit Request on its way, if a request waits. -/
theorem asked (h : Requested w w') (hpending : Pending w) : Asked w' := by
  have hasks : ∀ req rpc, w.Asks req rpc → w'.Asks req rpc := by
    rintro req rpc ⟨now_us, rtt, hholds⟩
    refine ⟨now_us, rtt, ?_⟩
    rw [h.rpc_mapper, h.service]
    exact hholds
  rcases h.sent with ⟨hwhy, hfly, hflag⟩ | ⟨hquiet, hflag, rpc, rest, req, hqueue, hfly, hreq⟩
  · refine ⟨⟨?_, ?_⟩, ?_⟩
    · intro hasked
      obtain ⟨rpc, rest, req, hqueue, hreq, hholds⟩ := hpending.asked (hflag ▸ hasked)
      exact ⟨rpc, rest, req, h.queue.trans hqueue, hfly.trans hreq, hasks req rpc hholds⟩
    · intro hquiet
      exact hfly.trans (hpending.quiet (hflag ▸ hquiet))
    · intro hne
      rw [h.queue] at hne
      exact hflag.trans (hwhy.resolve_left hne)
  · refine ⟨⟨?_, ?_⟩, fun _ => hflag⟩
    · intro _
      exact ⟨rpc, rest, req, h.queue.trans hqueue, by rw [hfly, hpending.quiet hquiet]; rfl,
        hasks req rpc hreq⟩
    · intro hnone
      rw [hflag] at hnone
      cases hnone

end Requested

end Consistent

/-! ## Runs -/

/-- The responses that are to go back in `s` are written, in their order, each on the stream of its
request, and nothing else is; none is left. -/
def AllBack (config : UpstreamConfig) (s : HttpUpstreams n) (w w' : IngressWorker n) : Prop :=
  (∃ new, List.Forall₂ (Reply config s) (s.rpc_queue .EGRESS .UPSTREAM) new
    ∧ w'.written = w.written ++ new)
    ∧ w'.rpc_queue .EGRESS .UPSTREAM = []

/-- **What a step writes to the clients.** The handler of a response writes what was queued before
and, behind it, the response that it reads; the handler of a Credit Grant what was queued before;
and no other handler writes anything. -/
def Returns (parser : HttpParser) (config : UpstreamConfig)
    (t : Transition (IngressWorker n) Event) : Prop :=
  match t.label with
  | .response fd data => ∃ s, t.pre.toHttpUpstreams.read parser config fd data = .ok s
      ∧ t.pre.rpc_queue .EGRESS .UPSTREAM <+: s.rpc_queue .EGRESS .UPSTREAM
        ∧ AllBack config s t.pre t.post
  | .grant .. => AllBack config t.pre.toHttpUpstreams t.pre t.post
  | _ => t.post.written = t.pre.written

/-- A request is sent for the Credit Request that has asked for it: with its id, and its
priority. -/
def Granted (t : Transition (IngressWorker n) Event) : Prop :=
  match t.label with
  | .grant req _ sent => ∃ rpc rest, t.pre.ingress.queue = rpc :: rest
    ∧ t.pre.Asks req rpc ∧ sent = t.pre.entry rpc
  | _ => True

/-- The invariant of a run: the requests, the Credit Request, the answers that are left, and what
the steps so far have done. -/
structure Steady (parser : HttpParser) (config : UpstreamConfig) (w : IngressWorker n)
    (ts : Run n) : Prop where
  consistent : ∃ L, Consistent config w L
  asked : Asked w
  /-- What waits for the next response is the answer to a request that was dropped. -/
  drops : ∀ us ∈ w.rpc_queue .EGRESS .UPSTREAM, us.1 = config.drop_fd
  behind : w.rpc_queue .EGRESS .UPSTREAM ≠ [] → w.ingress.queue ≠ []
  order : admitted ts = forwarded ts ++ w.ingress.queue.map w.entry
  steps : ∀ t ∈ ts, Returns parser config t ∧ Granted t

section Steady

variable {config : UpstreamConfig} {parser : HttpParser} {w w' : IngressWorker n}
    {ts : Run n} {L : Ledger}

theorem admitted_append (ts : Run n) (t : Transition (IngressWorker n) Event) :
    admitted (ts ++ [t]) = admitted ts ++ admittedBy t := by
  unfold admitted
  rw [List.flatMap_append, List.flatMap_singleton]

theorem forwarded_append (ts : Run n) (t : Transition (IngressWorker n) Event) :
    forwarded (ts ++ [t]) = forwarded ts ++ forwardedBy t := by
  unfold forwarded
  rw [List.flatMap_append, List.flatMap_singleton]

/-- The texts of the requests that wait stay as they are, for any part of the queue. -/
theorem Keeps.entries (h : Keeps w w') {queue : List (Fin n)}
    (hqueue : ∀ a ∈ queue, a ∈ w.ingress.queue) :
    queue.map w'.entry = queue.map w.entry := by
  refine List.map_congr_left fun a ha => ?_
  obtain ⟨hhttp, hheap⟩ := h.waiting a (hqueue a ha)
  unfold entry RPCMapper.ds_key
  rw [hhttp, hheap]

namespace Steady

/-- One step more, with what holds of it alone. -/
theorem steps_snoc (h : Steady parser config w ts) {t : Transition (IngressWorker n) Event}
    (hstep : Returns parser config t ∧ Granted t) :
    ∀ t' ∈ ts ++ [t], Returns parser config t' ∧ Granted t' := by
  intro t' ht
  rcases List.mem_append.mp ht with hold | hlast
  · exact h.steps t' hold
  · rw [List.mem_singleton.mp hlast]
    exact hstep

/-- A step after which the requests that wait are the same, and with them all that the invariant
says of the queue. -/
theorem carry (h : Steady parser config w ts) {ev : Event} (hconsistent : Consistent config w' L)
    (hasked : Asked w') (hqueue : w'.ingress.queue = w.ingress.queue)
    (hentries : w.ingress.queue.map w'.entry = w.ingress.queue.map w.entry)
    (hdrops : ∀ us ∈ w'.rpc_queue .EGRESS .UPSTREAM, us.1 = config.drop_fd ∧ w.ingress.queue ≠ [])
    (hsent : forwardedBy ⟨w, ev, w'⟩ = [])
    (hstep : Returns parser config ⟨w, ev, w'⟩ ∧ Granted ⟨w, ev, w'⟩) :
    Steady parser config w' (ts ++ [⟨w, ev, w'⟩]) := by
  have hadmitted : admittedBy ⟨w, ev, w'⟩ = [] := by
    unfold admittedBy
    dsimp only
    split
    · rw [hqueue, List.drop_length]
      rfl
    · rfl
  refine ⟨⟨L, hconsistent⟩, hasked, fun us hus => (hdrops us hus).1, ?_, ?_, ?_⟩
  · intro hne
    obtain ⟨us, hus⟩ := List.exists_mem_of_ne_nil _ hne
    rw [hqueue]
    exact (hdrops us hus).2
  · rw [admitted_append, forwarded_append, hadmitted, hsent, List.append_nil,
      List.append_nil, hqueue, hentries]
    exact h.order
  · exact h.steps_snoc hstep

/-- A step that has nothing to do with requests and responses: it only has to keep the objects
consistent. -/
theorem quiet (h : Steady parser config w ts) {ev : Event} (hconsistent : Consistent config w' L)
    (hkeeps : Keeps w w') (hqueue : w'.rpc_queue = w.rpc_queue)
    (hsent : forwardedBy ⟨w, ev, w'⟩ = [])
    (hstep : Returns parser config ⟨w, ev, w'⟩ ∧ Granted ⟨w, ev, w'⟩) :
    Steady parser config w' (ts ++ [⟨w, ev, w'⟩]) := by
  refine h.carry hconsistent ⟨h.asked.toPending.keeps hkeeps, ?_⟩
    (congrArg Ingress.queue hkeeps.ingress)
    (hkeeps.entries fun _ ha => ha) ?_ hsent hstep
  · rw [hkeeps.ingress]
    exact h.asked.waits
  · rw [hqueue]
    exact fun us hus => ⟨h.drops us hus, h.behind (List.ne_nil_of_mem hus)⟩

/-- Bytes of a client: the requests among them are admitted or dropped, and the first one of an
empty queue is asked for. -/
theorem request (h : Steady parser config w ts) (hedge : config.ids.is_ingress = true)
    (hrole : config.is_frontend = false) (hdrops : w.ingress.drop_id.toNat + 1 < 2 ^ 31)
    {env : Env} {fd : ℤ} {data : Bytes}
    (hok : w.handle_request parser config env fd data = .ok w') :
    Steady parser config w' (ts ++ [⟨w, .request fd data, w'⟩]) := by
  obtain ⟨L, hconsistent⟩ := h.consistent
  obtain ⟨c, c', hc, ⟨hsame, -, rfl | hrequested⟩ | ⟨r, s, haccept, hrequested⟩⟩ :=
    handle_request_parts (fun fd c hc => (hconsistent.clients fd c hc).2.2) hok
  · -- it is refused
    exact h.quiet (hconsistent.set_client hc hsame) ⟨rfl, rfl, fun _ _ => ⟨rfl, rfl⟩⟩
      rfl rfl ⟨rfl, trivial⟩
  · -- the request is not complete
    have hset := hconsistent.set_client hc hsame
    have hpending : Pending (w.set_client fd c') :=
      h.asked.toPending.keeps ⟨rfl, rfl, fun _ _ => ⟨rfl, rfl⟩⟩
    refine h.carry (hset.requested hrequested) (hrequested.asked hpending)
      hrequested.queue ?_ ?_ rfl
      ⟨hrequested.written, trivial⟩
    · rw [hrequested.entry]
      rfl
    · rw [hrequested.rpc_queue]
      exact fun us hus => ⟨h.drops us hus, h.behind (List.ne_nil_of_mem hus)⟩
  · obtain ⟨rpc, L', hset, htaken, houtcome⟩ :=
      hconsistent.accept_request hedge hrole hdrops hc haccept
    have hothers : ∀ a ∈ w.ingress.queue, s.http a = w.http a ∧ s.rpc_mapper.heap a
        = w.rpc_mapper.heap a := by
      intro a ha
      refine htaken.others a ?_
      rintro rfl
      exact hconsistent.not_waiting htaken ha
    have hentries : w.ingress.queue.map w'.entry = w.ingress.queue.map w.entry := by
      rw [hrequested.entry]
      refine List.map_congr_left fun a ha => ?_
      show (s.rpc_mapper.ds_key a, HTTP1Connection.request_text (s.http a)) = _
      unfold entry RPCMapper.ds_key
      rw [(hothers a ha).1, (hothers a ha).2]
    rcases houtcome with ⟨hingress, hqueues⟩ | ⟨hfull, hingress, id, hqueues⟩
    · -- it waits, behind the one that has asked
      have hpending : Pending ({ w with toHttpWorker := s }.set_client fd c') := by
        refine h.asked.toPending.extend ⟨[rpc], ?_⟩ ?_ rfl ?_ fun a ha => (hothers a ha).2
        · exact (congrArg Ingress.queue hingress).symm
        · exact (congrArg Ingress.has_credit_request_on_fly hingress :)
        · exact (congrArg Ingress.ingress_service hingress :)
      have hqueue : w'.ingress.queue = w.ingress.queue ++ [rpc] :=
        hrequested.queue.trans (congrArg Ingress.queue hingress :)
      have hreturning : w'.rpc_queue = w.rpc_queue := hrequested.rpc_queue.trans hqueues
      refine ⟨⟨L', hset.requested hrequested⟩, hrequested.asked hpending, ?_, ?_, ?_, ?_⟩
      · rw [hreturning]
        exact h.drops
      · rw [hqueue]
        exact fun _ => List.append_ne_nil_of_right_ne_nil _ (List.cons_ne_nil _ _)
      · have hnew : admittedBy ⟨w, .request fd data, w'⟩ = [w'.entry rpc] := by
          unfold admittedBy
          dsimp only
          rw [hqueue, List.drop_left]
          rfl
        rw [admitted_append, forwarded_append, hnew, hqueue, List.map_append,
          hentries, h.order, List.append_assoc]
        unfold forwardedBy
        rw [List.append_nil]
        rfl
      · exact h.steps_snoc ⟨hrequested.written, trivial⟩
    · -- it is dropped, behind others that wait
      have hpending : Pending ({ w with toHttpWorker := s }.set_client fd c') := by
        refine h.asked.toPending.extend ⟨[], ?_⟩ ?_ rfl ?_ fun a ha => (hothers a ha).2
        · rw [List.append_nil]
          exact (congrArg Ingress.queue hingress).symm
        · exact (congrArg Ingress.has_credit_request_on_fly hingress :)
        · exact (congrArg Ingress.ingress_service hingress :)
      have hne : w.ingress.queue ≠ [] := by
        intro hnil
        have hcap := hconsistent.cap
        rw [hnil, List.length_nil] at hfull
        omega
      refine h.carry (hset.requested hrequested) (hrequested.asked hpending)
        (hrequested.queue.trans (congrArg Ingress.queue hingress :)) hentries ?_ rfl
        ⟨hrequested.written, trivial⟩
      rw [hrequested.rpc_queue]
      show ∀ us ∈ s.rpc_queue .EGRESS .UPSTREAM, _
      rw [hqueues]
      intro us hus
      refine ⟨?_, hne⟩
      rcases List.mem_append.mp hus with hold | hlast
      · exact h.drops us hold
      · rw [List.mem_singleton.mp hlast]
        exact hconsistent.drop_fd

/-- Bytes of a frontend: all that waits in the queue of responses goes back, the response that they
complete and the answers to dropped requests. -/
theorem response (h : Steady parser config w ts) {env : Env} {fd : ℤ} {data : Bytes}
    (hok : w.handle_response parser config env fd data = .ok w') :
    Steady parser config w' (ts ++ [⟨w, .response fd data, w'⟩]) := by
  obtain ⟨L, hconsistent⟩ := h.consistent
  unfold handle_response at hok
  obtain ⟨s, hs, hok⟩ := bind_eq_ok.mp hok
  obtain ⟨w₁, hforward, hok⟩ := bind_eq_ok.mp hok
  obtain ⟨hread, hkeeps, hprefix⟩ := hconsistent.read hs
  obtain ⟨L', hreturned, hkeeps', hempty, new, hnew, hwritten⟩ := hread.forward rfl hforward
  have hrequested := ingress_pre_credit_spec hok
  have hkept := hkeeps.trans hkeeps'
  have hdone : w'.rpc_queue .EGRESS .UPSTREAM = [] := by
    rw [hrequested.rpc_queue]
    exact hempty
  refine h.carry (hreturned.requested hrequested) (hrequested.asked (h.asked.toPending.keeps hkept))
    (hrequested.queue.trans (congrArg Ingress.queue hkept.ingress)) ?_ ?_ rfl
    ⟨⟨s, hs, hprefix, ⟨new, hnew, hrequested.written.trans hwritten⟩, hdone⟩, trivial⟩
  · rw [hrequested.entry]
    exact hkept.entries fun _ ha => ha
  · rw [hdone]
    exact fun us hus => absurd hus List.not_mem_nil

/-- A Credit Grant comes: the first request is sent, and the next one is asked for. -/
theorem grant (h : Steady parser config w ts) {env : Env} {before after : List Buffer}
    {req buf : Buffer} {sent : StreamKey × Bytes} (hreq : w.on_fly = before ++ req :: after)
    (hok : { w with on_fly := before ++ after }.ingress_post_credit config env buf
      = .ok (sent, w')) :
    Steady parser config w' (ts ++ [⟨w, .grant req buf sent, w'⟩]) := by
  obtain ⟨L, hconsistent⟩ := h.consistent
  -- it is the answer to the only Credit Request, which has asked for the first request of the queue
  obtain ⟨rpc, rest, req', hqueue, hfly, hasks⟩ := h.asked.asked (by
    by_contra hflag
    rw [h.asked.quiet (Bool.not_eq_true _ ▸ hflag)] at hreq
    exact List.append_ne_nil_of_right_ne_nil _ (List.cons_ne_nil _ _) hreq.symm)
  obtain ⟨rfl, hcons⟩ := List.append_eq_singleton_iff.mp (hreq.symm.trans hfly) |>.resolve_right
    fun hright => List.cons_ne_nil _ _ hright.2
  obtain ⟨rfl, rfl⟩ := List.cons.inj hcons
  obtain ⟨last_rtt_us, rpc', rest', w₂, w₃, hqueue', hsend, hforward, hrequested⟩ :=
    ingress_post_credit_parts hok
  obtain ⟨rfl, rfl⟩ := List.cons.inj (hqueue.symm.trans hqueue')
  obtain ⟨L₂, hsent, hentry, hqueues, hkeeps, hunwritten, -, hsame⟩ :=
    (hconsistent.credits [] last_rtt_us).send_sub_request hqueue hsend
  obtain ⟨L₃, hreturned, hkeeps', hempty, new, hnew, hwritten⟩ := hsent.forward rfl hforward
  have hkept := hkeeps.trans hkeeps'
  -- `dequeue` has cleared the flag, and the Credit Request was the only one
  have hpending : Pending w₃ := by
    constructor
    · intro hflag
      rw [hkept.ingress] at hflag
      cases hflag
    · exact fun _ => hkept.on_fly
  have hlist : w'.ingress.queue = rest :=
    hrequested.queue.trans (congrArg Ingress.queue hkept.ingress)
  have hdone : w'.rpc_queue .EGRESS .UPSTREAM = [] := by
    rw [hrequested.rpc_queue]
    exact hempty
  refine ⟨⟨L₃, hreturned.requested hrequested⟩, hrequested.asked hpending, ?_, ?_, ?_, ?_⟩
  · rw [hdone]
    exact fun us hus => absurd hus List.not_mem_nil
  · rw [hdone]
    exact fun hne => absurd rfl hne
  · -- the head of the queue moves over to what was sent
    have hentries : rest.map w'.entry = rest.map w.entry := by
      rw [hrequested.entry]
      exact hkept.entries fun _ ha => ha
    have horder := h.order
    rw [hqueue, List.map_cons] at horder
    rw [admitted_append, forwarded_append, horder, hlist, hentries, hentry]
    unfold admittedBy forwardedBy
    rw [List.append_nil, List.append_assoc]
    rfl
  · -- what goes back is what was queued: sending the request has changed nothing about it
    have hback : List.Forall₂ (Reply config w.toHttpUpstreams)
        (w.rpc_queue .EGRESS .UPSTREAM) new := by
      rw [hqueues] at hnew
      have hboth := (List.forall₂_and_left _ _).mpr ⟨hsame, hnew⟩
      exact hboth.imp fun us y hy => (hy.1 y).mp hy.2
    have hall : w'.written = w.written ++ new := by rw [hrequested.written, hwritten, hunwritten]
    exact h.steps_snoc ⟨⟨⟨new, hback, hall⟩, hdone⟩, rpc, rest, hqueue, hasks, hentry⟩

/-- **Every step** keeps it, with one case for each event of the worker. -/
theorem step (h : Steady parser config w ts) (hedge : config.ids.is_ingress = true)
    (hrole : config.is_frontend = false) {ev : Event} (hs : Step parser config w ev w') :
    Steady parser config w' (ts ++ [⟨w, ev, w'⟩]) := by
  obtain ⟨L, hconsistent⟩ := h.consistent
  cases hs with
  | accept fd =>
      exact h.quiet (hconsistent.handle_accept fd) ⟨rfl, rfl, fun _ _ => ⟨rfl, rfl⟩⟩
        rfl rfl ⟨rfl, trivial⟩
  | set_status status hc =>
      exact h.quiet (hconsistent.set_status hc status) ⟨rfl, rfl, fun _ _ => ⟨rfl, rfl⟩⟩
        rfl rfl ⟨rfl, trivial⟩
  | close hc =>
      exact h.quiet (hconsistent.set_client hc rfl) ⟨rfl, rfl, fun _ _ => ⟨rfl, rfl⟩⟩
        rfl rfl ⟨rfl, trivial⟩
  | cancel hok =>
      obtain ⟨hcancelled, rfl⟩ := hconsistent.handle_cancel hok
      exact h.quiet hcancelled ⟨rfl, rfl, fun _ _ => ⟨rfl, rfl⟩⟩ rfl rfl ⟨rfl, trivial⟩
  | request hdrops hok => exact h.request hedge hrole hdrops hok
  | response hok => exact h.response hok
  | grant hreq _ hok => exact h.grant hreq hok

end Steady

/-- At its start, a worker has no request, no answer and no Credit Request. -/
theorem start_steady {grpc_n http_n : ℕ} {w : IngressWorker (http_n + grpc_n)}
    (hstart : Start config grpc_n http_n w) :
    Steady parser config w [] := by
  obtain ⟨routing, priority, hcreate⟩ := hstart.ingress
  obtain ⟨hqueue, hflag, hcap, hservice, hfd⟩ : w.ingress.queue = []
    ∧ w.ingress.has_credit_request_on_fly = false
      ∧ w.ingress.ingress_size_cap = 10 ∧ w.ingress.ingress_service = config.ingress_service
      ∧ w.ingress.drop_fd = config.drop_fd := by
    obtain ⟨_, -, hinit⟩ := Ingress.create_eq_ok hcreate
    rw [hinit]
    exact ⟨rfl, rfl, rfl, rfl, rfl⟩
  have hreturning := hstart.upstreams.queue .EGRESS
  -- Nothing is queued and nothing is on the way, so the empty ledger describes the start.
  have hconsistent : Consistent config w .empty := by
    constructor
    case orderly => exact ⟨[], HttpUpstreams.start_orderly hstart.upstreams⟩
    case egress => exact hstart.egress
    case waiting =>
      intro a
      rw [hqueue]
      exact ⟨fun h => absurd h List.not_mem_nil, fun ⟨_, _, h⟩ => by cases h⟩
    case nodup =>
      rw [hqueue]
      exact List.nodup_nil
    case request => exact fun k r h => by cases h
    case clients =>
      rw [hstart.clients]
      exact fun fd c h => by cases h
    case returning =>
      rw [hreturning]
      exact fun us h => absurd h List.not_mem_nil
    case once =>
      rw [hreturning]
      exact List.nodup_nil
    case service => exact hservice
    case drop_fd => exact hfd
    case cap =>
      rw [hcap]
      decide
  refine ⟨⟨_, hconsistent⟩, ⟨⟨?_, fun _ => hstart.on_fly⟩, fun h => absurd hqueue h⟩,
    ?_, fun h => absurd hreturning h, ?_, ?_⟩
  · rw [hflag]
    exact fun h => absurd h Bool.noConfusion
  · rw [hreturning]
    exact fun us h => absurd h List.not_mem_nil
  · rw [hqueue]
    rfl
  · exact fun t h => absurd h List.not_mem_nil

end Steady

/-- What holds after a run, of the Credit Requests, the order of the requests, and the answers to
all of them. -/
structure Cycle (parser : HttpParser) (config : UpstreamConfig) (w : IngressWorker n)
    (ts : Run n) : Prop where
  flag : w.ingress.has_credit_request_on_fly = true ↔ w.ingress.queue ≠ []
  /-- There is one Credit Request, which asks for the first request that waits; or there is none,
  and nothing waits. -/
  on_fly : match w.ingress.queue with
    | [] => w.on_fly = []
    | rpc :: _ => ∃ req, w.on_fly = [req] ∧ w.Asks req rpc
  /-- What was admitted was sent, or waits to be sent: in this order, once, and with the same
  text. -/
  order : admitted ts = forwarded ts ++ w.ingress.queue.map w.entry
  granted : ∀ t ∈ ts, Granted t
  returned : ∀ t ∈ ts, Returns parser config t
  /-- Only the answer to a request that was dropped is left after a handler, and a Credit Grant is
  to come. -/
  drops : ∀ us ∈ w.rpc_queue .EGRESS .UPSTREAM, us.1 = config.drop_fd ∧ w.on_fly ≠ []
  /-- The client of a request is there as long as the request is. -/
  clients : ∀ k rpc, w.rpc_mapper.find_ds k = some rpc → ∃ c, w.clients.lookup k.2.1 = some c

/-- **The cycle of the credits**: in every run of an ingress worker, whatever its clients, its
frontends and the frontends' grants do, there is one Credit Request on the fly while a request
waits, every grant sends the first request, and every response goes back to its client. `hedge` and
`hrole` say that the sidecar is the ingress edge. -/
theorem credit_cycle {parser : HttpParser} {config : UpstreamConfig} {grpc_n http_n : ℕ}
    {w₀ w : IngressWorker (http_n + grpc_n)} {ts : Run (http_n + grpc_n)}
    (hedge : config.ids.is_ingress = true) (hrole : config.is_frontend = false)
    (hstart : Start config grpc_n http_n w₀) (hrun : Exec (Step parser config) w₀ ts w) :
    Cycle parser config w ts := by
  have hsteady : Steady parser config w ts := hrun.history (Steady parser config)
    (fun _ _ _ hbefore hstep => hbefore.step hedge hrole hstep) (start_steady hstart)
  obtain ⟨L, hconsistent⟩ := hsteady.consistent
  -- One direction is what the request in flight asked for, the other what the queue waits for.
  have hflag : w.ingress.has_credit_request_on_fly = true ↔ w.ingress.queue ≠ [] := by
    refine ⟨fun h => ?_, hsteady.asked.waits⟩
    obtain ⟨rpc, rest, -, hqueue, -⟩ := hsteady.asked.asked h
    rw [hqueue]
    exact List.cons_ne_nil _ _
  constructor
  case flag => exact hflag
  case on_fly =>
    cases hqueue : w.ingress.queue with
    | nil => exact hsteady.asked.quiet (Bool.eq_false_iff.mpr fun h => hflag.mp h hqueue)
    | cons rpc rest =>
        obtain ⟨rpc', rest', req, hlist, hfly, hasks⟩ :=
          hsteady.asked.asked (hflag.mpr (by rw [hqueue]; exact List.cons_ne_nil _ _))
        obtain ⟨rfl, -⟩ := List.cons.inj (hqueue.symm.trans hlist)
        exact ⟨req, hfly, hasks⟩
  case order => exact hsteady.order
  case granted => exact fun t ht => (hsteady.steps t ht).2
  case returned => exact fun t ht => (hsteady.steps t ht).1
  case drops =>
    intro us hus
    refine ⟨hsteady.drops us hus, ?_⟩
    obtain ⟨_, _, req, -, hfly, -⟩ :=
      hsteady.asked.asked (hsteady.asked.waits (hsteady.behind (List.ne_nil_of_mem hus)))
    rw [hfly]
    exact List.cons_ne_nil _ _
  case clients => exact fun k rpc hfind => (hconsistent.found hfind).2

/-! ### A run with a drop -/

/-- A worker of the ingress of the service "s", with two objects and one connection to a frontend,
on descriptor 7. -/
def edgeStart : IngressWorker (2 + 0) :=
  { rpc_mapper := .create 0 2 (fun _ => .EGRESS) (fun _ => 0)
    http := fun _ => .create (RPCMapper.blankMessage .HTTP1 .EGRESS 0)
    rpc_queue := fun _ _ => []
    local_id_counter := 1
    ingress := { Ingress.init 2 1 [115] with priority := 2 }
    -- one connection to a frontend, which is idle
    connections := fun fd => if fd = 7 then some (.create 7 .EGRESS) else none
    pools := fun id => if id = .service [115] then some ⟨[7], 0, fun _ => Nat.zero_lt_one⟩ else none
    answers := []
    clients := ∅
    last_rtt_us := 0
    on_fly := []
    written := [] }

/-- It is at its start: its queues are empty and its connections idle. -/
theorem edgeStart_start : Start ⟨⟨⟨true, false⟩, 1, [115]⟩, false, 1000⟩ 0 2 edgeStart := by
  have hconnection : ∀ fd c, edgeStart.connections fd = some c → fd = 7
      ∧ c = .create 7 .EGRESS := by
    intro fd c hc
    unfold edgeStart at hc
    dsimp only at hc
    split_ifs at hc with hfd
    exact ⟨hfd, (Option.some.inj hc).symm⟩
  refine ⟨⟨⟨fun _ => .EGRESS, fun _ => 0, rfl⟩, fun _ => rfl, ?_, ?_⟩,
    ?_, rfl, ⟨some ⟨some 1, some 2⟩, 0, rfl⟩, rfl, rfl⟩
  · intro fd c hc
    obtain ⟨rfl, rfl⟩ := hconnection fd c hc
    exact ⟨by decide, rfl⟩
  · intro id pool hpool fd hmem
    unfold edgeStart at hpool
    dsimp only at hpool
    split_ifs at hpool with hid
    obtain rfl := Option.some.inj hpool
    obtain rfl := List.mem_singleton.mp hmem
    exact ⟨_, rfl, by rw [hid]; rfl⟩
  · intro fd c hc
    rw [(hconnection fd c hc).2]
    rfl

/-- Two clients, and a queue with room for one request: the second is dropped. Its answer goes back
when the first is sent. -/
theorem credit_cycle_one :
    ∃ (w : IngressWorker (2 + 0)) (ts : Run (2 + 0)),
      Cycle .pico ⟨⟨⟨true, false⟩, 1, [115]⟩, false, 1000⟩ w ts
        ∧ (forwarded ts).map Prod.fst = [(.EGRESS, 5, 1)]
        ∧ w.written.map Prod.fst = [(.EGRESS, 6, 1), (.EGRESS, 5, 1)] := by
  let config : UpstreamConfig := ⟨⟨⟨true, false⟩, 1, [115]⟩, false, 1000⟩
  let env (now_us : BitVec 64) : Env := ⟨some 1, Buffer.blank, now_us⟩
  let pool : ConnectionPool := ⟨[7], 0, fun _ => Nat.zero_lt_one⟩
  let k : StreamKey := (.EGRESS, 5, 1)
  let w₁ := (edgeStart.handle_accept 5).handle_accept 6
  let w₂ := { w₁ with
    toHttpUpstreams := w₁.set_connection 7 { HTTP1Connection.create 7 .EGRESS with status := .UP } }
  have hcheck : (do
      let w₃ ← w₂.handle_request .pico config (env 10) 5 HTTP1Connection.questionHead
      let w₄ ← w₃.handle_request .pico config (env 20) 6 HTTP1Connection.questionHead
      let buf ← write_credit_grant 1 (w₄.on_fly.headD Buffer.blank) Buffer.blank
      let handler ← dispatch_rlp_recv buf
      let (num_credits, w₅) ← { w₄ with on_fly := [] }.credit_post_process (env 500) buf
      let (rpc, ingress) ← w₅.ingress.dequeue
      let w₆ : IngressWorker (2 + 0) := { w₅ with ingress := ingress }
      let rpc' ← w₆.rpc_mapper.get_ds_rpc k.1 k.2.2 k.2.1
      let id ← w₆.find_pool k.1 (w₆.rpc_mapper.heap rpc').service
      let s :=
        { w₆.toHttpUpstreams with pools := Function.update w₆.pools (.service [115]) (some pool) }
      let (us_stream_id, text, s) ← s.forward_request config k 7
      let w₇ ← { w₆ with toHttpUpstreams := s }.forward config (s.rpc_queue .EGRESS .UPSTREAM)
      let w₈ ← w₇.ingress_pre_credit (env 500)
      let w₉ ← w₈.handle_response .pico config (env 600) 7 HTTP1Connection.fullAnswer
      .ok (decide (w₃.ingress.drop_id = 0 ∧ w₄.on_fly.length = 1 ∧ handler = .credit_grant
        ∧ num_credits = 1
        ∧ ((w₆.rpc_mapper.heap rpc).ds_fd, (w₆.rpc_mapper.heap rpc).ds_stream_id) = (5, 1)
        ∧ id = .service [115] ∧ (w₆.pools id).map (fun pool => (pool.fds, pool.next_conn))
          = some ([7], 0)
        ∧ w₆.available 7 = true ∧ (w₆.connections 7).map HTTP1Connection.status = some .UP
        ∧ w₉.written.map Prod.fst = [((.EGRESS, 6, 1) : StreamKey), k])))
          = (.ok true : Except Abort Bool) := by
    decide +kernel
  obtain ⟨w₃, h₃, hcheck⟩ := bind_eq_ok.mp hcheck
  obtain ⟨w₄, h₄, hcheck⟩ := bind_eq_ok.mp hcheck
  obtain ⟨buf, -, hcheck⟩ := bind_eq_ok.mp hcheck
  obtain ⟨handler, hdispatch, hcheck⟩ := bind_eq_ok.mp hcheck
  obtain ⟨⟨num_credits, w₅⟩, hpost, hcheck⟩ := bind_eq_ok.mp hcheck
  obtain ⟨⟨rpc, ingress⟩, hdequeue, hcheck⟩ := bind_eq_ok.mp hcheck
  obtain ⟨rpc', hrpc, hcheck⟩ := bind_eq_ok.mp hcheck
  obtain ⟨id, hid, hcheck⟩ := bind_eq_ok.mp hcheck
  obtain ⟨⟨us_stream_id, text, s⟩, hsent, hcheck⟩ := bind_eq_ok.mp hcheck
  obtain ⟨w₇, hforward, hcheck⟩ := bind_eq_ok.mp hcheck
  obtain ⟨w₈, hpre, hcheck⟩ := bind_eq_ok.mp hcheck
  obtain ⟨w₉, h₉, hcheck⟩ := bind_eq_ok.mp hcheck
  obtain ⟨hdrops, hone, rfl, rfl, hkey, rfl, hpool, havailable, hup, hwritten⟩ :=
    of_decide_eq_true (Except.ok.inj hcheck)
  obtain ⟨req, hreq⟩ := List.length_eq_one_iff.mp hone
  -- the pool has one connection, which is up and idle
  obtain ⟨pool', hpool', hsame⟩ := Option.map_eq_some_iff.mp hpool
  obtain rfl : pool' = pool := by
    obtain ⟨fds, next_conn, _⟩ := pool'
    obtain ⟨rfl, rfl⟩ := Prod.mk.inj hsame
    rfl
  let s₀ := ({ w₅ with ingress := ingress } : IngressWorker (2 + 0)).toHttpUpstreams
  have hroute : s₀.route_request k
      = .ok (7, { s₀ with pools := Function.update w₅.pools (.service [115]) (some pool) }) :=
    HttpUpstreams.route_request_here hrpc hid hpool' rfl havailable hup
  have hsend : ({ w₅ with ingress := ingress } : IngressWorker (2 + 0)).send_sub_request config rpc
      = .ok ((k, text), { w₅ with toHttpUpstreams := s }) :=
    send_sub_request_here (congrArg (Prod.mk ConnectionType.EGRESS) hkey) hroute hsent
  have hgrant : { w₄ with on_fly := [] ++ [] }.ingress_post_credit config (env 500) buf
      = .ok ((k, text), w₈) :=
    bind_eq_ok.mpr ⟨_, hpost,
      bind_eq_ok.mpr ⟨_, hdequeue, bind_eq_ok.mpr ⟨_, hsend, bind_eq_ok.mpr ⟨_, hforward,
      bind_eq_ok.mpr ⟨_, hpre, rfl⟩⟩⟩⟩⟩
  have hrun : Exec (Step .pico config) edgeStart _ w₉ :=
    .cons (.accept 5)
      (.cons (.accept 6) (.cons (.set_status .UP rfl) (.cons (.request (by decide) h₃)
      (.cons (.request (by rw [hdrops]; decide) h₄)
        (.cons (.grant hreq hdispatch hgrant) (.cons (.response h₉) (.nil _)))))))
  exact ⟨w₉, _, credit_cycle rfl rfl edgeStart_start hrun, rfl, hwritten⟩

end IngressWorker

end RlpSidecar
