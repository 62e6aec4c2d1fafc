/-
**HTTP/1 connections carry one request at a time** (`connection.cc`, `state.cc`).

A connection is busy exactly while one request that was sent on it has no response, and the number
that the connection then looks its response up by is that of this request. The two facts are proved
together, along runs: a request is only sent over a connection that is idle, under a number that is
new, and a response is only complete on one that is busy.

`Paired` is the invariant of one connection: its requests have growing numbers, all of them have
responses but perhaps the last, and that one has none exactly if the connection is busy.
`step_orderly` keeps it at every event, and `OneAtATime` says in plain terms what it comes to at
every moment of every run.
-/
import RlpSidecar.HttpUpstreamSpec

set_option autoImplicit false

open Runs

namespace RlpSidecar

variable {n : ℕ}

/-! ## What happens elsewhere -/

namespace Ledger

variable {config : TrafficConfig} {L L' : Ledger}

/-- A request that waits for its response goes on waiting, unless it gets it. -/
theorem Step.keeps_forwarded {ev : Traffic.Event} (hs : Step config L ev L')
    (hbegin : ∀ k http, ev = .begin_headers k http → L.request k = none)
    {k : StreamKey} {http : HTTP} {us : ℤ × ℤ}
    (hresponse : ∀ failed held, ev ≠ .forward_response k.1 us.1 us.2 failed held)
    (hk : L.request k = some ⟨http, .forwarded us⟩) :
    L'.request k = some ⟨http, .forwarded us⟩ := by
  -- a step changes at most one entry, and that is another one
  have hother : ∀ k' (r : Option OpenRequest), k ≠ k' → (L.set k' r).request k
      = some ⟨http, .forwarded us⟩ := by
    intro k' r hne
    exact (Function.update_of_ne hne _ _).trans hk
  have hphase : ∀ k' r, L.request k' = some r → r.phase ≠ .forwarded us → k ≠ k' := by
    rintro k' r hr hne rfl
    rw [hk] at hr
    obtain rfl := Option.some.inj hr
    exact hne rfl
  cases hs with
  | begin_headers k' http' =>
      apply hother
      rintro rfl
      rw [hbegin k http' rfl] at hk
      cases hk
  | header => exact hk
  | end_stream k' http' hk' => exact hother _ _ (hphase _ _ hk' Phase.noConfusion)
  | forward_request k' us' http' hk' hfd hnew => exact hother _ _ (hphase _ _ hk' Phase.noConfusion)
  | drop_rpc ds http' hk' hids => exact hother _ _ (hphase _ _ hk' Phase.noConfusion)
  | forward_response k' us' http' failed held hk' =>
      apply hother
      rintro rfl
      rw [hk] at hk'
      obtain ⟨rfl, hphase⟩ := OpenRequest.mk.inj (Option.some.inj hk')
      obtain rfl := Phase.forwarded.inj hphase
      exact hresponse failed held rfl
  | data_sent k' us' http' held hk' => exact hother _ _ (hphase _ _ hk' Phase.noConfusion)

/-- The response to a request goes back: it was forwarded on that stream, and no other request
changes. -/
theorem Step.response {type : ConnectionType} {us : ℤ × ℤ} {failed : Bool} {held : ℕ}
    (hs : Step config L (.forward_response type us.1 us.2 failed held) L') :
    ∃ k http, k.1 = type ∧ L.request k = some ⟨http, .forwarded us⟩ ∧ L'.routes = L.routes
      ∧ ∀ k', k' ≠ k → L'.request k' = L.request k' := by
  obtain ⟨us_fd, us_stream_id⟩ := us
  generalize hev : Traffic.Event.forward_response type us_fd us_stream_id failed held = ev at hs
  cases hs with
  | forward_response k us http failed held hk =>
      obtain ⟨rfl, hfd, hstream, -, -⟩ := Traffic.Event.forward_response.inj hev
      refine ⟨k, http, rfl, ?_, rfl, fun k' hne => Function.update_of_ne hne _ _⟩
      rw [hk, hfd, hstream]
  | begin_headers | header | end_stream | forward_request | drop_rpc | data_sent => cases hev

/-- A step adds at most one route: of the request that it sends, or of a drop. -/
theorem Step.routes {ev : Traffic.Event} (hs : Step config L ev L') :
    L'.routes = L.routes ∨ ∃ k us, L'.routes = (k, us) :: L.routes
      ∧ (ev = .forward_request k us.1 us.2 ∨ us.1 = config.drop_fd) := by
  cases hs with
  | forward_request k us http hk hfd hnew => exact .inr ⟨k, us, rfl, .inl rfl⟩
  | drop_rpc ds http hk hids => exact .inr ⟨_, _, rfl, .inr rfl⟩
  | begin_headers | header | end_stream | forward_response | data_sent => exact .inl rfl

end Ledger

/-- A downstream stream on which a request begins had none before, as its connection numbers them
in turn. -/
theorem Traffic.Coherent.begin_headers {config : TrafficConfig} {t t' : Traffic n} {L : Ledger}
    (h : Traffic.Coherent config (t, L)) {k : StreamKey} {http : HTTP}
    (hok : t.handle config (.begin_headers k http) = .ok t') : L.request k = none := by
  obtain ⟨m, hallocate, -⟩ := bind_eq_ok.mp hok
  obtain ⟨-, -, -, hfree, -⟩ := RPCMapper.allocate_rpc_spec hallocate
  by_contra hopen
  obtain ⟨r, hr⟩ := Option.ne_none_iff_exists'.mp hopen
  obtain ⟨a, hfind, -, -⟩ := h.tracks.object hr
  rw [hfind] at hfree
  cases hfree

namespace HttpUpstreams

/-! ## The history of a connection -/

section History

variable {fd : ℤ} {ts : Run n} {t : Transition (World n) Event}

theorem sent_append (ts : Run n) (t : Transition (World n) Event) (fd : ℤ) :
    sent (ts ++ [t]) fd = sent ts fd ++ (sentBy fd t).toList := by
  unfold sent
  rw [List.filterMap_append]
  cases h : sentBy fd t <;> simp [h]

theorem answered_append (ts : Run n) (t : Transition (World n) Event) (fd : ℤ) :
    answered (ts ++ [t]) fd = answered ts fd ++ (answeredBy fd t).toList := by
  unfold answered
  rw [List.filterMap_append]
  cases h : answeredBy fd t <;> simp [h]

/-- A step that is not of this connection leaves its history as it was: nothing more is sent or
answered. -/
theorem history_quiet (ts : Run n) (fd : ℤ) {t : Transition (World n) Event}
    (hsent : sentBy fd t = none) (hanswered : answeredBy fd t = none) :
    sent (ts ++ [t]) fd = sent ts fd ∧ answered (ts ++ [t]) fd = answered ts fd := by
  rw [sent_append, answered_append, hsent, hanswered]
  exact ⟨List.append_nil _, List.append_nil _⟩

/-- What has no response, of a history in which the numbers grow: the last request, or none. -/
theorem unanswered_eq (last : Option (StreamKey × ℤ)) {before : List (StreamKey × ℤ)}
    (hsent : sent ts fd = before ++ last.toList) (hanswered : answered ts fd = before.map Prod.snd)
    (hincreasing : ((sent ts fd).map Prod.snd).Pairwise (· < ·)) :
    unanswered ts fd = last.toList := by
  unfold unanswered
  rw [hsent, List.filter_append, hanswered]
  have hbefore : (before.filter fun x => x.2 ∉ before.map Prod.snd) = [] := by
    apply List.filter_eq_nil_iff.mpr
    intro x hx
    rw [decide_eq_true_iff, not_not]
    exact List.mem_map_of_mem hx
  have hlast : (last.toList.filter fun x => x.2 ∉ before.map Prod.snd) = last.toList := by
    apply List.filter_eq_self.mpr
    intro x hx
    rw [decide_eq_true_iff]
    intro hmem
    obtain ⟨y, hy, heq⟩ := List.mem_map.mp hmem
    rw [hsent, List.map_append] at hincreasing
    have hlt := (List.pairwise_append.mp hincreasing).2.2 y.2 (List.mem_map_of_mem hy)
      x.2 (List.mem_map_of_mem hx)
    exact absurd heq hlt.ne
  rw [hbefore, hlast, List.nil_append]

end History

/-! ## The invariant -/

/-- **The invariant** of a connection. Its requests have growing numbers, and are the routes of the
ledger over it. All of them have responses but the last one, and that one exactly if the connection
is not busy. A response in a queue is that of a request that has got no other. -/
structure Paired (w : World n) (ts : Run n) (fd : ℤ) (c : HTTP1Connection n) : Prop where
  descriptor : c.fd = fd
  real : 0 < fd
  direction : c.direction = .UPSTREAM
  routes : ∀ k us_stream_id, (k, fd, us_stream_id) ∈ w.2.routes ↔ (k, us_stream_id) ∈ sent ts fd
  type : ∀ x ∈ sent ts fd, x.1.1 = c.type
  increasing : ((sent ts fd).map Prod.snd).Pairwise (· < ·)
  last : ∀ x ∈ sent ts fd, x.2 ≤ c.last_id
  order : (sent ts fd).map Prod.snd = answered ts fd ++ if c.idle then [] else [c.last_id]
  busy : c.idle = false → ∃ k http, w.2.request k = some ⟨http, .forwarded (fd, c.last_id)⟩
  queued : ∀ us_stream_id, (fd, us_stream_id) ∈ w.1.rpc_queue c.type .UPSTREAM →
    us_stream_id ∈ answered ts fd
    ∧ ∃ k http, w.2.request k = some ⟨http, .forwarded (fd, us_stream_id)⟩
  once : ((w.1.rpc_queue c.type .UPSTREAM).filter fun x => x.1 = fd).Nodup

/-- The invariant of the worker: the registry agrees with the ledger, each connection with its own
history, and the pools hold connections of their type. -/
structure Orderly (config : UpstreamConfig) (w : World n) (ts : Run n) : Prop where
  coherent : Traffic.Coherent config.toTrafficConfig (w.1.traffic, w.2)
  paired : ∀ fd c, w.1.connections fd = some c → Paired w ts fd c
  pools : ∀ id pool, w.1.pools id = some pool → ∀ fd ∈ pool.fds,
    ∃ c, w.1.connections fd = some c ∧ c.type = id.type

namespace Paired

variable {w : World n} {ts : Run n} {fd : ℤ} {c : HTTP1Connection n}

/-- The request with the number of the connection is the last one. -/
theorem last_sent (h : Paired w ts fd c) {k : StreamKey} (hmem : (k, c.last_id) ∈ sent ts fd) :
    ∃ before, sent ts fd = before ++ [(k, c.last_id)] := by
  obtain ⟨before, x, hsent⟩ :=
    (List.eq_nil_or_concat' (sent ts fd)).resolve_left (List.ne_nil_of_mem hmem)
  have hincreasing := h.increasing
  have hx := h.last x (by rw [hsent]; exact List.mem_append_right _ List.mem_cons_self)
  rw [hsent] at hmem hincreasing
  rw [List.map_append] at hincreasing
  rcases List.mem_append.mp hmem with hbefore | hlast
  · -- an earlier one has a smaller number
    have hlt := (List.pairwise_append.mp hincreasing).2.2 c.last_id
      (List.mem_map_of_mem (f := Prod.snd) hbefore) x.2 (List.mem_singleton.mpr rfl)
    omega
  · rw [List.mem_singleton.mp hlast]
    exact ⟨before, hsent⟩

/-- A request that was sent over the connection, and is open, is in its history. -/
theorem sent_of_forwarded {config : TrafficConfig} (h : Paired w ts fd c)
    (hwf : w.2.Wf config) {k : StreamKey} {us_stream_id : ℤ}
    (hk : w.2.upstream k = some (fd, us_stream_id)) : (k, us_stream_id) ∈ sent ts fd :=
  (h.routes k us_stream_id).mp (hwf.routed k _ hk)

/-- A connection that is idle has no request without a response: all that was sent over it is
answered. -/
theorem unanswered_of_idle (h : Paired w ts fd c) (hidle : c.idle = true) :
    unanswered ts fd = [] := by
  have horder := h.order
  rw [hidle, if_pos rfl, List.append_nil] at horder
  have heq := unanswered_eq none (List.append_nil _).symm horder.symm h.increasing
  exact heq

/-- So one with such a request is busy, and `get_any_connection` does not give it out. -/
theorem busy_of_unanswered (h : Paired w ts fd c) {x : StreamKey × ℤ}
    (hone : unanswered ts fd = [x]) :
    c.idle = false := by
  cases hidle : c.idle with
  | false => rfl
  | true =>
      rw [h.unanswered_of_idle hidle] at hone
      cases hone

/-- One that is busy has one: its last request, which the registry knows under the connection's
number. -/
theorem unanswered_of_busy {config : TrafficConfig} (h : Paired w ts fd c) (hwf : w.2.Wf config)
    (hidle : c.idle = false) :
    ∃ k http, unanswered ts fd = [(k, c.last_id)] ∧ (sent ts fd).getLast? = some (k, c.last_id)
      ∧ w.2.request k = some ⟨http, .forwarded (fd, c.last_id)⟩ := by
  obtain ⟨k, http, hk⟩ := h.busy hidle
  obtain ⟨before, hsent⟩ := h.last_sent (h.sent_of_forwarded hwf (Traffic.upstream_of_request hk))
  have horder := h.order
  rw [hidle, if_neg Bool.false_ne_true, hsent, List.map_append] at horder
  obtain ⟨hbefore, -⟩ := List.append_inj' horder rfl
  refine ⟨k, http, ?_, ?_, hk⟩
  · exact unanswered_eq (some (k, c.last_id)) hsent hbefore.symm h.increasing
  · rw [hsent]
    exact List.getLast?_concat

/-- The number of a busy connection is not that of a response. -/
theorem busy_last (h : Paired w ts fd c) (hidle : c.idle = false) : c.last_id ∉ answered ts fd := by
  have horder := h.order
  have hincreasing := h.increasing
  rw [hidle, if_neg Bool.false_ne_true] at horder
  rw [horder] at hincreasing
  intro hmem
  have hlt := (List.pairwise_append.mp hincreasing).2.2 _ hmem c.last_id
    (List.mem_singleton.mpr rfl)
  exact lt_irrefl _ hlt

/-- What `get_us_rpc` returns under the number of the connection is the object of its last
request. -/
theorem object_of_last {config : TrafficConfig} (h : Paired w ts fd c)
    (hcoherent : Traffic.Coherent config (w.1.traffic, w.2)) {a : Fin n}
    (ha : w.1.rpc_mapper.get_us_rpc c.type c.last_id fd = .ok a) :
    (sent ts fd).getLast? = some (w.1.rpc_mapper.ds_key a, c.last_id) := by
  obtain ⟨⟨hlive, hsome⟩, hkey⟩ := (hcoherent.tracks.us _ a).mp (RPCMapper.get_us_rpc_eq_ok.mp ha)
  obtain ⟨us, hus⟩ := Option.isSome_iff_exists.mp hsome
  have hsent := hcoherent.tracks.sent a us hlive hus
  have heq : us = (fd, c.last_id) := by
    rw [← hsent]
    exact (Prod.mk.inj hkey).2
  rw [heq] at hus
  obtain ⟨before, hlast⟩ := h.last_sent (h.sent_of_forwarded hcoherent.ledger hus)
  rw [hlast]
  exact List.getLast?_concat

/-- **The frame rule**: a step that has nothing to do with the connection, or only takes a response
out of a queue. -/
theorem carry (h : Paired w ts fd c) {w' : World n} {ts' : Run n} {c' : HTTP1Connection n}
    (hsent : sent ts' fd = sent ts fd) (hanswered : answered ts' fd = answered ts fd)
    (hroutes : ∀ k us_stream_id, (k, fd, us_stream_id) ∈ w'.2.routes
      ↔ (k, fd, us_stream_id) ∈ w.2.routes)
    (hsame : (c'.fd, c'.type, c'.direction) = (c.fd, c.type, c.direction)
      ∧ c'.idle = c.idle ∧ c'.last_id = c.last_id)
    (hqueue : ((w'.1.rpc_queue c.type .UPSTREAM).filter fun x => x.1 = fd).Sublist
      ((w.1.rpc_queue c.type .UPSTREAM).filter fun x => x.1 = fd))
    (hrequest : ∀ k http us_stream_id, w.2.request k = some ⟨http, .forwarded (fd, us_stream_id)⟩ →
      c.idle = false ∧ us_stream_id = c.last_id ∨ (fd, us_stream_id)
        ∈ w'.1.rpc_queue c.type .UPSTREAM →
      w'.2.request k = some ⟨http, .forwarded (fd, us_stream_id)⟩) :
    Paired w' ts' fd c' := by
  obtain ⟨hkey, hidle, hlast⟩ := hsame
  obtain ⟨hfd, hrest⟩ := Prod.mk.inj hkey
  obtain ⟨htype, hdirection⟩ := Prod.mk.inj hrest
  have hmem : ∀ us_stream_id, (fd, us_stream_id) ∈ w'.1.rpc_queue c.type .UPSTREAM →
      (fd, us_stream_id) ∈ w.1.rpc_queue c.type .UPSTREAM := by
    intro us_stream_id hus
    have hfilter := hqueue.subset (List.mem_filter.mpr ⟨hus, decide_eq_true rfl⟩)
    exact (List.mem_filter.mp hfilter).1
  refine
    { descriptor := hfd.trans h.descriptor
      real := h.real
      direction := hdirection.trans h.direction
      routes := ?_
      type := ?_
      increasing := ?_
      last := ?_
      order := ?_
      busy := ?_
      queued := ?_
      once := ?_ }
  · intro k us_stream_id
    rw [hsent, hroutes, h.routes]
  · rw [hsent, htype]
    exact h.type
  · rw [hsent]
    exact h.increasing
  · rw [hsent, hlast]
    exact h.last
  · -- the order is about the histories, which are the same
    rw [hsent, hanswered, hidle, hlast]
    exact h.order
  · rw [hidle, hlast]
    intro hbusy
    obtain ⟨k, http, hk⟩ := h.busy hbusy
    exact ⟨k, http, hrequest k http _ hk (.inl ⟨hbusy, rfl⟩)⟩
  · rw [htype, hanswered]
    intro us_stream_id hus
    obtain ⟨hold, k, http, hk⟩ := h.queued us_stream_id (hmem us_stream_id hus)
    exact ⟨hold, k, http, hrequest k http _ hk (.inr hus)⟩
  · rw [htype]
    exact hqueue.nodup h.once

/-- A request is sent over the connection, which was idle. It gets the next number and is the only
one without a response. -/
theorem send (h : Paired w ts fd c) {w' : World n} {t : Transition (World n) Event}
    {c' : HTTP1Connection n} {k : StreamKey} {http : HTTP} (hidle : c.idle = true)
    (htype : c.type = k.1)
    (hc : c' = { c with last_id := c.last_id + 1, idle := false, rpc_message := none })
    (hsent : sentBy fd t = some (k, c.last_id + 1)) (hanswered : answeredBy fd t = none)
    (hqueue : w'.1.rpc_queue = w.1.rpc_queue)
    (hledger : w'.2 = sendLedger w.2 k http (fd, c.last_id + 1))
    (hk : w.2.request k = some ⟨http, .ready⟩) : Paired w' (ts ++ [t]) fd c' := by
  have hsents : sent (ts ++ [t]) fd = sent ts fd ++ [(k, c.last_id + 1)] := by
    rw [sent_append, hsent]
    rfl
  have hanswers : answered (ts ++ [t]) fd = answered ts fd := by
    rw [answered_append, hanswered]
    exact List.append_nil _
  subst hc
  refine
    { descriptor := h.descriptor
      real := h.real
      direction := h.direction
      routes := ?_
      type := ?_
      increasing := ?_
      last := ?_
      order := ?_
      busy := ?_
      queued := ?_
      once := ?_ }
  · intro k' us_stream_id
    rw [hsents, List.mem_append, ← h.routes, hledger]
    unfold sendLedger
    dsimp only
    rw [List.mem_cons, List.mem_singleton, or_comm]
    exact or_congr_right ⟨fun heq => by cases heq; rfl, fun heq => by cases heq; rfl⟩
  · intro x hx
    rw [hsents] at hx
    rcases List.mem_append.mp hx with hx | hx
    · exact h.type x hx
    · rw [List.mem_singleton.mp hx]
      exact htype.symm
  · rw [hsents, List.map_append]
    refine List.pairwise_append.mpr ⟨h.increasing, List.pairwise_singleton _ _, ?_⟩
    intro a ha b hb
    obtain ⟨x, hx, rfl⟩ := List.mem_map.mp ha
    rw [List.mem_singleton.mp hb]
    exact Int.lt_add_one_iff.mpr (h.last x hx)
  · intro x hx
    rw [hsents] at hx
    rcases List.mem_append.mp hx with hx | hx
    · exact (h.last x hx).trans (Int.le_add_one le_rfl)
    · rw [List.mem_singleton.mp hx]
  · -- the connection was idle, so every earlier request has its response
    have horder := h.order
    rw [hidle, if_pos rfl, List.append_nil] at horder
    rw [hsents, hanswers, List.map_append, horder]
    rfl
  · intro _
    refine ⟨k, http, ?_⟩
    rw [hledger]
    exact Function.update_self _ _ _
  · intro us_stream_id hus
    rw [hqueue] at hus
    rw [hanswers]
    obtain ⟨hold, k', http', hk'⟩ := h.queued us_stream_id hus
    refine ⟨hold, k', http', ?_⟩
    rw [hledger]
    refine (Function.update_of_ne ?_ _ _).trans hk'
    rintro rfl
    rw [hk] at hk'
    cases hk'
  · rw [hqueue]
    exact h.once

/-- A response is complete: its stream is the one that is open, and the connection is idle
again. -/
theorem answer (h : Paired w ts fd c) {w' : World n} {t : Transition (World n) Event}
    {c' : HTTP1Connection n} (hidle : c.idle = false) (hidle' : c'.idle = true)
    (hsame : (c'.fd, c'.type, c'.direction) = (c.fd, c.type, c.direction) ∧ c'.last_id = c.last_id)
    (hsent : sentBy fd t = none) (hanswered : answeredBy fd t = some c.last_id)
    (hqueue : w'.1.rpc_queue c.type .UPSTREAM = w.1.rpc_queue c.type .UPSTREAM ++ [(fd, c.last_id)])
    (hledger : w'.2 = w.2) : Paired w' (ts ++ [t]) fd c' := by
  have hsents : sent (ts ++ [t]) fd = sent ts fd := by
    rw [sent_append, hsent]
    exact List.append_nil _
  have hanswers : answered (ts ++ [t]) fd = answered ts fd ++ [c.last_id] := by
    rw [answered_append, hanswered]
    rfl
  obtain ⟨hkey, hlast⟩ := hsame
  obtain ⟨hfd, hrest⟩ := Prod.mk.inj hkey
  obtain ⟨htype, hdirection⟩ := Prod.mk.inj hrest
  refine
    { descriptor := hfd.trans h.descriptor
      real := h.real
      direction := hdirection.trans h.direction
      routes := ?_
      type := ?_
      increasing := ?_
      last := ?_
      order := ?_
      busy := ?_
      queued := ?_
      once := ?_ }
  · rw [hsents, hledger]
    exact h.routes
  · rw [hsents, htype]
    exact h.type
  · rw [hsents]
    exact h.increasing
  · rw [hsents, hlast]
    exact h.last
  · have horder := h.order
    rw [hidle, if_neg Bool.false_ne_true] at horder
    rw [hsents, hanswers, hidle', if_pos rfl, List.append_nil, horder]
  · intro hbusy
    rw [hidle'] at hbusy
    cases hbusy
  · rw [htype, hqueue, hanswers, hledger]
    intro us_stream_id hus
    rcases List.mem_append.mp hus with hus | hus
    · obtain ⟨hold, hopen⟩ := h.queued us_stream_id hus
      exact ⟨List.mem_append_left _ hold, hopen⟩
    · obtain rfl := (Prod.mk.inj (List.mem_singleton.mp hus)).2
      exact ⟨List.mem_append_right _ (List.mem_singleton.mpr rfl), h.busy hidle⟩
  · rw [htype, hqueue, List.filter_append]
    refine List.nodup_append'.mpr ⟨h.once, List.Nodup.filter _ (List.nodup_singleton _), ?_⟩
    -- the response of the last request is not there already
    intro x hx hnew
    obtain rfl := List.mem_singleton.mp (List.mem_filter.mp hnew).1
    exact h.busy_last hidle (h.queued c.last_id (List.mem_filter.mp hx).1).1

end Paired

/-! ## The steps -/

section Steps

variable {parser : HttpParser} {config : UpstreamConfig} {s s' : HttpUpstreams n}
    {L L' : Ledger} {ts : Run n}

/-- A new number on a connection is a new stream: the numbers that the registry has of it are not
above `last_id`. -/
theorem Paired.new_stream {w : World n} {fd : ℤ} {c : HTTP1Connection n}
    (h : Paired w ts fd c) (type : ConnectionType) :
    (type, fd, c.last_id + 1) ∉ w.2.routes.map Ledger.upstreamKey := by
  intro hmem
  obtain ⟨x, hx, hkey⟩ := List.mem_map.mp hmem
  have hus : x.2 = (fd, c.last_id + 1) := (Prod.mk.inj hkey).2
  have hroute : (x.1, fd, c.last_id + 1) ∈ w.2.routes := by
    rw [← hus]
    exact hx
  have hle := h.last _ ((h.routes _ _).mp hroute)
  dsimp only at hle
  omega

/-- A request is sent: `route_request` has found an idle connection of its type, and the request
was ready. -/
theorem forward_orderly {s₁ : HttpUpstreams n} {k : StreamKey} {http : HTTP}
    {fd us_stream_id : ℤ} {text : Bytes} (h : Orderly config (s, L) ts)
    (hk : L.request k = some ⟨http, .ready⟩) (hroute : s.route_request k = .ok (fd, s₁))
    (hok : s₁.forward_request config k fd = .ok (us_stream_id, text, s')) :
    Orderly config (s', sendLedger L k http (fd, us_stream_id))
      (ts ++ [⟨(s, L), .forward k fd us_stream_id,
        (s', sendLedger L k http (fd, us_stream_id))⟩]) := by
  obtain ⟨c, heffect⟩ := send_effect hroute hok h.pools fun rpc hrpc => by
    obtain ⟨-, -, hkey, -⟩ := h.coherent.get_ds_rpc hk hrpc
    exact congrArg Prod.fst hkey
  obtain ⟨hc, havailable, htype, rfl, htraffic, hconnections, hqueue, hpools⟩ := heffect
  have hpaired := h.paired fd c hc
  -- `available` is what says that the connection has no request
  have hidle : c.idle = true := by
    unfold HTTP1Connection.available at havailable
    exact (Bool.and_eq_true_iff.mp havailable).1
  refine ⟨?_, ?_, ?_⟩
  · apply Traffic.step_coherent h.coherent
    exact ⟨htraffic, .forward_request k (fd, c.last_id + 1) http hk hpaired.real
      (hpaired.new_stream k.1)⟩
  · intro fd' c' hc'
    dsimp only at hc'
    rw [hconnections] at hc'
    by_cases hfd : fd' = fd
    · rw [hfd, Function.update_self] at hc'
      rw [hfd]
      refine hpaired.send hidle htype (Option.some.inj hc').symm ?_ rfl hqueue rfl hk
      exact if_pos rfl
    · rw [Function.update_of_ne hfd] at hc'
      -- another connection: its histories have nothing new
      have hother := h.paired fd' c' hc'
      obtain ⟨hsent, hanswered⟩ := history_quiet ts fd'
        (t := ⟨(s, L), .forward k fd (c.last_id + 1),
          (s', sendLedger L k http (fd, c.last_id + 1))⟩)
        (if_neg fun heq => hfd heq.symm) rfl
      refine hother.carry hsent hanswered ?_ ⟨rfl, rfl, rfl⟩ ?_ ?_
      · intro k' us
        unfold sendLedger
        dsimp only
        rw [List.mem_cons]
        refine or_iff_right ?_
        intro heq
        exact hfd (congrArg (fun x => x.2.1) heq)
      · rw [hqueue]
      · intro k' http' us hk' _
        refine (Function.update_of_ne ?_ _ _).trans hk'
        rintro rfl
        rw [hk] at hk'
        cases hk'
  · intro id pool hpool fd' hfd'
    obtain ⟨old, hold, hfds⟩ := hpools id pool hpool
    rw [hfds] at hfd'
    obtain ⟨c', hc', htype'⟩ := h.pools id old hold fd' hfd'
    dsimp only
    rw [hconnections]
    by_cases hfd : fd' = fd
    · rw [hfd] at hc'
      obtain rfl := Option.some.inj (hc.symm.trans hc')
      rw [hfd, Function.update_self]
      exact ⟨_, rfl, htype'⟩
    · rw [Function.update_of_ne hfd]
      exact ⟨c', hc', htype'⟩

/-- Bytes arrive from a server. They complete at most one response, that of the request which is
open. -/
theorem read_orderly {fd : ℤ} {c : HTTP1Connection n} {data : Bytes} {answer : Option ℤ}
    (h : Orderly config (s, L) ts) (hc : s.connections fd = some c)
    (hok : s.read parser config fd data = .ok s')
    (hanswer : s'.rpc_queue = s.answerQueue c.type fd answer) :
    Orderly config (s', L) (ts ++ [⟨(s, L), .read fd data answer, (s', L)⟩]) := by
  have hpaired := h.paired fd c hc
  obtain ⟨c', calls, heffect, rfl⟩ := read_effect hc hpaired.direction hok
  obtain ⟨hmapper, ⟨hkey, -, hlast, -⟩, -, hqueue⟩ := heffect
  have hqueues : (({ s with toHttpCalls := calls } : HttpUpstreams n).set_connection
      fd c').rpc_queue
      = calls.rpc_queue := rfl
  rw [hqueues] at hanswer
  refine ⟨?_, ?_, ?_⟩
  · -- the registry is as it was
    have htraffic : (({ s with toHttpCalls := calls } : HttpUpstreams n).set_connection
        fd c').traffic = s.traffic := by
      unfold traffic set_connection
      dsimp only
      rw [hmapper]
    dsimp only
    rw [htraffic]
    exact h.coherent
  · intro fd' c'' hc'
    have hupdate : Function.update s.connections fd (some c') fd' = some c'' := hc'
    by_cases hfd : fd' = fd
    · subst hfd
      rw [Function.update_self] at hupdate
      obtain rfl := Option.some.inj hupdate
      rcases hqueue with ⟨hidle, hsame⟩ | ⟨hidle, hidle', hnew⟩
      · -- not complete
        obtain rfl : answer = none := answer_of_queue (hanswer.symm.trans hsame)
        obtain ⟨hsent, hanswered⟩ := history_quiet ts fd'
          (t := ⟨(s, L), .read fd' data none, (_, L)⟩) rfl (if_pos rfl)
        refine hpaired.carry hsent hanswered (fun _ _ => Iff.rfl) ⟨hkey, hidle, hlast⟩
          ?_ fun _ _ _ hk _ => hk
        rw [hqueues, hsame]
      · -- complete
        rw [hpaired.direction, hpaired.descriptor] at hnew
        obtain rfl : answer = some c.last_id := answer_of_queue (hanswer.symm.trans hnew)
        refine hpaired.answer hidle hidle' ⟨hkey, hlast⟩ rfl (if_pos rfl) ?_ rfl
        rw [hqueues, hanswer, answerQueue_eq]
        rfl
    · rw [Function.update_of_ne hfd] at hupdate
      obtain ⟨hsent, hanswered⟩ := history_quiet ts fd'
        (t := ⟨(s, L), .read fd data answer, (_, L)⟩) rfl (if_neg fun heq => hfd heq.symm)
      refine (h.paired fd' c'' hupdate).carry hsent hanswered (fun _ _ => Iff.rfl)
        ⟨rfl, rfl, rfl⟩ ?_ fun _ _ _ hk _ => hk
      rw [hqueues, hanswer, answerQueue_other s c.type c''.type answer hfd]
  · intro id pool hpool fd' hfd'
    obtain ⟨c'', hc'', htype⟩ := h.pools id pool hpool fd' hfd'
    by_cases hfd : fd' = fd
    · rw [hfd] at hc''
      obtain rfl := Option.some.inj (hc.symm.trans hc'')
      refine ⟨c', ?_, ?_⟩
      · rw [hfd]
        exact Function.update_self _ _ _
      · exact (congrArg (fun x => x.2.1) hkey).trans htype
    · exact ⟨c'', (Function.update_of_ne hfd _ _).trans hc'', htype⟩

/-- The first entry of a queue leaves it; the other queues, and the rest of this one, stay as they
were. -/
theorem set_queue_rest {type type' : ConnectionType} {us : ℤ × ℤ} {rest : List (ℤ × ℤ)}
    (hqueue : s.rpc_queue type .UPSTREAM = us :: rest) :
    ((s.set_queue type .UPSTREAM rest).rpc_queue type' .UPSTREAM).Sublist
    (s.rpc_queue type' .UPSTREAM) := by
  rw [HttpCalls.rpc_queue_set_queue]
  by_cases htype : type' = type
  · rw [if_pos ⟨htype, rfl⟩, htype, hqueue]
    exact List.sublist_cons_self us rest
  · rw [if_neg fun h => htype h.1]

/-- A response goes back to its client: it leaves the queue, and the registry forgets the
request. -/
theorem respond_orderly {type : ConnectionType} {us : ℤ × ℤ} {rest : List (ℤ × ℤ)}
    {failed : Bool} {held : ℕ} (h : Orderly config (s, L) ts)
    (hqueue : s.rpc_queue type .UPSTREAM = us :: rest)
    (hok : s.respond config type failed held = .ok s')
    (hledger : L.Step config.toTrafficConfig (.forward_response type us.1 us.2 failed held) L') :
    Orderly config (s', L') (ts ++ [⟨(s, L), .respond type us.1 us.2, (s', L')⟩]) := by
  obtain ⟨t, ht, htraffic, hconnections, hpools, hqueues⟩ := respond_effect hqueue hok
  refine ⟨?_, ?_, ?_⟩
  · apply Traffic.step_coherent h.coherent
    refine ⟨ht.trans ?_, hledger⟩
    rw [← htraffic]
  · intro fd c hc
    dsimp only at hc
    rw [hconnections] at hc
    have hpaired := h.paired fd c hc
    obtain ⟨hsent, hanswered⟩ := history_quiet ts fd
      (t := ⟨(s, L), .respond type us.1 us.2, (s', L')⟩) rfl rfl
    obtain ⟨k, http, htype, hk, hroutes, hothers⟩ := hledger.response
    refine hpaired.carry hsent hanswered (fun k' us' => by dsimp only; rw [hroutes])
      ⟨rfl, rfl, rfl⟩ ?_ ?_
    · dsimp only
      rw [hqueues]
      exact (set_queue_rest hqueue).filter _
    · intro k' http' us' hk' hwaits
      refine (hothers k' ?_).trans hk'
      rintro rfl
      -- the request that gets the response is not one that waits for another
      rw [hk] at hk'
      obtain ⟨rfl, hphase⟩ := OpenRequest.mk.inj (Option.some.inj hk')
      obtain rfl := Phase.forwarded.inj hphase
      have hroute := hpaired.sent_of_forwarded h.coherent.ledger (Traffic.upstream_of_request hk)
      have hctype : c.type = type := (hpaired.type _ hroute).symm.trans htype
      have hfirst : (fd, us') ∈ s.rpc_queue c.type .UPSTREAM := by
        rw [hctype, hqueue]
        exact List.mem_cons_self
      rcases hwaits with ⟨hbusy, rfl⟩ | hlater
      · exact hpaired.busy_last hbusy (hpaired.queued c.last_id hfirst).1
      · dsimp only at hlater
        rw [hqueues, HttpCalls.rpc_queue_set_queue, if_pos ⟨hctype, rfl⟩] at hlater
        have honce := hpaired.once
        dsimp only at honce
        rw [hctype, hqueue, List.filter_cons, if_pos (decide_eq_true rfl)] at honce
        exact (List.nodup_cons.mp honce).1 (List.mem_filter.mpr ⟨hlater, decide_eq_true rfl⟩)
  · dsimp only
    rw [hpools, hconnections]
    exact h.pools

/-- A step that leaves the registry, the ledger and the connections alone, and puts no response of
theirs into a queue. -/
theorem queue_orderly {ev : Event} (h : Orderly config (s, L) ts)
    (htraffic : s'.traffic = s.traffic) (hpools : s'.pools = s.pools)
    (hconnections : s'.connections = s.connections)
    (hquiet : ∀ fd, sentBy fd ⟨(s, L), ev, (s', L)⟩ = none ∧ answeredBy fd ⟨(s, L), ev, (s', L)⟩
      = none) (hqueue : ∀ fd c, s.connections fd = some c →
      ((s'.rpc_queue c.type .UPSTREAM).filter fun x => x.1 = fd).Sublist
        ((s.rpc_queue c.type .UPSTREAM).filter fun x => x.1 = fd)) :
    Orderly config (s', L) (ts ++ [⟨(s, L), ev, (s', L)⟩]) := by
  refine ⟨?_, ?_, ?_⟩
  · dsimp only
    rw [htraffic]
    exact h.coherent
  · intro fd c hc
    dsimp only at hc
    rw [hconnections] at hc
    obtain ⟨hsent, hanswered⟩ := history_quiet ts fd (hquiet fd).1 (hquiet fd).2
    exact (h.paired fd c hc).carry hsent hanswered (fun _ _ => Iff.rfl)
      ⟨rfl, rfl, rfl⟩ (hqueue fd c hc)
      fun _ _ _ hk _ => hk
  · dsimp only
    rw [hpools, hconnections]
    exact h.pools

/-- The status of a connection changes, which no part of the pairing looks at. -/
theorem set_status_orderly {fd : ℤ} {c : HTTP1Connection n} (status : ConnectionStatus)
    (h : Orderly config (s, L) ts) (hc : s.connections fd = some c) :
    Orderly config (s.set_connection fd { c with status := status }, L)
      (ts ++ [⟨(s, L), .set_status fd status,
        (s.set_connection fd { c with status := status }, L)⟩]) := by
  refine ⟨h.coherent, ?_, ?_⟩
  · intro fd' c' hc'
    have hupdate : Function.update s.connections fd (some { c with status := status }) fd'
        = some c' := hc'
    obtain ⟨hsent, hanswered⟩ := history_quiet ts fd'
      (t := ⟨(s, L), .set_status fd status, (s.set_connection fd { c with status := status }, L)⟩)
        rfl rfl
    -- The connection itself keeps its buffers and its request; the others are untouched.
    by_cases hfd : fd' = fd
    · subst hfd
      rw [Function.update_self] at hupdate
      obtain rfl := Option.some.inj hupdate
      exact (h.paired fd' c hc).carry hsent hanswered (fun _ _ => Iff.rfl)
        ⟨rfl, rfl, rfl⟩ (List.Sublist.refl _)
        fun _ _ _ hk _ => hk
    · rw [Function.update_of_ne hfd] at hupdate
      exact (h.paired fd' c' hupdate).carry hsent hanswered (fun _ _ => Iff.rfl)
        ⟨rfl, rfl, rfl⟩ (List.Sublist.refl _)
        fun _ _ _ hk _ => hk
  · intro id pool hpool fd' hfd'
    obtain ⟨c', hc', htype⟩ := h.pools id pool hpool fd' hfd'
    by_cases hfd : fd' = fd
    · rw [hfd] at hc'
      obtain rfl := Option.some.inj (hc.symm.trans hc')
      refine ⟨{ c with status := status }, ?_, htype⟩
      rw [hfd]
      exact Function.update_self fd _ s.connections
    · exact ⟨c', (Function.update_of_ne hfd _ _).trans hc', htype⟩

/-- Something else happens to the registry. It concerns downstream streams, and no connection to a
server. -/
theorem other_orderly {t : Traffic n} {ev : Traffic.Event} (http : Fin n → HTTPMessage)
    (ingress : Ingress n) (h : Orderly config (s, L) ts) (helse : s.Elsewhere ev)
    (hok : s.traffic.handle config.toTrafficConfig ev = .ok t)
    (hledger : L.Step config.toTrafficConfig ev L') :
    Orderly config ({ s with http := http, ingress := ingress }.set_traffic t, L')
      (ts ++ [⟨(s, L), .other ev,
        ({ s with http := http, ingress := ingress }.set_traffic t, L')⟩]) := by
  refine ⟨Traffic.step_coherent h.coherent ⟨hok, hledger⟩, ?_, h.pools⟩
  intro fd c hstored
  have hc : s.connections fd = some c := hstored
  have hpaired := h.paired fd c hc
  obtain ⟨hsent, hanswered⟩ := history_quiet ts fd
    (t := ⟨(s, L), .other ev, ({ s with http := http, ingress := ingress }.set_traffic t, L')⟩)
      rfl rfl
  refine hpaired.carry hsent hanswered ?_ ⟨rfl, rfl, rfl⟩ (List.Sublist.refl _) ?_
  · intro k us
    dsimp only
    rcases hledger.routes with hroutes | ⟨k', us', hroutes, hnew⟩
    · rw [hroutes]
    · rw [hroutes, List.mem_cons]
      refine or_iff_right ?_
      intro heq
      have hfd : us'.1 = fd := congrArg (fun x => x.2.1) heq.symm
      rcases hnew with rfl | hdrop
      · -- the request has gone out on a connection that is not one of these
        have hnone : s.connections us'.1 = none := helse
        rw [hfd] at hnone
        rw [hnone] at hc
        cases hc
      · have hreal := hpaired.real
        unfold TrafficConfig.drop_fd at hdrop
        omega
  · intro k http' us hk _
    refine hledger.keeps_forwarded ?_ ?_ hk
    · rintro k' http'' rfl
      exact h.coherent.begin_headers hok
    · rintro failed held rfl
      exact helse

/-- **Every step** of the worker keeps it orderly, one case for each kind of event. -/
theorem step_orderly {w w' : World n} {ev : Event} (h : Orderly config w ts)
    (hs : Step parser config w ev w') :
    Orderly config w' (ts ++ [⟨w, ev, w'⟩]) := by
  cases hs with
  | forward hk hroute hok => exact forward_orderly h hk hroute hok
  | read hc hok hanswer => exact read_orderly h hc hok hanswer
  | respond hqueue hok hledger => exact respond_orderly h hqueue hok hledger
  | discard hqueue =>
      refine queue_orderly h rfl rfl rfl (fun _ => ⟨rfl, rfl⟩) ?_
      intro fd c _
      exact (set_queue_rest hqueue).filter _
  | set_status status hc => exact set_status_orderly status h hc
  | enqueue type direction fd stream_id hfd =>
      refine queue_orderly h rfl rfl rfl (fun _ => ⟨rfl, rfl⟩) ?_
      intro fd' c hc
      unfold HttpCalls.enqueue
      dsimp only
      rw [HttpCalls.rpc_queue_set_queue]
      split_ifs with hsame
      · -- the entry is not one of this connection
        obtain ⟨htype, hdirection⟩ := hsame
        have hne : fd ≠ fd' := by
          rintro rfl
          rw [hfd hdirection.symm] at hc
          cases hc
        rw [List.filter_append, List.filter_singleton, decide_eq_false hne, ← htype, ← hdirection]
        exact (List.append_nil _).subst (List.Sublist.refl _)
      · exact List.Sublist.refl _
  | dequeue type rest =>
      refine queue_orderly h rfl rfl rfl (fun _ => ⟨rfl, rfl⟩) ?_
      intro fd c _
      dsimp only
      rw [HttpCalls.rpc_queue_set_queue,
        if_neg fun hsame => ConnectionDirection.noConfusion hsame.2]
  | other http ingress helse hok hledger => exact other_orderly http ingress h helse hok hledger

end Steps

/-! ## Runs -/

/-- The connection is up, and every request that was sent over it has a response. -/
def Free (w : World n) (ts : Run n) (fd : ℤ) : Prop :=
  ∃ c, w.1.connections fd = some c ∧ c.status = .UP ∧ unanswered ts fd = []

/-- **One request at a time**, for the state `w` after the run `ts`. -/
structure OneAtATime (w : World n) (ts : Run n) : Prop where
  busy : ∀ fd c, w.1.connections fd = some c → (c.idle = false ↔ ∃ x, unanswered ts fd = [x])
  idle : ∀ fd c, w.1.connections fd = some c → (c.idle = true ↔ unanswered ts fd = [])
  /-- The connection looks its response up by the request that has none. -/
  found : ∀ fd c x, w.1.connections fd = some c → unanswered ts fd = [x] →
    x.2 = c.last_id ∧ ∃ a, w.1.rpc_mapper.get_us_rpc c.type c.last_id fd = .ok a
      ∧ w.1.rpc_mapper.ds_key a = x.1
  /-- What a read stores, it stores in the object of the request that was sent last over the
  connection, and what it completes is the response to the one request without a response. -/
  attached : ∀ before t after, ts = before ++ t :: after →
    ∀ fd data answer, t.label = .read fd data answer →
    (∀ a, t.post.1.http a ≠ t.pre.1.http a →
        ∃ us_stream_id, (sent before fd).getLast?
          = some (t.pre.1.rpc_mapper.ds_key a, us_stream_id))
      ∧ ∀ us_stream_id, answer = some us_stream_id → ∃ k, unanswered before fd = [(k, us_stream_id)]
  /-- Wherever the iterator of a pool stands. -/
  returned : ∀ id pool, w.1.pools id = some pool → ∀ q : ConnectionPool, q.fds = pool.fds →
    ∀ fd q', q.get_any_connection w.1.available = .ok (fd, q') → fd ∈ pool.fds ∧ Free w ts fd
  thrown : ∀ id pool, w.1.pools id = some pool → ∀ q : ConnectionPool, q.fds = pool.fds →
    ∀ e, q.get_any_connection w.1.available = .error e → e = .noConnection
      ∧ ∀ fd ∈ pool.fds, ¬ Free w ts fd

section Runs

variable {parser : HttpParser} {config : UpstreamConfig} {grpc_n http_n : ℕ}

/-- A worker starts orderly: no connection has a request, and the registry is empty. -/
theorem start_orderly {s : HttpUpstreams (http_n + grpc_n)} (hstart : Start grpc_n http_n s) :
    Orderly config (s, .empty) [] := by
  refine ⟨?_, ?_, hstart.pool⟩
  · obtain ⟨type, priority, htraffic⟩ := hstart.traffic
    dsimp only
    rw [htraffic]
    exact Traffic.start_coherent config.toTrafficConfig grpc_n http_n type priority
  · intro fd c hc
    -- Every connection is new: nothing was sent on it, and nothing waits for an answer.
    obtain ⟨hreal, heq⟩ := hstart.connection fd c hc
    have hidle : c.idle = true := by rw [heq]; rfl
    refine
      { descriptor := by rw [heq]; rfl
        real := hreal
        direction := by rw [heq]; rfl
        routes :=
        fun _ _ => ⟨fun h => absurd h List.not_mem_nil, fun h => absurd h List.not_mem_nil⟩
        type := fun _ h => absurd h List.not_mem_nil
        increasing := List.Pairwise.nil
        last := fun _ h => absurd h List.not_mem_nil
        order := by rw [hidle]; rfl
        busy := fun h => absurd (hidle.symm.trans h) Bool.noConfusion
        queued := ?_
        once := ?_ }
    · intro us_stream_id hmem
      rw [hstart.queue] at hmem
      exact absurd hmem List.not_mem_nil
    · rw [hstart.queue]
      exact List.nodup_nil

/-- A run keeps it so, by induction over its steps. -/
theorem run_orderly {w₀ w : World n} {ts : Run n} (h : Orderly config w₀ [])
    (hrun : Exec (Step parser config) w₀ ts w) :
    Orderly config w ts :=
  hrun.history (Orderly config) (fun _ _ _ hbefore hstep => step_orderly hbefore hstep) h

/-- What is available is free: the flags of the object say what the history of the connection
says. -/
theorem Orderly.available_iff {w : World n} {ts : Run n} (h : Orderly config w ts) (fd : ℤ) :
    w.1.available fd = true ↔ Free w ts fd := by
  unfold available
  cases hc : w.1.connections fd with
  | none =>
      constructor
      · intro hfalse
        cases hfalse
      · rintro ⟨c, hsome, -⟩
        rw [hc] at hsome
        cases hsome
  | some c =>
      have hpaired := h.paired fd c hc
      unfold HTTP1Connection.available
      rw [Option.any_some, Bool.and_eq_true_iff, decide_eq_true_iff]
      constructor
      · rintro ⟨hidle, hup⟩
        exact ⟨c, hc, hup, hpaired.unanswered_of_idle hidle⟩
      · rintro ⟨c', hc', hup, hnone⟩
        obtain rfl := Option.some.inj (hc.symm.trans hc')
        refine ⟨?_, hup⟩
        -- A busy connection has one request out, which contradicts that all are answered.
        by_contra hbusy
        obtain ⟨k, http, hone, -, -⟩ :=
          hpaired.unanswered_of_busy h.coherent.ledger (Bool.eq_false_iff.mpr hbusy)
        rw [hone] at hnone
        cases hnone

/-- **HTTP/1 connections carry one request at a time**, after every run from the start of a worker.
The requests go out over both kinds of connections, responses arrive in any pieces, and connections
open and close in between. -/
theorem connections_carry_one_request {s : HttpUpstreams (http_n + grpc_n)}
    {w : World (http_n + grpc_n)} {ts : Run (http_n + grpc_n)} (hstart : Start grpc_n http_n s)
    (hrun : Exec (Step parser config) (s, .empty) ts w) : OneAtATime w ts := by
  have h : Orderly config w ts := run_orderly (start_orderly hstart) hrun
  refine
    { busy := ?_
      idle := ?_
      found := ?_
      attached := ?_
      returned := ?_
      thrown := ?_ }
  · intro fd c hc
    constructor
    · intro hbusy
      obtain ⟨k, http, hone, -, -⟩ := (h.paired fd c hc).unanswered_of_busy h.coherent.ledger hbusy
      exact ⟨_, hone⟩
    · rintro ⟨x, hone⟩
      exact (h.paired fd c hc).busy_of_unanswered hone
  · intro fd c hc
    constructor
    · exact (h.paired fd c hc).unanswered_of_idle
    · intro hnone
      by_contra hbusy
      obtain ⟨k, http, hone, -, -⟩ :=
        (h.paired fd c hc).unanswered_of_busy h.coherent.ledger (Bool.eq_false_iff.mpr hbusy)
      rw [hone] at hnone
      cases hnone
  · intro fd c x hc hone
    have hpaired := h.paired fd c hc
    have hbusy := hpaired.busy_of_unanswered hone
    obtain ⟨k, http, hlast, -, hk⟩ := hpaired.unanswered_of_busy h.coherent.ledger hbusy
    obtain rfl := List.singleton_inj.mp (hlast.symm.trans hone)
    have hup := Traffic.upstream_of_request hk
    obtain ⟨a, hus, -, -, hkey, -⟩ := h.coherent.tracks.response hup
    have htype : k.1 = c.type := hpaired.type _ (hpaired.sent_of_forwarded h.coherent.ledger hup)
    refine ⟨rfl, a, RPCMapper.get_us_rpc_eq_ok.mpr ?_, hkey⟩
    rw [← htype]
    exact hus
  · intro before t after hts fd data answer hlabel
    rw [hts] at hrun
    obtain ⟨mid, hbefore, hrest⟩ := hrun.split
    have hmid : Orderly config mid before := run_orderly (start_orderly hstart) hbefore
    cases hrest with
    | cons hstep _ =>
        dsimp only at hlabel
        subst hlabel
        cases hstep with
        | read hc hok hanswer =>
            have hpaired := hmid.paired fd _ hc
            obtain ⟨c', calls, heffect, rfl⟩ := read_effect hc hpaired.direction hok
            constructor
            · intro a ha
              have hobject := heffect.object a ha
              rw [hpaired.descriptor] at hobject
              exact ⟨_, hpaired.object_of_last hmid.coherent hobject⟩
            · rintro us_stream_id rfl
              have hqueues : calls.rpc_queue = _ := hanswer
              rcases heffect.queue with ⟨-, hsame⟩ | ⟨hbusy, -, hnew⟩
              · -- nothing was put into the queue
                cases (answer_of_queue (hqueues.symm.trans hsame) : some us_stream_id = none)
              · rw [hpaired.direction, hpaired.descriptor] at hnew
                obtain ⟨k, http, hone, -, -⟩ :=
                  hpaired.unanswered_of_busy hmid.coherent.ledger hbusy
                have hlast : some us_stream_id = some _ := answer_of_queue (hqueues.symm.trans hnew)
                rw [Option.some.inj hlast]
                exact ⟨k, hone⟩
  · intro id pool hpool q hfds fd q' hok
    obtain ⟨hmem, havailable, -⟩ := ConnectionPool.get_any_connection_ok hok
    rw [hfds] at hmem
    exact ⟨hmem, (h.available_iff fd).mp havailable⟩
  · intro id pool hpool q hfds e herror
    obtain ⟨he, hall⟩ := ConnectionPool.get_any_connection_error herror
    refine ⟨he, ?_⟩
    intro fd hmem hfree
    rw [← hfds] at hmem
    have hfalse := hall fd hmem
    rw [(h.available_iff fd).mpr hfree] at hfalse
    cases hfalse

end Runs

/-! ### A run with one request -/

/-- A worker with one object and one connection to a server, on descriptor 7, for the concrete run
below. -/
def oneConnection : HttpUpstreams (1 + 0) :=
  { rpc_mapper := .create 0 1 (fun _ => .INGRESS) (fun _ => 0)
    http := fun _ => .create (RPCMapper.blankMessage .HTTP1 .INGRESS 0)
    rpc_queue := fun _ _ => []
    local_id_counter := 1
    ingress := .init 0 1 []
    connections := fun fd => if fd = 7 then some (.create 7 .INGRESS) else none
    pools := fun id => if id = .ingress then some ⟨[7], 0, fun _ => Nat.zero_lt_one⟩ else none
    answers := [] }

/-- It is at its start, where the connection is idle and its numbers have not begun. -/
theorem oneConnection_start : Start 0 1 oneConnection := by
  refine ⟨⟨fun _ => .INGRESS, fun _ => 0, rfl⟩, fun _ => rfl, ?_, ?_⟩
  · intro fd c hc
    unfold oneConnection at hc
    dsimp only at hc
    split_ifs at hc with hfd
    obtain rfl := Option.some.inj hc
    rw [hfd]
    exact ⟨by decide, rfl⟩
  · intro id pool hpool fd hmem
    unfold oneConnection at hpool
    dsimp only at hpool
    split_ifs at hpool with hid
    obtain rfl := Option.some.inj hpool
    obtain rfl := List.mem_singleton.mp hmem
    rw [hid]
    exact ⟨_, rfl, rfl⟩

/-- A request is sent over the connection, and its response is read. -/
theorem connections_carry_one_request_one :
    ∃ (w : World (1 + 0)) (ts : Run (1 + 0)),
      OneAtATime w ts ∧ sent ts 7 = [((.INGRESS, 5, 1), 1)] ∧ answered ts 7 = [1] := by
  let config : UpstreamConfig := ⟨⟨⟨false, false⟩, 0, []⟩, true, 1000⟩
  let k : StreamKey := (.INGRESS, 5, 1)
  -- "HTTP/1.1 204"
  let response : Bytes := [72, 84, 84, 80, 47, 49, 46, 49, 32, 50, 48, 52, 13, 10, 13, 10]
  let s₀ : HttpUpstreams (1 + 0) :=
    oneConnection.set_connection 7 { HTTP1Connection.create 7 .INGRESS with status := .UP }
  let pool : ConnectionPool := ⟨[7], 0, fun _ => Nat.zero_lt_one⟩
  have hcheck : (do
      let t₁ ← s₀.traffic.handle config.toTrafficConfig (.begin_headers k .HTTP1)
      let t₂ ← (s₀.set_traffic t₁).traffic.handle config.toTrafficConfig (.header k .rpc_id)
      let t₃ ← ((s₀.set_traffic t₁).set_traffic t₂).traffic.handle
        config.toTrafficConfig (.end_stream k)
      let s₃ := ((s₀.set_traffic t₁).set_traffic t₂).set_traffic t₃
      let rpc ← s₃.rpc_mapper.get_ds_rpc k.1 k.2.2 k.2.1
      let s₄ ← { s₃ with pools := Function.update s₃.pools .ingress (some pool) }.forward_request
        config k 7
      let s₅ ← s₄.2.2.read .pico config 7 response
      .ok (decide (s₄.1 = 1 ∧ s₅.rpc_queue .INGRESS .UPSTREAM = [(7, 1)]
        ∧ s₄.2.2.rpc_queue .INGRESS .UPSTREAM = []
        ∧ (s₄.2.2.connections 7).map (fun c => (c.fd, c.type, c.direction, c.last_id))
            = some (7, .INGRESS, .UPSTREAM, 1)))) = (.ok true : Except Abort Bool) := by
    decide +kernel
  obtain ⟨t₁, h₁, hcheck⟩ := bind_eq_ok.mp hcheck
  obtain ⟨t₂, h₂, hcheck⟩ := bind_eq_ok.mp hcheck
  obtain ⟨t₃, h₃, hcheck⟩ := bind_eq_ok.mp hcheck
  obtain ⟨rpc, hrpc, hcheck⟩ := bind_eq_ok.mp hcheck
  obtain ⟨⟨us_stream_id, text, s₄⟩, h₄, hcheck⟩ := bind_eq_ok.mp hcheck
  obtain ⟨s₅, h₅, hcheck⟩ := bind_eq_ok.mp hcheck
  obtain ⟨rfl, hqueue, hempty, hc⟩ := of_decide_eq_true (Except.ok.inj hcheck)
  let s₃ : HttpUpstreams (1 + 0) := ((s₀.set_traffic t₁).set_traffic t₂).set_traffic t₃
  -- the pool has one connection, which is up and idle
  have hroute : s₃.route_request k
      = .ok (7, { s₃ with pools := Function.update s₃.pools .ingress (some pool) }) :=
    route_request_here hrpc rfl rfl rfl rfl rfl
  obtain ⟨c, hconn, hsame⟩ := Option.map_eq_some_iff.mp hc
  obtain ⟨hfd, htype, hdirection, hlast⟩ : c.fd = 7 ∧ c.type = .INGRESS
    ∧ c.direction = .UPSTREAM ∧ c.last_id = 1 := by
    simpa using hsame
  obtain ⟨c', calls, heffect, rfl⟩ := read_effect hconn hdirection h₅
  have hanswer : calls.rpc_queue = s₄.answerQueue c.type 7 (some 1) := by
    rcases heffect.queue with ⟨-, hkept⟩ | ⟨-, -, hnew⟩
    · have hone : calls.rpc_queue .INGRESS .UPSTREAM = [(7, 1)] := hqueue
      rw [hkept] at hone
      cases hempty.symm.trans hone
    · rw [hfd, htype, hdirection, hlast] at hnew
      rw [htype]
      exact hnew
  let step := Step (n := 1 + 0) .pico config
  have hrun : Exec step (oneConnection, .empty) _ (_, _) :=
    .cons (.set_status .UP rfl)
      (.cons (.other s₀.http s₀.ingress (show s₀.Elsewhere (.begin_headers k .HTTP1) from trivial)
        h₁ (.begin_headers k .HTTP1))
        (.cons (.other s₀.http s₀.ingress (show (s₀.set_traffic t₁).Elsewhere (.header k .rpc_id)
          from trivial) h₂
            (.header k .rpc_id .HTTP1 rfl))
          (.cons (.other s₀.http s₀.ingress
              (show ((s₀.set_traffic t₁).set_traffic t₂).Elsewhere (.end_stream k) from trivial) h₃
              (.end_stream k .HTTP1 rfl))
            (.cons (.forward rfl hroute h₄) (.cons (.read hconn h₅ hanswer) (.nil _))))))
  exact ⟨_, _, connections_carry_one_request oneConnection_start hrun, rfl, rfl⟩

end HttpUpstreams

end RlpSidecar
