/-
Which services the client side of a mesh sidecar knows (`state.cc`, `ppm_queue.cc`, `stats.cc`).

The routing table is copied into the pools of connections, the queue of requests that wait for a
credit, and maps of measurements. An egress request goes through all of them. They have the same
keys, but only the pools have a rule for a service that is not one of them: a request for it gets
the pool of `*`, if there is one. The queue refuses it, so such a rule only ends the process.

Connections are left out of the pools. The maps of measurements that no request reads on its way
are left out.

A request uses the tables in a fixed order, and `OnPath` lists the uses. `routes_agree_iff` says of
every table and every service, in every state that can be reached, when the pools and the rest
agree: for the services of the routing table, and for all others if it has no `*`.
`any_service_refused` is such a rule at work.
-/
import RlpSidecar.HttpUpstreams
import RlpSidecar.LimitUpdates
import RlpSidecar.MeshCoupling
import RlpSidecar.TimeWeightedMean

set_option autoImplicit false

open Tables

namespace RlpSidecar

/-! ## Pools -/

/-- `UpstreamRouteMapper`, with one pool for each service of the routing table. -/
abbrev UpstreamRouteMapper := UMap Bytes ConnectionPool

namespace UpstreamRouteMapper

/-- `add_route`, which adds a pool unless there is one for the service already. -/
def add_route (map : UpstreamRouteMapper) (service : Bytes) : UpstreamRouteMapper :=
  if map.lookup service = none then (emplace map service ⟨[], 0, fun h => absurd rfl h⟩).1 else map

/-- `get_pool`, the only lookup that falls back to the service `*`. -/
def get_pool (map : UpstreamRouteMapper) (service : Bytes) : Except Abort ConnectionPool :=
  match map.lookup service with
  | some pool => .ok pool
  | none =>
    match map.lookup ANY_SERVICE with
    | some pool => .ok pool
    | none => .error .noPool

end UpstreamRouteMapper

/-! ## Tables -/

/-- What a request for a service is looked up in, from its arrival to its response. -/
structure ClientTables where
  upstream_route_mapper : UpstreamRouteMapper
  ppm_queue : PPMQueue
  last_rtt_us : LocalMap (BitVec 32)
  ema_ds_sidecar_rtt_us : LocalMap ExponentialMovingAverage
  ema_wait_to_tx_us : LocalMap ExponentialMovingAverage
  time_mean_ds_concurrency : LocalMap (TimeWeightedMean ℚ)

namespace ClientTables

/-- The loop of `Stats::Stats` over the downstream services, which gets the entry of each of its
maps. -/
def describe (means : LocalMap (TimeWeightedMean ℚ))
    (waits rtts : LocalMap ExponentialMovingAverage) :
    List Bytes → Except Abort Unit
  | [] => .ok ()
  | service :: services => do
    let _ ← means.get service
    let _ ← waits.get service
    let _ ← rtts.get service
    describe means waits rtts services

/-- The constructors, of `Stats` first, over the services of the routing table. -/
def create (routing : List Bytes) : Except Abort ClientTables := do
  let ema_ds_sidecar_rtt_us ← LocalMap.ofKeys routing ExponentialMovingAverage.create
  let time_mean_ds_concurrency ← LocalMap.ofKeys routing TimeWeightedMean.create
  let ema_wait_to_tx_us ← LocalMap.ofKeys routing ExponentialMovingAverage.create
  -- the constructor describes its averages to the log, and looks each of them up for it
  describe time_mean_ds_concurrency ema_wait_to_tx_us ema_ds_sidecar_rtt_us routing
  let last_rtt_us ← LocalMap.ofKeys routing 0
  .ok
    { upstream_route_mapper := routing.foldl .add_route ∅
      ppm_queue := .create routing
      last_rtt_us := last_rtt_us
      ema_ds_sidecar_rtt_us := ema_ds_sidecar_rtt_us
      ema_wait_to_tx_us := ema_wait_to_tx_us
      time_mean_ds_concurrency := time_mean_ds_concurrency }

/-- What is done to the tables: `PPMQueue::push`, the lookup of `send_credit_request`,
`PPMQueue::check` and the new RTT of `credit_post_process`, `PPMQueue::pop`, the statistics of
`send_sub_request`, and those of a response. -/
inductive Use
  | push (rpc : RPCMessage)
  | last_rtt (service : Bytes)
  | check (service : Bytes)
  | set_rtt (service : Bytes) (rtt : Sample)
  | pop (service : Bytes) (id : RPCID)
  | sent (service : Bytes) (wd : Sample) (now : ℚ)
  | answered (service : Bytes) (now : ℚ)

/-- How it is done: each use is a lookup under the name of the service, which ends the process if
it is not there. -/
def apply (t : ClientTables) : Use → Except Abort ClientTables
  | .push rpc => do
    let ppm_queue ← t.ppm_queue.push rpc
    .ok { t with ppm_queue := ppm_queue }
  -- a Credit Request tells the last RTT
  | .last_rtt service => do
    let _ ← t.last_rtt_us.get service
    .ok t
  | .check service => do
    t.ppm_queue.check service
    .ok t
  | .set_rtt service rtt => do
    let last_rtt_us ← t.last_rtt_us.set service (BitVec.ofNat 32 rtt.val)
    let ema_ds_sidecar_rtt_us ← t.ema_ds_sidecar_rtt_us.modify service (·.update rtt)
    .ok { t with last_rtt_us := last_rtt_us, ema_ds_sidecar_rtt_us := ema_ds_sidecar_rtt_us }
  | .pop service id => do
    let (_, ppm_queue) ← t.ppm_queue.pop service id
    .ok { t with ppm_queue := ppm_queue }
  | .sent service wd now => do
    let ema_wait_to_tx_us ← t.ema_wait_to_tx_us.modify service (·.update wd)
    let time_mean_ds_concurrency ← t.time_mean_ds_concurrency.modify service (·.up now)
    .ok { t with
      ema_wait_to_tx_us := ema_wait_to_tx_us
      time_mean_ds_concurrency := time_mean_ds_concurrency }
  -- `down`, which looks the mean up twice
  | .answered service now => do
    let mean ← t.time_mean_ds_concurrency.get service
    let mean ← mean.down now
    let time_mean_ds_concurrency ← t.time_mean_ds_concurrency.modify service fun _ => mean
    .ok { t with time_mean_ds_concurrency := time_mean_ds_concurrency }

/-- The tables in a run, after any of these uses that returned. -/
inductive Reachable (t₀ : ClientTables) : ClientTables → Prop
  | start : Reachable t₀ t₀
  | step {t t' : ClientTables} {u : Use} : Reachable t₀ t → t.apply u = .ok t' → Reachable t₀ t'

/-! ## The path of a request -/

/-- The ways in which a request for a service uses the tables after it has been resolved. -/
def OnPath (service : Bytes) : Use → Prop
  | .push rpc => rpc.service = service
  | .last_rtt s | .check s | .set_rtt s _ | .pop s _ | .sent s _ _ => s = service
  | .answered _ _ => False

/-- An id that is pushed does not wait yet; one that is popped does. -/
def Ready (t : ClientTables) : Use → Prop
  | .push rpc => t.ppm_queue.find (rpc.service, rpc.local_id) = none
  | .pop service id => (t.ppm_queue.find (service, id)).isSome = true
  | _ => True

/-- **The tables agree on a service**: a request that is resolved is not refused on its path, and
one that is not would be refused everywhere. -/
def Agree (t : ClientTables) (service : Bytes) : Prop :=
  ((∃ pool, t.upstream_route_mapper.get_pool service = .ok pool) →
      ∀ u, OnPath service u → t.Ready u → ∃ t', t.apply u = .ok t')
    ∧ ((¬ ∃ pool, t.upstream_route_mapper.get_pool service = .ok pool) →
      ∀ u, OnPath service u → ¬ ∃ t', t.apply u = .ok t')

/-- All tables have these keys, no more and no fewer. -/
structure Routed (routing : List Bytes) (t : ClientTables) : Prop where
  pools : ∀ service, service ∈ t.upstream_route_mapper ↔ service ∈ routing
  queue : ∀ service, service ∈ t.ppm_queue ↔ service ∈ routing
  rtts : t.last_rtt_us.Hosts routing
  averages : t.ema_ds_sidecar_rtt_us.Hosts routing
  waits : t.ema_wait_to_tx_us.Hosts routing
  means : t.time_mean_ds_concurrency.Hosts routing

end ClientTables

/-! ## The same keys -/

namespace UpstreamRouteMapper

variable {map : UpstreamRouteMapper} {service service' : Bytes}

theorem mem_add_route : service' ∈ map.add_route service ↔ service' = service ∨ service' ∈ map := by
  unfold add_route
  split_ifs with h
  · exact mem_emplace
  · have hmem : service ∈ map := by
      by_contra hnot
      exact h (AList.lookup_eq_none.mpr hnot)
    exact ⟨Or.inr, fun h' => h'.elim (fun heq => heq ▸ hmem) id⟩

theorem mem_add_routes (routing : List Bytes) :
    service ∈ routing.foldl add_route map ↔ service ∈ map ∨ service ∈ routing := by
  induction routing generalizing map with
  | nil => exact ⟨Or.inl, fun h => h.resolve_right List.not_mem_nil⟩
  | cons route routing ih =>
      rw [List.foldl_cons, ih, mem_add_route, List.mem_cons]
      tauto

/-- A service is resolved by its route, or by that of all others. -/
theorem get_pool_iff : (∃ pool, map.get_pool service = .ok pool)
    ↔ service ∈ map ∨ ANY_SERVICE ∈ map := by
  unfold get_pool
  cases h : map.lookup service with
  | some pool => exact ⟨fun _ => .inl (AList.lookup_isSome.mp (by rw [h]; rfl)),
    fun _ => ⟨pool, rfl⟩⟩
  | none =>
      have hnot := AList.lookup_eq_none.mp h
      dsimp only
      cases hany : map.lookup ANY_SERVICE with
      | some pool =>
        exact ⟨fun _ => .inr (AList.lookup_isSome.mp (by rw [hany]; rfl)), fun _ => ⟨pool, rfl⟩⟩
      | none =>
          have hnone := AList.lookup_eq_none.mp hany
          constructor
          · rintro ⟨pool, hpool⟩
            cases hpool
          · intro hor
            exact absurd hor (not_or.mpr ⟨hnot, hnone⟩)

/-- A worker with the same pools resolves the same services, since `find_pool` asks `get_pool`. -/
theorem find_pool_iff {n : ℕ} (s : HttpUpstreams n)
    (hpools : ∀ service, s.pools (.service service) = map.lookup service) :
    (∃ id, s.find_pool .EGRESS service = .ok id) ↔ ∃ pool, map.get_pool service = .ok pool := by
  unfold HttpUpstreams.find_pool get_pool
  dsimp only
  rw [hpools, hpools]
  cases map.lookup service with
  | some pool => exact iff_of_true ⟨_, rfl⟩ ⟨pool, rfl⟩
  | none =>
      cases map.lookup ANY_SERVICE with
      | some pool => exact iff_of_true ⟨_, rfl⟩ ⟨pool, rfl⟩
      | none =>
          constructor
          · rintro ⟨id, hid⟩
            cases hid
          · rintro ⟨pool, hpool⟩
            cases hpool

end UpstreamRouteMapper

namespace PPMQueue

variable {q q' : PPMQueue} {rpc : RPCMessage} {service service' : Bytes} {id : RPCID}

theorem mem_create (routing : List Bytes) : service ∈ create routing ↔ service ∈ routing := by
  have hloop : ∀ (q : PPMQueue), service ∈ routing.foldl (fun q route => (emplace q route ∅).1) q
      ↔ service ∈ q ∨ service ∈ routing := by
    induction routing with
    | nil => exact fun q => ⟨Or.inl, fun h => h.resolve_right List.not_mem_nil⟩
    | cons route routing ih =>
        intro q
        rw [List.foldl_cons, ih, mem_emplace, List.mem_cons]
        tauto
  exact (hloop ∅).trans ⟨fun h => h.resolve_left (AList.notMem_empty _), Or.inr⟩

/-- `push` refuses other services, and adds none to those that there are. -/
theorem mem_push (h : q.push rpc = .ok q') : rpc.service ∈ q ∧ ∀ service, service ∈ q'
    ↔ service ∈ q := by
  unfold push at h
  cases hq : q.lookup rpc.service with
  | none =>
      rw [hq] at h
      cases h
  | some rpcs =>
      have hmem : rpc.service ∈ q := AList.lookup_isSome.mp (by rw [hq]; rfl)
      rw [hq] at h
      dsimp only at h
      split_ifs at h
      obtain rfl := Except.ok.inj h
      refine ⟨hmem, fun service => ?_⟩
      rw [AList.mem_insert]
      exact ⟨fun h' => h'.elim (fun heq => heq ▸ hmem) id, Or.inr⟩

/-- So does `pop`: it looks the service up, and leaves its line there. -/
theorem mem_pop {r : RPCMessage × PPMQueue} (h : q.pop service id = .ok r) :
    service ∈ q ∧ ∀ service', service' ∈ r.2 ↔ service' ∈ q := by
  unfold pop at h
  cases hq : q.lookup service with
  | none =>
      rw [hq] at h
      cases h
  | some rpcs =>
      have hmem : service ∈ q := AList.lookup_isSome.mp (by rw [hq]; rfl)
      rw [hq] at h
      dsimp only at h
      split_ifs at h
      cases hid : rpcs.lookup id with
      | none =>
          rw [hid] at h
          cases h
      | some rpc =>
          rw [hid] at h
          obtain rfl := Except.ok.inj h
          refine ⟨hmem, fun service' => ?_⟩
          rw [AList.mem_insert]
          exact ⟨fun h' => h'.elim (fun heq => heq ▸ hmem) fun hold => hold, Or.inr⟩

end PPMQueue

/-- A map has all of its keys if a map over the same keys finds them. -/
theorem LocalMap.Hosts.of_get {T U : Type} {keys : List Bytes} {v : T}
    {v' : U} {m : LocalMap T} {m' : LocalMap U} (h : LocalMap.ofKeys keys v = .ok m)
    (h' : LocalMap.ofKeys keys v' = .ok m') (hget : ∀ e ∈ keys, ∃ x, m'.get e = .ok x) :
    m.Hosts keys := by
  have hfound : ∀ e ∈ keys, ∃ x i, m'.lookup e = some x ∧ m'.find_ptr e = .ok (some i) := by
    intro e he
    obtain ⟨x, hx⟩ := hget e he
    obtain ⟨i, s, hi, -⟩ := lookup_eq_some.mp (get_eq_ok.mp hx)
    exact ⟨x, i, get_eq_ok.mp hx, hi⟩
  -- Without keys there are no slots; with one, a map that finds it has some.
  by_cases hnil : keys = []
  · subst hnil
    have hslots : m.slots_ = [] := by
      unfold ofKeys at h
      rw [if_pos rfl] at h
      rw [← Except.ok.inj h]
      rfl
    refine ⟨List.forall_mem_nil _, ?_⟩
    intro i s hs
    rw [hslots, List.getElem?_nil] at hs
    cases hs
  · obtain ⟨e, he⟩ := List.exists_mem_of_ne_nil _ hnil
    apply Hosts.of_ofKeys h
    · intro e he
      obtain ⟨-, i, -, hi⟩ := hfound e he
      exact length_of_find_ptr hi
    · intro hslots
      obtain ⟨x, -, hx, -⟩ := hfound e he
      rw [lookup_of_no_slots ((slots_nil_iff h h').mp hslots) e] at hx
      cases hx

/-- Only keys of the map are read: a read of another key ends the process. -/
theorem LocalMap.Hosts.mem_of_get {T : Type} {keys : List Bytes} {m : LocalMap T}
    {k : Bytes} {x : T} (h : m.Hosts keys) (hget : m.get k = .ok x) : k ∈ keys := by
  obtain ⟨i, s, hi, -⟩ := lookup_eq_some.mp (get_eq_ok.mp hget)
  exact h.mem_of_find_ptr hi

namespace ClientTables

variable {routing : List Bytes} {t t' t₀ : ClientTables} {u : Use} {service : Bytes}

theorem of_describe {means : LocalMap (TimeWeightedMean ℚ)}
    {waits rtts : LocalMap ExponentialMovingAverage} {services : List Bytes}
    (h : describe means waits rtts services = .ok ()) :
    ∀ service ∈ services, ∃ x, means.get service = .ok x := by
  induction services with
  | nil => exact List.forall_mem_nil _
  | cons service services ih =>
      unfold describe at h
      obtain ⟨x, hx, h⟩ := bind_eq_ok.mp h
      obtain ⟨-, -, h⟩ := bind_eq_ok.mp h
      obtain ⟨-, -, h⟩ := bind_eq_ok.mp h
      exact List.forall_mem_cons.mpr ⟨⟨x, hx⟩, ih h⟩

/-- The constructors give all tables the keys of the routing table, from which each of them is
built. -/
theorem create_routed (h : create routing = .ok t) : Routed routing t := by
  unfold create at h
  obtain ⟨rtts, hrtts, h⟩ := bind_eq_ok.mp h
  obtain ⟨means, hmeans, h⟩ := bind_eq_ok.mp h
  obtain ⟨waits, hwaits, h⟩ := bind_eq_ok.mp h
  obtain ⟨_, hdescribe, h⟩ := bind_eq_ok.mp h
  obtain ⟨last, hlast, h⟩ := bind_eq_ok.mp h
  obtain rfl := Except.ok.inj h
  have hget := of_describe hdescribe
  refine ⟨?_, fun service => PPMQueue.mem_create routing, .of_get hlast hmeans hget,
    .of_get hrtts hmeans hget,
    .of_get hwaits hmeans hget, .of_get hmeans hmeans hget⟩
  intro service
  rw [UpstreamRouteMapper.mem_add_routes]
  exact ⟨fun h => h.resolve_left (AList.notMem_empty _), Or.inr⟩

/-- No use of the tables adds a key, or takes one away. -/
theorem Routed.apply (h : Routed routing t) (hu : t.apply u = .ok t') : Routed routing t' := by
  -- No update changes the keys of the map it writes.
  cases u with
  | push rpc =>
      obtain ⟨q, hq, hu⟩ := bind_eq_ok.mp hu
      obtain rfl := Except.ok.inj hu
      exact { h with queue := fun service => ((PPMQueue.mem_push hq).2 service).trans
                       (h.queue service) }
  | last_rtt service =>
      obtain ⟨-, -, hu⟩ := bind_eq_ok.mp hu
      obtain rfl := Except.ok.inj hu
      exact h
  | check service =>
      obtain ⟨-, -, hu⟩ := bind_eq_ok.mp hu
      obtain rfl := Except.ok.inj hu
      exact h
  | set_rtt service rtt =>
      obtain ⟨m, hm, hu⟩ := bind_eq_ok.mp hu
      obtain ⟨a, ha, hu⟩ := bind_eq_ok.mp hu
      obtain rfl := Except.ok.inj hu
      exact { h with rtts := (h.rtts.modify hm).2.1, averages := (h.averages.modify ha).2.1 }
  | pop service id =>
      obtain ⟨r, hr, hu⟩ := bind_eq_ok.mp hu
      obtain rfl := Except.ok.inj hu
      exact { h with queue := fun service => ((PPMQueue.mem_pop hr).2 service).trans
                       (h.queue service) }
  | sent service wd now =>
      obtain ⟨a, ha, hu⟩ := bind_eq_ok.mp hu
      obtain ⟨m, hm, hu⟩ := bind_eq_ok.mp hu
      obtain rfl := Except.ok.inj hu
      exact { h with waits := (h.waits.modify ha).2.1, means := (h.means.modify hm).2.1 }
  | answered service now =>
      obtain ⟨_, _, hu⟩ := bind_eq_ok.mp hu
      obtain ⟨mean, _, hu⟩ := bind_eq_ok.mp hu
      obtain ⟨m, hm, hu⟩ := bind_eq_ok.mp hu
      obtain rfl := Except.ok.inj hu
      exact { h with means := (h.means.modify hm).2.1 }

/-- **In every run** the tables keep their keys, as no use adds or removes one. -/
theorem Reachable.routed (hcreate : create routing = .ok t₀) (h : Reachable t₀ t) :
    Routed routing t := by
  induction h with
  | start => exact create_routed hcreate
  | step _ hu ih => exact ih.apply hu

/-- A service of the routing table is accepted on the whole path. -/
theorem Routed.accepts (h : Routed routing t) (hservice : service ∈ routing)
    (hpath : OnPath service u) (hready : t.Ready u) : ∃ t', t.apply u = .ok t' := by
  -- Every map that an update reads has the routing table as its keys.
  cases u with
  | push rpc =>
      obtain rfl := hpath
      obtain ⟨q, hq, -⟩ := PPMQueue.push_spec ((h.queue _).mpr hservice) hready
      exact ⟨_, bind_eq_ok.mpr ⟨q, hq, rfl⟩⟩
  | last_rtt s =>
      obtain rfl := hpath
      exact ⟨t, bind_eq_ok.mpr ⟨_, h.rtts.get hservice 0, rfl⟩⟩
  | check s =>
      obtain rfl := hpath
      exact ⟨t, bind_eq_ok.mpr ⟨(), if_pos ((h.queue s).mpr hservice), rfl⟩⟩
  | set_rtt s rtt =>
      obtain rfl := hpath
      obtain ⟨m, hm⟩ := h.rtts.modify_exists hservice fun _ => BitVec.ofNat 32 rtt.val
      obtain ⟨a, ha⟩ := h.averages.modify_exists hservice (·.update rtt)
      exact ⟨_, bind_eq_ok.mpr ⟨m, hm, bind_eq_ok.mpr ⟨a, ha, rfl⟩⟩⟩
  | pop s id =>
      obtain rfl := hpath
      obtain ⟨rpc, hrpc⟩ := Option.isSome_iff_exists.mp hready
      obtain ⟨q, hq, -⟩ := PPMQueue.pop_spec hrpc
      exact ⟨_, bind_eq_ok.mpr ⟨_, hq, rfl⟩⟩
  | sent s wd now =>
      obtain rfl := hpath
      obtain ⟨a, ha⟩ := h.waits.modify_exists hservice (·.update wd)
      obtain ⟨m, hm⟩ := h.means.modify_exists hservice (·.up now)
      exact ⟨_, bind_eq_ok.mpr ⟨a, ha, bind_eq_ok.mpr ⟨m, hm, rfl⟩⟩⟩
  | answered s now => exact hpath.elim

/-- Any other service is refused everywhere on the path of a request. -/
theorem Routed.refuses (h : Routed routing t) (hservice : service ∉ routing)
    (hpath : OnPath service u) :
    ¬ ∃ t', t.apply u = .ok t' := by
  rintro ⟨t', hu⟩
  apply hservice
  -- Whatever the update reads first fails where the service is not a key.
  cases u with
  | push rpc =>
      obtain ⟨q, hq, -⟩ := bind_eq_ok.mp hu
      rw [← show rpc.service = service from hpath]
      exact (h.queue _).mp (PPMQueue.mem_push hq).1
  | last_rtt s =>
      obtain ⟨x, hx, -⟩ := bind_eq_ok.mp hu
      rw [← show s = service from hpath]
      exact h.rtts.mem_of_get hx
  | check s =>
      obtain ⟨_, hcheck, -⟩ := bind_eq_ok.mp hu
      rw [← show s = service from hpath]
      unfold PPMQueue.check at hcheck
      split_ifs at hcheck with hmem
      exact (h.queue s).mp hmem
  | set_rtt s rtt =>
      obtain ⟨m, hm, -⟩ := bind_eq_ok.mp hu
      rw [← show s = service from hpath]
      exact (h.rtts.modify hm).1
  | pop s id =>
      obtain ⟨r, hr, -⟩ := bind_eq_ok.mp hu
      rw [← show s = service from hpath]
      exact (h.queue s).mp (PPMQueue.mem_pop hr).1
  | sent s wd now =>
      obtain ⟨a, ha, -⟩ := bind_eq_ok.mp hu
      rw [← show s = service from hpath]
      exact (h.waits.modify ha).1
  | answered s now => exact hpath.elim

/-- What was pushed is ready to be popped, under its service and its id. -/
theorem ready_of_push {rpc : RPCMessage} (hready : t.Ready (.push rpc))
    (hu : t.apply (.push rpc) = .ok t') : t'.Ready (.pop rpc.service rpc.local_id) := by
  obtain ⟨q, hq, hu⟩ := bind_eq_ok.mp hu
  obtain rfl := Except.ok.inj hu
  obtain ⟨q', hq', -, hfind⟩ := PPMQueue.push_spec (PPMQueue.mem_push hq).1 hready
  rw [hq] at hq'
  obtain rfl := Except.ok.inj hq'
  change (q.find (rpc.service, rpc.local_id)).isSome = true
  rw [hfind, Function.update_self]
  rfl

/-- Which services are resolved to a pool: the routed ones, and with a route for `*` all of
them. -/
theorem Routed.resolves_iff (h : Routed routing t) :
    (∃ pool, t.upstream_route_mapper.get_pool service = .ok pool)
      ↔ service ∈ routing ∨ ANY_SERVICE ∈ routing := by
  rw [UpstreamRouteMapper.get_pool_iff, h.pools, h.pools]

/-- **The models of `get_pool` agree**: that of a mesh sidecar, which only knows its routing table,
and that of a worker with the same pools find a pool for the services that the tables resolve. -/
theorem Routed.get_pool_agrees {config : MeshConfig} (h : Routed config.routing t) {n : ℕ}
    (s : HttpUpstreams n)
    (hpools : ∀ service, s.pools (.service service) = t.upstream_route_mapper.lookup service) :
    (config.get_pool service = .ok () ↔ ∃ pool, t.upstream_route_mapper.get_pool service = .ok pool)
      ∧ ((∃ id, s.find_pool .EGRESS service = .ok id)
        ↔ ∃ pool, t.upstream_route_mapper.get_pool service = .ok pool) := by
  refine ⟨?_, UpstreamRouteMapper.find_pool_iff s hpools⟩
  rw [h.resolves_iff]
  unfold MeshConfig.get_pool
  split_ifs with hrouted
  · exact iff_of_true rfl hrouted
  · refine iff_of_false (fun hok => ?_) hrouted
    cases hok

/-- `*` resolves a service whose RTT is not known, so that the tables do not agree on it. -/
theorem Routed.not_agree (h : Routed routing t) (hservice : service ∉ routing)
    (hany : ANY_SERVICE ∈ routing) :
    ¬ t.Agree service := by
  rintro ⟨haccepts, -⟩
  have haccepted := haccepts (h.resolves_iff.mpr (.inr hany)) (.last_rtt service) rfl True.intro
  exact h.refuses (u := .last_rtt service) hservice rfl haccepted

/-- **The tables agree on exactly these services**: those of the routing table, and all others
if it has no `*`, which only `get_pool` knows of. An RPC that was pushed is then ready to be
popped. -/
theorem routes_agree_iff (hcreate : create routing = .ok t₀) (h : Reachable t₀ t)
    (service : Bytes) :
    (t.Agree service ↔ service ∈ routing ∨ ANY_SERVICE ∉ routing)
      ∧ ∀ rpc t', t.Ready (.push rpc) → t.apply (.push rpc) = .ok t' →
        t'.Ready (.pop rpc.service rpc.local_id) := by
  have hrouted := h.routed hcreate
  refine ⟨⟨?_, ?_⟩, fun rpc t' => ready_of_push⟩
  · intro hagree
    by_contra hnot
    obtain ⟨hservice, hany⟩ := not_or.mp hnot
    exact hrouted.not_agree hservice (not_not.mp hany) hagree
  · intro hcondition
    unfold Agree
    rw [hrouted.resolves_iff]
    refine ⟨?_, ?_⟩
    · intro hor u hpath hready
      have hservice : service ∈ routing := hcondition.elim id fun hany => hor.resolve_right hany
      exact hrouted.accepts hservice hpath hready
    · intro hnone u hpath
      exact hrouted.refuses (not_or.mp hnone).1 hpath

/-- One route, on whose service all tables agree. -/
theorem routes_agree_iff_one : ∃ t₀, create [[97]] = .ok t₀ ∧ t₀.Agree [97] := by
  have hcheck : (do
      let _ ← create [[97]]
      .ok true) = (.ok true : Except Abort Bool) := by decide +kernel
  obtain ⟨t₀, hcreate, -⟩ := bind_eq_ok.mp hcheck
  exact ⟨t₀, hcreate, (routes_agree_iff hcreate .start [97]).1.mpr (.inl List.mem_cons_self)⟩

/-- **A route for all other services** resolves `a`, but no request for it can be pushed. -/
theorem any_service_refused :
    ∃ t₀, create [ANY_SERVICE] = .ok t₀
      ∧ (∃ pool, t₀.upstream_route_mapper.get_pool [97] = .ok pool)
      ∧ (∀ rpc, rpc.service = [97] → ¬ ∃ t', t₀.apply (.push rpc) = .ok t') ∧ ¬ t₀.Agree [97] := by
  have hcheck : (do
      let _ ← create [ANY_SERVICE]
      .ok true) = (.ok true : Except Abort Bool) := by decide +kernel
  obtain ⟨t₀, hcreate, -⟩ := bind_eq_ok.mp hcheck
  have hrouted := create_routed hcreate
  have hother : ([97] : Bytes) ∉ [ANY_SERVICE] := by decide
  have hany : ANY_SERVICE ∈ [ANY_SERVICE] := List.mem_cons_self
  exact ⟨t₀, hcreate, hrouted.resolves_iff.mpr (.inr hany), fun rpc hrpc =>
    hrouted.refuses hother hrpc,
    hrouted.not_agree hother hany⟩

end ClientTables

end RlpSidecar
