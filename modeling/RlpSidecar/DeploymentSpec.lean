/-
What the sidecars of a deployment do to the datagrams.

A Credit Grant is its Credit Request over again: `echo` is what the frontend leaves as it is, and
it sends the Credit Grant to where the Credit Request came from. So the frontend has, at every
moment, for each address the Credit Requests that arrived from it, and each of them waits or has
been granted.

The frontend is a leaf, and is looked at from outside: what it has been asked, what it has granted
and to which address, and how its counters move with the two. `step_busy` is what progress rests
on: as long as the limits have room for one request, nothing waits at the frontend unless something
is active there, whose response will look at the queue again.
-/
import RlpSidecar.Averages
import RlpSidecar.Deployment
import RlpSidecar.ServerBacklog

set_option autoImplicit false

open Runs

namespace RlpSidecar

/-! ## Bytes -/

namespace Buffer

/-- What stays of a message on its way: its length, and the bytes that neither the server nor the
network changes. -/
abbrev Echo := ℕ × Bytes × Bytes × Bytes × Bytes

/-- What a Credit Grant has of its Credit Request: the length byte and the type, the credits that
are asked for, the id, the priority and the time of sending, and the service. -/
def echo (b : Buffer) : Echo :=
  (b.filled, Wire.window b.data 0 2, Wire.window b.data 3 1, Wire.window b.data 5 17,
    Wire.window b.data headerSize (b.filled - headerSize))

/-- A buffer with these places as in another has the same echo. -/
theorem echo_congr {b c : Buffer} (hfilled : c.filled = b.filled)
    (hwindow : ∀ q k, q + k ≤ max headerSize b.filled → (q + k ≤ 2 ∨ 3 ≤ q) →
      (q + k ≤ 4 ∨ 5 ≤ q) → (q + k ≤ 22 ∨ 26 ≤ q) →
      Wire.window c.data q k = Wire.window b.data q k) : c.echo = b.echo := by
  have h26 : headerSize = 26 := rfl
  unfold echo
  rw [hfilled, hwindow 0 2 (by omega) (by omega) (by omega) (by omega),
    hwindow 3 1 (by omega) (by omega) (by omega) (by omega),
    hwindow 5 17 (by omega) (by omega) (by omega) (by omega),
    hwindow headerSize _ (by omega) (by omega) (by omega) (by omega)]

/-- What arrives is what was sent, up to the places that are not part of the echo. -/
theorem echo_receive (rx b : Buffer) (peer : SockAddr) (h : headerSize ≤ b.filled) :
    (rx.receive b peer).echo = b.echo :=
  echo_congr rfl fun q k hq _ _ _ => window_copy_n rx b (by omega)

theorem echo_stamp (b : Buffer) (now_ts : BitVec 64) :
    (stamp_queuing_time b now_ts).echo = b.echo := by
  have hlen : (Wire.encode ((now_ts - b.enter_queue_ts).setWidth 32) 4).length = 4 :=
    Wire.length_encode _ 4
  exact echo_congr rfl fun q k _ _ _ hstamp => window_put_ne b _ (by omega)

/-- The Credit Grant that is built from a Credit Request has its echo, and goes to its sender. -/
theorem echo_response {req fresh resp : Buffer} (hfilled : headerSize ≤ req.filled)
    (h : write_failed_dn_response req fresh = .ok resp) :
    resp.echo = req.echo ∧ resp.addr = req.addr := by
  obtain ⟨grant, hgrant, h⟩ := bind_eq_ok.mp h
  obtain rfl := Except.ok.inj h
  refine ⟨?_, rfl⟩
  unfold write_credit_grant at hgrant
  dsimp only at hgrant
  split_ifs at hgrant
  obtain ⟨hdata, hsame, -⟩ := set_filled_eq_ok hgrant
  refine echo_congr (b := req) hsame fun q k hq htype hcredits _ => ?_
  show Wire.window grant.data q k = _
  rw [hdata, window_patch _ _ _ _ hcredits, window_patch _ _ _ _ htype]
  exact window_copy_n fresh req (by omega)

/-- A dispatched datagram has a header, and its length byte covers no more than has arrived. -/
theorem filled_of_dispatch {b : Buffer} {handler : Handler}
    (h : dispatch_rlp_recv b = .ok handler) :
    headerSize ≤ (b.byte 0).toNat ∧ (b.byte 0).toNat ≤ b.filled := by
  unfold dispatch_rlp_recv at h
  split_ifs at h <;> omega

/-- The bytes 0 and 1 are among those that stay, so the kind of a message does too. -/
theorem byte_of_echo {b c : Buffer} (h : b.echo = c.echo) {i : ℕ} (hi : i < 2) :
    b.byte i = c.byte i := by
  have hwindow : Wire.window b.data 0 2 = Wire.window c.data 0 2 := congrArg (fun x => x.2.1) h
  have hget := congrArg (fun l => l[i]?) hwindow
  rw [Wire.getElem?_window, Wire.getElem?_window, if_pos hi, if_pos hi, Nat.zero_add] at hget
  unfold byte
  rw [List.getD_eq_getElem?_getD, List.getD_eq_getElem?_getD, hget]

/-- A `char` that is read as a length of at most 256 is not negative. -/
theorem charToSize_toNat {x : UInt8} (h : charToSize x ≤ udpBufferLength) :
    charToSize x = x.toNat := by
  have hlt : x.toNat < 256 := x.toNat_lt
  have hof : x = UInt8.ofNat x.toNat := by simp
  have hsize : charToSize x ≤ 256 := h
  rw [hof, charToSize_ofNat hlt] at hsize
  split_ifs at hsize with h128
  · conv_lhs => rw [hof, charToSize_ofNat hlt, if_pos h128]
  · omega

/-- The service is read out of what stays, once the length byte is one of what has arrived. -/
theorem extract_of_echo {b c : Buffer} (h : b.echo = c.echo) (hlen : (c.byte 0).toNat ≤ c.filled) :
    extract_service_from_rlp_req b = extract_service_from_rlp_req c := by
  have hzero := byte_of_echo h (show 0 < 2 by omega)
  refine extract_congr hzero (byte_of_echo h (by omega)) fun hsize => ?_
  have hfilled : b.filled = c.filled := congrArg Prod.fst h
  have hwindow : Wire.window b.data headerSize (b.filled - headerSize)
      = Wire.window c.data headerSize (c.filled - headerSize) :=
    congrArg (fun x => x.2.2.2.2) h
  -- it is the first part of what has arrived behind the header
  have htake : ∀ d : Buffer, (c.byte 0).toNat ≤ d.filled →
      Wire.window d.data headerSize ((c.byte 0).toNat - headerSize)
      = (Wire.window d.data headerSize (d.filled - headerSize)).take
        ((c.byte 0).toNat - headerSize) := by
    intro d hd
    unfold Wire.window
    rw [List.take_take, Nat.min_eq_left (by omega)]
  rw [charToSize_toNat hsize, htake b (hfilled ▸ hlen), htake c hlen, hwindow]

/-- What stays of the messages of an address, with their number. -/
def echoes (a : SockAddr) (m : Multiset Buffer) : Multiset Echo :=
  (m.filter fun b => b.addr = a).map echo

theorem echoes_add (a : SockAddr) (m m' : Multiset Buffer) :
    echoes a (m + m') = echoes a m + echoes a m' := by
  unfold echoes
  rw [Multiset.filter_add, Multiset.map_add]

theorem echoes_singleton (a : SockAddr) (b : Buffer) :
    echoes a {b} = if b.addr = a then {b.echo} else 0 := by
  unfold echoes
  rw [Multiset.filter_singleton]
  split_ifs <;> rfl

/-- Messages that are all from one address, for it or for another one. -/
theorem echoes_from (a a' : SockAddr) (l : List Buffer) :
    echoes a' ((l.map fun b => { b with addr := a } : List Buffer) : Multiset Buffer)
      = if a = a' then ((l.map echo : List Echo) : Multiset Echo) else 0 := by
  unfold echoes
  rw [Multiset.filter_coe, Multiset.map_coe, List.filter_map]
  show ((((l.filter fun _ => decide (a = a')).map fun b => { b with addr := a }).map
    echo : List Echo) : Multiset Echo) = _
  split_ifs with ha
  · rw [List.filter_eq_self.mpr fun b _ => decide_eq_true ha, List.map_map]
    rfl
  · rw [List.filter_eq_nil_iff.mpr fun b _ => by rw [decide_eq_true_eq]; exact ha]
    rfl

/-- One message for another with the same echo and the same address. -/
theorem echoes_congr {b c : Buffer} (hecho : b.echo = c.echo) (haddr : b.addr = c.addr)
    (a : SockAddr) :
    echoes a {b} = echoes a {c} := by
  rw [echoes_singleton, echoes_singleton, hecho, haddr]

end Buffer

/-! ## The frontend -/

/-- What is configured leaves room for one request, and the share that is committed besides is not
negative. -/
structure ServerConfig.Roomy (config : ServerConfig) : Prop where
  cpu_count : 1 ≤ config.limits.cpu_count
  extra_limit : 1 ≤ config.limits.cpu_count * 2 + config.limits.extra_limit
  over_commit : ∀ m, 0 ≤ m → 0 ≤ config.limits.over_commit m

namespace Server

open Buffer

variable {config : ServerConfig}

/-- The messages of the Credit Requests that have arrived: they wait, or their Credit Grants were
sent. -/
def carried (config : ServerConfig) (s : Server) : Multiset Buffer :=
  s.room.bag config.hosted.toFinset + (s.sent : Multiset Buffer)

/-- Nothing waits at the start of a server. -/
theorem bag_of_fresh {s : Server}
    (h : CreditQueue.Fresh config.limits config.hosted s.credit_queue) :
    s.room.bag config.hosted.toFinset = 0 :=
  Finset.sum_eq_zero fun p _ => Finset.sum_eq_zero fun e _ =>
    congrArg Multiset.ofList (h.waiting p e)

/-- Only the lines of a room are counted, not its limits or what is active. -/
theorem bag_congr {r r' : Admission.Room (Fin PriorityCount) Bytes Buffer}
    (h : r'.waiting = r.waiting) (hosted : Finset Bytes) :
    r'.bag hosted = r.bag hosted := by
  unfold Admission.Room.bag
  rw [h]

/-- A Credit Grant is sent for one that waits, so a look at the queue moves a message and loses
none. -/
theorem Checked.echoes_eq {s s' : Server} {now_ts : BitVec 64} (h : Checked config now_ts s s')
    (a : SockAddr) :
    echoes a (s'.carried config) = echoes a (s.carried config) := by
  unfold carried
  cases h with
  | nothing hroom hsent _ => rw [hroom, hsent]
  | granted p e b he _ hline hroom hsent =>
      obtain ⟨rest, hline⟩ := hline
      have hsame : echoes a {stamp_queuing_time b now_ts} = echoes a {b} :=
        echoes_congr (echo_stamp b now_ts) rfl a
      rw [hroom, hsent, Admission.Room.bag_grant (List.mem_toFinset.mpr he) hline,
        ← Multiset.coe_add,
        Multiset.coe_singleton, echoes_add, echoes_add, echoes_add, echoes_add,
        hsame, add_assoc, add_comm (echoes a {b})]

/-- Nothing arrives with a response, which only frees a unit. -/
theorem release_echoes {s s' : Server} (h : s.Wf config) {service : Bytes} {now_ts : BitVec 64}
    (hs : s.release service now_ts = .ok s') (a : SockAddr) :
    echoes a (s'.carried config) = echoes a (s.carried config) := by
  obtain ⟨-, -, mid, -, hsent, hroom, hchecked⟩ := release_spec h hs
  rw [hchecked.echoes_eq a]
  unfold carried
  rw [hsent, hroom]
  rfl

/-- A buffer joins the line of the service it names, so every line has its own. -/
theorem Named.enqueue {r : Admission.Room (Fin PriorityCount) Bytes Buffer}
    (h : Named r) (p : Fin PriorityCount) {e : Bytes} {b : Buffer}
    (hb : extract_service_from_rlp_req b = .ok e) : Named (r.enqueue p e b) := by
  intro p' e' b' hmem
  unfold Admission.Room.enqueue at hmem
  dsimp only at hmem
  split_ifs at hmem with hline
  · rcases List.mem_append.mp hmem with hold | hnew
    · exact h p' e' b' hold
    · rw [List.mem_singleton.mp hnew, hline.2]
      exact hb
  · exact h p' e' b' hmem

/-- A Credit Request is not read as a Credit Return, which would free a unit that nobody has. -/
theorem read_server_message_ne_return {req : Buffer} (hkind : req.byte 1 = 0x01) (service : Bytes) :
    read_server_message req ≠ .ok (.credit_return service) := by
  intro hread
  unfold read_server_message at hread
  rw [if_pos hkind] at hread
  split_ifs at hread
  obtain ⟨_, -, hread⟩ := bind_eq_ok.mp hread
  dsimp only at hread
  split_ifs at hread
  cases hread

/-- A Credit Request joins those that wait, and nothing else changes of what the server has or has
sent. -/
theorem protocol_server_echoes {s s' : Server} (h : s.Wf config) {req : Buffer} {env : Env}
    (hdispatch : dispatch_rlp_recv req = .ok .protocol_server) (hkind : req.byte 1 = 0x01)
    (hs : s.protocol_server config env req = .ok s') (a : SockAddr) :
    echoes a (s'.carried config) = echoes a (s.carried config) + echoes a {req} := by
  obtain ⟨hlen, hfilled⟩ := filled_of_dispatch hdispatch
  unfold protocol_server at hs
  obtain ⟨m, hread, hs⟩ := bind_eq_ok.mp hs
  have hservice := extract_of_read hread
  cases m with
  | credit_return service => exact absurd hread (read_server_message_ne_return hkind service)
  | credit_request service id priority rtt =>
      obtain ⟨s₁, hs₁, hs⟩ := bind_eq_ok.mp hs
      obtain ⟨resp, hresp, hs⟩ := bind_eq_ok.mp hs
      obtain ⟨q, hq, hs⟩ := bind_eq_ok.mp hs
      obtain ⟨hwf₁, hsent₁, hroom₁⟩ := update_limits_spec h hs₁
      obtain ⟨p, -, he, hwf, hview, -⟩ := CreditQueue.push_spec hwf₁.queue hq
      obtain ⟨hecho, haddr⟩ := echo_response (hlen.trans hfilled) hresp
      -- what joins the line is the Credit Grant that is to be sent, and not the Credit Request
      let entered : Buffer := { resp with enter_queue_ts := env.enter_ts }
      have hview' : ({ s₁ with credit_queue := q } : Server).room
          = s₁.room.enqueue p service entered := hview
      have hmid : ({ s₁ with credit_queue := q } : Server).Wf config := by
        have hnamed := extract_of_response hdispatch hservice hresp
        refine ⟨hwf, ?_⟩
        rw [hview']
        exact hwf₁.named.enqueue p hnamed
      -- the sample before it sets limits only
      have hbag : s₁.room.bag config.hosted.toFinset = s.room.bag config.hosted.toFinset := by
        rw [hroom₁]
        exact bag_congr (sampleRoom_waiting config env.ratio service s).1 _
      have hsame : echoes a {entered} = echoes a {req} := echoes_congr (b := entered) hecho haddr a
      rw [(check_spec hmid hs).2.2.echoes_eq a]
      unfold carried
      rw [hview', Admission.Room.bag_enqueue _ p (List.mem_toFinset.mpr he),
        hbag, hsent₁, echoes_add, echoes_add, echoes_add,
        hsame, add_right_comm]

/-! ### Limits -/

/-- There is room for one request: every limit is at least one. Without it a service could wait
forever. -/
structure Open (config : ServerConfig) (r : Admission.Room (Fin PriorityCount) Bytes Buffer) :
    Prop where
  cap : ∀ e ∈ config.hosted, 1 ≤ r.cap e
  totalCap : 1 ≤ r.totalCap

theorem newEndpointLimit_pos (hroomy : config.Roomy) (info : MappingInfo) (ratio : ℤ) :
    1 ≤ newEndpointLimit config info ratio := by
  have hcpu := hroomy.cpu_count
  have hextra := hroomy.extra_limit
  have hshare : config.limits.cpu_count * 2 ≤ (max ratio 1 + 1) * config.limits.cpu_count := by
    have hratio : 1 ≤ max ratio 1 := le_max_right _ _
    nlinarith
  have hdownstreams : (0 : ℤ) ≤ if info.dfanout then 0 else (info.downstreams.length : ℤ) := by
    split_ifs
    · exact le_rfl
    · exact Int.natCast_nonneg _
  unfold newEndpointLimit
  linarith

/-- The largest of the limits is one of them, and the others are not negative. -/
theorem combineLimits_pos (hroomy : config.Roomy) {limits : List ℤ} (hne : limits ≠ [])
    (h : ∀ limit ∈ limits, 1 ≤ limit) :
    1 ≤ combineLimits config limits := by
  have hmem : ∀ limit ∈ limits, limit ≤ limits.foldl max 0 := fun limit hlimit =>
    not_lt.mp fun hlt => lt_irrefl _ ((Averages.foldl_max_lt_iff.mp hlt).2 limit hlimit)
  have hmax : limits.foldl max 0 ≤ limits.sum := by
    refine Int.lt_add_one_iff.mp (Averages.foldl_max_lt_iff.mpr ⟨?_, fun limit hlimit => ?_⟩)
    · exact Int.lt_add_one_iff.mpr (List.sum_nonneg fun limit hlimit =>
        zero_le_one.trans (h limit hlimit))
    · exact Int.lt_add_one_iff.mpr
        (List.single_le_sum (fun limit hlimit => zero_le_one.trans (h limit hlimit)) limit hlimit)
  obtain ⟨limit, hlimit⟩ := List.exists_mem_of_ne_nil limits hne
  have hone := (h limit hlimit).trans (hmem limit hlimit)
  have hshare := hroomy.over_commit _ (sub_nonneg.mpr hmax)
  unfold combineLimits
  rw [← List.sum_eq_foldl]
  dsimp only
  omega

/-- A new process has room for one request, by its initial limits. -/
theorem start_open (hroomy : config.Roomy) {s : Server} (hne : config.mapping ≠ [])
    (h : CreditQueue.Fresh config.limits config.hosted s.credit_queue) : Open config s.room := by
  have hextra := hroomy.extra_limit
  refine ⟨fun e he => hextra.trans (h.cap e he).ge, le_of_le_of_eq ?_ h.totalCap.symm⟩
  have hcount : (1 : ℤ) ≤ config.hosted.length := by
    unfold ServerConfig.hosted
    rw [List.length_map]
    exact_mod_cast List.length_pos_iff.mpr hne
  have hshare :=
    hroomy.over_commit ((config.limits.cpu_count * 2 + config.limits.extra_limit)
      * config.hosted.length
    - (config.limits.cpu_count * 2 + config.limits.extra_limit)) (by nlinarith)
  unfold CreditQueue.initialGlobalLimit
  dsimp only
  split_ifs
  · linarith
  · norm_num

/-- A sample sets limits that leave room for one request, whatever was measured. -/
theorem sampleRoom_open (hroomy : config.Roomy) {s : Server} (h : Open config s.room)
    {service : Bytes} (he : service ∈ config.hosted) (ratio : ℤ) :
    Open config (sampleRoom config ratio service s) := by
  unfold sampleRoom
  split
  · rename_i count info _ _
    -- the new limit is at least one, and the others are as they were
    have hcap : ∀ e ∈ config.hosted, 1
        ≤ (s.room.setCap service (newEndpointLimit config info ratio)).cap e := by
      intro e he
      unfold Admission.Room.setCap
      dsimp only
      split_ifs
      · exact newEndpointLimit_pos hroomy info ratio
      · exact h.cap e he
    dsimp only
    split_ifs
    · refine ⟨hcap,
        combineLimits_pos hroomy (List.map_eq_nil_iff.not.mpr (List.ne_nil_of_mem he)) ?_⟩
      intro limit hlimit
      obtain ⟨e, he, rfl⟩ := List.mem_map.mp hlimit
      exact hcap e he
    · exact ⟨hcap, h.totalCap⟩
    · exact h
  · exact h

/-- What is left waiting after a look for a credit to grant waits behind a request that is
active. -/
def Busy (config : ServerConfig) (r : Admission.Room (Fin PriorityCount) Bytes Buffer) : Prop :=
  r.bag config.hosted.toFinset ≠ 0 → 1 ≤ r.total

theorem Checked.busy {s s' : Server} {now_ts : BitVec 64} (hs : s.Wf config)
    (h : Checked config now_ts s s') (hopen : Open config s.room)
    (hactive : ∀ e, 0 ≤ s.room.active e) : Busy config s'.room := by
  have htotal : s.room.total = ∑ e ∈ config.hosted.toFinset, s.room.active e := hs.queue.balanced
  have hle : ∀ e ∈ config.hosted, s.room.active e ≤ s.room.total := by
    intro e he
    rw [htotal]
    exact Finset.single_le_sum (fun e _ => hactive e) (List.mem_toFinset.mpr he)
  intro hbag
  cases h with
  | nothing hroom _ hnone =>
      rw [hroom] at hbag ⊢
      -- some line is not empty, and it is at a limit
      obtain ⟨p, -, hp⟩ := Finset.exists_ne_zero_of_sum_ne_zero hbag
      obtain ⟨e, he, hline⟩ := Finset.exists_ne_zero_of_sum_ne_zero hp
      have hhosted := List.mem_toFinset.mp he
      have hcap := hopen.cap e hhosted
      have htotalCap := hopen.totalCap
      by_contra hlt
      refine hnone p e hhosted ⟨fun hnil => hline (by rw [hnil]; rfl), ?_, by omega⟩
      exact lt_of_le_of_lt (hle e hhosted) (by omega)
  | granted p e b he _ _ hroom _ =>
      -- what was granted is active itself
      have hone := (hactive e).trans (hle e he)
      rw [hroom]
      unfold Admission.Room.grant Admission.Room.acquire
      dsimp only
      omega

/-- **One event** of a leaf leaves room for one request, and nothing waiting without one that is
active. -/
theorem step_busy {s s' : Server} {ev : Event} (hroomy : config.Roomy)
    (h : s.Wf config) (hs : Step config s ev s') (hhandler : ev.handler = true)
    (hleaf : ev.egress = false) (hopen : Open config s.room)
    (hactive : ∀ e, (if ev.frees e then 1 else 0) ≤ s.room.active e) :
    Open config s'.room ∧ Busy config s'.room := by
  obtain ⟨-, mid, hmid, -, heffect, hend⟩ := step_spec h hs
  have hnonneg : ∀ e, 0 ≤ mid.room.active e := by
    intro e
    rw [heffect.active_eq hleaf e]
    exact sub_nonneg.mpr (hactive e)
  have hmidOpen : Open config mid.room := by
    generalize mid.room = r at heffect
    cases heffect with
    | request req env service id priority rtt p resp hread hp he =>
        have hsample := sampleRoom_open hroomy hopen he env.ratio
        exact ⟨hsample.cap, hsample.totalCap⟩
    | credit_return | ingress_response => exact ⟨hopen.cap, hopen.totalCap⟩
    | egress_request | egress_response => simp [Event.egress] at hleaf
    | endpoint_limit | global_limit => simp [Event.handler] at hhandler
  cases hcheck : ev.check? with
  | none => cases ev <;> simp [Event.check?, Event.handler, Event.egress] at hcheck hhandler hleaf
  | some now_ts =>
      -- the handlers of a leaf end with a look for a credit to grant
      rw [hcheck] at hend
      refine ⟨?_, hend.busy hmid hmidOpen hnonneg⟩
      cases hend with
      | nothing hroom => rw [hroom]; exact hmidOpen
      | granted p e b _ _ _ hroom => rw [hroom]; exact ⟨hmidOpen.cap, hmidOpen.totalCap⟩

/-- Nothing is active for a service that is not hosted, since no event can name it. -/
theorem active_of_not_hosted {s : Server} (h : s.Wf config) {e : Bytes}
    (he : e ∉ config.hosted) : s.room.active e = 0 := by
  show (s.credit_queue.counters.in_flight_per_endpoint.lookup e).getD 0 = 0
  cases hv : s.credit_queue.counters.in_flight_per_endpoint.lookup e with
  | none => rfl
  | some v =>
      obtain ⟨i, _, hi, _⟩ := LocalMap.lookup_eq_some.mp hv
      exact absurd (h.queue.counters.counts.mem_of_find_ptr hi) he

/-- What was sent stays sent: the record only grows. -/
theorem sent_grows {s s' : Server} {ev : Event} (h : s.Wf config) (hs : Step config s ev s') :
    s.sent <+: s'.sent := by
  obtain ⟨-, mid, -, hsent, -, hend⟩ := step_spec h hs
  rw [← hsent]
  cases hcheck : ev.check? with
  | none =>
      rw [hcheck] at hend
      rw [hend.2]
  | some now_ts =>
      rw [hcheck] at hend
      cases hend with
      | nothing _ hsame => rw [hsame]
      | granted p e b _ _ _ _ hmore =>
          rw [hmore]
          exact List.prefix_append _ _

end Server

/-! ## A worker -/

namespace IngressWorker

variable {n : ℕ} {parser : HttpParser} {config : UpstreamConfig} {w w' : IngressWorker n}

/-- Responses that go back leave the Credit Requests alone. -/
theorem forward_on_fly {queue : List (ℤ × ℤ)} (h : w.forward config queue = .ok w') :
    w'.on_fly = w.on_fly := by
  induction queue generalizing w with
  | nil => rw [Except.ok.inj h]
  | cons src rest ih =>
      unfold forward at h
      dsimp only at h
      split_ifs at h
      · rw [← Except.ok.inj h]
      · obtain ⟨w₁, hone, hrest⟩ := bind_eq_ok.mp h
        rw [ih hrest]
        unfold forward_response at hone
        obtain ⟨rpc, -, hone⟩ := bind_eq_ok.mp hone
        dsimp only at hone
        split at hone
        · cases hone
        split_ifs at hone
        obtain ⟨conn, -, hone⟩ := bind_eq_ok.mp hone
        obtain ⟨⟨text, conn, calls⟩, -, hone⟩ := bind_eq_ok.mp hone
        rw [← Except.ok.inj hone]
        rfl

theorem Requested.on_fly_grows (h : Requested w w') : w.on_fly <+: w'.on_fly := by
  rcases h.sent with ⟨-, hfly, -⟩ | ⟨-, -, _, _, req, -, hfly, -⟩
  · rw [hfly]
  · rw [hfly]
    exact List.prefix_append _ _

/-- Without a Credit Grant, Credit Requests are only added. -/
theorem Step.on_fly_grows {ev : Event} (h : Step parser config w ev w')
    (hother : ∀ req buf sent, ev ≠ .grant req buf sent) :
    w.on_fly <+: w'.on_fly := by
  cases h with
  | accept | set_status | close => exact List.prefix_refl _
  | cancel hok =>
      unfold handle_cancel at hok
      split_ifs at hok
      rw [← Except.ok.inj hok]
  | request _ hok =>
      unfold handle_request at hok
      split at hok
      · cases hok
      obtain ⟨x, -, hok⟩ := bind_eq_ok.mp hok
      cases x with
      | thrown conn s => rw [← Except.ok.inj hok]; exact List.prefix_refl _
      | returned conn s => exact (ingress_pre_credit_spec hok).on_fly_grows
  | response hok =>
      unfold handle_response at hok
      obtain ⟨s, -, hok⟩ := bind_eq_ok.mp hok
      obtain ⟨w₁, hforward, hok⟩ := bind_eq_ok.mp hok
      have hfly := forward_on_fly hforward
      -- neither the read nor the responses that go back touch them
      rw [show w.on_fly = w₁.on_fly from hfly.symm]
      exact (ingress_pre_credit_spec hok).on_fly_grows
  | grant => exact absurd rfl (hother _ _ _)

/-- A Credit Grant that is taken names the service of the worker. -/
theorem Step.grant_service {req buf : Buffer} {sent : StreamKey × Bytes}
    (h : Step parser config w (.grant req buf sent) w') :
    dispatch_rlp_recv buf = .ok .credit_grant ∧ extract_service_from_rlp_req buf
      = .ok w.ingress.ingress_service := by
  cases h with
  | grant _ hdispatch hok =>
      refine ⟨hdispatch, ?_⟩
      unfold ingress_post_credit at hok
      obtain ⟨⟨num_credits, w₁⟩, hpost, -⟩ := bind_eq_ok.mp hok
      obtain ⟨m, rtt, hread, -, -, -, hsame, -, -⟩ := credit_post_process_eq_ok.mp hpost
      unfold read_credit_grant at hread
      obtain ⟨service, hservice, hread⟩ := bind_eq_ok.mp hread
      obtain rfl := Except.ok.inj hread
      rw [hservice, ← hsame]

end IngressWorker

end RlpSidecar
