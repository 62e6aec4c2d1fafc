/-
What a priority means on the way from one sidecar to the next.

It starts as a number of the configuration, goes through header text into an `int32_t`, leaves in
one signed byte of a Credit Request, and ends as an index of the three queue levels of another
process. The number is checked once, by the constructor of `Ingress`, against 0 and 3. A header may
hold any number that `stoll` reads. What is queued at its own level is exactly the numbers below
`PriorityCount`.

`Admitted` has the two ways in which a message gets its priority, and `QueuedAtLevel` says where
the Credit Request that is written for it ends. `priority_kept` is the result, for every number
that is let in: it arrives at its own level exactly if there is such a level, so not for the `3`
that the constructor accepts.
-/
import RlpSidecar.DatagramRoundTrip
import RlpSidecar.CreditQueueRuns
import RlpSidecar.Ingress
import RlpSidecar.RpcMapper

set_option autoImplicit false

namespace RlpSidecar

/-! ## Where a priority comes from -/

/-- The program gives the priority `z` to an RPC, whose message then has the base part `rpc`. -/
inductive Admitted (z : ℤ) : RPCMessage → Prop
  /-- By the configuration of an ingress worker. -/
  | configured {n : ℕ} {routing : Option RoutingEntry} {priority : Priority} {index_arg : ℤ}
      {ingress_service : Bytes} {ingress : Ingress n} {config : IdConfig}
      {counter counter' : RPCID} {m m' : HTTPMessage}
      (hcreate : Ingress.create true routing priority index_arg ingress_service = .ok ingress)
      (hadd : ingress.add_priority_header config counter m = .ok (m', counter'))
      (hz : ingress.priority.toInt = z) : Admitted z m'.ids.rpc
  /-- By a header that arrives from the mesh. -/
  | header {config : IdConfig} {counter counter' : RPCID} {name value : Bytes} {m m' : Message}
      (hname : PRIORITY <+: name)
      (hadd : m.add_header_field config counter name value true false = .ok (m', counter'))
      (hz : stoll value = .ok z) : Admitted z m'.rpc

theorem HTTPMessage.add_priority {config : IdConfig} {counter counter' : RPCID} {name value : Bytes}
    {m m' : HTTPMessage} {z : ℤ} (hname : PRIORITY <+: name) (hz : stoll value = .ok z)
    (hadd : m.add_header_field config counter name value true false = .ok (m', counter')) :
    m'.ids.rpc.priority = BitVec.ofInt 32 z := by
  rw [add_request_header, read_priority _ _ _ _ hname, hz, ok_bind, ok_bind] at hadd
  dsimp only at hadd
  rw [if_neg Bool.false_ne_true] at hadd
  obtain ⟨headers, _, hadd⟩ := bind_eq_ok.mp hadd
  obtain ⟨rfl, rfl⟩ := Prod.mk.inj (Except.ok.inj hadd)
  rfl

theorem gRPCMessage.add_priority {config : IdConfig} {counter counter' : RPCID} {name value : Bytes}
    {m m' : gRPCMessage} {z : ℤ} (hname : PRIORITY <+: name) (hz : stoll value = .ok z)
    (hadd : m.add_header_field config counter name value true false = .ok (m', counter')) :
    m'.ids.rpc.priority = BitVec.ofInt 32 z := by
  have hpath : cstring name ≠ PATH := cstring_ne_path hname (by decide) (by decide)
  rw [add_request_header _ _ _ hpath, read_priority _ _ _ _ hname, hz, ok_bind, ok_bind] at hadd
  dsimp only at hadd
  rw [if_neg Bool.false_ne_true] at hadd
  obtain ⟨headers, _, hadd⟩ := bind_eq_ok.mp hadd
  obtain ⟨rfl, rfl⟩ := Prod.mk.inj (Except.ok.inj hadd)
  rfl

/-- **Whatever its source**, the message holds the priority as an `int32_t`, which may not be the
number that was given. -/
theorem Admitted.priority_eq {z : ℤ} {rpc : RPCMessage} (h : Admitted z rpc) :
    rpc.priority = BitVec.ofInt 32 z := by
  cases h with
  | @configured n _ _ _ _ ingress _ _ _ _ _ hcreate hadd hz =>
      have hlow := BitVec.le_toInt ingress.priority
      have hhigh := BitVec.toInt_lt (x := ingress.priority)
      have hread := Ingress.stoll_header_value (z := ingress.priority.toInt) (by omega) (by omega)
      rw [hz] at hread
      unfold Ingress.add_priority_header at hadd
      rw [hz] at hadd
      exact HTTPMessage.add_priority (List.prefix_append _ _) hread hadd
  | @header _ _ _ _ _ m m' hname hadd hz =>
      cases m with
      | grpc m =>
          obtain ⟨⟨m₁, _⟩, hclass, heq⟩ := bind_eq_ok.mp hadd
          obtain ⟨rfl, rfl⟩ := Prod.mk.inj (Except.ok.inj heq)
          exact gRPCMessage.add_priority hname hz hclass
      | http m =>
          obtain ⟨⟨m₁, _⟩, hclass, heq⟩ := bind_eq_ok.mp hadd
          obtain ⟨rfl, rfl⟩ := Prod.mk.inj (Except.ok.inj heq)
          exact HTTPMessage.add_priority hname hz hclass

/-! ## Where it goes -/

/-- **A priority is kept**: every Credit Request that carries `p` and is read by a server is read
with the priority `z`, and its answer is queued there, at the level `z`. -/
def QueuedAtLevel (z : ℤ) (p : Priority) : Prop :=
  ∀ (buffer rx req : Buffer) (peer : SockAddr) (service : Bytes) (id : RPCID) (now_us : BitVec 64)
    (last_rtt : BitVec 32),
    write_credit_request buffer service 1 id p now_us last_rtt = .ok req →
    ∀ (service' : Bytes) (id' : RPCID) (q : Priority) (rtt : BitVec 32),
      read_server_message (rx.receive req peer) = .ok (.credit_request service' id' q rtt) →
      q.toInt = z ∧ ∃ level : Fin PriorityCount, (level.val : ℤ) = z
        ∧ ∀ (es : List Bytes) (queue : CreditQueue Buffer), queue.Wf es → service' ∈ es →
          ∀ resp, ∃ queue', queue.push resp service' q = .ok queue'
            ∧ queue'.view = queue.view.enqueue level service' resp

/-- The priority that a server reads is the lowest byte, with its sign. -/
theorem read_request_priority {b : Buffer} {f : Fields} (hb : b.Holds f) {service : Bytes}
    {id : RPCID} {q : Priority} {rtt : BitVec 32}
    (h : read_server_message b = .ok (.credit_request service id q rtt)) :
    q = f.priority.toBitVec.signExtend 32 := by
  unfold read_server_message at h
  split_ifs at h
  · obtain ⟨service', _, h⟩ := bind_eq_ok.mp h
    dsimp only at h
    split_ifs at h
    obtain ⟨_, _, rfl, _⟩ := ServerMessage.credit_request.inj (Except.ok.inj h)
    rw [Buffer.byte_eq hb.priority]
  · obtain ⟨_, _, h⟩ := bind_eq_ok.mp h
    cases h

/-- An index below the number of levels names one, and the request joins its line there. -/
theorem push_at_level {level : Fin PriorityCount} {q : Priority} (hq : q.toInt = level.val)
    {es : List Bytes} {queue : CreditQueue Buffer} (hwf : queue.Wf es) {service : Bytes}
    (hservice : service ∈ es) (resp : Buffer) :
    ∃ queue', queue.push resp service q = .ok queue'
      ∧ queue'.view = queue.view.enqueue level service resp := by
  have hlevel := level.isLt
  have hsize : q.toSize = level.val := by
    have hwide : (q.signExtend 64).toInt = q.toInt := BitVec.toInt_signExtend_of_le (by decide)
    have hcond := BitVec.toInt_eq_toNat_cond (q.signExtend 64)
    unfold Priority.toSize
    split_ifs at hcond <;> omega
  obtain ⟨r, queue', happly⟩ := CreditQueue.apply_total hwf
    (show (CreditQueue.Op.push resp service q).Valid es
      from ⟨hservice, by rw [hsize]; exact hlevel⟩)
  obtain ⟨queue₁, hpush, heq⟩ := bind_eq_ok.mp happly
  obtain ⟨p, hp, _, _, hview, _⟩ := CreditQueue.push_spec hwf hpush
  obtain rfl : p = level := Fin.ext (hp.symm.trans hsize)
  exact ⟨queue₁, hpush, hview⟩

/-- A priority that is kept has a level: a request without a name is read by any server. -/
theorem level_of_kept {z : ℤ} {p : Priority} (h : QueuedAtLevel z p) :
    0 ≤ z ∧ z < PriorityCount := by
  obtain ⟨req, hreq⟩ := Buffer.write_credit_request_ok .blank 1 7 p 0 0
    (show headerSize + ([] : Bytes).length < udpBufferLength by decide)
  have hholds := (Buffer.write_credit_request_spec hreq).receive .blank ⟨0, 0⟩
  have hread := read_request_spec hholds rfl rfl rfl
    (show 0 ≤ (0 : BitVec 32).toInt by decide) (Nat.zero_le _)
  obtain ⟨_, level, hlevel, _⟩ := h _ _ _ _ _ _ _ _ hreq _ _ _ _ hread
  have hlt := level.isLt
  omega

/-- A priority that the constructor of `Ingress` accepts gets into a request without headers. -/
theorem admitted_configured {z : ℤ} (h : 0 ≤ z ∧ z ≤ 3) : ∃ rpc, Admitted z rpc := by
  have hint : (BitVec.ofInt 32 z).toInt = z := by
    rw [BitVec.toInt_ofInt]
    exact Int.bmod_eq_of_le (by omega) (by omega)
  let ingress : Ingress 0 := { Ingress.init 0 0 [] with priority := BitVec.ofInt 32 z }
  -- The configuration is accepted, and the header with its number is stored in a new message.
  have hcreate : Ingress.create true (some ⟨some 1, some (BitVec.ofInt 32 z)⟩) 0 0 []
      = .ok ingress := by
    unfold Ingress.create
    dsimp only
    rw [if_pos rfl, if_neg (by decide), if_neg (by rw [hint]; omega)]
  have hpriority : ingress.priority.toInt = z := hint
  have hlen : (Ingress.header_value z).length < maxHeaderFieldSize :=
    Nat.lt_of_le_of_lt (Ingress.length_header_value z) (by decide)
  have hheaders : ∃ headers, HeaderList.create.add (PRIORITY ++ [0]) (Ingress.header_value z)
      = .ok headers := HeaderList.add_exists (by decide) (by decide) hlen
  obtain ⟨headers, hheaders⟩ := hheaders
  have hadd : ∃ m', ingress.add_priority_header ⟨true, false⟩ 1
      (.create (RPCMapper.blankMessage .HTTP1 .EGRESS 0)) = .ok (m', 1) := by
    unfold Ingress.add_priority_header
    rw [HTTPMessage.add_request_header, read_priority _ _ _ _ (List.prefix_append _ _), hpriority,
      Ingress.stoll_header_value (by omega) (by omega), ok_bind, ok_bind]
    dsimp only
    rw [if_neg Bool.false_ne_true]
    unfold HTTPMessage.create
    rw [hheaders]
    exact ⟨_, rfl⟩
  obtain ⟨m', hadd⟩ := hadd
  exact ⟨m'.ids.rpc, .configured hcreate hadd hint⟩

/-- **A priority is kept** exactly if there is a level for it: from the configuration or the header
that gives it, through the `int32_t` of the message and the byte of the Credit Request, to the line
of the queue. It goes the whole way for each request that it is written to. -/
theorem priority_kept {z : ℤ} {rpc : RPCMessage} (h : Admitted z rpc) :
    QueuedAtLevel z rpc.priority ↔ 0 ≤ z ∧ z < PriorityCount := by
  rw [h.priority_eq]
  constructor
  · exact level_of_kept
  · rintro ⟨hlow, hhigh⟩ buffer rx req peer service id now_us last_rtt hreq service' id' q rtt hread
    have hint : (BitVec.ofInt 32 z).toInt = z := by
      rw [BitVec.toInt_ofInt]
      unfold PriorityCount at hhigh
      exact Int.bmod_eq_of_le (by omega) (by omega)
    have hholds := (Buffer.write_credit_request_spec hreq).receive rx peer
    have hq := read_request_priority hholds hread
    have hsame : q = BitVec.ofInt 32 z := by
      rw [hq]
      exact signExtend_setWidth_priority (by unfold PriorityCount at hhigh; omega)
    have hqz : q.toInt = z := by rw [hsame, hint]
    have hnat : z.toNat < PriorityCount := by omega
    have hcast : ((⟨z.toNat, hnat⟩ : Fin PriorityCount).val : ℤ) = z := Int.toNat_of_nonneg hlow
    refine ⟨hqz, ⟨z.toNat, hnat⟩, hcast, fun es queue hwf hservice resp => ?_⟩
    exact push_at_level (by rw [hqz, hcast]) hwf hservice resp

/-- The priority 2 of a configuration, which is the index of the last level. -/
theorem priority_kept_two : ∃ rpc, Admitted 2 rpc
    ∧ (QueuedAtLevel 2 rpc.priority ↔ (0 : ℤ) ≤ 2 ∧ (2 : ℤ) < PriorityCount) := by
  obtain ⟨rpc, hrpc⟩ := admitted_configured (z := 2) (by decide)
  exact ⟨rpc, hrpc, priority_kept hrpc⟩

/-- The priority 3 passes the check of the constructor, and there is no level for it. -/
theorem priority_three :
    ¬ ∀ (z : ℤ) (rpc : RPCMessage), Admitted z rpc → QueuedAtLevel z rpc.priority := by
  intro h
  obtain ⟨rpc, hrpc⟩ := admitted_configured (z := 3) (by decide)
  have hkept := h 3 rpc hrpc
  rw [hrpc.priority_eq] at hkept
  exact absurd (level_of_kept hkept).2 (by decide)

end RlpSidecar
