/-
What each message says, from one end to the other.

`Holds` relates a buffer to the fields it carries, whatever else is in it. Each writer is
shown to produce or to patch fields, arrival keeps them, and each reader returns them. The
readers agree with the writers on every field but one: `extract_service_from_rlp_req` casts
the signed length byte without going through `unsigned char`, so a length of 128 or more
is read as one near 2⁶⁴. The round trip therefore holds exactly for service names of at most
101 bytes (`datagram_round_trip`), while `send_credit_request` accepts up to 229.
-/
import RlpSidecar.Datagram

set_option autoImplicit false

namespace RlpSidecar

/-- The fields of a message, as all the three kinds have them. -/
structure Fields where
  kind : UInt8
  flag : UInt8
  requested : UInt8
  id : RPCID
  priority : UInt8
  timestamp : BitVec 64
  /-- Bytes 22 to 25: the last RTT of a request, the queueing time of a grant. -/
  elapsed : BitVec 32
  service : Bytes

namespace Buffer

/-- The buffer carries `f`: each field is in its place, and the length byte and `filled` cover
the header and the name. -/
structure Holds (b : Buffer) (f : Fields) : Prop where
  filled : b.filled = headerSize + f.service.length
  len : Wire.window b.data 0 1 = [UInt8.ofNat (headerSize + f.service.length)]
  kind : Wire.window b.data 1 1 = [f.kind]
  flag : Wire.window b.data 2 1 = [f.flag]
  requested : Wire.window b.data 3 1 = [f.requested]
  id : Wire.window b.data 5 8 = Wire.encode f.id 8
  priority : Wire.window b.data 13 1 = [f.priority]
  timestamp : Wire.window b.data 14 8 = Wire.encode f.timestamp 8
  elapsed : Wire.window b.data 22 4 = Wire.encode f.elapsed 4
  service : Wire.window b.data headerSize f.service.length = f.service

theorem byte_eq {b : Buffer} {i : ℕ} {x : UInt8} (h : Wire.window b.data i 1 = [x]) :
    b.byte i = x := by
  have h0 := congrArg (fun l => l[0]?) h
  simp only [Wire.getElem?_window, Nat.add_zero, List.getElem?_cons_zero] at h0
  unfold byte
  rw [List.getD_eq_getElem?_getD]
  simp only [Nat.zero_lt_one, if_true] at h0
  rw [h0]
  rfl

/-- A field just put in its place is what was put there. -/
theorem window_put_self (b : Buffer) {pos : ℕ} {bytes : Bytes}
    (h : pos + bytes.length ≤ udpBufferLength) {n : ℕ} (hn : bytes.length = n) :
    Wire.window (b.put pos bytes h).data pos n = bytes := by
  subst hn
  exact Wire.window_overwrite_self (by rw [b.length_data]; exact h)

/-- A field beside one just put in its place is as it was. -/
theorem window_put_ne (b : Buffer) {pos : ℕ} {bytes : Bytes}
    (h : pos + bytes.length ≤ udpBufferLength) {q n : ℕ}
    (hd : q + n ≤ pos ∨ pos + bytes.length ≤ q) :
    Wire.window (b.put pos bytes h).data q n = Wire.window b.data q n :=
  Wire.window_overwrite_ne (by rw [b.length_data]; exact h) hd

/-- A field of a copy is that of the original, as far as the copy goes. -/
theorem window_copy_n (b src : Buffer) {q n : ℕ} (hq : q + n ≤ src.filled) :
    Wire.window (b.copy_n src).data q n = Wire.window src.data q n := by
  have hs := src.filled_lt
  exact Wire.window_overwrite_copy (by rw [src.length_data]; omega)
    (by rw [b.length_data]; omega) hq

/-- **A copy carries the same fields**, once its `filled` is that of the original. -/
theorem Holds.copy_n {src : Buffer} {f : Fields} (h : src.Holds f) (b c : Buffer)
    (hdata : c.data = (b.copy_n src).data) (hfilled : c.filled = src.filled) : c.Holds f := by
  have hsrc := h.filled
  have h26 : headerSize = 26 := rfl
  have hw : ∀ q n, q + n ≤ headerSize + f.service.length →
      Wire.window c.data q n = Wire.window src.data q n := by
    intro q n hq
    rw [hdata]
    exact window_copy_n b src (by omega)
  exact
    { filled := hfilled.trans hsrc
      len := (hw 0 1 (by omega)).trans h.len
      kind := (hw 1 1 (by omega)).trans h.kind
      flag := (hw 2 1 (by omega)).trans h.flag
      requested := (hw 3 1 (by omega)).trans h.requested
      id := (hw 5 8 (by omega)).trans h.id
      priority := (hw 13 1 (by omega)).trans h.priority
      timestamp := (hw 14 8 (by omega)).trans h.timestamp
      elapsed := (hw 22 4 (by omega)).trans h.elapsed
      service := (hw headerSize _ (by omega)).trans h.service }

/-- What arrives is what was sent, into whatever buffer it is received. -/
theorem Holds.receive {sent : Buffer} {f : Fields} (h : sent.Holds f) (rx : Buffer)
    (peer : SockAddr) : (rx.receive sent peer).Holds f := h.copy_n rx _ rfl rfl

theorem set_filled_eq_ok {b b' : Buffer} {n : ℕ} (h : b.set_filled n = .ok b') :
    b'.data = b.data ∧ b'.filled = n ∧ n < udpBufferLength := by
  unfold set_filled at h
  split_ifs at h with hn
  obtain rfl := Except.ok.inj h
  exact ⟨rfl, rfl, hn⟩

theorem set_filled_ok (b : Buffer) {n : ℕ} (hn : n < udpBufferLength) :
    ∃ b', b.set_filled n = .ok b' :=
  ⟨_, dif_pos hn⟩

/-! ## Writers -/

/-- The fields of a Credit Request, as its sender gives them. -/
def requestFields (service : Bytes) (num_credits : ℕ) (id : RPCID) (priority : Priority)
    (now_us : BitVec 64) (last_rtt : BitVec 32) : Fields :=
  { kind := 0x01, flag := 0x00, requested := UInt8.ofNat num_credits, id := id,
    priority := ⟨priority.setWidth 8⟩, timestamp := now_us, elapsed :=
    last_rtt, service := service }

/-- The writes of `send_credit_request`, each with its position, in the order of the source. -/
def requestWrites (service : Bytes) (num_credits : ℕ) (id : RPCID) (priority : Priority)
    (now_us : BitVec 64) (last_rtt : BitVec 32) : List (ℕ × Bytes) :=
  [(0, [UInt8.ofNat (headerSize + service.length)]), (1, [0x01]), (2, [0x00]),
   (3, [UInt8.ofNat num_credits]), (5, Wire.encode id 8), (13, [⟨priority.setWidth 8⟩]),
   (14, Wire.encode now_us 8), (22, Wire.encode last_rtt 4), (headerSize, service)]

theorem requestWrites_apart (service : Bytes) (n : ℕ) (id : RPCID) (priority : Priority)
    (now_us : BitVec 64) (last_rtt : BitVec 32) :
    (requestWrites service n id priority now_us last_rtt).Pairwise Wire.Apart := by
  simp only [requestWrites, List.pairwise_cons, List.forall_mem_cons, Wire.Apart,
    Wire.length_encode, List.length_singleton]
  simp [headerSize]

/-- **`send_credit_request`** writes every field of the request, over any buffer, whatever was in
it. -/
theorem write_credit_request_spec {b req : Buffer} {service : Bytes} {n : ℕ} {id : RPCID}
    {priority : Priority} {now_us : BitVec 64} {last_rtt : BitVec 32}
    (h : write_credit_request b service n id priority now_us last_rtt = .ok req) :
    req.Holds (requestFields service n id priority now_us last_rtt) := by
  unfold write_credit_request at h
  dsimp only at h
  split_ifs at h with hlen
  obtain ⟨hdata, hfilled, hlt⟩ := set_filled_eq_ok h
  have h26 : headerSize = 26 := rfl
  -- all the fields lie within the buffer, and none of them overlap
  have hin : ∀ w ∈ requestWrites service n id priority now_us last_rtt,
      w.1 + w.2.length ≤ b.data.length := by
    rw [b.length_data]
    simp only [requestWrites, List.forall_mem_cons, Wire.length_encode, List.length_singleton]
    simp
    omega
  have hread : ∀ w ∈ requestWrites service n id priority now_us last_rtt,
      Wire.window req.data w.1 w.2.length = w.2 := by
    intro w hw
    rw [hdata]
    exact Wire.window_overwrites hin (requestWrites_apart service n id priority now_us last_rtt) hw
  simp only [requestWrites, List.forall_mem_cons, Wire.length_encode,
    List.length_singleton] at hread
  obtain ⟨h0, h1, h2, h3, h5, h13, h14, h22, hname, _⟩ := hread
  exact ⟨hfilled, h0, h1, h2, h3, h5, h13, h14, h22, hname⟩

theorem write_credit_request_ok (b : Buffer) {service : Bytes} (n : ℕ) (id : RPCID)
    (priority : Priority) (now_us : BitVec 64) (last_rtt : BitVec 32)
    (h : headerSize + service.length < udpBufferLength) :
    ∃ req, write_credit_request b service n id priority now_us last_rtt = .ok req := by
  unfold write_credit_request
  dsimp only
  rw [dif_neg (by omega)]
  exact set_filled_ok _ h

/-- A one-byte patch of a buffer, at a place `f` has a field for, changes that field only. -/
theorem window_patch (b : Buffer) {pos : ℕ} {x : UInt8} (h : pos + [x].length ≤ udpBufferLength)
    (q n : ℕ) (hd : q + n ≤ pos ∨ pos + 1 ≤ q) :
    Wire.window (b.put pos [x] h).data q n = Wire.window b.data q n :=
  window_put_ne b h hd

theorem window_patch_self (b : Buffer) {pos : ℕ} {x : UInt8}
    (h : pos + [x].length ≤ udpBufferLength) : Wire.window (b.put pos [x] h).data pos 1 = [x] :=
  window_put_self b h rfl

/-- **`write_credit_grant`**: the request's fields, as a grant of `n` credits, whose number is in
byte 4. -/
theorem write_credit_grant_spec {req grant b : Buffer} {f : Fields} (hreq : req.Holds f) {n : ℕ}
    (h : write_credit_grant n req grant = .ok b) :
    b.Holds { f with flag := 0x01 } ∧ Wire.window b.data 4 1 = [UInt8.ofNat n] := by
  unfold write_credit_grant at h
  dsimp only at h
  split_ifs at h with hover
  obtain ⟨hdata, hfilled, hlt⟩ := set_filled_eq_ok h
  have hsrc := hreq.filled
  have h26 : headerSize = 26 := rfl
  -- the request is copied, and two bytes of it are written over
  have hcopy : ∀ q k, q + k ≤ req.filled → (q + k ≤ 2 ∨ 3 ≤ q) → (q + k ≤ 4 ∨ 5 ≤ q) →
      Wire.window b.data q k = Wire.window req.data q k := by
    intro q k hq h2 h4
    rw [hdata, window_patch _ _ _ _ h4, window_patch _ _ _ _ h2]
    exact window_copy_n grant req hq
  refine ⟨⟨hfilled.trans hsrc, ?_, ?_, ?_, ?_, ?_, ?_, ?_, ?_, ?_⟩, ?_⟩
  · exact (hcopy 0 1 (by omega) (by omega) (by omega)).trans hreq.len
  · exact (hcopy 1 1 (by omega) (by omega) (by omega)).trans hreq.kind
  · rw [hdata, window_patch _ _ _ _ (by omega), window_patch_self]
  · exact (hcopy 3 1 (by omega) (by omega) (by omega)).trans hreq.requested
  · exact (hcopy 5 8 (by omega) (by omega) (by omega)).trans hreq.id
  · exact (hcopy 13 1 (by omega) (by omega) (by omega)).trans hreq.priority
  · exact (hcopy 14 8 (by omega) (by omega) (by omega)).trans hreq.timestamp
  · exact (hcopy 22 4 (by omega) (by omega) (by omega)).trans hreq.elapsed
  · exact (hcopy headerSize _ (by dsimp only; omega) (by omega) (by omega)).trans hreq.service
  · rw [hdata, window_patch_self]

theorem write_credit_grant_ok (req : Buffer) {grant : Buffer} (n : ℕ) (hgrant : grant.filled = 0) :
    ∃ b, write_credit_grant n req grant = .ok b := by
  have hlt := req.filled_lt
  unfold write_credit_grant
  dsimp only
  rw [if_neg (by omega)]
  exact set_filled_ok _ hlt

/-- **`stamp_queuing_time`**: the four bytes of the last RTT become the queueing time. -/
theorem stamp_queuing_time_spec {b : Buffer} {f : Fields} (hb : b.Holds f) (now_ts : BitVec 64) :
    (stamp_queuing_time b now_ts).Holds
        { f with elapsed := (now_ts - b.enter_queue_ts).setWidth 32 }
      ∧ Wire.window (stamp_queuing_time b now_ts).data 4 1 = Wire.window b.data 4 1 := by
  have h26 : headerSize = 26 := rfl
  have hlen : (Wire.encode ((now_ts - b.enter_queue_ts).setWidth 32) 4).length = 4 :=
    Wire.length_encode _ 4
  have hsame : ∀ q k, (q + k ≤ 22 ∨ 26 ≤ q) →
      Wire.window (stamp_queuing_time b now_ts).data q k = Wire.window b.data q k := by
    intro q k hd
    exact window_put_ne b _ (by rw [hlen]; exact hd)
  refine ⟨⟨hb.filled, ?_, ?_, ?_, ?_, ?_, ?_, ?_, ?_, ?_⟩, hsame 4 1 (by omega)⟩
  · exact (hsame 0 1 (by omega)).trans hb.len
  · exact (hsame 1 1 (by omega)).trans hb.kind
  · exact (hsame 2 1 (by omega)).trans hb.flag
  · exact (hsame 3 1 (by omega)).trans hb.requested
  · exact (hsame 5 8 (by omega)).trans hb.id
  · exact (hsame 13 1 (by omega)).trans hb.priority
  · exact (hsame 14 8 (by omega)).trans hb.timestamp
  · exact window_put_self b _ hlen
  · exact (hsame headerSize _ (by omega)).trans hb.service

/-- **`prepare_credit_return`**: the grant's fields, as a return, to where the grant came from. -/
theorem prepare_credit_return_spec {grant ret b : Buffer} {f : Fields} (hgrant : grant.Holds f)
    (h : prepare_credit_return grant ret = .ok b) :
    b.Holds { f with kind := 0x02 } ∧ b.addr = grant.addr := by
  unfold prepare_credit_return at h
  split_ifs at h with hover
  obtain ⟨c, hc, h⟩ := bind_eq_ok.mp h
  obtain rfl := Except.ok.inj h
  obtain ⟨hdata, hfilled, _⟩ := set_filled_eq_ok hc
  have hsrc := hgrant.filled
  have h26 : headerSize = 26 := rfl
  have hcopy := hgrant.copy_n ret c hdata hfilled
  -- only the kind in byte 1 is written over
  have hsame : ∀ q k, (q + k ≤ 1 ∨ 2 ≤ q) →
      Wire.window ((c.put 1 [0x02] (by decide)).prepare_sendmsg grant.addr).data q k
        = Wire.window c.data q k := fun q k hd => window_patch c (by decide) q k hd
  refine ⟨⟨hcopy.filled, ?_, ?_, ?_, ?_, ?_, ?_, ?_, ?_, ?_⟩, rfl⟩
  · exact (hsame 0 1 (by omega)).trans hcopy.len
  · exact window_patch_self c (by decide)
  · exact (hsame 2 1 (by omega)).trans hcopy.flag
  · exact (hsame 3 1 (by omega)).trans hcopy.requested
  · exact (hsame 5 8 (by omega)).trans hcopy.id
  · exact (hsame 13 1 (by omega)).trans hcopy.priority
  · exact (hsame 14 8 (by omega)).trans hcopy.timestamp
  · exact (hsame 22 4 (by omega)).trans hcopy.elapsed
  · exact (hsame headerSize _ (by omega)).trans hcopy.service

theorem prepare_credit_return_ok (grant : Buffer) {ret : Buffer} (hret : ret.filled = 0) :
    ∃ b, prepare_credit_return grant ret = .ok b := by
  have hlt := grant.filled_lt
  obtain ⟨c, hc⟩ := set_filled_ok (ret.copy_n grant) hlt
  unfold prepare_credit_return
  rw [if_neg (by omega)]
  dsimp only
  rw [hc]
  exact ⟨_, rfl⟩

end Buffer

/-! ## Readers -/

/-- `(size_t)c` of the `char` a length is stored in: from 128 on the sign is extended. -/
theorem charToSize_ofNat {n : ℕ} (hn : n < 256) :
    charToSize (UInt8.ofNat n) = if n < 128 then n else 2 ^ 64 - 256 + n := by
  have hmod : n % 2 ^ 8 = n := Nat.mod_eq_of_lt hn
  unfold charToSize
  rw [BitVec.toNat_signExtend]
  simp only [UInt8.toBitVec_ofNat', BitVec.msb_eq_decide, BitVec.toNat_setWidth, BitVec.toNat_ofNat]
  split_ifs <;> simp_all <;> omega

/-- **`extract_service_from_rlp_req`** returns the service of names of at most 101 bytes, for which
the total length is a positive `char`. -/
theorem extract_service_spec {b : Buffer} {f : Fields} (hb : b.Holds f)
    (hkind : f.kind = 0x01 ∨ f.kind = 0x02) (hlen : f.service.length ≤ 101) :
    extract_service_from_rlp_req b = .ok f.service := by
  have h26 : headerSize = 26 := rfl
  have hsize : charToSize (b.byte 0) = headerSize + f.service.length := by
    rw [Buffer.byte_eq hb.len, charToSize_ofNat (by omega), if_pos (by omega)]
  have hk : ¬ (b.byte 1 ≠ 0x01 ∧ b.byte 1 ≠ 0x02) := by
    rw [Buffer.byte_eq hb.kind]; tauto
  unfold extract_service_from_rlp_req
  rw [if_neg hk, hsize, if_neg (by omega), if_neg (by show ¬ 256 < _; omega),
    Nat.add_sub_cancel_left,
    hb.service]

/-- Longer names make it read outside the buffer: their total length is negative as a `char`. -/
theorem extract_service_undefined {b : Buffer} {f : Fields} (hb : b.Holds f)
    (hkind : f.kind = 0x01 ∨ f.kind = 0x02) (hlen : 101 < f.service.length) :
    extract_service_from_rlp_req b = .error .undefined := by
  have h26 : headerSize = 26 := rfl
  have hlt := b.filled_lt
  rw [hb.filled] at hlt
  have hlt' : headerSize + f.service.length < 256 := hlt
  have hsize : charToSize (b.byte 0) = 2 ^ 64 - 256 + (headerSize + f.service.length) := by
    rw [Buffer.byte_eq hb.len, charToSize_ofNat hlt', if_neg (by omega)]
  have hk : ¬ (b.byte 1 ≠ 0x01 ∧ b.byte 1 ≠ 0x02) := by
    rw [Buffer.byte_eq hb.kind]; tauto
  unfold extract_service_from_rlp_req
  rw [if_neg hk, hsize, if_neg (by omega), if_pos (by show 256 < _; omega)]

/-- `(Priority)c` undoes `(char)priority` on the values a `char` has, from -128 to 127. -/
theorem signExtend_setWidth_priority {p : Priority} (h : -128 ≤ p.toInt ∧ p.toInt ≤ 127) :
    (p.setWidth 8).signExtend 32 = p := by
  have hlt := p.isLt
  have hint := BitVec.toInt_eq_toNat_cond p
  apply BitVec.eq_of_toInt_eq
  rw [BitVec.toInt_signExtend_of_le (by decide), BitVec.toInt_setWidth]
  unfold Int.bmod
  dsimp only
  split_ifs at hint <;> split_ifs <;> omega

/-- `dispatch_rlp_recv` goes by the length byte as an unsigned one, and by the bytes 1 and 2. -/
theorem dispatch_spec {b : Buffer} {f : Fields} (hb : b.Holds f) :
    (f.kind = 0x02 → dispatch_rlp_recv b = .ok .protocol_server)
      ∧ (f.kind = 0x01 → f.flag = 0x00 → dispatch_rlp_recv b = .ok .protocol_server)
      ∧ (f.kind = 0x01 → f.flag = 0x01 → dispatch_rlp_recv b = .ok .credit_grant) := by
  have h26 : headerSize = 26 := rfl
  have hlt : headerSize + f.service.length < 256 := hb.filled ▸ b.filled_lt
  have hbyte : (b.byte 0).toNat = headerSize + f.service.length := by
    rw [Buffer.byte_eq hb.len, UInt8.toNat_ofNat', Nat.mod_eq_of_lt hlt]
  have hfilled := hb.filled
  unfold dispatch_rlp_recv
  rw [if_neg (by omega), if_neg (by omega), Buffer.byte_eq hb.kind, Buffer.byte_eq hb.flag]
  refine ⟨fun h => ?_, fun h h' => ?_, fun h h' => ?_⟩
  · rw [if_pos h]
  · rw [h, h']; decide
  · rw [h, h']; decide

/-- What `protocol_server` reads out of a Credit Request: the service, the id, the priority and the
last RTT. -/
theorem read_request_spec {b : Buffer} {f : Fields} (hb : b.Holds f) (hkind : f.kind = 0x01)
    (hflag : f.flag = 0x00) (hreq : f.requested = 1) (hrtt : 0 ≤ f.elapsed.toInt)
    (hlen : f.service.length ≤ 101) :
    read_server_message b
      = .ok (.credit_request f.service f.id (f.priority.toBitVec.signExtend 32) f.elapsed) := by
  unfold read_server_message
  rw [Buffer.byte_eq hb.kind, Buffer.byte_eq hb.flag, Buffer.byte_eq hb.requested,
    Buffer.byte_eq hb.priority, hb.id, hb.elapsed, Wire.decode_encode (by decide : 8 * 8 = 64),
    Wire.decode_encode (by decide : 8 * 4 = 32), extract_service_spec hb (.inl hkind) hlen,
    if_pos hkind, if_neg (by simp [hflag]),
    if_neg (by simp [hreq]), ok_bind, if_pos hrtt]

/-- It reads nothing out of one with a longer name; the reading itself is undefined. -/
theorem read_request_undefined {b : Buffer} {f : Fields} (hb : b.Holds f) (hkind : f.kind = 0x01)
    (hflag : f.flag = 0x00) (hreq : f.requested = 1) (hlen : 101 < f.service.length) :
    read_server_message b = .error .undefined := by
  unfold read_server_message
  rw [Buffer.byte_eq hb.kind, Buffer.byte_eq hb.flag, Buffer.byte_eq hb.requested,
    extract_service_undefined hb (.inl hkind) hlen, if_pos hkind, if_neg (by simp [hflag]),
    if_neg (by simp [hreq])]
  rfl

/-- What `protocol_server` reads out of a Credit Return, which is the service. -/
theorem read_return_spec {b : Buffer} {f : Fields} (hb : b.Holds f) (hkind : f.kind = 0x02)
    (hlen : f.service.length ≤ 101) :
    read_server_message b = .ok (.credit_return f.service) := by
  unfold read_server_message
  rw [Buffer.byte_eq hb.kind, extract_service_spec hb (.inr hkind) hlen,
    if_neg (by rw [hkind]; decide),
    if_pos hkind, ok_bind]

/-- What `credit_post_process` reads out of a Credit Grant: whom it is for, its times and its
credits. -/
theorem read_grant_spec {b : Buffer} {f : Fields} (hb : b.Holds f) (hkind : f.kind = 0x01)
    (hlen : f.service.length ≤ 101) :
    read_credit_grant b
      = .ok ⟨f.service, f.id, f.timestamp, f.elapsed, f.requested, b.byte 4⟩ := by
  unfold read_credit_grant
  rw [Buffer.byte_eq hb.requested, hb.id, hb.timestamp, hb.elapsed,
    Wire.decode_encode (by decide : 8 * 8 = 64), Wire.decode_encode (by decide : 8 * 8 = 64),
    Wire.decode_encode (by decide : 8 * 4 = 32), extract_service_spec hb (.inl hkind) hlen, ok_bind]

/-! ## The round trip -/

/-- The Credit Request, the Credit Grant and the Credit Return of one credit, sent through any
buffers, go to the handlers they are meant for and are read there as they were written. -/
def RoundTrips (service : Bytes) (id : RPCID) (priority : Priority) (now_us : BitVec 64)
    (last_rtt : BitVec 32) (enter_ts now_ts : BitVec 64) : Prop :=
  ∀ (b₁ b₂ b₃ rx₁ rx₂ rx₃ : Buffer) (client server : SockAddr),
    b₁.filled = 0 → b₂.filled = 0 → b₃.filled = 0 →
    ∃ req resp ret,
      write_credit_request b₁ service 1 id priority now_us last_rtt = .ok req
      ∧ dispatch_rlp_recv (rx₁.receive req client) = .ok .protocol_server
      ∧ read_server_message (rx₁.receive req client)
          = .ok (.credit_request service id priority last_rtt)
      ∧ write_failed_dn_response (rx₁.receive req client) b₂ = .ok resp
      ∧ let grant := rx₂.receive
          (stamp_queuing_time { resp with enter_queue_ts := enter_ts } now_ts) server
        dispatch_rlp_recv grant = .ok .credit_grant
        ∧ read_credit_grant grant
            = .ok ⟨service, id, now_us, (now_ts - enter_ts).setWidth 32, 1, 1⟩
        ∧ prepare_credit_return grant b₃ = .ok ret
        ∧ dispatch_rlp_recv (rx₃.receive ret client) = .ok .protocol_server
        ∧ read_server_message (rx₃.receive ret client) = .ok (.credit_return service)

/-- Names of at most 101 bytes make it around, in all the three messages. -/
theorem roundTrips_of_length_le {service : Bytes} {id : RPCID} {priority : Priority}
    {now_us : BitVec 64} {last_rtt : BitVec 32} {enter_ts now_ts : BitVec 64}
    (hpriority : -128 ≤ priority.toInt ∧ priority.toInt ≤ 127) (hrtt : 0 ≤ last_rtt.toInt)
    (hlen : service.length ≤ 101) :
    RoundTrips service id priority now_us last_rtt enter_ts now_ts := by
  intro b₁ b₂ b₃ rx₁ rx₂ rx₃ client server _ h₂ h₃
  have h26 : headerSize = 26 := rfl
  obtain ⟨req, hreq⟩ := Buffer.write_credit_request_ok b₁ 1 id priority now_us last_rtt
    (show headerSize + service.length < 256 by omega)
  have hreqHolds := (Buffer.write_credit_request_spec hreq).receive rx₁ client
  have hread := read_request_spec hreqHolds rfl rfl rfl hrtt hlen
  simp only [Buffer.requestFields, signExtend_setWidth_priority hpriority] at hread
  obtain ⟨resp, hresp⟩ := Buffer.write_credit_grant_ok (rx₁.receive req client) 1 h₂
  obtain ⟨hgrantHolds, hfour⟩ := Buffer.write_credit_grant_spec hreqHolds hresp
  -- the address and the time of entry are not among the fields
  have hentered : ({ resp.prepare_sendmsg (rx₁.receive req client).addr with
      enter_queue_ts := enter_ts } : Buffer).Holds _ := ⟨hgrantHolds.filled, hgrantHolds.len,
    hgrantHolds.kind, hgrantHolds.flag, hgrantHolds.requested, hgrantHolds.id,
    hgrantHolds.priority, hgrantHolds.timestamp, hgrantHolds.elapsed, hgrantHolds.service⟩
  obtain ⟨hstamped, hfour'⟩ := Buffer.stamp_queuing_time_spec hentered now_ts
  have hgrant := hstamped.receive rx₂ server
  obtain ⟨ret, hret⟩ := Buffer.prepare_credit_return_ok (rx₂.receive (stamp_queuing_time
    { resp.prepare_sendmsg (rx₁.receive req client).addr with enter_queue_ts := enter_ts } now_ts)
    server) h₃
  have hretHolds := (Buffer.prepare_credit_return_spec hgrant hret).1.receive rx₃ client
  refine ⟨req, _, ret, hreq, (dispatch_spec hreqHolds).2.1 rfl rfl, hread,
    by unfold write_failed_dn_response; rw [hresp]; rfl, (dispatch_spec hgrant).2.2 rfl rfl, ?_,
    hret, (dispatch_spec hretHolds).1 rfl, read_return_spec hretHolds rfl hlen⟩
  have hsent : 4 + 1 ≤ (stamp_queuing_time { resp.prepare_sendmsg
      (rx₁.receive req client).addr with enter_queue_ts := enter_ts } now_ts).filled := by
    rw [hstamped.filled]; omega
  have hbyte := Buffer.byte_eq
    ((Buffer.window_copy_n rx₂ _ hsent).trans (hfour'.trans hfour))
  have hread' := read_grant_spec hgrant rfl hlen
  rw [show (rx₂.receive _ server).byte 4 = UInt8.ofNat 1 from hbyte] at hread'
  exact hread'

/-- Longer names that are sent do not: the server reads outside the datagram. -/
theorem not_roundTrips_of_lt_length {service : Bytes} {id : RPCID} {priority : Priority}
    {now_us : BitVec 64} {last_rtt : BitVec 32} {enter_ts now_ts : BitVec 64}
    (hlen : 101 < service.length) :
    ¬ RoundTrips service id priority now_us last_rtt enter_ts now_ts := by
  intro h
  obtain ⟨req, _, _, hreq, _, hread, _⟩ := h .blank .blank .blank .blank .blank .blank ⟨0, 0⟩ ⟨0, 0⟩
    rfl rfl rfl
  have hholds := (Buffer.write_credit_request_spec hreq).receive .blank ⟨0, 0⟩
  rw [read_request_undefined hholds rfl rfl rfl hlen] at hread
  cases hread

/-- **The datagrams round-trip exactly up to names of 101 bytes.** For every service name, accepted
by `send_credit_request` or not, every id, every priority a `char` can hold, every send time and
every non-negative last RTT, whatever the buffers held before: the Credit Request, the Credit Grant
and the Credit Return are routed to their handlers and read there as written if and only if the
name has at most 101 bytes, so that header and name are shorter than 128. -/
theorem datagram_round_trip {service : Bytes} {priority : Priority} {last_rtt : BitVec 32}
    (hpriority : -128 ≤ priority.toInt ∧ priority.toInt ≤ 127) (hrtt : 0 ≤ last_rtt.toInt)
    (id : RPCID) (now_us enter_ts now_ts : BitVec 64) :
    RoundTrips service id priority now_us last_rtt enter_ts now_ts ↔ service.length ≤ 101 := by
  constructor
  · intro h
    by_contra hlt
    exact not_roundTrips_of_lt_length (not_le.mp hlt) h
  · exact roundTrips_of_length_le hpriority hrtt

/-- The three messages for the service `s` make it around, with an id, a priority and times. -/
theorem datagram_round_trip_short : RoundTrips [115] 7 2 1000 0 5 9 :=
  (datagram_round_trip (by decide) (by decide) 7 1000 5 9).mpr (by decide)

/-- Those for a name of 102 bytes are sent and do not. -/
theorem datagram_round_trip_fails :
    (∃ req, write_credit_request .blank (List.replicate 102 115) 1 7 2 1000 0 = .ok req)
      ∧ ¬ RoundTrips (List.replicate 102 115) 7 2 1000 0 5 9 :=
  ⟨Buffer.write_credit_request_ok _ 1 7 2 1000 0 (by decide),
    not_roundTrips_of_lt_length (by decide)⟩

end RlpSidecar
