/-
**What the edge sends, a frontend reads** (`connection.cc`, `HTTP1Connection::http_read` and
`http_write`; `ingress.cc`, `Ingress::enqueue`).

A request that the sidecar of the ingress admitted gets two headers more and is written on a
connection to the sidecar of the frontend, which is the same program in another role. What was read
is well formed, so what is written is, and both sidecars read the same numbers in it, but for one:
the number of a length that ends the head without a value is read from the array behind the head at
the edge, and from the header that the sidecar has put behind it at the frontend. The limits are
not the same either: a client may fill all the places for headers, and then there is none for the
two of the sidecar; a header that starts like `rpc-local-id` is dropped on the way; and a request
may grow out of the buffer of a connection.

`forwarded_read_iff` puts the parts together: the object that `Ingress::enqueue` leaves in the
queue (`HttpWorker.ingress_enqueue_carries`), the text that `http_write` makes of it
(`request_text_eq`), and the one read at the frontend, with its parser and its own reading of the
headers (`written_text_read`). `kept_headers_read` is the case of at most eight headers and no
length without a value: then everything the client has sent is read, but for the headers that are
dropped on the way.
-/
import RlpSidecar.EdgeReads

set_option autoImplicit false

namespace RlpSidecar

variable {n : ℕ}

/-! ## Texts that are printed -/

namespace HTTP1Connection

/-- `%.*s` writes a text without zero bytes as it is, and stops at the zeros that stand behind it
in its array. -/
theorem printed_zeros {s : Bytes} (hs : ∀ c ∈ s, c ≠ 0) (k : ℕ) :
    printed (s ++ List.replicate k 0) = s := by
  unfold printed
  rw [List.takeWhile_append_of_pos (by simpa using hs)]
  cases k with
  | zero => exact List.append_nil s
  | succ k => exact List.append_nil s

theorem printed_eq {s : Bytes} (hs : ∀ c ∈ s, c ≠ 0) : printed s = s := by
  have h := printed_zeros hs 0
  rw [List.replicate_zero, List.append_nil] at h
  exact h

end HTTP1Connection

/-- A printable byte is not zero, so a token is printed whole. -/
theorem ne_zero_of_token {token : Bytes} (h : PicoHttp.IsToken token) : ∀ c ∈ token, c ≠ 0 := by
  rintro c hc rfl
  exact absurd (PicoHttp.token_char_range (h.2 0 hc)).1 (by decide)

theorem ne_zero_of_target {path : Bytes} (h : PicoHttp.IsTarget path) : ∀ c ∈ path, c ≠ 0 := by
  rintro c hc rfl
  exact (h.2 0 hc).2.1 (by decide)

theorem ne_zero_of_value {value : Bytes} (h : PicoHttp.IsValue value) : ∀ c ∈ value, c ≠ 0 := by
  rintro c hc rfl
  exact absurd (h.printable 0 hc) (by decide)

/-- The bytes of a number: its digits, and a sign. -/
theorem mem_ofInt {z : ℤ} {c : UInt8} (hc : c ∈ Decimal.ofInt z) :
    c = 45 ∨ Decimal.isDigit c = true := by
  unfold Decimal.ofInt Decimal.ofNat at hc
  split_ifs at hc
  · rcases List.mem_cons.mp hc with rfl | hc
    · exact .inl rfl
    · exact .inr (Decimal.isDigit_of_mem_digits _ _ c hc)
  · exact .inr (Decimal.isDigit_of_mem_digits _ _ c hc)

theorem ofInt_printable {z : ℤ} : ∀ c ∈ Decimal.ofInt z, PicoHttp.isCtl c = false
    ∧ PicoHttp.isBlank c = false := by
  intro c hc
  have hrange : 45 ≤ c.toNat ∧ c.toNat ≤ 57 := by
    rcases mem_ofInt hc with rfl | hdigit
    · decide
    · unfold Decimal.isDigit at hdigit
      simp only [Bool.and_eq_true, decide_eq_true_eq] at hdigit
      omega
  have hne : ∀ d : UInt8, d.toNat < 45 ∨ 57 < d.toNat → c ≠ d := by
    rintro d hd rfl
    omega
  unfold PicoHttp.isCtl PicoHttp.isBlank
  simp only [Bool.or_eq_false_iff, Bool.and_eq_false_imp, decide_eq_false_iff_not,
    decide_eq_true_eq]
  exact ⟨⟨fun h => by omega, hne 127 (by decide)⟩, hne 32 (by decide), hne 9 (by decide)⟩

/-- A number is the value of a header, as the parser understands values. -/
theorem isValue_ofInt (z : ℤ) : PicoHttp.IsValue (Decimal.ofInt z) where
  printable := fun c hc => (ofInt_printable c hc).1
  head := fun c hc => (ofInt_printable c (List.mem_of_mem_head? hc)).2
  last := by
    rw [List.rdropWhile_eq_self_iff]
    intro hne
    rw [(ofInt_printable _ (List.getLast_mem hne)).2]
    exact Bool.false_ne_true

/-- A version of one digit is printed as that digit. -/
theorem ofInt_digit {minor : ℕ} (h : minor < 10) : Decimal.ofInt minor = [Decimal.digit minor] := by
  unfold Decimal.ofInt Decimal.ofNat
  rw [if_neg (by omega), Int.natAbs_natCast]
  cases minor with
  | zero => rfl
  | succ k =>
      unfold Decimal.digits
      rw [if_pos h]

/-- What is printed of the array of a number, in which `snprintf` has ended the text with a
zero. -/
theorem printed_header_value {z : ℤ} (hlow : -2 ^ 63 ≤ z) (hhigh : z ≤ 2 ^ 63 - 1) :
    HTTP1Connection.printed (Ingress.header_value z) = Decimal.ofInt z := by
  rw [Ingress.header_value_eq hlow hhigh]
  exact HTTP1Connection.printed_zeros (ne_zero_of_value (isValue_ofInt z)) _

/-! ## The request on the edge -/

/-- The headers as the client sent them, those that the sidecar drops among them. -/
def clientHeaders (r : PicoHttp.Request) : List (Bytes × Bytes) :=
  r.headers.map fun h => (headerName h.name, h.value)

/-- The headers that the sidecar of the ingress puts behind them: the next identifier, and the
configured priority. -/
def HttpWorker.own_headers (w : HttpWorker n) : List (Bytes × Bytes) :=
  [(RPC_ID, Decimal.ofInt (w.ingress.last_rpc_id + 1).toInt),
    (PRIORITY, Decimal.ofInt w.ingress.priority.toInt)]

/-- The object has the request, with the headers of the sidecar, which are arrays with zero bytes
at their ends. -/
structure Carries (w : HttpWorker n) (r : PicoHttp.Request) (m : HTTPMessage) : Prop where
  method : m.method = r.method
  path : m.path = r.path
  minor : m.minor = r.minor
  headers : m.req_headers.text = requestTexts .EGRESS r.headers
    ++ [(RPC_ID ++ [0], Ingress.header_value (w.ingress.last_rpc_id + 1).toInt),
      (PRIORITY ++ [0], Ingress.header_value w.ingress.priority.toInt)]

/-- A header of the sidecar itself is stored behind the others, and changes no other text of the
request. -/
theorem add_own_header_text {config : IdConfig} {counter counter' : RPCID}
    {m m' : HTTPMessage} {name value : Bytes}
    (h : m.add_header_field config counter name value true false = .ok (m', counter'))
    (hname : ¬ RPC_LOCAL_ID <+: name) :
    m'.method = m.method ∧ m'.path = m.path ∧ m'.minor = m.minor
      ∧ m'.req_headers.text = m.req_headers.text ++ [(name, value)] := by
  rw [Message.add_http_header_eq] at h
  obtain ⟨⟨ids, req_headers, c⟩, hstore, h⟩ := bind_eq_ok.mp h
  obtain ⟨rfl, rfl⟩ := Prod.mk.inj (Except.ok.inj h)
  obtain ⟨_, _, htext⟩ := store_stream hstore
  rw [if_neg fun hdropped => hname hdropped.2] at htext
  exact ⟨rfl, rfl, rfl, htext⟩

/-- **An admitted request is carried** by the object that waits in the queue. -/
theorem HttpWorker.ingress_enqueue_carries {config : IdConfig} {w w' : HttpWorker n} {rpc : Fin n}
    {r : PicoHttp.Request} (h : w.ingress_enqueue config rpc = .ok w') (hqueued : w.Queued rpc w')
    (hmethod : (w.http rpc).method = r.method) (hpath : (w.http rpc).path = r.path)
    (hminor : (w.http rpc).minor = r.minor)
    (hheaders : (w.http rpc).req_headers.text = requestTexts .EGRESS r.headers) :
    Carries w r (w'.http rpc) := by
  unfold ingress_enqueue at h
  split_ifs at h with hservice hfull
  · -- a request that was queued was not dropped
    exact absurd hfull (Nat.not_le_of_lt hqueued.room)
  obtain ⟨⟨m₁, counter₁, ingress⟩, hfirst, h⟩ := bind_eq_ok.mp h
  obtain ⟨⟨m₂, counter₂⟩, hsecond, h⟩ := bind_eq_ok.mp h
  obtain rfl := Except.ok.inj h
  unfold Ingress.add_rpc_id_header at hfirst
  dsimp only at hfirst
  obtain ⟨⟨m, counter⟩, hadd, heq⟩ := bind_eq_ok.mp hfirst
  obtain ⟨rfl, hrest⟩ := Prod.mk.inj (Except.ok.inj heq)
  obtain ⟨rfl, rfl⟩ := Prod.mk.inj hrest
  -- the two headers are put behind the client's, one after the other
  obtain ⟨hmethod₁, hpath₁, hminor₁, htext₁⟩ := add_own_header_text hadd (by decide)
  unfold Ingress.add_priority_header at hsecond
  obtain ⟨hmethod₂, hpath₂, hminor₂, htext₂⟩ := add_own_header_text hsecond (by decide)
  unfold HttpCalls.set_message
  dsimp only
  rw [Function.update_self]
  refine ⟨hmethod₂.trans (hmethod₁.trans hmethod), hpath₂.trans (hpath₁.trans hpath),
    hminor₂.trans (hminor₁.trans hminor), ?_⟩
  unfold HttpCalls.message at htext₁
  dsimp only at htext₁
  rw [htext₂, htext₁, hheaders, List.append_assoc]
  rfl

namespace HTTP1Connection

/-- A read that admits a request `r`, between the reads of a connection that a client opened. -/
structure Admits (config : HttpConfig) (c : HTTP1Connection n) (w : HttpWorker n)
    (d : Bytes) (r : PicoHttp.Request) (rpc : Fin n) (w' : HttpWorker n) : Prop where
  edge : config.ids.is_ingress = true
  between : ∃ c₀ : HTTP1Connection n, c₀.direction = .DOWNSTREAM ∧ c₀.type = .EGRESS
    ∧ c₀ = c₀.reset true
    ∧ Reached .pico config c₀ c w
  nonempty : d ≠ []
  fits : c.buf.length + d.length ≤ http1BufSize
  parsed : ∃ hdr_size, PicoHttp.phr_parse_request (c.buf ++ d) http1MaxHeaders c.buf.length
    = .ok (r, hdr_size)
  read : ∃ c', c.http_read .pico config d w = .ok (.returned c' w')
  queued : w.Queued rpc w'

/-- What is known of an admitted request: how it was read, why it was not refused, and what its
object carries. -/
structure Passed (c : HTTP1Connection n) (w : HttpWorker n) (d : Bytes)
    (r : PicoHttp.Request) (rpc : Fin n) (w' : HttpWorker n) : Prop where
  /-- The head is all that was read. -/
  parsed : PicoHttp.parse_request http1MaxHeaders (c.buf ++ d) = .ok (r, [])
  no_body : ∃ number, (c.fill d).request_content_length r.headers = .ok number ∧ number < 0
  target : HTTPMessage.parse_service_from_request_target r.path = some w.ingress.ingress_service
  acceptable : c.Acceptable w r
  carries : Carries w r (w'.http rpc)

/-- A read that admits a request has gone through all the checks of the edge: the bytes are the
whole head, no body is announced, the target names the service, and the request was accepted. -/
theorem Admits.accepted {config : HttpConfig} {c : HTTP1Connection n}
    {w w' : HttpWorker n} {d : Bytes} {r : PicoHttp.Request} {rpc : Fin n}
    (h : Admits config c w d r rpc w') (hdirection : c.direction = .DOWNSTREAM) :
    PicoHttp.parse_request http1MaxHeaders (c.buf ++ d) = .ok (r, [])
      ∧ (∃ number, (c.fill d).request_content_length r.headers = .ok number ∧ number < 0)
      ∧ refused_target w r.path = false
      ∧ ∃ c', (c.fill d).accept_request config w r = .ok (c', w') := by
  obtain ⟨hdr_size, hparse⟩ := h.parsed
  obtain ⟨c', hread⟩ := h.read
  rw [http_read_downstream _ config w hdirection h.nonempty h.fits] at hread
  unfold read_request HttpParser.pico at hread
  dsimp only at hread
  rw [show PicoHttp.phr_parse_request (c.fill d).buf http1MaxHeaders (c.fill d).prev_buf_len
    = .ok (r, hdr_size)
    from hparse] at hread
  dsimp only at hread
  obtain ⟨number, hnumber, hread⟩ := bind_eq_ok.mp hread
  -- a request that has come through is none that the edge refuses
  by_cases hbody : 0 ≤ number
  · rw [if_pos hbody, if_pos h.edge] at hread
    cases hread
  rw [if_neg hbody] at hread
  by_cases hrefused : refused_target w r.path = true
  · rw [if_pos ⟨h.edge, hrefused⟩] at hread
    cases hread
  rw [if_neg fun hand => hrefused hand.2] at hread
  by_cases hmore : hdr_size < (c.fill d).buf.length
  · rw [if_pos hmore] at hread
    cases hread
  rw [if_neg hmore, accept_request_buf] at hread
  obtain ⟨⟨c₁, w₁⟩, haccept, hread⟩ := bind_eq_ok.mp hread
  obtain ⟨rfl, rfl⟩ := HttpRead.returned.inj (Except.ok.inj hread)
  refine ⟨?_, ⟨number, hnumber, not_le.mp hbody⟩, Bool.eq_false_iff.mpr hrefused, _, haccept⟩
  obtain ⟨rest, hrequest, hsize⟩ := PicoHttp.phr_parse_request_ok hparse
  have hpos : 0 < (c.buf ++ d).length := by
    rw [List.length_append]
    have := List.length_pos_iff.mpr h.nonempty
    omega
  have hwhole : (c.buf ++ d).length ≤ hdr_size := Nat.le_of_not_lt hmore
  rw [hrequest, List.eq_nil_of_length_eq_zero (show rest.length = 0 by omega)]

/-- An accepted request that joined the queue is carried by the object at its end. -/
theorem accepted_carries {config : HttpConfig} {c c' : HTTP1Connection n} {w w' : HttpWorker n}
    {r : PicoHttp.Request} {rpc : Fin n} (hedge : config.ids.is_ingress = true)
    (hrole : config.is_frontend = false) (htype : c.type = .EGRESS) (hpooled : w.Pooled)
    (haccept : c.accept_request config w r = .ok (c', w')) (hqueued : w.Queued rpc w') :
    Carries w r (w'.http rpc) := by
  rw [accept_request_eq] at haccept
  obtain ⟨⟨rpc', c₂, w₂⟩, hmake, haccept⟩ := bind_eq_ok.mp haccept
  obtain ⟨rfl, -, -, -, -, -, hallocated⟩ := make_rpc_spec hmake
  rw [give_rpc_edge hedge hrole (by exact htype)] at haccept
  obtain ⟨w₃, henqueue, haccept⟩ := bind_eq_ok.mp haccept
  split_ifs at haccept
  obtain ⟨rfl, rfl⟩ := Prod.mk.inj (Except.ok.inj haccept)
  obtain ⟨hroom, hqueue, hlast, -⟩ := hqueued
  rw [← hallocated.ingress] at hroom hqueue hlast
  have hsame : w₂.Queued rpc' w₃ := by
    rcases (HttpWorker.ingress_enqueue_spec henqueue).1 with hqueued' | hdeclined
    · exact hqueued'
    · exact absurd hdeclined.full (Nat.not_le_of_lt hroom)
  -- the object that joined the queue is the one that was allocated
  obtain rfl : rpc' = rpc := by
    have hends := hsame.queue.symm.trans hqueue
    exact List.singleton_injective (List.append_cancel_left hends)
  have hblank : (w.http rpc').req_headers.text = [] := by
    unfold HeaderList.text
    rw [hpooled.blank rpc' (by rw [hallocated.pool]; exact List.mem_cons_self)]
    rfl
  have hheaders : (w₂.http rpc').req_headers.text = requestTexts .EGRESS r.headers := by
    rw [hallocated.headers, hblank, List.nil_append, htype]
  obtain ⟨hmethod, hpath, hminor, hheaders'⟩ := HttpWorker.ingress_enqueue_carries henqueue hsame
    hallocated.method hallocated.path hallocated.minor hheaders
  rw [hallocated.ingress] at hheaders'
  exact ⟨hmethod, hpath, hminor, hheaders'⟩

theorem Admits.passed {config : HttpConfig} {c : HTTP1Connection n}
    {w w' : HttpWorker n} {d : Bytes} {r : PicoHttp.Request} {rpc : Fin n}
    (h : Admits config c w d r rpc w') : Passed c w d r rpc w' := by
  obtain ⟨c₀, hdirection, htype, hclean, hreached⟩ := h.between
  obtain ⟨hdirection', htype', -, hpooled⟩ := reached_keeps hdirection hclean hreached
  obtain ⟨hparsed, hbody, hserved, c', haccept⟩ := h.accepted hdirection'
  have hegress : (c.fill d).type = .EGRESS := htype'.trans htype
  -- a frontend would not have touched the queue
  have hrole : config.is_frontend = false := by
    rw [Bool.eq_false_iff]
    intro hrole
    have hlength := congrArg List.length h.queued.queue
    rw [accept_request_frontend hrole haccept, List.length_append, List.length_singleton] at hlength
    omega
  obtain ⟨hdr_size, hparse⟩ := h.parsed
  have htarget := target_of_served hserved
  have hacceptable : c.Acceptable w r := (fill_acceptable d).mp
    ((accept_request_iff h.edge hrole hegress hpooled (pico_headers_le hparse) htarget).mp
      ⟨_, haccept⟩)
  exact ⟨hparsed, hbody, htarget, hacceptable,
    accepted_carries h.edge hrole hegress hpooled haccept h.queued⟩

end HTTP1Connection

/-! ## What is written -/

/-- The names and values of headers that have names are those of a well-formed head. -/
theorem laid_texts {headers : List PicoHttp.phr_header} {buf : Bytes}
    (hlaid : PicoHttp.Laid headers buf) (hnames : ∀ h ∈ headers, h.name ≠ none) :
    ∀ h ∈ headers, PicoHttp.IsToken (headerName h.name) ∧ PicoHttp.IsValue h.value := by
  induction headers generalizing buf with
  | nil =>
      intro h hmem
      cases hmem
  | cons x headers ih =>
      obtain ⟨hname, _, _, _, _, _, _, hrest⟩ := hlaid
      intro h hmem
      rcases List.mem_cons.mp hmem with rfl | hmem
      · obtain ⟨name, hsome⟩ := Option.ne_none_iff_exists'.mp (hnames h List.mem_cons_self)
        obtain ⟨htoken, hvalue, _⟩ := hname name hsome
        rw [hsome]
        exact ⟨htoken, hvalue⟩
      · exact ih hrest (fun y hy => hnames y (List.mem_cons_of_mem _ hy)) h hmem

/-- They are all of them if no name starts like `rpc-local-id`, the one name that is dropped on
this side. -/
theorem requestTexts_eq_iff (r : PicoHttp.Request) :
    requestTexts .EGRESS r.headers = clientHeaders r
      ↔ ∀ h ∈ r.headers, ¬ RPC_LOCAL_ID <+: headerName h.name := by
  unfold requestTexts clientHeaders
  rw [List.filter_eq_self]
  constructor
  · intro h x hx hprefix
    have hkept := h _ (List.mem_map_of_mem hx)
    exact (of_decide_eq_true hkept) ⟨rfl, hprefix⟩
  · intro h x hx
    obtain ⟨y, hy, rfl⟩ := List.mem_map.mp hx
    exact decide_eq_true fun hdropped => h y hy hdropped.2

theorem requestTexts_ingress (headers : List PicoHttp.phr_header) :
    requestTexts .INGRESS headers = headers.map fun h => (headerName h.name, h.value) := by
  unfold requestTexts
  rw [List.filter_eq_self]
  intro x _
  exact decide_eq_true fun hdropped => ConnectionType.noConfusion hdropped.1

namespace HTTP1Connection

/-- The lines of well-formed headers are printed as they are, since no text of them has a zero
byte. -/
theorem printed_lines {headers : List (Bytes × Bytes)}
    (hheaders : ∀ h ∈ headers, PicoHttp.IsToken h.1 ∧ PicoHttp.IsValue h.2) :
    (headers.map fun h => printed h.1 ++ [58, 32] ++ printed h.2 ++ [13, 10]).flatten
      = headers.flatMap PicoHttp.header_line := by
  rw [List.flatMap_def]
  congr 1
  apply List.map_congr_left
  intro h hmem
  obtain ⟨htoken, hvalue⟩ := hheaders h hmem
  unfold PicoHttp.header_line
  rw [printed_eq (ne_zero_of_token htoken), printed_eq (ne_zero_of_value hvalue)]

/-- **The text of an admitted request** is that of a head with the client's headers and the two of
the sidecar. -/
theorem request_text_eq {w : HttpWorker n} {r : PicoHttp.Request} {m : HTTPMessage}
    (hcarries : Carries w r m) (hmethod : PicoHttp.IsToken r.method)
    (hpath : PicoHttp.IsTarget r.path) (hminor : r.minor < 10)
    (hheaders : ∀ h ∈ requestTexts .EGRESS r.headers, PicoHttp.IsToken h.1 ∧ PicoHttp.IsValue h.2) :
    request_text m
      = PicoHttp.request_text r.method r.path r.minor
        (requestTexts .EGRESS r.headers ++ w.own_headers) := by
  have hid : printed (Ingress.header_value (w.ingress.last_rpc_id + 1).toInt)
      = Decimal.ofInt (w.ingress.last_rpc_id + 1).toInt :=
    printed_header_value (BitVec.le_toInt _)
      (Int.le_sub_one_of_lt (BitVec.toInt_lt (x := w.ingress.last_rpc_id + 1)))
  have hpriority : printed (Ingress.header_value w.ingress.priority.toInt)
      = Decimal.ofInt w.ingress.priority.toInt := by
    have hlow := BitVec.le_toInt w.ingress.priority
    have hhigh := BitVec.toInt_lt (x := w.ingress.priority)
    exact printed_header_value (by omega) (by omega)
  -- `%.*s` stops at the zero behind each text of the sidecar
  have hown : (([(RPC_ID ++ [0], Ingress.header_value (w.ingress.last_rpc_id + 1).toInt),
        (PRIORITY ++ [0], Ingress.header_value w.ingress.priority.toInt)] : List
        (Bytes × Bytes)).map fun h =>
          printed h.1 ++ [58, 32] ++ printed h.2 ++ [13, 10]).flatten
      = w.own_headers.flatMap PicoHttp.header_line := by
    unfold HttpWorker.own_headers PicoHttp.header_line
    simp only [List.map_cons, List.map_nil, hid, hpriority]
    rfl
  unfold request_text PicoHttp.request_text
  rw [hcarries.method, hcarries.path, hcarries.minor, hcarries.headers, ofInt_digit hminor,
    printed_eq (ne_zero_of_token hmethod), printed_eq (ne_zero_of_target hpath),
    List.map_append, List.flatten_append,
    printed_lines hheaders, hown, List.flatMap_append]

/-! ## What is read of it -/

/-- No number is read in a name that starts like `rpc-local-id`; it starts with a letter. -/
theorem scan_rpc_local_id {name : Bytes} (h : RPC_LOCAL_ID <+: name) :
    Decimal.scan name = (false, []) := by
  obtain ⟨rest, rfl⟩ := h
  rfl

/-- Without digits the number is zero, as `strtoul` has it. -/
theorem strtoul_none {s : Bytes} (h : Decimal.scan s = (false, [])) :
    ((Decimal.strtoul s).setWidth 32).toInt = 0 := by
  rw [Decimal.strtoul_congr (s := s) (t := []) h]
  rfl

/-- The last line of a head is a length with an empty value. What the number there is depends on
what an earlier message has left in the array. -/
def EndsOpen (headers : List PicoHttp.phr_header) : Prop :=
  ∃ h, headers.getLast? = some h ∧ CONTENT_LENGTH <+: headerName h.name ∧ h.value = []

theorem EndsOpen.cons {x : PicoHttp.phr_header} {headers : List PicoHttp.phr_header}
    (h : EndsOpen headers) :
    EndsOpen (x :: headers) := by
  obtain ⟨last, hlast, hname, hvalue⟩ := h
  exact ⟨last, by rw [List.getLast?_cons, hlast, Option.getD_some], hname, hvalue⟩

/-- A number that ends with its line, or with a name on the next. -/
theorem header_number_eq {c : HTTP1Connection n} {x : PicoHttp.phr_header}
    {headers : List PicoHttp.phr_header} (hnumbers : PicoHttp.NumbersIn c.stale (x :: headers))
    (hclosed : x.value ≠ [] ∨ headers ≠ []) :
    c.header_number x.value_ptr
      = .ok ((Decimal.strtoul (PicoHttp.number_text c.stale x headers)).setWidth 32).toInt := by
  obtain ⟨hscan, hruns, _⟩ := hnumbers
  unfold header_number
  rw [if_neg fun h => Bool.false_ne_true ((hruns hclosed).symm.trans h.2),
    Decimal.strtoul_congr hscan]

section Lengths

variable {k : ℕ} {c₁ : HTTP1Connection n} {c₂ : HTTP1Connection k}
    {sent received : List PicoHttp.phr_header}
  {id priority : Bytes}

theorem received_ne_nil (htexts : PicoHttp.texts received
    = (requestTexts .EGRESS sent).map (fun h => (some h.1, h.2))
      ++ [(some RPC_ID, id), (some PRIORITY, priority)]) : received ≠ [] := by
  rintro rfl
  exact absurd htexts.symm (List.append_ne_nil_of_right_ne_nil _ (List.cons_ne_nil _ _))

/-- A negative number that is read for a header at the edge is read at the frontend. -/
theorem number_passes {x y : PicoHttp.phr_header} (hnames : ∀ h ∈ sent, h.name ≠ none)
    (hsent : PicoHttp.NumbersIn c₁.stale (x :: sent))
    (hreceived : PicoHttp.NumbersIn c₂.stale (y :: received)) (hvalue : y.value = x.value)
    (htexts : PicoHttp.texts received = (requestTexts .EGRESS sent).map (fun h => (some h.1, h.2))
      ++ [(some RPC_ID, id), (some PRIORITY, priority)])
    (hclosed : x.value ≠ [] ∨ sent ≠ []) {a : ℤ} (ha : c₁.header_number x.value_ptr = .ok a) :
    ∃ b, c₂.header_number y.value_ptr = .ok b ∧ (a < 0 → b < 0) := by
  rw [header_number_eq hsent hclosed] at ha
  obtain rfl := Except.ok.inj ha
  refine ⟨_, header_number_eq hreceived (.inr (received_ne_nil htexts)), ?_⟩
  unfold PicoHttp.number_text
  rw [hvalue]
  by_cases hempty : x.value = []
  · rw [if_pos hempty, if_pos hempty]
    -- so the number is read from the name of the next header, which may be another at the frontend
    intro hnegative
    cases sent with
    | nil =>
        rcases hclosed with hne | hne
        · exact absurd hempty hne
        · exact absurd rfl hne
    | cons x' sent =>
        obtain ⟨name, hname⟩ := Option.ne_none_iff_exists'.mp (hnames x' List.mem_cons_self)
        have hheader : headerName x'.name = name := by rw [hname]; rfl
        rw [List.head?_cons, Option.elim_some, hname, Option.getD_some] at hnegative
        rw [requestTexts_cons, hheader] at htexts
        by_cases hdropped : Dropped .EGRESS name
        · rw [strtoul_none (scan_rpc_local_id hdropped.2)] at hnegative
          exact absurd hnegative (by decide)
        · rw [if_neg hdropped] at htexts
          cases received with
          | nil => cases htexts
          | cons z received =>
              have hz : z.name = some name := (Prod.mk.inj (List.cons.inj htexts).1).1
              rw [List.head?_cons, Option.elim_some, hz, Option.getD_some]
              exact hnegative
  · rw [if_neg hempty, if_neg hempty]
    exact fun hnegative => hnegative

/-- The headers of the sidecar say nothing of a body, as neither of them is named
Content-Length. -/
theorem own_lengths (htexts : PicoHttp.texts received
    = [(some RPC_ID, id), (some PRIORITY, priority)])
    (c : HTTP1Connection k) (b : ℤ) : received.foldlM c.read_length b = .ok b := by
  apply read_length_none
  intro h hmem
  have hown : (h.name, h.value)
      ∈ ([(some RPC_ID, id), (some PRIORITY, priority)] : List (Option Bytes × Bytes)) := by
    have hin := List.mem_map_of_mem (f := fun h : PicoHttp.phr_header => (h.name, h.value)) hmem
    unfold PicoHttp.texts at htexts
    rw [htexts] at hin
    exact hin
  rcases List.mem_cons.mp hown with heq | hown
  · rw [(Prod.mk.inj heq).1]
    decide
  · rw [(Prod.mk.inj (List.mem_singleton.mp hown)).1]
    decide

theorem not_length_of_dropped {name : Bytes} (hdropped : Dropped .EGRESS name) :
    ¬ CONTENT_LENGTH <+: name := fun h =>
  absurd (List.prefix_of_prefix_length_le hdropped.2 h (by decide)) (by decide)

/-- **A body that the edge did not see, the frontend does not see**: where a number is read behind
an empty value, the next name is the same, or is none that is read as a negative number. -/
theorem lengths_pass (hnames : ∀ h ∈ sent, h.name ≠ none) (hsent : PicoHttp.NumbersIn c₁.stale sent)
    (hreceived : PicoHttp.NumbersIn c₂.stale received)
    (htexts : PicoHttp.texts received = (requestTexts .EGRESS sent).map (fun h => (some h.1, h.2))
      ++ [(some RPC_ID, id), (some PRIORITY, priority)])
    (hclosed : ¬ EndsOpen sent) {a b number : ℤ} (hab : a < 0 → b < 0)
    (hnumber : sent.foldlM c₁.read_length a = .ok number) (hnegative : number < 0) :
    ∃ number', received.foldlM c₂.read_length b = .ok number' ∧ number' < 0 := by
  -- over the headers of the client, with what both have read so far
  induction sent generalizing received a b with
  | nil =>
      obtain rfl := Except.ok.inj hnumber
      exact ⟨b, own_lengths htexts c₂ b, hab hnegative⟩
  | cons x sent ih =>
      have hnames' : ∀ h ∈ sent, h.name ≠ none :=
        fun h hmem => hnames h (List.mem_cons_of_mem _ hmem)
      have hclosed' : ¬ EndsOpen sent := fun hopen => hclosed hopen.cons
      rw [List.foldlM_cons] at hnumber
      obtain ⟨a', ha', hnumber⟩ := bind_eq_ok.mp hnumber
      rw [requestTexts_cons] at htexts
      by_cases hdropped : Dropped .EGRESS (headerName x.name)
      · -- a header that is dropped says nothing of a body
        unfold read_length at ha'
        rw [if_neg (not_length_of_dropped hdropped)] at ha'
        obtain rfl := Except.ok.inj ha'
        rw [if_pos hdropped, List.nil_append] at htexts
        exact ih hnames' hsent.2.2 hreceived htexts hclosed' hab hnumber
      rw [if_neg hdropped] at htexts
      cases received with
      | nil => cases htexts
      | cons y received =>
          obtain ⟨hfirst, hrest⟩ := List.cons.inj htexts
          obtain ⟨hname, hvalue⟩ := Prod.mk.inj hfirst
          obtain ⟨b', hb', hab'⟩ : ∃ b', c₂.read_length b y = .ok b' ∧ (a' < 0 → b' < 0) := by
            have hname' : headerName y.name = headerName x.name := by
              rw [show y.name = some (headerName x.name) from hname]
              rfl
            unfold read_length at ha' ⊢
            rw [hname']
            by_cases hlength : CONTENT_LENGTH <+: headerName x.name
            · rw [if_pos hlength] at ha' ⊢
              refine number_passes hnames' hsent hreceived hvalue hrest ?_ ha'
              by_contra hopen
              rw [not_or, not_not, not_not] at hopen
              exact hclosed ⟨x, by rw [hopen.2]; rfl, hlength, hopen.1⟩
            · rw [if_neg hlength] at ha' ⊢
              obtain rfl := Except.ok.inj ha'
              exact ⟨b, rfl, hab⟩
          rw [List.foldlM_cons, hb', ok_bind]
          exact ih hnames' hsent.2.2 hreceived.2.2 hrest hclosed' hab' hnumber

/-- **A length without a number is zero at the frontend**, since the headers of the sidecar stand
behind it there. -/
theorem open_length_seen (hreceived : PicoHttp.NumbersIn c₂.stale received)
    (htexts : PicoHttp.texts received = (requestTexts .EGRESS sent).map (fun h => (some h.1, h.2))
      ++ [(some RPC_ID, id), (some PRIORITY, priority)])
    (hopen : EndsOpen sent) (b : ℤ) : received.foldlM c₂.read_length b = .ok 0 := by
  induction sent generalizing received b with
  | nil =>
      obtain ⟨last, hlast, _⟩ := hopen
      cases hlast
  | cons x sent ih =>
      rw [requestTexts_cons] at htexts
      cases sent with
      | nil =>
          obtain ⟨last, hlast, hlength, hempty⟩ := hopen
          rw [List.getLast?_singleton] at hlast
          obtain rfl := Option.some.inj hlast
          rw [if_neg fun hdropped => not_length_of_dropped hdropped hlength] at htexts
          cases received with
          | nil => cases htexts
          | cons y received =>
              obtain ⟨hfirst, hrest⟩ := List.cons.inj htexts
              obtain ⟨hname, hvalue⟩ := Prod.mk.inj hfirst
              have hown : PicoHttp.texts received
                  = [(some RPC_ID, id), (some PRIORITY, priority)] := hrest
              -- the number is read from "rpc-id"
              have htext : PicoHttp.number_text c₂.stale y received = RPC_ID := by
                unfold PicoHttp.number_text
                rw [if_pos (show y.value = [] from hvalue.trans hempty)]
                cases received with
                | nil => cases hown
                | cons z received =>
                    have hz : z.name = some RPC_ID := (Prod.mk.inj (List.cons.inj hown).1).1
                    rw [List.head?_cons, Option.elim_some, hz, Option.getD_some]
              have hzero : c₂.read_length b y = .ok 0 := by
                unfold read_length
                rw [if_pos
                  (by rw [show y.name = some (headerName x.name) from hname]; exact hlength),
                  header_number_eq hreceived (.inr (received_ne_nil hrest)), htext]
                rfl
              rw [List.foldlM_cons, hzero, ok_bind]
              exact own_lengths hown c₂ 0
      | cons x' sent =>
          have hopen' : EndsOpen (x' :: sent) := by
            obtain ⟨last, hlast, hrest⟩ := hopen
            rw [List.getLast?_cons_cons] at hlast
            exact ⟨last, hlast, hrest⟩
          by_cases hdropped : Dropped .EGRESS (headerName x.name)
          · rw [if_pos hdropped, List.nil_append] at htexts
            exact ih hreceived htexts hopen' b
          · rw [if_neg hdropped] at htexts
            cases received with
            | nil => cases htexts
            | cons y received =>
                obtain ⟨-, hrest⟩ := List.cons.inj htexts
                obtain ⟨b', hb'⟩ : ∃ b', c₂.read_length b y = .ok b' := by
                  unfold read_length
                  split_ifs
                  · exact ⟨_, header_number_eq hreceived (.inr (received_ne_nil hrest))⟩
                  · exact ⟨b, rfl⟩
                rw [List.foldlM_cons, hb', ok_bind]
                exact ih hreceived.2.2 hrest hopen' b'

end Lengths

theorem frontend_buf {c : HTTP1Connection n} {s : HttpCalls n} (hlistening : c.Listening s)
    (text : Bytes) :
    (c.fill text).buf.length = text.length := by
  show (c.buf ++ text).length = _
  rw [show c.buf = [] from congrArg HTTP1Connection.buf hlistening.clean, List.nil_append]

/-- The parser is called with the text alone, since nothing of an earlier request waits in the
buffer. -/
theorem frontend_parse {c : HTTP1Connection n} {s : HttpCalls n} (hlistening : c.Listening s)
    (parser : HttpParser) (text : Bytes) :
    parser.phr_parse_request (c.fill text).buf http1MaxHeaders (c.fill text).prev_buf_len
      = parser.phr_parse_request text http1MaxHeaders 0 := by
  show parser.phr_parse_request (c.buf ++ text) http1MaxHeaders c.buf.length = _
  rw [show c.buf = [] from congrArg HTTP1Connection.buf hlistening.clean,
    List.nil_append, List.length_nil]

theorem frontend_fits {c : HTTP1Connection n} {s : HttpCalls n}
    (hlistening : c.Listening s) {text : Bytes} (hfits : text.length ≤ http1BufSize) :
    c.buf.length + text.length ≤ http1BufSize := by
  rw [show c.buf = [] from congrArg HTTP1Connection.buf hlistening.clean, List.length_nil]
  omega

/-- A request whose text comes in one read, on the sidecar of a frontend. -/
theorem frontend_read_ok {parser : HttpParser} {config : HttpConfig} {c : HTTP1Connection n}
    {w : HttpWorker n} {text : Bytes} {r : PicoHttp.Request} (hfrontend : config.is_frontend = true)
    (hedge : config.ids.is_ingress = false) (hlistening : c.Listening w.toHttpCalls)
    (hne : text ≠ []) (hfits : text.length ≤ http1BufSize)
    (hparse : parser.phr_parse_request text http1MaxHeaders 0 = .ok (r, text.length))
    (hbody : ∃ number, (c.fill text).request_content_length r.headers = .ok number ∧ number < 0)
    (htarget : ∃ service, HTTPMessage.parse_service_from_request_target r.path = some service)
    (hnames : ∀ h ∈ r.headers, h.name ≠ none)
    (hreadable : ∀ h ∈ r.headers, Readable c.type (headerName h.name) h.value)
    (hsize : ∀ h ∈ requestTexts c.type r.headers,
      h.1.length < maxHeaderFieldSize ∧ h.2.length < maxHeaderFieldSize)
    (hcount : (requestTexts c.type r.headers).length ≤ maxHeaderFieldNumber) :
    ∃ rpc w', c.http_read parser config text w
        = .ok (.returned
          (({ c.fill text with last_id := c.last_id + 1 } : HTTP1Connection n).reset false) w')
      ∧ c.Accepted w r rpc w' := by
  obtain ⟨rpc, w', haccept, haccepted⟩ :=
    accept_request_ok text hfrontend hlistening htarget hnames hreadable hsize hcount
  obtain ⟨number, hnumber, hnegative⟩ := hbody
  refine ⟨rpc, w', ?_, haccepted⟩
  -- the checks of `read_request` in their order: the parser, the body, the edge, more data
  rw [http_read_downstream parser config w hlistening.direction hne
    (frontend_fits hlistening hfits)]
  unfold read_request
  rw [frontend_parse hlistening, hparse]
  dsimp only
  rw [hnumber, ok_bind, if_neg (by omega), hedge, if_neg fun h => Bool.false_ne_true h.1,
    if_neg (Nat.not_lt_of_le (frontend_buf hlistening text).le), accept_request_buf, haccept]
  rfl

/-- A request that seems to have a body ends the process of a frontend's sidecar. -/
theorem frontend_read_body {parser : HttpParser} {config : HttpConfig}
    {c : HTTP1Connection n} {w : HttpWorker n} {text : Bytes} {r : PicoHttp.Request}
    {hdr_size : ℕ} (hedge : config.ids.is_ingress = false) (hlistening : c.Listening w.toHttpCalls)
    (hne : text ≠ []) (hfits : text.length ≤ http1BufSize)
    (hparse : parser.phr_parse_request text http1MaxHeaders 0 = .ok (r, hdr_size)) {number : ℤ}
    (hnumber : (c.fill text).request_content_length r.headers = .ok number) (hbody : 0 ≤ number) :
    c.http_read parser config text w = .error .contentLengthInRequest := by
  rw [http_read_downstream parser config w hlistening.direction hne
    (frontend_fits hlistening hfits)]
  unfold read_request
  rw [frontend_parse hlistening, hparse]
  dsimp only
  rw [hnumber, ok_bind, if_pos hbody, hedge, if_neg Bool.false_ne_true]

/-- A text that the parser refuses ends the process of a frontend's sidecar. -/
theorem frontend_read_failed {parser : HttpParser} {config : HttpConfig}
    {c : HTTP1Connection n} {w : HttpWorker n} {text : Bytes}
    (hedge : config.ids.is_ingress = false) (hlistening : c.Listening w.toHttpCalls)
    (hne : text ≠ []) (hfits : text.length ≤ http1BufSize)
    (hparse : parser.phr_parse_request text http1MaxHeaders 0 = .error .failed) :
    c.http_read parser config text w = .error .parseFailed := by
  rw [http_read_downstream parser config w hlistening.direction hne
    (frontend_fits hlistening hfits)]
  unfold read_request
  rw [frontend_parse hlistening, hparse]
  dsimp only
  rw [hedge, if_neg Bool.false_ne_true]

/-- The request `r` was taken off the connection and is queued to be forwarded, and these are its
headers. -/
structure Received (c : HTTP1Connection n) (w : HttpWorker n) (r : PicoHttp.Request)
    (headers : List (Bytes × Bytes)) (rpc : Fin n) (w' : HttpWorker n) : Prop where
  found : w'.rpc_mapper.find_ds (c.type, c.fd, c.last_id + 1) = some rpc
  method : (w'.http rpc).method = r.method
  path : (w'.http rpc).path = r.path
  minor : (w'.http rpc).minor = r.minor
  headers : (w'.http rpc).req_headers.text = headers
  queue : w'.rpc_queue = (w.enqueue c.type .DOWNSTREAM c.fd (c.last_id + 1)).rpc_queue

section Forwarded

variable {k : ℕ} {w w' : HttpWorker n} {c : HTTP1Connection n} {d : Bytes}
    {r : PicoHttp.Request} {rpc : Fin n}

/-- A number of the sidecar itself is a value that can be read and stored. -/
theorem own_number {z : ℤ} (hlow : -2 ^ 63 ≤ z) (hhigh : z ≤ 2 ^ 63 - 1) :
    stoll (Decimal.ofInt z) = .ok z ∧ (Decimal.ofInt z).length < maxHeaderFieldSize := by
  have hread := Decimal.stoll_ofInt hlow hhigh
    (show ∀ c ∈ ([] : Bytes).head?, Decimal.isDigit c = false by simp)
  have hlength := Ingress.length_ofInt_le hlow hhigh
  rw [List.append_nil] at hread
  refine ⟨?_, Nat.lt_of_le_of_lt hlength (by decide)⟩
  unfold stoll
  rw [hread]

theorem rpc_id_token : PicoHttp.IsToken RPC_ID := ⟨by decide, by decide +kernel⟩

theorem priority_token : PicoHttp.IsToken PRIORITY := ⟨by decide, by decide +kernel⟩

/-- The headers of the sidecar: names and values that a head can have, that are read and that are
stored. -/
theorem own_headers_spec (w : HttpWorker n) : ∀ h ∈ w.own_headers,
    (PicoHttp.IsToken h.1 ∧ PicoHttp.IsValue h.2) ∧ Readable .INGRESS h.1 h.2
      ∧ h.1.length < maxHeaderFieldSize ∧ h.2.length < maxHeaderFieldSize := by
  obtain ⟨hid, hidlength⟩ := own_number (BitVec.le_toInt (w.ingress.last_rpc_id + 1))
    (Int.le_sub_one_of_lt (BitVec.toInt_lt (x := w.ingress.last_rpc_id + 1)))
  have hlow := BitVec.le_toInt w.ingress.priority
  have hhigh := BitVec.toInt_lt (x := w.ingress.priority)
  obtain ⟨hpriority, hprioritylength⟩ :=
    own_number (z := w.ingress.priority.toInt) (by omega) (by omega)
  intro h hmem
  rcases List.mem_cons.mp hmem with rfl | hmem
  · refine ⟨⟨rpc_id_token, isValue_ofInt _⟩, ?_, by dsimp only; decide, hidlength⟩
    exact ⟨fun _ => ⟨_, hid⟩, fun h => absurd h (by dsimp only; decide),
      fun h => absurd h (by dsimp only; decide)⟩
  · rw [List.mem_singleton.mp hmem]
    refine ⟨⟨priority_token, isValue_ofInt _⟩, ?_, by dsimp only; decide, hprioritylength⟩
    exact ⟨fun h => absurd h (by dsimp only; decide), fun h => absurd h (by dsimp only; decide),
      fun _ => ⟨_, hpriority⟩⟩

/-- The headers of the client that were kept are of the same kind. -/
theorem kept_headers_spec (hpassed : Passed c w d r rpc w') : ∀ h ∈ requestTexts .EGRESS r.headers,
    (PicoHttp.IsToken h.1 ∧ PicoHttp.IsValue h.2) ∧ Readable .INGRESS h.1 h.2
      ∧ h.1.length < maxHeaderFieldSize ∧ h.2.length < maxHeaderFieldSize := by
  obtain ⟨buf, hlaid⟩ := (PicoHttp.parse_request_ok hpassed.parsed).2.2.2.2
  intro h hmem
  have hsize := hpassed.acceptable.size h hmem
  obtain ⟨hclient, hkept⟩ := List.mem_filter.mp hmem
  obtain ⟨x, hx, rfl⟩ := List.mem_map.mp hclient
  have hreadable := hpassed.acceptable.readable x hx
  refine ⟨laid_texts hlaid hpassed.acceptable.names x hx,
    ⟨hreadable.rpc_id, ?_, hreadable.priority⟩, hsize⟩
  intro hprefix
  exact absurd (show Dropped .EGRESS (headerName x.name) from ⟨rfl, hprefix⟩)
    (of_decide_eq_true hkept)

/-- The lines that are written for an admitted request: what is stored of the client's, and the
sidecar's own. -/
def writtenLines (w : HttpWorker n) (r : PicoHttp.Request) : List (Bytes × Bytes) :=
  requestTexts .EGRESS r.headers ++ w.own_headers

theorem writtenLines_spec (hpassed : Passed c w d r rpc w') : ∀ h ∈ writtenLines w r,
    (PicoHttp.IsToken h.1 ∧ PicoHttp.IsValue h.2) ∧ Readable .INGRESS h.1 h.2
      ∧ h.1.length < maxHeaderFieldSize ∧ h.2.length < maxHeaderFieldSize := by
  intro h hmem
  rcases List.mem_append.mp hmem with hmem | hmem
  · exact kept_headers_spec hpassed h hmem
  · exact own_headers_spec w h hmem

theorem length_writtenLines (w : HttpWorker n) (r : PicoHttp.Request) :
    (writtenLines w r).length = (requestTexts .EGRESS r.headers).length + 2 := List.length_append

/-- The text of an admitted request, in the form that the parser is described by. -/
theorem passed_text (hpassed : Passed c w d r rpc w') :
    request_text (w'.http rpc) = PicoHttp.request_text r.method r.path
      r.minor (writtenLines w r) := by
  obtain ⟨hmethod, hpath, hminor, -, -⟩ := PicoHttp.parse_request_ok hpassed.parsed
  exact request_text_eq hpassed.carries hmethod hpath hminor fun h hmem =>
    (kept_headers_spec hpassed h hmem).1

theorem texts_map {headers : List PicoHttp.phr_header} {lines : List (Bytes × Bytes)}
    (h : PicoHttp.texts headers = lines.map fun h => (some h.1, h.2)) :
    (∀ h ∈ headers, h.name ≠ none) ∧ headers.map (fun h => (headerName h.name, h.value))
      = lines := by
  induction headers generalizing lines with
  | nil =>
      cases lines with
      | nil => exact ⟨by simp, rfl⟩
      | cons line lines => cases h
  | cons x headers ih =>
      -- both lists go on together, since their images do
      cases lines with
      | nil => cases h
      | cons line lines =>
          obtain ⟨hfirst, hrest⟩ := List.cons.inj h
          obtain ⟨hname, hvalue⟩ := Prod.mk.inj hfirst
          obtain ⟨hnames, hmap⟩ := ih hrest
          constructor
          · intro y hy
            rcases List.mem_cons.mp hy with rfl | hy
            · rw [hname]
              exact Option.some_ne_none _
            · exact hnames y hy
          · rw [List.map_cons, hmap, hname, hvalue]
            rfl

theorem passed_text_ne_nil (hpassed : Passed c w d r rpc w') : request_text (w'.http rpc) ≠ [] := by
  rw [passed_text hpassed]
  unfold PicoHttp.request_text
  exact List.append_ne_nil_of_right_ne_nil _ (List.cons_ne_nil _ _)

/-- The parser of the frontend finds the lines that were written, if it has places for them. -/
theorem written_text_parse (hpassed : Passed c w d r rpc w')
    (hcount : (writtenLines w r).length ≤ http1MaxHeaders) :
    ∃ hs, HttpParser.pico.phr_parse_request (request_text (w'.http rpc)) http1MaxHeaders 0
        = .ok (⟨r.method, r.path, r.minor, hs⟩, (request_text (w'.http rpc)).length)
      ∧ (∀ h ∈ hs, h.name ≠ none) ∧ hs.map (fun h => (headerName h.name, h.value))
        = writtenLines w r
      ∧ (∀ behind, PicoHttp.NumbersIn behind hs)
      ∧ PicoHttp.texts hs = (requestTexts .EGRESS r.headers).map (fun h => (some h.1, h.2))
        ++ [(some RPC_ID, Decimal.ofInt (w.ingress.last_rpc_id + 1).toInt),
          (some PRIORITY, Decimal.ofInt w.ingress.priority.toInt)] := by
  obtain ⟨hmethod, hpath, hminor, -, -⟩ := PicoHttp.parse_request_ok hpassed.parsed
  -- the text has the form that the parser reads back, line by line
  obtain ⟨hroom, -⟩ := PicoHttp.parse_request_text hmethod hpath hminor
    (fun h hmem => (writtenLines_spec hpassed h hmem).1) http1MaxHeaders
  rw [← passed_text hpassed] at hroom
  obtain ⟨hs, hparse, htexts⟩ := hroom hcount
  obtain ⟨hnames, hmap⟩ := texts_map htexts
  refine ⟨hs, ?_, hnames, hmap, fun behind => ?_, ?_⟩
  · unfold HttpParser.pico PicoHttp.phr_parse_request
    dsimp only
    rw [if_neg (by simp), hparse]
    rfl
  · obtain ⟨buf, hheaders⟩ := PicoHttp.parse_request_headers hparse
    exact PicoHttp.parse_headers_numbers hheaders hnames behind
  · rw [htexts]
    unfold writtenLines HttpWorker.own_headers
    rw [List.map_append]
    rfl

section Frontend

variable {config : HttpConfig} {c₂ : HTTP1Connection k} {w₂ : HttpWorker k}

/-- **The text of an admitted request, at the frontend**: it is taken if there are places for the
headers that were kept and the two of the sidecar, and those of the client do not end with a length
without a number. -/
theorem written_text_read (hpassed : Passed c w d r rpc w') (hfrontend : config.is_frontend = true)
    (hedge : config.ids.is_ingress = false) (hlistening : c₂.Listening w₂.toHttpCalls)
    (htype : c₂.type = .INGRESS) (hfits : (request_text (w'.http rpc)).length ≤ http1BufSize)
    (hcount : (writtenLines w r).length ≤ http1MaxHeaders) (hclosed : ¬ EndsOpen r.headers) :
    ∃ rpc₂ w₂', c₂.http_read .pico config (request_text (w'.http rpc)) w₂
        = .ok (.returned (({ c₂.fill (request_text (w'.http rpc)) with last_id := c₂.last_id + 1 } :
            HTTP1Connection k).reset false) w₂')
      ∧ Received c₂ w₂ r (writtenLines w r) rpc₂ w₂' := by
  have hlines := writtenLines_spec hpassed
  obtain ⟨hs, hparse, hnames, hmap, hnumbers, htexts⟩ := written_text_parse hpassed hcount
  have hingress : requestTexts .INGRESS hs = writtenLines w r :=
    (requestTexts_ingress hs).trans hmap
  have hmem : ∀ h ∈ hs, (headerName h.name, h.value) ∈ writtenLines w r := by
    intro h hh
    rw [← hmap]
    exact List.mem_map_of_mem hh
  -- the parser has the same lines, so nothing in them is a body to the frontend
  have hbody : ∃ number, (c₂.fill (request_text (w'.http rpc))).request_content_length hs
      = .ok number ∧ number < 0 := by
    obtain ⟨number, hnumber, hnegative⟩ := hpassed.no_body
    obtain ⟨buf, hheaders⟩ := PicoHttp.parse_request_headers hpassed.parsed
    have hsent := PicoHttp.parse_headers_numbers hheaders hpassed.acceptable.names (c.fill d).stale
    refine lengths_pass hpassed.acceptable.names hsent (hnumbers _) htexts
      hclosed (fun _ => ?_) hnumber hnegative
    show c₂.content_length < 0
    rw [show c₂.content_length = -1 from congrArg HTTP1Connection.content_length hlistening.clean]
    decide
  obtain ⟨rpc₂, w₂', hread, haccepted⟩ :=
    frontend_read_ok hfrontend hedge hlistening (passed_text_ne_nil hpassed) hfits
    hparse hbody ⟨_, hpassed.target⟩ hnames
      (fun h hh => by rw [htype]; exact (hlines _ (hmem h hh)).2.1)
    (by rw [htype, hingress]; exact fun h hh => (hlines h hh).2.2)
    (by rw [htype, hingress]; exact hcount.trans (by decide))
  refine ⟨rpc₂, w₂', hread, ?_, haccepted.method, haccepted.path, haccepted.minor,
    ?_, haccepted.queue⟩
  · rw [haccepted.find_ds, Function.update_self]
  · rw [haccepted.headers, htype]
    exact hingress

/-- A length without a number, which only the array of the edge gave one, ends the process. -/
theorem written_text_open (hpassed : Passed c w d r rpc w') (hedge : config.ids.is_ingress = false)
    (hlistening : c₂.Listening w₂.toHttpCalls)
    (hfits : (request_text (w'.http rpc)).length ≤ http1BufSize)
    (hcount : (writtenLines w r).length ≤ http1MaxHeaders) (hopen : EndsOpen r.headers) :
    c₂.http_read .pico config (request_text (w'.http rpc)) w₂ = .error .contentLengthInRequest := by
  obtain ⟨hs, hparse, -, -, hnumbers, htexts⟩ := written_text_parse hpassed hcount
  exact frontend_read_body hedge hlistening (passed_text_ne_nil hpassed) hfits hparse
    (open_length_seen (hnumbers _) htexts hopen _) le_rfl

/-- So do more headers than there are places: the parser refuses the head, and the process ends. -/
theorem written_text_failed (hpassed : Passed c w d r rpc w')
    (hedge : config.ids.is_ingress = false) (hlistening : c₂.Listening w₂.toHttpCalls)
    (hfits : (request_text (w'.http rpc)).length ≤ http1BufSize)
    (hmore : http1MaxHeaders < (writtenLines w r).length) :
    c₂.http_read .pico config (request_text (w'.http rpc)) w₂ = .error .parseFailed := by
  obtain ⟨hmethod, hpath, hminor, -, -⟩ := PicoHttp.parse_request_ok hpassed.parsed
  obtain ⟨-, hfailed⟩ := PicoHttp.parse_request_text hmethod hpath hminor
    (fun h hmem => (writtenLines_spec hpassed h hmem).1) http1MaxHeaders
  rw [← passed_text hpassed] at hfailed
  refine frontend_read_failed hedge hlistening (passed_text_ne_nil hpassed) hfits ?_
  unfold HttpParser.pico PicoHttp.phr_parse_request
  dsimp only
  rw [if_neg (by simp), hfailed hmore]
  rfl

/-- **The text of an admitted request is read back**, as far as the limits of the frontend allow:
as one request whose headers are the lines that were written. -/
theorem written_text_iff (hpassed : Passed c w d r rpc w') (hfrontend : config.is_frontend = true)
    (hedge : config.ids.is_ingress = false) (hlistening : c₂.Listening w₂.toHttpCalls)
    (htype : c₂.type = .INGRESS) (hfits : (request_text (w'.http rpc)).length ≤ http1BufSize)
    (headers : List (Bytes × Bytes)) :
    (∃ rpc₂ w₂', c₂.http_read .pico config (request_text (w'.http rpc)) w₂
          = .ok (.returned (({ c₂.fill (request_text (w'.http rpc)) with
            last_id := c₂.last_id + 1 } : HTTP1Connection k).reset false) w₂')
        ∧ Received c₂ w₂ r headers rpc₂ w₂')
      ↔ (writtenLines w r).length ≤ http1MaxHeaders ∧ ¬ EndsOpen r.headers
        ∧ headers = writtenLines w r := by
  constructor
  · rintro ⟨rpc₂, w₂', hread, hreceived⟩
    have hroom : (writtenLines w r).length ≤ http1MaxHeaders := by
      by_contra hmore
      rw [written_text_failed hpassed hedge hlistening hfits (Nat.lt_of_not_le hmore)] at hread
      cases hread
    have hclosed : ¬ EndsOpen r.headers := by
      intro hopen
      rw [written_text_open hpassed hedge hlistening hfits hroom hopen] at hread
      cases hread
    obtain ⟨rpc₃, w₃, hread', hreceived'⟩ :=
      written_text_read hpassed hfrontend hedge hlistening htype hfits hroom hclosed
    -- both are about the one result of the read, and about the object that is filed there
    obtain ⟨-, rfl⟩ := HttpRead.returned.inj (Except.ok.inj (hread.symm.trans hread'))
    obtain rfl : rpc₂ = rpc₃ := Option.some.inj (hreceived.found.symm.trans hreceived'.found)
    exact ⟨hroom, hclosed, hreceived.headers.symm.trans hreceived'.headers⟩
  · rintro ⟨hroom, hclosed, rfl⟩
    exact written_text_read hpassed hfrontend hedge hlistening htype hfits hroom hclosed

end Frontend

/-- What `http_write` writes for an admitted request is its text, which is shorter than the
buffer. -/
theorem written_text {s : HttpCalls n} (hsame : s.http rpc = w'.http rpc) {size : ℕ}
    {cu cu' : HTTP1Connection n} {text : Bytes} (hmessage : cu.rpc_message = some rpc)
    (hwrite : cu.http_write_request size s = .ok (text, cu')) :
    text = request_text (w'.http rpc) ∧ (request_text (w'.http rpc)).length < size := by
  unfold http_write_request at hwrite
  rw [hmessage] at hwrite
  dsimp only at hwrite
  split_ifs at hwrite with hlong
  have hobject : request_text (s.message rpc) = request_text (w'.http rpc) := by
    rw [← hsame]
    rfl
  rw [hobject] at hwrite hlong
  exact ⟨(Prod.mk.inj (Except.ok.inj hwrite)).1.symm, Nat.lt_of_not_le hlong⟩

/-- **What the edge sends, a frontend reads** as one request with the client's headers in their
order and the two of the sidecar behind them, exactly if the client left places for these two, has
sent no header that the edge drops, and has not ended its head with a length without a number. The
edge lets such a length pass where an earlier request has left a number behind the head that is
negative as an `int`; at the frontend `rpc-id` stands there, and the length is zero. -/
theorem forwarded_read_iff {config : HttpConfig} (hadmits : Admits config c w d r rpc w')
    {s : HttpCalls n} (hsame : s.http rpc = w'.http rpc) {size : ℕ} (hsize : size ≤ http1BufSize)
    {cu cu' : HTTP1Connection n} {text : Bytes} (hmessage : cu.rpc_message = some rpc)
    (hwrite : cu.http_write_request size s = .ok (text, cu')) {config₂ : HttpConfig}
    {c₂ : HTTP1Connection k} {w₂ : HttpWorker k} (hfrontend : config₂.is_frontend = true)
    (hedge : config₂.ids.is_ingress = false) (hlistening : c₂.Listening w₂.toHttpCalls)
    (htype : c₂.type = .INGRESS) :
    (∃ rpc₂ w₂', c₂.http_read .pico config₂ text w₂
          = .ok (.returned
            (({ c₂.fill text with last_id := c₂.last_id + 1 } : HTTP1Connection k).reset false) w₂')
        ∧ Received c₂ w₂ r (clientHeaders r ++ w.own_headers) rpc₂ w₂')
      ↔ r.headers.length + 2 ≤ http1MaxHeaders
        ∧ (∀ h ∈ r.headers, ¬ RPC_LOCAL_ID <+: headerName h.name)
        ∧ ¬ EndsOpen r.headers := by
  obtain ⟨rfl, hlong⟩ := written_text hsame hmessage hwrite
  rw [written_text_iff hadmits.passed hfrontend hedge hlistening htype (hlong.le.trans hsize)]
  have hlength : (clientHeaders r).length = r.headers.length := List.length_map _
  constructor
  · rintro ⟨hroom, hclosed, hheaders⟩
    -- the headers of the client are those that were kept
    have hall : requestTexts .EGRESS r.headers = clientHeaders r :=
      List.append_cancel_right hheaders.symm
    rw [length_writtenLines, hall, hlength] at hroom
    exact ⟨hroom, (requestTexts_eq_iff r).mp hall, hclosed⟩
  · rintro ⟨hcount, hkept, hclosed⟩
    have hall := (requestTexts_eq_iff r).mpr hkept
    have hlines : writtenLines w r = clientHeaders r ++ w.own_headers := by
      unfold writtenLines
      rw [hall]
    refine ⟨?_, hclosed, hlines.symm⟩
    rw [hlines, List.length_append, hlength]
    exact hcount

/-- **What the edge passes on, a frontend reads**: one request, with the headers that the edge does
not keep for itself, in their order, and the two of the sidecar behind them. There must be places
for these two, and the head must not end with a length without a number. -/
theorem kept_headers_read {config : HttpConfig} (hadmits : Admits config c w d r rpc w')
    {s : HttpCalls n} (hsame : s.http rpc = w'.http rpc) {size : ℕ} (hsize : size ≤ http1BufSize)
    {cu cu' : HTTP1Connection n} {text : Bytes} (hmessage : cu.rpc_message = some rpc)
    (hwrite : cu.http_write_request size s = .ok (text, cu')) {config₂ : HttpConfig}
    {c₂ : HTTP1Connection k} {w₂ : HttpWorker k} (hfrontend : config₂.is_frontend = true)
    (hedge : config₂.ids.is_ingress = false) (hlistening : c₂.Listening w₂.toHttpCalls)
    (htype : c₂.type = .INGRESS)
    (hroom : ((clientHeaders r).filter fun h => ¬ RPC_LOCAL_ID <+: h.1).length + 2
      ≤ http1MaxHeaders) (hclosed : ¬ EndsOpen r.headers) :
    ∃ rpc₂ w₂', c₂.http_read .pico config₂ text w₂
        = .ok (.returned
          (({ c₂.fill text with last_id := c₂.last_id + 1 } : HTTP1Connection k).reset false) w₂')
      ∧ Received c₂ w₂ r
        (((clientHeaders r).filter fun h => ¬ RPC_LOCAL_ID <+: h.1) ++ w.own_headers) rpc₂ w₂' := by
  obtain ⟨rfl, hlong⟩ := written_text hsame hmessage hwrite
  have hkept : requestTexts .EGRESS r.headers
      = (clientHeaders r).filter fun h => ¬ RPC_LOCAL_ID <+: h.1 := by
    unfold requestTexts clientHeaders
    refine List.filter_congr fun h _ => decide_eq_decide.mpr (not_congr ?_)
    exact and_iff_right rfl
  rw [← hkept] at hroom ⊢
  refine (written_text_iff hadmits.passed hfrontend hedge hlistening htype
    (hlong.le.trans hsize) _).mpr ⟨?_, hclosed, rfl⟩
  rw [length_writtenLines]
  exact hroom

end Forwarded

/-- A connection of a frontend's sidecar, which waits for a request, for the concrete runs. -/
def frontendConnection : HTTP1Connection 1 := { connection .DOWNSTREAM true with type := .INGRESS }

theorem frontend_listening : frontendConnection.Listening (worker false).toHttpCalls :=
  ⟨rfl, rfl, by decide, by decide, fun _ _ => rfl, by decide +kernel⟩

/-- "GET /s HTTP/1.1" with two headers, "x: y" and "host: e", as a client may send it. -/
def headedHead : Bytes :=
  [71, 69, 84, 32, 47, 115, 32, 72, 84, 84, 80, 47, 49, 46, 49, 13, 10]
    ++ [120, 58, 32, 121, 13, 10]
    ++ [104, 111, 115, 116, 58, 32, 101, 13, 10] ++ [13, 10]

/-- What the parser makes of it, with the text behind each value as the buffer has it. -/
def headedRequest : PicoHttp.Request :=
  ⟨[71, 69, 84], [47, 115], 1,
    [⟨some [120], [121], [121, 13, 10, 104, 111, 115, 116, 58, 32, 101, 13, 10, 13, 10]⟩,
      ⟨some [104, 111, 115, 116], [101], [101, 13, 10, 13, 10]⟩]⟩

/-- A request with two headers comes to a frontend by way of the edge: a concrete run of the
theorem above. -/
theorem forwarded_read_question :
    ∃ (w' : HttpWorker 1) (text : Bytes) (cu cu' : HTTP1Connection 1),
      cu.http_write_request 1000 w'.toHttpCalls = .ok (text, cu')
        ∧ ((∃ rpc₂ w₂', frontendConnection.http_read .pico ⟨⟨false, false⟩, true⟩
          text (worker false)
              = .ok (.returned (({ frontendConnection.fill text with last_id := 2 } :
                HTTP1Connection 1).reset false) w₂')
            ∧ Received frontendConnection (worker false) headedRequest
              (clientHeaders headedRequest ++ edgeWorker.own_headers) rpc₂ w₂')
          ↔ headedRequest.headers.length + 2 ≤ http1MaxHeaders
            ∧ (∀ h ∈ headedRequest.headers, ¬ RPC_LOCAL_ID <+: headerName h.name)
            ∧ ¬ EndsOpen headedRequest.headers) := by
  -- the edge reads the request of the client, and writes it to the frontend
  have hread : ∃ c' w', (connection .DOWNSTREAM true).http_read .pico ⟨⟨true, false⟩, false⟩
      headedHead edgeWorker
        = .ok (.returned c' w')
      ∧ edgeWorker.Queued 0 w'
      ∧ ∃ text cu', ({ connection .UPSTREAM false with rpc_message := some 0 } :
        HTTP1Connection 1).http_write_request 1000 w'.toHttpCalls = .ok (text, cu') :=
    ⟨_, _, rfl, ⟨by decide, rfl, rfl, rfl⟩, _, _, rfl⟩
  obtain ⟨c', w', hread, hqueued, text, cu', hwrite⟩ := hread
  have hadmits : Admits ⟨⟨true, false⟩, false⟩ (connection .DOWNSTREAM true)
      edgeWorker headedHead headedRequest 0 w' :=
    { edge := rfl
      between := ⟨connection .DOWNSTREAM true, rfl, rfl, rfl, .opened edgeWorker edgeWorker_pooled⟩
      nonempty := by decide
      fits := by decide
      parsed := ⟨34, by decide +kernel⟩
      read := ⟨c', hread⟩
      queued := hqueued }
  exact ⟨w', text, _, cu', hwrite,
    forwarded_read_iff hadmits rfl (by decide) rfl hwrite rfl rfl frontend_listening rfl⟩

/-- "GET /s HTTP/1.1" with the headers "rpc-local-id: 5" and "host: e": a client of the edge may
send the first one too. -/
def parentHead : Bytes :=
  [71, 69, 84, 32, 47, 115, 32, 72, 84, 84, 80, 47, 49, 46, 49, 13, 10]
    ++ RPC_LOCAL_ID ++ [58, 32, 53, 13, 10]
    ++ [104, 111, 115, 116, 58, 32, 101, 13, 10] ++ [13, 10]

/-- What the parser makes of it. -/
def parentRequest : PicoHttp.Request :=
  ⟨[71, 69, 84], [47, 115], 1,
    [⟨some RPC_LOCAL_ID, [53], [53, 13, 10, 104, 111, 115, 116, 58, 32, 101, 13, 10, 13, 10]⟩,
      ⟨some [104, 111, 115, 116], [101], [101, 13, 10, 13, 10]⟩]⟩

/-- The edge admits the request and writes it to the frontend. -/
theorem parent_sent : ∃ (w' : HttpWorker 1) (text : Bytes) (cu' : HTTP1Connection 1),
    Admits ⟨⟨true, false⟩, false⟩ (connection .DOWNSTREAM true) edgeWorker parentHead
        parentRequest 0 w'
      ∧ ({ connection .UPSTREAM false with rpc_message := some 0 } :
        HTTP1Connection 1).http_write_request 1000 w'.toHttpCalls = .ok (text, cu') := by
  have hread : ∃ c' w', (connection .DOWNSTREAM true).http_read .pico ⟨⟨true, false⟩, false⟩
      parentHead edgeWorker
        = .ok (.returned c' w')
      ∧ edgeWorker.Queued 0 w'
      ∧ ∃ text cu', ({ connection .UPSTREAM false with rpc_message := some 0 } :
        HTTP1Connection 1).http_write_request 1000 w'.toHttpCalls = .ok (text, cu') :=
    ⟨_, _, rfl, ⟨by decide, rfl, rfl, rfl⟩, _, _, rfl⟩
  obtain ⟨c', w', hread, hqueued, text, cu', hwrite⟩ := hread
  exact ⟨w', text, cu',
    { edge := rfl
      between := ⟨connection .DOWNSTREAM true, rfl, rfl, rfl, .opened edgeWorker edgeWorker_pooled⟩
      nonempty := by decide
      fits := by decide
      parsed := ⟨45, by decide +kernel⟩
      read := ⟨c', hread⟩
      queued := hqueued }, hwrite⟩

/-- The frontend reads it with the header "host", and the two of the edge. -/
theorem kept_headers_read_parent : ∃ (text : Bytes) (rpc₂ : Fin 1) (w₂' : HttpWorker 1),
    frontendConnection.http_read .pico ⟨⟨false, false⟩, true⟩ text (worker false)
        = .ok (.returned (({ frontendConnection.fill text with last_id := 2 } :
          HTTP1Connection 1).reset false) w₂')
      ∧ Received frontendConnection (worker false) parentRequest
        ([([104, 111, 115, 116], [101])] ++ edgeWorker.own_headers) rpc₂ w₂' := by
  obtain ⟨w', text, cu', hadmits, hwrite⟩ := parent_sent
  exact ⟨text, kept_headers_read hadmits rfl (by decide) rfl hwrite rfl rfl frontend_listening rfl
    (by decide) (by rintro ⟨h, hlast, hlength, -⟩; cases hlast; exact absurd hlength (by decide))⟩

/-- **The header "rpc-local-id" is not passed on**, as it has been read at the edge: the request
does not come to the frontend with all the headers of the client. -/
theorem local_id_kept : ∃ (w' : HttpWorker 1) (text : Bytes) (cu' : HTTP1Connection 1),
    Admits ⟨⟨true, false⟩, false⟩ (connection .DOWNSTREAM true) edgeWorker parentHead
        parentRequest 0 w'
      ∧ ({ connection .UPSTREAM false with rpc_message := some 0 } :
        HTTP1Connection 1).http_write_request 1000 w'.toHttpCalls = .ok (text, cu')
      ∧ ¬ ∃ rpc₂ w₂', frontendConnection.http_read .pico ⟨⟨false, false⟩, true⟩ text (worker false)
          = .ok (.returned (({ frontendConnection.fill text with last_id := 2 } :
            HTTP1Connection 1).reset false) w₂')
        ∧ Received frontendConnection (worker false) parentRequest
          (clientHeaders parentRequest ++ edgeWorker.own_headers) rpc₂ w₂' := by
  obtain ⟨w', text, cu', hadmits, hwrite⟩ := parent_sent
  refine ⟨w', text, cu', hadmits, hwrite, fun hread => ?_⟩
  obtain ⟨rfl, hlong⟩ := written_text rfl rfl hwrite
  obtain ⟨-, -, hheaders⟩ := (written_text_iff hadmits.passed rfl rfl frontend_listening rfl
    (hlong.le.trans (by decide)) _).mp hread
  -- four lines would have to be there, and three are
  exact absurd (congrArg List.length hheaders) (by decide)

end HTTP1Connection

end RlpSidecar
