/-
**Responses on their way back** (`connection.cc`, `HTTP1Connection::http_write` and `http_read`).

A response that was read is kept in the object of its request, and written from there on the
connection the request came from, where the sidecar before reads it with the same code. Whether a
response is taken depends on what the parser makes of it and on nothing else, so what one sidecar
takes the next one takes, if it finds the same in the text. It does not always: a status is written
with as many digits as it has, and read with three; and a line that continues the one before has no
name, and is written with an empty one, which no line may have.

`takes_iff` is the first of the two statements, with the conditions in terms of the lengths of the
header texts and of the body. `relayed_read_iff` is the second: what was written is read back as
the same response exactly if its status has three digits and no line continues another; in every
other case the sidecar before fails to parse it, which ends its process.
-/
import RlpSidecar.EdgeForwarding
import RlpSidecar.PicoHttpPieces

set_option autoImplicit false

namespace RlpSidecar

variable {n : ℕ}

/-- " 503 Service Unavailable", with the headers "Content-Type: text/plain" and "Content-Length:
0" -/
def SERVICE_UNAVAILABLE : Bytes :=
  [32, 53, 48, 51, 32, 83, 101, 114, 118, 105, 99, 101, 32, 85, 110, 97,
    118, 97, 105, 108, 97, 98, 108, 101, 13, 10, 67,
    111, 110, 116, 101, 110, 116, 45, 84, 121, 112, 101, 58, 32, 116, 101,
    120, 116, 47, 112, 108, 97, 105, 110, 13, 10, 67,
    111, 110, 116, 101, 110, 116, 45, 76, 101, 110, 103, 116, 104, 58, 32, 48, 13, 10, 13, 10]

namespace HTTP1Connection

/-! ## Writing a response -/

/-- The lines of the headers of a response, each text up to its first zero byte. -/
def response_lines (m : HTTPMessage) : Bytes :=
  (m.res_headers.text.map fun h => printed h.1 ++ [58, 32] ++ printed h.2 ++ [13, 10]).flatten

/-- The text of a response, up to its body: the status line, the headers and the empty line. -/
def response_head (m : HTTPMessage) : Bytes :=
  PicoHttp.VERSION ++ Decimal.ofInt m.minor ++ [32] ++ Decimal.ofInt m.status
    ++ [32] ++ printed m.msg ++ [13, 10]
    ++ response_lines m ++ [13, 10]

/-- The answer to a request that was dropped, with the version of that request. -/
def error_response (m : HTTPMessage) : Bytes :=
  PicoHttp.VERSION ++ Decimal.ofInt m.minor ++ SERVICE_UNAVAILABLE

/-- What `http_write` puts into a buffer of `size` bytes for a response. `vsnprintf` needs a byte
after the text, and the body is copied. -/
def response_text (size : ℕ) (m : HTTPMessage) : Except Abort Bytes :=
  if m.ids.rpc.error then
    if size ≤ (error_response m).length then .error .bufferOverflow else .ok (error_response m)
  else if size ≤ (response_head m).length then .error .bufferOverflow
  else if size - (response_head m).length < m.res_data.offset then .error .bufferOverflow
  else .ok (response_head m ++ m.res_data.content)

/-- `submit_response` and `submit_error_response`, which are the same: the object is noted in the
connection, and written later. -/
def submit_response (c : HTTP1Connection n) (s : HttpCalls n) (rpc : Fin n) :
    Except Abort (HTTP1Connection n) := do
  s.cast_http rpc
  if c.rpc_message ≠ none then .error .messageSet else .ok { c with rpc_message := some rpc }

/-- `http_write` for a response, into a buffer of `size` bytes. The object goes back to the pool. -/
def http_write_response (size held : ℕ) (c : HTTP1Connection n) (s : HttpCalls n) :
    Except Abort (Bytes × HTTP1Connection n × HttpCalls n) :=
  match c.rpc_message with
  | none => .error .messageNotSet
  | some rpc => do
    -- the text is made before the object is cleared
    let text ← response_text size (s.message rpc)
    if c.idle then .error .wrongIdle
    else
      let m ← (s.message rpc).clear
      -- with its response the request is forgotten
      let rpc_mapper ← s.rpc_mapper.remove_rpc c.type rpc held
      .ok (text, { c with rpc_message := none, idle := true },
        { s with rpc_mapper := rpc_mapper, http := Function.update s.http rpc m })

/-! ## What is taken

The loop over the headers, the places for them and the room for the body. -/

/-- A response that `http_read` takes, with the body behind its head: the framing agrees with it,
and every text fits into its array. -/
structure Fitting (r : PicoHttp.Response) (body : Bytes) : Prop where
  framing : ∃ content_length, response_length (-1) r = .ok content_length
    ∧ content_length.toNat = body.length
  count : r.headers.length ≤ maxHeaderFieldNumber
  size : ∀ h ∈ r.headers, (headerName h.1).length < maxHeaderFieldSize
    ∧ h.2.length < maxHeaderFieldSize
  body : body.length ≤ maxPayloadSize

/-- The object has the response: its status line, its headers as they are stored, and its body. -/
structure Holds (m : HTTPMessage) (r : PicoHttp.Response) (body : Bytes) : Prop where
  status : m.status = r.status
  msg : m.msg = r.msg
  minor : m.minor = r.minor
  headers : m.res_headers.text = headerTexts r.headers
  data : m.res_data.content = body

/-- Headers of a response that were added could be: there were places for them, and their texts
were short enough. -/
theorem add_response_headers_spec {config : IdConfig} {headers : List (Option Bytes × Bytes)}
    {m m' : HTTPMessage} (h : add_response_headers config headers m = .ok m') :
    m.res_headers.count + headers.length ≤ max m.res_headers.count maxHeaderFieldNumber
      ∧ ∀ x ∈ headers, (headerName x.1).length < maxHeaderFieldSize
      ∧ x.2.length < maxHeaderFieldSize := by
  -- On the headers still to store; each one that is stored had room.
  induction headers generalizing m with
  | nil => exact ⟨le_max_left _ _, by simp⟩
  | cons x headers ih =>
      unfold add_response_headers at h ih
      rw [List.foldlM_cons] at h
      obtain ⟨m₁, hfirst, h⟩ := bind_eq_ok.mp h
      obtain ⟨⟨m₂, counter⟩, hadd, hfirst⟩ := bind_eq_ok.mp hfirst
      obtain rfl := Except.ok.inj hfirst
      unfold HTTPMessage.add_header_field at hadd
      rw [if_neg Bool.false_ne_true, if_neg Bool.false_ne_true] at hadd
      obtain ⟨res_headers, hstored, heq⟩ := bind_eq_ok.mp hadd
      obtain ⟨rfl, _⟩ := Prod.mk.inj (Except.ok.inj heq)
      obtain ⟨_, hcount, hroom⟩ := HeaderList.add_text hstored
      obtain ⟨hrest, hsizes⟩ := ih h
      dsimp only at hrest
      rw [List.length_cons]
      refine ⟨by omega, fun y hy => ?_⟩
      rcases List.mem_cons.mp hy with rfl | hy
      · exact HeaderList.add_terminated hstored
      · exact hsizes y hy

/-- The body is what is behind the head, if the length says so. -/
theorem store_body_eq {c : HTTP1Connection n} {s : HttpCalls n} {rpc : Fin n} {head body : Bytes}
    (hbuf : c.buf = head ++ body) (hsize : c.hdr_size = head.length)
    (hlength : c.content_length.toNat = body.length)
    (hrpc : s.rpc_mapper.get_us_rpc c.type c.last_id c.fd = .ok rpc)
    (hhttp : (s.rpc_mapper.heap rpc).http = .HTTP1) :
    c.store_body s = if body = [] then .ok s else (do
      let m ← (s.message rpc).add_data body false
      .ok (s.set_message rpc m)) := by
  have hpos : 0 < c.content_length ↔ body ≠ [] := by
    rw [← List.length_pos_iff]
    omega
  unfold store_body
  by_cases hbody : body = []
  · rw [if_neg fun h => hpos.mp h hbody, if_pos hbody]
  · have htake : (c.buf.drop c.hdr_size.toNat).take c.content_length.toNat = body := by
      rw [hsize, hlength, Int.toNat_natCast, hbuf, List.drop_left, List.take_length]
    unfold HttpCalls.cast_http
    rw [if_pos (hpos.mpr hbody), if_neg hbody, hrpc, ok_bind, if_pos hhttp, htake]
    rfl

/-- **The end of a response** is reached exactly if what is behind the head is as long as the head
says. -/
theorem read_body_reset {c c' : HTTP1Connection n} {s s' : HttpCalls n} {head body : Bytes}
    (hbuf : c.buf = head ++ body) (hsize : c.hdr_size = head.length)
    (hcomplete : c.hdr_complete = true) (hidle : c.idle = false) :
    c.read_body s = .ok (c', s') ∧ c'.hdr_complete = false
      ↔ c.content_length.toNat = body.length ∧ c' = c.reset true
        ∧ ∃ s₁, c.store_body s = .ok s₁ ∧ s' = s₁.enqueue c.type c.direction c.fd c.last_id := by
  have hlength : (c.buf.length : ℤ) = c.hdr_size + body.length := by
    rw [hbuf, hsize, List.length_append]
    push_cast
    rfl
  unfold read_body
  rw [hlength, hidle]
  by_cases hshort : c.hdr_size + (body.length : ℤ) - c.hdr_size < c.content_length
  · -- more of the body is to come
    rw [if_pos hshort]
    constructor
    · rintro ⟨hok, hreset⟩
      obtain ⟨rfl, _⟩ := Prod.mk.inj (Except.ok.inj hok)
      rw [hcomplete] at hreset
      cases hreset
    · rintro ⟨hexact, _⟩
      omega
  rw [if_neg hshort]
  constructor
  · rintro ⟨hok, _⟩
    obtain ⟨s₁, hstore, hok⟩ := bind_eq_ok.mp hok
    dsimp only at hok
    by_cases hmore : c.hdr_size + (if 0 < c.content_length then c.content_length else 0)
      < c.hdr_size + (body.length : ℤ)
    · rw [if_pos hmore] at hok
      cases hok
    rw [if_neg hmore, if_neg Bool.false_ne_true] at hok
    obtain ⟨rfl, rfl⟩ := Prod.mk.inj (Except.ok.inj hok)
    refine ⟨?_, rfl, s₁, hstore, rfl⟩
    split_ifs at hmore <;> omega
  · rintro ⟨hexact, rfl, s₁, hstore, rfl⟩
    rw [hstore, ok_bind]
    dsimp only
    rw [if_neg (by split_ifs <;> omega), if_neg Bool.false_ne_true]
    exact ⟨rfl, rfl⟩

/-! ## One read of a response -/

/-- A read that takes a whole response: the parser finds `r` in the text, and `body` behind it. -/
structure Takes (config : HttpConfig) (c : HTTP1Connection n) (w : HttpWorker n)
    (rpc : Fin n) (text : Bytes) (r : PicoHttp.Response) (body : Bytes)
    (w' : HttpWorker n) : Prop where
  awaits : c.Awaits w.toHttpCalls rpc
  nonempty : text ≠ []
  fits : text.length ≤ http1BufSize
  parsed : PicoHttp.parse_response http1MaxHeaders text = .ok (r, body)
  read : c.http_read .pico config text w = .ok (.returned ((c.fill text).reset true) w')

/-- The connection once the head of a response is known, with its size and the length of the
body. -/
def headRead (c : HTTP1Connection n) (text : Bytes) (hdr_size : ℕ) (content_length : ℤ) :
    HTTP1Connection n :=
  { c.fill text with hdr_size := hdr_size, content_length := content_length, hdr_complete := true }

section Read

variable {config : HttpConfig} {c : HTTP1Connection n} {w w' : HttpWorker n}
    {rpc : Fin n} {text body : Bytes}
  {r : PicoHttp.Response}

/-- The parser is called with the text alone, since the connection has read nothing before it. -/
theorem awaits_parse {s : HttpCalls n} (hawaits : c.Awaits s rpc) {parser : HttpParser} :
    parser.phr_parse_response (c.fill text).buf http1MaxHeaders (c.fill text).prev_buf_len
      = parser.phr_parse_response text http1MaxHeaders 0 := by
  show parser.phr_parse_response (c.buf ++ text) http1MaxHeaders c.buf.length = _
  rw [show c.buf = [] from congrArg HTTP1Connection.buf hawaits.clean,
    List.nil_append, List.length_nil]

/-- The steps of a read that finds the end of a head. -/
theorem http_read_response (hawaits : c.Awaits w.toHttpCalls rpc) (hne : text ≠ [])
    (hfits : text.length ≤ http1BufSize)
    (hparse : PicoHttp.parse_response http1MaxHeaders text = .ok (r, body)) :
    c.http_read .pico config text w = (do
      let content_length ← response_length (-1) r
      let m ← add_response_headers config.ids r.headers (w.message rpc)
      let (c, s) ← (c.headRead text (text.length - body.length) content_length).read_body
        (w.set_message rpc { m with status := r.status, msg := r.msg, minor := r.minor })
      .ok (.returned c { w with toHttpCalls := s })) := by
  have hbuf : c.buf = [] := congrArg HTTP1Connection.buf hawaits.clean
  have hcomplete : c.hdr_complete = false := congrArg HTTP1Connection.hdr_complete hawaits.clean
  have hcontent : c.content_length = -1 := congrArg HTTP1Connection.content_length hawaits.clean
  -- The whole head is there at the first read, so the parser is asked with nothing before it.
  have hphr : HttpParser.pico.phr_parse_response text http1MaxHeaders 0
      = .ok (r, text.length - body.length) := by
    unfold HttpParser.pico PicoHttp.phr_parse_response
    dsimp only
    rw [if_neg (by simp), hparse]
    rfl
  rw [http_read_upstream .pico config w hawaits.direction hne
    (by rw [hbuf, List.length_nil]; omega)]
  unfold read_response headRead HttpCalls.cast_http
  rw [awaits_parse hawaits, show (c.fill text).hdr_complete = false from hcomplete,
    if_neg Bool.false_ne_true, hphr]
  dsimp only
  rw [show (c.fill text).content_length = -1 from hcontent,
    show w.rpc_mapper.get_us_rpc (c.fill text).type (c.fill text).last_id (c.fill text).fd = .ok rpc
      from hawaits.registered]
  cases response_length (-1) r with
  | error e => rfl
  | ok content_length =>
      simp only [ok_bind]
      rw [if_pos hawaits.http]
      simp only [ok_bind]
      cases add_response_headers config.ids r.headers (w.message rpc) with
      | error e => rfl
      | ok m => rfl

/-- What follows the head of a response is the end of its text. -/
theorem parsed_split (hparse : PicoHttp.parse_response http1MaxHeaders text = .ok (r, body)) :
    ∃ head, text = head ++ body ∧ head.length = text.length - body.length := by
  obtain ⟨eol₁, eol₂, _, _, front, rfl, _⟩ := PicoHttp.parse_response_ends hparse
  refine ⟨front ++ (eol₁ ++ eol₂), by simp, ?_⟩
  simp only [List.length_append]
  omega

/-- The object with the head of a response, but without any of its body. -/
def withHead (w : HttpWorker n) (rpc : Fin n) (r : PicoHttp.Response)
    (res_headers : HeaderList) : HTTPMessage :=
  { w.message rpc with res_headers := res_headers, status := r.status,
                       msg := r.msg, minor := r.minor }

/-- The registry does not change with the head; the object of the request does. -/
theorem set_head (w : HttpWorker n) (rpc : Fin n) (r : PicoHttp.Response)
    (res_headers : HeaderList) :
    w.set_message rpc (withHead w rpc r res_headers)
      = { w.toHttpCalls with http := Function.update w.http rpc (withHead w rpc r res_headers) } :=
  set_message_same w.toHttpCalls rfl

/-- The steps of a read that takes a response: its head is stored, and then its body. -/
structure Stored (config : HttpConfig) (c : HTTP1Connection n) (w : HttpWorker n)
    (rpc : Fin n) (r : PicoHttp.Response) (body : Bytes) (res_headers : HeaderList)
    (s : HttpCalls n) (w' : HttpWorker n) : Prop where
  added : add_response_headers config.ids r.headers (w.message rpc)
    = .ok { w.message rpc with res_headers := res_headers }
  text : res_headers.text = headerTexts r.headers
  body : (if body = [] then .ok (w.set_message rpc (withHead w rpc r res_headers)) else (do
      let m ← ((w.set_message rpc (withHead w rpc r res_headers)).message rpc).add_data body false
      .ok ((w.set_message rpc (withHead w rpc r res_headers)).set_message rpc m))) = .ok s
  queued : w' = { w with toHttpCalls := s.enqueue c.type c.direction c.fd c.last_id }

theorem blank_text (hawaits : c.Awaits w.toHttpCalls rpc) : (w.http rpc).res_headers.text = [] := by
  unfold HeaderList.text
  rw [hawaits.no_headers]
  rfl

/-- **A response is taken** exactly if its length is that of the body and it can be stored. -/
theorem takes_stored_iff (hawaits : c.Awaits w.toHttpCalls rpc) (hne : text ≠ [])
    (hfits : text.length ≤ http1BufSize)
    (hparse : PicoHttp.parse_response http1MaxHeaders text = .ok (r, body)) :
    c.Takes config w rpc text r body w'
      ↔ (∃ content_length, response_length (-1) r = .ok content_length
        ∧ content_length.toNat = body.length)
        ∧ ∃ res_headers s, Stored config c w rpc r body res_headers s w' := by
  obtain ⟨head, rfl, hhead⟩ := parsed_split hparse
  have hidle : c.idle = false := congrArg HTTP1Connection.idle hawaits.clean
  have hbuf : c.buf ++ (head ++ body) = head ++ body := by
    rw [show c.buf = [] from congrArg HTTP1Connection.buf hawaits.clean, List.nil_append]
  have hsize (content_length : ℤ) :
      (c.headRead (head ++ body) ((head ++ body).length - body.length) content_length).hdr_size
        = head.length := by
    rw [hhead]
    rfl
  have hread := @http_read_response _ config _ _ _ _ _ _ hawaits hne hfits hparse
  -- the connection is as new afterwards exactly if the body ended with the text
  have hreset (content_length : ℤ) (s s' : HttpCalls n) :
      (c.headRead (head ++ body) ((head ++ body).length - body.length) content_length).read_body s
          = .ok ((c.fill (head ++ body)).reset true, s')
        ↔ content_length.toNat = body.length ∧ ∃ s₁,
          (c.headRead (head ++ body) ((head ++ body).length - body.length)
            content_length).store_body s = .ok s₁
            ∧ s' = s₁.enqueue c.type c.direction c.fd c.last_id := by
    have hiff := @read_body_reset _ _ ((c.fill (head ++ body)).reset true)
      s s' head body hbuf (hsize content_length)
      rfl hidle
    constructor
    · intro hok
      obtain ⟨hexact, -, hs⟩ := hiff.mp ⟨hok, rfl⟩
      exact ⟨hexact, hs⟩
    · rintro ⟨hexact, hs⟩
      exact (hiff.mpr ⟨hexact, rfl, hs⟩).1
  have hstore {content_length : ℤ} (hlength : content_length.toNat = body.length)
      (res_headers : HeaderList) :=
    @store_body_eq _
      (c.headRead (head ++ body) ((head ++ body).length - body.length) content_length)
      (w.set_message rpc (withHead w rpc r res_headers)) rpc head body
        hbuf (hsize content_length) hlength
      (by rw [set_head]; exact hawaits.registered) (by rw [set_head]; exact hawaits.http)
  constructor
  · rintro ⟨_, _, _, _, htaken⟩
    rw [hread] at htaken
    obtain ⟨content_length, hlength, htaken⟩ := bind_eq_ok.mp htaken
    obtain ⟨m, hadd, htaken⟩ := bind_eq_ok.mp htaken
    obtain ⟨⟨c', s'⟩, hbody, htaken⟩ := bind_eq_ok.mp htaken
    obtain ⟨rfl, rfl⟩ := HttpRead.returned.inj (Except.ok.inj htaken)
    obtain ⟨hcount, hsizes⟩ := add_response_headers_spec hadd
    have hblank : (w.message rpc).res_headers.count = 0 := hawaits.no_headers
    obtain ⟨res_headers, hadd', htext⟩ := add_response_headers_ok config.ids
      (show (w.message rpc).res_headers.count + r.headers.length ≤ maxHeaderFieldNumber by
        rw [hblank, Nat.zero_max] at hcount
        omega) hsizes
    -- the headers are those `add_response_headers` makes of an object without any
    obtain rfl := Except.ok.inj (hadd.symm.trans hadd')
    obtain ⟨hexact, s₁, hs₁, rfl⟩ := (hreset content_length _ s').mp hbody
    refine ⟨⟨content_length, hlength, hexact⟩, res_headers, s₁, hadd', ?_, ?_, rfl⟩
    · rw [htext]
      exact congrArg (· ++ headerTexts r.headers) (blank_text hawaits)
    · rw [← hstore hexact res_headers]
      exact hs₁
  · rintro ⟨⟨content_length, hlength, hexact⟩, res_headers, s, hadd, htext, hs, rfl⟩
    refine ⟨hawaits, hne, hfits, hparse, ?_⟩
    rw [← hstore hexact res_headers] at hs
    rw [hread, hlength, ok_bind, hadd, ok_bind]
    exact bind_eq_ok.mpr ⟨_, (hreset content_length _ _).mpr ⟨hexact, s, hs, rfl⟩, rfl⟩

/-- The payload of the object is still that of the request's, which has none. -/
theorem blank_data (hawaits : c.Awaits w.toHttpCalls rpc) (res_headers : HeaderList) :
    ((w.set_message rpc (withHead w rpc r res_headers)).message rpc).res_data.content = [] := by
  apply List.eq_nil_of_length_eq_zero
  rw [DataReadStruct.length_content, set_head]
  unfold HttpCalls.message
  dsimp only
  rw [Function.update_self]
  exact hawaits.no_data

/-- **What is stored** is the response, and its body is not longer than a body may be. -/
theorem Stored.holds {res_headers : HeaderList} {s : HttpCalls n}
    (hawaits : c.Awaits w.toHttpCalls rpc) (h : Stored config c w rpc r body res_headers s w') :
    Holds (w'.http rpc) r body ∧ body.length ≤ maxPayloadSize := by
  obtain ⟨-, htext, hbody, rfl⟩ := h
  have hblank := blank_data (r := r) hawaits res_headers
  have hself := Function.update_self (β := fun _ => HTTPMessage) rpc
    (withHead w rpc r res_headers) w.http
  by_cases hnil : body = []
  · rw [if_pos hnil] at hbody
    obtain rfl := Except.ok.inj hbody
    rw [set_head] at hblank ⊢
    unfold HttpCalls.message at hblank
    dsimp only [HttpCalls.enqueue, HttpCalls.http_set_queue] at hblank ⊢
    rw [hself] at hblank ⊢
    exact ⟨⟨rfl, rfl, rfl, htext, hblank.trans hnil.symm⟩, by rw [hnil]; exact Nat.zero_le _⟩
  · -- the body is all that is in the payload, so it is within its limit
    rw [if_neg hnil] at hbody
    obtain ⟨m, hadd, hbody⟩ := bind_eq_ok.mp hbody
    obtain rfl := Except.ok.inj hbody
    unfold HTTPMessage.add_data at hadd
    rw [if_neg Bool.false_ne_true] at hadd
    obtain ⟨res_data, hdata, hm⟩ := bind_eq_ok.mp hadd
    obtain rfl := Except.ok.inj hm
    have hcontent := (DataReadStruct.add_content hdata).1
    rw [hblank, List.nil_append] at hcontent
    have hle : body.length ≤ maxPayloadSize := by
      rw [← hcontent, DataReadStruct.length_content]
      exact res_data.offset_le
    unfold HttpCalls.enqueue HttpCalls.set_queue HttpCalls.set_message HttpCalls.message
    dsimp only
    rw [Function.update_self, hself]
    exact ⟨⟨rfl, rfl, rfl, htext, hcontent⟩, hle⟩

/-- **A response is taken** exactly if it fits, for a head that the parser accepts. -/
theorem takes_iff (hawaits : c.Awaits w.toHttpCalls rpc) (hne : text ≠ [])
    (hfits : text.length ≤ http1BufSize)
    (hparse : PicoHttp.parse_response http1MaxHeaders text = .ok (r, body)) :
    (∃ w', c.Takes config w rpc text r body w') ↔ Fitting r body := by
  have hblank : (w.message rpc).res_headers.count = 0 := hawaits.no_headers
  simp only [takes_stored_iff hawaits hne hfits hparse]
  constructor
  · rintro ⟨w', hframing, res_headers, s, hstored⟩
    obtain ⟨hcount, hsizes⟩ := add_response_headers_spec hstored.added
    rw [hblank, Nat.zero_max] at hcount
    exact ⟨hframing, by omega, hsizes, (hstored.holds hawaits).2⟩
  · rintro ⟨hframing, hcount, hsizes, hbody⟩
    obtain ⟨res_headers, hadd, htext⟩ := add_response_headers_ok config.ids
      (show (w.message rpc).res_headers.count + r.headers.length
        ≤ maxHeaderFieldNumber by omega) hsizes
    rw [show (w.message rpc).res_headers.text = [] from blank_text hawaits,
      List.nil_append] at htext
    have hdata := blank_data (r := r) hawaits res_headers
    -- An empty body is not stored at all.
    by_cases hnil : body = []
    · exact ⟨_, hframing, res_headers, _, hadd, htext, if_pos hnil, rfl⟩
    · obtain ⟨res_data, hres_data⟩ :
          ∃ res_data, ((w.set_message rpc (withHead w rpc r res_headers)).message rpc).res_data.add
            body = .ok res_data := by
        apply DataReadStruct.add_exists
        rw [hdata, List.length_nil, Nat.zero_add]
        exact hbody
      have hadd_data : ((w.set_message rpc (withHead w rpc r res_headers)).message rpc).add_data
          body false
          = .ok { (w.set_message rpc (withHead w rpc r res_headers)).message rpc with
              res_data := res_data } := by
        unfold HTTPMessage.add_data
        rw [if_neg Bool.false_ne_true, hres_data]
        rfl
      exact ⟨_, hframing, res_headers, _, hadd, htext,
        (if_neg hnil).trans (bind_eq_ok.mpr ⟨_, hadd_data, rfl⟩), rfl⟩

theorem Takes.fitting (h : c.Takes config w rpc text r body w') : Fitting r body :=
  (takes_iff h.awaits h.nonempty h.fits h.parsed).mp ⟨w', h⟩

/-- What was taken is in the object, as it was sent. -/
theorem Takes.holds (h : c.Takes config w rpc text r body w') : Holds (w'.http rpc) r body := by
  obtain ⟨-, _, _, hstored⟩ := (takes_stored_iff h.awaits h.nonempty h.fits h.parsed).mp h
  exact (hstored.holds h.awaits).1

/-- A head that is refused ends the process, since this connection is one to a server. -/
theorem http_read_failed (hawaits : c.Awaits w.toHttpCalls rpc) (hne : text ≠ [])
    (hfits : text.length ≤ http1BufSize)
    (hparse : PicoHttp.parse_response http1MaxHeaders text = .error .failed) :
    c.http_read .pico config text w = .error .parseFailed := by
  have hbuf : c.buf = [] := congrArg HTTP1Connection.buf hawaits.clean
  have hcomplete : c.hdr_complete = false := congrArg HTTP1Connection.hdr_complete hawaits.clean
  have hphr : HttpParser.pico.phr_parse_response text http1MaxHeaders 0 = .error .failed := by
    unfold HttpParser.pico PicoHttp.phr_parse_response
    dsimp only
    rw [if_neg (by simp), hparse]
    rfl
  rw [http_read_upstream .pico config w hawaits.direction hne
    (by rw [hbuf, List.length_nil]; omega)]
  unfold read_response
  rw [awaits_parse hawaits, show (c.fill text).hdr_complete = false from hcomplete,
    if_neg Bool.false_ne_true, hphr]
  rfl

end Read

end HTTP1Connection

/-! ## What is written of it -/

/-- A header that has a name is that of a well-formed line. -/
theorem laid_named {headers : List PicoHttp.phr_header} {buf : Bytes}
    (hlaid : PicoHttp.Laid headers buf) :
    ∀ h ∈ PicoHttp.texts headers, h.1 ≠ none → PicoHttp.IsToken (headerName h.1)
      ∧ PicoHttp.IsValue h.2 := by
  induction headers generalizing buf with
  | nil =>
      intro h hmem
      cases hmem
  | cons x headers ih =>
      obtain ⟨hname, _, _, _, _, _, _, hrest⟩ := hlaid
      intro h hmem hsome
      rcases List.mem_cons.mp hmem with rfl | hmem
      · obtain ⟨name, heq⟩ := Option.ne_none_iff_exists'.mp hsome
        obtain ⟨htoken, hvalue, _⟩ := hname name heq
        dsimp only
        rw [show x.name = some name from heq]
        exact ⟨htoken, hvalue⟩
      · exact ih hrest h hmem hsome

/-- The first line without a name, if there is one, and the lines before it, which have names. -/
theorem exists_folded {headers : List (Option Bytes × Bytes)} (h : ¬ ∀ x ∈ headers, x.1 ≠ none) :
    ∃ before value after, headers = before ++ (none, value) :: after
      ∧ ∀ x ∈ before, x.1 ≠ none := by
  induction headers with
  | nil => exact absurd (by simp) h
  | cons x headers ih =>
      obtain ⟨name, value⟩ := x
      cases name with
      | none => exact ⟨[], value, headers, rfl, by simp⟩
      | some name =>
          have hrest : ¬ ∀ x ∈ headers, x.1 ≠ none := by
            intro hall
            apply h
            intro y hy
            rcases List.mem_cons.mp hy with rfl | hy
            · exact Option.some_ne_none name
            · exact hall y hy
          obtain ⟨before, value', after, rfl, hbefore⟩ := ih hrest
          refine ⟨(some name, value) :: before, value', after, rfl, fun y hy => ?_⟩
          rcases List.mem_cons.mp hy with rfl | hy
          · exact Option.some_ne_none name
          · exact hbefore y hy

/-- Headers with names are what is stored of them, so nothing is lost by storing. -/
theorem headerTexts_named {headers : List (Option Bytes × Bytes)} (h : ∀ x ∈ headers, x.1 ≠ none) :
    (headerTexts headers).map (fun h => (some h.1, h.2)) = headers := by
  unfold headerTexts
  rw [List.map_map]
  refine (List.map_congr_left fun x hx => ?_).trans (List.map_id headers)
  obtain ⟨name, hname⟩ := Option.ne_none_iff_exists'.mp (h x hx)
  obtain ⟨name', value⟩ := x
  dsimp only at hname
  subst hname
  rfl

namespace HTTP1Connection

/-- The head of a response that was read, with its lines left as they are. -/
theorem response_head_eq {m : HTTPMessage} {r : PicoHttp.Response} {body rest : Bytes}
    (hholds : Holds m r body) (hminor : r.minor < 10) (hmsg : PicoHttp.IsReason r.msg) :
    response_head m ++ rest
      = PicoHttp.VERSION ++ Decimal.digit r.minor :: 32 :: (Decimal.ofNat r.status ++ 32
          :: (r.msg ++ 13 :: 10 :: (response_lines m ++ ([13, 10] ++ rest)))) := by
  have hreason : ∀ c ∈ r.msg, c ≠ 0 := by
    rintro c hc rfl
    cases hmsg.1 0 hc
  have hstatus : Decimal.ofInt m.status = Decimal.ofNat r.status := by
    rw [hholds.status]
    unfold Decimal.ofInt
    rw [if_neg (by omega), Int.natAbs_natCast]
  unfold response_head
  rw [hstatus, hholds.msg, printed_eq hreason, hholds.minor, ofInt_digit hminor]
  simp

/-- **The text of a response, at the next sidecar**: the parser finds the same in it, or refuses
it. -/
theorem response_head_parsed {m : HTTPMessage} {r : PicoHttp.Response}
    {text body : Bytes} (hholds : Holds m r body)
    (hparse : PicoHttp.parse_response http1MaxHeaders text = .ok (r, body)) :
    PicoHttp.parse_response http1MaxHeaders (response_head m ++ body)
      = if 100 ≤ r.status ∧ ∀ h ∈ r.headers, h.1 ≠ none then .ok (r, body) else .error .failed := by
  obtain ⟨hminor, hstatus, hmsg, hcount, hs, buf, heq, hlaid⟩ := PicoHttp.parse_response_ok hparse
  have hnamed := laid_named hlaid
  rw [← heq] at hnamed
  rw [response_head_eq hholds hminor hmsg, PicoHttp.parse_status_line hminor hstatus hmsg]
  -- a status below 100 is printed with fewer than three digits
  by_cases hlow : r.status < 100
  · rw [if_pos hlow, if_neg fun h => by omega]
  rw [if_neg hlow]
  unfold response_lines
  rw [hholds.headers]
  by_cases hnames : ∀ h ∈ r.headers, h.1 ≠ none
  · have hlines : ∀ h ∈ headerTexts r.headers, PicoHttp.IsToken h.1 ∧ PicoHttp.IsValue h.2 := by
      intro h hmem
      obtain ⟨x, hx, rfl⟩ := List.mem_map.mp hmem
      exact hnamed x hx (hnames x hx)
    have hroom : (headerTexts r.headers).length ≤ http1MaxHeaders := by
      unfold headerTexts
      rw [List.length_map]
      exact hcount
    obtain ⟨hs', hparse', htexts⟩ :=
      (PicoHttp.parse_headers_lines hlines http1MaxHeaders true body).1 hroom
    rw [headerTexts_named hnames] at htexts
    unfold PicoHttp.texts at htexts
    rw [if_pos ⟨by omega, hnames⟩, printed_lines hlines, hparse', PicoHttp.ok_then]
    dsimp only
    rw [htexts]
  · obtain ⟨before, value, after, hsplit, hbefore⟩ := exists_folded hnames
    have hlines : ∀ h ∈ headerTexts before, PicoHttp.IsToken h.1 ∧ PicoHttp.IsValue h.2 := by
      intro h hmem
      obtain ⟨x, hx, rfl⟩ := List.mem_map.mp hmem
      exact hnamed x (by rw [hsplit]; exact List.mem_append_left _ hx) (hbefore x hx)
    have hroom : (headerTexts before).length < http1MaxHeaders := by
      unfold headerTexts
      rw [List.length_map]
      rw [hsplit, List.length_append, List.length_cons] at hcount
      omega
    -- what is printed of the line without a name starts with the colon
    have htext : ((headerTexts r.headers).map fun h => printed h.1 ++ [58, 32]
        ++ printed h.2 ++ [13, 10]).flatten
        ++ ([13, 10] ++ body) = (headerTexts before).flatMap PicoHttp.header_line
          ++ 58 :: (32 :: (printed value ++ [13, 10]
          ++ ((headerTexts after).map fun h => printed h.1 ++ [58, 32]
            ++ printed h.2 ++ [13, 10]).flatten
          ++ ([13, 10] ++ body))) := by
      rw [← printed_lines hlines, hsplit]
      unfold headerTexts
      rw [List.map_append, List.map_append, List.flatten_append, List.map_cons,
        List.map_cons, List.flatten_cons]
      simp only [List.append_assoc]
      rfl
    rw [if_neg fun h => hnames h.2, htext, PicoHttp.parse_headers_folded hlines hroom]
    rfl

section Relayed

variable {k : ℕ} {config config₂ : HttpConfig} {c c₁ c₁' : HTTP1Connection n}
    {w w' : HttpWorker n} {rpc : Fin n}
  {input text body : Bytes} {r : PicoHttp.Response}

/-- What is written of a response that was taken: its head from the object, and then the body as it
came. -/
theorem written_response (htakes : c.Takes config w rpc input r body w') {s s' : HttpCalls n}
    (hsame : s.http rpc = w'.http rpc) (herror : (s.rpc_mapper.heap rpc).error = false)
    {size held : ℕ} (hmessage : c₁.rpc_message = some rpc)
    (hwrite : c₁.http_write_response size held s = .ok (text, c₁', s')) :
    ∃ m, Holds m r body ∧ text = response_head m ++ body ∧ text.length ≤ size := by
  unfold http_write_response at hwrite
  rw [hmessage] at hwrite
  obtain ⟨text', htext, hwrite⟩ := bind_eq_ok.mp hwrite
  split_ifs at hwrite
  obtain ⟨_, _, hwrite⟩ := bind_eq_ok.mp hwrite
  obtain ⟨_, _, hwrite⟩ := bind_eq_ok.mp hwrite
  obtain ⟨rfl, _⟩ := Prod.mk.inj (Except.ok.inj hwrite)
  -- The message written is the one that was read, object and fields.
  have hholds : Holds (s.message rpc) r body := by
    obtain ⟨hstatus, hmsg, hminor, hheaders, hdata⟩ := htakes.holds
    rw [← hsame] at hstatus hmsg hminor hheaders hdata
    exact ⟨hstatus, hmsg, hminor, hheaders, hdata⟩
  unfold response_text at htext
  rw [if_neg (by rw [show (s.message rpc).ids.rpc.error = false
    from herror]; exact Bool.false_ne_true)] at htext
  split_ifs at htext with hhead hbody
  obtain rfl := Except.ok.inj htext
  refine ⟨s.message rpc, hholds, by rw [hholds.data], ?_⟩
  rw [List.length_append, DataReadStruct.length_content]
  omega

/-- **A response that was taken is taken again** from what is written of it, and is the same,
exactly if its status has three digits and none of its lines continues another; otherwise the text
ends the process of the sidecar that reads it. -/
theorem relayed_read_iff (htakes : c.Takes config w rpc input r body w') {s s' : HttpCalls n}
    (hsame : s.http rpc = w'.http rpc) (herror : (s.rpc_mapper.heap rpc).error = false)
    {size held : ℕ} (hsize : size ≤ http1BufSize) (hmessage : c₁.rpc_message = some rpc)
    (hwrite : c₁.http_write_response size held s = .ok (text, c₁', s'))
    {c₂ : HTTP1Connection k} {w₂ : HttpWorker k} {rpc₂ : Fin k}
    (hawaits : c₂.Awaits w₂.toHttpCalls rpc₂) :
    ((∃ w₂', c₂.Takes config₂ w₂ rpc₂ text r body w₂' ∧ Holds (w₂'.http rpc₂) r body)
        ↔ 100 ≤ r.status ∧ ∀ h ∈ r.headers, h.1 ≠ none)
      ∧ (¬ (100 ≤ r.status ∧ ∀ h ∈ r.headers, h.1 ≠ none) →
        c₂.http_read .pico config₂ text w₂ = .error .parseFailed) := by
  obtain ⟨m, hholds, rfl, hlength⟩ := written_response htakes hsame herror hmessage hwrite
  have hparse := response_head_parsed hholds htakes.parsed
  have hne : response_head m ++ body ≠ [] := by
    unfold response_head PicoHttp.VERSION
    simp
  have hfits : (response_head m ++ body).length ≤ http1BufSize := hlength.trans hsize
  -- What was written parses back exactly if the status has three digits and no line was folded.
  by_cases hkept : 100 ≤ r.status ∧ ∀ h ∈ r.headers, h.1 ≠ none
  · rw [if_pos hkept] at hparse
    refine ⟨iff_of_true ?_ hkept, fun h => absurd hkept h⟩
    obtain ⟨w₂', htaken⟩ := (takes_iff hawaits hne hfits hparse).mpr htakes.fitting
    exact ⟨w₂', htaken, htaken.holds⟩
  · rw [if_neg hkept] at hparse
    have hread := @http_read_failed _ config₂ _ _ _ _ hawaits hne hfits hparse
    refine ⟨iff_of_false ?_ hkept, fun _ => hread⟩
    rintro ⟨w₂', htaken, _⟩
    rw [htaken.read] at hread
    cases hread

end Relayed

/-- A worker whose object was read on descriptor 6, and sent on descriptor 5, as request 1 of
each. -/
def servingWorker : HttpWorker 1 :=
  { worker true with
    rpc_mapper :=
      { (worker true).rpc_mapper with
        heap := fun a =>
          { (worker true).rpc_mapper.heap a with ds_fd := 6, ds_stream_id := 1,
                                                 us_fd := 5, us_stream_id := 1 }
        ds_map := fun type =>
          if type = .EGRESS then (∅ : Tables.Nested ℤ ℤ (Fin 1)).insert
            6 ((∅ : Tables.UMap ℤ (Fin 1)).insert 1 (Fin.last 0))
          else ∅
        us_map := fun type => if type = .EGRESS then (worker true).rpc_mapper.us_map type else ∅ } }

/-- "HTTP/1.1 200 OK" with two headers, "x: y" and the length, and a body of one byte -/
def fullAnswer : Bytes :=
  [72, 84, 84, 80, 47, 49, 46, 49, 32, 50, 48, 48, 32, 79, 75, 13, 10] ++ [120, 58, 32, 121, 13, 10]
    ++ CONTENT_LENGTH ++ [58, 32, 49, 13, 10, 13, 10] ++ [65]

/-- What the parser makes of it: two headers, the second of which gives the length of the body. -/
def fullResponse : PicoHttp.Response :=
  ⟨1, 200, [79, 75], [(some [120], [121]), (some CONTENT_LENGTH, [49])]⟩

/-- It goes back by way of two sidecars, with its headers and its body: a concrete run of the
theorem above. -/
theorem relayed_read_answer :
    ∃ (text : Bytes) (w' : HttpWorker 1) (c₁ : HTTP1Connection 1)
      (sent : HTTP1Connection 1 × HttpCalls 1),
      c₁.http_write_response 1000 0 w'.toHttpCalls = .ok (text, sent)
        ∧ ((∃ w₂', (connection .UPSTREAM false).Takes ⟨⟨false, false⟩, true⟩
          (worker true) 0 text fullResponse [65] w₂'
              ∧ Holds (w₂'.http 0) fullResponse [65])
          ↔ 100 ≤ fullResponse.status ∧ ∀ h ∈ fullResponse.headers, h.1 ≠ none) := by
  -- The answer is read at once, and what it left in the object is written out.
  have hread : ∃ w', (connection .UPSTREAM false).http_read .pico ⟨⟨false, false⟩, true⟩
      fullAnswer servingWorker
        = .ok (.returned (((connection .UPSTREAM false).fill fullAnswer).reset true) w')
      ∧ (w'.rpc_mapper.heap 0).error = false
      ∧ ∃ text sent, ({ connection .DOWNSTREAM false with rpc_message := some 0 } :
        HTTP1Connection 1).http_write_response 1000 0 w'.toHttpCalls = .ok (text, sent) :=
    ⟨_, rfl, rfl, _, _, rfl⟩
  obtain ⟨w', hread, herror, text, sent, hwrite⟩ := hread
  have htakes : (connection .UPSTREAM false).Takes ⟨⟨false, false⟩, true⟩
      servingWorker 0 fullAnswer fullResponse [65]
      w' :=
    { awaits := ⟨rfl, rfl, by decide +kernel, rfl, rfl, rfl⟩
      nonempty := by decide
      fits := by decide
      parsed := by decide +kernel
      read := hread }
  have hawaits : (connection .UPSTREAM false).Awaits (worker true).toHttpCalls 0 :=
    ⟨rfl, rfl, by decide +kernel, rfl, rfl, rfl⟩
  exact ⟨text, w', _, sent, hwrite,
    (relayed_read_iff htakes rfl herror (by decide) rfl hwrite hawaits).1⟩

end HTTP1Connection

end RlpSidecar
