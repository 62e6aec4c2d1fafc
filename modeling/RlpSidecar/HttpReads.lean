/-
**Reading HTTP/1 in pieces** (`connection.cc`, `HTTP1Connection::http_read`).

The bytes of a message arrive in any division, and six fields of a connection carry what is known
of them from one read to the next. The state after some bytes is given here by the bytes alone
(`midway`), and a read takes the state of the bytes before to the state of the bytes after; so any
division of a message leads to the state that reading it at once leads to, and nothing is forwarded
before the last piece.

The parser is any that takes a proper part of the head for incomplete, and finds the message in the
whole of it.

`StepsThrough` is the step lemma, one read of a piece from any state within the message, and
`StepsThrough.readsAs` the induction over the pieces. For a response the three cases are a piece
before the end of the head, the piece with the end of the head, and one behind it. What a head
means is taken from the parser, and what a body is from `Framed`.
-/
import RlpSidecar.DataStreams
import RlpSidecar.HttpConnection

set_option autoImplicit false

namespace RlpSidecar

variable {n : ℕ}

/-! ## Reads and messages -/

/-- The reads of some pieces, up to an exception, after which the connection is not read any
more. -/
def feed (parser : HttpParser) (config : HttpConfig) :
    List Bytes → HTTP1Connection n → HttpWorker n → Except Abort (HttpRead n)
  | [], c, w => .ok (.returned c w)
  | piece :: pieces, c, w => do
    match ← c.http_read parser config piece w with
    | .returned c w => feed parser config pieces c w
    | .thrown c w => .ok (.thrown c w)

/-- `head` is the head of the message `r`, and `body` is what follows it. -/
structure Heads {R : Type} (parse : Bytes → ℕ → ℕ → Except PicoHttp.Fail (R × ℕ))
    (head body : Bytes) (r : R) :
    Prop where
  nonempty : head ≠ []
  part : ∀ p, p <+: head → p ≠ head → ∀ last_len < p.length,
    parse p http1MaxHeaders last_len = .error .incomplete
  whole : ∀ rest, rest <+: body → ∀ last_len < head.length,
    parse (head ++ rest) http1MaxHeaders last_len = .ok (r, head.length)

/-- A head, checked for each of its parts. For a concrete text this is a finite check. -/
theorem Heads.of_parts {R : Type} {parse : Bytes → ℕ → ℕ → Except PicoHttp.Fail (R × ℕ)}
    {head body : Bytes} {r : R} (hne : head ≠ [])
    (hpart : ∀ k < head.length, ∀ last_len < k, parse (head.take k) http1MaxHeaders last_len
      = .error .incomplete)
    (hwhole : ∀ k < body.length + 1, ∀ last_len < head.length,
      parse (head ++ body.take k) http1MaxHeaders last_len = .ok (r, head.length)) :
        Heads parse head body r where
  nonempty := hne
  part := by
    intro p hp hp_ne last_len hlast
    have hlt : p.length < head.length := by
      refine lt_of_le_of_ne hp.length_le ?_
      intro heq
      exact hp_ne (hp.eq_of_length heq)
    rw [List.prefix_iff_eq_take.mp hp]
    exact hpart _ hlt last_len hlast
  whole := by
    intro rest hrest last_len hlast
    rw [List.prefix_iff_eq_take.mp hrest]
    exact hwhole _ (Nat.lt_succ_of_le hrest.length_le) last_len hlast

/-- However a text is cut into pieces that are not empty, reading them ends in the same state, and
before the last piece nothing is put into a queue. -/
def ReadsAs (parser : HttpParser) (config : HttpConfig) (c : HTTP1Connection n)
    (w : HttpWorker n) (text : Bytes) (c' : HTTP1Connection n) (w' : HttpWorker n) : Prop :=
  ∀ pieces : List Bytes, pieces.flatten = text → (∀ piece ∈ pieces, piece ≠ []) →
    feed parser config pieces c w = .ok (.returned c' w')
      ∧ ∀ early, early <+: pieces → early ≠ pieces → ∃ c₁ w₁,
        feed parser config early c w = .ok (.returned c₁ w₁) ∧ w₁.rpc_queue = w.rpc_queue
          ∧ c₁.idle = c.idle

section Midway

variable {parser : HttpParser} {config : HttpConfig} {c c' : HTTP1Connection n}
    {w w' : HttpWorker n} {text : Bytes}
  {midway : ℕ → Bytes → HTTP1Connection n × HttpWorker n}

/-- A read takes the state `midway` of the bytes before it to that of the bytes with it, and to the
final state with the last bytes of the text. The number that comes with the bytes is how many there
were before the last read. -/
def StepsThrough (parser : HttpParser) (config : HttpConfig) (text : Bytes)
    (midway : ℕ → Bytes → HTTP1Connection n × HttpWorker n) (c' : HTTP1Connection n)
    (w' : HttpWorker n) : Prop :=
  ∀ prev p d, d ≠ [] → p ++ d <+: text →
    (midway prev p).1.http_read parser config d (midway prev p).2
      = .ok (if p ++ d = text then .returned c' w'
          else .returned (midway p.length (p ++ d)).1 (midway p.length (p ++ d)).2)

/-- Pieces that do not reach the end of the text only move the connection on within it. -/
theorem StepsThrough.part (hstep : StepsThrough parser config text midway c' w')
    {pieces : List Bytes} (prev : ℕ) (p : Bytes) (hpieces : ∀ piece ∈ pieces, piece ≠ [])
    (hpre : p ++ pieces.flatten <+: text) (hne : p ++ pieces.flatten ≠ text) :
    ∃ prev', feed parser config pieces (midway prev p).1 (midway prev p).2
      = .ok (.returned (midway prev' (p ++ pieces.flatten)).1
        (midway prev' (p ++ pieces.flatten)).2) := by
  induction pieces generalizing prev p with
  | nil =>
      refine ⟨prev, ?_⟩
      rw [List.flatten_nil, List.append_nil]
      rfl
  | cons d pieces ih =>
      rw [List.flatten_cons, ← List.append_assoc] at hpre hne ⊢
      have hpd : p ++ d <+: text := (List.prefix_append _ _).trans hpre
      have hpd_ne : p ++ d ≠ text := by
        intro heq
        apply hne
        rw [heq] at hpre ⊢
        exact hpre.eq_of_length_le (by rw [List.length_append]; omega)
      rw [feed, hstep prev p d (hpieces d List.mem_cons_self) hpd, if_neg hpd_ne, ok_bind]
      exact ih _ (p ++ d) (fun piece h => hpieces piece (List.mem_cons_of_mem _ h)) hpre hne

/-- Pieces that do reach it bring the connection to its final state, whatever the cuts. -/
theorem StepsThrough.whole (hstep : StepsThrough parser config text midway c' w')
    {pieces : List Bytes} (prev : ℕ) (p : Bytes) (hpieces : ∀ piece ∈ pieces, piece ≠ [])
    (hne : p ≠ text) (heq : p ++ pieces.flatten = text) :
    feed parser config pieces (midway prev p).1 (midway prev p).2 = .ok (.returned c' w') := by
  induction pieces generalizing prev p with
  | nil =>
      rw [List.flatten_nil, List.append_nil] at heq
      exact absurd heq hne
  | cons d pieces ih =>
      rw [List.flatten_cons, ← List.append_assoc] at heq
      have hpd : p ++ d <+: text := ⟨pieces.flatten, heq⟩
      have hrest : ∀ piece ∈ pieces, piece ≠ [] :=
        fun piece h => hpieces piece (List.mem_cons_of_mem _ h)
      rw [feed, hstep prev p d (hpieces d List.mem_cons_self) hpd, ok_bind]
      by_cases hlast : p ++ d = text
      · -- what is left is empty, and no piece is
        rw [if_pos hlast]
        rw [hlast] at heq
        have hflatten : pieces.flatten = [] := List.append_right_eq_self.mp heq
        have hnil : pieces = [] := by
          apply List.eq_nil_iff_forall_not_mem.mpr
          intro piece hmem
          exact hrest piece hmem (List.flatten_eq_nil_iff.mp hflatten piece hmem)
        rw [hnil]
        rfl
      · rw [if_neg hlast]
        exact ih _ (p ++ d) hrest hlast heq

/-- **Cuts do not matter** where the state after some bytes is given by the bytes. -/
theorem StepsThrough.readsAs (hstep : StepsThrough parser config text midway c' w')
    (hne : text ≠ []) (hstart : midway 0 [] = (c, w))
    (hsame : ∀ prev p, (midway prev p).2.rpc_queue = w.rpc_queue
      ∧ (midway prev p).1.idle = c.idle) :
    ReadsAs parser config c w text c' w' := by
  intro pieces hflatten hpieces
  have hwhole := hstep.whole 0 [] hpieces hne.symm hflatten
  rw [hstart] at hwhole
  refine ⟨hwhole, ?_⟩
  intro early hearly hearly_ne
  obtain ⟨late, rfl⟩ := hearly
  have hlate : late ≠ [] := by
    rintro rfl
    exact hearly_ne (List.append_nil _).symm
  -- The pieces still to come are not empty, so what came so far is not the whole.
  have hpart_ne : early.flatten ≠ text := by
    intro heq
    rw [← hflatten, List.flatten_append] at heq
    obtain ⟨d, rest, rfl⟩ := List.exists_cons_of_ne_nil hlate
    have hd : d ≠ [] := hpieces d (List.mem_append_right _ List.mem_cons_self)
    have hlength := congrArg List.length heq
    rw [List.length_append, List.flatten_cons, List.length_append] at hlength
    have hpos := List.length_pos_iff.mpr hd
    omega
  have hpre : [] ++ early.flatten <+: text :=
    ⟨late.flatten, by rw [← hflatten, List.flatten_append]; rfl⟩
  obtain ⟨prev, hpart⟩ :=
    hstep.part 0 [] (fun piece h => hpieces piece (List.mem_append_left _ h)) hpre hpart_ne
  rw [hstart] at hpart
  exact ⟨_, _, hpart, hsame prev _⟩

end Midway

/-! ## Responses -/

/-- The headers tell how long the body is: at most one of them gives its length, in decimal digits,
and without it the body is empty, as it is for a status that allows none. -/
structure Framed (r : PicoHttp.Response) (body : Bytes) : Prop where
  unchunked : HTTP1Connection.header_body_allowed r.status = true →
    ∀ h ∈ r.headers, isChunked h = false
  length : HTTP1Connection.header_body_allowed r.status = true →
    (∀ h ∈ r.headers, isContentLength h.1 = false) ∧ body = []
      ∨ ∃ before name value after, r.headers = before ++ (name, value) :: after
        ∧ isContentLength name = true
        ∧ (∀ h ∈ before ++ after, isContentLength h.1 = false)
        ∧ value ≠ [] ∧ (∀ d ∈ value, Decimal.isDigit d = true) ∧ Decimal.value value = body.length
  no_body : HTTP1Connection.header_body_allowed r.status = false → body = []

/-- The response fits into a message: there is room for its headers, for the zero byte after each
text, and for its body. -/
structure Storable (r : PicoHttp.Response) (body : Bytes) : Prop where
  count : r.headers.length ≤ maxHeaderFieldNumber
  size : ∀ h ∈ r.headers, (headerName h.1).length < maxHeaderFieldSize
    ∧ h.2.length < maxHeaderFieldSize
  body : body.length ≤ maxPayloadSize

/-- What is stored of the headers of a response: all of them, with an empty name where a line goes
on. -/
def headerTexts (headers : List (Option Bytes × Bytes)) : List (Bytes × Bytes) :=
  headers.map fun h => (headerName h.1, h.2)

namespace HTTP1Connection

/-- A number as `from_chars` reads it, if it is digits only and fits into an `int`. -/
theorem from_chars_digits {value : Bytes} (hne : value ≠ [])
    (hdigits : ∀ d ∈ value, Decimal.isDigit d = true) (hle : Decimal.value value < 2 ^ 31) :
    Decimal.from_chars value = .ok (Decimal.value value : ℤ) := by
  have hhead : value.head? ≠ some 45 := by
    intro h
    have hmem : (45 : UInt8) ∈ value := List.mem_of_head? h
    exact absurd (hdigits 45 hmem) (by decide)
  have htake : value.takeWhile Decimal.isDigit = value := List.takeWhile_eq_self_iff.mpr hdigits
  unfold Decimal.from_chars
  dsimp only
  rw [if_neg hhead, htake, if_neg hne, if_neg hhead, if_neg (by omega)]

/-- A header that is neither of the two leaves the content length alone. -/
theorem read_framing_other {h : Option Bytes × Bytes} (hlength : isContentLength h.1 = false)
    (hchunked : isChunked h = false) (content_length : ℤ) :
    read_framing content_length h = .ok content_length := by
  unfold read_framing
  rw [hlength, hchunked]
  rfl

theorem read_framing_others {headers : List (Option Bytes × Bytes)}
    (hlength : ∀ h ∈ headers, isContentLength h.1 = false)
    (hchunked : ∀ h ∈ headers, isChunked h = false) (content_length : ℤ) :
    headers.foldlM read_framing content_length = .ok content_length := by
  induction headers with
  | nil => rfl
  | cons h headers ih =>
      rw [List.foldlM_cons, read_framing_other (hlength h List.mem_cons_self)
        (hchunked h List.mem_cons_self), ok_bind]
      exact ih (fun x hx => hlength x (List.mem_cons_of_mem _ hx)) fun x hx =>
        hchunked x (List.mem_cons_of_mem _ hx)

/-- **The content length of a framed response** is that of its body, or there is none and the body
is empty. -/
theorem framing_ok {r : PicoHttp.Response} {body : Bytes} (hframed : Framed r body)
    (hsize : body.length ≤ maxPayloadSize) :
    ∃ content_length : ℤ,
      response_length (-1) r = .ok content_length
        ∧ (content_length = body.length ∨ content_length = -1 ∧ body = []) := by
  unfold response_length
  cases hallowed : header_body_allowed r.status with
  | false => exact ⟨-1, rfl, Or.inr ⟨rfl, hframed.no_body hallowed⟩⟩
  | true =>
      have hchunked := hframed.unchunked hallowed
      rw [if_pos rfl]
      -- Either no header gives a length and there is no body, or exactly one does and gives its
      -- length.
      rcases hframed.length hallowed with ⟨hnone, hbody⟩
        | ⟨before, name, value, after, heq, hname, hothers, hne, hdigits,
        hvalue⟩
      · exact ⟨-1, read_framing_others hnone hchunked (-1), Or.inr ⟨rfl, hbody⟩⟩
      · refine ⟨body.length, ?_, Or.inl rfl⟩
        rw [heq] at hchunked ⊢
        have hfirst : read_framing (-1) (name, value) = .ok (body.length : ℤ) := by
          have hsmall : body.length ≤ 20000 := hsize
          have hread := from_chars_digits hne hdigits (by omega)
          unfold read_framing parse_content_length
          rw [hname, hread, hvalue, hchunked (name, value) (by simp)]
          rfl
        have hbefore :=
          @read_framing_others before (fun h hh => hothers h (List.mem_append_left _ hh))
          (fun h hh => hchunked h (List.mem_append_left _ hh)) (-1)
        -- The headers before and behind the one with the length leave the length as it is.
        rw [List.foldlM_append, hbefore, ok_bind, List.foldlM_cons, hfirst, ok_bind]
        refine read_framing_others (fun h hh => hothers h (List.mem_append_right _ hh))
          (fun h hh => ?_) _
        exact hchunked h (List.mem_append_right _ (List.mem_cons_of_mem _ hh))

/-- **The headers of a response** are added one after the other, if there is room. Nothing else of
the message changes. -/
theorem add_response_headers_ok (config : IdConfig) {headers : List (Option Bytes × Bytes)}
    {m : HTTPMessage} (hcount : m.res_headers.count + headers.length ≤ maxHeaderFieldNumber)
    (hsize : ∀ h ∈ headers, (headerName h.1).length < maxHeaderFieldSize
      ∧ h.2.length < maxHeaderFieldSize) :
    ∃ res_headers, add_response_headers config headers m = .ok { m with res_headers := res_headers }
      ∧ res_headers.text = m.res_headers.text ++ headerTexts headers := by
  -- On the headers still to store; the message changes with each of them.
  induction headers generalizing m with
  | nil => exact ⟨m.res_headers, rfl, (List.append_nil _).symm⟩
  | cons h headers ih =>
      obtain ⟨hname, hvalue⟩ := hsize h List.mem_cons_self
      rw [List.length_cons] at hcount
      obtain ⟨first, hadd⟩ := HeaderList.add_exists (h := m.res_headers) (by omega) hname hvalue
      obtain ⟨htext, hfirst_count, -⟩ := HeaderList.add_text hadd
      obtain ⟨res_headers, hrest, htext'⟩ := ih (m := { m with res_headers := first })
        (by dsimp only; omega) fun x hx => hsize x (List.mem_cons_of_mem _ hx)
      refine ⟨res_headers, ?_, ?_⟩
      · have hstep : m.add_header_field config 0 (headerName h.1) h.2 false false
            = .ok ({ m with res_headers := first }, 0) := by
          unfold HTTPMessage.add_header_field
          rw [if_neg Bool.false_ne_true, if_neg Bool.false_ne_true, hadd]
          rfl
        unfold add_response_headers at hrest ⊢
        rw [List.foldlM_cons, hstep]
        exact hrest
      · rw [htext', htext, List.append_assoc]
        rfl

/-! ### From the head to the end -/

/-- The connection waits for the response to a request that it has sent, and nothing of it is there
yet. -/
structure Awaits (c : HTTP1Connection n) (s : HttpCalls n) (rpc : Fin n) : Prop where
  direction : c.direction = .UPSTREAM
  clean : c = c.reset false
  registered : s.rpc_mapper.get_us_rpc c.type c.last_id c.fd = .ok rpc
  http : (s.rpc_mapper.heap rpc).http = .HTTP1
  no_headers : (s.http rpc).res_headers.count = 0
  no_data : (s.http rpc).res_data.offset = 0

/-- The RPC of the request has its response, and is queued once, to be forwarded. -/
structure Answered (c : HTTP1Connection n) (s : HttpCalls n) (rpc : Fin n)
    (r : PicoHttp.Response) (body : Bytes) (s' : HttpCalls n) : Prop where
  rpc_mapper : s'.rpc_mapper = s.rpc_mapper
  others : ∀ a, a ≠ rpc → s'.http a = s.http a
  status : (s'.http rpc).status = r.status
  msg : (s'.http rpc).msg = r.msg
  minor : (s'.http rpc).minor = r.minor
  headers : (s'.http rpc).res_headers.text = headerTexts r.headers
  data : (s'.http rpc).res_data.content = body
  request : (s'.http rpc).method = (s.http rpc).method ∧ (s'.http rpc).path = (s.http rpc).path
    ∧ (s'.http rpc).req_headers = (s.http rpc).req_headers
  queue : s'.rpc_queue = (s.enqueue c.type c.direction c.fd c.last_id).rpc_queue

/-- Storing an object whose base part is as it was leaves the registry alone. -/
theorem set_message_same (s : HttpCalls n) {rpc : Fin n} {m : HTTPMessage}
    (h : m.ids.rpc = s.rpc_mapper.heap rpc) :
    s.set_message rpc m = { s with http := Function.update s.http rpc m } := by
  have hmodify : (s.rpc_mapper.modify rpc fun _ => m.ids.rpc) = s.rpc_mapper := by
    unfold RPCMapper.modify
    rw [h, Function.update_eq_self]
  unfold HttpCalls.set_message
  rw [hmodify]

/-- The bytes up to the end of the body are all there. -/
theorem read_body_whole {c : HTTP1Connection n} {s : HttpCalls n} {rpc : Fin n} {head body : Bytes}
    (hbuf : c.buf = head ++ body) (hsize : c.hdr_size = head.length)
    (hlength : c.content_length = body.length ∨ c.content_length = -1 ∧ body = [])
    (hidle : c.idle = false) (hrpc : s.rpc_mapper.get_us_rpc c.type c.last_id c.fd = .ok rpc)
    (hhttp : (s.rpc_mapper.heap rpc).http = .HTTP1) {m : HTTPMessage}
    (hdata : (s.message rpc).add_data body false = .ok m) :
    c.read_body s = .ok (c.reset true,
      (if body = [] then s else s.set_message rpc m).enqueue c.type c.direction
        c.fd c.last_id) := by
  have hbuf_length : (c.buf.length : ℤ) = head.length + body.length := by
    rw [hbuf, List.length_append]
    push_cast
    rfl
  unfold read_body store_body
  by_cases hbody : body = []
  · -- nothing is stored: the length is zero, or there is none
    have hnonpos : ¬ 0 < c.content_length := by
      rcases hlength with h | h
      · rw [h, hbody]
        decide
      · rw [h.1]
        decide
    have hzero : (body.length : ℤ) = 0 := by rw [hbody]; rfl
    rw [if_neg (by omega), if_neg hnonpos, if_pos hbody, ok_bind]
    dsimp only
    rw [if_neg hnonpos, if_neg (by omega), hidle]
    rfl
  · -- the body is what is behind the head
    have hpos : 0 < c.content_length := by
      rcases hlength with h | h
      · rw [h]
        exact_mod_cast List.length_pos_iff.mpr hbody
      · exact absurd h.2 hbody
    have hcontent : c.content_length = body.length := by
      rcases hlength with h | h
      · exact h
      · exact absurd h.2 hbody
    have htake : (c.buf.drop c.hdr_size.toNat).take c.content_length.toNat = body := by
      rw [hsize, hcontent, Int.toNat_natCast, Int.toNat_natCast, hbuf,
        List.drop_left, List.take_length]
    rw [if_neg (by omega), if_pos hpos, if_neg hbody, hrpc, ok_bind]
    unfold HttpCalls.cast_http
    rw [if_pos hhttp, htake]
    dsimp only
    rw [hdata]
    simp only [ok_bind]
    rw [if_pos hpos, if_neg (by omega), hidle]
    rfl

/-- The head is there, and the body is not: the read waits for more. -/
theorem read_body_part {c : HTTP1Connection n} (s : HttpCalls n)
    (h : (c.buf.length : ℤ) - c.hdr_size < c.content_length) :
    c.read_body s = .ok (c, s) := if_pos h

/-! ### Any division of a response -/

/-- A read that brings bytes of a response, and that the buffer has room for. -/
theorem http_read_upstream {c : HTTP1Connection n} (parser : HttpParser)
    (config : HttpConfig) (w : HttpWorker n) {d : Bytes}
    (hdirection : c.direction = .UPSTREAM) (hd : d ≠ [])
    (hfits : c.buf.length + d.length ≤ http1BufSize) :
    c.http_read parser config d w = (do
      let (c, calls) ← (c.fill d).read_response parser config.ids w.toHttpCalls
      .ok (.returned c { w with toHttpCalls := calls })) := by
  unfold http_read
  rw [if_neg (fun h => hd (List.eq_nil_of_length_eq_zero h)), if_neg (by omega)]
  dsimp only
  rw [show (c.fill d).direction = .UPSTREAM from hdirection]

/-- A connection with the bytes `p` of a message in its buffer, `prev` of which were there before
the last read. -/
abbrev holding (c : HTTP1Connection n) (prev : ℕ) (p : Bytes) : HTTP1Connection n :=
  { c with
    buf := p
    stale := c.stale.drop p.length
    prev_buf_len := prev }

theorem holding_nil {c : HTTP1Connection n} {idle : Bool} (hclean : c = c.reset idle) :
    { c.holding 0 [] with hdr_size := 0 } = c := by
  rw [hclean]
  rfl

/-- The next bytes stand behind those that are there, and the parser gets the length of the earlier
part. -/
theorem holding_fill (c : HTTP1Connection n) (prev : ℕ) (p d : Bytes) (hdr_size content_length : ℤ)
    (hdr_complete : Bool) :
    { c.holding prev p with
        hdr_size := hdr_size
        content_length := content_length
        hdr_complete := hdr_complete }.fill d
      = { c.holding p.length (p ++ d) with
        hdr_size := hdr_size
        content_length := content_length
        hdr_complete := hdr_complete } := by
  unfold fill
  dsimp only
  rw [List.drop_drop, List.length_append]

/-- After a message, the array is as if the message had been read in one piece. -/
theorem fill_reset {c : HTTP1Connection n} (hbuf : c.buf = []) (text : Bytes)
    (prev : ℕ) (idle : Bool) :
    (c.fill text).reset idle = (c.holding prev text).reset idle := by
  unfold fill holding reset
  dsimp only
  rw [hbuf, List.nil_append]

/-- The state after some bytes of a response. `s` is what the head has changed. -/
def responseMidway (c : HTTP1Connection n) (w : HttpWorker n) (head : Bytes)
    (content_length : ℤ) (s : HttpCalls n) (prev : ℕ) (p : Bytes) :
    HTTP1Connection n × HttpWorker n :=
  if p = [] then (c, w)
  -- the head is still incomplete
  else if p.length < head.length then ({ c.holding prev p with hdr_size := -2 }, w)
  else
    ({ c.holding prev p with
        hdr_size := head.length
        content_length := content_length
        hdr_complete := true },
      { w with toHttpCalls := s })

/-- The bytes before the end of the head are only collected, with what the parser said of them. -/
theorem responseMidway_part {c : HTTP1Connection n} (w : HttpWorker n)
    {head : Bytes} (content_length : ℤ) (s : HttpCalls n) (prev : ℕ) {p : Bytes}
    (hclean : c = c.reset false) (hp : p.length < head.length) :
    ∃ k hdr_size, responseMidway c w head content_length s prev p
      = ({ c.holding k p with hdr_size := hdr_size }, w) := by
  unfold responseMidway
  by_cases hnil : p = []
  · rw [if_pos hnil, hnil]
    exact ⟨0, 0, by rw [holding_nil hclean]⟩
  · rw [if_neg hnil, if_pos hp]
    exact ⟨prev, -2, rfl⟩

theorem responseMidway_whole {c : HTTP1Connection n} {w : HttpWorker n}
    {head : Bytes} {content_length : ℤ} {s : HttpCalls n} {prev : ℕ} {p : Bytes}
    (hhead : head ≠ []) (hp : head.length ≤ p.length) :
    responseMidway c w head content_length s prev p
      = ({ c.holding prev p with
            hdr_size := head.length
            content_length := content_length
            hdr_complete := true },
          { w with toHttpCalls := s }) := by
  have hpos := List.length_pos_iff.mpr hhead
  have hne : p ≠ [] := by
    rintro rfl
    rw [List.length_nil] at hp
    omega
  unfold responseMidway
  rw [if_neg hne, if_neg (by omega)]

/-- A response on its way: what the head of it says, and the object after the head and after the
body. -/
structure Reply (parser : HttpParser) (config : HttpConfig) (c : HTTP1Connection n)
    (w : HttpWorker n) (rpc : Fin n) (head body : Bytes) (r : PicoHttp.Response)
    (content_length : ℤ) (m m' : HTTPMessage) : Prop where
  awaits : c.Awaits w.toHttpCalls rpc
  heads : Heads parser.phr_parse_response head body r
  fits : head.length + body.length ≤ http1BufSize
  framing : response_length (-1) r = .ok content_length
  length : content_length = body.length ∨ content_length = -1 ∧ body = []
  added : ∃ m₀, add_response_headers config.ids r.headers (w.message rpc) = .ok m₀
    ∧ m = { m₀ with status := r.status, msg := r.msg, minor := r.minor }
  base : m.ids.rpc = w.rpc_mapper.heap rpc
  data : ((w.set_message rpc m).message rpc).add_data body false = .ok m'

namespace Reply

variable {parser : HttpParser} {config : HttpConfig} {c : HTTP1Connection n}
    {w : HttpWorker n} {rpc : Fin n}
  {head body : Bytes} {r : PicoHttp.Response} {content_length : ℤ} {m m' : HTTPMessage}

/-- What the connections share once the response is complete: its body is stored, and it waits to
be forwarded. -/
def finished (c : HTTP1Connection n) (s : HttpCalls n) (rpc : Fin n) (body : Bytes)
    (m' : HTTPMessage) : HttpCalls n :=
  (if body = [] then s else s.set_message rpc m').enqueue c.type c.direction c.fd c.last_id

/-- From the end of the head on, bytes are only collected until the last of the body. -/
theorem body_step (h : Reply parser config c w rpc head body r content_length m m')
    (prev : ℕ) {p : Bytes} (hp : p <+: head ++ body) (hhead : head.length ≤ p.length) :
    ({ c.holding prev p with
        hdr_size := head.length
        content_length := content_length
        hdr_complete := true } : HTTP1Connection n).read_body (w.set_message rpc m)
      = .ok (if p = head ++ body then
          ((c.fill (head ++ body)).reset true, finished c (w.set_message rpc m) rpc body m')
        else
          ({ c.holding prev p with
              hdr_size := head.length
              content_length := content_length
              hdr_complete := true },
            w.set_message rpc m)) := by
  have hsame := set_message_same w.toHttpCalls h.base
  by_cases hwhole : p = head ++ body
  · rw [if_pos hwhole, fill_reset (congrArg HTTP1Connection.buf h.awaits.clean) _ prev, ← hwhole]
    refine read_body_whole hwhole rfl h.length ?_ ?_ ?_ h.data
    · have hidle := congrArg HTTP1Connection.idle h.awaits.clean
      exact hidle
    · rw [hsame]
      exact h.awaits.registered
    · rw [hsame]
      exact h.awaits.http
  · rw [if_neg hwhole]
    apply read_body_part
    -- the whole of the body is as long as the head says, so it is not all there
    have hlt : p.length < head.length + body.length := by
      have hle := hp.length_le
      rw [List.length_append] at hle
      refine lt_of_le_of_ne hle ?_
      intro heq
      exact hwhole (hp.eq_of_length (by rw [heq, List.length_append]))
    rcases h.length with hcontent | ⟨-, hbody⟩
    · dsimp only
      omega
    · rw [hbody, List.length_nil] at hlt
      omega

/-- **The end of the head** comes with some bytes, and perhaps with a part of the body or all of
it. -/
theorem head_step (h : Reply parser config c w rpc head body r content_length m m')
    {p d : Bytes} {k : ℕ} {z : ℤ} (hp : p.length < head.length) (hd : d ≠ [])
    (hpre : p ++ d <+: head ++ body) :
    ({ c.holding k p with hdr_size := z } : HTTP1Connection n).http_read parser config d w
      = .ok (if p ++ d = head ++ body then
            .returned ((c.fill (head ++ body)).reset true)
              { w with toHttpCalls := finished c (w.set_message rpc m) rpc body m' }
          else .returned
            (responseMidway c w head content_length (w.set_message rpc m) p.length (p ++ d)).1
            (responseMidway c w head content_length (w.set_message rpc m)
              p.length (p ++ d)).2) := by
  have hfits : p.length + d.length ≤ http1BufSize := by
    have hle := hpre.length_le
    rw [List.length_append, List.length_append] at hle
    exact hle.trans h.fits
  have hpos := List.length_pos_iff.mpr hd
  have hlonger : p.length < (p ++ d).length := by
    rw [List.length_append]
    omega
  have hincomplete : ¬ c.hdr_complete = true := by
    have hfalse := congrArg HTTP1Connection.hdr_complete h.awaits.clean
    exact Bool.eq_false_iff.mp hfalse
  have hcontent : c.content_length = -1 := congrArg HTTP1Connection.content_length h.awaits.clean
  have hread := http_read_upstream (c := { c.holding k p with hdr_size := z }) parser config w
    h.awaits.direction hd hfits
  rw [hread, holding_fill]
  unfold read_response
  dsimp only
  rw [if_neg hincomplete]
  clear hread
  by_cases hshort : (p ++ d).length < head.length
  · -- still not all of the head
    have hpart : p ++ d <+: head :=
      List.prefix_of_prefix_length_le hpre (List.prefix_append _ _) hshort.le
    have hne : p ++ d ≠ head := fun heq => by rw [heq] at hshort; exact lt_irrefl _ hshort
    have hne_text : p ++ d ≠ head ++ body := by
      intro heq
      rw [heq, List.length_append] at hshort
      omega
    rw [h.heads.part (p ++ d) hpart hne p.length hlonger]
    dsimp only
    rw [ok_bind, if_neg hne_text]
    unfold responseMidway
    rw [if_neg (fun hnil => hd (List.append_eq_nil_iff.mp hnil).2), if_pos hshort]
  · obtain ⟨rest, hrest⟩ : ∃ rest, p ++ d = head ++ rest :=
      (List.prefix_of_prefix_length_le (List.prefix_append head body) hpre (not_lt.mp hshort)).imp
        fun _ h => h.symm
    have hrest_prefix : rest <+: body := by
      rw [hrest] at hpre
      exact (List.prefix_append_right_inj head).mp hpre
    have hparse := h.heads.whole rest hrest_prefix p.length hp
    rw [← hrest] at hparse
    rw [hparse]
    dsimp only
    rw [hcontent, h.framing, ok_bind, h.awaits.registered, ok_bind]
    unfold HttpCalls.cast_http
    rw [if_pos h.awaits.http]
    -- the message with its headers, and then the part after the head
    obtain ⟨m₀, hadd, hm⟩ := h.added
    have hlast := h.body_step p.length hpre (not_lt.mp hshort)
    subst hm
    rw [hadd]
    simp only [ok_bind]
    rw [hlast, responseMidway_whole h.heads.nonempty (not_lt.mp hshort)]
    by_cases hwhole : p ++ d = head ++ body
    · rw [if_pos hwhole, if_pos hwhole]
      rfl
    · rw [if_neg hwhole, if_neg hwhole]
      rfl

/-- The first bytes after the head, or more of them: the head is not parsed again. -/
theorem later_step (h : Reply parser config c w rpc head body r content_length m m')
    {p d : Bytes} {prev : ℕ} (hp : head.length ≤ p.length) (hd : d ≠ [])
    (hpre : p ++ d <+: head ++ body) :
    ({ c.holding prev p with
        hdr_size := head.length
        content_length := content_length
        hdr_complete := true } : HTTP1Connection n).http_read parser config d
        { w with toHttpCalls := w.set_message rpc m }
      = .ok (if p ++ d = head ++ body then
            .returned ((c.fill (head ++ body)).reset true)
              { w with toHttpCalls := finished c (w.set_message rpc m) rpc body m' }
          else .returned
            (responseMidway c w head content_length (w.set_message rpc m) p.length (p ++ d)).1
            (responseMidway c w head content_length (w.set_message rpc m)
              p.length (p ++ d)).2) := by
  have hle := hpre.length_le
  rw [List.length_append, List.length_append] at hle
  have hlonger : head.length ≤ (p ++ d).length := by
    rw [List.length_append]
    omega
  have hlast := h.body_step p.length hpre hlonger
  rw [http_read_upstream parser config _ (by exact h.awaits.direction)
    hd (by exact hle.trans h.fits), holding_fill]
  unfold read_response
  dsimp only
  rw [if_pos rfl, hlast, responseMidway_whole h.heads.nonempty hlonger]
  by_cases hwhole : p ++ d = head ++ body
  · rw [if_pos hwhole, if_pos hwhole]
    rfl
  · rw [if_neg hwhole, if_neg hwhole]
    rfl

/-- **One read of a response**, from any state within it: the three cases before, at and after the
end of the head. -/
theorem steps_through (h : Reply parser config c w rpc head body r content_length m m') :
    StepsThrough parser config (head ++ body)
      (responseMidway c w head content_length (w.set_message rpc m))
      ((c.fill (head ++ body)).reset true)
      { w with toHttpCalls := finished c (w.set_message rpc m) rpc body m' } := by
  intro prev p d hd hpre
  by_cases hp : p.length < head.length
  · obtain ⟨k, z, hmidway⟩ :=
      responseMidway_part w content_length (w.set_message rpc m) prev h.awaits.clean hp
    rw [hmidway]
    exact h.head_step hp hd hpre
  · rw [responseMidway_whole h.heads.nonempty (not_lt.mp hp)]
    exact h.later_step (not_lt.mp hp) hd hpre

end Reply

/-- The object of a response, after its head and after its body. -/
theorem reply_exists {parser : HttpParser} (config : HttpConfig) {c : HTTP1Connection n}
    {w : HttpWorker n} {rpc : Fin n} {head body : Bytes} {r : PicoHttp.Response}
    (hawaits : c.Awaits w.toHttpCalls rpc) (hheads : Heads parser.phr_parse_response head body r)
    (hfits : head.length + body.length ≤ http1BufSize) (hframed : Framed r body)
    (hstorable : Storable r body) :
    ∃ content_length res_headers res_data,
      Reply parser config c w rpc head body r content_length
          { w.message rpc with
            res_headers := res_headers, status := r.status, msg := r.msg, minor := r.minor }
          { w.message rpc with
            res_headers := res_headers, status := r.status, msg := r.msg, minor :=
              r.minor, res_data := res_data }
        ∧ res_headers.text = headerTexts r.headers ∧ res_data.content = body := by
  obtain ⟨content_length, hframing, hlength⟩ := framing_ok hframed hstorable.body
  have hcount : (w.message rpc).res_headers.count + r.headers.length ≤ maxHeaderFieldNumber := by
    rw [show (w.message rpc).res_headers.count = 0 from hawaits.no_headers, Nat.zero_add]
    exact hstorable.count
  obtain ⟨res_headers, hadd, htext⟩ := add_response_headers_ok config.ids hcount hstorable.size
  have hcontent : (w.http rpc).res_data.content = [] := by
    apply List.eq_nil_of_length_eq_zero
    rw [DataReadStruct.length_content, hawaits.no_data]
  obtain ⟨res_data, hdata⟩ : ∃ res_data, (w.http rpc).res_data.add body = .ok res_data := by
    apply DataReadStruct.add_exists
    rw [hcontent, List.length_nil, Nat.zero_add]
    exact hstorable.body
  refine ⟨content_length, res_headers, res_data, ?_, ?_, ?_⟩
  · refine ⟨hawaits, hheads, hfits, hframing, hlength, ⟨_, hadd, rfl⟩, rfl, ?_⟩
    -- the object that is read again is the one that was stored
    unfold HttpCalls.message HttpCalls.set_message RPCMapper.modify HTTPMessage.add_data
    dsimp only
    rw [Function.update_self, Function.update_self]
    rw [if_neg Bool.false_ne_true, hdata]
    rfl
  · have hnone : (w.http rpc).res_headers.text = [] := by
      unfold HeaderList.text
      rw [hawaits.no_headers]
      rfl
    rw [htext]
    show (w.http rpc).res_headers.text ++ _ = _
    rw [hnone, List.nil_append]
  · rw [(DataReadStruct.add_content hdata).1, hcontent, List.nil_append]

/-- The object is stored with the response in it, and the RPC is queued. -/
theorem answered_stored (c : HTTP1Connection n) (s : HttpCalls n) (rpc : Fin n)
    {r : PicoHttp.Response} {body : Bytes} {res_headers : HeaderList} {res_data : DataReadStruct}
    (htext : res_headers.text = headerTexts r.headers) (hdata : res_data.content = body) :
    c.Answered s rpc r body
      ({ s with
          http := Function.update s.http rpc
            { s.message rpc with
              res_headers := res_headers, status := r.status, msg := r.msg, minor :=
                r.minor, res_data := res_data } :
          HttpCalls n}.enqueue c.type c.direction c.fd c.last_id) := by
  have hself := Function.update_self (β := fun _ => HTTPMessage) rpc
    { s.message rpc with
      res_headers := res_headers, status := r.status, msg := r.msg, minor :=
      r.minor, res_data := res_data } s.http
  refine ⟨rfl, fun a ha => Function.update_of_ne ha _ _, ?_, ?_, ?_, ?_, ?_, ?_, rfl⟩
  all_goals dsimp only [HttpCalls.enqueue, HttpCalls.http_set_queue]
  all_goals rw [hself]
  · exact htext
  · exact hdata
  · exact ⟨rfl, rfl, rfl⟩

/-- **A response in any division** is read as it is in one piece. -/
theorem response_reads_as {parser : HttpParser} {config : HttpConfig} {c : HTTP1Connection n}
    {w : HttpWorker n} {rpc : Fin n} {head body : Bytes} {r : PicoHttp.Response}
    (hawaits : c.Awaits w.toHttpCalls rpc) (hheads : Heads parser.phr_parse_response head body r)
    (hfits : head.length + body.length ≤ http1BufSize) (hframed : Framed r body)
    (hstorable : Storable r body) :
    ∃ s', c.Answered w.toHttpCalls rpc r body s'
      ∧ ReadsAs parser config c w (head ++ body) ((c.fill (head ++ body)).reset true)
          { w with toHttpCalls := s' } := by
  obtain ⟨content_length, res_headers, res_data, hreply, htext, hdata⟩ :=
    reply_exists config hawaits hheads hfits hframed hstorable
  refine ⟨_, ?_, hreply.steps_through.readsAs ?_ ?_ ?_⟩
  · have hcontent : (w.http rpc).res_data.content = [] := by
      apply List.eq_nil_of_length_eq_zero
      rw [DataReadStruct.length_content, hawaits.no_data]
    have hsame := set_message_same w.toHttpCalls hreply.base
    unfold Reply.finished
    by_cases hbody : body = []
    · -- the payload of the object is as it was, and that is empty
      rw [if_pos hbody, hsame]
      exact answered_stored c w.toHttpCalls rpc htext (hcontent.trans hbody.symm)
    · rw [if_neg hbody, hsame]
      rw [set_message_same { w.toHttpCalls with http := Function.update w.http rpc _ } (by rfl)]
      dsimp only
      rw [Function.update_idem]
      exact answered_stored c w.toHttpCalls rpc htext hdata
  · intro h
    exact hheads.nonempty (List.append_eq_nil_iff.mp h).1
  · rfl
  · intro prev p
    unfold responseMidway
    split_ifs
    · exact ⟨rfl, rfl⟩
    · exact ⟨rfl, rfl⟩
    · exact ⟨rfl, rfl⟩

end HTTP1Connection

end RlpSidecar
