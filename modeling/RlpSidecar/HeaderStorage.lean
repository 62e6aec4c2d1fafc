/-
How headers are stored (`rpc_message.cc`, `HeaderField::set` and the ends of the two
`add_header_field`).

The fields of a list are arrays that are never wiped: what a header leaves behind its zero byte are
the bytes of longer ones before it. The lengths are written after the bytes, the name before the
value. `set` first checks that a text is not longer than its array, and then writes the zero byte
behind it with `at`, which has no room for it if the text is as long as the array. What `set`
leaves of a field when it throws is `write`.

A call of either message is one `HeaderCall`, and the lists of both classes (requests, responses,
and in the one for HTTP/2 trailers) are one family. `headers_kept_iff` is about every series of
calls on a cleared message, whatever was in its arrays before: all headers are kept exactly if each
of them gets to its list and is shorter than its array.
-/
import RlpSidecar.HeaderNames
import RlpSidecar.Recycling

set_option autoImplicit false

namespace RlpSidecar

/-! ## One field -/

namespace HeaderField

/-- The field has the two texts, with their lengths and a zero byte behind each. -/
structure Holds (h : HeaderField) (name value : Bytes) : Prop where
  text : h.text = (name, value)
  name_len : h.name_len = name.length
  value_len : h.value_len = value.length
  name_end : h.name[h.name_len]? = some 0
  value_end : h.value[h.value_len]? = some 0

theorem set_holds {h h' : HeaderField} {field_name field_value : Bytes}
    (hset : h.set field_name field_value = .ok h') : h'.Holds field_name field_value := by
  have htext := set_text hset
  unfold set at hset
  split_ifs at hset
  obtain rfl := Except.ok.inj hset
  refine ⟨htext, rfl, rfl, ?_, ?_⟩
  · simp [Wire.overwrite]
  · simp [Wire.overwrite]

/-- The assignments of `set`, one after the other, up to the one that ends the call. -/
def write (h : HeaderField) (field_name field_value : Bytes) : HeaderField × Option Abort :=
  if hname : maxHeaderFieldSize < field_name.length then (h, some .headerTooLong)
  else if hvalue : maxHeaderFieldSize < field_value.length then (h, some .headerTooLong)
  else
    let h : HeaderField :=
      { h with
        name := Wire.overwrite h.name 0 field_name
        length_name := by
          rw [Wire.length_overwrite (by rw [h.length_name]; omega)]
          exact h.length_name }
    -- `this->name.at(field_name_len)`
    if maxHeaderFieldSize ≤ field_name.length then (h, some .outOfRange)
    else
      let h : HeaderField :=
        { h with
          name := h.name.set field_name.length 0
          name_len := field_name.length
          value := Wire.overwrite h.value 0 field_value
          length_name := by rw [List.length_set]; exact h.length_name
          length_value := by
            rw [Wire.length_overwrite (by rw [h.length_value]; omega)]
            exact h.length_value }
      -- `this->value.at(field_value_len)`
      if maxHeaderFieldSize ≤ field_value.length then (h, some .outOfRange)
      else
        ({ h with
            value := h.value.set field_value.length 0
            value_len := field_value.length
            length_value := by rw [List.length_set]; exact h.length_value }, none)

/-- A zero byte written behind a text is one written with it. -/
theorem overwrite_set {l b : Bytes} (h : b.length < l.length) :
    (Wire.overwrite l 0 b).set b.length 0 = Wire.overwrite l 0 (b ++ [0]) := by
  obtain ⟨c, rest, hrest⟩ := List.exists_cons_of_ne_nil (List.ne_nil_of_length_pos
    (show 0 < (l.drop b.length).length by rw [List.length_drop]; omega))
  have hnext : l.drop (b.length + 1) = rest := by
    rw [← List.drop_drop, hrest, List.drop_one, List.tail_cons]
  unfold Wire.overwrite
  simp only [List.take_zero, List.nil_append, Nat.zero_add, List.length_append,
    List.length_singleton]
  rw [hrest, hnext, List.set_append_right _ _ le_rfl, Nat.sub_self, List.set_cons_zero,
    List.append_assoc,
    List.singleton_append]

/-- `set` is `write`, without what a failed call leaves: the process has ended there. -/
theorem set_eq_write (h : HeaderField) (field_name field_value : Bytes) :
    h.set field_name field_value
      = match h.write field_name field_value with
        | (h', none) => .ok h'
        | (_, some e) => .error e := by
  unfold set write
  by_cases hname : maxHeaderFieldSize < field_name.length
  · rw [if_pos hname, dif_pos hname]
  rw [if_neg hname, dif_neg hname]
  by_cases hvalue : maxHeaderFieldSize < field_value.length
  · rw [if_pos hvalue, dif_pos hvalue]
  rw [if_neg hvalue, dif_neg hvalue]
  dsimp only
  by_cases hname' : maxHeaderFieldSize ≤ field_name.length
  · rw [dif_neg (by omega), if_pos hname']
  by_cases hvalue' : maxHeaderFieldSize ≤ field_value.length
  · rw [dif_neg (by omega), if_neg hname', if_pos hvalue']
  rw [dif_pos (by omega), if_neg hname', if_neg hvalue']
  have hn := overwrite_set (l := h.name) (b := field_name) (by rw [h.length_name]; omega)
  have hv := overwrite_set (l := h.value) (b := field_value) (by rw [h.length_value]; omega)
  simp only [hn, hv]

/-- What the checks refuse is not touched. The lengths equal to the capacity are those at which the
checks pass and `at` throws. -/
theorem write_refused {h h' : HeaderField} {field_name field_value : Bytes} {e : Abort}
    (hwrite : h.write field_name field_value = (h', some e))
    (hname : field_name.length ≠ maxHeaderFieldSize)
    (hvalue : field_value.length ≠ maxHeaderFieldSize) : h' = h := by
  unfold write at hwrite
  dsimp only at hwrite
  split_ifs at hwrite with h₁ h₂ h₃ h₄
  · exact (Prod.mk.inj hwrite).1.symm
  · exact (Prod.mk.inj hwrite).1.symm
  · omega
  · omega
  · cases (Prod.mk.inj hwrite).2

end HeaderField

/-! ## One list -/

namespace HeaderList

/-- The list has these headers, in order, whatever stands behind their texts. -/
structure Holds (h : HeaderList) (headers : List (Bytes × Bytes)) : Prop where
  count : h.count = headers.length
  field : ∀ (i : ℕ) (x : Bytes × Bytes), headers[i]? = some x →
    ∃ f : HeaderField, h.fields[i]? = some f ∧ f.Holds x.1 x.2

theorem clear_holds (h : HeaderList) : h.clear.Holds [] := by
  refine ⟨rfl, ?_⟩
  intro i x hx
  cases hx

theorem add_eq_ok {h h' : HeaderList} {name value : Bytes} (hadd : h.add name value = .ok h') :
    ∃ field : HeaderField, field.Holds name value ∧ h'.fields = h.fields.set h.count field
      ∧ h'.count = h.count + 1
      ∧ h.count < maxHeaderFieldNumber := by
  unfold add at hadd
  split_ifs at hadd with hcount
  obtain ⟨field, hset, hadd⟩ := bind_eq_ok.mp hadd
  obtain rfl := Except.ok.inj hadd
  exact ⟨field, HeaderField.set_holds hset, rfl, rfl, by omega⟩

/-- **One more header.** The ones before it are in other fields, so they stay. -/
theorem Holds.add {h h' : HeaderList} {headers : List (Bytes × Bytes)}
    {name value : Bytes} (hh : h.Holds headers) (hadd : h.add name value = .ok h') :
    h'.Holds (headers ++ [(name, value)]) := by
  obtain ⟨field, hfield, hfields, hcount, hroom⟩ := add_eq_ok hadd
  refine ⟨?_, ?_⟩
  · rw [hcount, hh.count, List.length_append, List.length_singleton]
  · intro i x hx
    rw [hfields]
    -- The entries before the cursor are untouched; the one at the cursor is the new header.
    rcases Nat.lt_or_ge i headers.length with hbefore | hbehind
    · rw [List.getElem?_append_left hbefore] at hx
      obtain ⟨f, hf, hholds⟩ := hh.field i x hx
      refine ⟨f, ?_, hholds⟩
      rw [List.getElem?_set_ne (by rw [hh.count]; omega)]
      exact hf
    · rw [List.getElem?_append_right hbehind] at hx
      obtain ⟨hlast, rfl⟩ : i - headers.length = 0 ∧ (name, value) = x := by
        cases hk : i - headers.length with
        | zero =>
            rw [hk] at hx
            exact ⟨rfl, Option.some.inj hx⟩
        | succ k =>
            rw [hk] at hx
            cases hx
      obtain rfl : i = h.count := by rw [hh.count]; omega
      refine ⟨field, ?_, hfield⟩
      rw [List.getElem?_set_self (by rw [h.length_fields]; exact hroom)]

/-- What `add_header_field` does to a list, and what it leaves when it ends in `set`. -/
def write (h : HeaderList) (name value : Bytes) : HeaderList × Option Abort :=
  if hcount : maxHeaderFieldNumber ≤ h.count then (h, some .tooManyHeaders)
  else
    let (field, e) := (h.fields.get ⟨h.count, h.count_lt_length hcount⟩).write name value
    ({ fields := h.fields.set h.count field
       count := if e = none then h.count + 1 else h.count
       length_fields := h.length_set field }, e)

theorem add_eq_write (h : HeaderList) (name value : Bytes) :
    h.add name value
      = match h.write name value with
        | (h', none) => .ok h'
        | (_, some e) => .error e := by
  unfold add write
  by_cases hcount : maxHeaderFieldNumber ≤ h.count
  · rw [dif_pos hcount, dif_pos hcount]
  · rw [dif_neg hcount, dif_neg hcount, HeaderField.set_eq_write]
    cases hwrite : (h.fields.get ⟨h.count, h.count_lt_length hcount⟩).write name value with
    | mk field e => cases e <;> rfl

/-- **A refused call leaves the list as it was**, unless it is refused for a text that is as long
as its array. -/
theorem write_refused {h h' : HeaderList} {name value : Bytes} {e : Abort}
    (hwrite : h.write name value = (h', some e)) (hname : name.length ≠ maxHeaderFieldSize)
    (hvalue : value.length ≠ maxHeaderFieldSize) : h' = h := by
  unfold write at hwrite
  split_ifs at hwrite with hcount
  · exact (Prod.mk.inj hwrite).1.symm
  · have hlt := h.count_lt_length hcount
    cases hfield : (h.fields.get ⟨h.count, hlt⟩).write name value with
    | mk field e' =>
        rw [hfield] at hwrite
        obtain ⟨hlist, he⟩ := Prod.mk.inj hwrite
        subst he
        obtain rfl := HeaderField.write_refused hfield hname hvalue
        rw [← hlist]
        simp

end HeaderList

/-! ## Messages -/

/-- The lists of a message that a header can go to. -/
inductive HeaderKind
  | request
  | response
  | trailer
  deriving DecidableEq

/-- The arguments of `add_header_field`, with its two flags. -/
structure HeaderCall where
  name : Bytes
  value : Bytes
  request : Bool
  tailer : Bool

namespace HeaderCall

/-- The list that the header is for, by its flags. -/
def kind (c : HeaderCall) : HeaderKind := if c.request then .request
    else if c.tailer then .trailer else .response

/-- The header itself. -/
def field (c : HeaderCall) : Bytes × Bytes := (c.name, c.value)

/-- What `add_header_field` does with a header before it is stored. The last component says that it
is not stored. -/
def interpret (config : IdConfig) (kind : HTTP) (local_id_counter : RPCID)
    (ids : Identified) (c : HeaderCall) :
    Except Abort (Identified × RPCID × Bool) := do
  let ids ←
    match kind with
    | .HTTP1 => .ok ids
    | .HTTP2 =>
      -- `strcmp`, up to the first zero byte of the name
      if cstring c.name = PATH then
        -- `value + 1` with the length `-1`, for which no string can be made
        if c.value = [] then .error .lengthError else .ok { ids with rpc.service := c.value.tail }
      else .ok ids
  if c.request then read_request_header config local_id_counter ids c.name c.value
  else .ok (ids, local_id_counter, false)

/-- A header with such flags has a list in a message of this class. -/
def Listed (kind : HTTP) (c : HeaderCall) : Prop := c.tailer = true →
    kind = .HTTP2 ∧ c.request = false

end HeaderCall

/-- **Every header gets to its list**: none is refused, and none is only for the sidecar. -/
def HeaderCall.Admitted (config : IdConfig) (kind : HTTP) : RPCID → Identified →
    List HeaderCall → Prop
  | _, _, [] => True
  | local_id_counter, ids, c :: calls =>
    c.Listed kind ∧ ∃ ids' local_id_counter', c.interpret config kind local_id_counter ids
      = .ok (ids', local_id_counter', false)
      ∧ HeaderCall.Admitted config kind local_id_counter' ids' calls

namespace Message

/-- The lists of headers of a message. There are no trailers in an `HTTPMessage`. -/
def list : Message → HeaderKind → HeaderList
  | .grpc m, .request => m.req_headers
  | .grpc m, .response => m.res_headers
  | .grpc m, .trailer => m.res_trailers
  | .http m, .request => m.req_headers
  | .http m, .response => m.res_headers
  | .http _, .trailer => .create

/-- A series of calls of `add_header_field`, in any mixture of requests, responses and trailers. -/
def add_all (config : IdConfig) : List HeaderCall → RPCID → Message → Except Abort (Message × RPCID)
  | [], local_id_counter, m => .ok (m, local_id_counter)
  | c :: calls, local_id_counter, m => do
    let (m, local_id_counter) ← m.add_header_field config local_id_counter
      c.name c.value c.request c.tailer
    add_all config calls local_id_counter m

/-! ### One call -/

variable {config : IdConfig} {counter counter' : RPCID} {m m' : Message} {c : HeaderCall}

/-- What `:path` does to a message, it does to the part that the rest of the call reads. -/
theorem read_path_interpret {g g₁ : gRPCMessage} (hpath : g.read_path c.name c.value = .ok g₁) :
    list (.grpc g₁) = list (.grpc g)
      ∧ c.interpret config .HTTP2 counter g.ids
        = (if c.request then read_request_header config counter g₁.ids c.name c.value
        else .ok (g₁.ids, counter, false)) := by
  unfold gRPCMessage.read_path at hpath
  unfold HeaderCall.interpret
  dsimp only
  split_ifs at hpath with hname hvalue
  all_goals obtain rfl := Except.ok.inj hpath
  · rw [if_pos hname, if_neg hvalue]
    exact ⟨funext fun kind => by cases kind <;> rfl, rfl⟩
  · rw [if_neg hname]
    exact ⟨rfl, rfl⟩

theorem read_path_of_interpret {g : gRPCMessage} {x : Identified × RPCID × Bool}
    (hread : c.interpret config .HTTP2 counter g.ids = .ok x) :
    ∃ g₁, g.read_path c.name c.value = .ok g₁ := by
  unfold HeaderCall.interpret at hread
  unfold gRPCMessage.read_path
  dsimp only at hread
  split_ifs with hname hvalue
  · rw [if_pos hname, if_pos hvalue] at hread
    cases hread
  · exact ⟨_, rfl⟩
  · exact ⟨_, rfl⟩

/-- What a call has done that returned: one list has grown by one header, or the header was
dropped. -/
theorem add_inv (hadd : m.add_header_field config counter c.name c.value c.request c.tailer
    = .ok (m', counter')) :
    m'.kind = m.kind ∧ ∃ dropped, c.interpret config m.kind counter m.ids
      = .ok (m'.ids, counter', dropped)
      ∧ (dropped = true ∧ m'.list = m.list
        ∨ dropped = false ∧ c.Listed m.kind ∧ ∃ l, (m.list c.kind).add c.name c.value = .ok l
          ∧ m'.list = Function.update m.list c.kind l) := by
  obtain ⟨name, value, request, tailer⟩ := c
  cases m with
  -- The HTTP/2 call stores requests, responses and trailers in three lists.
  | grpc g =>
      obtain ⟨⟨g', c'⟩, hg, hadd⟩ := bind_eq_ok.mp hadd
      obtain ⟨rfl, rfl⟩ := Prod.mk.inj (Except.ok.inj hadd)
      refine ⟨rfl, ?_⟩
      obtain ⟨g₁, hpath, hg⟩ := bind_eq_ok.mp hg
      obtain ⟨hlists, hinterpret⟩ :=
        @read_path_interpret config counter ⟨name, value, request, tailer⟩ _ _ hpath
      show ∃ dropped, HeaderCall.interpret config .HTTP2 counter g.ids _ = _ ∧ _
      rw [hinterpret, ← hlists]
      dsimp only at hg ⊢
      cases request with
      | true =>
          obtain ⟨⟨ids, c₁, dropped⟩, hread, hg⟩ := bind_eq_ok.mp hg
          rw [if_pos rfl, hread]
          cases dropped with
          | true =>
              obtain ⟨rfl, rfl⟩ := Prod.mk.inj (Except.ok.inj hg)
              exact ⟨true, rfl, .inl ⟨rfl, funext fun kind => by cases kind <;> rfl⟩⟩
          | false =>
              cases tailer with
              | true => cases hg
              | false =>
                  obtain ⟨l, hl, hg⟩ := bind_eq_ok.mp hg
                  obtain ⟨rfl, rfl⟩ := Prod.mk.inj (Except.ok.inj hg)
                  exact ⟨false, rfl,
                    .inr ⟨rfl, nofun, l, hl, funext fun kind => by cases kind <;> rfl⟩⟩
      | false =>
          rw [if_neg Bool.false_ne_true]
          cases tailer with
          | true =>
              obtain ⟨l, hl, hg⟩ := bind_eq_ok.mp hg
              obtain ⟨rfl, rfl⟩ := Prod.mk.inj (Except.ok.inj hg)
              exact ⟨false, rfl,
                .inr ⟨rfl, fun _ => ⟨rfl, rfl⟩, l, hl, funext fun kind => by cases kind <;> rfl⟩⟩
          | false =>
              obtain ⟨l, hl, hg⟩ := bind_eq_ok.mp hg
              obtain ⟨rfl, rfl⟩ := Prod.mk.inj (Except.ok.inj hg)
              exact ⟨false, rfl, .inr ⟨rfl, nofun, l, hl, funext fun kind => by cases kind <;> rfl⟩⟩
  -- The HTTP/1.1 call refuses a trailer and has two lists.
  | http h =>
      obtain ⟨⟨h', c'⟩, hh, hadd⟩ := bind_eq_ok.mp hadd
      obtain ⟨rfl, rfl⟩ := Prod.mk.inj (Except.ok.inj hadd)
      refine ⟨rfl, ?_⟩
      cases tailer with
      | true => cases hh
      | false =>
          cases request with
          | true =>
              obtain ⟨⟨ids, c₁, dropped⟩, hread, hh⟩ := bind_eq_ok.mp hh
              have hinterpret : HeaderCall.interpret config .HTTP1 counter
                  h.ids ⟨name, value, true, false⟩
                = .ok (ids, c₁, dropped) := hread
              cases dropped with
              | true =>
                  obtain ⟨rfl, rfl⟩ := Prod.mk.inj (Except.ok.inj hh)
                  exact ⟨true, hinterpret, .inl ⟨rfl, funext fun kind => by cases kind <;> rfl⟩⟩
              | false =>
                  obtain ⟨l, hl, hh⟩ := bind_eq_ok.mp hh
                  obtain ⟨rfl, rfl⟩ := Prod.mk.inj (Except.ok.inj hh)
                  exact ⟨false, hinterpret,
                    .inr ⟨rfl, nofun, l, hl, funext fun kind => by cases kind <;> rfl⟩⟩
          | false =>
              obtain ⟨l, hl, hh⟩ := bind_eq_ok.mp hh
              obtain ⟨rfl, rfl⟩ := Prod.mk.inj (Except.ok.inj hh)
              exact ⟨false, rfl, .inr ⟨rfl, nofun, l, hl, funext fun kind => by cases kind <;> rfl⟩⟩

/-- A call returns that has a header for the storage, if the list takes it. -/
theorem add_returns {x : Identified × RPCID} {l : HeaderList} (hlisted : c.Listed m.kind)
    (hread : c.interpret config m.kind counter m.ids = .ok (x.1, x.2, false))
    (hadd : (m.list c.kind).add c.name c.value = .ok l) :
    ∃ m', m.add_header_field config counter c.name c.value c.request c.tailer = .ok (m', x.2) := by
  obtain ⟨name, value, request, tailer⟩ := c
  cases m with
  | grpc g =>
      -- The first lines of the call look at the path only, and fail only where the reading fails.
      obtain ⟨g₁, hpath⟩ :=
        @read_path_of_interpret config counter ⟨name, value, request, tailer⟩ _ _ hread
      obtain ⟨hlists, hinterpret⟩ :=
        @read_path_interpret config counter ⟨name, value, request, tailer⟩ _ _ hpath
      have hread' := hinterpret.symm.trans hread
      rw [← hlists] at hadd
      have hstep : ∃ g', g.add_header_field config counter name value request tailer
          = .ok (g', x.2) := by
        unfold gRPCMessage.add_header_field
        dsimp only at hread'
        rw [hpath, ok_bind]
        cases request with
        | true =>
            rw [if_pos rfl] at hread' ⊢
            rw [hread', ok_bind]
            cases tailer with
            | true => exact nomatch (hlisted rfl).2
            | false => exact ⟨_, bind_eq_ok.mpr ⟨l, hadd, rfl⟩⟩
        | false =>
            obtain ⟨-, hc⟩ := Prod.mk.inj (Except.ok.inj hread')
            obtain ⟨rfl, -⟩ := Prod.mk.inj hc
            cases tailer with
            | true => exact ⟨_, bind_eq_ok.mpr ⟨l, hadd, rfl⟩⟩
            | false => exact ⟨_, bind_eq_ok.mpr ⟨l, hadd, rfl⟩⟩
      obtain ⟨g', hg'⟩ := hstep
      exact ⟨.grpc g', bind_eq_ok.mpr ⟨_, hg', rfl⟩⟩
  | http h =>
      have hstep : ∃ h', h.add_header_field config counter name value request tailer
          = .ok (h', x.2) := by
        unfold HTTPMessage.add_header_field
        cases tailer with
        | true => exact nomatch (hlisted rfl).1
        | false =>
            cases request with
            | true => exact ⟨_, bind_eq_ok.mpr ⟨_, hread, bind_eq_ok.mpr ⟨l, hadd, rfl⟩⟩⟩
            | false =>
                obtain ⟨-, hc⟩ := Prod.mk.inj (Except.ok.inj hread)
                obtain ⟨rfl, -⟩ := Prod.mk.inj hc
                exact ⟨_, bind_eq_ok.mpr ⟨l, hadd, rfl⟩⟩
      obtain ⟨h', hh'⟩ := hstep
      exact ⟨.http h', bind_eq_ok.mpr ⟨_, hh', rfl⟩⟩

/-! ### A series of calls -/

variable {calls : List HeaderCall}

/-- The headers for one of the lists, in the order of the calls. -/
def headersFor (kind : HeaderKind) (calls : List HeaderCall) : List (Bytes × Bytes) :=
  (calls.filter fun c => c.kind = kind).map HeaderCall.field

theorem headersFor_cons (kind : HeaderKind) (c : HeaderCall) (calls : List HeaderCall) :
    headersFor kind (c :: calls) = (if c.kind = kind then [c.field] else [])
      ++ headersFor kind calls := by
  unfold headersFor
  rw [List.filter_cons]
  split_ifs with h h' h'
  · rfl
  · exact absurd (of_decide_eq_true h) h'
  · exact absurd (decide_eq_true h') h
  · rfl

/-- **Short headers are stored.** The induction is on the calls; what the lists have before is
kept. -/
theorem add_all_holds {before : HeaderKind → List (Bytes × Bytes)}
    (hbefore : ∀ kind, (m.list kind).Holds (before kind))
    (hroom : ∀ kind, (before kind ++ headersFor kind calls).length ≤ maxHeaderFieldNumber)
    (hshort : ∀ c ∈ calls, c.name.length < maxHeaderFieldSize ∧ c.value.length < maxHeaderFieldSize)
    (hadmitted : HeaderCall.Admitted config m.kind counter m.ids calls) :
    ∃ m' counter', add_all config calls counter m = .ok (m', counter')
      ∧ ∀ kind, (m'.list kind).Holds (before kind ++ headersFor kind calls) := by
  induction calls generalizing m counter before with
  | nil =>
      refine ⟨m, counter, rfl, ?_⟩
      intro kind
      have hnone : headersFor kind [] = [] := rfl
      rw [hnone, List.append_nil]
      exact hbefore kind
  | cons c calls ih =>
      obtain ⟨hlisted, ids', counter₁, hread, hrest⟩ := hadmitted
      obtain ⟨hname, hvalue⟩ := hshort c List.mem_cons_self
      have hcount : (m.list c.kind).count < maxHeaderFieldNumber := by
        have := hroom c.kind
        rw [headersFor_cons, if_pos rfl, List.length_append, List.length_append,
          List.length_singleton] at this
        rw [(hbefore c.kind).count]
        omega
      obtain ⟨l, hadd⟩ := HeaderList.add_exists hcount hname hvalue
      obtain ⟨m₁, hm₁⟩ := add_returns (x := (ids', counter₁)) hlisted hread hadd
      obtain ⟨hkind, dropped, hread₁, hlist⟩ := add_inv hm₁
      obtain ⟨hids, hc⟩ := Prod.mk.inj (Except.ok.inj (hread.symm.trans hread₁))
      obtain ⟨-, rfl⟩ := Prod.mk.inj hc
      rcases hlist with ⟨h, -⟩ | ⟨-, -, l', hadd', hlist⟩
      · cases h
      obtain rfl := Except.ok.inj (hadd.symm.trans hadd')
      rw [hids, ← hkind] at hrest
      -- what the first call stores, and then the others
      have hsplit : ∀ kind, before kind ++ headersFor kind (c :: calls)
          = (before kind ++ if c.kind = kind then [c.field] else []) ++ headersFor kind calls := by
        intro kind
        rw [headersFor_cons, List.append_assoc]
      have hone : ∀ kind, (m₁.list kind).Holds (before kind ++ if c.kind = kind then [c.field]
          else []) := by
        intro kind
        rw [hlist]
        by_cases hsame : c.kind = kind
        · subst hsame
          rw [Function.update_self, if_pos rfl]
          exact (hbefore c.kind).add hadd
        · rw [Function.update_of_ne (Ne.symm hsame), if_neg hsame, List.append_nil]
          exact hbefore kind
      obtain ⟨m', counter', hall, hholds⟩ := ih hone (fun kind => hsplit kind ▸ hroom kind)
        (fun c' hc' => hshort c' (List.mem_cons_of_mem _ hc')) hrest
      refine ⟨m', counter', bind_eq_ok.mpr ⟨(m₁, counter₁), hm₁, hall⟩, ?_⟩
      intro kind
      rw [hsplit]
      exact hholds kind

/-- Nothing is in the lists of a message that was cleared, whatever it held before. -/
theorem holds_of_clear (hclear : m.clear = .ok m') (kind : HeaderKind) :
    (m'.list kind).Holds [] := by
  cases m with
  | grpc g =>
      obtain ⟨g', hg, hclear⟩ := bind_eq_ok.mp hclear
      obtain rfl := Except.ok.inj hclear
      obtain ⟨rpc, -, hg⟩ := bind_eq_ok.mp hg
      obtain rfl := Except.ok.inj hg
      cases kind <;> exact HeaderList.clear_holds _
  | http h =>
      obtain ⟨h', hh, hclear⟩ := bind_eq_ok.mp hclear
      obtain rfl := Except.ok.inj hclear
      obtain ⟨rpc, -, hh⟩ := bind_eq_ok.mp hh
      obtain rfl := Except.ok.inj hh
      cases kind with
      | request => exact HeaderList.clear_holds _
      | response => exact HeaderList.clear_holds _
      | trailer => exact ⟨rfl, fun i x hx => nomatch hx⟩

/-- A series adds at most one field a call, so the number of headers is bounded by the calls. -/
theorem add_all_count (hall : add_all config calls counter m = .ok (m', counter'))
    (kind : HeaderKind) :
    (m'.list kind).count ≤ (m.list kind).count + (headersFor kind calls).length := by
  induction calls generalizing m counter with
  | nil =>
      obtain ⟨rfl, -⟩ := Prod.mk.inj (Except.ok.inj hall)
      exact Nat.le_add_right _ _
  | cons c calls ih =>
      obtain ⟨⟨m₁, counter₁⟩, hm₁, hrest⟩ := bind_eq_ok.mp hall
      have hle := ih hrest
      rw [headersFor_cons, List.length_append]
      rcases (add_inv hm₁).2 with ⟨dropped, -, ⟨-, hlist⟩ | ⟨-, -, l, hadd, hlist⟩⟩
      · rw [hlist] at hle
        omega
      · rw [hlist] at hle
        by_cases hsame : c.kind = kind
        · subst hsame
          rw [Function.update_self, (HeaderList.add_text hadd).2.1] at hle
          rw [if_pos rfl, List.length_singleton]
          omega
        · rw [Function.update_of_ne (Ne.symm hsame)] at hle
          omega

/-- **What is stored was short.** Where the lists have grown by all the headers, none was dropped
on the way. -/
theorem add_all_inv (hall : add_all config calls counter m = .ok (m', counter'))
    (hcount : ∀ kind, (m'.list kind).count = (m.list kind).count + (headersFor kind calls).length) :
    HeaderCall.Admitted config m.kind counter m.ids calls
      ∧ ∀ c ∈ calls, c.name.length < maxHeaderFieldSize ∧ c.value.length < maxHeaderFieldSize := by
  induction calls generalizing m counter with
  | nil => exact ⟨trivial, fun c hc => absurd hc List.not_mem_nil⟩
  | cons c calls ih =>
      obtain ⟨⟨m₁, counter₁⟩, hm₁, hrest⟩ := bind_eq_ok.mp hall
      obtain ⟨hkind, dropped, hread, hlist⟩ := add_inv hm₁
      rcases hlist with ⟨-, hlist⟩ | ⟨rfl, hlisted, l, hadd, hlist⟩
      · -- a dropped header is missing in the end
        have hle := add_all_count hrest c.kind
        have hall' := hcount c.kind
        rw [headersFor_cons, if_pos rfl, List.length_append, List.length_singleton] at hall'
        rw [hlist] at hle
        omega
      · obtain ⟨hadmitted, hshort⟩ := ih hrest (by
          intro kind
          have hall' := hcount kind
          rw [headersFor_cons, List.length_append] at hall'
          rw [hlist]
          by_cases hsame : c.kind = kind
          · subst hsame
            rw [if_pos rfl, List.length_singleton] at hall'
            rw [Function.update_self, (HeaderList.add_text hadd).2.1]
            omega
          · rw [if_neg hsame, List.length_nil] at hall'
            rw [Function.update_of_ne (Ne.symm hsame)]
            omega)
        rw [hkind] at hadmitted
        refine ⟨⟨hlisted, m₁.ids, counter₁, hread, hadmitted⟩, ?_⟩
        intro c' hc'
        rcases List.mem_cons.mp hc' with rfl | hc'
        · exact HeaderList.add_terminated hadd
        · exact hshort c' hc'

/-- The calls return, and the lists then have the headers they were called with. -/
def Kept (config : IdConfig) (counter : RPCID) (m : Message) (calls : List HeaderCall) : Prop :=
  ∃ m' counter', add_all config calls counter m = .ok (m', counter')
    ∧ ∀ kind, (m'.list kind).Holds (headersFor kind calls)

/-- **When headers are kept**, by a message that was cleared, whatever longer ones it had before:
no list gets more of them than it has fields, each of them gets to its list, and all are shorter
than the arrays. A call that is refused leaves the list as it was, if it is not for a text that
fills its array. -/
theorem headers_kept_iff (config : IdConfig) :
    (∀ (counter : RPCID) (before m : Message) (calls : List HeaderCall), before.clear = .ok m →
      (∀ kind, (headersFor kind calls).length ≤ maxHeaderFieldNumber) →
      (∀ c ∈ calls, c.name.length ≤ maxHeaderFieldSize ∧ c.value.length ≤ maxHeaderFieldSize) →
      (Kept config counter m calls ↔ HeaderCall.Admitted config m.kind counter m.ids calls
        ∧ ∀ c ∈ calls, c.name.length ≠ maxHeaderFieldSize ∧ c.value.length ≠ maxHeaderFieldSize))
    ∧ ∀ (h h' : HeaderList) (name value : Bytes) (e : Abort), h.write name value = (h', some e) →
      h.add name value = .error e
        ∧ (name.length ≠ maxHeaderFieldSize ∧ value.length ≠ maxHeaderFieldSize → h' = h) := by
  constructor
  · intro counter before m calls hclear hnumber hsize
    have hempty : ∀ kind, (m.list kind).Holds [] := holds_of_clear hclear
    constructor
    · -- The number of headers is bounded, so the only thing that a kept list excludes is the one
      -- length that passes the comparison and not the indexing.
      rintro ⟨m', counter', hall, hholds⟩
      obtain ⟨hadmitted, hshort⟩ := add_all_inv hall (by
        intro kind
        rw [(hholds kind).count, (hempty kind).count, List.length_nil, Nat.zero_add])
      refine ⟨hadmitted, ?_⟩
      intro c hc
      have := hshort c hc
      omega
    · rintro ⟨hadmitted, hne⟩
      have hshort : ∀ c ∈ calls, c.name.length < maxHeaderFieldSize
          ∧ c.value.length < maxHeaderFieldSize := by
        intro c hc
        have hle := hsize c hc
        have hne' := hne c hc
        omega
      obtain ⟨m', counter', hall, hholds⟩ :=
        add_all_holds hempty (fun kind => hnumber kind) hshort hadmitted
      exact ⟨m', counter', hall, hholds⟩
  · intro h h' name value e hwrite
    refine ⟨?_, fun hne => HeaderList.write_refused hwrite hne.1 hne.2⟩
    rw [HeaderList.add_eq_write, hwrite]

/-! ### A header of one byte, and one of sixty -/

/-- A message that was just made, for the concrete runs. -/
def made : Message := .grpc (.create (RPCMapper.blankMessage .HTTP2 .EGRESS 0))

/-- It is as if it had been cleared, so the theorems apply to it. -/
theorem clear_made : made.clear = .ok made := rfl

/-- A header of a response, with the given value. -/
def responseHeader (value : Bytes) : HeaderCall := ⟨[120], value, false, false⟩

/-- Two headers of a response, of forty and fifty bytes, which later contents are shorter than. -/
def longHeaders : List HeaderCall :=
  [⟨List.replicate 40 120, List.replicate 50 121, false, false⟩,
    ⟨List.replicate 50 97, List.replicate 40 98, false, false⟩]

/-- A message that has them, and would still have their bytes after a `clear`. -/
def used : Message :=
  match add_all ⟨false, false⟩ longHeaders 0 made with
  | .ok (m, _) => m
  | .error _ => made

/-- The same object, for the next RPC: the texts are still there, behind lists that are empty. -/
def reused : Message :=
  match used.clear with
  | .ok m => m
  | .error _ => made

/-- Headers of a request and of a response, and a trailer, each shorter than what was stored in its
place. -/
def shortHeaders : List HeaderCall :=
  [responseHeader [121], ⟨[97, 98], [99], true, false⟩, ⟨[100], [101, 102], false, false⟩,
    ⟨[103], [], false, true⟩]

/-- Shorter headers are kept, over those of the RPC before, of which bytes are left behind them. -/
theorem headers_kept_iff_short : Kept ⟨false, false⟩ 0 reused shortHeaders := by
  refine ((headers_kept_iff ⟨false, false⟩).1 0 used reused shortHeaders rfl ?_ (by decide)).mpr ?_
  · intro kind
    cases kind <;> decide
  · refine ⟨⟨nofun, _, _, rfl, nofun, _, _, rfl, nofun, _, _, rfl, ?_, _, _, rfl, trivial⟩, by
      decide⟩
    exact fun _ => ⟨rfl, rfl⟩

/-- A value of sixty bytes passes the check, and ends the process; the field then has the new name,
and still the old length of the value. -/
theorem full_size_not_kept :
    (¬ ∀ (config : IdConfig) (counter : RPCID) (before m : Message)
      (calls : List HeaderCall), before.clear = .ok m →
      (∀ kind, (headersFor kind calls).length ≤ maxHeaderFieldNumber) →
      (∀ c ∈ calls, c.name.length ≤ maxHeaderFieldSize ∧ c.value.length ≤ maxHeaderFieldSize) →
      HeaderCall.Admitted config m.kind counter m.ids calls → Kept config counter m calls)
    ∧ ((HeaderList.create.write [120] (List.replicate 60 121)).1.fields.head?.map HeaderField.text)
      = some ([120], []) := by
  constructor
  · intro hall
    obtain ⟨m', counter', hkept, -⟩ :=
      hall ⟨false, false⟩ 0 made made [responseHeader (List.replicate 60 121)] clear_made
      (fun kind => by cases kind <;> decide) (by decide) ⟨nofun, _, _, rfl, trivial⟩
    have habort : add_all ⟨false, false⟩ [responseHeader (List.replicate 60 121)] 0 made
        = .error .outOfRange := rfl
    rw [habort] at hkept
    cases hkept
  · decide

end Message

end RlpSidecar
