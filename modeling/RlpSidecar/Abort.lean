/-
Why the process ends.

The sidecar has no recovery path: `LOG(FATAL)` aborts, and an exception that the
event loop catches is logged with `LOG(FATAL)` as well. A modelled function that
can take such a path returns `Except Abort`, with one constructor for each kind of
failing site, so that "this function never aborts here" is a statement about the
constructor it does not return.

Most proofs about such functions are of one of two kinds. `Ends bad good` says how a computation
ends: its result is `good`, or it aborts for a reason in `bad`. `Agree` is about two computations
side by side: they abort for the same reason, or their results are related. Both go through `bind`,
so one lemma for each function gives the way a whole handler can end.
-/
import Mathlib.Data.Nat.Basic

set_option autoImplicit false

namespace RlpSidecar

/-- A failing site. The text after a constructor is the message the source logs there, or
the rule of C++ it breaks. -/
inductive Abort
  /-- A read outside a buffer or a vector, or a remainder by zero. -/
  | undefined
  /-- `std::out_of_range`, from `at()`. -/
  | outOfRange
  /-- `std::length_error`, from the constructor of a vector above its maximal size. -/
  | lengthError
  /-- "duplicate key" -/
  | duplicateKey
  /-- "LocalMap key '…' not found" -/
  | keyNotFound
  /-- "Buffer size is too small" -/
  | bufferTooSmall
  /-- "Buffer overflow" -/
  | bufferOverflow
  /-- "Invalid message type: …" -/
  | invalidMessageType
  /-- "Invalid message length: …" -/
  | invalidMessageLength
  /-- "RLP UDP payload too short: …" -/
  | payloadTooShort
  /-- "Invalid RLP length byte: …" -/
  | invalidLengthByte
  /-- "Unknown RLP UDP message: …", "Unknown message type" -/
  | unknownMessage
  /-- "ProtocolServer only handles Credit Requests" -/
  | notACreditRequest
  /-- "Batching is not allowed" -/
  | batching
  /-- "Invalid RTT: …" -/
  | invalidRtt
  /-- "service … not found in config.mapping" -/
  | notInMapping
  /-- "credit_return queue is not empty" -/
  | creditReturnsLeft
  /-- "rpc-local-id is -1 on INGRESS side", "local id: … is not in valid range" -/
  | invalidLocalId
  /-- "No RPCMessage available in the pool" -/
  | poolEmpty
  /-- "RPCMessage is still in use, count: …" -/
  | stillInUse
  /-- "RPC already exists for stream id: …" -/
  | rpcExists
  /-- "id: … already existed in id_map" -/
  | idExists
  /-- "No US RPC found for fd: …" -/
  | noUsRpc
  /-- "No DS RPC found for fd: …" -/
  | noDsRpc
  /-- "Upper 32 bits of local id is zero …", "No INGRESS RPC found for id: …" -/
  | noIngressRpc
  /-- "Insertion of id: … into ppm_queue did not take place", "Error in pushing RPC message …" -/
  | ppmPush
  /-- "Trying to pop from an empty queue …", "… with an invalid id", "Service not found in PPM
  queue: …" -/
  | ppmPop
  /-- "Service not found in PPM queue: … (size: …)" -/
  | ppmCheck
  /-- "Missmatch between credits requested: …", "Receiving 0 credits is not allowed. …" -/
  | creditMismatch
  /-- "Request has no ID …" -/
  | requestHasNoId
  /-- "Request has no priority …" -/
  | requestHasNoPriority
  /-- "Service mismatch in drop RPC …", "Service mismatch in ingress …" -/
  | serviceMismatch
  /-- "Null pointer after dynamic_pointer_cast" -/
  | nullPointer
  /-- `std::invalid_argument`, from `stoll`. -/
  | invalidArgument
  /-- "HeaderField name is too long", "HeaderField value is too long" -/
  | headerTooLong
  /-- "Too many headers", "Too many trailers" -/
  | tooManyHeaders
  /-- "Tailer in request", "Tailers are not supported in HTTPMessage" -/
  | trailerInRequest
  /-- "Data length exceeds maximum payload size" -/
  | payloadTooLong
  /-- "Request data is not supported in HTTPMessage" -/
  | requestData
  /-- "Invalid service format" -/
  | invalidService
  /-- "No SLO configured for ingress service: …", "No priority configured …", "Invalid priority
  configured …" -/
  | invalidConfig
  /-- "No RPC message in ingress queue for service: …" -/
  | ingressEmpty
  /-- "No free user data available" -/
  | noUserData
  /-- "Buffer is null", "Buffer is not null" -/
  | userDataBuffer
  /-- "UserData is in CLEAR state, …" -/
  | userDataClear
  /-- "Failed to accept connection, …", "Failed to read from …", "Failed to connect to …",
  "Failed to write to …", "Failed to receive UDP message, …", "Failed to send message" -/
  | operationFailed
  /-- "Removing connection for upstream is not implemented. …" -/
  | upstreamRemoved
  /-- "RPC mapper is not empty for fd: …" -/
  | mapperNotEmpty
  /-- "Invalid direction for request frame" -/
  | invalidDirection
  /-- "Failed to parse HTTP/1.1 request on fd: …" -/
  | parseFailed
  /-- "Content-Length header is not supported in HTTP/1.1 requests, …" -/
  | contentLengthInRequest
  /-- "Failed to parse Content-Length header, …" -/
  | contentLengthInvalid
  /-- "Chunked transfer encoding is not supported in HTTP/1.1 responses, …" -/
  | chunkedEncoding
  /-- "We have more data than headers size …" -/
  | moreData
  /-- "Reading a request on non-idle connection, …", "Reading a response from idle connection, …",
  "Writing a request to non-idle connection, …" -/
  | wrongIdle
  /-- "Ingress should be on the EGRESS connection, …", "… while both config.is_ingress and
  config.is_frontend are false" -/
  | wrongEdge
  /-- "RPC message is already set" -/
  | messageSet
  /-- "RPC message is not set" -/
  | messageNotSet
  /-- "No connection available for routing request: …" -/
  | noConnection
  /-- "Connection with fd: … not found in pool …", "Service not found in routing table: …" -/
  | noPool
  /-- "negative value in down method of TimeWeightedMean with description: …" -/
  | negativeMean
  /-- "No free buffer available" or "No free UDP buffer available" -/
  | noFreeBuffer
  /-- "Buffer is not free, index: …" -/
  | bufferNotFree
  /-- "TCP buffer id out of range: …" or "UDP buffer id out of range: …" -/
  | bufferIdOutOfRange
  /-- "Buffer is null, index: …" -/
  | bufferIsNull
  /-- "buffer cannot be null" -/
  | bufferCannotBeNull
  /-- "Buffer is already free, index: …" -/
  | bufferAlreadyFree
  /-- "Buffer deconstructor (should not be called)" -/
  | bufferDestroyed
  /-- "Buffer count is not power of 2", "Buffer count is too large", "Failed to register buffer
  ring …" -/
  | ringSetup
  /-- "Buffer too small for a single write, written: …" -/
  | singleWriteTooLarge
  /-- A loop that ran out of the fuel the model gives it. No run reaches it. -/
  | diverges
  deriving DecidableEq, Repr

/-- A computation that succeeds went through its first step, and on from what that returned. -/
theorem bind_eq_ok {α β : Type} {x : Except Abort α} {f : α → Except Abort β} {b : β} :
    (x >>= f) = .ok b ↔ ∃ a, x = .ok a ∧ f a = .ok b := by
  cases x with
  | error e => simp [bind, Except.bind]
  | ok a => simp [bind, Except.bind]

/-- A sequence aborts in its first part, or in its second from what the first returned. -/
theorem bind_eq_error {α β : Type} {x : Except Abort α} {f : α → Except Abort β} {e : Abort} :
    (x >>= f) = .error e ↔ x = .error e ∨ ∃ a, x = .ok a ∧ f a = .error e := by
  cases x with
  | error e => simp [bind, Except.bind]
  | ok a => simp [bind, Except.bind]

@[simp] theorem ok_bind {α β : Type} (a : α) (f : α → Except Abort β) :
    (Except.ok a >>= f) = f a := rfl

/-! ## How a computation ends -/

/-- The computation returns a value with `post`, or aborts for one of the reasons `blame`. -/
def Ends {α : Type} (blame : Abort → Prop) (post : α → Prop) : Except Abort α → Prop
  | .ok a => post a
  | .error e => blame e

namespace Ends

variable {α β : Type} {blame : Abort → Prop} {post : α → Prop} {x : Except Abort α}

/-- **The sequence rule**: what the first part ends with is what the second starts from, and both
may be to blame. -/
theorem bind {post' : β → Prop} {f : α → Except Abort β} (hx : Ends blame post x)
    (hf : ∀ a, post a → Ends blame post' (f a)) : Ends blame post' (x >>= f) := by
  cases x with
  | error e => exact hx
  | ok a => exact hf a hx

theorem mono {post' : α → Prop} (hx : Ends blame post x) (h : ∀ a, post a → post' a) :
    Ends blame post' x := by
  cases x with
  | error e => exact hx
  | ok a => exact h a hx

theorem blame_mono {blame' : Abort → Prop} (hx : Ends blame post x)
    (h : ∀ e, blame e → blame' e) : Ends blame' post x := by
  cases x with
  | error e => exact h e hx
  | ok a => exact hx

/-- Nothing is said about how it ends, so it may end in any way. -/
theorem trivial (x : Except Abort α) : Ends (fun _ => True) (fun _ => True) x := by
  cases x <;> exact True.intro

/-- A step of which only the state after it matters, and of which it does not matter whether it
aborts. -/
theorem bind_any {β : Type} {post' : β → Prop} (x : Except Abort α) {f : α → Except Abort β}
    (hf : ∀ a, Ends (fun _ => True) post' (f a)) : Ends (fun _ => True) post' (x >>= f) :=
  (trivial x).bind fun a _ => hf a

/-- A computation is to blame for how it aborts, if nothing better is known. -/
theorem of_self (h : ∀ a, x = .ok a → post a) : Ends (fun e => x = .error e) post x := by
  cases x with
  | error e => exact rfl
  | ok a => exact h a rfl

theorem of_ok (hx : Ends blame post x) {a : α} (h : x = .ok a) : post a := by
  subst h; exact hx

theorem of_error (hx : Ends blame post x) {e : Abort} (h : x = .error e) : blame e := by
  subst h; exact hx

/-- With nothing to blame it returns, and what it returns is as the rule says. -/
theorem exists_ok (hx : Ends blame post x) (h : ∀ e, ¬ blame e) : ∃ a, x = .ok a ∧ post a := by
  cases x with
  | error e => exact absurd hx (h e)
  | ok a => exact ⟨a, rfl, hx⟩

end Ends

/-! ## Two computations side by side -/

/-- Both return, with related values, or both abort for the same reason. -/
def Agree {α β : Type} (rel : α → β → Prop) : Except Abort α → Except Abort β → Prop
  | .ok a, .ok b => rel a b
  | .error e, .error e' => e = e'
  | _, _ => False

namespace Agree

variable {α β α' β' : Type} {rel : α → β → Prop} {x : Except Abort α} {y : Except Abort β}

/-- **The sequence rule** for two computations that go on from related results. -/
theorem bind {rel' : α' → β' → Prop} {f : α → Except Abort α'} {g : β → Except Abort β'}
    (h : Agree rel x y) (hfg : ∀ a b, rel a b → Agree rel' (f a) (g b)) :
    Agree rel' (x >>= f) (y >>= g) := by
  cases x with
  | error e =>
      cases y with
      | error e' => exact h
      | ok b => exact h.elim
  | ok a =>
      cases y with
      | error e' => exact h.elim
      | ok b => exact hfg a b h

/-- Nothing is said about a value that is computed twice, other than that it is the same. -/
theorem refl (x : Except Abort α) : Agree Eq x x := by
  cases x <;> exact rfl

/-- More is known of values once it is known what returned them. -/
theorem mono {rel' : α → β → Prop} (h : Agree rel x y)
    (hrel : ∀ a b, x = .ok a → y = .ok b → rel a b → rel' a b) : Agree rel' x y := by
  cases x with
  | error e =>
      cases y with
      | error e' => exact h
      | ok b => exact h.elim
  | ok a =>
      cases y with
      | error e' => exact h.elim
      | ok b => exact hrel a b rfl rfl h

theorem of_ok (h : Agree rel x y) {a : α} (hx : x = .ok a) : ∃ b, y = .ok b ∧ rel a b := by
  subst hx
  cases y with
  | error e => exact h.elim
  | ok b => exact ⟨b, rfl, h⟩

end Agree

end RlpSidecar
