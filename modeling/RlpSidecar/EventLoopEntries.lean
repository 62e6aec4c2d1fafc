/-
The entries of the listeners along a run.

What a step does to the objects is read off its label: it may bring a new connection, or be the end
of one. The entries follow from the two histories, as long as no completion comes upon what is left
of another connection.

A step is settled if it meets no such leftover; the condition is on the state before the step. In
every run of settled steps (`entries_follow`) the `k`-th connection that was accepted is found
under its descriptor until its own close is handled, its descriptor is open until its own close is
carried out, and the maps hold nothing else.
-/
import RlpSidecar.EventLoopListeners

set_option autoImplicit false

open Runs Tables

namespace RlpSidecar

namespace EventLoop

variable {count : ℕ} {config : Config}

/-! ## Steps -/

section Steps

variable {s s' : EventLoop count} {gone : List ℕ} {lost : List (Fin count)} {ud : Fin count}

/-- An accept takes a descriptor that nobody has, so no entry and no other pending accept has
it. -/
theorem accepts_kept {fd : ℤ} (h : Kept gone lost s) (hop : s.Pending ud .ACCEPT)
    (hfree : s.is_open fd = false) :
    Kept gone lost { s with
      results := Function.update s.results ud (some fd)
      is_open := Function.update s.is_open fd true
      file := Function.update s.file fd s.sockets
      sockets := s.sockets + 1 } := by
  -- the new descriptor was not open, so no other one is the same
  have hopens : ∀ fd', s.is_open fd' = true → fd' ≠ fd
      ∧ Function.update s.is_open fd true fd' = true := by
    intro fd' hopen
    have hne : fd' ≠ fd := by
      rintro rfl
      rw [hfree] at hopen
      cases hopen
    exact ⟨hne, by rw [Function.update_of_ne hne, hopen]⟩
  refine ⟨h.places.of_eq rfl rfl,
    ⟨h.book.fresh, fun o ho hno => ?_, h.book.distinct, h.book.entries,
    h.book.gone⟩, ⟨h.underway.conn, fun x hx hopx fd' hfd hpos => ?_, fun x hx hopx o ho => ?_⟩,
    h.pinned.congr rfl (fun _ _ _ => rfl) (.of_eq rfl)⟩
  · exact (hopens _ (h.book.descriptor o ho hno)).2
  · dsimp only at hfd ⊢
    by_cases hxud : x = ud
    · subst hxud
      rw [Function.update_self] at hfd
      obtain rfl := Option.some.inj hfd
      refine ⟨Function.update_self .., fun o ho hno => (hopens _ (h.book.descriptor o ho hno)).1,
        fun y hy hopy hfdy => ?_⟩
      by_contra hne
      rw [Function.update_of_ne hne] at hfdy
      exact (hopens _ (h.underway.posted y hy hopy fd hfdy hpos).1).1 rfl
    · rw [Function.update_of_ne hxud] at hfd
      obtain ⟨hopened, hothers, hunique⟩ := h.underway.posted x hx hopx fd' hfd hpos
      -- an accept from before: its descriptor is another one
      refine ⟨(hopens _ hopened).2, hothers, fun y hy hopy hfdy => ?_⟩
      by_cases hyud : y = ud
      · subst hyud
        rw [Function.update_self] at hfdy
        exact absurd (Option.some.inj hfdy).symm (hopens _ hopened).1
      · rw [Function.update_of_ne hyud] at hfdy
        exact hunique y hy hopy hfdy
  · have hxud : x ≠ ud := by
      rintro rfl
      have hopx' : (s.user_data x).op = .CANCEL := hopx
      rw [hop.2.1] at hopx'
      cases hopx'
    dsimp only
    rw [Function.update_of_ne hxud]
    exact h.underway.cancel x hx hopx o ho

/-- A close takes away the descriptor of the connection it is for, and that alone. -/
theorem closes_kept {o : ℕ} (h : Kept gone lost s) (hop : s.Pending ud .CANCEL)
    (hconn : (s.user_data ud).conn = some o) :
    Kept gone lost { s with
      results := Function.update s.results ud (some 0)
      is_open := Function.update s.is_open (s.heap o).fd false
      closed := Function.update s.closed o true } := by
  obtain ⟨hclose, _, hunique⟩ := h.underway.cancel ud hop.1 hop.2.1 o hconn
  have hclosed : s.closed o = false := hclose.mp hop.2.2
  have ho := h.underway.conn ud hop.1 o hconn (.inr (.inr hop.2.1))
  -- only `o` is closed
  have hothers : ∀ o', Function.update s.closed o true o' = false →
      o' ≠ o ∧ s.closed o' = false := by
    intro o' hno
    have hne : o' ≠ o := by
      rintro rfl
      rw [Function.update_self] at hno
      cases hno
    rw [Function.update_of_ne hne] at hno
    exact ⟨hne, hno⟩
  refine ⟨h.places.of_eq rfl rfl, ⟨fun o' ho' => ?_, fun o' ho' hno => ?_,
    fun o' ho' o'' ho'' hno hno' hfd => ?_, h.book.entries, fun o' ho' => ?_⟩,
    ⟨h.underway.conn, fun x hx hopx fd hfd hpos => ?_, fun x hx hopx o' ho' => ?_⟩,
    h.pinned.congr rfl (fun _ _ _ => rfl) (.of_eq rfl)⟩
  · have hle : s.allocated ≤ o' := ho'
    dsimp only
    rw [Function.update_of_ne (by omega)]
    exact h.book.fresh o' ho'
  · obtain ⟨hne, hno'⟩ := hothers o' hno
    dsimp only
    rw [Function.update_of_ne fun hfd => hne (h.book.distinct o' ho' o ho hno' hclosed hfd)]
    exact h.book.descriptor o' ho' hno'
  · exact h.book.distinct o' ho' o'' ho'' (hothers o' hno).2 (hothers o'' hno').2 hfd
  · dsimp only
    by_cases heq : o' = o
    · subst heq
      exact Function.update_self ..
    · rw [Function.update_of_ne heq]
      exact h.book.gone o' ho'
  · -- an accept that was answered has another descriptor than one that is being closed
    have hxud : x ≠ ud := by
      rintro rfl
      have hopx' : (s.user_data x).op = .ACCEPT := hopx
      rw [hop.2.1] at hopx'
      cases hopx'
    dsimp only at hfd ⊢
    rw [Function.update_of_ne hxud] at hfd
    obtain ⟨hopened, hfds, honly⟩ := h.underway.posted x hx hopx fd hfd hpos
    refine ⟨?_, fun o' ho' hno => hfds o' ho' (hothers o' hno).2, fun y hy hopy hfdy => ?_⟩
    · rw [Function.update_of_ne (Ne.symm (hfds o ho hclosed))]
      exact hopened
    · have hyud : y ≠ ud := by
        rintro rfl
        rw [hop.2.1] at hopy
        cases hopy
      rw [Function.update_of_ne hyud] at hfdy
      exact honly y hy hopy hfdy
  · dsimp only at ho' ⊢
    -- a close of another connection is not touched
    obtain ⟨hclosex, hgone, honly⟩ := h.underway.cancel x hx hopx o' ho'
    by_cases heq : o' = o
    · subst heq
      obtain rfl := hunique x hx hopx ho'
      refine ⟨?_, hgone, honly⟩
      rw [Function.update_self, Function.update_self]
      exact iff_of_false nofun nofun
    · have hxud : x ≠ ud := by
        rintro rfl
        exact heq (Option.some.inj (ho'.symm.trans hconn))
      rw [Function.update_of_ne heq, Function.update_of_ne hxud]
      exact ⟨hclosex, hgone, honly⟩

/-- A send, or something that has failed: no descriptor comes of it. -/
theorem answered_kept {r : ℤ} {peer : ℕ → Bytes} (h : Kept gone lost s)
    (hcancel : (s.user_data ud).op ≠ .CANCEL) (haccept : (s.user_data ud).op = .ACCEPT → r < 0) :
    Kept gone lost { s with results := Function.update s.results ud (some r), peer := peer } := by
  -- the new result is no descriptor of an accept
  have hposted : ∀ x ∈ s.ring, (s.user_data x).op = .ACCEPT → ∀ fd,
      Function.update s.results ud (some r) x = some fd → 0 ≤ fd → s.results x = some fd := by
    intro x _ hopx fd hfd hpos
    by_cases hxud : x = ud
    · subst hxud
      rw [Function.update_self] at hfd
      have hneg := haccept hopx
      have heq := Option.some.inj hfd
      omega
    · rwa [Function.update_of_ne hxud] at hfd
  refine ⟨h.places.of_eq rfl rfl, h.book.congr (.of_eq rfl) rfl rfl rfl rfl,
    ⟨h.underway.conn, fun x hx hopx fd hfd hpos => ?_, fun x hx hopx o ho => ?_⟩,
    h.pinned.congr rfl (fun _ _ _ => rfl) (.of_eq rfl)⟩
  · obtain ⟨hopened, hothers, hunique⟩ :=
      h.underway.posted x hx hopx fd (hposted x hx hopx fd hfd hpos) hpos
    exact ⟨hopened, hothers, fun y hy hopy hfdy => hunique y hy hopy
      (hposted y hy hopy fd hfdy hpos)⟩
  · -- nor is it that of a close
    have hxud : x ≠ ud := by
      rintro rfl
      exact hcancel hopx
    dsimp only
    rw [Function.update_of_ne hxud]
    exact h.underway.cancel x hx hopx o ho

/-- The connection that a step has accepted, by its listener and its descriptor. -/
def accepted? (s : EventLoop count) : Event count → Option (ConnectionType × ℤ)
  | .cqe ud res _ =>
    if (s.user_data ud).op = .ACCEPT then (s.user_data ud).listener.map fun type => (type, res)
    else none
  | _ => none

/-- The connection whose close a step has handled, whose entry is to be gone. -/
def gone? (s : EventLoop count) : Event count → Option ℕ
  | .cqe ud _ _ => if (s.user_data ud).op = .CANCEL then (s.user_data ud).conn else none
  | _ => none

/-- A completion that does not come upon what is left of another connection: the descriptor of an
accept has no entry any more, and what ends a connection is the first to do so. -/
def Settled (s : EventLoop count) : Event count → Prop
  | .cqe ud res env =>
    ((s.user_data ud).op = .ACCEPT →
        ∀ type, (s.user_data ud).listener = some type → s.entry (type, res) = none)
      ∧ ((s.user_data ud).op = .READ → res = 0 ∨ env.parse_fails = true →
        ∀ o, (s.user_data ud).conn = some o → ¬ s.Closing o)
  | _ => True

/-- What a step has done to the objects: nothing, or one more, entered under its descriptor. -/
def Grown (s : EventLoop count) : Option (ConnectionType × ℤ) → EventLoop count → Prop
  | none, s' => s'.allocated = s.allocated ∧ SameConnections s s'
  | some (type, fd), s' => s'.allocated = s.allocated + 1
      ∧ ∃ http, SameConnections (s.enter type fd http) s'

theorem accepted?_of_ne {res : ℤ} {env : Env} (hop : (s.user_data ud).op ≠ .ACCEPT) :
    s.accepted? (.cqe ud res env) = none := if_neg hop

theorem gone?_of_ne {res : ℤ} {env : Env} (hop : (s.user_data ud).op ≠ .CANCEL) :
    s.gone? (.cqe ud res env) = none := if_neg hop

/-- A completion is handled, and the invariant of the entries is kept if the step is settled. -/
theorem cqe_kept {res : ℤ} {env : Env} (h : Kept gone lost s) (hring : ud ∈ s.ring)
    (hres : (Operation.observed (s.user_data ud).op) = true → s.results ud = some res)
    (hsettled : s.Settled (.cqe ud res env)) (hs : Handled config s ud res env s') :
    (∃ lost', Kept ((s.gone? (.cqe ud res env)).toList ++ gone) lost' s')
      ∧ s.Grown (s.accepted? (.cqe ud res env)) s' := by
  have hconn : (s.user_data ud).op = .READ → ∀ o, (s.user_data ud).conn = some o →
      o < s.allocated :=
    fun hop o ho => h.underway.conn ud hring o ho (.inl hop)
  cases hs with
  | accept hop hs =>
      rw [gone?_of_ne (by rw [hop]; nofun)]
      obtain ⟨listener, _, _, _, hlistener, _⟩ := handle_accept_eq_ok hs
      have hresult := hres (by rw [hop]; rfl)
      obtain ⟨hkept, hallocated, hsame⟩ := handle_accept_kept h hring hop hlistener hresult
        (hsettled.1 hop listener hlistener) hs
      have haccepted : s.accepted? (.cqe ud res env) = some (listener, res) := by
        unfold accepted?
        dsimp only
        have hlistener' : (s.user_data ud).listener = some listener := hlistener
        rw [if_pos hop, hlistener']
        rfl
      rw [haccepted]
      exact ⟨⟨lost, hkept⟩, hallocated, _, hsame⟩
  | end_of_stream hop hzero hs =>
      rw [gone?_of_ne (by rw [hop]; nofun), accepted?_of_ne (by rw [hop]; nofun)]
      -- the object is not in the ring any more, so the handler of `READ` runs on what is left of it
      have htaken := take_kept h hring
      have hnot : ∀ o, (s.user_data ud).conn = some o → ¬ (s.take ud).Closing o := by
        rintro o ho (hclosed | ⟨x, hx, hclosing⟩)
        · exact hsettled.2 hop (.inl hzero) o ho (.inl hclosed)
        · exact hsettled.2 hop (.inl hzero) o ho (.inr ⟨x, List.mem_of_mem_erase hx, hclosing⟩)
      obtain ⟨hkept, hallocated, hsame⟩ := handle_read_kept htaken (hconn hop) (fun _ => hnot) hs
      exact ⟨⟨_, hkept⟩, hallocated, hsame.fd, hsame.type, hsame.direction⟩
  | read hop hpos hs =>
      rw [gone?_of_ne (by rw [hop]; nofun), accepted?_of_ne (by rw [hop]; nofun)]
      obtain ⟨hkept, hallocated, hsame⟩ := handle_read_kept h (hconn hop) (hsettled.2 hop) hs
      exact ⟨⟨_, hkept⟩, hallocated, hsame⟩
  | connect hop hs =>
      rw [gone?_of_ne (by rw [hop]; nofun), accepted?_of_ne (by rw [hop]; nofun)]
      obtain ⟨hkept, hallocated, hsame⟩ := handle_connect_kept h hring hop hs
      exact ⟨⟨_, hkept⟩, hallocated, hsame⟩
  | write hop _ hs =>
      rw [gone?_of_ne (by rw [hop]; nofun), accepted?_of_ne (by rw [hop]; nofun)]
      obtain ⟨hkept, hallocated, hsame⟩ := free_buffer_kept h hring (by rw [hop]; nofun) hs
      exact ⟨⟨_, hkept⟩, hallocated, hsame⟩
  | cancel hop hs =>
      rw [accepted?_of_ne (by rw [hop]; nofun)]
      obtain ⟨conn, hpointer, _⟩ := handle_cancel_eq_ok hs
      have hpointer' : (s.user_data ud).conn = some conn := hpointer
      obtain ⟨hkept, hallocated, hsame⟩ :=
        handle_cancel_kept h hring hop hpointer' (hres (by rw [hop]; rfl)) hs
      have hgone : s.gone? (.cqe ud res env) = some conn := by
        unfold gone?
        dsimp only
        rw [if_pos hop, hpointer']
      rw [hgone]
      exact ⟨⟨_, hkept⟩, hallocated, hsame⟩
  | rcvmsg hop hs =>
      rw [gone?_of_ne (by rw [hop]; nofun), accepted?_of_ne (by rw [hop]; nofun)]
      obtain ⟨hheap, hallocated⟩ := requests_heap hs
      exact ⟨⟨_, requests_kept h hs⟩, hallocated, .of_eq hheap⟩
  | sendmsg hop hs =>
      rw [gone?_of_ne (by rw [hop]; nofun), accepted?_of_ne (by rw [hop]; nofun)]
      obtain ⟨hkept, hallocated, hsame⟩ := free_buffer_kept h hring (by rw [hop]; nofun) hs
      exact ⟨⟨_, hkept⟩, hallocated, hsame⟩

/-- **A step** keeps the entries, if it is a settled one. The condition is on the state before it:
no accept and no close meets an entry of another connection. -/
theorem step_kept {ev : Event count} (h : Kept gone lost s) (hsettled : s.Settled ev)
    (hs : Step config s ev s') :
    (∃ lost', Kept ((s.gone? ev).toList ++ gone) lost' s') ∧ s.Grown (s.accepted? ev) s' := by
  -- one lemma for each kind of step; those of the kernel leave the map alone
  cases hs with
  | accepts ud fd hop hfd hfree =>
      exact ⟨⟨lost, accepts_kept h hop hfree⟩, rfl, .of_eq rfl⟩
  | starts ud o =>
      have hkept : Kept gone lost
          { s with target := Function.update s.target ud (some (s.file (s.heap o).fd)) } :=
        ⟨h.places.of_eq rfl rfl, h.book.congr (.of_eq rfl) rfl rfl rfl rfl,
          h.underway.congr (fun _ hx => ⟨hx, rfl, rfl⟩) (.of_eq rfl) rfl rfl rfl,
          h.pinned.congr rfl (fun _ _ _ => rfl) (.of_eq rfl)⟩
      exact ⟨⟨lost, hkept⟩, rfl, .of_eq rfl⟩
  | sends ud n k buffer hop =>
      have hcancel : (s.user_data ud).op ≠ .CANCEL := by rw [hop.2.1]; nofun
      have haccept : (s.user_data ud).op ≠ .ACCEPT := by rw [hop.2.1]; nofun
      exact ⟨⟨lost, answered_kept h hcancel fun hno => absurd hno haccept⟩, rfl, .of_eq rfl⟩
  | closes ud o hop hconn => exact ⟨⟨lost, closes_kept h hop hconn⟩, rfl, .of_eq rfl⟩
  | fails ud op res hop hkind hres =>
      have hcancel : (s.user_data ud).op ≠ .CANCEL := by
        rw [hop.2.1]
        rintro rfl
        simp at hkind
      have hkept : Kept gone lost
          { s with results := Function.update s.results ud (some res), peer := s.peer } :=
        answered_kept h hcancel fun _ => hres
      exact ⟨⟨lost, hkept⟩, rfl, .of_eq rfl⟩
  | @cqe _ ud res env hring hres hs => exact cqe_kept h hring hres hsettled (handled hs)

end Steps

/-! ## Runs -/

/-- The accepted connections, in the order in which `run` came to know of them. -/
def acceptedIn (ts : List (Transition (EventLoop count) (Event count))) :
    List (ConnectionType × ℤ) :=
  ts.filterMap fun x => x.pre.accepted? x.label

/-- The connections whose close has been handled in a run, the last one first. -/
def goneIn (ts : List (Transition (EventLoop count) (Event count))) : List ℕ :=
  (ts.filterMap fun x => x.pre.gone? x.label).reverse

theorem acceptedIn_concat (ts : List (Transition (EventLoop count) (Event count)))
    (x : Transition (EventLoop count) (Event count)) :
    acceptedIn (ts ++ [x]) = acceptedIn ts ++ (x.pre.accepted? x.label).toList := by
  unfold acceptedIn
  rw [List.filterMap_append]
  cases hx : x.pre.accepted? x.label <;> simp [hx]

theorem goneIn_concat (ts : List (Transition (EventLoop count) (Event count)))
    (x : Transition (EventLoop count) (Event count)) :
    goneIn (ts ++ [x]) = (x.pre.gone? x.label).toList ++ goneIn ts := by
  unfold goneIn
  rw [List.filterMap_append]
  cases hx : x.pre.gone? x.label <;> simp [hx]

/-- The objects are the connections of the pools, and after them those accepted, in order. -/
structure Numbered (pooled : ℕ) (accepted : List (ConnectionType × ℤ))
    (s : EventLoop count) : Prop where
  allocated : s.allocated = pooled + accepted.length
  upstream : ∀ o < pooled, (s.heap o).direction = .UPSTREAM
  downstream : ∀ k type fd, accepted[k]? = some (type, fd) →
    (s.heap (pooled + k)).type = type ∧ (s.heap (pooled + k)).fd = fd
      ∧ (s.heap (pooled + k)).direction = .DOWNSTREAM

theorem Numbered.grown {s s' : EventLoop count} {pooled : ℕ} {accepted : List (ConnectionType × ℤ)}
    {new : Option (ConnectionType × ℤ)} (h : Numbered pooled accepted s) (hs : s.Grown new s') :
    Numbered pooled (accepted ++ new.toList) s' := by
  -- nothing is added, or one object behind all the others
  cases new with
  | none =>
      obtain ⟨hallocated, hsame⟩ := hs
      rw [Option.toList_none, List.append_nil]
      refine ⟨hallocated.trans h.allocated, fun o ho => ?_, fun k type fd hk => ?_⟩
      · rw [hsame.direction]
        exact h.upstream o ho
      · -- an old connection, or the one that was just accepted
        rw [hsame.type, hsame.fd, hsame.direction]
        exact h.downstream k type fd hk
  | some new =>
      obtain ⟨type, fd⟩ := new
      obtain ⟨hallocated, http, hsame⟩ := hs
      have hlength := h.allocated
      refine ⟨?_, fun o ho => ?_, fun k type' fd' hk => ?_⟩
      · rw [hallocated, hlength, Option.toList_some, List.length_append, List.length_singleton]
        omega
      · rw [hsame.direction, enter_heap_old (by omega)]
        exact h.upstream o ho
      · rw [hsame.type, hsame.fd, hsame.direction]
        rw [Option.toList_some, List.getElem?_append] at hk
        split_ifs at hk with hlt
        · rw [enter_heap_old (by omega)]
          exact h.downstream k type' fd' hk
        · obtain ⟨hk0, heq⟩ := List.getElem?_eq_some_iff.mp hk
          have hk' : k = accepted.length := by
            rw [List.length_singleton] at hk0
            omega
          subst hk'
          rw [← hlength, enter_heap_new]
          simp only [Nat.sub_self, List.getElem_cons_zero, Prod.mk.injEq] at heq
          exact ⟨heq.1, heq.2, rfl⟩

/-- The descriptors of the pools, as `socket` has given them out: open, and all different. -/
structure Sockets (pools : List (ℤ × ConnectionType × HTTP)) (is_open : ℤ → Bool) : Prop where
  opened : ∀ x ∈ pools, is_open x.1 = true
  distinct : (pools.map Prod.fst).Nodup

/-- A worker without pools has no descriptors to begin with. -/
theorem no_sockets (is_open : ℤ → Bool) : Sockets [] is_open := ⟨by simp, List.nodup_nil⟩

section Start

variable {pools : List (ℤ × ConnectionType × HTTP)} {is_open : ℤ → Bool}

theorem create_fd {o : ℕ} (ho : o < pools.length) :
    ((create count pools is_open).heap o).fd = (pools.get ⟨o, ho⟩).1 := by
  unfold create
  dsimp only
  rw [List.getElem?_eq_getElem ho]
  rfl

theorem create_direction (o : ℕ) : ((create count pools is_open).heap o).direction = .UPSTREAM := by
  unfold create
  dsimp only
  split <;> rfl

theorem create_kept (h : Sockets pools is_open) : Kept [] [] (create count pools is_open) where
  places := create_places
  book :=
    { fresh := fun o _ => ⟨create_direction o, rfl⟩
      descriptor := fun o ho _ => by
        rw [create_fd ho]
        exact h.opened _ (List.get_mem pools ⟨o, ho⟩)
      distinct := fun o ho o' ho' _ _ hfd => by
        rw [create_fd ho, create_fd ho'] at hfd
        have hlt : o < (pools.map Prod.fst).length := by rw [List.length_map]; exact ho
        have hlt' : o' < (pools.map Prod.fst).length := by rw [List.length_map]; exact ho'
        refine (@List.Nodup.getElem_inj_iff _ _ h.distinct o hlt o' hlt').mp ?_
        rw [List.getElem_map, List.getElem_map]
        exact hfd
      entries := Indexes.empty fun o ho => by
        have hdirection := ho.1
        rw [create_direction] at hdirection
        cases hdirection
      gone := nofun }
  underway := ⟨nofun, nofun, nofun⟩
  pinned o ho := by
    rw [create_direction] at ho
    cases ho

theorem start_kept {s : EventLoop count} (h : Sockets pools is_open)
    (hs : start count pools is_open = .ok s) : Kept [] [] s ∧ Numbered pools.length [] s := by
  -- the connects come first, one for each connection of a pool
  have hconnects : ∀ (os : List ℕ) {a b : EventLoop count}, Kept [] [] a →
      (∀ o ∈ os, o < a.allocated) →
      os.foldlM prepare_connect a = .ok b → Kept [] [] b ∧ b.heap = a.heap
        ∧ b.allocated = a.allocated := by
    intro os
    induction os with
    | nil =>
        intro a b ha _ hb
        obtain rfl := Except.ok.inj hb
        exact ⟨ha, rfl, rfl⟩
    | cons o os ih =>
        intro a b ha hos hb
        obtain ⟨t, ht, hb⟩ := bind_eq_ok.mp hb
        obtain ⟨hheap, hallocated, _⟩ := prepare_heap ht
        have hkept : Kept [] [] t := by
          refine prepare_kept ha ht (fun _ o' ho' => ?_) nofun
          obtain rfl := Option.some.inj ho'
          exact hos o List.mem_cons_self
        obtain ⟨hb, hheap', hallocated'⟩ := ih hkept
          (fun o' ho' => by rw [hallocated]; exact hos o' (List.mem_cons_of_mem _ ho')) hb
        exact ⟨hb, hheap'.trans hheap, hallocated'.trans hallocated⟩
  obtain ⟨t, ht, hs⟩ := bind_eq_ok.mp hs
  obtain ⟨u, hu, hs⟩ := bind_eq_ok.mp hs
  obtain ⟨v, hv, hs⟩ := bind_eq_ok.mp hs
  obtain ⟨hkept, hheap, hallocated⟩ :=
    hconnects _ (create_kept h) (fun o ho => List.mem_range.mp ho) ht
  have huv := prepare_kept (prepare_kept hkept hu (by simp) nofun) hv (by simp) nofun
  refine ⟨prepare_kept huv hs (by simp) nofun, ?_, fun o _ => ?_, nofun⟩
  · rw [(prepare_heap hs).2.1, (prepare_heap hv).2.1, (prepare_heap hu).2.1, hallocated]
    rfl
  · rw [(prepare_heap hs).1, (prepare_heap hv).1, (prepare_heap hu).1, hheap]
    exact create_direction o

end Start

/-- **The entries follow the connections**: the `k`-th connection that was accepted is an object of
its own, found under its descriptor until its own close is handled, and its descriptor is open
until its own close is carried out; the map holds nothing else. -/
structure Followed (pooled : ℕ) (accepted : List (ConnectionType × ℤ)) (gone : List ℕ)
    (s : EventLoop count) : Prop where
  object : ∀ k type fd, accepted[k]? = some (type, fd) →
    (s.heap (pooled + k)).type = type ∧ (s.heap (pooled + k)).fd = fd
      ∧ (s.heap (pooled + k)).direction = .DOWNSTREAM
  listed : ∀ k type fd, accepted[k]? = some (type, fd) → pooled + k ∉ gone →
    (s.connections type).lookup fd = some (pooled + k)
  only : ∀ type fd o, (s.connections type).lookup fd = some o →
    o ∉ gone ∧ ∃ k, o = pooled + k ∧ accepted[k]? = some (type, fd)
  descriptor : ∀ k type fd, accepted[k]? = some (type, fd) → s.closed (pooled + k) = false →
    s.is_open fd = true
  gone : ∀ o ∈ gone, s.closed o = true

theorem Kept.followed {s : EventLoop count} {gone : List ℕ} {lost : List (Fin count)} {pooled : ℕ}
    {accepted : List (ConnectionType × ℤ)} (h : Kept gone lost s)
    (hnumbered : Numbered pooled accepted s) :
    Followed pooled accepted gone s where
  object := hnumbered.downstream
  listed k type fd hk hgone := by
    obtain ⟨htype, hfd, hdirection⟩ := hnumbered.downstream k type fd hk
    have hfind := h.book.entries.find_key (a := pooled + k) ⟨hdirection, hgone⟩
    unfold key entry at hfind
    rwa [htype, hfd] at hfind
  only type fd o hlookup := by
    obtain ⟨⟨hdirection, hgone⟩, hkey⟩ := (h.book.entries (type, fd) o).mp hlookup
    refine ⟨hgone, ?_⟩
    -- neither a connection of a pool nor an object that has not been allocated
    have hpooled : pooled ≤ o := by
      by_contra hlt
      rw [hnumbered.upstream o (by omega)] at hdirection
      cases hdirection
    have hallocated : o < s.allocated := by
      by_contra hge
      rw [(h.book.fresh o (by omega)).1] at hdirection
      cases hdirection
    rw [hnumbered.allocated] at hallocated
    have hk : o - pooled < accepted.length := by omega
    refine ⟨o - pooled, by omega, ?_⟩
    have hget := List.getElem?_eq_getElem hk
    obtain ⟨htype, hfd, _⟩ := hnumbered.downstream (o - pooled) _ _ hget
    rw [Nat.add_sub_cancel' hpooled] at htype hfd
    rw [hget, ← hkey]
    unfold key
    rw [htype, hfd]
    rfl
  descriptor k type fd hk hno := by
    obtain ⟨_, hfd, _⟩ := hnumbered.downstream k type fd hk
    obtain ⟨hlt, _⟩ := List.getElem?_eq_some_iff.mp hk
    rw [← hfd]
    exact h.book.descriptor _ (by rw [hnumbered.allocated]; omega) hno
  gone := h.book.gone

/-- **The entries of the listeners follow the connections** in every run of settled steps. A step
is settled if the descriptor of an accept has no entry any more, and if what ends a connection is
the first to do so; the source writes the map with an unchecked `emplace`. `hsockets` says that the
descriptors of the pools are open and differ. -/
theorem entries_follow {pools : List (ℤ × ConnectionType × HTTP)} {is_open : ℤ → Bool}
    {s t : EventLoop count} {ts : List (Transition (EventLoop count) (Event count))}
    (hsockets : Sockets pools is_open) (hstart : start count pools is_open = .ok s)
    (h : Exec (Step config) s ts t) (hsettled : ∀ x ∈ ts, x.pre.Settled x.label) :
    Followed pools.length (acceptedIn ts) (goneIn ts) t := by
  obtain ⟨hkept, hnumbered⟩ := start_kept hsockets hstart
  have hinvariant : (∃ lost, Kept (goneIn ts) lost t)
      ∧ Numbered pools.length (acceptedIn ts) t := by
    refine h.history (fun s ts => (∃ lost, Kept (goneIn ts) lost s)
      ∧ Numbered pools.length (acceptedIn ts) s) ?_ ⟨⟨[], hkept⟩, hnumbered⟩
    rintro x hx g ⟨⟨lost, hkept⟩, hnumbered⟩ hstep
    obtain ⟨hkept', hgrown⟩ := step_kept hkept (hsettled x hx) hstep
    rw [goneIn_concat, acceptedIn_concat]
    exact ⟨hkept', hnumbered.grown hgrown⟩
  obtain ⟨⟨lost, hkept⟩, hnumbered⟩ := hinvariant
  exact hkept.followed hnumbered

/-- A client comes, goes, and another one gets its number once the close has been handled. -/
theorem entries_follow_reused : ∃ s t ts, start 8 [] (fun _ => false) = .ok s
    ∧ Exec (Step frontend) s ts t ∧ acceptedIn ts = [(.INGRESS, 5), (.INGRESS, 5)] ∧ goneIn ts = [0]
    ∧ Followed 0 (acceptedIn ts) (goneIn ts) t := by
  have hwitness : ∀ s t ts, start 8 [] (fun _ => false) = .ok s → Exec (Step frontend) s ts t →
      (∀ x ∈ ts, x.pre.Settled x.label) → acceptedIn ts = [(.INGRESS, 5), (.INGRESS, 5)] →
      goneIn ts = [0] → ∃ s t ts, start 8 [] (fun _ => false) = .ok s
        ∧ Exec (Step frontend) s ts t ∧ acceptedIn ts = [(.INGRESS, 5), (.INGRESS, 5)]
        ∧ goneIn ts = [0] ∧ Followed 0 (acceptedIn ts) (goneIn ts) t :=
    fun s t ts hs hrun hsettled haccepted hgone => ⟨s, t, ts, hs, hrun, haccepted, hgone,
      entries_follow (no_sockets _) hs hrun hsettled⟩
  refine hwitness _ _ _ rfl
    -- accepted under 5, ended by the client, closed, and accepted under 5 again
    (.cons (.accepts _ 1 5 ⟨by decide, rfl, rfl⟩ (by decide +kernel) rfl)
      (.cons (.cqe _ _ 1 5 no_requests (by decide +kernel) (fun _ => rfl) rfl)
        (.cons (.cqe _ _ 3 0 no_requests (by decide +kernel) nofun rfl)
          (.cons (.closes _ 5 0 ⟨by decide, rfl, rfl⟩ rfl)
            (.cons (.cqe _ _ 5 0 no_requests (by decide +kernel) (fun _ => rfl) rfl)
              (.cons (.accepts _ 4 5 ⟨by decide, rfl, rfl⟩ (by decide +kernel) rfl)
                (.cons (.cqe _ _ 4 5 no_requests (by decide +kernel) (fun _ => rfl) rfl)
                  (.nil _))))))))
    ?_ rfl rfl
  simp only [List.forall_mem_cons]
  refine ⟨trivial, ⟨?_, ?_⟩, ⟨?_, ?_⟩, trivial, ⟨?_, ?_⟩, trivial, ⟨?_, ?_⟩, by simp⟩
  · rintro _ type _
    cases type <;> decide +kernel
  · rintro hop
    exact absurd hop (by decide +kernel)
  · rintro hop
    exact absurd hop (by decide +kernel)
  · rintro _ _ o ho
    obtain rfl := Option.some.inj ho
    rintro (hclosed | hclosing)
    · exact absurd hclosed (by decide +kernel)
    · exact absurd hclosing (by decide +kernel)
  · rintro hop
    exact absurd hop (by decide +kernel)
  · rintro hop
    exact absurd hop (by decide +kernel)
  · rintro _ type _
    cases type <;> decide +kernel
  · rintro hop
    exact absurd hop (by decide +kernel)

/-- The other one gets it before: it has no object, and its descriptor is closed. -/
theorem entries_mixed_up : ¬ ∀ (config : Config) (count : ℕ)
    (pools : List (ℤ × ConnectionType × HTTP)) (is_open : ℤ → Bool) (s t : EventLoop count)
    (ts : List (Transition (EventLoop count) (Event count))), Sockets pools is_open →
    start count pools is_open = .ok s → Exec (Step config) s ts t →
    Followed pools.length (acceptedIn ts) (goneIn ts) t := by
  intro hall
  have hfollowed := hall frontend 8 [] (fun _ => false) _ _ _ (no_sockets _) rfl
    (.cons (.accepts _ 1 5 ⟨by decide, rfl, rfl⟩ (by decide) rfl)
      (.cons (.cqe _ _ 1 5 no_requests (by decide) (fun _ => rfl) rfl)
        (.cons (.cqe _ _ 3 0 no_requests (by decide) nofun rfl)
          (.cons (.closes _ 5 0 ⟨by decide, rfl, rfl⟩ rfl)
            (.cons (.accepts _ 4 5 ⟨by decide, rfl, rfl⟩ (by decide) rfl)
              (.cons (.cqe _ _ 4 5 no_requests (by decide) (fun _ => rfl) rfl) (.nil _)))))))
  have hopen := hfollowed.descriptor 1 .INGRESS 5 rfl rfl
  exact absurd hopen (by decide)

end EventLoop

end RlpSidecar
