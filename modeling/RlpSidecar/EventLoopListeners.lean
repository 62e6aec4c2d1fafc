/-
The entries of the listeners, and whose descriptors are closed.

Descriptors are numbers that the kernel gives out again as soon as they are free, and the entry of
a connection is kept under its number until the completion of its close is handled. So a number can
come back while the old entry is still there, and nothing in `add_connection` looks at that.
Objects are not given out again: here a connection is the object that was allocated for it, and
what is said of the entries is said of the objects.

An accepted connection is pinned: the `UserData` of its receive points to it, and is never given
back (`Pinned`), so the object never goes by itself and its descriptor is closed by the close that
was submitted. Each submission and each handler gets one lemma about the entries and the objects;
the module on runs only puts these together.
-/
import RlpSidecar.EventLoopObjects

set_option autoImplicit false

open Runs Tables

namespace RlpSidecar

namespace EventLoop

variable {count : ℕ} {config : Config}

/-! ## The objects -/

/-- The close of `o` has been submitted, and may have been carried out. -/
def Closing (s : EventLoop count) (o : ℕ) : Prop :=
  s.closed o = true
    ∨ ∃ ud ∈ s.ring, (s.user_data ud).op = .CANCEL ∧ (s.user_data ud).conn = some o

/-- Under what `o` is to be found in the listeners: its type and its descriptor. -/
def key (s : EventLoop count) (o : ℕ) : ConnectionType × ℤ := ((s.heap o).type, (s.heap o).fd)

/-- What is found there, over both listeners at once. -/
def entry (s : EventLoop count) (k : ConnectionType × ℤ) : Option ℕ :=
  (s.connections k.1).lookup k.2

/-- An accepted connection, but for those in `gone`, whose close has been handled. -/
def Live (gone : List ℕ) (s : EventLoop count) (o : ℕ) : Prop :=
  (s.heap o).direction = .DOWNSTREAM ∧ o ∉ gone

/-- Where the objects stand, when the closes of those in `gone` have been handled. -/
structure Book (gone : List ℕ) (s : EventLoop count) : Prop where
  fresh : ∀ o, s.allocated ≤ o → (s.heap o).direction = .UPSTREAM ∧ s.closed o = false
  descriptor : ∀ o < s.allocated, s.closed o = false → s.is_open (s.heap o).fd = true
  distinct : ∀ o < s.allocated, ∀ o' < s.allocated, s.closed o = false → s.closed o' = false →
    (s.heap o).fd = (s.heap o').fd → o = o'
  entries : Indexes s.entry (s.Live gone) s.key
  gone : ∀ o ∈ gone, s.closed o = true

/-- Where the submitted operations stand: what they point to exists, an accepted descriptor waits
for one completion only, and a connection is closed once. -/
structure Underway (gone : List ℕ) (s : EventLoop count) : Prop where
  conn : ∀ ud ∈ s.ring, ∀ o, (s.user_data ud).conn = some o →
    (s.user_data ud).op = .READ ∨ (s.user_data ud).op = .CONNECT ∨ (s.user_data ud).op = .CANCEL →
    o < s.allocated
  posted : ∀ ud ∈ s.ring, (s.user_data ud).op = .ACCEPT → ∀ fd, s.results ud = some fd → 0 ≤ fd →
    s.is_open fd = true ∧ (∀ o < s.allocated, s.closed o = false → (s.heap o).fd ≠ fd)
      ∧ ∀ ud' ∈ s.ring, (s.user_data ud').op = .ACCEPT → s.results ud' = some fd → ud' = ud
  cancel : ∀ ud ∈ s.ring, (s.user_data ud).op = .CANCEL → ∀ o, (s.user_data ud).conn = some o →
    (s.results ud = none ↔ s.closed o = false) ∧ o ∉ gone
      ∧ ∀ ud' ∈ s.ring, (s.user_data ud').op = .CANCEL → (s.user_data ud').conn = some o → ud' = ud

/-- A `READ` that has been submitted points to `o`, so the object lives. -/
def PinnedAt (s : EventLoop count) (o : ℕ) : Prop :=
  ∃ ud ∉ s.user_data_queue, (s.user_data ud).op = .READ ∧ (s.user_data ud).conn = some o

/-- To every accepted connection one does, for good: its `UserData` is never given back. -/
def Pinned (s : EventLoop count) : Prop := ∀ o, (s.heap o).direction = .DOWNSTREAM → s.PinnedAt o

/-- The invariant, between a handler's operations too: then `lost` has the object in hand. -/
structure Kept (gone : List ℕ) (lost : List (Fin count)) (s : EventLoop count) : Prop where
  places : Places lost s
  book : Book gone s
  underway : Underway gone s
  pinned : Pinned s

/-- The parts of a connection that do not change while the object lives. -/
structure SameConnections (s s' : EventLoop count) : Prop where
  fd : ∀ o, (s'.heap o).fd = (s.heap o).fd
  type : ∀ o, (s'.heap o).type = (s.heap o).type
  direction : ∀ o, (s'.heap o).direction = (s.heap o).direction

section Operations

variable {s s' : EventLoop count} {gone : List ℕ} {lost : List (Fin count)}

theorem SameConnections.of_eq (h : s'.heap = s.heap) : SameConnections s s' :=
  ⟨fun o => by rw [h], fun o => by rw [h], fun o => by rw [h]⟩

theorem SameConnections.trans {s'' : EventLoop count} (h : SameConnections s s')
    (h' : SameConnections s' s'') : SameConnections s s'' :=
  ⟨fun o => (h'.fd o).trans (h.fd o), fun o => (h'.type o).trans (h.type o),
    fun o => (h'.direction o).trans (h.direction o)⟩

theorem SameConnections.key (h : SameConnections s s') (o : ℕ) : s'.key o = s.key o := by
  unfold EventLoop.key
  rw [h.type o, h.fd o]

theorem Book.congr (h : Book gone s) (hsame : SameConnections s s')
    (hallocated : s'.allocated = s.allocated) (hconnections : s'.connections = s.connections)
    (hopen : s'.is_open = s.is_open) (hclosed : s'.closed = s.closed) : Book gone s' where
  fresh o ho := by
    rw [hsame.direction, hclosed]
    exact h.fresh o (hallocated ▸ ho)
  descriptor o ho hno := by
    rw [hsame.fd, hopen]
    exact h.descriptor o (hallocated ▸ ho) (hclosed ▸ hno)
  distinct o ho o' ho' hno hno' hfd := by
    rw [hsame.fd, hsame.fd] at hfd
    exact h.distinct o (hallocated ▸ ho) o' (hallocated ▸ ho') (hclosed ▸ hno) (hclosed ▸ hno') hfd
  entries := by
    have hentry : s'.entry = s.entry := by
      unfold entry
      rw [hconnections]
    rw [hentry]
    refine h.entries.congr (fun o => ?_) fun o _ => hsame.key o
    unfold Live
    rw [hsame.direction]
  gone o ho := by
    rw [hclosed]
    exact h.gone o ho

/-- Fewer operations, over the same objects, stand where they stood. -/
theorem Underway.congr (h : Underway gone s)
    (hring : ∀ ud ∈ s'.ring, ud ∈ s.ring ∧ s'.user_data ud = s.user_data ud
      ∧ s'.results ud = s.results ud)
    (hsame : SameConnections s s') (hallocated : s'.allocated = s.allocated)
    (hopen : s'.is_open = s.is_open) (hclosed : s'.closed = s.closed) : Underway gone s' where
  conn ud hud o hconn hop := by
    obtain ⟨hin, hdata, _⟩ := hring ud hud
    rw [hdata] at hconn hop
    rw [hallocated]
    exact h.conn ud hin o hconn hop
  -- what an accept has brought is open, and in nobody else's hands
  posted ud hud hop fd hfd hpos := by
    obtain ⟨hin, hdata, hresult⟩ := hring ud hud
    rw [hdata] at hop
    rw [hresult] at hfd
    obtain ⟨hopened, hothers, hunique⟩ := h.posted ud hin hop fd hfd hpos
    rw [hopen, hclosed, hallocated]
    refine ⟨hopened, fun o ho hno => ?_, fun ud' hud' hop' hfd' => ?_⟩
    · rw [hsame.fd]
      exact hothers o ho hno
    · obtain ⟨hin', hdata', hresult'⟩ := hring ud' hud'
      rw [hdata'] at hop'
      rw [hresult'] at hfd'
      exact hunique ud' hin' hop' hfd'
  -- what is being closed is closed by one operation only
  cancel ud hud hop o hconn := by
    obtain ⟨hin, hdata, hresult⟩ := hring ud hud
    rw [hdata] at hop hconn
    obtain ⟨hclose, hgone, hunique⟩ := h.cancel ud hin hop o hconn
    rw [hresult, hclosed]
    refine ⟨hclose, hgone, fun ud' hud' hop' hconn' => ?_⟩
    obtain ⟨hin', hdata', _⟩ := hring ud' hud'
    rw [hdata'] at hop' hconn'
    exact hunique ud' hin' hop' hconn'

theorem Pinned.congr (h : Pinned s) (hqueue : s'.user_data_queue = s.user_data_queue)
    (hdata : ∀ ud ∉ s.user_data_queue, (s.user_data ud).op = .READ →
      s'.user_data ud = s.user_data ud)
    (hsame : SameConnections s s') : Pinned s' := by
  intro o ho
  rw [hsame.direction] at ho
  obtain ⟨ud, hud, hop, hconn⟩ := h o ho
  refine ⟨ud, hqueue ▸ hud, ?_⟩
  rw [hdata ud hud hop]
  exact ⟨hop, hconn⟩

/-- No object is ever destroyed: the objects of `READ` operations do not go back. -/
theorem Pinned.release (h : Pinned s) (o : Option ℕ) : s.release o = s := by
  unfold EventLoop.release
  cases o with
  | none => rfl
  | some o =>
      dsimp only
      rw [if_neg]
      intro hnone
      unfold references at hnone
      cases hdirection : (s.heap o).direction with
      | UPSTREAM => simp [hdirection] at hnone
      | DOWNSTREAM =>
          obtain ⟨ud, _, _, hconn⟩ := h o hdirection
          have hcount : 0 < (List.finRange count).countP fun ud =>
              decide ((s.user_data ud).conn = some o) :=
            List.countP_pos_iff.mpr ⟨ud, List.mem_finRange ud, decide_eq_true hconn⟩
          dsimp only at hnone
          omega

theorem Kept.congr (h : Kept gone lost s) (hqueue : s'.user_data_queue = s.user_data_queue)
    (hring : s'.ring = s.ring) (hdata : s'.user_data = s.user_data)
    (hresults : s'.results = s.results) (hsame : SameConnections s s')
    (hallocated : s'.allocated = s.allocated) (hconnections : s'.connections = s.connections)
    (hopen : s'.is_open = s.is_open) (hclosed : s'.closed = s.closed) : Kept gone lost s' where
  places := h.places.of_eq hqueue hring
  book := h.book.congr hsame hallocated hconnections hopen hclosed
  underway := by
    refine h.underway.congr (fun ud hud => ?_) hsame hallocated hopen hclosed
    rw [hring] at hud
    rw [hdata, hresults]
    exact ⟨hud, rfl, rfl⟩
  pinned := h.pinned.congr hqueue (fun ud _ _ => by rw [hdata]) hsame

theorem prepare_pinnedAt {data : UserData} {o : ℕ} (h : s.PinnedAt o)
    (hs : s.prepare data = .ok s') : s'.PinnedAt o := by
  obtain ⟨ud, hud, hop, hconn⟩ := h
  obtain ⟨new, rest, hqueue, rfl⟩ := prepare_eq_ok hs
  rw [hqueue] at hud
  obtain ⟨hne, hrest⟩ := List.ne_and_not_mem_of_not_mem_cons hud
  refine ⟨ud, hrest, ?_⟩
  dsimp only
  rw [Function.update_of_ne hne]
  exact ⟨hop, hconn⟩

theorem prepare_read_pinnedAt {listener : ConnectionType} {o : ℕ} (h : Places lost s)
    (hs : s.prepare_read listener o = .ok s') : s'.PinnedAt o := by
  obtain ⟨new, rest, hqueue, rfl⟩ := prepare_eq_ok hs
  have hnodup := (List.nodup_append.mp h.nodup).1
  rw [hqueue] at hnodup
  refine ⟨new, (List.nodup_cons.mp hnodup).1, ?_⟩
  dsimp only
  rw [Function.update_self]
  exact ⟨rfl, rfl⟩

/-- A submission; the conditions are on those that point to a connection, and on closes. -/
theorem prepare_underway {data : UserData} (hplaces : Places lost s) (hbook : Book gone s)
    (h : Underway gone s) (hs : s.prepare data = .ok s')
    (hconn : data.op = .READ ∨ data.op = .CONNECT ∨ data.op = .CANCEL →
      ∀ o, data.conn = some o → o < s.allocated)
    (hcancel : data.op = .CANCEL → ∀ o, data.conn = some o → ¬ s.Closing o) : Underway gone s' := by
  obtain ⟨new, rest, hqueue, rfl⟩ := prepare_eq_ok hs
  have hnew : new ∉ s.ring := hplaces.queue_disjoint (by rw [hqueue]; exact List.mem_cons_self)
  -- what is in the ring already keeps its object and its result
  have hold : ∀ ud ∈ s.ring, Function.update s.user_data new data ud = s.user_data ud
      ∧ Function.update s.results new none ud = s.results ud := by
    intro ud hud
    have hne : ud ≠ new := by
      rintro rfl
      exact hnew hud
    exact ⟨Function.update_of_ne hne .., Function.update_of_ne hne ..⟩
  refine ⟨?_, ?_, ?_⟩
  · intro ud hud o ho hop
    dsimp only at ho hop
    rcases List.mem_append.mp hud with hin | hin
    · rw [(hold ud hin).1] at ho hop
      exact h.conn ud hin o ho hop
    · obtain rfl := List.mem_singleton.mp hin
      rw [Function.update_self] at ho hop
      exact hconn hop o ho
  · intro ud hud hop fd hfd hpos
    dsimp only at hop hfd
    rcases List.mem_append.mp hud with hin | hin
    · rw [(hold ud hin).1] at hop
      rw [(hold ud hin).2] at hfd
      obtain ⟨hopened, hothers, hunique⟩ := h.posted ud hin hop fd hfd hpos
      refine ⟨hopened, hothers, fun ud' hud' hop' hfd' => ?_⟩
      dsimp only at hop' hfd'
      rcases List.mem_append.mp hud' with hin' | hin'
      · rw [(hold ud' hin').1] at hop'
        rw [(hold ud' hin').2] at hfd'
        exact hunique ud' hin' hop' hfd'
      · obtain rfl := List.mem_singleton.mp hin'
        rw [Function.update_self] at hfd'
        cases hfd'
    · obtain rfl := List.mem_singleton.mp hin
      rw [Function.update_self] at hfd
      cases hfd
  · intro ud hud hop o ho
    dsimp only at hop ho ⊢
    rcases List.mem_append.mp hud with hin | hin
    · rw [(hold ud hin).1] at hop ho
      obtain ⟨hclose, hgone, hunique⟩ := h.cancel ud hin hop o ho
      rw [(hold ud hin).2]
      refine ⟨hclose, hgone, fun ud' hud' hop' ho' => ?_⟩
      rcases List.mem_append.mp hud' with hin' | hin'
      · rw [(hold ud' hin').1] at hop' ho'
        exact hunique ud' hin' hop' ho'
      · obtain rfl := List.mem_singleton.mp hin'
        rw [Function.update_self] at hop' ho'
        exact absurd (.inr ⟨ud, hin, hop, ho⟩) (hcancel hop' o ho')
    · obtain rfl := List.mem_singleton.mp hin
      rw [Function.update_self] at hop ho
      -- the new close is the only one of its connection, which is open
      have hno := hcancel hop o ho
      have hclosed : s.closed o = false := by
        cases hclosed : s.closed o with
        | false => rfl
        | true => exact absurd (.inl hclosed) hno
      refine ⟨?_, fun hgone => hno (.inl (hbook.gone o hgone)), fun ud' hud' hop' ho' => ?_⟩
      · rw [Function.update_self]
        exact iff_of_true rfl hclosed
      · rcases List.mem_append.mp hud' with hin' | hin'
        · rw [(hold ud' hin').1] at hop' ho'
          exact absurd (.inr ⟨ud', hin', hop', ho'⟩) hno
        · exact List.mem_singleton.mp hin'

theorem prepare_heap {data : UserData} (hs : s.prepare data = .ok s') :
    s'.heap = s.heap ∧ s'.allocated = s.allocated ∧ s'.connections = s.connections
      ∧ s'.is_open = s.is_open ∧ s'.closed = s.closed := by
  obtain ⟨new, rest, hqueue, rfl⟩ := prepare_eq_ok hs
  exact ⟨rfl, rfl, rfl, rfl, rfl⟩

theorem prepare_book {data : UserData} (h : Book gone s) (hs : s.prepare data = .ok s') :
    Book gone s' := by
  obtain ⟨hheap, hallocated, hconnections, hopen, hclosed⟩ := prepare_heap hs
  exact h.congr (.of_eq hheap) hallocated hconnections hopen hclosed

theorem prepare_kept {data : UserData} (h : Kept gone lost s) (hs : s.prepare data = .ok s')
    (hconn : data.op = .READ ∨ data.op = .CONNECT ∨ data.op = .CANCEL →
      ∀ o, data.conn = some o → o < s.allocated)
    (hcancel : data.op = .CANCEL → ∀ o, data.conn = some o → ¬ s.Closing o) :
    Kept gone lost s' where
  places := prepare_places h.places hs
  book := prepare_book h.book hs
  underway := prepare_underway h.places h.book h.underway hs hconn hcancel
  pinned o ho := by
    rw [(prepare_heap hs).1] at ho
    exact prepare_pinnedAt (h.pinned o ho) hs

theorem write_kept {conn : ℕ} {buffer : Bytes} (h : Kept gone lost s)
    (hs : s.prepare_write conn buffer = .ok s') : Kept gone lost s' := by
  obtain ⟨t, ht, hs⟩ := bind_eq_ok.mp hs
  obtain rfl := Except.ok.inj hs
  exact (prepare_kept h ht (by simp) nofun).congr rfl rfl rfl rfl (.of_eq rfl) rfl rfl rfl rfl

theorem requests_kept {rs : List Request} (h : Kept gone lost s) (hs : s.requests rs = .ok s') :
    Kept gone lost s' := by
  induction rs generalizing s with
  | nil =>
      obtain rfl := Except.ok.inj hs
      exact h
  | cons r rs ih =>
      obtain ⟨t, ht, hrest⟩ := bind_eq_ok.mp hs
      cases r with
      | write conn buffer => exact ih (write_kept h ht) hrest
      | sendmsg buffer => exact ih (prepare_kept h ht (by simp) nofun) hrest

theorem set_status_same (s : EventLoop count) (o : ℕ) (status : ConnectionStatus) :
    SameConnections s (s.set_status o status) := by
  refine ⟨fun o' => ?_, fun o' => ?_, fun o' => ?_⟩ <;>
  · by_cases heq : o' = o
    · subst heq
      simp [set_status]
    · simp [set_status, heq]

theorem set_status_kept (h : Kept gone lost s) (o : ℕ) (status : ConnectionStatus) :
    Kept gone lost (s.set_status o status) :=
  h.congr rfl rfl rfl rfl (set_status_same s o status) rfl rfl rfl rfl

theorem bring_up_kept (h : Kept gone lost s) (conn : ℕ) (env : Env) :
    Kept gone lost (s.bring_up conn env) := by
  unfold bring_up
  split_ifs
  · exact set_status_kept h conn .UP
  · exact h

/-- What is done to the object in hand does not concern those that are submitted. -/
theorem Kept.update {ud : Fin count} (h : Kept gone (ud :: lost) s)
    (hop : (s.user_data ud).op ≠ .READ) (data : UserData) :
    Kept gone (ud :: lost) { s with user_data := Function.update s.user_data ud data } where
  places := h.places.of_eq rfl rfl
  book := h.book.congr (.of_eq rfl) rfl rfl rfl rfl
  underway := by
    refine h.underway.congr (fun x hx => ⟨hx, ?_, rfl⟩) (.of_eq rfl) rfl rfl rfl
    exact Function.update_of_ne (show x ≠ ud by rintro rfl; exact h.places.hand hx) _ _
  pinned := by
    refine h.pinned.congr rfl (fun x _ hx => ?_) (.of_eq rfl)
    exact Function.update_of_ne (show x ≠ ud by rintro rfl; exact hop hx) _ _

/-- The object in hand goes back, and with it a pointer that was not the last one. -/
theorem free_kept {ud : Fin count} (h : Kept gone (ud :: lost) s)
    (hop : (s.user_data ud).op ≠ .READ) (hs : s.free_user_data ud = .ok s') :
    Kept gone lost s' := by
  have hplaces := free_places h.places hs
  obtain rfl := free_eq_ok hs
  have hcleared := h.update hop ⟨.CLEAR, none, none, none⟩
  have hpinned : Pinned { s with
      user_data := Function.update s.user_data ud ⟨.CLEAR, none, none, none⟩
      user_data_queue := s.user_data_queue ++ [ud] } := by
    intro o ho
    obtain ⟨x, hx, hread, hconn⟩ := hcleared.pinned o ho
    refine ⟨x, ?_, hread, hconn⟩
    rw [List.mem_append, not_or, List.mem_singleton]
    refine ⟨hx, ?_⟩
    rintro rfl
    dsimp only at hread
    rw [Function.update_self] at hread
    cases hread
  rw [hpinned.release] at hplaces ⊢
  exact ⟨hplaces, h.book.congr (.of_eq rfl) rfl rfl rfl rfl,
    hcleared.underway.congr (fun _ hx => ⟨hx, rfl, rfl⟩) (.of_eq rfl) rfl rfl rfl, hpinned⟩

theorem release_heap (s : EventLoop count) (o : Option ℕ) :
    (s.release o).heap = s.heap ∧ (s.release o).allocated = s.allocated := by
  unfold release
  cases o with
  | none => exact ⟨rfl, rfl⟩
  | some o =>
      dsimp only
      split_ifs
      · exact ⟨rfl, rfl⟩
      · exact ⟨rfl, rfl⟩

theorem free_heap {ud : Fin count} (hs : s.free_user_data ud = .ok s') :
    s'.heap = s.heap ∧ s'.allocated = s.allocated := by
  obtain rfl := free_eq_ok hs
  exact release_heap _ _

/-- A submission does not touch the object in hand, which is not in the queue. -/
theorem prepare_hand {data : UserData} {ud : Fin count} (h : Places (ud :: lost) s)
    (hs : s.prepare data = .ok s') : s'.user_data ud = s.user_data ud := by
  obtain ⟨new, rest, hqueue, rfl⟩ := prepare_eq_ok hs
  have hne : ud ≠ new := by
    rintro rfl
    exact h.hand_not_free (by rw [hqueue]; exact List.mem_cons_self)
  exact Function.update_of_ne hne ..

theorem requests_hand {rs : List Request} {ud : Fin count} (h : Places (ud :: lost) s)
    (hs : s.requests rs = .ok s') :
    s'.user_data ud = s.user_data ud ∧ s'.allocated = s.allocated := by
  induction rs generalizing s with
  | nil =>
      obtain rfl := Except.ok.inj hs
      exact ⟨rfl, rfl⟩
  | cons r rs ih =>
      obtain ⟨t, ht, hrest⟩ := bind_eq_ok.mp hs
      cases r with
      | write conn buffer =>
          obtain ⟨hdata, hallocated⟩ := ih (write_places h ht) hrest
          obtain ⟨u, hu, ht⟩ := bind_eq_ok.mp ht
          obtain rfl := Except.ok.inj ht
          have hhand : u.user_data ud = s.user_data ud := prepare_hand h hu
          exact ⟨hdata.trans hhand, hallocated.trans (prepare_heap hu).2.1⟩
      | sendmsg buffer =>
          obtain ⟨hdata, hallocated⟩ := ih (prepare_places h ht) hrest
          exact ⟨hdata.trans (prepare_hand h ht), hallocated.trans (prepare_heap ht).2.1⟩

theorem take_kept {ud : Fin count} (h : Kept gone lost s) (hring : ud ∈ s.ring) :
    Kept gone (ud :: lost) (s.take ud) where
  places := take_places h.places hring
  book := h.book.congr (.of_eq rfl) rfl rfl rfl rfl
  underway := h.underway.congr (fun _ hx => ⟨List.mem_of_mem_erase hx, rfl, rfl⟩)
    (.of_eq rfl) rfl rfl
    rfl
  pinned := h.pinned.congr rfl (fun _ _ _ => rfl) (.of_eq rfl)

end Operations

/-! ## The handlers -/

section Handlers

variable {s s' : EventLoop count} {gone : List ℕ} {lost : List (Fin count)}
    {ud : Fin count} {res : ℤ}
  {env : Env}

/-- One entry changes, in the map of one type, and nothing else that is found. -/
theorem entry_update {type : ConnectionType} {fd : ℤ} {entries : UMap ℤ ℕ} {e : Option ℕ}
    (h : s'.connections = Function.update s.connections type entries) (hat : entries.lookup fd = e)
    (hother : ∀ fd', fd' ≠ fd → entries.lookup fd' = (s.connections type).lookup fd') :
    s'.entry = Function.update s.entry (type, fd) e := by
  funext ⟨type', fd'⟩
  unfold entry
  rw [h]
  by_cases htype : type' = type
  · subst htype
    dsimp only
    rw [Function.update_self]
    by_cases hfd : fd' = fd
    · subst hfd
      rw [hat, Function.update_self]
    · rw [hother fd' hfd, Function.update_of_ne fun heq => hfd (Prod.mk.inj heq).2]
  · rw [Function.update_of_ne fun heq => htype (Prod.mk.inj heq).1]
    dsimp only
    rw [Function.update_of_ne htype]

/-- A descriptor that is not in use is entered, and it is found. -/
theorem entry_insert {type : ConnectionType} {fd : ℤ} {o : ℕ}
    (h : s'.connections = Function.update s.connections type ((s.connections type).insert fd o)) :
    s'.entry = Function.update s.entry (type, fd) (some o) := by
  apply entry_update h (AList.lookup_insert _)
  intro fd' hfd
  exact AList.lookup_insert_ne hfd

theorem entry_erase {type : ConnectionType} {fd : ℤ}
    (h : s'.connections = Function.update s.connections type ((s.connections type).erase fd)) :
    s'.entry = Function.update s.entry (type, fd) none := by
  apply entry_update h (AList.lookup_erase _ _)
  intro fd' hfd
  exact AList.lookup_erase_ne hfd

/-- What `add_connection` makes of a descriptor that has no entry. With an entry there it would
keep the old one, since `emplace` does. -/
def enter (s : EventLoop count) (type : ConnectionType) (fd : ℤ) (http : HTTP) : EventLoop count :=
  { s with
    heap := Function.update s.heap s.allocated ⟨fd, type, .DOWNSTREAM, http, .UP⟩
    allocated := s.allocated + 1
    socket := Function.update s.socket s.allocated (s.file fd)
    connections := Function.update s.connections type ((s.connections type).insert fd s.allocated) }

theorem add_connection_free {type : ConnectionType} {fd : ℤ} {http : HTTP}
    (h : s.entry (type, fd) = none) : s.add_connection type fd http
      = (s.allocated, s.enter type fd http) := by
  unfold add_connection
  have hlookup : (s.connections type).lookup fd = none := h
  rw [hlookup]
  rfl

section Enter

variable {type : ConnectionType} {fd : ℤ} {http : HTTP}

theorem enter_heap_old {o : ℕ} (h : o ≠ s.allocated) : (s.enter type fd http).heap o = s.heap o :=
  Function.update_of_ne h ..

theorem enter_heap_new :
    (s.enter type fd http).heap s.allocated = ⟨fd, type, .DOWNSTREAM, http, .UP⟩ :=
  Function.update_self ..

theorem enter_book (h : Book gone s) (hfree : s.entry (type, fd) = none)
    (hopen : s.is_open fd = true)
    (hothers : ∀ o < s.allocated, s.closed o = false → (s.heap o).fd ≠ fd) :
    Book gone (s.enter type fd http) where
  fresh o ho := by
    have hle : s.allocated + 1 ≤ o := ho
    rw [enter_heap_old (by omega)]
    exact h.fresh o (by omega)
  descriptor o ho hno := by
    rcases Nat.lt_succ_iff_lt_or_eq.mp ho with hlt | rfl
    · rw [enter_heap_old (by omega)]
      exact h.descriptor o hlt hno
    · rw [enter_heap_new]
      exact hopen
  distinct o ho o' ho' hno hno' hfd := by
    rcases Nat.lt_succ_iff_lt_or_eq.mp ho with hlt | rfl <;>
      rcases Nat.lt_succ_iff_lt_or_eq.mp ho' with hlt' | rfl
    · rw [enter_heap_old (by omega), enter_heap_old (by omega)] at hfd
      exact h.distinct o hlt o' hlt' hno hno' hfd
    · -- an old object and the new one: the descriptor was not in use
      rw [enter_heap_old (by omega), enter_heap_new] at hfd
      exact absurd hfd (hothers o hlt hno)
    · rw [enter_heap_new, enter_heap_old (by omega)] at hfd
      exact absurd hfd.symm (hothers o' hlt' hno')
    · rfl
  entries := by
    have hnew : s.allocated ∉ gone := by
      intro hgone
      have hclosed := h.gone _ hgone
      rw [(h.fresh _ le_rfl).2] at hclosed
      cases hclosed
    rw [entry_insert rfl]
    refine h.entries.insert hfree (fun o => ?_) (fun o ho => ?_) ?_
    · by_cases heq : o = s.allocated
      · subst heq
        refine iff_of_true ⟨?_, hnew⟩ (.inr rfl)
        rw [enter_heap_new]
      · unfold Live
        rw [enter_heap_old heq, or_iff_left heq]
    · have hne : o ≠ s.allocated := by
        rintro rfl
        have hdirection := ho.1
        rw [(h.fresh _ le_rfl).1] at hdirection
        cases hdirection
      unfold key
      rw [enter_heap_old hne]
    · unfold key
      rw [enter_heap_new]
  gone := h.gone

theorem enter_underway (h : Underway gone s)
    (hposted : ∀ ud ∈ s.ring, (s.user_data ud).op = .ACCEPT → s.results ud ≠ some fd) :
    Underway gone (s.enter type fd http) where
  conn ud hud o ho hop := Nat.lt_succ_of_lt (h.conn ud hud o ho hop)
  posted ud hud hop fd' hfd hpos := by
    obtain ⟨hopened, hothers, hunique⟩ := h.posted ud hud hop fd' hfd hpos
    refine ⟨hopened, fun o ho hno => ?_, hunique⟩
    rcases Nat.lt_succ_iff_lt_or_eq.mp ho with hlt | rfl
    · rw [enter_heap_old (by omega)]
      exact hothers o hlt hno
    · rw [enter_heap_new]
      rintro rfl
      exact hposted ud hud hop hfd
  cancel := h.cancel

end Enter

/-- The accepted connection is the next object, and it is found under its descriptor. -/
theorem handle_accept_kept {listener : ConnectionType} (h : Kept gone lost s) (hring : ud ∈ s.ring)
    (hop : (s.user_data ud).op = .ACCEPT) (hlistener : (s.user_data ud).listener = some listener)
    (hresult : s.results ud = some res) (hfree : s.entry (listener, res) = none)
    (hs : (s.take ud).handle_accept config ud res = .ok s') :
    Kept gone lost s' ∧ s'.allocated = s.allocated + 1 ∧ SameConnections
      (s.enter listener res (config.http_type listener)) s' := by
  obtain ⟨listener', t, u, hpos, hlistener', ht, hu, hs⟩ := handle_accept_eq_ok hs
  obtain rfl : listener' = listener := Option.some.inj (hlistener'.symm.trans hlistener)
  obtain ⟨hopened, hothers, hunique⟩ := h.underway.posted ud hring hop res hresult hpos
  have htaken := take_kept h hring
  have hfree' : (s.take ud).entry (listener', res) = none := hfree
  rw [add_connection_free hfree'] at ht
  dsimp only at ht
  have hbook : Book gone ((s.take ud).enter listener' res (config.http_type listener')) :=
    enter_book htaken.book hfree' hopened hothers
  have hunderway : Underway gone
      ((s.take ud).enter listener' res (config.http_type listener')) := by
    refine enter_underway htaken.underway fun ud' hud' hop' hresult' => ?_
    obtain rfl := hunique ud' (List.mem_of_mem_erase hud') hop' hresult'
    exact htaken.places.hand hud'
  have hplaces : Places (ud :: lost)
      ((s.take ud).enter listener' res (config.http_type listener')) :=
    htaken.places.of_eq rfl rfl
  -- the new connection is pinned by its first operation
  have hread : Kept gone (ud :: lost) t := by
    refine ⟨prepare_places hplaces ht, prepare_book hbook ht,
      prepare_underway hplaces hbook hunderway ht ?_ nofun, fun o ho => ?_⟩
    · intro _ o ho
      obtain rfl := Option.some.inj ho
      exact Nat.lt_succ_self _
    · rw [(prepare_heap ht).1] at ho
      by_cases heq : o = s.allocated
      · subst heq
        exact prepare_read_pinnedAt hplaces ht
      · have hold : ((s.take ud).enter listener' res (config.http_type listener')).heap o
            = s.heap o :=
          enter_heap_old heq
        rw [hold] at ho
        obtain ⟨x, hx, hpinned⟩ := htaken.pinned o ho
        have hentered : ((s.take ud).enter listener' res (config.http_type listener')).PinnedAt o :=
          ⟨x, hx, hpinned⟩
        exact prepare_pinnedAt hentered ht
  have haccept : Kept gone (ud :: lost) u := prepare_kept hread hu (by simp) nofun
  have hhand' := prepare_hand hplaces ht
  have hhand : u.user_data ud = s.user_data ud := (prepare_hand hread.places hu).trans hhand'
  have hfreed := free_kept haccept (by rw [hhand, hop]; nofun) hs
  obtain ⟨hheap, hallocated⟩ := free_heap hs
  refine ⟨hfreed, ?_, .of_eq ?_⟩
  · rw [hallocated, (prepare_heap hu).2.1, (prepare_heap ht).2.1]
    rfl
  · rw [hheap, (prepare_heap hu).1, (prepare_heap ht).1]
    rfl

theorem requests_heap {rs : List Request} (hs : s.requests rs = .ok s') :
    s'.heap = s.heap ∧ s'.allocated = s.allocated := by
  induction rs generalizing s with
  | nil =>
      obtain rfl := Except.ok.inj hs
      exact ⟨rfl, rfl⟩
  | cons r rs ih =>
      obtain ⟨t, ht, hrest⟩ := bind_eq_ok.mp hs
      obtain ⟨hheap, hallocated⟩ := ih hrest
      cases r with
      | write conn buffer =>
          obtain ⟨u, hu, ht⟩ := bind_eq_ok.mp ht
          obtain rfl := Except.ok.inj ht
          exact ⟨hheap.trans (prepare_heap hu).1, hallocated.trans (prepare_heap hu).2.1⟩
      | sendmsg buffer =>
          exact ⟨hheap.trans (prepare_heap ht).1, hallocated.trans (prepare_heap ht).2.1⟩

/-- A `READ` that goes on, or ends a connection that is not being closed yet. -/
theorem handle_read_kept {lost : List (Fin count)} (h : Kept gone lost s)
    (hconn : ∀ o, (s.user_data ud).conn = some o → o < s.allocated)
    (hclosing : res = 0 ∨ env.parse_fails = true →
      ∀ o, (s.user_data ud).conn = some o → ¬ s.Closing o)
    (hs : s.handle_read ud res env = .ok s') :
    Kept gone lost s' ∧ s'.allocated = s.allocated ∧ SameConnections s s' := by
  obtain ⟨conn, hpointer, _, ⟨hend, hs⟩ | ⟨_, _, hs⟩⟩ := handle_read_eq_ok hs
  · -- the two paths that close the connection
    have hstatus := set_status_kept h conn .TEARDOWN
    refine ⟨prepare_kept hstatus hs (fun _ o ho => ?_) (fun _ o ho => ?_),
      (prepare_heap hs).2.1, ?_⟩
    · obtain rfl := Option.some.inj ho
      exact hconn conn hpointer
    · obtain rfl := Option.some.inj ho
      exact hclosing hend conn hpointer
    · exact (set_status_same s conn .TEARDOWN).trans (.of_eq (prepare_heap hs).1)
  · -- bytes were read: the status may go up, and the handlers submit what they like
    obtain ⟨hheap, hallocated⟩ := requests_heap hs
    have hup : SameConnections s (s.bring_up conn env) ∧ (s.bring_up conn env).allocated
        = s.allocated := by
      unfold bring_up
      split_ifs
      · exact ⟨set_status_same s conn .UP, rfl⟩
      · exact ⟨.of_eq rfl, rfl⟩
    exact ⟨requests_kept (bring_up_kept h conn env) hs, hallocated.trans hup.2,
      hup.1.trans (.of_eq hheap)⟩

theorem handle_connect_kept (h : Kept gone lost s) (hring : ud ∈ s.ring)
    (hop : (s.user_data ud).op = .CONNECT) (hs : (s.take ud).handle_connect ud res env = .ok s') :
    Kept gone lost s' ∧ s'.allocated = s.allocated ∧ SameConnections s s' := by
  obtain ⟨conn, t, u, hpointer, ht, hu, hs⟩ := handle_connect_eq_ok hs
  have hne : ((s.take ud).user_data ud).op ≠ .READ := by
    have hop' : ((s.take ud).user_data ud).op = .CONNECT := hop
    rw [hop']
    nofun
  have htaken : Kept gone (ud :: lost) ((s.take ud).take_conn ud) :=
    (take_kept h hring).update hne _
  have hhand : (((s.take ud).take_conn ud).user_data ud).op = .CONNECT := by
    unfold take_conn
    dsimp only
    rw [Function.update_self]
    exact hop
  -- HTTP/1 is up at once, HTTP/2 writes its preface
  have hconnected : Kept gone (ud :: lost) t ∧ t.user_data ud
      = ((s.take ud).take_conn ud).user_data ud
      ∧ t.allocated = s.allocated ∧ SameConnections s t := by
    rcases ht with rfl | ht
    · have hsame := set_status_same ((s.take ud).take_conn ud) conn .UP
      exact ⟨set_status_kept htaken conn .UP, rfl, rfl, hsame.fd, hsame.type, hsame.direction⟩
    · obtain ⟨hdata, hallocated⟩ := requests_hand htaken.places ht
      exact ⟨requests_kept htaken ht, hdata, hallocated, .of_eq (requests_heap ht).1⟩
  obtain ⟨hkept, hdata, hallocated, hsame⟩ := hconnected
  -- the read that is submitted is for the same connection
  have hread : Kept gone (ud :: lost) u := by
    refine prepare_kept hkept hu (fun _ o ho => ?_) nofun
    obtain rfl := Option.some.inj ho
    rw [hallocated]
    exact h.underway.conn ud hring conn hpointer (.inr (.inl hop))
  have hne' : (u.user_data ud).op ≠ .READ := by
    have hhand' : u.user_data ud = t.user_data ud := prepare_hand hkept.places hu
    rw [hhand', hdata, hhand]
    nofun
  obtain ⟨hheap, hallocated'⟩ := free_heap hs
  exact ⟨free_kept hread hne' hs, hallocated'.trans ((prepare_heap hu).2.1.trans hallocated),
    hsame.trans (.of_eq (hheap.trans (prepare_heap hu).1))⟩

theorem free_buffer_kept (h : Kept gone lost s) (hring : ud ∈ s.ring)
    (hop : (s.user_data ud).op ≠ .READ)
    (hs : ((s.take ud).take_buffer ud).free_user_data ud = .ok s') :
    Kept gone lost s' ∧ s'.allocated = s.allocated ∧ SameConnections s s' := by
  have htaken : Kept gone (ud :: lost) ((s.take ud).take_buffer ud) :=
    (take_kept h hring).update hop _
  have hop' : (((s.take ud).take_buffer ud).user_data ud).op ≠ .READ := by
    unfold take_buffer
    dsimp only
    rw [Function.update_self]
    exact hop
  obtain ⟨hheap, hallocated⟩ := free_heap hs
  exact ⟨free_kept htaken hop' hs, hallocated, .of_eq hheap⟩

/-- The close of `o` is handled: its entry goes, and no other. -/
theorem handle_cancel_kept {o : ℕ} (h : Kept gone lost s) (hring : ud ∈ s.ring)
    (hop : (s.user_data ud).op = .CANCEL) (hconn : (s.user_data ud).conn = some o)
    (hresult : s.results ud = some res) (hs : (s.take ud).handle_cancel ud env = .ok s') :
    Kept (o :: gone) lost s' ∧ s'.allocated = s.allocated ∧ SameConnections s s' := by
  obtain ⟨conn, hpointer, hdirection, hs⟩ := handle_cancel_eq_ok hs
  obtain rfl : conn = o := Option.some.inj (hpointer.symm.trans hconn)
  obtain ⟨hclose, hgone, hunique⟩ := h.underway.cancel ud hring hop conn hconn
  have hclosed : s.closed conn = true := by
    cases hclosed : s.closed conn with
    | true => rfl
    | false =>
        have hnone := hclose.mpr hclosed
        rw [hresult] at hnone
        cases hnone
  have hne : ((s.take ud).user_data ud).op ≠ .READ := by
    have hop' : ((s.take ud).user_data ud).op = .CANCEL := hop
    rw [hop']
    nofun
  have htaken : Kept gone (ud :: lost) ((s.take ud).take_conn ud) :=
    (take_kept h hring).update hne _
  have hremoved : Kept (conn :: gone) (ud :: lost)
      (((s.take ud).take_conn ud).remove_connection (s.heap conn).type (s.heap conn).fd) := by
    refine ⟨htaken.places.of_eq rfl rfl, ⟨htaken.book.fresh, htaken.book.descriptor,
      htaken.book.distinct, ?_, ?_⟩, ⟨htaken.underway.conn, htaken.underway.posted,
      ?_⟩, htaken.pinned⟩
    · rw [entry_erase (s := (s.take ud).take_conn ud) rfl]
      refine htaken.book.entries.erase (a := conn) ⟨hdirection, hgone⟩ (fun o => ?_) fun _ _ => rfl
      unfold Live
      rw [List.mem_cons, not_or]
      constructor
      · rintro ⟨hdown, hneq, hnot⟩
        exact ⟨⟨hdown, hnot⟩, hneq⟩
      · rintro ⟨⟨hdown, hnot⟩, hneq⟩
        exact ⟨hdown, hneq, hnot⟩
    · intro o ho
      rcases List.mem_cons.mp ho with rfl | ho
      · exact hclosed
      · exact htaken.book.gone o ho
    · intro x hx hopx o ho
      obtain ⟨hclosex, hgonex, huniquex⟩ := htaken.underway.cancel x hx hopx o ho
      refine ⟨hclosex, ?_, huniquex⟩
      rw [List.mem_cons, not_or]
      refine ⟨?_, hgonex⟩
      rintro rfl
      -- the only close of this connection is the one in hand
      have hxud : x ≠ ud := by
        rintro rfl
        exact htaken.places.hand hx
      have hdata : ((s.take ud).take_conn ud).user_data x = s.user_data x :=
        Function.update_of_ne hxud ..
      have hopx' : (s.user_data x).op = .CANCEL := by
        rw [← hdata]
        exact hopx
      have hox' : (s.user_data x).conn = some o := by
        rw [← hdata]
        exact ho
      exact hxud (hunique x (List.mem_of_mem_erase hx) hopx' hox')
  have hs : (((s.take ud).take_conn ud).remove_connection (s.heap conn).type
      (s.heap conn).fd).free_user_data ud = .ok s' := by
    rw [← hremoved.pinned.release (some conn)]
    exact hs
  have hop' : ((((s.take ud).take_conn ud).remove_connection (s.heap conn).type
      (s.heap conn).fd).user_data ud).op ≠ .READ := by
    unfold remove_connection take_conn
    dsimp only
    rw [Function.update_self]
    exact hne
  obtain ⟨hheap, hallocated⟩ := free_heap hs
  exact ⟨free_kept hremoved hop' hs, hallocated, .of_eq hheap⟩

end Handlers

end EventLoop

end RlpSidecar
