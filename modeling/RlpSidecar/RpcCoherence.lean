/-
**Responses go back to the request they answer.**

The three maps of the registry are indexes of the live message objects: by the downstream stream
of all of them, by the upstream stream and by the local id of those that were sent. `Tracks` says
so, and ties the objects to the open requests of the ledger. Since objects are shared and their
keys are fields that are written one by one, the proof goes operation by operation: an object's
upstream key and id change only while it is not yet indexed by them.

`step_coherent` puts them together, one case for each event of the traffic, and
`responses_reach_their_requests` reads off what is promised at every moment of every run: what the
maps hold, who has which object, and that each answer went to the request it was sent for.
-/
import RlpSidecar.RpcTraffic

set_option autoImplicit false

open Tables Runs

namespace RlpSidecar

namespace RPCMapper

variable {n : ℕ}

/-- A live object whose request was sent on an upstream stream, and so is filed under it. -/
def Routed (m : RPCMapper n) (L : Ledger) (a : Fin n) : Prop :=
  m.Live a ∧ (L.upstream (m.ds_key a)).isSome

/-- **The invariant** of the registry: pool and maps share the objects out as the ledger says. -/
structure Tracks (m : RPCMapper n) (L : Ledger) : Prop where
  pool_nodup : (m.http_pool ++ m.grpc_pool).Nodup
  pool_kind : ∀ http, ∀ a ∈ m.pool http, (m.heap a).http = http ∧ (m.heap a).error = false
  ds : Indexes m.find_ds m.Live m.ds_key
  us : Indexes m.find_us (m.Routed L) m.us_key
  id : Indexes m.find_id (m.Routed L) m.id_key
  /-- The open requests are those of the live objects. -/
  opened : ∀ k, (L.request k).isSome ↔ ∃ a, m.Live a ∧ m.ds_key a = k
  /-- An object that was sent has the upstream stream the ledger names. -/
  sent : ∀ a us, m.Live a → L.upstream (m.ds_key a) = some us →
    ((m.heap a).us_fd, (m.heap a).us_stream_id) = us
  /-- Objects are of the kind of their request, and only HTTP/1 ones are marked as errors. -/
  kind : ∀ a r, m.Live a → L.request (m.ds_key a) = some r →
    (m.heap a).http = r.http ∧ ((m.heap a).error = true → r.http = .HTTP1)

theorem live_iff {m : RPCMapper n} {a : Fin n} : m.Live a ↔ ∀ http, a ∉ m.pool http := by
  unfold Live
  rw [List.mem_append, not_or]
  constructor
  · rintro ⟨h1, h2⟩ http
    cases http
    · exact h1
    · exact h2
  · intro h
    exact ⟨h .HTTP1, h .HTTP2⟩

theorem mem_pool {m : RPCMapper n} {http : HTTP} {a : Fin n} (h : a ∈ m.pool http) :
    a ∈ m.http_pool ++ m.grpc_pool := by
  by_contra hnot
  exact live_iff.mp hnot http h

variable {m m' : RPCMapper n} {L L' : Ledger} {config : TrafficConfig}

/-- The object of an open request: it is found by the downstream stream, is in use, and knows the
stream. -/
theorem Tracks.object (h : m.Tracks L) {k : StreamKey} {r : OpenRequest}
    (hk : L.request k = some r) :
    ∃ a, m.find_ds k = some a ∧ m.Live a ∧ m.ds_key a = k := by
  obtain ⟨a, hlive, hkey⟩ := (h.opened k).mp (by rw [hk]; rfl)
  exact ⟨a, (h.ds k a).mpr ⟨hlive, hkey⟩, hlive, hkey⟩

/-- The object that answers on an upstream stream is the one of the request sent there. -/
theorem Tracks.response (h : m.Tracks L) {k : StreamKey} {us : ℤ × ℤ}
    (hk : L.upstream k = some us) :
    ∃ a, m.find_us (k.1, us) = some a ∧ m.find_ds k = some a ∧ m.Live a ∧ m.ds_key a = k
      ∧ m.us_key a = (k.1, us) := by
  obtain ⟨r, hr⟩ : ∃ r, L.request k = some r := by
    unfold Ledger.upstream at hk
    obtain ⟨r, hr, _⟩ := Option.bind_eq_some_iff.mp hk
    exact ⟨r, hr⟩
  obtain ⟨a, hds, hlive, hkey⟩ := h.object hr
  have hus : m.us_key a = (k.1, us) := by
    have hsent := h.sent a us hlive (by rw [hkey]; exact hk)
    rw [← hkey, ← hsent]
    rfl
  exact ⟨a, (h.us _ a).mpr ⟨⟨hlive, by rw [hkey, hk]; rfl⟩, hus⟩, hds, hlive, hkey, hus⟩

/-! ## The operations keep the invariant -/

/-- The registry as its constructor leaves it, with nothing open and all objects in the pool. -/
theorem tracks_create (grpc_n http_n : ℕ) (type : Fin (http_n + grpc_n) → ConnectionType)
    (priority : Fin (http_n + grpc_n) → Priority) :
    (create grpc_n http_n type priority).Tracks .empty := by
  -- At the start every object is in one of the pools, so none is live.
  have hlive : ∀ a, ¬ (create grpc_n http_n type priority).Live a := by
    intro a hlive
    refine hlive (List.mem_append.mpr ?_)
    by_cases ha : a.val < http_n
    · exact .inl (List.mem_filter.mpr ⟨List.mem_finRange a, by simpa using ha⟩)
    · exact .inr (List.mem_filter.mpr ⟨List.mem_finRange a, by simpa using ha⟩)
  refine
    { pool_nodup := ?_
      pool_kind := fun http a ha => ?_
      ds := Indexes.empty hlive
      us := Indexes.empty fun a ha => hlive a ha.1
      id := Indexes.empty fun a ha => hlive a ha.1
      opened :=
      fun k => ⟨fun h => by simp [Ledger.empty] at h, fun ⟨a, ha, _⟩ => absurd ha (hlive a)⟩
      sent := fun a _ ha => absurd ha (hlive a)
      kind := fun a _ ha => absurd ha (hlive a) }
  · have hnodup := List.nodup_finRange (http_n + grpc_n)
    refine List.Nodup.append (hnodup.filter _) (hnodup.filter _) fun a h1 h2 => ?_
    have h1' := (List.mem_filter.mp h1).2
    have h2' := (List.mem_filter.mp h2).2
    simp only [decide_eq_true_eq] at h1' h2'
    exact h2' h1'
  · cases http with
    | HTTP1 =>
        have ha' := (List.mem_filter.mp ha).2
        simp only [decide_eq_true_eq] at ha'
        exact ⟨if_pos ha', rfl⟩
    | HTTP2 =>
        have ha' := (List.mem_filter.mp ha).2
        simp only [decide_eq_true_eq] at ha'
        exact ⟨if_neg ha', rfl⟩

/-- A change of an entry of the ledger that leaves the kind and the upstream stream alone. -/
theorem Tracks.relabel (h : m.Tracks L) {k : StreamKey} {r r' : OpenRequest}
    (hk : L.request k = some r) (hhttp : r'.http = r.http) (hus : r'.upstream? = r.upstream?) :
    m.Tracks (L.set k (some r')) := by
  -- the request was sent on the same stream, or was not sent before either
  have hup : (L.set k (some r')).upstream = L.upstream := by
    funext k'
    rw [Ledger.upstream_set]
    split_ifs with hk'
    · subst hk'; unfold Ledger.upstream; rw [hk]; exact hus
    · rfl
  have hrouted : ∀ a, m.Routed (L.set k (some r')) a ↔ m.Routed L a := by
    intro a; unfold Routed; rw [hup]
  refine
    { pool_nodup := h.pool_nodup
      pool_kind := h.pool_kind
      ds := h.ds
      us := h.us.congr hrouted fun _ _ => rfl
      id := h.id.congr hrouted fun _ _ => rfl
      opened := fun k' => ?_
      sent := fun a us ha hup' => h.sent a us ha (by rw [← hup]; exact hup')
      kind := fun a r₁ ha hr₁ => ?_ }
  · rw [← h.opened k']
    unfold Ledger.set
    by_cases hk' : k' = k
    · subst hk'; simp only [Function.update_self, hk, Option.isSome_some]
    · simp only [Function.update_of_ne hk']
  · unfold Ledger.set at hr₁
    by_cases hk' : m.ds_key a = k
    · rw [hk'] at hr₁
      simp only [Function.update_self] at hr₁
      obtain rfl := Option.some.inj hr₁
      have hkind := h.kind a r ha (by rw [hk']; exact hk)
      rw [hhttp]
      exact hkind
    · simp only [Function.update_of_ne hk'] at hr₁
      exact h.kind a r₁ ha hr₁

/-- The registry after a change of one object, read at any object. -/
theorem modify_heap (m : RPCMapper n) (a b : Fin n) (f : RPCMessage → RPCMessage) :
    (m.modify a f).heap b = if b = a then f (m.heap a) else m.heap b := by
  unfold modify
  by_cases h : b = a
  · subst h; rw [if_pos rfl]; exact Function.update_self ..
  · rw [if_neg h]; exact Function.update_of_ne h ..

/-- A live object may change everything but its kind and its downstream stream as long as its
request has not been sent. -/
theorem Tracks.modify (h : m.Tracks L) {a : Fin n} {f : RPCMessage → RPCMessage}
    (ha : m.Live a) (hunsent : L.upstream (m.ds_key a) = none)
    (hhttp : (f (m.heap a)).http = (m.heap a).http)
    (hds : ((f (m.heap a)).type, (f (m.heap a)).ds_fd, (f (m.heap a)).ds_stream_id) = m.ds_key a)
    (herror : (f (m.heap a)).error = true → (m.heap a).http = .HTTP1 ∨ (m.heap a).error = true) :
    (m.modify a f).Tracks L := by
  have hkey : ∀ b, (m.modify a f).ds_key b = m.ds_key b := by
    intro b
    unfold ds_key
    rw [modify_heap]
    split_ifs with hb
    · rw [hb]; exact hds
    · rfl
  have hrouted : ∀ b, (m.modify a f).Routed L b ↔ m.Routed L b := by
    intro b; unfold Routed; rw [hkey]; rfl
  -- the object was not sent, so those that were are untouched
  have hsame : ∀ b, m.Routed L b → (m.modify a f).heap b = m.heap b := by
    intro b hb
    rw [modify_heap, if_neg]
    rintro rfl
    have hsome := hb.2
    rw [hunsent] at hsome
    simp at hsome
  refine
    { pool_nodup := h.pool_nodup
      pool_kind := fun http b hb => ?_
      ds := h.ds.congr (fun _ => Iff.rfl) fun b _ => hkey b
      us := h.us.congr hrouted fun b hb => by unfold us_key; rw [hsame b hb]
      id := h.id.congr hrouted fun b hb => by unfold id_key; rw [hsame b hb]
      opened := fun k => ?_
      sent := fun b us hb hup => ?_
      kind := fun b r hb hr => ?_ }
  · have hne : b ≠ a := by rintro rfl; exact ha (mem_pool hb)
    rw [modify_heap, if_neg hne]
    exact h.pool_kind http b hb
  · simp only [hkey]
    exact h.opened k
  · rw [hkey] at hup
    rw [hsame b ⟨hb, by rw [hup]; rfl⟩]
    exact h.sent b us hb hup
  · rw [hkey] at hr
    have hkind := h.kind b r hb hr
    rw [modify_heap]
    split_ifs with heq
    · subst heq
      refine ⟨hhttp.trans hkind.1, fun herr => ?_⟩
      rcases herror herr with h1 | h1
      · exact hkind.1.symm.trans h1
      · exact hkind.2 h1
    · exact hkind

/-- **`allocate_rpc`** opens a request on a downstream stream that has none, with an object of the
pool. -/
theorem Tracks.allocate_rpc (h : m.Tracks L) {k : StreamKey} {http : HTTP}
    (hok : m.allocate_rpc k.1 k.2.2 k.2.1 http = .ok m') :
    m'.Tracks (L.set k (some ⟨http, .receiving⟩)) := by
  obtain ⟨a, m₁, hget, hfree, hds, hus, hid, hheap, hhttp, hgrpc⟩ := allocate_rpc_spec hok
  obtain ⟨hperm, hmem, hsub, hheap₁, _⟩ := get_rpc_spec hget
  rw [← hhttp, ← hgrpc] at hperm
  rw [← hheap] at hheap₁
  have hpool : ∀ kind, m'.pool kind = m₁.pool kind := by
    intro kind; cases kind; exacts [hhttp, hgrpc]
  have hnodup := hperm.nodup_iff.mp h.pool_nodup
  -- the live objects are the old ones and `a`
  have hlive : ∀ b, m'.Live b ↔ m.Live b ∨ b = a := by
    intro b
    unfold Live
    rw [hperm.mem_iff, List.mem_cons]
    by_cases hb : b = a
    · subst hb; simp only [or_true, iff_true]; exact (List.nodup_cons.mp hnodup).1
    · simp only [hb, false_or, or_false]
  have hnot : ¬ m.Live a := fun hl => hl (mem_pool hmem)
  have hsame : ∀ b, m.Live b → m'.heap b = m.heap b := by
    intro b hb
    rw [hheap₁, Function.update_of_ne]
    rintro rfl
    exact hnot hb
  have hkey : ∀ b, m.Live b → m'.ds_key b = m.ds_key b := by
    intro b hb; unfold ds_key; rw [hsame b hb]
  have hkeya : m'.ds_key a = k := by
    unfold ds_key; rw [hheap₁, Function.update_self]
  have hother : ∀ b, m.Live b → m.ds_key b ≠ k := fun b hb => h.ds.ne_of_free hfree hb
  have hup : ∀ k', (L.set k (some ⟨http, .receiving⟩)).upstream k'
      = if k' = k then none else L.upstream k' := fun k' => Ledger.upstream_set L k k' _
  have hrouted : ∀ b, m'.Routed (L.set k (some ⟨http, .receiving⟩)) b ↔ m.Routed L b := by
    intro b
    unfold Routed
    rw [hlive, hup]
    constructor
    · rintro ⟨hb | rfl, hsome⟩
      · rw [hkey b hb, if_neg (hother b hb)] at hsome
        exact ⟨hb, hsome⟩
      · rw [if_pos hkeya] at hsome
        simp at hsome
    · rintro ⟨hb, hsome⟩
      rw [hkey b hb, if_neg (hother b hb)]
      exact ⟨.inl hb, hsome⟩
  refine
    { pool_nodup := (List.nodup_cons.mp hnodup).2
      pool_kind := fun kind b hb => ?_
      ds := ?_
      us := ?_
      id := ?_
      opened := fun k' => ?_
      sent := fun b us hb hb' => ?_
      kind := fun b r hb hr => ?_ }
  · have hb' : b ∈ m.pool kind := hsub kind (by rw [← hpool]; exact hb)
    have hne : b ≠ a := by
      rintro rfl
      exact (List.nodup_cons.mp hnodup).1 (mem_pool hb)
    rw [hheap₁, Function.update_of_ne hne]
    exact h.pool_kind kind b hb'
  · rw [hds]
    exact h.ds.insert hfree hlive hkey hkeya
  · rw [hus]
    exact h.us.congr hrouted fun b hb => by unfold us_key; rw [hsame b hb.1]
  · rw [hid]
    exact h.id.congr hrouted fun b hb => by unfold id_key; rw [hsame b hb.1]
  · unfold Ledger.set
    by_cases hk' : k' = k
    · subst hk'
      simp only [Function.update_self, Option.isSome_some, true_iff]
      exact ⟨a, (hlive a).mpr (.inr rfl), hkeya⟩
    · simp only [Function.update_of_ne hk']
      rw [h.opened k']
      constructor
      · rintro ⟨b, hb, hbk⟩
        exact ⟨b, (hlive b).mpr (.inl hb), (hkey b hb).trans hbk⟩
      · rintro ⟨b, hb, hbk⟩
        rcases (hlive b).mp hb with hb | rfl
        · exact ⟨b, hb, (hkey b hb).symm.trans hbk⟩
        · exact absurd (hbk.symm.trans hkeya) hk'
  · have hr := (hrouted b).mp ⟨hb, by rw [hb']; rfl⟩
    rw [hup, hkey b hr.1, if_neg (hother b hr.1)] at hb'
    rw [hsame b hr.1]
    exact h.sent b us hr.1 hb'
  · rcases (hlive b).mp hb with hb | rfl
    · rw [hkey b hb] at hr
      unfold Ledger.set at hr
      simp only [Function.update_of_ne (hother b hb)] at hr
      rw [hsame b hb]
      exact h.kind b r hb hr
    · rw [hkeya] at hr
      unfold Ledger.set at hr
      simp only [Function.update_self] at hr
      obtain rfl := Option.some.inj hr
      have hpk := h.pool_kind http b hmem
      rw [hheap₁, Function.update_self]
      refine ⟨hpk.1, fun herr => ?_⟩
      have herr' : (m.heap b).error = true := herr
      rw [hpk.2] at herr'
      simp at herr'

/-- **`route`** files an object that carries its new upstream stream already, under that stream. -/
theorem Tracks.route (h : m.Tracks L) {k : StreamKey} {a : Fin n} {us : ℤ × ℤ} {r : OpenRequest}
    {routes : List (StreamKey × ℤ × ℤ)} {drops : ℕ}
    (hk : L.request k = some r) (ha : m.find_ds k = some a)
    (hus : ((m.heap a).us_fd, (m.heap a).us_stream_id) = us)
    (hnew : ∀ k', k'.1 = k.1 → L.upstream k' ≠ some us)
    (hok : m.route k.1 k.2.2 k.2.1 us.2 us.1 = .ok m') :
    m'.Tracks ⟨(L.set k (some ⟨r.http, .forwarded us⟩)).request, routes, drops⟩ := by
  obtain ⟨hlive, hkey⟩ := (h.ds k a).mp ha
  have hus_key : m.us_key a = (k.1, us) := by rw [← hkey, ← hus]; rfl
  -- nobody is filed under the new upstream stream: `route` would not notice
  have hfree : m.find_us (k.1, us) = none := by
    refine h.us.free fun b hb hbk => ?_
    obtain ⟨us', hus'⟩ := Option.isSome_iff_exists.mp hb.2
    have hsent := h.sent b us' hb.1 hus'
    have htype : (m.ds_key b).1 = k.1 := (Prod.mk.inj hbk).1
    have hsame : us' = us := hsent.symm.trans (Prod.mk.inj hbk).2
    exact hnew _ htype (hsame ▸ hus')
  obtain ⟨a', ha', hidfree, hid', hus', hds', hheap, hhttp, hgrpc⟩ := route_spec hok hfree
  obtain rfl : a' = a := Option.some.inj (ha'.symm.trans ha)
  have hlive' : ∀ b, m'.Live b ↔ m.Live b := by
    intro b; unfold Live; rw [hhttp, hgrpc]
  have hdskey : ∀ b, m'.ds_key b = m.ds_key b := by intro b; unfold ds_key; rw [hheap]
  have huskey : ∀ b, m'.us_key b = m.us_key b := by intro b; unfold us_key; rw [hheap]
  have hidkey : ∀ b, m'.id_key b = m.id_key b := by intro b; unfold id_key; rw [hheap]
  have hpool : ∀ kind, m'.pool kind = m.pool kind := by
    intro kind; cases kind; exacts [hhttp, hgrpc]
  have hup : ∀ k', Ledger.upstream
      ⟨(L.set k (some ⟨r.http, .forwarded us⟩)).request, routes, drops⟩ k'
        = if k' = k then some us else L.upstream k' :=
    fun k' => Ledger.upstream_set L k k' (some ⟨r.http, .forwarded us⟩)
  have hrouted : ∀ b, m'.Routed
      ⟨(L.set k (some ⟨r.http, .forwarded us⟩)).request, routes, drops⟩ b
        ↔ m.Routed L b ∨ b = a' := by
    intro b
    unfold Routed
    rw [hlive', hdskey, hup]
    by_cases hb : m.ds_key b = k
    · simp only [if_pos hb, Option.isSome_some, and_true]
      constructor
      · intro hl
        exact .inr (h.ds.key_inj hl hlive (hb.trans hkey.symm))
      · rintro (⟨hl, _⟩ | rfl)
        · exact hl
        · exact hlive
    · simp only [if_neg hb]
      refine ⟨.inl, ?_⟩
      rintro (hl | rfl)
      · exact hl
      · exact absurd hkey hb
  refine
    { pool_nodup := by rw [hhttp, hgrpc]; exact h.pool_nodup
      pool_kind := fun kind b hb => by
        rw [hheap]; exact h.pool_kind kind b (by rw [← hpool]; exact hb)
      ds := by rw [hds']; exact h.ds.congr hlive' fun b _ => hdskey b
      us := ?_
      id := ?_
      opened := fun k' => ?_
      sent := fun b us' hb hb' => ?_
      kind := fun b r' hb hr => ?_ }
  · rw [hus']
    exact h.us.insert hfree hrouted (fun b _ => huskey b) ((huskey a').trans hus_key)
  · have hida : m.id_key a' = (k.1, (m.heap a').local_id) := by rw [← hkey]; rfl
    rw [hid']
    exact h.id.insert hidfree hrouted (fun b _ => hidkey b) ((hidkey a').trans hida)
  · simp only [hlive', hdskey]
    rw [← h.opened k']
    unfold Ledger.set
    by_cases hk' : k' = k
    · subst hk'; simp only [Function.update_self, hk, Option.isSome_some]
    · simp only [Function.update_of_ne hk']
  · rw [hlive'] at hb
    rw [hdskey, hup] at hb'
    rw [hheap]
    split_ifs at hb' with hbk
    · obtain rfl : b = a' := h.ds.key_inj hb hlive (hbk.trans hkey.symm)
      exact hus.trans (Option.some.inj hb')
    · exact h.sent b us' hb hb'
  · rw [hlive'] at hb
    rw [hdskey] at hr
    rw [hheap]
    unfold Ledger.set at hr
    by_cases hbk : m.ds_key b = k
    · rw [hbk] at hr
      simp only [Function.update_self] at hr
      obtain rfl := Option.some.inj hr
      exact h.kind b r hb (by rw [hbk]; exact hk)
    · simp only [Function.update_of_ne hbk] at hr
      exact h.kind b r' hb hr

theorem modify_modify (m : RPCMapper n) (a : Fin n) (f g : RPCMessage → RPCMessage) :
    (m.modify a f).modify a g = m.modify a fun msg => g (f msg) := by
  unfold modify
  simp only [Function.update_self, Function.update_idem]

theorem modify_same {a : Fin n} {f : RPCMessage → RPCMessage} (h : f (m.heap a) = m.heap a) :
    m.modify a f = m := by
  unfold modify
  rw [h, Function.update_eq_self]

/-- Freeing and removing an object do not depend on whether it is marked as an error. -/
theorem free_rpc_modify (m : RPCMapper n) (a : Fin n) (held : ℕ) (e : RPCMessage → Bool) :
    (m.modify a fun msg => { msg with error := e msg }).free_rpc a held = m.free_rpc a held := by
  have hclear : ∀ msg : RPCMessage, { msg with error := e msg }.clear = msg.clear := by
    intro msg; unfold RPCMessage.clear; rfl
  unfold free_rpc modify
  simp only [Function.update_self, hclear, Function.update_idem]
  rfl

theorem remove_rpc_modify (m : RPCMapper n) (type : ConnectionType) (a : Fin n) (held : ℕ)
    (e : RPCMessage → Bool) :
    (m.modify a fun msg => { msg with error := e msg }).remove_rpc type a held
      = m.remove_rpc type a held := by
  unfold remove_rpc
  dsimp only
  rw [modify_heap, if_pos rfl]
  dsimp only
  have hus : (m.modify a fun msg => { msg with error := e msg }).us_map = m.us_map := rfl
  have hds : (m.modify a fun msg => { msg with error := e msg }).ds_map = m.ds_map := rfl
  rw [hus, hds]
  split
  · exact free_rpc_modify { m with ds_map := _, us_map := _, id_map := _ } a held e
  · rfl

/-- An object that gets its upstream stream and is filed under it: what `forward_request` and
`drop_rpc` do. -/
theorem Tracks.send (h : m.Tracks L) {k : StreamKey} {a : Fin n} {us : ℤ × ℤ} {r : OpenRequest}
    {f : RPCMessage → RPCMessage} {routes : List (StreamKey × ℤ × ℤ)} {drops : ℕ}
    (hk : L.request k = some r) (hunsent : r.upstream? = none) (ha : m.find_ds k = some a)
    (hhttp : (f (m.heap a)).http = (m.heap a).http)
    (hds : ((f (m.heap a)).type, (f (m.heap a)).ds_fd, (f (m.heap a)).ds_stream_id) = m.ds_key a)
    (herror : (f (m.heap a)).error = true → (m.heap a).http = .HTTP1 ∨ (m.heap a).error = true)
    (hus : ((f (m.heap a)).us_fd, (f (m.heap a)).us_stream_id) = us)
    (hnew : ∀ k', k'.1 = k.1 → L.upstream k' ≠ some us)
    (hok : (m.modify a f).route k.1 ((m.modify a f).heap a).ds_stream_id
      ((m.modify a f).heap a).ds_fd ((m.modify a f).heap a).us_stream_id us.1 = .ok m') :
    m'.Tracks ⟨(L.set k (some ⟨r.http, .forwarded us⟩)).request, routes, drops⟩ := by
  obtain ⟨hlive, hkey⟩ := (h.ds k a).mp ha
  have hup : L.upstream (m.ds_key a) = none := by
    unfold Ledger.upstream; rw [hkey, hk]; exact hunsent
  have hheap : (m.modify a f).heap a = f (m.heap a) := by rw [modify_heap, if_pos rfl]
  rw [hheap] at hok
  rw [hkey] at hds
  have hfd : (f (m.heap a)).ds_fd = k.2.1 := by rw [← hds]
  have hstream : (f (m.heap a)).ds_stream_id = k.2.2 := by rw [← hds]
  have hus2 : (f (m.heap a)).us_stream_id = us.2 := by rw [← hus]
  rw [hfd, hstream, hus2] at hok
  have hmod := h.modify (f := f) hlive hup hhttp (by rw [hds, hkey]) herror
  exact hmod.route hk ha (by rw [hheap]; exact hus) hnew hok

/-- **`remove_rpc`** closes a request that was sent. Its object goes back to the pool, and nothing
else changes hands. -/
theorem Tracks.remove_rpc (h : m.Tracks L) {k : StreamKey} {a : Fin n} {held : ℕ}
    (ha : m.find_ds k = some a) (hsent : (L.upstream k).isSome)
    (hok : m.remove_rpc k.1 a held = .ok m') : m'.Tracks (L.set k none) := by
  obtain ⟨hlive, hkey⟩ := (h.ds k a).mp ha
  have htype : (m.heap a).type = k.1 := by rw [← hkey]; rfl
  obtain ⟨hus, hds, hid, m₁, hfree, hheap₁, hhttp₁, hgrpc₁⟩ := remove_rpc_spec hok htype
  obtain ⟨hperm, hmem, hsub, ⟨msg, hheap, hmsg, herr, -⟩, _⟩ := free_rpc_spec hfree
  rw [hhttp₁, hgrpc₁] at hperm
  rw [hheap₁] at hheap hsub hmsg hmem
  have hpool₁ : ∀ kind, m₁.pool kind = m.pool kind := by
    intro kind; cases kind; exacts [hhttp₁, hgrpc₁]
  have hlive' : ∀ b, m'.Live b ↔ m.Live b ∧ b ≠ a := by
    intro b
    unfold Live
    rw [hperm.mem_iff, List.mem_cons, not_or]
    exact and_comm
  have hsame : ∀ b, b ≠ a → m'.heap b = m.heap b := by
    intro b hb; rw [hheap, Function.update_of_ne hb]
  have hdskey : ∀ b, m'.Live b → m'.ds_key b = m.ds_key b := by
    intro b hb; unfold ds_key; rw [hsame b ((hlive' b).mp hb).2]
  -- no other live object has the key of the request
  have hother : ∀ b, m'.Live b → m.ds_key b ≠ k := by
    intro b hb hbk
    obtain ⟨hb, hne⟩ := (hlive' b).mp hb
    exact hne (h.ds.key_inj hb hlive (hbk.trans hkey.symm))
  have hup : ∀ k', (L.set k none).upstream k' = if k' = k then none else L.upstream k' :=
    fun k' => Ledger.upstream_set L k k' none
  have hrouted_a : m.Routed L a := ⟨hlive, by rw [hkey]; exact hsent⟩
  have hrouted : ∀ b, m'.Routed (L.set k none) b ↔ m.Routed L b ∧ b ≠ a := by
    intro b
    unfold Routed
    constructor
    · rintro ⟨hb, hsome⟩
      rw [hdskey b hb, hup, if_neg (hother b hb)] at hsome
      exact ⟨⟨((hlive' b).mp hb).1, hsome⟩, ((hlive' b).mp hb).2⟩
    · rintro ⟨⟨hb, hsome⟩, hne⟩
      have hb' := (hlive' b).mpr ⟨hb, hne⟩
      refine ⟨hb', ?_⟩
      rw [hdskey b hb', hup, if_neg (hother b hb')]
      exact hsome
  refine
    { pool_nodup := hperm.nodup_iff.mpr (List.nodup_cons.mpr ⟨hlive, h.pool_nodup⟩)
      pool_kind := fun kind b hb => ?_
      ds := ?_
      us := ?_
      id := ?_
      opened := fun k' => ?_
      sent := fun b us' hb hb' => ?_
      kind := fun b r hb hr => ?_ }
  · -- the pool has one object more, which is cleared
    rcases hsub kind b hb with hb | ⟨rfl, rfl⟩
    · have hb' : b ∈ m.pool kind := by rw [← hpool₁]; exact hb
      have hne : b ≠ a := by rintro rfl; exact hlive (mem_pool hb')
      rw [hsame b hne]
      exact h.pool_kind kind b hb'
    · rw [hheap, Function.update_self]
      exact ⟨hmsg, herr⟩
  · rw [hds]
    exact h.ds.erase hlive hlive' hdskey
  · rw [hus]
    exact h.us.erase hrouted_a hrouted fun b hb => by
      unfold us_key; rw [hsame b ((hrouted b).mp hb).2]
  · rw [hid]
    exact h.id.erase hrouted_a hrouted fun b hb => by
      unfold id_key; rw [hsame b ((hrouted b).mp hb).2]
  · unfold Ledger.set
    by_cases hk' : k' = k
    · subst hk'
      simp only [Function.update_self, Option.isSome_none, Bool.false_eq_true, false_iff]
      rintro ⟨b, hb, hbk⟩
      exact hother b hb ((hdskey b hb).symm.trans hbk)
    · simp only [Function.update_of_ne hk']
      rw [h.opened k']
      constructor
      · rintro ⟨b, hb, hbk⟩
        have hb' := (hlive' b).mpr ⟨hb, by rintro rfl; exact hk' (hbk.symm.trans hkey)⟩
        exact ⟨b, hb', (hdskey b hb').trans hbk⟩
      · rintro ⟨b, hb, hbk⟩
        exact ⟨b, ((hlive' b).mp hb).1, (hdskey b hb).symm.trans hbk⟩
  · rw [hdskey b hb, hup, if_neg (hother b hb)] at hb'
    obtain ⟨hb, hne⟩ := (hlive' b).mp hb
    rw [hsame b hne]
    exact h.sent b us' hb hb'
  · rw [hdskey b hb] at hr
    unfold Ledger.set at hr
    simp only [Function.update_of_ne (hother b hb)] at hr
    obtain ⟨hb, hne⟩ := (hlive' b).mp hb
    rw [hsame b hne]
    exact h.kind b r hb hr

/-- **`remove_rpc` succeeds** for an object that was sent and has no returns left: nothing else
refers to it. -/
theorem Tracks.remove_rpc_exists (h : m.Tracks L) {k : StreamKey} {a : Fin n}
    (ha : m.find_ds k = some a) (hsent : (L.upstream k).isSome)
    (hreturns : (m.heap a).credit_return_queue = []) : ∃ m', m.remove_rpc k.1 a 0 = .ok m' := by
  obtain ⟨hlive, hkey⟩ := (h.ds k a).mp ha
  have htype : (m.heap a).type = k.1 := by rw [← hkey]; rfl
  have hrouted : m.Routed L a := ⟨hlive, by rw [hkey]; exact hsent⟩
  obtain ⟨ds_streams, hds, -⟩ :=
    Nested.exists_of_find (show (m.ds_map k.1).find k.2 = some a from ha)
  obtain ⟨us_streams, hus, -⟩ := Nested.exists_of_find
    (show (m.us_map (m.heap a).type).find ((m.heap a).us_fd, (m.heap a).us_stream_id) = some a
      from h.us.find_key hrouted)
  have hfd : k.2.1 = (m.heap a).ds_fd := by rw [← hkey]; rfl
  rw [hfd, ← htype] at hds
  rw [← htype]
  unfold RPCMapper.remove_rpc
  dsimp only at hus hds ⊢
  rw [hus, hds]
  dsimp only
  -- after the erasures no map finds the object
  have hus' := find_update
    (Nested.find_insert hus (lookup_erase_eq us_streams (m.heap a).us_stream_id))
  have hds' := find_update
    (Nested.find_insert hds (lookup_erase_eq ds_streams (m.heap a).ds_stream_id))
  have hid' := lookup_update
    (lookup_erase_eq (m.id_map (m.heap a).type) (m.heap a).local_id)
  have hnone : ∀ {K : Type} [DecidableEq K] {find : K → Option (Fin n)} {live : Fin n → Prop}
      {key : Fin n → K}, Indexes find live key →
      ∀ k, Function.update find (key a) none k ≠ some a := by
    intro K _ find live key hindex k' hk'
    by_cases hk : k' = key a
    · rw [hk, Function.update_self] at hk'
      cases hk'
    · rw [Function.update_of_ne hk] at hk'
      exact hk ((hindex k' a).mp hk').2.symm
  refine free_rpc_exists (references_eq_zero (fun k' => ?_) (fun k' => ?_) (fun k' => ?_) hlive)
    hreturns
  · unfold find_ds
    rw [congrFun hds' k']
    exact hnone h.ds k'
  · unfold find_us
    rw [congrFun hus' k']
    exact hnone h.us k'
  · unfold find_id
    rw [congrFun hid' k']
    exact hnone h.id k'

end RPCMapper

namespace Traffic

variable {n : ℕ} {config : TrafficConfig}

/-- A step of the sidecar and of the ledger beside it, for the same event. -/
def Step (config : TrafficConfig) (w : Traffic n × Ledger) (ev : Event) (w' : Traffic n × Ledger) :
    Prop :=
  w.1.handle config ev = .ok w'.1 ∧ w.2.Step config ev w'.2

/-- **Coherence** of a sidecar with the ledger. Every answer was given to the request that was
sent on the upstream stream it came from. -/
structure Coherent (config : TrafficConfig) (w : Traffic n × Ledger) : Prop where
  ledger : w.2.Wf config
  tracks : w.1.rpc_mapper.Tracks w.2
  drop_id : w.1.drop_id = BitVec.ofNat 32 w.2.drops
  answers : ∀ x ∈ w.1.answers, x ∈ w.2.routes

/-- The object under a downstream stream is the one `get_ds_rpc` returns, and it is of the right
kind. -/
theorem Coherent.get_ds_rpc {w : Traffic n × Ledger} (h : Coherent config w) {k : StreamKey}
    {r : OpenRequest} (hk : w.2.request k = some r) {a : Fin n}
    (ha : w.1.rpc_mapper.get_ds_rpc k.1 k.2.2 k.2.1 = .ok a) :
    w.1.rpc_mapper.find_ds k = some a ∧ w.1.rpc_mapper.Live a ∧ w.1.rpc_mapper.ds_key a = k
      ∧ (w.1.rpc_mapper.heap a).http = r.http := by
  have hfind := RPCMapper.get_ds_rpc_eq_ok.mp ha
  obtain ⟨hlive, hkey⟩ := (h.tracks.ds k a).mp hfind
  exact ⟨hfind, hlive, hkey, (h.tracks.kind a r hlive (by rw [hkey]; exact hk)).1⟩

/-- A request that was not sent has no upstream stream; one that was sent has that of its phase. -/
theorem upstream_of_request {L : Ledger} {k : StreamKey} {r : OpenRequest}
    (hk : L.request k = some r) : L.upstream k = r.upstream? := by
  unfold Ledger.upstream; rw [hk]; rfl

/-- A new upstream stream is not that of an open request, since it was in no route before. -/
theorem upstream_ne {L : Ledger} (h : L.Wf config) {k : StreamKey} {us : ℤ × ℤ}
    (hnew : (k.1, us) ∉ L.routes.map Ledger.upstreamKey) :
    ∀ k', k'.1 = k.1 → L.upstream k' ≠ some us := by
  intro k' htype hup
  refine hnew (List.mem_map.mpr ⟨(k', us), h.routed k' us hup, ?_⟩)
  exact Prod.ext htype rfl

/-- **Every event** keeps the registry coherent with the ledger, whichever handler it has. -/
theorem step_coherent {w w' : Traffic n × Ledger} {ev : Event} (h : Coherent config w)
    (hs : Step config w ev w') : Coherent config w' := by
  obtain ⟨s, L⟩ := w
  obtain ⟨s', L'⟩ := w'
  obtain ⟨hs, hL⟩ := hs
  have hwf : L'.Wf config := hL.wf h.ledger
  cases hL with
  | begin_headers k http =>
      obtain ⟨m, hm, hs⟩ := bind_eq_ok.mp hs
      obtain rfl := Except.ok.inj hs
      exact ⟨hwf, h.tracks.allocate_rpc hm, h.drop_id, h.answers⟩
  | header k hd http hk =>
      obtain ⟨a, ha, hs⟩ := bind_eq_ok.mp hs
      obtain ⟨⟨msg, counter⟩, hmsg, hs⟩ := bind_eq_ok.mp hs
      obtain rfl := Except.ok.inj hs
      obtain ⟨_, hlive, hkey, hhttp⟩ := h.get_ds_rpc hk ha
      obtain ⟨hhttp', htype, hstream, hfd, herror⟩ := RPCMessage.add_header_field_keys hmsg
      have hunsent : L.upstream (s.rpc_mapper.ds_key a) = none := by
        rw [hkey, upstream_of_request hk]; rfl
      refine ⟨hwf, h.tracks.modify (f := fun _ => msg) hlive hunsent hhttp' ?_ fun herr => ?_,
        h.drop_id, h.answers⟩
      · rw [htype, hstream, hfd]; rfl
      · exact .inr (herror ▸ herr)
  | end_stream k http hk =>
      obtain ⟨a, _, hs⟩ := bind_eq_ok.mp hs
      obtain rfl := Except.ok.inj hs
      exact ⟨hwf, h.tracks.relabel hk rfl rfl, h.drop_id, h.answers⟩
  | forward_request k us http hk hfd hnew =>
      obtain ⟨a, ha, hs⟩ := bind_eq_ok.mp hs
      obtain ⟨hfind, hlive, hkey, _⟩ := h.get_ds_rpc hk ha
      dsimp only at hs
      split_ifs at hs
      obtain ⟨m, hm, hs⟩ := bind_eq_ok.mp hs
      obtain rfl := Except.ok.inj hs
      rw [RPCMapper.modify_modify] at hm
      refine ⟨hwf, ?_, h.drop_id, fun x hx => List.mem_cons_of_mem _ (h.answers x hx)⟩
      exact h.tracks.send hk rfl hfind rfl rfl .inr rfl (upstream_ne h.ledger hnew) hm
  | drop_rpc ds http hk hids =>
      obtain ⟨a, ha, hs⟩ := bind_eq_ok.mp hs
      obtain ⟨hfind, hlive, hkey, _⟩ := h.get_ds_rpc (k := (.EGRESS, ds)) hk ha
      dsimp only at hs
      split_ifs at hs with hhttp hservice
      obtain ⟨m, hm, hs⟩ := bind_eq_ok.mp hs
      obtain rfl := Except.ok.inj hs
      -- the counter of the drops is the number of drops
      have hid : s.drop_id + 1 = BitVec.ofNat 32 (L.drops + 1) := by
        have hdrop : s.drop_id = BitVec.ofNat 32 L.drops := h.drop_id
        rw [hdrop, BitVec.ofNat_add]; rfl
      have hus : (config.drop_fd, (s.drop_id + 1).toInt)
          = Ledger.dropStream config (L.drops + 1) := by
        rw [hid]; rfl
      have hlt : L.drops + 1 < 2 ^ 32 := hids.trans_le (Nat.sub_le _ _)
      have hnew := h.ledger.dropStream_new (L := L) hlt
      refine ⟨hwf, ?_, hid, fun x hx => List.mem_cons_of_mem _ (h.answers x hx)⟩
      exact h.tracks.send (k := (.EGRESS, ds)) hk rfl hfind rfl rfl
        (fun _ => .inl (not_not.mp hhttp)) hus (upstream_ne h.ledger hnew) hm
  | forward_response k us http failed held hk =>
      obtain ⟨a, ha, hs⟩ := bind_eq_ok.mp hs
      have hup : L.upstream k = some us := by rw [upstream_of_request hk]; rfl
      obtain ⟨a', hus, hds, hlive, hkey, _⟩ := h.tracks.response hup
      obtain rfl : a' = a := Option.some.inj (hus.symm.trans (RPCMapper.get_us_rpc_eq_ok.mp ha))
      obtain ⟨hhttp, herror⟩ := h.tracks.kind a' _ hlive (by rw [hkey]; exact hk)
      -- the answer goes to the stream of the request that was sent on `us`
      have hanswers : ∀ x ∈ s.answers
          ++ [((k.1, (s.rpc_mapper.heap a').ds_fd, (s.rpc_mapper.heap a').ds_stream_id), us)],
          x ∈ L.routes := by
        intro x hx
        rcases List.mem_append.mp hx with hx | hx
        · exact h.answers x hx
        · rw [List.mem_singleton.mp hx]
          have hk1 : (k.1, (s.rpc_mapper.heap a').ds_fd, (s.rpc_mapper.heap a').ds_stream_id)
              = k := by
            rw [← hkey]; rfl
          rw [hk1]
          exact h.ledger.routed k us hup
      dsimp only at hs
      simp only [RPCMapper.modify_heap, if_true] at hs
      by_cases hclose : http = .HTTP1 ∨ failed = true
      · rw [if_pos hclose] at hwf ⊢
        have hcond : (((s.rpc_mapper.heap a').error || failed) = true)
            ∨ (s.rpc_mapper.heap a').http = .HTTP1 := by
          rcases hclose with h1 | h1
          · exact .inr (hhttp.trans h1)
          · rw [h1, Bool.or_true]; exact .inl rfl
        rw [if_pos hcond] at hs
        obtain ⟨m, hm, hs⟩ := bind_eq_ok.mp hs
        obtain rfl := Except.ok.inj hs
        rw [RPCMapper.remove_rpc_modify] at hm
        exact ⟨hwf, h.tracks.remove_rpc hds (by rw [hup]; rfl) hm, h.drop_id, hanswers⟩
      · rw [if_neg hclose] at hwf ⊢
        rw [not_or, Bool.not_eq_true] at hclose
        have hfine : (s.rpc_mapper.heap a').error = false := by
          rw [← Bool.not_eq_true]
          exact fun herr => hclose.1 (herror herr)
        have hsame : (s.rpc_mapper.modify a' fun msg => { msg with error := msg.error || failed })
            = s.rpc_mapper :=
              RPCMapper.modify_same (by rw [hfine, hclose.2, Bool.or_false, ← hfine])
        rw [hsame, hfine, hclose.2, Bool.or_false, if_neg (by rw [hhttp]; simp [hclose.1])] at hs
        obtain rfl := Except.ok.inj hs
        exact ⟨hwf, h.tracks.relabel hk rfl rfl, h.drop_id, hanswers⟩
  | data_sent k us http held hk =>
      obtain ⟨a, ha, hs⟩ := bind_eq_ok.mp hs
      obtain ⟨hfind, _, _, _⟩ := h.get_ds_rpc hk ha
      dsimp only at hs
      split_ifs at hs
      obtain ⟨m, hm, hs⟩ := bind_eq_ok.mp hs
      obtain rfl := Except.ok.inj hs
      have hsent : (L.upstream k).isSome := by rw [upstream_of_request hk]; rfl
      exact ⟨hwf, h.tracks.remove_rpc hfind hsent hm, h.drop_id, h.answers⟩

theorem start_coherent (config : TrafficConfig) (grpc_n http_n : ℕ)
    (type : Fin (http_n + grpc_n) → ConnectionType) (priority : Fin (http_n + grpc_n) → Priority) :
    Coherent config (start grpc_n http_n type priority, .empty) :=
  ⟨Ledger.wf_empty config, RPCMapper.tracks_create grpc_n http_n type priority, rfl,
    fun x hx => by simp [start] at hx⟩

/-- What a step sends upstream: the request and the stream it is sent on. -/
def sentOn (config : TrafficConfig) (t : Transition (Traffic n × Ledger) Event) :
    Option (StreamKey × ℤ × ℤ) :=
  match t.label with
  | .forward_request k us_fd us_stream_id => some (k, us_fd, us_stream_id)
  | .drop_rpc ds_fd ds_stream_id =>
    some ((.EGRESS, ds_fd, ds_stream_id), Ledger.dropStream config (t.pre.2.drops + 1))
  | _ => none

/-- The routes of the ledger are what the run sent upstream, the last one first. -/
theorem exec_routes {w w' : Traffic n × Ledger} {ts : List (Transition (Traffic n × Ledger) Event)}
    (hrun : Exec (Step config) w ts w') :
    w'.2.routes = (ts.filterMap (sentOn config)).reverse ++ w.2.routes := by
  induction hrun with
  | nil => rfl
  | @cons w w₁ w' ev ts head _ ih =>
      have hone : w₁.2.routes = (sentOn config ⟨w, ev, w₁⟩).toList ++ w.2.routes := by
        obtain ⟨_, hL⟩ := head
        cases w₁
        cases hL <;> rfl
      rw [ih, hone, List.filterMap_cons]
      cases sentOn config ⟨w, ev, w₁⟩ with
      | none => rfl
      | some x => simp

/-- **Responses go back to the request they answer.** After every run from the start of the
process: the three maps hold exactly the live objects, each under its own keys, those by upstream
stream and local id once they were sent; an object is in the pool, once, or belongs to exactly one
open request; `get_us_rpc` finds the object of the request that was sent on the upstream stream;
and every response was written to the stream whose request the run had sent there, no upstream
stream being used for two requests. -/
theorem responses_reach_their_requests {grpc_n http_n : ℕ}
    {type : Fin (http_n + grpc_n) → ConnectionType} {priority : Fin (http_n + grpc_n) → Priority}
    {w : Traffic (http_n + grpc_n) × Ledger}
    {ts : List (Transition (Traffic (http_n + grpc_n) × Ledger) Event)}
    (hrun : Exec (Step config) (start grpc_n http_n type priority, .empty) ts w) :
    let m := w.1.rpc_mapper
    let sent a := m.Live a ∧ (w.2.upstream (m.ds_key a)).isSome
    ((∀ k a, m.find_ds k = some a ↔ m.Live a ∧ m.ds_key a = k)
      ∧ (∀ k a, m.find_us k = some a ↔ sent a ∧ m.us_key a = k)
      ∧ ∀ k a, m.find_id k = some a ↔ sent a ∧ m.id_key a = k)
    ∧ ((m.http_pool ++ m.grpc_pool).Nodup
      ∧ (∀ a, a ∉ m.http_pool ++ m.grpc_pool ↔ m.find_ds (m.ds_key a) = some a)
      ∧ ∀ k, (w.2.request k).isSome ↔ (m.find_ds k).isSome)
    ∧ (∀ k us, w.2.upstream k = some us →
        ∃ a, m.get_us_rpc k.1 us.2 us.1 = .ok a ∧ m.ds_key a = k)
    ∧ (∀ x ∈ w.1.answers, x ∈ ts.filterMap (sentOn config))
    ∧ ((ts.filterMap (sentOn config)).map Ledger.upstreamKey).Nodup := by
  have h : Coherent config w := hrun.invariant (Coherent config)
    (fun _ _ hpre hstep => step_coherent hpre hstep)
    (start_coherent config grpc_n http_n type priority)
  have hroutes := exec_routes hrun
  have hempty : (Ledger.empty).routes = [] := rfl
  dsimp only at hroutes
  rw [hempty, List.append_nil] at hroutes
  refine ⟨⟨h.tracks.ds, h.tracks.us, h.tracks.id⟩, ⟨h.tracks.pool_nodup, fun a => ?_, fun k => ?_⟩,
    fun k us hup => ?_, fun x hx => ?_, ?_⟩
  · exact ⟨fun hl => h.tracks.ds.find_key hl, fun hf => ((h.tracks.ds _ a).mp hf).1⟩
  · rw [h.tracks.opened k, Option.isSome_iff_exists]
    exact exists_congr fun a => (h.tracks.ds k a).symm
  · obtain ⟨a, hus, _, _, hkey, _⟩ := h.tracks.response hup
    exact ⟨a, RPCMapper.get_us_rpc_eq_ok.mpr hus, hkey⟩
  · -- an answer is on a route that the run has made
    have hx' := h.answers x hx
    rw [hroutes] at hx'
    exact List.mem_reverse.mp hx'
  · have hdistinct := h.ledger.distinct
    rw [hroutes, List.map_reverse] at hdistinct
    exact List.nodup_reverse.mp hdistinct

/-- One request on one stream, sent on and answered: a concrete run of the theorem above. -/
theorem responses_reach_their_requests_one :
    ∃ (w : Traffic (0 + 1) × Ledger) (a : Fin (0 + 1)),
      w.1.answers = [((.INGRESS, 5, 1), 7, 1)]
        ∧ w.1.rpc_mapper.get_us_rpc .INGRESS 1 7 = .ok a
        ∧ w.1.rpc_mapper.ds_key a = (.INGRESS, 5, 1) := by
  let config : TrafficConfig := ⟨⟨false, false⟩, 0, []⟩
  let k : StreamKey := (.INGRESS, 5, 1)
  let s₀ : Traffic (0 + 1) := start 1 0 (fun _ => .INGRESS) (fun _ => 0)
  -- One call from its first callback to its answer.
  have hcheck : (do
      let s₁ ← s₀.handle config (.begin_headers k .HTTP2)
      let s₂ ← s₁.handle config (.header k .rpc_id)
      let s₃ ← s₂.handle config (.end_stream k)
      let s₄ ← s₃.handle config (.forward_request k 7 1)
      let s₅ ← s₄.handle config (.forward_response .INGRESS 7 1 false 0)
      .ok (decide (s₅.answers = [((.INGRESS, 5, 1), 7, 1)]))) = (.ok true : Except Abort Bool) := by
    decide +kernel
  obtain ⟨s₁, h₁, hcheck⟩ := bind_eq_ok.mp hcheck
  obtain ⟨s₂, h₂, hcheck⟩ := bind_eq_ok.mp hcheck
  obtain ⟨s₃, h₃, hcheck⟩ := bind_eq_ok.mp hcheck
  obtain ⟨s₄, h₄, hcheck⟩ := bind_eq_ok.mp hcheck
  obtain ⟨s₅, h₅, hcheck⟩ := bind_eq_ok.mp hcheck
  have hanswers := of_decide_eq_true (Except.ok.inj hcheck)
  let step := Step (n := 0 + 1) config
  have hrun : Exec step (s₀, Ledger.empty) _ (s₅, _) :=
    .cons (t := (s₁, _)) ⟨h₁, .begin_headers k .HTTP2⟩
      (.cons (t := (s₂, _)) ⟨h₂, .header k .rpc_id .HTTP2 rfl⟩
        (.cons (t := (s₃, _)) ⟨h₃, .end_stream k .HTTP2 rfl⟩
          (.cons (t := (s₄, _))
            ⟨h₄, .forward_request k (7, 1) .HTTP2 rfl (show (0 : ℤ) < 7 by decide) List.not_mem_nil⟩
            (.cons (t := (s₅, _)) ⟨h₅, .forward_response k (7, 1) .HTTP2 false 0 rfl⟩ (.nil _)))))
  obtain ⟨_, _, hfind, _, _⟩ := responses_reach_their_requests hrun
  obtain ⟨a, ha, hkey⟩ := hfind k (7, 1) rfl
  exact ⟨_, a, hanswers, ha, hkey⟩

end Traffic

end RlpSidecar
