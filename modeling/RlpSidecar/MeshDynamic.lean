/-
**Dynamic fan-out**: one egress RPC, credits of all downstreams.

An egress RPC of a dynamic fan-out asks every downstream for a credit. The last grant forwards it to
the downstream it names and sends the other credits back. The count of the grants is kept on the
ingress RPC and starts again only when that RPC is cleared, so this is what happens for the first
egress RPC of an ingress RPC, and for no other.

`dynamic_fanout` states it for whole runs, one round for each ingress RPC: what is forwarded,
returned and released is exactly what the last grants bring (`Totals`), and a grant that can be
used is handled to its end. `dynamic_fanout_fails` is the run in which an ingress RPC sends a
second egress RPC, whose last grant finds a count that is too high already.
-/
import RlpSidecar.MeshActive
import RlpSidecar.MeshProgress

set_option autoImplicit false

open Runs

namespace RlpSidecar

/-- Of a list without duplicates all but one are different from one that is in it. -/
theorem length_filter_ne {α : Type} [DecidableEq α] {l : List α} (hnodup : l.Nodup) {a : α}
    (ha : a ∈ l) : (l.filter fun b => b ≠ a).length + 1 = l.length := by
  have herase : l.erase a = l.filter fun b => b ≠ a := by
    rw [hnodup.erase_eq_filter a]
    exact List.filter_congr fun b _ => by rw [Bool.eq_iff_iff]; simp
  rw [← herase, List.length_erase_of_mem ha]
  have hpos := List.length_pos_of_mem ha
  omega

namespace Mesh

variable {config : MeshConfig} {G : List Used} {w w' : Mesh × Book}

/-- What the grant `g` does for an egress RPC that has had the grants `H`: until the last one it is
only counted, and the last one forwards the RPC, returns the other credits and calls
`decrement_in_flight`. -/
structure Round (en : Entry) (c : Child) (H : List Used) (g : Used) (s s' : Mesh) : Prop where
  count : H.length + 1 ≤ en.info.downstreams.length
  early : H.length + 1 < en.info.downstreams.length →
    s'.forwarded = s.forwarded ∧ s'.returned = s.returned ∧ s'.decrements = s.decrements
  last : H.length + 1 = en.info.downstreams.length → ∃ rpc rets, rpc.local_id = c.id
    ∧ rpc.service = c.service ∧ s'.forwarded = s.forwarded ++ [rpc]
    ∧ s'.decrements = s.decrements ++ [en.service] ∧ s'.returned = s.returned ++ rets
    ∧ List.Forall₂ ReturnOf (((H ++ [g]).filter fun g => g.1.service ≠ c.service).map Prod.snd) rets
    ∧ rets.length + 1 = en.info.downstreams.length

/-- **One grant** of a dynamic fan-out, for the round of grants that it belongs to. -/
theorem step_round {buf : Buffer} {env : GrantEnv} {m : GrantMessage} {en : Entry} {c : Child}
    (hvalid : config.Valid) (h : Coherent config G w) (hs : Step config w (.grant buf env) w')
    (hread : read_credit_grant buf = .ok m) (hentry : w.2.entry (m.id >>> 32) = some en)
    (hchild : w.2.child m.id = some c) (hd : en.info.fanout = .dfanout) :
    Round en c (grantsTo m.id G) (m, buf) w.1 w'.1 := by
  obtain ⟨hhandle, hbook⟩ := hs
  obtain ⟨_, houtcome⟩ := (step_agrees hvalid h.agrees hbook).of_ok hhandle
  cases houtcome with
  | kept _ hev => exact absurd rfl (hev.1 buf env)
  | granted _ _ m' en' c' pending kept hread' hentry' hold hid hphase hpending hdelivered =>
      obtain rfl := Except.ok.inj (hread.symm.trans hread')
      obtain rfl := Option.some.inj (hentry.symm.trans hentry')
      obtain rfl := Option.some.inj (hchild.symm.trans hold)
      have hinfo := hvalid.info _ _ (h.agrees.book.entries _ _ hentry).find
      -- the grants it has had and those it waits for are those of all downstreams
      obtain ⟨hperm, hlen, hkept⟩ := Child.waiting_round (h.round hentry hchild) hphase
      rw [hinfo.asks_dynamic hd] at hperm hlen
      have hpos := List.length_pos_of_mem hpending
      have herase := List.length_erase_of_mem hpending
      refine ⟨by omega, fun hlt => hdelivered.held fun hnil => ?_, fun hlast => ?_⟩
      · rw [hnil, List.length_nil] at herase
        omega
      · have hnil : pending.erase m.service = [] := List.length_eq_zero_iff.mp (by omega)
        obtain ⟨rpc, rets, _, hlocal, hservice, hforwarded, hreturned, hrets, _, hdecrements⟩ :=
          hdelivered.sent hnil
        have hunused := unused_snoc hkept (m, buf)
        dsimp only at hunused
        rw [← hunused] at hrets
        refine ⟨rpc, rets, hlocal, hservice, hforwarded, hdecrements (by rw [hd]; simp), hreturned,
          hrets, ?_⟩
        -- of the credits of all downstreams, one is for the service the RPC names
        have hall : ((grantsTo m.id G ++ [(m, buf)]).map fun g : Used => g.1.service).Perm
            en.info.downstreams := by
          have hrest := List.perm_cons_erase hpending
          rw [hnil] at hrest
          rw [List.map_append]
          exact (hrest.symm.append_left _).trans hperm
        have hmem := ((h.agrees.book.entries _ _ hentry).dynamic hd).2 c
          (Book.mem_children hentry hchild)
        have hothers := length_filter_ne (hall.nodup_iff.mpr (hinfo.distinct hd))
          (hall.mem_iff.mpr hmem)
        rw [← hrets.length_eq, List.length_map, ← hall.length_eq, ← hothers, List.filter_map,
          List.length_map]
        rfl

/-- **Nothing is left to return** when each Credit Request for the egress RPCs of an ingress RPC has
been granted. -/
theorem Coherent.returned (h : Coherent config G w) {i : RPCID}
    {rpc : RPCMessage} (hlookup : w.1.ingress_rpcs.lookup i = some rpc)
    (hgranted : ∀ (service : Bytes) (id : RPCID), id >>> 32 = i →
      w.1.requests.count (service, id) = (G.map Used.key).count (service, id)) :
    rpc.credit_return_queue = [] := by
  have hrel := h.agrees.ingress i
  rw [hlookup] at hrel
  cases hentry : w.2.entry i with
  | none => rw [hentry] at hrel; simp at hrel
  | some en =>
      rw [hentry] at hrel
      have hmatch : Matches en rpc := Option.rel_some_some.mp hrel
      have hwf := h.agrees.book.entries i en hentry
      -- an egress RPC for which something is kept still waits for a credit
      have hkept : en.children.flatMap Child.kept = [] := by
        refine List.flatMap_eq_nil_iff.mpr fun c hc => ?_
        cases hphase : c.phase with
        | queued | forwarded => simp only [Child.kept, hphase]
        | waiting pending kept =>
            exfalso
            have hid : c.id >>> 32 = i := (hwf.owned c hc).1
            obtain ⟨l₁, l₂, hchildren⟩ := List.append_of_mem hc
            have hat : w.2.At c.id en l₁ c l₂ := ⟨by rw [hid]; exact hentry, hchildren, rfl⟩
            have hchild := hat.child h.agrees.book
            have hne : pending ≠ [] := by
              have hwaits := hwf.fits c hc pending kept hphase
              unfold Waits at hwaits
              cases hf : en.info.fanout with
              | plain | pfanout => rw [hf] at hwaits; rw [hwaits.1]; simp
              | dfanout => rw [hf] at hwaits; exact hwaits.1
            obtain ⟨service, hservice⟩ := List.exists_mem_of_ne_nil pending hne
            have hasked := h.logged.asked service c.id
            have hwanted : Agrees.wanted (w.2.child c.id) = pending := by
              rw [hchild]; simp only [Agrees.wanted, hphase]
            have hpos := List.count_pos_iff.mpr hservice
            rw [hwanted, hgranted service c.id hid] at hasked
            omega
      have hreturns := hmatch.returns
      rw [hkept] at hreturns
      exact List.forall₂_nil_left_iff.mp hreturns

/-! ## Whole runs -/

/-- An egress RPC that has had its last grant: the entry of its ingress RPC, the RPC, and all its
grants. -/
structure Completion where
  entry : Entry
  child : Child
  grants : List Used

namespace Completion

/-- The service and the id of the RPC, under which it is forwarded. -/
def key (r : Completion) : Bytes × RPCID := (r.child.service, r.child.id)

/-- The grants that the RPC does not use: those of the services it is not for. -/
def unused (r : Completion) : List Buffer :=
  (r.grants.filter fun g => g.1.service ≠ r.child.service).map Prod.snd

end Completion

/-- The egress RPC that has its last grant with this event, after the grants `G`. It has asked for
as many as `asks` says. -/
def completion (G : List Used) (t : Transition (Mesh × Book) Event) : Option Completion :=
  (grantOf t.label).bind fun g =>
    (t.pre.2.entry (g.1.id >>> 32)).bind fun en =>
      (t.pre.2.child g.1.id).bind fun c =>
        if (grantsTo g.1.id G).length + 1 = (asks en.info c.service).length then
          some ⟨en, c, grantsTo g.1.id G ++ [g]⟩
        else none

/-- The egress RPCs that have their last grants in a run, in order. -/
def completions : List Used → List (Transition (Mesh × Book) Event) → List Completion
  | _, [] => []
  | G, t :: ts => (completion G t).toList ++ completions (G ++ (grantOf t.label).toList) ts

/-- What one event adds, if `rs` are the RPCs that have their last grant with it: each is forwarded,
its unused grants go back, and a dynamic fan-out is released once. -/
structure Adds (config : MeshConfig) (rs : List Completion) (s s' : Mesh) : Prop where
  forwarded : s'.forwarded.map RPCMessage.key = s.forwarded.map RPCMessage.key
    ++ rs.map Completion.key
  returned : ∃ rets, s'.returned = s.returned ++ rets
    ∧ List.Forall₂ ReturnOf (rs.flatMap Completion.unused) rets
  decrements : ∀ e info, config.server.find e = some info → info.fanout = .dfanout →
    s'.decrements.count e = s.decrements.count e + rs.countP fun r => r.entry.service = e

/-- An event that sends nothing adds nothing to the three logs. -/
theorem Adds.none {s s' : Mesh} (hforwarded : s'.forwarded = s.forwarded)
    (hreturned : s'.returned = s.returned) (hdecrements : s'.decrements = s.decrements) :
    Adds config [] s s' where
  forwarded := by rw [hforwarded]; simp
  returned := ⟨[], by rw [hreturned, List.append_nil], .nil⟩
  decrements e _ _ _ := by rw [hdecrements]; simp

theorem Adds.append {s s₁ s' : Mesh} {rs rs' : List Completion} (h : Adds config rs s s₁)
    (h' : Adds config rs' s₁ s') : Adds config (rs ++ rs') s s' where
  forwarded := by rw [h'.forwarded, h.forwarded, List.map_append, List.append_assoc]
  returned := by
    obtain ⟨rets, hreturned, hrets⟩ := h.returned
    obtain ⟨rets', hreturned', hrets'⟩ := h'.returned
    refine ⟨rets ++ rets', by rw [hreturned', hreturned, List.append_assoc], ?_⟩
    rw [List.flatMap_append]
    exact List.rel_append hrets hrets'
  decrements e info hinfo hd := by
    rw [h'.decrements e info hinfo hd, h.decrements e info hinfo hd,
      List.countP_append, Nat.add_assoc]

/-- Admitting requests sends no RPC and returns no credit; it sends Credit Requests only. -/
theorem adds_of_admitted {rpcs : List RPCMessage} {s s' : Mesh} {B B' : Book}
    (hrun : Agrees.Admitted config rpcs s B s' B') : Adds config [] s s' := by
  induction hrun with
  | nil => exact .none rfl rfl rfl
  | cons _ head _ ih => exact (Adds.none head.forwarded head.returned head.decrements).append ih

/-- A grant is the last one of the RPC it is for if the RPC waits for no other: the grants it has
had and those it waits for are those it has asked for. -/
theorem Coherent.completion_eq (h : Coherent config G w) {buf : Buffer} {env : GrantEnv}
    {m : GrantMessage} {en : Entry} {c : Child} {pending : List Bytes} {kept : List Buffer}
    (hread : read_credit_grant buf = .ok m) (hentry : w.2.entry (m.id >>> 32) = some en)
    (hchild : w.2.child m.id = some c) (hphase : c.phase = .waiting pending kept)
    (hpending : m.service ∈ pending) :
    completion G ⟨w, .grant buf env, w'⟩
      = if pending.erase m.service = [] then some ⟨en, c, grantsTo m.id G ++ [(m, buf)]⟩
        else none := by
  obtain ⟨-, hlen, -⟩ := Child.waiting_round (h.round hentry hchild) hphase
  have hgrant : grantOf (.grant buf env) = some (m, buf) := by simp only [grantOf, hread]
  have hcount : (grantsTo m.id G).length + 1 = (asks en.info c.service).length
      ↔ pending.erase m.service = [] := by
    have hpos := List.length_pos_of_mem hpending
    have herase := List.length_erase_of_mem hpending
    rw [← List.length_eq_zero_iff]
    omega
  unfold completion
  dsimp only
  rw [hgrant, Option.bind_some, hentry, Option.bind_some, hchild, Option.bind_some]
  simp only [hcount]

/-- **One event** adds what the RPC whose last grant it brings adds, and nothing if it brings
none. -/
theorem step_adds {ev : Event} (hvalid : config.Valid) (h : Coherent config G w)
    (hs : Step config w ev w') :
    Adds config (completion G ⟨w, ev, w'⟩).toList w.1 w'.1 := by
  obtain ⟨hhandle, hbook⟩ := hs
  obtain ⟨_, houtcome⟩ := (step_agrees hvalid h.agrees hbook).of_ok hhandle
  have hquiet : ∀ {ev : Event}, grantOf ev = none → Quiet w.1 w'.1 →
      Adds config (completion G ⟨w, ev, w'⟩).toList w.1 w'.1 := by
    intro ev hev hq
    have hnone : completion G ⟨w, ev, w'⟩ = none := by unfold completion; rw [hev]; rfl
    rw [hnone]
    exact .none hq.forwarded hq.returned hq.decrements
  cases houtcome with
  | kept _ hev hq =>
      refine hquiet ?_ hq
      cases ev with
      | grant buf env => exact absurd rfl (hev.1 buf env)
      | _ => rfl
  | issued _ _ _ hq => exact hquiet rfl hq
  | answered _ _ _ _ hq => exact hquiet rfl hq
  | admitted hrun =>
      have hadds : Adds config [] _ w'.1 := adds_of_admitted hrun
      exact ⟨hadds.forwarded, hadds.returned, hadds.decrements⟩
  | granted buf env m en c pending kept hread hentry hold hid hphase hpending hdelivered =>
      obtain ⟨-, -, hkept⟩ := Child.waiting_round (h.round hentry hold) hphase
      rw [h.completion_eq hread hentry hold hphase hpending]
      by_cases hlast : pending.erase m.service = []
      · rw [if_pos hlast, Option.toList_some]
        obtain ⟨rpc, rets, _, hlocal, hservice, hforwarded, hreturned,
          hrets, hdecrements, hreleased⟩ :=
          hdelivered.sent hlast
        have hunused : (⟨en, c, grantsTo m.id G ++ [(m, buf)]⟩ : Completion).unused
            = if m.service = c.service then kept else kept ++ [buf] := unused_snoc hkept (m, buf)
        refine ⟨?_, ⟨rets, hreturned, ?_⟩, fun e info hinfo hd => ?_⟩
        · rw [hforwarded, List.map_append, List.map_singleton]
          unfold RPCMessage.key Completion.key
          rw [hlocal, hservice]
          rfl
        · rw [List.flatMap_singleton, hunused]
          exact hrets
        · rw [List.countP_singleton]
          by_cases he : en.service = e
          · -- the service of the entry is a dynamic one
            have hfind := (h.agrees.book.entries _ _ hentry).find
            rw [he, hinfo] at hfind
            have hd' : en.info.fanout ≠ .pfanout := by
              rw [← Option.some.inj hfind, hd]
              decide
            rw [hreleased hd', List.count_append, List.count_singleton]
            simp [he]
          · rcases hdecrements with hsame | hmore
            · rw [hsame]
              simp [he]
            · rw [hmore, List.count_append, List.count_singleton]
              simp [he]
      · rw [if_neg hlast, Option.toList_none]
        obtain ⟨hforwarded, hreturned, hdecrements⟩ := hdelivered.held hlast
        exact .none hforwarded hreturned hdecrements

/-- **A run** adds what the RPCs add that have their last grants in it. -/
theorem exec_adds {ts : List (Transition (Mesh × Book) Event)} (hvalid : config.Valid)
    (hrun : Exec (Step config) w ts w') (h : Coherent config G w) :
    Adds config (completions G ts) w.1 w'.1 := by
  induction hrun generalizing G with
  | nil => exact .none rfl rfl rfl
  | cons head _ ih => exact (step_adds hvalid h head).append (ih (step_coherent hvalid h head))

/-- An RPC that has been forwarded has no grant to come, and stays among those that were
forwarded. -/
theorem step_forwarded {ev : Event} (hvalid : config.Valid) (h : Coherent config G w)
    (hs : Step config w ev w') {rpc : RPCMessage}
    (hmem : rpc.key ∈ w.1.forwarded.map RPCMessage.key) :
    (∀ g ∈ grantOf ev, g.1.id ≠ rpc.local_id) ∧ rpc.key ∈ w'.1.forwarded.map RPCMessage.key := by
  refine ⟨fun g hg heq => ?_, ?_⟩
  · -- A grant is used by a child that waits, and this one was forwarded.
    obtain ⟨hhandle, hbook⟩ := hs
    obtain ⟨rpc', hrpc', hkey⟩ := List.mem_map.mp hmem
    have hlocal : rpc'.local_id = rpc.local_id := (Prod.mk.inj hkey).2
    obtain ⟨_, houtcome⟩ := (step_agrees hvalid h.agrees hbook).of_ok hhandle
    cases houtcome with
    | kept _ hev =>
        cases ev with
        | grant buf env => exact hev.1 buf env rfl
        | _ => cases hg
    | granted buf env m en c pending kept hread _ hold _ hphase =>
        have hgrant : grantOf (.grant buf env) = some (m, buf) := by simp only [grantOf, hread]
        rw [hgrant] at hg
        obtain rfl := Option.some.inj hg
        have hforwarded := (h.logged.sent rpc' hrpc').2 c (by rw [hlocal, ← heq]; exact hold)
        rw [hphase] at hforwarded
        cases hforwarded
    | _ => cases hg
  · rw [(step_adds hvalid h hs).forwarded]
    exact List.mem_append_left _ hmem

/-- The grants of an RPC that was forwarded before a run: there are none, as it waits for none. -/
theorem exec_forwarded {ts : List (Transition (Mesh × Book) Event)} (hvalid : config.Valid)
    (hrun : Exec (Step config) w ts w') (h : Coherent config G w) {rpc : RPCMessage}
    (hmem : rpc.key ∈ w.1.forwarded.map RPCMessage.key) :
    grantsTo rpc.local_id (grantsOf ts) = [] := by
  induction hrun generalizing G with
  | nil => rfl
  | cons head _ ih =>
      obtain ⟨hnone, hmem'⟩ := step_forwarded hvalid h head hmem
      have hrest := ih (step_coherent hvalid h head) hmem'
      rw [grantsOf_cons]
      unfold grantsTo at hrest ⊢
      rw [List.filter_append, hrest, List.append_nil, List.filter_eq_nil_iff]
      intro g hg
      simpa using hnone g (Option.mem_toList.mp hg)

/-- What is known of an RPC that has had its last grant, `G` being the grants of the run: they are
all its grants, and one of each service it has asked. -/
structure Completion.Wf (config : MeshConfig) (G : List Used) (r : Completion) : Prop where
  find : config.server.find r.entry.service = some r.entry.info
  named : r.entry.info.fanout = .dfanout → r.child.service ∈ r.entry.info.downstreams
  services : (r.grants.map fun g => g.1.service).Perm (asks r.entry.info r.child.service)
  grants : r.grants = grantsTo r.child.id G

/-- An RPC that has its last grant with an event had all of its grants by then. -/
theorem completion_wf {ev : Event} (hvalid : config.Valid) (h : Coherent config G w)
    (hs : Step config w ev w') {r : Completion} (hr : completion G ⟨w, ev, w'⟩ = some r) :
    r.Wf config (G ++ (grantOf ev).toList) := by
  unfold completion at hr
  obtain ⟨g, hg, hr⟩ := Option.bind_eq_some_iff.mp hr
  obtain ⟨en, hentry, hr⟩ := Option.bind_eq_some_iff.mp hr
  obtain ⟨c, hchild, hr⟩ := Option.bind_eq_some_iff.mp hr
  dsimp only at hg hentry hchild
  split_ifs at hr with hcount
  obtain rfl := Option.some.inj hr
  obtain ⟨hhandle, hbook⟩ := hs
  obtain ⟨_, houtcome⟩ := (step_agrees hvalid h.agrees hbook).of_ok hhandle
  cases houtcome with
  | kept _ hev =>
      cases ev with
      | grant buf env => exact absurd rfl (hev.1 buf env)
      | _ => cases hg
  | granted buf env m en' c' pending kept hread hentry' hold hid hphase hpending =>
      have hgrant : grantOf (.grant buf env) = some (m, buf) := by simp only [grantOf, hread]
      obtain rfl := Option.some.inj (hgrant.symm.trans hg)
      obtain rfl := Option.some.inj (hentry.symm.trans hentry')
      obtain rfl := Option.some.inj (hchild.symm.trans hold)
      have hwf := h.agrees.book.entries _ _ hentry
      have hround : c.Round en.info (grantsTo m.id G) := h.round hentry hchild
      obtain ⟨hperm, hlen, -⟩ := Child.waiting_round hround hphase
      -- the grant is the only one that it waits for
      dsimp only at hcount
      obtain ⟨service, rfl⟩ := List.length_eq_one_iff.mp (show pending.length = 1 by omega)
      obtain rfl := List.mem_singleton.mp hpending
      refine ⟨hwf.find, fun hd => (hwf.dynamic hd).2 c (Book.mem_children hentry hchild), ?_,
        ?_⟩
      · dsimp only
        rw [List.map_append]
        exact hperm
      · dsimp only
        rw [hg, hid]
        unfold grantsTo
        rw [List.filter_append, Option.toList_some]
        simp
  | _ => cases hg

/-- The RPCs that have their last grants in a run had all of their grants by its end. -/
theorem exec_completions {ts : List (Transition (Mesh × Book) Event)} (hvalid : config.Valid)
    (hrun : Exec (Step config) w ts w') (h : Coherent config G w) :
    ∀ r ∈ completions G ts, r.Wf config (G ++ grantsOf ts) := by
  induction hrun generalizing G with
  | nil => exact fun r hr => absurd hr List.not_mem_nil
  | @cons w w₁ w' ev ts head tail ih =>
      intro r hr
      have hnext := step_coherent hvalid h head
      rw [grantsOf_cons, ← List.append_assoc]
      rcases List.mem_append.mp hr with hr | hr
      · have hr' := Option.mem_toList.mp hr
        have hwf := completion_wf hvalid h head hr'
        refine ⟨hwf.find, hwf.named, hwf.services, ?_⟩
        -- it has been forwarded, and so it has no grant in the rest of the run
        have hmem : r.key ∈ w₁.1.forwarded.map RPCMessage.key := by
          rw [(step_adds hvalid h head).forwarded]
          exact List.mem_append_right _ (List.mem_map_of_mem hr)
        obtain ⟨rpc, hrpc, hkey⟩ := List.mem_map.mp hmem
        have hmem' : rpc.key ∈ w₁.1.forwarded.map RPCMessage.key := List.mem_map_of_mem hrpc
        have hnone := exec_forwarded hvalid tail hnext hmem'
        have hid : rpc.local_id = r.child.id := (Prod.mk.inj hkey).2
        rw [hwf.grants]
        rw [hid] at hnone
        unfold grantsTo at hnone ⊢
        rw [List.filter_append _ (grantsOf ts), hnone, List.append_nil]
      · exact ih hnext r hr

/-- **What a run comes to**: what was forwarded are the RPCs that had their last grant, in that
order; what was returned are their unused grants; and `decrement_in_flight` was called once for
each RPC of a dynamic fan-out among them. Each of these had a grant of every downstream, and
returned all but one. -/
structure Totals (config : MeshConfig) (ts : List (Transition (Mesh × Book) Event))
    (s : Mesh) : Prop where
  forwarded : s.forwarded.map RPCMessage.key = (completions [] ts).map Completion.key
  once : ((completions [] ts).map fun r => r.child.id).Nodup
  returned : List.Forall₂ ReturnOf ((completions [] ts).flatMap Completion.unused) s.returned
  decrements : ∀ e info, config.server.find e = some info → info.fanout = .dfanout →
    s.decrements.count e = (completions [] ts).countP fun r => r.entry.service = e
  grants : ∀ r ∈ completions [] ts, r.entry.info.fanout = .dfanout →
    r.grants = grantsTo r.child.id (grantsOf ts)
      ∧ (r.grants.map fun g => g.1.service).Perm r.entry.info.downstreams
      ∧ r.unused.length + 1 = r.entry.info.downstreams.length

theorem run_totals {counts : LocalMap (BitVec 32)} {s₀ s : Mesh} {B : Book}
    {ts : List (Transition (Mesh × Book) Event)} (hvalid : config.Valid)
    (hstart : start config counts = .ok s₀) (hrun : Exec (Step config) (s₀, .empty) ts (s, B)) :
    Totals config ts s := by
  have h := run_coherent hvalid hstart hrun
  have hadds := exec_adds hvalid hrun (start_coherent hvalid hstart)
  have hcompletions := exec_completions hvalid hrun (start_coherent hvalid hstart)
  obtain ⟨server, _, hs₀⟩ := bind_eq_ok.mp hstart
  obtain ⟨last_rtt_us, _, hs₀⟩ := bind_eq_ok.mp hs₀
  obtain rfl := Except.ok.inj hs₀
  have hforwarded : s.forwarded.map RPCMessage.key = (completions [] ts).map Completion.key := by
    simpa using hadds.forwarded
  refine ⟨hforwarded, ?_, ?_, fun e info hinfo hd => ?_, fun r hr hd => ?_⟩
  · have hids := congrArg (List.map Prod.snd) hforwarded
    rw [List.map_map, List.map_map] at hids
    exact hids ▸ h.logged.nodup
  · obtain ⟨rets, hreturned, hrets⟩ := hadds.returned
    rw [List.nil_append] at hreturned
    rw [hreturned]
    exact hrets
  · simpa using hadds.decrements e info hinfo hd
  · have hwf := hcompletions r hr
    have hinfo := hvalid.info _ _ hwf.find
    have hservices := hwf.services
    rw [hinfo.asks_dynamic hd] at hservices
    refine ⟨by simpa using hwf.grants, hservices, ?_⟩
    -- of the grants of all downstreams, one is of the service the RPC names
    have hothers := length_filter_ne (hservices.nodup_iff.mpr (hinfo.distinct hd))
      (hservices.mem_iff.mpr (hwf.named hd))
    unfold Completion.unused
    rw [List.length_map, ← hservices.length_eq, ← hothers, List.filter_map, List.length_map]
    rfl

/-- A grant that is outstanding is one the neighbours may send, and the sidecar may receive it
next. -/
theorem Coherent.outstanding_step (h : Coherent config G w) (hrouted : config.Routed) {buf : Buffer}
    {m : GrantMessage} (hread : read_credit_grant buf = .ok m) (hone : m.granted = 1)
    (houtstanding : (G.map Used.key).count (m.service, m.id) < w.1.requests.count (m.service, m.id))
    (env : GrantEnv) :
    m.service ∈ config.routing ∧ ∃ B', Book.Step config w.1 w.2 (.grant buf env) B' := by
  have hasked := h.logged.asked m.service m.id
  have hpos : m.service ∈ Agrees.wanted (w.2.child m.id) := List.count_pos_iff.mp (by omega)
  cases hchild : w.2.child m.id with
  | none => rw [hchild] at hpos; cases hpos
  | some c =>
      rw [hchild] at hpos
      unfold Agrees.wanted at hpos
      dsimp only at hpos
      -- A credit that is still missing belongs to a child that waits for it.
      cases hphase : c.phase with
      | queued | forwarded => rw [hphase] at hpos; cases hpos
      | waiting pending kept =>
          rw [hphase] at hpos
          obtain ⟨en, l₁, l₂, hat⟩ := Book.exists_at hchild
          have hwf := h.agrees.book.entries _ _ hat.entry
          have hin : c ∈ en.children := by rw [hat.children]; simp
          refine ⟨?_, _, .grant buf env m en l₁ c l₂ pending kept hread hone hat hphase hpos⟩
          have hwaits := hwf.fits c hin pending kept hphase
          unfold Waits at hwaits
          -- With dynamic fanout the child may wait at any downstream, otherwise only at its own.
          cases hf : en.info.fanout with
          | plain | pfanout =>
              rw [hf] at hwaits
              rw [hwaits.1] at hpos
              rw [List.mem_singleton.mp hpos]
              exact hwf.routed c hin
          | dfanout =>
              rw [hf] at hwaits
              exact hrouted _ _ hwf.find hf m.service (hwaits.2.2.1 hpos)

/-- **Dynamic fan-out.** Each ingress RPC of a dynamic fan-out issuing one egress RPC, in every run
among these neighbours, who use at most 2³² - 3 local ids: no RPC is forwarded twice; whenever a
grant for such an egress RPC is used, the RPC is forwarded if and only if it is the last of those
of all downstreams, and then to the service it names, with one Credit Return for each other grant
and one call of `decrement_in_flight`; an ingress RPC keeps no Credit Return when each of its
Credit Requests has been granted; and over the run nothing else is forwarded, returned or released.

If the downstreams are routed and can be sent Credit Requests, `protocol_client` admits the
requests that are queued and uses each outstanding grant that can be used, from every state of the
run. -/
theorem dynamic_fanout {counts : LocalMap (BitVec 32)} {s₀ s : Mesh} {B : Book}
    {ts : List (Transition (Mesh × Book) Event)} (hvalid : config.Valid)
    (hstart : start config counts = .ok s₀) (hrun : Exec (Step config) (s₀, .empty) ts (s, B)) :
    (s.forwarded.map RPCMessage.local_id).Nodup
      ∧ (∀ before w buf env w' after, ts = before ++ ⟨w, .grant buf env, w'⟩ :: after →
          ∀ m en c, read_credit_grant buf = .ok m → w.2.entry (m.id >>> 32) = some en →
            w.2.child m.id = some c → en.info.fanout = .dfanout →
            Round en c (grantsTo m.id (grantsOf before)) (m, buf) w.1 w'.1)
      ∧ (∀ i rpc, s.ingress_rpcs.lookup i = some rpc →
          (∀ (service : Bytes) (id : RPCID), id >>> 32 = i → s.requests.count (service, id)
            = ((grantsOf ts).map Used.key).count (service, id)) →
          rpc.credit_return_queue = [])
      ∧ Totals config ts s
      ∧ (config.Routed → config.Sendable →
          (∃ s' B', Step config (s, B) .credit_requests (s', B'))
          ∧ ∀ buf env m, read_credit_grant buf = .ok m → m.granted = 1 →
              ((grantsOf ts).map Used.key).count (m.service, m.id)
                < s.requests.count (m.service, m.id) →
              Acceptable config s env m → ∃ s' B', Step config (s, B)
                (.grant buf env) (s', B')) := by
  have h := run_coherent hvalid hstart hrun
  refine ⟨h.logged.nodup, fun before w buf env w' after hts m en c hread hentry hchild hd => ?_,
    fun i rpc hlookup hgranted => h.returned hlookup hgranted, run_totals hvalid hstart hrun,
    fun hrouted hsend => ?_⟩
  · subst hts
    obtain ⟨w₁, hbefore, hrest⟩ := hrun.split
    cases hrest with
    | cons head _ =>
        exact step_round hvalid (run_coherent hvalid hstart hbefore) head hread hentry hchild hd
  -- The maps of the start host the routing table, and no step changes their keys.
  have hhosts : s.last_rtt_us.Hosts config.routing :=
    exec_hosts hvalid hrun (start_coherent hvalid hstart) (start_hosts hsend hstart)
  constructor
  · obtain ⟨B', hbook⟩ : ∃ B', Book.Step config s B .credit_requests B' := ⟨_, .credit_requests⟩
    obtain ⟨s', -, hstep⟩ := h.requests_return hvalid hrouted hsend hhosts hbook
    exact ⟨s', B', hstep⟩
  · intro buf env m hread hone houtstanding hacceptable
    obtain ⟨hservice, B', hbook⟩ := h.outstanding_step hrouted hread hone houtstanding env
    obtain ⟨s', -, hstep⟩ := h.grant_returns hvalid hhosts hbook hread hservice hacceptable
    exact ⟨s', B', hstep⟩

/-! ## Two rounds -/

/-- The service `a`, which asks `b` or `c`, whichever its application chooses. -/
def choice : MeshConfig :=
  { server := { limits := ⟨1, 0, false, fun _ => 0⟩,
                mapping := [([97], ⟨[[98], [99]], false, true⟩)] }
    routing := [[98], [99]]
    ids := ⟨false, false⟩ }

theorem choice_valid : choice.Valid where
  nonempty := by decide
  info service info hinfo := by
    simp only [ServerConfig.find, choice, List.lookup_cons, List.lookup_nil] at hinfo
    split at hinfo
    · rw [← Option.some.inj hinfo]
      exact ⟨by simp, by decide, fun _ => by decide⟩
    · simp at hinfo

theorem choice_routed : choice.Routed := by
  intro service info hinfo _ downstream hmem
  simp only [ServerConfig.find, choice, List.lookup_cons, List.lookup_nil] at hinfo
  split at hinfo
  · rw [← Option.some.inj hinfo] at hmem
    exact hmem
  · simp at hinfo

theorem choice_sendable : choice.Sendable where
  names service hservice := by
    rcases List.mem_cons.mp hservice with rfl | hservice
    · decide
    · obtain rfl := List.mem_singleton.mp hservice
      decide
  seeded := by
    refine ⟨by decide, .inl ⟨1, by decide, ?_⟩⟩
    unfold LocalMap.CollisionFree
    decide +kernel

/-- One ingress RPC is granted and arrives, with the id from which the others are derived. -/
def opening : List Event :=
  [.datagram (Server.requestFor [97] 0) Server.plainEnv, .ingress_request [97]]

/-- It sends an egress request to `b`, which both downstreams grant; the grant of `c` is
returned. -/
def choiceRound (id : RPCID) : List Event :=
  [.egress_request 2 [98] 0, .credit_requests, .grant (grantFor [99] id) grantEnv,
    .grant (grantFor [98] id) grantEnv]

/-- Handles these events one after the other, and stops at the first that aborts. -/
def handleAll (config : MeshConfig) : List Event → Mesh → Except Abort Mesh
  | [], s => .ok s
  | ev :: evs, s => do
    let s ← s.handle config ev
    handleAll config evs s

/-- **The second round is lost.** The same ingress RPC sends a second egress request after the first
was answered. All Credit Requests are granted and the request is not forwarded; the other credit of
the round stays on the ingress RPC, and `decrement_in_flight` has been called once. -/
theorem dynamic_fanout_fails : ∃ (counts : LocalMap (BitVec 32)) (s₀ s : Mesh),
    start choice counts = .ok s₀
      ∧ handleAll choice (opening ++ choiceRound firstChild ++ [.egress_response firstChild]
          ++ choiceRound secondChild) s₀ = .ok s
      ∧ s.requests = [([98], firstChild), ([99], firstChild), ([98], secondChild),
        ([99], secondChild)]
      ∧ s.forwarded.map RPCMessage.local_id = [firstChild]
      ∧ s.decrements = [[97]] ∧ s.returned.length = 1
      ∧ (s.ingress_rpcs.lookup 2).map (fun rpc => rpc.credit_return_queue.length) = some 1 := by
  -- The second round of the same RPC goes on counting where the first one stopped, so it never
  -- reaches the number of the downstreams.
  have hcheck : (do
      let counts ← LocalMap.ofKeys [[97]] 0
      let s₀ ← start choice counts
      let s ← handleAll choice (opening ++ choiceRound firstChild ++ [.egress_response firstChild]
        ++ choiceRound secondChild) s₀
      .ok (decide (s.requests
          = [([98], firstChild), ([99], firstChild), ([98], secondChild), ([99], secondChild)])
        && decide (s.forwarded.map RPCMessage.local_id = [firstChild])
        && decide (s.decrements = [[97]]) && decide (s.returned.length = 1)
        && decide ((s.ingress_rpcs.lookup 2).map (fun rpc => rpc.credit_return_queue.length)
          = some 1))) = (.ok true : Except Abort Bool) := by
    decide +kernel
  obtain ⟨counts, _, hcheck⟩ := bind_eq_ok.mp hcheck
  obtain ⟨s₀, hstart, hcheck⟩ := bind_eq_ok.mp hcheck
  obtain ⟨s, hrun, hcheck⟩ := bind_eq_ok.mp hcheck
  have hall := Except.ok.inj hcheck
  simp only [Bool.and_eq_true, decide_eq_true_eq] at hall
  obtain ⟨⟨⟨⟨hrequests, hforwarded⟩, hdecrements⟩, hreturned⟩, hqueue⟩ := hall
  exact ⟨counts, s₀, s, hstart, hrun, hrequests, hforwarded, hdecrements, hreturned, hqueue⟩

/-- The entry of an ingress RPC of `a`, for the concrete run. -/
def choiceEntry (issued : ℕ) (children : List Child) : Entry :=
  ⟨[97], ⟨[[98], [99]], false, true⟩, issued, children⟩

/-- The first round is not: the second grant can be used, it forwards the RPC, and the other credit
is returned. -/
theorem dynamic_fanout_choice : ∃ (s s' : Mesh) (rpc : RPCMessage) (rets : List Buffer),
    s.handle choice (.grant (grantFor [98] firstChild) grantEnv) = .ok s'
      ∧ s'.forwarded = s.forwarded ++ [rpc] ∧ rpc.service = [98] ∧ s'.returned = s.returned ++ rets
      ∧ rets.length = 1 := by
  have hcheck : (do
      let counts ← LocalMap.ofKeys [[97]] 0
      let s₀ ← start choice counts
      let s₁ ← s₀.handle choice (.datagram (Server.requestFor [97] 0) Server.plainEnv)
      let s₂ ← s₁.handle choice (.ingress_request [97])
      let s₃ ← s₂.handle choice (.egress_request 2 [98] 0)
      let s₄ ← s₃.handle choice .credit_requests
      let s₅ ← s₄.handle choice (.grant (grantFor [99] firstChild) grantEnv)
      .ok (decide (Server.grantsFor [97] s₁.server.sent = 1)
        && decide (s₃.rpc_queue.map RPCMessage.local_id = [firstChild])
        && decide (s₅.requests = [([98], firstChild), ([99], firstChild)])
        && decide ((s₅.ppm_queue.find ([98], firstChild)).map RPCMessage.priority = some 0)))
      = (.ok true : Except Abort Bool) := by
    decide +kernel
  obtain ⟨counts, _, hcheck⟩ := bind_eq_ok.mp hcheck
  obtain ⟨s₀, hstart, hcheck⟩ := bind_eq_ok.mp hcheck
  obtain ⟨s₁, h₁, hcheck⟩ := bind_eq_ok.mp hcheck
  obtain ⟨s₂, h₂, hcheck⟩ := bind_eq_ok.mp hcheck
  obtain ⟨s₃, h₃, hcheck⟩ := bind_eq_ok.mp hcheck
  obtain ⟨s₄, h₄, hcheck⟩ := bind_eq_ok.mp hcheck
  obtain ⟨s₅, h₅, hcheck⟩ := bind_eq_ok.mp hcheck
  have hall := Except.ok.inj hcheck
  simp only [Bool.and_eq_true, decide_eq_true_eq] at hall
  obtain ⟨⟨⟨hgrants, hqueue⟩, hrequests⟩, hwaits⟩ := hall
  obtain ⟨rpc, hrpc, hlocal⟩ := List.map_eq_singleton_iff.mp hqueue
  have hother : read_credit_grant (grantFor [99] firstChild)
      = .ok ⟨[99], firstChild, 0, 0, 1, 1⟩ := by
    decide +kernel
  have hown : read_credit_grant (grantFor [98] firstChild) = .ok firstGrant := by decide +kernel
  have w₁ : Step choice (s₀, .empty) (.datagram (Server.requestFor [97] 0) Server.plainEnv)
      (s₁, .empty) :=
    ⟨h₁, .credit_request _ _ [97] 7 0 0 (by decide +kernel) (by decide +kernel)⟩
  have w₂ : Step choice (s₁, .empty) (.ingress_request [97])
      (s₂, soleBook (some (choiceEntry 0 [])) 1 1) := by
    rw [← soleBook_empty]
    refine ⟨h₂, .to (.ingress_request [97] _ rfl (by rw [hgrants]; exact Nat.one_pos)
      (by dsimp only; decide)) ?_⟩
    have hid : newId 0 (soleBook none 0 0).ids = 2 := by decide
    dsimp only
    rw [hid, soleBook_set, soleBook_spend, soleBook_count]
    rfl
  have w₃ : Step choice (s₂, soleBook (some (choiceEntry 0 [])) 1 1) (.egress_request 2 [98] 0)
      (s₃, soleBook (some (choiceEntry 1 [⟨firstChild, [98], .queued⟩])) 1 2) :=
    ⟨h₃, .to (.egress_request 2 [98] 0 (choiceEntry 0 []) (soleBook_entry ..) (by decide)
      ⟨rfl, by decide⟩ (by dsimp only; decide)) (congrArg Book.count (soleBook_set ..))⟩
  have w₄ : Step choice (s₃, soleBook (some (choiceEntry 1 [⟨firstChild, [98], .queued⟩])) 1 2)
      .credit_requests
      (s₄, soleBook (some (choiceEntry 1 [⟨firstChild, [98], .waiting [[98], [99]] []⟩])) 1 2) := by
    refine ⟨h₄, .to .credit_requests ?_⟩
    dsimp only
    rw [hrpc, List.foldl_cons, List.foldl_nil, hlocal]
    exact soleBook_set ..
  have w₅ : Step choice
      (s₄, soleBook (some (choiceEntry 1 [⟨firstChild, [98], .waiting [[98], [99]] []⟩])) 1 2)
      (.grant (grantFor [99] firstChild) grantEnv)
      (s₅, soleBook (some (choiceEntry 1
        [⟨firstChild, [98], .waiting [[98]] [grantFor [99] firstChild]⟩])) 1 2) :=
    ⟨h₅, .to (.grant _ _ ⟨[99], firstChild, 0, 0, 1, 1⟩ (choiceEntry 1
      [⟨firstChild, [98], .waiting [[98], [99]] []⟩]) [] _ [] [[98], [99]] [] hother rfl
      ⟨soleBook_entry .., rfl, rfl⟩ rfl (by decide)) (soleBook_set ..)⟩
  have hrun := Runs.Exec.cons w₁ (.cons w₂ (.cons w₃ (.cons w₄ (.cons w₅ (.nil _)))))
  -- one grant is outstanding, and can be used
  obtain ⟨rpc₀, hfind, hpriority⟩ := Option.map_eq_some_iff.mp hwaits
  have hcoherent := run_coherent choice_valid hstart hrun
  have hacceptable : Acceptable choice s₅ grantEnv firstGrant :=
    hcoherent.acceptable hfind (by rw [hpriority]; decide)
      (by decide : _ = Except.ok (5 : BitVec 32))
      rfl rfl
  obtain ⟨s₆, B₆, w₆⟩ := ((dynamic_fanout choice_valid hstart hrun).2.2.2.2 choice_routed
    choice_sendable).2 _ grantEnv firstGrant hown rfl
    (by rw [hrequests]; simp [grantsOf, grantOf, hother, Used.key, firstGrant]) hacceptable
  have h := dynamic_fanout choice_valid hstart (hrun.append (.single w₆))
  have hround := h.2.1 [_, _, _, _, _] _ _ _ _ [] rfl firstGrant _ _ hown
    (soleBook_entry ..) rfl rfl
  have hlength :=
    hround.last (by simp [grantsOf, grantOf, grantsTo, hother, firstGrant, choiceEntry])
  obtain ⟨rpc, rets, _, hservice, hforwarded, _, hreturned, _, hrets⟩ := hlength
  exact ⟨s₅, s₆, rpc, rets, w₆.1, hforwarded, hservice, hreturned, Nat.succ.inj hrets⟩

end Mesh

end RlpSidecar
