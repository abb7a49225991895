import MagicWand.Foundation.Drain
import MagicWand.Kernel.Failover
import MagicWand.Kernel.Sockets

/-!
# The close lock

A close must not overtake the requests of its socket whose type says that a
close waits for them. Each of them holds the close lock of its socket for
reading from the time it is sent until its response is post-processed, and
stores its id in `close_blockid`; a close waits for the lock only if there is an
id. One id does not do for several requests, and some requests lose their
response.
-/

namespace MagicWand.Kernel

open Foundation

/-! ## What becomes of the lock -/

/-- The readers of the close lock, and the id that a close looks at. -/
def SockInst.lock (k : SockInst) : Nat × MtId := (k.closeReaders, k.closeBlockid)

/-- A response of a request that a close waits for. -/
def SockInst.unlock (k : SockInst) (id : MtId) : Nat × MtId :=
  (k.closeReaders - 1, if k.closeBlockid = id then mtIdUnsetValue else k.closeBlockid)

theorem aside_lock : Aside SockInst.lock where
  flags _ _ _ := rfl
  tally s resp := by
    simp only [SockInst.tallySend]
    split_ifs <;> rfl
  closed s resp := by
    rw [SockInst.noteRemoteClosed]
    split_ifs <;> rfl
  inbound _ _ _ := rfl
  attrib _ _ := rfl

theorem lock_releaseClose (k : SockInst) (id : MtId) {resp : MtResponse} {t : MtRequestType}
    (hresp : resp.type = .of t) :
    (k.releaseClose id resp).lock = if t.closeWaits then k.unlock id else k.lock := by
  rw [SockInst.releaseClose, hresp]
  dsimp only
  by_cases hwaits : t.closeWaits = true
  · rw [if_pos hwaits, if_pos hwaits]
    rfl
  · rw [if_neg hwaits, if_neg hwaits]
    split
    · rfl
    · rfl

theorem lock_recordSuccess (k : SockInst) (resp : MtResponse) :
    (k.recordSuccess resp).lock = k.lock := by
  rw [SockInst.recordSuccess]
  split <;> rfl

theorem lock_prepare (k : SockInst) (req : MtRequest) : (k.prepare req).lock = k.lock := by
  rw [SockInst.prepare]
  split
  all_goals first | rfl | (split <;> rfl)

theorem lock_acquireClose (k : SockInst) (id : MtId) (t : MtRequestType) (acquired : Bool) :
    (k.acquireClose id t acquired).lock =
      if t.closeWaits then (k.closeReaders + 1, id)
      else if t = .socketClose then (k.closeReaders, mtIdUnsetValue) else k.lock := by
  rw [SockInst.acquireClose]
  by_cases hwaits : t.closeWaits = true
  · rw [if_pos hwaits, if_pos hwaits]
    rfl
  · rw [if_neg hwaits, if_neg hwaits]
    split
    · rfl
    · rfl

theorem lock_preProcess (k : SockInst) (id : MtId) (req : MtRequest) (acquired : Bool) :
    (k.preProcess id req acquired).lock =
      if req.type.closeWaits then (k.closeReaders + 1, id)
      else if req.type = .socketClose then (k.closeReaders, mtIdUnsetValue) else k.lock := by
  rw [SockInst.preProcess, lock_prepare]
  split
  · exact lock_acquireClose (k.expectRead id) id req.type acquired
  · exact lock_acquireClose k id req.type acquired

namespace Globals

theorem lock_postproc (g : Globals) (a : ActReq) {resp : MtResponse} {t : MtRequestType}
    (hresp : resp.type = .of t) (x : Nat) :
    (g.mwsocketPostprocNoContext a resp).1.view SockInst.lock x =
      if x = a.sockinst ∧ t.closeWaits = true then (g.socks x).unlock a.id
      else g.view SockInst.lock x := by
  rw [view_postproc aside_lock g a resp (.inr lock_recordSuccess), lock_releaseClose _ _ hresp]
  by_cases hx : x = a.sockinst
  · subst hx
    by_cases hwaits : t.closeWaits = true
    · simp [hwaits]
    · simp [hwaits, view]
  · simp [hx]

theorem lock_destroy (g : Globals) (a : ActReq) (h : (g.socks a.sockinst).closeBlockid ≠ a.id)
    (x : Nat) :
    (g.mwsocketDestroyActiveRequest a).view SockInst.lock x = g.view SockInst.lock x := by
  refine view_update_of_eq rfl ?_ x
  simp only [SockInst.lock, if_neg h]
  rfl

/-- A request that is prepared but not published is lost. -/
theorem lost_of_prepares {g : Globals} {a : ActReq} {slot : Slot} {acquired : Bool}
    (hprep : g.prepares a slot) (hnone : (g.mwsocketSendRequest a slot acquired).2.2 = none) :
    slot = .lost := by
  obtain ⟨hreq, halive, hslot⟩ := hprep
  simp only [mwsocketSendRequest, hreq, halive, modifyReq_socks, Bool.not_true,
    Bool.false_eq_true, if_false] at hnone
  rcases slot with _ | _ | notified
  · exact absurd rfl hslot
  · rfl
  · cases hnone

theorem prepares_of_published {g : Globals} {a : ActReq} {slot : Slot} {acquired : Bool}
    {req : MtRequest} (hpub : (g.mwsocketSendRequest a slot acquired).2.2 = some req) :
    g.prepares a slot := by
  simp only [mwsocketSendRequest] at hpub
  split at hpub
  · cases hpub
  · rename_i hreq
    split at hpub
    · cases hpub
    · rename_i halive
      refine ⟨by simpa using hreq, by simpa using halive, ?_⟩
      rintro rfl
      cases hpub

end Globals

namespace Table

theorem lock_settle (t : Table) (r : Nat) (g : Globals) (x : Nat) :
    (t.settle r g).g.view SockInst.lock x = g.view SockInst.lock x :=
  view_settle aside_lock.flags t r g x

theorem lock_put (t : Table) (r x : Nat) :
    (t.mwsocketPutSockinst r).g.view SockInst.lock x = t.g.view SockInst.lock x := by
  refine (lock_settle t r _ x).trans (Globals.view_update_of_eq rfl ?_ x)
  rfl

theorem lock_destroy (t : Table) {a : ActReq} (h : (t.sock a.sockinst).closeBlockid ≠ a.id)
    (x : Nat) :
    (t.mwsocketDestroyActiveRequest a).g.view SockInst.lock x = t.g.view SockInst.lock x :=
  (lock_settle t _ _ x).trans (Globals.lock_destroy t.g a h x)

theorem lock_setPollable (t : Table) (r x : Nat) :
    (t.setPollable r).g.view SockInst.lock x = t.g.view SockInst.lock x :=
  view_setPollable aside_lock.flags t r x

theorem lock_failRequest (t : Table) (a : ActReq) (x : Nat) :
    (t.failRequest a).g.view SockInst.lock x =
      if x = a.sockinst ∧ a.request.type.closeWaits = true then (t.sock x).unlock a.id
      else t.g.view SockInst.lock x :=
  Globals.lock_postproc t.g a
    (show (deadResponse a.request).type = .of a.request.type from rfl) x

theorem lock_markDead (t : Table) (r x : Nat) :
    (t.markDead r).g.view SockInst.lock x = t.g.view SockInst.lock x := by
  refine (Globals.view_clearPollable aside_lock.flags _ r x).trans ?_
  refine Globals.view_update_of_eq rfl ?_ x
  rfl

/-- A user socket that no close has to wait for takes over. -/
theorem lock_takeOver (t : Table) {r : Nat} (hr : (t.sock r).closeBlockid = mtIdUnsetValue)
    (q ref x : Nat) : (t.takeOver r q ref).g.view SockInst.lock x = t.g.view SockInst.lock x := by
  rw [takeOver]
  split
  · rfl
  · rename_i a _
    split_ifs with hsock
    · refine (lock_settle t _ _ x).trans (Globals.view_update_of_eq rfl ?_ x)
      rw [hsock]
      simp only [SockInst.lock, Globals.view]
      change (_, if (t.sock r).closeBlockid = a.id then _ else (t.sock r).closeBlockid) =
        (_, (t.sock r).closeBlockid)
      rw [hr]
      split
      · rfl
      · rfl
    · let u : Table := { t with g := t.g.modifyReq ref fun x => { x with sockinst := r } }
      refine Eq.trans (Globals.view_update_of_eq rfl ?_ x) (lock_put u q x)
      rfl
    · rfl

theorem lock_takeOvers (t : Table) {r : Nat} (hr : (t.sock r).closeBlockid = mtIdUnsetValue)
    (q : Nat) (refs : List Nat) (x : Nat) :
    (t.takeOvers r q refs).g.view SockInst.lock x = t.g.view SockInst.lock x := by
  induction refs generalizing t with
  | nil => rfl
  | cons ref rest ih =>
      have hstep := lock_takeOver t hr q ref
      have hr' : ((t.takeOver r q ref).sock r).closeBlockid = mtIdUnsetValue :=
        (congrArg Prod.snd (hstep r)).trans hr
      exact (ih (t.takeOver r q ref) hr').trans (hstep x)

theorem lock_failover (t : Table) {r q : Nat} (hr : (t.sock r).closeBlockid = mtIdUnsetValue)
    (hq : (t.sock q).closeBlockid = mtIdUnsetValue) (x : Nat) :
    (t.failover r q).g.view SockInst.lock x = t.g.view SockInst.lock x := by
  let u := t.takeOvers r q (t.g.activeRequests.map ActReq.ref)
  let v := u.modifySock r fun s => adopt s (u.sock q)
  let w := (v.mwsocketPutSockinst q).modifySock r fun s => { s with insAlive := true }
  have hu : ∀ x, u.g.view SockInst.lock x = t.g.view SockInst.lock x := lock_takeOvers t hr q _
  have hadopt : (adopt (u.sock r) (u.sock q)).lock = u.g.view SockInst.lock r := by
    have hur : (u.sock r).closeBlockid = mtIdUnsetValue := (congrArg Prod.snd (hu r)).trans hr
    have huq : (u.sock q).closeBlockid = mtIdUnsetValue := (congrArg Prod.snd (hu q)).trans hq
    exact Prod.ext rfl (huq.trans hur.symm)
  calc (t.failover r q).g.view SockInst.lock x
      = w.g.view SockInst.lock x := lock_setPollable w r x
    _ = (v.mwsocketPutSockinst q).g.view SockInst.lock x := by
        refine Globals.view_update_of_eq rfl ?_ x
        rfl
    _ = v.g.view SockInst.lock x := lock_put v q x
    _ = u.g.view SockInst.lock x := Globals.view_update_of_eq rfl hadopt x
    _ = t.g.view SockInst.lock x := hu x

end Table

namespace Table

theorem lock_create (t : Table) (pollable : Bool) (x : Nat) :
    (t.mwsocketCreateSockinst pollable).g.view SockInst.lock x =
      if x = t.nextSock then (0, mtIdUnsetValue) else t.g.view SockInst.lock x := by
  have hnew : (t.modifySock t.nextSock fun _ => { usersock := t.nextSock }).g.view SockInst.lock x =
      if x = t.nextSock then (0, mtIdUnsetValue) else t.g.view SockInst.lock x :=
    view_modifySock t t.nextSock _ x
  rw [mwsocketCreateSockinst]
  split
  · exact (lock_setPollable _ _ x).trans hnew
  · exact hnew

theorem create_request {t : Table} {g : Globals} {sock ref : Nat} {fromUser deliver : Bool}
    {req : MtRequest}
    (hc : t.g.mwsocketCreateActiveRequest sock fromUser deliver req = some (g, ref)) :
    (∀ x, g.view SockInst.lock x = t.g.view SockInst.lock x) ∧
      ∃ ref' id, g.holds = (ref', id, sock) :: t.g.holds := by
  rw [Globals.mwsocketCreateActiveRequest] at hc
  split at hc
  · obtain ⟨id, -, heq⟩ := Option.map_eq_some_iff.mp hc
    cases heq
    refine ⟨fun x => Globals.view_update_of_eq rfl ?_ x, _, id, rfl⟩
    rfl
  · cases hc

end Table

/-! ## Runs -/

namespace Sockets

/-- Did a close on socket `r` go out after the last retry? -/
def GaveUp (l : List Publication) (r : Nat) : Prop :=
  ∃ p ∈ l, p.message.sock = r ∧ p.gaveUp = true

/-- The requests of an active request that a close waits for and that are not
answered. -/
def unanswered (s : Sockets) (ref : Nat) : List Message :=
  s.flight.filter fun m => decide (m.ref = ref) && m.request.type.closeWaits

/-- If `id` is the one that a close on `r` looks at, no other request that a
close waits for is in flight. -/
def LastOne (s : Sockets) (r : Nat) (id : MtId) : Prop :=
  (s.sock r).closeBlockid = id → (s.waiting r).length = 1

/-- Does the reaper make up a response that gives the lock back? -/
def releases (a : ActReq) : Bool :=
  a.deliverResponse && !a.responsePopulated && a.request.type.closeWaits

/-- Each request that a close waits for gives the lock back once, when it is
answered, and the one that entered last leaves last: no id comes back while it
is in flight, no INS goes away between the preparation of a request and its
publication, no request is destroyed unanswered, and the reaper makes up the
responses that are missing, and no others. -/
def ReleasesOnce (s : Sockets) : SocketEvent → Prop
  | .request _ _ _ _ =>
      ∀ id ∈ s.table.g.mwsocketGetNextId (s.table.g.activeRequests.length + 1),
        ∀ m ∈ s.flight, m.request.id ≠ id
  | .send ref slot _ => slot = .lost → ∀ a ∈ s.table.g.reqAt ref,
      a.request.type.closeWaits = false ∧ a.request.type ≠ .socketClose
  | .destroy ref => s.unanswered ref = []
  | .respond k _ => ∀ m ∈ s.flight[k]?, m.request.type.closeWaits = true →
      LastOne s m.sock m.request.id
  | .reapRequest _ ref => ∀ a ∈ s.table.g.reqAt ref,
      (releases a = true ↔ s.unanswered ref ≠ []) ∧
        (releases a = true → LastOne s a.sockinst a.id)
  | .reapSocket dead r =>
      let t := s.table.markDead r
      (t.sock r).mwflags.has MwFlags.accept = true → (t.sock r).mwflags.has MwFlags.user = true →
        (∀ q ∈ t.replacement dead r, s.waiting r = [] ∧ s.waiting q = []) ∧
          (t.replacement dead r = none →
            ∀ a ∈ t.g.mwsocketFindActiveRequestById (t.sock r).blockid,
              a.request.type.closeWaits = false)
  | _ => True

instance (s : Sockets) (r : Nat) (id : MtId) : Decidable (s.LastOne r id) :=
  inferInstanceAs (Decidable (_ → _))

instance (s : Sockets) (e : SocketEvent) : Decidable (s.ReleasesOnce e) := by
  cases e
  -- The ids to look at are at most one, not all that there are.
  case request => exact Option.decidableForallMem _
  all_goals
    unfold ReleasesOnce
    infer_instance

/-- The lock of socket `r`, and the requests that hold it. -/
def drain (s : Sockets) (r : Nat) : Drain MtId where
  holders := (s.waiting r).map fun m => m.request.id
  readers := (s.sock r).closeReaders
  blocker := (s.sock r).closeBlockid
  gaveUp := GaveUp s.log r

/-- No close overtakes a request that it has to wait for, except after the last
retry, for it or for a close before it on the same socket. -/
def Orderly (l : List Publication) : Prop :=
  ∀ past p, past ++ [p] <+: l → p.message.request.type = .socketClose →
    p.unanswered = 0 ∨ GaveUp (past ++ [p]) p.message.sock

/-- The locks are right, each request is in flight at most once, and one that a
close waits for has its active request. -/
structure Draining (s : Sockets) : Prop where
  numbered : s.table.Numbered
  ids : (s.table.g.keys.map Prod.snd).Nodup
  nonzero : ∀ k ∈ s.table.g.keys, k.2 ≠ mtIdUnsetValue
  listed : ∀ r ∈ s.table.sockinsts, r < s.table.nextSock
  placed : ∀ x ∈ s.table.g.holds, x.2.2 < s.table.nextSock
  sent : ∀ m ∈ s.flight, m.ref ∈ s.sent
  single : (s.flight.map Message.ref).Nodup
  own : ∀ m ∈ s.flight, ∀ k ∈ s.table.g.keys, k.2 = m.request.id → k.1 = m.ref
  live : ∀ m ∈ s.flight, m.request.type.closeWaits = true →
    (m.ref, m.request.id, m.sock) ∈ s.table.g.holds
  drained : ∀ r, (s.drain r).Sound mtIdUnsetValue
  orderly : Orderly s.log

variable {s s' : Sockets}

theorem GaveUp.mono {l l' : List Publication} (h : l ⊆ l') {r : Nat} (hup : GaveUp l r) :
    GaveUp l' r := by
  obtain ⟨p, hp, hsock⟩ := hup
  exact ⟨p, h hp, hsock⟩

theorem mem_waiting {r : Nat} {m : Message} :
    m ∈ s.waiting r ↔ m ∈ s.flight ∧ m.sock = r ∧ m.request.type.closeWaits = true := by
  simp [waiting]

theorem Orderly.append {l : List Publication} {p : Publication} (h : Orderly l)
    (hp : p.message.request.type = .socketClose →
      p.unanswered = 0 ∨ GaveUp (l ++ [p]) p.message.sock) : Orderly (l ++ [p]) := by
  intro past q hpre hclose
  rcases List.prefix_concat_iff.mp hpre with heq | hpre
  · obtain ⟨rfl, hpq⟩ := List.append_inj' heq rfl
    cases hpq
    exact hp hclose
  · exact h past q hpre hclose

namespace Draining

/-- A step that changes no lock and publishes nothing. Active requests may go,
but not those of the requests in flight that a close waits for. -/
theorem thin (h : Draining s) (hthin : s.table.Thins s'.table)
    (hshrink : s.table.Shrinks s'.table)
    (hlock : ∀ x, s'.table.g.view SockInst.lock x = s.table.g.view SockInst.lock x)
    (hplaced : ∀ x ∈ s'.table.g.holds, x ∈ s.table.g.holds ∨ x.2.2 ∈ s.table.sockinsts)
    (hlive : ∀ m ∈ s'.flight, m.request.type.closeWaits = true →
      (m.ref, m.request.id, m.sock) ∈ s'.table.g.holds)
    (hflight : s'.flight.Sublist s.flight) (hwait : ∀ r, (s'.waiting r).Perm (s.waiting r))
    (hlog : s'.log = s.log) (hsent : s.sent ⊆ s'.sent) : Draining s' where
  numbered := h.numbered.thins hthin
  ids := h.ids.sublist (hthin.keys.map _)
  nonzero k hk := h.nonzero k (hthin.keys.subset hk)
  listed r hr := hshrink.1 ▸ h.listed r (hshrink.sockinsts.subset hr)
  placed x hx := by
    rw [hshrink.1]
    exact (hplaced x hx).elim (h.placed x) (h.listed x.2.2)
  sent m hm := hsent (h.sent m (hflight.subset hm))
  single := h.single.sublist (hflight.map _)
  own m hm k hk := h.own m (hflight.subset hm) k (hthin.keys.subset hk)
  live := hlive
  drained r := by
    have hr : (s'.sock r).lock = (s.sock r).lock := hlock r
    refine (h.drained r).congr ?_ (congrArg Prod.fst hr) (congrArg Prod.snd hr) ?_
    · exact (hwait r).map _
    · simp only [drain, hlog, imp_self]
  orderly := hlog ▸ h.orderly

/-- A step that concerns neither the active requests nor the rings. -/
theorem same (h : Draining s) (htable : s'.table = s.table) (hflight : s'.flight = s.flight)
    (hlog : s'.log = s.log) (hsent : s'.sent = s.sent) : Draining s' := by
  obtain ⟨table, xen, flight, log, sent, polling, owned, building, files, closing⟩ := s'
  cases htable
  cases hflight
  cases hlog
  cases hsent
  exact ⟨h.numbered, h.ids, h.nonzero, h.listed, h.placed, h.sent, h.single, h.own, h.live,
    h.drained, h.orderly⟩

/-- A step on the tables alone. -/
theorem retable (h : Draining s) {t : Table} (hthin : s.table.Thins t) (hshrink : s.table.Shrinks t)
    (hlock : ∀ x, t.g.view SockInst.lock x = s.table.g.view SockInst.lock x)
    (hplaced : ∀ x ∈ t.g.holds, x ∈ s.table.g.holds ∨ x.2.2 ∈ s.table.sockinsts)
    (hlive : ∀ m ∈ s.flight, m.request.type.closeWaits = true →
      (m.ref, m.request.id, m.sock) ∈ t.g.holds) : Draining { s with table := t } :=
  h.thin hthin hshrink hlock hplaced hlive (.refl _) (fun _ => .refl _) rfl fun _ hm => hm

/-- A change of one instance that does not show in its lock. -/
theorem modifySock (h : Draining s) (r : Nat) {f : SockInst → SockInst}
    (hf : ∀ k, (f k).lock = k.lock) : Draining { s with table := s.table.modifySock r f } :=
  h.retable (.of_eq rfl rfl) (.of_eq rfl rfl rfl) (Globals.view_modifySock_of_eq s.table.g r hf)
    (fun _ hx => .inl hx) h.live

theorem letGo (h : Draining s) (r : Nat) : Draining (s.letGo r) := by
  have hholds := Table.holds_put s.table r
  have hput : Draining { s with table := s.table.mwsocketPutSockinst r } := by
    refine h.retable (Table.thins_put s.table r) (Table.shrinks_settle s.table r _)
      (Table.lock_put s.table r) (fun x hx => .inl ?_) fun m hm hwaits => ?_
    · exact hholds ▸ hx
    · exact hholds ▸ h.live m hm hwaits
  exact hput.same rfl rfl rfl rfl

/-- A request in flight that a close waits for has the id of its active request. -/
theorem ref_eq (h : Draining s) {m : Message} (hm : m ∈ s.flight) {a : ActReq}
    (ha : a ∈ s.table.g.activeRequests) (hid : a.id = m.request.id) : a.ref = m.ref :=
  h.own m hm _ (Globals.mem_keys ha) hid

theorem ne_of_unanswered {ref : Nat} (hnone : s.unanswered ref = []) {m : Message}
    (hm : m ∈ s.flight) (hwaits : m.request.type.closeWaits = true) : m.ref ≠ ref := by
  intro href
  have hmem : m ∈ s.unanswered ref := by simp [unanswered, hm, href, hwaits]
  rw [hnone] at hmem
  cases hmem

/-- An active request without one in flight that a close waits for goes. -/
theorem destroy (h : Draining s) {a : ActReq} (ha : a ∈ s.table.g.activeRequests)
    (hnone : s.unanswered a.ref = []) :
    Draining { s with table := s.table.mwsocketDestroyActiveRequest a } := by
  have hblocker : (s.sock a.sockinst).closeBlockid ≠ a.id := by
    intro heq
    have hne := h.nonzero _ (Globals.mem_keys ha)
    have hmem := (h.drained a.sockinst).blocked (by
      change (s.sock a.sockinst).closeBlockid ≠ _
      rw [heq]
      exact hne)
    obtain ⟨m, hm, hid⟩ := List.mem_map.mp hmem
    obtain ⟨hflight, -, hwaits⟩ := mem_waiting.mp hm
    have href := h.ref_eq hflight ha (heq.symm.trans hid.symm)
    exact ne_of_unanswered hnone hflight hwaits href.symm
  have hholds := Table.holds_destroy s.table a
  refine h.retable (Table.thins_destroy s.table a) (Table.shrinks_settle s.table _ _)
    (Table.lock_destroy s.table hblocker) (fun x hx => .inl ?_) fun m hm hwaits => ?_
  · rw [hholds] at hx
    exact (List.mem_filter.mp hx).1
  · change _ ∈ (s.table.mwsocketDestroyActiveRequest a).g.holds
    rw [hholds, List.mem_filter]
    exact ⟨h.live m hm hwaits, by simpa using ne_of_unanswered hnone hm hwaits⟩

theorem waiting_perm {m : Message} (hperm : s.flight.Perm (m :: s'.flight)) (r : Nat) :
    (s.waiting r).Perm
      (if m.sock = r ∧ m.request.type.closeWaits = true then m :: s'.waiting r
       else s'.waiting r) := by
  refine (hperm.filter _).trans ?_
  rw [List.filter_cons]
  simp only [Bool.and_eq_true, decide_eq_true_eq]
  exact List.Perm.refl _

/-- The response to a request that a close waits for. -/
theorem answer (h : Draining s) {m : Message} (hwaits : m.request.type.closeWaits = true)
    (hlast : LastOne s m.sock m.request.id) (hthin : s.table.Thins s'.table)
    (hshrink : s.table.Shrinks s'.table) (hholds : s'.table.g.holds = s.table.g.holds)
    (hperm : s.flight.Perm (m :: s'.flight))
    (hlock : ∀ x, s'.table.g.view SockInst.lock x =
      if x = m.sock then (s.sock x).unlock m.request.id else s.table.g.view SockInst.lock x)
    (hsub : s'.flight.Sublist s.flight) (hlog : s'.log = s.log) (hsent : s'.sent = s.sent) :
    Draining s' where
  numbered := h.numbered.thins hthin
  ids := h.ids.sublist (hthin.keys.map _)
  nonzero k hk := h.nonzero k (hthin.keys.subset hk)
  listed r hr := hshrink.1 ▸ h.listed r (hshrink.sockinsts.subset hr)
  placed x hx := by
    rw [hholds] at hx
    rw [hshrink.1]
    exact h.placed x hx
  sent x hx := hsent ▸ h.sent x (hsub.subset hx)
  single := h.single.sublist (hsub.map _)
  own x hx k hk := h.own x (hsub.subset hx) k (hthin.keys.subset hk)
  live x hx hw := hholds ▸ h.live x (hsub.subset hx) hw
  drained r := by
    have hr : (s'.sock r).lock = _ := hlock r
    have hwaiting := waiting_perm hperm r
    have hgave : (s.drain r).gaveUp → (s'.drain r).gaveUp := by
      simp only [drain, hlog, imp_self]
    by_cases hsock : m.sock = r
    · subst hsock
      rw [if_pos rfl] at hr
      rw [if_pos ⟨rfl, hwaits⟩] at hwaiting
      refine (h.drained m.sock).leave (i := m.request.id) ?_ (congrArg Prod.fst hr)
        (congrArg Prod.snd hr) (fun heq => ?_) hgave
      · exact hwaiting.map _
      · exact (List.length_map ..).trans (hlast heq)
    · rw [if_neg (Ne.symm hsock)] at hr
      rw [if_neg fun hc => hsock hc.1] at hwaiting
      exact (h.drained r).congr (hwaiting.map _).symm (congrArg Prod.fst hr)
        (congrArg Prod.snd hr) hgave
  orderly := hlog ▸ h.orderly

/-! ### Responses -/

/-- The post-processing of the response to a request in flight, whatever else
becomes of its active request. -/
theorem postproc (h : Draining s) {k : Nat} {m : Message} {a : ActReq} {resp : MtResponse}
    {g : Globals} (hm : s.flight[k]? = some m) (ha : a ∈ s.table.g.activeRequests)
    (hid : a.id = m.request.id) (htype : resp.type = .of m.request.type)
    (hlast : m.request.type.closeWaits = true → LastOne s m.sock m.request.id)
    (hsocks : g.socks = (s.table.g.mwsocketPostprocNoContext a resp).1.socks)
    (hholds : g.holds = (s.table.g.mwsocketPostprocNoContext a resp).1.holds)
    (hthin : s.table.Thins { s.table with g := g }) :
    Draining { s with table := { s.table with g := g }, flight := s.flight.eraseIdx k } := by
  obtain ⟨hlt, hget⟩ := List.getElem?_eq_some_iff.mp hm
  have hperm : s.flight.Perm (m :: s.flight.eraseIdx k) :=
    hget ▸ (List.getElem_cons_eraseIdx_perm hlt).symm
  have hmem : m ∈ s.flight := hget ▸ List.getElem_mem hlt
  have hholds' : g.holds = s.table.g.holds := hholds.trans (Globals.holds_postproc ..)
  have hlock (x : Nat) : g.view SockInst.lock x =
      if x = a.sockinst ∧ m.request.type.closeWaits = true then (s.sock x).unlock a.id
      else s.table.g.view SockInst.lock x := by
    refine Eq.trans ?_ (Globals.lock_postproc s.table.g a htype x)
    rw [Globals.view, hsocks, Globals.view]
  by_cases hwaits : m.request.type.closeWaits = true
  · have hsock : a.sockinst = m.sock := by
      have hhold := h.live m hmem hwaits
      have heq := List.inj_on_of_nodup_map h.numbered.separate hhold
        (Globals.mem_holds.mpr ⟨a, ha, rfl⟩) (h.ref_eq hmem ha hid).symm
      exact congrArg (fun x => x.2.2) heq.symm
    refine h.answer hwaits (hlast hwaits) hthin (.of_eq rfl rfl rfl) hholds' hperm
      (fun x => ?_) (List.eraseIdx_sublist _ _) rfl rfl
    rw [← hsock, ← hid]
    refine (hlock x).trans ?_
    simp only [hwaits, and_true]
  · refine h.thin hthin (.of_eq rfl rfl rfl) (fun x => (hlock x).trans ?_) (fun x hx => .inl ?_)
      (fun x hx hw => ?_) (List.eraseIdx_sublist _ _) (fun r => ?_) rfl fun _ hm => hm
    · rw [if_neg fun hc => hwaits hc.2]
    · exact hholds' ▸ hx
    · exact hholds' ▸ h.live x (List.mem_of_mem_eraseIdx hx) hw
    · have := @waiting_perm s { s with flight := s.flight.eraseIdx k } m hperm r
      rw [if_neg fun hc => hwaits hc.2] at this
      exact this.symm

theorem respond (h : Draining s) {k : Nat} {m : Message} (resp : MtResponse)
    (hm : s.flight[k]? = some m)
    (hlast : m.request.type.closeWaits = true → LastOne s m.sock m.request.id) :
    Draining { s with
      table := s.table.mwsocketConsumeResponse
        { resp with id := m.request.id, type := .of m.request.type }
      flight := s.flight.eraseIdx k } := by
  obtain ⟨hlt, hget⟩ := List.getElem?_eq_some_iff.mp hm
  have hperm : s.flight.Perm (m :: s.flight.eraseIdx k) :=
    hget ▸ (List.getElem_cons_eraseIdx_perm hlt).symm
  have hmem : m ∈ s.flight := hget ▸ List.getElem_mem hlt
  have hconsume := Table.consume_inv h.numbered.separate
    { resp with id := m.request.id, type := .of m.request.type }
  have hthin := Table.thins_consume s.table
    { resp with id := m.request.id, type := .of m.request.type }
  generalize s.table.mwsocketConsumeResponse
    { resp with id := m.request.id, type := .of m.request.type } = t' at hconsume hthin ⊢
  cases hconsume with
  | dropped hnone =>
      have hwaits : ¬ m.request.type.closeWaits = true := by
        intro hwaits
        obtain ⟨a, ha, hhold⟩ := Globals.mem_holds.mp (h.live m hmem hwaits)
        have hid : a.id = m.request.id := congrArg (fun x => x.2.1) hhold
        simpa [hid] using List.find?_eq_none.mp hnone a ha
      refine h.thin hthin (.of_eq rfl rfl rfl) (fun _ => rfl) (fun _ hx => .inl hx)
        (fun x hx => h.live x (List.mem_of_mem_eraseIdx hx)) (List.eraseIdx_sublist _ _)
        (fun r => ?_) rfl fun _ hm => hm
      have := @waiting_perm s { s with flight := s.flight.eraseIdx k } m hperm r
      rw [if_neg fun hc => hwaits hc.2] at this
      exact this.symm
  | delivered ha hsocks hholds =>
      have hid := List.find?_some ha
      exact h.postproc hm (List.mem_of_find?_eq_some ha) (by simpa using hid) rfl hlast hsocks hholds
        hthin
  | destroyed ha hb hsame =>
      rename_i a b
      have hid : a.id = m.request.id := by simpa using List.find?_some ha
      have hamem := List.mem_of_find?_eq_some ha
      let resp' : MtResponse := { resp with id := m.request.id, type := .of m.request.type }
      have hpost := h.postproc hm hamem hid
        (show resp'.type = .of m.request.type from rfl) hlast rfl rfl
        (.of_eq (Globals.postproc_spec s.table.g a resp').1
          (Driver.nextRef_postproc s.table.g a resp'))
      refine hpost.destroy hb ?_
      -- What is left in flight belongs to other active requests.
      have href : b.ref = m.ref :=
        (congrArg Prod.fst hsame).trans (h.ref_eq hmem hamem hid)
      have hsingle : (m.ref :: (s.flight.eraseIdx k).map Message.ref).Nodup :=
        (hperm.map Message.ref).nodup_iff.mp h.single
      have hgone := (List.nodup_cons.mp hsingle).1
      refine List.filter_eq_nil_iff.mpr fun x hx => ?_
      have hne : x.ref ≠ b.ref := by
        rw [href]
        rintro heq
        exact hgone (heq ▸ List.mem_map_of_mem hx)
      simp [hne]

/-! ### New instances and requests -/

theorem create (h : Draining s) (pollable : Bool) : Draining (s.create pollable) := by
  obtain ⟨hnext, -, hthin⟩ := Table.create_spec s.table pollable
  obtain ⟨hholds, hlisted⟩ := Table.create_lists s.table pollable
  have hfresh (m : Message) (hm : m ∈ s.flight) (hw : m.request.type.closeWaits = true) :
      m.sock ≠ s.table.nextSock := Nat.ne_of_lt (h.placed _ (h.live m hm hw))
  exact
    { numbered := h.numbered.thins hthin
      ids := h.ids.sublist (hthin.keys.map _)
      nonzero := fun k hk => h.nonzero k (hthin.keys.subset hk)
      listed := by
        intro r hr
        change r < (s.table.mwsocketCreateSockinst pollable).nextSock
        rw [hnext]
        rcases List.mem_cons.mp (hlisted ▸ hr) with rfl | hold
        · exact Nat.lt_succ_self _
        · exact Nat.lt_succ_of_lt (h.listed r hold)
      placed := by
        intro x hx
        change x.2.2 < (s.table.mwsocketCreateSockinst pollable).nextSock
        rw [hnext]
        exact Nat.lt_succ_of_lt (h.placed x (hholds ▸ hx))
      sent := h.sent
      single := h.single
      own := fun m hm k hk => h.own m hm k (hthin.keys.subset hk)
      live := fun m hm hw => hholds ▸ h.live m hm hw
      drained := by
        intro r
        have hr : ((s.create pollable).sock r).lock = _ := Table.lock_create s.table pollable r
        by_cases hnew : r = s.table.nextSock
        · subst hnew
          rw [if_pos rfl] at hr
          have hnone : (s.create pollable).waiting s.table.nextSock = [] := by
            refine List.filter_eq_nil_iff.mpr fun m hm => ?_
            simp only [Bool.and_eq_true, decide_eq_true_eq, not_and]
            exact fun hsock hw => hfresh m hm hw hsock
          refine ⟨?_, fun hne => absurd (congrArg Prod.snd hr) hne, fun _ => .inl ?_⟩
          · simp only [drain, hnone]
            exact congrArg Prod.fst hr
          · simp only [drain, hnone, List.map_nil]
        · rw [if_neg hnew] at hr
          exact (h.drained r).congr (.refl _) (congrArg Prod.fst hr) (congrArg Prod.snd hr) id
      orderly := h.orderly }

theorem request (h : Draining s) {g : Globals} {sock ref : Nat} {fromUser deliver : Bool}
    {req : MtRequest} (hsock : sock ∈ s.table.sockinsts)
    (hc : s.table.g.mwsocketCreateActiveRequest sock fromUser deliver req = some (g, ref))
    (hnew : ∀ id ∈ s.table.g.mwsocketGetNextId (s.table.g.activeRequests.length + 1),
      ∀ m ∈ s.flight, m.request.id ≠ id) :
    Draining { s with table := { s.table with g := g } } := by
  obtain ⟨-, hnext, id, hid, hkeys⟩ := Globals.create_spec hc
  obtain ⟨hzero, hfresh⟩ := Globals.mwsocketGetNextId_spec hid
  obtain ⟨hlock, ref', id', hholds⟩ := Table.create_request hc
  exact
    { numbered := h.numbered.request hnext hkeys
      ids := by
        change (g.keys.map Prod.snd).Nodup
        rw [hkeys, List.map_cons]
        exact List.nodup_cons.mpr ⟨hfresh, h.ids⟩
      nonzero := by
        intro k hk
        rcases List.mem_cons.mp (hkeys ▸ hk) with rfl | hk
        · exact hzero
        · exact h.nonzero k hk
      listed := h.listed
      placed := by
        intro x hx
        rcases List.mem_cons.mp (hholds ▸ hx) with rfl | hx
        · exact h.listed sock hsock
        · exact h.placed x hx
      sent := h.sent
      single := h.single
      own := by
        intro m hm k hk hkid
        rcases List.mem_cons.mp (hkeys ▸ hk) with rfl | hk
        · exact absurd hkid.symm (hnew id hid m hm)
        · exact h.own m hm k hk hkid
      live := fun m hm hw => hholds ▸ List.mem_cons_of_mem _ (h.live m hm hw)
      drained := by
        intro r
        have hr : (g.socks r).lock = (s.sock r).lock := hlock r
        exact (h.drained r).congr (.refl _) (congrArg Prod.fst hr) (congrArg Prod.snd hr) fun h => h
      orderly := h.orderly }

/-! ### Sends -/

theorem kept (h : Draining s) {a : ActReq} {slot : Globals.Slot} {acquired : Bool}
    (hnone : (s.table.g.mwsocketSendRequest a slot acquired).2.2 = none)
    (hlost : slot = .lost → a.request.type.closeWaits = false ∧ a.request.type ≠ .socketClose) :
    Draining { s with
      table := { s.table with g := (s.table.g.mwsocketSendRequest a slot acquired).1 }
      sent := s.sent ++ [a.ref] } := by
  have hholds := Globals.holds_send s.table.g a slot acquired
  refine h.thin (.of_eq (Globals.send_spec ..).1 (Driver.nextRef_send ..)) (.of_eq rfl rfl rfl)
    (fun x => ?_) (fun x hx => .inl (hholds ▸ hx)) (fun m hm hw => hholds ▸ h.live m hm hw)
    (List.Sublist.refl _) (fun _ => .refl _) rfl (List.subset_append_left _ _)
  by_cases hprep : s.table.g.prepares a slot
  · -- Without a slot that is granted, the INS was gone by the time of the push.
    obtain ⟨hwaits, hclose⟩ := hlost (Globals.lost_of_prepares hprep hnone)
    refine (Globals.view_send_prepared acquired hprep x).trans ?_
    have htype : (s.table.g.stampRequest a).type = a.request.type := rfl
    rw [lock_preProcess, htype, hwaits, if_neg Bool.false_ne_true, if_neg hclose]
    split
    · rename_i hx
      rw [hx, Globals.view]
    · rfl
  · exact Globals.view_send_refused acquired hprep aside_lock.flags (fun _ _ => rfl) x

/-- A request goes on the ring; whether a close may, is in `hquiet`. -/
theorem publish (h : Draining s) {a : ActReq} {slot : Globals.Slot} {acquired : Bool}
    {m : Message} {p : Publication} (ha : a ∈ s.table.g.activeRequests) (hnew : a.ref ∉ s.sent)
    (href : m.ref = a.ref) (hsock : m.sock = a.sockinst)
    (hreq : (s.table.g.mwsocketSendRequest a slot acquired).2.2 = some m.request)
    (hp : p.message = m) (hcount : p.unanswered = (s.waiting a.sockinst).length)
    (hquiet : m.request.type = .socketClose →
      s.waiting a.sockinst = [] ∨ GaveUp (s.log ++ [p]) a.sockinst)
    (x : Xen) :
    Draining { s with
      table := { s.table with g := (s.table.g.mwsocketSendRequest a slot acquired).1 }
      xen := x
      flight := s.flight ++ [m]
      log := s.log ++ [p]
      sent := s.sent ++ [a.ref] } := by
  have hholds := Globals.holds_send s.table.g a slot acquired
  have hkeys := (Globals.send_spec s.table.g a slot acquired).1
  obtain ⟨fd, hpub⟩ := Globals.published_eq hreq
  have htype : m.request.type = a.request.type := by rw [hpub]; rfl
  have hid : m.request.id = a.id := by rw [hpub]; rfl
  have hkey := Globals.mem_keys ha
  have hfresh : ∀ x ∈ s.flight, x.ref ≠ m.ref := fun x hx heq => hnew (href ▸ heq ▸ h.sent x hx)
  refine
    { numbered := h.numbered.thins (.of_eq hkeys (Driver.nextRef_send ..))
      ids := hkeys ▸ h.ids
      nonzero := fun k hk => h.nonzero k (hkeys ▸ hk)
      listed := h.listed
      placed := fun x hx => h.placed x (hholds ▸ hx)
      sent := ?_
      single := ?_
      own := ?_
      live := ?_
      drained := ?_
      orderly := h.orderly.append fun hclose => ?_ }
  · intro x hx
    rw [List.mem_append] at hx ⊢
    rcases hx with hx | hx
    · exact .inl (h.sent x hx)
    · exact .inr (by rw [List.mem_singleton.mp hx, href]; exact List.mem_singleton_self _)
  · rw [List.map_append, List.nodup_append]
    refine ⟨h.single, List.nodup_singleton _, fun r hr r' hr' heq => ?_⟩
    obtain ⟨x, hx, rfl⟩ := List.mem_map.mp hr
    exact hfresh x hx (heq.trans (List.mem_singleton.mp hr'))
  · intro x hx k hk hkid
    replace hk : k ∈ s.table.g.keys := hkeys ▸ hk
    rcases List.mem_append.mp hx with hx | hx
    · exact h.own x hx k hk hkid
    · rw [List.mem_singleton.mp hx] at hkid ⊢
      have heq : k = (a.ref, a.id) := List.inj_on_of_nodup_map h.ids hk hkey (hkid.trans hid)
      rw [heq, href]
  · intro x hx hw
    change _ ∈ (s.table.g.mwsocketSendRequest a slot acquired).1.holds
    rw [hholds]
    rcases List.mem_append.mp hx with hx | hx
    · exact h.live x hx hw
    · rw [List.mem_singleton.mp hx, href, hid, hsock]
      exact Globals.mem_holds.mpr ⟨a, ha, rfl⟩
  · intro r
    let s₁ : Sockets := { s with
      table := { s.table with g := (s.table.g.mwsocketSendRequest a slot acquired).1 }
      xen := x, flight := s.flight ++ [m], log := s.log ++ [p], sent := s.sent ++ [a.ref] }
    have hgave : (s.drain r).gaveUp → (s₁.drain r).gaveUp :=
      GaveUp.mono (List.subset_append_left _ _)
    have hwaiting : s₁.waiting r =
        s.waiting r ++ if m.sock = r ∧ m.request.type.closeWaits = true then [m] else [] := by
      simp only [waiting, s₁, List.filter_append, List.filter_cons, List.filter_nil,
        Bool.and_eq_true, decide_eq_true_eq]
    have hlock : (s₁.sock r).lock = _ :=
      Globals.view_send_prepared (F := SockInst.lock) acquired (Globals.prepares_of_published hreq) r
    have hstamp : (s.table.g.stampRequest a).type = m.request.type := htype.symm
    rw [lock_preProcess, hstamp] at hlock
    by_cases hr : r = a.sockinst
    · subst hr
      rw [if_pos rfl] at hlock
      by_cases hw : m.request.type.closeWaits = true
      · -- a request that a close waits for takes the lock for reading
        rw [if_pos hw] at hlock
        rw [if_pos ⟨hsock, hw⟩] at hwaiting
        refine (h.drained a.sockinst).enter (i := a.id) (h.nonzero _ hkey) ?_
          (congrArg Prod.fst hlock) (congrArg Prod.snd hlock)
        refine (congrArg (List.map fun m => m.request.id) hwaiting).trans ?_
        rw [List.map_append, List.map_singleton, hid, drain]
      · rw [if_neg hw] at hlock
        rw [if_neg fun hc => hw hc.2, List.append_nil] at hwaiting
        by_cases hclose : m.request.type = .socketClose
        · -- a close passes: nothing is waited for, or it has given up waiting
          rw [if_pos hclose] at hlock
          refine (h.drained a.sockinst).pass ?_ ?_ (congrArg Prod.fst hlock)
            (congrArg Prod.snd hlock)
          · exact (hquiet hclose).imp_left fun hnone => by simp only [drain, hnone, List.map_nil]
          · exact congrArg (List.map fun m => m.request.id) hwaiting
        · rw [if_neg hclose] at hlock
          exact (h.drained a.sockinst).congr (.of_eq (congrArg (List.map _) hwaiting))
            (congrArg Prod.fst hlock) (congrArg Prod.snd hlock) hgave
    · rw [if_neg hr] at hlock
      rw [if_neg fun hc => hr (hc.1.symm.trans hsock), List.append_nil] at hwaiting
      exact (h.drained r).congr (.of_eq (congrArg (List.map _) hwaiting))
        (congrArg Prod.fst hlock) (congrArg Prod.snd hlock) hgave
  · rw [hp] at hclose ⊢
    rw [hsock, hcount]
    exact (hquiet hclose).imp_left fun hnone => by rw [hnone]; rfl

theorem send (h : Draining s) {a : ActReq} {slot : Globals.Slot} {acquired : Bool}
    (ha : a ∈ s.table.g.activeRequests)
    (hlost : slot = .lost → a.request.type.closeWaits = false ∧ a.request.type ≠ .socketClose)
    (hs : s.send a slot acquired = some s') : Draining s' := by
  obtain ⟨hnew, hfree, hsent⟩ := send_inv hs
  cases hsent with
  | kept slot' x hslot hnone =>
      have hkept : Draining { s with
          table := { s.table with g := (s.table.g.mwsocketSendRequest a slot' acquired).1 }
          sent := s.sent ++ [a.ref] } := by
        refine h.kept hnone fun hl => ?_
        rcases hslot with rfl | rfl
        · exact hlost hl
        · cases hl
      exact hkept.same rfl rfl rfl rfl
  | published m x hring href hsock hdomid hreq =>
      refine h.publish ha hnew href hsock hreq rfl rfl (fun hclose => ?_) x.1
      obtain ⟨fd, hpub⟩ := Globals.published_eq hreq
      have htype : a.request.type = .socketClose := by
        rw [← hclose, hpub]
        rfl
      have hgave {l l' : List Publication} : GaveUp l a.sockinst → GaveUp (l ++ l') a.sockinst :=
        GaveUp.mono (List.subset_append_left _ _)
      by_cases hpass : (s.sock a.sockinst).closeBlockid = mtIdUnsetValue ∨
          (s.sock a.sockinst).closeReaders = 0
      · exact ((h.drained a.sockinst).quiet hpass).imp List.map_eq_nil_iff.mp hgave
      · -- A request is in the way and the lock is not free: the close has given up.
        rw [not_or] at hpass
        refine .inr ⟨_, List.mem_append_right _ (List.mem_singleton_self _), hsock, ?_⟩
        have hacquired : acquired = false := by
          have hpos : 0 < (s.sock a.sockinst).closeReaders := Nat.pos_of_ne_zero hpass.2
          have hnowait : MtRequestType.socketClose.closeWaits = false := by decide
          rw [closeLockFree, htype, hnowait, if_neg Bool.false_ne_true] at hfree
          simpa [hpos] using hfree
        simp [givesUp, htype, hpass.1, hacquired]

/-! ### The reaper -/

theorem reapRequest (h : Draining s) {a : ActReq} (ha : a ∈ s.table.g.activeRequests)
    (hiff : releases a = true ↔ s.unanswered a.ref ≠ [])
    (hlast : releases a = true → LastOne s a.sockinst a.id) :
    Draining { s with
      table := s.table.reapRequest a
      flight := s.flight.filter fun m => m.ref ≠ a.ref } := by
  by_cases hrel : releases a = true
  · -- The response is made up, and the lock is given back.
    obtain ⟨m, hm⟩ := List.exists_mem_of_ne_nil _ (hiff.mp hrel)
    obtain ⟨hflight, href, hwaits⟩ : m ∈ s.flight ∧ m.ref = a.ref ∧
        m.request.type.closeWaits = true := by
      simpa [unanswered] using hm
    have hhold : (m.ref, m.request.id, m.sock) = a.hold :=
      List.inj_on_of_nodup_map h.numbered.separate (h.live m hflight hwaits)
        (Globals.mem_holds.mpr ⟨a, ha, rfl⟩) href
    have hid : m.request.id = a.id := congrArg (fun x => x.2.1) hhold
    have hsock : m.sock = a.sockinst := congrArg (fun x => x.2.2) hhold
    obtain ⟨⟨hdeliver, hpop⟩, htype⟩ : (a.deliverResponse = true ∧ a.responsePopulated = false) ∧
        a.request.type.closeWaits = true := by
      simpa [releases] using hrel
    have hfail : s.table.reapRequest a = s.table.failRequest a := by
      have hacc : Table.isAccept a = false := by
        rw [Table.isAccept, hpop]
        by_contra hne
        have hacc : a.request.type = .socketAccept := by simpa using hne
        rw [hacc] at htype
        exact absurd htype (by decide)
      simp [Table.reapRequest, hdeliver, hacc, hpop]
    rw [hfail]
    refine h.answer hwaits (hsock ▸ hid ▸ hlast hrel) (Table.thins_failRequest s.table a)
      (.of_eq rfl rfl rfl) (Table.holds_failRequest s.table a) ?_ (fun x => ?_)
      List.filter_sublist rfl rfl
    · rw [← href]
      exact Table.perm_cons_others h.single hflight
    · rw [Table.lock_failRequest, hsock, hid]
      simp only [htype, and_true]
      rfl
  · have hnone : s.unanswered a.ref = [] := by
      by_contra hne
      exact hrel (hiff.mpr hne)
    have hrest (t : Table) (ht : Draining { s with table := t }) :
        Draining { s with table := t, flight := s.flight.filter fun m => m.ref ≠ a.ref } := by
      refine ht.thin (.refl t) (.refl t) (fun _ => rfl) (fun _ hx => .inl hx)
        (fun m hm => ht.live m (List.mem_of_mem_filter hm)) List.filter_sublist (fun r => ?_) rfl
        fun _ hm => hm
      refine .of_eq ((List.filter_filter ..).trans (List.filter_congr fun m hm => ?_))
      by_cases hw : m.request.type.closeWaits = true
      · simp [ne_of_unanswered hnone hm hw]
      · simp [hw]
    refine hrest _ ?_
    rw [Table.reapRequest]
    split_ifs with hdeliver hsib hfail
    · exact h.destroy ha hnone
    · have hholds := Table.holds_failRequest s.table a
      refine h.retable (Table.thins_failRequest s.table a) (.of_eq rfl rfl rfl) (fun x => ?_)
        (fun x hx => .inl (hholds ▸ hx)) fun m hm hw => hholds ▸ h.live m hm hw
      rw [Table.lock_failRequest, if_neg]
      rintro ⟨-, htype⟩
      apply hrel
      simp only [Bool.and_eq_true, Bool.not_eq_true'] at hfail
      simp [releases, hdeliver, hfail.2, htype]
    · exact h
    · exact h.destroy ha hnone

/-- No close has to wait for a socket without requests in flight. -/
theorem unset_of_waiting (h : Draining s) {r : Nat} (hnone : s.waiting r = []) :
    (s.sock r).closeBlockid = mtIdUnsetValue := by
  by_contra hne
  have hmem := (h.drained r).blocked hne
  simp only [drain, hnone, List.map_nil] at hmem
  cases hmem

theorem failover (h : Draining s) {r q : Nat} (hr : r ∈ s.table.sockinsts)
    (hwr : s.waiting r = []) (hwq : s.waiting q = []) :
    Draining { s with table := s.table.failover r q } := by
  have hholds := Table.holds_failover h.numbered.separate r q
  refine h.retable (Table.thins_failover s.table r q) (Table.shrinks_failover s.table r q)
    (Table.lock_failover s.table (h.unset_of_waiting hwr) (h.unset_of_waiting hwq))
    (fun x hx => ?_) fun m hm hw => ?_
  · rw [hholds, List.mem_filterMap] at hx
    obtain ⟨y, hy, htaken⟩ := hx
    rw [Table.taken] at htaken
    split_ifs at htaken
    · cases htaken
      exact .inr hr
    · cases htaken
      exact .inl hy
  · change _ ∈ (s.table.failover r q).g.holds
    rw [hholds, List.mem_filterMap]
    refine ⟨_, h.live m hm hw, ?_⟩
    have hne {r' : Nat} (hnone : s.waiting r' = []) : m.sock ≠ r' := by
      intro hsock
      have hmem : m ∈ s.waiting r' := mem_waiting.mpr ⟨hm, hsock, hw⟩
      rw [hnone] at hmem
      cases hmem
    rw [Table.taken, if_neg (hne hwr), if_neg (hne hwq)]

theorem reapSocket (h : Draining s) {dead : List (BitVec 16)} {r : Nat} {t : Table}
    (hr : r ∈ s.table.sockinsts) (ht : s.table.reapSocket dead r = some t)
    (hG : s.ReleasesOnce (.reapSocket dead r)) : Draining { s with table := t } := by
  have hholds := Table.holds_markDead s.table r
  have hdead : Draining { s with table := s.table.markDead r } :=
    h.retable (Table.thins_markDead s.table r) (Table.shrinks_markDead s.table r)
      (Table.lock_markDead s.table r) (fun x hx => .inl (hholds ▸ hx))
      fun m hm hw => hholds ▸ h.live m hm hw
  simp only [ReleasesOnce] at hG
  simp only [Table.reapSocket] at ht
  split at ht
  · rename_i hacc
    split at ht
    · cases ht
      exact (hdead.letGo r).same rfl rfl rfl rfl
    · rename_i huser
      replace hG := hG hacc (by simpa using huser)
      split at ht
      · rename_i q hq
        cases ht
        exact hdead.failover hr (hG.1 q hq).1 (hG.1 q hq).2
      · rename_i hnone
        obtain ⟨b, hb, rfl⟩ := Option.map_eq_some_iff.mp ht
        have hholds' := Table.holds_failRequest (s.table.markDead r) b
        refine hdead.retable (Table.thins_failRequest _ b) (.of_eq rfl rfl rfl) (fun x => ?_)
          (fun x hx => .inl (hholds' ▸ hx)) fun m hm hw => hholds' ▸ hdead.live m hm hw
        rw [Table.lock_failRequest, if_neg]
        rintro ⟨-, htype⟩
        exact absurd htype (by rw [hG.2 hnone b hb]; exact Bool.false_ne_true)
  · cases ht
    exact hdead

theorem visit (h : Draining s) (r : Nat) (items : List MtPollsetItem) :
    Draining { s with table := visit s.table r items } := by
  simp only [Sockets.visit]
  have hoff := h.modifySock (s.table.sock r).usersock (f := fun k => { k with pollEvents := 0 })
    fun _ => rfl
  split
  · exact hoff
  · exact hoff.modifySock _ fun _ => rfl

end Draining

theorem lock_pendingError (k : SockInst) (t : MtRequestType) :
    (mwsocketPendingError k t).2.lock = k.lock := by
  rw [mwsocketPendingError]
  split_ifs <;> rfl

theorem draining_step {e : SocketEvent} {s s' : Sockets} (hG : s.ReleasesOnce e)
    (hs : s.step e = some s') (h : Draining s) : Draining s' := by
  cases step_inv hs with
  | create file => exact (h.create file).same rfl rfl rfl rfl
  | accepted fd =>
      have hnew := (h.create true).modifySock s.table.nextSock
        (f := fun k => { k with remoteFd := fd, mwflags := k.mwflags ||| MwFlags.user }) fun _ => rfl
      exact hnew.same rfl rfl rfl rfl
  | user => exact h.modifySock _ fun _ => rfl
  | replica => exact (h.create true).same rfl rfl rfl rfl
  | join =>
      rename_i p q _ _ _ _ _
      have hmod := h.modifySock q (f := fun k => { k with usersock := p }) fun _ => rfl
      exact ⟨⟨hmod.numbered.refs, hmod.numbered.below⟩, hmod.ids, hmod.nonzero, hmod.listed,
        hmod.placed, hmod.sent, hmod.single, hmod.own, hmod.live, hmod.drained, hmod.orderly⟩
  | built => exact h.same rfl rfl rfl rfl
  | unbuilt => exact (h.letGo _).same rfl rfl rfl rfl
  | found => exact h
  | spoilt => exact (h.letGo _).same rfl rfl rfl rfl
  | request hsock hc => exact h.request hsock hc hG
  | send ha hsend => exact h.send (Globals.reqAt_mem ha).1 (fun hl => hG hl _ ha) hsend
  | destroy ha =>
      obtain ⟨hmem, rfl⟩ := Globals.reqAt_mem ha
      exact h.destroy hmem hG
  | respond hm => exact h.respond _ hm (hG _ hm)
  | check r type => exact h.modifySock r fun k => lock_pendingError k type
  | process r exiting forknoexec => exact h.modifySock r fun _ => rfl
  | poll => exact h.same rfl rfl rfl rfl
  | visit => exact (h.visit _ _).same rfl rfl rfl rfl
  | xen => exact h.same rfl rfl rfl rfl
  | reapRequest ha =>
      obtain ⟨hmem, rfl⟩ := Globals.reqAt_mem ha
      exact h.reapRequest hmem (hG _ ha).1 (hG _ ha).2
  | reapSocket hr ht => exact (h.reapSocket hr ht hG).same rfl rfl rfl rfl
  | release hfile =>
      rename_i r
      have hmod := h.modifySock r (f := fun k => { k with mwflags := k.mwflags ||| MwFlags.released })
        fun _ => rfl
      exact hmod.same rfl rfl rfl rfl
  | releaseSibling =>
      rename_i p q _ _ _ _
      have hmod := h.modifySock q (f := fun k => { k with mwflags := k.mwflags ||| MwFlags.released })
        fun _ => rfl
      exact hmod.letGo q
  | releaseSelf => exact (h.letGo _).same rfl rfl rfl rfl

/-! ## The claim of the lock -/

/-- No close overtakes a request it waits for unless it gives up, and the
readers of each lock are the requests in flight that a close waits for. -/
structure ClosesOrdered (s : Sockets) : Prop where
  published : Orderly s.log
  readers : ∀ r, (s.sock r).closeReaders = (s.waiting r).length

theorem Draining.closesOrdered {s : Sockets} (h : Draining s) : ClosesOrdered s where
  published := h.orderly
  readers r := (h.drained r).readers.trans (List.length_map ..)

theorem draining_init (counter : MtId) : Draining (sockets counter).init where
  numbered := ⟨List.nodup_nil, fun _ h => absurd h List.not_mem_nil⟩
  ids := List.nodup_nil
  nonzero _ h := absurd h List.not_mem_nil
  listed _ h := absurd h List.not_mem_nil
  placed _ h := absurd h List.not_mem_nil
  sent _ h := absurd h List.not_mem_nil
  single := List.nodup_nil
  own _ h := absurd h List.not_mem_nil
  live _ h := absurd h List.not_mem_nil
  drained _ := ⟨rfl, fun h => absurd rfl h, fun _ => .inl rfl⟩
  orderly past p hpre := absurd (List.prefix_nil.mp hpre) (by simp)

end Sockets

/-- In every state of a run in which each request that a close waits for gives
the lock back once, the last to enter being the last to leave, closes are
ordered. -/
theorem closes_ordered (counter : MtId) (es : List SocketEvent)
    (hG : (sockets counter).Guarded Sockets.ReleasesOnce es) (s : Sockets)
    (hrun : (sockets counter).run es = some s) : s.ClosesOrdered := by
  have h : s.Draining :=
    (sockets counter).guarded_invariant (Sockets.draining_init counter)
      (fun _ _ _ hG hs h => Sockets.draining_step hG hs h) hG hrun
  exact h.closesOrdered

def sendOne : MtRequest :=
  { type := .socketSend, size := mtRequestSocketSendSize + 1, bytes := [0x61] }

def sentOne : MtResponse := { sig := mtSignatureResponse, count := 1 }

/-- Two sends on a socket of INS 5, for whose responses no one waits. -/
def twoSends : List SocketEvent :=
  [.insFound insZero 5, .insReady insZero, .accepted (mwSocketCreate 5 7),
   .request 0 true false sendOne, .send 0 (.granted 0) false,
   .request 0 true false sendOne, .send 1 (.granted 0) false]

/-- A close of the socket that does not take the lock. -/
def closeNow : List SocketEvent :=
  [.request 0 false true { type := .socketClose, size := mtRequestBaseSize },
   .send 2 (.granted 0) false]

theorem closes_ordered_inTurn :
    ∃ s, (sockets 0).run (twoSends ++ [.respond 0 sentOne, .respond 0 sentOne] ++ closeNow) = some s ∧
      s.log.map Publication.unanswered = [0, 1, 0] ∧ s.ClosesOrdered := by
  have hG : (sockets 0).Guarded Sockets.ReleasesOnce
      (twoSends ++ [.respond 0 sentOne, .respond 0 sentOne] ++ closeNow) := by decide +kernel
  have hview : ((sockets 0).run (twoSends ++ [.respond 0 sentOne, .respond 0 sentOne] ++ closeNow)).map
      (fun s => s.log.map Publication.unanswered) = some [0, 1, 0] := by decide +kernel
  obtain ⟨s, hs, hlog⟩ := Option.map_eq_some_iff.mp hview
  exact ⟨s, hs, hlog, closes_ordered 0 _ hG s hs⟩

/-- The second send is answered first; the close goes out without a single
retry, while the first send is in flight. -/
theorem close_overtakes_send :
    ∃ s, (sockets 0).run (twoSends ++ [.respond 1 sentOne] ++ closeNow) = some s ∧
      ¬ s.ClosesOrdered := by
  have hview : ((sockets 0).run (twoSends ++ [.respond 1 sentOne] ++ closeNow)).map
      (fun s => s.log.map fun p => (p.message.request.type, p.unanswered, p.gaveUp)) =
        some [(.socketSend, 0, false), (.socketSend, 1, false), (.socketClose, 1, false)] := by
    decide +kernel
  obtain ⟨s, hs, hlog⟩ := Option.map_eq_some_iff.mp hview
  obtain ⟨p₀, rest, hlog₀, heq₀, hrest⟩ := List.map_eq_cons_iff.mp hlog
  obtain ⟨p₁, rest, rfl, heq₁, hrest⟩ := List.map_eq_cons_iff.mp hrest
  obtain ⟨p₂, rest, rfl, heq₂, hrest⟩ := List.map_eq_cons_iff.mp hrest
  obtain rfl := List.map_eq_nil_iff.mp hrest
  simp only [Prod.mk.injEq] at heq₀ heq₁ heq₂
  refine ⟨s, hs, fun h => ?_⟩
  rcases h.published [p₀, p₁] p₂ (by rw [hlog₀]; exact List.prefix_rfl) heq₂.1 with hnone | hup
  · rw [heq₂.2.1] at hnone
    cases hnone
  · obtain ⟨p, hp, -, hgave⟩ := hup
    have hnever : p.gaveUp = false := by
      simp only [List.cons_append, List.nil_append, List.mem_cons, List.not_mem_nil, or_false] at hp
      rcases hp with rfl | rfl | rfl
      · exact heq₀.2.2
      · exact heq₁.2.2
      · exact heq₂.2.2
    rw [hnever] at hgave
    cases hgave

end MagicWand.Kernel
