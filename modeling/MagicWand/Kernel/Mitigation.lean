import MagicWand.Kernel.References
import MagicWand.Kernel.Replicator
import MagicWand.Monitor.Feature

/-!
# Blocking an address

`mw_xen_for_each_live_ins` with `mwsocket_block_ip_mitigation`: for each INS
whose ring is ready the driver makes an instance, sends an AddrBlock request for
it and waits for the response. The callback is given the domain of the INS and
does not use it. The descriptor of its request is that of an instance that is on
no INS, so `mw_xen_get_next_request_slot` takes the ring that comes next. Nothing
puts the instance back.

The other threads of the driver rest meanwhile, but for the consumer of the
responses.
-/

namespace MagicWand.Kernel

open Foundation

/-- `MT_REQUEST_ADDR_BLOCK_SIZE`. -/
def mtRequestAddrBlockSize : Nat := mtRequestBaseSize + 4 + 16

/-- `strncpy`: what is left of the `n` bytes is filled up with zeros. -/
def strncpy (src : List Byte) (n : Nat) : List Byte :=
  let s := (src.take n).takeWhile fun b => b ≠ 0
  s ++ List.replicate (n - s.length) 0

def addrBlockRequest (feat : Monitor.MwFeatureRequest) : MtRequest where
  type := .addrBlock
  size := mtRequestAddrBlockSize
  sockfd := mtInvalidSocketFd
  block := feat.val.v32
  addr := strncpy feat.ident.a 16

/-- What comes of the call for one INS: there is no memory for the instance, or
none for its active request, or the request is sent; then what the ring gives,
and the response if it comes before the wait ends. -/
inductive Outcome where
  | noInstance
  | noRequest
  | sent (slot : Globals.Slot) (response : Option { resp : MtResponse // resp.count < 2 ^ 16 })

namespace Sockets

/-! ## The functions of the driver -/

/-- The rest of `mwsocket_send_message`, once the request has been published as
the `k`-th in flight: its response is consumed, and its active request destroyed. -/
def answered (s : Sockets) (ref k : Nat) (resp : MtResponse) : Option Sockets :=
  (s.step (.respond k resp)).bind fun s => s.step (.destroy ref)

/-- `mwsocket_block_ip_mitigation`. -/
def mwsocketBlockIpMitigation (s : Sockets) (feat : Monitor.MwFeatureRequest) :
    Outcome → Option Sockets
  | .noInstance => some s
  | .noRequest => s.step (.create false)
  | .sent slot response =>
      (s.step (.create false)).bind fun s₁ =>
        (s₁.step (.request s.table.nextSock false true (addrBlockRequest feat))).bind fun s₂ =>
          (s₂.step (.send s.table.g.nextRef slot false)).bind fun s₃ =>
            match slot, response with
            | .granted 0, some resp =>
                if s.flight.length < s₃.flight.length then
                  s₃.answered s.table.g.nextRef s.flight.length resp
                else some s₃
            | _, _ => some s₃

/-- `mw_xen_for_each_live_ins` with this callback, for the INSs in the list. -/
def blockOnLiveIns (feat : Monitor.MwFeatureRequest) (outcome : Fin maxInsCount → Outcome) :
    List (Fin maxInsCount) → Sockets → Option Sockets
  | [], s => some s
  | i :: rest, s =>
      (if (s.xen.ins i).isRingReady then s.mwsocketBlockIpMitigation feat (outcome i) else some s).bind
        (blockOnLiveIns feat outcome rest)

def blockAddress (s : Sockets) (feat : Monitor.MwFeatureRequest)
    (outcome : Fin maxInsCount → Outcome) : Option Sockets :=
  blockOnLiveIns feat outcome (List.finRange maxInsCount) s

/-! ## What the claim is about -/

/-- The requests to block the address that were put on the ring of a domain
between two states. -/
def blocksSent (s s' : Sockets) (feat : Monitor.MwFeatureRequest) (domid : BitVec 16) :
    List Publication :=
  (s'.log.drop s.log.length).filter fun p =>
    decide (p.message.domid = domid ∧ p.message.request.type = .addrBlock ∧
      p.message.request.block = feat.val.v32 ∧
      p.message.request.addr = strncpy feat.ident.a 16)

/-- The ring of each live INS gets the request once. -/
def ReachesEach (s s' : Sockets) (feat : Monitor.MwFeatureRequest) : Prop :=
  ∀ i, (s.xen.ins i).isRingReady = true → (blocksSent s s' feat (s.xen.ins i).domid).length = 1

/-- No instance and no active request is left that was not there before. -/
def LeavesNothing (s s' : Sockets) : Prop :=
  (∀ q ∈ s'.table.sockinsts, q < s.table.nextSock) ∧
    ∀ a ∈ s'.table.g.activeRequests, a.ref < s.table.g.nextRef

/-! ## Instances and requests that are known -/

/-- Instances, and those that active requests belong to, have been created. -/
structure Placed (s : Sockets) : Prop where
  numbered : s.table.Numbered
  listed : ∀ r ∈ s.table.sockinsts, r < s.table.nextSock
  placed : ∀ x ∈ s.table.g.holds, x.2.2 < s.table.nextSock
  sent : ∀ ref ∈ s.sent, ref < s.table.g.nextRef

namespace Placed

variable {s s' : Sockets}

/-- A step that creates nothing. -/
theorem move (h : Placed s) (hthin : s.table.Thins s'.table) (hshrink : s.table.Shrinks s'.table)
    (hholds : ∀ x ∈ s'.table.g.holds, x ∈ s.table.g.holds ∨ x.2.2 ∈ s.table.sockinsts)
    (hsent : ∀ ref ∈ s'.sent, ref < s.table.g.nextRef) : Placed s' where
  numbered := h.numbered.thins hthin
  listed r hr := hshrink.1 ▸ h.listed r (hshrink.sockinsts.subset hr)
  placed x hx := by
    rw [hshrink.1]
    exact (hholds x hx).elim (h.placed x) (h.listed x.2.2)
  sent ref href := hthin.nextRef ▸ hsent ref href

/-- A step that leaves the lists and the active requests as they are. -/
theorem keep (h : Placed s) (hkeys : s'.table.g.keys = s.table.g.keys)
    (hnext : s'.table.g.nextRef = s.table.g.nextRef)
    (hholds : s'.table.g.holds = s.table.g.holds)
    (hlisted : s'.table.sockinsts = s.table.sockinsts) (hsock : s'.table.nextSock = s.table.nextSock)
    (hsent : s'.sent = s.sent) : Placed s' where
  numbered := h.numbered.thins (.of_eq hkeys hnext)
  listed r hr := hsock ▸ h.listed r (hlisted ▸ hr)
  placed x hx := hsock ▸ h.placed x (hholds ▸ hx)
  sent ref href := hnext ▸ h.sent ref (hsent ▸ href)

theorem letGo (h : Placed s) (r : Nat) : Placed (s.letGo r) := by
  have hholds := Table.holds_put s.table r
  exact h.move (Table.thins_put s.table r) (Table.shrinks_settle s.table r _)
    (fun x hx => .inl (hholds ▸ hx)) h.sent

theorem create (h : Placed s) (pollable : Bool) : Placed (s.create pollable) := by
  obtain ⟨hnext, -, hthin⟩ := Table.create_spec s.table pollable
  obtain ⟨hholds, hlisted⟩ := Table.create_lists s.table pollable
  refine ⟨h.numbered.thins hthin, fun r hr => ?_, fun x hx => ?_, fun ref href => ?_⟩
  · change r < (s.table.mwsocketCreateSockinst pollable).nextSock
    rw [hnext]
    rcases List.mem_cons.mp (hlisted ▸ hr) with rfl | hold
    · exact Nat.lt_succ_self _
    · exact Nat.lt_succ_of_lt (h.listed r hold)
  · change x.2.2 < (s.table.mwsocketCreateSockinst pollable).nextSock
    rw [hnext]
    exact Nat.lt_succ_of_lt (h.placed x (hholds ▸ hx))
  · change ref < (s.table.mwsocketCreateSockinst pollable).g.nextRef
    rw [hthin.nextRef]
    exact h.sent ref href

theorem modifySock (h : Placed s) (r : Nat) (f : SockInst → SockInst) :
    Placed { s with table := s.table.modifySock r f } :=
  h.keep rfl rfl rfl rfl rfl rfl

theorem request (h : Placed s) {g : Globals} {sock ref : Nat} {fromUser deliver : Bool}
    {req : MtRequest} (hsock : sock ∈ s.table.sockinsts)
    (hc : s.table.g.mwsocketCreateActiveRequest sock fromUser deliver req = some (g, ref)) :
    Placed { s with table := { s.table with g := g } } := by
  obtain ⟨-, hnext, id, -, hkeys⟩ := Globals.create_spec hc
  obtain ⟨id', hnew⟩ := Globals.create_inv hc
  refine ⟨h.numbered.request hnext hkeys, h.listed, fun x hx => ?_, fun ref href => ?_⟩
  · have hholds : g.holds = (s.table.g.nextRef, id', sock) :: s.table.g.holds := by
      rw [Globals.holds, hnew.requests]
      rfl
    rcases List.mem_cons.mp (hholds ▸ hx) with rfl | hold
    · exact h.listed sock hsock
    · exact h.placed x hold
  · show ref < g.nextRef
    rw [hnext]
    exact Nat.lt_succ_of_lt (h.sent ref href)

theorem send (h : Placed s) {a : ActReq} {slot : Globals.Slot} {acquired : Bool}
    (ha : a ∈ s.table.g.activeRequests) (hs : s.send a slot acquired = some s') : Placed s' := by
  have hsent : ∀ ref ∈ s.sent ++ [a.ref], ref < s.table.g.nextRef := by
    intro ref href
    rcases List.mem_append.mp href with hold | hnew
    · exact h.sent ref hold
    · rw [List.mem_singleton.mp hnew]
      exact h.numbered.below _ (Globals.mem_keys ha)
  have hthin (slot' : Globals.Slot) : s.table.Thins
      { s.table with g := (s.table.g.mwsocketSendRequest a slot' acquired).1 } :=
    .of_eq (Globals.send_spec ..).1 (Driver.nextRef_send ..)
  have hholds (slot' : Globals.Slot) : ∀ x ∈ (s.table.g.mwsocketSendRequest a slot' acquired).1.holds,
      x ∈ s.table.g.holds ∨ x.2.2 ∈ s.table.sockinsts := by
    rw [Globals.holds_send]
    exact fun _ hx => .inl hx
  cases (send_inv hs).2.2 with
  | kept slot' => exact h.move (hthin slot') (.of_eq rfl rfl rfl) (hholds slot') hsent
  | published => exact h.move (hthin slot) (.of_eq rfl rfl rfl) (hholds slot) hsent

theorem respond (h : Placed s) (resp : MtResponse) (flight : List Message) :
    Placed { s with table := s.table.mwsocketConsumeResponse resp, flight := flight } := by
  refine h.move (Table.thins_consume _ _) (Table.shrinks_consume _ _) (fun x hx => .inl ?_) h.sent
  have hconsume := Table.consume_inv h.numbered.separate resp
  generalize s.table.mwsocketConsumeResponse resp = t at hconsume hx
  cases hconsume with
  | dropped => exact hx
  | delivered _ _ hholds =>
      rw [hholds, Globals.holds_postproc] at hx
      exact hx
  | destroyed =>
      rw [Table.holds_destroy, Globals.holds_postproc] at hx
      exact (List.mem_filter.mp hx).1

theorem destroy (h : Placed s) (a : ActReq) :
    Placed { s with table := s.table.mwsocketDestroyActiveRequest a } := by
  refine h.move (Table.thins_destroy _ _) (Table.shrinks_settle _ _ _) (fun x hx => .inl ?_) h.sent
  rw [Table.holds_destroy] at hx
  exact (List.mem_filter.mp hx).1

theorem reapRequest (h : Placed s) (a : ActReq) (flight : List Message) :
    Placed { s with table := s.table.reapRequest a, flight := flight } := by
  refine h.move (Table.thins_reapRequest _ _) (Table.shrinks_reapRequest _ _) (fun x hx => .inl ?_)
    h.sent
  have hdestroy : x ∈ (s.table.mwsocketDestroyActiveRequest a).g.holds → x ∈ s.table.g.holds := by
    rw [Table.holds_destroy]
    exact fun hx => (List.mem_filter.mp hx).1
  simp only [Table.reapRequest] at hx
  split_ifs at hx
  · exact hdestroy hx
  · rwa [Table.holds_failRequest] at hx
  · exact hx
  · exact hdestroy hx

theorem reapSocket (h : Placed s) {dead : List (BitVec 16)} {r : Nat} {t : Table}
    (hr : r ∈ s.table.sockinsts) (ht : s.table.reapSocket dead r = some t) :
    Placed { s with table := t } := by
  refine h.move (Table.thins_reapSocket ht) (Table.shrinks_reapSocket ht) (fun x hx => ?_) h.sent
  have hsep : (s.table.markDead r).Separate := by
    rw [Table.Separate, Table.holds_markDead]
    exact h.numbered.separate
  simp only [Table.reapSocket] at ht
  split at ht
  · split at ht
    · cases ht
      rw [Table.holds_put, Table.holds_markDead] at hx
      exact .inl hx
    · split at ht
      · rename_i q _
        cases ht
        rw [Table.holds_failover hsep, Table.holds_markDead] at hx
        obtain ⟨y, hy, htaken⟩ := List.mem_filterMap.mp hx
        rw [Table.taken] at htaken
        split at htaken
        · cases htaken
        · split at htaken
          · cases htaken
            exact .inr hr
          · cases htaken
            exact .inl hy
      · obtain ⟨b, -, rfl⟩ := Option.map_eq_some_iff.mp ht
        rw [Table.holds_failRequest, Table.holds_markDead] at hx
        exact .inl hx
  · cases ht
    rw [Table.holds_markDead] at hx
    exact .inl hx

theorem visit (h : Placed s) (r : Nat) (items : List MtPollsetItem) :
    Placed { s with table := visit s.table r items } := by
  simp only [Sockets.visit]
  have hoff := h.modifySock (s.table.sock r).usersock fun k => { k with pollEvents := 0 }
  split
  · exact hoff
  · exact hoff.modifySock _ _

end Placed

theorem placed_step {e : SocketEvent} {s s' : Sockets} (hs : s.step e = some s') (h : Placed s) :
    Placed s' := by
  cases step_inv hs with
  | create file => exact (h.create file).keep rfl rfl rfl rfl rfl rfl
  | accepted => exact (h.create true).keep rfl rfl rfl rfl rfl rfl
  | user => exact h.modifySock _ _
  | replica => exact (h.create true).keep rfl rfl rfl rfl rfl rfl
  | join => exact h.keep rfl rfl rfl rfl rfl rfl
  | built => exact h.keep rfl rfl rfl rfl rfl rfl
  | unbuilt => exact (h.letGo _).keep rfl rfl rfl rfl rfl rfl
  | found => exact h
  | spoilt => exact (h.letGo _).keep rfl rfl rfl rfl rfl rfl
  | request hsock hc => exact h.request hsock hc
  | send ha hsend => exact h.send (Globals.reqAt_mem ha).1 hsend
  | destroy => exact h.destroy _
  | respond => exact h.respond _ _
  | check => exact h.modifySock _ _
  | process => exact h.modifySock _ _
  | poll => exact h.keep rfl rfl rfl rfl rfl rfl
  | visit => exact (h.visit _ _).keep rfl rfl rfl rfl rfl rfl
  | xen => exact h.keep rfl rfl rfl rfl rfl rfl
  | reapRequest => exact h.reapRequest _ _
  | reapSocket hr ht => exact (h.reapSocket hr ht).keep rfl rfl rfl rfl rfl rfl
  | release => exact (h.modifySock _ _).keep rfl rfl rfl rfl rfl rfl
  | releaseSibling => exact (h.modifySock _ _).letGo _
  | releaseSelf => exact (h.letGo _).keep rfl rfl rfl rfl rfl rfl

theorem placed_reachable {counter : MtId} {es : List SocketEvent} {s : Sockets}
    (h : (sockets counter).run es = some s) : Placed s := by
  refine (sockets counter).run_invariant ?_ (fun _ _ _ hs h => placed_step hs h) h
  exact ⟨⟨List.nodup_nil, fun _ h => absurd h List.not_mem_nil⟩,
    fun _ h => absurd h List.not_mem_nil, fun _ h => absurd h List.not_mem_nil,
    fun _ h => absurd h List.not_mem_nil⟩

end Sockets

/-! ## An instance that is never put back -/

namespace Table

/-- Beside its active requests something else refers to the instance. -/
structure Leaks (t : Table) (q : Nat) : Prop where
  known : q < t.nextSock
  listed : q ∈ t.sockinsts
  count : (t.sock q).refct = t.held q + 1

namespace Leaks

variable {t : Table} {q : Nat}

theorem congr (h : t.Leaks q) {t' : Table} (hknown : t.nextSock ≤ t'.nextSock)
    (hlisted : q ∈ t'.sockinsts) (hcount : (t'.sock q).refct = (t.sock q).refct)
    (hheld : t'.held q = t.held q) : t'.Leaks q :=
  ⟨Nat.lt_of_lt_of_le h.known hknown, hlisted, by rw [hcount, hheld, h.count]⟩

theorem create (h : t.Leaks q) : (t.mwsocketCreateSockinst false).Leaks q := by
  have hne : q ≠ t.nextSock := Nat.ne_of_lt h.known
  refine h.congr (Nat.le_succ _) (List.mem_cons_of_mem _ h.listed) ?_ rfl
  show (Function.update t.g.socks t.nextSock _ q).refct = _
  rw [Function.update_of_ne hne]
  rfl

/-- The new instance, when no active request is on it yet. -/
theorem created (hnone : ∀ x ∈ t.g.holds, x.2.2 < t.nextSock) :
    (t.mwsocketCreateSockinst false).Leaks t.nextSock := by
  have hheld : (t.mwsocketCreateSockinst false).held t.nextSock = 0 := by
    show t.g.holds.countP (fun x => x.2.2 = t.nextSock) = 0
    refine List.countP_eq_zero.mpr fun x hx => ?_
    simpa using Nat.ne_of_lt (hnone x hx)
  refine ⟨Nat.lt_succ_self _, List.mem_cons_self, ?_⟩
  rw [hheld]
  show (Function.update t.g.socks t.nextSock _ t.nextSock).refct = _
  rw [Function.update_self]
  rfl

theorem request (h : t.Leaks q) {g : Globals} {sock ref : Nat} {fromUser deliver : Bool}
    {req : MtRequest}
    (hc : t.g.mwsocketCreateActiveRequest sock fromUser deliver req = some (g, ref)) :
    ({ t with g := g } : Table).Leaks q := by
  obtain ⟨id, hnew⟩ := Globals.create_inv hc
  have hheld : ({ t with g := g } : Table).held q = t.held q + if sock = q then 1 else 0 := by
    have hholds : g.holds = (t.g.nextRef, id, sock) :: t.g.holds := by
      rw [Globals.holds, hnew.requests]
      rfl
    simp only [held, hholds, List.countP_cons, decide_eq_true_eq]
  refine ⟨h.known, h.listed, ?_⟩
  rw [hheld]
  show (g.socks q).refct = _
  rw [hnew.socks, Function.update_apply]
  have hcount : (t.g.socks q).refct = t.held q + 1 := h.count
  by_cases hq : q = sock
  · rw [if_pos hq, if_pos hq.symm, ← hq]
    show (t.g.socks q).refct + 1 = _
    omega
  · rw [if_neg hq, if_neg (Ne.symm hq)]
    exact hcount

theorem send (h : t.Leaks q) (a : ActReq) (slot : Globals.Slot) (acquired : Bool) :
    ({ t with g := (t.g.mwsocketSendRequest a slot acquired).1 } : Table).Leaks q := by
  refine h.congr (Nat.le_refl _) h.listed (refct_send t.g a slot acquired q) ?_
  rw [held, Globals.holds_send, held]

theorem destroy (h : t.Leaks q) (hsep : t.Separate) {a : ActReq} (ha : a ∈ t.g.activeRequests) :
    (t.mwsocketDestroyActiveRequest a).Leaks q := by
  let g := t.g.mwsocketDestroyActiveRequest a
  have hheld := held_destroy hsep ha q
  have hview : ((t.mwsocketDestroyActiveRequest a).sock q).refct = (g.socks q).refct :=
    view_settle (F := SockInst.refct) (fun _ _ _ => rfl) t a.sockinst g q
  have hcount : (g.socks q).refct = (t.mwsocketDestroyActiveRequest a).held q + 1 := by
    have hone : (t.g.socks q).refct = t.held q + 1 := h.count
    show (Function.update t.g.socks a.sockinst _ q).refct = _
    rw [Function.update_apply]
    by_cases hq : q = a.sockinst
    · rw [if_pos hq, ← hq]
      rw [if_pos hq.symm] at hheld
      show (t.g.socks q).refct - 1 = _
      omega
    · rw [if_neg hq]
      rw [if_neg (Ne.symm hq)] at hheld
      omega
  refine ⟨?_, ?_, hview.trans hcount⟩
  · rw [mwsocketDestroyActiveRequest, (shrinks_settle t _ _).1]
    exact h.known
  · -- With a reference left the instance stays in the list.
    rw [mwsocketDestroyActiveRequest, settle]
    split
    · rename_i hlast
      refine List.mem_filter.mpr ⟨h.listed, decide_eq_true fun hq => ?_⟩
      have hzero : (g.socks q).refct = 0 := hq ▸ hlast.2
      omega
    · exact h.listed

theorem consume (h : t.Leaks q) (hsep : t.Separate) (resp : MtResponse) :
    (t.mwsocketConsumeResponse resp).Leaks q := by
  have hpost (a : ActReq) :
      ({ t with g := (t.g.mwsocketPostprocNoContext a resp).1 } : Table).Leaks q := by
    refine h.congr (Nat.le_refl _) h.listed (refct_postproc t.g a resp q) ?_
    rw [held, Globals.holds_postproc, held]
  have hconsume := consume_inv hsep resp
  generalize t.mwsocketConsumeResponse resp = t' at hconsume ⊢
  cases hconsume with
  | dropped => exact h
  | delivered _ hsocks hholds =>
      rename_i a _ _
      refine (hpost a).congr (Nat.le_refl _) h.listed ?_ ?_
      · exact congrArg (fun socks => (socks q).refct) hsocks
      · rw [held, hholds, held]
  | destroyed _ hb =>
      refine (hpost _).destroy ?_ hb
      rw [Separate, Globals.holds_postproc]
      exact hsep

end Leaks

end Table

/-! ## The steps of the mitigation -/

namespace Sockets

/-- What the mitigation and the consumer of its responses do. -/
def Mitigates : SocketEvent → Prop
  | .create file => file = false
  | .request .. => True
  | .send .. => True
  | .respond .. => True
  | .destroy _ => True
  | _ => False

theorem leaks_step {q : Nat} {e : SocketEvent} {s s' : Sockets} (he : Mitigates e)
    (hs : s.step e = some s') (h : Placed s ∧ s.table.Leaks q) : Placed s' ∧ s'.table.Leaks q := by
  refine ⟨placed_step hs h.1, ?_⟩
  have hsep := h.1.numbered.separate
  cases e with
  | create file =>
      cases he
      cases hs
      exact h.2.create
  | request sock fromUser deliver req =>
      simp only [step] at hs
      split at hs
      · obtain ⟨r, hc, rfl⟩ := Option.map_eq_some_iff.mp hs
        exact h.2.request hc
      · cases hs
  | send ref slot acquired =>
      obtain ⟨a, -, hsend⟩ := Option.bind_eq_some_iff.mp hs
      cases (send_inv hsend).2.2 with
      | kept slot' => exact h.2.send a slot' acquired
      | published => exact h.2.send a slot acquired
  | respond k resp =>
      simp only [step, respond] at hs
      split at hs
      · cases hs
      · split at hs
        · cases hs
          exact h.2.consume hsep _
        · cases hs
  | destroy ref =>
      obtain ⟨a, ha, rfl⟩ := Option.map_eq_some_iff.mp hs
      exact h.2.destroy hsep (Globals.reqAt_mem ha).1
  | _ => exact he.elim

theorem leaks_run {counter : MtId} {q : Nat} {es : List SocketEvent} {s s' : Sockets}
    (he : ∀ e ∈ es, Mitigates e) (hrun : (sockets counter).runFrom s es = some s')
    (h : Placed s ∧ s.table.Leaks q) : Placed s' ∧ s'.table.Leaks q :=
  (sockets counter).guardedFrom_invariant (fun _ _ _ he hs h => leaks_step he hs h)
    ((sockets counter).guardedFrom_of_mem s he) hrun h

/-- The call for one INS leaves everything as it is, or it creates an instance
and goes on. -/
theorem mitigation_run {feat : Monitor.MwFeatureRequest} {o : Outcome} {s s' : Sockets}
    (h : s.mwsocketBlockIpMitigation feat o = some s') :
    s' = s ∨ ∃ es, (∀ e ∈ es, Mitigates e) ∧
      ∀ counter, (sockets counter).runFrom (s.create false) es = some s' := by
  have hcreate : s.step (.create false) = some (s.create false) := rfl
  cases o with
  | noInstance =>
      cases h
      exact .inl rfl
  | noRequest =>
      cases h
      exact .inr ⟨[], fun _ h => absurd h List.not_mem_nil, fun _ => rfl⟩
  | sent slot response =>
      rw [mwsocketBlockIpMitigation, hcreate, Option.bind_some] at h
      obtain ⟨s₂, hrequest, h⟩ := Option.bind_eq_some_iff.mp h
      obtain ⟨s₃, hsend, h⟩ := Option.bind_eq_some_iff.mp h
      let es : List SocketEvent :=
        [.request s.table.nextSock false true (addrBlockRequest feat),
          .send s.table.g.nextRef slot false]
      have hrun (counter : MtId) : (sockets counter).runFrom (s.create false) es = some s₃ := by
        have hfirst : (sockets counter).step (s.create false)
            (.request s.table.nextSock false true (addrBlockRequest feat)) = some s₂ := hrequest
        have hsecond : (sockets counter).step s₂ (.send s.table.g.nextRef slot false) = some s₃ := hsend
        simp only [es, System.runFrom_cons, hfirst, hsecond, Option.bind_some, System.runFrom_nil]
      have hsent : ∀ e ∈ es, Mitigates e := by
        intro e he
        rcases List.mem_cons.mp he with rfl | he
        · trivial
        · rw [List.mem_singleton.mp he]
          trivial
      refine .inr ?_
      split at h
      · split at h
        · rename_i resp _ _ _
          obtain ⟨s₄, hrespond, hdestroy⟩ := Option.bind_eq_some_iff.mp h
          refine ⟨es ++ [.respond s.flight.length resp, .destroy s.table.g.nextRef], ?_,
            fun counter => ?_⟩
          · intro e he
            rcases List.mem_append.mp he with he | he
            · exact hsent e he
            · rcases List.mem_cons.mp he with rfl | he
              · trivial
              · rw [List.mem_singleton.mp he]
                trivial
          · have hthird : (sockets counter).step s₃ (.respond s.flight.length resp) = some s₄ := hrespond
            have hfourth : (sockets counter).step s₄ (.destroy s.table.g.nextRef) = some s' := hdestroy
            rw [System.runFrom_append, hrun, Option.bind_some]
            simp only [System.runFrom_cons, hthird, hfourth, Option.bind_some, System.runFrom_nil]
        · cases h
          exact ⟨es, hsent, hrun⟩
      · cases h
        exact ⟨es, hsent, hrun⟩

/-- If anything happens at all, the first instance stays. -/
theorem blockOnLiveIns_leaks {feat : Monitor.MwFeatureRequest}
    {outcome : Fin maxInsCount → Outcome} {l : List (Fin maxInsCount)} {s s' : Sockets} {q : Nat}
    (h : blockOnLiveIns feat outcome l s = some s') (hs : Placed s ∧ s.table.Leaks q) :
    Placed s' ∧ s'.table.Leaks q := by
  induction l generalizing s with
  | nil =>
      cases h
      exact hs
  | cons i l ih =>
      obtain ⟨s₁, hcall, hrest⟩ := Option.bind_eq_some_iff.mp h
      refine ih hrest ?_
      split at hcall
      · rcases mitigation_run hcall with rfl | ⟨es, he, hrun⟩
        · exact hs
        · exact leaks_run he (hrun 0) (leaks_step (e := .create false) rfl rfl hs)
      · cases hcall
        exact hs

theorem blockOnLiveIns_cases {feat : Monitor.MwFeatureRequest}
    {outcome : Fin maxInsCount → Outcome} {l : List (Fin maxInsCount)} {s s' : Sockets}
    (h : blockOnLiveIns feat outcome l s = some s') (hs : Placed s) :
    s' = s ∨ Placed s' ∧ s'.table.Leaks s.table.nextSock := by
  induction l generalizing s with
  | nil =>
      cases h
      exact .inl rfl
  | cons i l ih =>
      obtain ⟨s₁, hcall, hrest⟩ := Option.bind_eq_some_iff.mp h
      split at hcall
      · rcases mitigation_run hcall with rfl | ⟨es, he, hrun⟩
        · exact ih hrest hs
        · refine .inr (blockOnLiveIns_leaks hrest (leaks_run he (hrun 0) ?_))
          exact ⟨hs.create false, Table.Leaks.created hs.placed⟩
      · cases hcall
        exact ih hrest hs

theorem blockOnLiveIns_none (feat : Monitor.MwFeatureRequest) (outcome : Fin maxInsCount → Outcome)
    {s : Sockets} (hnone : ∀ i, (s.xen.ins i).isRingReady = false) (l : List (Fin maxInsCount)) :
    blockOnLiveIns feat outcome l s = some s := by
  induction l with
  | nil => rfl
  | cons i l ih =>
      rw [blockOnLiveIns, hnone i, if_neg Bool.false_ne_true, Option.bind_some, ih]

/-- Responses add nothing. -/
theorem leavesNothing_responses {counter : MtId} {s s' : Sockets} (hs : Placed s)
    {late : List (Nat × MtResponse)}
    (h : (sockets counter).runFrom s (late.map fun r => .respond r.1 r.2) = some s') :
    LeavesNothing s s' := by
  let Few (s' : Sockets) : Prop := (∀ q ∈ s'.table.sockinsts, q < s.table.nextSock) ∧
    ∀ k ∈ s'.table.g.keys, k.1 < s.table.g.nextRef
  have hstep : ∀ t e t', (∃ k resp, e = SocketEvent.respond k resp) →
      (sockets counter).step t e = some t' → Few t → Few t' := by
    rintro t e t' ⟨k, resp, rfl⟩ ht hfew
    have ht' : t.respond k resp = some t' := ht
    simp only [respond] at ht'
    split at ht'
    · cases ht'
    · split at ht'
      · cases ht'
        exact ⟨fun q hq => hfew.1 q ((Table.shrinks_consume _ _).sockinsts.subset hq),
          fun k hk => hfew.2 k ((Table.thins_consume _ _).keys.subset hk)⟩
      · cases ht'
  have hresponds : ∀ e ∈ late.map fun r => SocketEvent.respond r.1 r.2,
      ∃ k resp, e = SocketEvent.respond k resp := by
    intro e he
    obtain ⟨r, -, rfl⟩ := List.mem_map.mp he
    exact ⟨r.1, r.2, rfl⟩
  have hfew : Few s' := (sockets counter).guardedFrom_invariant hstep
    ((sockets counter).guardedFrom_of_mem s hresponds) h ⟨hs.listed, hs.numbered.below⟩
  exact ⟨hfew.1, fun a ha => hfew.2 _ (Globals.mem_keys ha)⟩

/-! ## The mitigation returns -/

theorem send_returns {s : Sockets} {a : ActReq} (slot : Globals.Slot) {acquired : Bool}
    (hnew : a.ref ∉ s.sent)
    (hfree : closeLockFree (s.sock a.sockinst) a.request.type acquired = true) :
    ∃ s', s.send a slot acquired = some s' := by
  rw [send, if_neg hnew, if_pos hfree]
  exact ⟨_, rfl⟩

/-- The consumer finds the request that the mitigation waits with. -/
theorem answered_returns {s s' : Sockets} {a : ActReq} {slot : Globals.Slot} {resp : MtResponse}
    (hawaited : Replication.Awaited s.table.g a.ref a.id) (htype : a.request.type = .addrBlock)
    (hs : s.send a slot false = some s') (hmore : s.flight.length < s'.flight.length)
    (hcount : resp.count < 2 ^ 16) : ∃ s'', s'.answered a.ref s.flight.length resp = some s'' := by
  have hacc : a.request.type ≠ .socketAccept := by
    rw [htype]
    decide
  cases (send_inv hs).2.2 with
  | kept => exact absurd hmore (Nat.lt_irrefl _)
  | published m x _ _ _ _ hreq =>
      have hget : (s.flight ++ [m])[s.flight.length]? = some m := by simp
      rcases Replication.send_cases slot hawaited hacc with hnone | ⟨n, rfl, hsent, hwaits⟩
      · rw [hnone] at hreq
        cases hreq
      · rw [hsent] at hreq
        have hm : m.request = s.table.g.stampRequest a := (Option.some.inj hreq).symm
        have hid : m.request.id = a.id := by
          rw [hm]
          rfl
        have hmtype : m.request.type = .addrBlock := by
          rw [hm]
          exact htype
        let g := (s.table.g.mwsocketSendRequest a (.granted n) false).1
        have hmacc : m.request.type ≠ .socketAccept := by
          rw [hmtype]
          decide
        obtain ⟨b, hb, -⟩ := @Replication.reqAt_consume { s.table with g := g } _ _
          { resp with id := m.request.id, type := .of m.request.type } hwaits hid
          fun heq => hmacc (MtResponseType.of.inj heq)
        simp only [answered, step, respond, hget, hcount, if_true, Option.bind_some]
        exact ⟨_, by rw [hb]; rfl⟩

/-- As many ids as the mitigation can need are free. -/
def Room (s : Sockets) (n : Nat) : Prop := s.table.g.keys.length + n < 2 ^ 64

theorem keys_send {s s' : Sockets} {a : ActReq} {slot : Globals.Slot} {acquired : Bool}
    (h : s.send a slot acquired = some s') : s'.table.g.keys = s.table.g.keys := by
  cases (send_inv h).2.2 with
  | kept => exact (Globals.send_spec ..).1
  | published => exact (Globals.send_spec ..).1

theorem keys_answered {s s' : Sockets} {ref k : Nat} {resp : MtResponse}
    (h : s.answered ref k resp = some s') : s'.table.g.keys.length ≤ s.table.g.keys.length := by
  obtain ⟨s₁, hrespond, hdestroy⟩ := Option.bind_eq_some_iff.mp h
  obtain ⟨a, -, rfl⟩ := Option.map_eq_some_iff.mp hdestroy
  refine (Table.thins_destroy s₁.table a).keys.length_le.trans ?_
  simp only [step, respond] at hrespond
  split at hrespond
  · cases hrespond
  · split at hrespond
    · cases hrespond
      exact (Table.thins_consume s.table _).keys.length_le
    · cases hrespond

/-- The call for one INS returns, and leaves at most its request behind. -/
theorem mitigation_returns {s : Sockets} {n : Nat} (feat : Monitor.MwFeatureRequest) (o : Outcome)
    (hs : Placed s) (hroom : Room s (n + 1)) :
    ∃ s', s.mwsocketBlockIpMitigation feat o = some s' ∧ Room s' n := by
  have hcreate : s.step (.create false) = some (s.create false) := rfl
  have hless : Room s n := Nat.lt_of_succ_lt hroom
  cases o with
  | noInstance => exact ⟨_, rfl, hless⟩
  | noRequest => exact ⟨_, rfl, hless⟩
  | sent slot response =>
      let q := s.table.nextSock
      have hone : s.table.g.activeRequests.length + 1 < 2 ^ 64 := by
        have hlen : s.table.g.keys.length = s.table.g.activeRequests.length := List.length_map _
        unfold Room at hroom
        omega
      have halive : ((s.create false).table.g.socks q).insAlive = true := by
        show (Function.update s.table.g.socks q _ q).insAlive = true
        rw [Function.update_self]
      obtain ⟨⟨g, ref⟩, hc, -⟩ := Replication.create_returns (g := (s.create false).table.g)
        hone halive (addrBlockRequest feat)
      obtain ⟨id, hnew⟩ := Globals.create_inv hc
      have href : ref = s.table.g.nextRef := hnew.ref_eq
      have hfront := hnew.reqAt
      rw [href] at hfront
      let a := Globals.newRequest s.table.g.nextRef id q false true (addrBlockRequest feat)
      let s₂ : Sockets := { s.create false with table := { (s.create false).table with g := g } }
      have hrequest : (s.create false).step (.request q false true (addrBlockRequest feat)) =
          some s₂ := by
        have hlisted : q ∈ (s.create false).table.sockinsts := List.mem_cons_self
        simp only [step, hlisted, if_true, hc, Option.map_some]
        rfl
      have hkeys : s₂.table.g.keys.length = s.table.g.keys.length + 1 := by
        show (g.activeRequests.map _).length = _
        rw [hnew.requests, List.length_map, List.length_cons]
        exact congrArg (· + 1) (List.length_map _).symm
      have hunsent : a.ref ∉ s₂.sent := fun hmem => Nat.lt_irrefl _ (hs.sent _ hmem)
      have hfree : closeLockFree (s₂.sock q) .addrBlock false = true := by
        rw [closeLockFree, if_neg (by decide), Bool.false_and, Bool.not_false]
      have hawaited : Replication.Awaited s₂.table.g a.ref a.id :=
        ⟨_, _, hnew.requests, rfl, rfl, rfl, rfl, rfl⟩
      obtain ⟨s₃, hsend⟩ := send_returns (s := s₂) (a := a) slot hunsent hfree
      have hroom₃ : Room s₃ n := by
        unfold Room at hroom ⊢
        rw [keys_send hsend, hkeys]
        omega
      have hstep : s₂.step (.send s.table.g.nextRef slot false) = some s₃ := by
        simp only [step]
        rw [show s₂.table.g.reqAt s.table.g.nextRef = some a from hfront]
        exact hsend
      rw [mwsocketBlockIpMitigation, hcreate, Option.bind_some, hrequest, Option.bind_some, hstep,
        Option.bind_some]
      split
      · split
        · rename_i resp hmore
          obtain ⟨s₄, hanswered⟩ := answered_returns hawaited rfl hsend hmore resp.2
          exact ⟨s₄, hanswered, Nat.lt_of_le_of_lt (Nat.add_le_add_right (keys_answered hanswered) n)
            hroom₃⟩
        · exact ⟨_, rfl, hroom₃⟩
      · exact ⟨_, rfl, hroom₃⟩

/-- A call keeps what is known of instances and requests. -/
theorem placed_mitigation {s s' : Sockets} {feat : Monitor.MwFeatureRequest} {o : Outcome}
    (h : s.mwsocketBlockIpMitigation feat o = some s') (hs : Placed s) : Placed s' := by
  rcases mitigation_run h with rfl | ⟨es, -, hrun⟩
  · exact hs
  · exact (sockets 0).guardedFrom_invariant (fun _ _ _ _ hs h => placed_step hs h)
      ((sockets 0).guardedFrom_true es _) (hrun 0) (hs.create false)

/-- The mitigation returns as long as an id is left for each of its requests. -/
theorem blockOnLiveIns_returns (feat : Monitor.MwFeatureRequest)
    (outcome : Fin maxInsCount → Outcome) (l : List (Fin maxInsCount)) {s : Sockets} (hs : Placed s)
    (hroom : Room s l.length) : ∃ s', blockOnLiveIns feat outcome l s = some s' := by
  induction l generalizing s with
  | nil => exact ⟨s, rfl⟩
  | cons i l ih =>
      rw [blockOnLiveIns]
      split
      · obtain ⟨s₁, hcall, hroom₁⟩ := mitigation_returns feat (outcome i) hs hroom
        rw [hcall, Option.bind_some]
        exact ih (placed_mitigation hcall hs) hroom₁
      · exact ih hs (Nat.lt_of_succ_lt hroom)

end Sockets

/-- The mitigation returns, and does what it should when there is no INS that it
could reach: otherwise no request goes out, or an instance stays for ever. -/
theorem address_blocked_iff (counter : MtId) (es : List SocketEvent) (s : Sockets)
    (feat : Monitor.MwFeatureRequest) (outcome : Fin maxInsCount → Outcome)
    (hs : (sockets counter).run es = some s) :
    (s.Room maxInsCount → ∃ s', s.blockAddress feat outcome = some s') ∧
      ∀ (s' : Sockets) (late : List (Nat × MtResponse)) (s'' : Sockets),
        s.blockAddress feat outcome = some s' →
        (sockets counter).runFrom s' (late.map fun r => .respond r.1 r.2) = some s'' →
          ((s.ReachesEach s' feat ∧ s.LeavesNothing s'') ↔
            ∀ i, (s.xen.ins i).isRingReady = false) := by
  have hplaced : s.Placed := Sockets.placed_reachable hs
  refine ⟨fun hroom => ?_, fun s' late s'' hblock hlate => ?_⟩
  · exact Sockets.blockOnLiveIns_returns feat outcome (List.finRange maxInsCount) hplaced hroom
  constructor
  · rintro ⟨hreaches, hnothing⟩ i
    rcases Sockets.blockOnLiveIns_cases hblock hplaced with rfl | hleaks
    · by_contra hready
      have hone := hreaches i (by simpa using hready)
      rw [Sockets.blocksSent, List.drop_length] at hone
      cases hone
    · have hresponds : ∀ e ∈ late.map fun r => SocketEvent.respond r.1 r.2, Sockets.Mitigates e := by
        intro e he
        obtain ⟨r, -, rfl⟩ := List.mem_map.mp he
        trivial
      have hleft := (Sockets.leaks_run hresponds hlate hleaks).2
      exact absurd (hnothing.1 _ hleft.listed) (Nat.lt_irrefl _)
  · intro hnone
    rw [Sockets.blockAddress, Sockets.blockOnLiveIns_none feat outcome hnone] at hblock
    cases hblock
    exact ⟨fun i hready => absurd hready (by rw [hnone i]; exact Bool.false_ne_true),
      Sockets.leavesNothing_responses hplaced hlate⟩

/-- A request to block 10.0.0.9. -/
def blockFeature : Monitor.MwFeatureRequest where
  sig := Monitor.mwMessageSigFeatureRequest
  id := 7
  flags := Monitor.mwFeatureFlagWrite
  name := Monitor.Feature.addrBlock.code
  val := .time 1 0
  ident := ⟨[2, 0, 0, 0] ++ [49, 48, 46, 48, 46, 48, 46, 57] ++ List.replicate 8 0, rfl⟩

/-- Every request is published and answered at once. -/
def prompt : Fin maxInsCount → Outcome := fun _ => .sent (.granted 0) (some ⟨{}, by decide⟩)

/-- One INS, whose ring is ready. -/
def oneIns : List SocketEvent := [.insFound insZero 5, .insReady insZero]

theorem address_blocked_iff_oneIns : ∃ s s',
    (sockets 0).run oneIns = some s ∧ s.blockAddress blockFeature prompt = some s' ∧
      ((s.ReachesEach s' blockFeature ∧ s.LeavesNothing s') ↔
        ∀ i, (s.xen.ins i).isRingReady = false) :=
  ⟨_, _, rfl, rfl, (address_blocked_iff 0 oneIns _ blockFeature prompt rfl).2 _ [] _ rfl rfl⟩

/-- Two INSs with a ready ring, each of which has been given a socket. -/
def twoInss : List SocketEvent :=
  [.insFound insZero 5, .insReady insZero, .insFound insOne 6, .insReady insOne,
   .create true, .create true,
   .request 0 false true
    { type := .socketCreate, size := mtRequestSocketCreateSize, sockfd := mtInvalidSocketFd },
   .send 0 (.granted 0) false,
   .request 1 false true
    { type := .socketCreate, size := mtRequestSocketCreateSize, sockfd := mtInvalidSocketFd },
   .send 1 (.granted 0) false]

/-- Both requests go to the first INS, and two instances are left. -/
theorem address_block_misdirected : ∃ s s',
    (sockets 0).run twoInss = some s ∧ s.blockAddress blockFeature prompt = some s' ∧
      (s.blocksSent s' blockFeature 5).length = 2 ∧ ¬ s.ReachesEach s' blockFeature ∧
        ¬ s.LeavesNothing s' := by
  refine ⟨_, _, rfl, rfl, rfl, fun hreaches => ?_, fun hnothing => ?_⟩
  · have hone := hreaches insOne rfl
    exact absurd hone (by decide)
  · have hlt := hnothing.1 2 (by decide)
    exact absurd hlt (by decide)

end MagicWand.Kernel
