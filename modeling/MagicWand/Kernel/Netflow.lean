import MagicWand.Kernel.Requests

/-!
# Byte totals of a socket

`tot_sent` and `tot_recv` of a socket instance, which the driver reports in
netflow, against the counts the INS put in the responses that were processed for
it. Only `mwsocket_postproc_no_context` changes the totals. It credits a Send
response with the count that the batch tally has already been added to, so a
response that closes a batch counts the earlier chunks once more.
-/

namespace MagicWand.Kernel

open Foundation

/-! ## What changes the totals -/

/-- Credit a response with status at least 0. -/
def NetflowInfo.credit (n : NetflowInfo) (resp : MtResponse) : NetflowInfo :=
  match resp.type with
  | .of .socketSend => { n with bytesOut := (n.bytesOut + resp.count) % 2 ^ 64 }
  | .of .socketRecv => { n with bytesIn := (n.bytesIn + resp.count) % 2 ^ 64 }
  | .of .socketRecvFrom => { n with bytesIn := (n.bytesIn + resp.count) % 2 ^ 64 }
  | _ => n

namespace SockInst

theorem netflow_recordSuccess (s : SockInst) (resp : MtResponse) :
    mwsocketPopulateNetflow (s.recordSuccess resp) = (mwsocketPopulateNetflow s).credit resp := by
  unfold recordSuccess NetflowInfo.credit
  rcases resp.type with _ | t
  · rfl
  · cases t <;> rfl

theorem netflow_releaseClose (s : SockInst) (id : MtId) (resp : MtResponse) :
    mwsocketPopulateNetflow (s.releaseClose id resp) = mwsocketPopulateNetflow s := by
  rw [releaseClose]
  split
  · split_ifs <;> rfl
  · rfl

theorem netflow_tallySend (s : SockInst) (resp : MtResponse) :
    mwsocketPopulateNetflow (s.tallySend resp).1 = mwsocketPopulateNetflow s := by
  rw [tallySend]
  split_ifs <;> rfl

theorem netflow_noteRemoteClosed (s : SockInst) (resp : MtResponse) :
    mwsocketPopulateNetflow (s.noteRemoteClosed resp) = mwsocketPopulateNetflow s := by
  rw [noteRemoteClosed]
  split_ifs <;> rfl

theorem netflow_prepare (s : SockInst) (req : MtRequest) :
    mwsocketPopulateNetflow (s.prepare req) = mwsocketPopulateNetflow s := by
  unfold prepare
  split
  · rfl
  · rfl
  · rfl
  · rfl
  · split_ifs <;> rfl
  · rfl

theorem netflow_acquireClose (s : SockInst) (id : MtId) (t : MtRequestType) (acquired : Bool) :
    mwsocketPopulateNetflow (s.acquireClose id t acquired) = mwsocketPopulateNetflow s := by
  rw [acquireClose]
  split_ifs <;> rfl

theorem netflow_preProcess (s : SockInst) (id : MtId) (req : MtRequest) (acquired : Bool) :
    mwsocketPopulateNetflow (s.preProcess id req acquired) = mwsocketPopulateNetflow s := by
  rw [preProcess, netflow_prepare, netflow_acquireClose]
  split <;> rfl

theorem netflow_absorb (s : SockInst) (id : MtId) (resp : MtResponse) :
    mwsocketPopulateNetflow (s.absorb id resp).1 = mwsocketPopulateNetflow s := by
  rw [absorb, netflow_noteRemoteClosed, netflow_tallySend, netflow_releaseClose]

theorem sendTally_releaseClose (s : SockInst) (id : MtId) (resp : MtResponse) :
    (s.releaseClose id resp).sendTally = s.sendTally := by
  rw [releaseClose]
  split
  · split_ifs <;> rfl
  · rfl

/-- A response that no tally is added to keeps its count. -/
theorem absorb_response {s : SockInst} {id : MtId} {resp : MtResponse} (hcount : resp.count < 2 ^ 16)
    (h : resp.type = .of .socketSend → resp.flags.has MtFlags.batchSendFini →
      s.sendTally % 2 ^ 16 = 0) : (s.absorb id resp).2 = resp := by
  rw [absorb, tallySend, sendTally_releaseClose]
  split
  · rename_i hsend
    split
    · rename_i hfini
      have htotal : (resp.count + s.sendTally) % 2 ^ 16 = resp.count := by
        have := h hsend hfini
        omega
      rw [htotal]
    · split <;> rfl
  · rfl

end SockInst

namespace Globals

/-- The totals of a socket. -/
def netflow (g : Globals) (r : Nat) : NetflowInfo := mwsocketPopulateNetflow (g.socks r)

/-- A change of one socket that keeps its totals. -/
theorem netflow_update {g g' : Globals} {r : Nat} {x : SockInst}
    (hsocks : g'.socks = Function.update g.socks r x)
    (hx : mwsocketPopulateNetflow x = mwsocketPopulateNetflow (g.socks r)) :
    g'.netflow = g.netflow := by
  funext k
  rw [netflow, netflow, hsocks]
  by_cases hk : k = r
  · subst hk
    rw [Function.update_self, hx]
  · rw [Function.update_of_ne hk]

theorem netflow_recordAttrib (g : Globals) (a : ActReq) (resp : MtResponse) :
    (g.recordAttrib a resp).netflow = g.netflow := by
  rw [recordAttrib]
  split
  · exact netflow_update rfl rfl
  · rfl

theorem netflow_queueInbound (g : Globals) (a : ActReq) (resp : MtResponse) :
    (g.queueInbound a resp).netflow = g.netflow := by
  let g₁ := g.modifySock a.sockinst fun s => { s with mwflags := s.mwflags &&& ~~~MwFlags.accept }
  have h₁ : g₁.netflow = g.netflow := netflow_update rfl rfl
  have h₂ : (g.queueInbound a resp).socks = Function.update g₁.socks _ _ := rfl
  exact (netflow_update h₂ rfl).trans h₁

theorem netflow_destroy (g : Globals) (a : ActReq) :
    (g.mwsocketDestroyActiveRequest a).netflow = g.netflow :=
  netflow_update rfl rfl

theorem netflow_clearPollable (g : Globals) (r : Nat) : (g.clearPollable r).netflow = g.netflow := by
  rw [clearPollable]
  split
  · exact netflow_update rfl rfl
  · rfl

theorem netflow_preProcess (g : Globals) (a : ActReq) (acquired : Bool) :
    (g.mwsocketPreProcessRequest a acquired).netflow = g.netflow :=
  netflow_update rfl (SockInst.netflow_preProcess _ _ _ _)

theorem netflow_send (g : Globals) (a : ActReq) (slot : Slot) (acquired : Bool) :
    (g.mwsocketSendRequest a slot acquired).1.netflow = g.netflow := by
  simp only [mwsocketSendRequest]
  split
  · rfl
  · split
    · exact netflow_clearPollable _ _
    · split
      · refine (netflow_clearPollable _ _).trans ?_
        exact netflow_update rfl rfl
      · exact netflow_preProcess _ _ _
      · exact netflow_preProcess _ _ _

theorem netflow_create {g g' : Globals} {sock ref : Nat} {fromUser deliver : Bool}
    {req : MtRequest} (h : g.mwsocketCreateActiveRequest sock fromUser deliver req = some (g', ref)) :
    g'.netflow = g.netflow := by
  rw [mwsocketCreateActiveRequest] at h
  split at h
  · obtain ⟨id, -, heq⟩ := Option.map_eq_some_iff.mp h
    cases heq
    exact netflow_update rfl rfl
  · cases h

/-- Post-processing credits the socket of the request, with the count as the
batch tally has left it. -/
theorem netflow_postproc (g : Globals) (a : ActReq) (resp : MtResponse) :
    (g.mwsocketPostprocNoContext a resp).1.netflow =
      if resp.status < 0 then g.netflow
      else Function.update g.netflow a.sockinst
        ((g.netflow a.sockinst).credit ((g.socks a.sockinst).absorb a.id resp).2) := by
  let resp' := ((g.socks a.sockinst).absorb a.id resp).2
  let g₁ := g.modifySock a.sockinst fun s => (s.absorb a.id resp).1
  let g₂ := if resp.type = .of .socketAccept then g₁.queueInbound a resp' else g₁
  have h₁ : g₁.netflow = g.netflow := by
    exact netflow_update rfl (SockInst.netflow_absorb _ _ _)
  have h₂ : g₂.netflow = g.netflow := by
    simp only [g₂]
    split
    · rw [netflow_queueInbound, h₁]
    · exact h₁
  rw [mwsocketPostprocNoContext]
  by_cases hstatus : resp.status < 0
  · rw [if_pos hstatus, if_pos hstatus]
    exact h₂
  · rw [if_neg hstatus, if_neg hstatus]
    refine (netflow_recordAttrib _ a resp').trans ?_
    funext k
    by_cases hk : k = a.sockinst
    · subst hk
      rw [Function.update_self, netflow, modifySock_socks_self, SockInst.netflow_recordSuccess]
      exact congrArg (fun n => NetflowInfo.credit n resp') (congrFun h₂ a.sockinst)
    · rw [Function.update_of_ne hk, netflow, modifySock_socks_ne _ _ hk]
      exact congrFun h₂ k

theorem netflow_deliverOrDestroy (g : Globals) (a : ActReq) (resp : MtResponse) :
    (g.deliverOrDestroy a resp).netflow = g.netflow := by
  rw [deliverOrDestroy]
  split
  · exact netflow_destroy g a
  · rfl

theorem netflow_consume {g : Globals} {resp : MtResponse} {a : ActReq}
    (h : g.mwsocketFindActiveRequestById resp.id = some a) :
    (g.mwsocketConsumeResponse resp).netflow = (g.mwsocketPostprocNoContext a resp).1.netflow := by
  rw [mwsocketConsumeResponse, h]
  simp only
  split
  · rfl
  · exact netflow_deliverOrDestroy _ _ _

end Globals

/-! ## The totals of a run -/

/-- The bytes a processed response reports sent on socket `r`. -/
def sentBy (r : Nat) (e : Nat × MtResponse) : Nat :=
  if e.1 = r ∧ e.2.type = .of .socketSend ∧ 0 ≤ e.2.status then e.2.count else 0

/-- The bytes a processed response reports received on socket `r`. -/
def recvBy (r : Nat) (e : Nat × MtResponse) : Nat :=
  if e.1 = r ∧ (e.2.type = .of .socketRecv ∨ e.2.type = .of .socketRecvFrom) ∧ 0 ≤ e.2.status
  then e.2.count else 0

namespace Driver

def reportedSent (s : Driver) (r : Nat) : Nat := (s.log.map (sentBy r)).sum

def reportedRecv (s : Driver) (r : Nat) : Nat := (s.log.map (recvBy r)).sum

/-- A response to be credited: a final response of a batch finds an empty tally
(modulo the width of the count), and no total wraps. -/
def creditable (k : SockInst) (resp : MtResponse) : Prop :=
  0 ≤ resp.status →
    (resp.type = .of .socketSend →
      (resp.flags.has MtFlags.batchSendFini → k.sendTally % 2 ^ 16 = 0) ∧
        k.totSent + resp.count < 2 ^ 64) ∧
    (resp.type = .of .socketRecv ∨ resp.type = .of .socketRecvFrom →
      k.totRecv + resp.count < 2 ^ 64)

instance (k : SockInst) (resp : MtResponse) : Decidable (creditable k resp) :=
  inferInstanceAs (Decidable (0 ≤ resp.status → _ ∧ _))

/-- The consumer takes only responses that it can credit. -/
def creditedOnce (s : Driver) : DriverEvent → Prop
  | .consume ins => ∀ ans ∈ (s.ring ins).head?,
      ∀ a ∈ s.g.mwsocketFindActiveRequestById ans.response.id,
        creditable (s.g.socks a.sockinst) ans.response
  | _ => True

instance (s : Driver) (e : DriverEvent) : Decidable (s.creditedOnce e) :=
  match e with
  | .consume ins => inferInstanceAs (Decidable (∀ ans ∈ (s.ring ins).head?, _))
  | .create _ _ _ _ => isTrue trivial
  | .send _ _ _ _ => isTrue trivial
  | .destroy _ => isTrue trivial
  | .answer _ _ _ => isTrue trivial
  | .process _ _ _ => isTrue trivial

/-- Totals and reports agree, and counts on the rings fit their field. -/
structure Accounted (s : Driver) : Prop where
  sent : ∀ r, (s.g.netflow r).bytesOut = s.reportedSent r
  recv : ∀ r, (s.g.netflow r).bytesIn = s.reportedRecv r
  width : ∀ ins, ∀ ans ∈ s.ring ins, ans.response.count < 2 ^ 16

/-- The credit of a response that keeps its count. -/
theorem credit_eq {n : NetflowInfo} {resp : MtResponse} {r : Nat} (hstatus : 0 ≤ resp.status)
    (hsent : resp.type = .of .socketSend → n.bytesOut + resp.count < 2 ^ 64)
    (hrecv : resp.type = .of .socketRecv ∨ resp.type = .of .socketRecvFrom →
      n.bytesIn + resp.count < 2 ^ 64) :
    (n.credit resp).bytesOut = n.bytesOut + sentBy r (r, resp) ∧
      (n.credit resp).bytesIn = n.bytesIn + recvBy r (r, resp) := by
  unfold NetflowInfo.credit sentBy recvBy
  rcases htype : resp.type with _ | t
  · simp
  · cases t <;> simp_all [Nat.mod_eq_of_lt]

theorem sentBy_ne {r r' : Nat} (resp : MtResponse) (h : r' ≠ r) : sentBy r (r', resp) = 0 := by
  simp [sentBy, h]

theorem recvBy_ne {r r' : Nat} (resp : MtResponse) (h : r' ≠ r) : recvBy r (r', resp) = 0 := by
  simp [recvBy, h]

theorem sentBy_failed {r : Nat} {e : Nat × MtResponse} (h : e.2.status < 0) : sentBy r e = 0 := by
  rw [sentBy, if_neg]
  rintro ⟨-, -, hstatus⟩
  omega

theorem recvBy_failed {r : Nat} {e : Nat × MtResponse} (h : e.2.status < 0) : recvBy r e = 0 := by
  rw [recvBy, if_neg]
  rintro ⟨-, -, hstatus⟩
  omega

/-- One processed response. -/
theorem netflow_consumed {g : Globals} {resp : MtResponse} {a : ActReq}
    (hfind : g.mwsocketFindActiveRequestById resp.id = some a) (hwidth : resp.count < 2 ^ 16)
    (hcred : creditable (g.socks a.sockinst) resp) (r : Nat) :
    ((g.mwsocketConsumeResponse resp).netflow r).bytesOut =
        (g.netflow r).bytesOut + sentBy r (a.sockinst, resp) ∧
      ((g.mwsocketConsumeResponse resp).netflow r).bytesIn =
        (g.netflow r).bytesIn + recvBy r (a.sockinst, resp) := by
  rw [Globals.netflow_consume hfind, Globals.netflow_postproc]
  by_cases hstatus : resp.status < 0
  · rw [if_pos hstatus, sentBy_failed hstatus, recvBy_failed hstatus]
    exact ⟨rfl, rfl⟩
  · have hok : 0 ≤ resp.status := Int.not_lt.mp hstatus
    obtain ⟨hsent, hrecv⟩ := hcred hok
    rw [if_neg hstatus, SockInst.absorb_response hwidth fun hsend => (hsent hsend).1]
    by_cases hr : a.sockinst = r
    · subst hr
      rw [Function.update_self]
      exact credit_eq hok (fun hsend => (hsent hsend).2) hrecv
    · rw [Function.update_of_ne (Ne.symm hr), sentBy_ne resp hr, recvBy_ne resp hr]
      exact ⟨rfl, rfl⟩

theorem accounted_init {socks : Nat → SockInst}
    (hfresh : ∀ r, (socks r).totSent = 0 ∧ (socks r).totRecv = 0) (counter : MtId) :
    Accounted (driver counter socks).init := by
  refine ⟨?_, ?_, ?_⟩
  · intro r
    exact (hfresh r).1
  · intro r
    exact (hfresh r).2
  · intro ins ans hans
    cases hans

/-- A step that processes no response. -/
theorem Accounted.of_same {s s' : Driver} (h : Accounted s) (hnet : s'.g.netflow = s.g.netflow)
    (hlog : s'.log = s.log) (hwidth : ∀ ins, ∀ ans ∈ s'.ring ins, ans.response.count < 2 ^ 16) :
    Accounted s' := by
  refine ⟨?_, ?_, hwidth⟩
  · intro r
    rw [hnet, h.sent r, reportedSent, reportedSent, hlog]
  · intro r
    rw [hnet, h.recv r, reportedRecv, reportedRecv, hlog]

/-- New contents for one ring. -/
theorem Accounted.width_update {s : Driver} (h : Accounted s) (ins : Fin maxInsCount)
    {answers : List Answer} (hnew : ∀ x ∈ answers, x.response.count < 2 ^ 16) :
    ∀ j, ∀ x ∈ Function.update s.ring ins answers j, x.response.count < 2 ^ 16 := by
  intro j x hx
  by_cases hj : j = ins
  · subst hj
    rw [Function.update_self] at hx
    exact hnew x hx
  · rw [Function.update_of_ne hj] at hx
    exact h.width j x hx

theorem Accounted.consume {s s' : Driver} {ins : Fin maxInsCount} (h : Accounted s)
    (hG : s.creditedOnce (.consume ins)) (hstep : driverStep s (.consume ins) = some s') :
    Accounted s' := by
  simp only [driverStep] at hstep
  split at hstep
  · cases hstep
  · rename_i ans rest hring
    cases hstep
    have hwidth := h.width_update ins fun x hx =>
      h.width ins x (hring ▸ List.mem_cons_of_mem ans hx)
    rcases hfind : s.g.mwsocketFindActiveRequestById ans.response.id with _ | a
    · refine h.of_same ?_ (by simp) hwidth
      rw [Globals.consume_dropped hfind]
    · have hcred : creditable (s.g.socks a.sockinst) ans.response :=
        hG ans (by rw [hring]; rfl) a hfind
      have hans : ans.response.count < 2 ^ 16 := h.width ins ans (hring ▸ List.mem_cons_self)
      have hnet := netflow_consumed hfind hans hcred
      refine ⟨?_, ?_, hwidth⟩
      · intro r
        rw [(hnet r).1, h.sent r]
        simp [reportedSent]
      · intro r
        rw [(hnet r).2, h.recv r]
        simp [reportedRecv]

theorem Accounted.step {s s' : Driver} {e : DriverEvent} (h : Accounted s)
    (hG : s.creditedOnce e) (hstep : driverStep s e = some s') : Accounted s' := by
  rcases e with ⟨sock, fromUser, deliver, req⟩ | ⟨ref, ins, slot, acquired⟩ | ref | ⟨ins, k, resp⟩ |
    ins | ⟨sock, exiting, forknoexec⟩
  · obtain ⟨⟨g', ref⟩, hr, rfl⟩ := Option.map_eq_some_iff.mp hstep
    exact h.of_same (Globals.netflow_create hr) rfl h.width
  · simp only [driverStep] at hstep
    split at hstep
    · cases hstep
    · split at hstep
      · cases hstep
        exact h.of_same (Globals.netflow_send _ _ _ _) rfl h.width
      · cases hstep
  · obtain ⟨a, ha, rfl⟩ := Option.map_eq_some_iff.mp hstep
    exact h.of_same (Globals.netflow_destroy _ _) rfl h.width
  · simp only [driverStep] at hstep
    split at hstep
    · cases hstep
    · split at hstep
      · rename_i hcount
        cases hstep
        refine h.of_same rfl rfl (h.width_update ins ?_)
        intro x hx
        rcases List.mem_append.mp hx with hx | hx
        · exact h.width ins x hx
        · rw [List.mem_singleton.mp hx]
          exact hcount
      · cases hstep
  · exact h.consume hG hstep
  · cases hstep
    exact h.of_same (Globals.netflow_update rfl rfl) rfl h.width

end Driver

/-- As long as every credited response keeps its count, the totals in netflow
are the sums of what the INS reported. -/
theorem netflow_totals_reported (counter : MtId) (socks : Nat → SockInst)
    (hfresh : ∀ r, (socks r).totSent = 0 ∧ (socks r).totRecv = 0) (es : List DriverEvent)
    (s : Driver) (hG : (driver counter socks).Guarded Driver.creditedOnce es)
    (hrun : (driver counter socks).run es = some s) :
    ∀ r, (s.g.socks r).totSent = s.reportedSent r ∧ (s.g.socks r).totRecv = s.reportedRecv r ∧
      mwsocketPopulateNetflow (s.g.socks r) = ⟨s.reportedRecv r, s.reportedSent r⟩ := by
  have h : s.Accounted :=
    (driver counter socks).guarded_invariant (Driver.accounted_init hfresh counter)
      (fun _ _ _ hG hstep h => h.step hG hstep) hG hrun
  intro r
  have hsent := h.sent r
  have hrecv := h.recv r
  refine ⟨hsent, hrecv, ?_⟩
  rw [← hsent, ← hrecv]
  rfl

/-! ## Runs -/

/-- One request on socket 0, from its creation to its response; `ref` is the
number of active requests created before. -/
def exchangeEvents (ref : Nat) (request : MtRequest) (response : MtResponse) : List DriverEvent :=
  [.create 0 true false request, .send ref insZero (.granted 0) false, .answer insZero 0 response,
   .consume insZero]

/-- A Send request with these flags, and the response of an INS that sent `count`
bytes. -/
def sendExchange (ref : Nat) (flags : MtFlags) (count : Nat) : List DriverEvent :=
  exchangeEvents ref { type := .socketSend, size := mtRequestSocketSendSize + count, flags := flags }
    { type := .of .socketSend, flags := flags, count := count }

/-- The totals of socket 0, and what the INS reported for it. -/
def totalsOf (s : Driver) : NetflowInfo × NetflowInfo :=
  (mwsocketPopulateNetflow (s.g.socks 0), ⟨s.reportedRecv 0, s.reportedSent 0⟩)

/-- A batch of one chunk, a send that is no batch, and a receive. -/
def singleChunks : List DriverEvent :=
  sendExchange 0 (batchFlags ||| MtFlags.pvmCallerAwaitsResponse) 5 ++ sendExchange 1 0 4 ++
    exchangeEvents 2 { type := .socketRecv, size := mtRequestSocketRecvSize }
      { type := .of .socketRecv, count := 3 }

theorem netflow_totals_reported_singleChunks :
    ∃ s, (driver 0 fun _ => {}).run singleChunks = some s ∧ totalsOf s = (⟨3, 9⟩, ⟨3, 9⟩) ∧
      ∀ r, (s.g.socks r).totSent = s.reportedSent r ∧ (s.g.socks r).totRecv = s.reportedRecv r ∧
        mwsocketPopulateNetflow (s.g.socks r) = ⟨s.reportedRecv r, s.reportedSent r⟩ := by
  have hsome : ((driver 0 fun _ => {}).run singleChunks).map totalsOf =
      some (⟨3, 9⟩, ⟨3, 9⟩) := by
    decide +kernel
  obtain ⟨s, hs, hview⟩ := Option.map_eq_some_iff.mp hsome
  exact ⟨s, hs, hview, netflow_totals_reported 0 (fun _ => {}) (fun _ => ⟨rfl, rfl⟩) singleChunks s
    (by decide +kernel) hs⟩

/-- A batch of two chunks, 1985 bytes and 15 bytes. -/
def twoChunks : List DriverEvent :=
  sendExchange 0 (MtFlags.batchSendInit ||| MtFlags.batchSend) 1985 ++
    sendExchange 1
      (MtFlags.batchSend ||| MtFlags.batchSendFini ||| MtFlags.pvmCallerAwaitsResponse) 15

/-- The first chunk is counted twice: 3985 bytes instead of 2000. -/
theorem netflow_counts_batch_twice :
    ((driver 0 fun _ => {}).run twoChunks).map totalsOf = some (⟨0, 3985⟩, ⟨0, 2000⟩) := by
  decide +kernel

end MagicWand.Kernel
