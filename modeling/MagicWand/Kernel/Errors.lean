import MagicWand.Kernel.Sockets
import MagicWand.Kernel.Views

/-!
# Errors of requests that no one waits for

The head of `mwcomms-socket.c` promises that an error in a response that is not
delivered is recorded in the socket instance and reported by the next read or
write. `mwsocket_pending_error` is the reporting half: it delivers
`pending_errno` and clears it. No function sets `pending_errno`, so there is
never anything to report.
-/

namespace MagicWand.Kernel

open Foundation

/-! ## Nothing is ever recorded -/

theorem bystander_pendingErrno : Bystander SockInst.pendingErrno where
  flags _ _ _ := rfl
  tally s resp := by
    simp only [SockInst.tallySend]
    split_ifs <;> rfl
  closed s resp := by
    rw [SockInst.noteRemoteClosed]
    split_ifs <;> rfl
  inbound _ _ _ := rfl
  attrib _ _ := rfl
  released s id resp := by
    rw [SockInst.releaseClose]
    split
    · split_ifs <;> rfl
    · rfl
  destroyed _ _ _ := rfl

namespace SockInst

theorem pendingErrno_recordSuccess (s : SockInst) (resp : MtResponse) :
    (s.recordSuccess resp).pendingErrno = s.pendingErrno := by
  rw [recordSuccess]
  split <;> rfl

theorem pendingErrno_preProcess (s : SockInst) (id : MtId) (req : MtRequest) (acquired : Bool) :
    (s.preProcess id req acquired).pendingErrno = s.pendingErrno := by
  have hprepare (s : SockInst) : (s.prepare req).pendingErrno = s.pendingErrno := by
    rw [prepare]
    split
    all_goals first | rfl | (split <;> rfl)
  have hclose (s : SockInst) (t : MtRequestType) :
      (s.acquireClose id t acquired).pendingErrno = s.pendingErrno := by
    rw [acquireClose]
    split_ifs <;> rfl
  rw [preProcess, hprepare, hclose]
  split
  · rfl
  · rfl

end SockInst

/-- With no error recorded, the check finds the remote side closed or nothing,
and changes nothing. -/
theorem pendingError_quiet {k : SockInst} (h : k.pendingErrno = 0) (t : MtRequestType) :
    mwsocketPendingError k t = (0, k) ∨
      mwsocketPendingError k t = (-mwErrorRemoteSurpriseClose, k) := by
  simp only [mwsocketPendingError, h]
  split_ifs with htype hclosed herrno
  · exact .inl rfl
  · exact .inr rfl
  · exact absurd rfl herrno
  · exact .inl rfl

namespace Globals

/-- No socket has an error to report. -/
def NoErrors (g : Globals) : Prop := ∀ x, g.view SockInst.pendingErrno x = 0

variable {g g' : Globals}

theorem NoErrors.congr (h : NoErrors g)
    (heq : ∀ x, g'.view SockInst.pendingErrno x = g.view SockInst.pendingErrno x) : NoErrors g' := by
  intro x
  rw [heq, h x]

/-- An update that sets no error. -/
theorem NoErrors.update (h : NoErrors g) {r : Nat} {k : SockInst}
    (heq : g'.socks = Function.update g.socks r k) (hk : k.pendingErrno = 0) : NoErrors g' := by
  intro x
  rw [view_update heq]
  split
  · exact hk
  · exact h x

theorem NoErrors.postproc (h : NoErrors g) (a : ActReq) (resp : MtResponse) :
    NoErrors (g.mwsocketPostprocNoContext a resp).1 :=
  h.congr (Table.view_postproc bystander_pendingErrno g a resp
    (.inr SockInst.pendingErrno_recordSuccess))

theorem NoErrors.destroy (h : NoErrors g) (a : ActReq) :
    NoErrors (g.mwsocketDestroyActiveRequest a) :=
  h.update rfl (h a.sockinst)

theorem NoErrors.consume (h : NoErrors g) (resp : MtResponse) :
    NoErrors (g.mwsocketConsumeResponse resp) := by
  rw [mwsocketConsumeResponse]
  split
  · exact h
  · rename_i a _
    have hpost := h.postproc a resp
    simp only
    split
    · exact hpost
    · rw [deliverOrDestroy]
      split
      · exact hpost.destroy _
      · exact hpost

theorem NoErrors.send (h : NoErrors g) (a : ActReq) (slot : Slot) (acquired : Bool) :
    NoErrors (g.mwsocketSendRequest a slot acquired).1 := by
  by_cases hprep : g.prepares a slot
  · intro x
    rw [view_send_prepared acquired hprep, SockInst.pendingErrno_preProcess]
    split
    · exact h a.sockinst
    · exact h x
  · exact h.congr (view_send_refused acquired hprep (fun _ _ _ => rfl) fun _ _ => rfl)

theorem NoErrors.create (h : NoErrors g) {sock ref : Nat} {fromUser deliver : Bool}
    {req : MtRequest} (hc : g.mwsocketCreateActiveRequest sock fromUser deliver req = some (g', ref)) :
    NoErrors g' := by
  rw [mwsocketCreateActiveRequest] at hc
  split at hc
  · obtain ⟨id, -, heq⟩ := Option.map_eq_some_iff.mp hc
    cases heq
    exact h.update rfl (h sock)
  · cases hc

end Globals

namespace Table

open Globals

variable {t : Table}

theorem noErrors_settle {g : Globals} (h : NoErrors g) (r : Nat) : NoErrors (t.settle r g).g :=
  h.congr (view_settle (fun _ _ _ => rfl) t r g)

theorem noErrors_setPollable (h : NoErrors t.g) (r : Nat) : NoErrors (t.setPollable r).g :=
  h.congr (view_setPollable (fun _ _ _ => rfl) t r)

theorem noErrors_put (h : NoErrors t.g) (r : Nat) : NoErrors (t.mwsocketPutSockinst r).g :=
  h.congr (view_put bystander_pendingErrno t r)

theorem noErrors_failover (h : NoErrors t.g) (r q : Nat) : NoErrors (t.failover r q).g := by
  intro x
  by_cases hx : x = r
  · -- The error that the user socket takes over from its sibling is 0 as well.
    subst hx
    rw [view_failover_self bystander_pendingErrno t x q fun _ => rfl]
    exact (view_takeOvers bystander_pendingErrno t x q _ q).trans (h q)
  · rw [view_failover_ne bystander_pendingErrno t hx]
    exact h x

theorem noErrors_reapSocket {t' : Table} {dead : List (BitVec 16)} {r : Nat}
    (hr : t.reapSocket dead r = some t') (h : NoErrors t.g) : NoErrors t'.g := by
  have hdead : NoErrors (t.markDead r).g := by
    have hoff : NoErrors (t.g.modifySock r fun s => { s with insAlive := false }) :=
      h.update rfl (h r)
    exact hoff.congr (view_clearPollable (fun _ _ _ => rfl) _ r)
  simp only [reapSocket] at hr
  split at hr
  · split at hr
    · cases hr
      exact noErrors_put hdead r
    · split at hr
      · cases hr
        exact noErrors_failover hdead r _
      · obtain ⟨b, -, rfl⟩ := Option.map_eq_some_iff.mp hr
        exact hdead.congr (view_failRequest bystander_pendingErrno _ b)
  · cases hr
    exact hdead

end Table

namespace Sockets

open Globals

theorem noErrors_create {s : Sockets} (h : NoErrors s.table.g) (pollable : Bool) :
    NoErrors (s.create pollable).table.g := by
  have hnew : NoErrors (s.table.g.modifySock s.table.nextSock fun _ =>
      { usersock := s.table.nextSock }) := h.update rfl rfl
  simp only [create, Table.mwsocketCreateSockinst]
  split
  · exact Table.noErrors_setPollable hnew _
  · exact hnew

theorem noErrors_send {s s' : Sockets} {a : ActReq} {slot : Slot} {acquired : Bool}
    (hs : s.send a slot acquired = some s') (h : NoErrors s.table.g) : NoErrors s'.table.g := by
  simp only [send] at hs
  split at hs
  · cases hs
  · split at hs
    · cases hs
      exact h.send a _ acquired
    · cases hs

theorem noErrors_visit {t : Table} (h : NoErrors t.g) (r : Nat) (items : List MtPollsetItem) :
    NoErrors (visit t r items).g := by
  have hoff : NoErrors (t.modifySock (t.sock r).usersock fun s => { s with pollEvents := 0 }).g :=
    h.update rfl (h _)
  simp only [visit]
  split
  · exact hoff
  · exact hoff.update rfl (hoff _)

theorem noErrors_step {s s' : Sockets} {e : SocketEvent} (hs : s.step e = some s')
    (h : NoErrors s.table.g) : NoErrors s'.table.g := by
  cases step_inv hs with
  | create file => exact noErrors_create h file
  | accepted fd =>
      have hnew := noErrors_create h true
      exact hnew.update rfl (hnew _)
  | user => exact h.update rfl (h _)
  | replica => exact noErrors_create h true
  | join => exact h.update rfl (h _)
  | built => exact h
  | unbuilt => exact Table.noErrors_put h _
  | found => exact h
  | spoilt => exact Table.noErrors_put h _
  | request _ hc => exact h.create hc
  | send _ hsend => exact noErrors_send hsend h
  | destroy => exact h.congr (Table.view_destroy bystander_pendingErrno _ _)
  | respond =>
      rw [Table.mwsocketConsumeResponse]
      split
      · exact h
      · exact Table.noErrors_settle (h.consume _) _
  | check r type =>
      refine h.update rfl ?_
      rcases pendingError_quiet (h r) type with heq | heq
      · exact (congrArg (fun x => x.2.pendingErrno) heq).trans (h r)
      · exact (congrArg (fun x => x.2.pendingErrno) heq).trans (h r)
  | process r exiting forknoexec => exact h.update rfl (h r)
  | poll => exact h
  | visit => exact noErrors_visit h _ _
  | xen => exact h
  | reapRequest => exact h.congr (Table.view_reapRequest bystander_pendingErrno _ _)
  | reapSocket _ ht => exact Table.noErrors_reapSocket ht h
  | release => exact h.update rfl (h _)
  | releaseSibling =>
      refine Table.noErrors_put ?_ _
      exact h.update rfl (h _)
  | releaseSelf => exact Table.noErrors_put h _

end Sockets

/-! ## The promise -/

/-- The next check fails with the error, and the one after it does not. -/
def ReportsOnce (k : SockInst) (t : MtRequestType) (err : Int) : Prop :=
  (mwsocketPendingError k t).1 = err ∧
    (mwsocketPendingError (mwsocketPendingError k t).2 t).1 ≠ err

/-- The response to the `k`-th request in flight is an error that no caller
waits for; the request was made on socket `r`. -/
def Unawaited (s : Sockets) (k : Nat) (resp : MtResponse) (r : Nat) : Prop :=
  ∃ m a, s.flight[k]? = some m ∧
    s.table.g.mwsocketFindActiveRequestById m.request.id = some a ∧
    a.deliverResponse = false ∧ a.sockinst = r ∧ resp.status < 0

theorem not_reportsOnce {k : SockInst} (h : k.pendingErrno = 0) (t : MtRequestType) {err : Int}
    (herr : err < 0) : ¬ ReportsOnce k t err := by
  rintro ⟨hfirst, hsecond⟩
  rcases pendingError_quiet h t with heq | heq
  · rw [heq] at hfirst
    omega
  · -- The remote side stays closed, so this error does not go away.
    apply hsecond
    rw [heq] at hfirst ⊢
    rw [heq]
    exact hfirst

/-- No error of a request whose caller does not wait is ever recorded, and no
read or write fails with it once, however the run goes on. -/
theorem unawaited_errors_never_reported (counter : MtId) (es : List SocketEvent) (s : Sockets)
    (hrun : (sockets counter).run es = some s) (k : Nat) (resp : MtResponse) (r : Nat)
    (herr : Unawaited s k resp r) (s' : Sockets) (hs : s.step (.respond k resp) = some s') :
    (s'.sock r).pendingErrno ≠ resp.status ∧
      ∀ es' s'', (sockets counter).runFrom s' es' = some s'' →
        ∀ t, ¬ ReportsOnce (s''.sock r) t resp.status := by
  obtain ⟨m, a, -, -, -, -, hstatus⟩ := herr
  have hs₀ : s.table.g.NoErrors :=
    (sockets counter).run_invariant (fun _ => rfl) (fun _ _ _ h hg => Sockets.noErrors_step h hg) hrun
  have hs₁ : s'.table.g.NoErrors := Sockets.noErrors_step hs hs₀
  constructor
  · intro heq
    have hzero : (s'.sock r).pendingErrno = 0 := hs₁ r
    omega
  · intro es' s'' hrest t
    have hs₂ : s''.table.g.NoErrors :=
      (sockets counter).guardedFrom_invariant (fun _ _ _ _ h hg => Sockets.noErrors_step h hg)
        ((sockets counter).guardedFrom_true es' s') hrest hs₁
    exact not_reportsOnce (hs₂ r) t hstatus

/-- A socket on INS 5, and a send on it that no one waits for. -/
def sendAndForget : List SocketEvent :=
  [.insFound insZero 5, .insReady insZero, .accepted (mwSocketCreate 5 7),
   .request 0 true false
     { type := .socketSend, size := mtRequestSocketSendSize + 1, bytes := [0x61] },
   .send 0 (.granted 0) false]

/-- The INS has no room for the bytes (`-EAGAIN`). -/
def noRoom : MtResponse := { status := -11, sig := mtSignatureResponse }

/-- The request in flight, the fate of its response and the state of the socket. -/
def sendAndForgetView (s : Sockets) : List MtId × Option (Bool × Nat) × Bool :=
  (s.flight.map fun m => m.request.id,
   (s.table.g.mwsocketFindActiveRequestById 1).map fun a => (a.deliverResponse, a.sockinst),
   (s.step (.respond 0 noRoom)).isSome)

theorem sendAndForget_run :
    ∃ s, (sockets 0).run sendAndForget = some s ∧ Unawaited s 0 noRoom 0 ∧
      ∃ s', s.step (.respond 0 noRoom) = some s' := by
  have hview : ((sockets 0).run sendAndForget).map sendAndForgetView =
      some ([1], some (false, 0), true) := by decide +kernel
  obtain ⟨s, hs, heq⟩ := Option.map_eq_some_iff.mp hview
  simp only [sendAndForgetView, Prod.mk.injEq] at heq
  obtain ⟨hflight, hfind, hstep⟩ := heq
  obtain ⟨a, ha, hfate⟩ := Option.map_eq_some_iff.mp hfind
  obtain ⟨m, hm, hid⟩ : ∃ m, s.flight = [m] ∧ m.request.id = 1 := by
    simpa [List.map_eq_cons_iff] using hflight
  refine ⟨s, hs, ⟨m, a, by simp [hm], by rw [hid, ha], ?_, ?_, by decide⟩,
    Option.isSome_iff_exists.mp hstep⟩
  · exact congrArg Prod.fst hfate
  · exact congrArg Prod.snd hfate

theorem unawaited_errors_never_reported_sendAndForget :
    ∃ s s', (sockets 0).run sendAndForget = some s ∧ Unawaited s 0 noRoom 0 ∧
      s.step (.respond 0 noRoom) = some s' ∧ (s'.sock 0).pendingErrno ≠ noRoom.status ∧
      ∀ t, ¬ ReportsOnce (s'.sock 0) t noRoom.status := by
  obtain ⟨s, hs, herr, s', hs'⟩ := sendAndForget_run
  have h := unawaited_errors_never_reported 0 sendAndForget s hs 0 noRoom 0 herr s' hs'
  exact ⟨s, s', hs, herr, hs', h.1, h.2 [] s' rfl⟩

/-- The promise at the head of `mwcomms-socket.c`: the error is recorded, and
the next read or write that is not exempt fails with it, once. -/
def ErrorsReported (counter : MtId) : Prop :=
  ∀ es s, (sockets counter).run es = some s → ∀ k resp r, Unawaited s k resp r →
    ∀ s', s.step (.respond k resp) = some s' →
      (s'.sock r).pendingErrno = resp.status ∧
        ∀ t, t ≠ .socketShutdown → t ≠ .socketClose → ReportsOnce (s'.sock r) t resp.status

theorem not_errorsReported : ¬ ErrorsReported 0 := by
  intro h
  obtain ⟨s, hs, herr, s', hs'⟩ := sendAndForget_run
  have hnone : (s'.sock 0).pendingErrno = 0 := by
    have hview : (((sockets 0).run sendAndForget).bind fun s =>
        (s.step (.respond 0 noRoom)).map fun s => (s.sock 0).pendingErrno) = some 0 := by
      decide +kernel
    rw [hs, Option.bind_some, hs', Option.map_some] at hview
    exact Option.some.inj hview
  have hclaimed := (h sendAndForget s hs 0 noRoom 0 herr s' hs').1
  rw [hnone] at hclaimed
  exact absurd hclaimed (by decide)

end MagicWand.Kernel
