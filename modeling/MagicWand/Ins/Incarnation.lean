import MagicWand.Ins.Responses

/-!
# Requests stay with their socket

A slot and the number of times it has been acquired name one incarnation of a
socket. A request belongs to the incarnation that `assign_work_to_thread` found
for it; it must be executed while the slot still is that incarnation, and on the
native descriptor of that incarnation.

The public descriptor of a slot does not change when the slot is recycled, so
the lookup cannot tell incarnations apart. What keeps them apart is that a slot
is idle when it is released. `release_worker_thread` only asserts this; it holds
when a close is processed with nothing queued for the slot and its worker idle.
-/

namespace MagicWand.Ins

open Foundation

/-! ## Handlers and descriptors -/

/-- Slot `v` keeps its public and its native descriptor. -/
def SameFds (n n' : NetState) (v : Nat) : Prop :=
  (n'.sock v).publicFd = (n.sock v).publicFd ∧ (n'.sock v).localFd = (n.sock v).localFd

theorem SameFds.rfl {n : NetState} {v : Nat} : SameFds n n v := ⟨Eq.refl _, Eq.refl _⟩

theorem SameFds.trans {n n' n'' : NetState} {v : Nat} (h : SameFds n n' v)
    (h' : SameFds n' n'' v) : SameFds n n'' v := ⟨h'.1.trans h.1, h'.2.trans h.2⟩

theorem sock_modifySock_self (n : NetState) (w : Nat) (f : Socket → Socket) :
    (n.modifySock w f).sock w = f (n.sock w) := by
  simp only [NetState.modifySock, if_true]

theorem sock_modifySock_ne (n : NetState) {w v : Nat} (f : Socket → Socket) (hv : v ≠ w) :
    (n.modifySock w f).sock v = n.sock v := by
  simp only [NetState.modifySock, hv, if_false]

/-- Changing other fields of a socket keeps the descriptors. -/
theorem sameFds_modifySock (n : NetState) (w : Nat) (f : Socket → Socket)
    (hf : ∀ x, (f x).publicFd = x.publicFd ∧ (f x).localFd = x.localFd) (v : Nat) :
    SameFds n (n.modifySock w f) v := by
  by_cases hv : v = w
  · subst hv
    rw [SameFds, sock_modifySock_self]
    exact hf _
  · rw [SameFds, sock_modifySock_ne n f hv]
    exact ⟨rfl, rfl⟩

theorem sameFds_recordPollEvents (visited : List (Nat × Option (BitVec 32))) (n : NetState)
    (v : Nat) : SameFds n (recordPollEvents visited n) v := by
  induction visited generalizing n with
  | nil => exact SameFds.rfl
  | cons x xs ih =>
      refine SameFds.trans (sameFds_modifySock n x.1 (fun w => { w with pollEvents := x.2.getD 0 })
        (fun _ => ⟨rfl, rfl⟩) v) ?_
      exact ih _

theorem sameFds_stateFlags (n : NetState) (slot : Nat) (f : MtFlags → MtFlags) (v : Nat) :
    SameFds n (n.modifySock slot fun w => { w with stateFlags := f w.stateFlags }) v :=
  sameFds_modifySock n slot (fun w => { w with stateFlags := f w.stateFlags })
    (fun _ => ⟨rfl, rfl⟩) v

theorem sameFds_recvFlags (slot : Nat) (e : RecvEnd) (n : NetState) (v : Nat) :
    SameFds n (recvFlags slot e n) v := by
  cases e with
  | remoteClosed _ => exact sameFds_stateFlags n slot (· ||| MtFlags.remoteClosed) v
  | nothing _ => exact sameFds_stateFlags n slot (fun _ => 0) v
  | failed _ => exact SameFds.rfl
  | data _ => exact SameFds.rfl
  | internal _ => exact SameFds.rfl

theorem sameFds_recvResult (req : MtRequest) (slot size : Nat) (e : RecvEnd) (n : NetState)
    (v : Nat) : SameFds n ((recvResult req slot size e).effect n) v := by
  cases e with
  | internal _ => exact SameFds.rfl
  | failed x => exact sameFds_recvFlags slot (.failed x) n v
  | data x => exact sameFds_recvFlags slot (.data x) n v
  | remoteClosed x => exact sameFds_recvFlags slot (.remoteClosed x) n v
  | nothing x => exact sameFds_recvFlags slot (.nothing x) n v

section Effects

variable {req : MtRequest} {r : HandlerResult} {os rest : List Outcome}

theorem bind_sameFds {slot : Nat} (h : xeNetBindSocket req slot os = .ok (r, rest))
    (n : NetState) (v : Nat) : SameFds n (r.effect n) v := by
  obtain ⟨o, mid, -, h⟩ := Script.ask_bind_ok h
  cases Script.pure_ok h
  show SameFds n (if o.ret < 0 then n else _) v
  split
  · exact SameFds.rfl
  · exact sameFds_modifySock n slot
      (fun w => { w with boundPortNum := ntohs (populateSockaddrIn req.sockaddr).sinPort })
      (fun _ => ⟨rfl, rfl⟩) v

theorem send_sameFds {slot : Nat} (h : xeNetSendSocket req slot os = .ok (r, rest))
    (n : NetState) (v : Nat) : SameFds n (r.effect n) v := by
  obtain ⟨e, mid, -, h⟩ := Script.bind_ok h
  cases Script.pure_ok h
  cases hf : e.failed with
  | none => exact SameFds.rfl
  | some err =>
      exact sameFds_stateFlags n slot
        (fun _ => if xeGetNegErrnoVal err = -mwEpipe then MtFlags.remoteClosed else 0) v

theorem accept_sameFds (h : xeNetAcceptSocket req os = .ok (r, rest)) (n : NetState) (v : Nat) :
    SameFds n (r.effect n) v := by
  have hinit : ∀ {o : Outcome} {os : List Outcome}, acceptInit req o os = .ok (r, rest) →
      SameFds n (r.effect n) v := by
    intro o os h
    simp only [acceptInit, xeNetInitSocket_eq] at h
    cases Script.pure_ok h
    exact SameFds.rfl
  obtain ⟨o, mid, -, ho⟩ := Script.ask_bind_ok h
  clear h
  split at ho
  · cases Script.pure_ok ho
    exact SameFds.rfl
  split at ho
  · obtain ⟨⟨rc, err⟩, mid', -, ho⟩ := Script.bind_ok ho
    by_cases hrc : rc = 0
    · subst hrc
      exact hinit ho
    · simp only [hrc, ne_eq, not_false_iff, if_true] at ho
      obtain ⟨_, _, -, ho⟩ := Script.ask_bind_ok ho
      cases Script.pure_ok ho
      exact SameFds.rfl
  · exact hinit ho

theorem pollset_sameFds {fds : List (Option Int)} {net : NetState}
    (h : xePollsetQuery req fds net os = .ok (r, rest)) (n : NetState) (v : Nat) :
    SameFds n (r.effect n) v := by
  obtain ⟨o, mid, -, h⟩ := Script.ask_bind_ok h
  split at h
  · cases Script.pure_ok h
    exact SameFds.rfl
  · cases Script.pure_ok h
    exact sameFds_recordPollEvents _ n v

/-- A successful create gives its slot the native descriptor; a failed one
leaves no public descriptor behind. Other slots are untouched. -/
theorem create_fds {clientId : BitVec 16} {slot : Nat}
    (h : xeNetCreateSocket clientId req slot os = .ok (r, rest)) (n : NetState) :
    (∀ v, v ≠ slot → SameFds n (r.effect n) v) ∧
      (mwSocketIsFd ((r.effect n).sock slot).publicFd = true → 0 ≤ r.response.status) := by
  obtain ⟨o, mid, -, h⟩ := Script.bind_ok h
  simp only [xeNetInitSocket_eq] at h
  cases Script.pure_ok h
  refine ⟨fun v hv => ?_, fun hfd => ?_⟩
  · simp only [SameFds, sock_modifySock_ne n _ hv, and_self]
  · simp only [sock_modifySock_self] at hfd
    by_cases hneg : o.ret < 0
    · rw [if_pos hneg] at hfd
      exact absurd hfd (by decide)
    · show 0 ≤ (if o.ret < 0 then xeGetNegErrnoVal o.errno else 0 : Int)
      rw [if_neg hneg]

theorem close_effect {slot : Nat} {w : Socket}
    (h : xeNetCloseSocket req slot w os = .ok (r, rest)) :
    r.effect = xeNetInternalCloseSocket slot := by
  unfold xeNetCloseSocket at h
  split at h
  · obtain ⟨o, mid, -, h⟩ := Script.ask_bind_ok h
    cases Script.pure_ok h
    rfl
  · cases Script.pure_ok h
    rfl

/-- A close takes the public descriptor of its slot away. -/
theorem close_fds {slot : Nat} {w : Socket} (h : xeNetCloseSocket req slot w os = .ok (r, rest))
    (n : NetState) :
    (∀ v, v ≠ slot → SameFds n (r.effect n) v) ∧
      ((r.effect n).sock slot).publicFd = mtInvalidSocketFd := by
  rw [close_effect h]
  refine ⟨fun v hv => ?_, ?_⟩
  · simp only [SameFds, xeNetInternalCloseSocket, sock_modifySock_ne n _ hv, and_self]
  · simp only [xeNetInternalCloseSocket, sock_modifySock_self, closedSocket]

end Effects

/-- No handler but those of create and close changes a descriptor. -/
theorem handler_sameFds {clientId : BitVec 16} {req : MtRequest} {worker : Option Nat}
    {g : Globals} {os rest : List Outcome} {r : HandlerResult} (hcreate : req.type ≠ .socketCreate)
    (hclose : req.type ≠ .socketClose) (h : handler clientId req worker g os = .ok (r, rest))
    (n : NetState) (v : Nat) : SameFds n (r.effect n) v := by
  unfold handler at h
  cases ht : req.type <;> rw [ht] at h <;> simp only [] at h
  case socketCreate => exact absurd ht hcreate
  case socketClose => exact absurd ht hclose
  case socketBind => exact bind_sameFds h n v
  case socketSend => exact send_sameFds h n v
  case socketAccept => exact accept_sameFds h n v
  case pollsetQuery => exact pollset_sameFds h n v
  case socketRecv =>
    obtain ⟨e, mid, -, h⟩ := Script.bind_ok h
    cases Script.pure_ok h
    exact sameFds_recvResult _ _ _ e n v
  case socketRecvFrom =>
    obtain ⟨e, mid, -, h⟩ := Script.bind_ok h
    cases Script.pure_ok h
    exact sameFds_recvResult _ _ _ e n v
  case addrBlock => cases Script.pure_ok h; exact SameFds.rfl
  case invalid => cases Script.pure_ok h; exact SameFds.rfl
  case unknown => cases Script.pure_ok h; exact SameFds.rfl
  all_goals
    obtain ⟨_, _, -, h⟩ := Script.bind_ok h
    cases Script.pure_ok h
    exact SameFds.rfl

/-! ## Slots -/

/-- Slot `v` stays the same incarnation with the same descriptors. -/
structure Keeps (g g' : Globals) (v : Nat) : Prop where
  inUse : (g'.workers v).inUse = (g.workers v).inUse
  gen : (g'.workers v).gen = (g.workers v).gen
  fds : SameFds g.net g'.net v
  natives : g'.natives v = g.natives v

namespace Keeps

variable {g g' : Globals} {v : Nat}

theorem refl (g : Globals) (v : Nat) : Keeps g g v := ⟨rfl, rfl, SameFds.rfl, rfl⟩

theorem trans {g'' : Globals} (h : Keeps g g' v) (h' : Keeps g' g'' v) : Keeps g g'' v :=
  ⟨h'.inUse.trans h.inUse, h'.gen.trans h.gen, h.fds.trans h'.fds, h'.natives.trans h.natives⟩

theorem modifyWorker (g : Globals) (w v : Nat) (f : ThreadItem → ThreadItem)
    (hf : (f (g.workers w)).inUse = (g.workers w).inUse ∧ (f (g.workers w)).gen = (g.workers w).gen) :
    Keeps g (g.modifyWorker w f) v := by
  by_cases hv : v = w
  · subst hv
    refine ⟨?_, ?_, SameFds.rfl, rfl⟩
    · simp only [Globals.modifyWorker, Function.update_self, hf.1]
    · simp only [Globals.modifyWorker, Function.update_self, hf.2]
  · refine ⟨?_, ?_, SameFds.rfl, rfl⟩
    · simp only [Globals.modifyWorker, Function.update_of_ne hv]
    · simp only [Globals.modifyWorker, Function.update_of_ne hv]

theorem modifyWorker_ne (g : Globals) {w v : Nat} (f : ThreadItem → ThreadItem) (hv : v ≠ w) :
    Keeps g (g.modifyWorker w f) v := by
  refine ⟨?_, ?_, SameFds.rfl, rfl⟩
  · simp only [Globals.modifyWorker, Function.update_of_ne hv]
  · simp only [Globals.modifyWorker, Function.update_of_ne hv]

theorem modifyBuf (g : Globals) (b : Nat) (f : BufferItem → BufferItem) (v : Nat) :
    Keeps g (g.modifyBuf b f) v := ⟨rfl, rfl, SameFds.rfl, rfl⟩

theorem releaseOplock (g : Globals) (w v : Nat) : Keeps g (g.releaseOplock w) v := by
  unfold Globals.releaseOplock
  split
  · exact modifyWorker g w v _ ⟨rfl, rfl⟩
  · exact refl g v

theorem unlockWorker (g : Globals) (worker : Option Nat) (v : Nat) :
    Keeps g (Ins.unlockWorker worker g) v := by
  cases worker with
  | none => exact refl g v
  | some w => exact releaseOplock g w v

theorem withNet {n : NetState} (h : SameFds g.net n v) : Keeps g { g with net := n } v :=
  ⟨rfl, rfl, h, rfl⟩

theorem updateListeningPorts (g : Globals) (v : Nat) : Keeps g g.updateListeningPorts v := by
  unfold Globals.updateListeningPorts
  split
  · exact ⟨rfl, rfl, SameFds.rfl, rfl⟩
  · exact refl g v

theorem setNative_ne (g : Globals) {w v : Nat} (gen : Nat) (fd : Int) (hv : v ≠ w) :
    Keeps g (g.setNative w gen fd) v :=
  ⟨rfl, rfl, SameFds.rfl, by simp only [Globals.setNative, Function.update_of_ne hv]⟩

theorem releaseWorkerThread_ne (g : Globals) {w v : Nat} (hv : v ≠ w) :
    Keeps g (g.releaseWorkerThread w) v := by
  refine (withNet ?_).trans (modifyWorker_ne _ _ hv)
  simp only [SameFds, sock_modifySock_ne _ _ hv, xeNetInternalCloseSocket, and_self]

end Keeps

/-- Slot `v` was free and has been given to an accepted connection. -/
structure Fresh (g g' : Globals) (v : Nat) : Prop where
  free : (g.workers v).inUse = false
  inUse : (g'.workers v).inUse = true
  native : g'.natives v (g'.workers v).gen = some (g'.net.sock v).localFd

theorem assignAccepted_slot (clientId : BitVec 16) (resp : MtResponse) (g : Globals) (v : Nat) :
    Keeps g (Globals.assignAccepted clientId resp g).2 v ∨
      Fresh g (Globals.assignAccepted clientId resp g).2 v := by
  unfold Globals.assignAccepted
  split
  · exact .inl (Keeps.refl g v)
  · next w hw =>
      by_cases hv : v = w
      · subst hv
        refine .inr ⟨(Globals.availableSlot_spec hw).2, ?_, ?_⟩
        · simp only [Globals.setNative, Globals.acquireSlot, Globals.modifyWorker,
            Function.update_self]
        · simp only [Globals.setNative, Function.update_self, sock_modifySock_self]
      · refine .inl (((Keeps.modifyWorker_ne g _ hv).trans (Keeps.withNet ?_)).trans
          (Keeps.setNative_ne _ _ _ hv))
        simp only [SameFds, sock_modifySock_ne _ _ hv]
        exact ⟨rfl, rfl⟩

theorem Fresh.keeps {g g' g'' : Globals} {v : Nat} (h : Fresh g g' v) (h' : Keeps g' g'' v) :
    Fresh g g'' v :=
  ⟨h.free, h'.inUse.trans h.inUse, by rw [h'.natives, h'.gen, h'.fds.2]; exact h.native⟩

theorem postProcessResponse_slot (clientId : BitVec 16) (req : MtRequest) (worker : Option Nat)
    (resp : MtResponse) (g : Globals) (v : Nat) :
    Keeps g (Globals.postProcessResponse clientId req worker resp g).2 v ∨
      (req.type = .socketAccept ∧
        Fresh g (Globals.postProcessResponse clientId req worker resp g).2 v) := by
  unfold Globals.postProcessResponse
  simp only []
  split
  · next hacc =>
      rcases assignAccepted_slot clientId _ g v with hk | hf
      · exact .inl (hk.trans (Keeps.updateListeningPorts _ v))
      · exact .inr ⟨hacc.1, hf.keeps (Keeps.updateListeningPorts _ v)⟩
  · exact .inl (Keeps.updateListeningPorts g v)

/-- The request types whose processing changes the slot they are assigned to. -/
def ownsSlot (t : MtRequestType) : Bool := t == .socketCreate || t == .socketClose

theorem ownsSlot_of_releasesWorker {req : MtRequest} {resp : MtResponse}
    (ht : assignment req.type ≠ .invalid) (h : releasesWorker req resp = true) :
    ownsSlot req.type = true := by
  cases htype : req.type
  case socketCreate => rfl
  case socketClose => rfl
  case invalid => exact absurd (by rw [htype]; rfl) ht
  case unknown => exact absurd (by rw [htype]; rfl) ht
  all_goals simp [releasesWorker, htype, MtRequestType.deallocatesFd, MtRequestType.code] at h

/-- What a step of an activation does to a slot that is not its own. -/
theorem ProcMove.slot {clientId : BitVec 16} {g g' : Globals} {f : Frame} {i : Input}
    {next : ProcNext} (h : ProcMove clientId g f i g' next) (hfrom : f.FromHandler clientId)
    (htype : assignment f.req.type ≠ .invalid) {v : Nat}
    (hown : ownsSlot f.req.type = true → ∃ w, f.worker = some w ∧ v ≠ w) :
    Keeps g g' v ∨ (f.req.type = .socketAccept ∧ Fresh g g' v) := by
  cases h with
  | issue => exact .inl (Keeps.refl g v)
  | receive => exact .inl (Keeps.refl g v)
  | @finish m os r rest hstage hm =>
      left
      obtain ⟨g₀, rfl⟩ := hfrom m os none hstage
      unfold finishHandler
      simp only []
      by_cases hcreate : f.req.type = .socketCreate
      · obtain ⟨w, hw, hv⟩ := hown (by simp [ownsSlot, hcreate])
        have hfds : SameFds g.net (r.effect g.net) v := by
          simp only [handler, hcreate, hw, Option.getD_some] at hm
          exact (create_fds hm g.net).1 v hv
        rw [hw, Option.getD_some]
        split
        · exact (Keeps.withNet hfds).trans (Keeps.setNative_ne _ _ _ hv)
        · exact Keeps.withNet hfds
      · rw [if_neg (fun hc => hcreate hc.1)]
        by_cases hclose : f.req.type = .socketClose
        · obtain ⟨w, hw, hv⟩ := hown (by simp [ownsSlot, hclose])
          simp only [handler, hclose, hw, Option.getD_some] at hm
          exact Keeps.withNet ((close_fds hm g.net).1 v hv)
        · exact Keeps.withNet (handler_sameFds hcreate hclose hm g.net v)
  | unlock => exact .inl (Keeps.unlockWorker g f.worker v)
  | post => exact postProcessResponse_slot clientId f.req f.worker _ g v
  | write => exact .inl ⟨rfl, rfl, SameFds.rfl, rfl⟩
  | release => exact .inl (Keeps.modifyBuf g f.buf _ v)
  | retireSlot hstage hrel hworker =>
      obtain ⟨w, hw, hv⟩ := hown (ownsSlot_of_releasesWorker htype hrel)
      rw [hworker] at hw
      cases hw
      exact .inl (Keeps.releaseWorkerThread_ne g hv)
  | retire => exact .inl (Keeps.refl g v)

/-! ## Who belongs to which incarnation -/

def WorkerPc.processing : WorkerPc → Bool
  | .process _ => true
  | _ => false

/-- Nothing is queued for slot `w`, and its worker is not at a request. -/
def Idle (s : State) (w : Nat) : Prop := s.g.queue w = [] ∧ (s.pcs w).processing = false

instance (s : State) (w : Nat) : Decidable (Idle s w) := inferInstanceAs (Decidable (_ ∧ _))

/-- Slot `w` is in use, as incarnation `gen`. -/
def Held (g : Globals) (w gen : Nat) : Prop :=
  (g.workers w).inUse = true ∧ (g.workers w).gen = gen

/-- Slot `w` serves an open socket, as incarnation `gen`. -/
def Live (g : Globals) (w gen : Nat) : Prop :=
  Held g w gen ∧ mwSocketIsFd (g.net.sock w).publicFd = true

/-- The native call in progress is made on the descriptor of the incarnation. -/
def Frame.OnFd (f : Frame) (g : Globals) (w : Nat) : Prop :=
  ∀ m os c fd, f.stage = .call m os (some (c, fd)) → c.fdRef = some .worker →
    g.natives w f.gen = some fd

def Frame.inCall (f : Frame) : Bool :=
  match f.stage with
  | .call _ _ _ => true
  | _ => false

/-- A worker thread is at a request of the incarnation that its slot is. -/
structure Serving (clientId : BitVec 16) (g : Globals) (f : Frame) (w : Nat) : Prop where
  worker : f.worker = some w
  live : Live g w f.gen
  onFd : f.OnFd g w
  type : assignment f.req.type = .existing false
  fromHandler : f.FromHandler clientId

/-- The request in `b` has been given a slot. -/
def Assigned (s : State) (b : Nat) : Prop :=
  match assignment (s.g.bufs b).request.type with
  | .noWorker => True
  | .existing _ =>
      ∃ w, (s.g.bufs b).assignedThread = some w ∧ w < maxThreadCount ∧
        Live s.g w (s.g.bufs b).gen
  | .newWorker =>
      ∃ w, (s.g.bufs b).assignedThread = some w ∧ w < maxThreadCount ∧
        Held s.g w (s.g.bufs b).gen ∧ Idle s w ∧
        mwSocketIsFd (s.g.net.sock w).publicFd = false
  | .invalid => False

/-- What the dispatcher needs of the slot `w` of the request it processes. -/
def DispSlot (s : State) (f : Frame) (w : Nat) : Prop :=
  match assignment f.req.type with
  | .existing true =>
      (f.inCall = true → mwSocketIsFd (s.g.net.sock w).publicFd = true ∧ f.OnFd s.g w) ∧
        (f.req.type = .socketClose → Idle s w)
  | .newWorker =>
      Idle s w ∧ (f.inCall = true → mwSocketIsFd (s.g.net.sock w).publicFd = false)
  | _ => False

/-- The dispatcher is at a request of the incarnation that the slot is. -/
structure DispServing (clientId : BitVec 16) (s : State) (f : Frame) : Prop where
  fromHandler : f.FromHandler clientId
  slot : assignment f.req.type = .noWorker ∨
    ∃ w, f.worker = some w ∧ w < maxThreadCount ∧ Held s.g w f.gen ∧ DispSlot s f w

/-- A request names a socket wherever its type needs one. -/
def wellFormed (req : MtRequest) : Prop :=
  (∃ now, assignment req.type = .existing now) → mwSocketIsFd req.sockfd = true

def DispPc.Belongs (clientId : BitVec 16) (s : State) : DispPc → Prop
  | .lookup b => wellFormed (s.g.bufs b).request
  | .lock b _ => Assigned s b
  | .dispatch b => Assigned s b
  | .process f => DispServing clientId s f
  | _ => True

structure Belongs (clientId : BitVec 16) (s : State) : Prop where
  holding : Holding s
  disp : s.disp.Belongs clientId s
  queued : ∀ w < maxThreadCount, ∀ b ∈ s.g.queue w,
    (s.g.bufs b).assignedThread = some w ∧ Live s.g w (s.g.bufs b).gen ∧
      assignment (s.g.bufs b).request.type = .existing false
  working : ∀ w < maxThreadCount, ∀ f, s.pcs w = .process f → Serving clientId s.g f w
  free : ∀ w < maxThreadCount, (s.g.workers w).inUse = false →
    Idle s w ∧ mwSocketIsFd (s.g.net.sock w).publicFd = false
  natives : ∀ w < maxThreadCount, mwSocketIsFd (s.g.net.sock w).publicFd = true →
    s.g.natives w (s.g.workers w).gen = some (s.g.net.sock w).localFd

theorem Held.keeps {g g' : Globals} {w gen : Nat} (h : Held g w gen) (hk : Keeps g g' w) :
    Held g' w gen := ⟨hk.inUse.trans h.1, hk.gen.trans h.2⟩

theorem Live.keeps {g g' : Globals} {w gen : Nat} (h : Live g w gen) (hk : Keeps g g' w) :
    Live g' w gen := ⟨h.1.keeps hk, by rw [hk.fds.1]; exact h.2⟩

theorem Frame.OnFd.keeps {f : Frame} {g g' : Globals} {w : Nat} (h : f.OnFd g w)
    (hk : Keeps g g' w) : f.OnFd g' w := by
  intro m os c fd hstage hc
  rw [hk.natives]
  exact h m os c fd hstage hc

theorem Serving.keeps {clientId : BitVec 16} {g g' : Globals} {f : Frame} {w : Nat}
    (h : Serving clientId g f w) (hk : Keeps g g' w) : Serving clientId g' f w :=
  ⟨h.worker, h.live.keeps hk, h.onFd.keeps hk, h.type, h.fromHandler⟩

theorem not_ownsSlot_of_queued {t : MtRequestType} (h : assignment t = .existing false) :
    ownsSlot t = false := by
  cases t <;> first | rfl | cases h

/-- A worker thread keeps every slot, or acquires one for an accepted socket. -/
theorem Serving.slot {clientId : BitVec 16} {g g' : Globals} {f : Frame} {w : Nat} {i : Input}
    {next : ProcNext} (h : Serving clientId g f w) (hproc : ProcMove clientId g f i g' next)
    (v : Nat) : Keeps g g' v ∨ Fresh g g' v := by
  have hvalid : assignment f.req.type ≠ .invalid := by
    rw [h.type]
    decide
  refine (hproc.slot h.fromHandler hvalid fun hown => ?_).imp id And.right
  rw [not_ownsSlot_of_queued h.type] at hown
  cases hown

/-- While the handler runs, nothing of the shared state changes. -/
theorem ProcMove.inCall {clientId : BitVec 16} {g g' : Globals} {f f' : Frame} {i : Input}
    (h : ProcMove clientId g f i g' (.running f')) (hcall : f'.inCall = true) :
    f.inCall = true ∧ g' = g := by
  cases h with
  | issue hstage => exact ⟨by simp [Frame.inCall, hstage], rfl⟩
  | receive hstage => exact ⟨by simp [Frame.inCall, hstage], rfl⟩
  | finish => cases hcall
  | unlock => cases hcall
  | post => cases hcall
  | write => cases hcall
  | release => cases hcall

/-- The call a handler issues is made on the descriptor of its incarnation. -/
theorem ProcMove.onFd {clientId : BitVec 16} {g g' : Globals} {f f' : Frame} {i : Input} {w : Nat}
    (h : ProcMove clientId g f i g' (.running f')) (hworker : f.worker = some w)
    (hnative : g.natives w f.gen = some (g.net.sock w).localFd) : f'.OnFd g' w := by
  intro m' os' c' fd hstage' hc
  cases h with
  | issue =>
      cases hstage'
      simp only [nativeFd, hc, hworker, Option.getD_some]
      exact hnative
  | receive => cases hstage'
  | finish => cases hstage'
  | unlock => cases hstage'
  | post => cases hstage'
  | write => cases hstage'
  | release => cases hstage'

/-- What creating or closing a socket does to the slot of the request. -/
theorem ProcMove.own_slot {clientId : BitVec 16} {g g' : Globals} {f f' : Frame} {i : Input}
    {w : Nat} (h : ProcMove clientId g f i g' (.running f')) (hfrom : f.FromHandler clientId)
    (hown : ownsSlot f.req.type = true) (hworker : f.worker = some w)
    (hgen : (g.workers w).gen = f.gen)
    (hnative : mwSocketIsFd (g.net.sock w).publicFd = true →
      g.natives w (g.workers w).gen = some (g.net.sock w).localFd) :
    (g'.workers w).inUse = (g.workers w).inUse ∧ (g'.workers w).gen = (g.workers w).gen ∧
      (mwSocketIsFd (g'.net.sock w).publicFd = true →
        g'.natives w (g'.workers w).gen = some (g'.net.sock w).localFd) := by
  have kept : Keeps g g' w → (g'.workers w).inUse = (g.workers w).inUse ∧
      (g'.workers w).gen = (g.workers w).gen ∧
      (mwSocketIsFd (g'.net.sock w).publicFd = true →
        g'.natives w (g'.workers w).gen = some (g'.net.sock w).localFd) := by
    intro hk
    refine ⟨hk.inUse, hk.gen, fun hfd => ?_⟩
    rw [hk.fds.1] at hfd
    rw [hk.natives, hk.gen, hk.fds.2]
    exact hnative hfd
  cases h with
  | issue => exact kept (Keeps.refl g w)
  | receive => exact kept (Keeps.refl g w)
  | @finish m os r rest hstage hm =>
      obtain ⟨g₀, rfl⟩ := hfrom m os none hstage
      unfold finishHandler
      by_cases hcreate : f.req.type = .socketCreate
      · simp only [handler, hcreate, hworker, Option.getD_some] at hm
        have hfds := (create_fds hm g.net).2
        simp only [hcreate, hworker, Option.getD_some, true_and]
        by_cases hst : 0 ≤ r.response.status
        · rw [if_pos hst]
          refine ⟨rfl, rfl, fun _ => ?_⟩
          simp only [Globals.setNative, Function.update_self, hgen]
        · rw [if_neg hst]
          exact ⟨rfl, rfl, fun hfd => absurd (hfds hfd) hst⟩
      · have hclose : f.req.type = .socketClose := by
          simpa [ownsSlot, hcreate] using hown
        simp only [handler, hclose, hworker, Option.getD_some] at hm
        have hinv := (close_fds hm g.net).2
        simp only []
        rw [if_neg (fun hc => hcreate (And.left hc))]
        refine ⟨rfl, rfl, fun hfd => ?_⟩
        rw [hinv] at hfd
        exact absurd hfd (by decide)
  | unlock => exact kept (Keeps.unlockWorker g f.worker w)
  | post =>
      rcases postProcessResponse_slot clientId f.req f.worker _ g w with hk | ⟨hacc, -⟩
      · exact kept hk
      · rw [hacc] at hown
        cases hown
  | write => exact kept ⟨rfl, rfl, SameFds.rfl, rfl⟩
  | release => exact kept (Keeps.modifyBuf g f.buf _ w)

/-! ## Steps of the worker threads -/

theorem Assigned.mono {s s' : State} {b : Nat} (h : Assigned s b)
    (hb : s'.g.bufs b = s.g.bufs b)
    (hkeeps : ∀ v < maxThreadCount, (s.g.workers v).inUse = true → Keeps s.g s'.g v)
    (hidle : ∀ v < maxThreadCount, Idle s v → Idle s' v) : Assigned s' b := by
  unfold Assigned at h ⊢
  rw [hb]
  split at h
  · trivial
  · obtain ⟨w, hw, hlt, hlive⟩ := h
    exact ⟨w, hw, hlt, hlive.keeps (hkeeps w hlt hlive.1.1)⟩
  · obtain ⟨w, hw, hlt, hheld, hi, hfd⟩ := h
    have hk := hkeeps w hlt hheld.1
    exact ⟨w, hw, hlt, hheld.keeps hk, hidle w hlt hi, by rw [hk.fds.1]; exact hfd⟩
  · exact h

theorem DispSlot.mono {s s' : State} {f : Frame} {w : Nat} (h : DispSlot s f w)
    (hk : Keeps s.g s'.g w) (hidle : Idle s w → Idle s' w) : DispSlot s' f w := by
  unfold DispSlot at h ⊢
  split at h
  · exact ⟨fun hc => by rw [hk.fds.1]; exact ⟨(h.1 hc).1, (h.1 hc).2.keeps hk⟩,
      fun ht => hidle (h.2 ht)⟩
  · exact ⟨hidle h.1, fun hc => by rw [hk.fds.1]; exact h.2 hc⟩
  · exact h

theorem DispServing.mono {clientId : BitVec 16} {s s' : State} {f : Frame}
    (h : DispServing clientId s f)
    (hkeeps : ∀ v < maxThreadCount, (s.g.workers v).inUse = true → Keeps s.g s'.g v)
    (hidle : ∀ v < maxThreadCount, Idle s v → Idle s' v) : DispServing clientId s' f := by
  refine ⟨h.fromHandler, h.slot.imp id ?_⟩
  rintro ⟨w, hw, hlt, hheld, hslot⟩
  have hk := hkeeps w hlt hheld.1
  exact ⟨w, hw, hlt, hheld.keeps hk, hslot.mono hk (hidle w hlt)⟩

theorem DispPc.Belongs.mono {clientId : BitVec 16} {s s' : State} {pc : DispPc}
    (h : pc.Belongs clientId s)
    (hb : ∀ b, 0 < pc.active b → s'.g.bufs b = s.g.bufs b)
    (hkeeps : ∀ v < maxThreadCount, (s.g.workers v).inUse = true → Keeps s.g s'.g v)
    (hidle : ∀ v < maxThreadCount, Idle s v → Idle s' v) : pc.Belongs clientId s' := by
  cases pc with
  | lookup b =>
      show wellFormed (s'.g.bufs b).request
      rw [hb b (by simp [DispPc.active])]
      exact h
  | lock b w => exact Assigned.mono h (hb b (by simp [DispPc.active])) hkeeps hidle
  | dispatch b => exact Assigned.mono h (hb b (by simp [DispPc.active])) hkeeps hidle
  | process f => exact DispServing.mono h hkeeps hidle
  | _ => trivial

namespace Belongs

variable {clientId : BitVec 16} {s : State} {g : Globals}

theorem native_of_keeps (h : Belongs clientId s) {v : Nat} (hv : v < maxThreadCount)
    (hs : Keeps s.g g v ∨ Fresh s.g g v) (hfd : mwSocketIsFd (g.net.sock v).publicFd = true) :
    g.natives v (g.workers v).gen = some (g.net.sock v).localFd := by
  rcases hs with hk | hf
  · rw [hk.fds.1] at hfd
    rw [hk.natives, hk.gen, hk.fds.2]
    exact h.natives v hv hfd
  · exact hf.native

/-- A step of worker thread `w`: slots are kept or newly acquired, and no
buffer that is queued or with the dispatcher is touched. -/
theorem of_worker (h : Belongs clientId s) {w : Nat} {pc : WorkerPc} (hw : w < maxThreadCount)
    (hhold : Holding ⟨g, s.disp, Function.update s.pcs w pc, s.reads⟩)
    (hslot : ∀ v < maxThreadCount, Keeps s.g g v ∨ Fresh s.g g v)
    (hq : ∀ v, ∀ b ∈ g.queue v, b ∈ s.g.queue v)
    (hbq : ∀ v < maxThreadCount, ∀ b ∈ s.g.queue v, g.bufs b = s.g.bufs b)
    (hbd : ∀ b, 0 < s.disp.active b → g.bufs b = s.g.bufs b)
    (hpc : ∀ f, pc = .process f → Serving clientId g f w)
    (hbusy : Idle s w → pc.processing = false) :
    Belongs clientId ⟨g, s.disp, Function.update s.pcs w pc, s.reads⟩ := by
  have hkeeps : ∀ v < maxThreadCount, (s.g.workers v).inUse = true → Keeps s.g g v := by
    intro v hv huse
    rcases hslot v hv with hk | hf
    · exact hk
    · rw [hf.free] at huse
      cases huse
  have hidle : ∀ v < maxThreadCount, Idle s v →
      Idle ⟨g, s.disp, Function.update s.pcs w pc, s.reads⟩ v := by
    intro v _ hi
    refine ⟨List.eq_nil_iff_forall_not_mem.mpr fun b hb => ?_, ?_⟩
    · have := hq v b hb
      rw [hi.1] at this
      cases this
    · by_cases hv : v = w
      · subst hv
        simpa only [Function.update_self] using hbusy hi
      · simpa only [Function.update_of_ne hv] using hi.2
  have hbusyq : ∀ v < maxThreadCount, ∀ b ∈ s.g.queue v, Keeps s.g g v := by
    intro v hv b hb
    exact hkeeps v hv (h.queued v hv b hb).2.1.1.1
  refine ⟨hhold, h.disp.mono hbd hkeeps hidle, ?_, ?_, ?_, ?_⟩
  · intro v hv b hb
    have hb := hq v b hb
    obtain ⟨hassigned, hlive, htype⟩ := h.queued v hv b hb
    show (g.bufs b).assignedThread = some v ∧ _
    rw [hbq v hv b hb]
    exact ⟨hassigned, hlive.keeps (hbusyq v hv b hb), htype⟩
  · intro v hv f hf
    by_cases hvw : v = w
    · subst hvw
      exact hpc f (by simpa only [Function.update_self] using hf)
    · have hf : s.pcs v = .process f := by simpa only [Function.update_of_ne hvw] using hf
      have hserve := h.working v hv f hf
      exact hserve.keeps (hkeeps v hv hserve.live.1.1)
  · intro v hv hfree
    rcases hslot v hv with hk | hf
    · obtain ⟨hi, hfd⟩ := h.free v hv (by rw [← hk.inUse]; exact hfree)
      exact ⟨hidle v hv hi, by rw [hk.fds.1]; exact hfd⟩
    · rw [hf.inUse] at hfree
      cases hfree
  · intro v hv hfd
    exact h.native_of_keeps hv (hslot v hv) hfd

theorem worker_move (h : Belongs clientId s) {w : Nat} {i : Input} {pc : WorkerPc}
    (hw : w < maxThreadCount) (hmove : WorkerMove clientId s w i g pc) :
    Belongs clientId ⟨g, s.disp, Function.update s.pcs w pc, s.reads⟩ := by
  have hhold := h.holding.worker_move hw hmove
  cases hmove with
  | wait hpc =>
      have hquiet := Quiet.modifyWorker s.g w (f := fun x =>
        { x with awaitingWorkSem := x.awaitingWorkSem - 1 }) rfl
      exact h.of_worker hw hhold (fun v _ => .inl (Keeps.modifyWorker s.g w v _ ⟨rfl, rfl⟩))
        (fun v b hb => by rwa [hquiet.queue] at hb) (fun _ _ _ _ => rfl) (fun _ _ => rfl)
        (fun f hf => by cases hf) fun _ => rfl
  | empty hpc =>
      refine h.of_worker hw hhold (fun v _ => .inl (Keeps.refl _ v)) (fun _ _ hb => hb)
        (fun _ _ _ _ => rfl) (fun _ _ => rfl) (fun f hf => ?_) fun _ => ?_
      · split at hf <;> cases hf
      · split <;> rfl
  | @dequeue b q hpc hq =>
      have hcontents : s.g.queue w = b :: q.contents := WorkQueue.contents_dequeue hq
      have hmem : b ∈ s.g.queue w := by
        rw [hcontents]
        exact List.mem_cons_self
      obtain ⟨hassigned, hlive, htype⟩ := h.queued w hw b hmem
      have hk := Keeps.modifyWorker s.g w w (fun x => { x with workQueue := q }) ⟨rfl, rfl⟩
      refine h.of_worker hw hhold (fun v _ => .inl (Keeps.modifyWorker s.g w v _ ⟨rfl, rfl⟩))
        (fun v b' hb' => ?_) (fun _ _ _ _ => rfl) (fun _ _ => rfl) (fun f hf => ?_) fun hi => ?_
      · by_cases hv : v = w
        · subst hv
          rw [queue_modifyWorker_self] at hb'
          rw [hcontents]
          exact List.mem_cons_of_mem b hb'
        · rwa [queue_modifyWorker_ne s.g _ hv] at hb'
      · cases hf
        refine ⟨hassigned, hlive.keeps hk, ?_, htype, Frame.fromHandler_start b⟩
        intro m os c fd hstage
        cases hstage
      · rw [hi.1] at hmem
        cases hmem
  | @running f i g f' hpc hproc =>
      -- the slot is in use, so an accept does not give it to its connection
      have hserve := h.working w hw f hpc
      obtain ⟨hbuf, hreq, hworker, hgen⟩ := hproc.same_request
      have hkw : Keeps s.g g w := by
        rcases hserve.slot hproc w with hk | hf
        · exact hk
        · have := hserve.live.1.1
          rw [hf.free] at this
          cases this
      have hholds : 0 < (s.pcs w).active f.buf + (s.pcs w).window f.buf := by
        rw [hpc]
        exact f.holds
      refine h.of_worker hw hhold (fun v _ => hserve.slot hproc v)
        (fun v b hb => by rwa [hproc.queue] at hb)
        (fun v hv b hb => hproc.bufs_ne (h.holding.ne_of_worker hv hb hw hholds))
        (fun b hb => hproc.bufs_ne (h.holding.ne_of_disp (Nat.lt_add_right _ hb) hw hholds))
        (fun f₁ hf₁ => ?_) fun hi => ?_
      · cases hf₁
        refine ⟨by rw [hworker]; exact hserve.worker, ?_, ?_, by rw [hreq]; exact hserve.type,
          hproc.fromHandler hserve.fromHandler⟩
        · rw [hgen]
          exact hserve.live.keeps hkw
        · have hnative : s.g.natives w f.gen = some (s.g.net.sock w).localFd := by
            rw [← hserve.live.1.2]
            exact h.natives w hw hserve.live.2
          exact hproc.onFd hserve.worker hnative
      · have := hi.2
        rw [hpc] at this
        cases this
  | @returned f i g rc hpc hproc =>
      have hserve := h.working w hw f hpc
      have hholds : 0 < (s.pcs w).active f.buf + (s.pcs w).window f.buf := by
        rw [hpc]
        exact f.holds
      exact h.of_worker hw hhold (fun v _ => hserve.slot hproc v)
        (fun v b hb => by rwa [hproc.queue] at hb)
        (fun v hv b hb => hproc.bufs_ne (h.holding.ne_of_worker hv hb hw hholds))
        (fun b hb => hproc.bufs_ne (h.holding.ne_of_disp (Nat.lt_add_right _ hb) hw hholds))
        (fun f₁ hf₁ => by cases hf₁) fun _ => rfl
  | @cleanup b hpc =>
      have hholds : 0 < (s.pcs w).active b + (s.pcs w).window b := by
        simp [hpc, WorkerPc.active, WorkerPc.window]
      exact h.of_worker hw hhold (fun v _ => .inl (Keeps.modifyBuf s.g b _ v))
        (fun _ _ hb => hb)
        (fun v hv b' hb' =>
          bufs_releaseBufferItem_ne s.g b (h.holding.ne_of_worker hv hb' hw hholds))
        (fun b' hb' => bufs_releaseBufferItem_ne s.g b
          (h.holding.ne_of_disp (Nat.lt_add_right _ hb') hw hholds))
        (fun f hf => by cases hf) fun _ => rfl

/-! ## Steps of the dispatcher -/

/-- A step of the dispatcher that leaves the queues alone: the slots that are
not idle are kept, and so are the queued buffers. -/
theorem of_disp (h : Belongs clientId s) {pc : DispPc} {reads : List MtRequest}
    (hhold : Holding ⟨g, pc, s.pcs, reads⟩)
    (hpc : pc.Belongs clientId ⟨g, pc, s.pcs, reads⟩)
    (hq : ∀ v, g.queue v = s.g.queue v)
    (hbq : ∀ v < maxThreadCount, ∀ b ∈ s.g.queue v, g.bufs b = s.g.bufs b)
    (hbusy : ∀ v < maxThreadCount, ¬ Idle s v → Keeps s.g g v)
    (hfree : ∀ v < maxThreadCount, (g.workers v).inUse = false →
      Idle s v ∧ mwSocketIsFd (g.net.sock v).publicFd = false)
    (hnative : ∀ v < maxThreadCount, mwSocketIsFd (g.net.sock v).publicFd = true →
      g.natives v (g.workers v).gen = some (g.net.sock v).localFd) :
    Belongs clientId ⟨g, pc, s.pcs, reads⟩ := by
  refine ⟨hhold, hpc, ?_, ?_, ?_, hnative⟩
  · intro v hv b hb
    have hb : b ∈ s.g.queue v := by rwa [← hq v]
    obtain ⟨hassigned, hlive, htype⟩ := h.queued v hv b hb
    have hne : ¬ Idle s v := fun hi => by
      rw [hi.1] at hb
      cases hb
    show (g.bufs b).assignedThread = some v ∧ _
    rw [hbq v hv b hb]
    exact ⟨hassigned, hlive.keeps (hbusy v hv hne), htype⟩
  · intro v hv f hf
    have hne : ¬ Idle s v := fun hi => by
      have := hi.2
      rw [show s.pcs v = .process f from hf] at this
      cases this
    exact (h.working v hv f hf).keeps (hbusy v hv hne)
  · intro v hv hno
    obtain ⟨hi, hfd⟩ := hfree v hv hno
    exact ⟨⟨by rw [hq v]; exact hi.1, hi.2⟩, hfd⟩

/-- The same when every slot is kept. -/
theorem of_keeps (h : Belongs clientId s) {pc : DispPc} {reads : List MtRequest}
    (hhold : Holding ⟨g, pc, s.pcs, reads⟩)
    (hpc : pc.Belongs clientId ⟨g, pc, s.pcs, reads⟩)
    (hq : ∀ v, g.queue v = s.g.queue v)
    (hbq : ∀ v < maxThreadCount, ∀ b ∈ s.g.queue v, g.bufs b = s.g.bufs b)
    (hkeeps : ∀ v, Keeps s.g g v) : Belongs clientId ⟨g, pc, s.pcs, reads⟩ := by
  refine h.of_disp hhold hpc hq hbq (fun v _ _ => hkeeps v) (fun v hv hno => ?_)
    fun v hv hfd => h.native_of_keeps hv (.inl (hkeeps v)) hfd
  rw [(hkeeps v).inUse] at hno
  rw [(hkeeps v).fds.1]
  exact h.free v hv hno

/-- What the lookup of an open socket finds. -/
theorem lookup_existing {fd : MwSocketFd} {w : Nat} {g g' : Globals}
    (hfd : mwSocketIsFd fd = true) (h : g.getWorkerThreadForFd fd = .found w g') :
    g' = g ∧ w < maxThreadCount ∧ (g.workers w).inUse = true ∧
      mwSocketIsFd (g.net.sock w).publicFd = true := by
  have hlt := (getWorkerThreadForFd_spec h).1
  unfold Globals.getWorkerThreadForFd at h
  split at h
  · next heq =>
      rw [heq] at hfd
      exact absurd hfd (by decide)
  · simp only [] at h
    repeat' split at h
    all_goals cases h
    next huse hpub =>
      refine ⟨rfl, hlt, by simpa using huse, ?_⟩
      rw [← not_not.mp hpub]
      exact hfd

theorem belongs_afterLookup {b w : Nat} {t : MtRequestType} (h : Assigned s b) :
    (afterLookup t b w).Belongs clientId s := by
  unfold afterLookup
  split <;> exact h

theorem existing (h : Belongs clientId s) {b w : Nat} {now : Bool} {g : Globals}
    (hpc : s.disp = .lookup b)
    (ht : assignment (s.g.bufs b).request.type = .existing now)
    (hw : s.g.getWorkerThreadForFd (s.g.bufs b).request.sockfd = .found w g)
    (hhold : Holding ⟨assignTo g b w, afterLookup (s.g.bufs b).request.type b w, s.pcs, s.reads⟩) :
    Belongs clientId
      ⟨assignTo g b w, afterLookup (s.g.bufs b).request.type b w, s.pcs, s.reads⟩ := by
  have hwf : wellFormed (s.g.bufs b).request := by
    have := h.disp
    rwa [hpc] at this
  obtain ⟨rfl, hlt, huse, hfd⟩ := lookup_existing (hwf ⟨now, ht⟩) hw
  have hb : 0 < s.disp.active b + s.disp.window b := by simp [hpc, DispPc.active]
  refine h.of_keeps hhold ?_ (fun _ => rfl)
    (fun v hv b' hb' => bufs_modifyBuf_ne s.g b _ (h.holding.ne_of_queued hb hv hb'))
    fun v => Keeps.modifyBuf s.g b _ v
  apply belongs_afterLookup
  simp only [Assigned, assignTo, bufs_modifyBuf_self, ht]
  exact ⟨w, rfl, hlt, ⟨huse, rfl⟩, hfd⟩

/-- A free slot is acquired for a new socket. -/
theorem newWorker (h : Belongs clientId s) {b w : Nat} (hpc : s.disp = .lookup b)
    (ht : assignment (s.g.bufs b).request.type = .newWorker) (hw : s.g.availableSlot = some w)
    (hhold : Holding ⟨assignTo (s.g.acquireSlot w) b w,
      afterLookup (s.g.bufs b).request.type b w, s.pcs, s.reads⟩) :
    Belongs clientId ⟨assignTo (s.g.acquireSlot w) b w,
      afterLookup (s.g.bufs b).request.type b w, s.pcs, s.reads⟩ := by
  obtain ⟨hlt, hno⟩ := Globals.availableSlot_spec hw
  obtain ⟨hidle, hfd⟩ := h.free w hlt hno
  have hquiet := Quiet.acquireSlot s.g w
  have hb : 0 < s.disp.active b + s.disp.window b := by simp [hpc, DispPc.active]
  have hkeeps : ∀ v, v ≠ w → Keeps s.g (assignTo (s.g.acquireSlot w) b w) v := fun v hv =>
    (Keeps.modifyWorker_ne s.g _ hv).trans (Keeps.modifyBuf _ b _ v)
  have huse : ((assignTo (s.g.acquireSlot w) b w).workers w).inUse = true := by
    simp only [assignTo, Globals.modifyBuf, Globals.acquireSlot, Globals.modifyWorker,
      Function.update_self]
  refine h.of_disp hhold ?_ hquiet.queue
    (fun v hv b' hb' => bufs_modifyBuf_ne _ b _ (h.holding.ne_of_queued hb hv hb'))
    (fun v hv hbusy => hkeeps v (by rintro rfl; exact hbusy hidle)) (fun v hv hfree => ?_)
    fun v hv hfd' => ?_
  · apply belongs_afterLookup
    have hreq : ((s.g.acquireSlot w).bufs b).request = (s.g.bufs b).request := rfl
    simp only [Assigned, assignTo, bufs_modifyBuf_self, hreq, ht]
    exact ⟨w, rfl, hlt, ⟨huse, rfl⟩, ⟨(hquiet.queue w).trans hidle.1, hidle.2⟩, hfd⟩
  · have hv' : v ≠ w := by
      rintro rfl
      rw [huse] at hfree
      cases hfree
    rw [(hkeeps v hv').inUse] at hfree
    rw [(hkeeps v hv').fds.1]
    exact h.free v hv hfree
  · have hv' : v ≠ w := by
      rintro rfl
      have hfd' : mwSocketIsFd (s.g.net.sock v).publicFd = true := hfd'
      rw [hfd] at hfd'
      cases hfd'
    exact h.native_of_keeps hv (.inl (hkeeps v hv')) hfd'

/-- The dispatcher puts its request in the queue of slot `w`. -/
theorem enqueue (h : Belongs clientId s) {b w : Nat} {q : WorkQueue} (hpc : s.disp = .dispatch b)
    (hnow : processNow (s.g.bufs b).request.type = false)
    (hw : (s.g.bufs b).assignedThread = some w)
    (hq : (s.g.workers w).workQueue.enqueue b = some q)
    (hhold : Holding ⟨s.g.modifyWorker w fun x => { x with workQueue := q }, .wake w, s.pcs,
      s.reads⟩) :
    Belongs clientId ⟨s.g.modifyWorker w fun x => { x with workQueue := q }, .wake w, s.pcs,
      s.reads⟩ := by
  have ht : assignment (s.g.bufs b).request.type = .existing false := by
    simpa [processNow] using hnow
  have hassigned : Assigned s b := by
    have := h.disp
    rwa [hpc] at this
  simp only [Assigned, ht] at hassigned
  obtain ⟨w', hw', hlt, hlive⟩ := hassigned
  rw [hw] at hw'
  cases hw'
  have hkeeps : ∀ v, Keeps s.g (s.g.modifyWorker w fun x => { x with workQueue := q }) v :=
    fun v => Keeps.modifyWorker s.g w v _ ⟨rfl, rfl⟩
  refine ⟨hhold, trivial, ?_, ?_, ?_, ?_⟩
  · intro v hv b' hb'
    by_cases hvw : v = w
    · subst hvw
      have hb' : b' ∈ q.contents := by
        rwa [show Globals.queue _ v = q.contents from queue_modifyWorker_self s.g v q] at hb'
      rw [WorkQueue.contents_enqueue hq, List.mem_append] at hb'
      rcases hb' with hb' | hb'
      · obtain ⟨ha, hl, ht'⟩ := h.queued v hv b' hb'
        exact ⟨ha, hl.keeps (hkeeps v), ht'⟩
      · cases List.mem_singleton.mp hb'
        exact ⟨hw, hlive.keeps (hkeeps v), ht⟩
    · have hb' : b' ∈ s.g.queue v := by
        rwa [show Globals.queue _ v = s.g.queue v from queue_modifyWorker_ne s.g _ hvw] at hb'
      obtain ⟨ha, hl, ht'⟩ := h.queued v hv b' hb'
      exact ⟨ha, hl.keeps (hkeeps v), ht'⟩
  · intro v hv f hf
    exact (h.working v hv f hf).keeps (hkeeps v)
  · intro v hv hfree
    have hno : (s.g.workers v).inUse = false := by rw [← (hkeeps v).inUse]; exact hfree
    have hvw : v ≠ w := by
      rintro rfl
      rw [hlive.1.1] at hno
      cases hno
    obtain ⟨hi, hfd⟩ := h.free v hv hno
    refine ⟨⟨?_, hi.2⟩, hfd⟩
    show Globals.queue _ v = []
    rw [queue_modifyWorker_ne s.g _ hvw]
    exact hi.1
  · intro v hv hfd
    exact h.native_of_keeps hv (.inl (hkeeps v)) hfd

/-- The dispatcher starts to process the request in `b`. -/
theorem start (h : Belongs clientId s) {b : Nat} (hpc : s.disp = .dispatch b)
    (hnow : processNow (s.g.bufs b).request.type = true)
    (hclose : (s.g.bufs b).request.type = .socketClose →
      ∀ w, (s.g.bufs b).assignedThread = some w → Idle s w) :
    DispServing clientId ⟨s.g, .process (Frame.start clientId s.g b), s.pcs, s.reads⟩
      (Frame.start clientId s.g b) := by
  have hassigned : Assigned s b := by
    have := h.disp
    rwa [hpc] at this
  have hnotFd : ∀ w, (Frame.start clientId s.g b).OnFd s.g w := by
    intro w m os c fd hstage
    cases hstage
  refine ⟨Frame.fromHandler_start b, ?_⟩
  unfold Assigned at hassigned
  split at hassigned
  · next ht => exact .inl ht
  · next now ht =>
      obtain ⟨w, hw, hlt, hlive⟩ := hassigned
      cases now with
      | false => simp [processNow, ht] at hnow
      | true =>
          refine .inr ⟨w, hw, hlt, hlive.1, ?_⟩
          simp only [DispSlot, Frame.start, ht]
          exact ⟨fun _ => ⟨hlive.2, hnotFd w⟩, fun hc => hclose hc w hw⟩
  · next ht =>
      obtain ⟨w, hw, hlt, hheld, hidle, hfd⟩ := hassigned
      refine .inr ⟨w, hw, hlt, hheld, ?_⟩
      simp only [DispSlot, Frame.start, ht]
      exact ⟨hidle, fun _ => hfd⟩
  · exact hassigned.elim

theorem pollsetQuery_of_noWorker {t : MtRequestType} (h : assignment t = .noWorker) :
    t = .pollsetQuery := by
  cases t <;> first | rfl | cases h

/-- Types the dispatcher processes are not accept. -/
theorem ne_accept_of_now {t : MtRequestType} (h : processNow t = true) : t ≠ .socketAccept := by
  rintro rfl
  cases h

theorem processNow_of_slot {f : Frame} {w : Nat} (h : DispSlot s f w) :
    processNow f.req.type = true := by
  unfold DispSlot at h
  split at h
  · next ht => simp [processNow, ht]
  · next ht => simp [processNow, ht]
  · exact h.elim

theorem idle_of_owns {f : Frame} {w : Nat} (h : DispSlot s f w)
    (hown : ownsSlot f.req.type = true) : Idle s w := by
  have htype : f.req.type = .socketCreate ∨ f.req.type = .socketClose := by
    simpa [ownsSlot] using hown
  unfold DispSlot at h
  rcases htype with ht | ht
  · rw [ht] at h
    exact h.1
  · simp only [ht, assignment] at h
    exact h.2 trivial

/-- The slot of the dispatcher's request while it is processed. -/
theorem dispSlot_step (h : Belongs clientId s) {f f' : Frame} {i : Input} {w : Nat}
    (hproc : ProcMove clientId s.g f i g (.running f')) (hworker : f.worker = some w)
    (hlt : w < maxThreadCount) (hheld : Held s.g w f.gen) (hslot : DispSlot s f w) :
    DispSlot ⟨g, .process f', s.pcs, s.reads⟩ f' w := by
  have hidle : Idle s w → Idle ⟨g, .process f', s.pcs, s.reads⟩ w := fun hi =>
    ⟨(hproc.queue w).trans hi.1, hi.2⟩
  unfold DispSlot at hslot ⊢
  rw [hproc.same_request.2.1]
  split at hslot
  · refine ⟨fun hcall => ?_, fun ht => hidle (hslot.2 ht)⟩
    obtain ⟨hcall', hg⟩ := hproc.inCall hcall
    obtain ⟨hfd, -⟩ := hslot.1 hcall'
    have hnative : s.g.natives w f.gen = some (s.g.net.sock w).localFd := by
      rw [← hheld.2]
      exact h.natives w hlt hfd
    refine ⟨?_, hproc.onFd hworker hnative⟩
    show mwSocketIsFd (g.net.sock w).publicFd = true
    rw [hg]
    exact hfd
  · refine ⟨hidle hslot.1, fun hcall => ?_⟩
    obtain ⟨hcall', hg⟩ := hproc.inCall hcall
    show mwSocketIsFd (g.net.sock w).publicFd = false
    rw [hg]
    exact hslot.2 hcall'
  · exact hslot

theorem running (h : Belongs clientId s) {f f' : Frame} {i : Input} (hpc : s.disp = .process f)
    (hproc : ProcMove clientId s.g f i g (.running f'))
    (hhold : Holding ⟨g, .process f', s.pcs, s.reads⟩) :
    Belongs clientId ⟨g, .process f', s.pcs, s.reads⟩ := by
  have hserve : DispServing clientId s f := by
    have := h.disp
    rwa [hpc] at this
  obtain ⟨-, hreq, hworker', hgen'⟩ := hproc.same_request
  have hb : 0 < s.disp.active f.buf + s.disp.window f.buf := by
    rw [hpc]
    exact f.holds
  have hbq : ∀ v < maxThreadCount, ∀ b ∈ s.g.queue v, g.bufs b = s.g.bufs b := fun v hv b hbm =>
    hproc.bufs_ne (h.holding.ne_of_queued hb hv hbm)
  rcases hserve.slot with ht | ⟨w, hworker, hlt, hheld, hslot⟩
  · have htype := pollsetQuery_of_noWorker ht
    have hkeeps : ∀ v, Keeps s.g g v := fun v => by
      rcases hproc.slot hserve.fromHandler (by rw [ht]; decide)
        (by rw [htype]; intro hc; cases hc) with hk | ⟨hacc, -⟩
      · exact hk
      · rw [htype] at hacc
        cases hacc
    exact h.of_keeps hhold ⟨hproc.fromHandler hserve.fromHandler, .inl (by rw [hreq]; exact ht)⟩
      hproc.queue hbq hkeeps
  · have hnow := processNow_of_slot hslot
    have hvalid : assignment f.req.type ≠ .invalid := by
      unfold DispSlot at hslot
      intro hinv
      rw [hinv] at hslot
      exact hslot
    have hother : ∀ v, (ownsSlot f.req.type = true → v ≠ w) → Keeps s.g g v := fun v hv => by
      rcases hproc.slot hserve.fromHandler hvalid fun hown => ⟨w, hworker, hv hown⟩ with
        hk | ⟨hacc, -⟩
      · exact hk
      · exact absurd hacc (ne_accept_of_now hnow)
    have hslot' := h.dispSlot_step hproc hworker hlt hheld hslot
    have hpc' : Held g w f.gen → DispPc.Belongs clientId ⟨g, .process f', s.pcs, s.reads⟩
        (.process f') := fun hheld' =>
      ⟨hproc.fromHandler hserve.fromHandler, .inr ⟨w, by rw [hworker']; exact hworker, hlt,
        by rw [hgen']; exact hheld', hslot'⟩⟩
    by_cases hown : ownsSlot f.req.type = true
    · obtain ⟨huse, hgen, hnative⟩ :=
        hproc.own_slot hserve.fromHandler hown hworker hheld.2 (h.natives w hlt)
      have hidle := idle_of_owns hslot hown
      refine h.of_disp hhold (hpc' ⟨huse.trans hheld.1, hgen.trans hheld.2⟩) hproc.queue hbq
        (fun v _ hbusy => hother v fun _ => by rintro rfl; exact hbusy hidle)
        (fun v hv hfree => ?_) fun v hv hfd => ?_
      · have hvw : v ≠ w := by
          rintro rfl
          rw [huse, hheld.1] at hfree
          cases hfree
        have hk := hother v fun _ => hvw
        rw [hk.inUse] at hfree
        rw [hk.fds.1]
        exact h.free v hv hfree
      · by_cases hvw : v = w
        · subst hvw
          exact hnative hfd
        · exact h.native_of_keeps hv (.inl (hother v fun _ => hvw)) hfd
    · have hkeeps := fun v => hother v fun hc => absurd hc hown
      exact h.of_keeps hhold (hpc' (hheld.keeps (hkeeps w))) hproc.queue hbq hkeeps

theorem returned (h : Belongs clientId s) {f : Frame} {i : Input} {rc : Int} {pc : DispPc}
    (hpc : s.disp = .process f) (hproc : ProcMove clientId s.g f i g (.returned rc))
    (hpc' : pc.Belongs clientId ⟨g, pc, s.pcs, s.reads⟩)
    (hhold : Holding ⟨g, pc, s.pcs, s.reads⟩) : Belongs clientId ⟨g, pc, s.pcs, s.reads⟩ := by
  have hserve : DispServing clientId s f := by
    have := h.disp
    rwa [hpc] at this
  have hquiet : g.bufs = s.g.bufs := hproc.returned_holding.2
  have hq := hproc.queue
  cases hproc with
  | retire => exact h.of_keeps hhold hpc' hq (fun _ _ _ _ => rfl) fun v => Keeps.refl s.g v
  | @retireSlot rc resp w hstage hrel hworker =>
      rcases hserve.slot with ht | ⟨w', hworker', hlt, hheld, hslot⟩
      · have hown := ownsSlot_of_releasesWorker (by rw [ht]; decide) hrel
        rw [pollsetQuery_of_noWorker ht] at hown
        cases hown
      rw [hworker] at hworker'
      cases hworker'
      have hvalid : assignment f.req.type ≠ .invalid := by
        unfold DispSlot at hslot
        intro hinv
        rw [hinv] at hslot
        exact hslot
      have hidle := idle_of_owns hslot (ownsSlot_of_releasesWorker hvalid hrel)
      have hpublic : mwSocketIsFd ((s.g.releaseWorkerThread w).net.sock w).publicFd = false := by
        simp only [Globals.releaseWorkerThread, Globals.modifyWorker, sock_modifySock_self,
          xeNetInternalCloseSocket, closedSocket]
        decide
      refine h.of_disp hhold hpc' hq (fun _ _ b _ => by rw [hquiet])
        (fun v _ hbusy => Keeps.releaseWorkerThread_ne s.g (by rintro rfl; exact hbusy hidle))
        (fun v hv hfree => ?_) fun v hv hfd => ?_
      · by_cases hvw : v = w
        · subst hvw
          exact ⟨hidle, hpublic⟩
        · have hk := Keeps.releaseWorkerThread_ne s.g hvw
          rw [hk.inUse] at hfree
          rw [hk.fds.1]
          exact h.free v hv hfree
      · have hvw : v ≠ w := by
          rintro rfl
          rw [hpublic] at hfd
          cases hfd
        exact h.native_of_keeps hv (.inl (Keeps.releaseWorkerThread_ne s.g hvw)) hfd

end Belongs

/-! ## Runs -/

/-- The condition on a step: the dispatcher does not reserve a buffer that a
worker is about to release again, requests are well formed, and a close is
processed only when its slot is idle. -/
def settledStep (s : State) : Event → Prop
  | .disp i =>
      match s.disp, i with
      | .reserve, _ =>
          match s.g.availableBuffer with
          | some b => noWindow s b
          | none => True
      | .read _, .read _ req => wellFormed req
      | .dispatch b, _ =>
          match (s.g.bufs b).assignedThread with
          | some w => (s.g.bufs b).request.type = .socketClose → Idle s w
          | none => True
      | _, _ => True
  | .worker _ _ => True

instance (req : MtRequest) : Decidable (wellFormed req) := by
  have : (∃ now, assignment req.type = .existing now) ↔
      assignment req.type = .existing true ∨ assignment req.type = .existing false := by
    constructor
    · rintro ⟨now, h⟩
      cases now
      · exact .inr h
      · exact .inl h
    · rintro (h | h)
      · exact ⟨true, h⟩
      · exact ⟨false, h⟩
  exact decidable_of_iff (assignment req.type = .existing true ∨
    assignment req.type = .existing false → mwSocketIsFd req.sockfd = true)
    (by rw [wellFormed, this])

instance (s : State) : (e : Event) → Decidable (settledStep s e)
  | .disp i => by
      dsimp only [settledStep]
      generalize s.disp = pc
      match pc with
      | .reserve =>
          generalize s.g.availableBuffer = b
          rcases b <;> infer_instance
      | .dispatch b =>
          dsimp only
          generalize (s.g.bufs b).assignedThread = w
          rcases w <;> infer_instance
      | .read _ => rcases i <;> infer_instance
      | .lookup _ | .lock _ _ | .process _ | .failed _ | .cleanup _ | .wake _ | .finiSet
      | .finiPost _ | .finiJoin _ | .exited => exact instDecidableTrue
  | .worker w i => instDecidableTrue

namespace Belongs

variable {clientId : BitVec 16} {s : State} {g : Globals}

theorem disp_move (h : Belongs clientId s) {i : Input} {pc : DispPc} {reads : List MtRequest}
    (hmove : DispMove clientId s i g pc reads) (hguard : settledStep s (.disp i)) :
    Belongs clientId ⟨g, pc, s.pcs, reads⟩ := by
  have hwindow : ∀ b, s.disp = .reserve → s.g.availableBuffer = some b →
      ∀ w < maxThreadCount, (s.pcs w).window b = 0 := by
    intro b hpc hb
    simp only [settledStep, hpc, hb] at hguard
    exact hguard
  have hhold := h.holding.disp_move hmove hwindow
  have hdisp := h.disp
  cases hmove with
  | full =>
      exact h.of_keeps hhold trivial (fun _ => rfl) (fun _ _ _ _ => rfl) fun v => Keeps.refl s.g v
  | @reserve b hpc hb =>
      refine h.of_keeps hhold trivial (fun _ => rfl) (fun v hv b' hb' => ?_)
        fun v => Keeps.modifyBuf s.g b _ v
      -- A slot that is on a work queue is in use, and `b` was free.
      apply bufs_modifyBuf_ne
      rintro rfl
      have hfree : (s.g.bufs b').inUse = false := by simpa using List.find?_some hb
      have hle := le_tally (slotActive s b') hv
      have hcount : 0 < (s.g.queue v).count b' := List.count_pos_iff.mpr hb'
      rw [h.holding.inUse b' (by simp only [active, slotActive] at *; omega)] at hfree
      cases hfree
  | @stop b size req hpc =>
      have hb : 0 < s.disp.active b + s.disp.window b := by simp [hpc, DispPc.active]
      exact h.of_keeps hhold trivial (fun _ => rfl)
        (fun v hv b' hb' => bufs_modifyBuf_ne s.g b _ (h.holding.ne_of_queued hb hv hb'))
        fun v => Keeps.modifyBuf s.g b _ v
  | @read b size req hpc =>
      have hb : 0 < s.disp.active b + s.disp.window b := by simp [hpc, DispPc.active]
      simp only [settledStep, hpc] at hguard
      refine h.of_keeps hhold ?_ (fun _ => rfl)
        (fun v hv b' hb' => bufs_modifyBuf_ne s.g b _ (h.holding.ne_of_queued hb hv hb'))
        fun v => Keeps.modifyBuf s.g b _ v
      simp only [DispPc.Belongs, bufs_modifyBuf_self]
      exact hguard
  | @noWorker b hpc ht =>
      have hb : 0 < s.disp.active b + s.disp.window b := by simp [hpc, DispPc.active]
      refine h.of_keeps hhold ?_ (fun _ => rfl)
        (fun v hv b' hb' => bufs_modifyBuf_ne s.g b _ (h.holding.ne_of_queued hb hv hb'))
        fun v => Keeps.modifyBuf s.g b _ v
      simp only [DispPc.Belongs, Assigned, bufs_modifyBuf_self, ht]
  | existing hpc ht hw => exact h.existing hpc ht hw hhold
  | newWorker hpc ht hw => exact h.newWorker hpc ht hw hhold
  | lookupFailed =>
      exact h.of_keeps hhold trivial (fun _ => rfl) (fun _ _ _ _ => rfl) fun v => Keeps.refl s.g v
  | @lock b w hpc =>
      rw [hpc] at hdisp
      have hquiet := Quiet.modifyWorker s.g w (f := fun x =>
        { x with oplock := x.oplock - 1, oplockAcquired := true }) rfl
      have hkeeps : ∀ v, Keeps s.g (s.g.modifyWorker w fun x =>
          { x with oplock := x.oplock - 1, oplockAcquired := true }) v := fun v =>
        Keeps.modifyWorker s.g w v _ ⟨rfl, rfl⟩
      refine h.of_keeps hhold ?_ hquiet.queue (fun _ _ _ _ => rfl) hkeeps
      exact Assigned.mono hdisp rfl (fun v _ _ => hkeeps v) fun v _ hi =>
        ⟨(hquiet.queue v).trans hi.1, hi.2⟩
  | @start b hpc hnow =>
      refine h.of_keeps hhold (h.start hpc hnow fun hc w hw => ?_) (fun _ => rfl)
        (fun _ _ _ _ => rfl) fun v => Keeps.refl s.g v
      simp only [settledStep, hpc, hw] at hguard
      exact hguard hc
  | enqueue hpc hnow hw hq => exact h.enqueue hpc hnow hw hq hhold
  | @queueFull b w hpc =>
      have hquiet := Quiet.releaseOplock s.g w
      exact h.of_keeps hhold trivial hquiet.queue (fun _ _ _ _ => by rw [hquiet.bufs])
        fun v => Keeps.releaseOplock s.g w v
  | running hpc hproc => exact h.running hpc hproc hhold
  | returned hpc hproc =>
      refine h.returned hpc hproc ?_ hhold
      split <;> trivial
  | failed =>
      exact h.of_keeps hhold trivial (fun _ => rfl) (fun _ _ _ _ => rfl) fun v =>
        ⟨rfl, rfl, SameFds.rfl, rfl⟩
  | @cleanup b hpc =>
      have hb : 0 < s.disp.active b + s.disp.window b := by simp [hpc, DispPc.window]
      exact h.of_keeps hhold trivial (fun _ => rfl)
        (fun v hv b' hb' => bufs_releaseBufferItem_ne s.g b (h.holding.ne_of_queued hb hv hb'))
        fun v => Keeps.modifyBuf s.g b _ v
  | @wake w =>
      exact h.of_keeps hhold trivial (Quiet.modifyWorker s.g w rfl).queue (fun _ _ _ _ => rfl)
        fun v => Keeps.modifyWorker s.g w v _ ⟨rfl, rfl⟩
  | finiSet =>
      exact h.of_keeps hhold trivial (fun _ => rfl) (fun _ _ _ _ => rfl) fun v =>
        ⟨rfl, rfl, SameFds.rfl, rfl⟩
  | @finiPost n =>
      exact h.of_keeps hhold trivial (Quiet.modifyWorker s.g n rfl).queue (fun _ _ _ _ => rfl)
        fun v => Keeps.modifyWorker s.g n v _ ⟨rfl, rfl⟩
  | finiDone =>
      exact h.of_keeps hhold trivial (fun _ => rfl) (fun _ _ _ _ => rfl) fun v => Keeps.refl s.g v
  | finiJoin =>
      exact h.of_keeps hhold trivial (fun _ => rfl) (fun _ _ _ _ => rfl) fun v => Keeps.refl s.g v

theorem init (clientId : BitVec 16) : Belongs clientId (ins clientId).init where
  holding := (sound_init clientId).holding
  disp := trivial
  queued := fun w _ b hb => by simp [ins, Globals.queue] at hb
  working := fun w _ f hf => by cases hf
  free := fun w _ _ => by
    have hzero : mwSocketIsFd 0 = false := by decide
    exact ⟨⟨by simp [ins, Globals.queue], rfl⟩, hzero⟩
  natives := fun w _ hfd => by
    have hzero : mwSocketIsFd 0 = true := hfd
    exact absurd hzero (by decide)

theorem step (clientId : BitVec 16) (s : State) (e : Event) (s' : State)
    (hguard : settledStep s e) (hstep : (ins clientId).step s e = some s')
    (h : Belongs clientId s) : Belongs clientId s' := by
  obtain ⟨g', disp', pcs', reads'⟩ := s'
  cases e with
  | disp i =>
      obtain ⟨hmove, hpcs⟩ := dispStep_move clientId hstep
      cases hpcs
      exact h.disp_move hmove hguard
  | worker w i =>
      simp only [ins, Ins.step] at hstep
      split at hstep
      · next hw =>
          obtain ⟨pc, hmove, hpcs, hdisp, hreads⟩ := workerStep_move clientId hstep
          cases hpcs
          cases hdisp
          cases hreads
          exact h.worker_move hw hmove
      · cases hstep

end Belongs

/-- Some thread is in the handler of the activation `f`. -/
def Executing (s : State) (f : Frame) : Prop :=
  f.inCall = true ∧ (s.disp = .process f ∨ ∃ w < maxThreadCount, s.pcs w = .process f)

/-- **No execution on another socket.** In every state that a run of settled
steps reaches, a request that names a socket and is being executed has a slot
that is in use and still is the incarnation it was assigned to, and its native
call is made on the native descriptor of that incarnation. -/
theorem executed_on_own_socket (clientId : BitVec 16) (es : List Event) (s : State)
    (hgood : (ins clientId).Guarded settledStep es) (hrun : (ins clientId).run es = some s)
    (f : Frame) (hexec : Executing s f) (htype : ∃ now, assignment f.req.type = .existing now) :
    ∃ w, f.worker = some w ∧ (s.g.workers w).inUse = true ∧ (s.g.workers w).gen = f.gen ∧
      ∀ m os c fd, f.stage = .call m os (some (c, fd)) → c.fdRef = some .worker →
        s.g.natives w f.gen = some fd := by
  have hbelongs : Belongs clientId s :=
    (ins clientId).guarded_invariant (Belongs.init clientId) (Belongs.step clientId) hgood hrun
  obtain ⟨hcall, hdisp | ⟨w, hw, hpc⟩⟩ := hexec
  · have hserve : DispServing clientId s f := by
      have := hbelongs.disp
      rwa [hdisp] at this
    obtain ⟨now, ht⟩ := htype
    rcases hserve.slot with hno | ⟨w, hworker, -, hheld, hslot⟩
    · rw [ht] at hno
      cases hno
    · refine ⟨w, hworker, hheld.1, hheld.2, ?_⟩
      unfold DispSlot at hslot
      rw [ht] at hslot
      cases now with
      | true => exact (hslot.1 hcall).2
      | false => exact hslot.elim
  · have hserve := hbelongs.working w hw f hpc
    exact ⟨w, hserve.worker, hserve.live.1.1, hserve.live.1.2, hserve.onFd⟩

/-- The native call worker 0 is blocked in: the request, the incarnation it was
assigned to and the one the slot is, the descriptor of the call and that of the
request's incarnation. -/
def callOfWorker (s : State) : Option (BitVec 64 × Nat × Nat × Int × Option Int) :=
  match s.pcs 0 with
  | .process f =>
      match f.stage with
      | .call _ _ (some (_, fd)) =>
          some (f.req.id, f.gen, (s.g.workers 0).gen, fd, s.g.natives 0 f.gen)
      | _ => none
  | _ => none

/-- A receive is queued and its worker calls `recv`. -/
def recvInCall : List Event :=
  serveEvents (createRequest 1) { ret := 3 } ++ queueEvents (recvRequest 2) ++
    workEvents 0 [] ++ [.worker 0 .tau]

theorem executed_on_own_socket_recvInCall :
    ∃ s, (ins 1).run recvInCall = some s ∧ callOfWorker s = some (2, 1, 1, 3, some 3) ∧
      ∀ f, Executing s f → (∃ now, assignment f.req.type = .existing now) →
        ∃ w, f.worker = some w ∧ (s.g.workers w).inUse = true ∧ (s.g.workers w).gen = f.gen ∧
          ∀ m os c fd, f.stage = .call m os (some (c, fd)) → c.fdRef = some .worker →
            s.g.natives w f.gen = some fd := by
  have hsome : ((ins 1).run recvInCall).bind callOfWorker = some (2, 1, 1, 3, some 3) := by
    decide +kernel
  obtain ⟨s, hs, hcall⟩ := Option.bind_eq_some_iff.mp hsome
  exact ⟨s, hs, hcall, executed_on_own_socket 1 recvInCall s (by decide +kernel) hs⟩

/-- A close on the socket of slot 0 of client 1, with one native call. -/
def closeEvents (id : BitVec 64) : List Event :=
  readEvents { type := .socketClose, size := 40, id := id, sockfd := mwSocketCreate 1 0 } ++
    List.replicate 4 (.disp .tau) ++ [.disp (.outcome {})] ++ List.replicate 7 (.disp .tau)

/-- A receive is queued; before its worker runs, the socket is closed and its
slot recycled for a new socket. -/
def recycled : List Event :=
  serveEvents (createRequest 1) { ret := 3 } ++ queueEvents (recvRequest 2) ++ closeEvents 3 ++
    serveEvents (createRequest 4) { ret := 4 } ++ workEvents 0 [] ++ [.worker 0 .tau]

/-- The receive of the first incarnation, whose descriptor was 3, is executed by
the second one on descriptor 4. -/
theorem executed_on_recycled_socket :
    ((ins 1).run recycled).bind callOfWorker = some (2, 1, 2, 4, some 3) := by
  decide +kernel

end MagicWand.Ins
