import MagicWand.Ins.Placement

/-!
# Worker slots and their sockets

A slot is acquired for a new socket, given a native socket by a create or an
accept, loses it with a close, and is released. The history of closed
incarnations tells which sockets are still open. `SlotStep` says everything a
step can do to one slot; from it follow the identity of the public descriptors
and the account of the slots in use.
-/

namespace MagicWand.Ins

open Foundation

/-! ## Closed sockets -/

/-- The incarnations whose socket the next step of an activation closes:
`xe_net_internal_close_socket` runs at the end of a close, and again when a slot
is released. -/
def Frame.closes (g : Globals) (f : Frame) : List (Nat × Nat) :=
  let w := f.worker.getD 0
  match f.stage with
  | .call m os none =>
      match m os with
      | .ok _ => if f.req.type = .socketClose then [(w, (g.workers w).gen)] else []
      | .error _ => []
  | .retire _ resp => if releasesWorker f.req resp then [(w, (g.workers w).gen)] else []
  | _ => []

/-- The incarnations whose socket a step closes. -/
def closes (s : State) : Event → List (Nat × Nat)
  | .disp _ =>
      match s.disp with
      | .process f => f.closes s.g
      | _ => []
  | .worker w _ =>
      match s.pcs w with
      | .process f => f.closes s.g
      | _ => []

/-- A create or an accept has given incarnation `gen` of slot `v` a native
socket, and it has not been closed. -/
def IsOpen (closed : List (Nat × Nat)) (g : Globals) (v gen : Nat) : Prop :=
  (g.natives v gen).isSome = true ∧ (v, gen) ∉ closed

instance (closed : List (Nat × Nat)) (g : Globals) (v gen : Nat) :
    Decidable (IsOpen closed g v gen) := inferInstanceAs (Decidable (_ ∧ _))

/-! ## What a step does to a slot -/

/-- The current incarnation of slot `v` has not been given a socket. -/
def Vacant (closed : List (Nat × Nat)) (g : Globals) (v : Nat) : Prop :=
  g.natives v (g.workers v).gen = none ∧ (v, (g.workers v).gen) ∉ closed

/-- Slot `v` was free and has been given to an accepted connection with native
descriptor `fd`. -/
structure Accepted (clientId : BitVec 16) (g g' : Globals) (v : Nat) (fd : Int) : Prop where
  free : (g.workers v).inUse = false
  inUse : (g'.workers v).inUse = true
  gen : (g'.workers v).gen = (g.workers v).gen + 1
  nonneg : 0 ≤ fd
  natives : g'.natives v = Function.update (g.natives v) ((g.workers v).gen + 1) (some fd)
  localFd : (g'.net.sock v).localFd = fd
  publicFd : (g'.net.sock v).publicFd = mwSocketCreate clientId (BitVec.ofNat 64 v)

/-- Everything a step can do to slot `v`; `closed` are the incarnations closed
before it, `cl` those it closes. -/
inductive SlotStep (clientId : BitVec 16) (closed : List (Nat × Nat)) (g g' : Globals) (v : Nat)
    (cl : List (Nat × Nat)) : Prop where
  | keeps (hk : Keeps g g' v) (hcl : ∀ n, (v, n) ∉ cl)
  | acquired (hfree : (g.workers v).inUse = false) (huse : (g'.workers v).inUse = true)
      (hgen : (g'.workers v).gen = (g.workers v).gen + 1) (hfds : SameFds g.net g'.net v)
      (hnat : g'.natives v = g.natives v) (hcl : ∀ n, (v, n) ∉ cl)
  | accepted (fd : Int) (ha : Accepted clientId g g' v fd) (hcl : ∀ n, (v, n) ∉ cl)
  | created (fd : Int) (hheld : (g.workers v).inUse = true) (hvac : Vacant closed g v)
      (huse : (g'.workers v).inUse = true)
      (hgen : (g'.workers v).gen = (g.workers v).gen) (hfd : 0 ≤ fd)
      (hnat : g'.natives v = Function.update (g.natives v) (g.workers v).gen (some fd))
      (hlocal : (g'.net.sock v).localFd = fd)
      (hpublic : (g'.net.sock v).publicFd = mwSocketCreate clientId (BitVec.ofNat 64 v))
      (hcl : ∀ n, (v, n) ∉ cl)
  | refused (hvac : Vacant closed g v) (huse : (g'.workers v).inUse = (g.workers v).inUse)
      (hgen : (g'.workers v).gen = (g.workers v).gen) (hnat : g'.natives v = g.natives v)
      (hpublic : mwSocketIsFd (g'.net.sock v).publicFd = false) (hcl : ∀ n, (v, n) ∉ cl)
  | shut (huse : (g'.workers v).inUse = (g.workers v).inUse ∨ (g'.workers v).inUse = false)
      (hgen : (g'.workers v).gen = (g.workers v).gen) (hnat : g'.natives v = g.natives v)
      (hpublic : mwSocketIsFd (g'.net.sock v).publicFd = false)
      (hcl : ∀ n, (v, n) ∈ cl ↔ n = (g.workers v).gen)

variable {clientId : BitVec 16} {closed : List (Nat × Nat)} {g g' : Globals}

theorem Accepted.trans_keeps {g'' : Globals} {v : Nat} {fd : Int}
    (h : Accepted clientId g g' v fd) (hk : Keeps g' g'' v) : Accepted clientId g g'' v fd :=
  ⟨h.free, hk.inUse.trans h.inUse, hk.gen.trans h.gen, h.nonneg, hk.natives.trans h.natives,
    hk.fds.2.trans h.localFd, hk.fds.1.trans h.publicFd⟩

theorem SlotStep.trans_keeps {g'' : Globals} {v : Nat} {cl : List (Nat × Nat)}
    (h : SlotStep clientId closed g g' v cl) (hk : Keeps g' g'' v) :
    SlotStep clientId closed g g'' v cl := by
  cases h with
  | keeps hk' hcl => exact .keeps (hk'.trans hk) hcl
  | acquired hfree huse hgen hfds hnat hcl =>
      exact .acquired hfree (hk.inUse.trans huse) (hk.gen.trans hgen) (hfds.trans hk.fds)
        (hk.natives.trans hnat) hcl
  | accepted fd ha hcl => exact .accepted fd (ha.trans_keeps hk) hcl
  | created fd hheld hvac huse hgen hfd hnat hlocal hpublic hcl =>
      exact .created fd hheld hvac (hk.inUse.trans huse) (hk.gen.trans hgen) hfd
        (hk.natives.trans hnat) (hk.fds.2.trans hlocal) (hk.fds.1.trans hpublic) hcl
  | refused hvac huse hgen hnat hpublic hcl =>
      exact .refused hvac (hk.inUse.trans huse) (hk.gen.trans hgen) (hk.natives.trans hnat)
        (by rw [hk.fds.1]; exact hpublic) hcl
  | shut huse hgen hnat hpublic hcl =>
      exact .shut (by rw [hk.inUse]; exact huse) (hk.gen.trans hgen) (hk.natives.trans hnat)
        (by rw [hk.fds.1]; exact hpublic) hcl

/-- A slot acquired for a new socket. -/
theorem slotStep_acquireSlot {w : Nat} (hw : g.availableSlot = some w) (v : Nat) :
    SlotStep clientId closed g (g.acquireSlot w) v [] := by
  by_cases hv : v = w
  · subst hv
    refine .acquired (Globals.availableSlot_spec hw).2 ?_ ?_ SameFds.rfl rfl (by simp)
    · simp only [Globals.acquireSlot, Globals.modifyWorker, Function.update_self]
    · simp only [Globals.acquireSlot, Globals.modifyWorker, Function.update_self]
  · exact .keeps (Keeps.modifyWorker_ne g _ hv) (by simp)

/-- An accepted connection is given a slot. -/
theorem accepted_assignAccepted (resp : MtResponse) (v : Nat) (hstatus : 0 ≤ resp.status) :
    Keeps g (Globals.assignAccepted clientId resp g).2 v ∨
      ∃ fd, Accepted clientId g (Globals.assignAccepted clientId resp g).2 v fd := by
  unfold Globals.assignAccepted
  split
  · exact .inl (Keeps.refl g v)
  · next w hw =>
      by_cases hv : v = w
      · subst hv
        refine .inr ⟨resp.status, (Globals.availableSlot_spec hw).2, ?_, ?_, hstatus, ?_, ?_, ?_⟩
        · simp only [Globals.setNative, Globals.acquireSlot, Globals.modifyWorker,
            Function.update_self]
        · simp only [Globals.setNative, Globals.acquireSlot, Globals.modifyWorker,
            Function.update_self]
        · simp only [Globals.setNative, Globals.acquireSlot, Globals.modifyWorker,
            Function.update_self]
        · simp only [Globals.setNative, sock_modifySock_self]
        · simp only [Globals.setNative, sock_modifySock_self]
      · refine .inl (((Keeps.modifyWorker_ne g _ hv).trans (Keeps.withNet ?_)).trans
          (Keeps.setNative_ne _ _ _ hv))
        simp only [SameFds, sock_modifySock_ne _ _ hv]
        exact ⟨rfl, rfl⟩

theorem accepted_postProcessResponse (req : MtRequest) (worker : Option Nat) (resp : MtResponse)
    (v : Nat) :
    Keeps g (Globals.postProcessResponse clientId req worker resp g).2 v ∨
      ∃ fd, Accepted clientId g (Globals.postProcessResponse clientId req worker resp g).2 v fd := by
  have assigned : ∀ resp : MtResponse, 0 ≤ resp.status →
      Keeps g (Globals.assignAccepted clientId resp g).2.updateListeningPorts v ∨ ∃ fd,
        Accepted clientId g (Globals.assignAccepted clientId resp g).2.updateListeningPorts v fd := by
    intro resp hstatus
    have hports := Keeps.updateListeningPorts (Globals.assignAccepted clientId resp g).2 v
    rcases @accepted_assignAccepted clientId g resp v hstatus with
      hk | ⟨fd, ha⟩
    · exact .inl (hk.trans hports)
    · exact .inr ⟨fd, ha.trans_keeps hports⟩
  unfold Globals.postProcessResponse
  simp only []
  split
  · next hacc =>
      refine assigned _ ?_
      exact hacc.2
  · exact .inl (Keeps.updateListeningPorts g v)

/-- A create gives its slot a native socket and reports success, or it reports
an error and leaves no public descriptor. -/
theorem create_outcome {req : MtRequest} {slot : Nat}
    {os rest : List Outcome} {r : HandlerResult}
    (h : xeNetCreateSocket clientId req slot os = .ok (r, rest)) (n : NetState) :
    (0 ≤ r.response.status ∧ 0 ≤ ((r.effect n).sock slot).localFd ∧
        ((r.effect n).sock slot).publicFd = mwSocketCreate clientId (BitVec.ofNat 64 slot)) ∨
      (r.response.status < 0 ∧ mwSocketIsFd ((r.effect n).sock slot).publicFd = false) := by
  obtain ⟨o, mid, -, h⟩ := Script.bind_ok h
  simp only [xeNetInitSocket_eq] at h
  cases Script.pure_ok h
  simp only [sock_modifySock_self]
  by_cases hneg : o.ret < 0
  · refine .inr ⟨?_, ?_⟩
    · show (if o.ret < 0 then xeGetNegErrnoVal o.errno else 0 : Int) < 0
      rw [if_pos hneg]
      exact xeGetNegErrnoVal_neg o.errno
    · rw [if_pos hneg]
      decide
  · refine .inl ⟨?_, ?_, ?_⟩
    · show 0 ≤ (if o.ret < 0 then xeGetNegErrnoVal o.errno else 0 : Int)
      rw [if_neg hneg]
    · show 0 ≤ o.ret
      omega
    · rw [if_neg hneg]

section Proc

variable {f : Frame} {i : Input} {next : ProcNext}

/-- The handler of a create returns. -/
theorem slotStep_create {m : Native HandlerResult} {os rest : List Outcome} {r : HandlerResult}
    {w : Nat} (hstage : f.stage = .call m os none) (hm : m os = .ok (r, rest))
    (hfrom : f.FromHandler clientId) (ht : f.req.type = .socketCreate)
    (hw : f.worker = some w) (hheld : Held g w f.gen) (hvac : Vacant closed g w) :
    SlotStep clientId closed g (finishHandler f r g) w (f.closes g) := by
  have hcl : f.closes g = [] := by
    simp only [Frame.closes, hstage, hm, ht]
    rfl
  obtain ⟨g₀, rfl⟩ := hfrom m os none hstage
  simp only [handler, ht, hw, Option.getD_some] at hm
  rw [hcl]
  unfold finishHandler
  simp only [ht, hw, Option.getD_some, true_and]
  rcases create_outcome hm g.net with ⟨hstatus, hfd, hpublic⟩ | ⟨hstatus, hpublic⟩
  · rw [if_pos hstatus]
    refine .created _ hheld.1 hvac hheld.1 rfl hfd ?_ rfl hpublic (by simp)
    simp only [Globals.setNative, Function.update_self, hheld.2]
  · rw [if_neg (by omega)]
    exact .refused hvac rfl rfl rfl hpublic (by simp)

/-- The handler of a close returns. -/
theorem slotStep_close {m : Native HandlerResult} {os rest : List Outcome} {r : HandlerResult}
    {w : Nat} (hstage : f.stage = .call m os none) (hm : m os = .ok (r, rest))
    (hfrom : f.FromHandler clientId) (ht : f.req.type = .socketClose)
    (hw : f.worker = some w) :
    SlotStep clientId closed g (finishHandler f r g) w (f.closes g) := by
  have hcl : f.closes g = [(w, (g.workers w).gen)] := by
    simp only [Frame.closes, hstage, hm, ht, hw, Option.getD_some]
    rfl
  obtain ⟨g₀, rfl⟩ := hfrom m os none hstage
  simp only [handler, ht, hw, Option.getD_some] at hm
  have hinv := (close_fds hm g.net).2
  rw [hcl]
  unfold finishHandler
  simp only [ht]
  rw [if_neg (fun hc => by cases hc.1)]
  refine .shut (.inl rfl) rfl rfl ?_ (by simp)
  rw [hinv]
  decide

/-- A slot is released. -/
theorem slotStep_releaseWorkerThread (w : Nat) :
    SlotStep clientId closed g (g.releaseWorkerThread w) w [(w, (g.workers w).gen)] := by
  refine .shut (.inr ?_) ?_ rfl ?_ (by simp)
  · simp only [Globals.releaseWorkerThread, Globals.modifyWorker, Function.update_self]
  · simp only [Globals.releaseWorkerThread, Globals.modifyWorker, Function.update_self]
  · simp only [Globals.releaseWorkerThread, Globals.modifyWorker, sock_modifySock_self,
      xeNetInternalCloseSocket, closedSocket]
    decide

/-- The handler of an activation returns that is not at a create or a close of
slot `v`. -/
theorem finishHandler_keeps {m : Native HandlerResult} {os rest : List Outcome}
    {r : HandlerResult} {v : Nat} (hstage : f.stage = .call m os none)
    (hm : m os = .ok (r, rest)) (hfrom : f.FromHandler clientId)
    (hvalid : assignment f.req.type ≠ .invalid)
    (hown : ownsSlot f.req.type = true → ∃ w, f.worker = some w ∧ v ≠ w) :
    Keeps g (finishHandler f r g) v := by
  rcases (ProcMove.finish hstage hm : ProcMove clientId g f .tau _ _).slot hfrom hvalid hown with
    hk | ⟨-, hfresh⟩
  · exact hk
  · -- No handler acquires a slot.
    have huse : (g.workers v).inUse = true := by
      have := hfresh.inUse
      unfold finishHandler at this
      simp only [] at this
      split at this <;> exact this
    rw [hfresh.free] at huse
    cases huse

/-- What a step of an activation does to a slot. -/
theorem ProcMove.slotStep (h : ProcMove clientId g f i g' next) (hfrom : f.FromHandler clientId)
    (hvalid : assignment f.req.type ≠ .invalid)
    (hworker : ownsSlot f.req.type = true → ∃ w, f.worker = some w)
    (hcreate : ∀ w, f.inCall = true → f.req.type = .socketCreate → f.worker = some w →
      Held g w f.gen ∧ Vacant closed g w) (v : Nat) :
    SlotStep clientId closed g g' v (f.closes g) := by
  cases h with
  | issue hstage hm => exact .keeps (Keeps.refl g v) (by simp [Frame.closes, hstage, hm])
  | receive hstage => exact .keeps (Keeps.refl g v) (by simp [Frame.closes, hstage])
  | finish hstage hm =>
      by_cases hown : ownsSlot f.req.type = true ∧ f.worker = some v
      · obtain ⟨ho, hw⟩ := hown
        by_cases ht : f.req.type = .socketCreate
        · obtain ⟨hheld, hvac⟩ := hcreate v (by simp [Frame.inCall, hstage]) ht hw
          exact slotStep_create hstage hm hfrom ht hw hheld hvac
        · exact slotStep_close hstage hm hfrom (by simpa [ownsSlot, ht] using ho) hw
      · have hother : ownsSlot f.req.type = true → ∃ w, f.worker = some w ∧ v ≠ w := fun ho => by
          obtain ⟨w, hw⟩ := hworker ho
          exact ⟨w, hw, fun hv => hown ⟨ho, by rw [hv]; exact hw⟩⟩
        refine .keeps (finishHandler_keeps hstage hm hfrom hvalid hother) fun n hmem => ?_
        simp only [Frame.closes, hstage, hm] at hmem
        split at hmem
        · next ht =>
            obtain ⟨w, hw, hv⟩ := hother (by simp [ownsSlot, ht])
            rw [hw] at hmem
            exact hv (congrArg Prod.fst (List.mem_singleton.mp hmem))
        · cases hmem
  | unlock hstage =>
      exact .keeps (Keeps.unlockWorker g f.worker v) (by simp [Frame.closes, hstage])
  | @post rc resp hstage =>
      have hcl : ∀ n, (v, n) ∉ f.closes g := by simp [Frame.closes, hstage]
      rcases @accepted_postProcessResponse clientId _ f.req f.worker resp v with
        hk | ⟨fd, ha⟩
      · exact .keeps hk hcl
      · exact .accepted fd ha hcl
  | write hstage =>
      exact .keeps ⟨rfl, rfl, SameFds.rfl, rfl⟩ (by simp [Frame.closes, hstage])
  | release hstage =>
      exact .keeps (Keeps.modifyBuf g f.buf _ v) (by simp [Frame.closes, hstage])
  | @retireSlot rc resp w hstage hrel hw =>
      have hcl : f.closes g = [(w, (g.workers w).gen)] := by
        simp [Frame.closes, hstage, hrel, hw]
      rw [hcl]
      by_cases hv : v = w
      · subst hv
        exact slotStep_releaseWorkerThread v
      · exact .keeps (Keeps.releaseWorkerThread_ne g hv) (by simp [hv])
  | retire hstage hrel => exact .keeps (Keeps.refl g v) (by simp [Frame.closes, hstage, hrel])

/-- Until it returns, an activation leaves the slots that are in use in use. -/
theorem ProcMove.held {f' : Frame} {w gen : Nat} (h : ProcMove clientId g f i g' (.running f'))
    (hheld : Held g w gen) : Held g' w gen := by
  cases h with
  | issue => exact hheld
  | receive => exact hheld
  | finish =>
      unfold finishHandler
      simp only []
      split <;> exact hheld
  | unlock => exact hheld.keeps (Keeps.unlockWorker g f.worker w)
  | post =>
      rcases postProcessResponse_slot clientId f.req f.worker _ g w with hk | ⟨-, hfresh⟩
      · exact hheld.keeps hk
      · rw [Held, hfresh.free] at hheld
        cases hheld.1
  | write => exact hheld
  | release => exact hheld

theorem Employed.not_releases {w : Nat} (h : Employed clientId f w) (resp : MtResponse) :
    releasesWorker f.req resp = false := by
  by_contra hne
  have := ownsSlot_of_releasesWorker h.valid (Bool.not_eq_false _ ▸ hne)
  rw [h.not_owns] at this
  cases this

theorem Employed.closes {w : Nat} (h : Employed clientId f w) : f.closes g = [] := by
  have htype : f.req.type ≠ .socketClose := fun hc => by
    have := h.type
    rw [hc] at this
    cases this
  unfold Frame.closes
  simp only [htype, h.not_releases]
  split
  · split <;> rfl
  · rfl
  · rfl

/-- A worker thread keeps a slot or gives it to an accepted connection. -/
theorem Employed.slot {w : Nat} (h : Employed clientId f w)
    (hproc : ProcMove clientId g f i g' next) (v : Nat) :
    Keeps g g' v ∨ ∃ fd, Accepted clientId g g' v fd := by
  cases hproc with
  | issue => exact .inl (Keeps.refl g v)
  | receive => exact .inl (Keeps.refl g v)
  | finish hstage hm =>
      refine .inl (finishHandler_keeps hstage hm h.fromHandler h.valid fun ho => ?_)
      rw [h.not_owns] at ho
      cases ho
  | unlock => exact .inl (Keeps.unlockWorker g f.worker v)
  | @post rc resp => exact accepted_postProcessResponse f.req f.worker resp v
  | write => exact .inl ⟨rfl, rfl, SameFds.rfl, rfl⟩
  | release => exact .inl (Keeps.modifyBuf g f.buf _ v)
  | @retireSlot rc resp w hstage hrel =>
      rw [h.not_releases] at hrel
      cases hrel
  | retire => exact .inl (Keeps.refl g v)

end Proc

/-! ## The state of a slot -/

/-- What holds of slot `v` at all times: only its current incarnation can be
open; then it has the native descriptor it was given and the public descriptor
of the slot; otherwise it has no public descriptor. -/
structure SlotOk (clientId : BitVec 16) (closed : List (Nat × Nat)) (g : Globals) (v : Nat) :
    Prop where
  current : ∀ n, IsOpen closed g v n → n = (g.workers v).gen
  future : ∀ n, (g.workers v).gen < n → g.natives v n = none ∧ (v, n) ∉ closed
  live : ∀ fd, g.natives v (g.workers v).gen = some fd → (v, (g.workers v).gen) ∉ closed →
    (g.workers v).inUse = true ∧ 0 ≤ fd ∧ (g.net.sock v).localFd = fd ∧
      (g.net.sock v).publicFd = mwSocketCreate clientId (BitVec.ofNat 64 v)
  dead : ¬ IsOpen closed g v (g.workers v).gen → mwSocketIsFd (g.net.sock v).publicFd = false

namespace SlotOk

variable {v : Nat} {cl : List (Nat × Nat)}

theorem inUse (h : SlotOk clientId closed g v) {n : Nat} (hopen : IsOpen closed g v n) :
    (g.workers v).inUse = true := by
  cases h.current n hopen
  obtain ⟨fd, hfd⟩ := Option.isSome_iff_exists.mp hopen.1
  exact (h.live fd hfd hopen.2).1

theorem not_open_of_free (h : SlotOk clientId closed g v) (hfree : (g.workers v).inUse = false)
    (n : Nat) : ¬ IsOpen closed g v n := fun hopen => by
  rw [h.inUse hopen] at hfree
  cases hfree

/-- A slot that gets no socket and has none. -/
theorem of_empty (h : SlotOk clientId closed g v)
    (hgen : (g.workers v).gen ≤ (g'.workers v).gen) (hnat : g'.natives v = g.natives v)
    (hcl : ∀ n, (g'.workers v).gen < n → (v, n) ∉ cl)
    (hnone : ∀ n, ¬ IsOpen (closed ++ cl) g' v n)
    (hpublic : mwSocketIsFd (g'.net.sock v).publicFd = false) :
    SlotOk clientId (closed ++ cl) g' v where
  current := fun n hopen => absurd hopen (hnone n)
  future := fun n hn => by
    obtain ⟨hno, hnc⟩ := h.future n (by omega)
    rw [hnat, List.mem_append]
    exact ⟨hno, fun hc => hc.elim hnc (hcl n hn)⟩
  live := fun fd hfd hnc => absurd ⟨by rw [hfd]; rfl, hnc⟩ (hnone _)
  dead := fun _ => hpublic

/-- A slot whose current incarnation gets a socket. -/
theorem of_given (h : SlotOk clientId closed g v) {fd : Int}
    (hgen : (g.workers v).gen ≤ (g'.workers v).gen) (hfd : 0 ≤ fd)
    (hnat : g'.natives v = Function.update (g.natives v) (g'.workers v).gen (some fd))
    (hcl : ∀ n, (v, n) ∉ cl) (hnone : ∀ n, ¬ IsOpen closed g v n)
    (hnew : (v, (g'.workers v).gen) ∉ closed) (huse : (g'.workers v).inUse = true)
    (hlocal : (g'.net.sock v).localFd = fd)
    (hpublic : (g'.net.sock v).publicFd = mwSocketCreate clientId (BitVec.ofNat 64 v)) :
    SlotOk clientId (closed ++ cl) g' v where
  current := fun n hopen => by
    by_contra hne
    refine hnone n ⟨?_, fun hc => hopen.2 (List.mem_append_left _ hc)⟩
    have := hopen.1
    rwa [hnat, Function.update_of_ne hne] at this
  future := fun n hn => by
    obtain ⟨hno, hnc⟩ := h.future n (by omega)
    rw [hnat, Function.update_of_ne (by omega), List.mem_append]
    exact ⟨hno, fun hc => hc.elim hnc (hcl n)⟩
  live := fun fd' hfd' _ => by
    rw [hnat, Function.update_self] at hfd'
    cases hfd'
    exact ⟨huse, hfd, hlocal, hpublic⟩
  dead := fun hno => by
    refine absurd ⟨?_, ?_⟩ hno
    · rw [hnat, Function.update_self]
      rfl
    · rw [List.mem_append]
      exact fun hc => hc.elim hnew (hcl _)

theorem step (h : SlotOk clientId closed g v) (hs : SlotStep clientId closed g g' v cl) :
    SlotOk clientId (closed ++ cl) g' v := by
  have mono : ∀ {n}, IsOpen (closed ++ cl) g v n → IsOpen closed g v n := fun hopen =>
    ⟨hopen.1, fun hc => hopen.2 (List.mem_append_left _ hc)⟩
  cases hs with
  | keeps hk hcl =>
      have hiff : ∀ n, IsOpen (closed ++ cl) g' v n ↔ IsOpen closed g v n := fun n => by
        simp only [IsOpen, hk.natives, List.mem_append, hcl n, or_false]
      refine ⟨fun n hopen => ?_, fun n hn => ?_, fun fd hfd hnc => ?_, fun hno => ?_⟩
      · rw [hk.gen]
        exact h.current n ((hiff n).mp hopen)
      · rw [hk.gen] at hn
        simp only [hk.natives, List.mem_append, hcl n, or_false]
        exact h.future n hn
      · rw [hk.natives, hk.gen] at hfd
        rw [hk.gen, List.mem_append] at hnc
        rw [hk.inUse, hk.fds.1, hk.fds.2]
        exact h.live fd hfd fun hc => hnc (.inl hc)
      · rw [hk.gen, hiff] at hno
        rw [hk.fds.1]
        exact h.dead hno
  | acquired hfree huse hgen hfds hnat hcl =>
      have hnone := h.not_open_of_free hfree
      refine h.of_empty (by omega) hnat (fun n _ => hcl n) (fun n hopen => hnone n (mono ?_)) ?_
      · simpa only [IsOpen, hnat] using hopen
      · rw [hfds.1]
        exact h.dead (hnone _)
  | accepted fd ha hcl =>
      have hgen := ha.gen
      refine h.of_given (by omega) ha.nonneg (by rw [hgen]; exact ha.natives) hcl
        (h.not_open_of_free ha.free) ?_ ha.inUse ha.localFd ha.publicFd
      rw [hgen]
      exact (h.future _ (Nat.lt_succ_self _)).2
  | created fd hheld hvac huse hgen hfd hnat hlocal hpublic hcl =>
      refine h.of_given (by omega) hfd (by rw [hgen]; exact hnat) hcl (fun n hopen => ?_) ?_ huse
        hlocal hpublic
      · cases h.current n hopen
        have := hopen.1
        rw [hvac.1] at this
        cases this
      · rw [hgen]
        exact hvac.2
  | refused hvac huse hgen hnat hpublic hcl =>
      refine h.of_empty (by omega) hnat (fun n _ => hcl n) (fun n hopen => ?_) hpublic
      have hopen : IsOpen closed g v n := mono (by simpa only [IsOpen, hnat] using hopen)
      cases h.current n hopen
      have := hopen.1
      rw [hvac.1] at this
      cases this
  | shut huse hgen hnat hpublic hcl =>
      refine h.of_empty (by omega) hnat (fun n hn hc => ?_) (fun n hopen => ?_) hpublic
      · have := (hcl n).mp hc
        omega
      · have hold : IsOpen (closed ++ cl) g v n := by simpa only [IsOpen, hnat] using hopen
        cases h.current n (mono hold)
        exact hold.2 (List.mem_append_right _ ((hcl _).mpr rfl))

end SlotOk

/-! ## The slots the dispatcher holds -/

/-- The slot of an activation of the dispatcher is in use as the incarnation it
was given, and that of a create has no socket yet. -/
structure Frame.Tenured (closed : List (Nat × Nat)) (g : Globals) (f : Frame) : Prop where
  worker : ownsSlot f.req.type = true → ∃ w, f.worker = some w
  held : ∀ w, f.worker = some w → Held g w f.gen
  vacant : ∀ w, f.inCall = true → f.req.type = .socketCreate → f.worker = some w →
    Vacant closed g w

def DispPc.Tenured (closed : List (Nat × Nat)) (g : Globals) : DispPc → Prop
  | .lock b w => Held g w (g.bufs b).gen
  | .dispatch b => ∀ w, (g.bufs b).assignedThread = some w →
      Held g w (g.bufs b).gen ∧
        (assignment (g.bufs b).request.type = .newWorker → Vacant closed g w)
  | .process f => f.Tenured closed g
  | _ => True

theorem Vacant.keeps {v : Nat} (h : Vacant closed g v) (hk : Keeps g g' v) : Vacant closed g' v := by
  rw [Vacant, hk.natives, hk.gen]
  exact h

/-- Slots in use are kept while the dispatcher does not move. -/
theorem DispPc.Tenured.mono {pc : DispPc} (h : pc.Tenured closed g)
    (hb : ∀ b, 0 < pc.active b → g'.bufs b = g.bufs b)
    (hkeeps : ∀ v, (g.workers v).inUse = true → Keeps g g' v) : pc.Tenured closed g' := by
  cases pc with
  | lock b w =>
      simp only [DispPc.Tenured] at h ⊢
      rw [hb b (by simp [DispPc.active])]
      exact h.keeps (hkeeps w h.1)
  | dispatch b =>
      simp only [DispPc.Tenured] at h ⊢
      rw [hb b (by simp [DispPc.active])]
      intro w hw
      obtain ⟨hheld, hvac⟩ := h w hw
      have hk := hkeeps w hheld.1
      exact ⟨hheld.keeps hk, fun ht => (hvac ht).keeps hk⟩
  | process f =>
      have h : f.Tenured closed g := h
      refine ⟨h.worker, fun w hw => ?_, fun w hcall ht hw => ?_⟩
      · exact (h.held w hw).keeps (hkeeps w (h.held w hw).1)
      · exact (h.vacant w hcall ht hw).keeps (hkeeps w (h.held w hw).1)
  | _ => trivial

structure Tracked (clientId : BitVec 16) (closed : List (Nat × Nat)) (s : State) : Prop where
  placed : Placed clientId s
  tenured : s.disp.Tenured closed s.g
  slots : ∀ v < maxThreadCount, SlotOk clientId closed s.g v

/-! ## Steps -/

section Steps

variable {s : State} {i : Input}

/-- A step of a worker thread closes nothing; it keeps a slot or gives it to an
accepted connection. -/
theorem WorkerMove.slot (h : Placed clientId s) {w : Nat} {pc : WorkerPc}
    (hw : w < maxThreadCount) (hmove : WorkerMove clientId s w i g pc) :
    closes s (.worker w i) = [] ∧
      ∀ v, Keeps s.g g v ∨ ∃ fd, Accepted clientId s.g g v fd := by
  have proc : ∀ {f next}, s.pcs w = .process f → ProcMove clientId s.g f i g next →
      closes s (.worker w i) = [] ∧
        ∀ v, Keeps s.g g v ∨ ∃ fd, Accepted clientId s.g g v fd := by
    intro f next hpc hproc
    have hemp := h.working w hw f hpc
    exact ⟨by simp only [closes, hpc, hemp.closes], fun v => hemp.slot hproc v⟩
  cases hmove with
  | wait hpc =>
      exact ⟨by simp [closes, hpc], fun v => .inl (Keeps.modifyWorker s.g w v _ ⟨rfl, rfl⟩)⟩
  | empty hpc => exact ⟨by simp [closes, hpc], fun v => .inl (Keeps.refl s.g v)⟩
  | dequeue hpc =>
      exact ⟨by simp [closes, hpc], fun v => .inl (Keeps.modifyWorker s.g w v _ ⟨rfl, rfl⟩)⟩
  | running hpc hproc => exact proc hpc hproc
  | returned hpc hproc => exact proc hpc hproc
  | @cleanup b hpc => exact ⟨by simp [closes, hpc], fun v => .inl (Keeps.modifyBuf s.g b _ v)⟩

theorem WorkerMove.slotStep (h : Placed clientId s) {w : Nat} {pc : WorkerPc}
    (hw : w < maxThreadCount) (hmove : WorkerMove clientId s w i g pc) (v : Nat) :
    SlotStep clientId closed s.g g v (closes s (.worker w i)) := by
  obtain ⟨hnil, hslot⟩ := hmove.slot h hw
  rw [hnil]
  rcases hslot v with hk | ⟨fd, ha⟩
  · exact .keeps hk (by simp)
  · exact .accepted fd ha (by simp)

/-- What a lookup does to a slot. -/
theorem slotStep_lookup {fd : MwSocketFd} {w : Nat}
    (hw : g.getWorkerThreadForFd fd = .found w g') (v : Nat) :
    SlotStep clientId closed g g' v [] ∧ (g'.workers w).inUse = true := by
  unfold Globals.getWorkerThreadForFd at hw
  split at hw
  · split at hw
    · next w' hslot =>
        cases hw
        refine ⟨slotStep_acquireSlot hslot v, ?_⟩
        simp only [Globals.acquireSlot, Globals.modifyWorker, Function.update_self]
    · cases hw
  · simp only [] at hw
    repeat' split at hw
    all_goals cases hw
    next huse _ => exact ⟨.keeps (Keeps.refl g v) (by simp), by simpa using huse⟩

/-- What a step of the dispatcher does to a slot. -/
theorem DispMove.slotStep (h : Tracked clientId closed s) {pc : DispPc} {reads : List MtRequest}
    (hmove : DispMove clientId s i g pc reads) (v : Nat) :
    SlotStep clientId closed s.g g v (closes s (.disp i)) := by
  have proc : ∀ {f next}, s.disp = .process f → ProcMove clientId s.g f i g next →
      SlotStep clientId closed s.g g v (closes s (.disp i)) := by
    intro f next hpc hproc
    have hemp : DispEmployed clientId f := by
      have := h.placed.disp
      rwa [hpc] at this
    have hten : f.Tenured closed s.g := by
      have := h.tenured
      rwa [hpc] at this
    have hcl : closes s (.disp i) = f.closes s.g := by simp only [closes, hpc]
    rw [hcl]
    exact hproc.slotStep hemp.fromHandler hemp.valid hten.worker
      (fun w hcall ht hw => ⟨hten.held w hw, hten.vacant w hcall ht hw⟩) v
  cases hmove with
  | full => exact .keeps (Keeps.refl s.g v) (by simp [closes, *])
  | @reserve b => exact .keeps (Keeps.modifyBuf s.g b _ v) (by simp [closes, *])
  | @stop b => exact .keeps (Keeps.modifyBuf s.g b _ v) (by simp [closes, *])
  | @read b => exact .keeps (Keeps.modifyBuf s.g b _ v) (by simp [closes, *])
  | @noWorker b => exact .keeps (Keeps.modifyBuf s.g b _ v) (by simp [closes, *])
  | @existing b w now hpc ht g hw =>
      have hnil : closes s (.disp .tau) = [] := by simp only [closes, hpc]
      rw [hnil]
      exact (slotStep_lookup hw v).1.trans_keeps (Keeps.modifyBuf g b _ v)
  | @newWorker b w hpc ht hw =>
      have hnil : closes s (.disp .tau) = [] := by simp only [closes, hpc]
      rw [hnil]
      exact (slotStep_acquireSlot hw v).trans_keeps (Keeps.modifyBuf _ b _ v)
  | lookupFailed => exact .keeps (Keeps.refl s.g v) (by simp [closes, *])
  | @lock b w => exact .keeps (Keeps.modifyWorker s.g w v _ ⟨rfl, rfl⟩) (by simp [closes, *])
  | start => exact .keeps (Keeps.refl s.g v) (by simp [closes, *])
  | @enqueue b w => exact .keeps (Keeps.modifyWorker s.g w v _ ⟨rfl, rfl⟩) (by simp [closes, *])
  | @queueFull b w => exact .keeps (Keeps.releaseOplock s.g w v) (by simp [closes, *])
  | running hpc hproc => exact proc hpc hproc
  | returned hpc hproc => exact proc hpc hproc
  | failed => exact .keeps ⟨rfl, rfl, SameFds.rfl, rfl⟩ (by simp [closes, *])
  | @cleanup b => exact .keeps (Keeps.modifyBuf s.g b _ v) (by simp [closes, *])
  | @wake w => exact .keeps (Keeps.modifyWorker s.g w v _ ⟨rfl, rfl⟩) (by simp [closes, *])
  | finiSet => exact .keeps ⟨rfl, rfl, SameFds.rfl, rfl⟩ (by simp [closes, *])
  | @finiPost n => exact .keeps (Keeps.modifyWorker s.g n v _ ⟨rfl, rfl⟩) (by simp [closes, *])
  | finiDone => exact .keeps (Keeps.refl s.g v) (by simp [closes, *])
  | finiJoin => exact .keeps (Keeps.refl s.g v) (by simp [closes, *])

/-- While the handler runs, no socket is closed. -/
theorem ProcMove.closes_inCall {f f' : Frame} (h : ProcMove clientId g f i g' (.running f'))
    (hcall : f'.inCall = true) : f.closes g = [] := by
  cases h with
  | issue hstage hm => simp only [Frame.closes, hstage, hm]
  | receive hstage => simp only [Frame.closes, hstage]
  | finish => cases hcall
  | unlock => cases hcall
  | post => cases hcall
  | write => cases hcall
  | release => cases hcall

theorem usesWorker_of_owns {t : MtRequestType} (h : ownsSlot t = true) : usesWorker t = true := by
  cases t <;> first | rfl | cases h

/-- The lookup gives the request a slot in use. -/
theorem tenured_afterLookup {b w : Nat} (t : MtRequestType) (huse : (g.workers w).inUse = true)
    (hvac : assignment (g.bufs b).request.type = .newWorker → Vacant closed g w) :
    (afterLookup t b w).Tenured closed (assignTo g b w) := by
  have hheld : Held (assignTo g b w) w ((assignTo g b w).bufs b).gen := by
    simp only [assignTo, bufs_modifyBuf_self]
    exact ⟨huse, rfl⟩
  unfold afterLookup
  split
  · exact hheld
  · intro w' hw'
    have hww : w' = w := by
      simp only [assignTo, bufs_modifyBuf_self] at hw'
      exact (Option.some.inj hw').symm
    subst hww
    refine ⟨hheld, fun ht => ?_⟩
    rw [assignTo, request_modifyBuf g b rfl] at ht
    exact (hvac ht).keeps (Keeps.modifyBuf g b _ w')

namespace Tracked

theorem start (h : Tracked clientId closed s) {b : Nat} (hpc : s.disp = .dispatch b)
    (hcan : canStart s.g b = true) : (Frame.start clientId s.g b).Tenured closed s.g := by
  have hten : DispPc.Tenured closed s.g (.dispatch b) := by
    have := h.tenured
    rwa [hpc] at this
  refine ⟨fun ho => ?_, fun w hw => (hten w hw).1, fun w _ ht hw => (hten w hw).2 ?_⟩
  · have huses : usesWorker (s.g.bufs b).request.type = true := usesWorker_of_owns ho
    have hsome : (s.g.bufs b).assignedThread.isSome = true := by
      simpa only [canStart, huses, Bool.not_true, Bool.or_false] using hcan
    exact Option.isSome_iff_exists.mp hsome
  · have ht : (s.g.bufs b).request.type = .socketCreate := ht
    rw [ht]
    rfl

theorem running (h : Tracked clientId closed s) {f f' : Frame} (hpc : s.disp = .process f)
    (hproc : ProcMove clientId s.g f i g (.running f')) :
    f'.Tenured (closed ++ f.closes s.g) g := by
  have hten : f.Tenured closed s.g := by
    have := h.tenured
    rwa [hpc] at this
  obtain ⟨-, hreq, hworker, hgen⟩ := hproc.same_request
  refine ⟨fun ho => ?_, fun w hw => ?_, fun w hcall ht hw => ?_⟩
  · rw [hworker]
    exact hten.worker (by rw [← hreq]; exact ho)
  · rw [hgen]
    exact hproc.held (hten.held w (by rw [← hworker]; exact hw))
  · obtain ⟨hcall', rfl⟩ := hproc.inCall hcall
    rw [hproc.closes_inCall hcall, List.append_nil]
    exact hten.vacant w hcall' (by rw [← hreq]; exact ht) (by rw [← hworker]; exact hw)

theorem disp_tenured (h : Tracked clientId closed s) {pc : DispPc} {reads : List MtRequest}
    (hmove : DispMove clientId s i g pc reads) : pc.Tenured (closed ++ closes s (.disp i)) g := by
  have nil : (closes s (.disp i)) = [] → pc.Tenured closed g →
      pc.Tenured (closed ++ closes s (.disp i)) g := by
    intro hnil hten
    rwa [hnil, List.append_nil]
  have hten := h.tenured
  cases hmove with
  | @noWorker b =>
      intro w hw
      rw [bufs_modifyBuf_self] at hw
      cases hw
  | @existing b w now hpc ht g hw =>
      refine nil (by simp only [closes, hpc]) (tenured_afterLookup _
        (@slotStep_lookup clientId closed _ _ _ _ hw w).2 fun hnew => ?_)
      rw [(getWorkerThreadForFd_spec hw).2.bufs, ht] at hnew
      cases hnew
  | @newWorker b w hpc ht hw =>
      refine nil (by simp only [closes, hpc]) (tenured_afterLookup _ ?_ fun _ => ?_)
      · simp only [Globals.acquireSlot, Globals.modifyWorker, Function.update_self]
      · have hfuture := (h.slots w (Globals.availableSlot_spec hw).1).future _ (Nat.lt_succ_self _)
        simpa only [Vacant, Globals.acquireSlot, Globals.modifyWorker, Function.update_self] using
          hfuture
  | @lock b w hpc =>
      refine nil (by simp only [closes, hpc]) fun w' hw' => ?_
      rw [hpc] at hten
      obtain ⟨hassigned, hreq⟩ : (s.g.bufs b).assignedThread = some w ∧ _ := by
        have := h.placed.disp
        rwa [hpc] at this
      have hww : w' = w := Option.some.inj (hw'.symm.trans hassigned)
      subst hww
      refine ⟨Held.keeps hten (Keeps.modifyWorker s.g w' w' _ ⟨rfl, rfl⟩), fun ht => ?_⟩
      obtain ⟨now, hexisting⟩ := assignment_of_requiresOplock hreq
      exact absurd (hexisting.symm.trans ht) (by simp)
  | start hpc hnow hcan => exact nil (by simp only [closes, hpc]) (h.start hpc hcan)
  | @running f i g f' hpc hproc =>
      have hcl : closes s (.disp i) = f.closes s.g := by simp only [closes, hpc]
      rw [hcl]
      exact h.running hpc hproc
  | returned => split <;> trivial
  | _ => trivial

theorem init (clientId : BitVec 16) : Tracked clientId [] (ins clientId).init where
  placed := Placed.init clientId
  tenured := trivial
  slots := fun v _ =>
    { current := fun n hopen => by cases hopen.1
      future := fun n _ => ⟨rfl, by simp⟩
      live := fun fd hfd => by cases hfd
      dead := fun _ => by
        show mwSocketIsFd 0 = false
        decide }

theorem step (clientId : BitVec 16) (closed : List (Nat × Nat)) (s : State) (e : Event)
    (s' : State) (hguard : releasedOnce s e) (hstep : (ins clientId).step s e = some s')
    (h : Tracked clientId closed s) : Tracked clientId (closed ++ closes s e) s' := by
  refine step_rule hstep (fun i g pc reads he hmove => ?_) fun w i g pc he hw hmove => ?_
  · subst he
    exact ⟨h.placed.disp_move hmove hguard, h.disp_tenured hmove,
      fun v hv => (h.slots v hv).step (hmove.slotStep h v)⟩
  · subst he
    obtain ⟨hnil, hslot⟩ := hmove.slot h.placed hw
    refine ⟨h.placed.worker_move hw hmove, ?_,
      fun v hv => (h.slots v hv).step (hmove.slotStep h.placed hw v)⟩
    rw [hnil, List.append_nil]
    refine h.tenured.mono (fun b hb => h.placed.holding.worker_bufs_disp hw hmove (Nat.lt_add_right _ hb))
      fun v huse => ?_
    rcases hslot v with hk | ⟨fd, ha⟩
    · exact hk
    · rw [ha.free] at huse
      cases huse

end Tracked

end Steps

/-! ## Public descriptors -/

theorem getWorkerThreadForFd_publicFd {v : Nat} (hv : v < maxThreadCount)
    (huse : (g.workers v).inUse = true)
    (hpublic : (g.net.sock v).publicFd = mwSocketCreate clientId (BitVec.ofNat 64 v)) :
    g.getWorkerThreadForFd (g.net.sock v).publicFd = .found v g := by
  have hid : ((mwSocketGetId (g.net.sock v).publicFd).setWidth 32).toInt = (v : Int) := by
    have hlt : v < 50 := hv
    have hnat : ((mwSocketGetId (g.net.sock v).publicFd).setWidth 32).toNat = v := by
      rw [BitVec.toNat_setWidth, hpublic, toNat_mwSocketGetId_create, BitVec.toNat_ofNat]
      omega
    rw [BitVec.toInt_eq_toNat_cond, hnat]
    simp only [Nat.reducePow]
    omega
  have hne : (g.net.sock v).publicFd ≠ mtInvalidSocketFd := by
    intro heq
    have hfd := mwSocketIsFd_create clientId (BitVec.ofNat 64 v)
    rw [← hpublic, heq] at hfd
    exact absurd hfd (by decide)
  have hbound : ¬ (maxThreadCount : Int) ≤ (v : Int) := by omega
  unfold Globals.getWorkerThreadForFd
  rw [if_neg hne]
  simp only [hid]
  rw [if_neg hbound, if_neg (by omega)]
  simp only [Int.toNat_natCast, huse, Bool.true_eq_false, if_false, ne_eq, not_true_eq_false]

/-- A slot that is handed out was free, and is a new incarnation from then on. -/
theorem SlotStep.handed_out {v : Nat} {cl : List (Nat × Nat)}
    (h : SlotStep clientId closed g g' v cl) (hgen : (g'.workers v).gen ≠ (g.workers v).gen) :
    (g.workers v).inUse = false ∧ (g'.workers v).inUse = true ∧
      (g'.workers v).gen = (g.workers v).gen + 1 := by
  cases h with
  | acquired hfree huse hsucc => exact ⟨hfree, huse, hsucc⟩
  | accepted fd ha => exact ⟨ha.free, ha.inUse, ha.gen⟩
  | keeps hk => exact absurd hk.gen hgen
  | created fd hheld hvac huse hsame => exact absurd hsame hgen
  | refused hvac huse hsame => exact absurd hsame hgen
  | shut huse hsame => exact absurd hsame hgen

theorem Tracked.slotStep {s s' : State} {e : Event} (h : Tracked clientId closed s)
    (hstep : (ins clientId).step s e = some s') (v : Nat) :
    SlotStep clientId closed s.g s'.g v (closes s e) := by
  refine step_rule (P := fun s' => SlotStep clientId closed s.g s'.g v (closes s e)) hstep
    (fun i g pc reads he hmove => ?_) fun w i g pc he hw hmove => ?_
  · subst he
    exact hmove.slotStep h v
  · subst he
    exact hmove.slotStep h.placed hw v

/-- The slot that the dispatcher has acquired for a create whose handler has not
returned, and its incarnation. -/
def creating (s : State) : Option (Nat × Nat) :=
  match s.disp with
  | .dispatch b =>
      if (s.g.bufs b).request.type = .socketCreate then
        (s.g.bufs b).assignedThread.map fun w => (w, (s.g.bufs b).gen)
      else none
  | .process f =>
      if f.req.type = .socketCreate ∧ f.inCall = true then f.worker.map fun w => (w, f.gen)
      else none
  | _ => none

theorem Tracked.creating {s : State} (h : Tracked clientId closed s) {w gen : Nat}
    (hc : creating s = some (w, gen)) : Held s.g w gen ∧ s.g.natives w gen = none := by
  have key : ∀ {gen}, Held s.g w gen → Vacant closed s.g w → s.g.natives w gen = none := by
    intro gen hheld hvac
    rw [← hheld.2]
    exact hvac.1
  have hten := h.tenured
  unfold Ins.creating at hc
  split at hc
  · next b hpc =>
      rw [hpc] at hten
      split at hc
      · next ht =>
          obtain ⟨w', hw', heq⟩ := Option.map_eq_some_iff.mp hc
          cases heq
          obtain ⟨hheld, hvac⟩ := hten w hw'
          exact ⟨hheld, key hheld (hvac (by rw [ht]; rfl))⟩
      · cases hc
  · next f hpc =>
      rw [hpc] at hten
      split at hc
      · next ht =>
          obtain ⟨w', hw', heq⟩ := Option.map_eq_some_iff.mp hc
          cases heq
          have hheld := Frame.Tenured.held hten w hw'
          exact ⟨hheld, key hheld (Frame.Tenured.vacant hten w ht.2 ht.1 hw')⟩
      · cases hc
  · cases hc

/-- Slot `v` serves the socket that its incarnation `n` was given as native
descriptor `fd`, under the public descriptor of the slot. -/
structure Identified (clientId : BitVec 16) (g : Globals) (v n : Nat) (fd : Int) : Prop where
  gen : (g.workers v).gen = n
  inUse : (g.workers v).inUse = true
  localFd : (g.net.sock v).localFd = fd
  publicFd : (g.net.sock v).publicFd = mwSocketCreate clientId (BitVec.ofNat 64 v)
  isFd : mwSocketIsFd (g.net.sock v).publicFd = true
  client : mwSocketClientId (g.net.sock v).publicFd = clientId
  index : (mwSocketGetId (g.net.sock v).publicFd).toNat = v
  found : g.getWorkerThreadForFd (g.net.sock v).publicFd = .found v g

theorem Tracked.identified {s : State} (h : Tracked clientId closed s) {v n : Nat} {fd : Int}
    (hv : v < maxThreadCount) (hfd : s.g.natives v n = some fd) (hopen : (v, n) ∉ closed) :
    Identified clientId s.g v n fd := by
  have hok := h.slots v hv
  cases hok.current n ⟨by rw [hfd]; rfl, hopen⟩
  obtain ⟨huse, -, hlocal, hpublic⟩ := hok.live fd hfd hopen
  refine ⟨rfl, huse, hlocal, hpublic, ?_, ?_, ?_, getWorkerThreadForFd_publicFd hv huse hpublic⟩
  · rw [hpublic]
    exact mwSocketIsFd_create _ _
  · rw [hpublic]
    exact mwSocketClientId_create _ _
  · have hlt : v < 50 := hv
    rw [hpublic, toNat_mwSocketGetId_create, BitVec.toNat_ofNat]
    omega

/-- **Public descriptors identify open sockets.** In every state that a run
reaches in which no buffer is reserved inside a release window: a socket that a
create or an accept has given to a slot and that is not closed is served by that
slot under its public descriptor, which encodes client and slot and is found by
the lookup; distinct open sockets have distinct public descriptors; a slot that
the next step hands out is free before; and the slot acquired for a create is
given to nobody else until the handler has returned. -/
theorem public_fds_identify (clientId : BitVec 16) (es : List Event) (s : State)
    (hgood : (ins clientId).Guarded releasedOnce es) (hrun : (ins clientId).run es = some s) :
    (∀ v < maxThreadCount, ∀ n fd, s.g.natives v n = some fd →
      (v, n) ∉ (ins clientId).history closes es → Identified clientId s.g v n fd) ∧
    (∀ v < maxThreadCount, ∀ v' < maxThreadCount, ∀ n n',
      IsOpen ((ins clientId).history closes es) s.g v n →
      IsOpen ((ins clientId).history closes es) s.g v' n' → (v, n) ≠ (v', n') →
      (s.g.net.sock v).publicFd ≠ (s.g.net.sock v').publicFd) ∧
    (∀ e s', (ins clientId).step s e = some s' → ∀ v,
      (s'.g.workers v).gen ≠ (s.g.workers v).gen →
      (s.g.workers v).inUse = false ∧ (s'.g.workers v).inUse = true ∧
        (s'.g.workers v).gen = (s.g.workers v).gen + 1) ∧
    ∀ w gen, creating s = some (w, gen) → Held s.g w gen ∧ s.g.natives w gen = none := by
  have h : Tracked clientId ((ins clientId).history closes es) s :=
    (ins clientId).guarded_history (Tracked.init clientId)
      (fun closed s e s' => Tracked.step clientId closed s e s') hgood hrun
  have hid : ∀ v < maxThreadCount, ∀ n fd, s.g.natives v n = some fd →
      (v, n) ∉ (ins clientId).history closes es → Identified clientId s.g v n fd :=
    fun v hv n fd hfd hopen => h.identified hv hfd hopen
  refine ⟨hid, ?_, fun e s' hstep v => (h.slotStep hstep v).handed_out,
    fun w gen hc => h.creating hc⟩
  intro v hv v' hv' n n' hopen hopen' hne heq
  obtain ⟨fd, hfd⟩ := Option.isSome_iff_exists.mp hopen.1
  obtain ⟨fd', hfd'⟩ := Option.isSome_iff_exists.mp hopen'.1
  have hone := hid v hv n fd hfd hopen.2
  have htwo := hid v' hv' n' fd' hfd' hopen'.2
  have hindex : v = v' := by rw [← hone.index, ← htwo.index, heq]
  subst hindex
  exact hne (by rw [← hone.gen, ← htwo.gen])

/-- Slot `v` after a run: whether it is in use, its public descriptor, the native
descriptor given to its current incarnation, and whether that has been closed. -/
def socketOf (es : List Event) (v : Nat) : Option (Bool × MwSocketFd × Option Int × Bool) :=
  ((ins 1).run es).map fun s =>
    ((s.g.workers v).inUse, (s.g.net.sock v).publicFd, s.g.natives v (s.g.workers v).gen,
      decide ((v, (s.g.workers v).gen) ∈ (ins 1).history closes es))

/-- Two sockets are created, and the second one accepts a connection. -/
def acceptedSocket : List Event :=
  serveEvents (createRequest 1) { ret := 3 } ++ serveEvents (createRequest 2) { ret := 4 } ++
    queueEvents { type := .socketAccept, size := 40, id := 3, sockfd := mwSocketCreate 1 1 } ++
    workEvents 1 [{ ret := 5 }] ++ List.replicate 7 (.worker 1 .tau)

theorem public_fds_identify_acceptedSocket :
    ∃ s, (ins 1).run acceptedSocket = some s ∧
      s.g.natives 2 1 = some 5 ∧ Identified 1 s.g 2 1 5 := by
  have hsome : socketOf acceptedSocket 2 =
      some (true, mwSocketCreate 1 2, some 5, false) := by
    decide +kernel
  obtain ⟨s, hs, hobs⟩ := Option.map_eq_some_iff.mp hsome
  have hgen : ((ins 1).run acceptedSocket).map (fun s => (s.g.workers 2).gen) = some 1 := by
    decide +kernel
  rw [hs] at hgen
  have hgen : (s.g.workers 2).gen = 1 := Option.some.inj hgen
  simp only [Prod.mk.injEq, decide_eq_false_iff_not, hgen] at hobs
  exact ⟨s, hs, hobs.2.2.1, (public_fds_identify 1 acceptedSocket s (by decide +kernel) hs).1 2
    (by decide) 1 5 hobs.2.2.1 hobs.2.2.2⟩

/-- The buffer of a receive is reserved inside the release window of worker 0
and released under its new request, which is queued all the same. The next
request, a create, is read into it; both the worker and the dispatcher process
it, for the same slot, and the worker's call of `socket` fails. -/
def createdTwice : List Event :=
  serveEvents (createRequest 1) { ret := 3 } ++ queueEvents (recvRequest 2) ++
    workEvents 0 [{ ret := 1, data := [1] }] ++ List.replicate 5 (.worker 0 .tau) ++
    readEvents (recvRequest 3) ++ List.replicate 2 (.worker 0 .tau) ++
    List.replicate 3 (.disp .tau) ++ readEvents (createRequest 4) ++ [.disp .tau] ++
    List.replicate 3 (.worker 0 .tau) ++
    [.disp .tau, .disp .tau, .disp (.outcome { ret := 5 }), .disp .tau] ++
    [.worker 0 (.outcome { ret := -1, errno := 12 }), .worker 0 .tau]

/-- Slot 1 serves the open socket 5, and has no public descriptor. -/
theorem public_fd_lost :
    socketOf createdTwice 1 = some (true, 0, some 5, false) ∧ (0 : MwSocketFd) ≠ mwSocketCreate 1 1 := by
  decide +kernel

end MagicWand.Ins
