import MagicWand.Ins.Slots

/-!
# The account of the worker slots

A slot in use serves an open socket, or a request that is being processed holds
it for the time of its processing: a create whose socket is not there yet, or a
close (or failed create) that is about to release it. An address block acquires
a slot that nobody releases, and so does a request that needs a socket but names
none; the account balances in the runs without such requests.
-/

namespace MagicWand.Ins

open Foundation

/-! ## Temporary slots -/

/-- The slot an activation holds only for the time of its processing. -/
def Frame.temporary (f : Frame) : Option Nat :=
  match f.stage with
  | .call _ _ _ => if assignment f.req.type = .newWorker then f.worker else none
  | .unlock _ resp => if releasesWorker f.req resp then f.worker else none
  | .post _ resp => if releasesWorker f.req resp then f.worker else none
  | .write _ resp => if releasesWorker f.req resp then f.worker else none
  | .release _ resp => if releasesWorker f.req resp then f.worker else none
  | .retire _ resp => if releasesWorker f.req resp then f.worker else none

def DispPc.temporary (g : Globals) : DispPc → Option Nat
  | .dispatch b =>
      if assignment (g.bufs b).request.type = .newWorker then (g.bufs b).assignedThread else none
  | .process f => f.temporary
  | _ => none

/-- The slots that requests in progress hold temporarily. Workers never acquire
a slot for the time of a request. -/
def temporarySlots (s : State) : Nat := (s.disp.temporary s.g).toList.length

def slotsInUse (s : State) : Nat :=
  tally maxThreadCount fun v => if (s.g.workers v).inUse then 1 else 0

/-- Sockets that a create or an accept has given to a slot and that are not
closed. -/
def openSockets (closed : List (Nat × Nat)) (s : State) : Nat :=
  tally maxThreadCount fun v => if IsOpen closed s.g v (s.g.workers v).gen then 1 else 0

/-! ## The condition -/

/-- The request leaves no slot behind: it is no address block, and it names a
socket if its type needs one. -/
def leavesNoSlot (req : MtRequest) : Prop :=
  req.type ≠ .addrBlock ∧
    (assignment req.type = .existing true ∨ assignment req.type = .existing false →
      req.sockfd ≠ mtInvalidSocketFd)

instance (req : MtRequest) : Decidable (leavesNoSlot req) := inferInstanceAs (Decidable (_ ∧ _))

def accountableStep (s : State) (e : Event) : Prop :=
  releasedOnce s e ∧
    match s.disp, e with
    | .read _, .disp (.read _ req) => leavesNoSlot req
    | _, _ => True

instance (s : State) (e : Event) : Decidable (accountableStep s e) := by
  have harrival : Decidable (match s.disp, e with
      | .read _, .disp (.read _ req) => leavesNoSlot req
      | _, _ => True) := by
    generalize s.disp = pc
    rcases e with i | _ <;> rcases pc <;> first | infer_instance | (rcases i <;> infer_instance)
  exact instDecidableAnd

/-- The request the dispatcher is at leaves no slot behind. -/
def DispPc.Accountable (g : Globals) : DispPc → Prop
  | .lookup b => leavesNoSlot (g.bufs b).request
  | .dispatch b => (g.bufs b).request.type ≠ .addrBlock
  | .lock b _ => (g.bufs b).request.type ≠ .addrBlock
  | .process f => f.req.type ≠ .addrBlock
  | _ => True

/-- Slot `v` is in use because its socket is open, or because the dispatcher
holds it temporarily, and not for both reasons. -/
def SlotAccounted (closed : List (Nat × Nat)) (g : Globals) (pc : DispPc) (v : Nat) : Prop :=
  ((g.workers v).inUse = true ↔
    IsOpen closed g v (g.workers v).gen ∨ pc.temporary g = some v) ∧
  ¬ (IsOpen closed g v (g.workers v).gen ∧ pc.temporary g = some v)

structure Accounted (clientId : BitVec 16) (closed : List (Nat × Nat)) (s : State) : Prop where
  tracked : Tracked clientId closed s
  accountable : s.disp.Accountable s.g
  slots : ∀ v < maxThreadCount, SlotAccounted closed s.g s.disp v

section Steps

variable {clientId : BitVec 16} {closed : List (Nat × Nat)} {s : State} {g : Globals} {i : Input}

/-- A slot keeps its standing when it is kept and its temporary holder stays. -/
theorem SlotAccounted.keeps {v : Nat} {pc pc' : DispPc} {cl : List (Nat × Nat)}
    (h : SlotAccounted closed s.g pc v) (hk : Keeps s.g g v) (hcl : ∀ n, (v, n) ∉ cl)
    (ht : pc'.temporary g = some v ↔ pc.temporary s.g = some v) :
    SlotAccounted (closed ++ cl) g pc' v := by
  have hopen : IsOpen (closed ++ cl) g v (g.workers v).gen ↔
      IsOpen closed s.g v (s.g.workers v).gen := by
    simp only [IsOpen, hk.natives, hk.gen, List.mem_append, hcl, or_false]
  rw [SlotAccounted, hopen, ht, hk.inUse]
  exact h

/-- A slot that is given to an accepted connection. -/
theorem SlotAccounted.accepted {v : Nat} {pc : DispPc} {cl : List (Nat × Nat)} {fd : Int}
    (hok : SlotOk clientId closed s.g v) (ha : Accepted clientId s.g g v fd)
    (hcl : ∀ n, (v, n) ∉ cl) (ht : pc.temporary g ≠ some v) :
    SlotAccounted (closed ++ cl) g pc v := by
  have hopen : IsOpen (closed ++ cl) g v (g.workers v).gen := by
    refine ⟨?_, ?_⟩
    · rw [ha.natives, ha.gen, Function.update_self]
      rfl
    · rw [ha.gen, List.mem_append]
      exact fun hc => hc.elim (hok.future _ (Nat.lt_succ_self _)).2 (hcl _)
  exact ⟨⟨fun _ => .inl hopen, fun _ => ha.inUse⟩, fun hc => ht hc.2⟩

/-- The temporary holder is settled by the buffers of the dispatcher. -/
theorem temporary_of_bufs {pc : DispPc} (hb : ∀ b, 0 < pc.active b → g.bufs b = s.g.bufs b) :
    pc.temporary g = pc.temporary s.g := by
  cases pc with
  | dispatch b => simp only [DispPc.temporary, hb b (by simp [DispPc.active])]
  | _ => rfl

theorem accountable_of_bufs {pc : DispPc} (h : pc.Accountable s.g)
    (hb : ∀ b, 0 < pc.active b → g.bufs b = s.g.bufs b) : pc.Accountable g := by
  cases pc with
  | lookup b => simpa only [DispPc.Accountable, hb b (by simp [DispPc.active])] using h
  | lock b w => simpa only [DispPc.Accountable, hb b (by simp [DispPc.active])] using h
  | dispatch b => simpa only [DispPc.Accountable, hb b (by simp [DispPc.active])] using h
  | process f => exact h
  | _ => trivial

namespace Accounted

theorem worker_move (h : Accounted clientId closed s) {w : Nat} {pc : WorkerPc}
    (hw : w < maxThreadCount) (hmove : WorkerMove clientId s w i g pc)
    (hnext : Tracked clientId (closed ++ closes s (.worker w i))
      ⟨g, s.disp, Function.update s.pcs w pc, s.reads⟩) :
    Accounted clientId (closed ++ closes s (.worker w i))
      ⟨g, s.disp, Function.update s.pcs w pc, s.reads⟩ := by
  have hplaced := h.tracked.placed
  have hbufs : ∀ b, 0 < s.disp.active b → g.bufs b = s.g.bufs b := fun b hb =>
    hplaced.holding.worker_bufs_disp hw hmove (Nat.lt_add_right _ hb)
  have htemp := temporary_of_bufs hbufs
  obtain ⟨hnil, hslot⟩ := hmove.slot hplaced hw
  refine ⟨hnext, accountable_of_bufs h.accountable hbufs, fun v hv => ?_⟩
  have hacc := h.slots v hv
  rcases hslot v with hk | ⟨fd, ha⟩
  · exact hacc.keeps hk (by simp [hnil]) (by rw [htemp])
  · refine SlotAccounted.accepted (h.tracked.slots v hv) ha (by simp [hnil]) fun hc => ?_
    rw [htemp] at hc
    have huse := hacc.1.mpr (.inr hc)
    rw [ha.free] at huse
    cases huse

/-- A step of the dispatcher that keeps every slot and the temporary holder. -/
theorem of_keeps (h : Accounted clientId closed s) {pc : DispPc} {reads : List MtRequest}
    (hnext : Tracked clientId (closed ++ closes s (.disp i)) ⟨g, pc, s.pcs, reads⟩)
    (hkeeps : ∀ v, Keeps s.g g v) (hnil : closes s (.disp i) = [])
    (htemp : pc.temporary g = s.disp.temporary s.g) (hacc : pc.Accountable g) :
    Accounted clientId (closed ++ closes s (.disp i)) ⟨g, pc, s.pcs, reads⟩ :=
  ⟨hnext, hacc, fun v hv => (h.slots v hv).keeps (hkeeps v) (by simp [hnil]) (by rw [htemp])⟩

/-- A step of the dispatcher that changes the standing of slot `w`. -/
theorem of_one (h : Accounted clientId closed s) {pc : DispPc} {reads : List MtRequest} {w : Nat}
    (hnext : Tracked clientId (closed ++ closes s (.disp i)) ⟨g, pc, s.pcs, reads⟩)
    (hkeeps : ∀ v, v ≠ w → Keeps s.g g v) (hcl : ∀ v n, v ≠ w → (v, n) ∉ closes s (.disp i))
    (hbefore : ∀ v, v ≠ w → s.disp.temporary s.g ≠ some v)
    (hafter : ∀ v, v ≠ w → pc.temporary g ≠ some v)
    (hw : SlotAccounted (closed ++ closes s (.disp i)) g pc w) (hacc : pc.Accountable g) :
    Accounted clientId (closed ++ closes s (.disp i)) ⟨g, pc, s.pcs, reads⟩ := by
  refine ⟨hnext, hacc, fun v hv => ?_⟩
  by_cases hvw : v = w
  · subst hvw
    exact hw
  · exact (h.slots v hv).keeps (hkeeps v hvw) (fun n => hcl v n hvw)
      ⟨fun hc => absurd hc (hafter v hvw), fun hc => absurd hc (hbefore v hvw)⟩

end Accounted

/-- A slot has a public descriptor exactly while its socket is open. -/
theorem SlotOk.open_iff_isFd {v : Nat} (h : SlotOk clientId closed g v) :
    IsOpen closed g v (g.workers v).gen ↔ mwSocketIsFd (g.net.sock v).publicFd = true := by
  constructor
  · intro hopen
    obtain ⟨fd, hfd⟩ := Option.isSome_iff_exists.mp hopen.1
    rw [(h.live fd hfd hopen.2).2.2.2]
    exact mwSocketIsFd_create _ _
  · intro hfd
    by_contra hno
    rw [h.dead hno] at hfd
    cases hfd

/-- The lookup of a socket that is named acquires nothing. -/
theorem lookup_named {fd : MwSocketFd} {w : Nat} {g g' : Globals} (hfd : fd ≠ mtInvalidSocketFd)
    (h : g.getWorkerThreadForFd fd = .found w g') : g' = g := by
  unfold Globals.getWorkerThreadForFd at h
  rw [if_neg hfd] at h
  simp only [] at h
  repeat' split at h
  all_goals cases h
  rfl

/-- Post-processing does not change whether the worker is released. -/
theorem releasesWorker_postProcessResponse {req : MtRequest} {worker : Option Nat}
    {resp : MtResponse} (ht : req.type ≠ .socketAccept) :
    releasesWorker req (Globals.postProcessResponse clientId req worker resp g).1 =
      releasesWorker req resp := by
  unfold Globals.postProcessResponse
  simp only []
  rw [if_neg fun hc => ht hc.1]
  rfl

theorem create_of_newWorker {t : MtRequestType} (h : assignment t = .newWorker)
    (hne : t ≠ .addrBlock) : t = .socketCreate := by
  cases t <;> first | rfl | exact absurd rfl hne | cases h

namespace Accounted

/-- The handler of the dispatcher's request returns. -/
theorem finish (h : Accounted clientId closed s) {f : Frame} {m : Native HandlerResult}
    {os rest : List Outcome} {r : HandlerResult} (hpc : s.disp = .process f)
    (hemp : DispEmployed clientId f) (hten : f.Tenured closed s.g)
    (hne : f.req.type ≠ .addrBlock) (hstage : f.stage = .call m os none)
    (hm : m os = .ok (r, rest))
    (hnext : Tracked clientId (closed ++ closes s (.disp i))
      ⟨finishHandler f r s.g, .process { f with stage := .unlock r.rc r.response }, s.pcs,
        s.reads⟩) :
    Accounted clientId (closed ++ closes s (.disp i))
      ⟨finishHandler f r s.g, .process { f with stage := .unlock r.rc r.response }, s.pcs,
        s.reads⟩ := by
  have hcl : closes s (.disp i) = f.closes s.g := by simp only [closes, hpc]
  by_cases hown : ownsSlot f.req.type = true
  swap
  · have hnot : f.req.type ≠ .socketCreate ∧ f.req.type ≠ .socketClose := by
      simpa [ownsSlot] using hown
    have hnew : assignment f.req.type ≠ .newWorker := fun hc =>
      hnot.1 (create_of_newWorker hc hne)
    have hrel : releasesWorker f.req r.response = false := by
      by_contra hc
      exact hown (ownsSlot_of_releasesWorker hemp.valid (Bool.not_eq_false _ ▸ hc))
    refine h.of_keeps hnext (fun v => finishHandler_keeps hstage hm hemp.fromHandler hemp.valid
      fun ho => absurd ho hown) ?_ ?_ hne
    · rw [hcl]
      simp only [Frame.closes, hstage, hm, hnot.2, if_false]
    · simp only [DispPc.temporary, Frame.temporary, hpc, hstage, hnew, hrel, if_false,
        Bool.false_eq_true]
  · obtain ⟨w, hw⟩ := hten.worker hown
    have hlt := hemp.worker w hw
    have hmove : ProcMove clientId s.g f .tau (finishHandler f r s.g)
        (.running { f with stage := .unlock r.rc r.response }) := .finish hstage hm
    have huse : ((finishHandler f r s.g).workers w).inUse = true :=
      (hmove.held (hten.held w hw)).1
    have hafter : (DispPc.process { f with stage := .unlock r.rc r.response }).temporary
        (finishHandler f r s.g) = if releasesWorker f.req r.response then some w else none := by
      simp only [DispPc.temporary, Frame.temporary, hw]
    have hopen := (hnext.slots w hlt).open_iff_isFd
    refine h.of_one (w := w) hnext (fun v hv => finishHandler_keeps hstage hm hemp.fromHandler
      hemp.valid fun _ => ⟨w, hw, hv⟩) (fun v n hv => ?_) (fun v hv => ?_) (fun v hv => ?_) ?_ hne
    · rw [hcl]
      simp only [Frame.closes, hstage, hm, hw, Option.getD_some]
      split <;> simp [hv]
    · simp only [DispPc.temporary, Frame.temporary, hpc, hstage, hw]
      split <;> simp [Ne.symm hv]
    · rw [hafter]
      split <;> simp [Ne.symm hv]
    · -- The socket is open after the handler unless the slot is to be released.
      have hkey : mwSocketIsFd ((finishHandler f r s.g).net.sock w).publicFd =
          !releasesWorker f.req r.response := by
        obtain ⟨g₀, rfl⟩ := hemp.fromHandler m os none hstage
        have hnet : (finishHandler f r s.g).net = r.effect s.g.net := by
          unfold finishHandler
          simp only []
          split <;> rfl
        rw [hnet]
        by_cases ht : f.req.type = .socketCreate
        · simp only [handler, ht, hw, Option.getD_some] at hm
          rcases create_outcome hm s.g.net with ⟨hst, -, hpub⟩ | ⟨hst, hpub⟩
          · rw [hpub, mwSocketIsFd_create]
            simp [releasesWorker, ht, MtRequestType.deallocatesFd, MtRequestType.code, hst]
          · rw [hpub]
            simp [releasesWorker, ht, hst]
        · have hclose : f.req.type = .socketClose := by simpa [ownsSlot, ht] using hown
          simp only [handler, hclose, hw, Option.getD_some] at hm
          have hrel : releasesWorker f.req r.response = true := by
            simp [releasesWorker, hclose, MtRequestType.deallocatesFd, MtRequestType.code]
          rw [(close_fds hm s.g.net).2, hrel]
          decide
      rw [SlotAccounted, hafter, hopen, huse]
      show (true = true ↔ mwSocketIsFd ((finishHandler f r s.g).net.sock w).publicFd = true ∨ _) ∧
        ¬ (mwSocketIsFd ((finishHandler f r s.g).net.sock w).publicFd = true ∧ _)
      rw [hkey]
      cases releasesWorker f.req r.response <;> simp

theorem running (h : Accounted clientId closed s) {f f' : Frame} (hpc : s.disp = .process f)
    (hproc : ProcMove clientId s.g f i g (.running f'))
    (hnext : Tracked clientId (closed ++ closes s (.disp i)) ⟨g, .process f', s.pcs, s.reads⟩) :
    Accounted clientId (closed ++ closes s (.disp i)) ⟨g, .process f', s.pcs, s.reads⟩ := by
  have hemp : DispEmployed clientId f := by
    have := h.tracked.placed.disp
    rwa [hpc] at this
  have hten : f.Tenured closed s.g := by
    have := h.tracked.tenured
    rwa [hpc] at this
  have hne : f.req.type ≠ .addrBlock := by
    have := h.accountable
    rwa [hpc] at this
  have hcl : closes s (.disp i) = f.closes s.g := by simp only [closes, hpc]
  have htemp : s.disp.temporary s.g = f.temporary := by simp only [hpc, DispPc.temporary]
  cases hproc with
  | issue hstage hm =>
      refine h.of_keeps hnext (fun v => Keeps.refl s.g v) ?_ ?_ hne
      · simp only [hcl, Frame.closes, hstage, hm]
      · rw [htemp]
        simp only [DispPc.temporary, Frame.temporary, hstage]
  | receive hstage =>
      refine h.of_keeps hnext (fun v => Keeps.refl s.g v) ?_ ?_ hne
      · simp only [hcl, Frame.closes, hstage]
      · rw [htemp]
        simp only [DispPc.temporary, Frame.temporary, hstage]
  | finish hstage hm => exact h.finish hpc hemp hten hne hstage hm hnext
  | unlock hstage =>
      refine h.of_keeps hnext (fun v => Keeps.unlockWorker s.g f.worker v) ?_ ?_ hne
      · simp only [hcl, Frame.closes, hstage]
      · rw [htemp]
        simp only [DispPc.temporary, Frame.temporary, hstage]
  | post hstage =>
      have hnot := Belongs.ne_accept_of_now hemp.now
      refine h.of_keeps hnext (fun v => ?_) ?_ ?_ hne
      · rcases postProcessResponse_slot clientId f.req f.worker _ s.g v with hk | ⟨hacc, -⟩
        · exact hk
        · exact absurd hacc hnot
      · simp only [hcl, Frame.closes, hstage]
      · rw [htemp]
        simp only [DispPc.temporary, Frame.temporary, hstage,
          releasesWorker_postProcessResponse hnot]
  | write hstage =>
      refine h.of_keeps hnext (fun v => ⟨rfl, rfl, SameFds.rfl, rfl⟩) ?_ ?_ hne
      · simp only [hcl, Frame.closes, hstage]
      · rw [htemp]
        simp only [DispPc.temporary, Frame.temporary, hstage]
  | release hstage =>
      refine h.of_keeps hnext (fun v => Keeps.modifyBuf s.g f.buf _ v) ?_ ?_ hne
      · simp only [hcl, Frame.closes, hstage]
      · rw [htemp]
        simp only [DispPc.temporary, Frame.temporary, hstage]

theorem returned (h : Accounted clientId closed s) {f : Frame} {rc : Int} {pc : DispPc}
    (hpc : s.disp = .process f) (hproc : ProcMove clientId s.g f i g (.returned rc))
    (hnext : Tracked clientId (closed ++ closes s (.disp i)) ⟨g, pc, s.pcs, s.reads⟩)
    (hnone : pc.temporary g = none) (hacc : pc.Accountable g) :
    Accounted clientId (closed ++ closes s (.disp i)) ⟨g, pc, s.pcs, s.reads⟩ := by
  have hemp : DispEmployed clientId f := by
    have := h.tracked.placed.disp
    rwa [hpc] at this
  have hcl : closes s (.disp i) = f.closes s.g := by simp only [closes, hpc]
  have htemp : s.disp.temporary s.g = f.temporary := by simp only [hpc, DispPc.temporary]
  cases hproc with
  | @retireSlot rc resp w hstage hrel hw =>
      have hfree : ((s.g.releaseWorkerThread w).workers w).inUse = false := by
        simp only [Globals.releaseWorkerThread, Globals.modifyWorker, Function.update_self]
      refine h.of_one (w := w) hnext (fun v hv => Keeps.releaseWorkerThread_ne s.g hv)
        (fun v n hv => ?_) (fun v hv => ?_) (fun v _ => by simp [hnone]) ⟨?_, ?_⟩ hacc
      · simp [hcl, Frame.closes, hstage, hrel, hw, hv]
      · simp [htemp, Frame.temporary, hstage, hrel, hw, Ne.symm hv]
      · rw [hfree, hnone]
        simp only [Bool.false_eq_true, reduceCtorEq, or_false, false_iff]
        exact (hnext.slots w (hemp.worker w hw)).not_open_of_free hfree _
      · simp [hnone]
  | retire hstage hrel =>
      refine h.of_keeps hnext (fun v => Keeps.refl s.g v) ?_ ?_ hacc
      · simp [hcl, Frame.closes, hstage, hrel]
      · simp [htemp, hnone, Frame.temporary, hstage, hrel]

/-- A free slot is acquired for a create. -/
theorem newWorker (h : Accounted clientId closed s) {b w : Nat} (hpc : s.disp = .lookup b)
    (ht : assignment (s.g.bufs b).request.type = .newWorker) (hw : s.g.availableSlot = some w)
    (hnext : Tracked clientId (closed ++ closes s (.disp i)) ⟨assignTo (s.g.acquireSlot w) b w,
      afterLookup (s.g.bufs b).request.type b w, s.pcs, s.reads⟩) :
    Accounted clientId (closed ++ closes s (.disp i)) ⟨assignTo (s.g.acquireSlot w) b w,
      afterLookup (s.g.bufs b).request.type b w, s.pcs, s.reads⟩ := by
  have hnil : closes s (.disp i) = [] := by simp only [closes, hpc]
  have hreq : leavesNoSlot (s.g.bufs b).request := by
    have := h.accountable
    rwa [hpc] at this
  have hcreate := create_of_newWorker ht hreq.1
  have hafter : afterLookup (s.g.bufs b).request.type b w = .dispatch b := by
    rw [hcreate]
    rfl
  have hlt := (Globals.availableSlot_spec hw).1
  rw [hafter] at hnext ⊢
  have htype : ((assignTo (s.g.acquireSlot w) b w).bufs b).request.type = .socketCreate := by
    rw [assignTo, request_modifyBuf (s.g.acquireSlot w) b rfl]
    exact hcreate
  have htemp : (DispPc.dispatch b).temporary (assignTo (s.g.acquireSlot w) b w) = some w := by
    simp only [DispPc.temporary, htype, assignment, if_true]
    simp only [assignTo, bufs_modifyBuf_self]
  have hbefore : s.disp.temporary s.g = none := by simp only [hpc, DispPc.temporary]
  have huse : ((assignTo (s.g.acquireSlot w) b w).workers w).inUse = true := by
    simp only [assignTo, Globals.modifyBuf, Globals.acquireSlot, Globals.modifyWorker,
      Function.update_self]
  have hno : ¬ IsOpen (closed ++ closes s (.disp i)) (assignTo (s.g.acquireSlot w) b w) w
      ((assignTo (s.g.acquireSlot w) b w).workers w).gen := fun hopen => by
    have hvac := (hnext.tenured w (by simp only [assignTo, bufs_modifyBuf_self])).2
      (by rw [htype]; rfl)
    have := hopen.1
    rw [hvac.1] at this
    cases this
  refine h.of_one (w := w) hnext (fun v hv => (Keeps.modifyWorker_ne s.g _ hv).trans
      (Keeps.modifyBuf _ b _ v)) (by simp [hnil]) (by simp [hbefore])
    (fun v hv => by simp [htemp, Ne.symm hv]) ⟨?_, fun hc => hno hc.1⟩ ?_
  · rw [huse, htemp]
    simp
  · show ((assignTo (s.g.acquireSlot w) b w).bufs b).request.type ≠ .addrBlock
    rw [htype]
    simp

/-- The socket of the request is found. -/
theorem existing (h : Accounted clientId closed s) {b w : Nat} {now : Bool} {g : Globals}
    (hpc : s.disp = .lookup b) (ht : assignment (s.g.bufs b).request.type = .existing now)
    (hw : s.g.getWorkerThreadForFd (s.g.bufs b).request.sockfd = .found w g)
    (hnext : Tracked clientId (closed ++ closes s (.disp i)) ⟨assignTo g b w,
      afterLookup (s.g.bufs b).request.type b w, s.pcs, s.reads⟩) :
    Accounted clientId (closed ++ closes s (.disp i)) ⟨assignTo g b w,
      afterLookup (s.g.bufs b).request.type b w, s.pcs, s.reads⟩ := by
  have hreq : leavesNoSlot (s.g.bufs b).request := by
    have := h.accountable
    rwa [hpc] at this
  have hnamed : (s.g.bufs b).request.sockfd ≠ mtInvalidSocketFd := by
    apply hreq.2
    cases now
    · exact .inr ht
    · exact .inl ht
  cases lookup_named hnamed hw
  have htype : ((assignTo s.g b w).bufs b).request.type = (s.g.bufs b).request.type := by
    rw [assignTo, request_modifyBuf s.g b rfl]
  refine h.of_keeps hnext (fun v => Keeps.modifyBuf s.g b _ v) (by simp only [closes, hpc]) ?_ ?_
  · unfold afterLookup
    split
    · simp only [DispPc.temporary, hpc]
    · simp only [DispPc.temporary, hpc, htype, ht, reduceCtorEq, if_false]
  · unfold afterLookup
    split
    · simpa only [DispPc.Accountable, htype] using hreq.1
    · simpa only [DispPc.Accountable, htype] using hreq.1

theorem disp_move (h : Accounted clientId closed s) {pc : DispPc} {reads : List MtRequest}
    (hmove : DispMove clientId s i g pc reads) (hguard : accountableStep s (.disp i))
    (hnext : Tracked clientId (closed ++ closes s (.disp i)) ⟨g, pc, s.pcs, reads⟩) :
    Accounted clientId (closed ++ closes s (.disp i)) ⟨g, pc, s.pcs, reads⟩ := by
  have hacc := h.accountable
  -- A request for a worker holds no slot of its own.
  have queued : ∀ b, processNow (s.g.bufs b).request.type = false →
      (DispPc.dispatch b).temporary s.g = none := fun b hnow => by
    have ht : assignment (s.g.bufs b).request.type = .existing false := by
      simpa [processNow] using hnow
    simp only [DispPc.temporary, ht, reduceCtorEq, if_false]
  cases hmove with
  | full hpc =>
      exact h.of_keeps hnext (fun v => Keeps.refl s.g v) (by simp [closes, hpc])
        (by simp [hpc]) trivial
  | @reserve b hpc =>
      exact h.of_keeps hnext (fun v => Keeps.modifyBuf s.g b _ v) (by simp [closes, hpc])
        (by simp [hpc, DispPc.temporary]) trivial
  | @stop b size req hpc =>
      exact h.of_keeps hnext (fun v => Keeps.modifyBuf s.g b _ v) (by simp [closes, hpc])
        (by simp [hpc, DispPc.temporary]) trivial
  | @read b size req hpc =>
      refine h.of_keeps hnext (fun v => Keeps.modifyBuf s.g b _ v) (by simp [closes, hpc])
        (by simp [hpc, DispPc.temporary]) ?_
      have hreq := hguard.2
      simp only [hpc] at hreq
      simpa only [DispPc.Accountable, bufs_modifyBuf_self] using hreq
  | @noWorker b hpc ht =>
      refine h.of_keeps hnext (fun v => Keeps.modifyBuf s.g b _ v) (by simp [closes, hpc]) ?_ ?_
      · simp only [DispPc.temporary, hpc, bufs_modifyBuf_self, ht, reduceCtorEq, if_false]
      · simp only [DispPc.Accountable, bufs_modifyBuf_self]
        intro hc
        rw [hc] at ht
        cases ht
  | existing hpc ht hw => exact h.existing hpc ht hw hnext
  | newWorker hpc ht hw => exact h.newWorker hpc ht hw hnext
  | lookupFailed hpc =>
      exact h.of_keeps hnext (fun v => Keeps.refl s.g v) (by simp [closes, hpc])
        (by simp [hpc, DispPc.temporary]) trivial
  | @lock b w hpc =>
      rw [hpc] at hacc
      refine h.of_keeps hnext (fun v => Keeps.modifyWorker s.g w v _ ⟨rfl, rfl⟩)
        (by simp [closes, hpc]) ?_ hacc
      obtain ⟨now, ht⟩ : ∃ now, assignment (s.g.bufs b).request.type = .existing now := by
        have := h.tracked.placed.disp
        rw [hpc] at this
        exact assignment_of_requiresOplock this.2
      show (DispPc.dispatch b).temporary s.g = _
      simp only [DispPc.temporary, hpc, ht, reduceCtorEq, if_false]
  | @start b hpc =>
      rw [hpc] at hacc
      exact h.of_keeps hnext (fun v => Keeps.refl s.g v) (by simp [closes, hpc])
        (by rw [hpc]; rfl) hacc
  | @enqueue b w q hpc hnow =>
      refine h.of_keeps hnext (fun v => Keeps.modifyWorker s.g w v _ ⟨rfl, rfl⟩)
        (by simp [closes, hpc]) ?_ trivial
      rw [hpc, queued b hnow]
      rfl
  | @queueFull b w hpc hnow =>
      refine h.of_keeps hnext (fun v => Keeps.releaseOplock s.g w v) (by simp [closes, hpc]) ?_
        trivial
      rw [hpc, queued b hnow]
      rfl
  | running hpc hproc => exact h.running hpc hproc hnext
  | returned hpc hproc =>
      refine h.returned hpc hproc hnext ?_ ?_
      · split <;> rfl
      · split <;> trivial
  | failed hpc =>
      exact h.of_keeps hnext (fun v => ⟨rfl, rfl, SameFds.rfl, rfl⟩) (by simp [closes, hpc])
        (by simp [hpc, DispPc.temporary]) trivial
  | @cleanup b hpc =>
      exact h.of_keeps hnext (fun v => Keeps.modifyBuf s.g b _ v) (by simp [closes, hpc])
        (by simp [hpc, DispPc.temporary]) trivial
  | @wake w hpc =>
      exact h.of_keeps hnext (fun v => Keeps.modifyWorker s.g w v _ ⟨rfl, rfl⟩)
        (by simp [closes, hpc]) (by simp [hpc, DispPc.temporary]) trivial
  | finiSet hpc =>
      exact h.of_keeps hnext (fun v => ⟨rfl, rfl, SameFds.rfl, rfl⟩) (by simp [closes, hpc])
        (by simp [hpc, DispPc.temporary]) trivial
  | @finiPost n hpc =>
      exact h.of_keeps hnext (fun v => Keeps.modifyWorker s.g n v _ ⟨rfl, rfl⟩)
        (by simp [closes, hpc]) (by simp [hpc, DispPc.temporary]) trivial
  | finiDone hpc =>
      exact h.of_keeps hnext (fun v => Keeps.refl s.g v) (by simp [closes, hpc])
        (by simp [hpc, DispPc.temporary]) trivial
  | finiJoin hpc =>
      exact h.of_keeps hnext (fun v => Keeps.refl s.g v) (by simp [closes, hpc])
        (by simp [hpc, DispPc.temporary]) trivial

theorem init (clientId : BitVec 16) : Accounted clientId [] (ins clientId).init where
  tracked := Tracked.init clientId
  accountable := trivial
  slots := fun v _ => by
    have hopen : ∀ n, ¬ IsOpen [] (ins clientId).init.g v n := fun n hc => by cases hc.1
    constructor
    · constructor
      · intro hc
        cases hc
      · rintro (hc | hc)
        · exact absurd hc (hopen _)
        · cases hc
    · rintro ⟨hc, -⟩
      exact hopen _ hc

theorem step (clientId : BitVec 16) (closed : List (Nat × Nat)) (s : State) (e : Event)
    (s' : State) (hguard : accountableStep s e) (hstep : (ins clientId).step s e = some s')
    (h : Accounted clientId closed s) : Accounted clientId (closed ++ closes s e) s' := by
  have hnext := h.tracked.step clientId closed s e s' hguard.1 hstep
  revert hnext
  refine step_rule (P := fun s' => Tracked clientId (closed ++ closes s e) s' →
    Accounted clientId (closed ++ closes s e) s') hstep (fun i g pc reads he hmove hnext => ?_)
    fun w i g pc he hw hmove hnext => ?_
  · subst he
    exact h.disp_move hmove hguard hnext
  · subst he
    exact h.worker_move hw hmove hnext

end Accounted

end Steps

/-! ## Counting -/

theorem availableSlot_none {g : Globals} (h : g.availableSlot = none) :
    ∀ v < maxThreadCount, (g.workers v).inUse = true := by
  intro v hv
  have := List.find?_eq_none.mp h v (List.mem_range.mpr hv)
  simpa using this

/-- The slots of a balanced account add up. -/
theorem Accounted.slotsInUse_eq {clientId : BitVec 16} {closed : List (Nat × Nat)} {s : State}
    (h : Accounted clientId closed s) :
    slotsInUse s = openSockets closed s + temporarySlots s := by
  have htemp : tally maxThreadCount
      (fun v => if s.disp.temporary s.g = some v then 1 else 0) = temporarySlots s := by
    cases ht : s.disp.temporary s.g with
    | none => simp [temporarySlots, ht, tally_eq_zero]
    | some w =>
        have hw : w < maxThreadCount := by
          have hten := h.tracked.tenured
          have hplaced := h.tracked.placed
          unfold DispPc.temporary at ht
          split at ht
          · split at ht
            · exact hplaced.holding.slots _ w ht
            · cases ht
          · next f hpc =>
              have hemp := hplaced.disp
              rw [hpc] at hemp
              refine DispEmployed.worker hemp w ?_
              unfold Frame.temporary at ht
              split at ht
              all_goals
                split at ht
                · exact ht
                · cases ht
          · cases ht
        simp only [temporarySlots, ht, Option.some.injEq, eq_comm (a := w)]
        exact tally_single hw
  rw [← htemp, openSockets, ← tally_add]
  refine tally_congr fun v hv => ?_
  obtain ⟨hiff, hexcl⟩ := h.slots v hv
  by_cases hopen : IsOpen closed s.g v (s.g.workers v).gen
  · have ht : ¬ s.disp.temporary s.g = some v := fun hc => hexcl ⟨hopen, hc⟩
    simp [hiff.mpr (.inl hopen), hopen, ht]
  · by_cases ht : s.disp.temporary s.g = some v
    · simp [hiff.mpr (.inr ht), hopen, ht]
    · have huse : ¬ (s.g.workers v).inUse = true := fun hc => (hiff.mp hc).elim hopen ht
      simp [huse, hopen, ht]

/-- **The slots are accounted for.** In every state that a run of accountable
steps reaches, the slots in use are the open sockets and the slots that a
request in progress holds temporarily, of which there is at most one; an open
socket is the current incarnation of its slot; a slot in use whose socket is not
open is held by such a request; and slots run out only when all of them are open
sockets or held. -/
theorem slots_accounted (clientId : BitVec 16) (es : List Event) (s : State)
    (hgood : (ins clientId).Guarded accountableStep es) (hrun : (ins clientId).run es = some s) :
    slotsInUse s = openSockets ((ins clientId).history closes es) s + temporarySlots s ∧
    temporarySlots s ≤ 1 ∧
    (∀ v < maxThreadCount, ∀ n, IsOpen ((ins clientId).history closes es) s.g v n →
      n = (s.g.workers v).gen) ∧
    (∀ v < maxThreadCount, (s.g.workers v).inUse = true →
      IsOpen ((ins clientId).history closes es) s.g v (s.g.workers v).gen ∨
        s.disp.temporary s.g = some v) ∧
    (openSockets ((ins clientId).history closes es) s + temporarySlots s < maxThreadCount →
      s.g.availableSlot ≠ none) := by
  have h : Accounted clientId ((ins clientId).history closes es) s :=
    (ins clientId).guarded_history (Accounted.init clientId)
      (fun closed s e s' => Accounted.step clientId closed s e s') hgood hrun
  have hsum := h.slotsInUse_eq
  refine ⟨hsum, ?_, fun v hv n hopen => (h.tracked.slots v hv).current n hopen,
    fun v hv huse => (h.slots v hv).1.mp huse, fun hlt hnone => ?_⟩
  · unfold temporarySlots
    cases s.disp.temporary s.g <;> simp
  · have hall : slotsInUse s = maxThreadCount := by
      rw [slotsInUse, tally_congr (f := fun _ => 1) fun v hv => by
        simp [availableSlot_none hnone v hv], tally_one]
    omega

theorem slots_accounted_acceptedSocket :
    ∃ s, (ins 1).run acceptedSocket = some s ∧
      slotsInUse s = openSockets ((ins 1).history closes acceptedSocket) s + temporarySlots s ∧
      s.g.availableSlot ≠ none := by
  have hsome : ((ins 1).run acceptedSocket).map (fun s => s.g.availableSlot) = some (some 3) := by
    decide +kernel
  obtain ⟨s, hs, hslot⟩ := Option.map_eq_some_iff.mp hsome
  refine ⟨s, hs, (slots_accounted 1 acceptedSocket s (by decide +kernel) hs).1, ?_⟩
  rw [hslot]
  simp

/-- An address block, processed to its end. -/
def blockedAddress : List Event :=
  readEvents { type := .addrBlock, size := 60, id := 1, sockfd := mtInvalidSocketFd, block := 1 } ++
    List.replicate 9 (.disp .tau)

/-- No request is in progress and no socket was ever given to a slot, but slot 0
is in use. -/
theorem slot_leaked :
    ∃ s, (ins 1).run blockedAddress = some s ∧
      slotsInUse s ≠ openSockets ((ins 1).history closes blockedAddress) s + temporarySlots s := by
  have hsome : ((ins 1).run blockedAddress).map (fun s =>
      ((s.g.workers 0).inUse, temporarySlots s,
        (List.range maxThreadCount).all fun v =>
          !decide (IsOpen ((ins 1).history closes blockedAddress) s.g v (s.g.workers v).gen))) =
      some (true, 0, true) := by
    decide +kernel
  obtain ⟨s, hs, hobs⟩ := Option.map_eq_some_iff.mp hsome
  simp only [Prod.mk.injEq, List.all_eq_true, List.mem_range, Bool.not_eq_eq_eq_not,
    Bool.not_true, decide_eq_false_iff_not] at hobs
  obtain ⟨huse, htemp, hno⟩ := hobs
  refine ⟨s, hs, ?_⟩
  have hopen : openSockets ((ins 1).history closes blockedAddress) s = 0 :=
    tally_eq_zero fun v hv => if_neg (hno v hv)
  have hpos : 1 ≤ slotsInUse s := by
    have := le_tally (n := maxThreadCount)
      (fun v => if (s.g.workers v).inUse then 1 else 0) (w := 0) (by decide)
    simpa only [slotsInUse, huse, if_true] using this
  rw [hopen, htemp]
  omega

end MagicWand.Ins
