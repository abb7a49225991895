import MagicWand.Ins.Placement

/-!
# The order of requests

The dispatcher settles one request after the other: it processes the request itself,
puts it in the queue of a worker, or refuses it. A worker starts the requests of its
queue in their order. So the requests that worker threads start on one socket, whose
slot its descriptor names, are started in the order in which they were read.
-/

namespace MagicWand.Ins

open Foundation

/-! ## The history -/

/-- What the dispatcher does with a request. -/
inductive Fate where
  | here
  | queued (w : Nat)
  | refused
deriving DecidableEq, Repr

inductive OrderMark where
  | settle (req : MtRequest) (fate : Fate)
  | start (w : Nat) (req : MtRequest)

/-- What a step of the dispatcher from one place to another settles. -/
def DispPc.settles (g : Globals) : DispPc → DispPc → List OrderMark
  | .lookup b, .failed _ => [.settle (g.bufs b).request .refused]
  | .dispatch b, .failed _ => [.settle (g.bufs b).request .refused]
  | .dispatch b, .process _ => [.settle (g.bufs b).request .here]
  | .dispatch b, .wake w => [.settle (g.bufs b).request (.queued w)]
  | _, _ => []

/-- What a step of worker `w` from one place to another starts. -/
def WorkerPc.starts (w : Nat) : WorkerPc → WorkerPc → List OrderMark
  | .dequeue, .process f => [.start w f.req]
  | _, _ => []

def marksBetween (s s' : State) : Event → List OrderMark
  | .disp _ => s.disp.settles s.g s'.disp
  | .worker w _ => (s.pcs w).starts w (s'.pcs w)

def orderMarks (clientId : BitVec 16) (s : State) (e : Event) : List OrderMark :=
  match (ins clientId).step s e with
  | some s' => marksBetween s s' e
  | none => []

namespace OrderMark

def settled : OrderMark → Option (MtRequest × Fate)
  | settle req fate => some (req, fate)
  | start _ _ => none

def queuedFor (w : Nat) : OrderMark → Option MtRequest
  | settle req (.queued v) => if v = w then some req else none
  | _ => none

def startedBy (w : Nat) : OrderMark → Option MtRequest
  | start v req => if v = w then some req else none
  | settle _ _ => none

/-- The request that a worker thread starts. -/
def started : OrderMark → Option MtRequest
  | start _ req => some req
  | settle _ _ => none

end OrderMark

/-! ## The invariant -/

/-- The slot that a descriptor names. -/
def slotOf (fd : MwSocketFd) : Nat := (mwSocketGetId fd).toNat

/-- The request that the dispatcher has read and not settled. -/
def DispPc.pending (g : Globals) : DispPc → List MtRequest
  | .lookup b => [(g.bufs b).request]
  | .lock b _ => [(g.bufs b).request]
  | .dispatch b => [(g.bufs b).request]
  | _ => []

/-- A request that goes to a worker goes to the one that its descriptor names. -/
def OnSlot (x : BufferItem) : Prop :=
  assignment x.request.type = .existing false → mwSocketIsFd x.request.sockfd = true →
    ∀ w, x.assignedThread = some w → w = slotOf x.request.sockfd

def DispPc.OnSlot (g : Globals) : DispPc → Prop
  | .lock b _ => Ins.OnSlot (g.bufs b)
  | .dispatch b => Ins.OnSlot (g.bufs b)
  | _ => True

/-- The requests that wait for worker `w`. -/
def waitingFor (g : Globals) (w : Nat) : List MtRequest :=
  (g.queue w).map fun b => (g.bufs b).request

structure InOrder (clientId : BitVec 16) (seen : List OrderMark) (s : State) : Prop where
  placed : Placed clientId s
  settled : (seen.filterMap OrderMark.settled).map Prod.fst ++ s.disp.pending s.g = s.reads
  started : ∀ w < maxThreadCount,
    seen.filterMap (OrderMark.startedBy w) ++ waitingFor s.g w =
      seen.filterMap (OrderMark.queuedFor w)
  threads : ∀ w req, OrderMark.start w req ∈ seen → w < maxThreadCount
  bound : ∀ req w, OrderMark.settle req (.queued w) ∈ seen →
    w < maxThreadCount ∧ (mwSocketIsFd req.sockfd = true → w = slotOf req.sockfd)
  disp : s.disp.OnSlot s.g

theorem pending_afterLookup (g : Globals) (t : MtRequestType) (b w : Nat) :
    (afterLookup t b w).pending g = [(g.bufs b).request] := by
  unfold afterLookup
  split <;> rfl

theorem settles_afterLookup (g : Globals) (t : MtRequestType) (b w : Nat) :
    (DispPc.lookup b).settles g (afterLookup t b w) = [] := by
  unfold afterLookup
  split <;> rfl

theorem onSlot_afterLookup {g : Globals} {t : MtRequestType} {b w : Nat} (h : OnSlot (g.bufs b)) :
    (afterLookup t b w).OnSlot g := by
  unfold afterLookup
  split <;> exact h

/-- The lookup of a descriptor finds the slot that it names. -/
theorem slot_of_lookup {g g' : Globals} {fd : MwSocketFd} {w : Nat}
    (hfd : mwSocketIsFd fd = true) (h : g.getWorkerThreadForFd fd = .found w g') :
    w = slotOf fd := by
  unfold Globals.getWorkerThreadForFd at h
  split at h
  · next heq =>
      rw [heq] at hfd
      exact absurd hfd (by decide)
  · have hidx := Globals.index_eq_ite fd
    simp only [] at h
    generalize ((mwSocketGetId fd).setWidth 32).toInt = idx at h hidx
    have hlt := Globals.mwSocketGetId_lt fd
    unfold slotOf
    repeat' split at h
    all_goals cases h
    split at hidx <;> omega

namespace InOrder

variable {clientId : BitVec 16} {seen : List OrderMark} {s : State} {g : Globals}

theorem init (clientId : BitVec 16) : InOrder clientId [] (ins clientId).init where
  placed := Placed.init clientId
  settled := rfl
  started := fun w _ => by simp [ins, waitingFor, Globals.queue]
  threads := fun _ _ h => absurd h List.not_mem_nil
  bound := fun _ _ h => absurd h List.not_mem_nil
  disp := trivial

/-! ### Steps of the dispatcher -/

theorem start_not_mem_settles {w : Nat} {g : Globals} {pc pc' : DispPc} {req : MtRequest}
    (h : OrderMark.start w req ∈ pc.settles g pc') : False := by
  unfold DispPc.settles at h
  split at h
  · cases List.mem_singleton.mp h
  · cases List.mem_singleton.mp h
  · cases List.mem_singleton.mp h
  · cases List.mem_singleton.mp h
  · cases h

theorem startedBy_settles (w : Nat) (g : Globals) (pc pc' : DispPc) :
    (pc.settles g pc').filterMap (OrderMark.startedBy w) = [] := by
  unfold DispPc.settles
  split <;> rfl

/-- A step of the dispatcher that settles what it no longer has pending. -/
theorem of_disp (h : InOrder clientId seen s) {pc : DispPc} {more reads : List MtRequest}
    (hplaced : Placed clientId ⟨g, pc, s.pcs, reads⟩) (hreads : reads = s.reads ++ more)
    (hsettled : ((s.disp.settles s.g pc).filterMap OrderMark.settled).map Prod.fst ++ pc.pending g =
      s.disp.pending s.g ++ more)
    (hqueued : ∀ w < maxThreadCount, waitingFor g w =
      waitingFor s.g w ++ (s.disp.settles s.g pc).filterMap (OrderMark.queuedFor w))
    (hbound : ∀ req w, OrderMark.settle req (.queued w) ∈ s.disp.settles s.g pc →
      w < maxThreadCount ∧ (mwSocketIsFd req.sockfd = true → w = slotOf req.sockfd))
    (hslot : pc.OnSlot g) :
    InOrder clientId (seen ++ s.disp.settles s.g pc) ⟨g, pc, s.pcs, reads⟩ := by
  refine ⟨hplaced, ?_, fun w hw => ?_, fun w req hmem => ?_, fun req w hmem => ?_, hslot⟩
  · show _ ++ pc.pending g = reads
    rw [List.filterMap_append, List.map_append, List.append_assoc, hsettled, ← List.append_assoc,
      h.settled, hreads]
  · show _ ++ waitingFor g w = _
    rw [List.filterMap_append, List.filterMap_append, startedBy_settles, List.append_nil,
      hqueued w hw, ← List.append_assoc, h.started w hw]
  · rcases List.mem_append.mp hmem with hold | hnew
    · exact h.threads w req hold
    · exact (start_not_mem_settles hnew).elim
  · rcases List.mem_append.mp hmem with hold | hnew
    · exact h.bound req w hold
    · exact hbound req w hnew

/-- The queued requests, when the queues do not change. -/
theorem waitingFor_of_disp (h : InOrder clientId seen s) {i : Input} {pc : DispPc}
    {reads : List MtRequest} (hmove : DispMove clientId s i g pc reads)
    (hq : ∀ v, g.queue v = s.g.queue v) {w : Nat} (hw : w < maxThreadCount) :
    waitingFor g w = waitingFor s.g w := by
  rw [waitingFor, hq w, waitingFor]
  refine List.map_congr_left fun b hb => ?_
  rw [h.placed.holding.disp_bufs hmove hw hb]

/-- A step of the dispatcher that settles nothing. -/
theorem of_pending (h : InOrder clientId seen s) {i : Input} {pc : DispPc} {more : List MtRequest}
    {reads : List MtRequest} (hmove : DispMove clientId s i g pc reads)
    (hguard : releasedOnce s (.disp i)) (hreads : reads = s.reads ++ more)
    (hq : ∀ v, g.queue v = s.g.queue v) (hnone : s.disp.settles s.g pc = [])
    (hpending : pc.pending g = s.disp.pending s.g ++ more) (hslot : pc.OnSlot g) :
    InOrder clientId (seen ++ s.disp.settles s.g pc) ⟨g, pc, s.pcs, reads⟩ := by
  refine h.of_disp (h.placed.disp_move hmove hguard) hreads ?_ (fun w hw => ?_) ?_ hslot
  · rw [hnone]
    exact hpending
  · rw [hnone, h.waitingFor_of_disp hmove hq hw]
    exact (List.append_nil _).symm
  · rw [hnone]
    intro req w hmem
    exact absurd hmem List.not_mem_nil

/-- A step of the dispatcher at no request that it has still to settle. -/
theorem of_settled (h : InOrder clientId seen s) {i : Input} {pc : DispPc}
    (hmove : DispMove clientId s i g pc s.reads) (hguard : releasedOnce s (.disp i))
    (hq : ∀ v, g.queue v = s.g.queue v) (hnone : s.disp.settles s.g pc = [])
    (hbefore : s.disp.pending s.g = []) (hafter : pc.pending g = []) (hslot : pc.OnSlot g) :
    InOrder clientId (seen ++ s.disp.settles s.g pc) ⟨g, pc, s.pcs, s.reads⟩ :=
  h.of_pending hmove hguard (List.append_nil _).symm hq hnone (by rw [hbefore, hafter]; rfl) hslot

/-- The dispatcher refuses its request or processes it. -/
theorem of_fate (h : InOrder clientId seen s) {i : Input} {pc : DispPc} (req : MtRequest)
    (fate : Fate) (hmove : DispMove clientId s i g pc s.reads) (hguard : releasedOnce s (.disp i))
    (hq : ∀ v, g.queue v = s.g.queue v) (hfate : ∀ w, fate ≠ .queued w)
    (hone : s.disp.settles s.g pc = [.settle req fate])
    (hbefore : s.disp.pending s.g = [req]) (hafter : pc.pending g = []) (hslot : pc.OnSlot g) :
    InOrder clientId (seen ++ s.disp.settles s.g pc) ⟨g, pc, s.pcs, s.reads⟩ := by
  refine h.of_disp (h.placed.disp_move hmove hguard) (List.append_nil _).symm ?_
    (fun w hw => ?_) ?_ hslot
  · rw [hone, hbefore, hafter]
    rfl
  · rw [hone, h.waitingFor_of_disp hmove hq hw]
    cases fate with
    | queued v => exact absurd rfl (hfate v)
    | here | refused => exact (List.append_nil _).symm
  · rw [hone]
    intro req' w hmem
    cases List.mem_singleton.mp hmem
    exact absurd rfl (hfate w)

/-- The dispatcher puts its request in the queue of slot `w`. -/
theorem enqueue (h : InOrder clientId seen s) {i : Input} {b w : Nat} {q : WorkQueue}
    (hpc : s.disp = .dispatch b) (hnow : processNow (s.g.bufs b).request.type = false)
    (hw : (s.g.bufs b).assignedThread = some w)
    (hq : (s.g.workers w).workQueue.enqueue b = some q)
    (hmove : DispMove clientId s i (s.g.modifyWorker w fun x => { x with workQueue := q })
      (.wake w) s.reads)
    (hguard : releasedOnce s (.disp i)) :
    InOrder clientId (seen ++ s.disp.settles s.g (.wake w))
      ⟨s.g.modifyWorker w fun x => { x with workQueue := q }, .wake w, s.pcs, s.reads⟩ := by
  have hone : s.disp.settles s.g (.wake w) = [.settle (s.g.bufs b).request (.queued w)] := by
    rw [hpc]
    rfl
  refine h.of_disp (h.placed.disp_move hmove hguard) (List.append_nil _).symm ?_
    (fun v hv => ?_) ?_ trivial
  · rw [hone, hpc]
    rfl
  · rw [hone]
    by_cases hvw : v = w
    · subst hvw
      have hcontents : (s.g.modifyWorker v fun x => { x with workQueue := q }).queue v =
          s.g.queue v ++ [b] :=
        (queue_modifyWorker_self s.g v q).trans (WorkQueue.contents_enqueue hq)
      rw [waitingFor, hcontents, List.map_append]
      simp only [List.filterMap, OrderMark.queuedFor, if_true]
      rfl
    · rw [waitingFor, queue_modifyWorker_ne s.g _ hvw]
      simp only [List.filterMap, OrderMark.queuedFor, Ne.symm hvw, if_false, List.append_nil]
      rfl
  · rw [hone]
    intro req v hmem
    cases List.mem_singleton.mp hmem
    refine ⟨h.placed.holding.slots b w hw, fun hfd => ?_⟩
    have hslot := h.disp
    rw [hpc] at hslot
    exact hslot (by simpa [processNow] using hnow) hfd w hw

/-- The lookup has found slot `w`. -/
theorem lookup (h : InOrder clientId seen s) {i : Input} {b w : Nat} (hpc : s.disp = .lookup b)
    (hquiet : Quiet s.g g) {t : MtRequestType}
    (hmove : DispMove clientId s i (assignTo g b w) (afterLookup t b w) s.reads)
    (hguard : releasedOnce s (.disp i))
    (hslot : assignment (s.g.bufs b).request.type = .existing false →
      mwSocketIsFd (s.g.bufs b).request.sockfd = true → w = slotOf (s.g.bufs b).request.sockfd) :
    InOrder clientId (seen ++ s.disp.settles s.g (afterLookup t b w))
      ⟨assignTo g b w, afterLookup t b w, s.pcs, s.reads⟩ := by
  have hreq : ((assignTo g b w).bufs b).request = (s.g.bufs b).request :=
    (quiet_assignTo hquiet b w b).2
  refine h.of_pending hmove hguard (List.append_nil _).symm hquiet.queue ?_ ?_ ?_
  · rw [hpc, settles_afterLookup]
  · rw [pending_afterLookup, hpc, hreq]
    rfl
  · refine onSlot_afterLookup fun htype hfd v hv => ?_
    rw [hreq] at htype hfd ⊢
    have hassigned : ((assignTo g b w).bufs b).assignedThread = some w := by
      simp only [assignTo, bufs_modifyBuf_self]
    rw [hassigned] at hv
    cases hv
    exact hslot htype hfd

theorem disp_move (h : InOrder clientId seen s) {i : Input} {pc : DispPc} {reads : List MtRequest}
    (hmove : DispMove clientId s i g pc reads) (hguard : releasedOnce s (.disp i)) :
    InOrder clientId (seen ++ s.disp.settles s.g pc) ⟨g, pc, s.pcs, reads⟩ := by
  have hmove' := hmove
  have hdisp := h.disp
  cases hmove with
  | full hpc | finiSet hpc | finiDone hpc | finiJoin hpc | failed hpc | cleanup hpc
  | reserve hpc | stop hpc =>
      refine h.of_settled hmove' hguard (fun _ => rfl) ?_ ?_ rfl trivial <;> rw [hpc] <;> rfl
  | read hpc =>
      refine h.of_pending hmove' hguard rfl (fun _ => rfl) ?_ ?_ trivial
      · rw [hpc]
        rfl
      · simp only [hpc, DispPc.pending, bufs_modifyBuf_self, List.nil_append]
  | noWorker hpc ht =>
      refine h.of_pending hmove' hguard (List.append_nil _).symm (fun _ => rfl) ?_ ?_ ?_
      · rw [hpc]
        rfl
      · simp only [hpc, DispPc.pending, bufs_modifyBuf_self, List.append_nil]
      · intro htype
        simp [bufs_modifyBuf_self, ht] at htype
  | @existing b w now hpc ht g hw =>
      exact h.lookup hpc (getWorkerThreadForFd_spec hw).2 hmove' hguard
        fun _ hfd => slot_of_lookup hfd hw
  | @newWorker b w hpc ht hw =>
      exact h.lookup hpc (Quiet.acquireSlot s.g w) hmove' hguard
        fun htype => by simp [ht] at htype
  | @lookupFailed b hpc =>
      refine h.of_fate (s.g.bufs b).request .refused hmove' hguard (fun _ => rfl) (by simp) ?_ ?_ rfl trivial
        <;> rw [hpc] <;> rfl
  | @lock b w hpc =>
      rw [hpc] at hdisp
      refine h.of_pending hmove' hguard (List.append_nil _).symm
        (Quiet.modifyWorker s.g w rfl).queue ?_ ?_ hdisp
      · rw [hpc]
        rfl
      · rw [hpc]
        rfl
  | @start b hpc =>
      refine h.of_fate (s.g.bufs b).request .here hmove' hguard (fun _ => rfl) (by simp) ?_ ?_ rfl trivial
        <;> rw [hpc] <;> rfl
  | enqueue hpc hnow hw hq => exact h.enqueue hpc hnow hw hq hmove' hguard
  | @queueFull b w hpc =>
      refine h.of_fate (s.g.bufs b).request .refused hmove' hguard (Quiet.releaseOplock s.g w).queue
        (by simp) ?_ ?_ rfl trivial
        <;> rw [hpc] <;> rfl
  | running hpc hproc =>
      refine h.of_settled hmove' hguard hproc.queue ?_ ?_ rfl trivial <;> rw [hpc] <;> rfl
  | @returned f i g rc hpc hproc =>
      refine h.of_settled hmove' hguard hproc.queue ?_ ?_ ?_ ?_
      · rw [hpc]
        rfl
      · rw [hpc]
        rfl
      · split <;> rfl
      · split <;> trivial
  | @wake w hpc =>
      refine h.of_settled hmove' hguard (Quiet.modifyWorker s.g w rfl).queue ?_ ?_ rfl trivial
        <;> rw [hpc] <;> rfl
  | @finiPost n hpc =>
      refine h.of_settled hmove' hguard (Quiet.modifyWorker s.g n rfl).queue ?_ ?_ rfl trivial
        <;> rw [hpc] <;> rfl

/-! ### Steps of the workers -/

theorem settled_starts (w : Nat) (pc pc' : WorkerPc) :
    (pc.starts w pc').filterMap OrderMark.settled = [] := by
  unfold WorkerPc.starts
  split <;> rfl

theorem queuedFor_starts (v w : Nat) (pc pc' : WorkerPc) :
    (pc.starts w pc').filterMap (OrderMark.queuedFor v) = [] := by
  unfold WorkerPc.starts
  split <;> rfl

theorem startedBy_starts_ne {v w : Nat} (hv : v ≠ w) (pc pc' : WorkerPc) :
    (pc.starts w pc').filterMap (OrderMark.startedBy v) = [] := by
  unfold WorkerPc.starts
  split
  · simp only [List.filterMap, OrderMark.startedBy, Ne.symm hv, if_false]
  · rfl

theorem settle_not_mem_starts {w : Nat} {pc pc' : WorkerPc} {req : MtRequest} {fate : Fate}
    (h : OrderMark.settle req fate ∈ pc.starts w pc') : False := by
  unfold WorkerPc.starts at h
  split at h
  · cases List.mem_singleton.mp h
  · cases h

theorem thread_of_mem_starts {v w : Nat} {pc pc' : WorkerPc} {req : MtRequest}
    (h : OrderMark.start v req ∈ pc.starts w pc') : w = v := by
  unfold WorkerPc.starts at h
  split at h
  · cases List.mem_singleton.mp h
    rfl
  · cases h

/-- A worker starts what is at the head of its queue. -/
theorem worker_starts {w : Nat} {i : Input} {pc : WorkerPc}
    (hmove : WorkerMove clientId s w i g pc) :
    ((s.pcs w).starts w pc).filterMap (OrderMark.startedBy w) ++ waitingFor g w =
      waitingFor s.g w := by
  have quiet (hq : g.queue w = s.g.queue w) (hnone : (s.pcs w).starts w pc = []) :
      ((s.pcs w).starts w pc).filterMap (OrderMark.startedBy w) ++ waitingFor g w =
        waitingFor s.g w := by
    rw [hnone, waitingFor, hq, waitingFor]
    exact List.map_congr_left fun b _ => hmove.request b
  cases hmove with
  | wait hpc =>
      refine quiet ((Quiet.modifyWorker s.g w rfl).queue w) ?_
      rw [hpc]
      rfl
  | empty hpc hq =>
      refine quiet rfl ?_
      rw [hpc]
      split <;> rfl
  | @dequeue b q hpc hq hcan =>
      have hcontents : s.g.queue w = b :: q.contents := WorkQueue.contents_dequeue hq
      rw [hpc, waitingFor, queue_modifyWorker_self, waitingFor, hcontents, List.map_cons]
      simp only [WorkerPc.starts, Frame.start, List.filterMap, OrderMark.startedBy, if_true]
      rfl
  | running hpc hproc =>
      refine quiet (hproc.queue w) ?_
      rw [hpc]
      rfl
  | returned hpc hproc =>
      refine quiet (hproc.queue w) ?_
      rw [hpc]
      rfl
  | cleanup hpc =>
      refine quiet rfl ?_
      rw [hpc]
      rfl

theorem worker_move (h : InOrder clientId seen s) {w : Nat} {i : Input} {pc : WorkerPc}
    (hw : w < maxThreadCount) (hmove : WorkerMove clientId s w i g pc) :
    InOrder clientId (seen ++ (s.pcs w).starts w pc)
      ⟨g, s.disp, Function.update s.pcs w pc, s.reads⟩ := by
  have hdisp := h.disp
  refine ⟨h.placed.worker_move hw hmove, ?_, fun v hv => ?_, fun v req hmem => ?_,
    fun req v hmem => ?_, ?_⟩
  · have hpending : s.disp.pending g = s.disp.pending s.g := by
      cases s.disp <;> simp only [DispPc.pending, hmove.request]
    show _ ++ s.disp.pending g = s.reads
    rw [List.filterMap_append, settled_starts, List.append_nil, hpending]
    exact h.settled
  · rw [List.filterMap_append, List.filterMap_append, queuedFor_starts, List.append_nil]
    by_cases hvw : v = w
    · subst hvw
      rw [List.append_assoc, worker_starts hmove]
      exact h.started v hv
    · have hsame : waitingFor g v = waitingFor s.g v := by
        rw [waitingFor, hmove.queue_ne hvw, waitingFor]
        exact List.map_congr_left fun b _ => hmove.request b
      rw [startedBy_starts_ne hvw, List.append_nil]
      exact hsame ▸ h.started v hv
  · rcases List.mem_append.mp hmem with hold | hnew
    · exact h.threads v req hold
    · exact thread_of_mem_starts hnew ▸ hw
  · rcases List.mem_append.mp hmem with hold | hnew
    · exact h.bound req v hold
    · exact (settle_not_mem_starts hnew).elim
  · show s.disp.OnSlot g
    have hbufs {b : Nat} (hb : 0 < s.disp.active b + s.disp.window b) : g.bufs b = s.g.bufs b :=
      h.placed.holding.worker_bufs_disp hw hmove hb
    cases hpc : s.disp with
    | lock b v | dispatch b =>
        rw [hpc] at hdisp
        have hsame := hbufs (b := b) (by simp [hpc, DispPc.active])
        simpa only [DispPc.OnSlot, hsame] using hdisp
    | _ => trivial

end InOrder

theorem InOrder.step (clientId : BitVec 16) (seen : List OrderMark) (s : State) (e : Event)
    (s' : State) (hguard : releasedOnce s e) (hstep : (ins clientId).step s e = some s')
    (h : InOrder clientId seen s) : InOrder clientId (seen ++ orderMarks clientId s e) s' := by
  have hmarks : orderMarks clientId s e = marksBetween s s' e := by
    unfold orderMarks
    rw [hstep]
  rw [hmarks]
  refine step_rule hstep (P := fun t => InOrder clientId (seen ++ marksBetween s t e) t)
    (fun i g pc reads he hmove => ?_) fun w i g pc he hw hmove => ?_
  · subst he
    exact h.disp_move hmove hguard
  · subst he
    simpa only [marksBetween, Function.update_self] using h.worker_move hw hmove

theorem InOrder.run {clientId : BitVec 16} {es : List Event} {s : State}
    (hG : (ins clientId).Guarded releasedOnce es) (hrun : (ins clientId).run es = some s) :
    InOrder clientId ((ins clientId).history (orderMarks clientId) es) s :=
  (ins clientId).guarded_history (InOrder.init clientId) (InOrder.step clientId) hG hrun

/-! ## What follows for one worker and for one socket -/

theorem queuedFor_sublist (w : Nat) (seen : List OrderMark) :
    (seen.filterMap (OrderMark.queuedFor w)).Sublist
      ((seen.filterMap OrderMark.settled).map Prod.fst) := by
  induction seen with
  | nil => exact .slnil
  | cons m seen ih =>
      cases m with
      | start v req => exact ih
      | settle req fate =>
          cases fate with
          | here | refused => exact ih.cons _
          | queued v =>
              by_cases hv : v = w
              · simp only [List.filterMap_cons, OrderMark.queuedFor, OrderMark.settled, hv, if_true,
                  List.map_cons]
                exact ih.cons_cons _
              · simp only [List.filterMap_cons, OrderMark.queuedFor, OrderMark.settled, hv, if_false,
                  List.map_cons]
                exact ih.cons _

theorem mem_startedBy {w : Nat} {seen : List OrderMark} {req : MtRequest} :
    req ∈ seen.filterMap (OrderMark.startedBy w) ↔ OrderMark.start w req ∈ seen := by
  constructor
  · intro h
    obtain ⟨m, hm, hstarted⟩ := List.mem_filterMap.mp h
    unfold OrderMark.startedBy at hstarted
    split at hstarted
    · split_ifs at hstarted with hv
      cases hstarted
      exact hv ▸ hm
    · cases hstarted
  · intro h
    refine List.mem_filterMap.mpr ⟨_, h, ?_⟩
    simp only [OrderMark.startedBy, if_true]

theorem mem_queuedFor {w : Nat} {seen : List OrderMark} {req : MtRequest}
    (h : req ∈ seen.filterMap (OrderMark.queuedFor w)) : OrderMark.settle req (.queued w) ∈ seen := by
  obtain ⟨m, hm, hqueued⟩ := List.mem_filterMap.mp h
  unfold OrderMark.queuedFor at hqueued
  split at hqueued
  · split_ifs at hqueued with hv
    cases hqueued
    exact hv ▸ hm
  · cases hqueued

/-- The starts that only one worker makes are its starts. -/
theorem filter_started {p : MtRequest → Bool} {w : Nat} {seen : List OrderMark}
    (h : ∀ v req, OrderMark.start v req ∈ seen → p req = true → v = w) :
    (seen.filterMap OrderMark.started).filter p =
      (seen.filterMap (OrderMark.startedBy w)).filter p := by
  induction seen with
  | nil => rfl
  | cons m seen ih =>
      have ih := ih fun v req hmem => h v req (List.mem_cons_of_mem _ hmem)
      cases m with
      | settle req fate => exact ih
      | start v req =>
          by_cases hv : v = w
          · simp only [List.filterMap_cons, OrderMark.started, OrderMark.startedBy, hv, if_true,
              List.filter_cons, ih]
          · have hp : p req = false := by
              cases hp : p req with
              | false => rfl
              | true => exact absurd (h v req List.mem_cons_self hp) hv
            simpa only [List.filterMap_cons, OrderMark.started, OrderMark.startedBy, hv, if_false,
              List.filter_cons, hp, Bool.false_eq_true] using ih

namespace InOrder

variable {clientId : BitVec 16} {seen : List OrderMark} {s : State}

/-- A worker starts requests in the order in which they are read. -/
theorem startedBy_sublist (h : InOrder clientId seen s) {w : Nat} (hw : w < maxThreadCount) :
    (seen.filterMap (OrderMark.startedBy w)).Sublist s.reads := by
  calc (seen.filterMap (OrderMark.startedBy w)).Sublist (seen.filterMap (OrderMark.queuedFor w)) := by
        rw [← h.started w hw]
        exact List.sublist_append_left _ _
    _ |>.Sublist ((seen.filterMap OrderMark.settled).map Prod.fst) := queuedFor_sublist w seen
    _ |>.Sublist s.reads := by
        rw [← h.settled]
        exact List.sublist_append_left _ _

/-- A request that a worker has started was queued for that worker. -/
theorem queued_of_started (h : InOrder clientId seen s) {w : Nat} {req : MtRequest}
    (hmem : OrderMark.start w req ∈ seen) : OrderMark.settle req (.queued w) ∈ seen := by
  refine mem_queuedFor ?_
  rw [← h.started w (h.threads w req hmem)]
  exact List.mem_append_left _ (mem_startedBy.mpr hmem)

/-- The starts that only one worker can make come in the order of the reads. -/
theorem filter_started_sublist (h : InOrder clientId seen s) {p : MtRequest → Bool} {w : Nat}
    (hone : ∀ v req, OrderMark.start v req ∈ seen → p req = true → v = w) :
    ((seen.filterMap OrderMark.started).filter p).Sublist (s.reads.filter p) := by
  rw [filter_started hone]
  by_cases hlt : w < maxThreadCount
  · exact (h.startedBy_sublist hlt).filter p
  · have hnone : seen.filterMap (OrderMark.startedBy w) = [] :=
      List.eq_nil_iff_forall_not_mem.mpr fun req hreq =>
        hlt (h.threads w req (mem_startedBy.mp hreq))
    rw [hnone]
    exact List.nil_sublist _

/-- The requests on one socket that workers start, they start in the order in which these
requests are read. -/
theorem started_on_socket (h : InOrder clientId seen s) {fd : MwSocketFd}
    (hfd : mwSocketIsFd fd = true) :
    ((seen.filterMap OrderMark.started).filter (·.sockfd = fd)).Sublist
      (s.reads.filter (·.sockfd = fd)) := by
  refine h.filter_started_sublist (w := slotOf fd) fun v req hmem hreq => ?_
  have hreq : req.sockfd = fd := of_decide_eq_true hreq
  exact hreq ▸ (h.bound req v (h.queued_of_started hmem)).2 (hreq ▸ hfd)

/-- A request that the dispatcher queues for two workers is read twice. -/
theorem thread_of_id (h : InOrder clientId seen s) (hnodup : (s.reads.map MtRequest.id).Nodup)
    {v w : Nat} {req req' : MtRequest} (hv : OrderMark.start v req ∈ seen)
    (hw : OrderMark.start w req' ∈ seen) (hid : req.id = req'.id) : v = w := by
  have hsettled {u : Nat} {q : MtRequest} (hu : OrderMark.start u q ∈ seen) :
      (q, Fate.queued u) ∈ seen.filterMap OrderMark.settled :=
    List.mem_filterMap.mpr ⟨_, h.queued_of_started hu, rfl⟩
  have hfates : ((seen.filterMap OrderMark.settled).map fun x => x.1.id).Nodup := by
    rw [← h.settled, List.map_append, List.map_map] at hnodup
    exact hnodup.of_append_left
  have hsame := List.inj_on_of_nodup_map hfates (hsettled hv) (hsettled hw) hid
  cases hsame
  rfl

/-- No request is started twice. -/
theorem started_nodup (h : InOrder clientId seen s) (hnodup : (s.reads.map MtRequest.id).Nodup) :
    ((seen.filterMap OrderMark.started).map MtRequest.id).Nodup := by
  refine List.nodup_iff_count_le_one.mpr fun id => ?_
  rw [List.count_eq_countP, List.countP_map, List.countP_eq_length_filter]
  by_cases hsome : ∃ w req, OrderMark.start w req ∈ seen ∧ req.id = id
  · obtain ⟨w, req, hw, rfl⟩ := hsome
    have hsub := h.filter_started_sublist (p := fun q => q.id == req.id) (w := w)
      fun v q hv hq => h.thread_of_id hnodup hv hw (by simpa using hq)
    calc ((seen.filterMap OrderMark.started).filter ((· == req.id) ∘ MtRequest.id)).length
        ≤ (s.reads.filter fun q => q.id == req.id).length := hsub.length_le
      _ = (s.reads.map MtRequest.id).count req.id := by
          rw [List.count_eq_countP, List.countP_map, List.countP_eq_length_filter]
          rfl
      _ ≤ 1 := List.nodup_iff_count_le_one.mp hnodup req.id
  · rw [List.filter_eq_nil_iff.mpr]
    · exact Nat.zero_le 1
    · intro req hreq hid
      obtain ⟨m, hm, hstarted⟩ := List.mem_filterMap.mp hreq
      cases m with
      | settle _ _ => cases hstarted
      | start w q =>
          cases hstarted
          exact hsome ⟨w, req, hm, by simpa using hid⟩

end InOrder

end MagicWand.Ins
