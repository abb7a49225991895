import MagicWand.Ins.Incarnation

/-!
# Where requests are

A request that waits in the queue of a slot is assigned to that slot and is one
for its worker; a worker thread is at a request of its own slot; the dispatcher
processes none but the requests it may process itself. All of this rests on
buffers being released by their holder only, so it is proved for the runs in
which the dispatcher never reserves a buffer inside the release window of a
worker.
-/

namespace MagicWand.Ins

open Foundation

/-- The dispatcher does not reserve a buffer item that a worker has released
and is about to release again. -/
def releasedOnce (s : State) : Event → Prop
  | .disp _ =>
      match s.disp with
      | .reserve =>
          match s.g.availableBuffer with
          | some b => noWindow s b
          | none => True
      | _ => True
  | .worker _ _ => True

instance (s : State) : (e : Event) → Decidable (releasedOnce s e)
  | .disp i => by
      dsimp only [releasedOnce]
      generalize s.disp = pc
      generalize s.g.availableBuffer = b
      rcases pc <;> rcases b <;> infer_instance
  | .worker w i => instDecidableTrue

theorem releasedOnce.noWindow {s : State} {i : Input} (h : releasedOnce s (.disp i)) :
    ∀ b, s.disp = .reserve → s.g.availableBuffer = some b →
      ∀ w < maxThreadCount, (s.pcs w).window b = 0 := by
  intro b hpc hb
  simp only [releasedOnce, hpc, hb] at h
  exact h

/-! ## Steps touch no buffer that is not theirs -/

namespace Holding

variable {clientId : BitVec 16} {s : State} {g : Globals}

/-- A step of the dispatcher leaves the queued buffers alone. -/
theorem disp_bufs (h : Holding s) {i : Input} {pc : DispPc} {reads : List MtRequest}
    (hmove : DispMove clientId s i g pc reads) {v b : Nat} (hv : v < maxThreadCount)
    (hb : b ∈ s.g.queue v) : g.bufs b = s.g.bufs b := by
  have own : ∀ {b'}, 0 < s.disp.active b' + s.disp.window b' → b ≠ b' := fun hb' =>
    h.ne_of_queued hb' hv hb
  cases hmove with
  | @reserve b' hpc hb' =>
      apply bufs_modifyBuf_ne
      rintro rfl
      have hfree : (s.g.bufs b).inUse = false := by simpa using List.find?_some hb'
      have hle := le_tally (slotActive s b) hv
      have hcount : 0 < (s.g.queue v).count b := List.count_pos_iff.mpr hb
      rw [h.inUse b (by simp only [active, slotActive] at *; omega)] at hfree
      cases hfree
  | @stop b' size req hpc => exact bufs_modifyBuf_ne s.g b' _ (own (by simp [hpc, DispPc.active]))
  | @read b' size req hpc => exact bufs_modifyBuf_ne s.g b' _ (own (by simp [hpc, DispPc.active]))
  | @noWorker b' hpc => exact bufs_modifyBuf_ne s.g b' _ (own (by simp [hpc, DispPc.active]))
  | @existing b' w now hpc ht g hw =>
      rw [assignTo, bufs_modifyBuf_ne g b' _ (own (by simp [hpc, DispPc.active])),
        (getWorkerThreadForFd_spec hw).2.bufs]
  | @newWorker b' w hpc =>
      rw [assignTo, bufs_modifyBuf_ne _ b' _ (own (by simp [hpc, DispPc.active]))]
      rfl
  | @queueFull b' w => rw [(Quiet.releaseOplock s.g w).bufs]
  | @running f i g f' hpc hproc => exact hproc.bufs_ne (own (by rw [hpc]; exact f.holds))
  | @returned f i g rc hpc hproc => exact hproc.bufs_ne (own (by rw [hpc]; exact f.holds))
  | @cleanup b' hpc =>
      exact bufs_releaseBufferItem_ne s.g b' (own (by simp [hpc, DispPc.window]))
  | _ => rfl

/-- A step of a worker thread touches no buffer but its own. -/
theorem worker_bufs_ne {w : Nat} {i : Input} {pc : WorkerPc}
    (hmove : WorkerMove clientId s w i g pc) {b : Nat}
    (hb : ∀ b', 0 < (s.pcs w).active b' + (s.pcs w).window b' → b ≠ b') :
    g.bufs b = s.g.bufs b := by
  cases hmove with
  | @running f i g f' hpc hproc => exact hproc.bufs_ne (hb f.buf (by rw [hpc]; exact f.holds))
  | @returned f i g rc hpc hproc => exact hproc.bufs_ne (hb f.buf (by rw [hpc]; exact f.holds))
  | @cleanup b' hpc =>
      exact bufs_releaseBufferItem_ne s.g b'
        (hb b' (by simp [hpc, WorkerPc.active, WorkerPc.window]))
  | _ => rfl

theorem worker_bufs_queued (h : Holding s) {w : Nat} {i : Input} {pc : WorkerPc}
    (hw : w < maxThreadCount) (hmove : WorkerMove clientId s w i g pc) {v b : Nat}
    (hv : v < maxThreadCount) (hb : b ∈ s.g.queue v) : g.bufs b = s.g.bufs b :=
  worker_bufs_ne hmove fun _ hb' => h.ne_of_worker hv hb hw hb'

theorem worker_bufs_disp (h : Holding s) {w : Nat} {i : Input} {pc : WorkerPc}
    (hw : w < maxThreadCount) (hmove : WorkerMove clientId s w i g pc) {b : Nat}
    (hb : 0 < s.disp.active b + s.disp.window b) : g.bufs b = s.g.bufs b :=
  worker_bufs_ne hmove fun _ hb' => h.ne_of_disp hb hw hb'

end Holding

/-- A worker thread changes no request. -/
theorem WorkerMove.request {clientId : BitVec 16} {s : State} {g : Globals} {w : Nat} {i : Input}
    {pc : WorkerPc} (hmove : WorkerMove clientId s w i g pc) (b : Nat) :
    (g.bufs b).request = (s.g.bufs b).request := by
  cases hmove with
  | running hpc hproc => exact hproc.request b
  | returned hpc hproc => exact hproc.request b
  | @cleanup b' => exact request_releaseBufferItem s.g b' b
  | _ => rfl

theorem WorkerMove.queue_ne {clientId : BitVec 16} {s : State} {g : Globals} {w : Nat} {i : Input}
    {pc : WorkerPc} (h : WorkerMove clientId s w i g pc) {v : Nat} (hv : v ≠ w) :
    g.queue v = s.g.queue v := by
  cases h with
  | wait => exact queue_modifyWorker_ne s.g _ hv
  | dequeue => exact queue_modifyWorker_ne s.g _ hv
  | running hpc hproc => exact hproc.queue v
  | returned hpc hproc => exact hproc.queue v
  | _ => rfl

/-- A worker thread adds nothing to a queue. -/
theorem WorkerMove.mem_queue {clientId : BitVec 16} {s : State} {g : Globals} {w : Nat} {i : Input}
    {pc : WorkerPc} (hmove : WorkerMove clientId s w i g pc) {v b : Nat} (hb : b ∈ g.queue v) :
    b ∈ s.g.queue v := by
  cases hmove with
  | wait => rwa [(Quiet.modifyWorker s.g w rfl).queue] at hb
  | @dequeue b' q hpc hq =>
      by_cases hv : v = w
      · subst hv
        rw [queue_modifyWorker_self] at hb
        rw [show s.g.queue v = b' :: q.contents from WorkQueue.contents_dequeue hq]
        exact List.mem_cons_of_mem b' hb
      · rwa [queue_modifyWorker_ne s.g _ hv] at hb
  | running hpc hproc => rwa [hproc.queue] at hb
  | returned hpc hproc => rwa [hproc.queue] at hb
  | _ => exact hb

/-! ## Places -/

/-- A worker thread is at a request of its slot. -/
structure Employed (clientId : BitVec 16) (f : Frame) (w : Nat) : Prop where
  worker : f.worker = some w
  type : assignment f.req.type = .existing false
  fromHandler : f.FromHandler clientId

/-- The dispatcher is at a request that it processes itself. -/
structure DispEmployed (clientId : BitVec 16) (f : Frame) : Prop where
  now : processNow f.req.type = true
  valid : assignment f.req.type ≠ .invalid
  worker : ∀ w, f.worker = some w → w < maxThreadCount
  fromHandler : f.FromHandler clientId

def DispPc.Placed (clientId : BitVec 16) (g : Globals) : DispPc → Prop
  | .lock b w =>
      (g.bufs b).assignedThread = some w ∧ requiresOplock (g.bufs b).request.type = true
  | .dispatch b => assignment (g.bufs b).request.type ≠ .invalid
  | .process f => DispEmployed clientId f
  | _ => True

structure Placed (clientId : BitVec 16) (s : State) : Prop where
  holding : Holding s
  disp : s.disp.Placed clientId s.g
  queued : ∀ w < maxThreadCount, ∀ b ∈ s.g.queue w,
    (s.g.bufs b).assignedThread = some w ∧
      assignment (s.g.bufs b).request.type = .existing false
  working : ∀ w < maxThreadCount, ∀ f, s.pcs w = .process f → Employed clientId f w

theorem assignment_of_requiresOplock {t : MtRequestType} (h : requiresOplock t = true) :
    ∃ now, assignment t = .existing now := by
  cases t <;> first | exact ⟨_, rfl⟩ | cases h

theorem Employed.not_owns {clientId : BitVec 16} {f : Frame} {w : Nat} (h : Employed clientId f w) :
    ownsSlot f.req.type = false := not_ownsSlot_of_queued h.type

theorem Employed.valid {clientId : BitVec 16} {f : Frame} {w : Nat} (h : Employed clientId f w) :
    assignment f.req.type ≠ .invalid := by
  rw [h.type]
  decide

theorem Employed.running {clientId : BitVec 16} {f f' : Frame} {w : Nat} {g g' : Globals}
    {i : Input} (h : Employed clientId f w) (hproc : ProcMove clientId g f i g' (.running f')) :
    Employed clientId f' w := by
  obtain ⟨-, hreq, hworker, -⟩ := hproc.same_request
  refine ⟨?_, ?_, hproc.fromHandler h.fromHandler⟩
  · rw [hworker]
    exact h.worker
  · rw [hreq]
    exact h.type

theorem DispEmployed.running {clientId : BitVec 16} {f f' : Frame} {g g' : Globals} {i : Input}
    (h : DispEmployed clientId f) (hproc : ProcMove clientId g f i g' (.running f')) :
    DispEmployed clientId f' := by
  obtain ⟨-, hreq, hworker, -⟩ := hproc.same_request
  refine ⟨?_, ?_, ?_, hproc.fromHandler h.fromHandler⟩
  · rw [hreq]
    exact h.now
  · rw [hreq]
    exact h.valid
  · rw [hworker]
    exact h.worker

namespace Placed

variable {clientId : BitVec 16} {s : State} {g : Globals}

/-- The dispatcher's place does not depend on buffers it does not hold. -/
theorem disp_mono {pc : DispPc} {g' : Globals} (h : pc.Placed clientId g)
    (hb : ∀ b, 0 < pc.active b → g'.bufs b = g.bufs b) : pc.Placed clientId g' := by
  cases pc with
  | lock b w =>
      simp only [DispPc.Placed] at h ⊢
      rwa [hb b (by simp [DispPc.active])]
  | dispatch b =>
      simp only [DispPc.Placed] at h ⊢
      rwa [hb b (by simp [DispPc.active])]
  | process f => exact h
  | _ => trivial

/-- A step of the dispatcher that leaves the queues alone. -/
theorem of_disp (h : Placed clientId s) {i : Input} {pc : DispPc} {reads : List MtRequest}
    (hmove : DispMove clientId s i g pc reads) (hguard : releasedOnce s (.disp i))
    (hq : ∀ v, g.queue v = s.g.queue v) (hpc : pc.Placed clientId g) :
    Placed clientId ⟨g, pc, s.pcs, reads⟩ where
  holding := h.holding.disp_move hmove hguard.noWindow
  disp := hpc
  queued := fun v hv b hb => by
    have hb : b ∈ s.g.queue v := by rwa [← hq v]
    show (g.bufs b).assignedThread = some v ∧ _
    rw [h.holding.disp_bufs hmove hv hb]
    exact h.queued v hv b hb
  working := h.working

theorem afterLookup {b w : Nat} {t : MtRequestType} (ht : t = (g.bufs b).request.type)
    (hw : (g.bufs b).assignedThread = some w) (hvalid : assignment t ≠ .invalid) :
    (Ins.afterLookup t b w).Placed clientId g := by
  subst ht
  unfold Ins.afterLookup
  split
  · next hreq => exact ⟨hw, hreq⟩
  · exact hvalid

/-- The lookup has found slot `w`. -/
theorem lookup {g : Globals} {b w : Nat} (hquiet : Quiet s.g g)
    (hvalid : assignment (s.g.bufs b).request.type ≠ .invalid) :
    (Ins.afterLookup (s.g.bufs b).request.type b w).Placed clientId (assignTo g b w) := by
  refine afterLookup ?_ ?_ hvalid
  · rw [(quiet_assignTo hquiet b w b).2]
  · simp only [assignTo, bufs_modifyBuf_self]

/-- The dispatcher puts its request in the queue of slot `w`. -/
theorem enqueue (h : Placed clientId s) {b w : Nat} {q : WorkQueue}
    (hnow : processNow (s.g.bufs b).request.type = false)
    (hw : (s.g.bufs b).assignedThread = some w)
    (hq : (s.g.workers w).workQueue.enqueue b = some q)
    (hhold : Holding ⟨s.g.modifyWorker w fun x => { x with workQueue := q }, .wake w, s.pcs,
      s.reads⟩) :
    Placed clientId ⟨s.g.modifyWorker w fun x => { x with workQueue := q }, .wake w, s.pcs,
      s.reads⟩ := by
  refine ⟨hhold, trivial, fun v hv b' hb' => ?_, h.working⟩
  by_cases hvw : v = w
  · subst hvw
    have hb' : b' ∈ q.contents := by
      rwa [show Globals.queue _ v = q.contents from queue_modifyWorker_self s.g v q] at hb'
    rw [WorkQueue.contents_enqueue hq, List.mem_append] at hb'
    rcases hb' with hb' | hb'
    · exact h.queued v hv b' hb'
    · cases List.mem_singleton.mp hb'
      have ht : assignment (s.g.bufs b).request.type = .existing false := by
        simpa [processNow] using hnow
      exact ⟨hw, ht⟩
  · have hb' : b' ∈ s.g.queue v := by
      rwa [show Globals.queue _ v = s.g.queue v from queue_modifyWorker_ne s.g _ hvw] at hb'
    exact h.queued v hv b' hb'

theorem disp_move (h : Placed clientId s) {i : Input} {pc : DispPc} {reads : List MtRequest}
    (hmove : DispMove clientId s i g pc reads) (hguard : releasedOnce s (.disp i)) :
    Placed clientId ⟨g, pc, s.pcs, reads⟩ := by
  have hmove' := hmove
  have hdisp := h.disp
  cases hmove with
  | @noWorker b hpc ht =>
      refine h.of_disp hmove' hguard (fun _ => rfl) ?_
      simp only [DispPc.Placed, bufs_modifyBuf_self, ht]
      decide
  | existing hpc ht hw =>
      have hquiet := (getWorkerThreadForFd_spec hw).2
      exact h.of_disp hmove' hguard hquiet.queue (lookup hquiet (by rw [ht]; simp))
  | @newWorker b w hpc ht hw =>
      have hquiet := Quiet.acquireSlot s.g w
      exact h.of_disp hmove' hguard hquiet.queue (lookup hquiet (by rw [ht]; simp))
  | @lock b w hpc =>
      rw [hpc] at hdisp
      refine h.of_disp hmove' hguard (Quiet.modifyWorker s.g w rfl).queue ?_
      obtain ⟨now, ht⟩ := assignment_of_requiresOplock hdisp.2
      show assignment (s.g.bufs b).request.type ≠ .invalid
      rw [ht]
      simp
  | @start b hpc hnow =>
      rw [hpc] at hdisp
      exact h.of_disp hmove' hguard (fun _ => rfl)
        ⟨hnow, hdisp, fun w hw => h.holding.slots b w hw, Frame.fromHandler_start b⟩
  | enqueue hpc hnow hw hq =>
      exact h.enqueue hnow hw hq (h.holding.disp_move hmove' hguard.noWindow)
  | @queueFull b w =>
      exact h.of_disp hmove' hguard (Quiet.releaseOplock s.g w).queue trivial
  | @running f i g f' hpc hproc =>
      rw [hpc] at hdisp
      exact h.of_disp hmove' hguard hproc.queue (DispEmployed.running hdisp hproc)
  | @returned f i g rc hpc hproc =>
      refine h.of_disp hmove' hguard hproc.queue ?_
      split <;> trivial
  | @wake w => exact h.of_disp hmove' hguard (Quiet.modifyWorker s.g w rfl).queue trivial
  | @finiPost n => exact h.of_disp hmove' hguard (Quiet.modifyWorker s.g n rfl).queue trivial
  | _ => exact h.of_disp hmove' hguard (fun _ => rfl) trivial

theorem worker_move (h : Placed clientId s) {w : Nat} {i : Input} {pc : WorkerPc}
    (hw : w < maxThreadCount) (hmove : WorkerMove clientId s w i g pc) :
    Placed clientId ⟨g, s.disp, Function.update s.pcs w pc, s.reads⟩ := by
  have hpc : ∀ f, pc = .process f → Employed clientId f w := by
    intro f hf
    cases hmove with
    | wait => cases hf
    | empty => split at hf <;> cases hf
    | @dequeue b q hpc hq =>
        cases hf
        have hcontents : s.g.queue w = b :: q.contents := WorkQueue.contents_dequeue hq
        obtain ⟨hassigned, htype⟩ := h.queued w hw b (by rw [hcontents]; exact List.mem_cons_self)
        exact ⟨hassigned, htype, Frame.fromHandler_start b⟩
    | running hpc hproc =>
        cases hf
        exact (h.working w hw _ hpc).running hproc
    | returned => cases hf
    | cleanup => cases hf
  refine ⟨h.holding.worker_move hw hmove,
    disp_mono h.disp fun b hb => h.holding.worker_bufs_disp hw hmove (Nat.lt_add_right _ hb),
    fun v hv b hb => ?_,
    fun v hv f hf => ?_⟩
  · have hb := hmove.mem_queue hb
    show (g.bufs b).assignedThread = some v ∧ _
    rw [h.holding.worker_bufs_queued hw hmove hv hb]
    exact h.queued v hv b hb
  · by_cases hvw : v = w
    · subst hvw
      exact hpc f (by simpa only [Function.update_self] using hf)
    · exact h.working v hv f (by simpa only [Function.update_of_ne hvw] using hf)

theorem init (clientId : BitVec 16) : Placed clientId (ins clientId).init where
  holding := (sound_init clientId).holding
  disp := trivial
  queued := fun w _ b hb => by simp [ins, Globals.queue] at hb
  working := fun w _ f hf => by cases hf

end Placed

theorem Placed.step (clientId : BitVec 16) (s : State) (e : Event) (s' : State)
    (hguard : releasedOnce s e) (hstep : (ins clientId).step s e = some s')
    (h : Placed clientId s) : Placed clientId s' := by
  refine step_rule hstep (fun i g pc reads he hmove => ?_) fun w i g pc _ hw hmove => ?_
  · subst he
    exact h.disp_move hmove hguard
  · exact h.worker_move hw hmove

end MagicWand.Ins
