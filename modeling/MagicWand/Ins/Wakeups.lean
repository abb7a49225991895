import MagicWand.Ins.Responses

/-!
# Waking up and shutting down the worker threads

The work queue of a worker, its semaphore and the shutdown flag are updated in
different orders: the dispatcher enqueues and then posts, the worker waits and
then dequeues, `fini_state` sets the flag and then posts once to each worker. At
any moment the semaphore lags behind the queue by the step that is under way, so
posts and queued items balance.
-/

namespace MagicWand.Ins

open Foundation

/-! ## The slots under `process_buffer_item` -/

section View

variable {α : Type} {F : ThreadItem → α}

theorem view_modifyWorker (g : Globals) (w : Nat) {f : ThreadItem → ThreadItem}
    (hf : ∀ x, F (f x) = F x) (v : Nat) : F ((g.modifyWorker w f).workers v) = F (g.workers v) := by
  by_cases hv : v = w
  · subst hv
    simp only [Globals.modifyWorker, Function.update_self, hf]
  · simp only [Globals.modifyWorker, Function.update_of_ne hv]

/-- A view of a slot that does not show who has it. -/
def SeesNoOwner (F : ThreadItem → α) : Prop := ∀ x b n, F { x with inUse := b, gen := n } = F x

/-- A view of a slot that does not show its operation lock. -/
def SeesNoLock (F : ThreadItem → α) : Prop :=
  ∀ x b n, F { x with oplockAcquired := b, oplock := n } = F x

theorem view_releaseOplock (hlock : SeesNoLock F) (g : Globals) (w v : Nat) :
    F ((g.releaseOplock w).workers v) = F (g.workers v) := by
  rw [Globals.releaseOplock]
  split
  · exact view_modifyWorker g w (fun x => hlock x false _) v
  · rfl

theorem view_unlockWorker (hlock : SeesNoLock F) (worker : Option Nat) (g : Globals) (v : Nat) :
    F ((unlockWorker worker g).workers v) = F (g.workers v) := by
  cases worker with
  | none => rfl
  | some w => exact view_releaseOplock hlock g w v

variable (howner : SeesNoOwner F)
include howner

theorem view_acquireSlot (g : Globals) (w v : Nat) :
    F ((g.acquireSlot w).workers v) = F (g.workers v) :=
  view_modifyWorker g w (fun x => howner x true _) v

theorem view_releaseWorkerThread (g : Globals) (w v : Nat) :
    F ((g.releaseWorkerThread w).workers v) = F (g.workers v) :=
  view_modifyWorker _ w (fun x => howner x false x.gen) v

theorem view_postProcessResponse (clientId : BitVec 16) (req : MtRequest) (worker : Option Nat)
    (resp : MtResponse) (g : Globals) (v : Nat) :
    F ((Globals.postProcessResponse clientId req worker resp g).2.workers v) =
      F (g.workers v) := by
  have hports (g : Globals) : g.updateListeningPorts.workers = g.workers := by
    rw [Globals.updateListeningPorts]
    split <;> rfl
  simp only [Globals.postProcessResponse]
  split
  · rw [hports, Globals.assignAccepted]
    split
    · rfl
    · exact view_acquireSlot howner g _ v
  · rw [hports]

/-- What an activation does shows at most on the lock of its worker. -/
theorem ProcMove.view {clientId : BitVec 16} {g g' : Globals} {f : Frame} {i : Input}
    {next : ProcNext} (h : ProcMove clientId g f i g' next) (v : Nat) :
    F (g'.workers v) = F (g.workers v) ∨
      ∃ rc resp, f.stage = .unlock rc resp ∧ g' = unlockWorker f.worker g := by
  cases h with
  | issue => exact .inl rfl
  | finish =>
      left
      simp only [finishHandler]
      split <;> rfl
  | receive => exact .inl rfl
  | @unlock rc resp hstage => exact .inr ⟨rc, resp, hstage, rfl⟩
  | post => exact .inl (view_postProcessResponse howner clientId f.req f.worker _ g v)
  | write => exact .inl rfl
  | release => exact .inl rfl
  | retireSlot => exact .inl (view_releaseWorkerThread howner g _ v)
  | retire => exact .inl rfl

theorem view_lookup {g g' : Globals} {fd : MwSocketFd} {w : Nat}
    (h : g.getWorkerThreadForFd fd = .found w g') (v : Nat) :
    F (g'.workers v) = F (g.workers v) := by
  rw [Globals.getWorkerThreadForFd] at h
  split at h
  · split at h
    · cases h
      exact view_acquireSlot howner g w v
    · cases h
  · simp only [] at h
    repeat' split at h
    all_goals cases h
    rfl

end View

/-! ## Posts and queued items -/

/-- The semaphore and the queue of a slot. -/
def ThreadItem.schedule (x : ThreadItem) : Nat × WorkQueue := (x.awaitingWorkSem, x.workQueue)

/-- The posts to worker `w` that `fini_state` has made. -/
def DispPc.shutdownPosts (w : Nat) : DispPc → Nat
  | .finiPost n => if w < n then 1 else 0
  | .finiJoin n => if w ≤ n then 1 else 0
  | .exited => 1
  | _ => 0

/-- Has `fini_state` set the flag? -/
def DispPc.closing : DispPc → Bool
  | .finiPost _ => true
  | .finiJoin _ => true
  | .exited => true
  | _ => false

/-- 1 if the dispatcher has enqueued an item for `w` and not yet posted. -/
def DispPc.waking (w : Nat) : DispPc → Nat
  | .wake v => if v = w then 1 else 0
  | _ => 0

/-- 1 if the worker has waited and not yet dequeued. -/
def WorkerPc.dequeuing : WorkerPc → Nat
  | .dequeue => 1
  | _ => 0

def WorkerPc.gone : WorkerPc → Nat
  | .exited => 1
  | _ => 0

/-- What the dispatcher has to do with the wake-ups of `w`. -/
def DispPc.wakeStage (w : Nat) (pc : DispPc) : Nat × Nat × Bool :=
  (pc.waking w, pc.shutdownPosts w, pc.closing)

theorem wakeStage_afterLookup (t : MtRequestType) (b v w : Nat) :
    (afterLookup t b v).wakeStage w = (0, 0, false) := by
  unfold afterLookup
  split <;> rfl

/-- Posts and items balance, up to a step under way and the post that an exiting
worker has used up. -/
structure Awake (s : State) (w : Nat) : Prop where
  balance : (s.g.workers w).awaitingWorkSem + s.disp.waking w + (s.pcs w).dequeuing +
    (s.pcs w).gone = (s.g.queue w).length + s.disp.shutdownPosts w
  pending : s.disp.closing = true → s.g.shutdownPending = true
  empty : s.pcs w = .exited → s.g.queue w = []

theorem ProcMove.schedule {clientId : BitVec 16} {g g' : Globals} {f : Frame} {i : Input}
    {next : ProcNext} (h : ProcMove clientId g f i g' next) (w : Nat) :
    (g'.workers w).schedule = (g.workers w).schedule := by
  rcases h.view (F := ThreadItem.schedule) (fun _ _ _ => rfl) w with heq | ⟨-, -, -, rfl⟩
  · exact heq
  · exact view_unlockWorker (fun _ _ _ => rfl) f.worker g w

theorem ProcMove.shutdownPending {clientId : BitVec 16} {g g' : Globals} {f : Frame} {i : Input}
    {next : ProcNext} (h : ProcMove clientId g f i g' next) :
    g'.shutdownPending = g.shutdownPending := by
  cases h with
  | issue => rfl
  | finish =>
      simp only [finishHandler]
      split <;> rfl
  | receive => rfl
  | unlock =>
      cases f.worker with
      | none => rfl
      | some w =>
          simp only [unlockWorker, Globals.releaseOplock]
          split <;> rfl
  | post =>
      have hports (g : Globals) : g.updateListeningPorts.shutdownPending = g.shutdownPending := by
        rw [Globals.updateListeningPorts]
        split <;> rfl
      simp only [Globals.postProcessResponse]
      split
      · rw [hports, Globals.assignAccepted]
        split <;> rfl
      · rw [hports]
  | write => rfl
  | release => rfl
  | retireSlot => rfl
  | retire => rfl

namespace Awake

variable {clientId : BitVec 16} {s : State} {g : Globals} {w : Nat}

/-- A step that touches neither the semaphore nor the queue. -/
theorem of_schedule (h : Awake s w) {pc : DispPc} {wpc : WorkerPc} {pcs : Nat → WorkerPc}
    {reads : List MtRequest} (hsched : (g.workers w).schedule = (s.g.workers w).schedule)
    (hflag : g.shutdownPending = s.g.shutdownPending)
    (hstage : pc.wakeStage w = s.disp.wakeStage w) (hpcs : pcs w = wpc)
    (hdeq : wpc.dequeuing = (s.pcs w).dequeuing) (hgone : wpc.gone = (s.pcs w).gone)
    (hexit : wpc = .exited → s.pcs w = .exited) : Awake ⟨g, pc, pcs, reads⟩ w := by
  have hsem : (g.workers w).awaitingWorkSem = (s.g.workers w).awaitingWorkSem :=
    congrArg Prod.fst hsched
  have hqueue : g.queue w = s.g.queue w :=
    congrArg (fun x : Nat × WorkQueue => x.2.contents) hsched
  have hwake : pc.waking w = s.disp.waking w := congrArg Prod.fst hstage
  have hposts : pc.shutdownPosts w = s.disp.shutdownPosts w := congrArg (fun x => x.2.1) hstage
  have hclosing : pc.closing = s.disp.closing := congrArg (fun x => x.2.2) hstage
  constructor
  · simp only [hpcs, hsem, hqueue, hwake, hposts, hdeq, hgone]
    exact h.balance
  · intro hclose
    simp only [hclosing] at hclose
    simp only [hflag]
    exact h.pending hclose
  · intro hpc
    simp only [hpcs] at hpc
    simp only [hqueue]
    exact h.empty (hexit hpc)

/-- A step of the dispatcher that touches neither the semaphore nor the queue. -/
theorem of_disp (h : Awake s w) {pc : DispPc} {reads : List MtRequest}
    (hsched : (g.workers w).schedule = (s.g.workers w).schedule)
    (hflag : g.shutdownPending = s.g.shutdownPending)
    (hstage : pc.wakeStage w = s.disp.wakeStage w) : Awake ⟨g, pc, s.pcs, reads⟩ w :=
  h.of_schedule hsched hflag hstage rfl rfl rfl id

/-- A step of worker `v`. -/
theorem of_worker (h : Awake s w) {v : Nat} {pc : WorkerPc}
    (hsched : (g.workers w).schedule = (s.g.workers w).schedule)
    (hflag : g.shutdownPending = s.g.shutdownPending)
    (hpc : v = w → pc.dequeuing = (s.pcs w).dequeuing ∧ pc.gone = (s.pcs w).gone) :
    Awake ⟨g, s.disp, Function.update s.pcs v pc, s.reads⟩ w := by
  by_cases hv : v = w
  · subst hv
    obtain ⟨hdeq, hgone⟩ := hpc rfl
    refine h.of_schedule hsched hflag rfl (Function.update_self ..) hdeq hgone fun hexit => ?_
    rw [hexit] at hgone
    cases hw : s.pcs v with
    | exited => rfl
    | _ => rw [hw] at hgone; cases hgone
  · exact h.of_schedule hsched hflag rfl (Function.update_of_ne (Ne.symm hv) ..) rfl rfl id

theorem enqueue (h : Awake s w) {b v : Nat} {q : WorkQueue} {reads : List MtRequest}
    (hpc : s.disp = .dispatch b) (hq : (s.g.workers v).workQueue.enqueue b = some q) :
    Awake ⟨s.g.modifyWorker v fun x => { x with workQueue := q }, .wake v, s.pcs, reads⟩ w := by
  have hbalance := h.balance
  rw [hpc] at hbalance
  simp only [DispPc.waking, DispPc.shutdownPosts] at hbalance
  by_cases hv : w = v
  · subst hv
    have hlen : (s.g.modifyWorker w fun x => { x with workQueue := q }).queue w =
        s.g.queue w ++ [b] := by
      rw [queue_modifyWorker_self]
      exact WorkQueue.contents_enqueue hq
    -- A worker exits only when `fini_state` has posted to it.
    have hexit : s.pcs w ≠ .exited := by
      intro hexit
      rw [h.empty hexit, hexit] at hbalance
      simp [WorkerPc.gone] at hbalance
    constructor
    · simp only [DispPc.waking, DispPc.shutdownPosts, hlen, List.length_append,
        List.length_singleton, if_true]
      simp only [Globals.modifyWorker, Function.update_self]
      omega
    · intro hclose
      cases hclose
    · intro hgone
      exact absurd hgone hexit
  · refine h.of_disp ?_ rfl ?_
    · simp only [Globals.modifyWorker, Function.update_of_ne hv]
    · simp only [hpc, DispPc.wakeStage, DispPc.waking, DispPc.shutdownPosts, DispPc.closing,
        if_neg (Ne.symm hv)]

/-- A post to worker `v`, by the dispatcher or by `fini_state`. -/
theorem post (h : Awake s w) {v : Nat} {pc : DispPc} {reads : List MtRequest}
    (hself : w = v → 1 + pc.waking w + s.disp.shutdownPosts w =
      s.disp.waking w + pc.shutdownPosts w)
    (hother : w ≠ v → pc.waking w = s.disp.waking w ∧
      pc.shutdownPosts w = s.disp.shutdownPosts w)
    (hclosing : pc.closing = s.disp.closing) :
    Awake ⟨s.g.modifyWorker v fun x => { x with awaitingWorkSem := x.awaitingWorkSem + 1 }, pc,
      s.pcs, reads⟩ w := by
  have hqueue : ∀ u, (s.g.modifyWorker v fun x =>
      { x with awaitingWorkSem := x.awaitingWorkSem + 1 }).queue u = s.g.queue u :=
    (Quiet.modifyWorker s.g v rfl).queue
  have hbalance := h.balance
  refine ⟨?_, fun hclose => h.pending (hclosing ▸ hclose),
    fun hexit => (hqueue w).trans (h.empty hexit)⟩
  simp only [hqueue]
  by_cases hv : w = v
  · subst hv
    have := hself rfl
    simp only [Globals.modifyWorker, Function.update_self]
    omega
  · obtain ⟨hwake, hposts⟩ := hother hv
    simp only [Globals.modifyWorker, Function.update_of_ne hv, hwake, hposts]
    exact hbalance

theorem disp_move (h : Awake s w) (hw : w < maxThreadCount) {i : Input} {pc : DispPc}
    {reads : List MtRequest} (hmove : DispMove clientId s i g pc reads) :
    Awake ⟨g, pc, s.pcs, reads⟩ w := by
  cases hmove with
  | full hpc => exact h.of_disp rfl rfl (by rw [hpc])
  | reserve hpc => exact h.of_disp rfl rfl (by rw [hpc]; rfl)
  | stop hpc => exact h.of_disp rfl rfl (by rw [hpc]; rfl)
  | read hpc => exact h.of_disp rfl rfl (by rw [hpc]; rfl)
  | noWorker hpc => exact h.of_disp rfl rfl (by rw [hpc]; rfl)
  | @existing b v now hpc ht g hlookup =>
      have hflag : g.shutdownPending = s.g.shutdownPending := by
        rw [Globals.getWorkerThreadForFd] at hlookup
        simp only [] at hlookup
        repeat' split at hlookup
        all_goals cases hlookup
        all_goals rfl
      refine h.of_disp ?_ hflag (by rw [hpc, wakeStage_afterLookup]; rfl)
      exact view_lookup (F := ThreadItem.schedule) (fun _ _ _ => rfl) hlookup w
  | @newWorker b v hpc =>
      refine h.of_disp ?_ rfl (by rw [hpc, wakeStage_afterLookup]; rfl)
      exact view_acquireSlot (F := ThreadItem.schedule) (fun _ _ _ => rfl) s.g v w
  | lookupFailed hpc => exact h.of_disp rfl rfl (by rw [hpc]; rfl)
  | @lock b v hpc =>
      refine h.of_disp ?_ rfl (by rw [hpc]; rfl)
      apply view_modifyWorker (F := ThreadItem.schedule)
      intro x
      rfl
  | start hpc => exact h.of_disp rfl rfl (by rw [hpc]; rfl)
  | enqueue hpc _ _ hq => exact h.enqueue hpc hq
  | @queueFull b v hpc =>
      have hflag : (s.g.releaseOplock v).shutdownPending = s.g.shutdownPending := by
        rw [Globals.releaseOplock]
        split <;> rfl
      refine h.of_disp ?_ hflag (by rw [hpc]; rfl)
      exact view_releaseOplock (F := ThreadItem.schedule) (fun _ _ _ => rfl) s.g v w
  | running hpc hproc =>
      exact h.of_disp (hproc.schedule w) hproc.shutdownPending (by rw [hpc]; rfl)
  | @returned f i g rc hpc hproc =>
      refine h.of_disp (hproc.schedule w) hproc.shutdownPending ?_
      rw [hpc]
      split <;> rfl
  | failed hpc => exact h.of_disp rfl rfl (by rw [hpc]; rfl)
  | cleanup hpc => exact h.of_disp rfl rfl (by rw [hpc]; rfl)
  | @wake v hpc =>
      refine h.post (fun heq => ?_) (fun hne => ?_) (by rw [hpc]; rfl)
      · simp [hpc, DispPc.waking, DispPc.shutdownPosts, heq]
      · simp [hpc, DispPc.waking, DispPc.shutdownPosts, Ne.symm hne]
  | finiSet hpc =>
      refine ⟨?_, fun _ => rfl, h.empty⟩
      have hbalance := h.balance
      rw [hpc] at hbalance
      exact hbalance
  | @finiPost n hpc hn =>
      refine h.post (fun heq => ?_) (fun hne => ?_) (by rw [hpc]; rfl)
      · simp [hpc, DispPc.waking, DispPc.shutdownPosts, heq]
      · have hiff : w ≤ n ↔ w < n := by omega
        simp [hpc, DispPc.waking, DispPc.shutdownPosts, hiff]
  | @finiDone n hpc hn =>
      have hlt : w < n := by omega
      refine h.of_disp rfl rfl ?_
      simp [hpc, DispPc.wakeStage, DispPc.waking, DispPc.shutdownPosts, DispPc.closing, hlt]
  | @finiJoin n hpc =>
      have hiff : w < n + 1 ↔ w ≤ n := by omega
      refine h.of_disp rfl rfl ?_
      simp [hpc, DispPc.wakeStage, DispPc.waking, DispPc.shutdownPosts, DispPc.closing, hiff]

/-- There is nothing in the queue only when `fini_state` has posted. -/
theorem pending_of_empty (h : Awake s w) (hpc : s.pcs w = .dequeue) (hq : s.g.queue w = []) :
    s.g.shutdownPending = true := by
  have hbalance := h.balance
  rw [hpc, hq] at hbalance
  simp only [WorkerPc.dequeuing, WorkerPc.gone, List.length_nil] at hbalance
  apply h.pending
  cases hdisp : s.disp with
  | finiPost n => rfl
  | finiJoin n => rfl
  | exited => rfl
  | _ => rw [hdisp] at hbalance; simp [DispPc.shutdownPosts] at hbalance

theorem worker_move (h : Awake s w) {v : Nat} {i : Input} {pc : WorkerPc}
    (hmove : WorkerMove clientId s v i g pc) :
    Awake ⟨g, s.disp, Function.update s.pcs v pc, s.reads⟩ w := by
  cases hmove with
  | wait hpc hsem =>
      by_cases hv : v = w
      · subst hv
        have hqueue := (Quiet.modifyWorker s.g v (f := fun x =>
          { x with awaitingWorkSem := x.awaitingWorkSem - 1 }) rfl).queue v
        have hbalance := h.balance
        rw [hpc] at hbalance
        refine ⟨?_, h.pending, fun hexit => ?_⟩
        · simp only [hqueue, Function.update_self, WorkerPc.dequeuing, WorkerPc.gone]
            at hbalance ⊢
          simp only [Globals.modifyWorker, Function.update_self]
          omega
        · simp only [Function.update_self] at hexit
          cases hexit
      · refine h.of_worker ?_ rfl fun heq => absurd heq hv
        simp only [Globals.modifyWorker, Function.update_of_ne (Ne.symm hv)]
  | empty hpc hq =>
      by_cases hv : v = w
      · subst hv
        have hempty : s.g.queue v = [] := WorkQueue.contents_of_dequeue_none hq
        have hbalance := h.balance
        rw [hpc] at hbalance
        rw [if_pos (h.pending_of_empty hpc hempty)]
        refine ⟨?_, h.pending, fun _ => hempty⟩
        simp only [Function.update_self, WorkerPc.dequeuing, WorkerPc.gone] at hbalance ⊢
        omega
      · exact h.of_worker rfl rfl fun heq => absurd heq hv
  | @dequeue b q hpc hq =>
      by_cases hv : v = w
      · subst hv
        have hcontents : s.g.queue v = b :: q.contents := WorkQueue.contents_dequeue hq
        have hbalance := h.balance
        rw [hpc, hcontents] at hbalance
        refine ⟨?_, h.pending, fun hexit => ?_⟩
        · simp only [queue_modifyWorker_self, Function.update_self, WorkerPc.dequeuing,
            WorkerPc.gone, List.length_cons] at hbalance ⊢
          simp only [Globals.modifyWorker, Function.update_self]
          omega
        · simp only [Function.update_self] at hexit
          cases hexit
      · refine h.of_worker ?_ rfl fun heq => absurd heq hv
        simp only [Globals.modifyWorker, Function.update_of_ne (Ne.symm hv)]
  | running hpc hproc =>
      refine h.of_worker (hproc.schedule w) hproc.shutdownPending fun heq => ?_
      rw [← heq, hpc]
      exact ⟨rfl, rfl⟩
  | returned hpc hproc =>
      refine h.of_worker (hproc.schedule w) hproc.shutdownPending fun heq => ?_
      rw [← heq, hpc]
      exact ⟨rfl, rfl⟩
  | cleanup hpc =>
      refine h.of_worker rfl rfl fun heq => ?_
      rw [← heq, hpc]
      exact ⟨rfl, rfl⟩

theorem init (clientId : BitVec 16) (w : Nat) : Awake (ins clientId).init w := by
  constructor
  · simp [ins, Globals.queue, DispPc.waking, DispPc.shutdownPosts, WorkerPc.dequeuing,
      WorkerPc.gone]
  · intro hclose
    cases hclose
  · intro hexit
    cases hexit

theorem step (h : Awake s w) (hw : w < maxThreadCount) {e : Event} {s' : State}
    (hstep : (ins clientId).step s e = some s') : Awake s' w := by
  obtain ⟨g', disp', pcs', reads'⟩ := s'
  cases e with
  | disp i =>
      obtain ⟨hmove, hpcs⟩ := dispStep_move clientId hstep
      cases hpcs
      exact h.disp_move hw hmove
  | worker v i =>
      simp only [ins, Ins.step] at hstep
      split at hstep
      · obtain ⟨pc, hmove, hpcs, hdisp, hreads⟩ := workerStep_move clientId hstep
        cases hpcs
        cases hdisp
        cases hreads
        exact h.worker_move hmove
      · cases hstep

end Awake

/-! ## Every item is processed once -/

/-- The buffer that the step puts in the queue of `w`. -/
def enqueued (w : Nat) (s : State) : Event → List Nat
  | .disp .tau =>
      match s.disp with
      | .dispatch b =>
          if processNow (s.g.bufs b).request.type = false ∧
              (s.g.bufs b).assignedThread = some w ∧
              ((s.g.workers w).workQueue.enqueue b).isSome then [b] else []
      | _ => []
  | _ => []

/-- The buffer that worker `w` starts to process in the step. -/
def started (w : Nat) (s : State) : Event → List Nat
  | .worker v .tau =>
      if v = w then
        match s.pcs w with
        | .dequeue => ((s.g.workers w).workQueue.dequeue.map Prod.fst).toList
        | _ => []
      else []
  | _ => []

/-- Nothing is enqueued unless the dispatcher hands a request over. -/
theorem enqueued_of_ne {w : Nat} {s : State} {i : Input} (h : ∀ b, s.disp ≠ .dispatch b) :
    enqueued w s (.disp i) = [] := by
  cases i with
  | tau =>
      cases hpc : s.disp with
      | dispatch b => exact absurd hpc (h b)
      | _ => simp only [enqueued, hpc]
  | read _ _ => rfl
  | outcome _ => rfl

theorem started_of_ne {w v : Nat} {s : State} {i : Input} (h : v = w → s.pcs w ≠ .dequeue) :
    started w s (.worker v i) = [] := by
  cases i with
  | tau =>
      simp only [started]
      split
      · rename_i hv
        split
        · rename_i hpc
          exact absurd hpc (h hv)
        · rfl
      · rfl
  | read _ _ => rfl
  | outcome _ => rfl

section Fifo

variable {clientId : BitVec 16} {s : State} {g : Globals} (w : Nat)

theorem fifo_disp {i : Input} {pc : DispPc} {reads : List MtRequest}
    (hmove : DispMove clientId s i g pc reads) :
    s.g.queue w ++ enqueued w s (.disp i) = g.queue w := by
  have quiet (hq : g.queue w = s.g.queue w) (hpc : ∀ b, s.disp ≠ .dispatch b) :
      s.g.queue w ++ enqueued w s (.disp i) = g.queue w := by
    rw [enqueued_of_ne hpc, List.append_nil, hq]
  cases hmove with
  | full hpc => exact quiet rfl (by simp [hpc])
  | reserve hpc => exact quiet rfl (by simp [hpc])
  | stop hpc => exact quiet rfl (by simp [hpc])
  | read hpc => exact quiet rfl (by simp [hpc])
  | noWorker hpc => exact quiet rfl (by simp [hpc])
  | existing hpc ht hlookup =>
      exact quiet ((getWorkerThreadForFd_spec hlookup).2.queue w) (by simp [hpc])
  | @newWorker b v hpc => exact quiet ((Quiet.acquireSlot s.g v).queue w) (by simp [hpc])
  | lookupFailed hpc => exact quiet rfl (by simp [hpc])
  | @lock b v hpc => exact quiet ((Quiet.modifyWorker s.g v rfl).queue w) (by simp [hpc])
  | start hpc hnow => simp [enqueued, hpc, hnow]
  | @enqueue b v q hpc hnow hworker hq =>
      by_cases hv : v = w
      · subst hv
        rw [queue_modifyWorker_self]
        simp only [enqueued, hpc, hnow, hworker, hq, Option.isSome_some, and_self, if_true]
        exact (WorkQueue.contents_enqueue hq).symm
      · rw [queue_modifyWorker_ne s.g _ (Ne.symm hv)]
        simp [enqueued, hpc, hworker, hv]
  | @queueFull b v hpc hnow hworker hq =>
      rw [(Quiet.releaseOplock s.g v).queue w]
      simp only [enqueued, hpc, hworker, Option.some.injEq]
      split
      · rename_i hsome
        obtain ⟨-, rfl, hsome⟩ := hsome
        rw [hq] at hsome
        cases hsome
      · exact List.append_nil _
  | running hpc hproc => exact quiet (hproc.queue w) (by simp [hpc])
  | returned hpc hproc => exact quiet (hproc.queue w) (by simp [hpc])
  | failed hpc => exact quiet rfl (by simp [hpc])
  | cleanup hpc => exact quiet rfl (by simp [hpc])
  | @wake v hpc => exact quiet ((Quiet.modifyWorker s.g v rfl).queue w) (by simp [hpc])
  | finiSet hpc => exact quiet rfl (by simp [hpc])
  | @finiPost n hpc => exact quiet ((Quiet.modifyWorker s.g n rfl).queue w) (by simp [hpc])
  | finiDone hpc => exact quiet rfl (by simp [hpc])
  | finiJoin hpc => exact quiet rfl (by simp [hpc])

theorem fifo_worker {v : Nat} {i : Input} {pc : WorkerPc} (hmove : WorkerMove clientId s v i g pc) :
    s.g.queue w = started w s (.worker v i) ++ g.queue w := by
  have quiet (hq : g.queue w = s.g.queue w) (hpc : v = w → s.pcs w ≠ .dequeue) :
      s.g.queue w = started w s (.worker v i) ++ g.queue w := by
    rw [started_of_ne hpc, List.nil_append, hq]
  cases hmove with
  | wait hpc =>
      refine quiet ((Quiet.modifyWorker s.g v rfl).queue w) ?_
      rintro rfl
      simp [hpc]
  | empty hpc hq =>
      by_cases hv : v = w
      · subst hv
        simp [started, hpc, hq]
      · exact quiet rfl fun heq => absurd heq hv
  | @dequeue b q hpc hq =>
      by_cases hv : v = w
      · subst hv
        rw [queue_modifyWorker_self]
        simp only [started, hpc, hq, if_true, Option.map_some, Option.toList_some]
        exact WorkQueue.contents_dequeue hq
      · exact quiet (queue_modifyWorker_ne s.g _ (Ne.symm hv)) fun heq => absurd heq hv
  | running hpc hproc =>
      refine quiet (hproc.queue w) ?_
      rintro rfl
      simp [hpc]
  | returned hpc hproc =>
      refine quiet (hproc.queue w) ?_
      rintro rfl
      simp [hpc]
  | cleanup hpc =>
      refine quiet rfl ?_
      rintro rfl
      simp [hpc]

/-- What is enqueued comes out of the queue in the same order. -/
theorem fifo_step (clientId : BitVec 16) (s : State) (e : Event) (s' : State)
    (hstep : (ins clientId).step s e = some s') :
    s.g.queue w ++ enqueued w s e = started w s e ++ s'.g.queue w := by
  cases e with
  | disp i => exact fifo_disp w (dispStep_move clientId hstep).1
  | worker v i =>
      simp only [ins, Ins.step] at hstep
      split at hstep
      · obtain ⟨pc, hmove, -⟩ := workerStep_move clientId hstep
        rw [← fifo_worker w hmove]
        exact List.append_nil _
      · cases hstep

end Fifo

/-- **Wake-ups.** In every state that a run reaches, the semaphore of a worker is
at most the length of its queue plus the shutdown posts made to it; a worker that
is about to dequeue from an empty queue has been told to shut down; an exited
worker has left nothing in its queue; and the items a worker has started to
process are those that were enqueued for it, in their order, up to those that are
still in the queue. -/
theorem wakeups_accounted (clientId : BitVec 16) (es : List Event) (s : State)
    (hrun : (ins clientId).run es = some s) (w : Nat) (hw : w < maxThreadCount) :
    (s.g.workers w).awaitingWorkSem ≤ (s.g.queue w).length + s.disp.shutdownPosts w ∧
      (s.pcs w = .dequeue → s.g.queue w = [] → s.g.shutdownPending = true) ∧
      (s.pcs w = .exited → s.g.queue w = []) ∧
      (ins clientId).history (enqueued w) es =
        (ins clientId).history (started w) es ++ s.g.queue w := by
  have hawake : Awake s w :=
    @System.run_invariant _ _ (ins clientId) (fun s => Awake s w) (Awake.init clientId w)
      (fun _ _ _ hstep h => h.step hw hstep) _ _ hrun
  refine ⟨?_, hawake.pending_of_empty, hawake.empty, ?_⟩
  · have := hawake.balance
    omega
  · refine (ins clientId).history_fifo (q := fun s => s.g.queue w) ?_ (fifo_step w clientId) hrun
    simp [ins, Globals.queue]

/-- A receive is served; then the input ends and worker 0 shuts down. -/
def serveAndShutDown : List Event :=
  createAndRecv ++
    [.disp .tau, .disp (.read 0 {}), .disp .tau, .disp .tau, .worker 0 .tau, .worker 0 .tau,
     .disp .tau]

theorem wakeups_accounted_serveAndShutDown :
    ∃ s, (ins 1).run serveAndShutDown = some s ∧
      ((s.g.workers 0).awaitingWorkSem, s.disp.shutdownPosts 0,
        (ins 1).history (started 0) serveAndShutDown, s.g.queue 0) = (0, 1, [0], []) ∧
      (ins 1).history (enqueued 0) serveAndShutDown =
        (ins 1).history (started 0) serveAndShutDown ++ s.g.queue 0 := by
  have hsome : ((ins 1).run serveAndShutDown).map (fun s =>
      ((s.g.workers 0).awaitingWorkSem, s.disp.shutdownPosts 0,
        (ins 1).history (started 0) serveAndShutDown, s.g.queue 0)) = some (0, 1, [0], []) := by
    decide +kernel
  obtain ⟨s, hs, hview⟩ := Option.map_eq_some_iff.mp hsome
  exact ⟨s, hs, hview, (wakeups_accounted 1 serveAndShutDown s hs 0 (by decide)).2.2.2⟩

end MagicWand.Ins
