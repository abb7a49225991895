import MagicWand.Ins.Ledger

/-!
# The ledger balances

For every id, responses on the ring plus responses still owed equal the requests
read, in every run whose steps are all good. The condition on a step is about
what the step receives and the state it starts from:

* the dispatcher does not reserve a buffer item that a worker has released and
  is about to release again;
* a request it reads has a new id, and an address block has a valid `block`;
* `poll` inside a receive and `fcntl` inside an accept succeed.
-/

namespace MagicWand.Ins

open Foundation

/-! ## Good steps -/

/-- No worker is between its two releases of `b`. -/
def noWindow (s : State) (b : Nat) : Prop := ∀ w < maxThreadCount, (s.pcs w).window b = 0

/-- The outcome a thread receives is good for the call it is blocked in. -/
def goodReceive (f : Frame) (i : Input) : Prop :=
  match f.stage, i with
  | .call _ _ (some (c, _)), .outcome o => goodOutcome f.req.type c o
  | _, _ => True

def goodStep (s : State) : Event → Prop
  | .disp i =>
      match s.disp, i with
      | .reserve, _ =>
          match s.g.availableBuffer with
          | some b => noWindow s b
          | none => True
      | .read _, .read _ req => goodRequest req ∧ ∀ r ∈ s.reads, r.id ≠ req.id
      | _, _ => True
  | .worker w i =>
      match s.pcs w with
      | .process f => goodReceive f i
      | _ => True

instance (s : State) (b : Nat) : Decidable (noWindow s b) := by
  unfold noWindow
  infer_instance

instance (f : Frame) (i : Input) : Decidable (goodReceive f i) := by
  unfold goodReceive
  split <;> infer_instance

instance (s : State) (e : Event) : Decidable (goodStep s e) := by
  cases e <;> unfold goodStep <;> simp only [] <;> split
  · split <;> infer_instance
  all_goals infer_instance

/-! ## Threads are where their requests belong -/

/-- The handler of an activation is the one for its request. -/
def Frame.FromHandler (clientId : BitVec 16) (f : Frame) : Prop :=
  ∀ m os c, f.stage = .call m os c → ∃ g, m = handler clientId f.req f.worker g

/-- The outcomes received so far were good, and a call that was issued is the
one the handler is blocked in. -/
def Frame.GoodSoFar (f : Frame) : Prop :=
  ∀ m os issued, f.stage = .call m os issued →
    Script.Along (goodOutcome f.req.type) m os ∧
      ∀ c fd, issued = some (c, fd) → m os = .error c

/-- What the activation still writes is for its own request. -/
def Frame.Tied (f : Frame) : Prop := ∀ id, f.owes id ≤ hasId f.req id

def DispPc.Orderly (clientId : BitVec 16) (g : Globals) : DispPc → Prop
  | .lookup b => goodRequest (g.bufs b).request
  | .lock b _ => goodRequest (g.bufs b).request
  | .dispatch b => goodRequest (g.bufs b).request
  | .process f =>
      processNow f.req.type = true ∧ goodRequest f.req ∧ f.req = (g.bufs f.buf).request ∧
        f.FromHandler clientId ∧ f.Tied
  | _ => True

def WorkerPc.Orderly (clientId : BitVec 16) : WorkerPc → Prop
  | .process f =>
      processNow f.req.type = false ∧ f.FromHandler clientId ∧ f.GoodSoFar ∧ f.Tied
  | _ => True

structure Orderly (clientId : BitVec 16) (s : State) : Prop where
  disp : s.disp.Orderly clientId s.g
  worker : ∀ w, (s.pcs w).Orderly clientId
  queued : ∀ w < maxThreadCount, ∀ b ∈ s.g.queue w,
    processNow (s.g.bufs b).request.type = false
  distinct : (s.reads.map MtRequest.id).Nodup

/-! ### Frames -/

theorem Answers.due_eq {req : MtRequest} {resp : MtResponse} (h : Answers req resp)
    (id : BitVec 64) : due resp id = hasId req id := by
  simp only [due, hasId, h.carries_iff id]

theorem Blank.due_eq {resp : MtResponse} (h : Blank resp) (id : BitVec 64) : due resp id = 0 := by
  simp [due, h.not_carries id]

section Frames

variable {clientId : BitVec 16} {g g' : Globals} {f f' : Frame} {i : Input} {next : ProcNext}

theorem ProcMove.same_request (h : ProcMove clientId g f i g' (.running f')) :
    f'.buf = f.buf ∧ f'.req = f.req ∧ f'.worker = f.worker ∧ f'.gen = f.gen := by
  cases h <;> exact ⟨rfl, rfl, rfl, rfl⟩

theorem Frame.fromHandler_start (b : Nat) : (Frame.start clientId g b).FromHandler clientId := by
  intro m os c hstage
  cases hstage
  exact ⟨g, rfl⟩

theorem Frame.goodSoFar_start (b : Nat) : (Frame.start clientId g b).GoodSoFar := by
  intro m os issued hstage
  cases hstage
  exact ⟨Script.along_nil _ _, fun c fd hissued => by cases hissued⟩

theorem ProcMove.fromHandler (h : ProcMove clientId g f i g' (.running f'))
    (hf : f.FromHandler clientId) : f'.FromHandler clientId := by
  intro m os c hstage'
  cases h with
  | issue hstage => cases hstage'; exact hf _ _ _ hstage
  | receive hstage => cases hstage'; exact hf _ _ _ hstage
  | finish => cases hstage'
  | unlock => cases hstage'
  | post => cases hstage'
  | write => cases hstage'
  | release => cases hstage'

theorem ProcMove.goodSoFar (h : ProcMove clientId g f i g' (.running f'))
    (hgood : goodReceive f i) (hf : f.GoodSoFar) : f'.GoodSoFar := by
  intro m os issued hstage'
  cases h with
  | issue hstage hm =>
      cases hstage'
      exact ⟨(hf _ _ _ hstage).1, fun c fd hissued => by cases hissued; exact hm⟩
  | @receive m os c o hstage =>
      cases hstage'
      obtain ⟨halong, hblocked⟩ := hf _ _ _ hstage
      have ho : goodOutcome f.req.type c.1 o := by
        simpa only [goodReceive, hstage] using hgood
      exact ⟨halong.snoc (hblocked c.1 c.2 rfl) ho, fun c fd hissued => by cases hissued⟩
  | finish => cases hstage'
  | unlock => cases hstage'
  | post => cases hstage'
  | write => cases hstage'
  | release => cases hstage'

theorem Frame.tied_start (b : Nat) : (Frame.start clientId g b).Tied := fun _ => le_refl _

theorem ProcMove.tied (h : ProcMove clientId g f i g' (.running f'))
    (hres : ∀ m os r rest, f.stage = .call m os none → m os = .ok (r, rest) →
      Answers f.req r.response ∨ Blank r.response) (hf : f.Tied) : f'.Tied := by
  intro id
  have hf := hf id
  cases h with
  | issue => exact le_refl _
  | @finish m os r rest hstage hm =>
      show due r.response id ≤ hasId f.req id
      rcases hres m os r rest hstage hm with hans | hblank
      · exact (hans.due_eq id).le
      · rw [hblank.due_eq]
        exact Nat.zero_le _
  | receive => exact le_refl _
  | unlock hstage => simpa only [Frame.owes, hstage] using hf
  | post hstage =>
      simpa only [Frame.owes, hstage, due, carries_postProcessResponse] using hf
  | write => exact Nat.zero_le _
  | release => exact Nat.zero_le _

end Frames

theorem DispPc.Orderly.of_request {clientId : BitVec 16} {g g' : Globals} {pc : DispPc}
    (h : pc.Orderly clientId g) (hr : ∀ b, (g'.bufs b).request = (g.bufs b).request) :
    pc.Orderly clientId g' := by
  cases pc with
  | lookup b => simpa only [DispPc.Orderly, hr b] using h
  | lock b w => simpa only [DispPc.Orderly, hr b] using h
  | dispatch b => simpa only [DispPc.Orderly, hr b] using h
  | process f => simpa only [DispPc.Orderly, hr f.buf] using h
  | reserve => trivial
  | read b => trivial
  | failed b => trivial
  | cleanup b => trivial
  | wake w => trivial
  | finiSet => trivial
  | finiPost n => trivial
  | finiJoin n => trivial
  | exited => trivial

namespace Orderly

variable {clientId : BitVec 16} {s : State} {g : Globals}

/-- A step of the dispatcher that changes no request and no queue. -/
theorem of_disp (h : Orderly clientId s) {pc : DispPc} (hpc : pc.Orderly clientId g)
    (hq : ∀ w, g.queue w = s.g.queue w)
    (hr : ∀ b, (g.bufs b).request = (s.g.bufs b).request) :
    Orderly clientId ⟨g, pc, s.pcs, s.reads⟩ where
  disp := hpc
  worker := h.worker
  queued := fun w hw b hb => by
    rw [hr b]
    exact h.queued w hw b (by rw [← hq w]; exact hb)
  distinct := h.distinct

theorem of_quiet (h : Orderly clientId s) {pc : DispPc} (hquiet : Quiet s.g g)
    (hpc : pc.Orderly clientId g) : Orderly clientId ⟨g, pc, s.pcs, s.reads⟩ :=
  h.of_disp hpc hquiet.queue fun b => by rw [hquiet.bufs]

theorem afterLookup {g : Globals} {b w : Nat} {t : MtRequestType}
    (h : goodRequest (g.bufs b).request) : (afterLookup t b w).Orderly clientId g := by
  unfold Ins.afterLookup
  split <;> exact h

/-- The lookup has found slot `w`. -/
theorem lookup (h : Orderly clientId s) {g : Globals} {b w : Nat} (hpc : s.disp = .lookup b)
    (hquiet : Quiet s.g g) (t : MtRequestType) :
    Orderly clientId ⟨assignTo g b w, Ins.afterLookup t b w, s.pcs, s.reads⟩ := by
  have hr := fun b' => (quiet_assignTo hquiet b w b').2
  refine h.of_disp (afterLookup ?_) hquiet.queue hr
  rw [hr b]
  simpa only [hpc, DispPc.Orderly] using h.disp

/-- Reading a request into the reserved buffer, which no queue holds. -/
theorem read (h : Orderly clientId s) (hhold : Holding s) {b : Nat} {req : MtRequest}
    {pc : DispPc} {reads : List MtRequest} (hpc : s.disp = .read b)
    (hpc' : pc.Orderly clientId (s.g.modifyBuf b fun x => { x with request := req }))
    (hdistinct : (reads.map MtRequest.id).Nodup) :
    Orderly clientId ⟨s.g.modifyBuf b fun x => { x with request := req }, pc, s.pcs, reads⟩ where
  disp := hpc'
  worker := h.worker
  queued := fun w hw b' hb' => by
    have hb : 0 < s.disp.active b + s.disp.window b := by simp [hpc, DispPc.active]
    rw [bufs_modifyBuf_ne s.g b _ (hhold.ne_of_queued hb hw hb')]
    exact h.queued w hw b' hb'
  distinct := hdistinct

theorem disp_move (h : Orderly clientId s) (hhold : Holding s) {i : Input} {pc : DispPc}
    {reads : List MtRequest} (hmove : DispMove clientId s i g pc reads)
    (hguard : goodStep s (.disp i)) : Orderly clientId ⟨g, pc, s.pcs, reads⟩ := by
  have hdisp := h.disp
  cases hmove with
  | full => exact h.of_quiet (Quiet.refl _) trivial
  | @reserve b hpc hb =>
      exact h.of_disp trivial (fun _ => rfl) (request_modifyBuf s.g b rfl)
  | stop hpc => exact h.read hhold hpc trivial h.distinct
  | @read b size req hpc hsize =>
      simp only [goodStep, hpc] at hguard
      refine h.read hhold hpc ?_ ?_
      · simp only [DispPc.Orderly, bufs_modifyBuf_self]
        exact hguard.1
      · rw [List.map_append, List.nodup_append]
        refine ⟨h.distinct, by simp, ?_⟩
        intro a ha a' ha'
        obtain ⟨r, hr, rfl⟩ := List.mem_map.mp ha
        cases List.mem_singleton.mp ha'
        exact hguard.2 r hr
  | @noWorker b hpc ht =>
      refine h.of_disp ?_ (fun _ => rfl) (request_modifyBuf s.g b rfl)
      rw [hpc] at hdisp
      simpa only [DispPc.Orderly, bufs_modifyBuf_self] using hdisp
  | existing hpc ht hw => exact h.lookup hpc (getWorkerThreadForFd_spec hw).2 _
  | newWorker hpc ht hw => exact h.lookup hpc (Quiet.acquireSlot s.g _) _
  | lookupFailed => exact h.of_quiet (Quiet.refl _) trivial
  | @lock b w hpc =>
      rw [hpc] at hdisp
      exact h.of_quiet (Quiet.modifyWorker s.g w rfl) hdisp
  | @start b hpc hnow =>
      rw [hpc] at hdisp
      exact h.of_quiet (Quiet.refl _) ⟨hnow, hdisp, rfl, Frame.fromHandler_start b,
        Frame.tied_start b⟩
  | @enqueue b w q hpc hnow hw hq =>
      refine ⟨trivial, h.worker, fun v hv b' hb' => ?_, h.distinct⟩
      by_cases hvw : v = w
      · subst hvw
        rw [queue_modifyWorker_self, WorkQueue.contents_enqueue hq, List.mem_append] at hb'
        rcases hb' with hb' | hb'
        · exact h.queued v hv b' hb'
        · cases List.mem_singleton.mp hb'
          exact hnow
      · rw [queue_modifyWorker_ne s.g _ hvw] at hb'
        exact h.queued v hv b' hb'
  | @queueFull b w hpc => exact h.of_quiet (Quiet.releaseOplock s.g w) trivial
  | @running f i g f' hpc hproc =>
      rw [hpc] at hdisp
      obtain ⟨hnow, hgood, hreq, hfrom, htied⟩ := hdisp
      obtain ⟨hbuf, hsame, -, -⟩ := hproc.same_request
      refine h.of_disp ⟨?_, ?_, ?_, hproc.fromHandler hfrom, hproc.tied ?_ htied⟩ hproc.queue
        hproc.request
      · rw [hsame]
        exact hnow
      · rw [hsame]
        exact hgood
      · rw [hsame, hbuf, hproc.request]
        exact hreq
      · intro m os r rest hstage hm
        obtain ⟨g₀, rfl⟩ := hfrom m os none hstage
        exact (handler_now hnow hgood hm).imp And.left And.left
  | @returned f i g rc hpc hproc =>
      refine h.of_disp ?_ hproc.queue hproc.request
      split <;> trivial
  | failed => exact h.of_disp trivial (fun _ => rfl) fun _ => rfl
  | @cleanup b hpc =>
      exact h.of_disp trivial (fun _ => rfl) (request_releaseBufferItem s.g b)
  | @wake w => exact h.of_quiet (Quiet.modifyWorker s.g w rfl) trivial
  | finiSet => exact h.of_disp trivial (fun _ => rfl) fun _ => rfl
  | @finiPost n => exact h.of_quiet (Quiet.modifyWorker s.g n rfl) trivial
  | finiDone => exact h.of_quiet (Quiet.refl _) trivial
  | finiJoin => exact h.of_quiet (Quiet.refl _) trivial

/-- A step of worker thread `w` that only shortens its queue. -/
theorem of_worker (h : Orderly clientId s) {w : Nat} {pc : WorkerPc}
    (hpc : pc.Orderly clientId) (hq : ∀ v, ∀ b ∈ g.queue v, b ∈ s.g.queue v)
    (hr : ∀ b, (g.bufs b).request = (s.g.bufs b).request) :
    Orderly clientId ⟨g, s.disp, Function.update s.pcs w pc, s.reads⟩ where
  disp := h.disp.of_request hr
  worker := fun v => by
    by_cases hv : v = w
    · subst hv
      simpa only [Function.update_self] using hpc
    · simpa only [Function.update_of_ne hv] using h.worker v
  queued := fun v hv b hb => by
    rw [hr b]
    exact h.queued v hv b (hq v b hb)
  distinct := h.distinct

theorem worker_move (h : Orderly clientId s) {w : Nat} {i : Input} {pc : WorkerPc}
    (hw : w < maxThreadCount) (hmove : WorkerMove clientId s w i g pc)
    (hguard : goodStep s (.worker w i)) :
    Orderly clientId ⟨g, s.disp, Function.update s.pcs w pc, s.reads⟩ := by
  have hpcw := h.worker w
  cases hmove with
  | wait hpc =>
      have hquiet := Quiet.modifyWorker s.g w (f := fun x =>
        { x with awaitingWorkSem := x.awaitingWorkSem - 1 }) rfl
      exact h.of_worker trivial (fun v b hb => by rwa [hquiet.queue] at hb) fun _ => rfl
  | empty hpc =>
      refine h.of_worker ?_ (fun _ _ hb => hb) fun _ => rfl
      split <;> trivial
  | @dequeue b q hpc hq =>
      have hcontents : s.g.queue w = b :: q.contents := WorkQueue.contents_dequeue hq
      have htype : processNow (s.g.bufs b).request.type = false :=
        h.queued w hw b (by rw [hcontents]; exact List.mem_cons_self)
      refine h.of_worker ⟨htype, Frame.fromHandler_start b, Frame.goodSoFar_start b,
          Frame.tied_start b⟩
        (fun v b' hb' => ?_) fun _ => rfl
      by_cases hv : v = w
      · subst hv
        rw [queue_modifyWorker_self] at hb'
        rw [hcontents]
        exact List.mem_cons_of_mem b hb'
      · rwa [queue_modifyWorker_ne s.g _ hv] at hb'
  | @running f i g f' hpc hproc =>
      rw [hpc] at hpcw
      obtain ⟨hnow, hfrom, hsofar, htied⟩ := hpcw
      simp only [goodStep, hpc] at hguard
      refine h.of_worker
        ⟨?_, hproc.fromHandler hfrom, hproc.goodSoFar hguard hsofar, hproc.tied ?_ htied⟩
        (fun v b hb => by rwa [hproc.queue] at hb) hproc.request
      · rw [hproc.same_request.2.1]
        exact hnow
      · intro m os r rest hstage hm
        obtain ⟨g₀, rfl⟩ := hfrom m os none hstage
        exact .inl (handler_worker hnow (hsofar _ os none hstage).1 hm)
  | returned hpc hproc =>
      exact h.of_worker trivial (fun v b hb => by rwa [hproc.queue] at hb) hproc.request
  | @cleanup b hpc =>
      exact h.of_worker trivial (fun _ _ hb => hb) (request_releaseBufferItem s.g b)

end Orderly

/-! ## The balance -/

theorem Quiet.answered {g g' : Globals} (h : Quiet g g') (id : BitVec 64) :
    Ins.answered g' id = Ins.answered g id := by
  simp only [Ins.answered, h.ring]

theorem answered_writeRing (g : Globals) (resp : MtResponse) (id : BitVec 64) :
    answered (g.writeRing resp) id = answered g id + due resp id := by
  simp only [answered, Globals.writeRing, List.countP_append, List.countP_singleton, due]

section Balance

variable {clientId : BitVec 16} {g g' : Globals} {f f' : Frame} {i : Input}

/-- Only the return of the handler is not balanced by itself: it exchanges the
answer to the request for the response the handler built and, if the return
code is not 0, the dispatcher's error response. -/
theorem ProcMove.balance (h : ProcMove clientId g f i g' (.running f')) (id : BitVec 64) :
    (answered g' id + f'.owes id = answered g id + f.owes id ∧
      f'.owesError id = f.owesError id) ∨
    (∃ m os r rest, f.stage = .call m os none ∧ m os = .ok (r, rest) ∧
      answered g' id = answered g id ∧ f.owes id = hasId f.req id ∧ f.owesError id = 0 ∧
      f'.owes id = due r.response id ∧
      f'.owesError id = if r.rc ≠ 0 then hasId f.req id else 0) := by
  cases h with
  | issue hstage => exact .inl (by simp [Frame.owes, Frame.owesError, hstage])
  | @finish m os r rest hstage hm =>
      refine .inr ⟨m, os, r, rest, hstage, hm, (Quiet.finishHandler f r g).answered id, ?_, ?_,
        rfl, rfl⟩
      · simp [Frame.owes, hstage]
      · simp [Frame.owesError, hstage]
  | receive hstage => exact .inl (by simp [Frame.owes, Frame.owesError, hstage])
  | unlock hstage =>
      rw [(Quiet.unlockWorker g f.worker).answered]
      exact .inl (by simp [Frame.owes, Frame.owesError, hstage])
  | post hstage =>
      rw [(Quiet.postProcessResponse clientId f.req f.worker _ g).answered]
      exact .inl (by simp [Frame.owes, Frame.owesError, hstage, due, carries_postProcessResponse])
  | write hstage =>
      rw [answered_writeRing]
      exact .inl (by simp [Frame.owes, Frame.owesError, hstage])
  | release hstage => exact .inl (by simp [Frame.owes, Frame.owesError, hstage]; rfl)

theorem ProcMove.balance_worker (h : ProcMove clientId g f i g' (.running f'))
    (ht : processNow f.req.type = false) (hfrom : f.FromHandler clientId) (hgood : f.GoodSoFar)
    (id : BitVec 64) : answered g' id + f'.owes id = answered g id + f.owes id := by
  rcases h.balance id with ⟨hbal, -⟩ | ⟨m, os, r, rest, hstage, hm, hans, howes, -, hnew, -⟩
  · exact hbal
  · obtain ⟨g₀, rfl⟩ := hfrom m os none hstage
    have hanswers := handler_worker ht (hgood _ os none hstage).1 hm
    rw [hans, howes, hnew, hanswers.due_eq]

theorem ProcMove.balance_disp (h : ProcMove clientId g f i g' (.running f'))
    (ht : processNow f.req.type = true) (hreq : goodRequest f.req)
    (hfrom : f.FromHandler clientId) (id : BitVec 64) :
    answered g' id + (f'.owes id + f'.owesError id) =
      answered g id + (f.owes id + f.owesError id) := by
  rcases h.balance id with ⟨hbal, herr⟩ |
      ⟨m, os, r, rest, hstage, hm, hans, howes, herr, hnew, hnewerr⟩
  · omega
  · obtain ⟨g₀, rfl⟩ := hfrom m os none hstage
    rcases handler_now ht hreq hm with ⟨hanswers, hrc⟩ | ⟨hblank, hrc⟩
    · rw [hnewerr, if_neg (not_not_intro hrc), hans, howes, herr, hnew, hanswers.due_eq]
    · rw [hnewerr, if_pos hrc, hans, howes, herr, hnew, hblank.due_eq]
      omega

theorem ProcMove.balance_returned {rc : Int} (h : ProcMove clientId g f i g' (.returned rc))
    (id : BitVec 64) :
    answered g' id = answered g id ∧ f.owes id = 0 ∧
      f.owesError id = if rc ≠ 0 then hasId f.req id else 0 := by
  cases h with
  | retireSlot hstage =>
      exact ⟨(Quiet.releaseWorkerThread g _).answered id, by simp [Frame.owes, hstage],
        by simp [Frame.owesError, hstage]⟩
  | retire hstage =>
      exact ⟨rfl, by simp [Frame.owes, hstage], by simp [Frame.owesError, hstage]⟩

end Balance

/-- Every request read is answered or still owed an answer, exactly once. -/
def Balanced (s : State) : Prop := ∀ id, answered s.g id + owed s id = requested s id

namespace Balanced

variable {clientId : BitVec 16} {s : State} {g : Globals}

theorem slotOwes_congr (pc : DispPc) (reads : List MtRequest) (id : BitVec 64)
    (hq : ∀ w, g.queue w = s.g.queue w)
    (hr : ∀ b, (g.bufs b).request = (s.g.bufs b).request) :
    ∀ w < maxThreadCount, slotOwes ⟨g, pc, s.pcs, reads⟩ id w = slotOwes s id w := by
  intro w _
  simp only [slotOwes, hq, hr]

/-- A step of the dispatcher that changes no request and no queue. -/
theorem of_disp (h : Balanced s) {pc : DispPc} (hq : ∀ w, g.queue w = s.g.queue w)
    (hr : ∀ b, (g.bufs b).request = (s.g.bufs b).request)
    (hbal : ∀ id, answered g id + pc.owes g id = answered s.g id + s.disp.owes s.g id) :
    Balanced ⟨g, pc, s.pcs, s.reads⟩ := by
  intro id
  have := h id
  have := hbal id
  have htally := tally_congr
    (slotOwes_congr pc s.reads id hq hr)
  simp only [owed, htally] at *
  show _ = requested s id
  omega

theorem of_quiet (h : Balanced s) {pc : DispPc} (hquiet : Quiet s.g g)
    (howes : ∀ id, pc.owes g id = s.disp.owes s.g id) :
    Balanced ⟨g, pc, s.pcs, s.reads⟩ :=
  h.of_disp hquiet.queue (fun b => by rw [hquiet.bufs]) fun id => by
    rw [howes, hquiet.answered]

theorem owes_afterLookup (t : MtRequestType) (g : Globals) (b w : Nat) (id : BitVec 64) :
    (afterLookup t b w).owes g id = hasId (g.bufs b).request id := by
  unfold afterLookup
  split <;> rfl

theorem lookup (h : Balanced s) {b w : Nat} (hpc : s.disp = .lookup b) (hquiet : Quiet s.g g)
    (t : MtRequestType) :
    Balanced ⟨assignTo g b w, afterLookup t b w, s.pcs, s.reads⟩ := by
  have hr := fun b' => (quiet_assignTo hquiet b w b').2
  refine h.of_disp hquiet.queue hr fun id => ?_
  rw [owes_afterLookup, hr b, hpc]
  show answered g id + _ = _
  rw [hquiet.answered]
  rfl

/-- Reading a request into the reserved buffer, which no queue holds. -/
theorem read (h : Balanced s) (hhold : Holding s) {b : Nat} {req : MtRequest} {pc : DispPc}
    {reads : List MtRequest} (hpc : s.disp = .read b)
    (hbal : ∀ id, pc.owes (s.g.modifyBuf b fun x => { x with request := req }) id +
      requested s id = reads.countP (fun r => r.id == id)) :
    Balanced ⟨s.g.modifyBuf b fun x => { x with request := req }, pc, s.pcs, reads⟩ := by
  intro id
  have hslots : ∀ w < maxThreadCount, slotOwes
      ⟨s.g.modifyBuf b fun x => { x with request := req }, pc, s.pcs, reads⟩ id w =
      slotOwes s id w := by
    intro w hw
    simp only [slotOwes]
    congr 1
    apply List.countP_congr
    intro b' hb'
    have hb : 0 < s.disp.active b + s.disp.window b := by simp [hpc, DispPc.active]
    rw [bufs_modifyBuf_ne s.g b _ (hhold.ne_of_queued hb hw hb')]
  have htally := tally_congr hslots
  have hold := h id
  have hbal := hbal id
  simp only [owed, hpc, DispPc.owes] at hold
  simp only [owed, htally]
  show answered s.g id + _ = reads.countP (fun r => r.id == id)
  omega

/-- The dispatcher hands its request to the queue of slot `w`. -/
theorem enqueue (h : Balanced s) {b w : Nat} {q : WorkQueue} (hpc : s.disp = .dispatch b)
    (hw : w < maxThreadCount) (hq : (s.g.workers w).workQueue.enqueue b = some q) :
    Balanced ⟨s.g.modifyWorker w fun x => { x with workQueue := q }, .wake w, s.pcs, s.reads⟩ := by
  intro id
  have hself : slotOwes ⟨s.g.modifyWorker w fun x => { x with workQueue := q }, .wake w, s.pcs,
      s.reads⟩ id w = slotOwes s id w + hasId (s.g.bufs b).request id := by
    simp only [slotOwes, queue_modifyWorker_self]
    rw [WorkQueue.contents_enqueue hq, List.countP_append, List.countP_singleton]
    show _ + _ + (s.pcs w).owes id = (s.g.queue w).countP _ + (s.pcs w).owes id + _
    simp only [Globals.queue, hasId, Globals.modifyWorker, beq_iff_eq]
    omega
  have hchange := tally_change (f := slotOwes s id)
    (k := slotOwes ⟨s.g.modifyWorker w fun x => { x with workQueue := q }, .wake w, s.pcs,
      s.reads⟩ id) hw fun v hv => by
      simp only [slotOwes, queue_modifyWorker_ne s.g _ hv]
      rfl
  have hold := h id
  simp only [owed, hpc, DispPc.owes] at hold
  simp only [owed, DispPc.owes]
  show answered s.g id + _ = requested s id
  omega

theorem disp_move (h : Balanced s) (hhold : Holding s) (hord : Orderly clientId s) {i : Input}
    {pc : DispPc} {reads : List MtRequest} (hmove : DispMove clientId s i g pc reads) :
    Balanced ⟨g, pc, s.pcs, reads⟩ := by
  have hdisp := hord.disp
  cases hmove with
  | full hpc => exact h.of_quiet (Quiet.refl _) fun id => by rw [hpc]
  | @reserve b hpc hb =>
      exact h.of_disp (fun _ => rfl) (request_modifyBuf s.g b rfl) fun id => by rw [hpc]; rfl
  | stop hpc => exact h.read hhold hpc fun id => by simp [DispPc.owes, requested]
  | @read b size req hpc hsize =>
      refine h.read hhold hpc fun id => ?_
      rw [List.countP_append, List.countP_singleton]
      simp only [DispPc.owes, bufs_modifyBuf_self, requested, hasId, beq_iff_eq]
      omega
  | @noWorker b hpc ht =>
      refine h.of_disp (fun _ => rfl) (request_modifyBuf s.g b rfl) fun id => ?_
      rw [hpc]
      simp only [DispPc.owes, bufs_modifyBuf_self]
      rfl
  | existing hpc ht hw => exact h.lookup hpc (getWorkerThreadForFd_spec hw).2 _
  | newWorker hpc ht hw => exact h.lookup hpc (Quiet.acquireSlot s.g _) _
  | lookupFailed hpc => exact h.of_quiet (Quiet.refl _) fun id => by rw [hpc]; rfl
  | @lock b w hpc =>
      exact h.of_quiet (Quiet.modifyWorker s.g w rfl) fun id => by rw [hpc]; rfl
  | start hpc hnow => exact h.of_quiet (Quiet.refl _) fun id => by rw [hpc]; rfl
  | enqueue hpc hnow hw hq => exact h.enqueue hpc (hhold.slots _ _ hw) hq
  | @queueFull b w hpc =>
      have hquiet := Quiet.releaseOplock s.g w
      refine h.of_quiet hquiet fun id => ?_
      rw [hpc]
      simp only [DispPc.owes, hquiet.bufs]
  | running hpc hproc =>
      rw [hpc] at hdisp
      obtain ⟨hnow, hgood, -, hfrom, -⟩ := hdisp
      refine h.of_disp hproc.queue hproc.request fun id => ?_
      rw [hpc]
      exact hproc.balance_disp hnow hgood hfrom id
  | @returned f i g rc hpc hproc =>
      rw [hpc] at hdisp
      obtain ⟨-, -, hreq, -, -⟩ := hdisp
      refine h.of_disp hproc.queue hproc.request fun id => ?_
      obtain ⟨hans, howes, herr⟩ := hproc.balance_returned id
      rw [hans, hpc]
      by_cases hrc : rc = 0
      · simp [hrc, DispPc.owes, howes, herr]
      · simp [hrc, DispPc.owes, howes, herr, hproc.request, ← hreq]
  | @failed b hpc =>
      refine h.of_disp (fun _ => rfl) (fun _ => rfl) fun id => ?_
      rw [answered_writeRing, hpc, (answers_internalError _).due_eq]
      simp only [DispPc.owes]
      omega
  | @cleanup b hpc =>
      exact h.of_disp (fun _ => rfl) (request_releaseBufferItem s.g b) fun id => by rw [hpc]; rfl
  | @wake w hpc =>
      exact h.of_quiet (Quiet.modifyWorker s.g w rfl) fun id => by rw [hpc]; rfl
  | finiSet hpc => exact h.of_disp (fun _ => rfl) (fun _ => rfl) fun id => by rw [hpc]; rfl
  | @finiPost n hpc =>
      exact h.of_quiet (Quiet.modifyWorker s.g n rfl) fun id => by rw [hpc]; rfl
  | finiDone hpc => exact h.of_quiet (Quiet.refl _) fun id => by rw [hpc]; rfl
  | finiJoin hpc => exact h.of_quiet (Quiet.refl _) fun id => by rw [hpc]; rfl

/-- A step of worker thread `w`: what its slot owes and what is on the ring
move against each other. -/
theorem of_worker (h : Balanced s) {w : Nat} {pc : WorkerPc} (hw : w < maxThreadCount)
    (hq : ∀ v, v ≠ w → g.queue v = s.g.queue v)
    (hr : ∀ b, (g.bufs b).request = (s.g.bufs b).request)
    (hbal : ∀ id, answered g id +
        ((g.queue w).countP (fun b => (s.g.bufs b).request.id == id) + pc.owes id) =
      answered s.g id + slotOwes s id w) :
    Balanced ⟨g, s.disp, Function.update s.pcs w pc, s.reads⟩ := by
  intro id
  have hchange := tally_change (f := slotOwes s id)
    (k := slotOwes ⟨g, s.disp, Function.update s.pcs w pc, s.reads⟩ id) hw fun v hv => by
      simp only [slotOwes, hq v hv, hr, Function.update_of_ne hv]
  have hself : slotOwes ⟨g, s.disp, Function.update s.pcs w pc, s.reads⟩ id w =
      (g.queue w).countP (fun b => (s.g.bufs b).request.id == id) + pc.owes id := by
    simp only [slotOwes, hr, Function.update_self]
  have hdisp : s.disp.owes g id = s.disp.owes s.g id := by
    cases s.disp <;> simp only [DispPc.owes, hr]
  have hold := h id
  have hbal := hbal id
  have hle := le_tally (slotOwes s id) hw
  simp only [owed] at hold
  simp only [owed, hdisp]
  show answered g id + _ = requested s id
  omega

theorem worker_move (h : Balanced s) (hord : Orderly clientId s) {w : Nat} {i : Input}
    {pc : WorkerPc} (hw : w < maxThreadCount) (hmove : WorkerMove clientId s w i g pc) :
    Balanced ⟨g, s.disp, Function.update s.pcs w pc, s.reads⟩ := by
  have hpcw := hord.worker w
  cases hmove with
  | wait hpc =>
      have hquiet := Quiet.modifyWorker s.g w (f := fun x =>
        { x with awaitingWorkSem := x.awaitingWorkSem - 1 }) rfl
      refine h.of_worker hw (fun v _ => hquiet.queue v) (fun _ => rfl) fun id => ?_
      rw [hquiet.answered, hquiet.queue, slotOwes, hpc]
      rfl
  | empty hpc =>
      refine h.of_worker hw (fun _ _ => rfl) (fun _ => rfl) fun id => ?_
      rw [slotOwes, hpc]
      split <;> rfl
  | @dequeue b q hpc hq =>
      have hcontents : s.g.queue w = b :: q.contents := WorkQueue.contents_dequeue hq
      refine h.of_worker hw (fun v hv => queue_modifyWorker_ne s.g _ hv) (fun _ => rfl)
        fun id => ?_
      rw [queue_modifyWorker_self, slotOwes, hcontents, hpc, List.countP_cons]
      show answered s.g id + (q.contents.countP _ + hasId (s.g.bufs b).request id) = _
      by_cases hid : (s.g.bufs b).request.id = id <;> simp [WorkerPc.owes, hasId, hid]
  | @running f i g f' hpc hproc =>
      rw [hpc] at hpcw
      obtain ⟨hnow, hfrom, hgood, -⟩ := hpcw
      refine h.of_worker hw (fun v _ => hproc.queue v) hproc.request fun id => ?_
      have := hproc.balance_worker hnow hfrom hgood id
      rw [slotOwes, hpc, hproc.queue]
      simp only [WorkerPc.owes]
      omega
  | @returned f i g rc hpc hproc =>
      refine h.of_worker hw (fun v _ => hproc.queue v) hproc.request fun id => ?_
      obtain ⟨hans, howes, -⟩ := hproc.balance_returned id
      rw [slotOwes, hpc, hproc.queue, hans]
      simp only [WorkerPc.owes, howes]
  | @cleanup b hpc =>
      refine h.of_worker hw (fun _ _ => rfl) (request_releaseBufferItem s.g b) fun id => ?_
      rw [slotOwes, hpc]
      rfl

end Balanced

/-! ## Exactly one response -/

/-- The invariant of the ledger. -/
structure Sound (clientId : BitVec 16) (s : State) : Prop where
  holding : Holding s
  orderly : Orderly clientId s
  balanced : Balanced s

theorem sound_init (clientId : BitVec 16) : Sound clientId (ins clientId).init where
  holding :=
    { excl := fun b => by
        simp only [active, window, ins, DispPc.active, DispPc.window]
        rw [tally_eq_zero fun w _ => by simp [slotActive, Globals.queue, WorkerPc.active],
          tally_eq_zero fun w _ => by simp [slotWindow, WorkerPc.window]]
        omega
      inUse := fun b hb => by
        simp only [active, ins, DispPc.active] at hb
        rw [tally_eq_zero fun w _ => by simp [slotActive, Globals.queue, WorkerPc.active]] at hb
        omega
      slots := fun b w hb => by cases hb }
  orderly :=
    { disp := trivial
      worker := fun _ => trivial
      queued := fun w _ b hb => by simp [ins, Globals.queue] at hb
      distinct := List.nodup_nil }
  balanced := fun id => by
    simp only [owed, ins, DispPc.owes, answered, requested]
    rw [tally_eq_zero fun w _ => by simp [slotOwes, Globals.queue, WorkerPc.owes]]
    rfl

theorem sound_step (clientId : BitVec 16) (s : State) (e : Event) (s' : State)
    (hguard : goodStep s e) (hstep : (ins clientId).step s e = some s')
    (h : Sound clientId s) : Sound clientId s' := by
  obtain ⟨g', disp', pcs', reads'⟩ := s'
  cases e with
  | disp i =>
      obtain ⟨hmove, hpcs⟩ := dispStep_move clientId hstep
      cases hpcs
      have hwindow : ∀ b, s.disp = .reserve → s.g.availableBuffer = some b →
          ∀ w < maxThreadCount, (s.pcs w).window b = 0 := by
        intro b hpc hb
        simp only [goodStep, hpc, hb] at hguard
        exact hguard
      exact ⟨h.holding.disp_move hmove hwindow,
        h.orderly.disp_move h.holding hmove hguard,
        h.balanced.disp_move h.holding h.orderly hmove⟩
  | worker w i =>
      simp only [ins, step] at hstep
      split at hstep
      · next hw =>
          obtain ⟨pc, hmove, hpcs, hdisp, hreads⟩ := workerStep_move clientId hstep
          cases hpcs
          cases hdisp
          cases hreads
          exact ⟨h.holding.worker_move hw hmove, h.orderly.worker_move hw hmove hguard,
            h.balanced.worker_move h.orderly hw hmove⟩
      · cases hstep

/-- A request with this id is still being processed: the dispatcher has it, it
is in the queue of a slot, or a worker thread is at it. -/
def InProgress (s : State) (id : BitVec 64) : Prop :=
  (match s.disp with
    | .lookup b => (s.g.bufs b).request.id = id
    | .lock b _ => (s.g.bufs b).request.id = id
    | .dispatch b => (s.g.bufs b).request.id = id
    | .process f => f.req.id = id
    | .failed b => (s.g.bufs b).request.id = id
    | _ => False) ∨
  ∃ w < maxThreadCount, (∃ b ∈ s.g.queue w, (s.g.bufs b).request.id = id) ∨
    ∃ f, s.pcs w = .process f ∧ f.req.id = id

theorem hasId_pos {req : MtRequest} {id : BitVec 64} (h : 0 < hasId req id) : req.id = id := by
  by_contra hne
  simp [hasId, hne] at h

theorem Frame.owesError_le (f : Frame) (id : BitVec 64) : f.owesError id ≤ hasId f.req id := by
  unfold Frame.owesError
  split
  · exact Nat.zero_le _
  all_goals split <;> omega

/-- Whoever owes an answer is still at the request. -/
theorem inProgress_of_owed {clientId : BitVec 16} {s : State} (h : Orderly clientId s)
    {id : BitVec 64} (howed : 0 < owed s id) : InProgress s id := by
  by_cases hdisp : 0 < s.disp.owes s.g id
  · left
    have hord := h.disp
    cases hpc : s.disp with
    | process f =>
        rw [hpc] at hdisp hord
        obtain ⟨-, -, -, -, htied⟩ := hord
        have := htied id
        have := f.owesError_le id
        simp only [DispPc.owes] at hdisp
        exact hasId_pos (by omega)
    | lookup b => rw [hpc] at hdisp; exact hasId_pos hdisp
    | lock b w => rw [hpc] at hdisp; exact hasId_pos hdisp
    | dispatch b => rw [hpc] at hdisp; exact hasId_pos hdisp
    | failed b => rw [hpc] at hdisp; exact hasId_pos hdisp
    | _ => rw [hpc] at hdisp; simp [DispPc.owes] at hdisp
  · right
    obtain ⟨w, hw, hslot⟩ := exists_pos_of_tally_pos (n := maxThreadCount) (f := slotOwes s id)
      (by simp only [owed] at howed; omega)
    refine ⟨w, hw, ?_⟩
    by_cases hqueue : 0 < (s.g.queue w).countP (fun b => (s.g.bufs b).request.id == id)
    · obtain ⟨b, hb, hid⟩ := List.countP_pos_iff.mp hqueue
      exact .inl ⟨b, hb, by simpa using hid⟩
    · have hpos : 0 < (s.pcs w).owes id := by
        simp only [slotOwes] at hslot
        omega
      cases hpc : s.pcs w with
      | process f =>
          have hord := h.worker w
          rw [hpc] at hord hpos
          have := hord.2.2.2 id
          exact .inr ⟨f, rfl, hasId_pos (Nat.lt_of_lt_of_le hpos this)⟩
      | _ => rw [hpc] at hpos; simp [WorkerPc.owes] at hpos

/-- With distinct ids, at most one request has a given one. -/
theorem requested_le_one {s : State} (h : (s.reads.map MtRequest.id).Nodup) (id : BitVec 64) :
    requested s id ≤ 1 := by
  have hcount : requested s id = (s.reads.map MtRequest.id).count id := by
    rw [requested, List.count_eq_countP, List.countP_map]
    rfl
  rw [hcount]
  exact List.nodup_iff_count_le_one.mp h id

/-- **One response for each request.** In every state that a run of good steps
reaches, no id is on the ring twice, and the id of a request that has been read
and is not being processed any more is there exactly once. -/
theorem responses_exactly_once (clientId : BitVec 16) (es : List Event) (s : State)
    (hgood : (ins clientId).Guarded goodStep es) (hrun : (ins clientId).run es = some s) :
    (∀ id, answered s.g id ≤ 1) ∧
      ∀ r ∈ s.reads, ¬ InProgress s r.id → answered s.g r.id = 1 := by
  have hsound : Sound clientId s :=
    (ins clientId).guarded_invariant (sound_init clientId) (sound_step clientId) hgood hrun
  have hone := fun id => requested_le_one hsound.orderly.distinct id
  constructor
  · intro id
    have := hsound.balanced id
    have := hone id
    omega
  · intro r hr hdone
    have hzero : owed s r.id = 0 := by
      by_contra hne
      exact hdone (inProgress_of_owed hsound.orderly (Nat.pos_of_ne_zero hne))
    have hread : 0 < requested s r.id := List.countP_pos_iff.mpr ⟨r, hr, by simp⟩
    have := hsound.balanced r.id
    have := hone r.id
    omega

/-! ## Runs -/

/-- The dispatcher reads a request. -/
def readEvents (req : MtRequest) : List Event :=
  [.disp .tau, .disp (.read 40 req)]

/-- The dispatcher reads a request and processes it, with one native call. -/
def serveEvents (req : MtRequest) (o : Outcome) : List Event :=
  readEvents req ++ [.disp .tau, .disp .tau, .disp .tau, .disp (.outcome o)] ++
    List.replicate 7 (.disp .tau)

/-- The dispatcher reads a request and hands it to its worker. -/
def queueEvents (req : MtRequest) : List Event :=
  readEvents req ++ [.disp .tau, .disp .tau, .disp .tau]

/-- Worker `w` takes a request and gets these outcomes for its native calls. -/
def workEvents (w : Nat) (os : List Outcome) : List Event :=
  [.worker w .tau, .worker w .tau] ++
    os.flatMap fun o => [.worker w .tau, .worker w (.outcome o)]

def createRequest (id : BitVec 64) : MtRequest :=
  { type := .socketCreate, size := 40, id := id, sockfd := mtInvalidSocketFd,
    sockFam := 1, sockType := 2 }

/-- A receive on the socket of slot 0 of client 1. -/
def recvRequest (id : BitVec 64) : MtRequest :=
  { type := .socketRecv, size := 40, id := id, sockfd := mwSocketCreate 1 0, requested := 4 }

/-- A socket is created, and a receive on it served by its worker. -/
def createAndRecv : List Event :=
  serveEvents (createRequest 1) { ret := 3 } ++ queueEvents (recvRequest 2) ++
    workEvents 0 [{ ret := 4, data := [1, 2, 3, 4] }] ++ List.replicate 7 (.worker 0 .tau)

theorem responses_exactly_once_createAndRecv :
    ∃ s, (ins 1).run createAndRecv = some s ∧ (∀ id, answered s.g id ≤ 1) ∧
      ∀ r ∈ s.reads, ¬ InProgress s r.id → answered s.g r.id = 1 := by
  have hsome : ((ins 1).run createAndRecv).isSome = true := by decide +kernel
  obtain ⟨s, hs⟩ := Option.isSome_iff_exists.mp hsome
  exact ⟨s, hs, responses_exactly_once 1 createAndRecv s (by decide +kernel) hs⟩

/-- An address block with `block = 2` is answered twice. -/
def badAddrBlock : List Event :=
  readEvents { type := .addrBlock, size := 60, id := 7, sockfd := mtInvalidSocketFd, block := 2 } ++
    List.replicate 9 (.disp .tau)

/-- A receive whose `poll` fails is never answered. -/
def failedPoll : List Event :=
  serveEvents (createRequest 1) { ret := 3 } ++ queueEvents (recvRequest 2) ++
    workEvents 0 [{ ret := 0 }, { ret := -1, errno := 12 }] ++ List.replicate 7 (.worker 0 .tau)

/-- The dispatcher reserves the buffer of request 2 for request 3 while the
worker is between its two releases, and then once more for request 4: request 3
is overwritten in the queue. -/
def reusedBuffer : List Event :=
  serveEvents (createRequest 1) { ret := 3 } ++ queueEvents (recvRequest 2) ++
    workEvents 0 [{ ret := 1, data := [1] }] ++ List.replicate 5 (.worker 0 .tau) ++
    readEvents (recvRequest 3) ++ List.replicate 2 (.worker 0 .tau) ++
    List.replicate 3 (.disp .tau) ++ queueEvents (recvRequest 4) ++
    workEvents 0 [{ ret := 1, data := [2] }] ++ List.replicate 7 (.worker 0 .tau)

/-- Ids read, and the number of responses for each of them. -/
def tallyOf (es : List Event) : Option (List (BitVec 64 × Nat)) :=
  ((ins 1).run es).map fun s => s.reads.map fun r => (r.id, answered s.g r.id)

/-- Each way to break the rule: a request answered twice, a request never
answered, and one overwritten by another while it waits in the queue. -/
theorem responses_not_exactly_once :
    tallyOf badAddrBlock = some [(7, 2)] ∧
    tallyOf failedPoll = some [(1, 1), (2, 0)] ∧
    tallyOf reusedBuffer = some [(1, 1), (2, 1), (3, 0), (4, 1)] := by
  decide +kernel

end MagicWand.Ins
