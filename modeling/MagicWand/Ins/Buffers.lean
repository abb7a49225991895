import MagicWand.Ins.Placement
import MagicWand.Ins.ResponseForm

/-!
# Who owns a buffer item

A buffer item in use is the one the dispatcher has reserved for its next read,
or there is exactly one request that has been read into it and is still being
processed. A request needs its buffer until `process_buffer_item` releases it;
the second release, by the caller of `process_buffer_item`, is what can hit a
buffer that has been reserved again.

The history of a run records for each buffer when it was reserved, which request
was read into it, and when that request was answered.
-/

namespace MagicWand.Ins

open Foundation

/-! ## The history of the buffers -/

inductive BufferMark where
  | reserve (b : Nat)
  | read (b : Nat) (id : BitVec 64)
  /-- A response with the id of the request in `b` is on the ring. -/
  | answer (b : Nat) (id : BitVec 64)
deriving DecidableEq, Repr

/-- What the next step of an activation adds. -/
def Frame.marks (f : Frame) : List BufferMark :=
  match f.stage with
  | .write _ resp => if carries f.req.id resp then [.answer f.buf f.req.id] else []
  | _ => []

def marks (s : State) : Event → List BufferMark
  | .disp i =>
      match s.disp, i with
      | .reserve, _ =>
          match s.g.availableBuffer with
          | some b => [.reserve b]
          | none => []
      | .read b, .read size req =>
          if size < (mtRequestBaseSize : Int) ∨ oneRequestRegionSize < req.size then []
          else [.read b req.id]
      | .process f, _ => f.marks
      | .failed b, _ => [.answer b (s.g.bufs b).request.id]
      | _, _ => []
  | .worker w _ =>
      match s.pcs w with
      | .process f => f.marks
      | _ => []

/-- The request in `b` that waits for its answer, after one more mark. -/
def waitingAfter (b : Nat) (waiting : Option (BitVec 64)) : BufferMark → Option (BitVec 64)
  | .read b' id => if b' = b then some id else waiting
  | .answer b' id => if b' = b ∧ waiting = some id then none else waiting
  | .reserve _ => waiting

/-- The id of the request that was read into `b` last, if it is unanswered. -/
def unanswered (seen : List BufferMark) (b : Nat) : Option (BitVec 64) :=
  seen.foldl (waitingAfter b) none

/-- The last reservation after one more mark. -/
def reservedAfter (last : Option Nat) : BufferMark → Option Nat
  | .reserve b => some b
  | _ => last

/-- The buffer that was reserved last. -/
def lastReserved (seen : List BufferMark) : Option Nat := seen.foldl reservedAfter none

theorem unanswered_append (seen ms : List BufferMark) (b : Nat) :
    unanswered (seen ++ ms) b = ms.foldl (waitingAfter b) (unanswered seen b) := by
  rw [unanswered, List.foldl_append]
  rfl

/-! ## Holders -/

/-- The buffer that the dispatcher has reserved and not read a request into. When
it stops reading it keeps that buffer. -/
def DispPc.reserved (seen : List BufferMark) : DispPc → Option Nat
  | .read b => some b
  | .finiSet => lastReserved seen
  | .finiPost _ => lastReserved seen
  | .finiJoin _ => lastReserved seen
  | .exited => lastReserved seen
  | _ => none

/-- 1 if the dispatcher is at a request in `b`. -/
def DispPc.holds (b : Nat) : DispPc → Nat
  | .lookup b' => if b' = b then 1 else 0
  | .lock b' _ => if b' = b then 1 else 0
  | .dispatch b' => if b' = b then 1 else 0
  | .process f => if f.buf = b then 1 else 0
  | .failed b' => if b' = b then 1 else 0
  | .cleanup b' => if b' = b then 1 else 0
  | _ => 0

/-- 1 if the dispatcher is at a request in `b` and has not released it. -/
def DispPc.needs (b : Nat) : DispPc → Nat
  | .lookup b' => if b' = b then 1 else 0
  | .lock b' _ => if b' = b then 1 else 0
  | .dispatch b' => if b' = b then 1 else 0
  | .process f => f.active b
  | .failed b' => if b' = b then 1 else 0
  | _ => 0

/-- 1 if the worker thread is at a request in `b`. -/
def WorkerPc.holds (b : Nat) : WorkerPc → Nat
  | .process f => if f.buf = b then 1 else 0
  | .cleanup b' => if b' = b then 1 else 0
  | _ => 0

/-- The requests in `b` that have been read and are queued or being processed. -/
def holders (s : State) (b : Nat) : Nat :=
  s.disp.holds b + tally maxThreadCount fun w => (s.g.queue w).count b + (s.pcs w).holds b

/-- Those of them whose buffer has not been released. -/
def needing (s : State) (b : Nat) : Nat :=
  s.disp.needs b + tally maxThreadCount (slotActive s b)

theorem Frame.active_add_window (f : Frame) (b : Nat) :
    f.active b + f.window b = if f.buf = b then 1 else 0 := by
  cases hrel : f.released <;> simp [Frame.active, Frame.window, hrel]

theorem WorkerPc.holds_eq (pc : WorkerPc) (b : Nat) : pc.holds b = pc.active b + pc.window b := by
  cases pc with
  | process f => simp only [holds, active, window, f.active_add_window]
  | cleanup b' => simp only [holds, active, window, Nat.zero_add]
  | waiting => rfl
  | dequeue => rfl
  | exited => rfl

/-- 1 if the dispatcher has reserved `b` and waits for a request. -/
def DispPc.reads (b : Nat) : DispPc → Nat
  | .read b' => if b' = b then 1 else 0
  | _ => 0

/-- A holder is active or inside its release window; besides there is the
reserved buffer. -/
theorem holders_eq (s : State) (b : Nat) :
    holders s b + s.disp.reads b = active s b + window s b := by
  have hdisp : s.disp.holds b + s.disp.reads b = s.disp.active b + s.disp.window b := by
    cases s.disp with
    | process f =>
        simp [DispPc.holds, DispPc.reads, DispPc.active, DispPc.window, f.active_add_window]
    | _ => simp [DispPc.holds, DispPc.reads, DispPc.active, DispPc.window]
  have htally : (tally maxThreadCount fun w => (s.g.queue w).count b + (s.pcs w).holds b) =
      tally maxThreadCount (slotActive s b) + tally maxThreadCount (slotWindow s b) := by
    rw [← tally_add]
    refine tally_congr fun w _ => ?_
    rw [WorkerPc.holds_eq, slotActive, slotWindow]
    omega
  rw [holders, htally, active, window]
  omega

/-! ## Owned steps -/

/-- The outcomes after which a handler answers: those of `goodOutcome`, and
`poll` inside a pollset query succeeds. -/
def answerable (t : MtRequestType) (c : NativeCall) (o : Outcome) : Prop :=
  goodOutcome t c o ∧ (t = .pollsetQuery → 0 ≤ o.ret)

instance (t : MtRequestType) (c : NativeCall) (o : Outcome) : Decidable (answerable t c o) :=
  inferInstanceAs (Decidable (_ ∧ _))

def heardAnswerable (f : Frame) (i : Input) : Prop :=
  match f.stage, i with
  | .call _ _ (some (c, _)), .outcome o => answerable f.req.type c o
  | _, _ => True

instance (f : Frame) (i : Input) : Decidable (heardAnswerable f i) := by
  delta heardAnswerable
  generalize f.stage = stage
  rcases stage with ⟨_, _, _ | ⟨c, _⟩⟩ | _ | _ | _ | _ | _ <;> rcases i <;> infer_instance

/-- Requests are ones that can be processed, and native calls have outcomes
after which the handler answers. -/
def answeringStep (s : State) : Event → Prop
  | .disp i =>
      match s.disp, i with
      | .read _, .read _ req => goodRequest req
      | .process f, i => heardAnswerable f i
      | _, _ => True
  | .worker w i =>
      match s.pcs w with
      | .process f => heardAnswerable f i
      | _ => True

instance (s : State) : (e : Event) → Decidable (answeringStep s e)
  | .disp i => by
      dsimp only [answeringStep]
      generalize s.disp = pc
      rcases pc <;> rcases i <;> infer_instance
  | .worker w i => by
      dsimp only [answeringStep]
      generalize s.pcs w = pc
      rcases pc <;> infer_instance

def ownedStep (s : State) (e : Event) : Prop := releasedOnce s e ∧ answeringStep s e

instance (s : State) (e : Event) : Decidable (ownedStep s e) :=
  inferInstanceAs (Decidable (_ ∧ _))

/-! ## Every activation answers before it releases -/

/-- The outcomes so far were answerable; once the handler has returned, the
response carries the request's id, and the dispatcher's handlers return 0. -/
def Stage.Answering (req : MtRequest) : Stage → Prop
  | .call m os issued =>
      Script.Along (answerable req.type) m os ∧ ∀ c fd, issued = some (c, fd) → m os = .error c
  | .unlock rc resp => carries req.id resp = true ∧ (processNow req.type = true → rc = 0)
  | .post rc resp => carries req.id resp = true ∧ (processNow req.type = true → rc = 0)
  | .write rc resp => carries req.id resp = true ∧ (processNow req.type = true → rc = 0)
  | .release rc _ => processNow req.type = true → rc = 0
  | .retire rc _ => processNow req.type = true → rc = 0

/-- For a request the dispatcher processes, an answerable outcome is reportable. -/
theorem answerable.reportable {t : MtRequestType} {c : NativeCall} {o : Outcome}
    (h : answerable t c o) (hnow : processNow t = true) : Ins.reportable t c o := by
  cases t with
  | pollsetQuery => exact h.2 rfl
  | socketRecv => cases hnow
  | socketRecvFrom => cases hnow
  | socketAccept => cases hnow
  | _ => trivial

theorem handler_answering {clientId : BitVec 16} {req : MtRequest} {worker : Option Nat}
    {g : Globals} {os rest : List Outcome} {r : HandlerResult}
    (hreq : processNow req.type = true → goodRequest req)
    (hgood : Script.Along (answerable req.type) (handler clientId req worker g) os)
    (h : handler clientId req worker g os = .ok (r, rest)) :
    carries req.id r.response = true ∧ (processNow req.type = true → r.rc = 0) := by
  cases hnow : processNow req.type with
  | true =>
      have hformed : WellFormed req r.response :=
        (handler_wellFormed h).mpr (hgood.mono fun c o ho => ho.reportable hnow)
      rcases handler_now hnow (hreq hnow) h with ⟨hans, hrc⟩ | ⟨hblank, -⟩
      · exact ⟨(hans.carries_iff req.id).mpr rfl, fun _ => hrc⟩
      · exact absurd hformed hblank.not_wellFormed
  | false =>
      have hans := handler_worker hnow (hgood.mono fun c o ho => ho.1) h
      exact ⟨(hans.carries_iff req.id).mpr rfl, fun hc => by cases hc⟩

section Frames

variable {clientId : BitVec 16} {g g' : Globals} {f f' : Frame} {i : Input}

theorem Frame.answering_start (b : Nat) :
    (Frame.start clientId g b).stage.Answering (Frame.start clientId g b).req :=
  ⟨Script.along_nil _ _, fun c fd hissued => by cases hissued⟩

theorem ProcMove.answering (h : ProcMove clientId g f i g' (.running f'))
    (hgood : heardAnswerable f i) (hfrom : f.FromHandler clientId)
    (hreq : processNow f.req.type = true → goodRequest f.req) (hf : f.stage.Answering f.req) :
    f'.stage.Answering f'.req := by
  cases h with
  | issue hstage hm =>
      rw [hstage] at hf
      exact ⟨hf.1, fun c fd hissued => by cases hissued; exact hm⟩
  | @receive m os c o hstage =>
      rw [hstage] at hf
      have ho : answerable f.req.type c.1 o := by
        simpa only [heardAnswerable, hstage] using hgood
      exact ⟨hf.1.snoc (hf.2 c.1 c.2 rfl) ho, fun c fd hissued => by cases hissued⟩
  | @finish m os r rest hstage hm =>
      rw [hstage] at hf
      obtain ⟨g₀, rfl⟩ := hfrom m os none hstage
      exact handler_answering hreq hf.1 hm
  | unlock hstage => rwa [hstage] at hf
  | post hstage =>
      rw [hstage] at hf
      refine ⟨?_, hf.2⟩
      rw [carries_postProcessResponse]
      exact hf.1
  | write hstage =>
      rw [hstage] at hf
      exact hf.2
  | release hstage => rwa [hstage] at hf

end Frames

/-- The dispatcher is at a request that it can process. -/
def DispPc.Answering (g : Globals) : DispPc → Prop
  | .lookup b => goodRequest (g.bufs b).request
  | .lock b _ => goodRequest (g.bufs b).request
  | .dispatch b => goodRequest (g.bufs b).request
  | .process f => goodRequest f.req ∧ f.stage.Answering f.req
  | _ => True

theorem DispPc.Answering.of_request {g g' : Globals} {pc : DispPc} (h : pc.Answering g)
    (hr : ∀ b, (g'.bufs b).request = (g.bufs b).request) : pc.Answering g' := by
  cases pc with
  | lookup b => simpa only [DispPc.Answering, hr b] using h
  | lock b w => simpa only [DispPc.Answering, hr b] using h
  | dispatch b => simpa only [DispPc.Answering, hr b] using h
  | process f => exact h
  | _ => trivial

structure Answering (s : State) : Prop where
  disp : s.disp.Answering s.g
  working : ∀ w < maxThreadCount, ∀ f, s.pcs w = .process f → f.stage.Answering f.req

namespace Answering

variable {clientId : BitVec 16} {s : State} {g : Globals}

theorem init (clientId : BitVec 16) : Answering (ins clientId).init :=
  ⟨trivial, fun w _ f hf => by cases hf⟩

theorem afterLookup {b w : Nat} {t : MtRequestType} (h : goodRequest (g.bufs b).request) :
    (Ins.afterLookup t b w).Answering g := by
  unfold Ins.afterLookup
  split <;> exact h

theorem disp_move (h : Answering s) (hplaced : Placed clientId s) {i : Input} {pc : DispPc}
    {reads : List MtRequest} (hmove : DispMove clientId s i g pc reads)
    (hguard : answeringStep s (.disp i)) : Answering ⟨g, pc, s.pcs, reads⟩ := by
  have hdisp := h.disp
  have hat := hplaced.disp
  refine ⟨?_, h.working⟩
  show pc.Answering g
  cases hmove with
  | @read b size req hpc =>
      simp only [answeringStep, hpc] at hguard
      simpa only [DispPc.Answering, bufs_modifyBuf_self] using hguard
  | @noWorker b hpc =>
      rw [hpc] at hdisp
      simpa only [DispPc.Answering, bufs_modifyBuf_self] using hdisp
  | @existing b w now hpc ht g hw =>
      rw [hpc] at hdisp
      apply afterLookup
      rw [(quiet_assignTo (getWorkerThreadForFd_spec hw).2 b w b).2]
      exact hdisp
  | @newWorker b w hpc =>
      rw [hpc] at hdisp
      apply afterLookup
      rw [(quiet_assignTo (Quiet.acquireSlot s.g w) b w b).2]
      exact hdisp
  | lock hpc => rwa [hpc] at hdisp
  | @start b hpc =>
      rw [hpc] at hdisp
      exact ⟨hdisp, Frame.answering_start b⟩
  | @running f i g f' hpc hproc =>
      rw [hpc] at hdisp hat
      simp only [answeringStep, hpc] at hguard
      refine ⟨?_, hproc.answering hguard hat.fromHandler (fun _ => hdisp.1) hdisp.2⟩
      rw [hproc.same_request.2.1]
      exact hdisp.1
  | returned => split <;> trivial
  | _ => trivial

/-- What the dispatcher processes returns 0. -/
theorem returned (h : Answering s) (hplaced : Placed clientId s) {f : Frame} {i : Input} {rc : Int}
    (hpc : s.disp = .process f) (hproc : ProcMove clientId s.g f i g (.returned rc)) : rc = 0 := by
  have hdisp := h.disp
  have hat := hplaced.disp
  rw [hpc] at hdisp hat
  have hstage := hdisp.2
  cases hproc with
  | retireSlot hretire =>
      rw [hretire] at hstage
      exact hstage hat.now
  | retire hretire =>
      rw [hretire] at hstage
      exact hstage hat.now

theorem worker_move (h : Answering s) (hplaced : Placed clientId s) {w : Nat} {i : Input}
    {pc : WorkerPc} (hw : w < maxThreadCount) (hmove : WorkerMove clientId s w i g pc)
    (hguard : answeringStep s (.worker w i)) :
    Answering ⟨g, s.disp, Function.update s.pcs w pc, s.reads⟩ := by
  have own : ∀ f, pc = .process f → f.stage.Answering f.req := by
    intro f hf
    cases hmove with
    | wait => cases hf
    | empty => split at hf <;> cases hf
    | dequeue =>
        cases hf
        exact Frame.answering_start _
    | running hpc hproc =>
        cases hf
        simp only [answeringStep, hpc] at hguard
        have hat := hplaced.working w hw _ hpc
        refine hproc.answering hguard hat.fromHandler (fun hnow => ?_) (h.working w hw _ hpc)
        rw [processNow, hat.type] at hnow
        cases hnow
    | returned => cases hf
    | cleanup => cases hf
  refine ⟨h.disp.of_request hmove.request, fun v hv f hf => ?_⟩
  by_cases hvw : v = w
  · subst hvw
    exact own f (by simpa only [Function.update_self] using hf)
  · exact h.working v hv f (by simpa only [Function.update_of_ne hvw] using hf)

end Answering

/-! ## What is in use has a holder -/

theorem lastReserved_append (seen ms : List BufferMark) :
    lastReserved (seen ++ ms) = (lastReserved ms).or (lastReserved seen) := by
  have hfold : ∀ (ms : List BufferMark) (last : Option Nat),
      ms.foldl reservedAfter last = (ms.foldl reservedAfter none).or last := by
    intro ms
    induction ms with
    | nil =>
        intro last
        rfl
    | cons m ms ih =>
        intro last
        rw [List.foldl_cons, List.foldl_cons, ih (reservedAfter last m), ih (reservedAfter none m)]
        cases m <;> cases ms.foldl reservedAfter none <;> rfl
  rw [lastReserved, List.foldl_append]
  exact hfold ms _

/-- Has the dispatcher stopped reading requests? -/
def DispPc.stopped : DispPc → Bool
  | .finiSet => true
  | .finiPost _ => true
  | .finiJoin _ => true
  | .exited => true
  | _ => false

theorem DispPc.free_of_stopped {pc : DispPc} (h : pc.stopped = true) (b : Nat) :
    pc.active b = 0 ∧ pc.window b = 0 := by
  cases pc <;> first | exact ⟨rfl, rfl⟩ | cases h

/-- Only a reservation is one. -/
theorem lastReserved_marks {s : State} {e : Event} (h : s.disp ≠ .reserve ∨ ∃ w i, e = .worker w i) :
    lastReserved (marks s e) = none := by
  have frame : ∀ f : Frame, lastReserved f.marks = none := by
    intro f
    unfold Frame.marks
    split
    · split <;> rfl
    · rfl
  cases e with
  | disp i =>
      rcases h with h | ⟨w, i, h⟩
      · unfold marks
        simp only []
        split
        · next hpc => exact absurd hpc h
        · split <;> rfl
        · exact frame _
        · rfl
        · rfl
      · cases h
  | worker w i =>
      unfold marks
      simp only []
      split
      · exact frame _
      · rfl

section Releases

variable {clientId : BitVec 16} {g g' : Globals} {f f' : Frame} {i : Input} {next : ProcNext}

theorem inUse_releaseBufferItem_self (g : Globals) (b : Nat) :
    ((g.releaseBufferItem b).bufs b).inUse = false := by
  rw [Globals.releaseBufferItem, bufs_modifyBuf_self]
  cases hb : (g.bufs b).inUse <;> simp [hb]

/-- A release takes no buffer into use. -/
theorem inUse_of_release {g : Globals} {b b' : Nat}
    (h : ((g.releaseBufferItem b).bufs b').inUse = true) :
    b' ≠ b ∧ (g.bufs b').inUse = true := by
  by_cases hb : b' = b
  · subst hb
    rw [inUse_releaseBufferItem_self] at h
    cases h
  · rw [bufs_releaseBufferItem_ne g b hb] at h
    exact ⟨hb, h⟩

theorem ProcMove.inUse_of (h : ProcMove clientId g f i g' next) {b : Nat}
    (hb : (g'.bufs b).inUse = true) : (g.bufs b).inUse = true := by
  cases h with
  | issue => exact hb
  | finish => rwa [(Quiet.finishHandler f _ g).bufs] at hb
  | receive => exact hb
  | unlock => rwa [(Quiet.unlockWorker g f.worker).bufs] at hb
  | post => rwa [(Quiet.postProcessResponse clientId f.req f.worker _ g).bufs] at hb
  | write => exact hb
  | release => exact (inUse_of_release hb).2
  | retireSlot => rwa [(Quiet.releaseWorkerThread g _).bufs] at hb
  | retire => exact hb

/-- An activation gives up a buffer by releasing it. -/
theorem ProcMove.active_of (h : ProcMove clientId g f i g' (.running f')) {b : Nat}
    (hb : (g'.bufs b).inUse = true) : f'.active b = f.active b := by
  cases h with
  | issue hstage => simp [Frame.active, Frame.released, hstage]
  | finish hstage => simp [Frame.active, Frame.released, hstage]
  | receive hstage => simp [Frame.active, Frame.released, hstage]
  | unlock hstage => simp [Frame.active, Frame.released, hstage]
  | post hstage => simp [Frame.active, Frame.released, hstage]
  | write hstage => simp [Frame.active, Frame.released, hstage]
  | release hstage =>
      have hne := (inUse_of_release hb).1
      simp [Frame.active, hne.symm]

theorem WorkerMove.inUse_of {s : State} {w : Nat} {pc : WorkerPc}
    (h : WorkerMove clientId s w i g pc) {b : Nat} (hb : (g.bufs b).inUse = true) :
    (s.g.bufs b).inUse = true := by
  cases h with
  | running hpc hproc => exact hproc.inUse_of hb
  | returned hpc hproc => exact hproc.inUse_of hb
  | cleanup hpc => exact (inUse_of_release hb).2
  | _ => exact hb

/-- A worker thread takes its buffers from its queue, and gives them up by
releasing them. -/
theorem WorkerMove.slotActive_of {s : State} {w : Nat} {pc : WorkerPc}
    (h : WorkerMove clientId s w i g pc) {b : Nat} (hb : (g.bufs b).inUse = true) :
    (g.queue w).count b + pc.active b = slotActive s b w := by
  cases h with
  | wait hpc => rw [(Quiet.modifyWorker s.g w rfl).queue, slotActive, hpc]; rfl
  | empty hpc =>
      rw [slotActive, hpc]
      split <;> rfl
  | @dequeue b' q hpc hq =>
      have hcontents : s.g.queue w = b' :: q.contents := WorkQueue.contents_dequeue hq
      rw [queue_modifyWorker_self, slotActive, hpc, hcontents, List.count_cons]
      simp [WorkerPc.active, Frame.active, Frame.start, Frame.released]
  | running hpc hproc =>
      rw [hproc.queue, slotActive, hpc]
      simp only [WorkerPc.active, hproc.active_of hb]
  | returned hpc hproc =>
      have hrel := hproc.returned_holding.1
      rw [hproc.queue, slotActive, hpc]
      simp only [WorkerPc.active, Holding.proc_active_released hrel]
  | cleanup hpc =>
      rw [slotActive, hpc]
      rfl

/-- No step of a worker thread makes it hold more. -/
theorem WorkerMove.slot_le {s : State} {w : Nat} {pc : WorkerPc}
    (h : WorkerMove clientId s w i g pc) (b : Nat) :
    (g.queue w).count b + pc.active b + pc.window b ≤ slotActive s b w + slotWindow s b w := by
  cases h with
  | wait hpc =>
      rw [(Quiet.modifyWorker s.g w rfl).queue, slotActive, slotWindow, hpc]
      exact Nat.le_refl _
  | empty hpc =>
      rw [slotActive, slotWindow, hpc]
      split <;> exact Nat.le_refl _
  | @dequeue b' q hpc hq =>
      have hcontents : s.g.queue w = b' :: q.contents := WorkQueue.contents_dequeue hq
      rw [queue_modifyWorker_self, slotActive, slotWindow, hpc, hcontents, List.count_cons]
      simp [WorkerPc.active, WorkerPc.window, Frame.active, Frame.window, Frame.start,
        Frame.released]
  | running hpc hproc =>
      have hsum := hproc.holding.sum_eq b
      rw [hproc.queue, slotActive, slotWindow, hpc]
      simp only [WorkerPc.active, WorkerPc.window]
      omega
  | returned hpc hproc =>
      have hrel := hproc.returned_holding.1
      rw [hproc.queue, slotActive, slotWindow, hpc]
      simp only [WorkerPc.active, WorkerPc.window, Holding.proc_active_released hrel]
      exact Nat.le_refl _
  | cleanup hpc =>
      rw [slotActive, slotWindow, hpc]
      exact Nat.le_add_right _ _

end Releases

/-- A buffer in use is held by a request or by the dispatcher; the one that the
dispatcher had reserved when it stopped is held by nobody else. -/
structure Kept (seen : List BufferMark) (s : State) : Prop where
  held : ∀ b, (s.g.bufs b).inUse = true →
    0 < active s b + s.disp.window b ∨ (s.disp.stopped = true ∧ lastReserved seen = some b)
  stopped : s.disp.stopped = true → ∀ b, lastReserved seen = some b →
    active s b + window s b = 0
  reading : ∀ b, s.disp = .read b → lastReserved seen = some b
  failed : ∀ b, s.disp = .failed b → (s.g.bufs b).inUse = true

namespace Kept

variable {clientId : BitVec 16} {seen seen' : List BufferMark} {s : State} {g : Globals}

theorem init (clientId : BitVec 16) : Kept [] (ins clientId).init where
  held := fun b hb => by cases hb
  stopped := fun h => by cases h
  reading := fun b h => by cases h
  failed := fun b h => by cases h

/-- A step of the dispatcher that reserves nothing and leaves the queues alone. -/
theorem of_disp (h : Kept seen s) {pc : DispPc} {reads : List MtRequest}
    (hlast : lastReserved seen' = lastReserved seen) (hq : ∀ v, g.queue v = s.g.queue v)
    (huse : ∀ b, (g.bufs b).inUse = true → (s.g.bufs b).inUse = true ∧
      s.disp.active b + s.disp.window b ≤ pc.active b + pc.window b)
    (hstop : pc.stopped = s.disp.stopped) (hread : ∀ b, pc ≠ .read b)
    (hfail : ∀ b, pc = .failed b → (g.bufs b).inUse = true) :
    Kept seen' ⟨g, pc, s.pcs, reads⟩ := by
  have htally : ∀ b, tally maxThreadCount (slotActive ⟨g, pc, s.pcs, reads⟩ b) =
      tally maxThreadCount (slotActive s b) := fun b =>
    tally_congr fun w _ => by simp only [slotActive, hq]
  refine ⟨fun b hb => ?_, fun hstopped b hb => ?_, fun b hb => absurd hb (hread b), hfail⟩
  · obtain ⟨hold, hle⟩ := huse b hb
    rcases h.held b hold with hpos | ⟨hs, hlast'⟩
    · left
      simp only [active, htally] at hpos ⊢
      omega
    · exact .inr ⟨hstop.trans hs, hlast.trans hlast'⟩
  · have hs : s.disp.stopped = true := hstop.symm.trans hstopped
    have hzero := h.stopped hs b (hlast.symm.trans hb)
    obtain ⟨hact, hwin⟩ := DispPc.free_of_stopped hstopped b
    have hwindow : tally maxThreadCount (slotWindow ⟨g, pc, s.pcs, reads⟩ b) =
        tally maxThreadCount (slotWindow s b) := tally_congr fun _ _ => rfl
    simp only [active, window, htally, hwindow, hact, hwin] at hzero ⊢
    omega

/-- The dispatcher reserves a buffer. -/
theorem reserve (h : Kept seen s) {b : Nat} {reads : List MtRequest} (hpc : s.disp = .reserve)
    (hlast : lastReserved seen' = some b) :
    Kept seen' ⟨s.g.reserveBufferItem b, .read b, s.pcs, reads⟩ := by
  refine ⟨fun b' hb' => .inl ?_, fun hstopped => (by cases hstopped), fun b' hb' => ?_,
    fun b' hb' => by cases hb'⟩
  · by_cases hbb : b' = b
    · subst hbb
      simp only [active, DispPc.active, if_true]
      omega
    · rw [Globals.reserveBufferItem, bufs_modifyBuf_ne s.g b _ hbb] at hb'
      rcases h.held b' hb' with hpos | ⟨hs, -⟩
      · rw [active, hpc] at hpos
        show 0 < (if b = b' then 1 else 0) + tally maxThreadCount (slotActive s b') + 0
        simp only [DispPc.active, DispPc.window] at hpos
        omega
      · rw [hpc] at hs
        cases hs
  · cases hb'
    exact hlast

/-- The dispatcher stops reading, and keeps the buffer it has reserved. -/
theorem stop (h : Kept seen s) (hhold : Holding s) {b : Nat} {req : MtRequest}
    {reads : List MtRequest} (hpc : s.disp = .read b)
    (hlast : lastReserved seen' = lastReserved seen) :
    Kept seen' ⟨s.g.modifyBuf b fun x => { x with request := req }, .finiSet, s.pcs, reads⟩ := by
  have hb : lastReserved seen' = some b := hlast.trans (h.reading b hpc)
  refine ⟨fun b' hb' => ?_, fun _ b' hb' => ?_, fun b' hb' => (by cases hb'),
    fun b' hb' => by cases hb'⟩
  · rw [inUse_modifyBuf s.g b rfl] at hb'
    by_cases hbb : b = b'
    · exact .inr ⟨rfl, hbb ▸ hb⟩
    · rcases h.held b' hb' with hpos | ⟨hs, -⟩
      · left
        rw [active, hpc] at hpos
        simp only [DispPc.active, DispPc.window, if_neg hbb] at hpos
        exact hpos
      · rw [hpc] at hs
        cases hs
  · have hbb : b = b' := Option.some.inj (hb.symm.trans hb')
    subst hbb
    have hexcl := hhold.excl b
    rw [active, window, hpc] at hexcl
    simp only [DispPc.active, DispPc.window, if_true] at hexcl
    show 0 + tally maxThreadCount (slotActive s b) +
      (0 + tally maxThreadCount (slotWindow s b)) = 0
    omega

/-- The lookup has found a slot. -/
theorem lookup (h : Kept seen s) {b w : Nat} {t : MtRequestType} {reads : List MtRequest}
    (hpc : s.disp = .lookup b) (hquiet : Quiet s.g g)
    (hlast : lastReserved seen' = lastReserved seen) :
    Kept seen' ⟨assignTo g b w, afterLookup t b w, s.pcs, reads⟩ := by
  have hpc' : afterLookup t b w = .lock b w ∨ afterLookup t b w = .dispatch b := by
    unfold afterLookup
    split
    · exact .inl rfl
    · exact .inr rfl
  refine h.of_disp hlast hquiet.queue (fun b' hb' => ?_) ?_ (fun b' hb' => ?_) fun b' hb' => ?_
  · rw [(quiet_assignTo hquiet b w b').1] at hb'
    refine ⟨hb', ?_⟩
    rw [active_afterLookup, window_afterLookup, hpc]
  · rcases hpc' with hl | hl <;> rw [hl, hpc] <;> rfl
  · rcases hpc' with hl | hl <;> rw [hl] at hb' <;> cases hb'
  · rcases hpc' with hl | hl <;> rw [hl] at hb' <;> cases hb'

/-- The dispatcher hands its buffer to the queue of a slot. -/
theorem enqueue (h : Kept seen s) {b w : Nat} {q : WorkQueue} {reads : List MtRequest}
    (hpc : s.disp = .dispatch b) (hw : w < maxThreadCount)
    (hq : (s.g.workers w).workQueue.enqueue b = some q) :
    Kept seen' ⟨s.g.modifyWorker w fun x => { x with workQueue := q }, .wake w, s.pcs, reads⟩ := by
  refine ⟨fun b' hb' => ?_, fun hstopped => (by cases hstopped), fun b' hb' => (by cases hb'),
    fun b' hb' => by cases hb'⟩
  rw [Holding.active_enqueue hpc hw hq]
  rcases h.held b' hb' with hpos | ⟨hs, -⟩
  · rw [hpc] at hpos
    exact .inl hpos
  · rw [hpc] at hs
    cases hs

theorem disp_move (h : Kept seen s) (hplaced : Placed clientId s) (hans : Answering s) {i : Input}
    {pc : DispPc} {reads : List MtRequest} (hmove : DispMove clientId s i g pc reads) :
    Kept (seen ++ marks s (.disp i)) ⟨g, pc, s.pcs, reads⟩ := by
  have hhold := hplaced.holding
  have hsame : s.disp ≠ .reserve →
      lastReserved (seen ++ marks s (.disp i)) = lastReserved seen := fun hne => by
    rw [lastReserved_append, lastReserved_marks (.inl hne)]
    rfl
  -- What the dispatcher is at is in use.
  have inUse_at : ∀ b, 0 < s.disp.active b → (s.g.bufs b).inUse = true := fun b hb =>
    hhold.inUse b (by rw [active]; omega)
  cases hmove with
  | full hpc hfull =>
      have hnone : lastReserved (seen ++ marks s (.disp .tau)) = lastReserved seen := by
        simp [marks, hpc, hfull]
      exact h.of_disp hnone (fun _ => rfl) (fun b hb => ⟨hb, by rw [hpc]⟩) (by rw [hpc])
        (fun b hb => by cases hb) fun b hb => by cases hb
  | @reserve b hpc hb =>
      refine h.reserve hpc ?_
      rw [lastReserved_append]
      simp only [marks, hpc, hb]
      rfl
  | stop hpc => exact h.stop hhold hpc (hsame (by rw [hpc]; simp))
  | @read b size req hpc =>
      refine h.of_disp (hsame (by rw [hpc]; simp)) (fun _ => rfl) (fun b' hb' => ?_)
        (by rw [hpc]; rfl) (fun b hb => by cases hb) fun b hb => by cases hb
      rw [inUse_modifyBuf s.g b rfl] at hb'
      exact ⟨hb', by rw [hpc]; exact Nat.le_refl _⟩
  | @noWorker b hpc =>
      refine h.of_disp (hsame (by rw [hpc]; simp)) (fun _ => rfl) (fun b' hb' => ?_)
        (by rw [hpc]; rfl) (fun b hb => by cases hb) fun b hb => by cases hb
      rw [inUse_modifyBuf s.g b rfl] at hb'
      exact ⟨hb', by rw [hpc]; exact Nat.le_refl _⟩
  | @existing b w now hpc ht g hw =>
      exact h.lookup hpc (getWorkerThreadForFd_spec hw).2 (hsame (by rw [hpc]; simp))
  | @newWorker b w hpc ht hw =>
      exact h.lookup hpc (Quiet.acquireSlot s.g w) (hsame (by rw [hpc]; simp))
  | @lookupFailed b hpc =>
      refine h.of_disp (hsame (by rw [hpc]; simp)) (fun _ => rfl) (fun b' hb' => ⟨hb', ?_⟩)
        (by rw [hpc]; rfl) (fun b hb => by cases hb) fun b' hb' => ?_
      · rw [hpc]
        simp [DispPc.active, DispPc.window]
      · cases hb'
        exact inUse_at b (by simp [hpc, DispPc.active])
  | @lock b w hpc =>
      exact h.of_disp (hsame (by rw [hpc]; simp)) (Quiet.modifyWorker s.g w rfl).queue
        (fun b' hb' => ⟨hb', by rw [hpc]; exact Nat.le_refl _⟩) (by rw [hpc]; rfl)
        (fun b hb => by cases hb) fun b hb => by cases hb
  | @start b hpc =>
      refine h.of_disp (hsame (by rw [hpc]; simp)) (fun _ => rfl) (fun b' hb' => ⟨hb', ?_⟩)
        (by rw [hpc]; rfl) (fun b hb => by cases hb) fun b hb => by cases hb
      rw [hpc]
      simp [DispPc.active, DispPc.window, Frame.start, Frame.active, Frame.window, Frame.released]
  | enqueue hpc hnow hw hq => exact h.enqueue hpc (hhold.slots _ _ hw) hq
  | @queueFull b w hpc =>
      have hquiet := Quiet.releaseOplock s.g w
      refine h.of_disp (hsame (by rw [hpc]; simp)) hquiet.queue (fun b' hb' => ?_)
        (by rw [hpc]; rfl) (fun b hb => by cases hb) fun b' hb' => ?_
      · rw [hquiet.bufs] at hb'
        refine ⟨hb', ?_⟩
        rw [hpc]
        simp [DispPc.active, DispPc.window]
      · cases hb'
        rw [hquiet.bufs]
        exact inUse_at b (by simp [hpc, DispPc.active])
  | @running f i g f' hpc hproc =>
      refine h.of_disp (hsame (by rw [hpc]; simp)) hproc.queue
        (fun b' hb' => ⟨hproc.inUse_of hb', ?_⟩) (by rw [hpc]; rfl) (fun b hb => by cases hb)
        fun b hb => by cases hb
      rw [hpc]
      exact (hproc.holding.sum_eq b').ge
  | @returned f i g rc hpc hproc =>
      have hrc := hans.returned hplaced hpc hproc
      rw [if_neg (not_not_intro hrc)]
      refine h.of_disp (hsame (by rw [hpc]; simp)) hproc.queue
        (fun b' hb' => ⟨hproc.inUse_of hb', ?_⟩) (by rw [hpc]; rfl) (fun b hb => by cases hb)
        fun b hb => by cases hb
      have hrel := hproc.returned_holding.1
      rw [hpc]
      simp only [DispPc.active, DispPc.window, Holding.proc_active_released hrel]
      exact Nat.le_refl _
  | @failed b hpc =>
      exact h.of_disp (hsame (by rw [hpc]; simp)) (fun _ => rfl)
        (fun b' hb' => ⟨hb', by rw [hpc]; exact Nat.le_refl _⟩) (by rw [hpc]; rfl)
        (fun b hb => by cases hb) fun b hb => by cases hb
  | @cleanup b hpc =>
      refine h.of_disp (hsame (by rw [hpc]; simp)) (fun _ => rfl) (fun b' hb' => ?_)
        (by rw [hpc]; rfl) (fun b hb => by cases hb) fun b hb => by cases hb
      obtain ⟨hne, hb'⟩ := inUse_of_release hb'
      refine ⟨hb', ?_⟩
      rw [hpc]
      simp [DispPc.active, DispPc.window, hne.symm]
  | @wake w hpc =>
      exact h.of_disp (hsame (by rw [hpc]; simp)) (Quiet.modifyWorker s.g w rfl).queue
        (fun b' hb' => ⟨hb', by rw [hpc]; exact Nat.le_refl _⟩) (by rw [hpc]; rfl)
        (fun b hb => by cases hb) fun b hb => by cases hb
  | finiSet hpc =>
      exact h.of_disp (hsame (by rw [hpc]; simp)) (fun _ => rfl)
        (fun b' hb' => ⟨hb', by rw [hpc]; exact Nat.le_refl _⟩) (by rw [hpc]; rfl)
        (fun b hb => by cases hb) fun b hb => by cases hb
  | @finiPost n hpc =>
      exact h.of_disp (hsame (by rw [hpc]; simp)) (Quiet.modifyWorker s.g n rfl).queue
        (fun b' hb' => ⟨hb', by rw [hpc]; exact Nat.le_refl _⟩) (by rw [hpc]; rfl)
        (fun b hb => by cases hb) fun b hb => by cases hb
  | finiDone hpc =>
      exact h.of_disp (hsame (by rw [hpc]; simp)) (fun _ => rfl)
        (fun b' hb' => ⟨hb', by rw [hpc]; exact Nat.le_refl _⟩) (by rw [hpc]; rfl)
        (fun b hb => by cases hb) fun b hb => by cases hb
  | finiJoin hpc =>
      exact h.of_disp (hsame (by rw [hpc]; simp)) (fun _ => rfl)
        (fun b' hb' => ⟨hb', by rw [hpc]; exact Nat.le_refl _⟩) (by rw [hpc]; rfl)
        (fun b hb => by cases hb) fun b hb => by cases hb

theorem worker_move (h : Kept seen s) (hhold : Holding s) {w : Nat} {i : Input} {pc : WorkerPc}
    (hw : w < maxThreadCount) (hmove : WorkerMove clientId s w i g pc) :
    Kept (seen ++ marks s (.worker w i))
      ⟨g, s.disp, Function.update s.pcs w pc, s.reads⟩ := by
  have hlast : lastReserved (seen ++ marks s (.worker w i)) = lastReserved seen := by
    rw [lastReserved_append, lastReserved_marks (.inr ⟨w, i, rfl⟩)]
    rfl
  have hact : ∀ b, tally maxThreadCount
      (slotActive ⟨g, s.disp, Function.update s.pcs w pc, s.reads⟩ b) + slotActive s b w =
      tally maxThreadCount (slotActive s b) + ((g.queue w).count b + pc.active b) := by
    intro b
    have := tally_change (f := slotActive s b)
      (k := slotActive ⟨g, s.disp, Function.update s.pcs w pc, s.reads⟩ b) hw
      fun v hv => by simp only [slotActive, hmove.queue_ne hv, Function.update_of_ne hv]
    simpa only [slotActive, Function.update_self] using this
  have hwin : ∀ b, tally maxThreadCount
      (slotWindow ⟨g, s.disp, Function.update s.pcs w pc, s.reads⟩ b) + slotWindow s b w =
      tally maxThreadCount (slotWindow s b) + pc.window b := by
    intro b
    have := tally_change (f := slotWindow s b)
      (k := slotWindow ⟨g, s.disp, Function.update s.pcs w pc, s.reads⟩ b) hw
      fun v hv => by simp only [slotWindow, Function.update_of_ne hv]
    simpa only [slotWindow, Function.update_self] using this
  refine ⟨fun b hb => ?_, fun hstopped b hb => ?_, fun b hb => hlast.trans (h.reading b hb),
    fun b hb => ?_⟩
  · rcases h.held b (hmove.inUse_of hb) with hpos | ⟨hs, hreserved⟩
    · left
      have hsame := hmove.slotActive_of hb
      have := hact b
      simp only [active] at hpos ⊢
      omega
    · exact .inr ⟨hs, hlast.trans hreserved⟩
  · have hzero := h.stopped hstopped b (hlast.symm.trans hb)
    have hle := hmove.slot_le b
    have := hact b
    have := hwin b
    simp only [active, window] at hzero ⊢
    have := le_tally (slotActive s b) hw
    have := le_tally (slotWindow s b) hw
    omega
  · have hwindow : 0 < s.disp.active b + s.disp.window b := by
      rw [show s.disp = .failed b from hb]
      simp [DispPc.window]
    show (g.bufs b).inUse = true
    rw [hhold.worker_bufs_disp hw hmove hwindow]
    exact h.failed b hb

end Kept

/-! ## Unanswered requests are waiting -/

/-- The activation is at the request in `b` with this id and has not written its
response. -/
def Frame.Awaits (f : Frame) (b : Nat) (id : BitVec 64) : Prop :=
  f.buf = b ∧ f.req.id = id ∧ match f.stage with
    | .release _ _ => False
    | .retire _ _ => False
    | _ => True

def DispPc.Awaits (g : Globals) (b : Nat) (id : BitVec 64) : DispPc → Prop
  | .lookup b' => b' = b ∧ (g.bufs b).request.id = id
  | .lock b' _ => b' = b ∧ (g.bufs b).request.id = id
  | .dispatch b' => b' = b ∧ (g.bufs b).request.id = id
  | .process f => f.Awaits b id
  | .failed b' => b' = b ∧ (g.bufs b).request.id = id
  | _ => False

def WorkerPc.Awaits (b : Nat) (id : BitVec 64) : WorkerPc → Prop
  | .process f => f.Awaits b id
  | _ => False

/-- The request in `b` with this id waits in slot `w` for its answer. -/
def slotAwaits (s : State) (b : Nat) (id : BitVec 64) (w : Nat) : Prop :=
  (b ∈ s.g.queue w ∧ (s.g.bufs b).request.id = id) ∨ (s.pcs w).Awaits b id

/-- A request that has been read into a buffer and is not answered is with the
dispatcher, in a queue or with a worker thread. -/
def Awaited (seen : List BufferMark) (s : State) : Prop :=
  ∀ b id, unanswered seen b = some id →
    s.disp.Awaits s.g b id ∨ ∃ w < maxThreadCount, slotAwaits s b id w

theorem Frame.Awaits.active {f : Frame} {b : Nat} {id : BitVec 64} (h : f.Awaits b id) :
    f.active b = 1 := by
  obtain ⟨hbuf, -, hstage⟩ := h
  cases hs : f.stage <;> rw [hs] at hstage <;> simp [Frame.active, Frame.released, hs, hbuf] at *

theorem slotAwaits.active {s : State} {b : Nat} {id : BitVec 64} {w : Nat}
    (h : slotAwaits s b id w) : 0 < slotActive s b w := by
  rw [slotActive]
  rcases h with ⟨hb, -⟩ | hpc
  · have : 0 < (s.g.queue w).count b := List.count_pos_iff.mpr hb
    omega
  · cases hat : s.pcs w with
    | process f =>
        rw [hat] at hpc
        have := Frame.Awaits.active hpc
        simp only [WorkerPc.active]
        omega
    | _ => rw [hat] at hpc; cases hpc

theorem DispPc.Awaits.holds {pc : DispPc} {g : Globals} {b : Nat} {id : BitVec 64}
    (h : pc.Awaits g b id) : 0 < pc.active b + pc.window b := by
  cases pc with
  | process f =>
      have := Frame.Awaits.active h
      simp only [DispPc.active]
      omega
  | lookup b' => simp [DispPc.active, h.1]
  | lock b' w => simp [DispPc.active, h.1]
  | dispatch b' => simp [DispPc.active, h.1]
  | failed b' => simp [DispPc.window, h.1]
  | _ => cases h

/-- Marks that read nothing leave no request waiting that was not. -/
theorem unanswered_marks {seen ms : List BufferMark} {b : Nat} {id : BitVec 64}
    (hms : ∀ m ∈ ms, ∀ b' id', m ≠ .read b' id') (h : unanswered (seen ++ ms) b = some id) :
    unanswered seen b = some id ∧ .answer b id ∉ ms := by
  rw [unanswered_append] at h
  generalize unanswered seen b = waiting at h ⊢
  induction ms generalizing waiting with
  | nil => exact ⟨h, List.not_mem_nil⟩
  | cons m ms ih =>
      obtain ⟨hwait, hrest⟩ := ih (fun m hm => hms m (List.mem_cons_of_mem _ hm)) _ h
      cases m with
      | reserve b' => exact ⟨hwait, by simpa using hrest⟩
      | read b' id' => exact absurd rfl (hms _ List.mem_cons_self b' id')
      | answer b' id' =>
          simp only [waitingAfter] at hwait
          split at hwait
          · cases hwait
          · next hno =>
              refine ⟨hwait, fun hmem => ?_⟩
              rcases List.mem_cons.mp hmem with heq | hmem
              · cases heq
                exact hno ⟨rfl, hwait⟩
              · exact hrest hmem

theorem Frame.marks_ne_read {f : Frame} {m : BufferMark} (hm : m ∈ f.marks) (b : Nat)
    (id : BitVec 64) : m ≠ .read b id := by
  rintro rfl
  unfold Frame.marks at hm
  split at hm
  · split at hm
    · cases List.mem_singleton.mp hm
    · cases hm
  · cases hm

section Waiting

variable {clientId : BitVec 16} {g g' : Globals} {f f' : Frame} {i : Input} {b : Nat}
  {id : BitVec 64}

/-- An activation stays at its request until it has answered it. -/
theorem ProcMove.awaits (h : ProcMove clientId g f i g' (.running f'))
    (hans : f.stage.Answering f.req) (hf : f.Awaits b id) :
    f'.Awaits b id ∨ .answer b id ∈ f.marks := by
  obtain ⟨hbuf, hid, hstage'⟩ := hf
  cases h with
  | issue => exact .inl ⟨hbuf, hid, trivial⟩
  | finish => exact .inl ⟨hbuf, hid, trivial⟩
  | receive => exact .inl ⟨hbuf, hid, trivial⟩
  | unlock => exact .inl ⟨hbuf, hid, trivial⟩
  | post => exact .inl ⟨hbuf, hid, trivial⟩
  | write hstage =>
      rw [hstage] at hans
      subst hbuf hid
      right
      simp only [Frame.marks, hstage, hans.1, if_true]
      exact List.mem_singleton.mpr rfl
  | release hstage =>
      rw [hstage] at hstage'
      cases hstage'

/-- An activation frees no buffer but its own, and that only when it has written
its response. -/
theorem ProcMove.freed (h : ProcMove clientId g f i g' (.running f'))
    (hb : (g.bufs b).inUse = true) :
    (g'.bufs b).inUse = true ∨ (0 < f.active b ∧ ∀ id, ¬ f.Awaits b id) := by
  cases h with
  | issue => exact .inl hb
  | finish => exact .inl (by rw [(Quiet.finishHandler f _ g).bufs]; exact hb)
  | receive => exact .inl hb
  | unlock => exact .inl (by rw [(Quiet.unlockWorker g f.worker).bufs]; exact hb)
  | post =>
      exact .inl (by rw [(Quiet.postProcessResponse clientId f.req f.worker _ g).bufs]; exact hb)
  | write => exact .inl hb
  | release hstage =>
      rcases Holding.inUse_release g f.buf b hb with hnew | rfl
      · exact .inl hnew
      · refine .inr ⟨by simp [Frame.active, Frame.released, hstage], ?_⟩
        rintro id ⟨-, -, hstage'⟩
        rw [hstage] at hstage'
        cases hstage'

theorem ProcMove.not_awaits {rc : Int} (h : ProcMove clientId g f i g' (.returned rc)) :
    ¬ f.Awaits b id := by
  rintro ⟨-, -, hstage'⟩
  cases h with
  | retireSlot hstage =>
      rw [hstage] at hstage'
      cases hstage'
  | retire hstage =>
      rw [hstage] at hstage'
      cases hstage'

theorem Frame.awaits_start (b : Nat) :
    (Frame.start clientId g b).Awaits b (g.bufs b).request.id := ⟨rfl, rfl, trivial⟩

theorem DispPc.awaits_afterLookup {t : MtRequestType} {w : Nat}
    (h : (g.bufs b).request.id = id) : (afterLookup t b w).Awaits g b id := by
  unfold afterLookup
  split <;> exact ⟨rfl, h⟩

end Waiting

/-- The only step that marks a request as read reads it. -/
theorem read_mem_marks {s : State} {i : Input} {b : Nat} {id : BitVec 64}
    (h : .read b id ∈ marks s (.disp i)) : ∃ size req, s.disp = .read b ∧ i = .read size req ∧
      ¬ (size < (mtRequestBaseSize : Int) ∨ oneRequestRegionSize < req.size) := by
  unfold marks at h
  simp only [] at h
  split at h
  · split at h
    · cases List.mem_singleton.mp h
    · cases h
  · next b' size req hpc =>
      split at h
      · cases h
      · next hsize =>
          cases List.mem_singleton.mp h
          exact ⟨size, req, hpc, rfl, hsize⟩
  · exact absurd rfl (Frame.marks_ne_read h b id)
  · cases List.mem_singleton.mp h
  · cases h

namespace Awaited

variable {clientId : BitVec 16} {seen : List BufferMark} {s : State} {g : Globals} {i : Input}

theorem init (clientId : BitVec 16) : Awaited [] (ins clientId).init := by
  intro b id h
  cases h

/-- What waits with the dispatcher goes on waiting there or in a queue, or the
step answers it. -/
theorem disp_awaits (hplaced : Placed clientId s) (hans : Answering s) {pc : DispPc}
    {reads : List MtRequest} (hmove : DispMove clientId s i g pc reads) {b : Nat} {id : BitVec 64}
    (hat : s.disp.Awaits s.g b id) :
    pc.Awaits g b id ∨ (∃ w < maxThreadCount, slotAwaits ⟨g, pc, s.pcs, reads⟩ b id w) ∨
      .answer b id ∈ marks s (.disp i) := by
  cases hmove with
  | @noWorker b' hpc =>
      rw [hpc] at hat
      obtain ⟨rfl, hid⟩ := hat
      exact .inl ⟨rfl, by rw [bufs_modifyBuf_self]; exact hid⟩
  | @existing b' w now hpc ht g hw =>
      rw [hpc] at hat
      obtain ⟨rfl, hid⟩ := hat
      refine .inl (DispPc.awaits_afterLookup ?_)
      rw [(quiet_assignTo (getWorkerThreadForFd_spec hw).2 b' w b').2]
      exact hid
  | @newWorker b' w hpc =>
      rw [hpc] at hat
      obtain ⟨rfl, hid⟩ := hat
      refine .inl (DispPc.awaits_afterLookup ?_)
      rw [(quiet_assignTo (Quiet.acquireSlot s.g w) b' w b').2]
      exact hid
  | lookupFailed hpc =>
      rw [hpc] at hat
      exact .inl hat
  | lock hpc =>
      rw [hpc] at hat
      exact .inl hat
  | @start b' hpc =>
      rw [hpc] at hat
      obtain ⟨rfl, rfl⟩ := hat
      exact .inl (Frame.awaits_start b')
  | @enqueue b' w q hpc hnow hw hq =>
      rw [hpc] at hat
      obtain ⟨rfl, hid⟩ := hat
      refine .inr (.inl ⟨w, hplaced.holding.slots b' w hw, .inl ⟨?_, hid⟩⟩)
      rw [show Globals.queue _ w = q.contents from queue_modifyWorker_self s.g w q,
        WorkQueue.contents_enqueue hq]
      exact List.mem_append_right _ (List.mem_singleton.mpr rfl)
  | @queueFull b' w hpc =>
      rw [hpc] at hat
      refine .inl ⟨hat.1, ?_⟩
      rw [(Quiet.releaseOplock s.g w).bufs]
      exact hat.2
  | running hpc hproc =>
      have hanswering := hans.disp
      rw [hpc] at hat hanswering
      rcases hproc.awaits hanswering.2 hat with hnext | hanswer
      · exact .inl hnext
      · refine .inr (.inr ?_)
        simpa only [marks, hpc] using hanswer
  | returned hpc hproc =>
      rw [hpc] at hat
      exact absurd hat hproc.not_awaits
  | failed hpc =>
      rw [hpc] at hat
      obtain ⟨rfl, rfl⟩ := hat
      refine .inr (.inr ?_)
      simp only [marks, hpc]
      exact List.mem_singleton.mpr rfl
  | full hpc => rw [hpc] at hat; cases hat
  | reserve hpc => rw [hpc] at hat; cases hat
  | stop hpc => rw [hpc] at hat; cases hat
  | read hpc => rw [hpc] at hat; cases hat
  | cleanup hpc => rw [hpc] at hat; cases hat
  | wake hpc => rw [hpc] at hat; cases hat
  | finiSet hpc => rw [hpc] at hat; cases hat
  | finiPost hpc => rw [hpc] at hat; cases hat
  | finiDone hpc => rw [hpc] at hat; cases hat
  | finiJoin hpc => rw [hpc] at hat; cases hat

/-- The dispatcher only adds to queues. -/
theorem mem_queue_disp {pc : DispPc} {reads : List MtRequest}
    (hmove : DispMove clientId s i g pc reads) {v b : Nat} (hb : b ∈ s.g.queue v) :
    b ∈ g.queue v := by
  cases hmove with
  | existing hpc ht hw =>
      have hq := (getWorkerThreadForFd_spec hw).2.queue v
      rw [← hq] at hb
      exact hb
  | @newWorker b' w =>
      have hq := (Quiet.acquireSlot s.g w).queue v
      rw [← hq] at hb
      exact hb
  | @lock b' w => rwa [(Quiet.modifyWorker s.g w rfl).queue]
  | @enqueue b' w q hpc hnow hw hq =>
      by_cases hv : v = w
      · subst hv
        rw [queue_modifyWorker_self, WorkQueue.contents_enqueue hq]
        exact List.mem_append_left _ hb
      · rwa [queue_modifyWorker_ne s.g _ hv]
  | @queueFull b' w => rwa [(Quiet.releaseOplock s.g w).queue]
  | running hpc hproc => rwa [hproc.queue]
  | returned hpc hproc => rwa [hproc.queue]
  | @wake w => rwa [(Quiet.modifyWorker s.g w rfl).queue]
  | @finiPost n => rwa [(Quiet.modifyWorker s.g n rfl).queue]
  | _ => exact hb

theorem slot_awaits_disp (hplaced : Placed clientId s) {pc : DispPc} {reads : List MtRequest}
    (hmove : DispMove clientId s i g pc reads) {b : Nat} {id : BitVec 64} {w : Nat}
    (hw : w < maxThreadCount) (hat : slotAwaits s b id w) :
    slotAwaits ⟨g, pc, s.pcs, reads⟩ b id w := by
  rcases hat with ⟨hb, hid⟩ | hpc
  · refine .inl ⟨mem_queue_disp hmove hb, ?_⟩
    show (g.bufs b).request.id = id
    rw [hplaced.holding.disp_bufs hmove hw hb]
    exact hid
  · exact .inr hpc

/-- A request is read into the buffer. -/
theorem read {b : Nat} {size : Int} {req : MtRequest} (hpc : s.disp = .read b)
    (hsize : ¬ (size < (mtRequestBaseSize : Int) ∨ oneRequestRegionSize < req.size)) {b' : Nat}
    {id : BitVec 64}
    (hwait : unanswered (seen ++ marks s (.disp (.read size req))) b' = some id) :
    (b = b' ∧ req.id = id) ∨ unanswered seen b' = some id := by
  simp only [marks, hpc, if_neg hsize, unanswered_append, List.foldl_cons, List.foldl_nil,
    waitingAfter] at hwait
  split at hwait
  · next hb => exact .inl ⟨hb, Option.some.inj hwait⟩
  · exact .inr hwait

theorem disp_move (h : Awaited seen s) (hplaced : Placed clientId s) (hans : Answering s)
    {pc : DispPc} {reads : List MtRequest} (hmove : DispMove clientId s i g pc reads) :
    Awaited (seen ++ marks s (.disp i)) ⟨g, pc, s.pcs, reads⟩ := by
  intro b id hwait
  -- A request that waited before, and is not answered by this step.
  have waited : unanswered seen b = some id → .answer b id ∉ marks s (.disp i) →
      pc.Awaits g b id ∨ ∃ w < maxThreadCount, slotAwaits ⟨g, pc, s.pcs, reads⟩ b id w := by
    intro hold hno
    rcases h b id hold with hat | ⟨w, hw, hat⟩
    · rcases disp_awaits hplaced hans hmove hat with hnext | hslot | hanswer
      · exact .inl hnext
      · exact .inr hslot
      · exact absurd hanswer hno
    · exact .inr ⟨w, hw, slot_awaits_disp hplaced hmove hw hat⟩
  by_cases hread : ∃ b' id', BufferMark.read b' id' ∈ marks s (.disp i)
  · obtain ⟨b', id', hmem⟩ := hread
    obtain ⟨size, req, hpc', rfl, hsize'⟩ := read_mem_marks hmem
    cases hmove with
    | @read b' _ _ hpc hsize =>
        rcases read hpc hsize hwait with ⟨rfl, hid⟩ | hold
        · exact .inl ⟨rfl, by rw [bufs_modifyBuf_self]; exact hid⟩
        · refine waited hold ?_
          simp [marks, hpc, hsize]
    | stop hpc hsize => exact absurd hsize hsize'
    | running hpc => rw [hpc'] at hpc; cases hpc
    | returned hpc => rw [hpc'] at hpc; cases hpc
  · obtain ⟨hold, hno⟩ := unanswered_marks (fun m hm b' id' hm' => hread ⟨b', id', hm' ▸ hm⟩) hwait
    exact waited hold hno

/-- What waits in the slot of a worker thread goes on waiting there, or the step
answers it. -/
theorem slot_awaits_worker {w : Nat} {pc : WorkerPc} (hans : Answering s)
    (hw : w < maxThreadCount) (hmove : WorkerMove clientId s w i g pc) {b : Nat} {id : BitVec 64}
    (hat : slotAwaits s b id w) :
    (b ∈ g.queue w ∧ (g.bufs b).request.id = id) ∨ pc.Awaits b id ∨
      .answer b id ∈ marks s (.worker w i) := by
  rw [hmove.request b]
  cases hmove with
  | wait hpc =>
      rw [(Quiet.modifyWorker s.g w rfl).queue]
      rcases hat with hqueue | hat
      · exact .inl hqueue
      · rw [hpc] at hat
        cases hat
  | empty hpc =>
      rcases hat with hqueue | hat
      · exact .inl hqueue
      · rw [hpc] at hat
        cases hat
  | @dequeue b' q hpc hq =>
      rcases hat with ⟨hb, hid⟩ | hat
      · rw [show s.g.queue w = b' :: q.contents from WorkQueue.contents_dequeue hq] at hb
        rw [queue_modifyWorker_self]
        rcases List.mem_cons.mp hb with rfl | hb
        · refine .inr (.inl ?_)
          subst hid
          exact Frame.awaits_start b
        · exact .inl ⟨hb, hid⟩
      · rw [hpc] at hat
        cases hat
  | running hpc hproc =>
      rw [hproc.queue]
      rcases hat with hqueue | hat
      · exact .inl hqueue
      · rw [hpc] at hat
        rcases hproc.awaits (hans.working w hw _ hpc) hat with hnext | hanswer
        · exact .inr (.inl hnext)
        · refine .inr (.inr ?_)
          simpa only [marks, hpc] using hanswer
  | returned hpc hproc =>
      rw [hproc.queue]
      rcases hat with hqueue | hat
      · exact .inl hqueue
      · rw [hpc] at hat
        exact absurd hat hproc.not_awaits
  | cleanup hpc =>
      rcases hat with hqueue | hat
      · exact .inl hqueue
      · rw [hpc] at hat
        cases hat

theorem worker_move (h : Awaited seen s) (hans : Answering s) {w : Nat} {pc : WorkerPc}
    (hw : w < maxThreadCount) (hmove : WorkerMove clientId s w i g pc) :
    Awaited (seen ++ marks s (.worker w i))
      ⟨g, s.disp, Function.update s.pcs w pc, s.reads⟩ := by
  intro b id hwait
  have hread : ∀ m ∈ marks s (.worker w i), ∀ b' id', m ≠ .read b' id' := by
    intro m hm b' id'
    unfold marks at hm
    simp only [] at hm
    split at hm
    · exact Frame.marks_ne_read hm b' id'
    · cases hm
  obtain ⟨hold, hno⟩ := unanswered_marks hread hwait
  rcases h b id hold with hat | ⟨v, hv, hat⟩
  · left
    show s.disp.Awaits g b id
    cases hpc : s.disp <;> rw [hpc] at hat <;>
      simp only [DispPc.Awaits, hmove.request] at hat ⊢ <;> exact hat
  · refine .inr ⟨v, hv, ?_⟩
    by_cases hvw : v = w
    · subst hvw
      rcases slot_awaits_worker hans hw hmove hat with hqueue | hpc | hanswer
      · exact .inl hqueue
      · exact .inr (by simpa only [Function.update_self] using hpc)
      · exact absurd hanswer hno
    · rcases hat with ⟨hb, hid⟩ | hpc
      · refine .inl ⟨?_, ?_⟩
        · show b ∈ g.queue v
          rwa [hmove.queue_ne hvw]
        · show (g.bufs b).request.id = id
          rwa [hmove.request b]
      · exact .inr (by simpa only [Function.update_of_ne hvw] using hpc)

end Awaited

/-! ## Buffers are owned -/

/-- The invariant. -/
structure Owned (clientId : BitVec 16) (seen : List BufferMark) (s : State) : Prop where
  placed : Placed clientId s
  answering : Answering s
  kept : Kept seen s
  awaited : Awaited seen s

theorem Owned.init (clientId : BitVec 16) : Owned clientId [] (ins clientId).init where
  placed := Placed.init clientId
  answering := Answering.init clientId
  kept := Kept.init clientId
  awaited := Awaited.init clientId

theorem Owned.step (clientId : BitVec 16) (seen : List BufferMark) (s : State) (e : Event)
    (s' : State) (hguard : ownedStep s e) (hstep : (ins clientId).step s e = some s')
    (h : Owned clientId seen s) : Owned clientId (seen ++ marks s e) s' := by
  have hplaced := Placed.step clientId s e s' hguard.1 hstep h.placed
  revert hplaced
  refine step_rule (P := fun s' => Placed clientId s' → Owned clientId (seen ++ marks s e) s')
    hstep (fun i g pc reads he hmove hplaced => ?_) fun w i g pc he hw hmove hplaced => ?_
  · subst he
    exact ⟨hplaced, h.answering.disp_move h.placed hmove hguard.2,
      h.kept.disp_move h.placed h.answering hmove,
      h.awaited.disp_move h.placed h.answering hmove⟩
  · subst he
    exact ⟨hplaced, h.answering.worker_move h.placed hw hmove hguard.2,
      h.kept.worker_move h.placed.holding hw hmove, h.awaited.worker_move h.answering hw hmove⟩

/-- The step releases `b`, or reserves it for the next request. -/
def GivesUp (s s' : State) (b : Nat) : Prop :=
  ((s.g.bufs b).inUse = true ∧ (s'.g.bufs b).inUse = false) ∨
    (s.disp = .reserve ∧ s'.disp = .read b)

/-- Every buffer in use is the one that the dispatcher has reserved, or one
request holds it; a request that still needs its buffer has it in use; no buffer
is queued twice; and no step gives up a buffer whose request is unanswered. -/
structure BuffersOwned (clientId : BitVec 16) (seen : List BufferMark) (s : State) : Prop where
  inUse : ∀ b, (s.g.bufs b).inUse = true →
    (s.disp.reserved seen = some b ∧ holders s b = 0) ∨
      (s.disp.reserved seen ≠ some b ∧ holders s b = 1)
  needed : ∀ b, 0 < needing s b → (s.g.bufs b).inUse = true
  queued : ∀ b, tally maxThreadCount (fun w => (s.g.queue w).count b) ≤ 1
  answered : ∀ e s', (ins clientId).step s e = some s' → ∀ b, GivesUp s s' b →
    unanswered seen b = none

namespace Owned

variable {clientId : BitVec 16} {seen : List BufferMark} {s : State}

theorem reserved_of_stopped {pc : DispPc} (h : pc.stopped = true) :
    pc.reserved seen = lastReserved seen ∧ ∀ b, pc.reads b = 0 := by
  cases pc <;> first | exact ⟨rfl, fun _ => rfl⟩ | cases h

theorem reserved_iff {pc : DispPc} (h : pc.stopped = false) (b : Nat) :
    pc.reserved seen = some b ↔ pc.reads b = 1 := by
  cases pc with
  | read b' =>
      simp only [DispPc.reserved, DispPc.reads, Option.some.injEq]
      split <;> simp_all
  | finiSet => cases h
  | finiPost _ => cases h
  | finiJoin _ => cases h
  | exited => cases h
  | _ => simp [DispPc.reserved, DispPc.reads]

theorem reads_le (pc : DispPc) (b : Nat) : pc.reads b ≤ pc.active b ∧ pc.reads b ≤ 1 := by
  cases pc with
  | read b' =>
      simp only [DispPc.reads, DispPc.active]
      split <;> omega
  | _ => exact ⟨Nat.zero_le _, Nat.zero_le _⟩

theorem inUse (h : Owned clientId seen s) {b : Nat} (hb : (s.g.bufs b).inUse = true) :
    (s.disp.reserved seen = some b ∧ holders s b = 0) ∨
      (s.disp.reserved seen ≠ some b ∧ holders s b = 1) := by
  have heq := holders_eq s b
  have hexcl := h.placed.holding.excl b
  obtain ⟨hreads, hone⟩ := reads_le s.disp b
  cases hstop : s.disp.stopped with
  | true =>
      obtain ⟨hreserved, hzero⟩ := @reserved_of_stopped seen _ hstop
      have hno := hzero b
      by_cases hlast : lastReserved seen = some b
      · have := h.kept.stopped hstop b hlast
        exact .inl ⟨hreserved.trans hlast, by omega⟩
      · rcases h.kept.held b hb with hpos | ⟨-, hl⟩
        · refine .inr ⟨by rw [hreserved]; exact hlast, ?_⟩
          have hwin : s.disp.window b ≤ window s b := Nat.le_add_right _ _
          omega
        · exact absurd hl hlast
  | false =>
      have hpos : 0 < active s b + s.disp.window b := by
        rcases h.kept.held b hb with hpos | ⟨hs, -⟩
        · exact hpos
        · rw [hstop] at hs
          cases hs
      have hwin : s.disp.window b ≤ window s b := Nat.le_add_right _ _
      rw [ne_eq, reserved_iff hstop b]
      by_cases hr : s.disp.reads b = 1
      · exact .inl ⟨hr, by omega⟩
      · exact .inr ⟨hr, by omega⟩

theorem needed (h : Owned clientId seen s) {b : Nat} (hb : 0 < needing s b) :
    (s.g.bufs b).inUse = true := by
  by_cases hact : 0 < active s b
  · exact h.placed.holding.inUse b hact
  · -- The dispatcher is about to send the error response.
    have hfailed : s.disp = .failed b := by
      simp only [needing, active] at hb hact
      have hneeds : 0 < s.disp.needs b := by omega
      have hnot : s.disp.active b = 0 := by omega
      cases hpc : s.disp with
      | failed b' =>
          rw [hpc] at hneeds
          simp only [DispPc.needs] at hneeds
          split at hneeds
          · next hbb => rw [hbb]
          · omega
      | _ =>
          rw [hpc] at hneeds hnot
          simp only [DispPc.needs, DispPc.active] at hneeds hnot
          omega
    exact h.kept.failed b hfailed

theorem queued (h : Owned clientId seen s) (b : Nat) :
    tally maxThreadCount (fun w => (s.g.queue w).count b) ≤ 1 := by
  have hexcl := h.placed.holding.excl b
  have hsplit : tally maxThreadCount (slotActive s b) =
      tally maxThreadCount (fun w => (s.g.queue w).count b) +
        tally maxThreadCount (fun w => (s.pcs w).active b) := tally_add _ _ _
  rw [active, hsplit] at hexcl
  omega

/-- A step of the dispatcher that frees a buffer is at that buffer, and at no
unanswered request in it. -/
theorem freed_disp {g : Globals} {i : Input} {pc : DispPc} {reads : List MtRequest}
    (hmove : DispMove clientId s i g pc reads) {b : Nat} (hb : (s.g.bufs b).inUse = true) :
    (g.bufs b).inUse = true ∨ (0 < s.disp.active b + s.disp.window b ∧
      ∀ id, ¬ s.disp.Awaits s.g b id) := by
  cases hmove with
  | @reserve b' =>
      left
      by_cases hbb : b = b'
      · subst hbb
        rw [Globals.reserveBufferItem, bufs_modifyBuf_self]
      · rw [Globals.reserveBufferItem, bufs_modifyBuf_ne s.g b' _ hbb]
        exact hb
  | @stop b' size req =>
      exact .inl (by rw [inUse_modifyBuf s.g b' rfl]; exact hb)
  | @read b' size req =>
      exact .inl (by rw [inUse_modifyBuf s.g b' rfl]; exact hb)
  | @noWorker b' =>
      exact .inl (by rw [inUse_modifyBuf s.g b' rfl]; exact hb)
  | @existing b' w now hpc ht g hw =>
      exact .inl (by rw [(quiet_assignTo (getWorkerThreadForFd_spec hw).2 b' w b).1]; exact hb)
  | @newWorker b' w =>
      exact .inl (by rw [(quiet_assignTo (Quiet.acquireSlot s.g w) b' w b).1]; exact hb)
  | @queueFull b' w => exact .inl (by rw [(Quiet.releaseOplock s.g w).bufs]; exact hb)
  | @running f i g f' hpc hproc =>
      rcases hproc.freed hb with hnew | ⟨hact, hno⟩
      · exact .inl hnew
      · right
        rw [hpc]
        exact ⟨Nat.lt_add_right _ hact, hno⟩
  | returned hpc hproc => exact .inl (by rw [hproc.returned_holding.2]; exact hb)
  | @cleanup b' hpc =>
      rcases Holding.inUse_release s.g b' b hb with hnew | rfl
      · exact .inl hnew
      · right
        rw [hpc]
        exact ⟨by simp [DispPc.active, DispPc.window], fun id hat => by cases hat⟩
  | _ => exact .inl hb

theorem freed_worker {g : Globals} {i : Input} {w : Nat} {pc : WorkerPc}
    (hmove : WorkerMove clientId s w i g pc) {b : Nat} (hb : (s.g.bufs b).inUse = true) :
    (g.bufs b).inUse = true ∨ (0 < (s.pcs w).active b + (s.pcs w).window b ∧
      ∀ id, ¬ (s.pcs w).Awaits b id) := by
  cases hmove with
  | @running f i g f' hpc hproc =>
      rcases hproc.freed hb with hnew | ⟨hact, hno⟩
      · exact .inl hnew
      · right
        rw [hpc]
        exact ⟨Nat.lt_add_right _ hact, hno⟩
  | returned hpc hproc => exact .inl (by rw [hproc.returned_holding.2]; exact hb)
  | @cleanup b' hpc =>
      rcases Holding.inUse_release s.g b' b hb with hnew | rfl
      · exact .inl hnew
      · right
        rw [hpc]
        exact ⟨by simp [WorkerPc.active, WorkerPc.window], fun id hat => by cases hat⟩
  | _ => exact .inl hb

/-- No two threads are at one buffer. -/
theorem total_le (h : Owned clientId seen s) (b : Nat) :
    s.disp.active b + s.disp.window b +
      tally maxThreadCount (fun w => slotActive s b w + slotWindow s b w) ≤ 1 := by
  have hexcl := h.placed.holding.excl b
  rw [tally_add]
  simp only [active, window] at hexcl
  omega

/-- A buffer that the dispatcher gives up is not one of an unanswered request. -/
theorem answered_disp (h : Owned clientId seen s) {g : Globals} {i : Input} {pc : DispPc}
    {reads : List MtRequest} (hmove : DispMove clientId s i g pc reads) {b : Nat}
    (hgive : GivesUp s ⟨g, pc, s.pcs, reads⟩ b) : unanswered seen b = none := by
  rw [Option.eq_none_iff_forall_ne_some]
  intro id hwait
  have htotal := h.total_le b
  rcases hgive with ⟨hold, hnew⟩ | ⟨hpc, hread⟩
  · rcases freed_disp hmove hold with hkept | ⟨hpos, hno⟩
    · rw [show (g.bufs b).inUse = false from hnew] at hkept
      cases hkept
    · rcases h.awaited b id hwait with hat | ⟨w, hw, hat⟩
      · exact hno id hat
      · have hact := hat.active
        have := le_tally (fun w => slotActive s b w + slotWindow s b w) hw
        omega
  · have hfree : (s.g.bufs b).inUse = false := by
      cases hmove with
      | reserve _ hb =>
          cases hread
          simpa using List.find?_some hb
      | _ => first | cases hread | simp_all
    rcases h.awaited b id hwait with hat | ⟨w, hw, hat⟩
    · rw [hpc] at hat
      cases hat
    · have hact := hat.active
      have := le_tally (slotActive s b) hw
      rw [h.placed.holding.inUse b (by rw [active]; omega)] at hfree
      cases hfree

/-- A buffer that a worker thread frees is not one of an unanswered request. -/
theorem answered_worker (h : Owned clientId seen s) {g : Globals} {i : Input} {w : Nat}
    {pc : WorkerPc} (hw : w < maxThreadCount) (hmove : WorkerMove clientId s w i g pc) {b : Nat}
    (hgive : GivesUp s ⟨g, s.disp, Function.update s.pcs w pc, s.reads⟩ b) :
    unanswered seen b = none := by
  rw [Option.eq_none_iff_forall_ne_some]
  intro id hwait
  rcases hgive with ⟨hold, hnew⟩ | ⟨hpc, hread⟩
  · rcases freed_worker hmove hold with hkept | ⟨hpos, hno⟩
    · rw [show (g.bufs b).inUse = false from hnew] at hkept
      cases hkept
    · have htotal := h.total_le b
      have hslot := le_tally (fun w => slotActive s b w + slotWindow s b w) hw
      simp only [slotActive, slotWindow] at hslot
      rcases h.awaited b id hwait with hat | ⟨v, hv, hat⟩
      · have hdisp : 0 < s.disp.active b + s.disp.window b := DispPc.Awaits.holds hat
        simp only [slotActive, slotWindow] at htotal
        omega
      · by_cases hvw : v = w
        · subst hvw
          rcases hat with ⟨hqueue, -⟩ | hat
          · have : 0 < (s.g.queue v).count b := List.count_pos_iff.mpr hqueue
            simp only [slotActive, slotWindow] at htotal
            omega
          · exact hno id hat
        · have hact := hat.active
          have hboth := add_le_tally (fun w => slotActive s b w + slotWindow s b w) hv hw hvw
          simp only [slotActive, slotWindow] at htotal hboth hact
          omega
  · have hread : s.disp = .read b := hread
    rw [hpc] at hread
    cases hread

theorem answered (h : Owned clientId seen s) {e : Event} {s' : State}
    (hstep : (ins clientId).step s e = some s') {b : Nat} (hgive : GivesUp s s' b) :
    unanswered seen b = none := by
  revert hgive
  refine step_rule (P := fun s' => GivesUp s s' b → unanswered seen b = none) hstep
    (fun i g pc reads _ hmove hgive => ?_) fun w i g pc _ hw hmove hgive => ?_
  · exact h.answered_disp hmove hgive
  · exact h.answered_worker hw hmove hgive

end Owned

/-- **Buffers are owned.** In every state of a run in which no buffer is reserved
between its two releases and every handler answers, the buffers are owned. -/
theorem buffers_owned (clientId : BitVec 16) (es : List Event) (s : State)
    (hgood : (ins clientId).Guarded ownedStep es) (hrun : (ins clientId).run es = some s) :
    BuffersOwned clientId ((ins clientId).history marks es) s := by
  have h : Owned clientId ((ins clientId).history marks es) s :=
    (ins clientId).guarded_history (Owned.init clientId) (Owned.step clientId) hgood hrun
  exact ⟨fun b hb => h.inUse hb, fun b hb => h.needed hb, h.queued,
    fun e s' hstep b hgive => h.answered hstep hgive⟩

/-- After the receive of `createAndRecv` has been served, the next step of the
dispatcher reserves its buffer again. -/
theorem buffers_owned_createAndRecv :
    ∃ s, (ins 1).run createAndRecv = some s ∧
      BuffersOwned 1 ((ins 1).history marks createAndRecv) s := by
  have hsome : ((ins 1).run createAndRecv).isSome = true := by decide +kernel
  obtain ⟨s, hs⟩ := Option.isSome_iff_exists.mp hsome
  exact ⟨s, hs, buffers_owned 1 createAndRecv s (by decide +kernel) hs⟩

/-- The worker has released its buffer once, and the dispatcher has read the next
request, 3, into it. -/
def readIntoReleased : List Event :=
  serveEvents (createRequest 1) { ret := 3 } ++ queueEvents (recvRequest 2) ++
    workEvents 0 [{ ret := 1, data := [1] }] ++ List.replicate 5 (.worker 0 .tau) ++
    readEvents (recvRequest 3) ++ [.worker 0 .tau]

/-- The worker's second release frees the buffer of request 3, which is not
answered and which the dispatcher is about to process. -/
theorem buffer_freed_unanswered :
    ∃ s s', (ins 1).run readIntoReleased = some s ∧
      (ins 1).step s (.worker 0 .tau) = some s' ∧ (s.g.bufs 0).inUse = true ∧
      (s'.g.bufs 0).inUse = false ∧ 0 < needing s' 0 ∧
      unanswered ((ins 1).history marks readIntoReleased) 0 = some 3 ∧
      ¬ BuffersOwned 1 ((ins 1).history marks readIntoReleased) s := by
  have hsome : ((ins 1).run readIntoReleased).map (fun s =>
      ((s.g.bufs 0).inUse, ((ins 1).step s (.worker 0 .tau)).map fun s' =>
        ((s'.g.bufs 0).inUse, s'.disp.needs 0))) = some (true, some (false, 1)) := by
    decide +kernel
  obtain ⟨s, hs, hobs⟩ := Option.map_eq_some_iff.mp hsome
  simp only [Prod.mk.injEq] at hobs
  obtain ⟨hold, hnext⟩ := hobs
  obtain ⟨s', hstep, hobs⟩ := Option.map_eq_some_iff.mp hnext
  simp only [Prod.mk.injEq] at hobs
  obtain ⟨hnew, hneeds⟩ := hobs
  have hwait : unanswered ((ins 1).history marks readIntoReleased) 0 = some 3 := by
    decide +kernel
  refine ⟨s, s', hs, hstep, hold, hnew, by rw [needing, hneeds]; omega, hwait, fun hown => ?_⟩
  rw [hown.answered _ s' hstep 0 (.inl ⟨hold, hnew⟩)] at hwait
  cases hwait

end MagicWand.Ins
