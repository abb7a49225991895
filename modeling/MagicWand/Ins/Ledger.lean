import MagicWand.Foundation.Tally
import MagicWand.Ins.Answers

/-!
# Exactly one response for each request

`process_buffer_item` promises one response for each request. The proof keeps
a ledger: for every id, the responses on the ring and the responses that some
thread or queue still owes add up to the requests read. A second tally counts
who holds a buffer item. A holder is active until its release of the buffer
(the buffer is then in use) and in the release window afterwards, because the
buffer is released twice; a buffer reserved again inside the window of a worker
would be freed under its new holder.
-/

namespace MagicWand.Ins

open Foundation

/-! ## What does not touch the ledger -/

/-- The buffer indices queued for slot `w`. -/
def Globals.queue (g : Globals) (w : Nat) : List Nat := (g.workers w).workQueue.contents

/-- The ring, the buffer items and the queues are the same. -/
structure Quiet (g g' : Globals) : Prop where
  ring : g'.ring = g.ring
  bufs : g'.bufs = g.bufs
  queue : ∀ w, g'.queue w = g.queue w

namespace Quiet

theorem refl (g : Globals) : Quiet g g := ⟨rfl, rfl, fun _ => rfl⟩

theorem trans {g g' g'' : Globals} (h : Quiet g g') (h' : Quiet g' g'') : Quiet g g'' :=
  ⟨h'.ring.trans h.ring, h'.bufs.trans h.bufs, fun w => (h'.queue w).trans (h.queue w)⟩

/-- A change of a slot that leaves its queue alone. -/
theorem modifyWorker (g : Globals) (w : Nat) {f : ThreadItem → ThreadItem}
    (hf : (f (g.workers w)).workQueue = (g.workers w).workQueue) :
    Quiet g (g.modifyWorker w f) := by
  refine ⟨rfl, rfl, fun v => ?_⟩
  by_cases hv : v = w
  · subst hv
    simp only [Globals.queue, Globals.modifyWorker, Function.update_self, hf]
  · simp only [Globals.queue, Globals.modifyWorker, Function.update_of_ne hv]

theorem acquireSlot (g : Globals) (w : Nat) : Quiet g (g.acquireSlot w) := modifyWorker g w rfl

theorem releaseOplock (g : Globals) (w : Nat) : Quiet g (g.releaseOplock w) := by
  unfold Globals.releaseOplock
  split
  · exact modifyWorker g w rfl
  · exact refl g

theorem unlockWorker (g : Globals) (worker : Option Nat) :
    Quiet g (Ins.unlockWorker worker g) := by
  cases worker with
  | none => exact refl g
  | some w => exact releaseOplock g w

theorem withNet (g : Globals) (n : NetState) : Quiet g { g with net := n } :=
  ⟨rfl, rfl, fun _ => rfl⟩

theorem releaseWorkerThread (g : Globals) (w : Nat) : Quiet g (g.releaseWorkerThread w) :=
  (withNet g _).trans (modifyWorker _ w rfl)

theorem finishHandler (f : Frame) (r : HandlerResult) (g : Globals) :
    Quiet g (Ins.finishHandler f r g) := by
  unfold Ins.finishHandler
  simp only []
  split <;> exact ⟨rfl, rfl, fun _ => rfl⟩

theorem updateListeningPorts (g : Globals) : Quiet g g.updateListeningPorts := by
  unfold Globals.updateListeningPorts
  split <;> exact ⟨rfl, rfl, fun _ => rfl⟩

theorem assignAccepted (clientId : BitVec 16) (resp : MtResponse) (g : Globals) :
    Quiet g (Globals.assignAccepted clientId resp g).2 := by
  unfold Globals.assignAccepted
  split
  · exact refl g
  · next w _ => exact (acquireSlot g w).trans ⟨rfl, rfl, fun _ => rfl⟩

theorem postProcessResponse (clientId : BitVec 16) (req : MtRequest) (worker : Option Nat)
    (resp : MtResponse) (g : Globals) :
    Quiet g (Globals.postProcessResponse clientId req worker resp g).2 := by
  unfold Globals.postProcessResponse
  simp only []
  split
  · exact (assignAccepted clientId _ g).trans (updateListeningPorts _)
  · exact updateListeningPorts g

end Quiet

/-- Post-processing keeps the id of the response. -/
theorem carries_postProcessResponse (clientId : BitVec 16) (req : MtRequest)
    (worker : Option Nat) (resp : MtResponse) (g : Globals) (id : BitVec 64) :
    carries id (Globals.postProcessResponse clientId req worker resp g).1 = carries id resp := by
  unfold Globals.postProcessResponse
  simp only []
  split
  · simp only [Globals.assignAccepted]
    split <;> rfl
  · rfl

/-! ## The tallies -/

/-- Responses on the ring that carry `id`. -/
def answered (g : Globals) (id : BitVec 64) : Nat := g.ring.countP (carries id)

/-- Requests with this id that have been read. -/
def requested (s : State) (id : BitVec 64) : Nat := s.reads.countP (fun r => r.id == id)

/-- 1 if the request has this id. -/
def hasId (req : MtRequest) (id : BitVec 64) : Nat := if req.id = id then 1 else 0

/-- 1 if the response carries this id. -/
def due (resp : MtResponse) (id : BitVec 64) : Nat := if carries id resp then 1 else 0

namespace Frame

/-- Responses with this id that the activation will still write. -/
def owes (f : Frame) (id : BitVec 64) : Nat :=
  match f.stage with
  | .call _ _ _ => hasId f.req id
  | .unlock _ resp => due resp id
  | .post _ resp => due resp id
  | .write _ resp => due resp id
  | .release _ _ => 0
  | .retire _ _ => 0

/-- Error responses the dispatcher adds when the activation returns `rc ≠ 0`. -/
def owesError (f : Frame) (id : BitVec 64) : Nat :=
  match f.stage with
  | .call _ _ _ => 0
  | .unlock rc _ => if rc ≠ 0 then hasId f.req id else 0
  | .post rc _ => if rc ≠ 0 then hasId f.req id else 0
  | .write rc _ => if rc ≠ 0 then hasId f.req id else 0
  | .release rc _ => if rc ≠ 0 then hasId f.req id else 0
  | .retire rc _ => if rc ≠ 0 then hasId f.req id else 0

/-- Has the activation released its buffer? -/
def released (f : Frame) : Bool :=
  match f.stage with
  | .retire _ _ => true
  | _ => false

/-- 1 if the activation holds `b` and has not released it. -/
def active (f : Frame) (b : Nat) : Nat := if f.buf = b ∧ f.released = false then 1 else 0

/-- 1 if the activation has released `b` and will release it again. -/
def window (f : Frame) (b : Nat) : Nat := if f.buf = b ∧ f.released = true then 1 else 0

end Frame

namespace DispPc

def owes (g : Globals) (id : BitVec 64) : DispPc → Nat
  | .lookup b => hasId (g.bufs b).request id
  | .lock b _ => hasId (g.bufs b).request id
  | .dispatch b => hasId (g.bufs b).request id
  | .process f => f.owes id + f.owesError id
  | .failed b => hasId (g.bufs b).request id
  | _ => 0

def active (b : Nat) : DispPc → Nat
  | .read b' => if b' = b then 1 else 0
  | .lookup b' => if b' = b then 1 else 0
  | .lock b' _ => if b' = b then 1 else 0
  | .dispatch b' => if b' = b then 1 else 0
  | .process f => f.active b
  | _ => 0

def window (b : Nat) : DispPc → Nat
  | .process f => f.window b
  | .failed b' => if b' = b then 1 else 0
  | .cleanup b' => if b' = b then 1 else 0
  | _ => 0

end DispPc

namespace WorkerPc

def owes (id : BitVec 64) : WorkerPc → Nat
  | .process f => f.owes id
  | _ => 0

def active (b : Nat) : WorkerPc → Nat
  | .process f => f.active b
  | _ => 0

def window (b : Nat) : WorkerPc → Nat
  | .process f => f.window b
  | .cleanup b' => if b' = b then 1 else 0
  | _ => 0

end WorkerPc

/-- What slot `w` and its thread owe for `id`. -/
def slotOwes (s : State) (id : BitVec 64) (w : Nat) : Nat :=
  (s.g.queue w).countP (fun b => (s.g.bufs b).request.id == id) + (s.pcs w).owes id

def slotActive (s : State) (b w : Nat) : Nat := (s.g.queue w).count b + (s.pcs w).active b

def slotWindow (s : State) (b w : Nat) : Nat := (s.pcs w).window b

def owed (s : State) (id : BitVec 64) : Nat :=
  s.disp.owes s.g id + tally maxThreadCount (slotOwes s id)

def active (s : State) (b : Nat) : Nat := s.disp.active b + tally maxThreadCount (slotActive s b)

def window (s : State) (b : Nat) : Nat := s.disp.window b + tally maxThreadCount (slotWindow s b)

/-! ## Buffer items under the operations -/

section Buffers

variable (g : Globals) (b : Nat)

theorem request_modifyBuf {f : BufferItem → BufferItem}
    (hf : (f (g.bufs b)).request = (g.bufs b).request) (b' : Nat) :
    ((g.modifyBuf b f).bufs b').request = (g.bufs b').request := by
  by_cases hb : b' = b
  · subst hb
    simp only [Globals.modifyBuf, Function.update_self, hf]
  · simp only [Globals.modifyBuf, Function.update_of_ne hb]

theorem inUse_modifyBuf {f : BufferItem → BufferItem}
    (hf : (f (g.bufs b)).inUse = (g.bufs b).inUse) (b' : Nat) :
    ((g.modifyBuf b f).bufs b').inUse = (g.bufs b').inUse := by
  by_cases hb : b' = b
  · subst hb
    simp only [Globals.modifyBuf, Function.update_self, hf]
  · simp only [Globals.modifyBuf, Function.update_of_ne hb]

theorem bufs_modifyBuf_self (f : BufferItem → BufferItem) :
    (g.modifyBuf b f).bufs b = f (g.bufs b) := by
  simp only [Globals.modifyBuf, Function.update_self]

theorem bufs_modifyBuf_ne (f : BufferItem → BufferItem) {b' : Nat} (hb : b' ≠ b) :
    (g.modifyBuf b f).bufs b' = g.bufs b' := by
  simp only [Globals.modifyBuf, Function.update_of_ne hb]

/-- A change of a buffer that leaves its assignment alone. -/
theorem assigned_modifyBuf {f : BufferItem → BufferItem}
    (hf : (f (g.bufs b)).assignedThread = (g.bufs b).assignedThread) {b' w : Nat}
    (h : ((g.modifyBuf b f).bufs b').assignedThread = some w) :
    (g.bufs b').assignedThread = some w := by
  by_cases hb : b' = b
  · subst hb
    rwa [bufs_modifyBuf_self, hf] at h
  · rwa [bufs_modifyBuf_ne g b _ hb] at h

theorem request_releaseBufferItem (b' : Nat) :
    ((g.releaseBufferItem b).bufs b').request = (g.bufs b').request := by
  apply request_modifyBuf
  split <;> rfl

theorem bufs_releaseBufferItem_ne {b' : Nat} (hb : b' ≠ b) :
    (g.releaseBufferItem b).bufs b' = g.bufs b' := bufs_modifyBuf_ne g b _ hb

/-- A release only takes an assignment away. -/
theorem assigned_release {g : Globals} {b b' w : Nat}
    (h : ((g.releaseBufferItem b).bufs b').assignedThread = some w) :
    (g.bufs b').assignedThread = some w := by
  by_cases hb : b' = b
  · subst hb
    simp only [Globals.releaseBufferItem, bufs_modifyBuf_self] at h
    split at h
    · cases h
    · exact h
  · rwa [bufs_releaseBufferItem_ne g b hb] at h

theorem queue_modifyWorker_ne (f : ThreadItem → ThreadItem) {w v : Nat} (hv : v ≠ w) :
    (g.modifyWorker w f).queue v = g.queue v := by
  simp only [Globals.queue, Globals.modifyWorker, Function.update_of_ne hv]

theorem queue_modifyWorker_self (w : Nat) (q : WorkQueue) :
    (g.modifyWorker w fun x => { x with workQueue := q }).queue w = q.contents := by
  simp only [Globals.queue, Globals.modifyWorker, Function.update_self]

end Buffers

/-! ## Who holds a buffer item -/

/-- No two holders, and what an active holder has is in use; buffers are
assigned to existing slots only. -/
structure Holding (s : State) : Prop where
  excl : ∀ b, active s b + window s b ≤ 1
  inUse : ∀ b, 0 < active s b → (s.g.bufs b).inUse = true
  slots : ∀ b w, (s.g.bufs b).assignedThread = some w → w < maxThreadCount

/-- What a step of an activation does to its buffer. -/
structure FrameHolding (g g' : Globals) (f f' : Frame) : Prop where
  buf : f'.buf = f.buf
  active_le : ∀ b, f'.active b ≤ f.active b
  sum_eq : ∀ b, f'.active b + f'.window b = f.active b + f.window b
  inUse : ∀ b, (g.bufs b).inUse = true →
    (g'.bufs b).inUse = true ∨ (f'.active b = 0 ∧ 0 < f.active b)

section Proc

variable {clientId : BitVec 16} {g g' : Globals} {f f' : Frame} {i : Input} {rc : Int}
  {next : ProcNext}

theorem ProcMove.queue (h : ProcMove clientId g f i g' next) (w : Nat) :
    g'.queue w = g.queue w := by
  cases h with
  | issue => rfl
  | finish => exact (Quiet.finishHandler f _ g).queue w
  | receive => rfl
  | unlock => exact (Quiet.unlockWorker g f.worker).queue w
  | post => exact (Quiet.postProcessResponse clientId f.req f.worker _ g).queue w
  | write => rfl
  | release => rfl
  | retireSlot => exact (Quiet.releaseWorkerThread g _).queue w
  | retire => rfl

theorem ProcMove.request (h : ProcMove clientId g f i g' next) (b : Nat) :
    (g'.bufs b).request = (g.bufs b).request := by
  cases h with
  | issue => rfl
  | finish => rw [(Quiet.finishHandler f _ g).bufs]
  | receive => rfl
  | unlock => rw [(Quiet.unlockWorker g f.worker).bufs]
  | post => rw [(Quiet.postProcessResponse clientId f.req f.worker _ g).bufs]
  | write => rfl
  | release => exact request_releaseBufferItem g f.buf b
  | retireSlot => rw [(Quiet.releaseWorkerThread g _).bufs]
  | retire => rfl

theorem ProcMove.holding (h : ProcMove clientId g f i g' (.running f')) :
    FrameHolding g g' f f' := by
  have quiet : ∀ {f' : Frame}, f'.buf = f.buf → f'.released = f.released →
      g'.bufs = g.bufs → FrameHolding g g' f f' := by
    intro f' hbuf hrel hbufs
    refine ⟨hbuf, fun b => ?_, fun b => ?_, fun b hb => .inl (by rw [hbufs]; exact hb)⟩
    · simp only [Frame.active, hbuf, hrel, Nat.le_refl]
    · simp only [Frame.active, Frame.window, hbuf, hrel]
  cases h with
  | issue hstage => exact quiet rfl (by simp [Frame.released, hstage]) rfl
  | finish hstage =>
      exact quiet rfl (by simp [Frame.released, hstage]) (Quiet.finishHandler f _ g).bufs
  | receive hstage => exact quiet rfl (by simp [Frame.released, hstage]) rfl
  | unlock hstage =>
      exact quiet rfl (by simp [Frame.released, hstage]) (Quiet.unlockWorker g f.worker).bufs
  | post hstage =>
      exact quiet rfl (by simp [Frame.released, hstage])
        (Quiet.postProcessResponse clientId f.req f.worker _ g).bufs
  | write hstage => exact quiet rfl (by simp [Frame.released, hstage]) rfl
  | release hstage =>
      have hrel : f.released = false := by simp [Frame.released, hstage]
      refine ⟨rfl, fun b => ?_, fun b => ?_, fun b hb => ?_⟩
      · simp [Frame.active, Frame.released]
      · simp [Frame.active, Frame.window, hrel]
        simp [Frame.released]
      · by_cases hbuf : b = f.buf
        · exact .inr ⟨by simp [Frame.active, Frame.released], by simp [Frame.active, hrel, hbuf]⟩
        · exact .inl (by rw [bufs_releaseBufferItem_ne g f.buf hbuf]; exact hb)

/-- The only step that changes an assignment is the release of the buffer. -/
theorem ProcMove.assigned (h : ProcMove clientId g f i g' next) {b w : Nat}
    (hb : (g'.bufs b).assignedThread = some w) : (g.bufs b).assignedThread = some w := by
  cases h with
  | issue => exact hb
  | finish => rwa [(Quiet.finishHandler f _ g).bufs] at hb
  | receive => exact hb
  | unlock => rwa [(Quiet.unlockWorker g f.worker).bufs] at hb
  | post => rwa [(Quiet.postProcessResponse clientId f.req f.worker _ g).bufs] at hb
  | write => exact hb
  | release => exact assigned_release hb
  | retireSlot => rwa [(Quiet.releaseWorkerThread g _).bufs] at hb
  | retire => exact hb

/-- A step touches no buffer but its own. -/
theorem ProcMove.bufs_ne (h : ProcMove clientId g f i g' next) {b : Nat} (hb : b ≠ f.buf) :
    g'.bufs b = g.bufs b := by
  cases h with
  | issue => rfl
  | finish => rw [(Quiet.finishHandler f _ g).bufs]
  | receive => rfl
  | unlock => rw [(Quiet.unlockWorker g f.worker).bufs]
  | post => rw [(Quiet.postProcessResponse clientId f.req f.worker _ g).bufs]
  | write => rfl
  | release => exact bufs_releaseBufferItem_ne g f.buf hb
  | retireSlot => rw [(Quiet.releaseWorkerThread g _).bufs]
  | retire => rfl

/-- An activation holds its buffer, released or not. -/
theorem Frame.holds (f : Frame) : 0 < f.active f.buf + f.window f.buf := by
  cases hrel : f.released <;> simp [Frame.active, Frame.window, hrel]

/-- When the activation returns it is inside its release window. -/
theorem ProcMove.returned_holding (h : ProcMove clientId g f i g' (.returned rc)) :
    f.released = true ∧ g'.bufs = g.bufs := by
  cases h with
  | retireSlot hstage =>
      exact ⟨by simp [Frame.released, hstage], (Quiet.releaseWorkerThread g _).bufs⟩
  | retire hstage => exact ⟨by simp [Frame.released, hstage], rfl⟩

end Proc

/-! ### The lookup -/

theorem getWorkerThreadForFd_spec {g g' : Globals} {fd : MwSocketFd} {w : Nat}
    (h : g.getWorkerThreadForFd fd = .found w g') : w < maxThreadCount ∧ Quiet g g' := by
  unfold Globals.getWorkerThreadForFd at h
  split at h
  · split at h
    · next w' hw =>
        cases h
        exact ⟨(Globals.availableSlot_spec hw).1, Quiet.acquireSlot g w⟩
    · cases h
  · simp only [] at h
    repeat' split at h
    all_goals cases h
    refine ⟨?_, Quiet.refl g⟩
    next hmax hneg _ _ =>
      have hlt : ((mwSocketGetId fd).setWidth 32).toInt < (maxThreadCount : Int) := by omega
      omega

theorem quiet_assignTo {g g' : Globals} (hq : Quiet g g') (b w b' : Nat) :
    ((assignTo g' b w).bufs b').inUse = (g.bufs b').inUse ∧
      ((assignTo g' b w).bufs b').request = (g.bufs b').request := by
  rw [← hq.bufs]
  exact ⟨inUse_modifyBuf g' b rfl b', request_modifyBuf g' b rfl b'⟩

theorem active_afterLookup (t : MtRequestType) (b w b' : Nat) :
    (afterLookup t b w).active b' = (DispPc.lookup b).active b' := by
  unfold afterLookup
  split <;> rfl

theorem window_afterLookup (t : MtRequestType) (b w b' : Nat) :
    (afterLookup t b w).window b' = (DispPc.lookup b).window b' := by
  unfold afterLookup
  split <;> rfl

/-! ### Holding under a step of the dispatcher -/

namespace Holding

variable {s : State} {g : Globals}

theorem of_disp (h : Holding s) {pc : DispPc} {reads : List MtRequest}
    (hq : ∀ w, g.queue w = s.g.queue w)
    (hle : ∀ b, pc.active b ≤ s.disp.active b)
    (hsum : ∀ b, pc.active b + pc.window b ≤ s.disp.active b + s.disp.window b)
    (huse : ∀ b, (s.g.bufs b).inUse = true → (g.bufs b).inUse = true ∨
      (pc.active b = 0 ∧ 0 < s.disp.active b + s.disp.window b))
    (hslots : ∀ b w, (g.bufs b).assignedThread = some w → w < maxThreadCount) :
    Holding ⟨g, pc, s.pcs, reads⟩ := by
  have htally : ∀ b, tally maxThreadCount (slotActive ⟨g, pc, s.pcs, reads⟩ b) =
      tally maxThreadCount (slotActive s b) := fun b =>
    tally_congr fun w _ => by simp only [slotActive, hq]
  refine ⟨?_, ?_, hslots⟩
  · intro b
    have hexcl := h.excl b
    have hsum := hsum b
    simp only [active, window, htally] at hexcl ⊢
    show pc.active b + _ + (pc.window b + tally maxThreadCount (slotWindow s b)) ≤ 1
    omega
  · intro b hb
    have hexcl := h.excl b
    have hle := hle b
    simp only [active, window, htally] at hexcl hb
    have hold : 0 < active s b := by simp only [active]; omega
    rcases huse b (h.inUse b hold) with hnew | ⟨hzero, hpos⟩
    · exact hnew
    · omega

/-- A queued buffer is none that the dispatcher holds. -/
theorem ne_of_queued (h : Holding s) {b b' w : Nat}
    (hb : 0 < s.disp.active b + s.disp.window b) (hw : w < maxThreadCount)
    (hb' : b' ∈ s.g.queue w) : b' ≠ b := by
  rintro rfl
  have hexcl := h.excl b'
  have hle := le_tally (slotActive s b') hw
  have hcount : 0 < (s.g.queue w).count b' := List.count_pos_iff.mpr hb'
  simp only [active, window, slotActive] at hexcl hle
  omega

/-- The buffer of a worker thread is none that the dispatcher holds. -/
theorem ne_of_disp (h : Holding s) {b b' w : Nat} (hb : 0 < s.disp.active b + s.disp.window b)
    (hw : w < maxThreadCount) (hb' : 0 < (s.pcs w).active b' + (s.pcs w).window b') :
    b ≠ b' := by
  rintro rfl
  have hexcl := h.excl b
  have hact := le_tally (slotActive s b) hw
  have hwin := le_tally (slotWindow s b) hw
  simp only [active, window] at hexcl
  simp only [slotActive] at hact
  simp only [slotWindow] at hwin
  omega

/-- A queued buffer is none that a worker thread is at. -/
theorem ne_of_worker (h : Holding s) {b b' v w : Nat} (hv : v < maxThreadCount)
    (hb : b ∈ s.g.queue v) (hw : w < maxThreadCount)
    (hb' : 0 < (s.pcs w).active b' + (s.pcs w).window b') : b ≠ b' := by
  rintro rfl
  have hexcl := h.excl b
  have hcount : 0 < (s.g.queue v).count b := List.count_pos_iff.mpr hb
  have hwin := le_tally (slotWindow s b) hw
  have hact : 0 < (s.pcs w).active b → 2 ≤ tally maxThreadCount (slotActive s b) := by
    intro hpos
    by_cases hvw : v = w
    · subst hvw
      have := le_tally (slotActive s b) hv
      simp only [slotActive] at this
      omega
    · have := add_le_tally (slotActive s b) hv hw hvw
      simp only [slotActive] at this
      omega
  have hact' := le_tally (slotActive s b) hv
  simp only [active, window] at hexcl
  simp only [slotActive] at hact'
  simp only [slotWindow] at hwin
  by_cases hpos : 0 < (s.pcs w).active b
  · have := hact hpos
    omega
  · omega

/-- Reserving a buffer that nobody holds. -/
theorem reserve (h : Holding s) {b : Nat} (hpc : s.disp = .reserve)
    (hb : s.g.availableBuffer = some b) (hwin : ∀ w < maxThreadCount, (s.pcs w).window b = 0)
    {reads : List MtRequest} :
    Holding ⟨s.g.reserveBufferItem b, .read b, s.pcs, reads⟩ := by
  have hfree : (s.g.bufs b).inUse = false := by simpa using List.find?_some hb
  have hnone : active s b = 0 := by
    by_contra hne
    rw [h.inUse b (by omega)] at hfree
    cases hfree
  have hwindow : window s b = 0 := by
    have hzero : tally maxThreadCount (slotWindow s b) = 0 := tally_eq_zero hwin
    simp only [window, hpc, hzero, DispPc.window]
  refine ⟨?_, ?_, fun b' w hb' => h.slots b' w
    (assigned_modifyBuf s.g b (f := fun x => { x with inUse := true }) rfl hb')⟩
  · intro b'
    show (if b = b' then 1 else 0) + tally maxThreadCount (slotActive s b') +
      (0 + tally maxThreadCount (slotWindow s b')) ≤ 1
    by_cases hbb : b = b'
    · subst hbb
      simp only [active, window] at hnone hwindow
      simp only [if_true]
      omega
    · have := h.excl b'
      simp only [active, window] at this
      simp only [hbb, if_false]
      omega
  · intro b' hb'
    by_cases hbb : b' = b
    · subst hbb
      simp only [Globals.reserveBufferItem, bufs_modifyBuf_self]
    · simp only [Globals.reserveBufferItem, bufs_modifyBuf_ne s.g b _ hbb]
      apply h.inUse
      have hb' : 0 < (if b = b' then 1 else 0) + tally maxThreadCount (slotActive s b') := hb'
      rw [if_neg (Ne.symm hbb)] at hb'
      simp only [active]
      omega

/-- The dispatcher hands its buffer to the queue of slot `w`. -/
theorem active_enqueue {b w : Nat} {q : WorkQueue} (hpc : s.disp = .dispatch b)
    (hw : w < maxThreadCount) (hq : (s.g.workers w).workQueue.enqueue b = some q)
    (reads : List MtRequest) (b' : Nat) : active
      ⟨s.g.modifyWorker w fun x => { x with workQueue := q }, .wake w, s.pcs, reads⟩ b' =
      active s b' := by
  have hself : slotActive
      ⟨s.g.modifyWorker w fun x => { x with workQueue := q }, .wake w, s.pcs, reads⟩ b' w =
      slotActive s b' w + (if b = b' then 1 else 0) := by
    simp only [slotActive, queue_modifyWorker_self]
    simp only [WorkQueue.contents_enqueue hq, List.count_append, List.count_singleton,
      Globals.queue, beq_iff_eq]
    omega
  have hchange := tally_change (f := slotActive s b') (k := slotActive
    ⟨s.g.modifyWorker w fun x => { x with workQueue := q }, .wake w, s.pcs, reads⟩ b') hw
    fun v hv => by simp only [slotActive, queue_modifyWorker_ne s.g _ hv]
  simp only [active, hpc, DispPc.active]
  omega

theorem enqueue (h : Holding s) {b w : Nat} {q : WorkQueue} (hpc : s.disp = .dispatch b)
    (hw : w < maxThreadCount) (hq : (s.g.workers w).workQueue.enqueue b = some q)
    {reads : List MtRequest} :
    Holding ⟨s.g.modifyWorker w fun x => { x with workQueue := q }, .wake w, s.pcs, reads⟩ := by
  have hnew := active_enqueue hpc hw hq reads
  refine ⟨?_, ?_, h.slots⟩
  · intro b'
    have hexcl := h.excl b'
    rw [hnew]
    simp only [window, hpc, DispPc.window] at hexcl ⊢
    exact hexcl
  · intro b' hb'
    rw [hnew] at hb'
    exact h.inUse b' hb'

/-- A step of worker thread `w`: its queue and program counter change, and
nothing of the other slots. -/
theorem of_worker (h : Holding s) {w : Nat} {pc : WorkerPc} (hw : w < maxThreadCount)
    (hq : ∀ v, v ≠ w → g.queue v = s.g.queue v)
    (hle : ∀ b, (g.queue w).count b + pc.active b ≤ slotActive s b w)
    (hsum : ∀ b, (g.queue w).count b + pc.active b + pc.window b ≤
      slotActive s b w + slotWindow s b w)
    (huse : ∀ b, (s.g.bufs b).inUse = true → (g.bufs b).inUse = true ∨
      ((g.queue w).count b + pc.active b = 0 ∧ 0 < slotActive s b w + slotWindow s b w))
    (hslots : ∀ b v, (g.bufs b).assignedThread = some v → (s.g.bufs b).assignedThread = some v) :
    Holding ⟨g, s.disp, Function.update s.pcs w pc, s.reads⟩ := by
  have hact : ∀ b, tally maxThreadCount
      (slotActive ⟨g, s.disp, Function.update s.pcs w pc, s.reads⟩ b) + slotActive s b w =
      tally maxThreadCount (slotActive s b) + ((g.queue w).count b + pc.active b) := by
    intro b
    have := tally_change (f := slotActive s b)
      (k := slotActive ⟨g, s.disp, Function.update s.pcs w pc, s.reads⟩ b) hw
      fun v hv => by simp only [slotActive, hq v hv, Function.update_of_ne hv]
    simpa only [slotActive, Function.update_self] using this
  have hwin : ∀ b, tally maxThreadCount
      (slotWindow ⟨g, s.disp, Function.update s.pcs w pc, s.reads⟩ b) + slotWindow s b w =
      tally maxThreadCount (slotWindow s b) + pc.window b := by
    intro b
    have := tally_change (f := slotWindow s b)
      (k := slotWindow ⟨g, s.disp, Function.update s.pcs w pc, s.reads⟩ b) hw
      fun v hv => by simp only [slotWindow, Function.update_of_ne hv]
    simpa only [slotWindow, Function.update_self] using this
  have hmem := fun b => le_tally (slotActive s b) hw
  have hmemw := fun b => le_tally (slotWindow s b) hw
  refine ⟨?_, ?_, fun b v hb => h.slots b v (hslots b v hb)⟩
  · intro b
    have hexcl := h.excl b
    have := hact b
    have := hwin b
    have := hsum b
    have := hmem b
    have := hmemw b
    simp only [active, window] at hexcl ⊢
    omega
  · intro b hb
    have hexcl := h.excl b
    have := hact b
    have := hle b
    have := hmem b
    have := hmemw b
    simp only [active, window] at hexcl hb
    have hold : 0 < active s b := by simp only [active]; omega
    rcases huse b (h.inUse b hold) with hnew | ⟨hzero, hpos⟩
    · exact hnew
    · omega

theorem proc_active_released {f : Frame} (hrel : f.released = true) (b : Nat) :
    f.active b = 0 ∧ f.window b = if f.buf = b then 1 else 0 := by
  simp [Frame.active, Frame.window, hrel]

/-- Releasing a buffer touches no other one. -/
theorem inUse_release (g : Globals) (b b' : Nat) (h : (g.bufs b').inUse = true) :
    ((g.releaseBufferItem b).bufs b').inUse = true ∨ b' = b := by
  by_cases hb : b' = b
  · exact .inr hb
  · exact .inl (by rw [bufs_releaseBufferItem_ne g b hb]; exact h)

theorem slots_quiet (h : Holding s) (hquiet : Quiet s.g g) (b w : Nat)
    (hb : (g.bufs b).assignedThread = some w) : w < maxThreadCount := by
  rw [hquiet.bufs] at hb
  exact h.slots b w hb

theorem slots_assignTo (h : Holding s) (hquiet : Quiet s.g g) {b w : Nat}
    (hw : w < maxThreadCount) (b' w' : Nat)
    (hb' : ((assignTo g b w).bufs b').assignedThread = some w') : w' < maxThreadCount := by
  by_cases hbb : b' = b
  · subst hbb
    simp only [assignTo, bufs_modifyBuf_self] at hb'
    cases hb'
    exact hw
  · rw [assignTo, bufs_modifyBuf_ne g b _ hbb] at hb'
    exact h.slots_quiet hquiet b' w' hb'

/-- A step that leaves buffers and queues alone, while the dispatcher gives up
its hold or keeps it. -/
theorem of_quiet (h : Holding s) {pc : DispPc} {reads : List MtRequest} (hquiet : Quiet s.g g)
    (hle : ∀ b, pc.active b ≤ s.disp.active b)
    (hsum : ∀ b, pc.active b + pc.window b ≤ s.disp.active b + s.disp.window b) :
    Holding ⟨g, pc, s.pcs, reads⟩ :=
  h.of_disp hquiet.queue hle hsum (fun b hb => .inl (by rw [hquiet.bufs]; exact hb))
    (h.slots_quiet hquiet)

theorem disp_move {clientId : BitVec 16} (h : Holding s) {i : Input} {pc : DispPc}
    {reads : List MtRequest} (hmove : DispMove clientId s i g pc reads)
    (hguard : ∀ b, s.disp = .reserve → s.g.availableBuffer = some b →
      ∀ w < maxThreadCount, (s.pcs w).window b = 0) :
    Holding ⟨g, pc, s.pcs, reads⟩ := by
  cases hmove with
  | full hpc => exact h.of_quiet (Quiet.refl _) (by simp [hpc]) (by simp [hpc])
  | reserve hpc hb => exact h.reserve hpc hb (hguard _ hpc hb)
  | stop hpc =>
      exact h.of_disp (fun _ => rfl) (by simp [DispPc.active])
        (by simp [DispPc.active, DispPc.window])
        (fun b hb => .inl (by rw [inUse_modifyBuf s.g _ rfl]; exact hb))
        fun b w hb => h.slots b w (assigned_modifyBuf s.g _ rfl hb)
  | read hpc =>
      exact h.of_disp (fun _ => rfl) (by simp [hpc, DispPc.active])
        (by simp [hpc, DispPc.active, DispPc.window])
        (fun b hb => .inl (by rw [inUse_modifyBuf s.g _ rfl]; exact hb))
        fun b w hb => h.slots b w (assigned_modifyBuf s.g _ rfl hb)
  | @noWorker b hpc =>
      refine h.of_disp (fun _ => rfl) (by simp [hpc, DispPc.active])
        (by simp [hpc, DispPc.active, DispPc.window])
        (fun b hb => .inl (by rw [inUse_modifyBuf s.g _ rfl]; exact hb)) fun b' w hb' => ?_
      by_cases hbb : b' = b
      · subst hbb
        rw [bufs_modifyBuf_self] at hb'
        cases hb'
      · rw [bufs_modifyBuf_ne s.g b _ hbb] at hb'
        exact h.slots b' w hb'
  | existing hpc ht hw =>
      obtain ⟨hlt, hq⟩ := getWorkerThreadForFd_spec hw
      exact h.of_disp hq.queue (by simp [hpc, active_afterLookup])
        (by simp [hpc, active_afterLookup, window_afterLookup])
        (fun b hb => .inl (by rw [(quiet_assignTo hq _ _ b).1]; exact hb))
        (h.slots_assignTo hq hlt)
  | @newWorker b w hpc ht hw =>
      have hq := Quiet.acquireSlot s.g w
      exact h.of_disp hq.queue (by simp [hpc, active_afterLookup])
        (by simp [hpc, active_afterLookup, window_afterLookup])
        (fun b hb => .inl (by rw [(quiet_assignTo hq _ _ b).1]; exact hb))
        (h.slots_assignTo hq (Globals.availableSlot_spec hw).1)
  | lookupFailed hpc =>
      exact h.of_quiet (Quiet.refl _) (by simp [DispPc.active])
        (by simp [hpc, DispPc.active, DispPc.window])
  | @lock b w hpc =>
      exact h.of_quiet (Quiet.modifyWorker s.g w rfl) (by simp [hpc, DispPc.active])
        (by simp [hpc, DispPc.active, DispPc.window])
  | start hpc =>
      exact h.of_quiet (Quiet.refl _)
        (by simp [hpc, DispPc.active, Frame.start, Frame.active, Frame.released])
        (by simp [hpc, DispPc.active, DispPc.window, Frame.start, Frame.active, Frame.window,
          Frame.released])
  | enqueue hpc hnow hw hq => exact h.enqueue hpc (h.slots _ _ hw) hq
  | @queueFull b w hpc =>
      exact h.of_quiet (Quiet.releaseOplock s.g w) (by simp [DispPc.active])
        (by simp [hpc, DispPc.active, DispPc.window])
  | running hpc hproc =>
      have hf := hproc.holding
      refine h.of_disp hproc.queue (fun b => ?_) (fun b => ?_) (fun b hb => ?_)
        fun b w hb => h.slots b w (hproc.assigned hb)
      · simp only [hpc, DispPc.active]
        exact hf.active_le b
      · simp only [hpc, DispPc.active, DispPc.window]
        exact (hf.sum_eq b).le
      · simp only [hpc, DispPc.active, DispPc.window]
        rcases hf.inUse b hb with hnew | ⟨hzero, hpos⟩
        · exact .inl hnew
        · exact .inr ⟨hzero, by omega⟩
  | @returned f i g rc hpc hproc =>
      -- the buffer has been released, and is about to be released again
      obtain ⟨hrel, hbufs⟩ := hproc.returned_holding
      have hact : ∀ b, (if rc ≠ 0 then DispPc.failed f.buf else .cleanup f.buf).active b = 0 := by
        intro b
        split <;> rfl
      have hwin : ∀ b, (if rc ≠ 0 then DispPc.failed f.buf else .cleanup f.buf).window b =
          if f.buf = b then 1 else 0 := by
        intro b
        split <;> rfl
      refine h.of_disp hproc.queue (fun b => ?_) (fun b => ?_) (fun b hb => ?_)
        fun b w hb => h.slots b w (hproc.assigned hb)
      · rw [hact]
        exact Nat.zero_le _
      · rw [hact, hwin, hpc]
        simp only [DispPc.active, DispPc.window, proc_active_released hrel]
        exact le_refl _
      · exact .inl (by rw [hbufs]; exact hb)
  | failed hpc =>
      exact h.of_disp (fun _ => rfl) (by simp [DispPc.active])
        (by simp [hpc, DispPc.active, DispPc.window]) (fun _ hb => .inl hb) h.slots
  | @cleanup b hpc =>
      refine h.of_disp (fun _ => rfl) (by simp [DispPc.active])
        (by simp [DispPc.active, DispPc.window]) (fun b' hb => ?_)
        fun b' w hb' => h.slots b' w (assigned_release hb')
      rcases inUse_release s.g b b' hb with hnew | rfl
      · exact .inl hnew
      · exact .inr ⟨rfl, by simp [hpc, DispPc.active, DispPc.window]⟩
  | @wake w hpc =>
      exact h.of_quiet (Quiet.modifyWorker s.g w rfl) (by simp [DispPc.active])
        (by simp [DispPc.active, DispPc.window])
  | finiSet hpc =>
      exact h.of_disp (fun _ => rfl) (by simp [DispPc.active])
        (by simp [DispPc.active, DispPc.window]) (fun _ hb => .inl hb) h.slots
  | @finiPost n hpc =>
      exact h.of_quiet (Quiet.modifyWorker s.g n rfl) (by simp [DispPc.active])
        (by simp [DispPc.active, DispPc.window])
  | finiDone hpc =>
      exact h.of_quiet (Quiet.refl _) (by simp [DispPc.active])
        (by simp [DispPc.active, DispPc.window])
  | finiJoin hpc =>
      exact h.of_quiet (Quiet.refl _) (by simp [DispPc.active])
        (by simp [DispPc.active, DispPc.window])

theorem worker_move {clientId : BitVec 16} (h : Holding s) {w : Nat} {i : Input} {pc : WorkerPc}
    (hw : w < maxThreadCount) (hmove : WorkerMove clientId s w i g pc) :
    Holding ⟨g, s.disp, Function.update s.pcs w pc, s.reads⟩ := by
  cases hmove with
  | wait hpc =>
      have hq := Quiet.modifyWorker s.g w (f := fun x =>
        { x with awaitingWorkSem := x.awaitingWorkSem - 1 }) rfl
      exact h.of_worker hw (fun v _ => hq.queue v)
        (fun b => by simp [slotActive, hq.queue w, WorkerPc.active])
        (fun b => by simp [slotActive, hq.queue w, WorkerPc.active, WorkerPc.window]; omega)
        (fun b hb => .inl hb) fun _ _ hb => hb
  | empty hpc =>
      have hact : ∀ b, (if s.g.shutdownPending then WorkerPc.exited else .waiting).active b = 0 := by
        intro b
        split <;> rfl
      have hwin : ∀ b, (if s.g.shutdownPending then WorkerPc.exited else .waiting).window b = 0 := by
        intro b
        split <;> rfl
      exact h.of_worker hw (fun _ _ => rfl)
        (fun b => by rw [hact, slotActive]; omega)
        (fun b => by rw [hact, hwin, slotActive]; omega) (fun b hb => .inl hb) fun _ _ hb => hb
  | @dequeue b q hpc hq =>
      -- the buffer goes from the queue to the activation: the sum is the same
      have hcontents : s.g.queue w = b :: q.contents := WorkQueue.contents_dequeue hq
      have hactive : ∀ b', ((Frame.start clientId
          (s.g.modifyWorker w fun x => { x with workQueue := q }) b)).active b' =
          if b = b' then 1 else 0 := fun b' => by
        simp [Frame.active, Frame.start, Frame.released]
      have hwindow : ∀ b', ((Frame.start clientId
          (s.g.modifyWorker w fun x => { x with workQueue := q }) b)).window b' = 0 := fun b' => by
        simp [Frame.window, Frame.start, Frame.released]
      have hcount : ∀ b', (s.g.queue w).count b' = q.contents.count b' +
          if b = b' then 1 else 0 := fun b' => by
        rw [hcontents, List.count_cons]
        simp only [beq_iff_eq]
      refine h.of_worker hw (fun v hv => queue_modifyWorker_ne s.g _ hv) (fun b' => ?_)
        (fun b' => ?_) (fun b' hb => .inl hb) fun _ _ hb => hb
      · rw [queue_modifyWorker_self, slotActive, hcount]
        simp only [WorkerPc.active, hactive]
        omega
      · rw [queue_modifyWorker_self, slotActive, hcount]
        simp only [WorkerPc.active, WorkerPc.window, hactive, hwindow]
        omega
  | @running f i g f' hpc hproc =>
      have hf := hproc.holding
      refine h.of_worker hw (fun v _ => hproc.queue v) (fun b => ?_) (fun b => ?_) (fun b hb => ?_)
        fun _ _ hb => hproc.assigned hb
      · have := hf.active_le b
        simp only [slotActive, hproc.queue w, hpc, WorkerPc.active]
        omega
      · have := hf.sum_eq b
        simp only [slotActive, slotWindow, hproc.queue w, hpc, WorkerPc.active, WorkerPc.window]
        omega
      · have hexcl := h.excl b
        have hact := le_tally (slotActive s b) hw
        simp only [active, window] at hexcl
        simp only [slotActive, slotWindow, hproc.queue w, hpc, WorkerPc.active,
          WorkerPc.window] at hact ⊢
        rcases hf.inUse b hb with hnew | ⟨hzero, hpos⟩
        · exact .inl hnew
        · exact .inr ⟨by omega, by omega⟩
  | @returned f i g rc hpc hproc =>
      obtain ⟨hrel, hbufs⟩ := hproc.returned_holding
      refine h.of_worker hw (fun v _ => hproc.queue v) (fun b => ?_) (fun b => ?_)
        (fun b hb => .inl (by rw [hbufs]; exact hb)) fun _ _ hb => hproc.assigned hb
      · simp only [slotActive, hproc.queue w, WorkerPc.active]
        omega
      · simp only [slotActive, slotWindow, hproc.queue w, hpc, WorkerPc.active, WorkerPc.window,
          proc_active_released hrel]
        exact le_refl _
  | @cleanup b hpc =>
      have hwin : slotWindow s b w = 1 := by simp [slotWindow, hpc, WorkerPc.window]
      refine h.of_worker hw (fun _ _ => rfl) (fun b' => ?_) (fun b' => ?_) (fun b' hb => ?_)
        fun _ _ hb => assigned_release hb
      · show (s.g.queue w).count b' + 0 ≤ _
        rw [slotActive]
        omega
      · show (s.g.queue w).count b' + 0 + 0 ≤ _
        rw [slotActive]
        omega
      · rcases inUse_release s.g b b' hb with hnew | rfl
        · exact .inl hnew
        · -- the worker in its window is the one holder, so nobody is active on the buffer
          have hexcl := h.excl b'
          have hact := le_tally (slotActive s b') hw
          have hmem := le_tally (slotWindow s b') hw
          simp only [active, window] at hexcl
          refine .inr ⟨?_, by omega⟩
          show (s.g.queue w).count b' + 0 = 0
          rw [slotActive] at hact
          omega

end Holding

end MagicWand.Ins
