import MagicWand.Ins.Placement

/-!
# The operation lock of a worker

The dispatcher takes the operation lock of a slot for every send, shutdown and
close, before it queues or processes the request. `process_buffer_item` gives
the lock back when the handler has returned, whatever its request: it asks a
flag of the slot, not whether its own request took the lock. A request that
needs no lock and finishes while another one waits in the queue with the lock
gives that one's lock away.

The history of a run records who took the lock and on whose behalf it was
posted.
-/

namespace MagicWand.Ins

open Foundation

/-! ## The history of the locks -/

inductive LockMark where
  | acquire (w : Nat) (id : BitVec 64)
  | post (w : Nat) (id : BitVec 64)
deriving DecidableEq, Repr

/-- The post of a worker's lock, if the lock is held, by the request `id`. -/
def postMarks (g : Globals) (id : BitVec 64) : Option Nat → List LockMark
  | some w => if (g.workers w).oplockAcquired = true then [.post w id] else []
  | none => []

def Frame.lockMarks (g : Globals) (f : Frame) : List LockMark :=
  match f.stage with
  | .unlock _ _ => postMarks g f.req.id f.worker
  | _ => []

/-- The slot whose queue is full when the request in `b` is to be queued. -/
def Globals.fullQueue (g : Globals) (b : Nat) : Option Nat :=
  match (g.bufs b).assignedThread with
  | some w =>
      if processNow (g.bufs b).request.type = false ∧
        ((g.workers w).workQueue.enqueue b).isNone = true then some w else none
  | none => none

def lockMarks (s : State) : Event → List LockMark
  | .disp _ =>
      match s.disp with
      | .lock b w => [.acquire w (s.g.bufs b).request.id]
      | .dispatch b => postMarks s.g (s.g.bufs b).request.id (s.g.fullQueue b)
      | .process f => f.lockMarks s.g
      | _ => []
  | .worker w _ =>
      match s.pcs w with
      | .process f => f.lockMarks s.g
      | _ => []

/-- The request that holds the lock of `w`, after one more mark. `none` means
that the lock was taken twice, or posted by a request that did not hold it. -/
def holderAfter (w : Nat) (holder : Option (Option (BitVec 64))) :
    LockMark → Option (Option (BitVec 64))
  | .acquire w' id => if w' = w then (if holder = some none then some (some id) else none) else holder
  | .post w' id => if w' = w then (if holder = some (some id) then some none else none) else holder

/-- Who holds the lock of `w`, if it was posted exactly once for each time it
was acquired, by the request it was acquired for. -/
def lockHolder (seen : List LockMark) (w : Nat) : Option (Option (BitVec 64)) :=
  seen.foldl (holderAfter w) (some none)

theorem lockHolder_append (seen ms : List LockMark) (w : Nat) :
    lockHolder (seen ++ ms) w = ms.foldl (holderAfter w) (lockHolder seen w) := by
  rw [lockHolder, List.foldl_append]
  rfl

/-! ## Who has the lock -/

/-- The activation is at a request that needs the lock of `w`, and its handler
has not returned. -/
def Frame.executing (w : Nat) (f : Frame) : List (BitVec 64) :=
  match f.stage with
  | .call _ _ _ =>
      if f.worker = some w ∧ requiresOplock f.req.type = true then [f.req.id] else []
  | _ => []

/-- The same, up to the post of the lock. -/
def Frame.lockers (w : Nat) (f : Frame) : List (BitVec 64) :=
  match f.stage with
  | .call _ _ _ =>
      if f.worker = some w ∧ requiresOplock f.req.type = true then [f.req.id] else []
  | .unlock _ _ =>
      if f.worker = some w ∧ requiresOplock f.req.type = true then [f.req.id] else []
  | _ => []

/-- The requests in the queue of `w` that took its lock. -/
def queueLockers (g : Globals) (w : Nat) : List (BitVec 64) :=
  ((g.queue w).filter fun b => requiresOplock (g.bufs b).request.type).map fun b =>
    (g.bufs b).request.id

def WorkerPc.executing (w : Nat) : WorkerPc → List (BitVec 64)
  | .process f => f.executing w
  | _ => []

def WorkerPc.lockers (w : Nat) : WorkerPc → List (BitVec 64)
  | .process f => f.lockers w
  | _ => []

/-- The request that the dispatcher took the lock for, and has neither queued
nor started. -/
def DispPc.dispatching (g : Globals) (w : Nat) : DispPc → List (BitVec 64)
  | .dispatch b =>
      if (g.bufs b).assignedThread = some w ∧ requiresOplock (g.bufs b).request.type = true
      then [(g.bufs b).request.id] else []
  | _ => []

def DispPc.executing (w : Nat) : DispPc → List (BitVec 64)
  | .process f => f.executing w
  | _ => []

def DispPc.lockers (g : Globals) (w : Nat) : DispPc → List (BitVec 64)
  | .dispatch b => DispPc.dispatching g w (.dispatch b)
  | .process f => f.lockers w
  | _ => []

/-- The requests that took the lock of `w` and have not been executed to the end
of their handler: those being executed, by the worker thread or by the
dispatcher, those in the queue, and the one on its way there. -/
def unfinished (s : State) (w : Nat) : List (BitVec 64) :=
  (s.pcs w).executing w ++ queueLockers s.g w ++ (s.disp.dispatching s.g w ++ s.disp.executing w)

/-- Those that took the lock and have not posted it. -/
def lockers (s : State) (w : Nat) : List (BitVec 64) :=
  (s.pcs w).lockers w ++ (queueLockers s.g w ++ s.disp.lockers s.g w)

theorem Frame.executing_sublist (f : Frame) (w : Nat) :
    (f.executing w).Sublist (f.lockers w) := by
  unfold Frame.executing Frame.lockers
  cases f.stage <;> first | exact List.Sublist.refl _ | exact List.nil_sublist _

theorem unfinished_sublist (s : State) (w : Nat) : (unfinished s w).Sublist (lockers s w) := by
  rw [unfinished, lockers, List.append_assoc]
  refine List.Sublist.append ?_ (List.Sublist.append (List.Sublist.refl _) ?_)
  · cases s.pcs w with
    | process f => exact f.executing_sublist w
    | _ => exact List.Sublist.refl _
  · cases s.disp with
    | process f => exact f.executing_sublist w
    | dispatch b =>
        rw [show (DispPc.dispatch b).executing w = [] from rfl, List.append_nil]
        exact List.Sublist.refl _
    | _ => exact List.Sublist.refl _

/-! ## Steps that give back their own lock -/

/-- A request of this type may give back the lock of its worker: it took the
lock itself, or the lock is not held. -/
def givesBackOwn (g : Globals) (t : MtRequestType) : Option Nat → Prop
  | some w => requiresOplock t = true ∨ (g.workers w).oplockAcquired = false
  | none => True

instance (g : Globals) (t : MtRequestType) (worker : Option Nat) :
    Decidable (givesBackOwn g t worker) := by
  cases worker <;> unfold givesBackOwn <;> infer_instance

/-- When the handler of a request that needs no lock has returned, nobody holds
the lock of its worker. -/
def Frame.unlocksOwn (g : Globals) (f : Frame) : Prop :=
  match f.stage with
  | .unlock _ _ => givesBackOwn g f.req.type f.worker
  | _ => True

instance (g : Globals) (f : Frame) : Decidable (f.unlocksOwn g) := by
  delta Frame.unlocksOwn
  generalize f.stage = stage
  rcases stage <;> infer_instance

def unlockingOwn (s : State) : Event → Prop
  | .disp _ =>
      match s.disp with
      | .dispatch b => givesBackOwn s.g (s.g.bufs b).request.type (s.g.fullQueue b)
      | .process f => f.unlocksOwn s.g
      | _ => True
  | .worker w _ =>
      match s.pcs w with
      | .process f => f.unlocksOwn s.g
      | _ => True

instance (s : State) : (e : Event) → Decidable (unlockingOwn s e)
  | .disp i => by
      dsimp only [unlockingOwn]
      generalize s.disp = pc
      rcases pc <;> infer_instance
  | .worker w i => by
      dsimp only [unlockingOwn]
      generalize s.pcs w = pc
      rcases pc <;> infer_instance

def lockStep (s : State) (e : Event) : Prop := releasedOnce s e ∧ unlockingOwn s e

instance (s : State) (e : Event) : Decidable (lockStep s e) :=
  inferInstanceAs (Decidable (_ ∧ _))

/-! ## One slot -/

/-- The lock of `w` is free and nobody has it, or one request has it. -/
inductive SlotLock (g : Globals) (w : Nat) :
    List (BitVec 64) → Option (Option (BitVec 64)) → Prop where
  | free (hlock : (g.workers w).oplock = 1) (hflag : (g.workers w).oplockAcquired = false) :
      SlotLock g w [] (some none)
  | held {id} (hlock : (g.workers w).oplock = 0) (hflag : (g.workers w).oplockAcquired = true) :
      SlotLock g w [id] (some (some id))

/-- The locks of all slots are the same. -/
def SameLocks (g g' : Globals) : Prop :=
  ∀ w, (g'.workers w).oplock = (g.workers w).oplock ∧
    (g'.workers w).oplockAcquired = (g.workers w).oplockAcquired

namespace SameLocks

theorem refl (g : Globals) : SameLocks g g := fun _ => ⟨rfl, rfl⟩

/-- A change of a slot that leaves its lock alone. -/
theorem modifyWorker (g : Globals) (w : Nat) {f : ThreadItem → ThreadItem}
    (hlock : (f (g.workers w)).oplock = (g.workers w).oplock)
    (hflag : (f (g.workers w)).oplockAcquired = (g.workers w).oplockAcquired) :
    SameLocks g (g.modifyWorker w f) := by
  intro v
  by_cases hv : v = w
  · subst hv
    simp only [Globals.modifyWorker, Function.update_self, hlock, hflag, and_self]
  · simp only [Globals.modifyWorker, Function.update_of_ne hv, and_self]

theorem acquireSlot (g : Globals) (w : Nat) : SameLocks g (g.acquireSlot w) :=
  modifyWorker g w rfl rfl

theorem finishHandler (f : Frame) (r : HandlerResult) (g : Globals) :
    SameLocks g (Ins.finishHandler f r g) := by
  unfold Ins.finishHandler
  simp only []
  split <;> exact fun _ => ⟨rfl, rfl⟩

theorem releaseWorkerThread (g : Globals) (w : Nat) : SameLocks g (g.releaseWorkerThread w) := by
  intro v
  exact modifyWorker { g with net := _ } w rfl rfl v

theorem postProcessResponse (clientId : BitVec 16) (req : MtRequest) (worker : Option Nat)
    (resp : MtResponse) (g : Globals) :
    SameLocks g (Globals.postProcessResponse clientId req worker resp g).2 := by
  have update : ∀ g : Globals, SameLocks g g.updateListeningPorts := by
    intro g
    unfold Globals.updateListeningPorts
    split <;> exact fun _ => ⟨rfl, rfl⟩
  unfold Globals.postProcessResponse
  simp only []
  split
  · intro v
    rw [(update _ v).1, (update _ v).2]
    unfold Globals.assignAccepted
    split
    · exact ⟨rfl, rfl⟩
    · next w _ => exact acquireSlot g w v
  · exact update g

theorem getWorkerThreadForFd {g g' : Globals} {fd : MwSocketFd} {w : Nat}
    (h : g.getWorkerThreadForFd fd = .found w g') : SameLocks g g' := by
  unfold Globals.getWorkerThreadForFd at h
  split at h
  · split at h
    · cases h
      exact acquireSlot g _
    · cases h
  · simp only [] at h
    repeat' split at h
    all_goals cases h
    exact refl g

end SameLocks

theorem releaseOplock_ne (g : Globals) {w v : Nat} (hv : v ≠ w) :
    (g.releaseOplock w).workers v = g.workers v := by
  unfold Globals.releaseOplock
  split
  · simp only [Globals.modifyWorker, Function.update_of_ne hv]
  · rfl

namespace SlotLock

variable {g g' : Globals} {w : Nat} {l l₁ l₂ : List (BitVec 64)} {id : BitVec 64}
  {holder : Option (Option (BitVec 64))}

theorem length_le (h : SlotLock g w l holder) : l.length ≤ 1 := by
  cases h with
  | free => exact Nat.zero_le _
  | held => exact Nat.le_refl _

theorem holder_eq (h : SlotLock g w l holder) : holder = some l.head? := by
  cases h with
  | free => rfl
  | held => rfl

theorem congr (h : SlotLock g w l holder)
    (hlock : (g'.workers w).oplock = (g.workers w).oplock)
    (hflag : (g'.workers w).oplockAcquired = (g.workers w).oplockAcquired) :
    SlotLock g' w l holder := by
  cases h with
  | free hl hf => exact .free (hlock.trans hl) (hflag.trans hf)
  | held hl hf => exact .held (hlock.trans hl) (hflag.trans hf)

/-- Taking the lock: nobody had it. -/
theorem acquire (h : SlotLock g w l holder) (hsem : 0 < (g.workers w).oplock) (id : BitVec 64) :
    l = [] ∧ SlotLock (g.modifyWorker w fun x =>
      { x with oplock := x.oplock - 1, oplockAcquired := true }) w [id]
      (holderAfter w holder (.acquire w id)) := by
  cases h with
  | held hl => omega
  | free hl hf =>
      refine ⟨rfl, ?_⟩
      simp only [holderAfter, if_true]
      refine .held ?_ ?_
      · simp only [Globals.modifyWorker, Function.update_self, hl]
      · simp only [Globals.modifyWorker, Function.update_self]

/-- Posting the lock on behalf of a request that has it. -/
theorem post (h : SlotLock g w (l₁ ++ id :: l₂) holder) :
    (g.workers w).oplockAcquired = true ∧
      SlotLock (g.releaseOplock w) w (l₁ ++ l₂) (holderAfter w holder (.post w id)) := by
  generalize hl : l₁ ++ id :: l₂ = l at h
  cases h with
  | free => simp at hl
  | held hlock hflag =>
      obtain ⟨rfl, hid, rfl⟩ : l₁ = [] ∧ id = _ ∧ l₂ = [] := by
        cases l₁ with
        | nil =>
            simp only [List.nil_append, List.cons.injEq] at hl
            exact ⟨rfl, hl⟩
        | cons a l₁ => simp at hl
      subst hid
      refine ⟨hflag, ?_⟩
      simp only [holderAfter, if_true, List.append_nil]
      rw [Globals.releaseOplock, if_pos hflag]
      refine .free ?_ ?_
      · simp only [Globals.modifyWorker, Function.update_self, hlock]
      · simp only [Globals.modifyWorker, Function.update_self]

/-- The end of a request that gives back its own lock only; `mine` is its part
in the requests that have the lock. -/
theorem giveBack (id : BitVec 64) {worker : Option Nat} {t : MtRequestType} {mine : List (BitVec 64)}
    (h : SlotLock g w (l₁ ++ (mine ++ l₂)) holder) (hown : givesBackOwn g t worker)
    (hmine : mine = if worker = some w ∧ requiresOplock t = true then [id] else []) :
    SlotLock (unlockWorker worker g) w (l₁ ++ l₂)
      ((postMarks g id worker).foldl (holderAfter w) holder) := by
  cases worker with
  | none =>
      rw [if_neg (by simp)] at hmine
      subst hmine
      exact h
  | some v =>
      by_cases hv : v = w
      · subst hv
        by_cases hreq : requiresOplock t = true
        · -- The request has the lock, and posts it.
          rw [if_pos ⟨rfl, hreq⟩] at hmine
          subst hmine
          obtain ⟨hflag, hpost⟩ := h.post
          have hmarks : postMarks g id (some v) = [.post v id] := by
            simp only [postMarks, hflag, if_true]
          rw [hmarks]
          exact hpost
        · -- The request has no lock, and nobody has.
          have hflag : (g.workers v).oplockAcquired = false := hown.resolve_left hreq
          rw [if_neg (fun hc => hreq hc.2)] at hmine
          subst hmine
          simpa [postMarks, hflag, unlockWorker, Globals.releaseOplock] using h
      · rw [if_neg (by simp [hv])] at hmine
        subst hmine
        have hmarks : (postMarks g id (some v)).foldl (holderAfter w) holder = holder := by
          simp only [postMarks]
          split
          · simp only [List.foldl_cons, List.foldl_nil, holderAfter, if_neg hv]
          · rfl
        rw [hmarks]
        refine h.congr ?_ ?_ <;> simp only [unlockWorker, releaseOplock_ne g (Ne.symm hv)]

end SlotLock

/-! ## Steps -/

theorem queueLockers_congr {g g' : Globals} {w : Nat} (hq : g'.queue w = g.queue w)
    (hr : ∀ b ∈ g.queue w, (g'.bufs b).request = (g.bufs b).request) :
    queueLockers g' w = queueLockers g w := by
  have hfilter : (g.queue w).filter (fun b => requiresOplock (g'.bufs b).request.type) =
      (g.queue w).filter fun b => requiresOplock (g.bufs b).request.type :=
    List.filter_congr fun b hb => by rw [hr b hb]
  rw [queueLockers, queueLockers, hq, hfilter]
  exact List.map_congr_left fun b hb => by rw [hr b (List.mem_filter.mp hb).1]

/-- Every step of an activation but the post of the lock leaves the locks alone. -/
theorem ProcMove.locks {clientId : BitVec 16} {g g' : Globals} {f : Frame} {i : Input}
    {next : ProcNext} (h : ProcMove clientId g f i g' next) :
    (SameLocks g g' ∧ f.lockMarks g = [] ∧ (∀ f', next = .running f' → ∀ w,
        f'.lockers w = f.lockers w) ∧ ∀ rc, next = .returned rc → ∀ w, f.lockers w = []) ∨
      ∃ rc resp, f.stage = .unlock rc resp ∧ g' = unlockWorker f.worker g ∧
        next = .running { f with stage := .post rc resp } := by
  cases h with
  | issue hstage =>
      refine .inl ⟨SameLocks.refl g, by simp [Frame.lockMarks, hstage], ?_, fun rc hc => by cases hc⟩
      rintro f' ⟨⟩ w
      simp only [Frame.lockers, hstage]
  | finish hstage =>
      refine .inl ⟨SameLocks.finishHandler f _ g, by simp [Frame.lockMarks, hstage], ?_,
        fun rc hc => by cases hc⟩
      rintro f' ⟨⟩ w
      simp only [Frame.lockers, hstage]
  | receive hstage =>
      refine .inl ⟨SameLocks.refl g, by simp [Frame.lockMarks, hstage], ?_, fun rc hc => by cases hc⟩
      rintro f' ⟨⟩ w
      simp only [Frame.lockers, hstage]
  | unlock hstage => exact .inr ⟨_, _, hstage, rfl, rfl⟩
  | post hstage =>
      refine .inl ⟨SameLocks.postProcessResponse clientId f.req f.worker _ g,
        by simp [Frame.lockMarks, hstage], ?_, fun rc hc => by cases hc⟩
      rintro f' ⟨⟩ w
      simp only [Frame.lockers, hstage]
  | write hstage =>
      refine .inl ⟨SameLocks.refl g, by simp [Frame.lockMarks, hstage], ?_, fun rc hc => by cases hc⟩
      rintro f' ⟨⟩ w
      simp only [Frame.lockers, hstage]
  | release hstage =>
      refine .inl ⟨SameLocks.refl g, by simp [Frame.lockMarks, hstage], ?_, fun rc hc => by cases hc⟩
      rintro f' ⟨⟩ w
      simp only [Frame.lockers, hstage]
  | retireSlot hstage =>
      refine .inl ⟨SameLocks.releaseWorkerThread g _, by simp [Frame.lockMarks, hstage],
        fun f' hc => (by cases hc), fun rc _ w => ?_⟩
      simp only [Frame.lockers, hstage]
  | retire hstage =>
      refine .inl ⟨SameLocks.refl g, by simp [Frame.lockMarks, hstage],
        fun f' hc => (by cases hc), fun rc _ w => ?_⟩
      simp only [Frame.lockers, hstage]

/-- In every slot the lock is free and nobody has it, or one request has it. -/
structure Locked (clientId : BitVec 16) (seen : List LockMark) (s : State) : Prop where
  placed : Placed clientId s
  slot : ∀ w < maxThreadCount, SlotLock s.g w (lockers s w) (lockHolder seen w)

namespace Locked

variable {clientId : BitVec 16} {seen : List LockMark} {s : State} {g : Globals} {i : Input}

theorem init (clientId : BitVec 16) : Locked clientId [] (ins clientId).init where
  placed := Placed.init clientId
  slot := fun _ _ => SlotLock.free rfl rfl

/-- The dispatcher touches no queued request. -/
theorem queue_disp (h : Placed clientId s) {pc : DispPc} {reads : List MtRequest}
    (hmove : DispMove clientId s i g pc reads) {w : Nat} (hw : w < maxThreadCount)
    (hq : g.queue w = s.g.queue w) : queueLockers g w = queueLockers s.g w :=
  queueLockers_congr hq fun b hb => by rw [h.holding.disp_bufs hmove hw hb]

/-- A step of the dispatcher that takes and posts no lock and queues nothing. -/
theorem of_disp (h : Locked clientId seen s) {pc : DispPc} {reads : List MtRequest}
    (hmove : DispMove clientId s i g pc reads) (hq : ∀ w, g.queue w = s.g.queue w)
    (hlocks : SameLocks s.g g) (hmarks : lockMarks s (.disp i) = [])
    (hpc : ∀ w, pc.lockers g w = s.disp.lockers s.g w) :
    ∀ w < maxThreadCount, SlotLock g w (lockers ⟨g, pc, s.pcs, reads⟩ w)
      (lockHolder (seen ++ lockMarks s (.disp i)) w) := by
  intro w hw
  have hsame : lockers ⟨g, pc, s.pcs, reads⟩ w = lockers s w := by
    rw [lockers, lockers, queue_disp h.placed hmove hw (hq w), hpc]
  rw [hsame, hmarks, List.append_nil]
  exact (h.slot w hw).congr (hlocks w).1 (hlocks w).2

theorem lockers_afterLookup {b w v : Nat} :
    (afterLookup (g.bufs b).request.type b w).lockers g v = [] := by
  unfold afterLookup
  split
  · rfl
  · next hno =>
      simp only [DispPc.lockers, DispPc.dispatching]
      rw [if_neg fun hc => hno hc.2]

/-- The dispatcher takes the lock of slot `w`. -/
theorem lock (h : Locked clientId seen s) {b w : Nat} {reads : List MtRequest}
    (hpc : s.disp = .lock b w) (hsem : 0 < (s.g.workers w).oplock) (v : Nat)
    (hv : v < maxThreadCount) :
    SlotLock (s.g.modifyWorker w fun x => { x with oplock := x.oplock - 1, oplockAcquired := true })
      v (lockers ⟨s.g.modifyWorker w fun x =>
        { x with oplock := x.oplock - 1, oplockAcquired := true }, .dispatch b, s.pcs, reads⟩ v)
      (lockHolder (seen ++ lockMarks s (.disp i)) v) := by
  have hat := h.placed.disp
  rw [hpc] at hat
  obtain ⟨hassigned, hreq⟩ := hat
  have hold : lockers s v = (s.pcs v).lockers v ++ queueLockers s.g v := by
    rw [lockers, hpc]
    simp only [DispPc.lockers, List.append_nil]
  have hqueue : ∀ f : ThreadItem → ThreadItem, (f (s.g.workers w)).workQueue =
      (s.g.workers w).workQueue → queueLockers (s.g.modifyWorker w f) v = queueLockers s.g v :=
    fun f hf => queueLockers_congr ((Quiet.modifyWorker s.g w hf).queue v) fun _ _ => rfl
  have hslot := h.slot v hv
  rw [lockHolder_append]
  simp only [lockMarks, hpc, List.foldl_cons, List.foldl_nil]
  by_cases hvw : v = w
  · subst hvw
    obtain ⟨hnil, hnew⟩ := hslot.acquire hsem (s.g.bufs b).request.id
    rw [hold, List.append_eq_nil_iff] at hnil
    have hmine : lockers ⟨s.g.modifyWorker v fun x =>
        { x with oplock := x.oplock - 1, oplockAcquired := true }, .dispatch b, s.pcs, reads⟩ v =
        [(s.g.bufs b).request.id] := by
      simp only [lockers, hnil.1, DispPc.lockers, DispPc.dispatching]
      rw [hqueue _ rfl, hnil.2]
      exact if_pos ⟨hassigned, hreq⟩
    rw [hmine]
    exact hnew
  · have hsame : lockers ⟨s.g.modifyWorker w fun x =>
        { x with oplock := x.oplock - 1, oplockAcquired := true }, .dispatch b, s.pcs, reads⟩ v =
        lockers s v := by
      rw [hold]
      simp only [lockers, DispPc.lockers, DispPc.dispatching]
      rw [hqueue _ rfl, if_neg, List.append_nil]
      rintro ⟨hc, -⟩
      have hc : (s.g.bufs b).assignedThread = some v := hc
      rw [hassigned] at hc
      exact hvw (Option.some.inj hc).symm
    rw [hsame]
    have hholder : holderAfter v (lockHolder seen v) (.acquire w (s.g.bufs b).request.id) =
        lockHolder seen v := if_neg (Ne.symm hvw)
    rw [hholder]
    refine hslot.congr ?_ ?_ <;> simp only [Globals.modifyWorker, Function.update_of_ne hvw]

/-- The dispatcher puts its request at the end of the queue of slot `w`. -/
theorem enqueue (h : Locked clientId seen s) {b w : Nat} {q : WorkQueue} {reads : List MtRequest}
    (hpc : s.disp = .dispatch b) (hw : (s.g.bufs b).assignedThread = some w)
    (hq : (s.g.workers w).workQueue.enqueue b = some q) (v : Nat) (hv : v < maxThreadCount) :
    SlotLock (s.g.modifyWorker w fun x => { x with workQueue := q }) v
      (lockers ⟨s.g.modifyWorker w fun x => { x with workQueue := q }, .wake w, s.pcs, reads⟩ v)
      (lockHolder (seen ++ lockMarks s (.disp i)) v) := by
  have hmarks : lockMarks s (.disp i) = [] := by
    simp only [lockMarks, hpc, Globals.fullQueue, hw, hq, Option.isNone_some, Bool.false_eq_true,
      and_false, if_false]
    rfl
  have hsame : lockers ⟨s.g.modifyWorker w fun x => { x with workQueue := q }, .wake w, s.pcs,
      reads⟩ v = lockers s v := by
    simp only [lockers, hpc, DispPc.lockers, DispPc.dispatching, List.append_nil]
    congr 1
    by_cases hvw : v = w
    · subst hvw
      rw [queueLockers, queue_modifyWorker_self, WorkQueue.contents_enqueue hq]
      show (((s.g.queue v ++ [b]).filter fun b => requiresOplock (s.g.bufs b).request.type).map
        fun b => (s.g.bufs b).request.id) = _
      rw [List.filter_append, List.map_append, queueLockers]
      congr 1
      by_cases hreq : requiresOplock (s.g.bufs b).request.type = true
      · simp [hreq, hw]
      · simp [hreq]
    · rw [if_neg (by rw [hw]; simp [Ne.symm hvw]), List.append_nil]
      exact queueLockers_congr (queue_modifyWorker_ne s.g _ hvw) fun _ _ => rfl
  rw [hsame, hmarks, List.append_nil]
  have hlocks := SameLocks.modifyWorker s.g w (f := fun x => { x with workQueue := q }) rfl rfl v
  exact (h.slot v hv).congr hlocks.1 hlocks.2

/-- The dispatcher gives up its request because the queue of slot `w` is full. -/
theorem queueFull (h : Locked clientId seen s) {b w : Nat} {reads : List MtRequest}
    (hpc : s.disp = .dispatch b) (hnow : processNow (s.g.bufs b).request.type = false)
    (hw : (s.g.bufs b).assignedThread = some w)
    (hq : (s.g.workers w).workQueue.enqueue b = none)
    (hguard : unlockingOwn s (.disp i)) (v : Nat) (hv : v < maxThreadCount) :
    SlotLock (s.g.releaseOplock w) v
      (lockers ⟨s.g.releaseOplock w, .failed b, s.pcs, reads⟩ v)
      (lockHolder (seen ++ lockMarks s (.disp i)) v) := by
  have hfull : s.g.fullQueue b = some w := by
    simp [Globals.fullQueue, hw, hnow, hq]
  simp only [unlockingOwn, hpc, hfull] at hguard
  have hmarks : lockMarks s (.disp i) = postMarks s.g (s.g.bufs b).request.id (some w) := by
    simp only [lockMarks, hpc, hfull]
  have hslot := h.slot v hv
  rw [lockers, hpc, ← List.append_assoc, ← List.append_nil (DispPc.lockers _ _ _)] at hslot
  have hback := hslot.giveBack (s.g.bufs b).request.id hguard
    (by rw [← hw]; rfl)
  have hqueue : queueLockers (s.g.releaseOplock w) v = queueLockers s.g v :=
    queueLockers_congr ((Quiet.releaseOplock s.g w).queue v) fun b' _ => by
      rw [(Quiet.releaseOplock s.g w).bufs]
  rw [lockHolder_append, hmarks]
  simp only [lockers, DispPc.lockers, hqueue]
  rw [← List.append_assoc]
  exact hback

/-- The dispatcher's request has been handled, and gives back its lock. -/
theorem unlock_disp (h : Locked clientId seen s) {f : Frame} {rc : Int} {resp : MtResponse}
    {reads : List MtRequest} (hpc : s.disp = .process f) (hstage : f.stage = .unlock rc resp)
    (hguard : unlockingOwn s (.disp i)) (v : Nat) (hv : v < maxThreadCount) :
    SlotLock (unlockWorker f.worker s.g) v
      (lockers ⟨unlockWorker f.worker s.g, .process { f with stage := .post rc resp }, s.pcs,
        reads⟩ v) (lockHolder (seen ++ lockMarks s (.disp i)) v) := by
  simp only [unlockingOwn, hpc, Frame.unlocksOwn, hstage] at hguard
  have hmarks : lockMarks s (.disp i) = postMarks s.g f.req.id f.worker := by
    simp only [lockMarks, hpc, Frame.lockMarks, hstage]
  have hslot := h.slot v hv
  rw [lockers, hpc, ← List.append_assoc, ← List.append_nil (DispPc.lockers _ _ _)] at hslot
  have hback := hslot.giveBack f.req.id hguard
    (by simp only [DispPc.lockers, Frame.lockers, hstage])
  have hquiet := Quiet.unlockWorker s.g f.worker
  have hqueue : queueLockers (unlockWorker f.worker s.g) v = queueLockers s.g v :=
    queueLockers_congr (hquiet.queue v) fun b' _ => by rw [hquiet.bufs]
  rw [lockHolder_append, hmarks]
  simp only [lockers, DispPc.lockers, Frame.lockers, hqueue]
  rw [← List.append_assoc]
  exact hback

theorem disp_move (h : Locked clientId seen s) {pc : DispPc} {reads : List MtRequest}
    (hmove : DispMove clientId s i g pc reads) (hguard : unlockingOwn s (.disp i)) :
    ∀ w < maxThreadCount, SlotLock g w (lockers ⟨g, pc, s.pcs, reads⟩ w)
      (lockHolder (seen ++ lockMarks s (.disp i)) w) := by
  have hmove' := hmove
  cases hmove with
  | @existing b w now hpc ht g hw =>
      have hquiet := (getWorkerThreadForFd_spec hw).2
      have hlocks := SameLocks.getWorkerThreadForFd hw
      refine h.of_disp hmove' hquiet.queue hlocks (by simp only [lockMarks, hpc]) fun v => ?_
      rw [hpc, ← (quiet_assignTo hquiet b w b).2]
      exact lockers_afterLookup
  | @newWorker b w hpc ht hw =>
      have hquiet := Quiet.acquireSlot s.g w
      refine h.of_disp hmove' hquiet.queue (SameLocks.acquireSlot s.g w)
        (by simp only [lockMarks, hpc]) fun v => ?_
      rw [hpc, ← (quiet_assignTo hquiet b w b).2]
      exact lockers_afterLookup
  | @noWorker b hpc =>
      refine h.of_disp hmove' (fun _ => rfl) (SameLocks.refl s.g)
        (by simp only [lockMarks, hpc]) fun v => ?_
      rw [hpc]
      simp only [DispPc.lockers, DispPc.dispatching, bufs_modifyBuf_self]
      exact if_neg fun hc => by cases hc.1
  | lock hpc hsem => exact h.lock hpc hsem
  | @start b hpc hnow =>
      refine h.of_disp hmove' (fun _ => rfl) (SameLocks.refl s.g) ?_ fun v => ?_
      · simp only [lockMarks, hpc, Globals.fullQueue, hnow]
        split <;> rfl
      · rw [hpc]
        rfl
  | enqueue hpc hnow hw hq => exact h.enqueue hpc hw hq
  | queueFull hpc hnow hw hq => exact h.queueFull hpc hnow hw hq hguard
  | @running f i g f' hpc hproc =>
      rcases hproc.locks with ⟨hlocks, hmarks, hsame, -⟩ | ⟨rc, resp, hstage, rfl, hnext⟩
      · refine h.of_disp hmove' hproc.queue hlocks (by simp only [lockMarks, hpc, hmarks])
          fun v => ?_
        rw [hpc]
        exact hsame f' rfl v
      · cases hnext
        exact h.unlock_disp hpc hstage hguard
  | @returned f i g rc hpc hproc =>
      rcases hproc.locks with ⟨hlocks, hmarks, -, hnone⟩ | ⟨rc, resp, hstage, rfl, hnext⟩
      · refine h.of_disp hmove' hproc.queue hlocks (by simp only [lockMarks, hpc, hmarks])
          fun v => ?_
        rw [hpc]
        refine Eq.trans ?_ (hnone rc rfl v).symm
        split <;> rfl
      · cases hnext
  | full hpc =>
      exact h.of_disp hmove' (fun _ => rfl) (SameLocks.refl s.g) (by simp only [lockMarks, hpc])
        fun v => by rw [hpc]
  | reserve hpc =>
      exact h.of_disp hmove' (fun _ => rfl) (SameLocks.refl s.g) (by simp only [lockMarks, hpc])
        fun v => by rw [hpc]; rfl
  | stop hpc =>
      exact h.of_disp hmove' (fun _ => rfl) (SameLocks.refl s.g) (by simp only [lockMarks, hpc])
        fun v => by rw [hpc]; rfl
  | read hpc =>
      exact h.of_disp hmove' (fun _ => rfl) (SameLocks.refl s.g) (by simp only [lockMarks, hpc])
        fun v => by rw [hpc]; rfl
  | lookupFailed hpc =>
      exact h.of_disp hmove' (fun _ => rfl) (SameLocks.refl s.g) (by simp only [lockMarks, hpc])
        fun v => by rw [hpc]; rfl
  | failed hpc =>
      exact h.of_disp hmove' (fun _ => rfl) (SameLocks.refl s.g) (by simp only [lockMarks, hpc])
        fun v => by rw [hpc]; rfl
  | cleanup hpc =>
      exact h.of_disp hmove' (fun _ => rfl) (SameLocks.refl s.g) (by simp only [lockMarks, hpc])
        fun v => by rw [hpc]; rfl
  | @wake w hpc =>
      exact h.of_disp hmove' (Quiet.modifyWorker s.g w rfl).queue
        (SameLocks.modifyWorker s.g w rfl rfl) (by simp only [lockMarks, hpc])
        fun v => by rw [hpc]; rfl
  | finiSet hpc =>
      exact h.of_disp hmove' (fun _ => rfl) (SameLocks.refl s.g) (by simp only [lockMarks, hpc])
        fun v => by rw [hpc]; rfl
  | @finiPost n hpc =>
      exact h.of_disp hmove' (Quiet.modifyWorker s.g n rfl).queue
        (SameLocks.modifyWorker s.g n rfl rfl) (by simp only [lockMarks, hpc])
        fun v => by rw [hpc]; rfl
  | finiDone hpc =>
      exact h.of_disp hmove' (fun _ => rfl) (SameLocks.refl s.g) (by simp only [lockMarks, hpc])
        fun v => by rw [hpc]; rfl
  | finiJoin hpc =>
      exact h.of_disp hmove' (fun _ => rfl) (SameLocks.refl s.g) (by simp only [lockMarks, hpc])
        fun v => by rw [hpc]; rfl

/-- A worker thread touches neither the queues of the other slots nor the
request of the dispatcher. -/
theorem others_worker (h : Placed clientId s) {w : Nat} {pc : WorkerPc} (hw : w < maxThreadCount)
    (hmove : WorkerMove clientId s w i g pc) (v : Nat) :
    s.disp.lockers g v = s.disp.lockers s.g v ∧
      (v ≠ w → queueLockers g v = queueLockers s.g v) := by
  constructor
  · cases hpc : s.disp with
    | dispatch b =>
        have hsame := h.holding.worker_bufs_disp hw hmove (b := b)
          (by simp [hpc, DispPc.active])
        simp only [DispPc.lockers, DispPc.dispatching, hsame]
    | _ => rfl
  · intro hvw
    exact queueLockers_congr (hmove.queue_ne hvw) fun b _ => hmove.request b

/-- A step of worker thread `w` that posts no lock. -/
theorem of_worker (h : Locked clientId seen s) {w : Nat} {pc : WorkerPc} (hw : w < maxThreadCount)
    (hmove : WorkerMove clientId s w i g pc) (hlocks : SameLocks s.g g)
    (hmarks : lockMarks s (.worker w i) = [])
    (hown : pc.lockers w ++ queueLockers g w = (s.pcs w).lockers w ++ queueLockers s.g w) :
    ∀ v < maxThreadCount, SlotLock g v
      (lockers ⟨g, s.disp, Function.update s.pcs w pc, s.reads⟩ v)
      (lockHolder (seen ++ lockMarks s (.worker w i)) v) := by
  intro v hv
  obtain ⟨hdisp, hqueue⟩ := others_worker h.placed hw hmove v
  have hsame : lockers ⟨g, s.disp, Function.update s.pcs w pc, s.reads⟩ v = lockers s v := by
    rw [lockers, lockers, ← List.append_assoc, ← List.append_assoc, hdisp]
    congr 1
    by_cases hvw : v = w
    · subst hvw
      simpa only [Function.update_self] using hown
    · simp only [Function.update_of_ne hvw, hqueue hvw]
  rw [hsame, hmarks, List.append_nil]
  exact (h.slot v hv).congr (hlocks v).1 (hlocks v).2

/-- The worker thread's request has been handled, and gives back its lock. -/
theorem unlock_worker (h : Locked clientId seen s) {w : Nat} {f : Frame} {rc : Int}
    {resp : MtResponse} (hw : w < maxThreadCount) (hpc : s.pcs w = .process f)
    (hstage : f.stage = .unlock rc resp) (hguard : unlockingOwn s (.worker w i))
    (hmove : WorkerMove clientId s w i (unlockWorker f.worker s.g)
      (.process { f with stage := .post rc resp })) (v : Nat) (hv : v < maxThreadCount) :
    SlotLock (unlockWorker f.worker s.g) v
      (lockers ⟨unlockWorker f.worker s.g, s.disp,
        Function.update s.pcs w (.process { f with stage := .post rc resp }), s.reads⟩ v)
      (lockHolder (seen ++ lockMarks s (.worker w i)) v) := by
  obtain ⟨hdisp, hqueue⟩ := others_worker h.placed hw hmove v
  simp only [unlockingOwn, hpc, Frame.unlocksOwn, hstage] at hguard
  have hmarks : lockMarks s (.worker w i) = postMarks s.g f.req.id f.worker := by
    simp only [lockMarks, hpc, Frame.lockMarks, hstage]
  have hworker := (h.placed.working w hw f hpc).worker
  have hslot := h.slot v hv
  rw [lockHolder_append, hmarks]
  by_cases hvw : v = w
  · subst hvw
    have hquiet := Quiet.unlockWorker s.g f.worker
    have hqueue : queueLockers (unlockWorker f.worker s.g) v = queueLockers s.g v :=
      queueLockers_congr (hquiet.queue v) fun b' _ => by rw [hquiet.bufs]
    rw [lockers, hpc, ← List.nil_append (WorkerPc.lockers _ _ ++ _)] at hslot
    have hback := hslot.giveBack f.req.id hguard
      (by simp only [WorkerPc.lockers, Frame.lockers, hstage])
    simp only [lockers, Function.update_self, WorkerPc.lockers, Frame.lockers, hqueue, hdisp]
    exact hback
  · have hsame : lockers ⟨unlockWorker f.worker s.g, s.disp,
        Function.update s.pcs w (.process { f with stage := .post rc resp }), s.reads⟩ v =
        lockers s v := by
      simp only [lockers, Function.update_of_ne hvw, hqueue hvw, hdisp]
    rw [hsame]
    rw [← List.nil_append (lockers s v), ← List.nil_append (lockers s v)] at hslot
    refine hslot.giveBack f.req.id hguard ?_
    rw [hworker, if_neg]
    rintro ⟨hc, -⟩
    exact hvw (Option.some.inj hc).symm

theorem worker_move (h : Locked clientId seen s) {w : Nat} {pc : WorkerPc}
    (hw : w < maxThreadCount) (hmove : WorkerMove clientId s w i g pc)
    (hguard : unlockingOwn s (.worker w i)) :
    ∀ v < maxThreadCount, SlotLock g v
      (lockers ⟨g, s.disp, Function.update s.pcs w pc, s.reads⟩ v)
      (lockHolder (seen ++ lockMarks s (.worker w i)) v) := by
  have hmove' := hmove
  cases hmove with
  | wait hpc =>
      have hqueue := (Quiet.modifyWorker s.g w (f := fun x =>
        { x with awaitingWorkSem := x.awaitingWorkSem - 1 }) rfl).queue w
      refine h.of_worker hw hmove' (SameLocks.modifyWorker s.g w rfl rfl)
        (by simp only [lockMarks, hpc]) ?_
      rw [hpc, queueLockers_congr hqueue fun _ _ => rfl]
      rfl
  | empty hpc =>
      refine h.of_worker hw hmove' (SameLocks.refl s.g) (by simp only [lockMarks, hpc]) ?_
      rw [hpc]
      split <;> rfl
  | @dequeue b q hpc hq =>
      have hcontents : s.g.queue w = b :: q.contents := WorkQueue.contents_dequeue hq
      have hassigned : (s.g.bufs b).assignedThread = some w :=
        (h.placed.queued w hw b (by rw [hcontents]; exact List.mem_cons_self)).1
      refine h.of_worker hw hmove' (SameLocks.modifyWorker s.g w rfl rfl)
        (by simp only [lockMarks, hpc]) ?_
      rw [hpc, queueLockers, queueLockers, queue_modifyWorker_self, hcontents]
      show (if (s.g.bufs b).assignedThread = some w ∧
        requiresOplock (s.g.bufs b).request.type = true then [(s.g.bufs b).request.id] else []) ++
        (q.contents.filter fun b => requiresOplock (s.g.bufs b).request.type).map
          (fun b => (s.g.bufs b).request.id) = _
      by_cases hreq : requiresOplock (s.g.bufs b).request.type = true
      · rw [if_pos ⟨hassigned, hreq⟩]
        simp only [List.filter_cons, hreq, if_true]
        rfl
      · rw [if_neg fun hc => hreq hc.2]
        simp only [List.filter_cons, hreq]
        rfl
  | @running f i g f' hpc hproc =>
      rcases hproc.locks with ⟨hlocks, hmarks, hsame, -⟩ | ⟨rc, resp, hstage, rfl, hnext⟩
      · refine h.of_worker hw hmove' hlocks (by simp only [lockMarks, hpc, hmarks]) ?_
        rw [hpc, queueLockers_congr (hproc.queue w) fun b _ => hproc.request b]
        congr 1
        exact hsame f' rfl w
      · cases hnext
        exact h.unlock_worker hw hpc hstage hguard hmove'
  | @returned f i g rc hpc hproc =>
      rcases hproc.locks with ⟨hlocks, hmarks, -, hnone⟩ | ⟨rc, resp, hstage, rfl, hnext⟩
      · refine h.of_worker hw hmove' hlocks (by simp only [lockMarks, hpc, hmarks]) ?_
        rw [hpc, queueLockers_congr (hproc.queue w) fun b _ => hproc.request b]
        congr 1
        exact (hnone rc rfl w).symm
      · cases hnext
  | @cleanup b hpc =>
      refine h.of_worker hw hmove' (fun _ => ⟨rfl, rfl⟩) (by simp only [lockMarks, hpc]) ?_
      rw [hpc, @queueLockers_congr s.g (s.g.releaseBufferItem b) _ rfl
        fun b' _ => request_releaseBufferItem s.g b b']
      rfl

theorem step (clientId : BitVec 16) (seen : List LockMark) (s : State) (e : Event) (s' : State)
    (hguard : lockStep s e) (hstep : (ins clientId).step s e = some s')
    (h : Locked clientId seen s) : Locked clientId (seen ++ lockMarks s e) s' := by
  refine ⟨Placed.step clientId s e s' hguard.1 hstep h.placed, ?_⟩
  refine step_rule (P := fun s' => ∀ w < maxThreadCount, SlotLock s'.g w (lockers s' w)
    (lockHolder (seen ++ lockMarks s e) w)) hstep (fun i g pc reads he hmove => ?_)
    fun w i g pc he hw hmove => ?_
  · subst he
    exact h.disp_move hmove hguard.2
  · subst he
    exact h.worker_move hw hmove hguard.2

end Locked

/-! ## One request at a time -/

/-- For every slot: its queue and its worker thread have requests of this slot
only; at most one request has taken the lock and is not executed to the end of
its handler; and the lock was posted exactly once for each time it was taken, by
the request it was taken for, but for the last time if that one still has it. -/
structure OplockHeld (seen : List LockMark) (s : State) : Prop where
  queued : ∀ w < maxThreadCount, ∀ b ∈ s.g.queue w, (s.g.bufs b).assignedThread = some w
  working : ∀ w < maxThreadCount, ∀ f, s.pcs w = .process f → f.worker = some w
  exclusive : ∀ w < maxThreadCount, (unfinished s w).length ≤ 1
  paired : ∀ w < maxThreadCount, lockHolder seen w = some (lockers s w).head?

/-- **The operation lock.** In every run in which no buffer is reserved between
its two releases, and no request that needs no lock finishes while the lock of
its worker is held, requests that need the lock of a slot are executed one at a
time. -/
theorem oplock_held (clientId : BitVec 16) (es : List Event) (s : State)
    (hgood : (ins clientId).Guarded lockStep es) (hrun : (ins clientId).run es = some s) :
    OplockHeld ((ins clientId).history lockMarks es) s := by
  have h : Locked clientId ((ins clientId).history lockMarks es) s :=
    (ins clientId).guarded_history (Locked.init clientId) (Locked.step clientId) hgood hrun
  refine ⟨fun w hw b hb => (h.placed.queued w hw b hb).1,
    fun w hw f hf => (h.placed.working w hw f hf).worker, fun w hw => ?_,
    fun w hw => (h.slot w hw).holder_eq⟩
  exact Nat.le_trans (unfinished_sublist s w).length_le (h.slot w hw).length_le

/-- A send on the socket of slot 0 of client 1. -/
def sendRequest (id : BitVec 64) : MtRequest :=
  { type := .socketSend, size := 44, id := id, sockfd := mwSocketCreate 1 0, bytes := [1, 2, 3, 4] }

def shutdownRequest (id : BitVec 64) : MtRequest :=
  { type := .socketShutdown, size := 40, id := id, sockfd := mwSocketCreate 1 0 }

/-- A send waits in the queue with the lock. -/
def queuedSend : List Event :=
  serveEvents (createRequest 1) { ret := 3 } ++ readEvents (sendRequest 2) ++
    List.replicate 4 (.disp .tau)

theorem oplock_held_queuedSend :
    ∃ s, (ins 1).run queuedSend = some s ∧ unfinished s 0 = [2] ∧
      OplockHeld ((ins 1).history lockMarks queuedSend) s := by
  have hsome : ((ins 1).run queuedSend).map (fun s => unfinished s 0) = some [2] := by
    decide +kernel
  obtain ⟨s, hs, hone⟩ := Option.map_eq_some_iff.mp hsome
  exact ⟨s, hs, hone, oplock_held 1 queuedSend s (by decide +kernel) hs⟩

/-- The worker thread is in a receive when a send is queued with the lock; the
receive returns, and the dispatcher executes a shutdown. -/
def shutdownBeforeSend : List Event :=
  serveEvents (createRequest 1) { ret := 3 } ++ queueEvents (recvRequest 2) ++
    [.worker 0 .tau, .worker 0 .tau, .worker 0 .tau] ++
    readEvents (sendRequest 3) ++ List.replicate 4 (.disp .tau) ++
    [.worker 0 (.outcome { ret := 1, data := [1] }), .worker 0 .tau, .worker 0 .tau] ++
    readEvents (shutdownRequest 4) ++ List.replicate 4 (.disp .tau)

/-- The receive has posted the lock of the send: the send waits with it, and the
shutdown is in its native call. -/
theorem oplock_lost :
    ∃ s, (ins 1).run shutdownBeforeSend = some s ∧ s.disp.executing 0 = [4] ∧
      unfinished s 0 = [3, 4] ∧ ¬ OplockHeld ((ins 1).history lockMarks shutdownBeforeSend) s := by
  have hsome : ((ins 1).run shutdownBeforeSend).map (fun s =>
      (s.disp.executing 0, unfinished s 0)) = some ([4], [3, 4]) := by
    decide +kernel
  obtain ⟨s, hs, hobs⟩ := Option.map_eq_some_iff.mp hsome
  simp only [Prod.mk.injEq] at hobs
  refine ⟨s, hs, hobs.1, hobs.2, fun hheld => ?_⟩
  have hle := hheld.exclusive 0 (by decide)
  rw [hobs.2] at hle
  simp at hle

end MagicWand.Ins
