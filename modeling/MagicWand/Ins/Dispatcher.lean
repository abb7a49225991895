import MagicWand.Foundation.Transition
import MagicWand.Ins.Globals

/-!
# Dispatcher and worker threads

`xenevent.c` as a transition system. Its threads are the dispatcher
(`message_dispatcher`, which also runs `assign_work_to_thread` and at the end
`fini_state`) and the worker threads (`worker_thread_func`); both execute
`process_buffer_item`, one activation of which is a `Frame`. A step ends wherever
the thread may give up control: at a native call, a semaphore, the ring, and
between the release of a buffer item and what follows it.

An event names the thread that moves and what it receives: nothing, a message
read from the ring, or the outcome of the native call it is blocked in.
-/

namespace MagicWand.Ins

open Foundation

/-! ## process_buffer_item -/

/-- Where an activation of `process_buffer_item` stands. -/
inductive Stage where
  /-- In the handler `m`, with the outcomes received so far; `issued` is the
  native call it is blocked in and the descriptor the call was made on. -/
  | call (m : Native HandlerResult) (os : List Outcome) (issued : Option (NativeCall × Int))
  | unlock (rc : Int) (resp : MtResponse)
  | post (rc : Int) (resp : MtResponse)
  | write (rc : Int) (resp : MtResponse)
  | release (rc : Int) (resp : MtResponse)
  | retire (rc : Int) (resp : MtResponse)

/-- One activation. The request is taken from the buffer when it starts. -/
structure Frame where
  buf : Nat
  req : MtRequest
  worker : Option Nat
  gen : Nat
  stage : Stage

/-- The `switch` of `process_buffer_item`. The pollset query runs without a
worker and is the only handler that does not use the slot. -/
def handler (clientId : BitVec 16) (req : MtRequest) (worker : Option Nat) (g : Globals) :
    Native HandlerResult :=
  let slot := worker.getD 0
  match req.type with
  | .socketCreate => xeNetCreateSocket clientId req slot
  | .socketShutdown => xeNetShutdownSocket req
  | .socketClose => xeNetCloseSocket req slot (g.net.sock slot)
  | .socketConnect => xeNetConnectSocket req
  | .socketSend => xeNetSendSocket req slot
  | .socketBind => xeNetBindSocket req slot
  | .socketListen => xeNetListenSocket req
  | .socketAccept => xeNetAcceptSocket req
  | .socketRecv => xeNetRecvSocket req slot
  | .socketRecvFrom => xeNetRecvfromSocket req slot
  | .socketGetName => xeNetGetName req
  | .socketGetPeer => xeNetGetName req
  | .socketAttrib => xeNetSockAttrib req
  | .addrBlock => xeNetAddrBlock req
  | .pollsetQuery =>
      xePollsetQuery req
        ((List.range maxThreadCount).map fun i =>
          if (g.workers i).inUse then some (g.net.sock i).localFd else none)
        g.net
  | .invalid => pure { response := { Globals.setResponseToInternalError req with type := .of .invalid } }
  | .unknown _ => pure { response := { Globals.setResponseToInternalError req with type := .of .invalid } }

/-- The handlers that use the slot of their worker. -/
def usesWorker : MtRequestType → Bool
  | .pollsetQuery => false
  | .addrBlock => false
  | .invalid => false
  | .unknown _ => false
  | _ => true

/-- Can the request in buffer `b` be processed? A handler that uses its worker
does not survive a null pointer. -/
def canStart (g : Globals) (b : Nat) : Bool :=
  (g.bufs b).assignedThread.isSome || !usesWorker (g.bufs b).request.type

/-- The activation for the request in buffer `b`. -/
def Frame.start (clientId : BitVec 16) (g : Globals) (b : Nat) : Frame where
  buf := b
  req := (g.bufs b).request
  worker := (g.bufs b).assignedThread
  gen := (g.bufs b).gen
  stage := .call (handler clientId (g.bufs b).request (g.bufs b).assignedThread g) [] none

/-- The descriptor parameter of a native call. -/
def NativeCall.fdRef : NativeCall → Option FdRef
  | .socket _ _ _ => none
  | .bind fd _ => some fd
  | .listen fd _ => some fd
  | .accept fd => some fd
  | .connect fd _ => some fd
  | .shutdown fd _ => some fd
  | .close fd => some fd
  | .send fd _ _ => some fd
  | .recv fd _ _ => some fd
  | .recvfrom fd _ _ => some fd
  | .pollOne fd _ => some fd
  | .pollAll _ => none
  | .getsockname fd _ => some fd
  | .getpeername fd _ => some fd
  | .getsockopt fd _ => some fd
  | .setsockopt fd _ _ => some fd
  | .setAcceptFilter fd _ => some fd
  | .fcntlGet fd => some fd
  | .fcntlSet fd _ => some fd

/-- The descriptor a call is made on; -1 for a call that has none. -/
def nativeFd (g : Globals) (worker : Option Nat) (c : NativeCall) : Int :=
  match c.fdRef with
  | some .worker => (g.net.sock (worker.getD 0)).localFd
  | some (.fd n) => n
  | none => -1

/-- What a thread receives with a step. -/
inductive Input where
  | tau
  | read (size : Int) (req : MtRequest)
  | outcome (o : Outcome)

/-- The handler has returned: apply what it did to the sockets, and remember
the native descriptor of a socket it created. -/
def finishHandler (f : Frame) (r : HandlerResult) (g : Globals) : Globals :=
  let g := { g with net := r.effect g.net }
  if f.req.type = .socketCreate ∧ 0 ≤ r.response.status then
    g.setNative (f.worker.getD 0) f.gen (g.net.sock (f.worker.getD 0)).localFd
  else g

/-- Does `process_buffer_item` release its worker at the end? -/
def releasesWorker (req : MtRequest) (resp : MtResponse) : Bool :=
  req.type.deallocatesFd || (req.type == .socketCreate && decide (resp.status < 0))

/-- Give back the operation lock of the worker, if there is one and it holds it. -/
def unlockWorker (worker : Option Nat) (g : Globals) : Globals :=
  match worker with
  | some w => g.releaseOplock w
  | none => g

/-- What a step of `process_buffer_item` leads to. -/
inductive ProcNext where
  | running (f : Frame)
  | returned (rc : Int)

def procStep (clientId : BitVec 16) (g : Globals) (f : Frame) (i : Input) :
    Option (Globals × ProcNext) :=
  match f.stage, i with
  | .call m os none, .tau =>
      match m os with
      | .error c =>
          some (g, .running { f with stage := .call m os (some (c, nativeFd g f.worker c)) })
      | .ok (r, _) =>
          some (finishHandler f r g, .running { f with stage := .unlock r.rc r.response })
  | .call m os (some _), .outcome o =>
      some (g, .running { f with stage := .call m (os ++ [o]) none })
  | .unlock rc resp, .tau =>
      some (unlockWorker f.worker g, .running { f with stage := .post rc resp })
  | .post rc resp, .tau =>
      let r := Globals.postProcessResponse clientId f.req f.worker resp g
      some (r.2, .running { f with stage := .write rc r.1 })
  | .write rc resp, .tau =>
      some (g.writeRing resp, .running { f with stage := .release rc resp })
  | .release rc resp, .tau =>
      some (g.releaseBufferItem f.buf, .running { f with stage := .retire rc resp })
  | .retire rc resp, .tau =>
      if releasesWorker f.req resp then
        match f.worker with
        | some w => some (g.releaseWorkerThread w, .returned rc)
        | none => none
      else some (g, .returned rc)
  | _, _ => none

/-! ## The threads -/

/-- How `assign_work_to_thread` treats a request type: where its worker comes
from, and whether the dispatcher processes the request itself. -/
inductive Assignment where
  | noWorker
  | existing (processNow : Bool)
  | newWorker
  | invalid
deriving DecidableEq, Repr

/-- The `switch` of `assign_work_to_thread`. -/
def assignment : MtRequestType → Assignment
  | .pollsetQuery => .noWorker
  | .socketShutdown => .existing true
  | .socketClose => .existing true
  | .socketBind => .existing true
  | .socketListen => .existing true
  | .socketAttrib => .existing true
  | .socketCreate => .newWorker
  | .addrBlock => .newWorker
  | .socketConnect => .existing false
  | .socketSend => .existing false
  | .socketAccept => .existing false
  | .socketRecv => .existing false
  | .socketRecvFrom => .existing false
  | .socketGetName => .existing false
  | .socketGetPeer => .existing false
  | .invalid => .invalid
  | .unknown _ => .invalid

/-- `process_now`. -/
def processNow (t : MtRequestType) : Bool := assignment t != .existing false

/-- `REQUEST_REQUIRES_OPLOCK`. -/
def requiresOplock (t : MtRequestType) : Bool :=
  t == .socketSend || t == .socketShutdown || t == .socketClose

/-- Where the dispatcher thread stands. -/
inductive DispPc where
  | reserve
  | read (b : Nat)
  | lookup (b : Nat)
  | lock (b w : Nat)
  | dispatch (b : Nat)
  | process (f : Frame)
  | failed (b : Nat)
  | cleanup (b : Nat)
  | wake (w : Nat)
  | finiSet
  | finiPost (i : Nat)
  | finiJoin (i : Nat)
  | exited

/-- Where a worker thread stands. -/
inductive WorkerPc where
  | waiting
  | dequeue
  | process (f : Frame)
  | cleanup (b : Nat)
  | exited

/-- The program state; `reads` is the history of the requests admitted. -/
structure State where
  g : Globals := {}
  disp : DispPc := .reserve
  pcs : Nat → WorkerPc := fun _ => .waiting
  reads : List MtRequest := []

/-- `ONE_REQUEST_REGION_SIZE`. -/
def oneRequestRegionSize : Nat := mtRequestGenericSize

/-- Record the slot that serves the request in `b`. -/
def assignTo (g : Globals) (b w : Nat) : Globals :=
  g.modifyBuf b fun x => { x with assignedThread := some w, gen := (g.workers w).gen }

/-- After the lookup: wait for the operation lock if the request needs it. -/
def afterLookup (t : MtRequestType) (b w : Nat) : DispPc :=
  if requiresOplock t then .lock b w else .dispatch b

/-- The lookup of `assign_work_to_thread`. -/
def lookupStep (s : State) (b : Nat) : Option State :=
  let req := (s.g.bufs b).request
  let found (fd : MwSocketFd) : Option State :=
    match s.g.getWorkerThreadForFd fd with
    | .found w g => some { s with g := assignTo g b w, disp := afterLookup req.type b w }
    | .failed => some { s with disp := .failed b }
    | .outOfBounds _ => none
  match assignment req.type with
  | .noWorker =>
      some { s with
        g := s.g.modifyBuf b fun x => { x with assignedThread := none }, disp := .dispatch b }
  | .existing _ => found req.sockfd
  | .newWorker => found mtInvalidSocketFd
  | .invalid => some { s with disp := .failed b }

/-- The end of `assign_work_to_thread`: process the request here, or put it in
the queue of its worker. -/
def dispatchStep (clientId : BitVec 16) (s : State) (b : Nat) : Option State :=
  if processNow (s.g.bufs b).request.type then
    if canStart s.g b then some { s with disp := .process (Frame.start clientId s.g b) } else none
  else match (s.g.bufs b).assignedThread with
    | none => none
    | some w =>
        match (s.g.workers w).workQueue.enqueue b with
        | some q =>
            some { s with
              g := s.g.modifyWorker w fun x => { x with workQueue := q }, disp := .wake w }
        | none => some { s with g := s.g.releaseOplock w, disp := .failed b }

/-- One step of the dispatcher. -/
def dispStep (clientId : BitVec 16) (s : State) (i : Input) : Option State :=
  match s.disp, i with
  | .reserve, .tau =>
      match s.g.availableBuffer with
      | some b => some { s with g := s.g.reserveBufferItem b, disp := .read b }
      | none => some s
  | .read b, .read size req =>
      let g := s.g.modifyBuf b fun x => { x with request := req }
      if size < mtRequestBaseSize ∨ oneRequestRegionSize < req.size then
        some { s with g := g, disp := .finiSet }
      else some { s with g := g, disp := .lookup b, reads := s.reads ++ [req] }
  | .lookup b, .tau => lookupStep s b
  | .lock b w, .tau =>
      if 0 < (s.g.workers w).oplock then
        some { s with
          g := s.g.modifyWorker w fun x =>
            { x with oplock := x.oplock - 1, oplockAcquired := true }
          disp := .dispatch b }
      else none
  | .dispatch b, .tau => dispatchStep clientId s b
  | .process f, i =>
      match procStep clientId s.g f i with
      | some (g, .running f') => some { s with g := g, disp := .process f' }
      | some (g, .returned rc) =>
          some { s with g := g, disp := if rc ≠ 0 then .failed f.buf else .cleanup f.buf }
      | none => none
  | .failed b, .tau =>
      some { s with
        g := s.g.writeRing (Globals.setResponseToInternalError (s.g.bufs b).request)
        disp := .cleanup b }
  | .cleanup b, .tau => some { s with g := s.g.releaseBufferItem b, disp := .reserve }
  | .wake w, .tau =>
      some { s with
        g := s.g.modifyWorker w fun x => { x with awaitingWorkSem := x.awaitingWorkSem + 1 }
        disp := .reserve }
  | .finiSet, .tau =>
      some { s with g := { s.g with shutdownPending := true }, disp := .finiPost 0 }
  | .finiPost n, .tau =>
      if n < maxThreadCount then
        some { s with
          g := s.g.modifyWorker n fun x => { x with awaitingWorkSem := x.awaitingWorkSem + 1 }
          disp := .finiJoin n }
      else some { s with disp := .exited }
  | .finiJoin n, .tau =>
      match s.pcs n with
      | .exited => some { s with disp := .finiPost (n + 1) }
      | _ => none
  | _, _ => none

def setPc (s : State) (w : Nat) (pc : WorkerPc) : State :=
  { s with pcs := Function.update s.pcs w pc }

/-- One step of worker thread `w`. -/
def workerStep (clientId : BitVec 16) (s : State) (w : Nat) (i : Input) : Option State :=
  match s.pcs w, i with
  | .waiting, .tau =>
      if 0 < (s.g.workers w).awaitingWorkSem then
        some (setPc { s with
          g := s.g.modifyWorker w fun x =>
            { x with awaitingWorkSem := x.awaitingWorkSem - 1 } } w .dequeue)
      else none
  | .dequeue, .tau =>
      match (s.g.workers w).workQueue.dequeue with
      | none => some (setPc s w (if s.g.shutdownPending then .exited else .waiting))
      | some (b, q) =>
          let g := s.g.modifyWorker w fun x => { x with workQueue := q }
          if canStart g b then
            some (setPc { s with g := g } w (.process (Frame.start clientId g b)))
          else none
  | .process f, i =>
      match procStep clientId s.g f i with
      | some (g, .running f') => some (setPc { s with g := g } w (.process f'))
      | some (g, .returned _) => some (setPc { s with g := g } w (.cleanup f.buf))
      | none => none
  | .cleanup b, .tau => some (setPc { s with g := s.g.releaseBufferItem b } w .waiting)
  | _, _ => none

/-- The thread that moves and what it receives. -/
inductive Event where
  | disp (i : Input)
  | worker (w : Nat) (i : Input)

def step (clientId : BitVec 16) (s : State) : Event → Option State
  | .disp i => dispStep clientId s i
  | .worker w i => if w < maxThreadCount then workerStep clientId s w i else none

/-- The INS application. -/
def ins (clientId : BitVec 16) : System State Event where
  init := {}
  step := step clientId

/-! ## What a step can do -/

section Moves

variable (clientId : BitVec 16)

/-- The steps of `process_buffer_item`. -/
inductive ProcMove (g : Globals) (f : Frame) : Input → Globals → ProcNext → Prop where
  | issue {m os c} (hstage : f.stage = .call m os none) (hm : m os = .error c) :
      ProcMove g f .tau g
        (.running { f with stage := .call m os (some (c, nativeFd g f.worker c)) })
  | finish {m os r rest} (hstage : f.stage = .call m os none) (hm : m os = .ok (r, rest)) :
      ProcMove g f .tau (finishHandler f r g)
        (.running { f with stage := .unlock r.rc r.response })
  | receive {m os c o} (hstage : f.stage = .call m os (some c)) :
      ProcMove g f (.outcome o) g (.running { f with stage := .call m (os ++ [o]) none })
  | unlock {rc resp} (hstage : f.stage = .unlock rc resp) :
      ProcMove g f .tau (unlockWorker f.worker g) (.running { f with stage := .post rc resp })
  | post {rc resp} (hstage : f.stage = .post rc resp) :
      ProcMove g f .tau (Globals.postProcessResponse clientId f.req f.worker resp g).2
        (.running { f with
          stage := .write rc (Globals.postProcessResponse clientId f.req f.worker resp g).1 })
  | write {rc resp} (hstage : f.stage = .write rc resp) :
      ProcMove g f .tau (g.writeRing resp) (.running { f with stage := .release rc resp })
  | release {rc resp} (hstage : f.stage = .release rc resp) :
      ProcMove g f .tau (g.releaseBufferItem f.buf)
        (.running { f with stage := .retire rc resp })
  | retireSlot {rc resp w} (hstage : f.stage = .retire rc resp)
      (hrel : releasesWorker f.req resp = true) (hworker : f.worker = some w) :
      ProcMove g f .tau (g.releaseWorkerThread w) (.returned rc)
  | retire {rc resp} (hstage : f.stage = .retire rc resp)
      (hrel : releasesWorker f.req resp = false) : ProcMove g f .tau g (.returned rc)

theorem procStep_move {g g' : Globals} {f : Frame} {i : Input} {next : ProcNext}
    (h : procStep clientId g f i = some (g', next)) : ProcMove clientId g f i g' next := by
  unfold procStep at h
  split at h
  next m os hstage =>
    split at h
    next c hm => cases h; exact .issue hstage hm
    next r rest hm => cases h; exact .finish hstage hm
  next hstage => cases h; exact .receive hstage
  next hstage => cases h; exact .unlock hstage
  next hstage => cases h; exact .post hstage
  next hstage => cases h; exact .write hstage
  next hstage => cases h; exact .release hstage
  next hstage =>
    split at h
    next hrel =>
      split at h
      next hw => cases h; exact .retireSlot hstage hrel hw
      next => cases h
    next hrel => cases h; exact .retire hstage (Bool.eq_false_iff.mpr hrel)
  next => cases h

/-- The steps of the dispatcher: the successor's globals, program counter and
history. -/
inductive DispMove (s : State) : Input → Globals → DispPc → List MtRequest → Prop where
  | full (hpc : s.disp = .reserve) (hfull : s.g.availableBuffer = none) :
      DispMove s .tau s.g .reserve s.reads
  | reserve {b} (hpc : s.disp = .reserve) (hb : s.g.availableBuffer = some b) :
      DispMove s .tau (s.g.reserveBufferItem b) (.read b) s.reads
  | stop {b size req} (hpc : s.disp = .read b)
      (hsize : size < (mtRequestBaseSize : Int) ∨ oneRequestRegionSize < req.size) :
      DispMove s (.read size req) (s.g.modifyBuf b fun x => { x with request := req })
        .finiSet s.reads
  | read {b size req} (hpc : s.disp = .read b)
      (hsize : ¬ (size < (mtRequestBaseSize : Int) ∨ oneRequestRegionSize < req.size)) :
      DispMove s (.read size req) (s.g.modifyBuf b fun x => { x with request := req })
        (.lookup b) (s.reads ++ [req])
  | noWorker {b} (hpc : s.disp = .lookup b)
      (ht : assignment (s.g.bufs b).request.type = .noWorker) :
      DispMove s .tau (s.g.modifyBuf b fun x => { x with assignedThread := none })
        (.dispatch b) s.reads
  | existing {b w now} (hpc : s.disp = .lookup b)
      (ht : assignment (s.g.bufs b).request.type = .existing now)
      {g : Globals} (hw : s.g.getWorkerThreadForFd (s.g.bufs b).request.sockfd = .found w g) :
      DispMove s .tau (assignTo g b w)
        (afterLookup (s.g.bufs b).request.type b w) s.reads
  | newWorker {b w} (hpc : s.disp = .lookup b)
      (ht : assignment (s.g.bufs b).request.type = .newWorker)
      (hw : s.g.availableSlot = some w) :
      DispMove s .tau (assignTo (s.g.acquireSlot w) b w)
        (afterLookup (s.g.bufs b).request.type b w) s.reads
  | lookupFailed {b} (hpc : s.disp = .lookup b) : DispMove s .tau s.g (.failed b) s.reads
  | lock {b w} (hpc : s.disp = .lock b w) (hsem : 0 < (s.g.workers w).oplock) :
      DispMove s .tau (s.g.modifyWorker w fun x =>
        { x with oplock := x.oplock - 1, oplockAcquired := true }) (.dispatch b) s.reads
  | start {b} (hpc : s.disp = .dispatch b)
      (hnow : processNow (s.g.bufs b).request.type = true) (hcan : canStart s.g b = true) :
      DispMove s .tau s.g (.process (Frame.start clientId s.g b)) s.reads
  | enqueue {b w q} (hpc : s.disp = .dispatch b)
      (hnow : processNow (s.g.bufs b).request.type = false)
      (hw : (s.g.bufs b).assignedThread = some w)
      (hq : (s.g.workers w).workQueue.enqueue b = some q) :
      DispMove s .tau (s.g.modifyWorker w fun x => { x with workQueue := q }) (.wake w) s.reads
  | queueFull {b w} (hpc : s.disp = .dispatch b)
      (hnow : processNow (s.g.bufs b).request.type = false)
      (hw : (s.g.bufs b).assignedThread = some w)
      (hq : (s.g.workers w).workQueue.enqueue b = none) :
      DispMove s .tau (s.g.releaseOplock w) (.failed b) s.reads
  | running {f i g f'} (hpc : s.disp = .process f)
      (hproc : ProcMove clientId s.g f i g (.running f')) :
      DispMove s i g (.process f') s.reads
  | returned {f i g rc} (hpc : s.disp = .process f)
      (hproc : ProcMove clientId s.g f i g (.returned rc)) :
      DispMove s i g (if rc ≠ 0 then .failed f.buf else .cleanup f.buf) s.reads
  | failed {b} (hpc : s.disp = .failed b) :
      DispMove s .tau (s.g.writeRing (Globals.setResponseToInternalError (s.g.bufs b).request))
        (.cleanup b) s.reads
  | cleanup {b} (hpc : s.disp = .cleanup b) :
      DispMove s .tau (s.g.releaseBufferItem b) .reserve s.reads
  | wake {w} (hpc : s.disp = .wake w) :
      DispMove s .tau (s.g.modifyWorker w fun x =>
        { x with awaitingWorkSem := x.awaitingWorkSem + 1 }) .reserve s.reads
  | finiSet (hpc : s.disp = .finiSet) :
      DispMove s .tau { s.g with shutdownPending := true } (.finiPost 0) s.reads
  | finiPost {n} (hpc : s.disp = .finiPost n) (hn : n < maxThreadCount) :
      DispMove s .tau (s.g.modifyWorker n fun x =>
        { x with awaitingWorkSem := x.awaitingWorkSem + 1 }) (.finiJoin n) s.reads
  | finiDone {n} (hpc : s.disp = .finiPost n) (hn : ¬ n < maxThreadCount) :
      DispMove s .tau s.g .exited s.reads
  | finiJoin {n} (hpc : s.disp = .finiJoin n) (hw : s.pcs n = .exited) :
      DispMove s .tau s.g (.finiPost (n + 1)) s.reads

theorem lookupStep_move {s s' : State} {b : Nat} (hpc : s.disp = .lookup b)
    (h : lookupStep s b = some s') :
    DispMove clientId s .tau s'.g s'.disp s'.reads ∧ s'.pcs = s.pcs := by
  unfold lookupStep at h
  simp only [] at h
  split at h
  next ht => cases h; exact ⟨.noWorker hpc ht, rfl⟩
  next now ht =>
    split at h
    next hw => cases h; exact ⟨.existing hpc ht hw, rfl⟩
    next => cases h; exact ⟨.lookupFailed hpc, rfl⟩
    next => cases h
  next ht =>
    simp only [Globals.getWorkerThreadForFd, if_true] at h
    cases hw : s.g.availableSlot with
    | none => rw [hw] at h; cases h; exact ⟨.lookupFailed hpc, rfl⟩
    | some w => rw [hw] at h; cases h; exact ⟨.newWorker hpc ht hw, rfl⟩
  next => cases h; exact ⟨.lookupFailed hpc, rfl⟩

theorem dispatchStep_move {s s' : State} {b : Nat} (hpc : s.disp = .dispatch b)
    (h : dispatchStep clientId s b = some s') :
    DispMove clientId s .tau s'.g s'.disp s'.reads ∧ s'.pcs = s.pcs := by
  unfold dispatchStep at h
  split at h
  next hnow =>
    split at h
    next hcan => cases h; exact ⟨.start hpc hnow hcan, rfl⟩
    next => cases h
  next hnow =>
    have hnow := Bool.eq_false_iff.mpr hnow
    split at h
    next => cases h
    next w hw =>
      split at h
      next q hq => cases h; exact ⟨.enqueue hpc hnow hw hq, rfl⟩
      next hq => cases h; exact ⟨.queueFull hpc hnow hw hq, rfl⟩

theorem dispStep_move {s s' : State} {i : Input} (h : dispStep clientId s i = some s') :
    DispMove clientId s i s'.g s'.disp s'.reads ∧ s'.pcs = s.pcs := by
  unfold dispStep at h
  split at h
  next hpc =>
    split at h
    next b hb => cases h; exact ⟨.reserve hpc hb, rfl⟩
    next hfull => cases h; exact ⟨hpc ▸ .full hpc hfull, rfl⟩
  next b size req hpc =>
    simp only [] at h
    split at h
    next hsize => cases h; exact ⟨.stop hpc hsize, rfl⟩
    next hsize => cases h; exact ⟨.read hpc hsize, rfl⟩
  next hpc => exact lookupStep_move clientId hpc h
  next hpc =>
    split at h
    next hsem => cases h; exact ⟨.lock hpc hsem, rfl⟩
    next => cases h
  next hpc => exact dispatchStep_move clientId hpc h
  next f i hpc =>
    split at h
    next hproc => cases h; exact ⟨.running hpc (procStep_move clientId hproc), rfl⟩
    next hproc => cases h; exact ⟨.returned hpc (procStep_move clientId hproc), rfl⟩
    next => cases h
  next hpc => cases h; exact ⟨.failed hpc, rfl⟩
  next hpc => cases h; exact ⟨.cleanup hpc, rfl⟩
  next hpc => cases h; exact ⟨.wake hpc, rfl⟩
  next hpc => cases h; exact ⟨.finiSet hpc, rfl⟩
  next hpc =>
    split at h
    next hn => cases h; exact ⟨.finiPost hpc hn, rfl⟩
    next hn => cases h; exact ⟨.finiDone hpc hn, rfl⟩
  next hpc =>
    split at h
    next hw => cases h; exact ⟨.finiJoin hpc hw, rfl⟩
    next => cases h
  next => cases h

/-- The steps of worker thread `w`: the successor's globals and the thread's
program counter. -/
inductive WorkerMove (s : State) (w : Nat) : Input → Globals → WorkerPc → Prop where
  | wait (hpc : s.pcs w = .waiting) (hsem : 0 < (s.g.workers w).awaitingWorkSem) :
      WorkerMove s w .tau (s.g.modifyWorker w fun x =>
        { x with awaitingWorkSem := x.awaitingWorkSem - 1 }) .dequeue
  | empty (hpc : s.pcs w = .dequeue) (hq : (s.g.workers w).workQueue.dequeue = none) :
      WorkerMove s w .tau s.g (if s.g.shutdownPending then .exited else .waiting)
  | dequeue {b q} (hpc : s.pcs w = .dequeue)
      (hq : (s.g.workers w).workQueue.dequeue = some (b, q)) (hcan : canStart s.g b = true) :
      WorkerMove s w .tau (s.g.modifyWorker w fun x => { x with workQueue := q })
        (.process (Frame.start clientId
          (s.g.modifyWorker w fun x => { x with workQueue := q }) b))
  | running {f i g f'} (hpc : s.pcs w = .process f)
      (hproc : ProcMove clientId s.g f i g (.running f')) : WorkerMove s w i g (.process f')
  | returned {f i g rc} (hpc : s.pcs w = .process f)
      (hproc : ProcMove clientId s.g f i g (.returned rc)) : WorkerMove s w i g (.cleanup f.buf)
  | cleanup {b} (hpc : s.pcs w = .cleanup b) :
      WorkerMove s w .tau (s.g.releaseBufferItem b) .waiting

theorem workerStep_move {s s' : State} {w : Nat} {i : Input}
    (h : workerStep clientId s w i = some s') :
    ∃ pc, WorkerMove clientId s w i s'.g pc ∧
      s'.pcs = Function.update s.pcs w pc ∧ s'.disp = s.disp ∧ s'.reads = s.reads := by
  unfold workerStep at h
  split at h
  next hpc =>
    split at h
    next hsem => cases h; exact ⟨_, .wait hpc hsem, rfl, rfl, rfl⟩
    next => cases h
  next hpc =>
    split at h
    next hq => cases h; exact ⟨_, .empty hpc hq, rfl, rfl, rfl⟩
    next hq =>
      simp only [] at h
      split at h
      next hcan => cases h; exact ⟨_, .dequeue hpc hq hcan, rfl, rfl, rfl⟩
      next => cases h
  next hpc =>
    split at h
    next hproc => cases h; exact ⟨_, .running hpc (procStep_move clientId hproc), rfl, rfl, rfl⟩
    next hproc => cases h; exact ⟨_, .returned hpc (procStep_move clientId hproc), rfl, rfl, rfl⟩
    next => cases h
  next hpc => cases h; exact ⟨_, .cleanup hpc, rfl, rfl, rfl⟩
  next => cases h

end Moves

/-- What one event does, from the moves of the thread it names. -/
theorem step_rule {clientId : BitVec 16} {P : State → Prop} {s s' : State} {e : Event}
    (hstep : (ins clientId).step s e = some s')
    (hdisp : ∀ i g pc reads, e = .disp i → DispMove clientId s i g pc reads →
      P ⟨g, pc, s.pcs, reads⟩)
    (hworker : ∀ w i g pc, e = .worker w i → w < maxThreadCount → WorkerMove clientId s w i g pc →
      P ⟨g, s.disp, Function.update s.pcs w pc, s.reads⟩) : P s' := by
  obtain ⟨g', disp', pcs', reads'⟩ := s'
  cases e with
  | disp i =>
      obtain ⟨hmove, hpcs⟩ := dispStep_move clientId hstep
      cases hpcs
      exact hdisp i g' disp' reads' rfl hmove
  | worker w i =>
      simp only [ins, Ins.step] at hstep
      split at hstep
      · next hw =>
          obtain ⟨pc, hmove, hpcs, hdisp', hreads⟩ := workerStep_move clientId hstep
          cases hpcs
          cases hdisp'
          cases hreads
          exact hworker w i g' pc rfl hw hmove
      · cases hstep

end MagicWand.Ins
