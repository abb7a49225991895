import MagicWand.Ins.Pollset
import MagicWand.Ins.WorkQueue

/-!
# The shared state of the INS

`xenevent.c`: buffer items, worker slots and the operations on them that both
the dispatcher and the worker threads use. The scheduler does not preempt, and
reservations use compare-and-swap, so each operation here is one step.

Two history variables are not in the source. `gen` counts how often a slot has
been acquired, so that a slot together with its `gen` names one socket
incarnation; `natives` remembers the native descriptor that a create or an
accept gave to an incarnation.
-/

namespace MagicWand.Ins

open Foundation

/-- `buffer_item_t`; `gen` is the incarnation of the assigned slot. -/
structure BufferItem where
  inUse : Bool := false
  request : MtRequest := {}
  assignedThread : Option Nat := none
  gen : Nat := 0

theorem bufferItemCount_pos : 0 < bufferItemCount := by decide

/-- The part of `thread_item_t` that belongs to the scheduling of its thread;
the socket part is in `NetState`. -/
structure ThreadItem where
  inUse : Bool := false
  workQueue : WorkQueue := WorkQueue.alloc bufferItemCount bufferItemCount_pos
  awaitingWorkSem : Nat := 0
  oplock : Nat := 1
  oplockAcquired : Bool := false
  gen : Nat := 0

/-- `xenevent_globals_t`, with the responses written to the ring so far and the
string of listening ports published last. -/
structure Globals where
  net : NetState := {}
  bufs : Nat → BufferItem := fun _ => {}
  workers : Nat → ThreadItem := fun _ => {}
  shutdownPending : Bool := false
  ring : List MtResponse := []
  listeningPorts : List Char := []
  natives : Nat → Nat → Option Int := fun _ _ => none

namespace Globals

def modifyBuf (g : Globals) (b : Nat) (f : BufferItem → BufferItem) : Globals :=
  { g with bufs := Function.update g.bufs b (f (g.bufs b)) }

def modifyWorker (g : Globals) (w : Nat) (f : ThreadItem → ThreadItem) : Globals :=
  { g with workers := Function.update g.workers w (f (g.workers w)) }

def setNative (g : Globals) (w gen : Nat) (fd : Int) : Globals :=
  { g with natives := Function.update g.natives w (Function.update (g.natives w) gen (some fd)) }

/-! ## Buffer items -/

/-- The buffer that `reserve_available_buffer_item` finds. -/
def availableBuffer (g : Globals) : Option Nat :=
  (List.range bufferItemCount).find? fun i => !(g.bufs i).inUse

def reserveBufferItem (g : Globals) (b : Nat) : Globals :=
  g.modifyBuf b fun x => { x with inUse := true }

def releaseBufferItem (g : Globals) (b : Nat) : Globals :=
  g.modifyBuf b fun x => if x.inUse then { x with inUse := false, assignedThread := none } else x

/-! ## Worker slots -/

/-- The slot that `get_worker_thread_for_fd` acquires for a new socket. -/
def availableSlot (g : Globals) : Option Nat :=
  (List.range maxThreadCount).find? fun i => !(g.workers i).inUse

def acquireSlot (g : Globals) (w : Nat) : Globals :=
  g.modifyWorker w fun x => { x with inUse := true, gen := x.gen + 1 }

/-- `release_worker_thread`. -/
def releaseWorkerThread (g : Globals) (w : Nat) : Globals :=
  { g with
    net := (xeNetInternalCloseSocket w g.net).modifySock w fun x =>
      { x with
        pollEvents := 0
        stateFlags := 0
        sockDomain := 0
        sockType := 0
        sockProtocol := 0
        boundPortNum := 0 } }.modifyWorker w fun x => { x with inUse := false }

/-- What `get_worker_thread_for_fd` ends with. A descriptor whose id has its
highest bit set gives a negative index; the source then reads outside of the
array. -/
inductive Lookup where
  | found (slot : Nat) (g : Globals)
  | failed
  | outOfBounds (idx : Int)

/-- `get_worker_thread_for_fd`. -/
def getWorkerThreadForFd (g : Globals) (fd : MwSocketFd) : Lookup :=
  if fd = mtInvalidSocketFd then
    match g.availableSlot with
    | some w => .found w (g.acquireSlot w)
    | none => .failed
  else
    let idx : Int := ((mwSocketGetId fd).setWidth 32).toInt
    if (maxThreadCount : Int) ≤ idx then .failed
    else if idx < 0 then .outOfBounds idx
    else if (g.workers idx.toNat).inUse = false then .failed
    else if fd ≠ (g.net.sock idx.toNat).publicFd then .failed
    else .found idx.toNat g

/-- A lookup that failed, or that found a slot in use which belongs to `fd`. -/
def Lookup.InRange (fd : MwSocketFd) : Lookup → Prop
  | .found w g => w < maxThreadCount ∧ (g.workers w).inUse ∧ (g.net.sock w).publicFd = fd
  | .failed => True
  | .outOfBounds _ => False

/-- The slot that is found exists and is free. -/
theorem availableSlot_spec {g : Globals} {w : Nat} (h : g.availableSlot = some w) :
    w < maxThreadCount ∧ (g.workers w).inUse = false := by
  have hmem := List.mem_of_find?_eq_some h
  have hfree := List.find?_some h
  exact ⟨List.mem_range.mp hmem, by simpa using hfree⟩

theorem mwSocketGetId_lt (fd : MwSocketFd) : (mwSocketGetId fd).toNat < 2 ^ 32 := by
  unfold mwSocketGetId
  rw [BitVec.toNat_and]
  exact Nat.and_lt_two_pow _ (by decide)

/-- The index is the id as long as its highest bit is clear. -/
theorem index_eq_ite (fd : MwSocketFd) :
    ((mwSocketGetId fd).setWidth 32).toInt =
      if (mwSocketGetId fd).toNat < 2 ^ 31 then ((mwSocketGetId fd).toNat : Int)
      else (mwSocketGetId fd).toNat - 2 ^ 32 := by
  rw [BitVec.toInt_eq_toNat_cond, BitVec.toNat_setWidth, Nat.mod_eq_of_lt (mwSocketGetId_lt fd)]
  split <;> split <;> omega

/-- The slot that is acquired for a new socket keeps the descriptor it had. -/
theorem lookup_new_inRange_iff (g : Globals) :
    (g.getWorkerThreadForFd mtInvalidSocketFd).InRange mtInvalidSocketFd ↔
      ∀ w, g.availableSlot = some w → (g.net.sock w).publicFd = mtInvalidSocketFd := by
  unfold getWorkerThreadForFd
  rw [if_pos rfl]
  cases hslot : g.availableSlot with
  | none => simp [Lookup.InRange]
  | some w =>
      constructor
      · rintro ⟨-, -, hfd⟩ v ⟨⟩
        exact hfd
      · intro h
        refine ⟨(availableSlot_spec hslot).1, ?_, h w rfl⟩
        simp [acquireSlot, modifyWorker]

/-- Only an id whose highest bit is set leads outside of the array. -/
theorem lookup_named_inRange_iff (g : Globals) {fd : MwSocketFd} (hfd : fd ≠ mtInvalidSocketFd) :
    (g.getWorkerThreadForFd fd).InRange fd ↔ (mwSocketGetId fd).toNat < 2 ^ 31 := by
  have hlt := mwSocketGetId_lt fd
  unfold getWorkerThreadForFd
  rw [if_neg hfd]
  simp only [index_eq_ite]
  by_cases hid : (mwSocketGetId fd).toNat < 2 ^ 31
  · rw [if_pos hid, iff_true_right hid]
    split
    · trivial
    · rename_i hidx
      rw [if_neg (by omega), Int.toNat_natCast]
      split
      · trivial
      · rename_i huse
        split
        · trivial
        · rename_i hpub
          exact ⟨by omega, by simpa using huse, (not_not.mp hpub).symm⟩
  · -- the index is below every slot, so no comparison stops the access
    have hmax : 0 ≤ (maxThreadCount : Int) := Int.natCast_nonneg _
    rw [if_neg hid, if_neg (by omega), if_pos (by omega)]
    exact iff_of_false id hid

/-- **When the lookup of a worker is in range.** -/
theorem worker_lookup_in_range_iff (g : Globals) (fd : MwSocketFd) :
    (g.getWorkerThreadForFd fd).InRange fd ↔
      (fd ≠ mtInvalidSocketFd ∧ (mwSocketGetId fd).toNat < 2 ^ 31) ∨
      (fd = mtInvalidSocketFd ∧
        ∀ w, g.availableSlot = some w → (g.net.sock w).publicFd = mtInvalidSocketFd) := by
  by_cases hfd : fd = mtInvalidSocketFd
  · subst hfd
    rw [lookup_new_inRange_iff]
    simp
  · rw [lookup_named_inRange_iff g hfd]
    simp [hfd]

/-- The id `0x80000000` gives the index `-2147483648`. -/
theorem worker_lookup_out_of_range :
    ({} : Globals).getWorkerThreadForFd 0x5300050080000000#64 = .outOfBounds (-2147483648) ∧
    ¬ (({} : Globals).getWorkerThreadForFd 0x5300050080000000#64).InRange 0x5300050080000000#64 :=
  have hlookup : ({} : Globals).getWorkerThreadForFd 0x5300050080000000#64 =
      .outOfBounds (-2147483648) := rfl
  ⟨hlookup, by rw [hlookup]; exact id⟩

/-- Give back the operation lock of a slot if it is held. -/
def releaseOplock (g : Globals) (w : Nat) : Globals :=
  if (g.workers w).oplockAcquired then
    g.modifyWorker w fun x => { x with oplockAcquired := false, oplock := x.oplock + 1 }
  else g

/-! ## Responses -/

/-- `set_response_to_internal_error`. -/
def setResponseToInternalError (req : MtRequest) : MtResponse where
  sig := mtSignatureResponse
  type := .of req.type
  size := mtResponseBaseSize
  id := req.id
  sockfd := req.sockfd
  status := mtStatusInternalError

/-- Put one response on the ring. `xe_comms_write_item` always succeeds. -/
def writeRing (g : Globals) (resp : MtResponse) : Globals := { g with ring := g.ring ++ [resp] }

/-- `INS_LISTENING_PORTS_MAX_LEN`. -/
def insListeningPortsMaxLen : Nat := 1024

/-- The text `"%x "` of a port. -/
def portText (port : BitVec 16) : List Char := Nat.toDigits 16 port.toNat ++ [' ']

/-- The string `update_listening_ports` builds, `none` when it gets too long. -/
def listeningPortsText : List (BitVec 16) → List Char → Option (List Char)
  | [], acc => some acc
  | p :: ps, acc =>
      if insListeningPortsMaxLen - (portText p).length - 1 < acc.length then none
      else listeningPortsText ps (acc ++ portText p)

/-- The nonzero ports of the slots in use. -/
def boundPorts (g : Globals) : List (BitVec 16) :=
  (List.range maxThreadCount).filterMap fun i =>
    if (g.workers i).inUse ∧ (g.net.sock i).boundPortNum ≠ 0
    then some (g.net.sock i).boundPortNum else none

/-- `update_listening_ports`; its caller ignores the result. -/
def updateListeningPorts (g : Globals) : Globals :=
  if g.net.pendingPortChange then
    { g with
      net := { g.net with pendingPortChange := false }
      listeningPorts := (listeningPortsText g.boundPorts []).getD g.listeningPorts }
  else g

/-- The accept case of `post_process_response`: give the new socket to an
available slot, or close it again and fail the request. -/
def assignAccepted (clientId : BitVec 16) (resp : MtResponse) (g : Globals) :
    MtResponse × Globals :=
  match g.availableSlot with
  | none => ({ resp with status := mtStatusInternalError }, g)
  | some w =>
      let fd := mwSocketCreate clientId (BitVec.ofNat 64 w)
      let g := g.acquireSlot w
      ({ resp with status := (fd.setWidth 32).toInt, sockfd := fd },
       { g with
         net := g.net.modifySock w fun x =>
           { x with publicFd := fd, localFd := resp.status } }.setNative
         w (g.workers w).gen resp.status)

/-- `post_process_response`. -/
def postProcessResponse (clientId : BitVec 16) (req : MtRequest) (worker : Option Nat)
    (resp : MtResponse) (g : Globals) : MtResponse × Globals :=
  let state := match worker with
    | some w => (g.net.sock w).stateFlags
    | none => 0
  let resp := { resp with flags := resp.flags ||| req.flags ||| state }
  if req.type = .socketAccept ∧ 0 ≤ resp.status then
    let r := assignAccepted clientId resp g
    (r.1, r.2.updateListeningPorts)
  else (resp, g.updateListeningPorts)

end Globals

end MagicWand.Ins
