import MagicWand.Foundation.Bytes
import MagicWand.Foundation.Transition
import MagicWand.Ins.Networking
import MagicWand.Kernel.State

/-!
# send() in the shim, down to the INS

`tcp_ip_wrapper.c` splits the buffer of a `send` into chunks and writes them to
the driver one after the other; only the last one is waited for. This module
puts one application thread that calls `send` again and again on one mwsocket
together with the driver's view of that socket, the requests on their way to the
INS and the responses on their way back.

The driver finds for each response the request it answers, so a message carries
its request here. The worker of the socket takes requests in order and echoes
their flags; the dispatcher of the INS answers a request it cannot dispatch
itself, out of order and without flags. `call`, `report`, `chunks`, `finals` are
history variables: which call of `send` a message belongs to, the bytes the INS
has reported sent for each call, the requests of the latest call, and the counts
that reached the caller with a final response.
-/

namespace MagicWand.Shim

open Foundation Kernel

/-! ## The loop of send() -/

/-- The locals of `send`; `flags` are `request.base.flags`. -/
structure SendCall where
  buf : List Byte
  opFlags : MtFlags := 0
  totSent : Nat := 0
  flags : MtFlags := MtFlags.batchSendInit ||| MtFlags.batchSend
  final : Bool := false
  rc : Int := 0
  response : MtResponse := {}
deriving DecidableEq, Repr

namespace SendCall

def chunksz (c : SendCall) : Nat := min messageTypeMaxPayloadLen (c.buf.length - c.totSent)

/-- Is this the chunk that ends the buffer? -/
def isLast (c : SendCall) : Bool := c.buf.length == c.totSent + c.chunksz

/-- The head of the loop body, and the flag that `mwcomms_write_request` sets in
the request when it is told to wait. -/
def arrange (c : SendCall) : SendCall :=
  let flags := if 0 < c.totSent then c.flags &&& ~~~MtFlags.batchSendInit else c.flags
  let flags := if c.isLast then flags ||| MtFlags.batchSendFini else flags
  let final := c.final || c.isLast
  { c with
    flags := if final then flags ||| MtFlags.pvmCallerAwaitsResponse else flags
    final := final }

/-- The request for the current chunk. -/
def request (c : SendCall) : MtRequest :=
  { type := .socketSend
    size := mtRequestSocketSendSize + c.chunksz
    flags := c.flags
    opFlags := c.opFlags
    bytes := (c.buf.drop c.totSent).take c.chunksz }

def advance (c : SendCall) : SendCall := { c with totSent := c.totSent + c.chunksz, rc := 0 }

/-- What `send` returns after its loop. -/
def result (c : SendCall) : Int :=
  if 0 < c.response.count then c.response.count
  else if c.rc = 0 then -1
  else c.rc

end SendCall

/-! ## The state -/

/-- A published request; `live` tells whether its active request still exists. -/
structure Sent where
  call : Nat
  request : MtRequest
  live : Bool := true
deriving DecidableEq, Repr

structure Answered where
  sent : Sent
  response : MtResponse
deriving DecidableEq, Repr

inductive SendPc where
  | idle
  | loop (c : SendCall)
  | wait (c : SendCall)
deriving DecidableEq, Repr

structure Sender where
  sock : SockInst
  pc : SendPc := .idle
  pending : List Sent := []
  ring : List Answered := []
  delivered : Option Answered := none
  returned : Option Int := none
  nextId : MtId := 1
  calls : Nat := 0
  chunks : List MtRequest := []
  report : Nat → Nat := fun _ => 0
  finals : List (Nat × Nat) := []

/-- How a write to the driver ends, beyond what the state decides: the driver
cannot allocate an active request, gets no slot on the ring, publishes the
request, or publishes it and fails to notify the INS. -/
inductive WriteOutcome where
  | noMemory
  | refused
  | granted
  | unnotified
deriving DecidableEq, Repr

inductive SendEvent where
  | call (buf : List Byte) (opFlags : MtFlags)
  | write (w : WriteOutcome)
  /-- The worker answers the oldest request. -/
  | serve (count : Nat) (status : Int) (closed : Bool)
  /-- The dispatcher answers the `k`-th request with an internal error; the count
  field is not part of that answer, its memory holds `stale`. -/
  | dispatchError (k stale : Nat)
  | consume
  | read
deriving DecidableEq, Repr

/-! ## The driver -/

def enomem : Int := 12

/-- Does `mwsocket_write` turn a Send request down before it publishes anything?
Then: the socket after it, and the error. -/
def writeRefusal (k : SockInst) (w : WriteOutcome) : Option (SockInst × Int) :=
  if !k.insAlive then some ({ k with readExpected := false }, -einval)
  else if w = .noMemory then some ({ k with readExpected := false }, -enomem)
  else
    let (rc, k) := mwsocketPendingError k .socketSend
    if rc ≠ 0 then some ({ k with readExpected := false }, rc)
    else if w = .refused then some ({ k with readExpected := false, insAlive := false }, -einval)
    else none

/-- The request as `mwsocket_send_request` puts it on the ring. -/
def stamped (s : Sender) (req : MtRequest) : MtRequest :=
  { req with id := s.nextId, sockfd := s.sock.remoteFd }

def publish (s : Sender) (req : MtRequest) (live : Bool) : Sender :=
  { s with
    sock := s.sock.preProcess s.nextId (stamped s req) false
    pending := s.pending ++ [⟨s.calls, stamped s req, live⟩]
    chunks := s.chunks ++ [stamped s req]
    nextId := s.nextId + 1 }

/-- `mwsocket_write` with the semaphore held, for a Send request: the state after
it and the return code. When the notification fails, the request is on the ring
but its active request is destroyed. -/
def mwsocketWrite (s : Sender) (req : MtRequest) (w : WriteOutcome) : Sender × Int :=
  match writeRefusal s.sock w with
  | some (k, rc) => ({ s with sock := k }, rc)
  | none =>
      if w = .unnotified then
        let s := publish s req false
        ({ s with sock := { s.sock with readExpected := false } }, -einval)
      else (publish s req true, 0)

/-- The response of the worker: `xe_net_send_socket` and `post_process_response`. -/
def workerResponse (req : MtRequest) (count : Nat) (status : Int) (closed : Bool) : MtResponse :=
  { Ins.xeNetSetBaseResponse req mtResponseSocketSendSize
      { count := count, status := status, opFlags := req.opFlags } with
    flags := req.flags ||| (if closed then MtFlags.remoteClosed else 0) }

/-- `set_response_to_internal_error`, read as a Send response. -/
def dispatchResponse (req : MtRequest) (stale : Nat) : MtResponse :=
  { sig := mtSignatureResponse
    type := .of .socketSend
    size := mtResponseBaseSize
    id := req.id
    sockfd := req.sockfd
    status := mtStatusInternalError
    count := stale }

/-- One round of the response consumer, for the response of a live request. -/
def postprocSend (sock : SockInst) (a : Answered) : SockInst × MtResponse :=
  let (sock, resp) := sock.absorb a.sent.request.id a.response
  (if resp.status < 0 then sock else sock.recordSuccess resp, resp)

/-! ## The steps -/

namespace Sender

def finish (s : Sender) (c : SendCall) : Sender :=
  { s with pc := .idle, returned := some c.result }

/-- The loop condition. -/
def settle (s : Sender) (c : SendCall) : Sender :=
  if c.totSent < c.buf.length then { s with pc := .loop c } else s.finish c

/-- A failed request: once more with `final`, or out of the loop. -/
def failure (s : Sender) (c : SendCall) : Sender :=
  if c.final then s.finish { c with rc := -1 }
  else { s with pc := .loop { c with rc := -1, final := true } }

def writeStep (s : Sender) (c : SendCall) (w : WriteOutcome) : Sender :=
  let c := c.arrange
  let (s, rc) := mwsocketWrite s c.request w
  if rc < 0 then s.failure c
  else if c.final then { s with pc := .wait c }
  else s.settle c.advance

/-- `mwsocket_read` has found the response: deliver it, or a pending error. The
shim compares the -1 of a failed read with an unsigned size, does not notice it
and goes on with the response it had before. -/
def readStep (s : Sender) (c : SendCall) (a : Answered) : Sender :=
  let (rc, sock) := mwsocketPendingError s.sock .socketSend
  let c := if rc ≠ 0 then c else { c with response := a.response }
  let s := { s with
    sock := sock
    delivered := none
    finals :=
      if rc = 0 ∧ a.response.flags.has MtFlags.batchSendFini
      then s.finals ++ [(a.sent.call, a.response.count)] else s.finals }
  if isCriticalError c.response.status || decide (c.response.status < 0) then s.failure c
  else s.settle c.advance

def consumeStep (s : Sender) (a : Answered) (rest : List Answered) : Sender :=
  if a.sent.live then
    let (sock, resp) := postprocSend s.sock a
    { s with
      sock := sock
      ring := rest
      delivered := if a.sent.request.callerWaits then some { a with response := resp }
        else s.delivered }
  else { s with ring := rest }

def step (s : Sender) : SendEvent → Option Sender
  | .call buf opFlags =>
      match s.pc with
      | .idle =>
          some ({ s with calls := s.calls + 1, chunks := [], returned := none }.settle
            { buf := buf, opFlags := opFlags })
      | _ => none
  | .write w =>
      match s.pc with
      | .loop c => if s.sock.closeWriter then none else some (s.writeStep c w)
      | _ => none
  | .serve count status closed =>
      match s.pending with
      | [] => none
      | p :: rest =>
          if count ≤ (Ins.sendPayload p.request).length then
            some { s with
              pending := rest
              ring := s.ring ++ [⟨p, workerResponse p.request count status closed⟩]
              report := Function.update s.report p.call (s.report p.call + count) }
          else none
  | .dispatchError k stale =>
      match s.pending[k]? with
      | none => none
      | some p =>
          if stale < 2 ^ 16 then
            some { s with
              pending := s.pending.eraseIdx k
              ring := s.ring ++ [⟨p, dispatchResponse p.request stale⟩] }
          else none
  | .consume =>
      match s.ring with
      | [] => none
      | a :: rest => some (s.consumeStep a rest)
  | .read =>
      match s.pc, s.delivered with
      | .wait c, some a => some (s.readStep c a)
      | _, _ => none

end Sender

/-- The socket, in any state, between two calls of `send`. -/
def sender (sock : SockInst) : System Sender SendEvent where
  init := { sock := sock }
  step := Sender.step

end MagicWand.Shim
