import MagicWand.Foundation.Script
import MagicWand.Message

/-!
# The INS and its native TCP/IP stack

What the request handlers of `networking.c` and `pollset.c` see: the native
calls they make and the outcomes of those calls, the translation of native
errno values (`xe_get_mwerrno`), and the part of the global state that belongs
to sockets and statistics.
-/

namespace MagicWand.Ins

open Foundation

/-- `MAX_THREAD_COUNT`: worker threads, and so concurrent sockets. -/
def maxThreadCount : Nat := 50

/-- `BUFFER_ITEM_COUNT`. -/
def bufferItemCount : Nat := maxThreadCount + 50

/-! ## Native errno values -/

def eintr : Int := 4
def eagain : Int := 35
def enobufs : Int := 55

/-- `MW_EPIPE`. -/
def mwEpipe : Int := 32

/-- The table `_emap` of `xe_get_mwerrno`: NetBSD value, standardised value.
`MW_EWOULDBLOCK` is spelled `EAGAIN` in `mwerrno.h`, so on the INS it is the
native 35; the entry is shadowed by that of `EAGAIN`. -/
def emap : List (Int × Int) :=
  [(1, 1), (2, 2), (3, 3), (4, 4), (5, 5), (6, 6), (7, 7), (8, 8), (9, 9), (10, 10),
   (35, 11), (12, 12), (13, 13), (14, 14), (15, 15), (16, 16), (17, 17), (18, 18), (19, 19),
   (20, 20), (21, 21), (22, 22), (23, 23), (24, 24), (25, 25), (26, 26), (27, 27), (28, 28),
   (29, 29), (30, 30), (31, 31), (32, 32), (33, 33), (34, 34), (11, 35), (63, 36), (77, 37),
   (78, 38), (66, 39), (62, 40), (35, 35), (83, 42), (82, 43), (91, 60), (89, 61), (92, 62),
   (90, 63), (71, 66), (95, 67), (96, 71), (94, 72), (88, 74), (84, 75), (68, 87), (38, 88),
   (39, 89), (40, 90), (41, 91), (42, 92), (43, 93), (44, 94), (45, 95), (46, 96), (47, 97),
   (48, 98), (49, 99), (50, 100), (51, 101), (52, 102), (53, 103), (54, 104), (55, 105),
   (56, 106), (57, 107), (58, 108), (59, 109), (60, 110), (61, 111), (64, 112), (65, 113),
   (37, 114), (36, 115), (70, 116)]

/-- The generic error is `MW_EPERM`. -/
def xeGetMwerrno (nativeErrno : Int) : Int :=
  if nativeErrno = 0 then 0
  else (emap.lookup nativeErrno).getD 1

/-- `XE_GET_NEG_ERRNO_VAL`. -/
def xeGetNegErrnoVal (err : Int) : Int :=
  if 0 < err then -xeGetMwerrno err else -1

/-! ## Poll events -/

def pollIn : BitVec 32 := 0x0001
def pollPri : BitVec 32 := 0x0002
def pollOut : BitVec 32 := 0x0004
def pollErr : BitVec 32 := 0x0008
def pollHup : BitVec 32 := 0x0010
def pollNval : BitVec 32 := 0x0020
def pollRdnorm : BitVec 32 := 0x0040
def pollWrnorm : BitVec 32 := pollOut

/-! ## Native calls -/

/-- The descriptor a call is made on: that of the worker the request was
assigned to, read when the call is made, or a descriptor the handler holds. -/
inductive FdRef where
  | worker
  | fd (n : Int)
deriving DecidableEq, Repr

inductive SockOpt where
  | reuseaddr
  | reuseport
  | keepalive
  | nodelay
  | sndBuf
  | rcvBuf
  | sndTimeo
  | rcvTimeo
  | sndLoWat
  | rcvLoWat
  | acceptFilter
  | error
deriving DecidableEq, Repr

inductive NativeCall where
  | socket (domain : BitVec 8) (type : Int) (protocol : BitVec 32)
  | bind (fd : FdRef) (addr : SockaddrIn)
  | listen (fd : FdRef) (backlog : Int)
  | accept (fd : FdRef)
  | connect (fd : FdRef) (addr : SockaddrIn)
  | shutdown (fd : FdRef) (how : BitVec 32)
  | close (fd : FdRef)
  | send (fd : FdRef) (bytes : List (BitVec 8)) (flags : MtFlags)
  | recv (fd : FdRef) (len : Nat) (flags : MtFlags)
  | recvfrom (fd : FdRef) (len : Nat) (flags : MtFlags)
  /-- `poll` on one descriptor without a timeout. -/
  | pollOne (fd : FdRef) (events : BitVec 32)
  /-- `poll` on all worker slots, `none` for a slot that is not in use. -/
  | pollAll (fds : List (Option Int))
  | getsockname (fd : FdRef) (len : Nat)
  | getpeername (fd : FdRef) (len : Nat)
  | getsockopt (fd : FdRef) (opt : SockOpt)
  | setsockopt (fd : FdRef) (opt : SockOpt) (val : MtSockfeatArg)
  /-- `setsockopt` with `SO_ACCEPTFILTER`, whose value is the name of a filter. -/
  | setAcceptFilter (fd : FdRef) (afName : String)
  | fcntlGet (fd : FdRef)
  | fcntlSet (fd : FdRef) (flags : BitVec 32)
deriving DecidableEq, Repr

/-- What a native call returns and stores. Each call uses the fields that
belong to it. -/
structure Outcome where
  ret : Int := 0
  errno : Int := 0
  data : List (BitVec 8) := []
  addr : SockaddrIn := {}
  len : Nat := 0
  val : MtSockfeatArg := {}
  revents : List (BitVec 32) := []
deriving DecidableEq, Repr

abbrev Native := Script NativeCall Outcome

def native (c : NativeCall) : Native Outcome := Script.ask c

/-! ## Socket state -/

/-- The socket part of `thread_item_t`; `init_state` zeroes it. -/
structure Socket where
  publicFd : MwSocketFd := 0
  localFd : Int := 0
  pollEvents : BitVec 32 := 0
  stateFlags : MtFlags := 0
  sockDomain : BitVec 8 := 0
  sockType : Int := 0
  sockProtocol : BitVec 32 := 0
  boundPortNum : BitVec 16 := 0
deriving DecidableEq, Repr

/-! The parameters `so_sndbuf`, `so_rcvbuf`, `so_sndtimeo` and `so_rcvtimeo` of
the global state. No code assigns them, so they keep the zero of `init_state`. -/

def soSndbuf : BitVec 32 := 0
def soRcvbuf : BitVec 32 := 0
def soSndtimeo : MtSockfeatArg := {}
def soRcvtimeo : MtSockfeatArg := {}

/-- The sockets of the worker slots, the statistics, the pending change of the
listening ports and the cursor of `xe_pollset_query`. -/
structure NetState where
  sock : Nat → Socket := fun _ => {}
  socketCt : Int := 0
  bytesRecv : Nat := 0
  bytesSent : Nat := 0
  pendingPortChange : Bool := false
  pollPos : Nat := 0

namespace NetState

def modifySock (n : NetState) (slot : Nat) (f : Socket → Socket) : NetState :=
  { n with sock := fun i => if i = slot then f (n.sock i) else n.sock i }

end NetState

/-- What a request handler hands back: its return code, the response it built,
and what it did to the socket state. -/
structure HandlerResult where
  rc : Int := 0
  response : MtResponse
  effect : NetState → NetState := id

end MagicWand.Ins
