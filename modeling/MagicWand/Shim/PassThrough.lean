import MagicWand.Foundation.Bytes

/-!
# Descriptors that are not the shim's

`tcp_ip_wrapper.c` stands in front of libc for every process it is loaded into, and
for every descriptor of it. A wrapper asks the driver whether the descriptor is an
mwsocket. If it is not, the wrapper calls libc, writes a message to its log and
returns. Twenty wrappers do this, each with an exit of its own: most keep errno
over the message, some do not, and some look at the caller's memory for the
message.

What the calls do on an mwsocket is in `Recv`, `Send`, `Batch`, `Creation` and
`Options`. Here those that go to the driver are a parameter.
-/

namespace MagicWand.Shim

open Foundation Bytes

/-! ## The process -/

/-- The memory of a process. An address that is not mapped has no byte. -/
abbrev Memory := Nat → Option Byte

namespace Memory

def load (m : Memory) (a n : Nat) : Option (List Byte) := (List.range n).mapM fun i => m (a + i)

/-- `n` bytes can be read at an address. -/
def Readable (m : Memory) (a n : Nat) : Prop := (m.load a n).isSome

instance (m : Memory) (a n : Nat) : Decidable (m.Readable a n) :=
  inferInstanceAs (Decidable (_ = true))

/-- A pointer or a `size_t`. -/
def word (m : Memory) (a : Nat) : Option Nat := (m.load a 8).map leNat

end Memory

structure UserState where
  errno : Int
  mem : Memory

/-- How a call ends for the process. -/
inductive Ending where
  | crashed
  | returned (rc : Int) (p : UserState)

def Ending.andThen : Ending → (Int → UserState → Ending) → Ending
  | .crashed, _ => .crashed
  | .returned rc p, next => next rc p

/-- What a call of libc leaves behind: the register with its value, errno and the
memory. -/
structure LibcOutcome where
  rax : BitVec 64
  errno : Int
  mem : Memory

namespace LibcOutcome

/-- The value of a function that returns an `int`. -/
def int (o : LibcOutcome) : Int := (o.rax.setWidth 32).toInt

/-- The value of a function that returns a `ssize_t`. -/
def ssize (o : LibcOutcome) : Int := o.rax.toInt

/-- The process when libc has returned. -/
def after (o : LibcOutcome) : UserState := { errno := o.errno, mem := o.mem }

/-- Only a value that an `int` can have survives where a `ssize_t` is taken for one. -/
theorem int_eq_ssize_iff (o : LibcOutcome) :
    o.int = o.ssize ↔ -2 ^ 31 ≤ o.ssize ∧ o.ssize < 2 ^ 31 := by
  have hint : o.int = o.ssize.bmod (2 ^ 32) := by
    rw [int, ssize, BitVec.toInt_setWidth, BitVec.toInt_eq_toNat_bmod]
    exact (Int.bmod_bmod_of_dvd (by decide)).symm
  rw [hint]
  constructor
  · intro h
    rw [← h]
    exact ⟨Int.le_bmod (by decide), Int.bmod_lt (by decide)⟩
  · rintro ⟨hle, hlt⟩
    exact Int.bmod_eq_of_le hle hlt

end LibcOutcome

/-! ## Calls -/

/-- The calls that the shim interposes. Pointers are addresses. -/
inductive Call where
  | socket (domain : Int) (type : BitVec 32) (protocol : Int)
  | close (fd : Int)
  | bind (fd : Int) (sockAddr addrLen : Nat)
  | listen (fd backLog : Int)
  | accept (fd : Int) (sockAddr sockLen : Nat)
  | accept4 (fd : Int) (sockAddr sockLen : Nat) (flags : BitVec 32)
  | recvfrom (fd : Int) (buf len : Nat) (flags : Int) (srcAddr addrLen : Nat)
  | recv (fd : Int) (buf len : Nat) (flags : Int)
  | read (fd : Int) (buf count : Nat)
  | readv (fd : Int) (iov : Nat) (iovCt : Int)
  | connect (fd : Int) (addr addrLen : Nat)
  | send (fd : Int) (buf len : Nat) (flags : Int)
  | write (fd : Int) (buf count : Nat)
  | writev (fd : Int) (iov : Nat) (iovCt : Int)
  | shutdown (fd how : Int)
  | getsockopt (fd level optName : Int) (optVal optLen : Nat)
  | setsockopt (fd level optName : Int) (optVal optLen : Nat)
  | getsockname (fd : Int) (addr addrLen : Nat)
  | getpeername (fd : Int) (addr addrLen : Nat)
  | fcntl (fd cmd : Int) (arg : Nat)
deriving DecidableEq, Repr

/-- The value that libc returns for a call. -/
def Call.value (c : Call) (o : LibcOutcome) : Int :=
  match c with
  | .recvfrom .. | .recv .. | .read .. | .readv .. | .send .. | .write .. | .writev .. => o.ssize
  | _ => o.int

/-- The levels of log messages. -/
inductive LogLevel where
  | force
  | fatal
  | error
  | warn
  | notice
  | info
  | debug
  | verbose
deriving DecidableEq, Repr

def LogLevel.code : LogLevel → Nat
  | .force => 0
  | .fatal => 10
  | .error => 20
  | .warn => 30
  | .notice => 40
  | .info => 50
  | .debug => 60
  | .verbose => 70

/-- The shim in a process: what the driver says to `MW_IOCTL_IS_MWSOCKET` (or its
errno), what libc does, the level of the log if it has been opened and what
writing a message makes of errno, and what the driver makes of a call on an
mwsocket. libc's recv is its recvfrom without an address. -/
structure Interposer where
  verify : Int → Except Int Bool
  libc : Call → Memory → LibcOutcome
  log : Option LogLevel
  noise : Int → Int
  onMwsocket : Call → UserState → Ending
  libc_recv : ∀ fd buf len flags,
    libc (.recv fd buf len flags) = libc (.recvfrom fd buf len flags 0 0)

namespace Interposer

/-- `log_write`. -/
def logWrite (w : Interposer) (level : LogLevel) (p : UserState) : UserState :=
  match w.log with
  | none => p
  | some loglevel =>
      if level.code ≤ loglevel.code then { p with errno := w.noise p.errno } else p

/-- `mwcomms_is_mwsocket`. -/
def mwcommsIsMwsocket (w : Interposer) (fd : Int) (p : UserState) : Bool × UserState :=
  if fd < 0 then (false, p)
  else
    match w.verify fd with
    | .error errno => (false, w.logWrite .debug { p with errno := errno })
    | .ok isMwsocket => (isMwsocket, p)

/-- A wrapper: its code for mwsockets, and that for other descriptors. -/
def wrap (w : Interposer) (fd : Int) (ours native : UserState → Ending) (p : UserState) : Ending :=
  let (isMwsocket, p) := w.mwcommsIsMwsocket fd p
  if isMwsocket then ours p else native p

/-- What the arguments of a message are read from. -/
def look (regions : List (Nat × Nat)) (k : UserState → Ending) (p : UserState) : Ending :=
  if ∀ x ∈ regions, p.mem.Readable x.1 x.2 then k p else .crashed

/-- The exit of a wrapper: the message, and errno if it was kept. -/
def leave (w : Interposer) (level : LogLevel) (kept : Option Int) (rc : Int) (p : UserState) :
    Ending :=
  let p := w.logWrite level p
  .returned rc { p with errno := kept.getD p.errno }

/-- `sin_addr` and `sin_port`. -/
def sockaddrFields (addr : Nat) : List (Nat × Nat) := [(addr + 4, 4), (addr + 2, 2)]

/-! ## The wrappers -/

/-- `socket`; `AF_INET` is 2, and the bit of `SOCK_STREAM` is 1. -/
def socket (w : Interposer) (domain : Int) (type : BitVec 32) (protocol : Int) (p : UserState) :
    Ending :=
  if domain ≠ 2 ∨ type &&& 1 = 0 then
    let o := w.libc (.socket domain type protocol) p.mem
    w.leave .debug (some o.errno) o.int o.after
  else w.onMwsocket (.socket domain type protocol) p

/-- `close`, whatever the descriptor is. -/
def close (w : Interposer) (fd : Int) (p : UserState) : Ending :=
  let o := w.libc (.close fd) p.mem
  w.leave .notice (some o.errno) o.int o.after

/-- `bind`. -/
def bind (w : Interposer) (fd : Int) (sockAddr addrLen : Nat) : UserState → Ending :=
  w.wrap fd (w.onMwsocket (.bind fd sockAddr addrLen)) fun p =>
    let o := w.libc (.bind fd sockAddr addrLen) p.mem
    w.leave .debug none o.int o.after

/-- `listen`. -/
def listen (w : Interposer) (fd backLog : Int) : UserState → Ending :=
  w.wrap fd (w.onMwsocket (.listen fd backLog)) fun p =>
    let o := w.libc (.listen fd backLog) p.mem
    w.leave .debug none o.int o.after

/-- `accept`. -/
def accept (w : Interposer) (fd : Int) (sockAddr sockLen : Nat) : UserState → Ending :=
  w.wrap fd (w.onMwsocket (.accept fd sockAddr sockLen)) fun p =>
    let o := w.libc (.accept fd sockAddr sockLen) p.mem
    w.leave .info (some o.errno) o.int o.after

/-- `fcntl`: only `F_SETFL`, which is 4, is not passed on for an mwsocket. -/
def fcntl (w : Interposer) (fd cmd : Int) (arg : Nat) (p : UserState) : Ending :=
  let (isMwsocket, p) := w.mwcommsIsMwsocket fd p
  if !isMwsocket || cmd != 4 then
    let o := w.libc (.fcntl fd cmd arg) p.mem
    w.leave .info (if o.int < 0 then some o.errno else none) o.int o.after
  else w.onMwsocket (.fcntl fd cmd arg) p

/-- The flags of `accept4` on the accepted descriptor; it is closed if one of them
cannot be set. -/
def setFlags (w : Interposer) (newfd : Int) : List (Int × Nat) → UserState → Ending
  | [], p => .returned newfd { p with errno := 0 }
  | (cmd, arg) :: rest, p => (w.fcntl newfd cmd arg p).andThen fun rc p =>
      if rc ≠ 0 then
        let failed := w.logWrite .error p
        if 0 < newfd then
          (w.close newfd (w.logWrite .error failed)).andThen fun _ p' =>
            .returned (-1) { p' with errno := p.errno }
        else .returned (-1) { failed with errno := p.errno }
      else w.setFlags newfd rest p

/-- `SOCK_NONBLOCK` becomes `O_NONBLOCK`, and `SOCK_CLOEXEC` becomes `FD_CLOEXEC`. -/
def acceptedFlags (flags : BitVec 32) : List (Int × Nat) :=
  (if flags &&& 0x800 ≠ 0 then [(4, 0x800)] else []) ++
    if flags &&& 0x80000 ≠ 0 then [(2, 1)] else []

/-- `accept4`. -/
def accept4 (w : Interposer) (fd : Int) (sockAddr sockLen : Nat) (flags : BitVec 32) :
    UserState → Ending :=
  w.wrap fd
    (fun p => (w.accept fd sockAddr sockLen (w.logWrite .warn p)).andThen fun newfd p =>
      if newfd < 0 then .returned (-1) p else w.setFlags newfd (acceptedFlags flags) p)
    fun p =>
      let o := w.libc (.accept4 fd sockAddr sockLen flags) p.mem
      w.leave .info (some o.errno) o.int o.after

/-- `recvfrom`. -/
def recvfrom (w : Interposer) (fd : Int) (buf len : Nat) (flags : Int) (srcAddr addrLen : Nat) :
    UserState → Ending :=
  w.wrap fd (w.onMwsocket (.recvfrom fd buf len flags srcAddr addrLen)) fun p =>
    let o := w.libc (.recvfrom fd buf len flags srcAddr addrLen) p.mem
    w.leave .info (some o.errno) o.ssize o.after

/-- `recv`. -/
def recv (w : Interposer) (fd : Int) (buf len : Nat) (flags : Int) : UserState → Ending :=
  w.recvfrom fd buf len flags 0 0

/-- `read`: libc's is declared to return an `int`, and so is the return code. -/
def read (w : Interposer) (fd : Int) (buf count : Nat) : UserState → Ending :=
  w.wrap fd
    (fun p => (w.recvfrom fd buf count 0 0 0 p).andThen fun rc p =>
      w.leave .info (some p.errno) (rc.bmod (2 ^ 32)) p)
    fun p =>
      let o := w.libc (.read fd buf count) p.mem
      w.leave .info (some (if o.int < 0 then o.errno else 0)) o.int o.after

/-- The loop over the buffers of `readv` and `writev`; `failed` is what the total
becomes when a buffer fails. -/
def eachBuffer (w : Interposer) (each : Nat → Nat → UserState → Ending) (failed : Int → Int → Int)
    (iov : Nat) : List Nat → Int → UserState → Ending
  | [], tot, p => w.leave .info (some 0) tot p
  | i :: rest, tot, p =>
      match p.mem.word (iov + 16 * i), p.mem.word (iov + 16 * i + 8) with
      | some base, some len => (each base len p).andThen fun rc p =>
          if rc < 0 then w.leave .info (some p.errno) (failed tot rc) p
          else w.eachBuffer each failed iov rest (tot + rc) p
      | _, _ => .crashed

/-- `readv`: what libc returned is not the total. -/
def readv (w : Interposer) (fd : Int) (iov : Nat) (iovCt : Int) : UserState → Ending :=
  w.wrap fd
    (w.eachBuffer (fun base len => w.recvfrom fd base len 0 0 0) (fun tot _ => tot) iov
      (List.range iovCt.toNat) 0)
    fun p =>
      let o := w.libc (.readv fd iov iovCt) p.mem
      w.leave .info (some o.errno) 0 o.after

/-- `connect`; the address stands in the message. -/
def connect (w : Interposer) (fd : Int) (addr addrLen : Nat) : UserState → Ending :=
  w.wrap fd (w.onMwsocket (.connect fd addr addrLen)) fun p =>
    let o := w.libc (.connect fd addr addrLen) p.mem
    look (sockaddrFields addr) (w.leave .info none o.int) o.after

/-- `send`. -/
def send (w : Interposer) (fd : Int) (buf len : Nat) (flags : Int) : UserState → Ending :=
  w.wrap fd (w.onMwsocket (.send fd buf len flags)) fun p =>
    let o := w.libc (.send fd buf len flags) p.mem
    w.leave .info (some o.errno) o.ssize o.after

/-- `write`: libc's is declared to return an `int`. -/
def write (w : Interposer) (fd : Int) (buf count : Nat) : UserState → Ending :=
  w.wrap fd (fun p => (w.send fd buf count 0 p).andThen (w.leave .info none)) fun p =>
    let o := w.libc (.write fd buf count) p.mem
    w.leave .info none o.int o.after

/-- The lengths of the buffers. -/
def iovLens (iov : Nat) (iovCt : Int) : List (Nat × Nat) :=
  (List.range iovCt.toNat).map fun i => (iov + 16 * i + 8, 8)

/-- `writev`; there is a message for each buffer before anything is done. -/
def writev (w : Interposer) (fd : Int) (iov : Nat) (iovCt : Int) : UserState → Ending :=
  look (iovLens iov iovCt) fun p =>
    w.wrap fd
      (w.eachBuffer (fun base len => w.send fd base len 0) (fun _ rc => rc) iov
        (List.range iovCt.toNat) 0)
      (fun p =>
        let o := w.libc (.writev fd iov iovCt) p.mem
        w.leave .info (some o.errno) o.ssize o.after)
      ((w.logWrite .debug)^[iovCt.toNat] p)

/-- `shutdown`. -/
def shutdown (w : Interposer) (fd how : Int) (p : UserState) : Ending :=
  w.wrap fd (w.onMwsocket (.shutdown fd how))
    (fun p =>
      let o := w.libc (.shutdown fd how) p.mem
      w.leave .info (some o.errno) o.int o.after)
    { p with errno := 0 }

/-- `getsockopt`; the value and its length stand in the message. -/
def getsockopt (w : Interposer) (fd level optName : Int) (optVal optLen : Nat) :
    UserState → Ending :=
  w.wrap fd (w.onMwsocket (.getsockopt fd level optName optVal optLen)) fun p =>
    let o := w.libc (.getsockopt fd level optName optVal optLen) p.mem
    look [(optVal, 4), (optLen, 4)] (w.leave .info (some o.errno) o.int) o.after

/-- `setsockopt`; the value stands in the message. -/
def setsockopt (w : Interposer) (fd level optName : Int) (optVal optLen : Nat) :
    UserState → Ending :=
  w.wrap fd (w.onMwsocket (.setsockopt fd level optName optVal optLen)) fun p =>
    let o := w.libc (.setsockopt fd level optName optVal optLen) p.mem
    look [(optVal, 4)] (w.leave .info (some o.errno) o.int) o.after

/-- `getsockname`: errno is not taken from libc. -/
def getsockname (w : Interposer) (fd : Int) (addr addrLen : Nat) : UserState → Ending :=
  w.wrap fd (w.onMwsocket (.getsockname fd addr addrLen)) fun p =>
    let o := w.libc (.getsockname fd addr addrLen) p.mem
    look (sockaddrFields addr) (w.leave .info (some 0) o.int) o.after

/-- `getpeername`. -/
def getpeername (w : Interposer) (fd : Int) (addr addrLen : Nat) (p : UserState) : Ending :=
  w.wrap fd (w.onMwsocket (.getpeername fd addr addrLen))
    (fun p =>
      let o := w.libc (.getpeername fd addr addrLen) p.mem
      look (sockaddrFields addr) (w.leave .info (some o.errno) o.int) o.after)
    (w.logWrite .debug p)

/-- An interposed call. -/
def run (w : Interposer) : Call → UserState → Ending
  | .socket domain type protocol => w.socket domain type protocol
  | .close fd => w.close fd
  | .bind fd sockAddr addrLen => w.bind fd sockAddr addrLen
  | .listen fd backLog => w.listen fd backLog
  | .accept fd sockAddr sockLen => w.accept fd sockAddr sockLen
  | .accept4 fd sockAddr sockLen flags => w.accept4 fd sockAddr sockLen flags
  | .recvfrom fd buf len flags srcAddr addrLen => w.recvfrom fd buf len flags srcAddr addrLen
  | .recv fd buf len flags => w.recv fd buf len flags
  | .read fd buf count => w.read fd buf count
  | .readv fd iov iovCt => w.readv fd iov iovCt
  | .connect fd addr addrLen => w.connect fd addr addrLen
  | .send fd buf len flags => w.send fd buf len flags
  | .write fd buf count => w.write fd buf count
  | .writev fd iov iovCt => w.writev fd iov iovCt
  | .shutdown fd how => w.shutdown fd how
  | .getsockopt fd level optName optVal optLen => w.getsockopt fd level optName optVal optLen
  | .setsockopt fd level optName optVal optLen => w.setsockopt fd level optName optVal optLen
  | .getsockname fd addr addrLen => w.getsockname fd addr addrLen
  | .getpeername fd addr addrLen => w.getpeername fd addr addrLen
  | .fcntl fd cmd arg => w.fcntl fd cmd arg

/-! ## Transparency -/

/-- The descriptor of a call is not an mwsocket; `socket` has none, and makes one of
its own only for TCP. `close` and all commands of `fcntl` but `F_SETFL` are the
same for all descriptors. -/
def Native (w : Interposer) : Call → Prop
  | .socket domain type _ => domain ≠ 2 ∨ type &&& 1 = 0
  | .close _ => True
  | .fcntl fd cmd _ => ¬ (0 ≤ fd ∧ w.verify fd = .ok true) ∨ cmd ≠ 4
  | .bind fd .. | .listen fd .. | .accept fd .. | .accept4 fd .. | .recvfrom fd .. | .recv fd ..
  | .read fd .. | .readv fd .. | .connect fd .. | .send fd .. | .write fd .. | .writev fd ..
  | .shutdown fd .. | .getsockopt fd .. | .setsockopt fd .. | .getsockname fd ..
  | .getpeername fd .. => ¬ (0 ≤ fd ∧ w.verify fd = .ok true)

/-- A call ends as libc's call does: with its value, with its errno if it failed, and
with the memory as it left it. -/
def Transparent (value : Int) (o : LibcOutcome) : Ending → Prop
  | .crashed => False
  | .returned rc p => rc = value ∧ (value = -1 → p.errno = o.errno) ∧ p.mem = o.mem

/-- A message of the level leaves errno alone, for one that is not written does. -/
def Quiet (w : Interposer) (level : LogLevel) (errno : Int) : Prop :=
  ∀ loglevel, w.log = some loglevel → level.code ≤ loglevel.code → w.noise errno = errno

/-- The value of libc's call is one of an `int`. -/
def FitsInt (o : LibcOutcome) : Prop := -2 ^ 31 ≤ o.ssize ∧ o.ssize < 2 ^ 31

def AllReadable (m : Memory) (regions : List (Nat × Nat)) : Prop :=
  ∀ x ∈ regions, m.Readable x.1 x.2

/-- What makes a wrapper transparent, in terms of the memory before and what libc
leaves behind. -/
def KeepsOut (w : Interposer) (m : Memory) (o : LibcOutcome) : Call → Prop
  | .bind .. | .listen .. => o.int = -1 → w.Quiet .debug o.errno
  | .connect _ addr _ =>
      AllReadable o.mem (sockaddrFields addr) ∧ (o.int = -1 → w.Quiet .info o.errno)
  | .read .. => FitsInt o
  | .write .. => FitsInt o ∧ (o.ssize = -1 → w.Quiet .info o.errno)
  | .readv .. => o.ssize = 0
  | .writev _ iov iovCt => AllReadable m (iovLens iov iovCt)
  | .getsockopt _ _ _ optVal optLen => AllReadable o.mem [(optVal, 4), (optLen, 4)]
  | .setsockopt _ _ _ optVal _ => AllReadable o.mem [(optVal, 4)]
  | .getsockname _ addr _ =>
      AllReadable o.mem (sockaddrFields addr) ∧ (o.int = -1 → o.errno = 0)
  | .getpeername _ addr _ => AllReadable o.mem (sockaddrFields addr)
  | .socket .. | .close .. | .accept .. | .accept4 .. | .recvfrom .. | .recv .. | .send ..
  | .shutdown .. | .fcntl .. => True

variable {w : Interposer} {fd : Int} {p : UserState} {o : LibcOutcome} {level : LogLevel}
  {value rc errno : Int} {regions : List (Nat × Nat)} {native ours k : UserState → Ending}

theorem mem_logWrite : (w.logWrite level p).mem = p.mem := by
  rw [logWrite]
  split
  · rfl
  · split_ifs <;> rfl

theorem errno_logWrite_iff : (w.logWrite level p).errno = p.errno ↔ w.Quiet level p.errno := by
  rw [logWrite, Quiet]
  split
  · rename_i hlog
    simp [hlog]
  · rename_i loglevel hlog
    simp only [hlog, Option.some.injEq, forall_eq']
    split_ifs with hle
    · exact ⟨fun h _ => h, fun h => h hle⟩
    · exact ⟨fun _ h => absurd h hle, fun _ => rfl⟩

/-- The question whether a descriptor is an mwsocket touches nothing but errno. -/
theorem mem_mwcommsIsMwsocket : (w.mwcommsIsMwsocket fd p).2.mem = p.mem := by
  rw [mwcommsIsMwsocket]
  split
  · rfl
  · split
    · exact mem_logWrite
    · rfl

theorem mwcommsIsMwsocket_eq_false (h : ¬ (0 ≤ fd ∧ w.verify fd = .ok true)) :
    (w.mwcommsIsMwsocket fd p).1 = false := by
  rw [mwcommsIsMwsocket]
  split_ifs with hneg
  · rfl
  · split
    · rfl
    · rename_i isMwsocket hverify
      cases isMwsocket with
      | false => rfl
      | true => exact absurd ⟨Int.not_lt.mp hneg, hverify⟩ h

/-- On a descriptor that is not an mwsocket a wrapper goes on with what libc makes of
the memory before it. -/
theorem wrap_native (h : ¬ (0 ≤ fd ∧ w.verify fd = .ok true)) (c : Call)
    (next : LibcOutcome → Ending) :
    w.wrap fd ours (fun p => next (w.libc c p.mem)) p = next (w.libc c p.mem) := by
  have hwrap : w.wrap fd ours (fun p => next (w.libc c p.mem)) p =
      if (w.mwcommsIsMwsocket fd p).1 then ours (w.mwcommsIsMwsocket fd p).2
      else next (w.libc c (w.mwcommsIsMwsocket fd p).2.mem) := rfl
  rw [hwrap, mwcommsIsMwsocket_eq_false h, mem_mwcommsIsMwsocket]
  rfl

/-- An exit that keeps errno hands back what was kept. -/
theorem leave_kept :
    Transparent value o (w.leave level (some errno) rc o.after) ↔
      rc = value ∧ (value = -1 → errno = o.errno) := by
  rw [leave, Transparent]
  simp only [Option.getD_some, mem_logWrite]
  exact and_congr_right fun _ => and_iff_left rfl

/-- An exit that does not keep errno needs a message that leaves it alone. -/
theorem leave_unkept :
    Transparent value o (w.leave level none rc o.after) ↔
      rc = value ∧ (value = -1 → w.Quiet level o.errno) := by
  rw [leave, Transparent]
  simp only [Option.getD_none, mem_logWrite]
  exact and_congr_right fun _ =>
    (and_iff_left rfl).trans (imp_congr_right fun _ => errno_logWrite_iff)

/-- An exit that keeps the errno of libc is transparent for the value of libc. -/
theorem leave_same : Transparent value o (w.leave level (some o.errno) value o.after) :=
  leave_kept.mpr ⟨rfl, fun _ => rfl⟩

/-- A message that looks where nothing is mapped ends the process. -/
theorem look_transparent :
    Transparent value o (look regions k o.after) ↔
      AllReadable o.mem regions ∧ Transparent value o (k o.after) := by
  rw [look]
  split_ifs with hreadable
  · exact (and_iff_right hreadable).symm
  · exact iff_of_false id fun h => hreadable h.1

theorem mem_logWrite_iterate (n : Nat) : ((w.logWrite level)^[n] p).mem = p.mem := by
  induction n with
  | zero => rfl
  | succ n ih => rw [Function.iterate_succ_apply', mem_logWrite, ih]

theorem fcntl_native {cmd : Int} {arg : Nat}
    (h : ¬ (0 ≤ fd ∧ w.verify fd = .ok true) ∨ cmd ≠ 4) :
    Transparent (w.libc (.fcntl fd cmd arg) p.mem).int (w.libc (.fcntl fd cmd arg) p.mem)
      (w.fcntl fd cmd arg p) := by
  have hpass : (!(w.mwcommsIsMwsocket fd p).1 || cmd != 4) = true := by
    rcases h with hnative | hcmd
    · rw [mwcommsIsMwsocket_eq_false hnative]
      rfl
    · simp [hcmd]
  have hfcntl : w.fcntl fd cmd arg p =
      if !(w.mwcommsIsMwsocket fd p).1 || cmd != 4 then
        let o := w.libc (.fcntl fd cmd arg) (w.mwcommsIsMwsocket fd p).2.mem
        w.leave .info (if o.int < 0 then some o.errno else none) o.int o.after
      else w.onMwsocket (.fcntl fd cmd arg) (w.mwcommsIsMwsocket fd p).2 := rfl
  rw [hfcntl, if_pos hpass, mem_mwcommsIsMwsocket]
  simp only
  split_ifs with hneg
  · exact leave_same
  · refine leave_unkept.mpr ⟨rfl, fun hfailed => ?_⟩
    rw [hfailed] at hneg
    exact absurd (by decide) hneg

/-- `read` keeps errno if the value is negative as an `int`. -/
theorem read_exit :
    Transparent o.ssize o (w.leave .info (some (if o.int < 0 then o.errno else 0)) o.int o.after) ↔
      FitsInt o := by
  rw [leave_kept, FitsInt, ← o.int_eq_ssize_iff]
  refine and_iff_left_of_imp fun heq hfailed => ?_
  rw [heq, hfailed]
  rfl

/-- What holds of a wrapper's exit holds of the wrapper. -/
theorem wrap_transparent {Q : Prop} (h : ¬ (0 ≤ fd ∧ w.verify fd = .ok true)) (c : Call)
    (next : LibcOutcome → Ending) (hexit : Transparent value o (next (w.libc c p.mem)) ↔ Q) :
    Transparent value o (w.wrap fd ours (fun p => next (w.libc c p.mem)) p) ↔ Q := by
  rw [wrap_native h c next]
  exact hexit

/-- The shim of the Makefile, which opens no log, before descriptors that are not
mwsockets; libc's calls all end alike. -/
def onFiles (o : LibcOutcome) : Interposer where
  verify := fun _ => .ok false
  libc := fun _ _ => o
  log := none
  noise := id
  onMwsocket := fun _ _ => .crashed
  libc_recv := fun _ _ _ _ => rfl

/-- Memory that is mapped from 4096 on. -/
def mapped : Memory := fun a => if a < 4096 then none else some 0

end Interposer

end MagicWand.Shim
