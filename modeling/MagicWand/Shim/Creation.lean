import MagicWand.Kernel.Creation
import MagicWand.Shim.Address

/-!
# socket() in the shim

`socket()` asks the driver for a socket with an ioctl. `mwsocket_send_message`
hands the negated status of the INS up, so a status of `-e` arrives at the C
library as the positive number `e`. The C library takes it for a success, and the
shim reads a descriptor that was never written.
-/

namespace MagicWand.Shim

open Foundation Kernel Kernel.Process

/-- `SOCK_STREAM` and `SOCK_CLOEXEC` of Linux. -/
def sockStream : BitVec 32 := 0x1
def sockCloexec : BitVec 32 := 0x80000

/-- `MT_ST_STREAM`. -/
def mtStStream : BitVec 32 := 2

def ebadf : Int := 9

/-- What the layers return: `mwsocket_create`, the ioctl handler (with the
descriptor it has stored in the caller's structure) and `socket()`. -/
structure SocketCall where
  created : Int := 0
  ioctl : Int := 0
  outfd : Int := -1
  rc : Int
  errno : Int
deriving DecidableEq, Repr

/-- The C library's view of a system call: return code and errno. -/
def libcCall (rc errno : Int) : Int × Int :=
  if -4095 ≤ rc ∧ rc ≤ -1 then (-1, -rc) else (rc, errno)

/-- What other code than the driver gives `socket()`: errno when it is called, the
result of `libc_socket` and that of `fcntl` on a good descriptor. -/
structure Surroundings where
  errno : Int := 0
  libcSocket : Int × Int := (-1, 0)
  setCloexec : Option Errno := none
deriving DecidableEq, Repr

/-- `MW_IOCTL_CREATE_SOCKET` of `mwbase_dev_ioctl`: the return code and
`create.outfd`, which is written only when all went well. -/
def mwbaseDevIoctl (fd rc : Int) : Int × Int := if rc ≠ 0 then (rc, -1) else (0, fd)

/-- The rest of `socket()` after its ioctl. -/
def finishSocket (env : Surroundings) (type : BitVec 32) (fd created : Int) : SocketCall :=
  let (ioctl, outfd) := mwbaseDevIoctl fd created
  let (rc, err) := libcCall ioctl env.errno
  let result : Int × Int :=
    if rc < 0 then (rc, err)
    else if type &&& sockCloexec ≠ 0 then
      if outfd < 0 then (-1, ebadf)
      else match env.setCloexec with
        | some e => (-1, e.1)
        | none => (outfd, 0)
    else (outfd, 0)
  { created := created, ioctl := ioctl, outfd := outfd, rc := result.1, errno := result.2 }

/-- `socket`. -/
def socket (ins : Answers) (w : Process) (supply : Supply w.fds) (env : Surroundings)
    (domain : BitVec 16) (type protocol : BitVec 32) : Option (Process × SocketCall) :=
  if domain ≠ LinuxSockaddrIn.afInet ∨ type &&& sockStream = 0 then
    some (w, { rc := env.libcSocket.1, errno := env.libcSocket.2 })
  else
    (w.mwsocketCreate ins supply (LinuxSockaddrIn.xeNetGetMtProtocolFamily domain) mtStStream
      protocol).map fun (w, fd, rc) => (w, finishSocket env type fd rc)

/-- The status with which the INS answered a create request of this call. -/
def answer (ins : Answers) (w w' : Process) : Option (BitVec 32) :=
  if w'.run.posted = w.run.posted then none
  else (Replication.lastAnswer ins w'.run.posted).map (BitVec.ofInt 32)

/-- The refusals that an INS can give, and a success, reach the caller of
`socket()` as they should. -/
structure CreationReported (answer : Option (BitVec 32)) (c : SocketCall) : Prop where
  refused : ∀ s ∈ answer, ∀ e, 1 ≤ e → e ≤ 4095 → s.toInt = -e →
    c.created < 0 ∧ c.ioctl < 0 ∧ c.outfd < 0 ∧ c.rc = -1 ∧ c.errno = e
  succeeded : 0 ≤ c.rc → ∃ s ∈ answer, 0 ≤ s.toInt

/-! ## What `mwsocket_create` returns -/

/-- The return code is the negated status of the INS if it answered, and there is
a descriptor only if the status was 0. -/
structure Told (answer : Option (BitVec 32)) (fd rc : Int) : Prop where
  status : ∀ s ∈ answer, rc = (-s).toInt
  success : fd ≠ -1 → rc = 0 ∧ 0#32 ∈ answer

theorem told_local {ins : Answers} {w w' : Process} (h : w'.run.posted = w.run.posted) (rc : Int) :
    Told (answer ins w w') (-1) rc := by
  rw [answer, if_pos h]
  exact ⟨fun s hs => by simp at hs, fun hfd => absurd rfl hfd⟩

theorem cInt_neg (n : Int) : cInt (-n) = (-BitVec.ofInt 32 n).toInt := by
  rw [cInt, BitVec.ofInt_neg]

theorem told_remote {ins : Answers} {w w₁ : Process} {q : Nat} {domain type protocol : BitVec 32}
    {r : Process × Int × Int} (hsame : w₁.run.posted = w.run.posted)
    (h : w₁.createRemote ins q domain type protocol = some r) :
    Told (answer ins w r.1) r.2.1 r.2.2 := by
  obtain ⟨⟨s, rc⟩, hsent, rfl⟩ := Option.map_eq_some_iff.mp h
  have hreq : (createRequest domain type protocol).type ≠ .socketAccept := nofun
  rcases Replication.sendMessage_rc hreq hsent with ⟨hposted, rfl⟩ | ⟨post, hposted, hanswer⟩
  · exact told_local (hposted.trans hsame) _
  · have hnew : s.posted ≠ w.run.posted := by
      rw [hposted, hsame]
      exact fun heq => by simpa using congrArg List.length heq
    have hrun : ∀ w' : Process, w'.run.posted = s.posted → answer ins w w' =
        (Replication.lastAnswer ins s.posted).map (BitVec.ofInt 32) := by
      intro w' hw'
      rw [answer, hw', if_neg hnew]
    cases hlast : Replication.lastAnswer ins s.posted with
    | none =>
        rw [hlast] at hanswer
        have hrc : rc ≠ 0 := hanswer
        simp only [if_pos hrc]
        rw [hrun _ rfl, hlast]
        exact ⟨fun s hs => (nomatch hs), fun hfd => absurd rfl hfd⟩
    | some status =>
        rw [hlast] at hanswer
        obtain rfl : rc = -status := hanswer
        by_cases hzero : status = 0
        · subst hzero
          simp only [neg_zero, ne_eq, not_true_eq_false, if_false]
          rw [hrun _ rfl, hlast]
          exact ⟨fun s hs => by cases hs; rfl, fun _ => ⟨rfl, rfl⟩⟩
        · have hrc : -status ≠ 0 := by omega
          simp only [if_pos hrc]
          rw [hrun _ rfl, hlast]
          refine ⟨fun s hs => ?_, fun hfd => absurd rfl hfd⟩
          cases hs
          exact cInt_neg status

theorem create_told {ins : Answers} {w : Process} {supply : Supply w.fds}
    {domain type protocol : BitVec 32} {r : Process × Int × Int}
    (h : w.mwsocketCreate ins supply domain type protocol = some r) :
    Told (answer ins w r.1) r.2.1 r.2.2 := by
  cases hready : w.isXenIfaceReady with
  | false =>
      rw [create_not_ready hready] at h
      cases h
      exact told_local rfl _
  | true =>
      have hmade := createSockinst_made w supply true true
      rw [mwsocketCreate, hready, if_neg (by decide)] at h
      generalize w.mwsocketCreateSockinst supply true true = result at hmade h
      cases hmade with
      | noObject =>
          cases h
          exact told_local rfl _
      | noFd =>
          cases h
          exact told_local rfl _
      | noFile =>
          cases h
          exact told_local rfl _
      | bare hbare => cases hbare
      | made halloc hfds hlocal hposted hreqs => exact told_remote hposted h

/-- `mwsocket_create` returns, as long as there is an id for its request. -/
theorem create_returns (ins : Answers) {w : Process} (supply : Supply w.fds)
    (domain type protocol : BitVec 32) (hroom : Replication.Room w.run 1) :
    ∃ r, w.mwsocketCreate ins supply domain type protocol = some r := by
  cases hready : w.isXenIfaceReady with
  | false => exact ⟨_, create_not_ready hready⟩
  | true =>
      have hmade := createSockinst_made w supply true true
      rw [mwsocketCreate, hready, if_neg (by decide)]
      generalize w.mwsocketCreateSockinst supply true true = result at hmade ⊢
      cases hmade with
      | noObject => exact ⟨_, rfl⟩
      | noFd => exact ⟨_, rfl⟩
      | noFile => exact ⟨_, rfl⟩
      | bare hbare => cases hbare
      | @made halloc fd w₁ hfds hlocal hposted hreqs =>
          have hroom₁ : Replication.Room w₁.run 1 := by
            unfold Replication.Room at hroom ⊢
            rw [show w₁.run.table.g.activeRequests = _ from hreqs]
            exact hroom
          obtain ⟨x, hx⟩ := Replication.sendMessage_returns (q := w.table.nextSock) ins hroom₁
            (createRequest domain type protocol)
          show ∃ r, w₁.createRemote ins w.table.nextSock domain type protocol = some r
          rw [createRemote, hx]
          exact ⟨_, rfl⟩

/-! ## What `socket()` returns -/

/-- Without a descriptor from the driver there is none from `socket()`. -/
theorem finishSocket_no_fd (env : Surroundings) (type : BitVec 32) (rc : Int) :
    (finishSocket env type (-1) rc).rc < 0 := by
  have hioctl : (mwbaseDevIoctl (-1) rc).2 = -1 := by
    rw [mwbaseDevIoctl]
    split <;> rfl
  simp only [finishSocket, hioctl]
  split
  · assumption
  split <;> simp

theorem reported_finish_iff {a : Option (BitVec 32)} {fd rc : Int} (h : Told a fd rc)
    (env : Surroundings) (type : BitVec 32) :
    CreationReported a (finishSocket env type fd rc) ↔
      ∀ s ∈ a, ¬ (-4095 ≤ s.toInt ∧ s.toInt < 0) := by
  constructor
  · rintro hreported s hs ⟨hlow, hneg⟩
    have hcreated := (hreported.refused s hs (-s.toInt) (by omega) (by omega) (by omega)).1
    have hrc : rc = -s.toInt := by
      rw [h.status s hs]
      refine BitVec.toInt_neg_of_ne_intMin fun hmin => ?_
      rw [hmin, show (BitVec.intMin 32).toInt = -2147483648 from by decide] at hlow
      omega
    have hsame : (finishSocket env type fd rc).created = rc := rfl
    omega
  · intro hfine
    refine ⟨fun s hs e hone hmax hs' => absurd ⟨by omega, by omega⟩ (hfine s hs), fun hpos => ?_⟩
    by_cases hfd : fd = -1
    · rw [hfd] at hpos
      have := finishSocket_no_fd env type rc
      omega
    · exact ⟨0, (h.success hfd).2, by decide⟩

end MagicWand.Shim
