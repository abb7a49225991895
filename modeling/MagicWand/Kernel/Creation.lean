import MagicWand.Kernel.Replicator

/-!
# Creating a socket

`mwsocket_create_sockinst` makes the local half of a socket (a cache object, an
entry of the socket list, a count of pollable sockets, a descriptor, an inode and
a file) and `mwsocket_create` asks an INS for the remote half. Each step can
fail. A failed `mwsocket_create_sockinst` takes the entry out of the list again
and nothing else; `mwsocket_create` takes back nothing when the INS refuses.
-/

namespace MagicWand.Kernel

open Foundation

def enodev : Int := 19
def emfile : Int := 24

/-- The numbers for which `IS_ERR` and the C library see an error. -/
abbrev Errno := { e : Int // 1 ≤ e ∧ e ≤ 4095 }

/-- A value stored in an `int`. -/
def cInt (n : Int) : Int := (BitVec.ofInt 32 n).toInt

/-! ## The functions of the driver -/

/-- An entry in the descriptor table of a process: reserved by
`get_unused_fd_flags`, or installed with a file. -/
inductive Descriptor where
  | reserved
  | socket (sock : Nat)
  | other
deriving DecidableEq, Repr

/-- The driver, its counter of sockets, and the descriptors of the process that
calls it. -/
structure Process where
  run : Replication
  sockinstCount : Int := 0
  fds : Nat → Option Descriptor := fun _ => none
  isXenIfaceReady : Bool := true

/-- What the kernel grants on the way: `get_unused_fd_flags` finds a descriptor
that is not in use, `alloc_file` gives a file or an error. -/
structure Supply (fds : Nat → Option Descriptor) where
  sockinst : Bool := true
  fd : Option { n : Nat // fds n = none }
  inode : Bool := true
  dentry : Bool := true
  file : Option Errno := none

namespace Process

def table (w : Process) : Table := w.run.table

def setTable (w : Process) (t : Table) : Process := { w with run := { w.run with table := t } }

def setFd (w : Process) (fd : Nat) (d : Descriptor) : Process :=
  { w with fds := Function.update w.fds fd (some d) }

/-- `list_add( .., &sockinst_list )` and `mwsocket_set_pollable`. -/
def addSockinst (w : Process) (pollable : Bool) : Process :=
  { w.setTable (w.table.mwsocketCreateSockinst pollable) with
    sockinstCount := w.sockinstCount + 1 }

/-- The cleanup under `ErrorExit`: the instance leaves the list and is freed. -/
def dropSockinst (w : Process) (r : Nat) : Process :=
  { w.setTable { w.table with
      sockinsts := w.table.sockinsts.erase r
      freed := w.table.freed ++ [r] } with
    sockinstCount := w.sockinstCount - 1 }

/-- `mwsocket_create_sockinst`: the state after it, the instance and the return
code. -/
def mwsocketCreateSockinst (w : Process) (supply : Supply w.fds) (pollable backingFile : Bool) :
    Process × Option Nat × Int :=
  if !supply.sockinst then (w, none, -enomem)
  else
    let r := w.table.nextSock
    let w := w.addSockinst pollable
    if !backingFile then (w, some r, 0)
    else match supply.fd with
      | none => (w.dropSockinst r, none, -emfile)
      | some fd =>
          let w := w.setFd fd.1 .reserved
          if !supply.inode then (w.dropSockinst r, none, -enomem)
          else if !supply.dentry then (w.dropSockinst r, none, -enomem)
          else match supply.file with
            | some e => (w.dropSockinst r, none, -e.1)
            | none =>
                let w := w.setTable (w.table.modifySock r fun k => { k with localFd := fd.1 })
                (w.setFd fd.1 (.socket r), some r, 0)

/-- The request of `mwsocket_create`. -/
def createRequest (domain type protocol : BitVec 32) : MtRequest where
  type := .socketCreate
  size := mtRequestSocketCreateSize
  sockFam := domain
  sockType := type
  sockProtocol := protocol

/-- The remote half of `mwsocket_create`: the INS is asked, and the socket goes to
the user if the status is 0. -/
def createRemote (ins : Answers) (w : Process) (q : Nat) (domain type protocol : BitVec 32) :
    Option (Process × Int × Int) :=
  (Replication.mwsocketSendMessage ins w.run q (createRequest domain type protocol)).map
    fun (s, rc) =>
      let w := { w with run := s }
      if rc ≠ 0 then (w, -1, cInt rc)
      else
        let w := w.setTable (w.table.modifySock q fun k =>
          { k with mwflags := k.mwflags ||| MwFlags.user })
        (w, (w.table.sock q).localFd, 0)

/-- `mwsocket_create`: the state after it, the descriptor and the return code. -/
def mwsocketCreate (ins : Answers) (w : Process) (supply : Supply w.fds)
    (domain type protocol : BitVec 32) : Option (Process × Int × Int) :=
  if !w.isXenIfaceReady then some (w, -1, -enodev)
  else
    match w.mwsocketCreateSockinst supply true true with
    | (w, none, rc) => some (w, -1, rc)
    | (w, some q, _) => w.createRemote ins q domain type protocol

end Process

/-! ## No trace -/

/-- The socket list, the two counts and the descriptor table are as before. -/
structure NoTrace (w w' : Process) : Prop where
  sockinsts : w'.table.sockinsts = w.table.sockinsts
  sockinstCount : w'.sockinstCount = w.sockinstCount
  pollSockCount : w'.table.g.pollSockCount = w.table.g.pollSockCount
  fds : w'.fds = w.fds

theorem NoTrace.refl (w : Process) : NoTrace w w := ⟨rfl, rfl, rfl, rfl⟩

namespace Table

variable (t : Table)

theorem sockinsts_setPollable (r : Nat) : (t.setPollable r).sockinsts = t.sockinsts := by
  rw [setPollable]
  split <;> rfl

theorem pollSockCount_setPollable {r : Nat} (h : (t.sock r).mwflags.has MwFlags.pollable = false) :
    (t.setPollable r).g.pollSockCount = t.g.pollSockCount + 1 := by
  rw [setPollable, h, if_neg Bool.false_ne_true]

/-- A new instance is counted if it is pollable. -/
theorem pollSockCount_create (pollable : Bool) :
    (t.mwsocketCreateSockinst pollable).g.pollSockCount =
      if pollable then t.g.pollSockCount + 1 else t.g.pollSockCount := by
  cases pollable with
  | false => rfl
  | true =>
      refine pollSockCount_setPollable _ ?_
      rw [sock, modifySock, Globals.modifySock]
      simp only [Function.update_self]
      rfl

theorem sockinsts_create (pollable : Bool) :
    (t.mwsocketCreateSockinst pollable).sockinsts = t.nextSock :: t.sockinsts := by
  cases pollable with
  | false => rfl
  | true => exact sockinsts_setPollable _ _

theorem activeRequests_create (pollable : Bool) :
    (t.mwsocketCreateSockinst pollable).g.activeRequests = t.g.activeRequests := by
  cases pollable with
  | false => rfl
  | true =>
      show (setPollable _ _).g.activeRequests = _
      rw [setPollable]
      split <;> rfl

end Table

namespace Process

variable {w : Process}

/-- A creation that is taken back leaves behind the count of a pollable socket
and the descriptor it has reserved. -/
theorem noTrace_drop_iff {pollable : Bool} {fds : Nat → Option Descriptor} :
    NoTrace w ({ w.addSockinst pollable with fds := fds }.dropSockinst w.table.nextSock) ↔
      pollable = false ∧ fds = w.fds := by
  have hlist : ((w.table.mwsocketCreateSockinst pollable).sockinsts).erase w.table.nextSock =
      w.table.sockinsts := by
    rw [Table.sockinsts_create]
    exact List.erase_cons_head _ _
  have hpoll := Table.pollSockCount_create w.table pollable
  constructor
  · intro h
    refine ⟨?_, h.fds⟩
    have hkept := hpoll.symm.trans h.pollSockCount
    cases pollable with
    | false => rfl
    | true =>
        rw [if_pos rfl] at hkept
        exact absurd hkept (by omega)
  · rintro ⟨rfl, rfl⟩
    exact ⟨hlist, Int.add_sub_cancel _ _, hpoll, rfl⟩

/-- A descriptor that has been taken is missed. -/
theorem setFd_ne {fd : Nat} (h : w.fds fd = none) (d : Descriptor) :
    Function.update w.fds fd (some d) ≠ w.fds := by
  intro heq
  have htaken := congrFun heq fd
  rw [Function.update_self, h] at htaken
  cases htaken

/-- The result of `mwsocket_create_sockinst`, by the step that it fails at. -/
inductive Made (w : Process) (supply : Supply w.fds) (pollable backingFile : Bool) :
    Process × Option Nat × Int → Prop where
  | noObject (h : supply.sockinst = false) : Made w supply pollable backingFile (w, none, -enomem)
  | noFd (h : supply.sockinst = true) (hfd : supply.fd = none) :
      Made w supply pollable backingFile
        ((w.addSockinst pollable).dropSockinst w.table.nextSock, none, -emfile)
  | noFile (h : supply.sockinst = true) {fd : { n : Nat // w.fds n = none }}
      (hfd : supply.fd = some fd) (e : Errno) :
      Made w supply pollable backingFile
        (((w.addSockinst pollable).setFd fd.1 .reserved).dropSockinst w.table.nextSock, none, -e.1)
  | bare (h : backingFile = false) :
      Made w supply pollable backingFile (w.addSockinst pollable, some w.table.nextSock, 0)
  | made (h : supply.sockinst = true) {fd : { n : Nat // w.fds n = none }} {w' : Process}
      (hfds : w'.fds = Function.update w.fds fd.1 (some (.socket w.table.nextSock)))
      (hlocal : (w'.table.sock w.table.nextSock).localFd = fd.1)
      (hrun : w'.run.posted = w.run.posted)
      (hreqs : w'.table.g.activeRequests = w.table.g.activeRequests) :
      Made w supply pollable backingFile (w', some w.table.nextSock, 0)

theorem createSockinst_made (w : Process) (supply : Supply w.fds) (pollable backingFile : Bool) :
    Made w supply pollable backingFile (w.mwsocketCreateSockinst supply pollable backingFile) := by
  rw [mwsocketCreateSockinst]
  cases halloc : supply.sockinst with
  | false => exact .noObject halloc
  | true =>
      simp only [Bool.not_true, Bool.false_eq_true, if_false]
      cases backingFile with
      | false => exact .bare rfl
      | true =>
          simp only [Bool.not_true, Bool.false_eq_true, if_false]
          cases hfd : supply.fd with
          | none => exact .noFd halloc hfd
          | some fd =>
              simp only
              split
              · exact .noFile halloc hfd ⟨enomem, by decide⟩
              split
              · exact .noFile halloc hfd ⟨enomem, by decide⟩
              cases hfile : supply.file with
              | some e => exact .noFile halloc hfd e
              | none =>
                  have hself := Globals.modifySock_socks_self (w.addSockinst pollable).table.g
                    w.table.nextSock fun k => { k with localFd := fd.1 }
                  refine .made halloc ?_ (congrArg SockInst.localFd hself) rfl ?_
                  · exact Function.update_idem ..
                  · exact Table.activeRequests_create w.table pollable

/-- A failed `mwsocket_create_sockinst` leaves no trace if it has counted no
pollable socket and reserved no descriptor. -/
theorem createSockinst_noTrace_iff {supply : Supply w.fds} {pollable backingFile : Bool}
    (hfail : (w.mwsocketCreateSockinst supply pollable backingFile).2.2 ≠ 0) :
    NoTrace w (w.mwsocketCreateSockinst supply pollable backingFile).1 ↔
      supply.sockinst = false ∨ (pollable = false ∧ supply.fd = none) := by
  have hmade := createSockinst_made w supply pollable backingFile
  generalize w.mwsocketCreateSockinst supply pollable backingFile = result at hfail hmade
  cases hmade with
  | noObject h => exact iff_of_true (NoTrace.refl w) (.inl h)
  | noFd h hfd =>
      refine (@noTrace_drop_iff w _ w.fds).trans ?_
      simp [h, hfd]
  | @noFile h fd hfd e =>
      refine iff_of_false (fun htrace => ?_) (by simp [h, hfd])
      exact setFd_ne fd.2 .reserved (noTrace_drop_iff.mp htrace).2
  | bare h => exact absurd rfl hfail
  | made => exact absurd rfl hfail

/-! ## The calls -/

/-- A call that creates a socket: the local half alone, or both halves. -/
inductive Creation where
  | sockinst (pollable backingFile : Bool)
  | socket (domain type protocol : BitVec 32)
deriving DecidableEq, Repr

namespace Creation

/-- The state after a call, and its return code. -/
def run (ins : Answers) (w : Process) (supply : Supply w.fds) : Creation → Option (Process × Int)
  | .sockinst pollable backingFile =>
      let made := w.mwsocketCreateSockinst supply pollable backingFile
      some (made.1, made.2.2)
  | .socket domain type protocol =>
      (w.mwsocketCreate ins supply domain type protocol).map fun (w, _, rc) => (w, rc)

/-- The call fails, if it does, before it has anything to take back but a list
entry: there is no object for the socket, or no descriptor for one that is not
pollable; `mwsocket_create` may also find no ring. -/
def Clean (w : Process) (supply : Supply w.fds) : Creation → Prop
  | .sockinst pollable _ => supply.sockinst = false ∨ (pollable = false ∧ supply.fd = none)
  | .socket .. => w.isXenIfaceReady = false ∨ supply.sockinst = false

end Creation

theorem create_not_ready {ins : Answers} {supply : Supply w.fds}
    {domain type protocol : BitVec 32} (h : w.isXenIfaceReady = false) :
    w.mwsocketCreate ins supply domain type protocol = some (w, -1, -enodev) := by
  rw [mwsocketCreate, h]
  rfl

/-- The message to the INS leaves the descriptor table alone. -/
theorem fds_createRemote {ins : Answers} {q : Nat} {domain type protocol : BitVec 32}
    {r : Process × Int × Int} (h : w.createRemote ins q domain type protocol = some r) :
    r.1.fds = w.fds := by
  obtain ⟨⟨s, rc⟩, -, rfl⟩ := Option.map_eq_some_iff.mp h
  simp only
  split <;> rfl

theorem create_noTrace_iff {ins : Answers} {supply : Supply w.fds}
    {domain type protocol : BitVec 32} {r : Process × Int × Int}
    (h : w.mwsocketCreate ins supply domain type protocol = some r) (hfail : r.2.2 ≠ 0) :
    NoTrace w r.1 ↔ w.isXenIfaceReady = false ∨ supply.sockinst = false := by
  cases hready : w.isXenIfaceReady with
  | false =>
      rw [create_not_ready hready] at h
      cases h
      exact iff_of_true (NoTrace.refl w) (.inl rfl)
  | true =>
      have hmade := createSockinst_made w supply true true
      have hlocal := @createSockinst_noTrace_iff w supply true true
      rw [mwsocketCreate, hready, if_neg (by decide)] at h
      simp only [Bool.true_eq_false, false_and, or_false, false_or] at hlocal ⊢
      generalize w.mwsocketCreateSockinst supply true true = result at h hmade hlocal
      cases hmade with
      | noObject =>
          cases h
          exact hlocal hfail
      | noFd =>
          cases h
          exact hlocal hfail
      | noFile =>
          cases h
          exact hlocal hfail
      | bare hbare => cases hbare
      | @made halloc fd w₁ hfds =>
          -- The file is installed, whatever the INS says.
          refine iff_of_false (fun htrace => ?_) (by simp [halloc])
          have hkept := fds_createRemote h
          exact setFd_ne fd.2 _ (hfds.symm.trans (hkept.symm.trans htrace.fds))

/-- A failed call leaves no trace if and only if it fails before it counts a
pollable socket or takes a descriptor. -/
theorem creation_leaves_no_trace_iff (ins : Answers) (w : Process) (supply : Supply w.fds)
    (call : Creation) {w' : Process} {rc : Int} (h : call.run ins w supply = some (w', rc))
    (hfail : rc ≠ 0) : NoTrace w w' ↔ call.Clean w supply := by
  cases call with
  | sockinst pollable backingFile =>
      cases h
      exact createSockinst_noTrace_iff hfail
  | socket domain type protocol =>
      obtain ⟨r, hr, heq⟩ := Option.map_eq_some_iff.mp h
      cases heq
      exact create_noTrace_iff hr hfail

/-- A process with no descriptors, before the first socket. -/
def fresh : Process where
  run := { table := {} }

def noDescriptors : Supply fresh.fds where
  fd := none

theorem creation_leaves_no_trace_iff_unpolled :
    NoTrace fresh (fresh.mwsocketCreateSockinst noDescriptors false true).1 ↔
      (Creation.sockinst false true).Clean fresh noDescriptors :=
  creation_leaves_no_trace_iff (fun _ => ⟨.refused, 0, {}⟩) fresh noDescriptors
    (.sockinst false true) rfl (by decide)

def descriptorThree : Supply fresh.fds where
  fd := some ⟨3, rfl⟩

/-- An INS that refuses every connection. -/
def refusing : Answers := fun _ => ⟨.granted 0, 1, { status := -111 }⟩

/-- A process out of descriptors leaves a pollable socket counted, and an INS that
refuses leaves a socket in the list and its file in the descriptor table. -/
theorem failed_creation_leaves_trace :
    (fresh.mwsocketCreateSockinst noDescriptors true true).2 = (none, -emfile) ∧
      ¬ NoTrace fresh (fresh.mwsocketCreateSockinst noDescriptors true true).1 ∧
      (fresh.mwsocketCreate refusing descriptorThree 1 2 0).map
          (fun r => (r.2, r.1.table.sockinsts, r.1.fds 3)) =
        some ((-1, 111), [0], some (.socket 0)) := by
  refine ⟨rfl, fun h => ?_, by decide⟩
  exact absurd h.pollSockCount (by decide)

end Process

end MagicWand.Kernel
