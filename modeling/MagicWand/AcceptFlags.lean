import MagicWand.Ins.ResponseForm
import MagicWand.Kernel.FileSteps

/-!
# The flags of an accept

The replicator puts the defer-accept value of a user socket into the flags of
the accepts it makes. The INS takes them for the flags of `accept4`, and copies
them into the response, from which the driver takes the open flags of the file
of the accepted socket. Two runs are told apart by any difference between their
defer-accept values, except in the bit of `O_RDWR`, which the driver sets
anyway.
-/

namespace MagicWand

open Foundation Kernel

/-- `O_RDWR`. -/
def oRdwr : MtFlags := 2

/-- The native `O_NONBLOCK`. -/
def nativeNonblock : BitVec 32 := 4

/-! ## The run of an accept -/

/-- The open flags of the file that `mwsocket_create_sockinst` installs. -/
def mwsocketCreateSockinst (flags : MtFlags) : MtFlags := oRdwr ||| flags

/-- Is descriptor `fd` in non-blocking mode after a native call? -/
def modeAfter (fd : Int) (mode : Bool) : Ins.NativeCall × Ins.Outcome → Bool
  | (.fcntlSet (.fd n) flags, o) =>
      if n = fd ∧ o.ret ≠ -1 then MtFlags.has flags nativeNonblock else mode
  | _ => mode

/-- What becomes of a connection: the mode of its native socket, and the open
flags of its file. -/
structure Accepted where
  nonblocking : Bool
  openFlags : MtFlags
deriving DecidableEq, Repr

/-- A run in which a connection is accepted, apart from the defer-accept value of
the user socket `p`. Thread `t` of the driver makes the accept on instance `q`;
worker `worker` of the INS handles the request in state `ins`, and writes the
response in state `done`; the driver is in state `consumer` when it comes to the
active request `actreq`. `inherited` is the mode in which the native stack makes
the new socket. -/
structure AcceptRun where
  driver : FileState
  t : Nat
  p : Nat
  q : Nat
  waits : Bool
  choice : Choice
  clientId : BitVec 16
  worker : Nat
  ins : Ins.Globals
  done : Ins.Globals
  consumer : Kernel.Globals
  actreq : ActReq
  inherited : Bool

namespace AcceptRun

/-- The driver with the defer-accept value `d` on the user socket. -/
def recorded (e : AcceptRun) (d : BitVec 32) : FileState :=
  e.driver.tweak e.p fun k => { k with deferAccept := d }

/-- The accept that the replicator puts on the ring. -/
def request (e : AcceptRun) (d : BitVec 32) : Option MtRequest :=
  ((e.recorded d).replicateAccept e.t e.p e.q e.waits e.choice).bind fun x =>
    (x.1.pending.drop e.driver.pending.length).head?.map Posted.request

/-- The run with value `d` and these outcomes of the native calls, the first of
which is the connection. -/
def accepted (e : AcceptRun) (d : BitVec 32) (conn : Ins.Outcome) (os : List Ins.Outcome) :
    Option Accepted :=
  (e.request d).bind fun req =>
    match Ins.handler e.clientId req (some e.worker) e.ins (conn :: os) with
    | .error _ => none
    | .ok (r, _) =>
        let resp := (Ins.Globals.postProcessResponse e.clientId req (some e.worker) r.response
          e.done).1
        let resp := (e.consumer.mwsocketPostprocNoContext e.actreq resp).2
        if resp.isResponse && FileState.isConnection resp then
          some
            { nonblocking :=
                (Script.trace (Ins.handler e.clientId req (some e.worker) e.ins)
                  (conn :: os)).foldl (modeAfter conn.ret) e.inherited
              openFlags := mwsocketCreateSockinst resp.opFlags }
        else none

/-! ## The way of the flags -/

section Way

variable {e : AcceptRun} {d : BitVec 32} {req : MtRequest} {conn : Ins.Outcome}

/-- What the replicator publishes is an accept with the value of the user socket. -/
theorem posted_flags {s s' : FileState} {t p q : Nat} {waits : Bool} {c : Choice} {rc : Int}
    (h : FileState.Replicated s t c p q waits s' rc) {post : Posted}
    (hpost : post ∈ s'.pending.drop s.pending.length) :
    post.request.type = .socketAccept ∧ post.request.opFlags = (s.g.socks p).deferAccept := by
  cases h with
  | outstanding hflag =>
      rw [List.drop_length] at hpost
      cases hpost
  | uncreated hrc =>
      rw [List.drop_length] at hpost
      cases hpost
  | sent hflag hnew =>
      simp only [FileState.sent, List.drop_left, FileState.posts, Option.mem_toList,
        Option.map_eq_some_iff] at hpost
      obtain ⟨req, hreq, rfl⟩ := hpost
      obtain ⟨fd, rfl⟩ := Globals.published_eq hreq
      exact ⟨rfl, rfl⟩

theorem request_flags (h : e.request d = some req) :
    req.type = .socketAccept ∧ req.opFlags = d := by
  obtain ⟨⟨s', rc⟩, hx, hreq⟩ := Option.bind_eq_some_iff.mp h
  obtain ⟨post, hhead, rfl⟩ := Option.map_eq_some_iff.mp hreq
  have hflags := posted_flags (FileState.replicateAccept_inv hx) (List.mem_of_head? hhead)
  rw [recorded, FileState.tweak, Globals.modifySock_socks_self] at hflags
  exact hflags

/-- A response keeps its signature and its flags, and reports an error if it did. -/
structure Carries (resp resp' : MtResponse) : Prop where
  sig : resp'.sig = resp.sig
  opFlags : resp'.opFlags = resp.opFlags
  failed : resp.status < 0 → resp'.status < 0

theorem Carries.trans {resp resp' resp'' : MtResponse} (h : Carries resp resp')
    (h' : Carries resp' resp'') : Carries resp resp'' :=
  ⟨h'.sig.trans h.sig, h'.opFlags.trans h.opFlags, fun hfail => h'.failed (h.failed hfail)⟩

theorem postProcessResponse_carries (clientId : BitVec 16) (req : MtRequest) (worker : Option Nat)
    (resp : MtResponse) (g : Ins.Globals) :
    Carries resp (Ins.Globals.postProcessResponse clientId req worker resp g).1 := by
  simp only [Ins.Globals.postProcessResponse]
  split
  · rename_i hacc
    have hok : ¬ resp.status < 0 := Int.not_lt.mpr hacc.2
    simp only [Ins.Globals.assignAccepted]
    split
    · exact ⟨rfl, rfl, fun hfail => absurd hfail hok⟩
    · exact ⟨rfl, rfl, fun hfail => absurd hfail hok⟩
  · exact ⟨rfl, rfl, id⟩

theorem postproc_carries (g : Kernel.Globals) (a : ActReq) (resp : MtResponse) :
    Carries resp (g.mwsocketPostprocNoContext a resp).2 := by
  have habsorb (s : SockInst) : Carries resp (s.absorb a.id resp).2 := by
    simp only [SockInst.absorb, SockInst.tallySend]
    split
    · split
      · exact ⟨rfl, rfl, id⟩
      · split
        · exact ⟨rfl, rfl, id⟩
        · exact ⟨rfl, rfl, id⟩
    · exact ⟨rfl, rfl, id⟩
  simp only [Kernel.Globals.mwsocketPostprocNoContext]
  split
  · exact habsorb _
  · exact habsorb _

/-! ## The INS -/

/-- The mode after the calls of a computation. -/
def modeAlong (m : Ins.Native Ins.HandlerResult) (fd : Int) (mode : Bool) (os : List Ins.Outcome) :
    Bool :=
  (Script.trace m os).foldl (modeAfter fd) mode

theorem modeAlong_cons {m m' : Ins.Native Ins.HandlerResult} {c : Ins.NativeCall} {fd : Int}
    {mode : Bool} {o : Ins.Outcome} {os : List Ins.Outcome} (hm : m [] = .error c)
    (hnext : ∀ os, m (o :: os) = m' os) :
    modeAlong m fd mode (o :: os) = modeAlong m' fd (modeAfter fd mode (c, o)) os := by
  rw [modeAlong, Script.trace_cons hm hnext]
  rfl

theorem acceptInit_echoes {r : Ins.HandlerResult} {os rest : List Ins.Outcome} (mode : Bool)
    (fd : Int) (h : Ins.acceptInit req conn os = .ok (r, rest)) :
    r.response.opFlags = req.opFlags ∧ modeAlong (Ins.acceptInit req conn) fd mode os = mode := by
  have hok : ∃ x, Ins.acceptInit req conn [] = .ok x := by
    simp only [Ins.acceptInit, Ins.xeNetInitSocket_eq]
    exact ⟨_, rfl⟩
  constructor
  · simp only [Ins.acceptInit, Ins.xeNetInitSocket_eq] at h
    cases Script.pure_ok h
    rfl
  · obtain ⟨x, hx⟩ := hok
    rw [modeAlong, Script.trace_of_ok hx]
    rfl

theorem acceptGiveUp_sig {r : Ins.HandlerResult} {os rest : List Ins.Outcome} {fd rc err : Int}
    (h : Ins.acceptGiveUp req fd rc err os = .ok (r, rest)) :
    r.response.sig ≠ mtSignatureResponse := by
  obtain ⟨_, _, -, h⟩ := Script.ask_bind_ok h
  cases Script.pure_ok h
  simp [mtSignatureResponse]

/-- An accept that switches the mode succeeds only after it has done so. -/
theorem acceptSwitch_echoes {r : Ins.HandlerResult} {os rest : List Ins.Outcome} {mode : Bool}
    (h : Ins.acceptSwitch req conn os = .ok (r, rest))
    (hsig : r.response.sig = mtSignatureResponse) :
    r.response.opFlags = req.opFlags ∧
      modeAlong (Ins.acceptSwitch req conn) conn.ret mode os = true := by
  cases os with
  | nil => cases h
  | cons get os =>
      by_cases hget : get.ret = -1
      · rw [Ins.acceptSwitch_failed hget] at h
        exact absurd hsig (acceptGiveUp_sig h)
      have hblocked := @Ins.acceptSwitch_blocked req conn _ hget
      cases os with
      | nil =>
          rw [hblocked] at h
          cases h
      | cons set os =>
          rw [Ins.acceptSwitch_set hget] at h
          unfold Ins.acceptSwitched at h
          split at h
          · exact absurd hsig (acceptGiveUp_sig h)
          split at h
          · exact absurd hsig (acceptGiveUp_sig h)
          · next hfail hset =>
              have hret : set.ret = 0 := not_not.mp hset
              have hsame : ∀ os, Ins.acceptSwitch req conn (get :: set :: os) =
                  Ins.acceptInit req conn os := fun os => by
                rw [Ins.acceptSwitch_set hget, Ins.acceptSwitched, if_neg hfail, if_neg hset]
              have hbits : modeAfter conn.ret (modeAfter conn.ret mode (.fcntlGet (.fd conn.ret), get))
                  (.fcntlSet (.fd conn.ret) (BitVec.ofInt 32 get.ret ||| 4), set) = true := by
                have hok : True ∧ set.ret ≠ -1 := ⟨trivial, hfail⟩
                simp only [modeAfter]
                rw [if_pos hok, MtFlags.has_or, Bool.or_eq_true]
                exact .inr (by decide)
              obtain ⟨hflags, hmode⟩ := acceptInit_echoes true conn.ret h
              refine ⟨hflags, ?_⟩
              rw [modeAlong_cons rfl (fun _ => rfl), modeAlong_cons hblocked hsame, hbits]
              exact hmode

/-- An accept of a connection gives the flags of the request to its response, and
lets the bit of `MW_SOCK_NONBLOCK` decide the mode. -/
theorem accept_echoes {r : Ins.HandlerResult} {os rest : List Ins.Outcome} (mode : Bool)
    (h : Ins.xeNetAcceptSocket req (conn :: os) = .ok (r, rest))
    (hsig : r.response.sig = mtSignatureResponse) (hstatus : ¬ r.response.status < 0) :
    r.response.opFlags = req.opFlags ∧
      modeAlong (Ins.xeNetAcceptSocket req) conn.ret mode (conn :: os) =
        (mode || req.opFlags.has mwSockNonblock) := by
  have hnil : Ins.xeNetAcceptSocket req [] = .error (.accept .worker) := rfl
  by_cases hneg : conn.ret < 0
  · have hfail : Ins.xeNetAcceptSocket req (conn :: os) = (pure
        { response := Ins.xeNetSetBaseResponse req mtResponseSocketAcceptSize
            { opFlags := req.opFlags, status := Ins.xeGetNegErrnoVal conn.errno } } :
          Ins.Native Ins.HandlerResult) os := by
      show (if conn.ret < 0 then _ else _ : Ins.Native Ins.HandlerResult) os = _
      rw [if_pos hneg]
    rw [hfail] at h
    cases Script.pure_ok h
    exact absurd (Ins.xeGetNegErrnoVal_neg conn.errno) hstatus
  by_cases hnb : req.opFlags.has mwSockNonblock = true
  · have hnext : ∀ os, Ins.xeNetAcceptSocket req (conn :: os) = Ins.acceptSwitch req conn os :=
        fun os => by
      show (if conn.ret < 0 then _ else _ : Ins.Native Ins.HandlerResult) os = _
      rw [if_neg hneg, if_pos hnb]
      rfl
    rw [hnext] at h
    rw [modeAlong_cons hnil hnext, hnb, Bool.or_true]
    exact acceptSwitch_echoes h hsig
  · have hnext : ∀ os, Ins.xeNetAcceptSocket req (conn :: os) = Ins.acceptInit req conn os :=
        fun os => by
      show (if conn.ret < 0 then _ else _ : Ins.Native Ins.HandlerResult) os = _
      rw [if_neg hneg, if_neg hnb]
    rw [hnext] at h
    rw [modeAlong_cons hnil hnext, Bool.eq_false_of_not_eq_true hnb, Bool.or_false]
    exact acceptInit_echoes _ _ h

/-! ## The whole run -/

/-- What becomes of a connection: the socket is non-blocking when it was before or
the value asks for it, and the value is part of the open flags. -/
theorem accepted_eq {os : List Ins.Outcome} {res : Accepted}
    (h : e.accepted d conn os = some res) :
    res = { nonblocking := e.inherited || MtFlags.has d mwSockNonblock, openFlags := oRdwr ||| d } := by
  obtain ⟨req, hreq, h⟩ := Option.bind_eq_some_iff.mp h
  obtain ⟨htype, hd⟩ := request_flags hreq
  have hhandler : Ins.handler e.clientId req (some e.worker) e.ins = Ins.xeNetAcceptSocket req := by
    rw [Ins.handler, htype]
  rw [hhandler] at h
  split at h
  · cases h
  · rename_i r rest hrun
    simp only [] at h
    split at h
    · rename_i hresp
      obtain ⟨hsig, hconn⟩ := Bool.and_eq_true_iff.mp hresp
      have hcarries := (postProcessResponse_carries e.clientId req (some e.worker) r.response
        e.done).trans (postproc_carries e.consumer e.actreq _)
      have hstatus : ¬ r.response.status < 0 := by
        intro hneg
        have hlate := hcarries.failed hneg
        have hpos := of_decide_eq_true (Bool.and_eq_true_iff.mp hconn).2
        omega
      rw [Ins.isResponse_iff, hcarries.sig] at hsig
      obtain ⟨hflags, hmode⟩ := accept_echoes e.inherited hrun hsig.1 hstatus
      cases h
      rw [Accepted.mk.injEq, mwsocketCreateSockinst, hcarries.opFlags, hflags, ← hd]
      exact ⟨hmode, rfl⟩
    · cases h

end Way

/-- Two runs that differ in the defer-accept value, and accept the same
connection, differ in neither the mode of the socket nor the open flags of its
file exactly when the values differ in nothing but the bit of `O_RDWR`. -/
theorem accepted_same_iff {e : AcceptRun} {d d' : BitVec 32} {conn : Ins.Outcome}
    {os os' : List Ins.Outcome} {res res' : Accepted} (h : e.accepted d conn os = some res)
    (h' : e.accepted d' conn os' = some res') :
    res.nonblocking = res'.nonblocking ∧ res.openFlags = res'.openFlags ↔
      d ||| oRdwr = d' ||| oRdwr := by
  rw [accepted_eq h, accepted_eq h', BitVec.or_comm d, BitVec.or_comm d']
  constructor
  · exact And.right
  · intro heq
    refine ⟨?_, heq⟩
    have hbit := congrArg (fun f => MtFlags.has f mwSockNonblock) heq
    have hrdwr : oRdwr.has mwSockNonblock = false := by decide
    simp only [MtFlags.has_or, hrdwr, Bool.false_or] at hbit
    simp only [hbit]

/-- The user socket itself accepts a connection on an idle INS. -/
def listener : AcceptRun where
  driver := { g := {} }
  t := 1
  p := 0
  q := 0
  waits := true
  choice := {}
  clientId := 1
  worker := 0
  ins := {}
  done := {}
  consumer := {}
  actreq := { ref := 0, id := 1, sockinst := 0 }
  inherited := false

/-- The native descriptor of the connection. -/
def connection : Ins.Outcome := { ret := 7 }

/-- 2048 seconds are `MW_SOCK_NONBLOCK`, and add the bit to the open flags. -/
theorem accepted_nonblock :
    listener.accepted 0 connection [] = some { nonblocking := false, openFlags := 0x2 } ∧
      listener.accepted 2048 connection [{ ret := 2 }, { ret := 0 }] =
        some { nonblocking := true, openFlags := 0x802 } := by
  decide +kernel

theorem accepted_same_rdwr :
    listener.accepted 1 connection [] = some { nonblocking := false, openFlags := 0x3 } ∧
      listener.accepted 3 connection [] = some { nonblocking := false, openFlags := 0x3 } ∧
      (1#32 ||| oRdwr = 3#32 ||| oRdwr) := by
  have h : listener.accepted 1 connection [] =
      some { nonblocking := false, openFlags := 0x3 } := by decide +kernel
  have h' : listener.accepted 3 connection [] =
      some { nonblocking := false, openFlags := 0x3 } := by decide +kernel
  exact ⟨h, h', (accepted_same_iff h h').mp ⟨rfl, rfl⟩⟩

/-- Some defer-accept values leak into the mode of the accepted socket and into
its open flags. -/
theorem defer_accept_leaks :
    ¬ ∀ (e : AcceptRun) (d d' : BitVec 32) (conn : Ins.Outcome) (os os' : List Ins.Outcome)
      (res res' : Accepted), 0 ≤ d.toInt → 0 ≤ d'.toInt →
      e.accepted d conn os = some res → e.accepted d' conn os' = some res' →
      res.nonblocking = res'.nonblocking ∧ res.openFlags = res'.openFlags := by
  intro h
  have hsame := h listener 0 2048 connection _ _ _ _ (by decide) (by decide)
    accepted_nonblock.1 accepted_nonblock.2
  cases hsame.1

end AcceptRun

end MagicWand
