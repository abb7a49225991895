import MagicWand.Ins.Incarnation

/-!
# The native sockets of a handler

What the native calls of a handler open and close. A create leaves its socket in
its slot; an accept keeps the connection that it reports and closes one that it
cannot put into the right mode; no other handler opens a socket, or closes one that
is in no slot.
-/

namespace MagicWand.Ins

open Foundation

/-! ## What native calls open and close -/

/-- The socket that a native call opens. -/
def NativeCall.opened (c : NativeCall) (o : Outcome) : Option Int :=
  match c with
  | .socket _ _ _ => if o.ret < 0 then none else some o.ret
  | .accept _ => if o.ret < 0 then none else some o.ret
  | _ => none

/-- The socket that a native call closes, unless it is that of the worker. -/
def NativeCall.closed (c : NativeCall) : Option Int :=
  match c with
  | .close (.fd n) => some n
  | _ => none

/-- A call that opens no socket, and closes none but that of the worker. -/
def NativeCall.plain : NativeCall → Bool
  | .socket _ _ _ => false
  | .accept _ => false
  | .close (.fd _) => false
  | _ => true

def opens (calls : List (NativeCall × Outcome)) : List Int :=
  calls.filterMap fun x => x.1.opened x.2

def gaveUp (calls : List (NativeCall × Outcome)) : List Int :=
  calls.filterMap fun x => x.1.closed

/-- The sockets that these calls have opened and not closed again. -/
def keptOpen (calls : List (NativeCall × Outcome)) : List Int := (opens calls).diff (gaveUp calls)

theorem opened_plain {c : NativeCall} (h : c.plain = true) (o : Outcome) : c.opened o = none := by
  cases c <;> first | rfl | cases h

theorem closed_plain {c : NativeCall} (h : c.plain = true) : c.closed = none := by
  unfold NativeCall.closed
  split
  · cases h
  · rfl

theorem keptOpen_plain {calls : List (NativeCall × Outcome)}
    (h : ∀ x ∈ calls, x.1.plain = true) : keptOpen calls = [] := by
  have hopens : opens calls = [] :=
    List.filterMap_eq_nil_iff.mpr fun x hx => opened_plain (h x hx) x.2
  rw [keptOpen, hopens, List.nil_diff]

/-- One more call: what it opens is kept, and what it closes was open. -/
theorem keptOpen_snoc {calls : List (NativeCall × Outcome)} {c : NativeCall} {o : Outcome}
    (hnone : gaveUp calls = []) (hclosed : ∀ n, c.closed = some n → opens calls = [n]) (n : Int) :
    (keptOpen (calls ++ [(c, o)])).count n + c.closed.toList.count n =
      (keptOpen calls).count n + (c.opened o).toList.count n := by
  have hopens : opens (calls ++ [(c, o)]) = opens calls ++ (c.opened o).toList := by
    rw [opens, opens, List.filterMap_append]
    cases h : c.opened o <;> simp [h]
  have hgave : gaveUp (calls ++ [(c, o)]) = c.closed.toList := by
    rw [gaveUp, List.filterMap_append, ← gaveUp, hnone, List.nil_append]
    cases h : c.closed <;> simp [h]
  rw [keptOpen, keptOpen, hopens, hgave, hnone, List.diff_nil, List.count_diff, List.count_append]
  rcases hc : c.closed with _ | m
  · simp
  · rw [hclosed m hc, Option.toList_some]
    omega

/-! ## Handlers -/

section Handlers

variable {clientId : BitVec 16} {req : MtRequest} {os rest : List Outcome} {r : HandlerResult}

theorem sendLoop_plain (p : List (BitVec 8)) (flags : MtFlags) (polling : Bool) (count : Nat) :
    Script.Calls (fun c => c.plain = true) (sendLoop p flags polling count) := by
  intro os
  induction os generalizing polling count with
  | nil =>
      intro c h
      rcases polling with _ | _
      · rw [sendLoop] at h
        split at h
        · cases h
        · cases h
          rfl
      · cases h
        rfl
  | cons o os ih =>
      intro c h
      rcases polling with _ | _
      · rw [sendLoop] at h
        split at h
        · cases h
        · split at h
          · split at h
            · exact ih _ _ c h
            · cases h
          · exact ih _ _ c h
      · exact ih _ _ c h

theorem recvLoop_plain {call : NativeCall} (hcall : call.plain = true) (phase : RecvPhase) :
    Script.Calls (fun c => c.plain = true) (recvLoop call phase) := by
  intro os
  induction os generalizing phase with
  | nil =>
      intro c h
      rcases phase with ⟨polled, events⟩ | _
      · cases h
        exact hcall
      · cases h
        rfl
  | cons o os ih =>
      intro c h
      rcases phase with ⟨polled, events⟩ | _
      · rw [recvLoop] at h
        repeat' split at h
        all_goals first | exact ih _ c h | cases h
      · rw [recvLoop] at h
        split at h
        · cases h
        · exact ih _ c h

theorem native_plain {c : NativeCall} (h : c.plain = true) :
    Script.Calls (fun c => c.plain = true) (native c) := Script.calls_ask h

theorem attribCall_plain (req : MtRequest) (opt : SockOpt) :
    Script.Calls (fun c => c.plain = true) (attribCall req opt) := by
  unfold attribCall
  split
  · refine Script.Calls.bind (native_plain ?_) fun _ => Script.calls_pure _ _
    unfold setCall
    split <;> rfl
  · exact Script.Calls.bind (native_plain rfl) fun _ => Script.calls_pure _ _

theorem attribBody_plain (req : MtRequest) :
    Script.Calls (fun c => c.plain = true) (attribBody req) := by
  unfold attribBody
  split
  · refine Script.Calls.bind (Script.Calls.bind (native_plain rfl) fun g => ?_)
      fun _ => Script.calls_pure _ _
    split
    · exact Script.Calls.bind (native_plain rfl) fun _ => Script.calls_pure _ _
    · exact Script.calls_pure _ _
  · exact Script.calls_pure _ _
  · exact Script.calls_pure _ _
  · exact Script.calls_pure _ _
  · split
    · refine Script.Calls.bind (native_plain rfl) fun o => ?_
      split
      · exact Script.calls_pure _ _
      · exact attribCall_plain req _
    · exact attribCall_plain req _
  · split
    · exact attribCall_plain req _
    · exact Script.calls_pure _ _

/-- Only a create and an accept open a socket, and only an accept closes one that
is in no slot. -/
theorem handler_plain (clientId : BitVec 16) {req : MtRequest} (worker : Option Nat) (g : Globals)
    (hcreate : req.type ≠ .socketCreate) (haccept : req.type ≠ .socketAccept) :
    Script.Calls (fun c => c.plain = true) (handler clientId req worker g) := by
  have one {c : NativeCall} {f : Outcome → HandlerResult} (hc : c.plain = true) :
      Script.Calls (fun c => c.plain = true) (native c >>= fun o => pure (f o)) :=
    Script.Calls.bind (native_plain hc) fun _ => Script.calls_pure _ _
  unfold handler
  cases ht : req.type
  case socketCreate => exact absurd ht hcreate
  case socketAccept => exact absurd ht haccept
  case socketClose =>
    simp only [xeNetCloseSocket]
    split
    · exact one rfl
    · exact Script.calls_pure _ _
  case socketSend =>
    exact Script.Calls.bind (sendLoop_plain _ _ _ _) fun _ => Script.calls_pure _ _
  case socketRecv => exact Script.Calls.bind (recvLoop_plain rfl _) fun _ => Script.calls_pure _ _
  case socketRecvFrom =>
    exact Script.Calls.bind (recvLoop_plain rfl _) fun _ => Script.calls_pure _ _
  case socketAttrib =>
    exact Script.Calls.bind (attribBody_plain req) fun _ => Script.calls_pure _ _
  case pollsetQuery =>
    refine Script.Calls.bind (native_plain rfl) fun o => ?_
    split <;> exact Script.calls_pure _ _
  case socketGetName =>
    simp only [xeNetGetName]
    split <;> exact one rfl
  case socketGetPeer =>
    simp only [xeNetGetName]
    split <;> exact one rfl
  case addrBlock => exact Script.calls_pure _ _
  case invalid => exact Script.calls_pure _ _
  case unknown => exact Script.calls_pure _ _
  all_goals exact one rfl

/-! ### Create -/

/-- The calls of `socket` fail up to the one that ends the loop. -/
theorem socketRetry_trace (call : NativeCall) (os : List Outcome) :
    (socketRetry call os = .error call ∧
        Script.trace (socketRetry call) os = os.map (call, ·) ∧ ∀ o ∈ os, o.ret < 0) ∨
      ∃ before o rest, os = before ++ o :: rest ∧ socketRetry call os = .ok (o, rest) ∧
        Script.trace (socketRetry call) os = (before ++ [o]).map (call, ·) ∧
        ∀ o ∈ before, o.ret < 0 := by
  have hblocked : socketRetry call [] = .error call := rfl
  induction os with
  | nil => exact .inl ⟨rfl, rfl, fun o ho => absurd ho List.not_mem_nil⟩
  | cons o os ih =>
      by_cases hretry : o.ret < 0 ∧ o.errno = enobufs
      · have hnext (os : List Outcome) : socketRetry call (o :: os) = socketRetry call os := by
          rw [socketRetry, if_pos hretry]
        rw [Script.trace_cons hblocked hnext, hnext]
        rcases ih with ⟨hrun, htrace, hall⟩ | ⟨before, o', rest, rfl, hrun, htrace, hall⟩
        · left
          refine ⟨hrun, by rw [htrace, List.map_cons], ?_⟩
          intro x hx
          rcases List.mem_cons.mp hx with rfl | hx
          · exact hretry.1
          · exact hall x hx
        · right
          refine ⟨o :: before, o', rest, rfl, hrun, by rw [htrace]; rfl, ?_⟩
          intro x hx
          rcases List.mem_cons.mp hx with rfl | hx
          · exact hretry.1
          · exact hall x hx
      · right
        have hdone (os : List Outcome) : socketRetry call (o :: os) = .ok (o, os) := by
          rw [socketRetry, if_neg hretry]
        refine ⟨[], o, os, rfl, hdone os, ?_, fun x hx => absurd hx List.not_mem_nil⟩
        rw [Script.trace_cons (k := fun os => .ok (o, os)) hblocked hdone, Script.trace_of_ok rfl]
        rfl

theorem opens_failed {call : NativeCall} {os : List Outcome} (h : ∀ o ∈ os, o.ret < 0) :
    opens (os.map (call, ·)) = [] := by
  refine List.filterMap_eq_nil_iff.mpr fun x hx => ?_
  obtain ⟨o, ho, rfl⟩ := List.mem_map.mp hx
  unfold NativeCall.opened
  split <;> first | exact if_pos (h o ho) | rfl

theorem create_trace (slot : Nat) (os : List Outcome) :
    Script.trace (xeNetCreateSocket clientId req slot) os =
      Script.trace (socketRetry (.socket (xeNetGetNativeProtocolFamily req.sockFam)
        (xeNetGetNativeSockType req.sockType) req.sockProtocol)) os :=
  Script.trace_bind_callless (fun _ => ⟨_, rfl⟩) os

/-- A create that is blocked has opened nothing. -/
theorem create_blocked {slot : Nat} {c : NativeCall}
    (h : xeNetCreateSocket clientId req slot os = .error c) :
    c.closed = none ∧ opens (Script.trace (xeNetCreateSocket clientId req slot) os) = [] ∧
      gaveUp (Script.trace (xeNetCreateSocket clientId req slot) os) = [] := by
  rw [create_trace]
  rw [xeNetCreateSocket, Script.bind_run] at h
  rcases socketRetry_trace (.socket (xeNetGetNativeProtocolFamily req.sockFam)
    (xeNetGetNativeSockType req.sockType) req.sockProtocol) os with
    ⟨hrun, htrace, hall⟩ | ⟨before, o, rest, -, hrun, -, -⟩
  · rw [hrun] at h
    cases h
    rw [htrace]
    refine ⟨rfl, opens_failed hall, ?_⟩
    exact List.filterMap_eq_nil_iff.mpr fun x hx => by
      obtain ⟨o, -, rfl⟩ := List.mem_map.mp hx
      rfl
  · rw [hrun] at h
    cases h

/-- What a create leaves: its socket is in the slot, or it has opened none. The
count goes up in both cases. -/
theorem create_returned {slot : Nat} (h : xeNetCreateSocket clientId req slot os = .ok (r, rest))
    (n : NetState) :
    (r.effect n).socketCt = n.socketCt + 1 ∧
      gaveUp (Script.trace (xeNetCreateSocket clientId req slot) os) = [] ∧
      ((0 ≤ r.response.status ∧ 0 ≤ ((r.effect n).sock slot).localFd ∧
          opens (Script.trace (xeNetCreateSocket clientId req slot) os) =
            [((r.effect n).sock slot).localFd] ∧ ∃ o ∈ os, 0 ≤ o.ret) ∨
        (r.response.status < 0 ∧
          opens (Script.trace (xeNetCreateSocket clientId req slot) os) = [] ∧
          ∃ before o, os = before ++ o :: rest ∧ o.ret < 0 ∧ (∀ x ∈ before, x.ret < 0) ∧
            (Script.trace (xeNetCreateSocket clientId req slot) os).length = before.length + 1 ∧
            ((r.effect n).sock slot).localFd = o.ret)) := by
  rw [create_trace]
  rw [xeNetCreateSocket, Script.bind_run] at h
  rcases socketRetry_trace (.socket (xeNetGetNativeProtocolFamily req.sockFam)
    (xeNetGetNativeSockType req.sockType) req.sockProtocol) os with
    ⟨hrun, -, -⟩ | ⟨before, o, rest', hos, hrun, htrace, hall⟩
  · rw [hrun] at h
    cases h
  · rw [hrun] at h
    simp only [xeNetInitSocket_eq] at h
    cases Script.pure_ok h
    have hrest : rest' = rest := by
      cases h
      rfl
    subst hrest
    have hopens : opens ((before ++ [o]).map
        (NativeCall.socket (xeNetGetNativeProtocolFamily req.sockFam)
          (xeNetGetNativeSockType req.sockType) req.sockProtocol, ·)) =
        if o.ret < 0 then [] else [o.ret] := by
      rw [List.map_append, opens, List.filterMap_append, ← opens, opens_failed hall,
        List.nil_append]
      by_cases hneg : o.ret < 0 <;> simp [NativeCall.opened, hneg]
    rw [htrace, hopens]
    refine ⟨rfl, ?_, ?_⟩
    · exact List.filterMap_eq_nil_iff.mpr fun x hx => by
        obtain ⟨o, -, rfl⟩ := List.mem_map.mp hx
        rfl
    · simp only [sock_modifySock_self]
      by_cases hneg : o.ret < 0
      · right
        refine ⟨?_, if_pos hneg, before, o, hos, hneg, hall, by simp, rfl⟩
        show (if o.ret < 0 then xeGetNegErrnoVal o.errno else 0 : Int) < 0
        rw [if_pos hneg]
        exact xeGetNegErrnoVal_neg o.errno
      · left
        refine ⟨?_, Int.not_lt.mp hneg, if_neg hneg, o, ?_, Int.not_lt.mp hneg⟩
        · show 0 ≤ (if o.ret < 0 then xeGetNegErrnoVal o.errno else 0 : Int)
          rw [if_neg hneg]
        · rw [hos]
          exact List.mem_append_right _ List.mem_cons_self

/-! ### Accept -/

/-- What an accept does with a connection: it keeps it and counts it, or it closes
it again. -/
inductive AcceptDone (n : NetState) (o : Outcome) (calls : List (NativeCall × Outcome))
    (r : HandlerResult) : Prop where
  | kept (hstatus : r.response.status = o.ret) (hct : (r.effect n).socketCt = n.socketCt + 1)
      (hgave : gaveUp calls = [])
  | closed (hstatus : r.response.status < 0) (hct : (r.effect n).socketCt = n.socketCt)
      (hgave : gaveUp calls = [o.ret])

theorem acceptInit_kept {o : Outcome} (h : acceptInit req o os = .ok (r, rest)) (n : NetState) :
    r.response.status = o.ret ∧ (r.effect n).socketCt = n.socketCt + 1 := by
  simp only [acceptInit, xeNetInitSocket_eq] at h
  cases Script.pure_ok h
  exact ⟨rfl, rfl⟩

/-- The rest of `xe_net_accept_socket` when the mode of the new socket has been set,
with this return code and errno. -/
def acceptMode (req : MtRequest) (o : Outcome) (rc err : Int) : Native HandlerResult :=
  if rc ≠ 0 then do
    let _ ← native (.close (.fd o.ret))
    pure
      { rc := rc
        response :=
          { opFlags := req.opFlags
            status := xeGetNegErrnoVal err
            sockfd := mtInvalidSocketFd } }
  else acceptInit req o

/-- The rest of `xe_net_accept_socket` after a successful `accept`. -/
def acceptRest (req : MtRequest) (o : Outcome) : Native HandlerResult :=
  if req.opFlags.has mwSockNonblock then
    xeNetSetSockNonblock o.ret >>= fun x => acceptMode req o x.1 x.2
  else acceptInit req o

theorem acceptSocket_cons {o : Outcome} (ho : 0 ≤ o.ret) (os : List Outcome) :
    xeNetAcceptSocket req (o :: os) = acceptRest req o os := by
  show (if o.ret < 0 then (_ : Native HandlerResult) else acceptRest req o) os = _
  rw [if_neg (Int.not_lt.mpr ho)]

theorem acceptSocket_failed (req : MtRequest) {o : Outcome} (ho : o.ret < 0) (os : List Outcome) :
    xeNetAcceptSocket req (o :: os) =
      .ok ({ response := xeNetSetBaseResponse req mtResponseSocketAcceptSize
               { opFlags := req.opFlags, status := xeGetNegErrnoVal o.errno } }, os) := by
  show (if o.ret < 0 then (_ : Native HandlerResult) else acceptRest req o) os = _
  rw [if_pos ho]
  rfl

theorem opens_accept (fd : FdRef) (o : Outcome) (calls : List (NativeCall × Outcome)) :
    opens ((.accept fd, o) :: calls) = (if o.ret < 0 then [] else [o.ret]) ++ opens calls := by
  by_cases ho : o.ret < 0 <;> simp [opens, NativeCall.opened, ho]

theorem gaveUp_cons {c : NativeCall} (hc : c.closed = none) (o : Outcome)
    (calls : List (NativeCall × Outcome)) : gaveUp ((c, o) :: calls) = gaveUp calls :=
  List.filterMap_cons_none hc

theorem acceptInit_trace (o : Outcome) (os : List Outcome) :
    Script.trace (acceptInit req o) os = [] := Script.trace_of_ok rfl os

theorem trace_one_call (c : NativeCall) (f : Outcome → HandlerResult) (o : Outcome)
    (os : List Outcome) : Script.trace (native c >>= fun o => pure (f o)) (o :: os) = [(c, o)] := by
  have hblocked : (native c >>= fun o => (pure (f o) : Native HandlerResult)) [] = .error c := rfl
  rw [Script.trace_cons (k := fun os => .ok (f o, os)) hblocked fun _ => rfl,
    Script.trace_of_ok rfl]

theorem acceptMode_blocked {o : Outcome} {rc err : Int} {c : NativeCall}
    (h : acceptMode req o rc err os = .error c) :
    c = .close (.fd o.ret) ∧ gaveUp (Script.trace (acceptMode req o rc err) os) = [] := by
  rw [acceptMode] at h ⊢
  split at h
  · next hrc =>
      rcases os with _ | ⟨x, os⟩
      · cases h
        exact ⟨rfl, rfl⟩
      · cases h
  · cases h

theorem acceptMode_returned {o : Outcome} {rc err : Int}
    (h : acceptMode req o rc err os = .ok (r, rest)) (n : NetState) :
    AcceptDone n o (Script.trace (acceptMode req o rc err) os) r := by
  rw [acceptMode] at h ⊢
  split at h
  · next hrc =>
      rw [if_pos hrc]
      rcases os with _ | ⟨x, os⟩
      · cases h
      · cases h
        refine .closed (xeGetNegErrnoVal_neg err) rfl ?_
        rw [trace_one_call]
        rfl
  · next hrc =>
      rw [if_neg hrc, acceptInit_trace]
      obtain ⟨hstatus, hct⟩ := acceptInit_kept h n
      exact .kept hstatus hct rfl

/-- Setting the mode takes one or two calls, neither of which closes anything. -/
theorem setSockNonblock_then {o : Outcome} (k : Int × Int → Native HandlerResult)
    (os : List Outcome) :
    (∃ c, (xeNetSetSockNonblock o.ret >>= k) os = .error c ∧ c.closed = none ∧
        gaveUp (Script.trace (xeNetSetSockNonblock o.ret >>= k) os) = []) ∨
      ∃ x more, (xeNetSetSockNonblock o.ret >>= k) os = k x more ∧
        gaveUp (Script.trace (xeNetSetSockNonblock o.ret >>= k) os) =
          gaveUp (Script.trace (k x) more) := by
  have hget : (xeNetSetSockNonblock o.ret >>= k) [] = .error (.fcntlGet (.fd o.ret)) := rfl
  rcases os with _ | ⟨g, os⟩
  · exact .inl ⟨_, hget, rfl, rfl⟩
  · by_cases hfail : g.ret = -1
    · have hnext (os : List Outcome) :
          (xeNetSetSockNonblock o.ret >>= k) (g :: os) = k (-5, g.errno) os := by
        show ((if g.ret = -1 then pure (-5, g.errno) else _ : Native (Int × Int)) >>= k) os = _
        rw [if_pos hfail]
        rfl
      refine .inr ⟨_, os, hnext os, ?_⟩
      rw [Script.trace_cons hget hnext, gaveUp_cons rfl]
    · let call := NativeCall.fcntlSet (.fd o.ret) (BitVec.ofInt 32 g.ret ||| 4)
      let after (s : Outcome) : Int × Int := if s.ret = -1 then (-5, s.errno) else (s.ret, 0)
      have hnext (os : List Outcome) : (xeNetSetSockNonblock o.ret >>= k) (g :: os) =
          (native call >>= fun s => k (after s)) os := by
        show ((if g.ret = -1 then pure (-5, g.errno) else _ : Native (Int × Int)) >>= k) os = _
        rw [if_neg hfail]
        rcases os with _ | ⟨s, os⟩
        · rfl
        · show ((if s.ret = -1 then pure (-5, s.errno) else pure (s.ret, 0) :
            Native (Int × Int)) >>= k) os = k (if s.ret = -1 then (-5, s.errno) else (s.ret, 0)) os
          split <;> rfl
      rw [Script.trace_cons hget hnext, gaveUp_cons rfl, hnext]
      rcases os with _ | ⟨s, os⟩
      · exact .inl ⟨call, rfl, rfl, rfl⟩
      · refine .inr ⟨after s, os, rfl, ?_⟩
        rw [Script.trace_cons (k := k (after s)) (show _ = Except.error call from rfl) fun _ => rfl,
          gaveUp_cons rfl]

/-- Nothing more is opened. -/
theorem opens_acceptRest (o : Outcome) (os : List Outcome) :
    opens (Script.trace (acceptRest req o) os) = [] := by
  have hinit : Script.Calls (fun c => ∀ o, c.opened o = none) (acceptInit req o) :=
    Script.calls_pure _ _
  have hmode (rc err : Int) :
      Script.Calls (fun c => ∀ o, c.opened o = none) (acceptMode req o rc err) := by
    unfold acceptMode
    split
    · exact Script.Calls.bind (Script.calls_ask fun _ => rfl) fun _ => Script.calls_pure _ _
    · exact hinit
  have hcalls : Script.Calls (fun c => ∀ o, c.opened o = none) (acceptRest req o) := by
    unfold acceptRest
    split
    · refine Script.Calls.bind ?_ fun x => hmode x.1 x.2
      refine Script.Calls.bind (Script.calls_ask fun _ => rfl) fun g => ?_
      split
      · exact Script.calls_pure _ _
      · refine Script.Calls.bind (Script.calls_ask fun _ => rfl) fun s => ?_
        split <;> exact Script.calls_pure _ _
    · exact hinit
  exact List.filterMap_eq_nil_iff.mpr fun x hx => hcalls.mem_trace hx x.2

/-- A connection that the handler is not done with has not been closed, and the
next call closes none but it. -/
theorem acceptRest_blocked {o : Outcome} {c : NativeCall} (h : acceptRest req o os = .error c) :
    (∀ n, c.closed = some n → n = o.ret) ∧ gaveUp (Script.trace (acceptRest req o) os) = [] := by
  rw [acceptRest] at h ⊢
  split at h
  · next hflag =>
      rw [if_pos hflag]
      rcases setSockNonblock_then (o := o) (fun x => acceptMode req o x.1 x.2) os with
        ⟨c', hrun, hclosed, hgave⟩ | ⟨x, more, hrun, hgave⟩
      · rw [hrun] at h
        cases h
        refine ⟨?_, hgave⟩
        intro n hn
        rw [hclosed] at hn
        cases hn
      · rw [hrun] at h
        obtain ⟨rfl, hnone⟩ := acceptMode_blocked h
        exact ⟨fun n hn => (Option.some.inj hn).symm, hgave.trans hnone⟩
  · cases h

theorem acceptRest_returned {o : Outcome} (h : acceptRest req o os = .ok (r, rest))
    (n : NetState) : AcceptDone n o (Script.trace (acceptRest req o) os) r := by
  rw [acceptRest] at h ⊢
  split at h
  · next hflag =>
      rw [if_pos hflag]
      rcases setSockNonblock_then (o := o) (fun x => acceptMode req o x.1 x.2) os with
        ⟨c', hrun, -, -⟩ | ⟨x, more, hrun, hgave⟩
      · rw [hrun] at h
        cases h
      · rw [hrun] at h
        rcases acceptMode_returned h n with ⟨hstatus, hct, hnone⟩ | ⟨hstatus, hct, hone⟩
        · exact .kept hstatus hct (hgave.trans hnone)
        · exact .closed hstatus hct (hgave.trans hone)
  · next hflag =>
      rw [if_neg hflag, acceptInit_trace]
      obtain ⟨hstatus, hct⟩ := acceptInit_kept h n
      exact .kept hstatus hct rfl

theorem accept_blocked {c : NativeCall} (h : xeNetAcceptSocket req os = .error c) :
    gaveUp (Script.trace (xeNetAcceptSocket req) os) = [] ∧
      ∀ n, c.closed = some n → opens (Script.trace (xeNetAcceptSocket req) os) = [n] := by
  have hfirst : xeNetAcceptSocket req [] = .error (.accept .worker) := rfl
  rcases os with _ | ⟨o, os⟩
  · cases h
    exact ⟨rfl, fun n hn => by cases hn⟩
  · by_cases ho : o.ret < 0
    · rw [acceptSocket_failed req ho] at h
      cases h
    · rw [acceptSocket_cons (Int.not_lt.mp ho)] at h
      rw [Script.trace_cons hfirst (acceptSocket_cons (Int.not_lt.mp ho)), gaveUp_cons rfl]
      obtain ⟨hclosed, hgave⟩ := acceptRest_blocked h
      refine ⟨hgave, fun n hn => ?_⟩
      rw [hclosed n hn, opens_accept, if_neg ho, opens_acceptRest, List.append_nil]

/-- An accept keeps the socket that it reports, and counts it. -/
theorem accept_returned (h : xeNetAcceptSocket req os = .ok (r, rest)) (n : NetState) :
    keptOpen (Script.trace (xeNetAcceptSocket req) os) =
        (if 0 ≤ r.response.status then [r.response.status] else []) ∧
      (r.effect n).socketCt = n.socketCt + if 0 ≤ r.response.status then 1 else 0 := by
  have hfirst : xeNetAcceptSocket req [] = .error (.accept .worker) := rfl
  rcases os with _ | ⟨o, os⟩
  · cases h
  · by_cases ho : o.ret < 0
    · have hdone := acceptSocket_failed req ho
      rw [hdone] at h
      cases h
      have hneg : ¬ 0 ≤ xeGetNegErrnoVal o.errno := Int.not_le.mpr (xeGetNegErrnoVal_neg o.errno)
      rw [Script.trace_cons hfirst hdone, Script.trace_of_ok rfl]
      refine ⟨?_, ?_⟩
      · rw [keptOpen, opens_accept, if_pos ho]
        exact (if_neg hneg).symm
      · exact (Int.add_zero _).symm.trans (congrArg _ (if_neg hneg).symm)
    · rw [acceptSocket_cons (Int.not_lt.mp ho)] at h
      rw [Script.trace_cons hfirst (acceptSocket_cons (Int.not_lt.mp ho)), keptOpen,
        gaveUp_cons rfl, opens_accept, if_neg ho, opens_acceptRest, List.append_nil]
      rcases acceptRest_returned h n with ⟨hstatus, hct, hgave⟩ | ⟨hstatus, hct, hgave⟩
      · rw [hgave, hstatus, if_pos (Int.not_lt.mp ho), if_pos (Int.not_lt.mp ho)]
        exact ⟨rfl, hct⟩
      · rw [hgave, if_neg (Int.not_le.mpr hstatus), if_neg (Int.not_le.mpr hstatus), Int.add_zero]
        exact ⟨by simp, hct⟩

/-! ### All handlers -/

/-- A handler that is blocked closes no socket but one that it has opened. -/
theorem handler_blocked {worker : Option Nat} {g : Globals} {c : NativeCall}
    (h : handler clientId req worker g os = .error c) :
    gaveUp (Script.trace (handler clientId req worker g) os) = [] ∧ ∀ n, c.closed = some n →
      opens (Script.trace (handler clientId req worker g) os) = [n] := by
  by_cases hcreate : req.type = .socketCreate
  · have hhandler : handler clientId req worker g =
        xeNetCreateSocket clientId req (worker.getD 0) := by
      rw [handler, hcreate]
    rw [hhandler] at h ⊢
    obtain ⟨hclosed, -, hgave⟩ := create_blocked h
    exact ⟨hgave, fun n hn => by rw [hclosed] at hn; cases hn⟩
  · by_cases haccept : req.type = .socketAccept
    · have hhandler : handler clientId req worker g = xeNetAcceptSocket req := by
        rw [handler, haccept]
      rw [hhandler] at h ⊢
      exact accept_blocked h
    · have hplain := handler_plain clientId worker g hcreate haccept
      refine ⟨?_, fun n hn => ?_⟩
      · exact List.filterMap_eq_nil_iff.mpr fun x hx => closed_plain (hplain.mem_trace hx)
      · rw [closed_plain (hplain os c h)] at hn
        cases hn

/-- The handlers that neither create nor accept nor close leave the count alone. -/
theorem handler_socketCt {worker : Option Nat} {g : Globals} (hcreate : req.type ≠ .socketCreate)
    (haccept : req.type ≠ .socketAccept) (hclose : req.type ≠ .socketClose)
    (h : handler clientId req worker g os = .ok (r, rest)) (n : NetState) :
    (r.effect n).socketCt = n.socketCt := by
  have hreceived {size slot : Nat} (e : RecvEnd) :
      ((recvResult req slot size e).effect n).socketCt = n.socketCt := by
    cases e <;> rfl
  have hrecorded (visited : List (Nat × Option (BitVec 32))) (n : NetState) :
      (recordPollEvents visited n).socketCt = n.socketCt := by
    induction visited generalizing n with
    | nil => rfl
    | cons x xs ih => exact ih _
  unfold handler at h
  cases ht : req.type <;> rw [ht] at h <;> simp only [] at h
  case socketCreate => exact absurd ht hcreate
  case socketAccept => exact absurd ht haccept
  case socketClose => exact absurd ht hclose
  case socketBind =>
    obtain ⟨o, mid, -, h⟩ := Script.ask_bind_ok h
    cases Script.pure_ok h
    show (if o.ret < 0 then n else _ : NetState).socketCt = _
    split <;> rfl
  case socketSend =>
    obtain ⟨e, mid, -, h⟩ := Script.bind_ok h
    cases Script.pure_ok h
    cases e.failed <;> rfl
  case pollsetQuery =>
    obtain ⟨o, mid, -, h⟩ := Script.ask_bind_ok h
    split at h
    · cases Script.pure_ok h
      rfl
    · cases Script.pure_ok h
      exact hrecorded _ n
  case socketRecv =>
    obtain ⟨e, mid, -, h⟩ := Script.bind_ok h
    cases Script.pure_ok h
    exact hreceived e
  case socketRecvFrom =>
    obtain ⟨e, mid, -, h⟩ := Script.bind_ok h
    cases Script.pure_ok h
    exact hreceived e
  case addrBlock => cases Script.pure_ok h; rfl
  case invalid => cases Script.pure_ok h; rfl
  case unknown => cases Script.pure_ok h; rfl
  all_goals
    obtain ⟨_, _, -, h⟩ := Script.bind_ok h
    cases Script.pure_ok h
    rfl

end Handlers

end MagicWand.Ins
