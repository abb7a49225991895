import MagicWand.Ins.Receives
import MagicWand.Ins.ResponseForm
import MagicWand.Ins.Sends

/-!
# Error codes of the request handlers

Each handler turns the result of a native call into the status of its response by hand.
The call that decides is the last one it makes, apart from a `poll` and from the `close`
of a socket that an accept gives up. `log_write` leaves errno alone, as its level in this
build is that of errors, and those are logged after errno has been read.
-/

namespace MagicWand.Ins

open Foundation

/-! ## The call that decides -/

def decides (t : MtRequestType) : NativeCall → Bool
  | .pollOne _ _ => false
  | .close _ => t == .socketClose
  | _ => true

def decidingOutcome (t : MtRequestType) (calls : List (NativeCall × Outcome)) : Option Outcome :=
  (calls.filter fun p => decides t p.1).getLast?.map Prod.snd

/-- The calls that return nothing but zero when they succeed. -/
def returnsZero : NativeCall → Bool
  | .socket _ _ _ => false
  | .accept _ => false
  | .send _ _ _ => false
  | .recv _ _ _ => false
  | .recvfrom _ _ _ => false
  | .pollOne _ _ => false
  | .pollAll _ => false
  | .fcntlGet _ => false
  | _ => true

/-- A native call fails with -1 and an errno. -/
def nativeAnswer (c : NativeCall) (o : Outcome) : Prop :=
  (o.ret < 0 → o.ret = -1 ∧ 0 < o.errno) ∧ (returnsZero c = true → o.ret ≤ 0)

/-- The status tells how the call went. -/
def Faithful (status : Int) (o : Outcome) : Prop :=
  (o.ret < 0 → status = -xeGetMwerrno o.errno) ∧ (0 ≤ o.ret → 0 ≤ status)

/-- `MW_EPERM`, the standardised errno of -1. -/
def mwEperm : Int := 1

/-- What the handler of `req` can report. `xe_net_get_name` hands on the return value, and
for the non-blocking mode `xe_net_sock_attrib` loses the errno, or the whole failure. -/
def reportsErrno (req : MtRequest) (o : Outcome) : Prop :=
  match req.type with
  | .socketGetName => 0 ≤ o.ret ∨ xeGetMwerrno o.errno = mwEperm
  | .socketGetPeer => 0 ≤ o.ret ∨ xeGetMwerrno o.errno = mwEperm
  | .socketAttrib =>
      req.name = .nonblock → 0 ≤ o.ret ∨ req.modify = true ∧ xeGetMwerrno o.errno = mwEperm
  | _ => True

section Deciding

variable {α : Type} {t : MtRequestType} {c : NativeCall} {o : Outcome}
  {calls : List (NativeCall × Outcome)}

theorem decidingOutcome_cons : decidingOutcome t ((c, o) :: calls) =
    (decidingOutcome t calls).or (if decides t c then some o else none) := by
  rw [decidingOutcome, decidingOutcome, List.filter_cons]
  by_cases hc : decides t c = true
  · rw [if_pos hc, if_pos hc, List.getLast?_cons]
    generalize List.getLast? _ = last
    rcases last with _ | p
    · rfl
    · rfl
  · rw [if_neg hc, if_neg hc, Option.or_none]

theorem decidingOutcome_mem (h : decidingOutcome t calls = some o) : ∃ c, (c, o) ∈ calls := by
  obtain ⟨⟨c, o'⟩, hlast, rfl⟩ := Option.map_eq_some_iff.mp h
  exact ⟨c, (List.mem_filter.mp (List.mem_of_getLast? hlast)).1⟩

/-- The first call decides if no later one does. -/
theorem deciding_step {m m' : Native α} {os : List Outcome} (hm : m [] = .error c)
    (hnext : ∀ os, m (o :: os) = m' os) :
    decidingOutcome t (Script.trace m (o :: os)) =
      (decidingOutcome t (Script.trace m' os)).or (if decides t c then some o else none) := by
  rw [Script.trace_cons hm hnext, decidingOutcome_cons]

theorem deciding_returned {m : Native α} {x : α × List Outcome} (h : m [] = .ok x)
    (os : List Outcome) : decidingOutcome t (Script.trace m os) = none := by
  rw [Script.trace_of_ok h]
  rfl

end Deciding

/-! ## The handlers -/

/-- The status is the translated errno of a call that failed, and no error otherwise. -/
def Reports (status : Int) (o : Outcome) : Prop :=
  (o.ret < 0 → status = xeGetNegErrnoVal o.errno) ∧ (0 ≤ o.ret → 0 ≤ status)

/-- Whatever call decides, the status reports it. -/
def ReportsDeciding (t : MtRequestType) (m : Native HandlerResult) (os : List Outcome)
    (status : Int) : Prop :=
  ∀ o, decidingOutcome t (Script.trace m os) = some o → Reports status o

section Handlers

variable {req : MtRequest} {r : HandlerResult} {os rest : List Outcome} {t : MtRequestType}

theorem reports_failed {o : Outcome} (h : o.ret < 0) : Reports (xeGetNegErrnoVal o.errno) o :=
  ⟨fun _ => rfl, fun hret => absurd h (Int.not_lt.mpr hret)⟩

theorem reports_success {o : Outcome} {status : Int} (h : 0 ≤ o.ret) (hstatus : 0 ≤ status) :
    Reports status o :=
  ⟨fun hret => absurd hret (Int.not_lt.mpr h), fun _ => hstatus⟩

/-- What makes one call. -/
theorem once_deciding {α : Type} {c : NativeCall} (hc : decides t c = true) {f : Outcome → α}
    {r : α} (h : (native c >>= fun o => pure (f o) : Native α) os = .ok (r, rest)) :
    ∃ o, r = f o ∧
      decidingOutcome t (Script.trace (native c >>= fun o => pure (f o)) os) = some o ∧
      (c, o) ∈ Script.trace (native c >>= fun o => pure (f o)) os := by
  obtain ⟨o, mid, rfl, hrun⟩ := Script.ask_bind_ok h
  cases Script.pure_ok hrun
  have hblocked : (native c >>= fun o => pure (f o) : Native α) [] = .error c := rfl
  have hnext (os : List Outcome) : (native c >>= fun o => pure (f o)) (o :: os) =
      (pure (f o) : Native α) os := rfl
  have hreturned : (pure (f o) : Native α) [] = .ok (f o, []) := rfl
  refine ⟨o, rfl, ?_, ?_⟩
  · rw [deciding_step hblocked hnext, deciding_returned hreturned, if_pos hc]
    rfl
  · rw [Script.trace_cons hblocked hnext]
    exact List.mem_cons_self

theorem connect_reports (h : xeNetConnectSocket req os = .ok (r, rest)) :
    ReportsDeciding .socketConnect (xeNetConnectSocket req) os r.response.status := by
  obtain ⟨o, rfl, hdeciding, -⟩ := once_deciding (t := .socketConnect) rfl h
  intro o' ho'
  cases hdeciding.symm.trans ho'
  show Reports (if o.ret < 0 then xeGetNegErrnoVal o.errno else 0) o
  split
  · next hneg => exact reports_failed hneg
  · next hneg => exact reports_success (Int.not_lt.mp hneg) le_rfl

theorem bind_reports {slot : Nat} (h : xeNetBindSocket req slot os = .ok (r, rest)) :
    ReportsDeciding .socketBind (xeNetBindSocket req slot) os r.response.status := by
  obtain ⟨o, rfl, hdeciding, -⟩ := once_deciding (t := .socketBind) rfl h
  intro o' ho'
  cases hdeciding.symm.trans ho'
  show Reports (if o.ret < 0 then xeGetNegErrnoVal o.errno else o.ret) o
  split
  · next hneg => exact reports_failed hneg
  · next hneg => exact reports_success (Int.not_lt.mp hneg) (Int.not_lt.mp hneg)

theorem listen_reports (h : xeNetListenSocket req os = .ok (r, rest)) :
    ReportsDeciding .socketListen (xeNetListenSocket req) os r.response.status := by
  obtain ⟨o, rfl, hdeciding, -⟩ := once_deciding (t := .socketListen) rfl h
  intro o' ho'
  cases hdeciding.symm.trans ho'
  show Reports (if o.ret < 0 then xeGetNegErrnoVal o.errno else o.ret) o
  split
  · next hneg => exact reports_failed hneg
  · next hneg => exact reports_success (Int.not_lt.mp hneg) (Int.not_lt.mp hneg)

theorem shutdown_reports (ha : Script.Along nativeAnswer (xeNetShutdownSocket req) os)
    (h : xeNetShutdownSocket req os = .ok (r, rest)) :
    ReportsDeciding .socketShutdown (xeNetShutdownSocket req) os r.response.status := by
  obtain ⟨o, rfl, hdeciding, hmem⟩ := once_deciding (t := .socketShutdown) rfl h
  intro o' ho'
  cases hdeciding.symm.trans ho'
  have hzero := (ha.mem_trace hmem).2 rfl
  show Reports (if o.ret = 0 then 0 else xeGetNegErrnoVal o.errno) o
  split
  · next hret => exact reports_success hret.ge le_rfl
  · next hret => exact reports_failed (lt_of_le_of_ne hzero hret)

/-- The bare return value. -/
theorem getName_status (hdecides : ∀ n, decides t (.getpeername .worker n) = true ∧
      decides t (.getsockname .worker n) = true)
    (h : xeNetGetName req os = .ok (r, rest)) :
    ∃ o, r.response.status = o.ret ∧
      decidingOutcome t (Script.trace (xeNetGetName req) os) = some o := by
  have hcall : decides t (if req.type = .socketGetPeer
      then NativeCall.getpeername .worker req.maxlen
      else NativeCall.getsockname .worker req.maxlen) = true := by
    split
    · exact (hdecides _).1
    · exact (hdecides _).2
  obtain ⟨o, rfl, hdeciding, -⟩ := once_deciding hcall h
  exact ⟨o, rfl, hdeciding⟩

theorem close_reports {slot : Nat} {w : Socket}
    (ha : Script.Along nativeAnswer (xeNetCloseSocket req slot w) os)
    (h : xeNetCloseSocket req slot w os = .ok (r, rest)) :
    ReportsDeciding .socketClose (xeNetCloseSocket req slot w) os r.response.status := by
  by_cases hfd : w.localFd ≠ -1
  · have hcall : xeNetCloseSocket req slot w = (native (.close .worker) >>= fun o => pure
        { response := xeNetSetBaseResponse req mtResponseBaseSize
            { status := if o.ret ≠ 0 then xeGetNegErrnoVal o.errno else 0 }
          effect := xeNetInternalCloseSocket slot }) := by
      rw [xeNetCloseSocket, if_pos hfd]
    rw [hcall] at h ha ⊢
    obtain ⟨o, rfl, hdeciding, hmem⟩ := once_deciding (t := .socketClose) rfl h
    intro o' ho'
    cases hdeciding.symm.trans ho'
    have hzero := (ha.mem_trace hmem).2 rfl
    show Reports (if o.ret ≠ 0 then xeGetNegErrnoVal o.errno else 0) o
    split
    · next hret => exact reports_failed (lt_of_le_of_ne hzero hret)
    · next hret => exact reports_success (not_not.mp hret).ge le_rfl
  · have hcall : xeNetCloseSocket req slot w [] = .ok
        ({ response := xeNetSetBaseResponse req mtResponseBaseSize { status := 0 }
           effect := xeNetInternalCloseSocket slot }, []) := by
      rw [xeNetCloseSocket, if_neg hfd]
      rfl
    intro o ho
    rw [deciding_returned hcall] at ho
    cases ho

/-- The last `socket()` decides. -/
theorem socketRetry_deciding {c : NativeCall} (hc : decides t c = true) {o : Outcome}
    (h : socketRetry c os = .ok (o, rest)) :
    decidingOutcome t (Script.trace (socketRetry c) os) = some o := by
  have hblocked : socketRetry c [] = .error c := rfl
  induction os with
  | nil => cases h
  | cons o' os ih =>
      by_cases hretry : o'.ret < 0 ∧ o'.errno = enobufs
      · have hnext (os : List Outcome) : socketRetry c (o' :: os) = socketRetry c os := by
          rw [socketRetry, if_pos hretry]
        rw [hnext] at h
        rw [deciding_step hblocked hnext, ih h]
        rfl
      · have hnext (os : List Outcome) : socketRetry c (o' :: os) = (pure o' : Native Outcome) os := by
          rw [socketRetry, if_neg hretry]
          rfl
        have hreturned : (pure o' : Native Outcome) [] = .ok (o', []) := rfl
        rw [hnext] at h
        cases Script.pure_ok h
        rw [deciding_step hblocked hnext, deciding_returned hreturned, if_pos hc]
        rfl

theorem create_reports {clientId : BitVec 16} {slot : Nat}
    (h : xeNetCreateSocket clientId req slot os = .ok (r, rest)) :
    ReportsDeciding .socketCreate (xeNetCreateSocket clientId req slot) os r.response.status := by
  obtain ⟨o, mid, hrun, hret⟩ := Script.bind_ok h
  simp only [xeNetInitSocket_eq] at hret
  cases Script.pure_ok hret
  have htrace : Script.trace (xeNetCreateSocket clientId req slot) os =
      Script.trace (socketRetry (.socket (xeNetGetNativeProtocolFamily req.sockFam)
        (xeNetGetNativeSockType req.sockType) req.sockProtocol)) os := by
    refine Script.trace_bind_callless (fun o => ?_) os
    exact ⟨_, rfl⟩
  intro o' ho'
  rw [htrace, socketRetry_deciding rfl hrun] at ho'
  cases ho'
  show Reports (if o.ret < 0 then xeGetNegErrnoVal o.errno else 0) o
  split
  · next hneg => exact reports_failed hneg
  · next hneg => exact reports_success (Int.not_lt.mp hneg) le_rfl

/-- The last `send` decides. While there is something to send there is one. -/
theorem sendLoop_deciding {p : List (BitVec 8)} {flags : MtFlags} {polling : Bool} {count : Nat}
    {e : SendEnd} (hmore : count < p.length)
    (h : sendLoop p flags polling count os = .ok (e, rest)) :
    ∃ o, decidingOutcome .socketSend (Script.trace (sendLoop p flags polling count) os) = some o ∧
      match e.failed with
      | none => 0 ≤ o.ret
      | some err => o.ret < 0 ∧ o.errno = err := by
  induction os generalizing polling count with
  | nil =>
      rcases polling with _ | _
      · rw [sendLoop, if_neg (Nat.not_le.mpr hmore)] at h
        cases h
      · cases h
  | cons o os ih =>
      rcases polling with _ | _
      · have hnot : ¬ p.length ≤ count := Nat.not_le.mpr hmore
        have hblocked : sendLoop p flags false count [] =
            .error (.send .worker (p.drop count) flags) := by
          rw [sendLoop, if_neg hnot]
        by_cases hneg : o.ret < 0
        · by_cases hagain : o.errno = eagain
          · have hnext (os : List Outcome) : sendLoop p flags false count (o :: os) =
                sendLoop p flags true count os := by
              rw [sendLoop, if_neg hnot, if_pos hneg, if_pos hagain]
            rw [hnext] at h
            obtain ⟨o', ho', hend⟩ := ih hmore h
            rw [deciding_step hblocked hnext, ho']
            exact ⟨o', rfl, hend⟩
          · have hnext (os : List Outcome) : sendLoop p flags false count (o :: os) =
                (pure ⟨count, some o.errno⟩ : Native SendEnd) os := by
              rw [sendLoop, if_neg hnot, if_pos hneg, if_neg hagain]
              rfl
            rw [hnext] at h
            cases Script.pure_ok h
            rw [deciding_step hblocked hnext, deciding_returned (show (pure _ : Native SendEnd) [] = _ from rfl)]
            exact ⟨o, rfl, hneg, rfl⟩
        · have hnext (os : List Outcome) : sendLoop p flags false count (o :: os) =
              sendLoop p flags false ((count + o.ret.toNat) % 2 ^ 16) os := by
            rw [sendLoop, if_neg hnot, if_neg hneg]
          rw [hnext] at h
          rw [deciding_step hblocked hnext]
          by_cases hall : p.length ≤ (count + o.ret.toNat) % 2 ^ 16
          · have hdone (os : List Outcome) :
                sendLoop p flags false ((count + o.ret.toNat) % 2 ^ 16) os =
                  .ok (⟨(count + o.ret.toNat) % 2 ^ 16, none⟩, os) := by
              rcases os with _ | _ <;> rw [sendLoop, if_pos hall]
            rw [hdone] at h
            cases h
            rw [deciding_returned (hdone [])]
            exact ⟨o, rfl, Int.not_lt.mp hneg⟩
          · obtain ⟨o', ho', hend⟩ := ih (Nat.not_le.mp hall) h
            rw [ho']
            exact ⟨o', rfl, hend⟩
      · have hblocked : sendLoop p flags true count [] = .error (.pollOne .worker pollOut) := rfl
        have hnext (os : List Outcome) : sendLoop p flags true count (o :: os) =
            sendLoop p flags false count os := rfl
        rw [hnext] at h
        obtain ⟨o', ho', hend⟩ := ih hmore h
        rw [deciding_step hblocked hnext, ho']
        exact ⟨o', rfl, hend⟩

theorem send_reports {slot : Nat} (h : xeNetSendSocket req slot os = .ok (r, rest)) :
    ReportsDeciding .socketSend (xeNetSendSocket req slot) os r.response.status := by
  obtain ⟨e, mid, hrun, hret⟩ := Script.bind_ok h
  cases Script.pure_ok hret
  intro o ho
  rw [xeNetSendSocket, Script.trace_bind_pure] at ho
  rcases Nat.eq_zero_or_pos (sendPayload req).length with hnone | hmore
  · have hdone : sendLoop (sendPayload req) (xeNetTranslateMsgFlags req.opFlags) false 0 [] =
        .ok (⟨0, none⟩, []) := by
      rw [sendLoop, if_pos hnone.le]
    rw [deciding_returned hdone] at ho
    cases ho
  · obtain ⟨o', ho', hend⟩ := sendLoop_deciding hmore hrun
    cases ho'.symm.trans ho
    rcases e with ⟨count, _ | err⟩
    · exact reports_success hend le_rfl
    · obtain ⟨hneg, rfl⟩ := hend
      exact reports_failed hneg

/-- What the last receive was like that the loop has made. -/
def RecvEnd.Decided (o : Outcome) : RecvEnd → Prop
  | .failed errno => o.ret < 0 ∧ o.errno = errno
  | _ => 0 ≤ o.ret

/-- The last receive decides; the loop may end behind it in a `poll` that fails. -/
theorem recvLoop_deciding {call : NativeCall} (hc : decides t call = true) {phase : RecvPhase}
    {e : RecvEnd} (h : recvLoop call phase os = .ok (e, rest)) :
    (∃ o, decidingOutcome t (Script.trace (recvLoop call phase) os) = some o ∧ e.Decided o) ∨
      (phase = .poll ∧ decidingOutcome t (Script.trace (recvLoop call phase) os) = none ∧
        ∃ rc, e = .internal rc) := by
  have hreturned (e : RecvEnd) : (pure e : Native RecvEnd) [] = .ok (e, []) := rfl
  induction os generalizing phase with
  | nil => rcases phase with ⟨polled, events⟩ | _ <;> cases h
  | cons o os ih =>
      rcases phase with ⟨polled, events⟩ | _
      · have hblocked : recvLoop call (.recv polled events) [] = .error call := rfl
        left
        by_cases hint : o.interrupted = true
        · rw [recvLoop_interrupted hint] at h
          rw [deciding_step hblocked (recvLoop_interrupted hint)]
          rcases ih h with ⟨o', ho', hend⟩ | ⟨hphase, -⟩
          · rw [ho']
            exact ⟨o', rfl, hend⟩
          · cases hphase
        · have hdone : o.interrupted = false := Bool.eq_false_iff.mpr hint
          rw [recvLoop_answered hdone] at h
          rw [deciding_step hblocked (recvLoop_answered hdone), if_pos hc]
          rcases recvNext_cases call polled events o with ⟨e', hnext, hhow⟩ | ⟨hret, -, -, -, hnext⟩
          · rw [hnext] at h ⊢
            rw [deciding_returned (hreturned e')]
            cases Script.pure_ok h
            refine ⟨o, rfl, ?_⟩
            rcases hhow with ⟨hneg, rfl⟩ | ⟨hret, -, rfl⟩ | ⟨hret, -, ⟨-, rfl⟩ | ⟨-, -, rfl⟩⟩
            · exact ⟨hneg, rfl⟩
            · exact hret
            · exact hret
            · exact hret
          · rw [hnext] at h ⊢
            rcases ih h with ⟨o', ho', hend⟩ | ⟨-, hnone, rc, rfl⟩
            · rw [ho']
              exact ⟨o', rfl, hend⟩
            · rw [hnone]
              exact ⟨o, rfl, hret⟩
      · have hblocked : recvLoop call .poll [] = .error pollOneCall := rfl
        have hpoll : decides t pollOneCall = false := rfl
        rw [recvLoop_polled] at h
        rw [deciding_step hblocked (recvLoop_polled o), hpoll, if_neg Bool.false_ne_true,
          Option.or_none]
        rw [pollNext] at h ⊢
        by_cases hfail : (pollOneResult o).1 ≠ 0
        · rw [if_pos hfail] at h ⊢
          cases Script.pure_ok h
          exact .inr ⟨rfl, deciding_returned (hreturned _) os, _, rfl⟩
        · rw [if_neg hfail] at h ⊢
          rcases ih h with hdecided | ⟨hphase, -⟩
          · exact .inl hdecided
          · cases hphase

theorem receive_reports {call : NativeCall} (hc : decides t call = true) {slot header : Nat}
    {m : Native HandlerResult}
    (hm : m = (recvLoop call (.recv false 0) >>= fun e => pure (recvResult req slot header e)))
    (h : m os = .ok (r, rest)) : ReportsDeciding t m os r.response.status := by
  subst hm
  obtain ⟨e, mid, hrun, hret⟩ := Script.bind_ok h
  cases Script.pure_ok hret
  intro o ho
  rw [Script.trace_bind_pure] at ho
  rcases recvLoop_deciding hc hrun with ⟨o', ho', hend⟩ | ⟨hphase, -⟩
  · cases ho'.symm.trans ho
    rcases e with errno | o' | o' | o' | rc
    · obtain ⟨hneg, rfl⟩ := hend
      exact reports_failed hneg
    · exact reports_success hend le_rfl
    · exact reports_success hend le_rfl
    · exact reports_success hend le_rfl
    · exact reports_success hend le_rfl
  · cases hphase

/-- The `close` of the socket that is given up does not decide. -/
theorem acceptGiveUp_deciding {fd rc err : Int}
    (h : acceptGiveUp req fd rc err os = .ok (r, rest)) :
    r.response.status = xeGetNegErrnoVal err ∧
      decidingOutcome .socketAccept (Script.trace (acceptGiveUp req fd rc err) os) = none := by
  obtain ⟨o, mid, rfl, hret⟩ := Script.ask_bind_ok h
  cases Script.pure_ok hret
  have hblocked : acceptGiveUp req fd rc err [] = .error (.close (.fd fd)) := rfl
  refine ⟨rfl, ?_⟩
  rw [deciding_step hblocked fun _ => rfl, deciding_returned rfl]
  rfl

theorem acceptInit_deciding {o : Outcome} (h : acceptInit req o os = .ok (r, rest)) :
    r.response.status = o.ret ∧
      decidingOutcome .socketAccept (Script.trace (acceptInit req o) os) = none := by
  simp only [acceptInit, xeNetInitSocket_eq] at h ⊢
  cases Script.pure_ok h
  exact ⟨rfl, deciding_returned rfl os⟩

/-- The second `fcntl` decides, or the first one if it fails. -/
theorem acceptSwitch_reports {o : Outcome} (hfd : 0 ≤ o.ret)
    (ha : Script.Along nativeAnswer (acceptSwitch req o) os)
    (h : acceptSwitch req o os = .ok (r, rest)) :
    ∃ o', decidingOutcome .socketAccept (Script.trace (acceptSwitch req o) os) = some o' ∧
      Reports r.response.status o' := by
  have hblocked : acceptSwitch req o [] = .error (.fcntlGet (.fd o.ret)) := rfl
  rcases os with _ | ⟨get, os⟩
  · cases h
  by_cases hget : get.ret = -1
  · rw [acceptSwitch_failed hget] at h
    obtain ⟨hstatus, hnone⟩ := acceptGiveUp_deciding h
    rw [deciding_step hblocked (acceptSwitch_failed hget), hnone, hstatus]
    exact ⟨get, rfl, reports_failed (hget ▸ by decide)⟩
  have hnext (os : List Outcome) : acceptSwitch req o (get :: os) =
      (fun os => acceptSwitch req o (get :: os)) os := rfl
  have hblocked' := @acceptSwitch_blocked req o _ hget
  rcases os with _ | ⟨set, os⟩
  · rw [hblocked'] at h
    cases h
  rw [Script.along_cons hblocked hnext,
    Script.along_cons hblocked' (acceptSwitch_set hget set)] at ha
  have hanswer : nativeAnswer (.fcntlSet (.fd o.ret) (BitVec.ofInt 32 get.ret ||| 4)) set := ha.2.1
  rw [acceptSwitch_set hget] at h
  rw [deciding_step hblocked hnext, deciding_step hblocked' (acceptSwitch_set hget set)]
  rw [acceptSwitched] at h ⊢
  by_cases hfail : set.ret = -1
  · rw [if_pos hfail] at h ⊢
    obtain ⟨hstatus, hnone⟩ := acceptGiveUp_deciding h
    rw [hnone, hstatus]
    exact ⟨set, rfl, reports_failed (hfail ▸ by decide)⟩
  · have hzero : set.ret = 0 := by
      have hle := hanswer.2 rfl
      by_contra hne
      exact hfail (hanswer.1 (lt_of_le_of_ne hle hne)).1
    rw [if_neg hfail, if_neg (not_not_intro hzero)] at h ⊢
    obtain ⟨hstatus, hnone⟩ := acceptInit_deciding h
    rw [hnone, hstatus]
    exact ⟨set, rfl, reports_success hzero.ge hfd⟩

theorem accept_reports (ha : Script.Along nativeAnswer (xeNetAcceptSocket req) os)
    (h : xeNetAcceptSocket req os = .ok (r, rest)) :
    ReportsDeciding .socketAccept (xeNetAcceptSocket req) os r.response.status := by
  have hblocked : xeNetAcceptSocket req [] = .error (.accept .worker) := rfl
  rcases os with _ | ⟨o, os⟩
  · cases h
  have hround (os : List Outcome) : xeNetAcceptSocket req (o :: os) =
      (if o.ret < 0 then pure
          { response := xeNetSetBaseResponse req mtResponseSocketAcceptSize
              { opFlags := req.opFlags, status := xeGetNegErrnoVal o.errno } }
        else if req.opFlags.has mwSockNonblock = true then acceptSwitch req o
        else acceptInit req o : Native HandlerResult) os := rfl
  intro o' ho'
  rw [deciding_step hblocked hround] at ho'
  rw [hround] at h
  rw [Script.along_cons hblocked hround] at ha
  by_cases hneg : o.ret < 0
  · rw [if_pos hneg] at h ho'
    cases Script.pure_ok h
    rw [deciding_returned rfl] at ho'
    cases ho'
    exact reports_failed hneg
  have hfd : 0 ≤ o.ret := Int.not_lt.mp hneg
  by_cases hnb : req.opFlags.has mwSockNonblock = true
  · rw [if_neg hneg, if_pos hnb] at h ho' ha
    obtain ⟨o'', hdeciding, hreports⟩ := acceptSwitch_reports hfd ha.2 h
    rw [hdeciding] at ho'
    cases ho'
    exact hreports
  · rw [if_neg hneg, if_neg hnb] at h ho'
    obtain ⟨hstatus, hnone⟩ := acceptInit_deciding h
    rw [hnone] at ho'
    cases ho'
    rw [hstatus]
    exact reports_success hfd hfd

/-- The status that `xe_net_sock_attrib` makes of return code and errno. -/
def attribStatus (x : Int × Int × MtSockfeatArg) : Int :=
  if x.1 ≠ 0 then xeGetNegErrnoVal x.2.1 else 0

theorem attribCall_reports {opt : SockOpt} {x : Int × Int × MtSockfeatArg}
    (ha : Script.Along nativeAnswer (attribCall req opt) os)
    (h : attribCall req opt os = .ok (x, rest)) :
    ∃ o, decidingOutcome .socketAttrib (Script.trace (attribCall req opt) os) = some o ∧
      Reports (attribStatus x) o := by
  have hstatus {o : Outcome} (hzero : o.ret ≤ 0) (val : MtSockfeatArg) :
      Reports (attribStatus (o.ret, if o.ret ≠ 0 then o.errno else 0, val)) o := by
    rw [attribStatus]
    split
    · next hret => exact reports_failed (lt_of_le_of_ne hzero hret)
    · next hret => exact reports_success (not_not.mp hret).ge le_rfl
  rw [attribCall] at h ha ⊢
  by_cases hmodify : req.modify = true
  · have hdecides : decides .socketAttrib (setCall opt req.val) = true := by
      rw [setCall]
      split <;> rfl
    have hcall : returnsZero (setCall opt req.val) = true := by
      rw [setCall]
      split <;> rfl
    rw [if_pos hmodify] at h ha ⊢
    obtain ⟨o, rfl, hdeciding, hmem⟩ := once_deciding hdecides h
    exact ⟨o, hdeciding, hstatus ((ha.mem_trace hmem).2 hcall) _⟩
  · rw [if_neg hmodify] at h ha ⊢
    obtain ⟨o, rfl, hdeciding, hmem⟩ := once_deciding (t := .socketAttrib) rfl h
    exact ⟨o, hdeciding, hstatus ((ha.mem_trace hmem).2 rfl) _⟩

/-- An accept filter is set unless there is one. -/
def deferAcceptBody (req : MtRequest) : Native (Int × Int × MtSockfeatArg) := do
  let o ← native (.getsockopt .worker .acceptFilter)
  if o.ret = 0 then pure (0, 0, {}) else attribCall req .acceptFilter

/-- The attributes other than the non-blocking mode. -/
theorem attribBody_cases (hname : req.name ≠ .nonblock) :
    (∃ y, attribBody req = pure y) ∨ (∃ opt, attribBody req = attribCall req opt) ∨
      attribBody req = deferAcceptBody req := by
  by_cases hdefer : req.name = .deferAccept ∧ req.modify = true
  · right
    right
    rw [attribBody, hdefer.1]
    exact if_pos hdefer.2
  have hone : req.modify = false ∨ req.name ≠ .deferAccept := by
    by_cases hmodify : req.modify = true
    · exact .inr fun hd => hdefer ⟨hd, hmodify⟩
    · exact .inl (Bool.eq_false_iff.mpr hmodify)
  rcases hopt : attribOption req.name with _ | opt
  · left
    unfold attribOption at hopt
    unfold attribBody
    rcases hn : req.name <;> rw [hn] at hopt hname
    case nonblock => exact absurd rfl hname
    all_goals first | exact ⟨_, rfl⟩ | cases hopt
  · exact .inr (.inl ⟨opt, attribBody_eq hopt hone⟩)

theorem attribBody_reports (hname : req.name ≠ .nonblock) {x : Int × Int × MtSockfeatArg}
    (ha : Script.Along nativeAnswer (attribBody req) os)
    (h : attribBody req os = .ok (x, rest)) :
    ∀ o, decidingOutcome .socketAttrib (Script.trace (attribBody req) os) = some o →
      Reports (attribStatus x) o := by
  have hreturned (y : Int × Int × MtSockfeatArg) :
      (pure y : Native (Int × Int × MtSockfeatArg)) [] = .ok (y, []) := rfl
  intro o ho
  rcases attribBody_cases hname with ⟨y, hbody⟩ | ⟨opt, hbody⟩ | hbody
  · rw [hbody, deciding_returned (hreturned y)] at ho
    cases ho
  · rw [hbody] at h ha ho
    obtain ⟨o', ho', hreports⟩ := attribCall_reports ha h
    cases ho'.symm.trans ho
    exact hreports
  · rw [hbody] at h ha ho
    obtain ⟨get, mid, rfl, hrun⟩ := Script.ask_bind_ok h
    have hnext (os : List Outcome) : deferAcceptBody req (get :: os) =
        (if get.ret = 0 then pure (0, 0, {}) else attribCall req .acceptFilter :
          Native (Int × Int × MtSockfeatArg)) os := rfl
    have hblocked : deferAcceptBody req [] = .error (.getsockopt .worker .acceptFilter) := rfl
    rw [deciding_step hblocked hnext] at ho
    rw [Script.along_cons hblocked hnext] at ha
    by_cases hset : get.ret = 0
    · rw [if_pos hset] at hrun ho
      cases Script.pure_ok hrun
      rw [deciding_returned (hreturned _)] at ho
      cases ho
      exact reports_success hset.ge le_rfl
    · rw [if_neg hset] at hrun ho ha
      obtain ⟨o', ho', hreports⟩ := attribCall_reports ha.2 hrun
      rw [ho'] at ho
      cases ho
      exact hreports

/-- The non-blocking mode: what the `fcntl` has done is reported as -1, or not at all. -/
theorem nonblock_deciding (hname : req.name = .nonblock) {x : Int × Int × MtSockfeatArg}
    (ha : Script.Along nativeAnswer (attribBody req) os)
    (h : attribBody req os = .ok (x, rest)) :
    ∃ o, decidingOutcome .socketAttrib (Script.trace (attribBody req) os) = some o ∧
      attribStatus x = (if req.modify = true ∧ o.ret < 0 then -1 else 0) := by
  have hreturned (y : Int × MtSockfeatArg) :
      (pure y : Native (Int × MtSockfeatArg)) [] = .ok (y, []) := rfl
  have hbody : attribBody req = (xeNetSockFcntl req >>= fun y => pure (y.1, 0, y.2)) := by
    rw [attribBody, hname]
  rw [hbody, Script.along_bind_pure] at ha
  rw [hbody] at h ⊢
  obtain ⟨y, mid, hrun, hret⟩ := Script.bind_ok h
  cases Script.pure_ok hret
  rw [Script.trace_bind_pure]
  obtain ⟨get, os, rfl, -⟩ := Script.ask_bind_ok hrun
  have hblocked : xeNetSockFcntl req [] = .error (.fcntlGet .worker) := rfl
  obtain ⟨flags, hnext⟩ : ∃ flags, ∀ os, xeNetSockFcntl req (get :: os) =
      (if req.modify then native (.fcntlSet .worker flags) >>= fun o => pure (o.ret, {})
        else pure (0, { v32 := BitVec.ofInt 32 get.ret &&& 4 })) os := ⟨_, fun _ => rfl⟩
  rw [hnext] at hrun
  rw [Script.along_cons hblocked hnext] at ha
  rw [deciding_step hblocked hnext]
  by_cases hmodify : req.modify = true
  · simp only [hmodify, if_true, true_and] at hrun ha ⊢
    obtain ⟨o, rfl, hdeciding, hmem⟩ := once_deciding (t := .socketAttrib) rfl hrun
    have hzero := (ha.2.mem_trace hmem).2 rfl
    rw [hdeciding]
    refine ⟨o, rfl, ?_⟩
    rw [attribStatus]
    by_cases hfail : o.ret = 0
    · rw [if_neg (not_not_intro hfail), if_neg (by omega)]
    · rw [if_pos hfail, if_pos (by omega)]
      rfl
  · rw [if_neg hmodify] at hrun ⊢
    cases Script.pure_ok hrun
    rw [deciding_returned (hreturned _)]
    refine ⟨get, rfl, ?_⟩
    rw [if_neg fun hset => hmodify hset.1]
    rfl

end Handlers

/-! ## All handlers -/

theorem Reports.faithful {status : Int} {o : Outcome} (h : Reports status o)
    (ho : o.ret < 0 → 0 < o.errno) : Faithful status o := by
  refine ⟨fun hneg => ?_, h.2⟩
  rw [h.1 hneg, xeGetNegErrnoVal, if_pos (ho hneg)]

/-- A status of -1 is the right one for the errno values that are not told apart. -/
theorem faithful_minusOne {o : Outcome} (hret : o.ret = -1) :
    Faithful (-1) o ↔ xeGetMwerrno o.errno = mwEperm := by
  constructor
  · intro h
    have hstatus := h.1 (hret ▸ by decide)
    rw [mwEperm]
    omega
  · intro h
    refine ⟨fun _ => ?_, fun hnonneg => ?_⟩
    · rw [h, mwEperm]
    · rw [hret] at hnonneg
      exact absurd hnonneg (by decide)

theorem faithful_return {o : Outcome} (ho : o.ret < 0 → o.ret = -1) :
    Faithful o.ret o ↔ 0 ≤ o.ret ∨ xeGetMwerrno o.errno = mwEperm := by
  by_cases hneg : o.ret < 0
  · have hret := ho hneg
    rw [or_iff_right (Int.not_le.mpr hneg), ← faithful_minusOne hret, hret]
  · have hnonneg : 0 ≤ o.ret := Int.not_lt.mp hneg
    exact iff_of_true ⟨fun h => absurd h hneg, fun _ => hnonneg⟩ (.inl hnonneg)

/-- A failure that is not reported. -/
theorem faithful_zero {o : Outcome} (ho : o.ret < 0 → 0 < o.errno) :
    Faithful 0 o ↔ 0 ≤ o.ret := by
  constructor
  · intro h
    by_contra hnot
    have hneg : o.ret < 0 := Int.not_le.mp hnot
    have hpos := xeGetMwerrno_pos (Int.ne_of_gt (ho hneg))
    have hstatus := h.1 hneg
    omega
  · intro hnonneg
    exact ⟨fun h => absurd h (Int.not_lt.mpr hnonneg), fun _ => le_rfl⟩

/-- The handlers of socket requests report the errno of the call that decides, translated,
and no error if it succeeded, but for the names and the non-blocking mode. -/
theorem errno_faithful_iff (clientId : BitVec 16) (req : MtRequest) (worker : Option Nat)
    (g : Globals) (os rest : List Outcome) (r : HandlerResult)
    (hreq : usesWorker req.type = true)
    (ha : Script.Along nativeAnswer (handler clientId req worker g) os)
    (h : handler clientId req worker g os = .ok (r, rest)) :
    (∀ o, decidingOutcome req.type (Script.trace (handler clientId req worker g) os) = some o →
        Faithful r.response.status o) ↔
      ∀ o, decidingOutcome req.type (Script.trace (handler clientId req worker g) os) = some o →
        reportsErrno req o := by
  refine forall_congr' fun o => imp_congr_right fun ho => ?_
  obtain ⟨c, hmem⟩ := decidingOutcome_mem ho
  have hnative := (ha.mem_trace hmem).1
  have herrno : o.ret < 0 → 0 < o.errno := fun hneg => (hnative hneg).2
  have hreturn : o.ret < 0 → o.ret = -1 := fun hneg => (hnative hneg).1
  cases ht : req.type <;> simp only [handler, ht] at h ha ho <;> simp only [reportsErrno, ht]
  case socketCreate => exact iff_of_true ((create_reports h o ho).faithful herrno) trivial
  case socketShutdown => exact iff_of_true ((shutdown_reports ha h o ho).faithful herrno) trivial
  case socketClose => exact iff_of_true ((close_reports ha h o ho).faithful herrno) trivial
  case socketConnect => exact iff_of_true ((connect_reports h o ho).faithful herrno) trivial
  case socketBind => exact iff_of_true ((bind_reports h o ho).faithful herrno) trivial
  case socketListen => exact iff_of_true ((listen_reports h o ho).faithful herrno) trivial
  case socketAccept => exact iff_of_true ((accept_reports ha h o ho).faithful herrno) trivial
  case socketSend => exact iff_of_true ((send_reports h o ho).faithful herrno) trivial
  case socketRecv =>
    exact iff_of_true ((receive_reports (t := .socketRecv) rfl rfl h o ho).faithful herrno) trivial
  case socketRecvFrom =>
    exact iff_of_true ((receive_reports (t := .socketRecvFrom) rfl rfl h o ho).faithful herrno)
      trivial
  case socketGetName =>
    obtain ⟨o', hstatus, ho'⟩ := getName_status (t := .socketGetName) (fun _ => ⟨rfl, rfl⟩) h
    cases ho'.symm.trans ho
    rw [hstatus]
    exact faithful_return hreturn
  case socketGetPeer =>
    obtain ⟨o', hstatus, ho'⟩ := getName_status (t := .socketGetPeer) (fun _ => ⟨rfl, rfl⟩) h
    cases ho'.symm.trans ho
    rw [hstatus]
    exact faithful_return hreturn
  case socketAttrib =>
    have htrace : Script.trace (xeNetSockAttrib req) os = Script.trace (attribBody req) os := by
      refine Script.trace_bind_callless (fun x => ?_) os
      exact ⟨_, rfl⟩
    obtain ⟨x, mid, hbody, hret⟩ := Script.bind_ok h
    have hstatus : r.response.status = attribStatus x := by
      cases Script.pure_ok hret
      rfl
    have hbodyAlong : Script.Along nativeAnswer (attribBody req) os := by
      refine (Script.along_bind_callless fun x => ?_).mp ha
      exact ⟨_, rfl⟩
    rw [htrace] at ho
    rw [hstatus]
    by_cases hname : req.name = .nonblock
    · obtain ⟨o', ho', hx⟩ := nonblock_deciding hname hbodyAlong hbody
      cases ho'.symm.trans ho
      rw [hx]
      by_cases hneg : o.ret < 0
      · by_cases hmodify : req.modify = true
        · rw [if_pos ⟨hmodify, hneg⟩, faithful_minusOne (hreturn hneg)]
          exact ⟨fun hperm _ => .inr ⟨hmodify, hperm⟩, fun himp =>
            ((himp hname).resolve_left (Int.not_le.mpr hneg)).2⟩
        · rw [if_neg fun hset => hmodify hset.1, faithful_zero herrno]
          exact ⟨fun hnonneg => absurd hneg (Int.not_lt.mpr hnonneg), fun himp =>
            absurd ((himp hname).resolve_left (Int.not_le.mpr hneg)).1 hmodify⟩
      · have hnonneg : 0 ≤ o.ret := Int.not_lt.mp hneg
        rw [if_neg fun hset => hneg hset.2, faithful_zero herrno]
        exact iff_of_true hnonneg fun _ => .inl hnonneg
    · exact iff_of_true ((attribBody_reports hname hbodyAlong hbody o ho).faithful herrno)
        fun hn => absurd hn hname
  all_goals
    rw [ht] at hreq
    cases hreq

/-- A bind to a port in use. -/
theorem errno_faithful_iff_bind :
    Faithful (-98) { ret := -1, errno := 48 } := by
  have hone : Script.Along nativeAnswer
      (handler 1 { type := .socketBind } (some 0) {}) [{ ret := -1, errno := 48 }] :=
    Iff.mpr (Script.along_cons rfl fun _ => rfl)
      ⟨⟨fun _ => ⟨rfl, by decide⟩, fun _ => by decide⟩, Script.along_nil _ _⟩
  exact (errno_faithful_iff 1 { type := .socketBind } (some 0) {} _ _ _ rfl hone rfl).mpr
    (fun _ _ => trivial) _ rfl

/-- `getsockname` fails with the native errno 22, and -1 is reported, which is `MW_EPERM`. -/
theorem errno_lost :
    ∃ req os r rest, usesWorker req.type = true ∧
      Script.Along nativeAnswer (handler 1 req (some 0) {}) os ∧
      handler 1 req (some 0) {} os = .ok (r, rest) ∧ r.response.status = -1 ∧
      decidingOutcome req.type (Script.trace (handler 1 req (some 0) {}) os) =
        some { ret := -1, errno := 22 } ∧
      ¬ Faithful r.response.status { ret := -1, errno := 22 } := by
  refine ⟨{ type := .socketGetName }, [{ ret := -1, errno := 22 }], _, [], rfl, ?_, rfl, rfl, rfl, ?_⟩
  · exact Iff.mpr (Script.along_cons rfl fun _ => rfl)
      ⟨⟨fun _ => ⟨rfl, by decide⟩, fun _ => by decide⟩, Script.along_nil _ _⟩
  · intro hfaithful
    have hstatus := hfaithful.1 (by decide)
    exact absurd hstatus (by decide)

end MagicWand.Ins
