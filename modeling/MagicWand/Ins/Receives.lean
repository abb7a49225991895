import MagicWand.Ins.Answers
import MagicWand.Layout

/-!
# What a receive request stores and reports

`requested` is a 16-bit field that the other machine fills in. It is handed to the
native call as it is, so the call may store that many bytes behind the header of the
response, and count and size of the response follow from what the call returns.

The peer's close is inferred: a call that returns nothing is followed by a `poll`, and
a second call that returns nothing although `poll` reported something to read is taken
for the end of the stream.
-/

namespace MagicWand.Ins

open Foundation

/-! ## Rounds of the loop -/

/-- The call was interrupted, so it is made once more. -/
def Outcome.interrupted (o : Outcome) : Bool := decide (o.ret < 0) && decide (o.errno = eintr)

/-- What the loop does with a call that was not interrupted. -/
def recvNext (call : NativeCall) (polled : Bool) (events : BitVec 32) (o : Outcome) :
    Native RecvEnd :=
  if o.ret < 0 then pure (.failed o.errno)
  else if 0 < o.ret % 2 ^ 16 then pure (.data o)
  else if events &&& (pollIn ||| pollRdnorm) ≠ 0 then pure (.remoteClosed o)
  else if polled then pure (.nothing o)
  else recvLoop call .poll

section Rounds

variable {call : NativeCall} {polled : Bool} {events : BitVec 32}

theorem interrupted_iff {o : Outcome} :
    o.interrupted = true ↔ o.ret < 0 ∧ o.errno = eintr := by
  simp [Outcome.interrupted]

theorem recvLoop_interrupted {o : Outcome} (h : o.interrupted = true) (os : List Outcome) :
    recvLoop call (.recv polled events) (o :: os) = recvLoop call (.recv polled events) os := by
  rw [recvLoop, if_pos (interrupted_iff.mp h)]

theorem recvLoop_answered {o : Outcome} (h : o.interrupted = false) (os : List Outcome) :
    recvLoop call (.recv polled events) (o :: os) = recvNext call polled events o os := by
  have hnot : ¬ (o.ret < 0 ∧ o.errno = eintr) := by
    rw [← interrupted_iff, h]
    exact Bool.false_ne_true
  rw [recvLoop, if_neg hnot, recvNext]
  split
  · rfl
  · split
    · rfl
    · split
      · rfl
      · split
        · rfl
        · rfl

/-- A call that was not interrupted ends the loop, or it is the first that returned
nothing. -/
theorem recvNext_cases (call : NativeCall) (polled : Bool) (events : BitVec 32) (o : Outcome) :
    (∃ e, recvNext call polled events o = pure e ∧
      (o.ret < 0 ∧ e = .failed o.errno ∨ 0 ≤ o.ret ∧ 0 < o.ret % 2 ^ 16 ∧ e = .data o ∨
        0 ≤ o.ret ∧ o.ret % 2 ^ 16 = 0 ∧
          (events &&& (pollIn ||| pollRdnorm) ≠ 0 ∧ e = .remoteClosed o ∨
            events &&& (pollIn ||| pollRdnorm) = 0 ∧ polled = true ∧ e = .nothing o))) ∨
    (0 ≤ o.ret ∧ o.ret % 2 ^ 16 = 0 ∧ events &&& (pollIn ||| pollRdnorm) = 0 ∧ polled = false ∧
      recvNext call polled events o = recvLoop call .poll) := by
  rw [recvNext]
  by_cases hneg : o.ret < 0
  · rw [if_pos hneg]
    exact .inl ⟨_, rfl, .inl ⟨hneg, rfl⟩⟩
  rw [if_neg hneg]
  by_cases hdata : 0 < o.ret % 2 ^ 16
  · rw [if_pos hdata]
    exact .inl ⟨_, rfl, .inr (.inl ⟨Int.not_lt.mp hneg, hdata, rfl⟩)⟩
  have hzero : o.ret % 2 ^ 16 = 0 := by omega
  rw [if_neg hdata]
  by_cases hevents : events &&& (pollIn ||| pollRdnorm) = 0
  · rw [if_neg (not_not_intro hevents)]
    rcases polled with _ | _
    · exact .inr ⟨Int.not_lt.mp hneg, hzero, hevents, rfl, rfl⟩
    · exact .inl ⟨_, rfl, .inr (.inr ⟨Int.not_lt.mp hneg, hzero, .inr ⟨hevents, rfl, rfl⟩⟩)⟩
  · rw [if_pos hevents]
    exact .inl ⟨_, rfl, .inr (.inr ⟨Int.not_lt.mp hneg, hzero, .inl ⟨hevents, rfl⟩⟩)⟩

/-- What the loop does with the answer of the `poll`. -/
def pollNext (call : NativeCall) (p : Outcome) : Native RecvEnd :=
  if (pollOneResult p).1 ≠ 0 then pure (.internal (pollOneResult p).1)
  else recvLoop call (.recv true (pollOneResult p).2)

theorem recvLoop_polled (p : Outcome) (os : List Outcome) :
    recvLoop call .poll (p :: os) = pollNext call p os := by
  rw [recvLoop, pollNext]
  split <;> rfl

/-- A receive is repeated until it is not interrupted. -/
theorem recvLoop_round (call : NativeCall) (polled : Bool) (events : BitVec 32)
    (os : List Outcome) :
    (recvLoop call (.recv polled events) os = .error call ∧
      Script.trace (recvLoop call (.recv polled events)) os = os.map (call, ·) ∧
      ∀ o ∈ os, o.interrupted = true) ∨
    ∃ before o after, os = before ++ o :: after ∧ (∀ o ∈ before, o.interrupted = true) ∧
      o.interrupted = false ∧
      recvLoop call (.recv polled events) os = recvNext call polled events o after ∧
      Script.trace (recvLoop call (.recv polled events)) os =
        before.map (call, ·) ++
          (call, o) :: Script.trace (recvNext call polled events o) after := by
  have hblocked : recvLoop call (.recv polled events) [] = .error call := rfl
  induction os with
  | nil => exact .inl ⟨rfl, rfl, nofun⟩
  | cons o os ih =>
      by_cases hint : o.interrupted = true
      · have hnext : ∀ os, recvLoop call (.recv polled events) (o :: os) =
            recvLoop call (.recv polled events) os := recvLoop_interrupted hint
        have htrace : Script.trace (recvLoop call (.recv polled events)) (o :: os) =
            (call, o) :: Script.trace (recvLoop call (.recv polled events)) os :=
          Script.trace_cons hblocked hnext
        rcases ih with ⟨herror, hcalls, hall⟩ | ⟨before, o', after, rfl, hall, hdone, hrun, hcalls⟩
        · left
          refine ⟨(recvLoop_interrupted hint os).trans herror, ?_, ?_⟩
          · rw [htrace, hcalls]
            rfl
          · intro o' ho'
            rcases List.mem_cons.mp ho' with rfl | ho'
            · exact hint
            · exact hall o' ho'
        · right
          refine ⟨o :: before, o', after, rfl, ?_, hdone,
            (recvLoop_interrupted hint _).trans hrun, ?_⟩
          · intro o'' ho''
            rcases List.mem_cons.mp ho'' with rfl | ho''
            · exact hint
            · exact hall o'' ho''
          · rw [htrace, hcalls]
            rfl
      · have hdone : o.interrupted = false := Bool.eq_false_iff.mpr hint
        right
        exact ⟨[], o, os, rfl, nofun, hdone, recvLoop_answered hdone os,
          Script.trace_cons hblocked (recvLoop_answered hdone)⟩

end Rounds

/-! ## Bounds -/

/-- The bytes that a native call may store. -/
def maxStored : NativeCall → Nat
  | .recv _ len _ => len
  | .recvfrom _ len _ => len
  | _ => 0

/-- A native receive returns no more than it may store. -/
def recvAnswer : NativeCall → Outcome → Prop
  | .recv _ len _, o => o.ret ≤ len
  | .recvfrom _ len _, o => o.ret ≤ len
  | _, _ => True

/-- Nothing is stored behind the space for the payload, and the response, if one is set
up, has a count and a size that fit it. -/
structure RecvBounded (header : Nat) (m : Native HandlerResult) (os : List Outcome) : Prop where
  stored : ∀ c ∈ Script.issued m os, maxStored c ≤ messageTypeMaxPayloadLen
  count : ∀ r rest, m os = .ok (r, rest) → r.response.count ≤ messageTypeMaxPayloadLen
  size : ∀ r rest, m os = .ok (r, rest) → r.rc = 0 →
    header + r.response.count < 2 ^ 16 ∧ r.response.size = header + r.response.count ∧
      r.response.size ≤ mtResponseGenericSize

section Bounds

variable {call : NativeCall}

/-- What the end of the loop says about the calls that led to it. -/
def RecvEnd.From (call : NativeCall) (calls : List (NativeCall × Outcome)) : RecvEnd → Prop
  | .data o => (call, o) ∈ calls ∧ 0 ≤ o.ret
  | .internal rc => rc ≠ 0
  | _ => True

theorem RecvEnd.From.cons {calls : List (NativeCall × Outcome)} {e : RecvEnd}
    (h : e.From call calls) (p : NativeCall × Outcome) : e.From call (p :: calls) := by
  cases e with
  | data o => exact h.imp_left (List.mem_cons_of_mem p)
  | _ => exact h

/-- The loop makes no other calls than its own and the `poll`. -/
theorem recvLoop_calls (call : NativeCall) (phase : RecvPhase) (os : List Outcome) :
    (∀ c ∈ Script.issued (recvLoop call phase) os, c = call ∨ c = pollOneCall) ∧
      ∀ e rest, recvLoop call phase os = .ok (e, rest) →
        e.From call (Script.trace (recvLoop call phase) os) := by
  have hreturned (e : RecvEnd) (os : List Outcome) :
      Script.issued (pure e : Native RecvEnd) os = [] := Script.issued_of_ok rfl os
  induction os generalizing phase with
  | nil =>
      rcases phase with ⟨polled, events⟩ | _
      · rw [Script.issued_nil (c := call) rfl]
        exact ⟨fun c hc => .inl (List.mem_singleton.mp hc), nofun⟩
      · rw [Script.issued_nil (c := pollOneCall) rfl]
        exact ⟨fun c hc => .inr (List.mem_singleton.mp hc), nofun⟩
  | cons o os ih =>
      rcases phase with ⟨polled, events⟩ | _
      · have hblocked : recvLoop call (.recv polled events) [] = .error call := rfl
        by_cases hint : o.interrupted = true
        · obtain ⟨hissued, hend⟩ := ih (.recv polled events)
          rw [Script.issued_cons hblocked (recvLoop_interrupted hint),
            Script.trace_cons hblocked (recvLoop_interrupted hint), recvLoop_interrupted hint]
          exact ⟨List.forall_mem_cons.mpr ⟨.inl rfl, hissued⟩,
            fun e rest hrun => (hend e rest hrun).cons _⟩
        · have hdone : o.interrupted = false := Bool.eq_false_iff.mpr hint
          rw [Script.issued_cons hblocked (recvLoop_answered hdone),
            Script.trace_cons hblocked (recvLoop_answered hdone), recvLoop_answered hdone]
          rcases recvNext_cases call polled events o with ⟨e, hnext, hhow⟩ | ⟨-, -, -, -, hnext⟩
          · rw [hnext, hreturned]
            refine ⟨List.forall_mem_cons.mpr ⟨.inl rfl, nofun⟩, ?_⟩
            intro e' rest hrun
            cases Script.pure_ok hrun
            rcases hhow with ⟨-, rfl⟩ | ⟨hret, -, rfl⟩ | ⟨-, -, ⟨-, rfl⟩ | ⟨-, -, rfl⟩⟩
            · trivial
            · exact ⟨List.mem_cons_self, hret⟩
            · trivial
            · trivial
          · obtain ⟨hissued, hend⟩ := ih .poll
            rw [hnext]
            exact ⟨List.forall_mem_cons.mpr ⟨.inl rfl, hissued⟩,
              fun e rest hrun => (hend e rest hrun).cons _⟩
      · have hblocked : recvLoop call .poll [] = .error pollOneCall := rfl
        rw [Script.issued_cons hblocked (recvLoop_polled o),
          Script.trace_cons hblocked (recvLoop_polled o), recvLoop_polled, pollNext]
        by_cases hfail : (pollOneResult o).1 ≠ 0
        · rw [if_pos hfail, hreturned]
          refine ⟨List.forall_mem_cons.mpr ⟨.inr rfl, nofun⟩, ?_⟩
          intro e' rest hrun
          cases Script.pure_ok hrun
          exact hfail
        · obtain ⟨hissued, hend⟩ := ih (.recv true (pollOneResult o).2)
          rw [if_neg hfail]
          exact ⟨List.forall_mem_cons.mpr ⟨.inr rfl, hissued⟩,
            fun e rest hrun => (hend e rest hrun).cons _⟩

/-- A receive of `len` bytes stays in its bounds if and only if the payload has space for
`len` bytes. -/
theorem recvBounded_iff {req : MtRequest} {slot header len : Nat}
    (hlen : maxStored call = len) (hanswer : ∀ o, recvAnswer call o ↔ o.ret ≤ len)
    (hheader : header + messageTypeMaxPayloadLen ≤ mtResponseGenericSize) (os : List Outcome)
    (h : Script.Along recvAnswer (recvLoop call (.recv false 0)) os) :
    RecvBounded header
        (recvLoop call (.recv false 0) >>= fun e => pure (recvResult req slot header e)) os ↔
      len ≤ messageTypeMaxPayloadLen := by
  constructor
  · intro hbounded
    have hfirst : recvLoop call (.recv false 0) [] = .error call := rfl
    rw [← hlen]
    apply hbounded.stored
    rw [Script.issued_bind_pure]
    exact Script.mem_issued hfirst os
  · intro hle
    obtain ⟨hissued, hend⟩ := recvLoop_calls call (.recv false 0) os
    have hslot : mtResponseGenericSize < 2 ^ 16 := by decide
    have hcount : ∀ e rest, recvLoop call (.recv false 0) os = .ok (e, rest) →
        (recvResponse e).count ≤ messageTypeMaxPayloadLen := by
      intro e rest hrun
      rcases e with errno | o | o | o | rc
      · exact Nat.zero_le _
      · obtain ⟨hmem, hnonneg⟩ := hend _ rest hrun
        have hret := (hanswer o).mp (h.mem_trace hmem)
        have htoNat : (o.ret % 2 ^ 16).toNat ≤ len := by omega
        exact htoNat.trans hle
      · exact Nat.zero_le _
      · exact Nat.zero_le _
      · exact Nat.zero_le _
    refine ⟨?_, ?_, ?_⟩
    · intro c hc
      rw [Script.issued_bind_pure] at hc
      rcases hissued c hc with rfl | rfl
      · rw [hlen]
        exact hle
      · exact Nat.zero_le _
    · intro r rest hrun
      obtain ⟨e, mid, hloop, hret⟩ := Script.bind_ok hrun
      cases Script.pure_ok hret
      have hsmall := hcount e mid hloop
      cases e <;> exact hsmall
    · intro r rest hrun hrc
      obtain ⟨e, mid, hloop, hret⟩ := Script.bind_ok hrun
      cases Script.pure_ok hret
      have hsmall := hcount e mid hloop
      have hfits : header + (recvResponse e).count ≤ mtResponseGenericSize := by omega
      have hsize : (header + (recvResponse e).count) % 2 ^ 16 = header + (recvResponse e).count :=
        Nat.mod_eq_of_lt (hfits.trans_lt hslot)
      have hbounds : header + (recvResponse e).count < 2 ^ 16 ∧
          (header + (recvResponse e).count) % 2 ^ 16 = header + (recvResponse e).count ∧
          (header + (recvResponse e).count) % 2 ^ 16 ≤ mtResponseGenericSize :=
        ⟨hfits.trans_lt hslot, hsize, hsize.trans_le hfits⟩
      cases e with
      | internal rc => exact absurd hrc (hend _ mid hloop)
      | _ => exact hbounds

end Bounds

/-- A receive request that a worker handles stays in its bounds if and only if the other
machine asks for no more bytes than a payload may have. -/
theorem receive_bounded_iff (clientId : BitVec 16) (req : MtRequest) (slot : Nat) (g : Globals)
    (os : List Outcome) (ht : req.type = .socketRecv ∨ req.type = .socketRecvFrom)
    (h : Script.Along recvAnswer (handler clientId req (some slot) g) os) :
    RecvBounded
        (if req.type = .socketRecv then mtResponseSocketRecvSize else mtResponseSocketRecvfromSize)
        (handler clientId req (some slot) g) os ↔
      req.requested ≤ messageTypeMaxPayloadLen := by
  rcases ht with ht | ht
  · have hhandler : handler clientId req (some slot) g = xeNetRecvSocket req slot := by
      rw [handler, ht]
      rfl
    rw [hhandler, xeNetRecvSocket, Script.along_bind_pure] at h
    rw [hhandler, if_pos ht, xeNetRecvSocket]
    exact recvBounded_iff rfl (fun _ => Iff.rfl) (by decide) os h
  · have hhandler : handler clientId req (some slot) g = xeNetRecvfromSocket req slot := by
      rw [handler, ht]
      rfl
    have hne : req.type ≠ .socketRecv := by
      rw [ht]
      decide
    rw [hhandler, xeNetRecvfromSocket, Script.along_bind_pure] at h
    rw [hhandler, if_neg hne, xeNetRecvfromSocket]
    exact recvBounded_iff rfl (fun _ => Iff.rfl) (by decide) os h

/-- A recv request of the size that it should have. -/
def receiveOf (requested : Nat) : MtRequest where
  sig := mtSignatureRequest
  type := .socketRecv
  size := mtRequestSocketRecvSize
  requested := requested

theorem recvAnswer_once (requested : Nat) {o : Outcome} (hret : o.ret ≤ requested) :
    Script.Along recvAnswer (handler 1 (receiveOf requested) (some 0) {}) [o] := by
  have hone : recvLoop (.recv .worker requested (xeNetTranslateMsgFlags 0)) (.recv false 0) [] =
      .error (.recv .worker requested (xeNetTranslateMsgFlags 0)) := rfl
  show Script.Along recvAnswer (xeNetRecvSocket (receiveOf requested) 0) [o]
  rw [xeNetRecvSocket, Script.along_bind_pure]
  exact Iff.mpr (Script.along_cons hone fun _ => rfl) ⟨hret, Script.along_nil _ _⟩

/-- The largest request that fits. -/
theorem receive_bounded_iff_full :
    RecvBounded mtResponseSocketRecvSize
      (handler 1 (receiveOf 1985) (some 0) {}) [{ ret := 1985 }] :=
  (receive_bounded_iff 1 (receiveOf 1985) 0 {} [{ ret := 1985 }] (.inl rfl)
    (recvAnswer_once 1985 (by decide))).mpr (by decide)

/-- The largest request of all: 65535 bytes are stored into a response whose size is then
given as 41. -/
theorem receive_overruns :
    (receiveOf 65535).isRequest = true ∧
      Script.Along recvAnswer (handler 1 (receiveOf 65535) (some 0) {}) [{ ret := 65535 }] ∧
      (∃ r, handler 1 (receiveOf 65535) (some 0) {} [{ ret := 65535 }] = .ok (r, []) ∧
        r.response.count = 65535 ∧ r.response.size = 41) ∧
      ¬ RecvBounded mtResponseSocketRecvSize
        (handler 1 (receiveOf 65535) (some 0) {}) [{ ret := 65535 }] := by
  refine ⟨by decide, recvAnswer_once 65535 (by decide), ⟨_, rfl, rfl, rfl⟩, ?_⟩
  intro hbounded
  have hcount := hbounded.count _ [] rfl
  exact absurd hcount (by decide)

end MagicWand.Ins
