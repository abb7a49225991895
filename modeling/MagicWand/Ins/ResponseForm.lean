import MagicWand.Ins.Responses
import MagicWand.Layout
import MagicWand.Ring

/-!
# The form of the responses

Each handler fills in the header of its response at its end, and its exits for
internal errors skip that. The response to a request is well formed exactly when
no native call fails on which a handler gives up, and the data a receive gets
fits the slot of the ring. One response that is not takes the consumer of the
driver down.
-/

namespace MagicWand.Ins

open Foundation

/-! ## Well-formed responses -/

/-- `MT_RESPONSE` of a request type; unknown types get `MtResponseInvalid`. -/
def mtResponse : MtRequestType → MtResponseType
  | .unknown _ => .of .invalid
  | t => .of t

/-- The response is one, is that to `req`, and has a size that fits a slot. -/
structure WellFormed (req : MtRequest) (resp : MtResponse) : Prop where
  isResponse : resp.isResponse = true
  id : resp.id = req.id
  type : resp.type = mtResponse req.type
  size : resp.size ≤ mtResponseGenericSize

/-- A message of this size, stored in 16 bits, is a response that fits a slot. -/
def fits (size : Nat) : Prop :=
  mtResponseBaseSize ≤ size % 2 ^ 16 ∧ size % 2 ^ 16 ≤ mtResponseGenericSize

instance (size : Nat) : Decidable (fits size) := inferInstanceAs (Decidable (_ ∧ _))

/-- The outcomes of native calls that a handler for type `t` can report. -/
def reportable (t : MtRequestType) (c : NativeCall) (o : Outcome) : Prop :=
  match t, c with
  | .socketRecv, .pollOne _ _ => 0 ≤ o.ret
  | .socketRecv, .recv _ _ _ => 0 ≤ o.ret → fits (mtResponseSocketRecvSize + (o.ret % 2 ^ 16).toNat)
  | .socketRecvFrom, .pollOne _ _ => 0 ≤ o.ret
  | .socketRecvFrom, .recvfrom _ _ _ =>
      0 ≤ o.ret → fits (mtResponseSocketRecvfromSize + (o.ret % 2 ^ 16).toNat)
  | .socketAccept, .fcntlGet _ => o.ret ≠ -1
  | .socketAccept, .fcntlSet _ _ => o.ret = 0
  | .pollsetQuery, _ => 0 ≤ o.ret
  | _, _ => True

instance (t : MtRequestType) (c : NativeCall) (o : Outcome) : Decidable (reportable t c o) := by
  delta reportable
  rcases t <;> first | infer_instance | (rcases c <;> infer_instance)

section Handlers

variable {req : MtRequest} {r : HandlerResult} {os rest : List Outcome}

theorem isResponse_iff (resp : MtResponse) : resp.isResponse = true ↔
    resp.sig = mtSignatureResponse ∧ resp.type ≠ .unset ∧ mtResponseBaseSize ≤ resp.size := by
  rw [MtResponse.isResponse, Bool.and_eq_true, Bool.and_eq_true, beq_iff_eq, bne_iff_ne,
    decide_eq_true_iff, and_assoc]

theorem wellFormed_setBase {n : Nat} {resp : MtResponse} (ht : mtResponse req.type = .of req.type) :
    WellFormed req (xeNetSetBaseResponse req n resp) ↔ fits n := by
  constructor
  · intro h
    exact ⟨((isResponse_iff _).mp h.isResponse).2.2, h.size⟩
  · intro h
    refine ⟨(isResponse_iff _).mpr ⟨rfl, ?_, h.1⟩, rfl, ht.symm, h.2⟩
    simp only [xeNetSetBaseResponse, ne_eq, reduceCtorEq, not_false_iff]

theorem Blank.not_wellFormed {resp : MtResponse} (h : Blank resp) : ¬ WellFormed req resp := by
  intro hw
  exact h ((isResponse_iff _).mp hw.isResponse).1

theorem wellFormed_internalError (ht : mtResponse req.type = .of .invalid) :
    WellFormed req { Globals.setResponseToInternalError req with type := .of .invalid } := by
  refine ⟨(isResponse_iff _).mpr ⟨rfl, by simp, le_refl _⟩, rfl, ht.symm, ?_⟩
  show mtResponseBaseSize ≤ mtResponseGenericSize
  decide

/-! ## Receive -/

/-- What the loop of a receive ends with can be reported. -/
def RecvEnd.Reportable (header : Nat) : RecvEnd → Prop
  | .internal _ => False
  | .data o => fits (header + (o.ret % 2 ^ 16).toNat)
  | _ => True

/-- The loop ends with something to report exactly when every outcome it
received was reportable. The induction follows the outcomes, each of which
either ends the loop or takes it to its next phase. -/
theorem recvLoop_reportable {call : NativeCall} {header : Nat} {good : NativeCall → Outcome → Prop}
    (hpoll : ∀ o, good pollOneCall o ↔ 0 ≤ o.ret)
    (hcall : ∀ o, good call o ↔ (0 ≤ o.ret → fits (header + (o.ret % 2 ^ 16).toNat)))
    (hheader : fits header) {e : RecvEnd} :
    ∀ (os : List Outcome) (phase : RecvPhase), recvLoop call phase os = .ok (e, rest) →
      (e.Reportable header ↔ Script.Along good (recvLoop call phase) os) := by
  intro os
  induction os with
  | nil =>
      intro phase h
      cases phase <;> cases h
  | cons o os ih =>
      intro phase h
      cases phase with
      | poll =>
          by_cases hneg : o.ret < 0
          · have hfail : (pollOneResult o).1 ≠ 0 := by
              rw [pollOneResult, if_pos hneg]
              exact xeGetNegErrnoVal_ne_zero _
            rw [recvLoop, if_pos hfail] at h
            cases h
            refine iff_of_false id fun halong => ?_
            have := (hpoll o).mp (halong [] o _ _ rfl rfl)
            omega
          · have hok : ¬ (pollOneResult o).1 ≠ 0 := by
              rw [pollOneResult, if_neg hneg]
              split <;> simp
            have hnext : ∀ os', recvLoop call .poll (o :: os') =
                recvLoop call (.recv true (pollOneResult o).2) os' := fun os' => by
              rw [recvLoop, if_neg hok]
            have hnil : recvLoop call .poll [] = .error pollOneCall := rfl
            rw [hnext] at h
            rw [Script.along_cons hnil hnext, ih _ h]
            exact ⟨fun hrest => ⟨(hpoll o).mpr (by omega), hrest⟩, And.right⟩
      | recv polled events =>
          have hnil : recvLoop call (.recv polled events) [] = .error call := rfl
          -- A round that ends the loop leaves only its own outcome to look at.
          have ends : ∀ e', (∀ os', recvLoop call (.recv polled events) (o :: os') = .ok (e', os')) →
              (e'.Reportable header ↔ good call o) → (e.Reportable header ↔
                Script.Along good (recvLoop call (.recv polled events)) (o :: os)) := by
            intro e' hround hgood
            rw [hround] at h
            cases h
            rw [Script.along_cons hnil hround, hgood]
            exact ⟨fun hg => ⟨hg, fun _ _ _ _ _ hp => by cases hp⟩, And.left⟩
          -- A round that goes on has an outcome that is reportable.
          have later : ∀ phase', (∀ os', recvLoop call (.recv polled events) (o :: os') =
              recvLoop call phase' os') → good call o → (e.Reportable header ↔
                Script.Along good (recvLoop call (.recv polled events)) (o :: os)) := by
            intro phase' hround hgood
            rw [hround] at h
            rw [Script.along_cons hnil hround, ih _ h]
            exact ⟨fun hrest => ⟨hgood, hrest⟩, And.right⟩
          by_cases hintr : o.ret < 0 ∧ o.errno = eintr
          · refine later _ (fun os' => by rw [recvLoop, if_pos hintr]) ((hcall o).mpr fun _ => ?_)
            omega
          by_cases hneg : o.ret < 0
          · refine ends (.failed o.errno)
              (fun os' => by rw [recvLoop, if_neg hintr, if_pos hneg]) ?_
            rw [hcall]
            exact iff_of_true trivial fun _ => by omega
          have hnonneg : 0 ≤ o.ret := by omega
          by_cases hdata : 0 < o.ret % 2 ^ 16
          · refine ends (.data o)
              (fun os' => by rw [recvLoop, if_neg hintr, if_neg hneg, if_pos hdata]) ?_
            rw [hcall]
            exact ⟨fun hf _ => hf, fun hf => hf hnonneg⟩
          have hgood : good call o := by
            have hzero : (o.ret % 2 ^ 16).toNat = 0 := by omega
            rw [hcall, hzero]
            exact fun _ => hheader
          by_cases hev : events &&& (pollIn ||| pollRdnorm) ≠ 0
          · exact ends (.remoteClosed o) (fun os' => by
              rw [recvLoop, if_neg hintr, if_neg hneg, if_neg hdata, if_pos hev])
              (iff_of_true trivial hgood)
          by_cases hpolled : polled = true
          · exact ends (.nothing o) (fun os' => by
              rw [recvLoop, if_neg hintr, if_neg hneg, if_neg hdata, if_neg hev, if_pos hpolled])
              (iff_of_true trivial hgood)
          · exact later .poll (fun os' => by
              rw [recvLoop, if_neg hintr, if_neg hneg, if_neg hdata, if_neg hev, if_neg hpolled])
              hgood

theorem recvResult_wellFormed {slot header : Nat} (ht : mtResponse req.type = .of req.type)
    (hheader : fits header) (e : RecvEnd) :
    WellFormed req (recvResult req slot header e).response ↔ e.Reportable header := by
  cases e with
  | internal rc => exact iff_of_false blank_empty.not_wellFormed id
  | failed errno => exact (wellFormed_setBase ht).trans (iff_of_true hheader trivial)
  | data o => exact wellFormed_setBase ht
  | remoteClosed o => exact (wellFormed_setBase ht).trans (iff_of_true hheader trivial)
  | nothing o => exact (wellFormed_setBase ht).trans (iff_of_true hheader trivial)

theorem recv_wellFormed {slot : Nat} (ht : req.type = .socketRecv)
    (h : xeNetRecvSocket req slot os = .ok (r, rest)) :
    WellFormed req r.response ↔
      Script.Along (reportable req.type) (xeNetRecvSocket req slot) os := by
  obtain ⟨e, mid, hloop, h⟩ := Script.bind_ok h
  cases Script.pure_ok h
  have hheader : fits mtResponseSocketRecvSize := by decide
  rw [recvResult_wellFormed (by rw [ht]; rfl) hheader, xeNetRecvSocket, Script.along_bind_pure]
  refine recvLoop_reportable (fun o => ?_) (fun o => ?_) hheader os _ hloop
  · simp only [reportable, ht, pollOneCall]
  · simp only [reportable, ht]

theorem recvfrom_wellFormed {slot : Nat} (ht : req.type = .socketRecvFrom)
    (h : xeNetRecvfromSocket req slot os = .ok (r, rest)) :
    WellFormed req r.response ↔
      Script.Along (reportable req.type) (xeNetRecvfromSocket req slot) os := by
  obtain ⟨e, mid, hloop, h⟩ := Script.bind_ok h
  cases Script.pure_ok h
  have hheader : fits mtResponseSocketRecvfromSize := by decide
  rw [recvResult_wellFormed (by rw [ht]; rfl) hheader, xeNetRecvfromSocket, Script.along_bind_pure]
  refine recvLoop_reportable (fun o => ?_) (fun o => ?_) hheader os _ hloop
  · simp only [reportable, ht, pollOneCall]
  · simp only [reportable, ht]

/-! ## Accept -/

theorem acceptInit_wellFormed {o : Outcome} (ht : req.type = .socketAccept)
    (h : acceptInit req o os = .ok (r, rest)) : WellFormed req r.response := by
  simp only [acceptInit, xeNetInitSocket_eq] at h
  cases Script.pure_ok h
  exact (wellFormed_setBase (by rw [ht]; rfl)).mpr (by decide)

theorem along_acceptInit {good : NativeCall → Outcome → Prop} {o : Outcome} :
    Script.Along good (acceptInit req o) os := by
  apply Script.along_of_ok
  intro pre
  simp only [acceptInit, xeNetInitSocket_eq]
  exact ⟨_, _, rfl⟩

/-- The accept gives up: it closes the new socket and sets up no response. -/
def acceptGiveUp (req : MtRequest) (fd rc err : Int) : Native HandlerResult := do
  let _ ← native (.close (.fd fd))
  pure
    { rc := rc
      response :=
        { opFlags := req.opFlags
          status := xeGetNegErrnoVal err
          sockfd := mtInvalidSocketFd } }

theorem acceptGiveUp_not_wellFormed {fd rc err : Int}
    (h : acceptGiveUp req fd rc err os = .ok (r, rest)) : ¬ WellFormed req r.response := by
  obtain ⟨_, _, -, h⟩ := Script.ask_bind_ok h
  cases Script.pure_ok h
  exact Blank.not_wellFormed (by simp [Blank, mtSignatureResponse])

/-- The accept after its second `fcntl`. -/
def acceptSwitched (req : MtRequest) (o set : Outcome) : Native HandlerResult :=
  if set.ret = -1 then acceptGiveUp req o.ret (-5) set.errno
  else if set.ret ≠ 0 then acceptGiveUp req o.ret set.ret 0
  else acceptInit req o

/-- The accept when it switches the new socket to non-blocking mode. -/
def acceptSwitch (req : MtRequest) (o : Outcome) : Native HandlerResult := do
  let (rc, err) ← xeNetSetSockNonblock o.ret
  if rc ≠ 0 then acceptGiveUp req o.ret rc err else acceptInit req o

theorem acceptSwitch_failed {o get : Outcome} (hget : get.ret = -1) (os : List Outcome) :
    acceptSwitch req o (get :: os) = acceptGiveUp req o.ret (-5) get.errno os := by
  simp only [acceptSwitch, xeNetSetSockNonblock, Script.bind_run, native, Script.ask]
  rw [if_pos hget]
  rfl

theorem acceptSwitch_blocked {o get : Outcome} (hget : get.ret ≠ -1) :
    acceptSwitch req o [get] =
      .error (.fcntlSet (.fd o.ret) (BitVec.ofInt 32 get.ret ||| 4)) := by
  simp only [acceptSwitch, xeNetSetSockNonblock, Script.bind_run, native, Script.ask]
  rw [if_neg hget]
  rfl

theorem acceptSwitch_set {o get : Outcome} (hget : get.ret ≠ -1) (set : Outcome)
    (os : List Outcome) :
    acceptSwitch req o (get :: set :: os) = acceptSwitched req o set os := by
  simp only [acceptSwitch, xeNetSetSockNonblock, Script.bind_run, native, Script.ask,
    acceptSwitched]
  rw [if_neg hget]
  by_cases hset : set.ret = -1
  · simp only [Script.bind_run, Script.ask, hset, if_true]
    rfl
  · simp only [Script.bind_run, Script.ask, hset, if_false]
    rfl

theorem acceptSwitched_wellFormed {o set : Outcome} (ht : req.type = .socketAccept)
    (h : acceptSwitched req o set os = .ok (r, rest)) :
    WellFormed req r.response ↔ set.ret = 0 := by
  unfold acceptSwitched at h
  split at h
  · exact iff_of_false (acceptGiveUp_not_wellFormed h) (by omega)
  split at h
  · next hset => exact iff_of_false (acceptGiveUp_not_wellFormed h) hset
  · next hset => exact iff_of_true (acceptInit_wellFormed ht h) (not_not.mp hset)

theorem acceptSwitch_wellFormed {o : Outcome} (ht : req.type = .socketAccept)
    (h : acceptSwitch req o os = .ok (r, rest)) :
    WellFormed req r.response ↔ Script.Along (reportable .socketAccept) (acceptSwitch req o) os := by
  have hnil : acceptSwitch req o [] = .error (.fcntlGet (.fd o.ret)) := rfl
  cases os with
  | nil =>
      rw [hnil] at h
      cases h
  | cons get os =>
      have hnext : ∀ os, acceptSwitch req o (get :: os) =
          (fun os => acceptSwitch req o (get :: os)) os := fun _ => rfl
      rw [Script.along_cons hnil hnext]
      by_cases hget : get.ret = -1
      · rw [acceptSwitch_failed hget] at h
        exact iff_of_false (acceptGiveUp_not_wellFormed h) fun hc => hc.1 hget
      have hblocked := @acceptSwitch_blocked req o _ hget
      cases os with
      | nil =>
          rw [hblocked] at h
          cases h
      | cons set os =>
          rw [acceptSwitch_set hget] at h
          rw [Script.along_cons hblocked (acceptSwitch_set hget set),
            acceptSwitched_wellFormed ht h]
          constructor
          · intro hset
            have hsame : acceptSwitched req o set = acceptInit req o := by
              rw [acceptSwitched, if_neg (by omega), if_neg (not_not.mpr hset)]
            rw [hsame]
            exact ⟨hget, hset, along_acceptInit⟩
          · exact fun hc => hc.2.1

theorem accept_wellFormed (ht : req.type = .socketAccept)
    (h : xeNetAcceptSocket req os = .ok (r, rest)) :
    WellFormed req r.response ↔
      Script.Along (reportable req.type) (xeNetAcceptSocket req) os := by
  have hnil : xeNetAcceptSocket req [] = .error (.accept .worker) := rfl
  rw [ht]
  cases os with
  | nil =>
      rw [hnil] at h
      cases h
  | cons o os =>
      have step : ∀ m' : Native HandlerResult, (∀ os, xeNetAcceptSocket req (o :: os) = m' os) →
          (Script.Along (reportable .socketAccept) (xeNetAcceptSocket req) (o :: os) ↔
            Script.Along (reportable .socketAccept) m' os) := by
        intro m' hnext
        rw [Script.along_cons hnil hnext]
        exact ⟨And.right, fun hrest => ⟨trivial, hrest⟩⟩
      by_cases hneg : o.ret < 0
      · have hnext : ∀ os, xeNetAcceptSocket req (o :: os) = (pure
            { response := xeNetSetBaseResponse req mtResponseSocketAcceptSize
                { opFlags := req.opFlags, status := xeGetNegErrnoVal o.errno } } :
              Native HandlerResult) os := fun os => by
          show (if o.ret < 0 then _ else _ : Native HandlerResult) os = _
          rw [if_pos hneg]
        rw [step _ hnext]
        rw [hnext] at h
        cases Script.pure_ok h
        exact iff_of_true ((wellFormed_setBase (by rw [ht]; rfl)).mpr (by decide))
          (Script.along_of_ok fun pre => ⟨_, _, rfl⟩)
      by_cases hnb : req.opFlags.has mwSockNonblock = true
      · have hnext : ∀ os, xeNetAcceptSocket req (o :: os) = acceptSwitch req o os := fun os => by
          show (if o.ret < 0 then _ else _ : Native HandlerResult) os = _
          rw [if_neg hneg, if_pos hnb]
          rfl
        rw [step _ hnext]
        rw [hnext] at h
        exact acceptSwitch_wellFormed ht h
      · have hnext : ∀ os, xeNetAcceptSocket req (o :: os) = acceptInit req o os := fun os => by
          show (if o.ret < 0 then _ else _ : Native HandlerResult) os = _
          rw [if_neg hneg, if_neg hnb]
        rw [step _ hnext]
        rw [hnext] at h
        exact iff_of_true (acceptInit_wellFormed ht h) along_acceptInit

/-! ## The pollset query -/

theorem length_pollsetScan (revents : Nat → BitVec 32) (pollct : Int) :
    ∀ rounds curPos itemIdx, (pollsetScan revents pollct rounds curPos itemIdx).2.length ≤ rounds
  | 0, _, _ => Nat.le_refl _
  | rounds + 1, curPos, itemIdx => by
      unfold pollsetScan
      split
      · simp only []
        split
        · exact Nat.succ_le_succ (length_pollsetScan revents pollct rounds _ _)
        · exact Nat.succ_le_succ (length_pollsetScan revents pollct rounds _ _)
      · exact Nat.zero_le _

theorem pollset_wellFormed {fds : List (Option Int)} {net : NetState}
    (ht : req.type = .pollsetQuery) (h : xePollsetQuery req fds net os = .ok (r, rest)) :
    WellFormed req r.response ↔
      Script.Along (reportable req.type) (xePollsetQuery req fds net) os := by
  have hnil : xePollsetQuery req fds net [] = .error (.pollAll fds) := rfl
  rw [ht]
  obtain ⟨o, mid, hos, h⟩ := Script.ask_bind_ok h
  have hnext : ∀ os, xePollsetQuery req fds net (o :: os) =
      (fun os => xePollsetQuery req fds net (o :: os)) os := fun _ => rfl
  rw [hos, Script.along_cons hnil hnext]
  split at h
  · next hneg =>
      cases Script.pure_ok h
      refine iff_of_false blank_empty.not_wellFormed fun hc => ?_
      have : 0 ≤ o.ret := hc.1
      omega
  · next hneg =>
      cases Script.pure_ok h
      refine iff_of_true ((wellFormed_setBase (by rw [ht]; rfl)).mpr ?_) ⟨?_, ?_⟩
      · have hlen : (pollsetItems (fun i => (net.sock i).publicFd)
            (pollsetScan (fun i => o.revents.getD i 0) o.ret maxThreadCount net.pollPos 0).2).length
            ≤ 50 := by
          refine Nat.le_trans (List.length_filterMap_le _ _) ?_
          exact length_pollsetScan _ _ _ _ _
        generalize List.length _ = n at hlen ⊢
        show 40 ≤ (44 + 12 * n) % 65536 ∧ (44 + 12 * n) % 65536 ≤ 2055
        rw [Nat.mod_eq_of_lt (by omega)]
        omega
      · show 0 ≤ o.ret
        omega
      · apply Script.along_of_ok
        intro pre
        show ∃ a rest, (if o.ret < 0 then _ else _ : Native HandlerResult) pre = .ok (a, rest)
        rw [if_neg hneg]
        exact ⟨_, _, rfl⟩

end Handlers

/-! ## The switch of `process_buffer_item` -/

theorem along_trivial {good : NativeCall → Outcome → Prop} {m : Native HandlerResult}
    {os : List Outcome} (h : ∀ c o, good c o) : Script.Along good m os :=
  fun _ o _ c _ _ => h c o

theorem handler_wellFormed {clientId : BitVec 16} {req : MtRequest} {worker : Option Nat}
    {g : Globals} {os rest : List Outcome} {r : HandlerResult}
    (h : handler clientId req worker g os = .ok (r, rest)) :
    WellFormed req r.response ↔
      Script.Along (reportable req.type) (handler clientId req worker g) os := by
  unfold handler at h ⊢
  cases ht : req.type <;> simp only [ht] at h ⊢
  case socketRecv => rw [← ht]; exact recv_wellFormed ht h
  case socketRecvFrom => rw [← ht]; exact recvfrom_wellFormed ht h
  case socketAccept => rw [← ht]; exact accept_wellFormed ht h
  case pollsetQuery => rw [← ht]; exact pollset_wellFormed ht h
  all_goals refine iff_of_true ?_ (along_trivial fun c o => trivial)
  case socketCreate =>
    obtain ⟨o, mid, -, h⟩ := Script.bind_ok h
    simp only [xeNetInitSocket_eq] at h
    cases Script.pure_ok h
    have hbase := (@wellFormed_setBase req mtResponseBaseSize
      { status := if o.ret < 0 then xeGetNegErrnoVal o.errno else 0 }
      (by rw [ht]; rfl)).mpr (by decide)
    exact ⟨hbase.isResponse, hbase.id, hbase.type, hbase.size⟩
  case socketClose =>
    unfold xeNetCloseSocket at h
    split at h
    · obtain ⟨o, mid, -, h⟩ := Script.ask_bind_ok h
      cases Script.pure_ok h
      exact (wellFormed_setBase (by rw [ht]; rfl)).mpr (by decide)
    · cases Script.pure_ok h
      exact (wellFormed_setBase (by rw [ht]; rfl)).mpr (by decide)
  case addrBlock =>
    cases Script.pure_ok h
    exact (wellFormed_setBase (by rw [ht]; rfl)).mpr (by decide)
  case invalid =>
    cases Script.pure_ok h
    exact wellFormed_internalError (by rw [ht]; rfl)
  case unknown =>
    cases Script.pure_ok h
    exact wellFormed_internalError (by rw [ht]; rfl)
  all_goals
    obtain ⟨_, _, -, h⟩ := Script.bind_ok h
    cases Script.pure_ok h
    exact (wellFormed_setBase (by rw [ht]; rfl)).mpr (by decide)

/-- Post-processing leaves the header alone but for status, descriptor and flags. -/
theorem wellFormed_postProcessResponse (clientId : BitVec 16) (req : MtRequest)
    (worker : Option Nat) (resp : MtResponse) (g : Globals) :
    WellFormed req (Globals.postProcessResponse clientId req worker resp g).1 ↔
      WellFormed req resp := by
  have same : ∀ resp' : MtResponse, resp'.sig = resp.sig → resp'.id = resp.id →
      resp'.type = resp.type → resp'.size = resp.size →
      (WellFormed req resp' ↔ WellFormed req resp) := by
    intro resp' hsig hid htype hsize
    have hiff : resp'.isResponse = true ↔ resp.isResponse = true := by
      rw [isResponse_iff, isResponse_iff, hsig, htype, hsize]
    constructor
    · exact fun h => ⟨hiff.mp h.isResponse, hid ▸ h.id, htype ▸ h.type, hsize ▸ h.size⟩
    · exact fun h => ⟨hiff.mpr h.isResponse, hid.trans h.id, htype.trans h.type,
        hsize.le.trans h.size⟩
  unfold Globals.postProcessResponse
  simp only []
  split
  · unfold Globals.assignAccepted
    split <;> exact same _ rfl rfl rfl rfl
  · exact same _ rfl rfl rfl rfl

/-! ## Runs -/

/-- The outcome a thread receives is reportable. -/
def heardReportable (f : Frame) (i : Input) : Prop :=
  match f.stage, i with
  | .call _ _ (some (c, _)), .outcome o => reportable f.req.type c o
  | _, _ => True

instance (f : Frame) (i : Input) : Decidable (heardReportable f i) := by
  delta heardReportable
  generalize f.stage = stage
  rcases stage with ⟨_, _, _ | ⟨c, _⟩⟩ | _ | _ | _ | _ | _ <;> rcases i <;> infer_instance

/-- Every thread receives reportable outcomes only. -/
def reportableStep (s : State) : Event → Prop
  | .disp i =>
      match s.disp with
      | .process f => heardReportable f i
      | _ => True
  | .worker w i =>
      match s.pcs w with
      | .process f => heardReportable f i
      | _ => True

instance (s : State) : (e : Event) → Decidable (reportableStep s e)
  | .disp i => by
      dsimp only [reportableStep]
      generalize s.disp = pc
      rcases pc <;> infer_instance
  | .worker w i => by
      dsimp only [reportableStep]
      generalize s.pcs w = pc
      rcases pc <;> infer_instance

/-- The outcomes received were reportable, and the response is well formed once
it is there. -/
def Stage.Formed (req : MtRequest) : Stage → Prop
  | .call m os issued =>
      Script.Along (reportable req.type) m os ∧ ∀ c fd, issued = some (c, fd) → m os = .error c
  | .unlock _ resp => WellFormed req resp
  | .post _ resp => WellFormed req resp
  | .write _ resp => WellFormed req resp
  | .release _ _ => True
  | .retire _ _ => True

structure Frame.Formed (clientId : BitVec 16) (f : Frame) : Prop where
  fromHandler : f.FromHandler clientId
  stage : f.stage.Formed f.req

structure Formed (clientId : BitVec 16) (s : State) : Prop where
  disp : ∀ f, s.disp = .process f → f.Formed clientId
  working : ∀ w f, s.pcs w = .process f → f.Formed clientId
  ring : ∀ resp ∈ s.g.ring, resp.isResponse = true ∧ resp.size ≤ mtResponseGenericSize

section Steps

variable {clientId : BitVec 16} {g g' : Globals} {f f' : Frame} {i : Input} {next : ProcNext}

theorem Frame.formed_start (b : Nat) : (Frame.start clientId g b).Formed clientId :=
  ⟨Frame.fromHandler_start b, Script.along_nil _ _, fun c fd hissued => by cases hissued⟩

theorem ProcMove.formed (h : ProcMove clientId g f i g' (.running f'))
    (hgood : heardReportable f i) (hf : f.Formed clientId) : f'.Formed clientId := by
  refine ⟨h.fromHandler hf.fromHandler, ?_⟩
  have hstage' := hf.stage
  cases h with
  | issue hstage hm =>
      rw [hstage] at hstage'
      exact ⟨hstage'.1, fun c fd hissued => by cases hissued; exact hm⟩
  | @receive m os c o hstage =>
      rw [hstage] at hstage'
      have ho : reportable f.req.type c.1 o := by
        simpa only [heardReportable, hstage] using hgood
      exact ⟨hstage'.1.snoc (hstage'.2 c.1 c.2 rfl) ho, fun c fd hissued => by cases hissued⟩
  | @finish m os r rest hstage hm =>
      rw [hstage] at hstage'
      obtain ⟨g₀, rfl⟩ := hf.fromHandler m os none hstage
      exact (handler_wellFormed hm).mpr hstage'.1
  | unlock hstage => rwa [hstage] at hstage'
  | post hstage =>
      rw [hstage] at hstage'
      exact (wellFormed_postProcessResponse clientId f.req f.worker _ g).mpr hstage'
  | write => trivial
  | release => trivial

/-- An activation adds at most its own response to the ring. -/
theorem ProcMove.ring_mem (h : ProcMove clientId g f i g' next) {resp : MtResponse}
    (hmem : resp ∈ g'.ring) : resp ∈ g.ring ∨ ∃ rc, f.stage = .write rc resp := by
  cases h with
  | issue => exact .inl hmem
  | finish => exact .inl (by rwa [(Quiet.finishHandler f _ g).ring] at hmem)
  | receive => exact .inl hmem
  | unlock => exact .inl (by rwa [(Quiet.unlockWorker g f.worker).ring] at hmem)
  | post =>
      exact .inl (by rwa [(Quiet.postProcessResponse clientId f.req f.worker _ g).ring] at hmem)
  | @write rc resp' hstage =>
      rcases List.mem_append.mp hmem with hold | hnew
      · exact .inl hold
      · cases List.mem_singleton.mp hnew
        exact .inr ⟨rc, hstage⟩
  | release => exact .inl hmem
  | retireSlot => exact .inl (by rwa [(Quiet.releaseWorkerThread g _).ring] at hmem)
  | retire => exact .inl hmem

theorem ProcMove.ring_formed (h : ProcMove clientId g f i g' next) (hf : f.Formed clientId)
    (hring : ∀ resp ∈ g.ring, resp.isResponse = true ∧ resp.size ≤ mtResponseGenericSize) :
    ∀ resp ∈ g'.ring, resp.isResponse = true ∧ resp.size ≤ mtResponseGenericSize := by
  intro resp hmem
  rcases h.ring_mem hmem with hold | ⟨rc, hstage⟩
  · exact hring resp hold
  · have hw := hf.stage
    rw [hstage] at hw
    exact ⟨hw.isResponse, hw.size⟩

theorem Formed.init (clientId : BitVec 16) : Formed clientId (ins clientId).init where
  disp := fun f hf => by cases hf
  working := fun w f hf => by cases hf
  ring := fun resp hmem => by cases hmem

theorem Formed.disp_move {s : State} (h : Formed clientId s) {pc : DispPc}
    {reads : List MtRequest} (hmove : DispMove clientId s i g pc reads)
    (hguard : reportableStep s (.disp i)) : Formed clientId ⟨g, pc, s.pcs, reads⟩ := by
  cases hmove with
  | start => exact ⟨fun f hf => (by cases hf; exact Frame.formed_start _), h.working, h.ring⟩
  | running hpc hproc =>
      simp only [reportableStep, hpc] at hguard
      have hf := h.disp _ hpc
      exact ⟨fun f hf' => (by cases hf'; exact hproc.formed hguard hf), h.working,
        hproc.ring_formed hf h.ring⟩
  | returned hpc hproc =>
      refine ⟨fun f hf' => ?_, h.working, hproc.ring_formed (h.disp _ hpc) h.ring⟩
      split at hf' <;> cases hf'
  | failed =>
      refine ⟨fun f hf' => (by cases hf'), h.working, fun resp hmem => ?_⟩
      rcases List.mem_append.mp hmem with hold | hnew
      · exact h.ring resp hold
      · cases List.mem_singleton.mp hnew
        refine ⟨(isResponse_iff _).mpr ⟨rfl, ?_, le_refl _⟩, ?_⟩
        · simp [Globals.setResponseToInternalError]
        · show mtResponseBaseSize ≤ mtResponseGenericSize
          decide
  | existing hpc ht hw =>
      refine ⟨fun f hf' => ?_, h.working, fun resp hmem => h.ring resp ?_⟩
      · unfold afterLookup at hf'
        split at hf' <;> cases hf'
      · have hring := (getWorkerThreadForFd_spec hw).2.ring
        rw [← hring]
        exact hmem
  | newWorker hpc ht hw =>
      refine ⟨fun f hf' => ?_, h.working, fun resp hmem => h.ring resp hmem⟩
      unfold afterLookup at hf'
      split at hf' <;> cases hf'
  | @queueFull b w =>
      refine ⟨fun f hf' => (by cases hf'), h.working, fun resp hmem => h.ring resp ?_⟩
      rwa [(Quiet.releaseOplock s.g w).ring] at hmem
  | _ => exact ⟨fun f hf' => (by cases hf'), h.working, h.ring⟩

theorem Formed.worker_move {s : State} (h : Formed clientId s) {w : Nat} {pc : WorkerPc}
    (hmove : WorkerMove clientId s w i g pc) (hguard : reportableStep s (.worker w i)) :
    Formed clientId ⟨g, s.disp, Function.update s.pcs w pc, s.reads⟩ := by
  have others : (∀ f, pc = .process f → f.Formed clientId) →
      (∀ resp ∈ g.ring, resp.isResponse = true ∧ resp.size ≤ mtResponseGenericSize) →
      Formed clientId ⟨g, s.disp, Function.update s.pcs w pc, s.reads⟩ := by
    intro hpc hring
    refine ⟨h.disp, fun v f hf => ?_, hring⟩
    by_cases hv : v = w
    · subst hv
      exact hpc f (by simpa only [Function.update_self] using hf)
    · exact h.working v f (by simpa only [Function.update_of_ne hv] using hf)
  cases hmove with
  | wait => exact others (fun f hf => by cases hf) h.ring
  | empty => exact others (fun f hf => by split at hf <;> cases hf) h.ring
  | dequeue => exact others (fun f hf => by cases hf; exact Frame.formed_start _) h.ring
  | running hpc hproc =>
      simp only [reportableStep, hpc] at hguard
      have hf := h.working w _ hpc
      exact others (fun f hf' => by cases hf'; exact hproc.formed hguard hf)
        (hproc.ring_formed hf h.ring)
  | returned hpc hproc =>
      exact others (fun f hf => by cases hf) (hproc.ring_formed (h.working w _ hpc) h.ring)
  | cleanup => exact others (fun f hf => by cases hf) h.ring

theorem Formed.step (clientId : BitVec 16) (s : State) (e : Event) (s' : State)
    (hguard : reportableStep s e) (hstep : (ins clientId).step s e = some s')
    (h : Formed clientId s) : Formed clientId s' := by
  refine step_rule hstep (fun i g pc reads he hmove => ?_) fun w i g pc he _ hmove => ?_
  · subst he
    exact h.disp_move hmove hguard
  · subst he
    exact h.worker_move hmove hguard

end Steps

/-- `mw_xen_get_next_response` fails with `-EIO` on the response in the slot it
looks at, and its caller stops. -/
def nextResponseFails (k : Nat) (t : Ring) (resp : MtResponse) : Prop :=
  t.consumer = .available ∧ t.responseAt (Ring.slotOf k t.rspCons) = some resp ∧
    (t.step k .getNextResponse).map Ring.consumer = some .stopped

theorem nextResponseFails_iff {k : Nat} {t : Ring} {resp : MtResponse} (hidle : t.consumer = .available)
    (hslot : t.responseAt (Ring.slotOf k t.rspCons) = some resp) :
    nextResponseFails k t resp ↔ resp.isResponse = false := by
  have hstep : (t.step k .getNextResponse).map Ring.consumer =
      some (if resp.isResponse = true then .holding else .stopped) := by
    simp only [Ring.step, Ring.front, hidle, hslot, if_true]
    split <;> rfl
  rw [nextResponseFails, hstep]
  cases resp.isResponse <;> simp [hidle, hslot]

/-- **The form of responses.** For every request, what `process_buffer_item`
writes is well formed if and only if every native call of its handler had an
outcome that can be reported. And in every run in which threads receive such
outcomes only, every response written is one that fits its slot, so that
`mw_xen_get_next_response` does not fail on it. -/
theorem responses_wellFormed (clientId : BitVec 16) :
    (∀ req worker g g' os r rest, handler clientId req worker g os = .ok (r, rest) →
      (WellFormed req (Globals.postProcessResponse clientId req worker r.response g').1 ↔
        Script.Along (reportable req.type) (handler clientId req worker g) os)) ∧
    ∀ es s, (ins clientId).Guarded reportableStep es → (ins clientId).run es = some s →
      ∀ resp ∈ s.g.ring, resp.isResponse = true ∧ resp.size ≤ mtResponseGenericSize ∧
        ∀ k t, ¬ nextResponseFails k t resp := by
  constructor
  · intro req worker g g' os r rest h
    rw [wellFormed_postProcessResponse]
    exact handler_wellFormed h
  · intro es s hgood hrun resp hmem
    have h : Formed clientId s :=
      (ins clientId).guarded_invariant (Formed.init clientId) (Formed.step clientId) hgood hrun
    obtain ⟨hresp, hsize⟩ := h.ring resp hmem
    refine ⟨hresp, hsize, fun k t hfail => ?_⟩
    have := (nextResponseFails_iff hfail.1 hfail.2.1).mp hfail
    rw [hresp] at this
    cases this

/-- The receive of `createAndRecv` gets four bytes, and its response can be
consumed. -/
theorem responses_wellFormed_createAndRecv :
    ∃ s, (ins 1).run createAndRecv = some s ∧ s.g.ring.length = 2 ∧
      ∀ resp ∈ s.g.ring, resp.isResponse = true ∧ ∀ k t, ¬ nextResponseFails k t resp := by
  have hsome : ((ins 1).run createAndRecv).map (fun s => s.g.ring.length) = some 2 := by
    decide +kernel
  obtain ⟨s, hs, hlen⟩ := Option.map_eq_some_iff.mp hsome
  refine ⟨s, hs, hlen, fun resp hmem => ?_⟩
  obtain ⟨hresp, -, hfail⟩ :=
    (responses_wellFormed 1).2 createAndRecv s (by decide +kernel) hs resp hmem
  exact ⟨hresp, hfail⟩

/-- A receive whose `poll` fails, an accept whose `fcntl` fails, a pollset query
whose `poll` fails, and a receive of 4000 bytes: what the handler leaves is no
response to the request, or does not fit its slot. After the first of these, in
a run, the consumer of the driver stops. -/
theorem responses_malformed :
    ((((handler 1 (recvRequest 2) (some 0) {}) [{ ret := 0 }, { ret := -1, errno := 12 }]).toOption.map
      fun p => (p.1.response.isResponse, p.1.response.id)) = some (false, 0) ∧
    (((handler 1 { type := .socketAccept, id := 3, opFlags := mwSockNonblock } (some 0) {})
      [{ ret := 5 }, { ret := -1, errno := 9 }, {}]).toOption.map
      fun p => (p.1.response.isResponse, p.1.response.id)) = some (false, 0) ∧
    (((handler 1 { type := .pollsetQuery, id := 4 } none {}) [{ ret := -1, errno := 4 }]).toOption.map
      fun p => (p.1.response.isResponse, p.1.response.id)) = some (false, 0) ∧
    (((handler 1 { recvRequest 5 with requested := 4000 } (some 0) {}) [{ ret := 4000 }]).toOption.map
      fun p => decide (p.1.response.size ≤ mtResponseGenericSize)) = some false) ∧
    ∃ s, (ins 1).run failedPoll = some s ∧ ∃ resp ∈ s.g.ring, resp.isResponse = false ∧
      ∃ k t, nextResponseFails k t resp := by
  refine ⟨by decide +kernel, ?_⟩
  have hsome : ((ins 1).run failedPoll).map (fun s => s.g.ring.any fun r => !r.isResponse) =
      some true := by
    decide +kernel
  obtain ⟨s, hs, hany⟩ := Option.map_eq_some_iff.mp hsome
  obtain ⟨resp, hmem, hbad⟩ := List.any_eq_true.mp hany
  have hbad : resp.isResponse = false := by simpa using hbad
  let t : Ring := { consumer := .available, slots := fun _ => ⟨some (.inr resp), true⟩ }
  exact ⟨s, hs, resp, hmem, hbad, 0, t, (nextResponseFails_iff (t := t) rfl rfl).mpr hbad⟩

end MagicWand.Ins
