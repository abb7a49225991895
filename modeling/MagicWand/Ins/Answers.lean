import MagicWand.Ins.Dispatcher

/-!
# Which handler results answer their request

A handler result answers its request when the response carries the request's
id. Whether it does decides, together with the return code, how many responses
`process_buffer_item` and its callers issue. The handlers fall into two groups:

* those the dispatcher runs: the response is set up and the return code is 0, or
  neither is the case (`xe_pollset_query`), except for an address block with an
  invalid `block` value, which is answered and fails;
* those the workers run: the response is set up, except on the internal errors
  of a receive (`poll` fails) and of an accept (`fcntl` fails).
-/

namespace MagicWand.Ins

open Foundation

/-- The response carries this id. -/
def carries (id : BitVec 64) (resp : MtResponse) : Bool :=
  resp.sig == mtSignatureResponse && resp.id == id

/-- The response is the answer to `req`. -/
def Answers (req : MtRequest) (resp : MtResponse) : Prop :=
  resp.sig = mtSignatureResponse ∧ resp.id = req.id

/-- The base of the response was never set up. -/
def Blank (resp : MtResponse) : Prop := resp.sig ≠ mtSignatureResponse

theorem Answers.carries_iff {req : MtRequest} {resp : MtResponse} (h : Answers req resp)
    (id : BitVec 64) : carries id resp = true ↔ req.id = id := by
  simp [carries, h.1, h.2]

theorem Blank.not_carries {resp : MtResponse} (h : Blank resp) (id : BitVec 64) :
    carries id resp = false := by
  have hsig : (resp.sig == mtSignatureResponse) = false := beq_false_of_ne h
  simp [carries, hsig]

theorem answers_setBase (req : MtRequest) (n : Nat) (resp : MtResponse) :
    Answers req (xeNetSetBaseResponse req n resp) := ⟨rfl, rfl⟩

theorem answers_internalError (req : MtRequest) :
    Answers req (Globals.setResponseToInternalError req) := ⟨rfl, rfl⟩

theorem blank_empty : Blank {} := by simp [Blank, mtSignatureResponse]

/-! ## Error codes are never zero -/

theorem emap_pos : ∀ p ∈ emap, 0 < p.2 := by decide

theorem xeGetMwerrno_pos {e : Int} (h : e ≠ 0) : 0 < xeGetMwerrno e := by
  rw [xeGetMwerrno, if_neg h]
  cases hl : emap.lookup e with
  | none => simp
  | some v =>
      obtain ⟨l₁, l₂, hemap, -⟩ := List.lookup_eq_some_iff.mp hl
      exact emap_pos (e, v) (by rw [hemap]; simp)

/-- A native error is reported as a negative value. -/
theorem xeGetNegErrnoVal_neg (e : Int) : xeGetNegErrnoVal e < 0 := by
  unfold xeGetNegErrnoVal
  split
  · have := xeGetMwerrno_pos (e := e) (by omega)
    omega
  · decide

theorem xeGetNegErrnoVal_ne_zero (e : Int) : xeGetNegErrnoVal e ≠ 0 :=
  (xeGetNegErrnoVal_neg e).ne

/-! ## The outcomes that lead to an internal error -/

/-- The native outcomes on which a handler of type `t` keeps answering: `poll`
inside a receive succeeds, and so does `fcntl` inside an accept. -/
def goodOutcome (t : MtRequestType) (c : NativeCall) (o : Outcome) : Prop :=
  match c with
  | .pollOne _ _ => t = .socketRecv ∨ t = .socketRecvFrom → 0 ≤ o.ret
  | .fcntlGet _ => t = .socketAccept → o.ret ≠ -1
  | .fcntlSet _ _ => t = .socketAccept → o.ret = 0
  | _ => True

instance (t : MtRequestType) (c : NativeCall) (o : Outcome) : Decidable (goodOutcome t c o) := by
  cases c <;> unfold goodOutcome <;> infer_instance

/-- A receive loop ends with an internal error only if `poll` failed. -/
theorem recvLoop_internal (call : NativeCall) (phase : RecvPhase) (os : List Outcome) (rc : Int)
    (rest : List Outcome) (h : recvLoop call phase os = .ok (.internal rc, rest)) :
    ∃ pre p post, os = pre ++ p :: post ∧
      recvLoop call phase pre = .error pollOneCall ∧ p.ret < 0 := by
  induction os generalizing phase with
  | nil => cases phase <;> cases h
  | cons o os ih =>
      -- A round that neither ends the loop nor polls leaves the claim to the rest.
      have later : ∀ phase', recvLoop call phase' os = .ok (.internal rc, rest) →
          (∀ os', recvLoop call phase (o :: os') = recvLoop call phase' os') →
          ∃ pre p post, o :: os = pre ++ p :: post ∧
            recvLoop call phase pre = .error pollOneCall ∧ p.ret < 0 := by
        intro phase' hrest hround
        obtain ⟨pre, p, post, hos, hpre, hp⟩ := ih phase' hrest
        exact ⟨o :: pre, p, post, by rw [hos]; rfl, by rw [hround]; exact hpre, hp⟩
      cases phase with
      | poll =>
          by_cases hfail : (pollOneResult o).1 ≠ 0
          · refine ⟨[], o, os, rfl, rfl, ?_⟩
            by_contra hp
            exact hfail (by simp only [pollOneResult]; split <;> [omega; split <;> rfl])
          · have hround : ∀ os', recvLoop call .poll (o :: os') =
                recvLoop call (.recv true (pollOneResult o).2) os' := by
              intro os'
              rw [recvLoop, if_neg hfail]
            rw [hround] at h
            exact later _ h hround
      | recv polled events =>
          rw [recvLoop] at h
          split at h
          · next hintr => exact later _ h fun os' => by rw [recvLoop, if_pos hintr]
          split at h
          · cases h
          split at h
          · cases h
          split at h
          · cases h
          split at h
          · cases h
          · next hintr hneg hdata hev hpolled =>
              refine later _ h fun os' => ?_
              rw [recvLoop, if_neg hintr, if_neg hneg, if_neg hdata, if_neg hev, if_neg hpolled]

/-! ## The handlers one by one -/

section Handlers

variable {req : MtRequest} {r : HandlerResult} {os rest : List Outcome}

theorem create_clean {clientId : BitVec 16} {slot : Nat}
    (h : xeNetCreateSocket clientId req slot os = .ok (r, rest)) :
    Answers req r.response ∧ r.rc = 0 := by
  obtain ⟨o, mid, -, h⟩ := Script.bind_ok h
  simp only [xeNetInitSocket_eq] at h
  cases Script.pure_ok h
  exact ⟨⟨rfl, rfl⟩, rfl⟩

theorem shutdown_clean (h : xeNetShutdownSocket req os = .ok (r, rest)) :
    Answers req r.response ∧ r.rc = 0 := by
  obtain ⟨o, mid, -, h⟩ := Script.ask_bind_ok h
  cases Script.pure_ok h
  exact ⟨answers_setBase _ _ _, rfl⟩

theorem close_clean {slot : Nat} {w : Socket} (h : xeNetCloseSocket req slot w os = .ok (r, rest)) :
    Answers req r.response ∧ r.rc = 0 := by
  unfold xeNetCloseSocket at h
  split at h
  · obtain ⟨o, mid, -, h⟩ := Script.ask_bind_ok h
    cases Script.pure_ok h
    exact ⟨answers_setBase _ _ _, rfl⟩
  · cases Script.pure_ok h
    exact ⟨answers_setBase _ _ _, rfl⟩

theorem bind_clean {slot : Nat} (h : xeNetBindSocket req slot os = .ok (r, rest)) :
    Answers req r.response ∧ r.rc = 0 := by
  obtain ⟨o, mid, -, h⟩ := Script.ask_bind_ok h
  cases Script.pure_ok h
  exact ⟨answers_setBase _ _ _, rfl⟩

theorem listen_clean (h : xeNetListenSocket req os = .ok (r, rest)) :
    Answers req r.response ∧ r.rc = 0 := by
  obtain ⟨o, mid, -, h⟩ := Script.ask_bind_ok h
  cases Script.pure_ok h
  exact ⟨answers_setBase _ _ _, rfl⟩

theorem attrib_clean (h : xeNetSockAttrib req os = .ok (r, rest)) :
    Answers req r.response ∧ r.rc = 0 := by
  obtain ⟨a, mid, -, h⟩ := Script.bind_ok h
  cases Script.pure_ok h
  exact ⟨answers_setBase _ _ _, rfl⟩

theorem addrBlock_clean (hblock : req.block = 0 ∨ req.block = 1)
    (h : xeNetAddrBlock req os = .ok (r, rest)) : Answers req r.response ∧ r.rc = 0 := by
  cases Script.pure_ok h
  refine ⟨answers_setBase _ _ _, ?_⟩
  rcases hblock with hb | hb <;> simp [hb]

/-- The query fails without a response, or answers. -/
theorem pollset_clean_or_blank {fds : List (Option Int)} {net : NetState}
    (h : xePollsetQuery req fds net os = .ok (r, rest)) :
    (Answers req r.response ∧ r.rc = 0) ∨ (Blank r.response ∧ r.rc ≠ 0) := by
  obtain ⟨o, mid, -, h⟩ := Script.ask_bind_ok h
  split at h
  · cases Script.pure_ok h
    exact .inr ⟨blank_empty, xeGetNegErrnoVal_ne_zero _⟩
  · cases Script.pure_ok h
    exact .inl ⟨answers_setBase _ _ _, rfl⟩

theorem connect_answers (h : xeNetConnectSocket req os = .ok (r, rest)) :
    Answers req r.response := by
  obtain ⟨o, mid, -, h⟩ := Script.ask_bind_ok h
  cases Script.pure_ok h
  exact answers_setBase _ _ _

theorem send_answers {slot : Nat} (h : xeNetSendSocket req slot os = .ok (r, rest)) :
    Answers req r.response := by
  obtain ⟨e, mid, -, h⟩ := Script.bind_ok h
  cases Script.pure_ok h
  exact answers_setBase _ _ _

theorem getName_answers (h : xeNetGetName req os = .ok (r, rest)) : Answers req r.response := by
  obtain ⟨o, mid, -, h⟩ := Script.ask_bind_ok h
  cases Script.pure_ok h
  exact answers_setBase _ _ _

theorem recvResult_answers {slot size : Nat} {e : RecvEnd} (h : ∀ rc, e ≠ .internal rc) :
    Answers req (recvResult req slot size e).response := by
  cases e with
  | internal rc => exact absurd rfl (h rc)
  | failed _ => exact answers_setBase _ _ _
  | data _ => exact answers_setBase _ _ _
  | remoteClosed _ => exact answers_setBase _ _ _
  | nothing _ => exact answers_setBase _ _ _

/-- The two receive handlers: a loop on `call`, then the response. -/
theorem recv_answers {call : NativeCall} {slot size : Nat} {m : Native HandlerResult}
    (hm : m = do
      let e ← recvLoop call (.recv false 0)
      pure (recvResult req slot size e))
    (ht : req.type = .socketRecv ∨ req.type = .socketRecvFrom)
    (hgood : Script.Along (goodOutcome req.type) m os) (h : m os = .ok (r, rest)) :
    Answers req r.response := by
  subst hm
  obtain ⟨e, mid, hloop, h⟩ := Script.bind_ok h
  cases Script.pure_ok h
  apply recvResult_answers
  rintro rc rfl
  obtain ⟨pre, p, post, hos, hpre, hp⟩ := recvLoop_internal call _ os rc mid hloop
  have hblocked : (recvLoop call (.recv false 0) >>= fun e =>
      pure (recvResult req slot size e)) pre = .error pollOneCall := by
    rw [Script.bind_run, hpre]
  have hgood := hgood pre p post _ hos hblocked ht
  omega

/-- Switching a socket to non-blocking mode fails only if one of the two
`fcntl` calls fails. -/
theorem setSockNonblock_failed {fd rc err : Int}
    (h : xeNetSetSockNonblock fd os = .ok ((rc, err), rest)) (hrc : rc ≠ 0) :
    ∃ pre o post c, os = pre ++ o :: post ∧ xeNetSetSockNonblock fd pre = .error c ∧
      ¬ goodOutcome .socketAccept c o := by
  obtain ⟨g, mid, hos, hg⟩ := Script.ask_bind_ok h
  by_cases hget : g.ret = -1
  · exact ⟨[], g, mid, _, hos, rfl, fun hgood => hgood rfl hget⟩
  · rw [if_neg hget] at hg
    obtain ⟨o, mid', hmid, ho⟩ := Script.ask_bind_ok hg
    refine ⟨[g], o, mid', .fcntlSet (.fd fd) (BitVec.ofInt 32 g.ret ||| 4), ?_, ?_, ?_⟩
    · rw [hos, hmid]
      rfl
    · show (if g.ret = -1 then pure (-5, g.errno) else _ : Native (Int × Int)) [] = _
      rw [if_neg hget]
      rfl
    · intro hgood
      have hzero : o.ret = 0 := hgood rfl
      rw [if_neg (by omega)] at ho
      cases Script.pure_ok ho
      exact hrc hzero

/-- An accept answers unless one of its two `fcntl` calls failed. -/
theorem accept_answers (ht : req.type = .socketAccept)
    (hgood : Script.Along (goodOutcome req.type) (xeNetAcceptSocket req) os)
    (h : xeNetAcceptSocket req os = .ok (r, rest)) : Answers req r.response := by
  have hinit : ∀ {o : Outcome} {os : List Outcome}, acceptInit req o os = .ok (r, rest) →
      Answers req r.response := by
    intro o os h
    simp only [acceptInit, xeNetInitSocket_eq] at h
    cases Script.pure_ok h
    exact answers_setBase _ _ _
  obtain ⟨o, mid, hos, ho⟩ := Script.ask_bind_ok h
  by_cases hneg : o.ret < 0
  · rw [if_pos hneg] at ho
    cases Script.pure_ok ho
    exact answers_setBase _ _ _
  rw [if_neg hneg] at ho
  by_cases hnb : req.opFlags.has mwSockNonblock = true
  swap
  · rw [if_neg hnb] at ho
    exact hinit ho
  rw [if_pos hnb] at ho
  obtain ⟨⟨rc, err⟩, mid', hset, ho⟩ := Script.bind_ok ho
  by_cases hrc : rc = 0
  · subst hrc
    exact hinit ho
  · obtain ⟨pre, o', post, c, hmid, hpre, hbad⟩ := setSockNonblock_failed hset hrc
    have hblocked : xeNetAcceptSocket req (o :: pre) = .error c := by
      show (if o.ret < 0 then _ else _ : Native HandlerResult) pre = _
      rw [if_neg hneg, if_pos hnb, Script.bind_run, hpre]
    have := hgood (o :: pre) o' post c (by rw [hos, hmid]; rfl) hblocked
    rw [ht] at this
    exact absurd this hbad

end Handlers

/-! ## The switch of `process_buffer_item` -/

/-- What the dispatcher can process: any request but an address block whose
`block` is neither 0 nor 1. -/
def goodRequest (req : MtRequest) : Prop :=
  req.type = .addrBlock → req.block = 0 ∨ req.block = 1

instance (req : MtRequest) : Decidable (goodRequest req) := by
  unfold goodRequest
  infer_instance

theorem handler_now {clientId : BitVec 16} {req : MtRequest} {worker : Option Nat} {g : Globals}
    {os rest : List Outcome} {r : HandlerResult} (hnow : processNow req.type = true)
    (hreq : goodRequest req) (h : handler clientId req worker g os = .ok (r, rest)) :
    (Answers req r.response ∧ r.rc = 0) ∨ (Blank r.response ∧ r.rc ≠ 0) := by
  unfold handler at h
  cases ht : req.type <;> rw [ht] at h hnow <;> simp only [] at h
  case socketCreate => exact .inl (create_clean h)
  case socketShutdown => exact .inl (shutdown_clean h)
  case socketClose => exact .inl (close_clean h)
  case socketBind => exact .inl (bind_clean h)
  case socketListen => exact .inl (listen_clean h)
  case socketAttrib => exact .inl (attrib_clean h)
  case addrBlock => exact .inl (addrBlock_clean (hreq ht) h)
  case pollsetQuery => exact pollset_clean_or_blank h
  case invalid => cases Script.pure_ok h; exact .inl ⟨⟨rfl, rfl⟩, rfl⟩
  case unknown => cases Script.pure_ok h; exact .inl ⟨⟨rfl, rfl⟩, rfl⟩
  all_goals exact absurd hnow (by decide)

theorem handler_worker {clientId : BitVec 16} {req : MtRequest} {worker : Option Nat} {g : Globals}
    {os rest : List Outcome} {r : HandlerResult} (hworker : processNow req.type = false)
    (hgood : Script.Along (goodOutcome req.type) (handler clientId req worker g) os)
    (h : handler clientId req worker g os = .ok (r, rest)) : Answers req r.response := by
  unfold handler at h hgood
  cases ht : req.type <;> rw [ht] at h hworker <;> simp only [ht] at h hgood
  case socketConnect => exact connect_answers h
  case socketSend => exact send_answers h
  case socketAccept => exact accept_answers ht (by rw [ht]; exact hgood) h
  case socketRecv => exact recv_answers rfl (.inl ht) (by rw [ht]; exact hgood) h
  case socketRecvFrom => exact recv_answers rfl (.inr ht) (by rw [ht]; exact hgood) h
  case socketGetName => exact getName_answers h
  case socketGetPeer => exact getName_answers h
  all_goals exact absurd hworker (by first | decide | simp [processNow, assignment])

end MagicWand.Ins
