import MagicWand.Shim.Batch

/-!
# A batched send, end to end

One call of `send` whose chunks the driver takes and the INS hands over
completely. The requests of the call cut the buffer into payloads; the counts of
the responses come back through the driver's tally and the 16-bit count of the
final response.

`send_end_to_end` says exactly when the caller gets back the length it passed:
the length is neither 0 nor above 16 bits, the batch starts from a tally of 0,
and the connection is not reported closed meanwhile.
-/

namespace MagicWand.Shim

open Foundation Kernel

/-! ## The property -/

/-- The driver takes every chunk and the INS sends all of it. -/
def accepting (s : Sender) : SendEvent → Prop
  | .call _ _ => False
  | .write w => w = .granted
  | .serve count status _ =>
      status = 0 ∧ ∀ p ∈ s.pending.head?, count = (Ins.sendPayload p.request).length
  | .dispatchError _ _ => False
  | .consume => True
  | .read => True

instance (s : Sender) (e : SendEvent) : Decidable (accepting s e) :=
  match e with
  | .call _ _ => isFalse id
  | .write w => inferInstanceAs (Decidable (w = .granted))
  | .serve _ _ _ => inferInstanceAs (Decidable (_ ∧ _))
  | .dispatchError _ _ => isFalse id
  | .consume => isTrue trivial
  | .read => isTrue trivial

/-- Does the INS report with this answer that the remote side has closed? -/
def closes : SendEvent → Bool
  | .serve _ _ closed => closed
  | _ => false

/-- A call of `send` on the socket, and a run of it whose chunks are accepted. -/
def AcceptedRun (sock : SockInst) (buf : List Byte) (opFlags : MtFlags) (es : List SendEvent)
    (s : Sender) : Prop :=
  ∃ s₀, (sender sock).step (sender sock).init (.call buf opFlags) = some s₀ ∧
    (sender sock).GuardedFrom accepting s₀ es ∧ (sender sock).runFrom s₀ es = some s

/-- The requests of the call cut the buffer into chunks, the flags tell the first
and the last of them, and the caller gets the length back. -/
structure BatchSent (buf : List Byte) (s : Sender) : Prop where
  payload : (s.chunks.map Ins.sendPayload).flatten = buf
  bounded : ∀ r ∈ s.chunks, (Ins.sendPayload r).length ≤ messageTypeMaxPayloadLen
  first : ∀ i r, s.chunks[i]? = some r → (r.flags.has MtFlags.batchSendInit = true ↔ i = 0)
  last : ∀ i r, s.chunks[i]? = some r → (fini r = true ↔ i + 1 = s.chunks.length)
  awaited : ∀ i r, s.chunks[i]? = some r → (r.callerWaits = true ↔ i + 1 = s.chunks.length)
  returned : s.returned = some (buf.length : Int)

/-! ## The connection -/

/-- Does the driver turn a write down? -/
def refusing (k : SockInst) : Bool := !k.insAlive || k.remoteSurpriseClose

/-- Is the connection lost, or is the news of it on the ring? -/
def lost (s : Sender) : Bool :=
  refusing s.sock || s.ring.any fun a => a.response.flags.has MtFlags.remoteClosed

theorem writeRefusal_granted {k : SockInst} (hcalm : k.pendingErrno = 0) :
    (refusing k = true ∧ ∃ rc < 0,
      writeRefusal k .granted = some ({ k with readExpected := false }, rc)) ∨
    (refusing k = false ∧ writeRefusal k .granted = none) := by
  rw [writeRefusal, pendingError_of_calm hcalm]
  cases halive : k.insAlive with
  | false =>
      left
      exact ⟨by simp [refusing, halive], -einval, by decide, by simp⟩
  | true =>
      cases hclose : k.remoteSurpriseClose with
      | true =>
          left
          refine ⟨by simp [refusing, hclose], -mwErrorRemoteSurpriseClose, by decide, ?_⟩
          simp [mwErrorRemoteSurpriseClose, halive, hclose]
      | false =>
          right
          exact ⟨by simp [refusing, halive, hclose], by simp⟩

/-- The same connection. -/
structure SameLink (k k' : SockInst) : Prop where
  alive : k'.insAlive = k.insAlive
  surprise : k'.remoteSurpriseClose = k.remoteSurpriseClose
  unlocked : k'.closeWriter = k.closeWriter

namespace SameLink

theorem trans {k k' k'' : SockInst} (h : SameLink k k') (h' : SameLink k' k'') : SameLink k k'' :=
  ⟨h'.alive.trans h.alive, h'.surprise.trans h.surprise, h'.unlocked.trans h.unlocked⟩

theorem refusing_eq {k k' : SockInst} (h : SameLink k k') : refusing k' = refusing k := by
  rw [refusing, refusing, h.alive, h.surprise]

end SameLink

/-- Publishing a chunk leaves the connection alone. -/
theorem sameLink_preProcess (k : SockInst) (id : MtId) (req : MtRequest)
    (htype : req.type = .socketSend) : SameLink k (k.preProcess id req false) := by
  have hwait : SameLink k (if req.callerWaits then k.expectRead id else k) := by
    split_ifs <;> exact ⟨rfl, rfl, rfl⟩
  have hacquire : ∀ k : SockInst, SameLink k (k.acquireClose id .socketSend false) := by
    intro k
    rw [SockInst.acquireClose, if_pos (by decide)]
    exact ⟨rfl, rfl, rfl⟩
  have hprepare : ∀ k : SockInst, SameLink k (k.prepare req) := by
    intro k
    rw [SockInst.prepare, htype]
    dsimp only
    split_ifs <;> exact ⟨rfl, rfl, rfl⟩
  rw [SockInst.preProcess, htype]
  exact (hwait.trans (hacquire _)).trans (hprepare _)

theorem sameLink_tallySend (k : SockInst) (resp : MtResponse) :
    SameLink k (k.tallySend resp).1 ∧ (k.tallySend resp).2.status = resp.status := by
  rw [SockInst.tallySend]
  split_ifs <;> exact ⟨⟨rfl, rfl, rfl⟩, rfl⟩

theorem sameLink_recordSuccess (k : SockInst) (resp : MtResponse) :
    SameLink k (k.recordSuccess resp) := by
  unfold SockInst.recordSuccess
  rcases resp.type with _ | t
  · exact ⟨rfl, rfl, rfl⟩
  · cases t <;> exact ⟨rfl, rfl, rfl⟩

/-- A response is where the driver learns that the remote side has closed. -/
theorem postprocSend_link (k : SockInst) {a : Answered}
    (htype : a.response.type = .of .socketSend) :
    ∃ k', SameLink k k' ∧ SameLink (k'.noteRemoteClosed a.response) (postprocSend k a).1 ∧
      (postprocSend k a).2.status = a.response.status := by
  let k₁ := k.releaseClose a.sent.request.id a.response
  have hrelease : SameLink k k₁ := by
    simp only [k₁, SockInst.releaseClose, htype]
    rw [if_pos (by decide)]
    exact ⟨rfl, rfl, rfl⟩
  obtain ⟨htally, hstatus⟩ := sameLink_tallySend k₁ a.response
  refine ⟨(k₁.tallySend a.response).1, hrelease.trans htally, ?_, hstatus⟩
  apply postprocSend_record k a
  · exact ⟨rfl, rfl, rfl⟩
  · exact fun _ _ h => h.trans (sameLink_recordSuccess ..)

theorem noteRemoteClosed_link (k : SockInst) (resp : MtResponse) :
    (k.noteRemoteClosed resp).insAlive = k.insAlive ∧
      (k.noteRemoteClosed resp).closeWriter = k.closeWriter ∧
      refusing (k.noteRemoteClosed resp) =
        (refusing k || resp.flags.has MtFlags.remoteClosed) := by
  rw [SockInst.noteRemoteClosed]
  split_ifs with hflag
  · simp [refusing, hflag]
  · simp [hflag]

theorem postprocSend_connection (k : SockInst) {a : Answered}
    (htype : a.response.type = .of .socketSend) :
    (postprocSend k a).1.insAlive = k.insAlive ∧
      (postprocSend k a).1.closeWriter = k.closeWriter ∧
      refusing (postprocSend k a).1 =
        (refusing k || a.response.flags.has MtFlags.remoteClosed) ∧
      (postprocSend k a).2.status = a.response.status := by
  obtain ⟨k', hin, hout, hstatus⟩ := postprocSend_link k htype
  obtain ⟨halive, hunlocked, hrefusing⟩ := noteRemoteClosed_link k' a.response
  refine ⟨?_, ?_, ?_, hstatus⟩
  · rw [hout.alive, halive, hin.alive]
  · rw [hout.unlocked, hunlocked, hin.unlocked]
  · rw [hout.refusing_eq, hrefusing, hin.refusing_eq]

/-! ## Chunks -/

/-- The requests so far carry the first `n` bytes of the buffer. -/
structure Cut (buf : List Byte) (chunks : List MtRequest) (n : Nat) : Prop where
  payload : (chunks.map Ins.sendPayload).flatten = buf.take n
  bounded : ∀ r ∈ chunks, (Ins.sendPayload r).length ≤ messageTypeMaxPayloadLen
  first : ∀ i r, chunks[i]? = some r → (r.flags.has MtFlags.batchSendInit = true ↔ i = 0)

/-- The requests carry the whole buffer, and the last one says so. -/
structure Whole (buf : List Byte) (chunks : List MtRequest) : Prop
    extends Cut buf chunks buf.length where
  last : ∀ i r, chunks[i]? = some r → (fini r = true ↔ i + 1 = chunks.length)
  awaited : ∀ i r, chunks[i]? = some r → (r.callerWaits = true ↔ i + 1 = chunks.length)

theorem getElem?_snoc {chunks : List MtRequest} {r x : MtRequest} {i : Nat}
    (h : (chunks ++ [r])[i]? = some x) :
    chunks[i]? = some x ∧ i < chunks.length ∨ i = chunks.length ∧ x = r := by
  rcases Nat.lt_or_ge i chunks.length with hlt | hge
  · rw [List.getElem?_append_left hlt] at h
    exact .inl ⟨h, hlt⟩
  · rw [List.getElem?_append_right hge] at h
    have hzero : i - chunks.length = 0 := by
      by_contra hne
      rw [List.getElem?_singleton, if_neg hne] at h
      cases h
    rw [hzero] at h
    cases h
    exact .inr ⟨by omega, rfl⟩

theorem Cut.snoc {buf : List Byte} {chunks : List MtRequest} {n k : Nat} (h : Cut buf chunks n)
    {r : MtRequest} (hpayload : Ins.sendPayload r = (buf.drop n).take k)
    (hbound : k ≤ messageTypeMaxPayloadLen)
    (hfirst : r.flags.has MtFlags.batchSendInit = true ↔ chunks = []) :
    Cut buf (chunks ++ [r]) (n + k) where
  payload := by
    rw [List.map_append, List.flatten_append, h.payload, List.take_add]
    simp [hpayload]
  bounded := by
    intro x hx
    rcases List.mem_append.mp hx with hx | hx
    · exact h.bounded x hx
    · rw [List.mem_singleton.mp hx, hpayload]
      exact (List.length_take_le _ _).trans hbound
  first := by
    intro i x hx
    rcases getElem?_snoc hx with ⟨hold, -⟩ | ⟨rfl, rfl⟩
    · exact h.first i x hold
    · rw [hfirst, List.length_eq_zero_iff]

/-- The last chunk is the only one that is final and waited for. -/
theorem Cut.whole {buf : List Byte} {chunks : List MtRequest} {r : MtRequest}
    (h : Cut buf (chunks ++ [r]) buf.length)
    (hold : ∀ x ∈ chunks, fini x = false ∧ x.callerWaits = false)
    (hfini : fini r = true) (hwaits : r.callerWaits = true) : Whole buf (chunks ++ [r]) where
  toCut := h
  last := by
    intro i x hx
    rw [List.length_append, List.length_singleton]
    rcases getElem?_snoc hx with ⟨hmem, hlt⟩ | ⟨rfl, rfl⟩
    · rw [(hold x (List.mem_of_getElem? hmem)).1]
      simp only [Bool.false_eq_true, false_iff]
      omega
    · simp [hfini]
  awaited := by
    intro i x hx
    rw [List.length_append, List.length_singleton]
    rcases getElem?_snoc hx with ⟨hmem, hlt⟩ | ⟨rfl, rfl⟩
    · rw [(hold x (List.mem_of_getElem? hmem)).2]
      simp only [Bool.false_eq_true, false_iff]
      omega
    · simp [hwaits]

/-! ## The invariant -/

/-- What the next batch on the socket starts from. -/
def carry (k : SockInst) : Nat := if batchOpen k then k.sendTally else 0

/-- The bytes of the chunks whose responses have not been consumed. -/
def promised (s : Sender) : Nat :=
  (s.ring.map fun a => a.response.count).sum +
    (s.pending.map fun p => (Ins.sendPayload p.request).length).sum

/-- A chunk on its way; exactly the final one is waited for. -/
structure Shipped (p : Sent) : Prop where
  live : p.live = true
  type : p.request.type = .socketSend
  batch : p.request.flags.has MtFlags.batchSend = true
  clean : p.request.flags.has MtFlags.remoteClosed = false
  awaited : p.request.callerWaits = fini p.request

/-- The answer to a chunk that the INS has taken. -/
structure Accepted (a : Answered) : Prop where
  type : a.response.type = .of .socketSend
  status : a.response.status = 0
  batch : a.response.flags.has MtFlags.batchSend = true
  fini : a.response.flags.has MtFlags.batchSendFini = Shim.fini a.sent.request

section

variable (buf : List Byte) (carried : Nat)

/-- At the head of the loop, with the chunks before `totSent` published. -/
structure Midway (s : Sender) (c : SendCall) : Prop where
  source : c.buf = buf
  response : c.response = {}
  head : AtHead c
  cut : Cut buf s.chunks c.totSent
  unfinished : ∀ r ∈ s.chunks, fini r = false ∧ r.callerWaits = false
  start : s.chunks = [] ↔ c.totSent = 0
  init : c.totSent = 0 → c.flags.has MtFlags.batchSendInit = true
  clean : c.flags.has MtFlags.remoteClosed = false
  quiet : s.delivered = none
  awaited : NoneAwaited s
  opened : flight s ≠ [] → batchOpen s.sock = true
  account : carry s.sock + promised s = carried + c.totSent

/-- The last chunk is published. -/
structure Finished (s : Sender) (c : SendCall) : Prop where
  alive : s.sock.insAlive = true
  response : c.response = {}
  final : c.final = true
  last : c.isLast = true
  nonempty : 0 < buf.length
  whole : Whole buf s.chunks

/-- What `send` makes of the count in the final response. -/
def reply (count : Nat) : Int := if 0 < count then count else -1

/-- The stages of a call whose chunks are accepted: the loop, a write that was
turned down and will be again, waiting for the final response, reading it, and
the two ways in which the call ends. -/
inductive Stage (s : Sender) : Prop where
  | sending (c : SendCall) (hpc : s.pc = .loop c) (hfinal : c.final = false)
      (hmid : Midway buf carried s c)
  | failing (c : SendCall) (hpc : s.pc = .loop c) (hfinal : c.final = true)
      (hresponse : c.response = {}) (hrefusing : refusing s.sock = true)
  | waiting (c : SendCall) (hpc : s.pc = .wait c) (hnone : s.delivered = none)
      (hdone : Finished buf s c) (hopen : batchOpen s.sock = true)
      (haccount : carry s.sock + promised s = carried + buf.length)
      (front : List Sent) (p : Sent) (hflight : flight s = front ++ [p])
      (hfront : ∀ q ∈ front, q.request.callerWaits = false)
      (hwaits : p.request.callerWaits = true)
  | reading (c : SendCall) (a : Answered) (hpc : s.pc = .wait c) (hsome : s.delivered = some a)
      (hdone : Finished buf s c) (hflight : flight s = [])
      (hcount : a.response.count = (carried + buf.length) % 2 ^ 16)
      (hstatus : a.response.status = 0)
  | failed (hpc : s.pc = .idle) (hreturned : s.returned = some (-1))
      (hwhy : lost s = true ∨ buf = [] ∧ flight s = [])
  | returned (hpc : s.pc = .idle) (hlost : lost s = false) (hflight : flight s = [])
      (hnonempty : 0 < buf.length) (hwhole : Whole buf s.chunks)
      (hreturned : s.returned = some (reply ((carried + buf.length) % 2 ^ 16)))

/-- The invariant of a call whose chunks are accepted. -/
structure Conducted (s : Sender) : Prop where
  calm : s.sock.pendingErrno = 0
  unlocked : s.sock.closeWriter = false
  shipped : ∀ p ∈ flight s, Shipped p
  accepted : ∀ a ∈ s.ring, Accepted a
  stage : Stage buf carried s

end

/-! ## Steps of the call -/

variable {buf : List Byte} {carried : Nat} {s : Sender}

theorem result_of_failure {c : SendCall} (h : c.response = {}) :
    { c with rc := -1 }.result = -1 := by
  simp [SendCall.result, h]

/-- A write that is turned down. -/
theorem Conducted.refused (hs : Conducted buf carried s) {c : SendCall}
    (hresponse : c.response = {}) {k : SockInst} (hcalm : k.pendingErrno = 0)
    (hunlocked : k.closeWriter = false) (hk : refusing k = true) :
    Conducted buf carried ({ s with sock := k }.failure c.arrange) := by
  obtain ⟨-, -, hshipped, haccepted, -⟩ := hs
  have hlost : ∀ t : Sender, t.sock = k → lost t = true := by
    intro t ht
    rw [lost, ht, hk, Bool.true_or]
  rw [Sender.failure]
  cases hfinal : c.arrange.final with
  | true =>
      rw [if_pos rfl]
      refine ⟨hcalm, hunlocked, hshipped, haccepted, .failed rfl ?_ (.inl (hlost _ rfl))⟩
      exact congrArg some (result_of_failure (c := c.arrange) hresponse)
  | false =>
      rw [if_neg (by decide)]
      exact ⟨hcalm, hunlocked, hshipped, haccepted, .failing _ rfl rfl hresponse hk⟩

theorem sendPayload_request (c : SendCall) :
    Ins.sendPayload c.request = (c.buf.drop c.totSent).take c.chunksz := by
  simp [Ins.sendPayload, SendCall.request, List.take_take]

theorem length_sendPayload_request (c : SendCall) :
    (Ins.sendPayload c.request).length = c.chunksz := by
  rw [sendPayload_request, List.length_take, List.length_drop]
  exact Nat.min_eq_left (Nat.min_le_right _ _)

theorem has_init_arrange (c : SendCall) : c.arrange.flags.has MtFlags.batchSendInit =
    (decide (c.totSent = 0) && c.flags.has MtFlags.batchSendInit) := by
  have hfini : MtFlags.batchSendFini.has MtFlags.batchSendInit = false := by decide
  have hawaits : MtFlags.pvmCallerAwaitsResponse.has MtFlags.batchSendInit = false := by decide
  have hcut : (c.flags &&& ~~~MtFlags.batchSendInit).has MtFlags.batchSendInit = false :=
    MtFlags.has_and_not_of_covered _ (by decide)
  rcases Nat.eq_zero_or_pos c.totSent with hzero | hpos
  · simp only [SendCall.arrange, hzero]
    cases c.isLast <;> cases c.final <;> simp [hfini, hawaits]
  · simp only [SendCall.arrange, hpos, if_true, hpos.ne', decide_false, Bool.false_and]
    cases c.isLast <;> cases c.final <;> simp [hfini, hawaits, hcut]

theorem has_closed_arrange (c : SendCall) : c.arrange.flags.has MtFlags.remoteClosed =
    c.flags.has MtFlags.remoteClosed := by
  have hfini : MtFlags.batchSendFini.has MtFlags.remoteClosed = false := by decide
  have hawaits : MtFlags.pvmCallerAwaitsResponse.has MtFlags.remoteClosed = false := by decide
  rw [has_arrange c (by decide), hfini, hawaits]
  simp

theorem final_arrange {c : SendCall} (h : c.final = false) : c.arrange.final = c.isLast := by
  simp [SendCall.arrange, h]

/-- What publishing a chunk does to the messages and the accounts. -/
structure Published (s s' : Sender) (r : MtRequest) : Prop where
  flight : flight s' = flight s ++ [⟨s.calls, r, true⟩]
  chunks : s'.chunks = s.chunks ++ [r]
  opened : batchOpen s'.sock = true
  carry : carry s'.sock = carry s.sock
  promised : promised s' = promised s + (Ins.sendPayload r).length
  lost : lost s' = lost s
  link : SameLink s.sock s'.sock
  errno : s'.sock.pendingErrno = s.sock.pendingErrno

theorem published (s : Sender) (req : MtRequest) (htype : req.type = .socketSend)
    (hbatch : req.flags.has MtFlags.batchSend = true) :
    Published s (publish s req true) (stamped s req) := by
  obtain ⟨hopen, htally, herrno⟩ := preProcess_batch s.sock s.nextId
    (stamped s req) htype hbatch
  have hlink := sameLink_preProcess s.sock s.nextId (stamped s req) htype
  refine ⟨by simp [flight, publish], rfl, hopen, ?_, ?_, ?_, hlink, herrno⟩
  · exact (if_pos hopen).trans htally
  · simp [promised, publish, Nat.add_assoc]
  · exact congrArg (· || _) hlink.refusing_eq

/-- The next chunk is published: the loop goes on, or `send` waits. -/
theorem Conducted.publish (hs : Conducted buf carried s) {c : SendCall} (hfinal : c.final = false)
    (hmid : Midway buf carried s c) (halive : s.sock.insAlive = true) :
    Conducted buf carried (if c.arrange.final
      then { Shim.publish s c.arrange.request true with pc := .wait c.arrange }
      else (Shim.publish s c.arrange.request true).settle c.arrange.advance) := by
  let r := stamped s c.arrange.request
  let s' := Shim.publish s c.arrange.request true
  have hpub : Published s s' r := published s _ rfl hmid.head.arrange_batch
  have hpayload : Ins.sendPayload r = (buf.drop c.totSent).take c.chunksz := by
    rw [← hmid.source]
    exact sendPayload_request c.arrange
  have hlength : (Ins.sendPayload r).length = c.chunksz := length_sendPayload_request c.arrange
  have hfini : fini r = c.isLast := hmid.head.arrange_fini
  have hwaits : r.callerWaits = c.isLast := hmid.head.arrange_awaits.trans (final_arrange hfinal)
  have hinit : r.flags.has MtFlags.batchSendInit = true ↔ s.chunks = [] := by
    rw [hmid.start, show r.flags = c.arrange.flags from rfl, has_init_arrange]
    simp only [Bool.and_eq_true, decide_eq_true_eq]
    exact ⟨fun h => h.1, fun h => ⟨h, hmid.init h⟩⟩
  have hcut : Cut buf s'.chunks (c.totSent + c.chunksz) := by
    rw [hpub.chunks]
    exact hmid.cut.snoc hpayload (Nat.min_le_left _ _) hinit
  have haccount : carry s'.sock + promised s' = carried + (c.totSent + c.chunksz) := by
    rw [hpub.carry, hpub.promised, hlength, ← Nat.add_assoc, hmid.account, Nat.add_assoc]
  have hclosed : r.flags.has MtFlags.remoteClosed = false :=
    (has_closed_arrange c).trans hmid.clean
  have hshipped : ∀ p ∈ flight s', Shipped p := by
    rw [hpub.flight]
    intro p hp
    rcases List.mem_append.mp hp with hp | hp
    · exact hs.shipped p hp
    · rw [List.mem_singleton.mp hp]
      exact ⟨rfl, rfl, hmid.head.arrange_batch, hclosed, hwaits.trans hfini.symm⟩
  have hcalm : s'.sock.pendingErrno = 0 := hpub.errno.trans hs.calm
  have hunlocked : s'.sock.closeWriter = false := hpub.link.unlocked.trans hs.unlocked
  rw [final_arrange hfinal]
  cases hlast : c.isLast with
  | true =>
      -- The payload is published whole, and `send` waits for the response to this chunk.
      have hend : c.totSent + c.chunksz = buf.length := by
        rw [← hmid.source]
        exact (beq_iff_eq.mp hlast).symm
      have hmore : 0 < buf.length := by
        rw [← hmid.source]
        exact Nat.zero_lt_of_lt hmid.head.more
      have hwhole : Whole buf s'.chunks := by
        rw [hend, hpub.chunks] at hcut
        rw [hpub.chunks]
        exact hcut.whole hmid.unfinished (hfini.trans hlast) (hwaits.trans hlast)
      rw [hend] at haccount
      rw [if_pos rfl]
      refine ⟨hcalm, hunlocked, hshipped, hs.accepted, .waiting c.arrange rfl hmid.quiet ?_
        hpub.opened haccount _ _ hpub.flight hmid.awaited (hwaits.trans hlast)⟩
      exact ⟨hpub.link.alive.trans halive, hmid.response, by rw [final_arrange hfinal, hlast], hlast,
        hmore, hwhole⟩
  | false =>
      -- The loop goes on from the next byte, and nobody waits for a response.
      have hnext := hmid.head.next ((final_arrange hfinal).trans hlast)
      have hpos : 0 < c.chunksz :=
        lt_min (by decide) (Nat.sub_pos_of_lt hmid.head.more)
      have hunfinished : ∀ x ∈ s'.chunks, fini x = false ∧ x.callerWaits = false := by
        rw [hpub.chunks]
        intro x hx
        rcases List.mem_append.mp hx with hx | hx
        · exact hmid.unfinished x hx
        · rw [List.mem_singleton.mp hx]
          exact ⟨hfini.trans hlast, hwaits.trans hlast⟩
      have hawaited : NoneAwaited s' := by
        rw [NoneAwaited, hpub.flight]
        intro p hp
        rcases List.mem_append.mp hp with hp | hp
        · exact hmid.awaited p hp
        · rw [List.mem_singleton.mp hp]
          exact hwaits.trans hlast
      have hchunks : s'.chunks ≠ [] := by
        rw [hpub.chunks]
        exact List.append_ne_nil_of_right_ne_nil _ (List.cons_ne_nil _ _)
      have htot : c.totSent + c.chunksz ≠ 0 := by omega
      rw [if_neg (by decide), Sender.settle_more _ hnext.more]
      refine ⟨hcalm, hunlocked, hshipped, hs.accepted, .sending c.arrange.advance rfl ?_ ?_⟩
      · exact (final_arrange hfinal).trans hlast
      · exact ⟨hmid.source, hmid.response, hnext, hcut, hunfinished,
          ⟨fun h => absurd h hchunks, fun h => absurd h htot⟩, fun h => absurd h htot,
          (has_closed_arrange c).trans hmid.clean, hmid.quiet, hawaited,
          fun _ => hpub.opened, haccount⟩

theorem lost_settle (s : Sender) (c : SendCall) : lost (s.settle c) = lost s := by
  rw [Sender.settle]
  split <;> rfl

theorem Conducted.write (hs : Conducted buf carried s) {c : SendCall} (hpc : s.pc = .loop c) :
    Conducted buf carried (s.writeStep c .granted) ∧ lost (s.writeStep c .granted) = lost s := by
  have hresponse : c.response = {} := by
    rcases hs.stage with ⟨c', hpc', -, hmid⟩ | ⟨c', hpc', -, hresponse, -⟩ | ⟨c', hpc', -⟩ |
      ⟨c', a, hpc', -⟩ | ⟨hpc', -⟩ | ⟨hpc', -⟩ <;> rw [hpc] at hpc' <;> cases hpc'
    · exact hmid.response
    · exact hresponse
  rw [Sender.writeStep, mwsocketWrite]
  rcases writeRefusal_granted hs.calm with ⟨hrefusing, rc, hrc, hwrite⟩ | ⟨hrefusing, hwrite⟩
  · simp only [hwrite, if_pos hrc]
    refine ⟨hs.refused hresponse hs.calm hs.unlocked hrefusing, ?_⟩
    rw [Sender.failure]
    split <;> rfl
  · have halive : s.sock.insAlive = true := by
      by_contra hdead
      simp [refusing, hdead] at hrefusing
    rcases hs.stage with ⟨c', hpc', hfinal, hmid⟩ | ⟨c', hpc', -, -, hset⟩ | ⟨c', hpc', -⟩ |
      ⟨c', a, hpc', -⟩ | ⟨hpc', -⟩ | ⟨hpc', -⟩ <;> rw [hpc] at hpc' <;> cases hpc'
    · simp only [hwrite]
      refine ⟨hs.publish hfinal hmid halive, ?_⟩
      have hlost := (published s c.arrange.request rfl hmid.head.arrange_batch).lost
      cases c.arrange.final with
      | true => exact hlost
      | false => exact (lost_settle _ _).trans hlost
    · rw [hrefusing] at hset
      cases hset

/-- The worker takes a whole chunk. -/
theorem Conducted.serve (hs : Conducted buf carried s) {p : Sent} {rest : List Sent}
    (hp : s.pending = p :: rest) (closed : Bool) (report : Nat → Nat) :
    let s' : Sender := { s with
      pending := rest
      ring := s.ring ++ [⟨p, workerResponse p.request (Ins.sendPayload p.request).length 0 closed⟩]
      report := report }
    Conducted buf carried s' ∧ lost s' = (lost s || closed) := by
  intro s'
  let a : Answered := ⟨p, workerResponse p.request (Ins.sendPayload p.request).length 0 closed⟩
  have hflight : flight s' = flight s := by simp [flight, s', hp]
  have hshipped := hs.shipped p (by simp [flight, hp])
  have hpromised : promised s' = promised s := by
    simp only [promised, s', hp, List.map_append, List.map_cons, List.map_nil, List.sum_append,
      List.sum_cons, List.sum_nil, workerResponse, Ins.xeNetSetBaseResponse]
    omega
  have haccepted : Accepted a := by
    refine ⟨?_, rfl, ?_, ?_⟩
    · simp [a, workerResponse, Ins.xeNetSetBaseResponse, hshipped.type]
    · simp [a, workerResponse, hshipped.batch]
    · cases closed <;> simp [a, workerResponse, fini,
        (by decide : MtFlags.remoteClosed.has MtFlags.batchSendFini = false)]
  have hlost : lost s' = (lost s || closed) := by
    have hflag : a.response.flags.has MtFlags.remoteClosed = closed := by
      cases closed <;> simp [a, workerResponse, hshipped.clean,
        (by decide : MtFlags.remoteClosed.has MtFlags.remoteClosed = true)]
    rw [lost, lost, List.any_append, ← Bool.or_assoc]
    simp [a, hflag, s']
  have hnonempty : flight s ≠ [] := by simp [flight, hp]
  refine ⟨⟨hs.calm, hs.unlocked, ?_, ?_, ?_⟩, hlost⟩
  · rw [hflight]
    exact hs.shipped
  · intro b hb
    rcases List.mem_append.mp hb with hb | hb
    · exact hs.accepted b hb
    · rw [List.mem_singleton.mp hb]
      exact haccepted
  · rcases hs.stage with ⟨c, hpc, hfinal, hmid⟩ | ⟨c, hpc, hfinal, hresponse, hrefusing⟩ |
      ⟨c, hpc, hnone, hdone, hopen, haccount, front, q, hfl, hfront, hwaits⟩ |
      ⟨c, b, hpc, hsome, hdone, hempty, hcount, hstatus⟩ | ⟨hpc, hreturned, hwhy⟩ |
      ⟨hpc, hnot, hempty, -, hwhole, hreturned⟩
    · refine .sending c hpc hfinal ⟨hmid.source, hmid.response, hmid.head, hmid.cut,
        hmid.unfinished, hmid.start, hmid.init, hmid.clean, hmid.quiet, ?_, ?_, ?_⟩
      · rw [NoneAwaited, hflight]
        exact hmid.awaited
      · rw [hflight]
        exact hmid.opened
      · rw [hpromised]
        exact hmid.account
    · exact .failing c hpc hfinal hresponse hrefusing
    · exact .waiting c hpc hnone ⟨hdone.1, hdone.2, hdone.3, hdone.4, hdone.5, hdone.6⟩ hopen
        (by rw [hpromised]; exact haccount) front q (hflight.trans hfl) hfront hwaits
    · exact absurd hempty hnonempty
    · rcases hwhy with hwhy | ⟨-, hempty⟩
      · exact .failed hpc hreturned (.inl (by rw [hlost, hwhy, Bool.true_or]))
      · exact absurd hempty hnonempty
    · exact absurd hempty hnonempty

/-- A response that is consumed: the connection, the accounts of a chunk that is
not final, and the count of the final one. -/
structure Consumed (s s' : Sender) (a : Answered) : Prop where
  flight : flight s = a.sent :: flight s'
  errno : s'.sock.pendingErrno = s.sock.pendingErrno
  alive : s'.sock.insAlive = s.sock.insAlive
  unlocked : s'.sock.closeWriter = s.sock.closeWriter
  lost : lost s' = lost s
  refusing : refusing s.sock = true → refusing s'.sock = true
  tallied : fini a.sent.request = false → batchOpen s.sock = true →
    batchOpen s'.sock = true ∧ carry s'.sock + promised s' = carry s.sock + promised s
  final : fini a.sent.request = true → batchOpen s.sock = true → Shim.flight s' = [] →
    (postprocSend s.sock a).2.count = (carry s.sock + promised s) % 2 ^ 16

theorem consumed {a : Answered} {rest : List Answered} (hring : s.ring = a :: rest)
    (ha : Accepted a) {s' : Sender} (hsock : s'.sock = (postprocSend s.sock a).1)
    (hrest : s'.ring = rest) (hpending : s'.pending = s.pending) : Consumed s s' a := by
  obtain ⟨heffect, herrno⟩ := postprocSend_effect s.sock ha.type
  obtain ⟨halive, hunlocked, hrefusing, -⟩ := postprocSend_connection s.sock ha.type
  have hpromised : promised s = a.response.count + promised s' := by
    simp [promised, hring, hrest, hpending, Nat.add_assoc]
  refine ⟨?_, ?_, ?_, ?_, ?_, ?_, ?_, ?_⟩
  · simp [flight, hring, hrest, hpending]
  · rw [hsock, herrno]
  · rw [hsock, halive]
  · rw [hsock, hunlocked]
  · rw [lost, lost, hsock, hrefusing, hring, hrest, List.any_cons, Bool.or_assoc]
  · intro h
    rw [hsock, hrefusing, h, Bool.true_or]
  · intro hfini hopen
    rcases heffect with ⟨hset, -, -⟩ | ⟨-, -, hstays, htally, -⟩ | ⟨-, hbatch, -⟩
    · rw [ha.fini, hfini] at hset
      cases hset
    · have hopen' : batchOpen s'.sock = true := by rw [hsock, hstays, hopen]
      refine ⟨hopen', ?_⟩
      rw [carry, carry, if_pos hopen', if_pos hopen, hsock, htally, hpromised]
      omega
    · rw [ha.batch] at hbatch
      cases hbatch
  · intro hfini hopen hempty
    have hzero : promised s' = 0 := by
      obtain ⟨hr, hp⟩ := List.append_eq_nil_iff.mp hempty
      rw [promised, hp, List.map_eq_nil_iff.mp hr]
      rfl
    rcases heffect with ⟨-, -, hresp⟩ | ⟨hset, -⟩ | ⟨hset, -⟩
    · rw [hresp, carry, if_pos hopen, hpromised, hzero]
      simp only [Nat.add_zero]
      rw [Nat.add_comm]
    · rw [ha.fini, hfini] at hset
      cases hset
    · rw [ha.fini, hfini] at hset
      cases hset

/-- The consumer takes the oldest response. -/
theorem Conducted.consume (hs : Conducted buf carried s) {a : Answered} {rest : List Answered}
    (hring : s.ring = a :: rest) :
    Conducted buf carried (s.consumeStep a rest) ∧ lost (s.consumeStep a rest) = lost s := by
  have ha : Accepted a := hs.accepted a (by simp [hring])
  have hmem : a.sent ∈ flight s := by simp [flight, hring]
  have hsent : Shipped a.sent := hs.shipped _ hmem
  have hnonempty : flight s ≠ [] := List.ne_nil_of_mem hmem
  let s' : Sender := { s with
      sock := (postprocSend s.sock a).1
      ring := rest
      delivered := if a.sent.request.callerWaits
        then some { a with response := (postprocSend s.sock a).2 } else s.delivered }
  have hstep : s.consumeStep a rest = s' := by
    rw [Sender.consumeStep, if_pos hsent.live]
  rw [hstep]
  have hcon : Consumed s s' a := consumed hring ha rfl rfl rfl
  have hunawaited : a.sent.request.callerWaits = false →
      s'.delivered = s.delivered ∧ fini a.sent.request = false := by
    intro h
    exact ⟨if_neg (by simp [h]), hsent.awaited.symm.trans h⟩
  refine ⟨⟨hcon.errno.trans hs.calm, hcon.unlocked.trans hs.unlocked, ?_, ?_, ?_⟩, hcon.lost⟩
  · intro p hp
    exact hs.shipped p (hcon.flight ▸ List.mem_cons_of_mem _ hp)
  · intro b hb
    exact hs.accepted b (hring ▸ List.mem_cons_of_mem _ hb)
  · rcases hs.stage with ⟨c, hpc, hfinal, hmid⟩ | ⟨c, hpc, hfinal, hresponse, hrefusing⟩ |
      ⟨c, hpc, hnone, hdone, hopen, haccount, front, q, hfl, hfront, hwaits⟩ |
      ⟨c, b, hpc, hsome, hdone, hempty, hcount, hstatus⟩ | ⟨hpc, hreturned, hwhy⟩ |
      ⟨hpc, hnot, hempty, -, hwhole, hreturned⟩
    · obtain ⟨hdelivered, hfini⟩ := hunawaited (hmid.awaited _ hmem)
      obtain ⟨hopen, haccount⟩ := hcon.tallied hfini (hmid.opened hnonempty)
      refine .sending c hpc hfinal ⟨hmid.source, hmid.response, hmid.head, hmid.cut,
        hmid.unfinished, hmid.start, hmid.init, hmid.clean, hdelivered.trans hmid.quiet, ?_,
        fun _ => hopen, haccount.trans hmid.account⟩
      intro p hp
      exact hmid.awaited p (hcon.flight ▸ List.mem_cons_of_mem _ hp)
    · exact .failing c hpc hfinal hresponse (hcon.refusing hrefusing)
    · have hdone' : Finished buf s' c :=
        ⟨hcon.alive.trans hdone.1, hdone.2, hdone.3, hdone.4, hdone.5, hdone.6⟩
      have hsplit := hcon.flight.symm.trans hfl
      cases front with
      | nil =>
          -- The last chunk: its response closes the batch and wakes the caller.
          obtain ⟨rfl, hempty⟩ := List.cons.inj hsplit
          have hcount := hcon.final (hsent.awaited.symm.trans hwaits) hopen hempty
          rw [haccount] at hcount
          refine .reading c _ hpc (if_pos hwaits) hdone' hempty hcount ?_
          exact (postprocSend_connection s.sock ha.type).2.2.2.trans ha.status
      | cons p front =>
          obtain ⟨rfl, hrest⟩ := List.cons.inj hsplit
          obtain ⟨hdelivered, hfini⟩ := hunawaited (hfront _ List.mem_cons_self)
          obtain ⟨hopen', haccount'⟩ := hcon.tallied hfini hopen
          exact .waiting c hpc (hdelivered.trans hnone) hdone' hopen' (haccount'.trans haccount)
            front q hrest (fun x hx => hfront x (List.mem_cons_of_mem _ hx)) hwaits
    · exact absurd hempty hnonempty
    · rcases hwhy with hwhy | ⟨-, hempty⟩
      · exact .failed hpc hreturned (.inl (hcon.lost.trans hwhy))
      · exact absurd hempty hnonempty
    · exact absurd hempty hnonempty

/-- The caller reads the final response. -/
theorem Conducted.read (hs : Conducted buf carried s) {c : SendCall} (hpc : s.pc = .wait c)
    {a : Answered} (hsome : s.delivered = some a) :
    Conducted buf carried (s.readStep c a) ∧ lost (s.readStep c a) = lost s := by
  rcases hs.stage with ⟨c', hpc', -⟩ | ⟨c', hpc', -⟩ | ⟨c', -, hnone, -⟩ |
      ⟨c', b, hpc', hsome', hdone, hempty, hcount, hstatus⟩ | ⟨hpc', -⟩ | ⟨hpc', -⟩
  · rw [hpc] at hpc'
    cases hpc'
  · rw [hpc] at hpc'
    cases hpc'
  · rw [hsome] at hnone
    cases hnone
  · rw [hpc] at hpc'
    cases hpc'
    rw [hsome] at hsome'
    cases hsome'
    have hring : s.ring = [] := List.map_eq_nil_iff.mp (List.append_eq_nil_iff.mp hempty).1
    have hlost : lost s = s.sock.remoteSurpriseClose := by
      rw [lost, hring, refusing, hdone.alive]
      simp
    rw [Sender.readStep, pendingError_of_calm hs.calm]
    cases hclose : s.sock.remoteSurpriseClose with
    | true =>
        -- The error is not noticed, and no byte of the call is counted.
        have hsum : c.advance.result = -1 := by
          rw [SendCall.result, show c.advance.response = {} from hdone.response]
          rfl
        have herr : (-mwErrorRemoteSurpriseClose : Int) ≠ 0 := by decide
        simp only [if_true, herr, ne_eq, not_false_eq_true, false_and, if_false]
        rw [hdone.response, if_neg (by decide), Sender.settle_done _ (chunk_last hdone.last)]
        exact ⟨⟨hs.calm, hs.unlocked, hs.shipped, hs.accepted,
          .failed rfl (congrArg some hsum) (.inl (hlost.trans hclose))⟩, rfl⟩
    | false =>
        have hreply : { c with response := a.response }.advance.result =
            reply ((carried + buf.length) % 2 ^ 16) := by
          rw [← hcount]
          rfl
        simp only [hstatus, Bool.false_eq_true, if_false, ne_eq, not_true_eq_false]
        rw [Sender.settle_done _ (chunk_last (c := { c with response := a.response }) hdone.last)]
        exact ⟨⟨hs.calm, hs.unlocked, hs.shipped, hs.accepted, .returned rfl
          (hlost.trans hclose) hempty hdone.nonempty hdone.whole (congrArg some hreply)⟩, rfl⟩
  · rw [hpc] at hpc'
    cases hpc'
  · rw [hpc] at hpc'
    cases hpc'

/-- One step of the call. -/
theorem Conducted.step (hs : Conducted buf carried s) {e : SendEvent} {s' : Sender}
    (hG : accepting s e) (hstep : Sender.step s e = some s') :
    Conducted buf carried s' ∧ lost s' = (lost s || closes e) := by
  cases e with
  | call buf opFlags => exact hG.elim
  | write w =>
      obtain rfl : w = .granted := hG
      simp only [Sender.step] at hstep
      split at hstep
      · rename_i c hpc
        split_ifs at hstep
        cases hstep
        simp only [closes, Bool.or_false]
        exact hs.write hpc
      · cases hstep
  | serve count status closed =>
      obtain ⟨rfl, hcount⟩ := hG
      simp only [Sender.step] at hstep
      split at hstep
      · cases hstep
      · rename_i p rest hp
        rw [hp] at hcount
        obtain rfl := hcount p rfl
        rw [if_pos le_rfl] at hstep
        cases hstep
        exact hs.serve hp closed _
  | dispatchError k stale => exact hG.elim
  | consume =>
      simp only [Sender.step] at hstep
      split at hstep
      · cases hstep
      · rename_i a rest hring
        cases hstep
        simp only [closes, Bool.or_false]
        exact hs.consume hring
  | read =>
      simp only [Sender.step] at hstep
      split at hstep
      · rename_i c a hpc ha
        cases hstep
        simp only [closes, Bool.or_false]
        exact hs.read hpc ha
      · cases hstep

/-! ## Whole calls -/

theorem conducted_start {sock : SockInst} (hcalm : sock.pendingErrno = 0)
    (hunlocked : sock.closeWriter = false) (buf : List Byte) (opFlags : MtFlags) {s : Sender}
    (hstep : (sender sock).step (sender sock).init (.call buf opFlags) = some s) :
    Conducted buf (carry sock) s ∧ lost s = refusing sock := by
  obtain rfl := Option.some.inj hstep
  have hnone : ∀ p ∈ ([] : List Sent), Shipped p := fun p hp => absurd hp List.not_mem_nil
  have hring : ∀ a ∈ ([] : List Answered), Accepted a := fun a ha => absurd ha List.not_mem_nil
  refine ⟨?_, (lost_settle _ _).trans (Bool.or_false _)⟩
  by_cases hmore : 0 < buf.length
  · rw [Sender.settle_more _ hmore]
    refine ⟨hcalm, hunlocked, hnone, hring, .sending _ rfl rfl ?_⟩
    refine ⟨rfl, rfl, atHead_start opFlags hmore, ⟨rfl, ?_, ?_⟩, ?_, ⟨fun _ => rfl, fun _ => rfl⟩,
      fun _ => ?_, ?_, rfl, ?_, fun h => absurd rfl h, rfl⟩
    · exact fun r hr => absurd hr List.not_mem_nil
    · exact fun i r hr => absurd (List.mem_of_getElem? hr) List.not_mem_nil
    · exact fun r hr => absurd hr List.not_mem_nil
    · exact (by decide : (MtFlags.batchSendInit ||| MtFlags.batchSend).has
        MtFlags.batchSendInit = true)
    · exact (by decide : (MtFlags.batchSendInit ||| MtFlags.batchSend).has
        MtFlags.remoteClosed = false)
    · exact fun p hp => absurd hp List.not_mem_nil
  · have hempty : buf = [] := List.length_eq_zero_iff.mp (by omega)
    rw [Sender.settle_done _ hmore]
    exact ⟨hcalm, hunlocked, hnone, hring, .failed rfl rfl (.inr ⟨hempty, rfl⟩)⟩

theorem AcceptedRun.conducted {sock : SockInst} {opFlags : MtFlags} {es : List SendEvent}
    (hcalm : sock.pendingErrno = 0) (hunlocked : sock.closeWriter = false)
    (h : AcceptedRun sock buf opFlags es s) :
    Conducted buf (carry sock) s ∧ lost s = (refusing sock || es.any closes) := by
  obtain ⟨s₀, hcall, hG, hrun⟩ := h
  obtain ⟨hstart, hlost⟩ := conducted_start hcalm hunlocked buf opFlags hcall
  refine (sender sock).guardedFrom_history
    (I := fun past s => Conducted buf (carry sock) s ∧ lost s = (refusing sock || past.any closes))
    ?_ [] hG hrun ⟨hstart, by simpa using hlost⟩
  intro past s e s' hG hstep hs
  obtain ⟨hs', hlost'⟩ := hs.1.step hG hstep
  refine ⟨hs', ?_⟩
  rw [hlost', hs.2, List.any_append, Bool.or_assoc]
  simp

/-- The steps that are left, at most. -/
def workLeft (s : Sender) : Nat :=
  (match s.pc with
    | .idle => 0
    | .loop c => 4 * (c.buf.length - c.totSent) + if c.final then 1 else 2
    | .wait _ => 1) + 2 * s.pending.length + s.ring.length

theorem workLeft_loop {c : SendCall} (hpc : s.pc = .loop c) : workLeft s =
    4 * (c.buf.length - c.totSent) + (if c.final then 1 else 2) + 2 * s.pending.length +
      s.ring.length := by
  rw [workLeft, hpc]

/-- A write is turned down for the first time, or the call ends. -/
theorem workLeft_failure {c : SendCall} (hpc : s.pc = .loop c) (k : SockInst) :
    workLeft ({ s with sock := k }.failure c.arrange) < workLeft s := by
  rw [workLeft_loop hpc, Sender.failure]
  cases hfinal : c.arrange.final with
  | true =>
      simp only [if_true, workLeft, Sender.finish]
      split_ifs <;> omega
  | false =>
      have hold : c.final = false := by
        simp only [SendCall.arrange, Bool.or_eq_false_iff] at hfinal
        exact hfinal.1
      have hbuf : c.arrange.buf = c.buf := rfl
      have htot : c.arrange.totSent = c.totSent := rfl
      simp only [Bool.false_eq_true, if_false, if_true, workLeft, hold, hbuf, htot]
      omega

theorem workLeft_publish {c : SendCall} (hpc : s.pc = .loop c) (hfinal : c.final = false)
    (hhead : AtHead c) :
    workLeft (if c.arrange.final
      then { Shim.publish s c.arrange.request true with pc := .wait c.arrange }
      else (Shim.publish s c.arrange.request true).settle c.arrange.advance) < workLeft s := by
  have hmore := hhead.more
  have hpos : 0 < c.chunksz := lt_min (by decide) (Nat.sub_pos_of_lt hmore)
  rw [workLeft_loop hpc, hfinal, final_arrange hfinal]
  cases hlast : c.isLast with
  | true =>
      simp only [if_true, workLeft, Shim.publish, List.length_append, List.length_singleton]
      simp only [Bool.false_eq_true, if_false]
      omega
  | false =>
      have hnext := hhead.next ((final_arrange hfinal).trans hlast)
      have hlength : c.arrange.advance.buf.length = c.buf.length := rfl
      have htot : c.arrange.advance.totSent = c.totSent + c.chunksz := rfl
      simp only [Bool.false_eq_true, if_false]
      rw [Sender.settle_more _ hnext.more, workLeft]
      simp only [Shim.publish, List.length_append, List.length_singleton, hlength, htot]
      split_ifs <;> omega

theorem workLeft_read {c : SendCall} (hpc : s.pc = .wait c) (hfinal : c.final = true)
    (hlast : c.isLast = true) (a : Answered) : workLeft (s.readStep c a) < workLeft s := by
  have hfinish : ∀ (t : Sender) (c : SendCall), t.pending = s.pending → t.ring = s.ring →
      workLeft (t.finish c) < workLeft s := by
    intro t c hp hr
    simp only [workLeft, Sender.finish, hpc, hp, hr]
    omega
  have hfinal' : { c with response := a.response }.final = true := hfinal
  have hdone := chunk_last (c := { c with response := a.response }) hlast
  rw [Sender.readStep]
  by_cases hrc : (mwsocketPendingError s.sock .socketSend).1 = 0
  · simp only [hrc, ne_eq, not_true_eq_false, if_false, Sender.failure_final _ hfinal',
      Sender.settle_done _ hdone]
    split <;> exact hfinish _ _ rfl rfl
  · simp only [hrc, ne_eq, not_false_eq_true, if_true, Sender.failure_final _ hfinal,
      Sender.settle_done _ (chunk_last hlast)]
    split <;> exact hfinish _ _ rfl rfl

theorem workLeft_write (hs : Conducted buf carried s) {c : SendCall} (hpc : s.pc = .loop c) :
    workLeft (s.writeStep c .granted) < workLeft s := by
  rw [Sender.writeStep, mwsocketWrite]
  rcases writeRefusal_granted hs.calm with ⟨hrefusing, rc, hrc, hwrite⟩ | ⟨hrefusing, hwrite⟩
  · simp only [hwrite, if_pos hrc]
    exact workLeft_failure hpc _
  · rcases hs.stage with ⟨c', hpc', hfinal, hmid⟩ | ⟨c', hpc', -, -, hset⟩ | ⟨c', hpc', -⟩ |
      ⟨c', a, hpc', -⟩ | ⟨hpc', -⟩ | ⟨hpc', -⟩ <;> rw [hpc] at hpc' <;> cases hpc'
    · simp only [hwrite]
      exact workLeft_publish hpc hfinal hmid.head
    · rw [hrefusing] at hset
      cases hset

/-- As long as the call goes on, there is a step to take. -/
theorem Conducted.progress (hs : Conducted buf carried s) (hpc : s.pc ≠ .idle) :
    ∃ e s', accepting s e ∧ Sender.step s e = some s' ∧ workLeft s' < workLeft s := by
  have hwrite : ∀ c, s.pc = .loop c →
      Sender.step s (.write .granted) = some (s.writeStep c .granted) := by
    intro c hc
    simp [Sender.step, hc, hs.unlocked]
  rcases hs.stage with ⟨c, hc, -⟩ | ⟨c, hc, -⟩ | ⟨c, hc, -, -, -, -, front, q, hflight, -⟩ |
      ⟨c, a, hc, hsome, hdone, -⟩ | ⟨hc, -⟩ | ⟨hc, -⟩
  · exact ⟨.write .granted, _, rfl, hwrite c hc, workLeft_write hs hc⟩
  · exact ⟨.write .granted, _, rfl, hwrite c hc, workLeft_write hs hc⟩
  · cases hring : s.ring with
    | cons a rest =>
        have hmem : a.sent ∈ flight s := by simp [flight, hring]
        refine ⟨.consume, s.consumeStep a rest, trivial, by simp [Sender.step, hring], ?_⟩
        simp [workLeft, Sender.consumeStep, (hs.shipped _ hmem).live, hring, hc]
    | nil =>
        cases hp : s.pending with
        | nil => simp [flight, hring, hp] at hflight
        | cons p rest =>
            let a : Answered :=
              ⟨p, workerResponse p.request (Ins.sendPayload p.request).length 0 false⟩
            let s' : Sender := { s with
              pending := rest
              ring := s.ring ++ [a]
              report := Function.update s.report p.call
                (s.report p.call + (Ins.sendPayload p.request).length) }
            refine ⟨.serve (Ins.sendPayload p.request).length 0 false, s', ⟨rfl, ?_⟩, ?_, ?_⟩
            · simp [hp]
            · simp [Sender.step, hp, s', a]
            · simp only [workLeft, hp, hring, s', hc, List.nil_append, List.length_cons,
                List.length_nil]
              omega
  · exact ⟨.read, s.readStep c a, trivial, by simp [Sender.step, hc, hsome],
      workLeft_read hc hdone.final hdone.last a⟩
  · exact absurd hc hpc
  · exact absurd hc hpc

/-- An accepted call can always be brought to its end. -/
theorem Conducted.completes (sock : SockInst) (hs : Conducted buf carried s) :
    ∃ es t, (sender sock).GuardedFrom accepting s es ∧ (sender sock).runFrom s es = some t ∧
      t.pc = .idle := by
  induction hn : workLeft s using Nat.strong_induction_on generalizing s with
  | _ n ih =>
      by_cases hpc : s.pc = .idle
      · exact ⟨[], s, trivial, rfl, hpc⟩
      · obtain ⟨e, s', hG, hstep, hlt⟩ := hs.progress hpc
        obtain ⟨es, t, hGs, hrun, hidle⟩ := ih _ (hn ▸ hlt) (hs.step hG hstep).1 rfl
        have hstep' : (sender sock).step s e = some s' := hstep
        refine ⟨e :: es, t, ⟨hG, fun u hu => ?_⟩, ?_, hidle⟩
        · rw [hstep'] at hu
          cases hu
          exact hGs
        · rw [System.runFrom_cons, hstep']
          exact hrun

theorem reply_eq_iff {carried n : Nat} (hpos : 0 < n) :
    reply ((carried + n) % 2 ^ 16) = n ↔ n < 2 ^ 16 ∧ carried % 2 ^ 16 = 0 := by
  rcases Nat.eq_zero_or_pos ((carried + n) % 2 ^ 16) with hzero | hcount
  · rw [hzero, reply, if_neg (lt_irrefl 0)]
    constructor
    · intro heq
      omega
    · rintro ⟨hlt, hcarried⟩
      rw [Nat.add_mod, hcarried, Nat.zero_add, Nat.mod_mod, Nat.mod_eq_of_lt hlt] at hzero
      omega
  · rw [reply, if_pos hcount, Int.natCast_inj]
    omega

/-- When a call that has ended has done what it should. -/
theorem AcceptedRun.batchSent_iff {sock : SockInst} {opFlags : MtFlags} {es : List SendEvent}
    (hcalm : sock.pendingErrno = 0) (hunlocked : sock.closeWriter = false)
    (hrun : AcceptedRun sock buf opFlags es s) (hpc : s.pc = .idle) :
    BatchSent buf s ↔ (0 < buf.length ∧ buf.length < 2 ^ 16) ∧
      (sock.insAlive = true ∧ sock.remoteSurpriseClose = false ∧ ∀ e ∈ es, closes e = false) ∧
      carry sock % 2 ^ 16 = 0 := by
  obtain ⟨hs, hlost⟩ := hrun.conducted hcalm hunlocked
  have hup : lost s = false ↔
      sock.insAlive = true ∧ sock.remoteSurpriseClose = false ∧ ∀ e ∈ es, closes e = false := by
    rw [hlost, refusing]
    simp [and_assoc]
  rw [← hup]
  rcases hs.stage with ⟨c, hc, -⟩ | ⟨c, hc, -⟩ | ⟨c, hc, -⟩ | ⟨c, a, hc, -⟩ |
    ⟨-, hreturned, hwhy⟩ | ⟨-, hnot, -, hnonempty, hwhole, hreturned⟩
  · rw [hpc] at hc
    cases hc
  · rw [hpc] at hc
    cases hc
  · rw [hpc] at hc
    cases hc
  · rw [hpc] at hc
    cases hc
  · constructor
    · intro hsent
      have hlen := Option.some.inj (hreturned.symm.trans hsent.returned)
      omega
    · rintro ⟨⟨hpos, -⟩, hup, -⟩
      rcases hwhy with hwhy | ⟨rfl, -⟩
      · rw [hup] at hwhy
        cases hwhy
      · cases hpos
  · constructor
    · intro hsent
      have hlen := Option.some.inj (hreturned.symm.trans hsent.returned)
      obtain ⟨hfits, hzero⟩ := (reply_eq_iff hnonempty).mp hlen
      exact ⟨⟨hnonempty, hfits⟩, hnot, hzero⟩
    · rintro ⟨⟨-, hfits⟩, -, hzero⟩
      refine ⟨?_, hwhole.bounded, hwhole.first, hwhole.last, hwhole.awaited, ?_⟩
      · rw [hwhole.payload, List.take_length]
      · rw [hreturned, (reply_eq_iff hnonempty).mpr ⟨hfits, hzero⟩]

/-- What a call of `send` gives when the driver takes and the INS sends every
chunk: it comes to its end, and it has cut the buffer as it should and returns
its length exactly if the length is positive and fits in 16 bits, the connection
is up and stays up, and no tally is left over from another batch. -/
theorem send_end_to_end {sock : SockInst} (hcalm : sock.pendingErrno = 0)
    (hunlocked : sock.closeWriter = false) (buf : List Byte) (opFlags : MtFlags) :
    (∀ es s, AcceptedRun sock buf opFlags es s → ∃ fs t,
      (sender sock).GuardedFrom accepting s fs ∧ (sender sock).runFrom s fs = some t ∧
        t.pc = .idle) ∧
    ∀ es s, AcceptedRun sock buf opFlags es s → s.pc = .idle →
      (BatchSent buf s ↔ (0 < buf.length ∧ buf.length < 2 ^ 16) ∧
        (sock.insAlive = true ∧ sock.remoteSurpriseClose = false ∧ ∀ e ∈ es, closes e = false) ∧
        carry sock % 2 ^ 16 = 0) := by
  constructor
  · intro es s hrun
    exact (hrun.conducted hcalm hunlocked).1.completes sock
  · intro es s hrun hpc
    exact hrun.batchSent_iff hcalm hunlocked hpc

/-- Two chunks that go through. -/
def twoChunks : List SendEvent :=
  [.write .granted, .write .granted, .serve 1985 0 false, .consume, .serve 15 0 false, .consume,
    .read]

theorem send_end_to_end_twoChunks :
    ∃ s, AcceptedRun {} (List.replicate 2000 7) 0 twoChunks s ∧ s.pc = .idle ∧
      BatchSent (List.replicate 2000 7) s := by
  let buf : List Byte := List.replicate 2000 7
  have hplaced : ∃ s₀, (sender {}).step (sender {}).init (.call buf 0) = some s₀ := ⟨_, rfl⟩
  obtain ⟨s₀, hs₀⟩ := hplaced
  have hG : (sender {}).GuardedFrom accepting s₀ twoChunks := by
    obtain rfl := Option.some.inj hs₀
    decide +kernel
  have hidle : ((sender {}).runFrom s₀ twoChunks).map Sender.pc = some .idle := by
    obtain rfl := Option.some.inj hs₀
    decide +kernel
  obtain ⟨s, hrun, hpc⟩ := Option.map_eq_some_iff.mp hidle
  have haccepted : AcceptedRun {} buf 0 twoChunks s := ⟨s₀, hs₀, hG, hrun⟩
  refine ⟨s, haccepted, hpc, ?_⟩
  refine ((send_end_to_end rfl rfl buf 0).2 twoChunks s haccepted hpc).mpr ⟨?_, ?_, ?_⟩
  · rw [List.length_replicate]
    decide
  · exact ⟨rfl, rfl, by decide⟩
  · decide

/-- A `send` of no bytes returns -1, and so does one of 65536 bytes, for all of
which the INS has answered. -/
theorem send_loses_length :
    (∃ s, AcceptedRun {} [] 0 [] s ∧ s.pc = .idle ∧ s.returned = some (-1) ∧ ¬ BatchSent [] s) ∧
      ∃ es s, AcceptedRun {} (List.replicate 65536 7) 0 es s ∧ s.pc = .idle ∧
        ¬ BatchSent (List.replicate 65536 7) s := by
  constructor
  · have hrun : AcceptedRun {} [] 0 [] _ := ⟨_, rfl, trivial, rfl⟩
    refine ⟨_, hrun, rfl, rfl, fun hsent => ?_⟩
    have hpos := ((hrun.batchSent_iff rfl rfl rfl).mp hsent).1.1
    cases hpos
  · have hcall : ∃ s₀, (sender {}).step (sender {}).init
        (.call (List.replicate 65536 7) 0) = some s₀ := ⟨_, rfl⟩
    obtain ⟨s₀, hcall⟩ := hcall
    obtain ⟨es, s, hG, hrun, hpc⟩ := (conducted_start rfl rfl _ 0 hcall).1.completes {}
    have haccepted : AcceptedRun {} (List.replicate 65536 7) 0 es s := ⟨s₀, hcall, hG, hrun⟩
    refine ⟨es, s, haccepted, hpc, fun hsent => ?_⟩
    have hlt := ((haccepted.batchSent_iff rfl rfl hpc).mp hsent).1.2
    rw [List.length_replicate] at hlt
    omega

end MagicWand.Shim
