import MagicWand.Shim.Send

/-!
# The batch state of a socket

The driver keeps one flag and one tally for the batch of a socket. A chunk that
is published opens the batch, the response to the final chunk closes it, so a
`send` that publishes a chunk and then ends without a final one leaves the batch
open: the next `send` adds its bytes to the old tally.

`goodSend` is the condition under which this does not happen, one clause for
each kind of step; `Batched` is the invariant of the runs that meet it.
-/

namespace MagicWand.Shim

open Foundation Kernel

/-! ## The driver's batch state -/

/-- Is a batch open on the socket? -/
def batchOpen (k : SockInst) : Bool := k.uFlags.has MtFlags.batchSend

/-- Does the request close its batch? -/
def fini (r : MtRequest) : Bool := r.flags.has MtFlags.batchSendFini

/-- The same batch state and no pending error in between. -/
structure SameBatch (k k' : SockInst) : Prop where
  uFlags : k'.uFlags = k.uFlags
  sendTally : k'.sendTally = k.sendTally
  pendingErrno : k'.pendingErrno = k.pendingErrno

theorem sameBatch_releaseClose (k : SockInst) (id : MtId) (resp : MtResponse) :
    SameBatch k (k.releaseClose id resp) := by
  rw [SockInst.releaseClose]
  split
  · split_ifs <;> exact ⟨rfl, rfl, rfl⟩
  · exact ⟨rfl, rfl, rfl⟩

theorem sameBatch_noteRemoteClosed (k : SockInst) (resp : MtResponse) :
    SameBatch k (k.noteRemoteClosed resp) := by
  rw [SockInst.noteRemoteClosed]
  split_ifs <;> exact ⟨rfl, rfl, rfl⟩

theorem sameBatch_recordSuccess (k : SockInst) (resp : MtResponse) :
    SameBatch k (k.recordSuccess resp) := by
  unfold SockInst.recordSuccess
  rcases resp.type with _ | t
  · exact ⟨rfl, rfl, rfl⟩
  · cases t <;> exact ⟨rfl, rfl, rfl⟩

theorem sameBatch_acquireClose (k : SockInst) (id : MtId) (t : MtRequestType) (acquired : Bool) :
    SameBatch k (k.acquireClose id t acquired) := by
  rw [SockInst.acquireClose]
  split_ifs <;> exact ⟨rfl, rfl, rfl⟩

namespace SameBatch

theorem refl (k : SockInst) : SameBatch k k := ⟨rfl, rfl, rfl⟩

theorem trans {k k' k'' : SockInst} (h : SameBatch k k') (h' : SameBatch k' k'') :
    SameBatch k k'' :=
  ⟨h'.uFlags.trans h.uFlags, h'.sendTally.trans h.sendTally,
    h'.pendingErrno.trans h.pendingErrno⟩

theorem batchOpen_eq {k k' : SockInst} (h : SameBatch k k') : batchOpen k' = batchOpen k := by
  rw [batchOpen, batchOpen, h.uFlags]

end SameBatch

/-- Publishing a chunk opens the batch, unless it is open already. -/
theorem preProcess_batch (k : SockInst) (id : MtId) (req : MtRequest)
    (htype : req.type = .socketSend) (hbatch : req.flags.has MtFlags.batchSend = true) :
    batchOpen (k.preProcess id req false) = true ∧
      (k.preProcess id req false).sendTally = (if batchOpen k then k.sendTally else 0) ∧
      (k.preProcess id req false).pendingErrno = k.pendingErrno := by
  have hwait : SameBatch k (if req.callerWaits then k.expectRead id else k) := by
    split <;> exact ⟨rfl, rfl, rfl⟩
  have hsame := hwait.trans (sameBatch_acquireClose _ id req.type false)
  rw [SockInst.preProcess, ← hsame.batchOpen_eq, ← hsame.sendTally, ← hsame.pendingErrno]
  generalize (SockInst.acquireClose _ id req.type false) = k'
  rw [SockInst.prepare, htype]
  simp only [hbatch, Bool.and_true]
  cases hopen : batchOpen k' with
  | true =>
      have hflag : k'.uFlags.has MtFlags.batchSend = true := hopen
      simp [hflag, hopen]
  | false =>
      have hflag : k'.uFlags.has MtFlags.batchSend = false := hopen
      have hset : batchOpen { k' with uFlags := k'.uFlags ||| MtFlags.batchSend, sendTally := 0 } =
          true := by
        rw [batchOpen, MtFlags.has_or]
        simp [MtFlags.has, MtFlags.batchSend]
      simp [hflag, hset]

/-- The three ways a Send response acts on the batch. -/
inductive BatchEffect (k : SockInst) (resp : MtResponse) (k' : SockInst) (resp' : MtResponse) :
    Prop where
  | closed (hfini : resp.flags.has MtFlags.batchSendFini = true)
      (hopen : batchOpen k' = false)
      (hresp : resp' = { resp with count := (resp.count + k.sendTally) % 2 ^ 16 })
  | tallied (hfini : resp.flags.has MtFlags.batchSendFini = false)
      (hbatch : resp.flags.has MtFlags.batchSend = true)
      (hopen : batchOpen k' = batchOpen k)
      (htally : k'.sendTally = k.sendTally + resp.count)
      (hresp : resp' = resp)
  | plain (hfini : resp.flags.has MtFlags.batchSendFini = false)
      (hbatch : resp.flags.has MtFlags.batchSend = false)
      (hopen : batchOpen k' = batchOpen k)
      (htally : k'.sendTally = k.sendTally)
      (hresp : resp' = resp)

theorem BatchEffect.congr {k k₁ k₂ k' : SockInst} {resp resp' : MtResponse}
    (h : BatchEffect k₁ resp k₂ resp') (hin : SameBatch k k₁) (hout : SameBatch k₂ k') :
    BatchEffect k resp k' resp' := by
  rcases h with ⟨hfini, hopen, hresp⟩ | ⟨hfini, hbatch, hopen, htally, hresp⟩ |
    ⟨hfini, hbatch, hopen, htally, hresp⟩
  · exact .closed hfini (hout.batchOpen_eq.trans hopen) (hin.sendTally ▸ hresp)
  · exact .tallied hfini hbatch (by rw [hout.batchOpen_eq, hopen, hin.batchOpen_eq])
      (by rw [hout.sendTally, htally, hin.sendTally]) hresp
  · exact .plain hfini hbatch (by rw [hout.batchOpen_eq, hopen, hin.batchOpen_eq])
      (by rw [hout.sendTally, htally, hin.sendTally]) hresp

theorem tallySend_effect (k : SockInst) {resp : MtResponse} (htype : resp.type = .of .socketSend) :
    BatchEffect k resp (k.tallySend resp).1 (k.tallySend resp).2 := by
  rw [SockInst.tallySend, if_pos htype]
  split
  · rename_i hfini
    refine .closed hfini ?_ rfl
    exact MtFlags.has_and_not_of_covered _ (by decide)
  · rename_i hfini
    rw [Bool.not_eq_true] at hfini
    split
    · rename_i hbatch
      exact .tallied hfini hbatch rfl rfl rfl
    · rename_i hbatch
      exact .plain hfini (Bool.not_eq_true _ ▸ hbatch) rfl rfl rfl

theorem pendingErrno_tallySend (k : SockInst) (resp : MtResponse) :
    (k.tallySend resp).1.pendingErrno = k.pendingErrno := by
  rw [SockInst.tallySend]
  split_ifs <;> rfl

/-- What recording a success keeps, a round of the consumer keeps after it has
looked at the tally and at the flags. -/
theorem postprocSend_record {P : SockInst → Prop} (k : SockInst) (a : Answered)
    (hnote : P ((((k.releaseClose a.sent.request.id a.response).tallySend
      a.response).1).noteRemoteClosed a.response))
    (hrecord : ∀ k' resp, P k' → P (k'.recordSuccess resp)) : P (postprocSend k a).1 := by
  let r := (k.releaseClose a.sent.request.id a.response).tallySend a.response
  have hpost : (postprocSend k a).1 = if r.2.status < 0 then r.1.noteRemoteClosed a.response
      else (r.1.noteRemoteClosed a.response).recordSuccess r.2 := rfl
  rw [hpost]
  split
  · exact hnote
  · exact hrecord _ _ hnote

theorem postprocSend_effect (k : SockInst) {a : Answered}
    (htype : a.response.type = .of .socketSend) :
    BatchEffect k a.response (postprocSend k a).1 (postprocSend k a).2 ∧
      (postprocSend k a).1.pendingErrno = k.pendingErrno := by
  let k₁ := k.releaseClose a.sent.request.id a.response
  let r := k₁.tallySend a.response
  have hin : SameBatch k k₁ := sameBatch_releaseClose ..
  have hout : SameBatch r.1 (postprocSend k a).1 :=
    postprocSend_record k a (sameBatch_noteRemoteClosed ..)
      fun _ _ hsame => hsame.trans (sameBatch_recordSuccess ..)
  constructor
  · exact (tallySend_effect k₁ htype).congr hin hout
  · rw [hout.pendingErrno, pendingErrno_tallySend, hin.pendingErrno]

/-! ## Writes -/

theorem pendingError_of_calm {k : SockInst} (h : k.pendingErrno = 0) :
    mwsocketPendingError k .socketSend =
      (if k.remoteSurpriseClose then -mwErrorRemoteSurpriseClose else 0, k) := by
  cases hclose : k.remoteSurpriseClose <;> simp [mwsocketPendingError, h, hclose]

/-- A write that is turned down leaves the batch as it is. -/
theorem writeRefusal_spec {k k' : SockInst} {w : WriteOutcome} {rc : Int}
    (hcalm : k.pendingErrno = 0) (h : writeRefusal k w = some (k', rc)) :
    SameBatch k k' ∧ rc < 0 := by
  rw [writeRefusal, pendingError_of_calm hcalm] at h
  simp only at h
  split at h
  · cases h
    exact ⟨⟨rfl, rfl, rfl⟩, by decide⟩
  · split at h
    · cases h
      exact ⟨⟨rfl, rfl, rfl⟩, by decide⟩
    · cases hclose : k.remoteSurpriseClose with
      | true =>
          rw [hclose, if_pos (by decide)] at h
          cases h
          exact ⟨⟨rfl, rfl, rfl⟩, by decide⟩
      | false =>
          rw [hclose, if_neg (by decide)] at h
          split at h
          · cases h
            exact ⟨⟨rfl, rfl, rfl⟩, by decide⟩
          · cases h

/-! ## The condition -/

/-- The error that `mwsocket_read` or the shim makes of a response. -/
def rejectsReply (k : SockInst) (resp : MtResponse) : Bool :=
  (mwsocketPendingError k .socketSend).1 != 0 || isCriticalError resp.status ||
    decide (resp.status < 0)

/-- A step that keeps a batch from being left open or miscounted:

* a request that is published is also announced to the INS, and a write that the
  loop of `send` will not repeat fails only while no batch is open;
* the INS does not answer a final request in its dispatcher;
* the count of a final response and the tally fit in 16 bits;
* an awaited response is not turned into an error while the batch is open. -/
def goodSend (s : Sender) : SendEvent → Prop
  | .write w =>
      match s.pc with
      | .loop c => w ≠ .unnotified ∧
          (c.arrange.final = true → (writeRefusal s.sock w).isSome = true → batchOpen s.sock = false)
      | _ => True
  | .dispatchError k _ => ∀ p ∈ s.pending[k]?, fini p.request = false
  | .consume => ∀ a ∈ s.ring.head?, a.response.flags.has MtFlags.batchSendFini = true →
      a.response.count + s.sock.sendTally < 2 ^ 16
  | .read => ∀ a ∈ s.delivered, rejectsReply s.sock a.response = true → batchOpen s.sock = false
  | _ => True

instance (s : Sender) (e : SendEvent) : Decidable (goodSend s e) :=
  match e with
  | .call _ _ => isTrue trivial
  | .serve _ _ _ => isTrue trivial
  | .write w =>
      match h : s.pc with
      | .loop c => decidable_of_iff (w ≠ .unnotified ∧
          (c.arrange.final = true → (writeRefusal s.sock w).isSome = true →
            batchOpen s.sock = false)) (by simp [goodSend, h])
      | .idle => isTrue (by simp [goodSend, h])
      | .wait _ => isTrue (by simp [goodSend, h])
  | .dispatchError k _ => inferInstanceAs (Decidable (∀ p ∈ s.pending[k]?, fini p.request = false))
  | .consume => inferInstanceAs (Decidable (∀ a ∈ s.ring.head?, _ → _))
  | .read => inferInstanceAs (Decidable (∀ a ∈ s.delivered, _ → _))

/-! ## The invariant -/

/-- Published and not consumed, oldest first. -/
def flight (s : Sender) : List Sent := s.ring.map Answered.sent ++ s.pending

/-- What a response adds to the tally, or to the count of the final response. -/
def counted (a : Answered) : Nat :=
  if a.response.flags.has MtFlags.batchSend then a.response.count else 0

def ringTotal (s : Sender) : Nat := (s.ring.map counted).sum

/-- A message of call `n`: it belongs to a batch, and a final request is waited
for. -/
structure OfCall (n : Nat) (p : Sent) : Prop where
  call : p.call = n
  live : p.live = true
  type : p.request.type = .socketSend
  batch : p.request.flags.has MtFlags.batchSend = true
  awaited : fini p.request = true → p.request.callerWaits = true

/-- The flags of a response are those of its request, or it is an internal error
for a request that is not final. -/
structure Echoes (a : Answered) : Prop where
  type : a.response.type = .of .socketSend
  flags : (a.response.flags.has MtFlags.batchSend = true ∧
      a.response.flags.has MtFlags.batchSendFini = fini a.sent.request) ∨
    (a.response.flags = 0 ∧ fini a.sent.request = false)

/-- The batch is open and accounts for everything reported for the latest call. -/
def Tallied (s : Sender) : Prop :=
  batchOpen s.sock = true ∧ s.sock.sendTally + ringTotal s = s.report s.calls

/-- The batch is tallied, or nothing of the latest call is published. -/
def Ledger (s : Sender) : Prop :=
  Tallied s ∨ (batchOpen s.sock = false ∧ flight s = [] ∧ s.report s.calls = 0)

/-- No message that is on its way is waited for. -/
def NoneAwaited (s : Sender) : Prop := ∀ p ∈ flight s, p.request.callerWaits = false

/-- The locals of `send` at the head of its loop. -/
structure AtHead (c : SendCall) : Prop where
  batch : c.flags.has MtFlags.batchSend = true
  fini : c.flags.has MtFlags.batchSendFini = false
  awaits : c.flags.has MtFlags.pvmCallerAwaitsResponse = true → c.final = true
  more : c.totSent < c.buf.length

/-- The locals of `send` while it waits for a response. -/
structure InRead (c : SendCall) : Prop where
  batch : c.flags.has MtFlags.batchSend = true
  fini : c.flags.has MtFlags.batchSendFini = c.isLast
  final : c.final = true
  more : c.totSent < c.buf.length

/-- The response the caller waits for, once it has been consumed. -/
structure Delivered (s : Sender) (c : SendCall) (a : Answered) : Prop where
  call : a.sent.call = s.calls
  fini : a.response.flags.has MtFlags.batchSendFini = c.isLast
  closed : c.isLast = true →
    flight s = [] ∧ batchOpen s.sock = false ∧ a.response.count = s.report s.calls
  still : c.isLast = false → Tallied s

/-- The latest call has had no final response. -/
def Unreported (s : Sender) : Prop := ∀ f ∈ s.finals, f.1 < s.calls

/-- What holds at each place of the thread. -/
def Phase (s : Sender) : Prop :=
  match s.pc with
  | .idle => flight s = [] ∧ s.delivered = none ∧ batchOpen s.sock = false
  | .loop c => AtHead c ∧ s.delivered = none ∧ Unreported s ∧ NoneAwaited s ∧ Ledger s
  | .wait c => InRead c ∧ Unreported s ∧
      match s.delivered with
      | none => Tallied s ∧ ∃ p, (flight s).filter (fun p => p.request.callerWaits) = [p] ∧
          fini p.request = c.isLast
      | some a => NoneAwaited s ∧ Delivered s c a

/-- The messages and the history, wherever the thread is. -/
structure Traffic (s : Sender) : Prop where
  own : ∀ p ∈ flight s, OfCall s.calls p
  echoes : ∀ a ∈ s.ring, Echoes a
  last : (flight s).Pairwise fun p _ => fini p.request = false
  fresh : ∀ n, s.calls < n → s.report n = 0
  finals : ∀ f ∈ s.finals, f.1 ≤ s.calls ∧ f.2 = s.report f.1

/-- The invariant of runs that meet `goodSend`. -/
structure Batched (s : Sender) : Prop where
  calm : s.sock.pendingErrno = 0
  traffic : Traffic s
  phase : Phase s

section

variable {s : Sender}

theorem phase_idle (hpc : s.pc = .idle) (hflight : flight s = []) (hnone : s.delivered = none)
    (hclosed : batchOpen s.sock = false) : Phase s := by
  rw [Phase, hpc]
  exact ⟨hflight, hnone, hclosed⟩

theorem phase_loop {c : SendCall} (hpc : s.pc = .loop c) (hhead : AtHead c)
    (hnone : s.delivered = none) (hunreported : Unreported s) (hawaited : NoneAwaited s)
    (hledger : Ledger s) : Phase s := by
  rw [Phase, hpc]
  exact ⟨hhead, hnone, hunreported, hawaited, hledger⟩

theorem phase_wait {c : SendCall} (hpc : s.pc = .wait c) (hnone : s.delivered = none)
    (hread : InRead c) (hunreported : Unreported s) (htallied : Tallied s) {p : Sent}
    (hp : (flight s).filter (fun p => p.request.callerWaits) = [p])
    (hfini : fini p.request = c.isLast) : Phase s := by
  rw [Phase, hpc, hnone]
  exact ⟨hread, hunreported, htallied, p, hp, hfini⟩

theorem phase_read {c : SendCall} (hpc : s.pc = .wait c) {a : Answered}
    (ha : s.delivered = some a) (hread : InRead c) (hunreported : Unreported s)
    (hawaited : NoneAwaited s) (hdelivered : Delivered s c a) : Phase s := by
  rw [Phase, hpc, ha]
  exact ⟨hread, hunreported, hawaited, hdelivered⟩

end

namespace Batched

variable {s : Sender}

theorem at_idle (hs : Batched s) (hpc : s.pc = .idle) :
    flight s = [] ∧ s.delivered = none ∧ batchOpen s.sock = false := by
  have hphase := hs.phase
  rwa [Phase, hpc] at hphase

theorem at_loop (hs : Batched s) {c : SendCall} (hpc : s.pc = .loop c) :
    AtHead c ∧ s.delivered = none ∧ Unreported s ∧ NoneAwaited s ∧ Ledger s := by
  have hphase := hs.phase
  rwa [Phase, hpc] at hphase

theorem at_wait (hs : Batched s) {c : SendCall} (hpc : s.pc = .wait c)
    (hnone : s.delivered = none) :
    InRead c ∧ Unreported s ∧ Tallied s ∧
      ∃ p, (flight s).filter (fun p => p.request.callerWaits) = [p] ∧
        fini p.request = c.isLast := by
  have hphase := hs.phase
  rwa [Phase, hpc, hnone] at hphase

theorem at_read (hs : Batched s) {c : SendCall} (hpc : s.pc = .wait c) {a : Answered}
    (ha : s.delivered = some a) :
    InRead c ∧ Unreported s ∧ NoneAwaited s ∧ Delivered s c a := by
  have hphase := hs.phase
  rwa [Phase, hpc, ha] at hphase

theorem unreported (hs : Batched s) (hflight : flight s ≠ []) : Unreported s := by
  cases hpc : s.pc with
  | idle => exact absurd (hs.at_idle hpc).1 hflight
  | loop c => exact (hs.at_loop hpc).2.2.1
  | wait c =>
      cases ha : s.delivered with
      | none => exact (hs.at_wait hpc ha).2.1
      | some a => exact (hs.at_read hpc ha).2.1

end Batched

/-! ## The loop of send() -/

theorem chunk_not_last {c : SendCall} (hmore : c.totSent < c.buf.length)
    (hlast : c.isLast = false) : c.advance.totSent < c.advance.buf.length := by
  simp only [SendCall.isLast, SendCall.advance, SendCall.chunksz, beq_eq_false_iff_ne] at *
  omega

theorem chunk_last {c : SendCall} (hlast : c.isLast = true) :
    ¬ c.advance.totSent < c.advance.buf.length := by
  simp only [SendCall.isLast, SendCall.advance, beq_iff_eq] at *
  omega

/-- The flags of the next request, except the one that only the first one has. -/
theorem has_arrange (c : SendCall) {m : MtFlags} (hinit : ~~~MtFlags.batchSendInit &&& m = m) :
    c.arrange.flags.has m = (c.flags.has m || (c.isLast && MtFlags.batchSendFini.has m) ||
      (c.arrange.final && MtFlags.pvmCallerAwaitsResponse.has m)) := by
  have hcut : (if 0 < c.totSent then c.flags &&& ~~~MtFlags.batchSendInit else c.flags).has m =
      c.flags.has m := by
    split
    · exact MtFlags.has_and_not_of_disjoint _ hinit
    · rfl
  simp only [SendCall.arrange]
  cases c.isLast <;> cases c.final <;> simp [hcut]

theorem isLast_of_not_final {c : SendCall} (hfinal : c.arrange.final = false) :
    c.isLast = false := by
  simp only [SendCall.arrange, Bool.or_eq_false_iff] at hfinal
  exact hfinal.2

namespace AtHead

variable {c : SendCall}

theorem arrange_batch (h : AtHead c) : c.arrange.flags.has MtFlags.batchSend = true := by
  rw [has_arrange c (by decide), h.batch]
  rfl

theorem arrange_fini (h : AtHead c) :
    c.arrange.flags.has MtFlags.batchSendFini = c.isLast := by
  have hset : MtFlags.batchSendFini.has MtFlags.batchSendFini = true := by decide
  have hawaits : MtFlags.pvmCallerAwaitsResponse.has MtFlags.batchSendFini = false := by decide
  rw [has_arrange c (by decide), h.fini, hset, hawaits]
  simp

theorem arrange_awaits (h : AtHead c) : c.arrange.request.callerWaits = c.arrange.final := by
  have hfini : MtFlags.batchSendFini.has MtFlags.pvmCallerAwaitsResponse = false := by decide
  have hset : MtFlags.pvmCallerAwaitsResponse.has MtFlags.pvmCallerAwaitsResponse = true := by
    decide
  have hflag : c.arrange.request.callerWaits =
      c.arrange.flags.has MtFlags.pvmCallerAwaitsResponse := rfl
  rw [hflag, has_arrange c (by decide), hfini, hset, Bool.and_false, Bool.or_false, Bool.and_true]
  cases hold : c.flags.has MtFlags.pvmCallerAwaitsResponse with
  | false => rfl
  | true =>
      have hfinal := h.awaits hold
      simp [SendCall.arrange, hfinal]

/-- A request that failed and was not final is tried once more. -/
theorem retry (h : AtHead c) (hfinal : c.arrange.final = false) :
    AtHead { c.arrange with rc := -1, final := true } where
  batch := h.arrange_batch
  fini := by
    rw [h.arrange_fini]
    exact isLast_of_not_final hfinal
  awaits _ := rfl
  more := h.more

theorem inRead (h : AtHead c) (hfinal : c.arrange.final = true) : InRead c.arrange where
  batch := h.arrange_batch
  fini := h.arrange_fini
  final := hfinal
  more := h.more

theorem next (h : AtHead c) (hfinal : c.arrange.final = false) : AtHead c.arrange.advance where
  batch := h.arrange_batch
  fini := h.arrange_fini.trans (isLast_of_not_final hfinal)
  awaits hset := h.arrange_awaits.symm.trans hset
  more := by
    have hlast : c.isLast = false := isLast_of_not_final hfinal
    exact chunk_not_last (c := c.arrange) h.more hlast

end AtHead

theorem atHead_start {buf : List Byte} (opFlags : MtFlags) (h : 0 < buf.length) :
    AtHead { buf := buf, opFlags := opFlags } where
  batch := (by decide : (MtFlags.batchSendInit ||| MtFlags.batchSend).has MtFlags.batchSend = true)
  fini := (by decide :
    (MtFlags.batchSendInit ||| MtFlags.batchSend).has MtFlags.batchSendFini = false)
  awaits hset := absurd hset (by decide :
    ¬ (MtFlags.batchSendInit ||| MtFlags.batchSend).has MtFlags.pvmCallerAwaitsResponse = true)
  more := h

theorem InRead.next {c : SendCall} (h : InRead c) (hlast : c.isLast = false) (resp : MtResponse) :
    AtHead { c with response := resp }.advance where
  batch := h.batch
  fini := h.fini.trans hlast
  awaits _ := h.final
  more := chunk_not_last (c := { c with response := resp }) h.more hlast

/-! ## One step -/

theorem Sender.settle_more (s : Sender) {c : SendCall} (h : c.totSent < c.buf.length) :
    s.settle c = { s with pc := .loop c } := if_pos h

theorem Sender.settle_done (s : Sender) {c : SendCall} (h : ¬ c.totSent < c.buf.length) :
    s.settle c = s.finish c := if_neg h

theorem Sender.failure_final (s : Sender) {c : SendCall} (h : c.final = true) :
    s.failure c = s.finish { c with rc := -1 } := if_pos h

section

variable {s : Sender}

theorem Ledger.tallied (h : Ledger s) (hflight : flight s ≠ []) : Tallied s := by
  rcases h with htallied | ⟨-, hempty, -⟩
  · exact htallied
  · exact absurd hempty hflight

theorem Ledger.congr {k : SockInst} (h : Ledger s) (hk : SameBatch s.sock k) :
    Ledger { s with sock := k } := by
  rcases h with ⟨hopen, hsum⟩ | ⟨hclosed, hempty, hzero⟩
  · exact .inl ⟨hk.batchOpen_eq.trans hopen, by rw [← hsum, hk.sendTally]; rfl⟩
  · exact .inr ⟨hk.batchOpen_eq.trans hclosed, hempty, hzero⟩

theorem NoneAwaited.not_fini (h : NoneAwaited s) (hs : Traffic s) :
    ∀ p ∈ flight s, fini p.request = false := by
  intro p hp
  cases hfini : fini p.request with
  | false => rfl
  | true =>
      have hwaits := (hs.own p hp).awaited hfini
      rw [h p hp] at hwaits
      cases hwaits

theorem noneAwaited_of_empty (h : flight s = []) : NoneAwaited s := by
  intro p hp
  rw [h] at hp
  cases hp

/-- A call that begins finds no batch and has nothing to its account. -/
theorem Batched.call (hs : Batched s) (hpc : s.pc = .idle) (buf : List Byte) (opFlags : MtFlags) :
    Batched ({ s with calls := s.calls + 1, chunks := [], returned := none }.settle
      { buf := buf, opFlags := opFlags }) := by
  obtain ⟨hflight, hnone, hclosed⟩ := hs.at_idle hpc
  have hunreported : ∀ f ∈ s.finals, f.1 < s.calls + 1 :=
    fun f hf => Nat.lt_succ_of_le (hs.traffic.finals f hf).1
  have htraffic : Traffic { s with calls := s.calls + 1, chunks := [], returned := none } := by
    refine ⟨?_, hs.traffic.echoes, hs.traffic.last, ?_, ?_⟩
    · intro p hp
      have hmem : p ∈ flight s := hp
      rw [hflight] at hmem
      cases hmem
    · intro n hn
      exact hs.traffic.fresh n (Nat.lt_of_succ_lt hn)
    · intro f hf
      exact ⟨(hunreported f hf).le, (hs.traffic.finals f hf).2⟩
  by_cases hmore : 0 < buf.length
  · rw [Sender.settle_more _ hmore]
    refine ⟨hs.calm, ⟨htraffic.1, htraffic.2, htraffic.3, htraffic.4, htraffic.5⟩,
      atHead_start opFlags hmore, hnone, hunreported, noneAwaited_of_empty hflight, ?_⟩
    exact .inr ⟨hclosed, hflight, hs.traffic.fresh _ (Nat.lt_succ_self _)⟩
  · rw [Sender.settle_done _ hmore]
    exact ⟨hs.calm, ⟨htraffic.1, htraffic.2, htraffic.3, htraffic.4, htraffic.5⟩,
      hflight, hnone, hclosed⟩

/-- A write that is turned down: the loop goes on, or the call ends with no batch
open. -/
theorem Batched.refused (hs : Batched s) {c : SendCall} (hpc : s.pc = .loop c) {k : SockInst}
    (hk : SameBatch s.sock k)
    (hguard : c.arrange.final = true → batchOpen s.sock = false) :
    Batched ({ s with sock := k }.failure c.arrange) := by
  obtain ⟨hhead, hnone, hunreported, hawaited, hledger⟩ := hs.at_loop hpc
  obtain ⟨hown, hechoes, hlast, hfresh, hfinals⟩ := hs.traffic
  have hcalm : k.pendingErrno = 0 := hk.pendingErrno.trans hs.calm
  rw [Sender.failure]
  cases hfinal : c.arrange.final with
  | true =>
      have hclosed := hguard hfinal
      have hflight : flight s = [] := by
        by_contra hflight
        have hopen := (hledger.tallied hflight).1
        rw [hclosed] at hopen
        cases hopen
      rw [if_pos rfl]
      exact ⟨hcalm, ⟨hown, hechoes, hlast, hfresh, hfinals⟩,
        hflight, hnone, hk.batchOpen_eq.trans hclosed⟩
  | false =>
      rw [if_neg (by decide)]
      exact ⟨hcalm, ⟨hown, hechoes, hlast, hfresh, hfinals⟩,
        hhead.retry hfinal, hnone, hunreported, hawaited, hledger.congr hk⟩

/-- A published chunk opens the batch of its call. -/
theorem Batched.publish (hs : Batched s) {c : SendCall} (hpc : s.pc = .loop c) :
    Batched (if c.arrange.final
      then { Shim.publish s c.arrange.request true with pc := .wait c.arrange }
      else (Shim.publish s c.arrange.request true).settle c.arrange.advance) := by
  obtain ⟨hhead, hnone, hunreported, hawaited, hledger⟩ := hs.at_loop hpc
  let p : Sent := ⟨s.calls, stamped s c.arrange.request, true⟩
  let s' := Shim.publish s c.arrange.request true
  have hflight : flight s' = flight s ++ [p] := by
    simp [flight, s', Shim.publish, p]
  have hp : OfCall s.calls p := ⟨rfl, rfl, rfl, hhead.arrange_batch, fun hfini => by
    have hlast : c.isLast = true := hhead.arrange_fini.symm.trans hfini
    exact hhead.arrange_awaits.trans (by simp [SendCall.arrange, hlast])⟩
  obtain ⟨hopen, htally, herrno⟩ := preProcess_batch s.sock s.nextId
    (stamped s c.arrange.request) rfl hhead.arrange_batch
  have htraffic : Traffic s' := by
    refine ⟨?_, hs.traffic.echoes, ?_, hs.traffic.fresh, hs.traffic.finals⟩
    · rw [hflight]
      intro q hq
      rcases List.mem_append.mp hq with hq | hq
      · exact hs.traffic.own q hq
      · rw [List.mem_singleton.mp hq]
        exact hp
    · rw [hflight, List.pairwise_append]
      refine ⟨hs.traffic.last, List.pairwise_singleton _ _, fun q hq _ _ => ?_⟩
      exact hawaited.not_fini hs.traffic q hq
  have htallied : Tallied s' := by
    refine ⟨hopen, ?_⟩
    rw [show s'.sock.sendTally = _ from htally]
    rcases hledger with ⟨hopen, hsum⟩ | ⟨hclosed, hempty, hzero⟩
    · rw [if_pos hopen]
      exact hsum
    · have hring : s.ring = [] := by
        simpa using (List.append_eq_nil_iff.mp hempty).1
      rw [if_neg (by simp [hclosed]), ringTotal, show s'.ring = [] from hring]
      exact hzero.symm
  obtain ⟨hown, hechoes, hlast, hfresh, hfinals⟩ := htraffic
  cases hfinal : c.arrange.final with
  | true =>
      have hwaits : p.request.callerWaits = true := hhead.arrange_awaits.trans hfinal
      rw [if_pos rfl]
      have hold : (flight s).filter (fun p => p.request.callerWaits) = [] := by
        rw [List.filter_eq_nil_iff]
        intro q hq
        simp [hawaited q hq]
      have hfilter : (flight s').filter (fun p => p.request.callerWaits) = [p] := by
        rw [hflight, List.filter_append, hold]
        simp [hwaits]
      exact ⟨herrno.trans hs.calm, ⟨hown, hechoes, hlast, hfresh, hfinals⟩,
        phase_wait rfl hnone (hhead.inRead hfinal) hunreported htallied hfilter
          hhead.arrange_fini⟩
  | false =>
      have hwaits : p.request.callerWaits = false := hhead.arrange_awaits.trans hfinal
      have hawaited' : NoneAwaited s' := by
        intro q hq
        rw [hflight] at hq
        rcases List.mem_append.mp hq with hq | hq
        · exact hawaited q hq
        · rw [List.mem_singleton.mp hq]
          exact hwaits
      rw [if_neg (by decide), Sender.settle_more _ (hhead.next hfinal).more]
      exact ⟨herrno.trans hs.calm, ⟨hown, hechoes, hlast, hfresh, hfinals⟩,
        phase_loop rfl (hhead.next hfinal) hnone hunreported hawaited' (.inl htallied)⟩

theorem Batched.write (hs : Batched s) {c : SendCall} (hpc : s.pc = .loop c) (w : WriteOutcome)
    (hG : goodSend s (.write w)) : Batched (s.writeStep c w) := by
  rw [goodSend, hpc] at hG
  obtain ⟨hnotified, hguard⟩ := hG
  rw [Sender.writeStep, mwsocketWrite]
  cases hrefusal : writeRefusal s.sock w with
  | some r =>
      obtain ⟨k, rc⟩ := r
      obtain ⟨hk, hrc⟩ := writeRefusal_spec hs.calm hrefusal
      rw [hrefusal] at hguard
      simp only [if_pos hrc]
      exact hs.refused hpc hk fun hfinal => hguard hfinal rfl
  | none =>
      simp only [if_neg hnotified, if_neg (lt_irrefl (0 : Int))]
      exact hs.publish hpc

/-! ## Answers -/

/-- A response moves from the requests to the ring: nothing else changes, except
what is reported for the latest call. -/
theorem Batched.phase_answer (hs : Batched s) {s' : Sender} (hflight : flight s ≠ [])
    (hperm : (flight s').Perm (flight s)) (hpc : s'.pc = s.pc)
    (hdelivered : s'.delivered = s.delivered) (hfinals : s'.finals = s.finals)
    (hcalls : s'.calls = s.calls) (htally : Tallied s → Tallied s') : Phase s' := by
  have hawaited : NoneAwaited s → NoneAwaited s' := fun h p hp => h p (hperm.mem_iff.mp hp)
  have hunreported : Unreported s' := by
    rw [Unreported, hfinals, hcalls]
    exact hs.unreported hflight
  cases hat : s.pc with
  | idle => exact absurd (hs.at_idle hat).1 hflight
  | loop c =>
      obtain ⟨hhead, hnone, -, hnoneAwaited, hledger⟩ := hs.at_loop hat
      exact phase_loop (hpc.trans hat) hhead (hdelivered.trans hnone) hunreported
        (hawaited hnoneAwaited) (.inl (htally (hledger.tallied hflight)))
  | wait c =>
      cases ha : s.delivered with
      | none =>
          obtain ⟨hread, -, htallied, p, hp, hfini⟩ := hs.at_wait hat ha
          have hfilter := hperm.filter fun p => p.request.callerWaits
          rw [hp] at hfilter
          exact phase_wait (hpc.trans hat) (hdelivered.trans ha) hread hunreported
            (htally htallied) (List.perm_singleton.mp hfilter) hfini
      | some a =>
          obtain ⟨hread, -, hnoneAwaited, hcall, hfini, hclosed, hstill⟩ := hs.at_read hat ha
          refine phase_read (hpc.trans hat) (hdelivered.trans ha) hread hunreported
            (hawaited hnoneAwaited) ⟨hcall.trans hcalls.symm, hfini, ?_, ?_⟩
          · exact fun hlast => absurd (hclosed hlast).1 hflight
          · exact fun hlast => htally (hstill hlast)

/-- The worker answers the oldest request. -/
theorem Batched.serve (hs : Batched s) {p : Sent} {rest : List Sent} (hp : s.pending = p :: rest)
    (count : Nat) (status : Int) (closed : Bool) :
    Batched { s with
      pending := rest
      ring := s.ring ++ [⟨p, workerResponse p.request count status closed⟩]
      report := Function.update s.report p.call (s.report p.call + count) } := by
  let s' : Sender := { s with
      pending := rest
      ring := s.ring ++ [⟨p, workerResponse p.request count status closed⟩]
      report := Function.update s.report p.call (s.report p.call + count) }
  have hmem : p ∈ flight s := by simp [flight, hp]
  have hflight : flight s' = flight s := by simp [flight, s', hp]
  obtain ⟨hcall, hlive, htype, hbatch, hawaited⟩ := hs.traffic.own p hmem
  have hflags : (workerResponse p.request count status closed).flags.has MtFlags.batchSend = true := by
    simp [workerResponse, hbatch]
  have hfini : (workerResponse p.request count status closed).flags.has MtFlags.batchSendFini =
      fini p.request := by
    cases closed <;> simp [workerResponse, fini, MtFlags.has_or,
      (by decide : MtFlags.remoteClosed.has MtFlags.batchSendFini = false)]
  have hunreported := hs.unreported (List.ne_nil_of_mem hmem)
  refine ⟨hs.calm, ⟨?_, ?_, ?_, ?_, ?_⟩, ?_⟩
  · rw [hflight]
    exact hs.traffic.own
  · intro a ha
    rcases List.mem_append.mp ha with ha | ha
    · exact hs.traffic.echoes a ha
    · rw [List.mem_singleton.mp ha]
      exact ⟨by simp [workerResponse, Ins.xeNetSetBaseResponse, htype], .inl ⟨hflags, hfini⟩⟩
  · rw [hflight]
    exact hs.traffic.last
  · intro n hn
    have hne : n ≠ p.call := by
      rintro rfl
      exact absurd hn (by simp [hcall])
    simp only [Function.update_of_ne hne]
    exact hs.traffic.fresh n hn
  · intro f hf
    have hne : f.1 ≠ p.call := by
      rw [hcall]
      exact (hunreported f hf).ne
    simp only [Function.update_of_ne hne]
    exact hs.traffic.finals f hf
  · refine hs.phase_answer (List.ne_nil_of_mem hmem) (.of_eq hflight) rfl rfl rfl rfl ?_
    rintro ⟨hopen, hsum⟩
    refine ⟨hopen, ?_⟩
    have hcounted : counted ⟨p, workerResponse p.request count status closed⟩ = count :=
      if_pos hflags
    have hring : ringTotal s' = ringTotal s + count := by
      simp [ringTotal, s', hcounted]
    have hreport : s'.report s'.calls = s.report s.calls + count := by
      simp [s', hcall]
    rw [hreport, hring, ← Nat.add_assoc]
    exact congrArg (· + count) hsum

/-- The dispatcher answers a request that is not final. -/
theorem Batched.dispatchError (hs : Batched s) {k : Nat} {p : Sent} (hk : s.pending[k]? = some p)
    (hfini : fini p.request = false) (stale : Nat) :
    Batched { s with
      pending := s.pending.eraseIdx k
      ring := s.ring ++ [⟨p, dispatchResponse p.request stale⟩] } := by
  let s' : Sender := { s with
      pending := s.pending.eraseIdx k
      ring := s.ring ++ [⟨p, dispatchResponse p.request stale⟩] }
  have hpending : p ∈ s.pending := List.mem_of_getElem? hk
  have hmem : p ∈ flight s := List.mem_append_right _ hpending
  have hflight : flight s' = s.ring.map Answered.sent ++ p :: s.pending.eraseIdx k := by
    simp [flight, s']
  have hperm : (flight s').Perm (flight s) := by
    rw [hflight]
    obtain ⟨hlt, hget⟩ := List.getElem?_eq_some_iff.mp hk
    rw [← hget]
    exact (List.getElem_cons_eraseIdx_perm hlt).append_left _
  have hlast := hs.traffic.last
  rw [flight, List.pairwise_append] at hlast
  obtain ⟨hring, hpend, hcross⟩ := hlast
  have hlast' : (flight s').Pairwise fun p _ => fini p.request = false := by
    rw [hflight, List.pairwise_append, List.pairwise_cons]
    refine ⟨hring, ⟨fun _ _ => hfini, hpend.sublist (List.eraseIdx_sublist _ _)⟩, ?_⟩
    exact fun q hq _ _ => hcross q hq p hpending
  refine ⟨hs.calm, ⟨?_, ?_, hlast', hs.traffic.fresh, hs.traffic.finals⟩, ?_⟩
  · intro q hq
    exact hs.traffic.own q (hperm.mem_iff.mp hq)
  · intro a ha
    rcases List.mem_append.mp ha with ha | ha
    · exact hs.traffic.echoes a ha
    · rw [List.mem_singleton.mp ha]
      exact ⟨rfl, .inr ⟨rfl, hfini⟩⟩
  · refine hs.phase_answer (List.ne_nil_of_mem hmem) hperm rfl rfl rfl rfl ?_
    rintro ⟨hopen, hsum⟩
    refine ⟨hopen, ?_⟩
    have hplain : (dispatchResponse p.request stale).flags.has MtFlags.batchSend = false :=
      MtFlags.has_zero _
    have hcounted : counted ⟨p, dispatchResponse p.request stale⟩ = 0 := if_neg (by simp [hplain])
    have hring : ringTotal s' = ringTotal s := by
      simp [ringTotal, s', hcounted]
    rw [hring]
    exact hsum

/-- The response to a request that is not final goes into the tally. -/
theorem Tallied.consume (h : Tallied s) {a : Answered} {rest : List Answered}
    (hring : s.ring = a :: rest) (hechoes : Echoes a) (hfini : fini a.sent.request = false) :
    Tallied { s with sock := (postprocSend s.sock a).1, ring := rest } := by
  obtain ⟨hopen, hsum⟩ := h
  have htotal : ringTotal s = counted a + (rest.map counted).sum := by
    simp [ringTotal, hring]
  rw [htotal] at hsum
  rcases (postprocSend_effect s.sock hechoes.type).1 with
    ⟨hset, -, -⟩ | ⟨-, hbatch, hstays, htally, -⟩ | ⟨-, hbatch, hstays, htally, -⟩
  · rcases hechoes.flags with ⟨-, hflag⟩ | ⟨hzero, -⟩
    · rw [hflag, hfini] at hset
      cases hset
    · rw [hzero] at hset
      cases hset
  · refine ⟨hstays.trans hopen, ?_⟩
    rw [show counted a = a.response.count from if_pos hbatch] at hsum
    rw [← hsum, htally, Nat.add_assoc]
    rfl
  · refine ⟨hstays.trans hopen, ?_⟩
    rw [show counted a = 0 from if_neg (by simp [hbatch]), Nat.zero_add] at hsum
    rw [← hsum, htally]
    rfl

/-- The response to the final request closes the batch and carries its total. -/
theorem Tallied.close (h : Tallied s) {a : Answered} (hring : s.ring = [a]) (hechoes : Echoes a)
    (hfini : a.response.flags.has MtFlags.batchSendFini = true)
    (hfits : a.response.count + s.sock.sendTally < 2 ^ 16) :
    batchOpen (postprocSend s.sock a).1 = false ∧
      (postprocSend s.sock a).2.count = s.report s.calls := by
  have hbatch : a.response.flags.has MtFlags.batchSend = true := by
    rcases hechoes.flags with ⟨hbatch, -⟩ | ⟨hzero, -⟩
    · exact hbatch
    · rw [hzero] at hfini
      cases hfini
  rcases (postprocSend_effect s.sock hechoes.type).1 with
    ⟨-, hclosed, hresp⟩ | ⟨hclear, -⟩ | ⟨hclear, -⟩
  · refine ⟨hclosed, ?_⟩
    rw [hresp, ← h.2, ringTotal, hring]
    simp only [Nat.mod_eq_of_lt hfits, List.map_cons, List.map_nil, List.sum_cons, List.sum_nil,
      counted, hbatch, if_true, Nat.add_zero]
    exact Nat.add_comm _ _
  · rw [hfini] at hclear
    cases hclear
  · rw [hfini] at hclear
    cases hclear

/-- The response consumer takes the oldest response. -/
theorem Batched.consume (hs : Batched s) {a : Answered} {rest : List Answered}
    (hring : s.ring = a :: rest) (hG : goodSend s .consume) :
    Batched (s.consumeStep a rest) := by
  let s' : Sender := { s with sock := (postprocSend s.sock a).1, ring := rest }
  have hflight : flight s = a.sent :: flight s' := by
    simp [flight, hring, s']
  have hnonempty : flight s ≠ [] := by
    rw [hflight]
    exact List.cons_ne_nil _ _
  have hsent : OfCall s.calls a.sent := hs.traffic.own _ (by simp [hflight])
  have hechoes : Echoes a := hs.traffic.echoes a (by simp [hring])
  obtain ⟨heffect, herrno⟩ := postprocSend_effect s.sock hechoes.type
  have hcalm : s'.sock.pendingErrno = 0 := herrno.trans hs.calm
  have hlast := hs.traffic.last
  rw [hflight, List.pairwise_cons] at hlast
  obtain ⟨halone, hlast⟩ := hlast
  have htraffic : Traffic s' := by
    refine ⟨fun p hp => hs.traffic.own p ?_, fun b hb => hs.traffic.echoes b ?_, hlast,
      hs.traffic.fresh, hs.traffic.finals⟩
    · rw [hflight]
      exact List.mem_cons_of_mem _ hp
    · rw [hring]
      exact List.mem_cons_of_mem _ hb
  have hnoneAwaited : NoneAwaited s → NoneAwaited s' := fun h p hp =>
    h p (hflight ▸ List.mem_cons_of_mem _ hp)
  have hunreported := hs.unreported hnonempty
  obtain ⟨hown, hechoes', hlast', hfresh, hfinals⟩ := htraffic
  rw [Sender.consumeStep, if_pos hsent.live]
  refine ⟨hcalm, ⟨hown, hechoes', hlast', hfresh, hfinals⟩, ?_⟩
  cases hpc : s.pc with
  | idle => exact absurd (hs.at_idle hpc).1 hnonempty
  | loop c =>
      -- the caller is still writing: nobody waits for this response
      obtain ⟨hhead, hnone, -, hawaited, hledger⟩ := hs.at_loop hpc
      have hwaits : a.sent.request.callerWaits = false := hawaited _ (by simp [hflight])
      have hfini := hawaited.not_fini hs.traffic a.sent (by simp [hflight])
      have htallied := (hledger.tallied hnonempty).consume hring hechoes hfini
      rw [hwaits]
      exact phase_loop rfl hhead hnone hunreported (hnoneAwaited hawaited) (.inl htallied)
  | wait c =>
      cases hdelivered : s.delivered with
      | some b =>
          obtain ⟨hread, -, hawaited, hcall, hfiniFlag, hclosed, hstill⟩ := hs.at_read hpc hdelivered
          have hwaits : a.sent.request.callerWaits = false := hawaited _ (by simp [hflight])
          have hfini := hawaited.not_fini hs.traffic a.sent (by simp [hflight])
          rw [hwaits]
          refine phase_read rfl rfl hread hunreported (hnoneAwaited hawaited)
            ⟨hcall, hfiniFlag, ?_, ?_⟩
          · exact fun hlast => absurd (hclosed hlast).1 hnonempty
          · exact fun hlast => (hstill hlast).consume hring hechoes hfini
      | none =>
          obtain ⟨hread, -, htallied, p, hp, hfinip⟩ := hs.at_wait hpc hdelivered
          rw [hflight, List.filter_cons] at hp
          cases hwaits : a.sent.request.callerWaits with
          | false =>
              have hfini : fini a.sent.request = false := by
                by_contra hset
                have hset := hsent.awaited (by simpa using hset)
                rw [hwaits] at hset
                cases hset
              rw [hwaits, if_neg (by decide)] at hp
              exact phase_wait rfl rfl hread hunreported (htallied.consume hring hechoes hfini)
                hp hfinip
          | true =>
              -- the one response that is waited for is the last in flight
              rw [hwaits, if_pos rfl] at hp
              obtain ⟨rfl, hnil⟩ := List.cons.inj hp
              have hawaited : NoneAwaited s' := by
                intro q hq
                simpa using List.filter_eq_nil_iff.mp hnil q hq
              have hflag : (postprocSend s.sock a).2.flags = a.response.flags := by
                rcases heffect with ⟨-, -, hresp⟩ | ⟨-, -, -, -, hresp⟩ | ⟨-, -, -, -, hresp⟩ <;>
                  rw [hresp]
              have hechoed : a.response.flags.has MtFlags.batchSendFini = fini a.sent.request := by
                rcases hechoes.flags with ⟨-, heq⟩ | ⟨hzero, hfini⟩
                · exact heq
                · rw [hzero, hfini]
                  rfl
              refine phase_read rfl rfl hread hunreported hawaited ⟨hsent.call, ?_, ?_, ?_⟩
              · exact (congrArg (MtFlags.has · MtFlags.batchSendFini) hflag).trans
                  (hechoed.trans hfinip)
              · intro hlast
                have hset := hechoed.trans (hfinip.trans hlast)
                have hempty : flight s' = [] := by
                  by_contra hne
                  obtain ⟨q, hq⟩ := List.exists_mem_of_ne_nil _ hne
                  have hclear := hfinip.symm.trans (halone q hq)
                  rw [hlast] at hclear
                  cases hclear
                have hrest : rest = [] := by
                  simpa [s'] using (List.append_eq_nil_iff.mp hempty).1
                exact ⟨hempty, htallied.close (hrest ▸ hring) hechoes hset
                  (hG a (by simp [hring]) hset)⟩
              · intro hlast
                exact htallied.consume hring hechoes (hfinip.trans hlast)

/-- The end of the call, once the batch is closed. -/
theorem Batched.finish (hs : Batched s) (hflight : flight s = [])
    (hclosed : batchOpen s.sock = false) {finals : List (Nat × Nat)}
    (hfinals : ∀ f ∈ finals, f.1 ≤ s.calls ∧ f.2 = s.report f.1) (c : SendCall) :
    Batched ({ s with delivered := none, finals := finals }.finish c) := by
  obtain ⟨hown, hechoes, hlast, hfresh, -⟩ := hs.traffic
  exact ⟨hs.calm, ⟨hown, hechoes, hlast, hfresh, hfinals⟩, hflight, rfl, hclosed⟩

/-- The caller reads the response it waits for. -/
theorem Batched.read (hs : Batched s) {c : SendCall} (hpc : s.pc = .wait c) {a : Answered}
    (ha : s.delivered = some a) (hG : goodSend s .read) : Batched (s.readStep c a) := by
  obtain ⟨hread, hunreported, hawaited, hcall, hfini, hclosed, hstill⟩ := hs.at_read hpc ha
  have hguard := hG a (by simp [ha])
  -- Without an error pending, the socket is not touched.
  have hpending := pendingError_of_calm hs.calm
  have hend : rejectsReply s.sock a.response = true → c.isLast = true := by
    intro hrejects
    by_contra hlast
    have hopen := (hstill (by simpa using hlast)).1
    rw [hguard hrejects] at hopen
    cases hopen
  have hfinal : { c with response := a.response }.final = true := hread.final
  rw [Sender.readStep]
  by_cases hrc : (mwsocketPendingError s.sock .socketSend).1 = 0
  · simp only [hrc, ne_eq, not_true_eq_false, if_false, Sender.failure_final _ hfinal]
    rw [hpending, hfini]
    cases hlast : c.isLast with
    | true =>
        obtain ⟨hflight, hshut, hcount⟩ := hclosed hlast
        have hfinals : ∀ f ∈ s.finals ++ [(a.sent.call, a.response.count)],
            f.1 ≤ s.calls ∧ f.2 = s.report f.1 := by
          intro f hf
          rcases List.mem_append.mp hf with hf | hf
          · exact hs.traffic.finals f hf
          · rw [List.mem_singleton.mp hf, hcall, hcount]
            exact ⟨le_rfl, rfl⟩
        simp only [and_self, if_true]
        split
        · exact hs.finish hflight hshut hfinals _
        · rw [Sender.settle_done _ (chunk_last (c := { c with response := a.response }) hlast)]
          exact hs.finish hflight hshut hfinals _
    | false =>
        have haccepts : ¬ (isCriticalError a.response.status ||
            decide (a.response.status < 0)) = true := by
          intro hreject
          have hlast' := hend (by rw [rejectsReply, Bool.or_assoc, hreject, Bool.or_true])
          rw [hlast] at hlast'
          cases hlast'
        have hnext := hread.next hlast a.response
        obtain ⟨hown, hechoes, hlast', hfresh, hfinals⟩ := hs.traffic
        rw [if_neg haccepts, Sender.settle_more _ hnext.more]
        simp only [Bool.false_eq_true, and_false, if_false]
        exact ⟨hs.calm, ⟨hown, hechoes, hlast', hfresh, hfinals⟩,
          phase_loop rfl hnext rfl hunreported hawaited (.inl (hstill hlast))⟩
  · -- The response is not read, but the call ends here all the same.
    have hlast := hend (by simp [rejectsReply, hrc])
    obtain ⟨hflight, hshut, -⟩ := hclosed hlast
    simp only [hrc, ne_eq, not_false_eq_true, if_true, false_and, if_false,
      Sender.failure_final _ hread.final, Sender.settle_done _ (chunk_last hlast)]
    rw [hpending]
    split <;> exact hs.finish hflight hshut hs.traffic.finals _

/-- One step. -/
theorem Batched.step (hs : Batched s) {e : SendEvent} {s' : Sender} (hG : goodSend s e)
    (hstep : Sender.step s e = some s') : Batched s' := by
  cases e with
  | call buf opFlags =>
      simp only [Sender.step] at hstep
      split at hstep
      · rename_i hpc
        cases hstep
        exact hs.call hpc buf opFlags
      · cases hstep
  | write w =>
      simp only [Sender.step] at hstep
      split at hstep
      · rename_i c hpc
        split_ifs at hstep
        cases hstep
        exact hs.write hpc w hG
      · cases hstep
  | serve count status closed =>
      simp only [Sender.step] at hstep
      split at hstep
      · cases hstep
      · rename_i p rest hp
        split_ifs at hstep
        cases hstep
        exact hs.serve hp count status closed
  | dispatchError k stale =>
      simp only [Sender.step] at hstep
      split at hstep
      · cases hstep
      · rename_i p hk
        split_ifs at hstep
        cases hstep
        exact hs.dispatchError hk (hG p (by simp [hk])) stale
  | consume =>
      simp only [Sender.step] at hstep
      split at hstep
      · cases hstep
      · rename_i a rest hring
        cases hstep
        exact hs.consume hring hG
  | read =>
      simp only [Sender.step] at hstep
      split at hstep
      · rename_i c a hpc ha
        cases hstep
        exact hs.read hpc ha hG
      · cases hstep

end

/-! ## Whole runs -/

theorem batched_init {sock : SockInst} (hclosed : batchOpen sock = false)
    (hcalm : sock.pendingErrno = 0) : Batched (sender sock).init where
  calm := hcalm
  traffic := by
    refine ⟨?_, ?_, List.Pairwise.nil, fun _ _ => rfl, ?_⟩
    · exact fun p hp => absurd hp List.not_mem_nil
    · exact fun a ha => absurd ha List.not_mem_nil
    · exact fun f hf => absurd hf List.not_mem_nil
  phase := phase_idle rfl rfl rfl hclosed

/-- Two chunks; the driver has no memory for the second one, the loop of `send`
sends it once more and waits. -/
def retriedSend : List SendEvent :=
  [.call (List.replicate 4000 7) 0, .write .granted, .write .noMemory, .write .granted,
    .serve 1985 0 false, .serve 1985 0 false, .consume, .consume, .read, .write .granted,
    .serve 30 0 false, .consume, .read]

/-- A `send` of two chunks loses the second one for lack of memory and ends with
the batch open; the next `send` is told about its own 10 bytes and the 1985 of
the first one. -/
def abortedSend : List SendEvent :=
  [.call (List.replicate 2000 7) 0, .write .granted, .serve 1985 0 false, .consume,
    .write .noMemory, .call (List.replicate 10 8) 0, .write .granted, .serve 10 0 false,
    .consume, .read]

end MagicWand.Shim
