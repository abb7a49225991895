import MagicWand.Kernel.FileOps
import MagicWand.Kernel.Views

/-!
# The steps of the file operations

What a thread can do, said once: `Move` has one constructor for every branch of
`move` (`move_inv`). The active requests are followed by what they keep as long as
they live (`Kind`): some of them are removed, or a new one is filed at the next
address (`Filing`).
-/

namespace MagicWand.Kernel

open Foundation

/-! ## What an active request keeps -/

structure Kind where
  ref : Nat
  id : MtId
  sock : Nat
  fromUser : Bool
  type : MtRequestType
  waits : Bool
deriving DecidableEq, Repr

def ActReq.kind (a : ActReq) : Kind where
  ref := a.ref
  id := a.id
  sock := a.sockinst
  fromUser := a.fromUser
  type := a.request.type
  waits := a.request.callerWaits

namespace Globals

def kinds (g : Globals) : List Kind := g.activeRequests.map ActReq.kind

theorem mem_kinds {g : Globals} {a : ActReq} (h : a ∈ g.activeRequests) : a.kind ∈ g.kinds :=
  List.mem_map.mpr ⟨a, h, rfl⟩

/-- Addresses and ids are distinct, ids are set, and addresses are handed out in
order. -/
structure Numbered (g : Globals) : Prop where
  refs : (g.kinds.map Kind.ref).Nodup
  ids : (g.kinds.map Kind.id).Nodup
  set : ∀ k ∈ g.kinds, k.id ≠ mtIdUnsetValue
  below : ∀ k ∈ g.kinds, k.ref < g.nextRef

/-- An active request as it is made. -/
def newRequest (ref : Nat) (id : MtId) (sock : Nat) (fromUser deliver : Bool) (req : MtRequest) :
    ActReq :=
  { ref := ref, id := id, sockinst := sock, fromUser := fromUser, deliverResponse := deliver,
    request := req }

/-- What `mwsocket_create_active_request` files. -/
structure Created (g : Globals) (sock : Nat) (fromUser deliver : Bool) (req : MtRequest)
    (g' : Globals) (ref : Nat) (id : MtId) : Prop where
  ref_eq : ref = g.nextRef
  drawn : g.mwsocketGetNextId (g.activeRequests.length + 1) = some id
  nextRef : g'.nextRef = g.nextRef + 1
  requests : g'.activeRequests =
    newRequest g.nextRef id sock fromUser deliver req :: g.activeRequests
  socks : g'.socks =
    Function.update g.socks sock { g.socks sock with refct := (g.socks sock).refct + 1 }

theorem create_inv {g g' : Globals} {sock ref : Nat} {fromUser deliver : Bool} {req : MtRequest}
    (h : g.mwsocketCreateActiveRequest sock fromUser deliver req = some (g', ref)) :
    ∃ id, Created g sock fromUser deliver req g' ref id := by
  rw [mwsocketCreateActiveRequest] at h
  split at h
  · obtain ⟨id, hid, heq⟩ := Option.map_eq_some_iff.mp h
    cases heq
    exact ⟨id, rfl, hid, rfl, rfl, rfl⟩
  · cases h

theorem Created.reqAt {g g' : Globals} {sock ref : Nat} {fromUser deliver : Bool} {req : MtRequest}
    {id : MtId} (h : Created g sock fromUser deliver req g' ref id) :
    g'.reqAt ref = some (newRequest ref id sock fromUser deliver req) := by
  rw [Globals.reqAt, h.requests, ← h.ref_eq]
  exact List.find?_cons_of_pos (by simp [newRequest])

/-! ## Filing -/

/-- Active requests go, or one is filed at the next address. -/
inductive Filing (g g' : Globals) : Prop where
  | kept (hkinds : g'.kinds.Sublist g.kinds) (hnext : g'.nextRef = g.nextRef)
  | opened (k : Kind) (href : k.ref = g.nextRef)
      (hid : g.mwsocketGetNextId (g.activeRequests.length + 1) = some k.id)
      (hkinds : g'.kinds = k :: g.kinds) (hnext : g'.nextRef = g.nextRef + 1)

theorem Filing.same {g g' : Globals} (hreqs : g'.activeRequests = g.activeRequests)
    (hnext : g'.nextRef = g.nextRef) : Filing g g' :=
  .kept (by rw [kinds, hreqs]; exact List.Sublist.refl _) hnext

theorem Filing.created {g g' : Globals} {sock ref : Nat} {fromUser deliver : Bool}
    {req : MtRequest} {id : MtId} (h : Created g sock fromUser deliver req g' ref id) :
    Filing g g' := by
  refine .opened (newRequest g.nextRef id sock fromUser deliver req).kind rfl h.drawn ?_ h.nextRef
  rw [kinds, h.requests]
  rfl

theorem Numbered.step {g g' : Globals} (h : Numbered g) (hfile : Filing g g') : Numbered g' := by
  cases hfile with
  | kept hkinds hnext =>
      constructor
      · exact h.refs.sublist (hkinds.map _)
      · exact h.ids.sublist (hkinds.map _)
      · intro k hk
        exact h.set k (hkinds.subset hk)
      · intro k hk
        rw [hnext]
        exact h.below k (hkinds.subset hk)
  | opened k href hid hkinds hnext =>
      obtain ⟨hset, hfresh⟩ := mwsocketGetNextId_spec hid
      have hids : g.kinds.map Kind.id = g.keys.map Prod.snd := by
        simp [kinds, keys, ActReq.kind]
      have hnew : k.ref ∉ g.kinds.map Kind.ref := by
        intro hmem
        obtain ⟨k', hk', heq⟩ := List.mem_map.mp hmem
        have := h.below k' hk'
        omega
      constructor
      · rw [hkinds, List.map_cons, List.nodup_cons]
        exact ⟨hnew, h.refs⟩
      · rw [hkinds, List.map_cons, List.nodup_cons, hids]
        exact ⟨hfresh, hids ▸ h.ids⟩
      · intro k' hk'
        rw [hkinds] at hk'
        rcases List.mem_cons.mp hk' with rfl | hk'
        · exact hset
        · exact h.set k' hk'
      · intro k' hk'
        rw [hkinds] at hk'
        rw [hnext]
        rcases List.mem_cons.mp hk' with rfl | hk'
        · omega
        · exact Nat.lt_succ_of_lt (h.below k' hk')

end Globals

namespace FileState

/-! ## Moves of a thread -/

/-- What the end of `mwsocket_ins_sock_replicator` does, with its return code. -/
inductive Replicated (s : FileState) (t : Nat) (c : Choice) (p q : Nat) (waits : Bool) :
    FileState → Int → Prop where
  | outstanding (hflag : (s.g.socks q).mwflags.has MwFlags.accept = true) :
      Replicated s t c p q waits s 0
  | uncreated {rc : Int} (hrc : rc < 0) : Replicated s t c p q waits s rc
  | sent {g : Globals} {ref : Nat} {id : MtId}
      (hflag : (s.g.socks q).mwflags.has MwFlags.accept = false)
      (hnew : Globals.Created s.g q false true (acceptRequest s.g p q waits) g ref id) :
      Replicated s t c p q waits
        (sent { s with g := g } t
          (Globals.newRequest ref id q false true (acceptRequest s.g p q waits)) c).1
        (sent { s with g := g } t
          (Globals.newRequest ref id q false true (acceptRequest s.g p q waits)) c).2

/-- A thread at a place, the state it makes of `s`, and where it goes. -/
inductive Move (s : FileState) (t : Nat) (c : Choice) : Pc → FileState → Pc → Prop where
  | wInterrupted {r : Nat} {req : MtRequest} {len : Nat} (hint : c.interrupted = true) :
      Move s t c (.wDown r req len) (s.invalidate r) (.wFail r (-eintr) none)
  | wDown {r : Nat} {req : MtRequest} {len : Nat} (hint : c.interrupted = false)
      (hsem : 0 < (s.g.socks r).requestSem) :
      Move s t c (.wDown r req len) (s.down r t) (.wCheck r req len)
  | wBusy {r : Nat} {req : MtRequest} {len : Nat} (hvalid : (s.g.socks r).stateValid = true)
      (hread : (s.g.socks r).readExpected = true) :
      Move s t c (.wCheck r req len) s (.wFail r (-eio) none)
  | wAccept {r : Nat} {req : MtRequest} {len : Nat}
      (hfree : (s.g.socks r).stateValid = true → (s.g.socks r).readExpected = false)
      (htype : req.type = .socketAccept) :
      Move s t c (.wCheck r req len) (s.acceptWritten r) (.wReplicate r req 0 false)
  | wPlain {r : Nat} {req : MtRequest} {len : Nat}
      (hfree : (s.g.socks r).stateValid = true → (s.g.socks r).readExpected = false)
      (htype : req.type ≠ .socketAccept) :
      Move s t c (.wCheck r req len) s (.wCreate r req len)
  | wReplicate {r : Nat} {req : MtRequest} {rc : Int} {own : Bool} {q : Nat} {u : FileState}
      {rc' : Int} (htarget : c.target = some q) (hsib : (s.g.socks q).usersock = r)
      (h : Replicated s t c r q (decide (q = r) && req.callerWaits) u rc') :
      Move s t c (.wReplicate r req rc own) u
        (.wReplicate r req (if rc' = 0 then rc else rc') (own || decide (q = r)))
  | wReplicated {r : Nat} {req : MtRequest} {rc : Int} {own : Bool} (htarget : c.target = none)
      (hown : own = true ∨ (s.g.socks r).insAlive = false) :
      Move s t c (.wReplicate r req rc own) (s.expect r t)
        (if rc = 0 then .wUp r 0 true else .wFail r rc none)
  | wUncreated {r : Nat} {req : MtRequest} {len : Nat} {rc : Int} (hrc : rc < 0) :
      Move s t c (.wCreate r req len) s (.wFail r rc none)
  | wCreated {r : Nat} {req : MtRequest} {len : Nat} {g : Globals} {ref : Nat} {id : MtId}
      (hnew : Globals.Created s.g r true false req g ref id) :
      Move s t c (.wCreate r req len) { s with g := g } (.wSend r len ref)
  | wRejected {r len ref : Nat} {rc : Int} (hrc : rc < 0) :
      Move s t c (.wSend r len ref) s (.wFail r rc (some ref))
  | wRefused {r len ref : Nat} {a : ActReq} {rc : Int} (ha : s.g.reqAt ref = some a)
      (hrc : (mwsocketPendingError (s.g.socks r) a.request.type).1 = rc) (hne : rc ≠ 0) :
      Move s t c (.wSend r len ref) (s.deliverError r a.request.type) (.wFail r rc (some ref))
  | wPassed {r len ref : Nat} {a : ActReq} (ha : s.g.reqAt ref = some a)
      (hrc : (mwsocketPendingError (s.g.socks r) a.request.type).1 = 0) :
      Move s t c (.wSend r len ref) (s.deliverError r a.request.type) (.wPublish r ref)
  | wPublish {r ref : Nat} {a : ActReq} (ha : s.g.reqAt ref = some a) :
      Move s t c (.wPublish r ref) (s.sent t a c).1
        (if (s.sent t a c).2 = 0 then .wUp r 0 false else .wFail r (s.sent t a c).2 (some ref))
  | wFail {r : Nat} {rc : Int} {ref : Option Nat} :
      Move s t c (.wFail r rc ref) ((s.clear r t).destroy ref) (.wUp r rc false)
  | wUp {r : Nat} {rc : Int} {accept : Bool}
      (hdone : (s.g.socks r).readExpected = false ∨ (s.g.socks r).stateValid = false) :
      Move s t c (.wUp r rc accept) (s.up r t) .idle
  | wKeep {r : Nat} {rc : Int} {accept : Bool} (hread : (s.g.socks r).readExpected = true)
      (hvalid : (s.g.socks r).stateValid = true) : Move s t c (.wUp r rc accept) s .idle
  | rUnexpected {r len : Nat} (hvalid : (s.g.socks r).stateValid = true)
      (hread : (s.g.socks r).readExpected = false) :
      Move s t c (.rCheck r len) s (.rExit r (-einval) none)
  | rCheck {r len : Nat}
      (hread : (s.g.socks r).stateValid = true → (s.g.socks r).readExpected = true) :
      Move s t c (.rCheck r len) s (.rClear r len)
  | rClear {r len : Nat} : Move s t c (.rClear r len) (s.clear r t) (.rFind r len)
  | rNotFound {r len : Nat}
      (hnone : s.g.mwsocketFindActiveRequestById (s.g.socks r).blockid = none) :
      Move s t c (.rFind r len) s (.rExit r (-enoent) none)
  | rForget {r len : Nat} {a : ActReq}
      (ha : s.g.mwsocketFindActiveRequestById (s.g.socks r).blockid = some a)
      (hdeliver : a.deliverResponse = false) :
      Move s t c (.rFind r len) s (.rExit r (-einval) (some a.ref))
  | rAccept {r len : Nat} {a : ActReq}
      (ha : s.g.mwsocketFindActiveRequestById (s.g.socks r).blockid = some a)
      (hdeliver : a.deliverResponse = true) (hout : 0 < (s.g.socks r).userOutstandingAccept) :
      Move s t c (.rFind r len) (s.acceptRead r) (.rInbound r len a.sockinst)
  | rPlain {r len : Nat} {a : ActReq}
      (ha : s.g.mwsocketFindActiveRequestById (s.g.socks r).blockid = some a)
      (hdeliver : a.deliverResponse = true) (hout : (s.g.socks r).userOutstandingAccept = 0) :
      Move s t c (.rFind r len) s (.rWait r len a.ref)
  | rInterrupted {r len ref : Nat} (hint : c.interrupted = true) :
      Move s t c (.rWait r len ref) (s.expect r t) (.rExit r (-eintr) (some ref))
  | rArrived {r len ref : Nat} {a : ActReq} (hint : c.interrupted = false)
      (ha : s.g.reqAt ref = some a) (harrived : 0 < a.arrived) :
      Move s t c (.rWait r len ref) (s.wake ref) (.rDeliver r len ref)
  | rGiveUp {r len p : Nat} (hint : c.interrupted = true) :
      Move s t c (.rInbound r len p) (s.invalidate p) (.rExit r (-eintr) none)
  | rTake {r len p : Nat} (hint : c.interrupted = false)
      (hsem : 0 < (s.g.socks p).inboundSem) :
      Move s t c (.rInbound r len p) (s.takeInbound t p) (.rUnlink r len p)
  | rStay {r len p ref : Nat} {rest : List Nat} {a : ActReq}
      (hlist : (s.g.socks p).inboundList = ref :: rest) (ha : s.g.reqAt ref = some a)
      (hsock : a.sockinst = r) :
      Move s t c (.rUnlink r len p) (s.unlinkInbound t p rest) (.rDeliver r len ref)
  | rLeave {r len p ref : Nat} {rest : List Nat} {a : ActReq}
      (hlist : (s.g.socks p).inboundList = ref :: rest) (ha : s.g.reqAt ref = some a)
      (hsock : a.sockinst ≠ r) :
      Move s t c (.rUnlink r len p) ((s.unlinkInbound t p rest).up r t)
        (.rSwitch a.sockinst len ref)
  | rBarge {q len ref : Nat} (hint : c.interrupted = true) :
      Move s t c (.rSwitch q len ref) (s.clear q t) (.rDeliver q len ref)
  | rSwitch {q len ref : Nat} (hint : c.interrupted = false)
      (hsem : 0 < (s.g.socks q).requestSem) :
      Move s t c (.rSwitch q len ref) ((s.down q t).clear q t) (.rDeliver q len ref)
  | rShort {q len ref : Nat} {a : ActReq} (ha : s.g.reqAt ref = some a)
      (hlen : len < a.response.size) :
      Move s t c (.rDeliver q len ref) s (.rExit q (-einval) (some ref))
  | rFault {q len ref : Nat} {a : ActReq} (ha : s.g.reqAt ref = some a)
      (hconn : isConnection a.response = true) (hfault : c.fault < 0) :
      Move s t c (.rDeliver q len ref) s (.rExit q c.fault (some ref))
  | rError {q len ref : Nat} {a : ActReq} {rc : Int} (ha : s.g.reqAt ref = some a)
      (hrc : (mwsocketPendingError (s.g.socks q) (answers a.response)).1 = rc) (hne : rc ≠ 0) :
      Move s t c (.rDeliver q len ref) (s.deliverError q (answers a.response))
        (.rExit q rc (some ref))
  | rBadCopy {q len ref : Nat} {a : ActReq} (ha : s.g.reqAt ref = some a)
      (hcopy : c.badCopy = true) :
      Move s t c (.rDeliver q len ref) (s.deliverError q (answers a.response))
        (.rExit q (-efault) (some ref))
  | rHand {q len ref : Nat} {a : ActReq} (ha : s.g.reqAt ref = some a) :
      Move s t c (.rDeliver q len ref)
        { s.deliverError q (answers a.response) with
          handed := s.handed ++ [Handed.mk t ref (mwsocketPostprocInTask a.response c.fd)] }
        (.rExit q (mwsocketPostprocInTask a.response c.fd).size (some ref))
  | rKeep {q : Nat} {ref : Option Nat} :
      Move s t c (.rExit q (-eintr) ref) s (.rUp q (-eintr))
  | rExit {q : Nat} {rc : Int} {ref : Option Nat} (hrc : rc ≠ -eintr) :
      Move s t c (.rExit q rc ref) (s.destroy ref) (.rUp q rc)
  | rUp {q : Nat} {rc : Int} : Move s t c (.rUp q rc) (s.up q t) .idle
  | kNothing {r : Nat} {wait surprise : Bool} {rc : Int} :
      Move s t c (.kClose r wait surprise) s (.kEnd r rc none surprise)
  | kClose {r : Nat} {wait surprise : Bool}
      (hflag : (s.g.socks r).remoteCloseRequested = false) :
      Move s t c (.kClose r wait surprise) s (.kMark r wait surprise)
  | kUncreated {r : Nat} {wait surprise : Bool} {rc : Int} (hrc : rc < 0) :
      Move s t c (.kMark r wait surprise) (s.requestClose r) (.kEnd r rc none surprise)
  | kCreated {r : Nat} {wait surprise : Bool} {g : Globals} {ref : Nat} {id : MtId}
      (hnew : Globals.Created (s.requestClose r).g r false wait
        { type := .socketClose, size := mtRequestSocketCloseSize } g ref id) :
      Move s t c (.kMark r wait surprise) { s.requestClose r with g := g }
        (.kSend r ref wait surprise)
  | kSend {r ref : Nat} {wait surprise : Bool} {a : ActReq} (ha : s.g.reqAt ref = some a) :
      Move s t c (.kSend r ref wait surprise) (s.sent t a c).1
        (if (s.sent t a c).2 ≠ 0 then .kEnd r (s.sent t a c).2 (some ref) surprise
          else if wait then .kWait r ref surprise else .kEnd r 0 none surprise)
  | kWait {r ref : Nat} {surprise : Bool} {rc : Int} :
      Move s t c (.kWait r ref surprise) s (.kEnd r rc (some ref) surprise)
  | kEnd {r : Nat} {rc : Int} {ref : Option Nat} {surprise : Bool} :
      Move s t c (.kEnd r rc ref surprise)
        (if surprise && decide (rc = 0)
          then (s.destroy ref).tweak r fun k => { k with remoteSurpriseClose := true }
          else s.destroy ref) .idle
  | iUncreated {k : Sender} {r : Nat} {req : MtRequest} : Move s t c (.iCreate k r req) s .idle
  | iCreated {k : Sender} {r : Nat} {req : MtRequest} {g : Globals} {ref : Nat} {id : MtId}
      (hnew : Globals.Created s.g r false (decide (k ≠ .message false)) req g ref id) :
      Move s t c (.iCreate k r req) { s with g := g } (.iSend k r ref)
  | iSend {k : Sender} {r ref : Nat} {a : ActReq} {pc : Pc} (ha : s.g.reqAt ref = some a)
      (hpc : pc = .idle ∨ pc = .iWait k r ref ∨ pc = .iEnd r ref) :
      Move s t c (.iSend k r ref) (s.sent t a c).1 pc
  | iArrived {wait : Bool} {r ref : Nat} :
      Move s t c (.iWait (.message wait) r ref) (s.destroy (some ref)) (.iStale r ref)
  | iLate {wait : Bool} {r ref : Nat} : Move s t c (.iWait (.message wait) r ref) s .idle
  | iWait {k : Sender} {r ref : Nat} : Move s t c (.iWait k r ref) s (.iEnd r ref)
  | iEnd {r ref : Nat} : Move s t c (.iEnd r ref) (s.destroy (some ref)) .idle
  | iStale {r ref : Nat} : Move s t c (.iStale r ref) s .idle

section Inversion

variable {s s' : FileState} {t : Nat} {c : Choice}

/-- What `mwsocket_create_active_request` comes to. -/
theorem create_inv {r : Nat} {fromUser deliver : Bool} {req : MtRequest} {fault : Int}
    {x : Except Int (Globals × Nat)} (h : s.create r fromUser deliver req fault = some x) :
    (∃ rc, x = .error rc ∧ rc < 0) ∨
      ∃ g ref id, x = .ok (g, ref) ∧ Globals.Created s.g r fromUser deliver req g ref id := by
  rw [create] at h
  split at h
  · cases h
    exact .inl ⟨_, rfl, by decide⟩
  · split at h
    · rename_i hfault
      cases h
      exact .inl ⟨_, rfl, hfault⟩
    · obtain ⟨⟨g, ref⟩, hnew, rfl⟩ := Option.map_eq_some_iff.mp h
      obtain ⟨id, hid⟩ := Globals.create_inv hnew
      exact .inr ⟨g, ref, id, rfl, hid⟩

theorem send_eq {a : ActReq} {x : FileState × Int} (h : s.send t a c = some x) :
    x = s.sent t a c := by
  rw [send] at h
  split at h
  · cases h
    rfl
  · cases h

theorem replicateAccept_inv {p q : Nat} {waits : Bool} {x : FileState × Int}
    (h : s.replicateAccept t p q waits c = some x) : Replicated s t c p q waits x.1 x.2 := by
  rw [replicateAccept] at h
  split at h
  · rename_i hflag
    cases h
    exact .outstanding hflag
  · rename_i hflag
    split at h
    · cases h
    · rename_i rc hnew
      cases h
      rcases create_inv hnew with ⟨_, heq, hrc⟩ | ⟨_, _, _, heq, _⟩
      · cases heq
        exact .uncreated hrc
      · cases heq
    · rename_i g ref hnew
      rcases create_inv hnew with ⟨_, heq, _⟩ | ⟨_, _, id, heq, hid⟩
      · cases heq
      · cases heq
        rw [hid.reqAt] at h
        rw [send_eq h]
        exact .sent (by simpa using hflag) hid

theorem writeHead_inv {pc : Pc} (h : s.writeHead t c pc = some s') :
    ∃ u pc', Move s t c pc u pc' ∧ s' = u.goto t pc' := by
  cases pc with
  | wDown r req len =>
      simp only [writeHead] at h
      split at h
      · rename_i hint
        cases h
        exact ⟨_, _, .wInterrupted hint, rfl⟩
      · rename_i hint
        split at h
        · rename_i hsem
          cases h
          exact ⟨_, _, .wDown (by simpa using hint) hsem, rfl⟩
        · cases h
  | wCheck r req len =>
      simp only [writeHead] at h
      split at h
      · rename_i hbusy
        cases h
        rw [Bool.and_eq_true] at hbusy
        exact ⟨_, _, .wBusy hbusy.1 hbusy.2, rfl⟩
      · rename_i hfree
        have hread : (s.g.socks r).stateValid = true → (s.g.socks r).readExpected = false := by
          simpa using hfree
        split at h
        · rename_i htype
          cases h
          exact ⟨_, _, .wAccept hread htype, rfl⟩
        · rename_i htype
          cases h
          exact ⟨_, _, .wPlain hread htype, rfl⟩
  | wReplicate r req rc own =>
      simp only [writeHead] at h
      split at h
      · rename_i q htarget
        split at h
        · rename_i hsib
          obtain ⟨x, hx, rfl⟩ := Option.map_eq_some_iff.mp h
          exact ⟨_, _, .wReplicate htarget hsib (replicateAccept_inv hx), rfl⟩
        · cases h
      · rename_i htarget
        split at h
        · rename_i hown
          cases h
          exact ⟨_, _, .wReplicated htarget (by simpa using hown), rfl⟩
        · cases h
  | wCreate r req len =>
      simp only [writeHead] at h
      obtain ⟨x, hx, rfl⟩ := Option.map_eq_some_iff.mp h
      rcases create_inv hx with ⟨rc, rfl, hrc⟩ | ⟨g, ref, id, rfl, hnew⟩
      · exact ⟨_, _, .wUncreated hrc, rfl⟩
      · exact ⟨_, _, .wCreated hnew, rfl⟩
  | _ => cases h

theorem writeTail_inv {pc : Pc} (h : s.writeTail t c pc = some s') :
    ∃ u pc', Move s t c pc u pc' ∧ s' = u.goto t pc' := by
  cases pc with
  | wSend r len ref =>
      simp only [writeTail] at h
      split at h
      · cases h
      · rename_i a ha
        split at h
        · cases h
          exact ⟨_, _, .wRejected (by decide), rfl⟩
        · split at h
          · cases h
            exact ⟨_, _, .wRejected (by decide), rfl⟩
          · cases h
            split
            · rename_i hne
              exact ⟨_, _, .wRefused ha rfl hne, rfl⟩
            · rename_i hzero
              exact ⟨_, _, .wPassed ha (by simpa using hzero), rfl⟩
  | wPublish r ref =>
      simp only [writeTail] at h
      split at h
      · cases h
      · rename_i a ha
        obtain ⟨x, hx, rfl⟩ := Option.map_eq_some_iff.mp h
        rw [send_eq hx]
        exact ⟨_, _, .wPublish ha, rfl⟩
  | wFail r rc ref =>
      cases h
      exact ⟨_, _, .wFail, rfl⟩
  | wUp r rc accept =>
      simp only [writeTail] at h
      split at h
      · rename_i hdone
        cases h
        exact ⟨_, _, .wUp (by simpa using hdone), rfl⟩
      · rename_i hkeep
        cases h
        rw [Bool.or_eq_true, not_or] at hkeep
        exact ⟨_, _, .wKeep (by simpa using hkeep.1) (by simpa using hkeep.2), rfl⟩
  | _ => cases h

theorem readHead_inv {pc : Pc} (h : s.readHead t c pc = some s') :
    ∃ u pc', Move s t c pc u pc' ∧ s' = u.goto t pc' := by
  cases pc with
  | rCheck r len =>
      simp only [readHead] at h
      split at h
      · rename_i hunexpected
        cases h
        rw [Bool.and_eq_true] at hunexpected
        exact ⟨_, _, .rUnexpected hunexpected.1 (by simpa using hunexpected.2), rfl⟩
      · rename_i hread
        cases h
        exact ⟨_, _, .rCheck (by simpa using hread), rfl⟩
  | rClear r len =>
      cases h
      exact ⟨_, _, .rClear, rfl⟩
  | rFind r len =>
      simp only [readHead] at h
      split at h
      · rename_i hnone
        cases h
        exact ⟨_, _, .rNotFound hnone, rfl⟩
      · rename_i a ha
        split at h
        · rename_i hdeliver
          cases h
          exact ⟨_, _, .rForget ha (by simpa using hdeliver), rfl⟩
        · rename_i hdeliver
          split at h
          · rename_i hout
            cases h
            exact ⟨_, _, .rAccept ha (by simpa using hdeliver) hout, rfl⟩
          · rename_i hout
            cases h
            exact ⟨_, _, .rPlain ha (by simpa using hdeliver) (by simpa using hout), rfl⟩
  | rWait r len ref =>
      simp only [readHead] at h
      split at h
      · rename_i hint
        cases h
        exact ⟨_, _, .rInterrupted hint, rfl⟩
      · rename_i hint
        split at h
        · cases h
        · rename_i a ha
          split at h
          · rename_i harrived
            cases h
            exact ⟨_, _, .rArrived (by simpa using hint) ha harrived, rfl⟩
          · cases h
  | _ => cases h

theorem readInbound_inv {pc : Pc} (h : s.readInbound t c pc = some s') :
    ∃ u pc', Move s t c pc u pc' ∧ s' = u.goto t pc' := by
  cases pc with
  | rInbound r len p =>
      simp only [readInbound] at h
      split at h
      · rename_i hint
        cases h
        exact ⟨_, _, .rGiveUp hint, rfl⟩
      · rename_i hint
        split at h
        · rename_i hsem
          cases h
          exact ⟨_, _, .rTake (by simpa using hint) hsem, rfl⟩
        · cases h
  | rUnlink r len p =>
      simp only [readInbound] at h
      split at h
      · cases h
      · rename_i ref rest hlist
        split at h
        · cases h
        · rename_i a ha
          split at h
          · rename_i hsock
            cases h
            exact ⟨_, _, .rStay hlist ha hsock, rfl⟩
          · rename_i hsock
            cases h
            exact ⟨_, _, .rLeave hlist ha hsock, rfl⟩
  | rSwitch q len ref =>
      simp only [readInbound] at h
      split at h
      · rename_i hint
        cases h
        exact ⟨_, _, .rBarge hint, rfl⟩
      · rename_i hint
        split at h
        · rename_i hsem
          cases h
          exact ⟨_, _, .rSwitch (by simpa using hint) hsem, rfl⟩
        · cases h
  | _ => cases h

theorem readTail_inv {pc : Pc} (h : s.readTail t c pc = some s') :
    ∃ u pc', Move s t c pc u pc' ∧ s' = u.goto t pc' := by
  cases pc with
  | rDeliver q len ref =>
      simp only [readTail] at h
      split at h
      · cases h
      · rename_i a ha
        split at h
        · rename_i hlen
          cases h
          exact ⟨_, _, .rShort ha hlen, rfl⟩
        · split at h
          · rename_i hfault
            cases h
            rw [Bool.and_eq_true, decide_eq_true_eq] at hfault
            exact ⟨_, _, .rFault ha hfault.1 hfault.2, rfl⟩
          · split at h
            · rename_i hne
              cases h
              exact ⟨_, _, .rError ha rfl hne, rfl⟩
            · split at h
              · rename_i hcopy
                cases h
                exact ⟨_, _, .rBadCopy ha hcopy, rfl⟩
              · cases h
                exact ⟨_, _, .rHand ha, rfl⟩
  | rExit q rc ref =>
      simp only [readTail] at h
      cases h
      split
      · rename_i hrc
        subst hrc
        exact ⟨_, _, .rKeep, rfl⟩
      · rename_i hrc
        exact ⟨_, _, .rExit hrc, rfl⟩
  | rUp q rc =>
      cases h
      exact ⟨_, _, .rUp, rfl⟩
  | _ => cases h

theorem closeStep_inv {pc : Pc} (h : s.closeStep t c pc = some s') :
    ∃ u pc', Move s t c pc u pc' ∧ s' = u.goto t pc' := by
  cases pc with
  | kClose r wait surprise =>
      simp only [closeStep] at h
      split at h
      · cases h
        exact ⟨_, _, .kNothing, rfl⟩
      · split at h
        · cases h
          exact ⟨_, _, .kNothing, rfl⟩
        · rename_i hflag
          cases h
          exact ⟨_, _, .kClose (by simpa using hflag), rfl⟩
  | kMark r wait surprise =>
      simp only [closeStep] at h
      obtain ⟨x, hx, rfl⟩ := Option.map_eq_some_iff.mp h
      rcases create_inv hx with ⟨rc, rfl, hrc⟩ | ⟨g, ref, id, rfl, hnew⟩
      · exact ⟨_, _, .kUncreated hrc, rfl⟩
      · exact ⟨_, _, .kCreated hnew, rfl⟩
  | kSend r ref wait surprise =>
      simp only [closeStep] at h
      split at h
      · cases h
      · rename_i a ha
        obtain ⟨x, hx, rfl⟩ := Option.map_eq_some_iff.mp h
        rw [send_eq hx]
        exact ⟨_, _, .kSend ha, rfl⟩
  | kWait r ref surprise =>
      simp only [closeStep] at h
      split at h
      · cases h
      · split at h
        · cases h
          exact ⟨_, _, .kWait, rfl⟩
        · cases h
          exact ⟨_, _, .kWait, rfl⟩
  | kEnd r rc ref surprise =>
      cases h
      exact ⟨_, _, .kEnd, rfl⟩
  | _ => cases h

theorem askStep_inv {pc : Pc} (h : s.askStep t c pc = some s') :
    ∃ u pc', Move s t c pc u pc' ∧ s' = u.goto t pc' := by
  cases pc with
  | iCreate k r req =>
      simp only [askStep] at h
      obtain ⟨x, hx, rfl⟩ := Option.map_eq_some_iff.mp h
      rcases create_inv hx with ⟨rc, rfl, hrc⟩ | ⟨g, ref, id, rfl, hnew⟩
      · exact ⟨_, _, .iUncreated, rfl⟩
      · exact ⟨_, _, .iCreated hnew, rfl⟩
  | iSend k r ref =>
      simp only [askStep] at h
      split at h
      · cases h
      · rename_i a ha
        obtain ⟨x, hx, rfl⟩ := Option.map_eq_some_iff.mp h
        rw [send_eq hx]
        refine ⟨_, _, .iSend ha ?_, rfl⟩
        cases k with
        | attrib =>
            simp only
            split
            · exact .inr (.inl rfl)
            · exact .inr (.inr rfl)
        | message wait =>
            simp only
            split
            · exact .inr (.inl rfl)
            · exact .inl rfl
        | bare => exact .inr (.inr rfl)
  | iWait k r ref =>
      simp only [askStep] at h
      split at h
      · cases h
      · split at h
        · split at h
          · cases h
            exact ⟨_, _, .iArrived, rfl⟩
          · cases h
            exact ⟨_, _, .iLate, rfl⟩
        · cases h
          exact ⟨_, _, .iWait, rfl⟩
  | iEnd r ref =>
      cases h
      exact ⟨_, _, .iEnd, rfl⟩
  | iStale r ref =>
      cases h
      exact ⟨_, _, .iStale, rfl⟩
  | _ => cases h

theorem move_inv (h : s.move t c = some s') :
    ∃ u pc', Move s t c (s.pc t) u pc' ∧ s' = u.goto t pc' := by
  rw [move] at h
  split at h
  · cases h
  all_goals first
    | exact writeHead_inv h
    | exact writeTail_inv h
    | exact readHead_inv h
    | exact readInbound_inv h
    | exact readTail_inv h
    | exact closeStep_inv h
    | exact askStep_inv h

end Inversion

end FileState

end MagicWand.Kernel
