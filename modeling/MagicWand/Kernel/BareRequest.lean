import MagicWand.Foundation.Tally
import MagicWand.Kernel.Replicator

/-!
# Bare requests

`mwsocket_send_bare_request` publishes a request of its own, reads the record
the response will be stored in, and destroys it. Request and response share one
union there, and nothing in the function waits for the response consumer.

A call is replayed against the driver of `Kernel/Requests.lean`: the creation,
the publication and the end are its own steps, and a `Timing` says what everyone
else does before each of them.
-/

namespace MagicWand.Kernel

open Foundation

def ebadf : Int := 9
def enospc : Int := 28

/-- `mwsocket_find_sockinst_by_remote_fd`, on the sockets in the order of their list. -/
def Globals.mwsocketFindSockinstByRemoteFd (g : Globals) (sockinsts : List Nat)
    (remoteFd : MwSocketFd) : Option Nat :=
  sockinsts.find? fun c => (g.socks c).remoteFd = remoteFd

/-- What a reader of `rr` finds at the address of an active request. -/
inductive Held where
  | request (r : MtRequest)
  | response (r : MtResponse)
  | freed
deriving DecidableEq, Repr

/-- `base.size`, which is at the same place in requests and responses. Of a
record that has been freed nothing is known; it passes for empty. -/
def Held.size : Held → Nat
  | .request r => r.size
  | .response r => r.size
  | .freed => 0

def ActReq.held (a : ActReq) : Held :=
  if a.responsePopulated then .response a.response else .request a.request

def Globals.heldAt (g : Globals) (ref : Nat) : Held :=
  match g.reqAt ref with
  | none => .freed
  | some a => a.held

namespace Driver

/-- The steps of everyone else. -/
def others : System Driver DriverEvent where
  init := {}
  step := driverStep

/-- The messages of a request that are on the rings of an INS. -/
def owedOn (ref : Nat) (s : Driver) (ins : Fin maxInsCount) : Nat :=
  (s.pending ins).countP (fun p => p.ref = ref) + (s.ring ins).countP (fun ans => ans.ref = ref)

/-- The messages of a request that are still to come. -/
def owed (ref : Nat) (s : Driver) : Nat := ∑ ins, s.owedOn ref ins

/-- The answer to a request that the consumer takes in a step. -/
def taken (ref : Nat) (s : Driver) : DriverEvent → List Answer
  | .consume ins => (s.ring ins).head?.toList.filter fun ans => ans.ref = ref
  | _ => []

/-- `mwsocket_destroy_active_request` on an address. -/
def destroyAt (s : Driver) (ref : Nat) : Driver :=
  match s.g.reqAt ref with
  | none => s
  | some a => { s with g := s.g.mwsocketDestroyActiveRequest a }

end Driver

/-- Does a step put the request at an address on a ring? -/
def DriverEvent.publishes (ref : Nat) : DriverEvent → Bool
  | .send r _ _ _ => r = ref
  | _ => false

/-- What the ring gives a call, and what the others do until it publishes its
request, until it reads the record, and until it destroys it. -/
structure Timing where
  before : List DriverEvent := []
  ins : Fin maxInsCount := insZero
  slot : Globals.Slot := .granted 0
  acquired : Bool := false
  during : List DriverEvent := []
  after : List DriverEvent := []

/-- What a call has done: its return code, the id of its request, whether that
was published, what the record held when it was read, and what was copied to the
caller. The rest is history: the answers to it that the consumer took until the
record was read, those that it took later, and the messages of the request that
were on a ring when the record was destroyed. -/
structure BareCall where
  rc : Int
  id : MtId := mtIdUnsetValue
  posted : Bool := false
  read : Option Held := none
  copied : Option Held := none
  early : List Answer := []
  late : List Answer := []
  owed : Nat := 0
deriving DecidableEq, Repr

namespace Driver

/-- `mwsocket_send_bare_request` once it has its record. -/
def bareExchange (s : Driver) (ref room : Nat) (t : Timing) : Option (BareCall × Driver) :=
  (others.runFrom s t.before).bind fun s₁ =>
    (s₁.g.reqAt ref).bind fun a =>
      (driverStep s₁ (.send ref t.ins t.slot t.acquired)).bind fun s₂ =>
        (others.runFrom s₂ t.during).bind fun s₃ =>
          (others.runFrom s₃ t.after).map fun s₄ =>
            let (_, sent, posted) := s₁.g.mwsocketSendRequest a t.slot t.acquired
            let read := if sent = 0 then some (s₃.g.heldAt ref) else none
            let copied := read.filter fun h => h.size ≤ room
            ({ rc := if sent ≠ 0 then sent else if copied = none then -enospc else 0
               id := a.id
               posted := posted.isSome
               read := read
               copied := copied
               early := others.trail (taken ref) s₂ t.during
               late := others.trail (taken ref) s₃ t.after
               owed := s₄.owed ref },
             s₄.destroyAt ref)

/-- `mwsocket_send_bare_request`; `room` is the size the caller gives for the
response. -/
def mwsocketSendBareRequest (s : Driver) (sockinsts : List Nat) (req : MtRequest) (room : Nat)
    (t : Timing) : Option (BareCall × Driver) :=
  if mtRequestGenericSize < req.size then some ({ rc := -einval }, s)
  else match s.g.mwsocketFindSockinstByRemoteFd sockinsts req.sockfd with
    | none => some ({ rc := -ebadf }, s)
    | some sock =>
        if (s.g.socks sock).insAlive then
          (driverStep s (.create sock false true req)).bind fun s' =>
            s'.bareExchange s.g.nextRef room t
        else some ({ rc := -einval }, s)

end Driver

namespace BareCall

/-- What the caller of a bare request relies on. The consumer adds the tally of
a batch to the count of a response, and changes nothing else in it. -/
structure Faithful (c : BareCall) : Prop where
  answered : c.rc = 0 → ∃ resp, c.copied = some (.response resp) ∧ resp.id = c.id ∧
    ∃ ans ∈ c.early, ∃ n, resp = { ans.response with count := n }
  settled : c.owed = 0

/-- The consumer has been there first: it has taken the answer when the record
is read, and has left the record in place; and a request that went out has been
answered when its record is destroyed. -/
structure Awaited (c : BareCall) (room : Nat) : Prop where
  read : ∀ h, c.read = some h → h.size ≤ room → c.early ≠ [] ∧ h ≠ .freed
  destroyed : c.posted = true → c.early ++ c.late ≠ []

end BareCall

/-! ## No message is lost or doubled -/

namespace Driver

theorem owed_change {s : Driver} (s' : Driver) (ref : Nat) (ins : Fin maxInsCount)
    (hother : ∀ j, j ≠ ins → s'.pending j = s.pending j ∧ s'.ring j = s.ring j) :
    s'.owed ref + s.owedOn ref ins = s.owed ref + s'.owedOn ref ins := by
  refine sum_change (Finset.mem_univ ins) fun j hj => ?_
  obtain ⟨hpending, hring⟩ := hother j hj
  rw [owedOn, owedOn, hpending, hring]

theorem countP_eraseIdx {α : Type} (p : α → Bool) {l : List α} {k : Nat} {x : α}
    (h : l[k]? = some x) : (l.eraseIdx k).countP p + [x].countP p = l.countP p := by
  obtain ⟨hk, rfl⟩ := List.getElem?_eq_some_iff.mp h
  rw [← (List.getElem_cons_eraseIdx_perm hk).countP_eq p]
  simp only [List.countP_cons, List.countP_nil, Nat.zero_add]

/-- What a publication is. -/
theorem send_inv {s s' : Driver} {ref : Nat} {ins : Fin maxInsCount} {slot : Globals.Slot}
    {acquired : Bool} (h : driverStep s (.send ref ins slot acquired) = some s') :
    ∃ a, s.g.reqAt ref = some a ∧ s' = { s with
      g := (s.g.mwsocketSendRequest a slot acquired).1
      pending := Function.update s.pending ins (s.pending ins ++
        ((s.g.mwsocketSendRequest a slot acquired).2.2.map (Pending.mk ref)).toList) } := by
  simp only [driverStep] at h
  split at h
  · cases h
  · rename_i a ha
    split at h
    · exact ⟨a, ha, (Option.some.inj h).symm⟩
    · cases h

/-- The messages of a request after a publication. -/
theorem owed_sent (s : Driver) (g : Globals) (ref r : Nat) (ins : Fin maxInsCount)
    (posted : Option MtRequest) :
    Driver.owed ref { s with
      g := g
      pending := Function.update s.pending ins
        (s.pending ins ++ (posted.map (Pending.mk r)).toList) } =
      s.owed ref + if r = ref then posted.toList.length else 0 := by
  have hchange := owed_change (s := s)
    { s with
      g := g
      pending := Function.update s.pending ins
        (s.pending ins ++ (posted.map (Pending.mk r)).toList) } ref ins
    fun j hj => ⟨Function.update_of_ne hj _ _, rfl⟩
  have hnew : ((posted.map (Pending.mk r)).toList).countP (fun p => p.ref = ref) =
      if r = ref then posted.toList.length else 0 := by
    rcases posted with _ | req
    · simp
    · simp [List.countP_singleton]
  simp only [owedOn, Function.update_self, List.countP_append, hnew] at hchange
  omega

/-- Any other step keeps the messages of the request, or takes one from a ring. -/
theorem owed_step {s s' : Driver} {ref : Nat} {e : DriverEvent} (he : e.publishes ref = false)
    (h : driverStep s e = some s') : s'.owed ref + (s.taken ref e).length = s.owed ref := by
  rcases e with ⟨sock, fromUser, deliver, req⟩ | ⟨r, ins, slot, acquired⟩ | r | ⟨ins, k, resp⟩ |
    ins | ⟨sock, exiting, forknoexec⟩
  · obtain ⟨r, -, rfl⟩ := Option.map_eq_some_iff.mp h
    rfl
  · have hne : r ≠ ref := by simpa [DriverEvent.publishes] using he
    obtain ⟨a, -, rfl⟩ := send_inv h
    rw [owed_sent, if_neg hne]
    rfl
  · obtain ⟨a, -, rfl⟩ := Option.map_eq_some_iff.mp h
    rfl
  · simp only [driverStep] at h
    split at h
    · cases h
    · rename_i p hp
      split at h
      · cases h
        have hchange := owed_change (s := s)
          { s with
            pending := Function.update s.pending ins ((s.pending ins).eraseIdx k)
            ring := Function.update s.ring ins
              (s.ring ins ++ [⟨p.ref, { resp with id := p.request.id }⟩]) } ref ins
          fun j hj => ⟨Function.update_of_ne hj _ _, Function.update_of_ne hj _ _⟩
        have herase := countP_eraseIdx (fun p => decide (p.ref = ref)) hp
        simp only [List.countP_singleton] at herase
        simp only [owedOn, Function.update_self, List.countP_append,
          List.countP_singleton] at hchange
        simp only [taken, List.length_nil]
        omega
      · cases h
  · simp only [driverStep] at h
    split at h
    · cases h
    · rename_i ans rest hring
      cases h
      have hchange := owed_change (s := s)
        { s with
          g := s.g.mwsocketConsumeResponse ans.response
          ring := Function.update s.ring ins rest
          log := s.log ++ ((s.g.mwsocketFindActiveRequestById ans.response.id).map fun a =>
            (a.sockinst, ans.response)).toList } ref ins
        fun j hj => ⟨rfl, Function.update_of_ne hj _ _⟩
      have hhead : (s.taken ref (.consume ins)).length + rest.countP (fun ans => ans.ref = ref) =
          (s.ring ins).countP (fun ans => ans.ref = ref) := by
        rw [taken, hring, ← List.countP_eq_length_filter, Nat.add_comm]
        simp [List.countP_cons]
      simp only [owedOn, Function.update_self] at hchange
      omega
  · cases h
    rfl

/-- Over a run that does not publish the request. -/
theorem owed_run {ref : Nat} {es : List DriverEvent} {s s' : Driver}
    (hothers : ∀ e ∈ es, e.publishes ref = false) (hrun : others.runFrom s es = some s') :
    s'.owed ref + (others.trail (taken ref) s es).length = s.owed ref := by
  have hguarded := others.guardedFrom_of_mem s hothers
  have hinv : s'.owed ref + ([] ++ others.trail (taken ref) s es).length = s.owed ref := by
    refine others.guarded_trail (f := taken ref)
      (I := fun seen (x : Driver) => x.owed ref + seen.length = s.owed ref) ?_ hguarded hrun rfl
    intro seen x e x' he hx hI
    have := owed_step he hx
    rw [List.length_append]
    omega
  simpa using hinv

end Driver

/-! ## What the record holds -/

namespace Globals

/-- What is known of the record at an address, if there is one. -/
def Mailbox (g : Globals) (ref : Nat) (P : ActReq → Prop) : Prop := ∀ a, g.reqAt ref = some a → P a

variable {g g' : Globals} {ref : Nat} {P : ActReq → Prop}

theorem Mailbox.congr (h : g.Mailbox ref P) (g' : Globals)
    (heq : g'.activeRequests = g.activeRequests) : g'.Mailbox ref P := by
  intro a ha
  rw [reqAt, heq] at ha
  exact h a ha

theorem Mailbox.apart {r : Nat} (h : g.Mailbox ref P) (honly : OnlyAt r g g') (hne : ref ≠ r) :
    g'.Mailbox ref P := by
  intro a ha
  rw [honly ref hne] at ha
  exact h a ha

theorem reqAt_modifyReq (g : Globals) (ref r : Nat) {f : ActReq → ActReq}
    (hf : ∀ a, (f a).ref = a.ref) :
    (g.modifyReq r f).reqAt ref = (g.reqAt ref).map fun a => if a.ref = r then f a else a := by
  rw [reqAt, reqAt, modifyReq, List.find?_map]
  congr 2
  funext a
  simp only [Function.comp_apply]
  split
  · rw [hf]
  · rfl

theorem Mailbox.modifyReq (h : g.Mailbox ref P) (r : Nat) {f : ActReq → ActReq}
    (hf : ∀ a, (f a).ref = a.ref) (hP : ∀ a, P a → P (f a)) : (g.modifyReq r f).Mailbox ref P := by
  intro b hb
  rw [reqAt_modifyReq g ref r hf] at hb
  obtain ⟨a, ha, rfl⟩ := Option.map_eq_some_iff.mp hb
  split
  · exact hP a (h a ha)
  · exact h a ha

theorem Mailbox.destroyed (g : Globals) {a : ActReq} (href : a.ref = ref) :
    (g.mwsocketDestroyActiveRequest a).Mailbox ref P := by
  intro b hb
  obtain ⟨hmem, hb⟩ := reqAt_mem hb
  have := List.of_mem_filter hmem
  simp [hb, href] at this

theorem Mailbox.destroy (h : g.Mailbox ref P) (a : ActReq) :
    (g.mwsocketDestroyActiveRequest a).Mailbox ref P := by
  by_cases href : ref = a.ref
  · exact Mailbox.destroyed g href.symm
  · exact h.apart (onlyAt_destroy g a) href

/-- A publication changes the request in the record, and whether its response is
to be delivered. -/
theorem Mailbox.send (h : g.Mailbox ref P) (a : ActReq) (slot : Slot) (acquired : Bool)
    (hP : ∀ b req deliver, P b → P { b with request := req, deliverResponse := deliver }) :
    (g.mwsocketSendRequest a slot acquired).1.Mailbox ref P := by
  have hstamp := h.modifyReq a.ref (f := fun x => { x with request := g.stampRequest a })
    (fun _ => rfl) fun b hb => hP b _ b.deliverResponse hb
  have hclear {k : Globals} (hk : k.Mailbox ref P) (r : Nat) : (k.clearPollable r).Mailbox ref P := by
    rw [clearPollable]
    split
    · exact hk.congr _ rfl
    · exact hk
  have hprepare {k : Globals} (hk : k.Mailbox ref P) (x : ActReq) :
      (k.mwsocketPreProcessRequest x acquired).Mailbox ref P :=
    (hk.congr (k.modifySock _ _) rfl).modifyReq x.ref (fun _ => rfl) fun b hb => hP b _ _ hb
  simp only [mwsocketSendRequest]
  split
  · exact hstamp
  · split
    · exact hclear hstamp _
    · split
      · exact hclear (hstamp.congr (modifySock _ _ _) rfl) _
      · exact hprepare hstamp _
      · exact hprepare hstamp _

end Globals

/-- Post-processing changes nothing in a response but the count. -/
theorem SockInst.absorb_count (s : SockInst) (id : MtId) (resp : MtResponse) :
    ∃ n, (s.absorb id resp).2 = { resp with count := n } := by
  rw [absorb, tallySend]
  split
  · split
    · exact ⟨_, rfl⟩
    · split
      · exact ⟨resp.count, rfl⟩
      · exact ⟨resp.count, rfl⟩
  · exact ⟨resp.count, rfl⟩

/-- The record of a request: a response in it is one of the answers seen. -/
structure Stored (id : MtId) (seen : List Answer) (a : ActReq) : Prop where
  own : a.id = id
  origin : a.responsePopulated = true →
    a.response.id = id ∧ ∃ ans ∈ seen, ∃ n, a.response = { ans.response with count := n }

theorem Stored.mono {id : MtId} {seen seen' : List Answer} {a : ActReq} (h : Stored id seen a)
    (hsub : seen ⊆ seen') : Stored id seen' a where
  own := h.own
  origin hpop := by
    obtain ⟨hid, ans, hans, hresp⟩ := h.origin hpop
    exact ⟨hid, ans, hsub hans, hresp⟩

/-- Moreover it is there once an answer has been seen. -/
structure Filled (id : MtId) (seen : List Answer) (a : ActReq) : Prop extends Stored id seen a where
  full : seen ≠ [] → a.responsePopulated = true

namespace Globals

/-- Post-processing stores the response in the record only if it has been seen. -/
theorem Mailbox.postproc {g : Globals} {ref : Nat} {id : MtId} {seen : List Answer} {ans : Answer}
    (h : g.Mailbox ref (Stored id seen)) (a : ActReq) (hans : ans ∈ seen)
    (hid : ans.response.id = id) :
    (g.mwsocketPostprocNoContext a ans.response).1.Mailbox ref (Stored id seen) := by
  obtain ⟨n, hn⟩ := (g.socks a.sockinst).absorb_count a.id ans.response
  let g₁ := g.modifySock a.sockinst fun s => (s.absorb a.id ans.response).1
  let resp := ((g.socks a.sockinst).absorb a.id ans.response).2
  let g₂ := if ans.response.type = .of .socketAccept then g₁.queueInbound a resp else g₁
  have h₁ : g₁.Mailbox ref (Stored id seen) := h.congr _ rfl
  have h₂ : g₂.Mailbox ref (Stored id seen) := by
    by_cases hacc : ans.response.type = .of .socketAccept
    · simp only [g₂, if_pos hacc]
      refine (h₁.congr (g₁.modifySock _ _) rfl).modifyReq a.ref (fun _ => rfl) ?_
      intro b hb
      refine ⟨hb.own, fun _ => ⟨?_, ans, hans, n, hn⟩⟩
      simp only [resp, hn, hid]
    · simp only [g₂, if_neg hacc]
      exact h₁
  by_cases hstatus : ans.response.status < 0
  · have heq : (g.mwsocketPostprocNoContext a ans.response).1 = g₂ := by
      rw [mwsocketPostprocNoContext, if_pos hstatus]
    rw [heq]
    exact h₂
  · have heq : (g.mwsocketPostprocNoContext a ans.response).1.activeRequests =
        g₂.activeRequests := by
      rw [mwsocketPostprocNoContext, if_neg hstatus]
      exact activeRequests_recordAttrib _ a resp
    exact h₂.congr _ heq

/-- The consumer takes an answer: its record is gone, or holds a response that
was seen. -/
theorem Mailbox.consume {g : Globals} {ref : Nat} {id : MtId} {seen : List Answer} {ans : Answer}
    {a : ActReq} (h : g.Mailbox ref (Stored id seen)) (href : a.ref = ref)
    (hfind : g.mwsocketFindActiveRequestById ans.response.id = some a)
    (hid : ans.response.id = id) :
    (g.mwsocketConsumeResponse ans.response).Mailbox ref (Filled id (seen ++ [ans])) := by
  have hmem : ans ∈ seen ++ [ans] := List.mem_append_right _ (List.mem_singleton.mpr rfl)
  have hpost := Mailbox.postproc (fun b hb => (h b hb).mono (List.subset_append_left ..)) a hmem hid
  obtain ⟨n, hn⟩ := (g.socks a.sockinst).absorb_count a.id ans.response
  have hresp : (g.mwsocketPostprocNoContext a ans.response).2 =
      { ans.response with count := n } := by
    rw [← hn, mwsocketPostprocNoContext]
    split
    · rfl
    · rfl
  rw [mwsocketConsumeResponse, hfind]
  simp only
  split
  · rename_i hnone
    intro b hb
    rw [← href, hnone] at hb
    cases hb
  · rename_i b hb
    have hbref : b.ref = ref := (reqAt_mem hb).2.trans href
    rw [deliverOrDestroy]
    split
    · exact Mailbox.destroyed _ hbref
    · intro c hc
      rw [reqAt_modifyReq _ ref b.ref (f := fun x => x.deliver _) fun _ => rfl] at hc
      rw [← href, hb, Option.map_some, if_pos rfl] at hc
      cases hc
      have hstored := hpost b (href ▸ hb)
      refine ⟨⟨hstored.own, fun _ => ?_⟩, fun _ => rfl⟩
      by_cases hpop : b.responsePopulated = true
      · simp only [ActReq.deliver, if_pos hpop]
        exact hstored.origin hpop
      · simp only [ActReq.deliver, if_neg hpop, hresp]
        exact ⟨hid, ans, hmem, n, rfl⟩

end Globals

namespace Driver

/-- A request of some id has its record, and no message of another one carries
its id. -/
structure Kept (ref : Nat) (id : MtId) (seen : List Answer) (s : Driver) : Prop where
  distinct : Distinct s
  old : ref < s.g.nextRef
  claim : (ref, id) ∈ s.g.keys → Correlated [(ref, id)] s.inFlight
  box : s.g.Mailbox ref (Filled id seen)

variable {ref : Nat} {id : MtId} {seen : List Answer} {s s' : Driver}

theorem Kept.resolves (h : Kept ref id seen s) {a : ActReq} (ha : s.g.reqAt ref = some a)
    {x : Nat × MtId} (hx : x ∈ s.inFlight) : x.1 = ref ↔ x.2 = id := by
  obtain ⟨hmem, href⟩ := Globals.reqAt_mem ha
  have hkey := Globals.mem_keys hmem
  rw [href, (h.box a ha).own] at hkey
  have hagree := h.claim hkey _ (List.mem_singleton.mpr rfl) x hx
  rw [eq_comm, hagree, eq_comm]

theorem Kept.claim_step (h : Kept ref id seen s) {e : DriverEvent}
    (hstep : driverStep s e = some s') (hkey : (ref, id) ∈ s'.g.keys) :
    Correlated [(ref, id)] s'.inFlight := by
  rcases driverStep_keyMove hstep with ⟨_, _, _, _, i, -, -, -, hkeys, hflight⟩ |
    ⟨z, hz, -, hkeys, hflight⟩ | ⟨-, hkeys, hflight⟩
  · have hin : (ref, id) ∈ s.g.keys := by
      rw [hkeys] at hkey
      rcases List.mem_cons.mp hkey with heq | hin
      · have hnew : ref = s.g.nextRef := congrArg Prod.fst heq
        exact absurd hnew (Nat.ne_of_lt h.old)
      · exact hin
    exact (h.claim hin).mono (List.Subset.refl _) hflight
  · rw [hkeys] at hkey
    have hlive : [(ref, id)] ⊆ s.g.keys := List.cons_subset.mpr ⟨hkey, List.nil_subset _⟩
    exact ((h.claim hkey).send_message hlive h.distinct.refs h.distinct.ids hz).mono
      (List.Subset.refl _) hflight
  · exact (h.claim (hkeys.subset hkey)).mono (List.Subset.refl _) hflight

/-- The consumer takes the next response of a ring. It finds the record exactly
when the response is an answer to the request and the record is still there. -/
theorem Kept.box_consume (h : Kept ref id seen s) {ins : Fin maxInsCount} {ans : Answer}
    {rest : List Answer} (hring : s.ring ins = ans :: rest) :
    (s.g.mwsocketConsumeResponse ans.response).Mailbox ref
      (Filled id (seen ++ s.taken ref (.consume ins))) := by
  have hflight : (ans.ref, ans.response.id) ∈ s.inFlight := by
    rw [mem_inFlight]
    exact ⟨ins, by simp [flightOf, hring]⟩
  have htaken : s.taken ref (.consume ins) = if ans.ref = ref then [ans] else [] := by
    rw [taken, hring]
    split
    · rename_i heq
      simp [heq]
    · rename_i hne
      simp [hne]
  rcases hreq : s.g.reqAt ref with _ | a
  · -- The record is gone, and stays gone.
    have hgone : (s.g.mwsocketConsumeResponse ans.response).reqAt ref = none := by
      rcases hfind : s.g.mwsocketFindActiveRequestById ans.response.id with _ | b
      · rw [Globals.consume_dropped hfind, hreq]
      · have hne : ref ≠ b.ref := by
          intro heq
          exact Globals.reqAt_none hreq b (List.mem_of_find?_eq_some hfind) heq.symm
        rw [(Globals.consume_found hfind).2 ref hne, hreq]
    intro b hb
    rw [hgone] at hb
    cases hb
  · obtain ⟨hmem, href⟩ := Globals.reqAt_mem hreq
    have hown := (h.box a hreq).own
    rw [htaken]
    by_cases heq : ans.ref = ref
    · have hid : ans.response.id = id := (h.resolves hreq hflight).mp heq
      have hfind := (find_iff h.distinct ans.response.id a).mpr ⟨hmem, hown.trans hid.symm⟩
      rw [if_pos heq]
      exact Globals.Mailbox.consume (fun b hb => (h.box b hb).toStored) href hfind hid
    · have hid : ans.response.id ≠ id := fun hid => heq ((h.resolves hreq hflight).mpr hid)
      rw [if_neg heq, List.append_nil]
      rcases hfind : s.g.mwsocketFindActiveRequestById ans.response.id with _ | b
      · rw [Globals.consume_dropped hfind]
        exact h.box
      · refine h.box.apart (Globals.consume_found hfind).2 ?_
        intro hb
        have hfound := (find_iff h.distinct ans.response.id b).mp hfind
        have hkey := Globals.mem_keys hmem
        have hkey' := Globals.mem_keys hfound.1
        rw [href, hown] at hkey
        rw [← hb, hfound.2] at hkey'
        have hsame := List.inj_on_of_nodup_map h.distinct.refs hkey hkey' rfl
        exact hid (congrArg Prod.snd hsame).symm

theorem Kept.step (h : Kept ref id seen s) {e : DriverEvent} (hstep : driverStep s e = some s') :
    Kept ref id (seen ++ s.taken ref e) s' := by
  refine ⟨h.distinct.step hstep, ?_, h.claim_step hstep, ?_⟩
  · rcases driverStep_keyMove hstep with ⟨_, _, _, _, _, -, -, hnext, -, -⟩ | ⟨_, -, hnext, -, -⟩ |
      ⟨hnext, -, -⟩
    · rw [hnext]
      exact Nat.lt_succ_of_lt h.old
    · rw [hnext]
      exact h.old
    · rw [hnext]
      exact h.old
  · rcases e with ⟨sock, fromUser, deliver, req⟩ | ⟨r, ins, slot, acquired⟩ | r | ⟨ins, k, resp⟩ |
      ins | ⟨sock, exiting, forknoexec⟩
    · simp only [taken, List.append_nil]
      obtain ⟨⟨g, r⟩, hr, rfl⟩ := Option.map_eq_some_iff.mp hstep
      rw [Globals.mwsocketCreateActiveRequest] at hr
      split at hr
      · obtain ⟨i, -, heq⟩ := Option.map_eq_some_iff.mp hr
        cases heq
        intro a ha
        have hne : s.g.nextRef ≠ ref := Nat.ne_of_gt h.old
        rw [Globals.reqAt, List.find?_cons_of_neg (by simpa using hne)] at ha
        exact h.box a ha
      · cases hr
    · simp only [taken, List.append_nil]
      obtain ⟨a, -, rfl⟩ := send_inv hstep
      exact h.box.send a slot acquired fun b _ _ hb => ⟨⟨hb.own, hb.origin⟩, hb.full⟩
    · simp only [taken, List.append_nil]
      obtain ⟨a, -, rfl⟩ := Option.map_eq_some_iff.mp hstep
      exact h.box.destroy a
    · simp only [taken, List.append_nil]
      simp only [driverStep] at hstep
      split at hstep
      · cases hstep
      · split at hstep
        · cases hstep
          exact h.box
        · cases hstep
    · simp only [driverStep] at hstep
      split at hstep
      · cases hstep
      · rename_i ans rest hring
        cases hstep
        exact h.box_consume hring
    · simp only [taken, List.append_nil]
      cases hstep
      exact h.box.congr _ rfl

theorem Kept.run (h : Kept ref id seen s) {es : List DriverEvent}
    (hrun : others.runFrom s es = some s') :
    Kept ref id (seen ++ others.trail (taken ref) s es) s' :=
  others.guarded_trail (f := taken ref) (I := fun seen x => Kept ref id seen x)
    (fun _ _ _ _ _ hstep hkept => hkept.step hstep) (others.guardedFrom_true es s) hrun h

end Driver

/-! ## The call -/

namespace Driver

variable {s s' : Driver} {sock : Nat} {req : MtRequest}

theorem owed_created (hd : Distinct s) (h : driverStep s (.create sock false true req) = some s') :
    s'.owed s.g.nextRef = 0 := by
  obtain ⟨r, -, rfl⟩ := Option.map_eq_some_iff.mp h
  refine Finset.sum_eq_zero fun ins _ => ?_
  have hold : ∀ x ∈ s.flightOf ins, x.1 ≠ s.g.nextRef := by
    intro x hx
    exact Nat.ne_of_lt (hd.flown x (mem_inFlight.mpr ⟨ins, hx⟩))
  simp only [flightOf, List.mem_append, List.mem_map] at hold
  rw [owedOn, Nat.add_eq_zero_iff]
  constructor
  · refine List.countP_eq_zero.mpr fun p hp => ?_
    simpa using hold _ (Or.inl ⟨p, hp, rfl⟩)
  · refine List.countP_eq_zero.mpr fun ans hans => ?_
    simpa using hold _ (Or.inr ⟨ans, hans, rfl⟩)

/-- A new record holds no response, and no message carries its id if that is
not drawn again. -/
theorem kept_created (hd : Distinct s) (hG : s.notRedrawn (.create sock false true req))
    (h : driverStep s (.create sock false true req) = some s') :
    ∃ id, Kept s.g.nextRef id [] s' := by
  have hd' := hd.step h
  obtain ⟨⟨g, r⟩, hr, rfl⟩ := Option.map_eq_some_iff.mp h
  rw [Globals.mwsocketCreateActiveRequest] at hr
  split at hr
  · obtain ⟨id, hid, heq⟩ := Option.map_eq_some_iff.mp hr
    cases heq
    refine ⟨id, hd', Nat.lt_succ_self _, fun _ => ?_, ?_⟩
    · refine Correlated.open_entry (fun x hx => absurd hx List.not_mem_nil) ?_ (hG id hid)
      intro x hx
      exact Nat.ne_of_lt (hd.flown x hx)
    · intro a ha
      rw [Globals.reqAt, List.find?_cons_of_pos (by simp)] at ha
      cases ha
      exact ⟨⟨rfl, fun hpop => absurd hpop Bool.false_ne_true⟩, fun hne => absurd rfl hne⟩
  · cases hr

/-- Every message of the request has been taken by the consumer, or is owed. -/
theorem bareExchange_owed {ref room : Nat} {t : Timing} {c : BareCall}
    (hothers : ∀ e ∈ t.before ++ t.during ++ t.after, e.publishes ref = false)
    (hnone : s.owed ref = 0) (h : s.bareExchange ref room t = some (c, s')) :
    c.owed + c.late.length + c.early.length = c.posted.toNat := by
  simp only [bareExchange, Option.bind_eq_some_iff, Option.map_eq_some_iff] at h
  obtain ⟨s₁, h₁, a, ha, s₂, h₂, s₃, h₃, s₄, h₄, heq⟩ := h
  cases heq
  simp only [List.mem_append] at hothers
  have hbefore := owed_run (fun e he => hothers e (Or.inl (Or.inl he))) h₁
  have hduring := owed_run (fun e he => hothers e (Or.inl (Or.inr he))) h₃
  have hafter := owed_run (fun e he => hothers e (Or.inr he)) h₄
  have hsend : s₂.owed ref =
      s₁.owed ref + (s₁.g.mwsocketSendRequest a t.slot t.acquired).2.2.isSome.toNat := by
    obtain ⟨b, hb, rfl⟩ := send_inv h₂
    cases ha.symm.trans hb
    rw [owed_sent, if_pos rfl]
    rcases (s₁.g.mwsocketSendRequest a t.slot t.acquired).2.2 with _ | _
    · rfl
    · rfl
  have hsum : s₄.owed ref + (others.trail (taken ref) s₃ t.after).length +
      (others.trail (taken ref) s₂ t.during).length =
        (s₁.g.mwsocketSendRequest a t.slot t.acquired).2.2.isSome.toNat := by
    omega
  exact hsum

/-- The call succeeds exactly when the record is read and what it holds has room. -/
theorem bareExchange_rc {ref room : Nat} {t : Timing} {c : BareCall}
    (h : s.bareExchange ref room t = some (c, s')) :
    (c.rc = 0 → ∃ x, c.read = some x ∧ x.size ≤ room) ∧
      ∀ x, c.read = some x → x.size ≤ room → c.rc = 0 ∧ c.copied = some x := by
  simp only [bareExchange, Option.bind_eq_some_iff, Option.map_eq_some_iff] at h
  obtain ⟨s₁, -, a, -, s₂, -, s₃, -, s₄, -, heq⟩ := h
  cases heq
  simp only
  by_cases hsent : (s₁.g.mwsocketSendRequest a t.slot t.acquired).2.1 = 0
  · simp only [hsent, ne_eq, not_true_eq_false, if_false, if_true]
    constructor
    · intro hrc
      refine ⟨_, rfl, ?_⟩
      by_contra hroom
      simp [Option.filter, hroom, enospc] at hrc
    · intro x hx hroom
      cases hx
      simp [Option.filter, hroom]
  · simp only [hsent, ne_eq, not_false_eq_true, if_true, if_false]
    constructor
    · intro hrc
      exact hrc.elim
    · intro x hx
      cases hx

/-- Once an answer has been taken, a record that is still there holds it. -/
theorem bareExchange_read {ref room : Nat} {id : MtId} {t : Timing} {c : BareCall}
    (hothers : ∀ e ∈ t.before ++ t.during ++ t.after, e.publishes ref = false)
    (hnone : s.owed ref = 0) (hkept : Kept ref id [] s)
    (h : s.bareExchange ref room t = some (c, s')) (hearly : c.early ≠ []) {x : Held}
    (hread : c.read = some x) (hthere : x ≠ .freed) :
    ∃ resp, x = .response resp ∧ resp.id = c.id ∧
      ∃ ans ∈ c.early, ∃ n, resp = { ans.response with count := n } := by
  simp only [bareExchange, Option.bind_eq_some_iff, Option.map_eq_some_iff] at h
  obtain ⟨s₁, h₁, a, ha, s₂, h₂, s₃, h₃, s₄, h₄, heq⟩ := h
  cases heq
  simp only [List.mem_append] at hothers
  have hbefore := owed_run (fun e he => hothers e (Or.inl (Or.inl he))) h₁
  have hquiet : others.trail (taken ref) s t.before = [] := by
    refine List.eq_nil_of_length_eq_zero ?_
    omega
  have hkept₁ : Kept ref id [] s₁ := by
    have := hkept.run h₁
    rwa [hquiet] at this
  have hkept₃ := (hkept₁.step h₂).run h₃
  simp only at hread hearly ⊢
  split at hread
  · cases hread
    rw [Globals.heldAt] at hthere ⊢
    rcases hreq : s₃.g.reqAt ref with _ | b
    · rw [hreq] at hthere
      exact absurd rfl hthere
    · have hb := hkept₃.box b hreq
      simp only [taken, List.append_nil, List.nil_append] at hb
      obtain ⟨hid, horigin⟩ := hb.origin (hb.full hearly)
      refine ⟨b.response, ?_, ?_, horigin⟩
      · simp only [ActReq.held, hb.full hearly, if_true]
      · rw [hid, (hkept₁.box a ha).own]
  · cases hread

end Driver

/-- A call that gets a record returns the answer to its request, and destroys no
record whose answer is still to come, only if the consumer has been there first;
and it does if it draws an id that no message on a ring carries. -/
theorem bare_request_awaited (counter : MtId) (socks : Nat → SockInst) (es : List DriverEvent)
    (s : Driver) (hrun : (driver counter socks).run es = some s) (sockinsts : List Nat)
    (req : MtRequest) (room : Nat) (t : Timing) (c : BareCall) (s' : Driver)
    (hothers : ∀ e ∈ t.before ++ t.during ++ t.after, e.publishes s.g.nextRef = false)
    (hcall : s.mwsocketSendBareRequest sockinsts req room t = some (c, s')) :
    (c.Faithful → c.Awaited room) ∧
      ((∀ sock, s.notRedrawn (.create sock false true req)) → c.Awaited room → c.Faithful) := by
  have hd : s.Distinct :=
    (driver counter socks).run_invariant (Driver.distinct_init counter socks)
      (fun _ _ _ h hd => hd.step h) hrun
  have hrefused {rc : Int} (hrc : rc ≠ 0) (heq : c = { rc := rc }) :
      c.Faithful ∧ c.Awaited room := by
    subst heq
    exact ⟨⟨fun h => absurd h hrc, rfl⟩, fun x hx => absurd hx (by simp),
      fun h => absurd h Bool.false_ne_true⟩
  rw [Driver.mwsocketSendBareRequest] at hcall
  split at hcall
  · cases hcall
    obtain ⟨hfaithful, hawaited⟩ := hrefused (by decide) rfl
    exact ⟨fun _ => hawaited, fun _ _ => hfaithful⟩
  split at hcall
  · cases hcall
    obtain ⟨hfaithful, hawaited⟩ := hrefused (by decide) rfl
    exact ⟨fun _ => hawaited, fun _ _ => hfaithful⟩
  rename_i sock _
  split at hcall
  · obtain ⟨s₀, hcreate, hcall⟩ := Option.bind_eq_some_iff.mp hcall
    have howed := Driver.bareExchange_owed hothers (Driver.owed_created hd hcreate) hcall
    obtain ⟨hsuccess, hcopy⟩ := Driver.bareExchange_rc hcall
    constructor
    · rintro ⟨hanswered, hsettled⟩
      constructor
      · intro x hx hroom
        obtain ⟨hrc, hcopied⟩ := hcopy x hx hroom
        obtain ⟨resp, hresp, -, ans, hans, -⟩ := hanswered hrc
        rw [hcopied] at hresp
        cases hresp
        exact ⟨List.ne_nil_of_mem hans, Held.noConfusion⟩
      · intro hposted hnil
        obtain ⟨hearly, hlate⟩ := List.append_eq_nil_iff.mp hnil
        rw [hsettled, hearly, hlate, hposted] at howed
        exact absurd howed (by decide)
    · rintro hG ⟨hread, hdestroyed⟩
      obtain ⟨id, hkept⟩ := Driver.kept_created hd (hG sock) hcreate
      constructor
      · intro hrc
        obtain ⟨x, hx, hroom⟩ := hsuccess hrc
        obtain ⟨hearly, hthere⟩ := hread x hx hroom
        obtain ⟨resp, rfl, hanswer⟩ := Driver.bareExchange_read hothers
          (Driver.owed_created hd hcreate) hkept hcall hearly hx hthere
        exact ⟨resp, (hcopy _ hx hroom).2, hanswer⟩
      · rcases hposted : c.posted with _ | _
        · rw [hposted] at howed
          simp only [Bool.toNat_false] at howed
          omega
        · have hlen := List.length_pos_of_ne_nil (hdestroyed hposted)
          rw [List.length_append] at hlen
          rw [hposted, Bool.toNat_true] at howed
          omega
  · cases hcall
    obtain ⟨hfaithful, hawaited⟩ := hrefused (by decide) rfl
    exact ⟨fun _ => hawaited, fun _ _ => hfaithful⟩

/-- A socket that an INS knows, and the request that asks for a feature of it. -/
def knownSocket : SockInst where
  remoteFd := mwSocketCreate 1 5

def featureQuery : MtRequest where
  type := .socketAttrib
  size := mtRequestSocketAttribSize
  sockfd := mwSocketCreate 1 5
  name := .sndBuf

def featureAnswer : MtResponse where
  sig := mtSignatureResponse
  type := .of .socketAttrib
  size := mtResponseSocketAttribSize
  name := .sndBuf
  val := { v32 := 4096 }

/-- The consumer is faster than the caller. -/
theorem bare_request_awaited_inTime :
    ∃ c s', (driver 0 fun _ => knownSocket).init.mwsocketSendBareRequest [0] featureQuery
        mtResponseSocketAttribSize
        { during := [.answer insZero 0 featureAnswer, .consume insZero] } = some (c, s') ∧
      c.copied = some (.response { featureAnswer with id := 1 }) ∧ c.Faithful := by
  let t : Timing := { during := [.answer insZero 0 featureAnswer, .consume insZero] }
  let answer : MtResponse := { featureAnswer with id := 1 }
  let call : BareCall :=
    { rc := 0
      id := 1
      posted := true
      read := some (.response answer)
      copied := some (.response answer)
      early := [⟨0, answer⟩] }
  have hcall : ((driver 0 fun _ => knownSocket).init.mwsocketSendBareRequest [0] featureQuery
      mtResponseSocketAttribSize t).map Prod.fst = some call := by
    decide +kernel
  obtain ⟨⟨c, s'⟩, hs, rfl⟩ := Option.map_eq_some_iff.mp hcall
  have hothers : ∀ e ∈ t.before ++ t.during ++ t.after, e.publishes 0 = false := by decide
  have hawaited : call.Awaited mtResponseSocketAttribSize := by
    constructor
    · intro x hx _
      cases hx
      exact ⟨List.cons_ne_nil _ _, Held.noConfusion⟩
    · intro _
      exact List.cons_ne_nil _ _
  have hfresh (sock : Nat) : (driver 0 fun _ => knownSocket).init.notRedrawn
      (.create sock false true featureQuery) := by
    have hempty : (driver 0 fun _ => knownSocket).init.inFlight = [] := by decide
    intro id _ x hx
    rw [hempty] at hx
    cases hx
  exact ⟨call, s', hs, rfl, (bare_request_awaited 0 (fun _ => knownSocket) [] _ rfl [0]
    featureQuery mtResponseSocketAttribSize t call s' hothers hs).2 hfresh hawaited⟩

/-- The caller is faster: it is told that its request is the response, and the
record is gone when the answer comes. -/
theorem bare_request_returned_as_response :
    ∃ c s', (driver 0 fun _ => knownSocket).init.mwsocketSendBareRequest [0] featureQuery
        mtResponseSocketAttribSize {} = some (c, s') ∧
      c.rc = 0 ∧ c.copied = some (.request { featureQuery with id := 1 }) ∧ c.owed = 1 ∧
      ¬ c.Faithful := by
  let query : MtRequest := { featureQuery with id := 1 }
  let call : BareCall :=
    { rc := 0
      id := 1
      posted := true
      read := some (.request query)
      copied := some (.request query)
      owed := 1 }
  have hcall : ((driver 0 fun _ => knownSocket).init.mwsocketSendBareRequest [0] featureQuery
      mtResponseSocketAttribSize {}).map Prod.fst = some call := by
    decide +kernel
  obtain ⟨⟨c, s'⟩, hs, rfl⟩ := Option.map_eq_some_iff.mp hcall
  refine ⟨call, s', hs, rfl, rfl, rfl, ?_⟩
  intro h
  exact absurd h.settled (by decide)

end MagicWand.Kernel
