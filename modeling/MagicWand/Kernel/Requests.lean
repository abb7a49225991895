import MagicWand.Foundation.Correlation
import MagicWand.Foundation.Transition
import MagicWand.Kernel.State

/-!
# Requests, rings and the response consumer

The driver as a transition system over its active requests. Threads of the
driver create, publish and destroy active requests; an INS answers a request
that is on its ring, in any order; the response consumer takes the next response
of some ring. The consumer handles a response in one step.

`Pending.ref` and `Answer.ref` are history variables: the active request a
message on a ring belongs to. `log` is the history of the responses that were
post-processed, as the INS wrote them, with the socket they were processed for.
-/

namespace MagicWand.Kernel

open Foundation

/-- A request on a ring that is not answered yet. -/
structure Pending where
  ref : Nat
  request : MtRequest
deriving DecidableEq, Repr

/-- A response on a ring. -/
structure Answer where
  ref : Nat
  response : MtResponse
deriving DecidableEq, Repr

structure Driver where
  g : Globals := {}
  pending : Fin maxInsCount → List Pending := fun _ => []
  ring : Fin maxInsCount → List Answer := fun _ => []
  log : List (Nat × MtResponse) := []

inductive DriverEvent where
  | create (sock : Nat) (fromUser deliver : Bool) (request : MtRequest)
  | send (ref : Nat) (ins : Fin maxInsCount) (slot : Globals.Slot) (acquired : Bool)
  | destroy (ref : Nat)
  /-- The INS answers the `k`-th request on its ring. -/
  | answer (ins : Fin maxInsCount) (k : Nat) (response : MtResponse)
  | consume (ins : Fin maxInsCount)
  /-- The flags of the owning process change. -/
  | process (sock : Nat) (exiting forknoexec : Bool)

/-- May `mwsocket_pre_process_request` get past the close lock? A close takes it
only when no one holds it. -/
def closeLockFree (s : SockInst) (t : MtRequestType) (acquired : Bool) : Bool :=
  if t.closeWaits then !s.closeWriter
  else !(acquired && (s.closeWriter || decide (0 < s.closeReaders)))

def driverStep (s : Driver) : DriverEvent → Option Driver
  | .create sock fromUser deliver request =>
      (s.g.mwsocketCreateActiveRequest sock fromUser deliver request).map fun r =>
        { s with g := r.1 }
  | .send ref ins slot acquired =>
      match s.g.reqAt ref with
      | none => none
      | some a =>
          if closeLockFree (s.g.socks a.sockinst) a.request.type acquired then
            let (g, _, published) := s.g.mwsocketSendRequest a slot acquired
            some { s with
              g := g
              pending := Function.update s.pending ins
                (s.pending ins ++ (published.map (Pending.mk ref)).toList) }
          else none
  | .destroy ref =>
      (s.g.reqAt ref).map fun a => { s with g := s.g.mwsocketDestroyActiveRequest a }
  | .answer ins k response =>
      match (s.pending ins)[k]? with
      | none => none
      | some p =>
          if response.count < 2 ^ 16 then
            some { s with
              pending := Function.update s.pending ins ((s.pending ins).eraseIdx k)
              ring := Function.update s.ring ins
                (s.ring ins ++ [⟨p.ref, { response with id := p.request.id }⟩]) }
          else none
  | .consume ins =>
      match s.ring ins with
      | [] => none
      | ans :: rest =>
          some { s with
            g := s.g.mwsocketConsumeResponse ans.response
            ring := Function.update s.ring ins rest
            log := s.log ++ ((s.g.mwsocketFindActiveRequestById ans.response.id).map fun a =>
              (a.sockinst, ans.response)).toList }
  | .process sock exiting forknoexec =>
      some { s with
        g := s.g.modifySock sock fun x =>
          { x with procExiting := exiting, procForknoexec := forknoexec } }

/-- The driver with any sockets, at any value of the id counter. -/
def driver (counter : MtId) (socks : Nat → SockInst) : System Driver DriverEvent where
  init := { g := { counter := counter, socks := socks } }
  step := driverStep

/-! ## Ids -/

namespace Globals

/-- The live entries: address and id of every active request. -/
def keys (g : Globals) : List (Nat × MtId) := g.activeRequests.map fun a => (a.ref, a.id)

theorem ids_eq (g : Globals) : g.activeRequests.map ActReq.id = g.keys.map Prod.snd := by
  simp [keys]

theorem mem_keys {g : Globals} {a : ActReq} (h : a ∈ g.activeRequests) : (a.ref, a.id) ∈ g.keys :=
  List.mem_map.mpr ⟨a, h, rfl⟩

theorem toNat_nextCandidate (c : MtId) :
    (nextCandidate c).toNat = c.toNat % (2 ^ 64 - 1) + 1 := by
  unfold nextCandidate mtIdUnsetValue
  split
  · rename_i h
    have hc : c.toNat = 2 ^ 64 - 1 := by bv_omega
    rw [h, hc]
    rfl
  · rename_i h
    have hc : c.toNat ≠ 2 ^ 64 - 1 := by bv_omega
    have hlt := c.isLt
    rw [Nat.mod_eq_of_lt (by omega)]
    bv_omega

theorem nextCandidate_ne_unset (c : MtId) : nextCandidate c ≠ mtIdUnsetValue := by
  intro h
  have := congrArg BitVec.toNat h
  rw [toNat_nextCandidate] at this
  simp [mtIdUnsetValue] at this

/-- The counter runs through all nonzero ids in a circle. -/
theorem toNat_iterate_nextCandidate (c : MtId) (k : Nat) :
    (nextCandidate^[k + 1] c).toNat = (c.toNat + k) % (2 ^ 64 - 1) + 1 := by
  induction k with
  | zero => exact toNat_nextCandidate c
  | succ k ih =>
      rw [Function.iterate_succ_apply', toNat_nextCandidate, ih]
      omega

/-- `mwsocket_get_next_id` returns, as long as there are more ids than requests. -/
theorem mwsocketGetNextId_terminates (g : Globals) (h : g.activeRequests.length < 2 ^ 64 - 1) :
    ∃ id, g.mwsocketGetNextId (g.activeRequests.length + 1) = some id := by
  have hlen : (g.activeRequests.map ActReq.id).length = g.activeRequests.length :=
    List.length_map ..
  rw [mwsocketGetNextId, ← hlen]
  apply FreshId.pick_terminates
  intro i hi j hj heq
  have hnat := congrArg BitVec.toNat heq
  rw [toNat_iterate_nextCandidate, toNat_iterate_nextCandidate] at hnat
  rw [hlen] at hi hj
  omega

theorem mwsocketGetNextId_spec {g : Globals} {fuel : Nat} {id : MtId}
    (h : g.mwsocketGetNextId fuel = some id) :
    id ≠ mtIdUnsetValue ∧ id ∉ g.keys.map Prod.snd := by
  constructor
  · obtain ⟨d, rfl⟩ := FreshId.pick_mem_range h
    exact nextCandidate_ne_unset d
  · rw [← ids_eq]
    exact FreshId.pick_not_mem h

/-! ## What the driver's functions do to the active requests -/

/-- Every active request but the one at `ref` is as it was. -/
def OnlyAt (ref : Nat) (g g' : Globals) : Prop := ∀ r, r ≠ ref → g'.reqAt r = g.reqAt r

theorem reqAt_mem {g : Globals} {ref : Nat} {a : ActReq} (h : g.reqAt ref = some a) :
    a ∈ g.activeRequests ∧ a.ref = ref := by
  exact ⟨List.mem_of_find?_eq_some h, by simpa using List.find?_some h⟩

theorem reqAt_none {g : Globals} {ref : Nat} (h : g.reqAt ref = none) :
    ∀ a ∈ g.activeRequests, a.ref ≠ ref := by
  intro a ha
  simpa using List.find?_eq_none.mp h a ha

theorem keys_modifyReq (g : Globals) (ref : Nat) {f : ActReq → ActReq}
    (hf : ∀ a, (f a).ref = a.ref ∧ (f a).id = a.id) : (g.modifyReq ref f).keys = g.keys := by
  rw [keys, modifyReq, List.map_map]
  apply List.map_congr_left
  intro a _
  simp only [Function.comp_apply]
  split
  · rw [(hf a).1, (hf a).2]
  · rfl

theorem onlyAt_modifyReq (g : Globals) (ref : Nat) {f : ActReq → ActReq}
    (hf : ∀ a, (f a).ref = a.ref) : OnlyAt ref g (g.modifyReq ref f) := by
  intro r hr
  rw [reqAt, reqAt, modifyReq]
  induction g.activeRequests with
  | nil => rfl
  | cons a rest ih =>
      rw [List.map_cons, List.find?_cons, List.find?_cons, ih]
      by_cases ha : a.ref = ref
      · have hne : ref ≠ r := fun h => hr h.symm
        simp [ha, hf, hne]
      · simp [ha]

theorem OnlyAt.trans {ref : Nat} {g g' g'' : Globals} (h : OnlyAt ref g g')
    (h' : OnlyAt ref g' g'') : OnlyAt ref g g'' := by
  intro r hr
  rw [h' r hr, h r hr]

theorem keys_destroy (g : Globals) (a : ActReq) :
    (g.mwsocketDestroyActiveRequest a).keys = g.keys.filter fun k => k.1 ≠ a.ref := by
  rw [keys, keys, mwsocketDestroyActiveRequest, List.filter_map]
  rfl

theorem onlyAt_destroy (g : Globals) (a : ActReq) :
    OnlyAt a.ref g (g.mwsocketDestroyActiveRequest a) := by
  intro r hr
  rw [reqAt, reqAt, mwsocketDestroyActiveRequest, List.find?_filter]
  congr 1
  funext x
  by_cases hx : x.ref = r
  · simp [hx, hr]
  · simp [hx]

theorem keys_queueInbound (g : Globals) (a : ActReq) (resp : MtResponse) :
    (g.queueInbound a resp).keys = g.keys :=
  keys_modifyReq (g.modifySock a.sockinst _) a.ref fun _ => ⟨rfl, rfl⟩

theorem onlyAt_queueInbound (g : Globals) (a : ActReq) (resp : MtResponse) :
    OnlyAt a.ref g (g.queueInbound a resp) :=
  onlyAt_modifyReq (g.modifySock a.sockinst _) a.ref fun _ => rfl

theorem activeRequests_recordAttrib (g : Globals) (a : ActReq) (resp : MtResponse) :
    (g.recordAttrib a resp).activeRequests = g.activeRequests := by
  rw [recordAttrib]
  split
  · rfl
  · rfl

/-- Post-processing touches no other request, and no id. -/
theorem postproc_spec (g : Globals) (a : ActReq) (resp : MtResponse) :
    (g.mwsocketPostprocNoContext a resp).1.keys = g.keys ∧
      OnlyAt a.ref g (g.mwsocketPostprocNoContext a resp).1 := by
  let resp' := ((g.socks a.sockinst).absorb a.id resp).2
  let g₁ := g.modifySock a.sockinst fun s => (s.absorb a.id resp).1
  let g₂ := if resp.type = .of .socketAccept then g₁.queueInbound a resp' else g₁
  have h₂ : g₂.keys = g.keys ∧ OnlyAt a.ref g g₂ := by
    by_cases hacc : resp.type = .of .socketAccept
    · simp only [g₂, if_pos hacc]
      exact ⟨keys_queueInbound g₁ a resp', onlyAt_queueInbound g₁ a resp'⟩
    · simp only [g₂, if_neg hacc]
      exact ⟨rfl, fun _ _ => rfl⟩
  by_cases hstatus : resp.status < 0
  · have heq : (g.mwsocketPostprocNoContext a resp).1 = g₂ := by
      rw [mwsocketPostprocNoContext, if_pos hstatus]
    rw [heq]
    exact h₂
  · have heq : (g.mwsocketPostprocNoContext a resp).1.activeRequests = g₂.activeRequests := by
      rw [mwsocketPostprocNoContext, if_neg hstatus]
      exact activeRequests_recordAttrib _ a resp'
    constructor
    · rw [keys, heq]
      exact h₂.1
    · intro r hr
      rw [reqAt, heq]
      exact h₂.2 r hr

/-- The consumer delivers to the request it has found, or destroys it. -/
theorem deliverOrDestroy_spec (g : Globals) (a : ActReq) (resp : MtResponse) :
    (g.deliverOrDestroy a resp).keys.Sublist g.keys ∧ OnlyAt a.ref g (g.deliverOrDestroy a resp) := by
  rw [deliverOrDestroy]
  split
  · rw [keys_destroy]
    exact ⟨List.filter_sublist, onlyAt_destroy g a⟩
  · constructor
    · rw [keys_modifyReq g a.ref (f := fun x => x.deliver resp) fun _ => ⟨rfl, rfl⟩]
    · exact onlyAt_modifyReq g a.ref fun _ => rfl

theorem consume_dropped {g : Globals} {resp : MtResponse}
    (h : g.mwsocketFindActiveRequestById resp.id = none) : g.mwsocketConsumeResponse resp = g := by
  rw [mwsocketConsumeResponse, h]

theorem consume_found {g : Globals} {resp : MtResponse} {a : ActReq}
    (h : g.mwsocketFindActiveRequestById resp.id = some a) :
    (g.mwsocketConsumeResponse resp).keys.Sublist g.keys ∧
      OnlyAt a.ref g (g.mwsocketConsumeResponse resp) := by
  obtain ⟨hkeys, honly⟩ := postproc_spec g a resp
  rw [mwsocketConsumeResponse, h]
  simp only
  split
  · exact ⟨hkeys ▸ List.Sublist.refl _, honly⟩
  · rename_i b hb
    obtain ⟨hkeys', honly'⟩ :=
      deliverOrDestroy_spec (g.mwsocketPostprocNoContext a resp).1 b
        (g.mwsocketPostprocNoContext a resp).2
    rw [(reqAt_mem hb).2] at honly'
    exact ⟨hkeys ▸ hkeys', honly.trans honly'⟩

theorem keys_consume (g : Globals) (resp : MtResponse) :
    (g.mwsocketConsumeResponse resp).keys.Sublist g.keys := by
  rcases h : g.mwsocketFindActiveRequestById resp.id with _ | a
  · rw [consume_dropped h]
  · exact (consume_found h).1

theorem keys_clearPollable (g : Globals) (r : Nat) : (g.clearPollable r).keys = g.keys := by
  rw [clearPollable]
  split
  · rfl
  · rfl

/-- Routing an accept changes nothing but the descriptor. -/
theorem routeAccept_eq (g : Globals) (a : ActReq) :
    ∃ fd, g.routeAccept a = { a.request with sockfd := fd } := by
  rw [routeAccept]
  split
  · split
    · exact ⟨_, rfl⟩
    · exact ⟨_, rfl⟩
  · exact ⟨_, rfl⟩

/-- The request that is published is the one of the active request, stamped. -/
theorem published_eq {g : Globals} {a : ActReq} {slot : Slot} {acquired : Bool} {req : MtRequest}
    (h : (g.mwsocketSendRequest a slot acquired).2.2 = some req) :
    ∃ fd, req = { g.stampRequest a with sockfd := fd } := by
  simp only [mwsocketSendRequest] at h
  split at h
  · cases h
  · split at h
    · cases h
    · split at h
      · cases h
      · cases h
      · cases h
        exact routeAccept_eq ..

/-- Without a slot nothing is published. -/
theorem published_refused (g : Globals) (a : ActReq) (acquired : Bool) :
    (g.mwsocketSendRequest a .refused acquired).2.2 = none := by
  simp only [mwsocketSendRequest]
  split
  · rfl
  · split
    · rfl
    · rfl

/-- A request goes out under the id of its active request. -/
theorem send_spec (g : Globals) (a : ActReq) (slot : Slot) (acquired : Bool) :
    (g.mwsocketSendRequest a slot acquired).1.keys = g.keys ∧
      ∀ req, (g.mwsocketSendRequest a slot acquired).2.2 = some req → req.id = a.id := by
  have hstamp : (g.modifyReq a.ref fun x => { x with request := g.stampRequest a }).keys = g.keys :=
    keys_modifyReq g a.ref fun _ => ⟨rfl, rfl⟩
  constructor
  · simp only [mwsocketSendRequest]
    split
    · exact hstamp
    · split
      · exact (keys_clearPollable _ _).trans hstamp
      · split
        · exact (keys_clearPollable _ _).trans hstamp
        · refine Eq.trans ?_ hstamp
          exact keys_modifyReq (modifySock _ _ _) a.ref fun _ => ⟨rfl, rfl⟩
        · refine Eq.trans ?_ hstamp
          exact keys_modifyReq (modifySock _ _ _) a.ref fun _ => ⟨rfl, rfl⟩
  · intro req hreq
    obtain ⟨fd, rfl⟩ := published_eq hreq
    rfl

theorem create_spec {g g' : Globals} {sock ref : Nat} {fromUser deliver : Bool} {req : MtRequest}
    (h : g.mwsocketCreateActiveRequest sock fromUser deliver req = some (g', ref)) :
    ref = g.nextRef ∧ g'.nextRef = g.nextRef + 1 ∧
      ∃ id, g.mwsocketGetNextId (g.activeRequests.length + 1) = some id ∧
        g'.keys = (g.nextRef, id) :: g.keys := by
  rw [mwsocketCreateActiveRequest] at h
  split at h
  · obtain ⟨id, hid, heq⟩ := Option.map_eq_some_iff.mp h
    cases heq
    exact ⟨rfl, rfl, id, hid, rfl⟩
  · cases h

end Globals

/-! ## Messages in flight -/

namespace Driver

def flightOf (s : Driver) (ins : Fin maxInsCount) : List (Nat × MtId) :=
  ((s.pending ins).map fun p => (p.ref, p.request.id)) ++
    (s.ring ins).map fun a => (a.ref, a.response.id)

/-- Owner and id of every message on a ring that is not consumed yet. -/
def inFlight (s : Driver) : List (Nat × MtId) := (List.finRange maxInsCount).flatMap s.flightOf

theorem mem_inFlight {s : Driver} {x : Nat × MtId} : x ∈ s.inFlight ↔ ∃ ins, x ∈ s.flightOf ins := by
  simp [inFlight]

/-- The id the next creation draws is not that of a message in flight. -/
def notRedrawn (s : Driver) : DriverEvent → Prop
  | .create _ _ _ _ =>
      ∀ id, s.g.mwsocketGetNextId (s.g.activeRequests.length + 1) = some id →
        ∀ x ∈ s.inFlight, x.2 ≠ id
  | _ => True

instance (s : Driver) (e : DriverEvent) : Decidable (s.notRedrawn e) :=
  match e with
  | .create _ _ _ _ =>
      match h : s.g.mwsocketGetNextId (s.g.activeRequests.length + 1) with
      | none => isTrue fun id hid => by rw [h] at hid; cases hid
      | some id =>
          decidable_of_iff (∀ x ∈ s.inFlight, x.2 ≠ id) (by simp [notRedrawn, h])
  | .send _ _ _ _ => isTrue trivial
  | .destroy _ => isTrue trivial
  | .answer _ _ _ => isTrue trivial
  | .consume _ => isTrue trivial
  | .process _ _ _ => isTrue trivial

/-- What a step does to the live entries and to the messages in flight. -/
inductive KeyMove (s : Driver) (e : DriverEvent) (s' : Driver) : Prop where
  | opened (sock : Nat) (fromUser deliver : Bool) (request : MtRequest) (id : MtId)
      (he : e = .create sock fromUser deliver request)
      (hid : s.g.mwsocketGetNextId (s.g.activeRequests.length + 1) = some id)
      (hnext : s'.g.nextRef = s.g.nextRef + 1)
      (hkeys : s'.g.keys = (s.g.nextRef, id) :: s.g.keys)
      (hflight : s'.inFlight ⊆ s.inFlight)
  | sent (z : Nat × MtId) (hz : z ∈ s.g.keys)
      (hnext : s'.g.nextRef = s.g.nextRef)
      (hkeys : s'.g.keys = s.g.keys)
      (hflight : s'.inFlight ⊆ z :: s.inFlight)
  | dropped
      (hnext : s'.g.nextRef = s.g.nextRef)
      (hkeys : s'.g.keys.Sublist s.g.keys)
      (hflight : s'.inFlight ⊆ s.inFlight)

theorem nextRef_postproc (g : Globals) (a : ActReq) (resp : MtResponse) :
    (g.mwsocketPostprocNoContext a resp).1.nextRef = g.nextRef := by
  simp only [Globals.mwsocketPostprocNoContext, Globals.recordAttrib]
  split_ifs <;> rfl

theorem nextRef_consume (g : Globals) (resp : MtResponse) :
    (g.mwsocketConsumeResponse resp).nextRef = g.nextRef := by
  have hpost (a : ActReq) : (g.mwsocketPostprocNoContext a resp).1.nextRef = g.nextRef :=
    nextRef_postproc g a resp
  rw [Globals.mwsocketConsumeResponse]
  split
  · rfl
  · rename_i a _
    simp only
    split
    · exact hpost a
    · rw [Globals.deliverOrDestroy]
      split
      · exact hpost a
      · exact hpost a

theorem nextRef_clearPollable (g : Globals) (r : Nat) : (g.clearPollable r).nextRef = g.nextRef := by
  rw [Globals.clearPollable]
  split
  · rfl
  · rfl

theorem nextRef_send (g : Globals) (a : ActReq) (slot : Globals.Slot) (acquired : Bool) :
    (g.mwsocketSendRequest a slot acquired).1.nextRef = g.nextRef := by
  simp only [Globals.mwsocketSendRequest]
  split
  · rfl
  · split
    · exact nextRef_clearPollable _ _
    · split
      · exact nextRef_clearPollable _ _
      · rfl
      · rfl

/-- Messages in flight after a change on the ring of one INS. -/
theorem inFlight_subset {s s' : Driver} (ins : Fin maxInsCount) (extra : List (Nat × MtId))
    (hself : s'.flightOf ins ⊆ extra ++ s.flightOf ins)
    (hother : ∀ j, j ≠ ins → s'.flightOf j = s.flightOf j) : s'.inFlight ⊆ extra ++ s.inFlight := by
  intro x hx
  obtain ⟨j, hj⟩ := mem_inFlight.mp hx
  rw [List.mem_append, mem_inFlight]
  by_cases heq : j = ins
  · subst heq
    rcases List.mem_append.mp (hself hj) with h | h
    · exact Or.inl h
    · exact Or.inr ⟨j, h⟩
  · rw [hother j heq] at hj
    exact Or.inr ⟨j, hj⟩

theorem flightOf_congr {s s' : Driver} {j : Fin maxInsCount} (hp : s'.pending j = s.pending j)
    (hr : s'.ring j = s.ring j) : s'.flightOf j = s.flightOf j := by
  rw [flightOf, flightOf, hp, hr]

theorem driverStep_keyMove {s s' : Driver} {e : DriverEvent} (h : driverStep s e = some s') :
    KeyMove s e s' := by
  rcases e with ⟨sock, fromUser, deliver, req⟩ | ⟨ref, ins, slot, acquired⟩ | ref | ⟨ins, k, resp⟩ |
    ins | ⟨sock, exiting, forknoexec⟩
  · obtain ⟨⟨g', ref⟩, hr, rfl⟩ := Option.map_eq_some_iff.mp h
    obtain ⟨-, hnext, id, hid, hkeys⟩ := Globals.create_spec hr
    exact .opened sock fromUser deliver req id rfl hid hnext hkeys (List.Subset.refl _)
  · simp only [driverStep] at h
    split at h
    · cases h
    · rename_i a ha
      split at h
      · cases h
        obtain ⟨hmem, rfl⟩ := Globals.reqAt_mem ha
        obtain ⟨hkeys, hid⟩ := Globals.send_spec s.g a slot acquired
        refine .sent (a.ref, a.id) (Globals.mem_keys hmem) (nextRef_send ..) hkeys ?_
        refine inFlight_subset ins [(a.ref, a.id)] ?_ fun j hj =>
          flightOf_congr (Function.update_of_ne hj _ _) rfl
        intro x hx
        simp only [flightOf, Function.update_self, List.map_append, List.mem_append] at hx ⊢
        rcases hx with (hx | hx) | hx
        · exact Or.inr (Or.inl hx)
        · left
          obtain ⟨p, hp, rfl⟩ := List.mem_map.mp hx
          obtain ⟨req, hreq, rfl⟩ := Option.map_eq_some_iff.mp (Option.mem_toList.mp hp)
          rw [hid req hreq]
          exact List.mem_singleton.mpr rfl
        · exact Or.inr (Or.inr hx)
      · cases h
  · obtain ⟨a, ha, rfl⟩ := Option.map_eq_some_iff.mp h
    refine .dropped rfl ?_ (List.Subset.refl _)
    rw [Globals.keys_destroy]
    exact List.filter_sublist
  · simp only [driverStep] at h
    split at h
    · cases h
    · rename_i p hp
      split at h
      · cases h
        refine .dropped rfl (List.Sublist.refl _) ?_
        refine inFlight_subset ins [] ?_ fun j hj =>
          flightOf_congr (Function.update_of_ne hj _ _) (Function.update_of_ne hj _ _)
        intro x hx
        simp only [flightOf, Function.update_self, List.map_append, List.mem_append,
          List.nil_append] at hx ⊢
        rcases hx with hx | hx | hx
        · obtain ⟨q, hq, rfl⟩ := List.mem_map.mp hx
          exact Or.inl (List.mem_map.mpr ⟨q, List.mem_of_mem_eraseIdx hq, rfl⟩)
        · exact Or.inr hx
        · rw [List.map_singleton, List.mem_singleton] at hx
          subst hx
          exact Or.inl (List.mem_map.mpr ⟨p, List.mem_of_getElem? hp, rfl⟩)
      · cases h
  · simp only [driverStep] at h
    split at h
    · cases h
    · rename_i ans rest hring
      cases h
      refine .dropped (nextRef_consume _ _) (Globals.keys_consume _ _) ?_
      refine inFlight_subset ins [] ?_ fun j hj =>
        flightOf_congr rfl (Function.update_of_ne hj _ _)
      intro x hx
      simp only [flightOf, Function.update_self, List.mem_append, List.nil_append, hring] at hx ⊢
      rcases hx with hx | hx
      · exact Or.inl hx
      · exact Or.inr (List.mem_cons_of_mem _ hx)
  · cases h
    exact .dropped rfl (List.Sublist.refl _) (List.Subset.refl _)

/-! ## Matching -/

/-- Addresses and ids are pairwise distinct, ids are set, and the addresses in
use have been handed out. -/
structure Distinct (s : Driver) : Prop where
  refs : (s.g.keys.map Prod.fst).Nodup
  ids : (s.g.keys.map Prod.snd).Nodup
  set : ∀ x ∈ s.g.keys, x.2 ≠ mtIdUnsetValue
  old : ∀ x ∈ s.g.keys, x.1 < s.g.nextRef
  flown : ∀ x ∈ s.inFlight, x.1 < s.g.nextRef

theorem distinct_init (counter : MtId) (socks : Nat → SockInst) :
    Distinct (driver counter socks).init := by
  have hflight : (driver counter socks).init.inFlight = [] := by
    rw [inFlight]
    exact List.flatMap_eq_nil_iff.mpr fun _ _ => rfl
  exact
    { refs := List.nodup_nil
      ids := List.nodup_nil
      set := fun x hx => absurd hx List.not_mem_nil
      old := fun x hx => absurd hx List.not_mem_nil
      flown := fun x hx => by rw [hflight] at hx; exact absurd hx List.not_mem_nil }

theorem Distinct.step {s s' : Driver} {e : DriverEvent} (h : driverStep s e = some s')
    (hd : Distinct s) : Distinct s' := by
  rcases driverStep_keyMove h with ⟨_, _, _, _, id, -, hid, hnext, hkeys, hflight⟩ |
    ⟨z, hz, hnext, hkeys, hflight⟩ | ⟨hnext, hkeys, hflight⟩
  · obtain ⟨hset, hfresh⟩ := Globals.mwsocketGetNextId_spec hid
    have hnew : s.g.nextRef ∉ s.g.keys.map Prod.fst := by
      intro hmem
      obtain ⟨x, hx, heq⟩ := List.mem_map.mp hmem
      have := hd.old x hx
      omega
    refine ⟨?_, ?_, ?_, ?_, ?_⟩
    · rw [hkeys, List.map_cons, List.nodup_cons]
      exact ⟨hnew, hd.refs⟩
    · rw [hkeys, List.map_cons, List.nodup_cons]
      exact ⟨hfresh, hd.ids⟩
    · intro x hx
      rw [hkeys] at hx
      rcases List.mem_cons.mp hx with rfl | hx
      · exact hset
      · exact hd.set x hx
    · intro x hx
      rw [hkeys] at hx
      rw [hnext]
      rcases List.mem_cons.mp hx with rfl | hx
      · exact Nat.lt_succ_self _
      · exact Nat.lt_succ_of_lt (hd.old x hx)
    · intro x hx
      rw [hnext]
      exact Nat.lt_succ_of_lt (hd.flown x (hflight hx))
  · refine ⟨hkeys ▸ hd.refs, hkeys ▸ hd.ids, hkeys ▸ hd.set, ?_, ?_⟩
    · intro x hx
      rw [hkeys] at hx
      rw [hnext]
      exact hd.old x hx
    · intro x hx
      rw [hnext]
      rcases List.mem_cons.mp (hflight hx) with rfl | hx
      · exact hd.old x hz
      · exact hd.flown x hx
  · refine ⟨hd.refs.sublist (hkeys.map _), hd.ids.sublist (hkeys.map _), ?_, ?_, ?_⟩
    · intro x hx
      exact hd.set x (hkeys.subset hx)
    · intro x hx
      rw [hnext]
      exact hd.old x (hkeys.subset hx)
    · intro x hx
      rw [hnext]
      exact hd.flown x (hflight hx)

/-- Moreover every message on a ring is resolved to the request it belongs to. -/
structure Tracked (s : Driver) : Prop where
  distinct : Distinct s
  agree : Correlated s.g.keys s.inFlight

theorem Tracked.step {s s' : Driver} {e : DriverEvent} (h : driverStep s e = some s')
    (hG : s.notRedrawn e) (ht : Tracked s) : Tracked s' := by
  refine ⟨ht.distinct.step h, ?_⟩
  rcases driverStep_keyMove h with ⟨_, _, _, _, id, rfl, hid, -, hkeys, hflight⟩ |
    ⟨z, hz, -, hkeys, hflight⟩ | ⟨-, hkeys, hflight⟩
  · have howner : ∀ y ∈ s.inFlight, y.1 ≠ s.g.nextRef := by
      intro y hy
      exact Nat.ne_of_lt (ht.distinct.flown y hy)
    rw [hkeys]
    exact (ht.agree.open_entry howner (hG id hid)).mono (List.Subset.refl _) hflight
  · rw [hkeys]
    exact (ht.agree.send_message (List.Subset.refl _) ht.distinct.refs ht.distinct.ids hz).mono
      (List.Subset.refl _) hflight
  · exact ht.agree.mono hkeys.subset hflight

/-- What the consumer does with the response at the head of a ring: it processes
the active request the response answers and no other, or drops the response if
that request is gone. -/
def Matched (s : Driver) (ans : Answer) : Prop :=
  match s.g.reqAt ans.ref with
  | none => s.g.mwsocketConsumeResponse ans.response = s.g
  | some a =>
      s.g.mwsocketFindActiveRequestById ans.response.id = some a ∧
        Globals.OnlyAt ans.ref s.g (s.g.mwsocketConsumeResponse ans.response)

theorem find_iff {s : Driver} (hd : Distinct s) (id : MtId) (a : ActReq) :
    s.g.mwsocketFindActiveRequestById id = some a ↔ a ∈ s.g.activeRequests ∧ a.id = id := by
  constructor
  · intro h
    exact ⟨List.mem_of_find?_eq_some h, by simpa using List.find?_some h⟩
  · rintro ⟨hmem, rfl⟩
    rcases h : s.g.mwsocketFindActiveRequestById a.id with _ | b
    · have := List.find?_eq_none.mp h a hmem
      simp at this
    · have hb := List.mem_of_find?_eq_some h
      have hid : b.id = a.id := by simpa using List.find?_some h
      have hnodup := hd.ids
      rw [← Globals.ids_eq] at hnodup
      rw [List.inj_on_of_nodup_map hnodup hb hmem hid]

theorem Tracked.matched {s : Driver} (ht : Tracked s) {ins : Fin maxInsCount} {ans : Answer}
    {rest : List Answer} (hring : s.ring ins = ans :: rest) : s.Matched ans := by
  have hd := ht.distinct
  have hc := ht.agree
  have hflight : (ans.ref, ans.response.id) ∈ s.inFlight := by
    rw [mem_inFlight]
    exact ⟨ins, by simp [flightOf, hring]⟩
  rw [Matched]
  split
  · rename_i hgone
    apply Globals.consume_dropped
    rcases h : s.g.mwsocketFindActiveRequestById ans.response.id with _ | a
    · rfl
    · obtain ⟨hmem, hid⟩ := (find_iff hd _ a).mp h
      have hagree := hc _ (Globals.mem_keys hmem) _ hflight
      exact absurd (hagree.mpr hid) (Globals.reqAt_none hgone a hmem)
  · rename_i a ha
    obtain ⟨hmem, href⟩ := Globals.reqAt_mem ha
    have hid : a.id = ans.response.id := (hc _ (Globals.mem_keys hmem) _ hflight).mp href
    have hfind := (find_iff hd ans.response.id a).mpr ⟨hmem, hid⟩
    refine ⟨hfind, ?_⟩
    rw [← href]
    exact (Globals.consume_found hfind).2

end Driver

/-- The counter wraps around between two creations, and the INS answers the
second request first. -/
def wrapped : List DriverEvent :=
  let request : MtRequest := { type := .socketRecv, size := mtRequestSocketRecvSize }
  [.create 0 true true request, .create 0 true true request, .send 0 insZero (.granted 0) false,
   .send 1 insZero (.granted 0) false, .answer insZero 1 {}, .answer insZero 0 {}, .destroy 0]

end MagicWand.Kernel
