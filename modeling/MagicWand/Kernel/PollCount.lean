import MagicWand.Foundation.Gauge
import MagicWand.Kernel.Routing
import MagicWand.Kernel.Views

/-!
# The number of pollable sockets

The monitor sends poll queries only while `poll_sock_count` is positive.
`mwsocket_set_pollable` changes the count together with the flag of an instance.
Two paths of the driver go round it: an instance that cannot be completed is
given back with its flag set, and a user socket that goes on as one of its
siblings gets the flags of that one.
-/

namespace MagicWand.Kernel

open Foundation

/-! ## Changes that neither the flag nor the count shows -/

def SockInst.pollable (k : SockInst) : Bool := k.mwflags.has MwFlags.pollable

namespace MwFlags

theorem pollable_or (f : MwFlags) {m : MwFlags} (hm : m.has pollable = false) :
    (f ||| m).has pollable = f.has pollable := by
  rw [has_or, hm, Bool.or_false]

theorem pollable_clear (f : MwFlags) {m : MwFlags} (hm : ~~~m &&& pollable = pollable) :
    (f &&& ~~~m).has pollable = f.has pollable := by
  rw [has, has, BitVec.and_assoc, hm]

theorem pollable_cleared (k : SockInst) :
    ({ k with mwflags := k.mwflags &&& ~~~pollable } : SockInst).pollable = false := by
  rw [SockInst.pollable, has, BitVec.and_assoc]
  simp [pollable]

theorem pollable_set (k : SockInst) :
    ({ k with mwflags := k.mwflags ||| pollable } : SockInst).pollable = true := by
  rw [SockInst.pollable, has_or, Bool.or_eq_true]
  exact .inr (by decide)

end MwFlags

namespace SockInst

theorem pollable_absorb (k : SockInst) (id : MtId) (resp : MtResponse) :
    (k.absorb id resp).1.pollable = k.pollable := by
  have hrelease : (k.releaseClose id resp).mwflags = k.mwflags := by
    rw [releaseClose]
    split
    · split_ifs <;> rfl
    · rfl
  have htally (k : SockInst) : (k.tallySend resp).1.mwflags = k.mwflags := by
    rw [tallySend]
    split_ifs <;> rfl
  have hclosed (k : SockInst) : (k.noteRemoteClosed resp).mwflags = k.mwflags := by
    rw [noteRemoteClosed]
    split_ifs <;> rfl
  rw [pollable, pollable, absorb, hclosed, htally, hrelease]

theorem pollable_recordSuccess (k : SockInst) (resp : MtResponse) :
    (k.recordSuccess resp).pollable = k.pollable := by
  rw [recordSuccess]
  split
  all_goals first | rfl | exact MwFlags.pollable_or _ (by decide)

theorem pollable_preProcess (k : SockInst) (id : MtId) (req : MtRequest) (acquired : Bool) :
    (k.preProcess id req acquired).pollable = k.pollable := by
  have hprepare (k : SockInst) : (k.prepare req).pollable = k.pollable := by
    rw [prepare]
    split
    all_goals first | rfl | exact MwFlags.pollable_or _ (by decide) | skip
    split_ifs <;> rfl
  have hacquire (k : SockInst) : (k.acquireClose id req.type acquired).pollable = k.pollable := by
    rw [acquireClose]
    split_ifs <;> rfl
  rw [preProcess, hprepare, hacquire]
  split_ifs <;> rfl

end SockInst

namespace Globals

/-- The count and the flags are as they were. -/
structure SamePoll (g g' : Globals) : Prop where
  count : g'.pollSockCount = g.pollSockCount
  flags : ∀ x, (g'.socks x).pollable = (g.socks x).pollable

theorem SamePoll.refl (g : Globals) : SamePoll g g := ⟨rfl, fun _ => rfl⟩

theorem SamePoll.trans {g g' g'' : Globals} (h : SamePoll g g') (h' : SamePoll g' g'') :
    SamePoll g g'' :=
  ⟨h'.count.trans h.count, fun x => (h'.flags x).trans (h.flags x)⟩

/-- One instance changes, and its flag does not. -/
theorem samePoll_update {g g' : Globals} {r : Nat} {k : SockInst}
    (h : g'.socks = Function.update g.socks r k) (hk : k.pollable = (g.socks r).pollable)
    (hcount : g'.pollSockCount = g.pollSockCount) : SamePoll g g' where
  count := hcount
  flags := view_update_of_eq (F := SockInst.pollable) h hk

theorem samePoll_modifySock (g : Globals) (r : Nat) {f : SockInst → SockInst}
    (hf : ∀ k, (f k).pollable = k.pollable) : SamePoll g (g.modifySock r f) :=
  samePoll_update rfl (hf _) rfl

theorem samePoll_queueInbound (g : Globals) (a : ActReq) (resp : MtResponse) :
    SamePoll g (g.queueInbound a resp) := by
  have haccept : SamePoll g (g.modifySock a.sockinst fun s =>
      { s with mwflags := s.mwflags &&& ~~~MwFlags.accept }) :=
    samePoll_modifySock g a.sockinst fun k => MwFlags.pollable_clear k.mwflags (by decide)
  exact haccept.trans (samePoll_update rfl rfl rfl)

theorem samePoll_recordAttrib (g : Globals) (a : ActReq) (resp : MtResponse) :
    SamePoll g (g.recordAttrib a resp) := by
  rw [recordAttrib]
  split
  · exact samePoll_modifySock g _ fun _ => rfl
  · exact .refl g

theorem samePoll_postproc (g : Globals) (a : ActReq) (resp : MtResponse) :
    SamePoll g (g.mwsocketPostprocNoContext a resp).1 := by
  have habsorb : SamePoll g (g.modifySock a.sockinst fun s => (s.absorb a.id resp).1) :=
    samePoll_modifySock g a.sockinst fun k => k.pollable_absorb a.id resp
  have hqueue : SamePoll g
      (if resp.type = .of .socketAccept then
        (g.modifySock a.sockinst fun s => (s.absorb a.id resp).1).queueInbound a
          ((g.socks a.sockinst).absorb a.id resp).2
      else g.modifySock a.sockinst fun s => (s.absorb a.id resp).1) := by
    split
    · exact habsorb.trans (samePoll_queueInbound _ a _)
    · exact habsorb
  rw [mwsocketPostprocNoContext]
  by_cases hstatus : resp.status < 0
  · rw [if_pos hstatus]
    exact hqueue
  · rw [if_neg hstatus]
    refine (hqueue.trans ?_).trans (samePoll_recordAttrib _ a _)
    exact samePoll_modifySock _ a.sockinst fun k => k.pollable_recordSuccess _

theorem samePoll_destroy (g : Globals) (a : ActReq) :
    SamePoll g (g.mwsocketDestroyActiveRequest a) :=
  samePoll_update rfl rfl rfl

theorem samePoll_consume (g : Globals) (resp : MtResponse) :
    SamePoll g (g.mwsocketConsumeResponse resp) := by
  rw [mwsocketConsumeResponse]
  split
  · exact .refl g
  · rename_i a _
    dsimp only
    have hpost := samePoll_postproc g a resp
    split
    · exact hpost
    · refine hpost.trans ?_
      rw [deliverOrDestroy]
      split
      · exact samePoll_destroy _ _
      · exact ⟨rfl, fun _ => rfl⟩

theorem samePoll_create {g g' : Globals} {sock ref : Nat} {fromUser deliver : Bool} {req : MtRequest}
    (h : g.mwsocketCreateActiveRequest sock fromUser deliver req = some (g', ref)) :
    SamePoll g g' := by
  rw [mwsocketCreateActiveRequest] at h
  split at h
  · obtain ⟨id, -, heq⟩ := Option.map_eq_some_iff.mp h
    cases heq
    exact samePoll_update rfl rfl rfl
  · cases h

theorem samePoll_send {g : Globals} {a : ActReq} {slot : Slot} {acquired : Bool} :
    ∃ g' : Globals, SamePoll g g' ∧ ((g.mwsocketSendRequest a slot acquired).1 = g' ∨
      (g.mwsocketSendRequest a slot acquired).1 = g'.clearPollable a.sockinst) := by
  let u := g.modifyReq a.ref fun x => { x with request := g.stampRequest a }
  have hstamp : SamePoll g u := ⟨rfl, fun _ => rfl⟩
  have hdead : SamePoll u (u.modifySock a.sockinst fun s => { s with insAlive := false }) :=
    samePoll_modifySock u a.sockinst fun _ => rfl
  have hprepare : SamePoll u (u.mwsocketPreProcessRequest
      { a with request := g.stampRequest a } acquired) :=
    (samePoll_modifySock u a.sockinst fun k => k.pollable_preProcess _ _ _).trans
      ⟨rfl, fun _ => rfl⟩
  simp only [mwsocketSendRequest]
  split_ifs
  · exact ⟨u, hstamp, .inl rfl⟩
  · exact ⟨u, hstamp, .inr rfl⟩
  · cases slot with
    | refused => exact ⟨_, hstamp.trans hdead, .inr rfl⟩
    | lost => exact ⟨_, hstamp.trans hprepare, .inl rfl⟩
    | granted notified => exact ⟨_, hstamp.trans hprepare, .inl rfl⟩

end Globals

/-! ## The count -/

namespace Table

/-- The instances of the list with their flags, and the count of the driver. -/
def pollGauge (t : Table) : Gauge Nat where
  members := t.sockinsts
  marked r := (t.sock r).pollable
  count := t.g.pollSockCount

/-- The count is right, and the next instance is not in the list yet. -/
structure PollCounted (t : Table) : Prop where
  right : t.pollGauge.Right
  fresh : ∀ r ∈ t.sockinsts, r < t.nextSock

variable {t t' : Table}

theorem PollCounted.same (h : t.PollCounted) (hsame : Globals.SamePoll t.g t'.g)
    (hlist : t'.sockinsts = t.sockinsts) (hnext : t'.nextSock = t.nextSock) : t'.PollCounted where
  right := h.right.congr hlist (funext hsame.flags) hsame.count
  fresh := by
    rw [hlist, hnext]
    exact h.fresh

theorem pollable_new (r : Nat) : ({ usersock := r } : SockInst).pollable = false := by
  change MwFlags.has 0 MwFlags.pollable = false
  decide

/-- One instance changes. -/
theorem marked_update {r : Nat} {k : SockInst}
    (h : t'.g.socks = Function.update t.g.socks r k) :
    t'.pollGauge.marked = Function.update t.pollGauge.marked r k.pollable := by
  funext x
  exact (Globals.view_update (F := SockInst.pollable) h x).trans (Function.update_apply ..).symm

/-- `mwsocket_set_pollable(SockInst, false)`. -/
theorem PollCounted.clear (h : t.PollCounted) (r : Nat) :
    ({ t with g := t.g.clearPollable r } : Table).PollCounted := by
  refine ⟨?_, h.fresh⟩
  by_cases hflag : (t.sock r).pollable = true
  · rw [show t.g.clearPollable r = _ from if_pos hflag]
    have hmark : t.pollGauge.marked r = true := hflag
    refine h.right.mark (x := r) (b := false) (fun hb => absurd hb Bool.false_ne_true) rfl
      ((marked_update rfl).trans ?_) ?_
    · exact congrArg (Function.update _ r) (MwFlags.pollable_cleared _)
    · rw [if_pos hmark]
      exact (Int.add_zero _).symm
  · rw [show t.g.clearPollable r = t.g from if_neg hflag]
    exact h.right

/-- `mwsocket_set_pollable(SockInst, true)`. -/
theorem PollCounted.setPollable (h : t.PollCounted) {r : Nat} (hr : r ∈ t.sockinsts) :
    (t.setPollable r).PollCounted := by
  rw [Table.setPollable]
  split_ifs with hflag
  · exact h
  · have hmark : ¬ t.pollGauge.marked r = true := hflag
    refine ⟨?_, h.fresh⟩
    refine h.right.mark (x := r) (b := true) (fun _ => hr) rfl ((marked_update rfl).trans ?_) ?_
    · exact congrArg (Function.update _ r) (MwFlags.pollable_set _)
    · rw [if_neg hmark, Int.sub_zero]
      rfl

theorem marked_clear (t : Table) (r : Nat) :
    ({ t with g := t.g.clearPollable r } : Table).pollGauge.marked r = false := by
  by_cases hflag : (t.sock r).pollable = true
  · rw [show t.g.clearPollable r = _ from if_pos hflag]
    rw [marked_update (t := t) rfl, Function.update_self]
    exact MwFlags.pollable_cleared _
  · rw [show t.g.clearPollable r = t.g from if_neg hflag]
    exact Bool.eq_false_iff.mpr hflag

theorem PollCounted.unlink (h : t.PollCounted) (r : Nat) : (t.unlink r).PollCounted where
  right := (h.clear r).right.leave (marked_clear t r) rfl rfl rfl
  fresh x hx := h.fresh x (List.mem_of_mem_filter hx)

theorem PollCounted.settle (h : t.PollCounted) (r : Nat) {g : Globals}
    (hsame : Globals.SamePoll t.g g) : (t.settle r g).PollCounted := by
  have hg : ({ t with g := g } : Table).PollCounted := h.same hsame rfl rfl
  rw [Table.settle]
  split
  · exact hg.unlink r
  · exact hg

theorem PollCounted.put (h : t.PollCounted) (r : Nat) : (t.mwsocketPutSockinst r).PollCounted :=
  h.settle r (Globals.samePoll_modifySock t.g r fun _ => rfl)

theorem PollCounted.destroy (h : t.PollCounted) (a : ActReq) :
    (t.mwsocketDestroyActiveRequest a).PollCounted :=
  h.settle a.sockinst (Globals.samePoll_destroy t.g a)

theorem PollCounted.consume (h : t.PollCounted) (resp : MtResponse) :
    (t.mwsocketConsumeResponse resp).PollCounted := by
  rw [Table.mwsocketConsumeResponse]
  split
  · exact h
  · exact h.settle _ (Globals.samePoll_consume t.g resp)

theorem PollCounted.failRequest (h : t.PollCounted) (a : ActReq) : (t.failRequest a).PollCounted :=
  h.same ((Globals.samePoll_postproc t.g a (deadResponse a.request)).trans ⟨rfl, fun _ => rfl⟩)
    rfl rfl

theorem PollCounted.reapRequest (h : t.PollCounted) (a : ActReq) :
    (t.reapRequest a).PollCounted := by
  rw [Table.reapRequest]
  split_ifs
  · exact h.destroy a
  · exact h.failRequest a
  · exact h
  · exact h.destroy a

theorem PollCounted.modifySock (h : t.PollCounted) (r : Nat) {f : SockInst → SockInst}
    (hf : ∀ k, (f k).pollable = k.pollable) : (t.modifySock r f).PollCounted :=
  h.same (Globals.samePoll_modifySock t.g r hf) rfl rfl

theorem PollCounted.markDead (h : t.PollCounted) (r : Nat) : (t.markDead r).PollCounted :=
  (h.modifySock r (f := fun s => { s with insAlive := false }) fun _ => rfl).clear r

theorem PollCounted.send (h : t.PollCounted) (a : ActReq) (slot : Globals.Slot) (acquired : Bool) :
    ({ t with g := (t.g.mwsocketSendRequest a slot acquired).1 } : Table).PollCounted := by
  obtain ⟨g, hsame, heq⟩ := @Globals.samePoll_send t.g a slot acquired
  have hg : ({ t with g := g } : Table).PollCounted := h.same hsame rfl rfl
  rcases heq with heq | heq
  · rw [heq]
    exact hg
  · rw [heq]
    exact hg.clear a.sockinst

theorem PollCounted.create (h : t.PollCounted) (pollable : Bool) :
    (t.mwsocketCreateSockinst pollable).PollCounted := by
  have hnew : t.nextSock ∉ t.sockinsts := fun hmem => Nat.lt_irrefl _ (h.fresh _ hmem)
  have henter : ({ t.modifySock t.nextSock (fun _ => { usersock := t.nextSock }) with
      sockinsts := t.nextSock :: t.sockinsts
      nextSock := t.nextSock + 1 } : Table).PollCounted := by
    refine ⟨h.right.enter hnew rfl ?_ rfl, ?_⟩
    · refine (marked_update rfl).trans ?_
      exact Function.update_eq_self_iff.mpr ((pollable_new _).trans (h.right.outside _ hnew).symm)
    · intro r hr
      rcases List.mem_cons.mp hr with rfl | hr
      · exact Nat.lt_succ_self _
      · exact Nat.lt_succ_of_lt (h.fresh r hr)
  rw [mwsocketCreateSockinst]
  cases pollable with
  | false => exact henter
  | true => exact henter.setPollable List.mem_cons_self

/-- Does user socket `r` of a dead INS go on as one of its siblings? -/
def handsOver (t : Table) (dead : List (BitVec 16)) (r : Nat) : Bool :=
  let t := t.markDead r
  (t.sock r).mwflags.has MwFlags.accept && (t.sock r).mwflags.has MwFlags.user &&
    (t.replacement dead r).isSome

theorem PollCounted.reapSocket (h : t.PollCounted) {dead : List (BitVec 16)} {r : Nat}
    (hover : t.handsOver dead r = false) (ht : t.reapSocket dead r = some t') : t'.PollCounted := by
  have hdead := h.markDead r
  simp only [Table.reapSocket] at ht
  split at ht
  · rename_i haccept
    split at ht
    · cases ht
      exact hdead.put r
    · rename_i huser
      split at ht
      · rename_i q hq
        rw [Bool.not_eq_true', Bool.not_eq_false] at huser
        simp [handsOver, haccept, huser, hq] at hover
      · obtain ⟨b, -, rfl⟩ := Option.map_eq_some_iff.mp ht
        exact hdead.failRequest b
  · cases ht
    exact hdead

/-- `mwsocket_create_sockinst`, when it fails: the instance leaves the list again
and is freed, with its flags as they are. -/
def createFails (t : Table) (pollable : Bool) : Table :=
  let t' := t.mwsocketCreateSockinst pollable
  { t' with sockinsts := t'.sockinsts.filter fun x => x ≠ t.nextSock }

theorem PollCounted.createFails (h : t.PollCounted) : (t.createFails false).PollCounted := by
  have hcreate := h.create false
  refine ⟨hcreate.right.leave (x := t.nextSock) ?_ rfl rfl rfl, ?_⟩
  · refine (congrFun (marked_update (t := t) rfl) t.nextSock).trans ?_
    exact (Function.update_self ..).trans (pollable_new _)
  · intro x hx
    exact hcreate.fresh x (List.mem_filter.mp hx).1

end Table

/-! ## Runs -/

/-- What happens to the count: a step of the driver, a creation that fails after
the instance has been put in the list, and the round of the poll monitor for an
instance whose INS is dead. -/
inductive PollEvent where
  | driver (e : SocketEvent)
  | createFails (pollable : Bool)
  | skipDead (r : Nat)

namespace Sockets

def pollStep (s : Sockets) : PollEvent → Option Sockets
  | .driver e => s.step e
  | .createFails pollable => some { s with table := s.table.createFails pollable }
  | .skipDead r =>
      if r ∈ s.table.sockinsts ∧ !(s.sock r).insAlive then
        some { s with table := { s.table with g := s.table.g.clearPollable r } }
      else none

/-- No pollable instance is given back unfinished, and no user socket goes on as
one of its siblings. -/
def KeepsCount (s : Sockets) : PollEvent → Prop
  | .driver (.reapSocket dead r) => s.table.handsOver dead r = false
  | .createFails pollable => pollable = false
  | _ => True

instance (s : Sockets) (e : PollEvent) : Decidable (s.KeepsCount e) :=
  match e with
  | .driver (.reapSocket dead r) => inferInstanceAs (Decidable (s.table.handsOver dead r = false))
  | .createFails pollable => inferInstanceAs (Decidable (pollable = false))
  | .skipDead _ => isTrue trivial
  | .driver (.create _) | .driver (.accepted _) | .driver (.user _) | .driver .replica
  | .driver (.join _ _) | .driver (.replicated _ _ _) | .driver (.request _ _ _ _)
  | .driver (.send _ _ _) | .driver (.destroy _) | .driver (.respond _ _) | .driver (.check _ _)
  | .driver (.process _ _ _) | .driver (.poll _) | .driver .visit | .driver (.insFound _ _)
  | .driver (.insReady _) | .driver (.insReleased _) | .driver (.reapRequest _ _)
  | .driver (.release _) | .driver (.releaseSibling _ _) | .driver (.releaseSelf _) => isTrue trivial

theorem pollCounted_visit {t : Table} (h : t.PollCounted) (r : Nat) (items : List MtPollsetItem) :
    (visit t r items).PollCounted := by
  have hclear := h.modifySock (t.sock r).usersock (f := fun s => { s with pollEvents := 0 })
    fun _ => rfl
  simp only [visit]
  split
  · exact hclear
  · exact hclear.modifySock _ fun _ => rfl

theorem pollCounted_setFlags {s : Sockets} (h : s.table.PollCounted) (r : Nat) {f : MwFlags}
    (hf : f.has MwFlags.pollable = false) : (s.setFlags r f).table.PollCounted :=
  h.modifySock r fun k => MwFlags.pollable_or k.mwflags hf

theorem pollable_pendingError (k : SockInst) (t : MtRequestType) :
    (mwsocketPendingError k t).2.pollable = k.pollable := by
  rw [mwsocketPendingError]
  split_ifs <;> rfl

theorem pollCounted_step {s s' : Sockets} {e : SocketEvent} (hG : s.KeepsCount (.driver e))
    (h : s.step e = some s') (hs : s.table.PollCounted) : s'.table.PollCounted := by
  cases step_inv h with
  | create file => exact hs.create file
  | accepted fd =>
      exact (hs.create true).modifySock s.table.nextSock fun k =>
        MwFlags.pollable_or k.mwflags (by decide)
  | user hfile => exact pollCounted_setFlags hs _ (by decide)
  | replica => exact hs.create true
  | @join p q hnew hq hown hp huser =>
      have hprimary : (s.table.modifySock q fun k => { k with usersock := p }).PollCounted :=
        hs.modifySock q fun _ => rfl
      exact hprimary.same (.refl _) rfl rfl
  | built => exact hs
  | unbuilt => exact hs.put _
  | found => exact hs
  | spoilt => exact hs.put _
  | request hsock hc => exact hs.same (Globals.samePoll_create hc) rfl rfl
  | send ha hsend =>
      obtain ⟨-, -, hsent⟩ := send_inv hsend
      cases hsent with
      | kept slot' => exact hs.send _ slot' _
      | published => exact hs.send _ _ _
  | destroy ha => exact hs.destroy _
  | respond => exact hs.consume _
  | check r t => exact hs.modifySock r fun k => pollable_pendingError k t
  | process => exact hs.modifySock _ fun _ => rfl
  | poll => exact hs
  | visit => exact pollCounted_visit hs _ _
  | xen => exact hs
  | reapRequest => exact hs.reapRequest _
  | reapSocket hr ht => exact hs.reapSocket hG ht
  | release => exact pollCounted_setFlags hs _ (by decide)
  | releaseSibling => exact (pollCounted_setFlags hs _ (by decide)).put _
  | releaseSelf => exact hs.put _

theorem pollCounted_pollStep {s s' : Sockets} {e : PollEvent} (hG : s.KeepsCount e)
    (h : s.pollStep e = some s') (hs : s.table.PollCounted) : s'.table.PollCounted := by
  cases e with
  | driver e => exact pollCounted_step hG h hs
  | createFails pollable =>
      cases h
      rw [show pollable = false from hG]
      exact hs.createFails
  | skipDead r =>
      obtain ⟨-, heq⟩ := Option.ite_none_right_eq_some.mp h
      cases heq
      exact hs.clear r

end Sockets

/-- The driver with its poll monitor, with no sockets and no INS at first. -/
def polledSockets (counter : MtId) : System Sockets PollEvent where
  init := (sockets counter).init
  step := Sockets.pollStep

theorem pollCounted_init (counter : MtId) : (polledSockets counter).init.table.PollCounted where
  right := by
    refine ⟨⟨List.nodup_nil, ?_⟩, rfl⟩
    intro x _
    simp only [polledSockets, sockets, Table.pollGauge, Table.sock]
    change MwFlags.has 0 MwFlags.pollable = false
    decide
  fresh _ hr := absurd hr List.not_mem_nil

/-- As long as no pollable instance is given back unfinished and no user socket
goes on as one of its siblings, the count is the number of pollable instances in
the list: it is never negative, and it is positive when there is one. -/
theorem pollable_counted (counter : MtId) (es : List PollEvent) (s : Sockets)
    (hG : (polledSockets counter).Guarded Sockets.KeepsCount es)
    (hrun : (polledSockets counter).run es = some s) :
    s.table.g.pollSockCount = s.table.sockinsts.countP (fun r => (s.sock r).pollable) ∧
    0 ≤ s.table.g.pollSockCount ∧
    ∀ r ∈ s.table.sockinsts, (s.sock r).pollable = true → 0 < s.table.g.pollSockCount := by
  have h : s.table.PollCounted :=
    (polledSockets counter).guarded_invariant (pollCounted_init counter)
      (fun _ _ _ hG h hs => Sockets.pollCounted_pollStep hG h hs) hG hrun
  exact ⟨h.right.count, h.right.nonneg, fun r hr hflag => h.right.pos hr hflag⟩

/-- The accept of a user. -/
def userAccept (fd : MwSocketFd) : MtRequest :=
  { acceptOn fd with flags := MtFlags.pvmCallerAwaitsResponse }

/-- INS 5 dies while its listener accepts and an instance is not completed; the
socket on INS 6 stays. -/
def oneListenerDies : List PollEvent :=
  [.driver (.insFound insZero 5), .driver (.insReady insZero), .driver (.accepted (mwSocketCreate 5 1)),
   .driver (.accepted (mwSocketCreate 6 1)), .createFails false,
   .driver (.request 0 true true (userAccept (mwSocketCreate 5 1))),
   .driver (.send 0 (.granted 0) false), .driver (.insReleased insZero),
   .driver (.reapRequest [5] 0), .driver (.reapSocket [5] 0), .skipDead 0]

theorem pollable_counted_oneListenerDies :
    ∃ s, (polledSockets 0).run oneListenerDies = some s ∧
      s.table.sockinsts.map (fun r => (s.sock r).pollable) = [true, false] ∧
      s.table.g.pollSockCount = s.table.sockinsts.countP (fun r => (s.sock r).pollable) ∧
      0 ≤ s.table.g.pollSockCount ∧
      ∀ r ∈ s.table.sockinsts, (s.sock r).pollable = true → 0 < s.table.g.pollSockCount := by
  have hview : ((polledSockets 0).run oneListenerDies).map (fun s =>
      s.table.sockinsts.map fun r => (s.sock r).pollable) = some [true, false] := by
    decide +kernel
  obtain ⟨s, hs, hflags⟩ := Option.map_eq_some_iff.mp hview
  exact ⟨s, hs, hflags, pollable_counted 0 oneListenerDies s (by decide +kernel) hs⟩

/-- A user socket on INS 5 accepts, with a sibling on INS 6, and INS 5 dies. -/
def handedOver : List PollEvent :=
  listenTwice.map .driver ++
    [.driver (.request 0 true true (userAccept (mwSocketCreate 5 1))),
     .driver (.send 1 (.granted 0) false), .driver (.insReleased insZero),
     .driver (.reapRequest [5] 1), .driver (.reapSocket [5] 0)]

/-- The socket goes on as its sibling and is pollable, and the count is 0. -/
theorem handedOver_uncounted :
    ∃ s, (polledSockets 0).run handedOver = some s ∧ s.table.g.pollSockCount = 0 ∧
      s.table.sockinsts.countP (fun r => (s.sock r).pollable) = 1 := by
  have hview : ((polledSockets 0).run handedOver).map (fun s =>
      (s.table.g.pollSockCount, s.table.sockinsts.countP fun r => (s.sock r).pollable)) =
      some (0, 1) := by
    decide +kernel
  obtain ⟨s, hs, hcount⟩ := Option.map_eq_some_iff.mp hview
  exact ⟨s, hs, congrArg Prod.fst hcount, congrArg Prod.snd hcount⟩

/-- A pollable instance that is given back unfinished stays counted. -/
example : ((polledSockets 0).run [.createFails true]).map (fun s =>
    (s.table.g.pollSockCount, s.table.sockinsts)) = some (1, []) := by
  decide +kernel

end MagicWand.Kernel
