import MagicWand.Kernel.Instances

/-!
# What the functions of the driver leave alone

Every function on the instances and active requests changes a few fields of a
few records. The lemmas here say once what becomes of the rest: of the lists of
instances (`Shrinks`), of the instances the active requests refer to (`holds`),
and of any view of an instance that has nothing to do with the bookkeeping of
requests (`Bystander`).
-/

namespace MagicWand.Kernel

open Foundation

/-! ## The lists of instances -/

namespace Table

/-- Instances leave all the lists, and none enters. -/
def Shrinks (t t' : Table) : Prop :=
  t'.nextSock = t.nextSock ∧
  ∃ keep : Nat → Bool, t'.sockinsts = t.sockinsts.filter keep ∧
    ∀ p, t'.siblings p = (t.siblings p).filter keep

theorem Shrinks.of_eq {t t' : Table} (hsock : t'.sockinsts = t.sockinsts)
    (hsib : t'.siblings = t.siblings) (hnext : t'.nextSock = t.nextSock) :
    Shrinks t t' :=
  ⟨hnext, fun _ => true, by simp [hsock], fun p => by simp [hsib]⟩

theorem Shrinks.refl (t : Table) : Shrinks t t := .of_eq rfl rfl rfl

theorem Shrinks.trans {t t' t'' : Table} (h : Shrinks t t') (h' : Shrinks t' t'') :
    Shrinks t t'' := by
  obtain ⟨hnext, keep, hsock, hsib⟩ := h
  obtain ⟨hnext', keep', hsock', hsib'⟩ := h'
  refine ⟨hnext'.trans hnext, fun x => keep' x && keep x, ?_, fun p => ?_⟩
  · rw [hsock', hsock, List.filter_filter]
  · rw [hsib', hsib, List.filter_filter]

theorem Shrinks.sockinsts {t t' : Table} (h : Shrinks t t') : t'.sockinsts.Sublist t.sockinsts := by
  obtain ⟨-, keep, hsock, -⟩ := h
  rw [hsock]
  exact List.filter_sublist

theorem Shrinks.siblings {t t' : Table} (h : Shrinks t t') (p : Nat) :
    (t'.siblings p).Sublist (t.siblings p) := by
  obtain ⟨-, keep, -, hsib⟩ := h
  rw [hsib]
  exact List.filter_sublist

theorem shrinks_settle (t : Table) (r : Nat) (g : Globals) : Shrinks t (t.settle r g) := by
  rw [settle]
  split
  · exact ⟨rfl, _, rfl, fun _ => rfl⟩
  · exact .of_eq rfl rfl rfl

theorem shrinks_consume (t : Table) (resp : MtResponse) :
    Shrinks t (t.mwsocketConsumeResponse resp) := by
  rw [mwsocketConsumeResponse]
  split
  · exact .refl t
  · exact shrinks_settle t _ _

theorem shrinks_setPollable (t : Table) (r : Nat) : Shrinks t (t.setPollable r) := by
  rw [setPollable]
  split
  · exact .refl t
  · exact .of_eq rfl rfl rfl

theorem shrinks_reapRequest (t : Table) (a : ActReq) : Shrinks t (t.reapRequest a) := by
  rw [reapRequest]
  split_ifs
  · exact shrinks_settle t _ _
  · exact .of_eq rfl rfl rfl
  · exact .refl t
  · exact shrinks_settle t _ _

theorem shrinks_takeOver (t : Table) (r q ref : Nat) : Shrinks t (t.takeOver r q ref) := by
  rw [takeOver]
  split
  · exact .refl t
  · split_ifs
    · exact shrinks_settle t _ _
    · let u : Table := { t with g := t.g.modifyReq ref fun x => { x with sockinst := r } }
      have hu : Shrinks t u := .of_eq rfl rfl rfl
      have hput : Shrinks u (u.mwsocketPutSockinst q) := shrinks_settle u q _
      exact (hu.trans hput).trans (.of_eq rfl rfl rfl)
    · exact .refl t

theorem shrinks_takeOvers (t : Table) (r q : Nat) (refs : List Nat) :
    Shrinks t (t.takeOvers r q refs) := by
  induction refs generalizing t with
  | nil => exact .refl t
  | cons ref rest ih => exact (shrinks_takeOver t r q ref).trans (ih _)

theorem shrinks_failover (t : Table) (r q : Nat) : Shrinks t (t.failover r q) := by
  let u := t.takeOvers r q (t.g.activeRequests.map ActReq.ref)
  let v := u.modifySock r fun s => adopt s (u.sock q)
  let w := (v.mwsocketPutSockinst q).modifySock r fun s => { s with insAlive := true }
  have hu : Shrinks t u := shrinks_takeOvers t r q _
  have hv : Shrinks u v := .of_eq rfl rfl rfl
  have hput : Shrinks v (v.mwsocketPutSockinst q) := shrinks_settle v q _
  have hw : Shrinks (v.mwsocketPutSockinst q) w := .of_eq rfl rfl rfl
  exact (((hu.trans hv).trans hput).trans hw).trans (shrinks_setPollable w r)

theorem shrinks_markDead (t : Table) (r : Nat) : Shrinks t (t.markDead r) :=
  .of_eq rfl rfl rfl

theorem shrinks_reapSocket {t t' : Table} {dead : List (BitVec 16)} {r : Nat}
    (h : t.reapSocket dead r = some t') : Shrinks t t' := by
  have hdead := shrinks_markDead t r
  simp only [reapSocket] at h
  split at h
  · split at h
    · cases h
      exact hdead.trans (shrinks_settle _ _ _)
    · split at h
      · cases h
        exact hdead.trans (shrinks_failover _ _ _)
      · obtain ⟨b, -, rfl⟩ := Option.map_eq_some_iff.mp h
        exact hdead.trans (.of_eq rfl rfl rfl)
  · cases h
    exact hdead

end Table

/-! ## Active requests and their instances -/

/-- Address, id and instance of an active request. -/
def ActReq.hold (a : ActReq) : Nat × MtId × Nat := (a.ref, a.id, a.sockinst)

namespace Globals

def holds (g : Globals) : List (Nat × MtId × Nat) := g.activeRequests.map ActReq.hold

theorem mem_holds {g : Globals} {h : Nat × MtId × Nat} :
    h ∈ g.holds ↔ ∃ a ∈ g.activeRequests, a.hold = h := List.mem_map

theorem holds_modifyReq (g : Globals) (ref : Nat) {f : ActReq → ActReq}
    (hf : ∀ a, (f a).hold = a.hold) : (g.modifyReq ref f).holds = g.holds := by
  rw [holds, modifyReq, List.map_map]
  apply List.map_congr_left
  intro a _
  simp only [Function.comp_apply]
  split
  · exact hf a
  · rfl

theorem holds_destroy (g : Globals) (a : ActReq) :
    (g.mwsocketDestroyActiveRequest a).holds = g.holds.filter fun h => h.1 ≠ a.ref := by
  rw [holds, holds, mwsocketDestroyActiveRequest, List.filter_map]
  rfl

theorem holds_clearPollable (g : Globals) (r : Nat) : (g.clearPollable r).holds = g.holds := by
  rw [clearPollable]
  split
  · rfl
  · rfl

theorem holds_postproc (g : Globals) (a : ActReq) (resp : MtResponse) :
    (g.mwsocketPostprocNoContext a resp).1.holds = g.holds := by
  have hqueue (g : Globals) (resp : MtResponse) : (g.queueInbound a resp).holds = g.holds :=
    holds_modifyReq (g.modifySock a.sockinst _) a.ref fun _ => rfl
  have hattrib (g : Globals) (resp : MtResponse) : (g.recordAttrib a resp).holds = g.holds :=
    congrArg (List.map ActReq.hold) (activeRequests_recordAttrib g a resp)
  simp only [mwsocketPostprocNoContext]
  split
  · split
    · exact hqueue _ _
    · rfl
  · refine (hattrib _ _).trans ?_
    split
    · exact hqueue _ _
    · rfl

theorem holds_send (g : Globals) (a : ActReq) (slot : Slot) (acquired : Bool) :
    (g.mwsocketSendRequest a slot acquired).1.holds = g.holds := by
  have hstamp : (g.modifyReq a.ref fun x => { x with request := g.stampRequest a }).holds =
      g.holds := holds_modifyReq g a.ref fun _ => rfl
  simp only [mwsocketSendRequest]
  split
  · exact hstamp
  · split
    · exact (holds_clearPollable _ _).trans hstamp
    · split
      · exact (holds_clearPollable _ _).trans hstamp
      · refine Eq.trans ?_ hstamp
        exact holds_modifyReq (modifySock _ _ _) a.ref fun _ => rfl
      · refine Eq.trans ?_ hstamp
        exact holds_modifyReq (modifySock _ _ _) a.ref fun _ => rfl

end Globals

namespace Table

theorem holds_settle (t : Table) (r : Nat) (g : Globals) : (t.settle r g).g.holds = g.holds := by
  rw [settle]
  split
  · exact Globals.holds_clearPollable g r
  · rfl

theorem holds_destroy (t : Table) (a : ActReq) :
    (t.mwsocketDestroyActiveRequest a).g.holds = t.g.holds.filter fun h => h.1 ≠ a.ref :=
  (holds_settle t _ _).trans (Globals.holds_destroy t.g a)

theorem holds_put (t : Table) (r : Nat) : (t.mwsocketPutSockinst r).g.holds = t.g.holds :=
  holds_settle t r _

theorem holds_moveRequest (t : Table) (r q ref : Nat) :
    (t.moveRequest r q ref).g.holds =
      t.g.holds.map fun h => if h.1 = ref then (h.1, h.2.1, r) else h := by
  refine (holds_put _ q).trans ?_
  simp only [Globals.holds, Globals.modifyReq, List.map_map]
  apply List.map_congr_left
  intro a _
  simp only [Function.comp_apply]
  by_cases href : a.ref = ref
  · simp [ActReq.hold, href]
  · simp [ActReq.hold, href]

theorem holds_failRequest (t : Table) (a : ActReq) : (t.failRequest a).g.holds = t.g.holds := by
  refine Eq.trans ?_ (Globals.holds_postproc t.g a (deadResponse a.request))
  exact Globals.holds_modifyReq _ a.ref fun _ => rfl

theorem holds_markDead (t : Table) (r : Nat) : (t.markDead r).g.holds = t.g.holds :=
  Globals.holds_clearPollable _ r

theorem holds_setPollable (t : Table) (r : Nat) : (t.setPollable r).g.holds = t.g.holds := by
  rw [setPollable]
  split
  · rfl
  · rfl

/-- The entries with other keys, when keys are distinct. -/
theorem perm_cons_others {α κ : Type} [DecidableEq α] [DecidableEq κ] {f : α → κ} {l : List α}
    (hl : (l.map f).Nodup) {a : α} (ha : a ∈ l) : l.Perm (a :: l.filter fun x => f x ≠ f a) := by
  have herase : l.erase a = l.filter fun x => f x ≠ f a := by
    rw [(List.Nodup.of_map _ hl).erase_eq_filter]
    apply List.filter_congr
    intro x hx
    have hiff : x = a ↔ f x = f a :=
      ⟨fun heq => heq ▸ rfl, fun heq => List.inj_on_of_nodup_map hl hx ha heq⟩
    simp [bne, beq_eq_decide, hiff]
  exact herase ▸ List.perm_cons_erase ha

/-- Addresses of active requests are distinct. -/
def Separate (t : Table) : Prop := (t.g.holds.map Prod.fst).Nodup

theorem Separate.hold_eq {t : Table} (hsep : t.Separate) {ref : Nat} {a : ActReq}
    (ha : t.g.reqAt ref = some a) {h : Nat × MtId × Nat} (hh : h ∈ t.g.holds) (href : h.1 = ref) :
    h = a.hold := by
  obtain ⟨hmem, hrefa⟩ := Globals.reqAt_mem ha
  refine List.inj_on_of_nodup_map hsep hh (Globals.mem_holds.mpr ⟨a, hmem, rfl⟩) ?_
  rw [href]
  exact hrefa.symm

theorem reqAt_none_holds {t : Table} {ref : Nat} (h : t.g.reqAt ref = none) :
    ∀ x ∈ t.g.holds, x.1 ≠ ref := by
  intro x hx
  obtain ⟨a, ha, rfl⟩ := Globals.mem_holds.mp hx
  exact Globals.reqAt_none h a ha

end Table

/-! ## Addresses and ids -/

namespace Table

/-- Active requests go, and none enters. -/
structure Thins (t t' : Table) : Prop where
  keys : t'.g.keys.Sublist t.g.keys
  nextRef : t'.g.nextRef = t.g.nextRef

theorem Thins.of_eq {t t' : Table} (hkeys : t'.g.keys = t.g.keys)
    (hnext : t'.g.nextRef = t.g.nextRef) : Thins t t' :=
  ⟨hkeys ▸ List.Sublist.refl _, hnext⟩

theorem Thins.refl (t : Table) : Thins t t := .of_eq rfl rfl

theorem Thins.trans {t t' t'' : Table} (h : Thins t t') (h' : Thins t' t'') : Thins t t'' :=
  ⟨h'.keys.trans h.keys, h'.nextRef.trans h.nextRef⟩

theorem thins_settle {t : Table} {g : Globals} (r : Nat) (hkeys : g.keys.Sublist t.g.keys)
    (hnext : g.nextRef = t.g.nextRef) : Thins t (t.settle r g) := by
  rw [settle]
  split
  · constructor
    · exact (Globals.keys_clearPollable g r).symm ▸ hkeys
    · exact (Driver.nextRef_clearPollable g r).trans hnext
  · exact ⟨hkeys, hnext⟩

theorem thins_put (t : Table) (r : Nat) : Thins t (t.mwsocketPutSockinst r) :=
  thins_settle r (List.Sublist.refl _) rfl

theorem thins_destroy (t : Table) (a : ActReq) : Thins t (t.mwsocketDestroyActiveRequest a) := by
  refine thins_settle _ ?_ rfl
  rw [Globals.keys_destroy]
  exact List.filter_sublist

theorem thins_consume (t : Table) (resp : MtResponse) :
    Thins t (t.mwsocketConsumeResponse resp) := by
  rw [mwsocketConsumeResponse]
  split
  · exact .refl t
  · exact thins_settle _ (Globals.keys_consume t.g resp) (Driver.nextRef_consume t.g resp)

theorem thins_failRequest (t : Table) (a : ActReq) : Thins t (t.failRequest a) := by
  refine .of_eq ?_ ?_
  · refine Eq.trans ?_ (Globals.postproc_spec t.g a (deadResponse a.request)).1
    exact Globals.keys_modifyReq _ a.ref fun _ => ⟨rfl, rfl⟩
  · exact Driver.nextRef_postproc t.g a (deadResponse a.request)

theorem thins_reapRequest (t : Table) (a : ActReq) : Thins t (t.reapRequest a) := by
  rw [reapRequest]
  split_ifs
  · exact thins_destroy t a
  · exact thins_failRequest t a
  · exact .refl t
  · exact thins_destroy t a

theorem thins_setPollable (t : Table) (r : Nat) : Thins t (t.setPollable r) := by
  rw [setPollable]
  split
  · exact .refl t
  · exact .of_eq rfl rfl

theorem thins_moveRequest (t : Table) (r q ref : Nat) : Thins t (t.moveRequest r q ref) := by
  let u : Table := { t with g := t.g.modifyReq ref fun x => { x with sockinst := r } }
  have hu : Thins t u := .of_eq (Globals.keys_modifyReq t.g ref fun _ => ⟨rfl, rfl⟩) rfl
  exact (hu.trans (thins_put u q)).trans (.of_eq rfl rfl)

theorem thins_takeOver (t : Table) (r q ref : Nat) : Thins t (t.takeOver r q ref) := by
  rw [takeOver]
  split
  · exact .refl t
  · split_ifs
    · exact thins_destroy t _
    · exact thins_moveRequest t r q ref
    · exact .refl t

theorem thins_takeOvers (t : Table) (r q : Nat) (refs : List Nat) :
    Thins t (t.takeOvers r q refs) := by
  induction refs generalizing t with
  | nil => exact .refl t
  | cons ref rest ih => exact (thins_takeOver t r q ref).trans (ih _)

theorem thins_failover (t : Table) (r q : Nat) : Thins t (t.failover r q) := by
  let u := t.takeOvers r q (t.g.activeRequests.map ActReq.ref)
  let v := u.modifySock r fun s => adopt s (u.sock q)
  let w := (v.mwsocketPutSockinst q).modifySock r fun s => { s with insAlive := true }
  have hu : Thins t u := thins_takeOvers t r q _
  have hv : Thins u v := .of_eq rfl rfl
  have hw : Thins (v.mwsocketPutSockinst q) w := .of_eq rfl rfl
  exact (((hu.trans hv).trans (thins_put v q)).trans hw).trans (thins_setPollable w r)

theorem thins_markDead (t : Table) (r : Nat) : Thins t (t.markDead r) :=
  .of_eq (Globals.keys_clearPollable _ r) (Driver.nextRef_clearPollable _ r)

theorem thins_reapSocket {t t' : Table} {dead : List (BitVec 16)} {r : Nat}
    (h : t.reapSocket dead r = some t') : Thins t t' := by
  have hdead := thins_markDead t r
  simp only [reapSocket] at h
  split at h
  · split at h
    · cases h
      exact hdead.trans (thins_put _ r)
    · split at h
      · cases h
        exact hdead.trans (thins_failover _ r _)
      · obtain ⟨b, -, rfl⟩ := Option.map_eq_some_iff.mp h
        exact hdead.trans (thins_failRequest _ b)
  · cases h
    exact hdead

theorem create_lists (t : Table) (pollable : Bool) :
    (t.mwsocketCreateSockinst pollable).g.holds = t.g.holds ∧
      (t.mwsocketCreateSockinst pollable).sockinsts = t.nextSock :: t.sockinsts := by
  simp only [mwsocketCreateSockinst, setPollable]
  split_ifs
  all_goals exact ⟨rfl, rfl⟩

theorem create_spec (t : Table) (pollable : Bool) :
    (t.mwsocketCreateSockinst pollable).nextSock = t.nextSock + 1 ∧
      (t.mwsocketCreateSockinst pollable).siblings = t.siblings ∧
      Thins t (t.mwsocketCreateSockinst pollable) := by
  simp only [mwsocketCreateSockinst, setPollable]
  split_ifs
  all_goals exact ⟨rfl, rfl, .of_eq rfl rfl⟩

/-- Addresses are handed out in order, each of them once. -/
structure Numbered (t : Table) : Prop where
  refs : (t.g.keys.map Prod.fst).Nodup
  below : ∀ k ∈ t.g.keys, k.1 < t.g.nextRef

theorem Numbered.thins {t t' : Table} (h : Numbered t) (hthin : Thins t t') : Numbered t' where
  refs := h.refs.sublist (hthin.keys.map _)
  below k hk := by
    rw [hthin.nextRef]
    exact h.below k (hthin.keys.subset hk)

theorem Numbered.request {t : Table} (h : Numbered t) {g : Globals} {id : MtId}
    (hnext : g.nextRef = t.g.nextRef + 1) (hkeys : g.keys = (t.g.nextRef, id) :: t.g.keys) :
    Numbered { t with g := g } := by
  constructor
  · rw [hkeys, List.map_cons, List.nodup_cons]
    refine ⟨fun hmem => ?_, h.refs⟩
    obtain ⟨k, hk, heq⟩ := List.mem_map.mp hmem
    have := h.below k hk
    omega
  · intro k hk
    rw [hkeys] at hk
    rw [hnext]
    rcases List.mem_cons.mp hk with rfl | hk
    · exact Nat.lt_succ_self _
    · have := h.below k hk
      omega

theorem Numbered.separate {t : Table} (h : Numbered t) : t.Separate := by
  have heq : t.g.holds.map Prod.fst = t.g.keys.map Prod.fst := by
    simp [Globals.holds, Globals.keys, ActReq.hold]
  rw [Separate, heq]
  exact h.refs

end Table

/-! ## Views of an instance -/

section Views

variable {α : Type} {F : SockInst → α}

/-- Of the flags, the view shows who has the socket at most. -/
def SeesStanding (F : SockInst → α) : Prop :=
  ∀ s m, m &&& MwFlags.standing = s.mwflags &&& MwFlags.standing → F { s with mwflags := m } = F s

/-- A view of an instance that a response leaves alone, but for the close lock
and the counters of a success. -/
structure Aside (F : SockInst → α) : Prop where
  flags : SeesStanding F
  tally : ∀ s resp, F (SockInst.tallySend s resp).1 = F s
  closed : ∀ s resp, F (SockInst.noteRemoteClosed s resp) = F s
  inbound : ∀ s l n, F { s with inboundList := l, inboundSem := n } = F s
  attrib : ∀ s v, F { s with deferAccept := v } = F s

namespace Globals

/-- What `F` shows of instance `x`. -/
def view (g : Globals) (F : SockInst → α) (x : Nat) : α := F (g.socks x)

theorem view_update {g g' : Globals} {r : Nat} {k : SockInst}
    (h : g'.socks = Function.update g.socks r k) (x : Nat) :
    g'.view F x = if x = r then F k else g.view F x := by
  rw [view, h, Function.update_apply]
  split
  · rfl
  · rfl

/-- An update that the view does not show. -/
theorem view_update_of_eq {g g' : Globals} {r : Nat} {k : SockInst}
    (h : g'.socks = Function.update g.socks r k) (hk : F k = g.view F r) (x : Nat) :
    g'.view F x = g.view F x := by
  rw [view_update h]
  split
  · rename_i hx
    rw [hk, hx]
  · rfl

theorem view_modifySock (g : Globals) (r : Nat) (f : SockInst → SockInst) (x : Nat) :
    (g.modifySock r f).view F x = if x = r then F (f (g.socks r)) else g.view F x :=
  view_update rfl x

theorem view_modifySock_of_eq (g : Globals) (r : Nat) {f : SockInst → SockInst}
    (hf : ∀ s, F (f s) = F s) (x : Nat) : (g.modifySock r f).view F x = g.view F x :=
  view_update_of_eq rfl (hf _) x

theorem view_clearPollable (hflags : SeesStanding F) (g : Globals) (r x : Nat) :
    (g.clearPollable r).view F x = g.view F x := by
  rw [clearPollable]
  split
  · exact view_modifySock_of_eq g r (fun s => hflags s _ (MwFlags.standing_clear _ (by decide))) x
  · rfl

theorem view_preProcess (g : Globals) (a : ActReq) (acquired : Bool) (x : Nat) :
    (g.mwsocketPreProcessRequest a acquired).view F x =
      if x = a.sockinst then F ((g.socks a.sockinst).preProcess a.id a.request acquired)
      else g.view F x :=
  view_modifySock g a.sockinst (fun s => s.preProcess a.id a.request acquired) x

/-- Does a send get as far as `mwsocket_pre_process_request`? -/
def prepares (g : Globals) (a : ActReq) (slot : Slot) : Prop :=
  (g.stampRequest a).isRequest = true ∧ (g.socks a.sockinst).insAlive = true ∧ slot ≠ .refused

theorem view_send_prepared {g : Globals} {a : ActReq} {slot : Slot} (acquired : Bool)
    (h : g.prepares a slot) (x : Nat) :
    (g.mwsocketSendRequest a slot acquired).1.view F x =
      if x = a.sockinst
      then F ((g.socks a.sockinst).preProcess a.id (g.stampRequest a) acquired)
      else g.view F x := by
  obtain ⟨hreq, halive, hslot⟩ := h
  simp only [mwsocketSendRequest, hreq, halive, modifyReq_socks, Bool.not_true,
    Bool.false_eq_true, if_false]
  rcases slot with _ | _ | notified
  · exact absurd rfl hslot
  · exact view_preProcess _ { a with request := g.stampRequest a } acquired x
  · exact view_preProcess _ { a with request := g.stampRequest a } acquired x

/-- A send that gets no slot shows at most that the INS is dead. -/
theorem view_send_refused {g : Globals} {a : ActReq} {slot : Slot} (acquired : Bool)
    (h : ¬ g.prepares a slot) (hflags : SeesStanding F)
    (halive : ∀ s b, F { s with insAlive := b } = F s) (x : Nat) :
    (g.mwsocketSendRequest a slot acquired).1.view F x = g.view F x := by
  simp only [mwsocketSendRequest]
  split
  · rfl
  · rename_i hreq
    split
    · exact view_clearPollable hflags _ _ x
    · rename_i hdead
      split
      · refine (view_clearPollable hflags _ _ x).trans ?_
        exact view_modifySock_of_eq _ _ (fun s => halive s _) x
      · exact absurd ⟨by simpa using hreq, by simpa using hdead, by simp⟩ h
      · exact absurd ⟨by simpa using hreq, by simpa using hdead, by simp⟩ h

variable (hF : Aside F)
include hF

theorem view_queueInbound (g : Globals) (a : ActReq) (resp : MtResponse) (x : Nat) :
    (g.queueInbound a resp).view F x = g.view F x := by
  rw [queueInbound]
  refine (view_modifySock_of_eq _ _ (fun s => hF.inbound s _ _) x).trans ?_
  exact view_modifySock_of_eq g a.sockinst (fun s => hF.flags s _ (MwFlags.standing_clear _ (by decide))) x

theorem view_recordAttrib (g : Globals) (a : ActReq) (resp : MtResponse) (x : Nat) :
    (g.recordAttrib a resp).view F x = g.view F x := by
  rw [recordAttrib]
  split
  · exact view_modifySock_of_eq g _ (fun s => hF.attrib s _) x
  · rfl

/-- Of a response the view shows the close lock at most. -/
theorem view_postproc (g : Globals) (a : ActReq) (resp : MtResponse)
    (hsuccess : resp.status < 0 ∨ ∀ s resp, F (SockInst.recordSuccess s resp) = F s) (x : Nat) :
    (g.mwsocketPostprocNoContext a resp).1.view F x =
      if x = a.sockinst then F ((g.socks a.sockinst).releaseClose a.id resp) else g.view F x := by
  have habsorb : (g.modifySock a.sockinst fun s => (s.absorb a.id resp).1).view F x =
      if x = a.sockinst then F ((g.socks a.sockinst).releaseClose a.id resp) else g.view F x := by
    rw [view_modifySock, SockInst.absorb, hF.closed, hF.tally]
  simp only [mwsocketPostprocNoContext]
  rw [← habsorb]
  split
  · split
    · exact view_queueInbound hF _ a _ x
    · rfl
  · rename_i hstatus
    have hrecord := hsuccess.resolve_left hstatus
    refine (view_recordAttrib hF _ a _ x).trans ?_
    refine (view_modifySock_of_eq _ a.sockinst (fun s => hrecord s _) x).trans ?_
    split
    · exact view_queueInbound hF _ a _ x
    · rfl

end Globals

namespace Table

theorem view_modifySock (t : Table) (r : Nat) (f : SockInst → SockInst) (x : Nat) :
    (t.modifySock r f).g.view F x = if x = r then F (f (t.sock r)) else t.g.view F x :=
  Globals.view_modifySock t.g r f x

variable (hflags : SeesStanding F)
include hflags

/-- Freeing an instance does not change what the view shows. -/
theorem view_settle (t : Table) (r : Nat) (g : Globals) (x : Nat) :
    (t.settle r g).g.view F x = g.view F x := by
  rw [settle]
  split
  · exact Globals.view_clearPollable hflags g r x
  · rfl

theorem view_setPollable (t : Table) (r x : Nat) :
    (t.setPollable r).g.view F x = t.g.view F x := by
  rw [setPollable]
  split
  · rfl
  · refine Globals.view_update_of_eq rfl ?_ x
    exact hflags _ _ (MwFlags.standing_or _ (by decide))
end Table

/-- A view of an instance that shows nothing of the requests made on it. -/
structure Bystander (F : SockInst → α) : Prop extends Aside F where
  released : ∀ s id resp, F (SockInst.releaseClose s id resp) = F s
  destroyed : ∀ s id n, F { s with closeBlockid := id, refct := n } = F s

theorem Bystander.comp {β : Type} (hF : Bystander F) (f : α → β) :
    Bystander fun s => f (F s) where
  flags s m hm := congrArg f (hF.flags s m hm)
  tally s resp := congrArg f (hF.tally s resp)
  closed s resp := congrArg f (hF.closed s resp)
  inbound s l n := congrArg f (hF.inbound s l n)
  attrib s v := congrArg f (hF.attrib s v)
  released s id resp := congrArg f (hF.released s id resp)
  destroyed s id n := congrArg f (hF.destroyed s id n)

namespace Table

variable (hF : Bystander F)
include hF

theorem view_put (t : Table) (r x : Nat) :
    (t.mwsocketPutSockinst r).g.view F x = t.g.view F x := by
  refine (view_settle hF.flags t r _ x).trans ?_
  exact Globals.view_modifySock_of_eq t.g r (fun s => hF.destroyed s s.closeBlockid _) x

theorem view_destroy (t : Table) (a : ActReq) (x : Nat) :
    (t.mwsocketDestroyActiveRequest a).g.view F x = t.g.view F x := by
  refine (view_settle hF.flags t _ _ x).trans ?_
  exact Globals.view_update_of_eq rfl (hF.destroyed _ _ _) x

theorem view_postproc (g : Globals) (a : ActReq) (resp : MtResponse)
    (hsuccess : resp.status < 0 ∨ ∀ s resp, F (SockInst.recordSuccess s resp) = F s) (x : Nat) :
    (g.mwsocketPostprocNoContext a resp).1.view F x = g.view F x := by
  rw [Globals.view_postproc hF.toAside g a resp hsuccess, hF.released]
  split
  · rename_i hx
    rw [hx, Globals.view]
  · rfl

theorem view_failRequest (t : Table) (a : ActReq) (x : Nat) :
    (t.failRequest a).g.view F x = t.g.view F x := by
  have hstatus : (deadResponse a.request).status < 0 := by
    simp [deadResponse, enoent]
  exact view_postproc hF t.g a _ (.inl hstatus) x

theorem view_reapRequest (t : Table) (a : ActReq) (x : Nat) :
    (t.reapRequest a).g.view F x = t.g.view F x := by
  rw [reapRequest]
  split_ifs
  · exact view_destroy hF t a x
  · exact view_failRequest hF t a x
  · rfl
  · exact view_destroy hF t a x

theorem view_takeOver (t : Table) (r q ref x : Nat) :
    (t.takeOver r q ref).g.view F x = t.g.view F x := by
  rw [takeOver]
  split
  · rfl
  · split_ifs
    · exact view_destroy hF t _ x
    · refine (Globals.view_update_of_eq rfl ?_ x).trans
        (view_put hF { t with g := t.g.modifyReq ref fun x => { x with sockinst := r } } q x)
      exact hF.destroyed _ _ _
    · rfl

theorem view_takeOvers (t : Table) (r q : Nat) (refs : List Nat) (x : Nat) :
    (t.takeOvers r q refs).g.view F x = t.g.view F x := by
  induction refs generalizing t with
  | nil => rfl
  | cons ref rest ih => exact (ih _).trans (view_takeOver hF t r q ref x)

/-- A failover shows only on the socket that goes on. -/
theorem view_failover_ne (t : Table) {r q x : Nat} (hx : x ≠ r) :
    (t.failover r q).g.view F x = t.g.view F x := by
  let u := t.takeOvers r q (t.g.activeRequests.map ActReq.ref)
  let v := u.modifySock r fun s => adopt s (u.sock q)
  let w := (v.mwsocketPutSockinst q).modifySock r fun s => { s with insAlive := true }
  calc (t.failover r q).g.view F x
      = w.g.view F x := view_setPollable hF.flags w r x
    _ = (v.mwsocketPutSockinst q).g.view F x := (view_modifySock ..).trans (if_neg hx)
    _ = v.g.view F x := view_put hF v q x
    _ = u.g.view F x := (view_modifySock ..).trans (if_neg hx)
    _ = t.g.view F x := view_takeOvers hF t r q _ x

/-- On that socket it shows what its sibling had, and an INS that is alive. -/
theorem view_failover_self (t : Table) (r q : Nat)
    (halive : ∀ s, F { s with insAlive := true } = F s) :
    (t.failover r q).g.view F r =
      F (adopt ((t.takeOvers r q (t.g.activeRequests.map ActReq.ref)).sock r)
        ((t.takeOvers r q (t.g.activeRequests.map ActReq.ref)).sock q)) := by
  let u := t.takeOvers r q (t.g.activeRequests.map ActReq.ref)
  let v := u.modifySock r fun s => adopt s (u.sock q)
  let w := (v.mwsocketPutSockinst q).modifySock r fun s => { s with insAlive := true }
  calc (t.failover r q).g.view F r
      = w.g.view F r := view_setPollable hF.flags w r r
    _ = (v.mwsocketPutSockinst q).g.view F r :=
        Globals.view_modifySock_of_eq _ r halive r
    _ = v.g.view F r := view_put hF v q r
    _ = F (adopt (u.sock r) (u.sock q)) := (view_modifySock ..).trans (if_pos rfl)

end Table

end Views

/-- Sending a request is no new reference. -/
theorem SockInst.refct_preProcess (s : SockInst) (id : MtId) (req : MtRequest) (acquired : Bool) :
    (s.preProcess id req acquired).refct = s.refct := by
  have hkind (s : SockInst) : (s.prepare req).refct = s.refct := by
    rw [SockInst.prepare]
    split
    all_goals first | rfl | (split <;> rfl)
  have hclose (s : SockInst) : (s.acquireClose id req.type acquired).refct = s.refct := by
    rw [SockInst.acquireClose]
    split_ifs <;> rfl
  rw [SockInst.preProcess, hkind, hclose]
  split
  · rfl
  · rfl

/-! ## The response consumer -/

namespace Table

theorem aside_refct : Aside SockInst.refct where
  flags _ _ _ := rfl
  tally s resp := by
    simp only [SockInst.tallySend]
    split_ifs <;> rfl
  closed s resp := by
    rw [SockInst.noteRemoteClosed]
    split_ifs <;> rfl
  inbound _ _ _ := rfl
  attrib _ _ := rfl

theorem refct_postproc (g : Globals) (a : ActReq) (resp : MtResponse) (x : Nat) :
    (g.mwsocketPostprocNoContext a resp).1.view SockInst.refct x = g.view SockInst.refct x := by
  have hrecord (s : SockInst) (resp : MtResponse) : (s.recordSuccess resp).refct = s.refct := by
    rw [SockInst.recordSuccess]
    split <;> rfl
  have hrelease (s : SockInst) (id : MtId) : (s.releaseClose id resp).refct = s.refct := by
    rw [SockInst.releaseClose]
    split
    · split_ifs <;> rfl
    · rfl
  rw [Globals.view_postproc aside_refct g a resp (.inr hrecord), hrelease]
  split
  · rename_i hx
    rw [hx, Globals.view]
  · rfl

variable {t : Table}

/-- Whether an instance is freed depends on its count only. -/
theorem settle_of_refct (r : Nat) {g g' : Globals} (h : (g.socks r).refct = (t.sock r).refct) :
    t.settle r g' = { t with g := g }.settle r g' := by
  have hsock : (({ t with g := g } : Table).sock r).refct = (t.sock r).refct := h
  rw [settle, settle, hsock]

theorem settle_unchanged (r : Nat) {g : Globals} (h : (g.socks r).refct = (t.sock r).refct) :
    t.settle r g = { t with g := g } := by
  rw [settle, if_neg]
  rintro ⟨hne, hzero⟩
  exact hne (h.symm.trans hzero)

/-- What the consumer does with a response: it finds no request, it hands the
response over, or it destroys the request. -/
inductive Consumed (t : Table) (resp : MtResponse) : Table → Prop where
  | dropped (hnone : t.g.mwsocketFindActiveRequestById resp.id = none) : Consumed t resp t
  | delivered {a : ActReq} {g : Globals}
      (ha : t.g.mwsocketFindActiveRequestById resp.id = some a)
      (hsocks : g.socks = (t.g.mwsocketPostprocNoContext a resp).1.socks)
      (hholds : g.holds = (t.g.mwsocketPostprocNoContext a resp).1.holds) :
      Consumed t resp { t with g := g }
  | destroyed {a b : ActReq} (ha : t.g.mwsocketFindActiveRequestById resp.id = some a)
      (hb : b ∈ (t.g.mwsocketPostprocNoContext a resp).1.activeRequests)
      (hsame : b.hold = a.hold) :
      Consumed t resp
        ({ t with g := (t.g.mwsocketPostprocNoContext a resp).1 }.mwsocketDestroyActiveRequest b)

theorem consume_inv (hsep : t.Separate) (resp : MtResponse) :
    Consumed t resp (t.mwsocketConsumeResponse resp) := by
  rw [mwsocketConsumeResponse]
  split
  · rename_i hnone
    exact .dropped hnone
  · rename_i a ha
    let g := (t.g.mwsocketPostprocNoContext a resp).1
    have hcount (x : Nat) : (g.socks x).refct = (t.sock x).refct := refct_postproc t.g a resp x
    rw [Globals.mwsocketConsumeResponse, ha]
    simp only
    split
    · rw [settle_unchanged a.sockinst (hcount _)]
      exact .delivered ha rfl rfl
    · rename_i b hb
      rw [Globals.deliverOrDestroy]
      split
      · have hsame : b.hold = a.hold := by
          have hsep' : ({ t with g := g } : Table).Separate := by
            rw [Separate, Globals.holds_postproc]
            exact hsep
          have hmem : a.hold ∈ g.holds := by
            rw [Globals.holds_postproc]
            exact Globals.mem_holds.mpr ⟨a, List.mem_of_find?_eq_some ha, rfl⟩
          exact (hsep'.hold_eq hb hmem rfl).symm
        have hsock : b.sockinst = a.sockinst := congrArg (fun h => h.2.2) hsame
        rw [settle_of_refct a.sockinst (hcount _), ← hsock]
        exact .destroyed ha (Globals.reqAt_mem hb).1 hsame
      · rw [settle_unchanged a.sockinst (g := g.modifyReq _ _) (hcount _)]
        exact .delivered ha rfl (Globals.holds_modifyReq _ _ fun _ => rfl)

end Table

end MagicWand.Kernel
