import MagicWand.Kernel.Views

/-!
# Failover of a listening socket

When the INS of a listening user socket dies, the reaper puts a sibling on a
live INS in its place: the requests of the user socket are destroyed, those of
the sibling move to the user socket, which takes over the remote descriptor. The
user socket keeps its `blockid`, the id by which a read finds the accept request
it waits for, and that request is among those destroyed.
-/

namespace MagicWand.Kernel

namespace Table

/-! ## What a failover does to the active requests -/

/-- The fate of one active request. -/
def taken (r q : Nat) (h : Nat × MtId × Nat) : Option (Nat × MtId × Nat) :=
  if h.2.2 = r then none else if h.2.2 = q then some (h.1, h.2.1, r) else some h

theorem holds_takeOver {t : Table} (hsep : t.Separate) (r q ref : Nat) :
    (t.takeOver r q ref).g.holds =
      t.g.holds.filterMap fun h => if h.1 = ref then taken r q h else some h := by
  rw [takeOver]
  split
  · rename_i hnone
    refine (List.filterMap_some.symm.trans (List.filterMap_congr ?_))
    intro h hh
    rw [if_neg (reqAt_none_holds hnone h hh)]
  · rename_i a ha
    have hfate (h) (hh : h ∈ t.g.holds) (href : h.1 = ref) : h.2.2 = a.sockinst := by
      rw [hsep.hold_eq ha hh href]
      rfl
    split_ifs with hr hq
    · rw [holds_destroy, (Globals.reqAt_mem ha).2, ← List.filterMap_eq_filter]
      apply List.filterMap_congr
      intro h hh
      by_cases href : h.1 = ref
      · simp [Option.guard, taken, href, hfate h hh href, hr]
      · simp [Option.guard, href]
    · rw [holds_moveRequest, ← List.filterMap_eq_map]
      apply List.filterMap_congr
      intro h hh
      by_cases href : h.1 = ref
      · rw [Function.comp_apply, if_pos href, if_pos href, taken, hfate h hh href, if_neg hr, if_pos hq]
      · rw [Function.comp_apply, if_neg href, if_neg href]
    · refine (List.filterMap_some.symm.trans (List.filterMap_congr ?_))
      intro h hh
      split
      · rename_i href
        rw [taken, hfate h hh href, if_neg hr, if_neg hq]
      · rfl

theorem taken_fst {r q : Nat} {h h' : Nat × MtId × Nat} (heq : taken r q h = some h') :
    h'.1 = h.1 ∧ h'.2.1 = h.2.1 := by
  rw [taken] at heq
  split_ifs at heq
  · cases heq
    exact ⟨rfl, rfl⟩
  · cases heq
    exact ⟨rfl, rfl⟩

/-- Requests may go or change their instance; their addresses stay. -/
theorem refs_filterMap {f : Nat × MtId × Nat → Option (Nat × MtId × Nat)}
    (hf : ∀ h h', f h = some h' → h'.1 = h.1) (l : List (Nat × MtId × Nat)) :
    ((l.filterMap f).map Prod.fst).Sublist (l.map Prod.fst) := by
  induction l with
  | nil => exact List.Sublist.refl _
  | cons h rest ih =>
      rw [List.filterMap_cons]
      split
      · exact ih.cons _
      · rename_i h' hh'
        rw [List.map_cons, List.map_cons, hf h h' hh']
        exact ih.cons_cons _

theorem Separate.takeOver {t : Table} (hsep : t.Separate) (r q ref : Nat) :
    (t.takeOver r q ref).Separate := by
  rw [Separate, holds_takeOver hsep]
  refine hsep.sublist (refs_filterMap ?_ _)
  intro h h' heq
  split_ifs at heq
  · exact (taken_fst heq).1
  · cases heq
    rfl

/-- All requests of the list get what is due to them. -/
theorem holds_takeOvers {t : Table} (hsep : t.Separate) (r q : Nat) {refs : List Nat}
    (hrefs : refs.Nodup) :
    (t.takeOvers r q refs).g.holds =
      t.g.holds.filterMap fun h => if h.1 ∈ refs then taken r q h else some h := by
  induction refs generalizing t with
  | nil => simp [takeOvers]
  | cons ref rest ih =>
      obtain ⟨hnew, hrest⟩ := List.nodup_cons.mp hrefs
      have hstep : (t.takeOvers r q (ref :: rest)) = (t.takeOver r q ref).takeOvers r q rest := rfl
      rw [hstep, ih (hsep.takeOver r q ref) hrest, holds_takeOver hsep, List.filterMap_filterMap]
      apply List.filterMap_congr
      intro h _
      by_cases href : h.1 = ref
      · rw [if_pos href, if_pos (href ▸ List.mem_cons_self)]
        rcases heq : taken r q h with _ | h'
        · rfl
        · rw [Option.bind_some, (taken_fst heq).1, href, if_neg hnew]
      · simp [href]

/-! ## Steps that do not concern a socket -/

/-- What a socket shows of a failover: its `blockid`, the state of its INS and
its remote descriptor. -/
def mark (s : SockInst) : MtId × Bool × MwSocketFd := (s.blockid, s.insAlive, s.remoteFd)

/-- From `t` to `t'`, socket `r` keeps its mark or loses its INS, and requests
go, but none leaves `r` for another socket. -/
structure Fades (r : Nat) (t t' : Table) : Prop where
  blockid : (t'.sock r).blockid = (t.sock r).blockid
  alive : (t.sock r).insAlive = false → (t'.sock r).insAlive = false
  remote : (t'.sock r).remoteFd = (t.sock r).remoteFd
  shrinks : Shrinks t t'
  refs : (t'.g.holds.map Prod.fst).Sublist (t.g.holds.map Prod.fst)
  holds : ∀ h' ∈ t'.g.holds, ∃ h ∈ t.g.holds,
    h'.1 = h.1 ∧ h'.2.1 = h.2.1 ∧ (h.2.2 = r → h'.2.2 = r)

namespace Fades

variable {r : Nat} {t t' t'' : Table}

theorem of_mark (hmark : t'.g.view mark r = t.g.view mark r)
    (hshrink : Shrinks t t') (hholds : t'.g.holds.Sublist t.g.holds) :
    Fades r t t' := by
  have hmark' : mark (t'.sock r) = mark (t.sock r) := hmark
  simp only [mark, Prod.mk.injEq] at hmark'
  obtain ⟨hblock, halive, hremote⟩ := hmark'
  exact
    { blockid := hblock
      alive := fun h => by rw [halive, h]
      remote := hremote
      shrinks := hshrink
      refs := hholds.map _
      holds := fun h' hh' => ⟨h', hholds.subset hh', rfl, rfl, id⟩ }

theorem refl (r : Nat) (t : Table) : Fades r t t :=
  of_mark rfl (.refl t) (List.Sublist.refl _)

theorem trans (h : Fades r t t') (h' : Fades r t' t'') : Fades r t t'' where
  blockid := h'.blockid.trans h.blockid
  alive hdead := h'.alive (h.alive hdead)
  remote := h'.remote.trans h.remote
  shrinks := h.shrinks.trans h'.shrinks
  refs := h'.refs.trans h.refs
  holds x hx := by
    obtain ⟨y, hy, href, hid, hsock⟩ := h'.holds x hx
    obtain ⟨z, hz, href', hid', hsock'⟩ := h.holds y hy
    exact ⟨z, hz, href.trans href', hid.trans hid', fun hzr => hsock (hsock' hzr)⟩

theorem separate (h : Fades r t t') (hsep : t.Separate) : t'.Separate :=
  List.Nodup.sublist h.refs hsep

end Fades

theorem bystander_mark : Bystander mark where
  flags _ _ _ := rfl
  tally s resp := by
    simp only [SockInst.tallySend]
    split_ifs <;> rfl
  closed s resp := by
    rw [SockInst.noteRemoteClosed]
    split_ifs <;> rfl
  inbound _ _ _ := rfl
  attrib _ _ := rfl
  released s id resp := by
    rw [SockInst.releaseClose]
    split
    · split_ifs <;> rfl
    · rfl
  destroyed _ _ _ := rfl

theorem bystander_blockid : Bystander SockInst.blockid := bystander_mark.comp Prod.fst

variable {t : Table} {r : Nat}

theorem fades_put (p : Nat) : Fades r t (t.mwsocketPutSockinst p) :=
  .of_mark (view_put bystander_mark t p r) (shrinks_settle t p _) (by rw [holds_put])

theorem fades_destroy (a : ActReq) : Fades r t (t.mwsocketDestroyActiveRequest a) := by
  refine .of_mark (view_destroy bystander_mark t a r) (shrinks_settle t _ _) ?_
  rw [holds_destroy]
  exact List.filter_sublist

theorem fades_failRequest (a : ActReq) : Fades r t (t.failRequest a) :=
  .of_mark (view_failRequest bystander_mark t a r) (.of_eq rfl rfl rfl) (by rw [holds_failRequest])

theorem fades_reapRequest (a : ActReq) : Fades r t (t.reapRequest a) := by
  rw [reapRequest]
  split_ifs
  · exact fades_destroy a
  · exact fades_failRequest a
  · exact .refl r t
  · exact fades_destroy a

theorem fades_reapRequests (dead : List (BitVec 16)) (refs : List Nat) :
    Fades r t (reapRequests dead t refs) := by
  induction refs generalizing t with
  | nil => exact .refl r t
  | cons ref rest ih =>
      rw [reapRequests]
      split
      · exact ih
      · split_ifs
        · exact (fades_reapRequest _).trans ih
        · exact ih

/-- The INS of any socket may be found dead. -/
theorem fades_markDead (p : Nat) : Fades r t (t.markDead p) := by
  have hview : (t.markDead p).g.view mark r =
      if r = p then mark { t.sock p with insAlive := false } else t.g.view mark r :=
    (Globals.view_clearPollable (fun _ _ _ => rfl) _ p r).trans (Globals.view_modifySock ..)
  have hholds := holds_markDead t p
  by_cases hr : r = p
  · subst hr
    rw [if_pos rfl] at hview
    have hmark : mark ((t.markDead r).sock r) = mark { t.sock r with insAlive := false } := hview
    simp only [mark, Prod.mk.injEq] at hmark
    exact
      { blockid := hmark.1
        alive := fun _ => hmark.2.1
        remote := hmark.2.2
        shrinks := .of_eq rfl rfl rfl
        refs := by rw [hholds]
        holds := fun h' hh' => ⟨h', hholds ▸ hh', rfl, rfl, id⟩ }
  · rw [if_neg hr] at hview
    exact .of_mark hview (.of_eq rfl rfl rfl) (by rw [hholds])

theorem insAlive_markDead (p : Nat) : ((t.markDead p).sock p).insAlive = false := by
  have hview : (t.markDead p).g.view SockInst.insAlive p = false := by
    refine (Globals.view_clearPollable (fun _ _ _ => rfl) _ p p).trans ?_
    rw [Globals.view_modifySock, if_pos rfl]
  exact hview

/-! ## The failover step -/

/-- The active requests after a failover of `p` to `q`. -/
theorem holds_failover (hsep : t.Separate) (p q : Nat) :
    (t.failover p q).g.holds = t.g.holds.filterMap (taken p q) := by
  let u := t.takeOvers p q (t.g.activeRequests.map ActReq.ref)
  let v := u.modifySock p fun s => adopt s (u.sock q)
  have hrefs : t.g.activeRequests.map ActReq.ref = t.g.holds.map Prod.fst := by
    simp [Globals.holds, ActReq.hold]
  calc (t.failover p q).g.holds
      = (v.mwsocketPutSockinst q).g.holds := holds_setPollable _ p
    _ = u.g.holds := holds_put v q
    _ = t.g.holds.filterMap (taken p q) := by
        rw [holds_takeOvers hsep p q (hrefs ▸ hsep)]
        apply List.filterMap_congr
        intro h hh
        rw [hrefs, if_pos (List.mem_map_of_mem hh)]

theorem Separate.failover (hsep : t.Separate) (p q : Nat) : (t.failover p q).Separate := by
  rw [Separate, holds_failover hsep]
  exact List.Nodup.sublist (refs_filterMap (fun _ _ h => (taken_fst h).1) _) hsep

/-- The failover of a socket does not concern the others, its sibling apart. -/
theorem fades_failover {p q : Nat} (hsep : t.Separate) (hp : r ≠ p) (hq : r ≠ q) :
    Fades r t (t.failover p q) := by
  have hmark : mark ((t.failover p q).sock r) = mark (t.sock r) :=
    view_failover_ne bystander_mark t hp
  simp only [mark, Prod.mk.injEq] at hmark
  refine
    { blockid := hmark.1
      alive := fun h => by rw [hmark.2.1, h]
      remote := hmark.2.2
      shrinks := shrinks_failover t p q
      refs := ?_
      holds := ?_ }
  · rw [holds_failover hsep]
    exact refs_filterMap (fun _ _ h => (taken_fst h).1) _
  · intro h' hh'
    rw [holds_failover hsep, List.mem_filterMap] at hh'
    obtain ⟨h, hh, htaken⟩ := hh'
    refine ⟨h, hh, (taken_fst htaken).1, (taken_fst htaken).2, ?_⟩
    intro hrh
    rw [taken, hrh, if_neg hp, if_neg hq] at htaken
    cases htaken
    exact hrh

/-! ## The reaper -/

/-- Socket `r` is a user socket with its own `blockid`: if that names an active
request, it is one of `r`. -/
structure Primary (r : Nat) (t : Table) : Prop where
  separate : t.Separate
  lone : ∀ p, r ∉ t.siblings p
  own : ∀ h ∈ t.g.holds, h.2.1 = (t.sock r).blockid → h.2.2 = r

/-- Socket `r` has lost its INS, or there is no request for it to wait for. -/
def Stranded (r : Nat) (t : Table) : Prop :=
  (t.sock r).insAlive = false ∨ ∀ h ∈ t.g.holds, h.2.1 ≠ (t.sock r).blockid

theorem Primary.fades {t' : Table} (hp : Primary r t) (h : Fades r t t') : Primary r t' where
  separate := h.separate hp.separate
  lone p := fun hmem => hp.lone p ((h.shrinks.siblings p).subset hmem)
  own h' hh' hid := by
    obtain ⟨x, hx, -, hidx, hsock⟩ := h.holds h' hh'
    exact hsock (hp.own x hx (by rw [← hidx, hid, h.blockid]))

theorem Stranded.fades {t' : Table} (hs : Stranded r t) (h : Fades r t t') : Stranded r t' := by
  rcases hs with hdead | hnone
  · exact .inl (h.alive hdead)
  · refine .inr fun h' hh' hid => ?_
    obtain ⟨x, hx, -, hidx, -⟩ := h.holds h' hh'
    exact hnone x hx (by rw [← hidx, hid, h.blockid])

/-- A failover of `r` itself: its requests are gone, and it still waits for one
of them. -/
theorem stranded_failover (hp : Primary r t) (q : Nat) :
    Primary r (t.failover r q) ∧ Stranded r (t.failover r q) := by
  have hblock : ((t.failover r q).sock r).blockid = (t.sock r).blockid := by
    refine (view_failover_self bystander_blockid t r q fun _ => rfl).trans ?_
    exact view_takeOvers bystander_blockid t r q _ r
  have hnone : ∀ h ∈ (t.failover r q).g.holds, h.2.1 ≠ ((t.failover r q).sock r).blockid := by
    intro h' hh' hid
    rw [holds_failover hp.separate, List.mem_filterMap] at hh'
    obtain ⟨h, hh, htaken⟩ := hh'
    have hown : h.2.2 = r := by
      refine hp.own h hh ?_
      rw [← (taken_fst htaken).2, hid, hblock]
    rw [taken, if_pos hown] at htaken
    cases htaken
  refine ⟨⟨hp.separate.failover r q, ?_, ?_⟩, .inr hnone⟩
  · intro p hmem
    exact hp.lone p (((shrinks_failover t r q).siblings p).subset hmem)
  · intro h hh hid
    exact absurd hid (hnone h hh)

theorem replacement_mem {dead : List (BitVec 16)} {p q : Nat} (h : t.replacement dead p = some q) :
    q ∈ t.siblings p := List.mem_of_find?_eq_some h

theorem shrinks_reapSockets {t' : Table} {dead : List (BitVec 16)} {l : List Nat}
    (h : reapSockets dead t l = some t') : Shrinks t t' := by
  induction l generalizing t with
  | nil =>
      cases h
      exact .refl _
  | cons p rest ih =>
      rw [reapSockets] at h
      split at h
      · split at h
        · obtain ⟨u, hu, hrest⟩ := Option.bind_eq_some_iff.mp h
          exact (shrinks_reapSocket hu).trans (ih hrest)
        · exact ih h
      · cases h

theorem fades_reapSocket {t' : Table} {dead : List (BitVec 16)} {p : Nat} (hr : Primary r t)
    (hp : r ≠ p) (h : t.reapSocket dead p = some t') : Fades r t t' := by
  have hdead : Fades r t (t.markDead p) := fades_markDead p
  simp only [reapSocket] at h
  split at h
  · split at h
    · cases h
      exact hdead.trans (fades_put p)
    · split at h
      · rename_i q hq
        cases h
        refine hdead.trans (fades_failover (hdead.separate hr.separate) hp ?_)
        rintro rfl
        exact (hr.fades hdead).lone p (replacement_mem hq)
      · obtain ⟨b, -, rfl⟩ := Option.map_eq_some_iff.mp h
        exact hdead.trans (fades_failRequest b)
  · cases h
    exact hdead

theorem stranded_reapSocket {t' : Table} {dead : List (BitVec 16)} (hr : Primary r t)
    (h : t.reapSocket dead r = some t') : Primary r t' ∧ Stranded r t' := by
  have hdead : Fades r t (t.markDead r) := fades_markDead r
  have hlost : Stranded r (t.markDead r) := .inl (insAlive_markDead r)
  have hr' := hr.fades hdead
  simp only [reapSocket] at h
  split at h
  · split at h
    · cases h
      exact ⟨hr'.fades (fades_put r), hlost.fades (fades_put r)⟩
    · split at h
      · cases h
        exact stranded_failover hr' _
      · obtain ⟨b, -, rfl⟩ := Option.map_eq_some_iff.mp h
        exact ⟨hr'.fades (fades_failRequest b), hlost.fades (fades_failRequest b)⟩
  · cases h
    exact ⟨hr', hlost⟩

/-- The second loop strands every user socket of a dead INS that it gets to. -/
theorem stranded_reapSockets {t' : Table} {dead : List (BitVec 16)} {l : List Nat}
    (hr : Primary r t) (hvisit : (r ∈ l ∧ named dead (t.sock r).remoteFd = true) ∨ Stranded r t)
    (h : reapSockets dead t l = some t') : Stranded r t' := by
  induction l generalizing t with
  | nil =>
      cases h
      rcases hvisit with ⟨hmem, -⟩ | hs
      · exact absurd hmem List.not_mem_nil
      · exact hs
  | cons p rest ih =>
      rw [reapSockets] at h
      split at h
      · split at h
        · obtain ⟨u, hu, hrest⟩ := Option.bind_eq_some_iff.mp h
          by_cases hp : r = p
          · subst hp
            obtain ⟨hr', hs'⟩ := stranded_reapSocket hr hu
            exact ih hr' (.inr hs') hrest
          · have hfade := fades_reapSocket hr hp hu
            refine ih (hr.fades hfade) ?_ hrest
            rcases hvisit with ⟨hmem, hnamed⟩ | hs
            · exact .inl ⟨(List.mem_cons.mp hmem).resolve_left hp, hfade.remote ▸ hnamed⟩
            · exact .inr (hs.fades hfade)
        · rename_i hnamed
          refine ih hr ?_ h
          rcases hvisit with ⟨hmem, hdead⟩ | hs
          · refine .inl ⟨(List.mem_cons.mp hmem).resolve_left ?_, hdead⟩
            rintro rfl
            exact hnamed hdead
          · exact .inr hs
      · cases h

/-! ## The user socket after its failover -/

/-- A listening user socket with an accept outstanding whose INS is dead, and
which has a sibling on an INS that is alive. -/
structure Fails (t : Table) (dead : List (BitVec 16)) (r : Nat) : Prop where
  user : (t.sock r).mwflags.has MwFlags.user = true
  accepting : (t.sock r).mwflags.has MwFlags.accept = true
  gone : mwSocketClientId (t.sock r).remoteFd ∈ dead
  sibling : ∃ q ∈ t.siblings r,
    (t.sock q).insAlive = true ∧ mwSocketClientId (t.sock q).remoteFd ∉ dead

/-- The user socket goes on in the place of one of its siblings, and there is a
request for it to wait for. -/
def FailedOver (t t' : Table) (dead : List (BitVec 16)) (r : Nat) : Prop :=
  r ∈ t'.sockinsts ∧ (t'.sock r).insAlive = true ∧
  (∃ q ∈ t.siblings r, (t.sock q).insAlive = true ∧
    mwSocketClientId (t.sock q).remoteFd ∉ dead ∧
    (t'.sock r).remoteFd = (t.sock q).remoteFd ∧
    (∀ a ∈ t.g.activeRequests, a.sockinst = q →
      ∃ a' ∈ t'.g.activeRequests, a'.ref = a.ref ∧ a'.sockinst = r) ∧
    q ∉ t'.sockinsts ∧ q ∉ t'.siblings r) ∧
  (∀ a ∈ t'.g.activeRequests, a.sockinst ∈ t'.sockinsts) ∧
  ∃ a ∈ t'.g.activeRequests, a.id = (t'.sock r).blockid

end Table

/-- Whatever requests are outstanding and whichever INSs are dead, no listening
user socket comes out of the reaper with an active request under its `blockid`. -/
theorem failover_strands_accept (t : Table) (dead : List (BitVec 16)) (r : Nat)
    (hr : Table.Primary r t) (hfails : t.Fails dead r) :
    ¬ ∃ t', t.mwsocketReapDeadSockInstances dead = some t' ∧ Table.FailedOver t t' dead r := by
  rintro ⟨t', hreap, hlisted, halive, -, -, a, ha, hid⟩
  have hsome : dead ≠ [] := List.ne_nil_of_mem hfails.gone
  rw [Table.mwsocketReapDeadSockInstances, if_neg hsome] at hreap
  have hfade : Table.Fades r t (Table.reapRequests dead t (t.g.activeRequests.map ActReq.ref)) :=
    Table.fades_reapRequests dead _
  have hnamed : Table.named dead (t.sock r).remoteFd = true := by
    simp [Table.named, hfails.gone]
  have hr' := hr.fades hfade
  have hvisited := (Table.shrinks_reapSockets hreap).sockinsts.subset hlisted
  have hstranded : Table.Stranded r t' :=
    Table.stranded_reapSockets hr' (.inl ⟨hvisited, hfade.remote ▸ hnamed⟩) hreap
  rcases hstranded with hdead | hnone
  · rw [halive] at hdead
    cases hdead
  · exact hnone a.hold (Globals.mem_holds.mpr ⟨a, ha, rfl⟩) hid

/-- A user socket that accepts on INS 5, with a sibling on INS 6. -/
def twoListeners : Table where
  g :=
    { counter := 2
      nextRef := 2
      activeRequests :=
        [{ ref := 1, id := 2, sockinst := 1, deliverResponse := true,
           request := { type := .socketAccept, sockfd := mwSocketCreate 6 1 } },
         { ref := 0, id := 1, sockinst := 0, deliverResponse := true,
           request := { type := .socketAccept, sockfd := mwSocketCreate 5 1 } }]
      socks := fun r =>
        if r = 0 then
          { remoteFd := mwSocketCreate 5 1
            mwflags := MwFlags.user ||| MwFlags.bound ||| MwFlags.listening ||| MwFlags.accept
            blockid := 1, readExpected := true, userOutstandingAccept := 1, refct := 2 }
        else
          { remoteFd := mwSocketCreate 6 1
            mwflags := MwFlags.bound ||| MwFlags.listening ||| MwFlags.accept
            refct := 2 } }
  sockinsts := [1, 0]
  siblings := fun p => if p = 0 then [1] else []
  nextSock := 2

theorem twoListeners_fails : Table.Primary 0 twoListeners ∧ twoListeners.Fails [5] 0 := by
  refine ⟨⟨by unfold Table.Separate; decide, ?_, by decide⟩, ⟨by decide, by decide, by decide, 1, by decide⟩⟩
  intro p
  simp only [twoListeners]
  split_ifs <;> simp

theorem failover_strands_accept_twoListeners :
    twoListeners.Fails [5] 0 ∧
      ¬ ∃ t', twoListeners.mwsocketReapDeadSockInstances [5] = some t' ∧
        Table.FailedOver twoListeners t' [5] 0 :=
  ⟨twoListeners_fails.2,
    failover_strands_accept twoListeners [5] 0 twoListeners_fails.1 twoListeners_fails.2⟩

/-- The user socket lives on with the descriptor and the request of its sibling,
under id 2, and waits for id 1. -/
theorem twoListeners_not_failedOver :
    twoListeners.Fails [5] 0 ∧
      ∃ t', twoListeners.mwsocketReapDeadSockInstances [5] = some t' ∧
        (t'.sock 0).remoteFd = mwSocketCreate 6 1 ∧
        t'.g.holds = [(1, 2, 0)] ∧ (t'.sock 0).blockid = 1 ∧
        ¬ Table.FailedOver twoListeners t' [5] 0 := by
  have hview : (twoListeners.mwsocketReapDeadSockInstances [5]).map (fun t =>
      ((t.sock 0).remoteFd, t.g.holds, (t.sock 0).blockid)) =
        some (mwSocketCreate 6 1, [(1, 2, 0)], 1) := by
    decide +kernel
  obtain ⟨t', ht', heq⟩ := Option.map_eq_some_iff.mp hview
  simp only [Prod.mk.injEq] at heq
  obtain ⟨hfd, hholds, hblock⟩ := heq
  refine ⟨twoListeners_fails.2, t', ht', hfd, hholds, hblock, ?_⟩
  rintro ⟨-, -, -, -, a, ha, hid⟩
  have hmem : a.hold ∈ t'.g.holds := Globals.mem_holds.mpr ⟨a, ha, rfl⟩
  rw [hholds, List.mem_singleton] at hmem
  have htwo : a.id = 2 := congrArg (fun h => h.2.1) hmem
  rw [htwo, hblock] at hid
  exact absurd hid (by decide)

end MagicWand.Kernel
