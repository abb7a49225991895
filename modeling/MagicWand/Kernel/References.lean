import MagicWand.Foundation.RefCount
import MagicWand.Kernel.Failover
import MagicWand.Kernel.Sockets

/-!
# Reference counts of socket instances

An instance has one reference for its owner, the file or the replicator that
created it, and one for each active request on it. Its owner must let go only
once. Three functions put an instance in the name of its owner: the error exit
of the replicator, `mwsocket_release` and the reaper, and each of them can do so
for an instance that is not, or no longer, theirs to put.
-/

namespace MagicWand.Kernel

open Foundation

namespace Table

/-- How many active requests refer to an instance. -/
def held (t : Table) (r : Nat) : Nat := t.g.holds.countP fun h => h.2.2 = r

/-- The instances as reference-counted objects. -/
def refCount (t : Table) (owned : Nat → Bool) : RefCount Nat where
  count r := (t.sock r).refct
  owned := owned
  held := t.held
  known r := r < t.nextSock
  live := t.sockinsts
  freed := t.freed

/-! ## Counting active requests -/

/-- The entries of the other active requests. -/
def others (t : Table) (ref : Nat) : List (Nat × MtId × Nat) := t.g.holds.filter fun h => h.1 ≠ ref

variable {t : Table} {a : ActReq}

theorem perm_others (hsep : t.Separate) (ha : a ∈ t.g.activeRequests) :
    t.g.holds.Perm (a.hold :: t.others a.ref) :=
  perm_cons_others hsep (Globals.mem_holds.mpr ⟨a, ha, rfl⟩)

theorem held_others (hsep : t.Separate) (ha : a ∈ t.g.activeRequests) (r : Nat) :
    t.held r = (t.others a.ref).countP (fun h => h.2.2 = r) + if a.sockinst = r then 1 else 0 := by
  rw [held, (perm_others hsep ha).countP_eq, List.countP_cons]
  by_cases hr : a.sockinst = r
  · simp [ActReq.hold, hr]
  · simp [ActReq.hold, hr]

theorem held_destroy (hsep : t.Separate) (ha : a ∈ t.g.activeRequests) (r : Nat) :
    (t.mwsocketDestroyActiveRequest a).held r + (if a.sockinst = r then 1 else 0) = t.held r := by
  rw [held_others hsep ha, held, holds_destroy, others]

theorem held_moveRequest (hsep : t.Separate) (ha : a ∈ t.g.activeRequests) (p q r : Nat) :
    (t.moveRequest p q a.ref).held r + (if a.sockinst = r then 1 else 0) =
      t.held r + if p = r then 1 else 0 := by
  let f (h : Nat × MtId × Nat) : Nat × MtId × Nat := if h.1 = a.ref then (h.1, h.2.1, p) else h
  have hself : f a.hold = (a.ref, a.id, p) := if_pos rfl
  have hothers : (t.others a.ref).map f = t.others a.ref := by
    refine (List.map_congr_left ?_).trans (List.map_id _)
    intro h hh
    exact if_neg (by simpa using (List.mem_filter.mp hh).2)
  have hcount : (t.moveRequest p q a.ref).held r =
      (t.others a.ref).countP (fun h => h.2.2 = r) + if p = r then 1 else 0 := by
    have hperm := ((perm_others hsep ha).map f).countP_eq fun h => h.2.2 = r
    rw [List.map_cons, hself, hothers, List.countP_cons] at hperm
    rw [held, holds_moveRequest]
    refine hperm.trans ?_
    simp
  rw [hcount, held_others hsep ha]
  omega

/-! ## Rules for the functions on instances -/

variable {owned : Nat → Bool}

/-- The same with other numbers of active requests. -/
def refCountWith (t : Table) (owned : Nat → Bool) (held : Nat → Nat) : RefCount Nat :=
  { t.refCount owned with held := held }

theorem refs_def (t : Table) (owned : Nat → Bool) (x : Nat) :
    (t.refCount owned).refs x = (if owned x then 1 else 0) + t.held x := rfl

/-- A change that drops one of the references to `r`, of its owner or of an
active request. -/
theorem sound_settle {owned' : Nat → Bool} {held held' : Nat → Nat} {r : Nat} {g : Globals}
    (h : (t.refCountWith owned held).Sound) (hpos : 0 < (t.refCountWith owned held).refs r)
    (hcount : ∀ x, g.view SockInst.refct x =
      if x = r then (t.sock r).refct - 1 else (t.sock x).refct)
    (hrefs : ∀ x, (if owned' x then 1 else 0) + held' x =
      if x = r then (t.refCountWith owned held).refs r - 1
      else (t.refCountWith owned held).refs x) :
    ((t.settle r g).refCountWith owned' held').Sound := by
  have hview (x : Nat) : ((t.settle r g).sock x).refct = g.view SockInst.refct x :=
    view_settle (F := SockInst.refct) (fun _ _ _ => rfl) t r g x
  have hr : (t.sock r).refct ≠ 0 := by
    have hknown : (t.refCountWith owned held).known r := by
      by_contra hne
      have := h.stray r hne
      omega
    have hagree : (t.sock r).refct = (t.refCountWith owned held).refs r := h.agree r hknown
    omega
  have hzero : ((t.settle r g).refCountWith owned' held').count r = (g.socks r).refct := hview r
  refine h.drop r hpos (fun x => (hview x).trans (hcount x)) hrefs ?_ ?_ ?_
  · simp only [settle]
    split <;> rfl
  · rw [hzero, settle]
    by_cases hlast : (g.socks r).refct = 0
    · rw [if_pos ⟨hr, hlast⟩, if_pos hlast]
      rfl
    · rw [if_neg fun hc => hlast hc.2, if_neg hlast]
      rfl
  · rw [hzero, settle]
    by_cases hlast : (g.socks r).refct = 0
    · rw [if_pos ⟨hr, hlast⟩, if_pos hlast]
      rfl
    · rw [if_neg fun hc => hlast hc.2, if_neg hlast]
      rfl

theorem held_pos (hsep : t.Separate) (ha : a ∈ t.g.activeRequests) : 0 < t.held a.sockinst := by
  rw [held_others hsep ha, if_pos rfl]
  omega

/-- The owner of an instance lets go of it. -/
theorem sound_put {r : Nat} (h : (t.refCount owned).Sound) (hown : owned r = true) :
    ((t.mwsocketPutSockinst r).refCount (Function.update owned r false)).Sound := by
  have hheld : (t.mwsocketPutSockinst r).held = t.held := by
    funext x
    rw [held, holds_put, held]
  have hput : ((t.mwsocketPutSockinst r).refCountWith (Function.update owned r false)
      t.held).Sound := by
    have hbefore : (t.refCountWith owned t.held).Sound := h
    refine sound_settle hbefore ?_ (fun x => ?_) fun x => ?_
    · change 0 < (t.refCount owned).refs r
      rw [refs_def, if_pos hown]
      omega
    · exact Globals.view_modifySock ..
    · change _ = if x = r then (t.refCount owned).refs r - 1 else (t.refCount owned).refs x
      rw [refs_def, refs_def]
      by_cases hx : x = r
      · simp [hx, hown]
      · simp [hx]
  rw [← hheld] at hput
  exact hput

theorem sound_destroy (hsep : t.Separate) (h : (t.refCount owned).Sound)
    (ha : a ∈ t.g.activeRequests) : ((t.mwsocketDestroyActiveRequest a).refCount owned).Sound := by
  have hbefore : (t.refCountWith owned t.held).Sound := h
  refine sound_settle hbefore ?_ (fun x => ?_) fun x => ?_
  · change 0 < (t.refCount owned).refs a.sockinst
    have := held_pos hsep ha
    rw [refs_def]
    omega
  · have hview : (t.g.mwsocketDestroyActiveRequest a).view SockInst.refct x = _ :=
      Globals.view_update rfl x
    exact hview
  · change (if owned x then 1 else 0) + (t.mwsocketDestroyActiveRequest a).held x =
      if x = a.sockinst then (t.refCount owned).refs a.sockinst - 1 else (t.refCount owned).refs x
    have hheld := held_destroy hsep ha x
    rw [refs_def, refs_def]
    by_cases hx : x = a.sockinst
    · subst hx
      rw [if_pos rfl] at hheld ⊢
      omega
    · rw [if_neg (Ne.symm hx)] at hheld
      rw [if_neg hx]
      omega

/-- A new active request, or one that is moved to another instance. -/
theorem sound_take {t' : Table} {r : Nat} (h : (t.refCount owned).Sound) (hr : r ∈ t.sockinsts)
    (hcount : ∀ x, t'.g.view SockInst.refct x =
      if x = r then (t.sock r).refct + 1 else (t.sock x).refct)
    (hheld : ∀ x, t'.held x = t.held x + if r = x then 1 else 0) (hnext : t'.nextSock = t.nextSock)
    (hlive : t'.sockinsts = t.sockinsts) (hfreed : t'.freed = t.freed) :
    (t'.refCount owned).Sound := by
  refine h.take r hr hcount (fun x => ?_) ?_ hlive hfreed
  · rw [refs_def, refs_def, refs_def, hheld]
    by_cases hx : x = r
    · subst hx
      simp [Nat.add_assoc]
    · simp [hx, Ne.symm hx]
  · simp only [refCount, hnext]

/-- Nothing about the references changes. -/
theorem sound_congr {t' : Table} (h : (t.refCount owned).Sound)
    (hcount : ∀ x, t'.g.view SockInst.refct x = t.g.view SockInst.refct x)
    (hholds : t'.g.holds = t.g.holds) (hnext : t'.nextSock = t.nextSock)
    (hlive : t'.sockinsts = t.sockinsts) (hfreed : t'.freed = t.freed) :
    (t'.refCount owned).Sound := by
  refine h.congr (fun x _ => hcount x) (fun x => ?_) ?_ hlive hfreed
  · rw [refs_def, refs_def, held, hholds, held]
  · simp only [refCount, hnext]

theorem sound_setPollable (h : (t.refCount owned).Sound) (r : Nat) :
    ((t.setPollable r).refCount owned).Sound := by
  have hview (x : Nat) : (t.setPollable r).g.view SockInst.refct x = t.g.view SockInst.refct x :=
    view_setPollable (fun _ _ _ => rfl) t r x
  have hholds := holds_setPollable t r
  rw [setPollable] at hview hholds ⊢
  split
  · exact h
  · rename_i hoff
    rw [if_neg hoff] at hview hholds
    exact sound_congr h hview hholds rfl rfl rfl

theorem owned_live {r : Nat} (h : (t.refCount owned).Sound) (hown : owned r = true) :
    r ∈ t.sockinsts := by
  have hpos : 0 < (t.refCount owned).refs r := by
    rw [refs_def, if_pos hown]
    omega
  refine (h.live r).mpr ⟨?_, hpos⟩
  by_contra hne
  have := h.stray r hne
  omega

/-! ## The reaper -/

/-- The move of a request drops a reference to the sibling and takes one to the
user socket. -/
theorem sound_moveRequest (hsep : t.Separate) (h : (t.refCount owned).Sound)
    (ha : a ∈ t.g.activeRequests) {p : Nat} (hp : owned p = true) :
    ((t.moveRequest p a.sockinst a.ref).refCount owned).Sound := by
  let u : Table := { t with g := t.g.modifyReq a.ref fun x => { x with sockinst := p } }
  let left (x : Nat) := (t.others a.ref).countP fun h => h.2.2 = x
  have hleft (x : Nat) : t.held x = left x + if a.sockinst = x then 1 else 0 :=
    held_others hsep ha x
  have hdrop : ((u.mwsocketPutSockinst a.sockinst).refCountWith owned left).Sound := by
    have hbefore : (u.refCountWith owned t.held).Sound := h
    refine sound_settle hbefore ?_ (fun x => ?_) fun x => ?_
    · change 0 < (t.refCount owned).refs a.sockinst
      have := held_pos hsep ha
      rw [refs_def]
      omega
    · exact Globals.view_modifySock ..
    · change _ = if x = a.sockinst then (t.refCount owned).refs a.sockinst - 1
        else (t.refCount owned).refs x
      rw [refs_def, refs_def]
      by_cases hx : x = a.sockinst
      · subst hx
        have := hleft a.sockinst
        rw [if_pos rfl] at this ⊢
        omega
      · have := hleft x
        rw [if_neg (Ne.symm hx)] at this
        rw [if_neg hx]
        omega
  have hmoved (x : Nat) : (t.moveRequest p a.sockinst a.ref).held x =
      left x + if p = x then 1 else 0 := by
    have := held_moveRequest hsep ha p a.sockinst x
    have := hleft x
    omega
  have hpos : 0 < ((u.mwsocketPutSockinst a.sockinst).refCountWith owned left).refs p := by
    simp only [RefCount.refs, refCountWith, refCount, hp, if_true]
    omega
  have hlive : p ∈ ((u.mwsocketPutSockinst a.sockinst).refCountWith owned left).live := by
    refine (hdrop.live p).mpr ⟨?_, hpos⟩
    by_contra hne
    have := hdrop.stray p hne
    omega
  refine hdrop.take p hlive (fun x => ?_) (fun x => ?_) rfl rfl rfl
  · exact view_modifySock (F := SockInst.refct) (u.mwsocketPutSockinst a.sockinst) p
      (fun s => { s with refct := s.refct + 1 }) x
  · change (if owned x then 1 else 0) + (t.moveRequest p a.sockinst a.ref).held x =
      if x = p then (if owned p then 1 else 0) + left p + 1
      else (if owned x then 1 else 0) + left x
    rw [hmoved]
    by_cases hx : x = p
    · subst hx
      simp [Nat.add_assoc]
    · simp [hx, Ne.symm hx]

theorem sound_takeOver (hnum : t.Numbered) (h : (t.refCount owned).Sound) {p : Nat}
    (hp : owned p = true) (q ref : Nat) : ((t.takeOver p q ref).refCount owned).Sound := by
  rw [takeOver]
  split
  · exact h
  · rename_i a ha
    obtain ⟨hmem, rfl⟩ := Globals.reqAt_mem ha
    split_ifs with hr hq
    · exact sound_destroy hnum.separate h hmem
    · subst hq
      exact sound_moveRequest hnum.separate h hmem hp
    · exact h

theorem sound_takeOvers (hnum : t.Numbered) (h : (t.refCount owned).Sound) {p : Nat}
    (hp : owned p = true) (q : Nat) (refs : List Nat) :
    ((t.takeOvers p q refs).refCount owned).Sound := by
  induction refs generalizing t with
  | nil => exact h
  | cons ref rest ih =>
      exact ih (hnum.thins (thins_takeOver t p q ref)) (sound_takeOver hnum h hp q ref)

/-- The sibling that the user socket `p` goes on as loses its owner. -/
theorem sound_failover (hnum : t.Numbered) (h : (t.refCount owned).Sound) {p q : Nat}
    (hp : owned p = true) (hq : owned q = true) :
    ((t.failover p q).refCount (Function.update owned q false)).Sound := by
  let u := t.takeOvers p q (t.g.activeRequests.map ActReq.ref)
  let v := u.modifySock p fun s => adopt s (u.sock q)
  let w := (v.mwsocketPutSockinst q).modifySock p fun s => { s with insAlive := true }
  have hu : (u.refCount owned).Sound := sound_takeOvers hnum h hp q _
  have hv : (v.refCount owned).Sound :=
    sound_congr hu (Globals.view_update_of_eq rfl rfl) rfl rfl rfl rfl
  have hput : ((v.mwsocketPutSockinst q).refCount (Function.update owned q false)).Sound :=
    sound_put hv hq
  have hw : (w.refCount (Function.update owned q false)).Sound :=
    sound_congr hput (Globals.view_update_of_eq rfl rfl) rfl rfl rfl rfl
  exact sound_setPollable hw p

/-! ## Responses -/

theorem sound_failRequest (h : (t.refCount owned).Sound) (a : ActReq) :
    ((t.failRequest a).refCount owned).Sound :=
  sound_congr h (fun x => refct_postproc t.g a (deadResponse a.request) x) (holds_failRequest t a)
    rfl rfl rfl

theorem sound_reapRequest (hnum : t.Numbered) (h : (t.refCount owned).Sound)
    (ha : a ∈ t.g.activeRequests) : ((t.reapRequest a).refCount owned).Sound := by
  rw [reapRequest]
  split_ifs
  · exact sound_destroy hnum.separate h ha
  · exact sound_failRequest h a
  · exact h
  · exact sound_destroy hnum.separate h ha

theorem sound_consume (hnum : t.Numbered) (h : (t.refCount owned).Sound) (resp : MtResponse) :
    ((t.mwsocketConsumeResponse resp).refCount owned).Sound := by
  have hpost (a : ActReq) :
      (({ t with g := (t.g.mwsocketPostprocNoContext a resp).1 } : Table).refCount owned).Sound :=
    sound_congr h (refct_postproc t.g a resp) (Globals.holds_postproc t.g a resp) rfl rfl rfl
  have hconsume := consume_inv hnum.separate resp
  generalize t.mwsocketConsumeResponse resp = t' at hconsume ⊢
  cases hconsume with
  | dropped => exact h
  | delivered ha hsocks hholds =>
      refine sound_congr (hpost _) (fun x => ?_) hholds rfl rfl rfl
      rw [Globals.view, hsocks, Globals.view]
  | destroyed ha hb =>
      refine sound_destroy ?_ (hpost _) hb
      rw [Separate, Globals.holds_postproc]
      exact hnum.separate

theorem sound_reapSocket {t' : Table} {dead : List (BitVec 16)} {r : Nat} (hnum : t.Numbered)
    (h : (t.refCount owned).Sound)
    (hlet : ∀ q ∈ Sockets.reaped t dead r, owned q = true ∧ owned r = true)
    (ht : t.reapSocket dead r = some t') :
    (t'.refCount (match Sockets.reaped t dead r with
      | some q => Function.update owned q false
      | none => owned)).Sound := by
  have hnum' : (t.markDead r).Numbered := hnum.thins (thins_markDead t r)
  have hdead : ((t.markDead r).refCount owned).Sound := by
    refine sound_congr h (fun x => ?_) (holds_markDead t r) rfl rfl rfl
    refine (Globals.view_clearPollable (fun _ _ _ => rfl) _ r x).trans ?_
    refine Globals.view_update_of_eq rfl ?_ x
    rfl
  simp only [Sockets.reaped] at hlet ⊢
  simp only [reapSocket] at ht
  split at ht
  · rename_i hacc
    rw [if_pos hacc] at hlet ⊢
    split at ht
    · rename_i huser
      have hoff : ((t.markDead r).sock r).mwflags.has MwFlags.user = false := by simpa using huser
      rw [hoff, if_neg Bool.false_ne_true] at hlet ⊢
      cases ht
      exact sound_put hdead (hlet r rfl).1
    · rename_i huser
      have hon : ((t.markDead r).sock r).mwflags.has MwFlags.user = true := by simpa using huser
      rw [hon, if_pos rfl] at hlet ⊢
      cases hq : (t.markDead r).replacement dead r with
      | some q =>
          rw [hq] at hlet
          simp only [hq] at ht
          cases ht
          exact sound_failover hnum' hdead (hlet q rfl).2 (hlet q rfl).1
      | none =>
          simp only [hq] at ht
          obtain ⟨b, -, rfl⟩ := Option.map_eq_some_iff.mp ht
          exact sound_failRequest hdead b
  · rename_i hacc
    rw [if_neg hacc]
    cases ht
    exact hdead

/-! ## Requests and instances -/

theorem refct_send (g : Globals) (a : ActReq) (slot : Globals.Slot) (acquired : Bool) (x : Nat) :
    (g.mwsocketSendRequest a slot acquired).1.view SockInst.refct x = g.view SockInst.refct x := by
  by_cases hprep : g.prepares a slot
  · refine (Globals.view_send_prepared acquired hprep x).trans ?_
    rw [SockInst.refct_preProcess]
    split
    · rename_i hx
      rw [hx, Globals.view]
    · rfl
  · exact Globals.view_send_refused acquired hprep (fun _ _ _ => rfl) (fun _ _ => rfl) x

theorem sound_send (h : (t.refCount owned).Sound) (a : ActReq) (slot : Globals.Slot)
    (acquired : Bool) :
    (({ t with g := (t.g.mwsocketSendRequest a slot acquired).1 } : Table).refCount owned).Sound :=
  sound_congr h (refct_send t.g a slot acquired) (Globals.holds_send t.g a slot acquired) rfl rfl rfl

theorem sound_request {g : Globals} {sock ref : Nat} {fromUser deliver : Bool} {req : MtRequest}
    (h : (t.refCount owned).Sound) (hsock : sock ∈ t.sockinsts)
    (hc : t.g.mwsocketCreateActiveRequest sock fromUser deliver req = some (g, ref)) :
    (({ t with g := g } : Table).refCount owned).Sound := by
  rw [Globals.mwsocketCreateActiveRequest] at hc
  split at hc
  · obtain ⟨id, -, heq⟩ := Option.map_eq_some_iff.mp hc
    cases heq
    refine sound_take h hsock (fun x => ?_) (fun x => ?_) rfl rfl rfl
    · exact Globals.view_modifySock (F := SockInst.refct) t.g sock
        (fun s => { s with refct := s.refct + 1 }) x
    · simp only [held, Globals.holds, List.map_cons, List.countP_cons, ActReq.hold,
        decide_eq_true_eq]
  · cases hc

theorem sound_create (h : (t.refCount owned).Sound) (pollable : Bool) :
    ((t.mwsocketCreateSockinst pollable).refCount
      (Function.update owned t.nextSock true)).Sound := by
  let u : Table := { t.modifySock t.nextSock (fun _ => { usersock := t.nextSock }) with
    sockinsts := t.nextSock :: t.sockinsts
    nextSock := t.nextSock + 1 }
  have hnone := h.stray t.nextSock (Nat.lt_irrefl t.nextSock)
  have hu : (u.refCount (Function.update owned t.nextSock true)).Sound := by
    refine h.create t.nextSock (Nat.lt_irrefl t.nextSock) ?_ (fun x hx => ?_) (fun x => ?_)
      (fun x => ?_) rfl rfl
    · change (Function.update t.g.socks t.nextSock _ t.nextSock).refct = 1
      rw [Function.update_self]
    · change (Function.update t.g.socks t.nextSock _ x).refct = _
      rw [Function.update_of_ne hx]
      rfl
    · rw [refs_def] at hnone
      rw [refs_def, refs_def, refs_def]
      change _ + t.held x = _
      by_cases hx : x = t.nextSock
      · subst hx
        simp only [Function.update_self, if_true]
        omega
      · simp [hx]
    · change x < t.nextSock + 1 ↔ x = t.nextSock ∨ x < t.nextSock
      omega
  rw [mwsocketCreateSockinst]
  split
  · exact sound_setPollable hu _
  · exact hu

end Table

/-! ## Runs -/

namespace Sockets

/-- An instance is put in the name of its owner only while that has not let go
of it: by the replicator for an instance that it has created itself, by the
release of the user socket for a sibling that was not put before, and by the
reaper for one without a file, whose user socket is still open. -/
def KeepsOwners (s : Sockets) : SocketEvent → Prop
  | .replicated _ q failed => failed = true → q ∈ s.building ∧ s.owned q = true
  | .releaseSibling _ q => s.owned q = true
  | .reapSocket dead r => ∀ q ∈ reaped s.table dead r,
      s.owned q = true ∧ s.owned r = true ∧ q ∉ s.files ∧ q ∉ s.closing
  | _ => True

instance (s : Sockets) (e : SocketEvent) : Decidable (s.KeepsOwners e) := by
  rcases e
  all_goals
    dsimp only [KeepsOwners]
    infer_instance

/-- The counts are right, a file owns its instance until it is released, and the
instances of the replicator have no file. -/
structure Counted (s : Sockets) : Prop where
  numbered : s.table.Numbered
  sound : (s.table.refCount s.owned).Sound
  owners : ∀ r ∈ s.files ++ s.closing, s.owned r = true
  once : (s.files ++ s.closing).Nodup
  apart : ∀ q, (q ∈ s.building ∨ ∃ p, q ∈ s.table.siblings p) →
    q < s.table.nextSock ∧ q ∉ s.files ++ s.closing

namespace Counted

variable {s s' : Sockets}

/-- A step that creates nothing and opens or closes no file. -/
theorem move (h : Counted s) (hthin : s.table.Thins s'.table) (hshrink : s.table.Shrinks s'.table)
    (hsound : (s'.table.refCount s'.owned).Sound)
    (howned : ∀ r ∈ s.files ++ s.closing, s'.owned r = true)
    (hfiles : s'.files = s.files) (hclosing : s'.closing = s.closing)
    (hbuilding : s'.building ⊆ s.building) : Counted s' where
  numbered := h.numbered.thins hthin
  sound := hsound
  owners := by rwa [hfiles, hclosing]
  once := by rw [hfiles, hclosing]; exact h.once
  apart q hq := by
    rw [hfiles, hclosing, hshrink.1]
    refine h.apart q ?_
    rcases hq with hnew | ⟨p, hp⟩
    · exact .inl (hbuilding hnew)
    · exact .inr ⟨p, (hshrink.siblings p).subset hp⟩

/-- A change of one instance that does not show in its count. -/
theorem modifySock (h : Counted s) (r : Nat) {f : SockInst → SockInst}
    (hf : ∀ k, (f k).refct = k.refct) : Counted { s with table := s.table.modifySock r f } := by
  refine h.move (.of_eq rfl rfl) (.of_eq rfl rfl rfl) ?_ h.owners rfl rfl (.refl _)
  exact Table.sound_congr h.sound (Globals.view_modifySock_of_eq s.table.g r hf) rfl rfl rfl rfl

/-- The owner lets go of an instance without a file. -/
theorem letGo (h : Counted s) {r : Nat} (hown : s.owned r = true)
    (hfile : r ∉ s.files ++ s.closing) : Counted (s.letGo r) := by
  refine h.move (Table.thins_put s.table r) (Table.shrinks_settle s.table r _)
    (Table.sound_put h.sound hown) ?_ rfl rfl (.refl _)
  intro x hx
  have hne : x ≠ r := by
    rintro rfl
    exact hfile hx
  simp only [Sockets.letGo, Function.update_of_ne hne]
  exact h.owners x hx

theorem fresh (h : Counted s) : s.table.nextSock ∉ s.files ++ s.closing := by
  intro hmem
  have hlive := (h.sound.live _).mp (Table.owned_live h.sound (h.owners _ hmem))
  exact Nat.lt_irrefl _ hlive.1

/-- A new instance, for a file or for the replicator. -/
theorem create (h : Counted s) (pollable : Bool) {files building : List Nat}
    (hnew : files = s.table.nextSock :: s.files ∧ building = s.building ∨
      files = s.files ∧ building ⊆ s.table.nextSock :: s.building) :
    Counted { s.create pollable with files := files, building := building } := by
  obtain ⟨hnext, hsib, hthin⟩ := Table.create_spec s.table pollable
  have hfresh := h.fresh
  have hne {r : Nat} (hr : r ∈ s.files ++ s.closing) : r ≠ s.table.nextSock := by
    rintro rfl
    exact hfresh hr
  have hfiles : ∀ r ∈ files ++ s.closing,
      r ∈ s.files ++ s.closing ∨ r = s.table.nextSock ∧ building = s.building := by
    rcases hnew with ⟨rfl, hb⟩ | ⟨rfl, -⟩
    · intro r hr
      rcases List.mem_cons.mp (List.cons_append ▸ hr) with rfl | hr
      · exact .inr ⟨rfl, hb⟩
      · exact .inl hr
    · exact fun r hr => .inl hr
  refine ⟨h.numbered.thins hthin, Table.sound_create h.sound pollable, ?_, ?_, ?_⟩
  · intro r hr
    rcases hfiles r hr with hold | ⟨rfl, -⟩
    · exact (Function.update_of_ne (hne hold) ..).trans (h.owners r hold)
    · exact Function.update_self ..
  · rcases hnew with ⟨rfl, -⟩ | ⟨rfl, -⟩
    · exact List.nodup_cons.mpr ⟨hfresh, h.once⟩
    · exact h.once
  · intro q hq
    have hplace : q = s.table.nextSock ∧ files = s.files ∨
        q ∈ s.building ∨ ∃ p, q ∈ s.table.siblings p := by
      rcases hq with hb | ⟨p, hp⟩
      · rcases hnew with ⟨-, rfl⟩ | ⟨rfl, hsub⟩
        · exact .inr (.inl hb)
        · rcases List.mem_cons.mp (hsub hb) with rfl | hb
          · exact .inl ⟨rfl, rfl⟩
          · exact .inr (.inl hb)
      · exact .inr (.inr ⟨p, hsib ▸ hp⟩)
    change q < (s.table.mwsocketCreateSockinst pollable).nextSock ∧ q ∉ files ++ s.closing
    rw [hnext]
    rcases hplace with ⟨rfl, rfl⟩ | hold
    · exact ⟨Nat.lt_succ_self _, hfresh⟩
    · obtain ⟨hlt, hfile⟩ := h.apart q hold
      refine ⟨by omega, fun hmem => ?_⟩
      rcases hfiles q hmem with hmem | ⟨rfl, -⟩
      · exact hfile hmem
      · omega

theorem request (h : Counted s) {g : Globals} {sock ref : Nat} {fromUser deliver : Bool}
    {req : MtRequest} (hsock : sock ∈ s.table.sockinsts)
    (hc : s.table.g.mwsocketCreateActiveRequest sock fromUser deliver req = some (g, ref)) :
    Counted { s with table := { s.table with g := g } } := by
  obtain ⟨-, hnext, id, -, hkeys⟩ := Globals.create_spec hc
  exact ⟨h.numbered.request hnext hkeys, Table.sound_request h.sound hsock hc, h.owners, h.once,
    h.apart⟩

theorem send (h : Counted s) {a : ActReq} {slot : Globals.Slot} {acquired : Bool}
    (hs : s.send a slot acquired = some s') : Counted s' := by
  have hthin (slot' : Globals.Slot) : s.table.Thins
      { s.table with g := (s.table.g.mwsocketSendRequest a slot' acquired).1 } :=
    .of_eq (Globals.send_spec ..).1 (Driver.nextRef_send ..)
  cases (send_inv hs).2.2 with
  | kept slot' =>
      exact h.move (hthin slot') (.of_eq rfl rfl rfl) (Table.sound_send h.sound a slot' acquired)
        h.owners rfl rfl (.refl _)
  | published =>
      exact h.move (hthin slot) (.of_eq rfl rfl rfl) (Table.sound_send h.sound a slot acquired)
        h.owners rfl rfl (.refl _)

theorem visit (h : Counted s) (r : Nat) (items : List MtPollsetItem) :
    Counted { s with table := visit s.table r items } := by
  simp only [Sockets.visit]
  have hoff := h.modifySock (s.table.sock r).usersock (f := fun k => { k with pollEvents := 0 })
    fun _ => rfl
  split
  · exact hoff
  · exact hoff.modifySock _ fun _ => rfl

end Counted

theorem refct_pendingError (k : SockInst) (t : MtRequestType) :
    (mwsocketPendingError k t).2.refct = k.refct := by
  rw [mwsocketPendingError]
  split_ifs <;> rfl

theorem counted_step {e : SocketEvent} {s s' : Sockets} (hG : s.KeepsOwners e)
    (hs : s.step e = some s') (h : Counted s) : Counted s' := by
  cases step_inv hs with
  | create file =>
      cases file with
      | false => exact h.create false (.inr ⟨rfl, List.subset_cons_self _ _⟩)
      | true => exact h.create true (.inl ⟨rfl, rfl⟩)
  | accepted fd =>
      exact (h.create true (.inl ⟨rfl, rfl⟩)).modifySock s.table.nextSock fun _ => rfl
  | user => exact h.modifySock _ fun _ => rfl
  | replica => exact h.create true (.inr ⟨rfl, List.Subset.refl _⟩)
  | join hnew =>
      rename_i p q _ _ _ _
      have hmod := h.modifySock q (f := fun k => { k with usersock := p }) fun _ => rfl
      refine ⟨⟨hmod.numbered.refs, hmod.numbered.below⟩, ?_, h.owners, h.once, ?_⟩
      · exact Table.sound_congr hmod.sound (fun _ => rfl) rfl rfl rfl rfl
      rintro x (hx | ⟨p', hx⟩)
      · exact h.apart x (.inl hx)
      · refine h.apart x ?_
        simp only [Function.update_apply] at hx
        split at hx
        · rcases List.mem_cons.mp hx with rfl | hx
          · exact .inl hnew
          · exact .inr ⟨p, hx⟩
        · exact .inr ⟨p', hx⟩
  | built =>
      exact h.move (.refl _) (.refl _) h.sound h.owners rfl rfl List.erase_subset
  | unbuilt hnew =>
      have hdone := h.letGo (hG rfl).2 (h.apart _ (.inl hnew)).2
      exact hdone.move (.refl _) (.refl _) hdone.sound hdone.owners rfl rfl List.erase_subset
  | found => exact h
  | spoilt hold => exact absurd (hG rfl).1 hold
  | request hsock hc => exact h.request hsock hc
  | send ha hsend => exact h.send hsend
  | destroy ha =>
      exact h.move (Table.thins_destroy _ _) (Table.shrinks_settle _ _ _)
        (Table.sound_destroy h.numbered.separate h.sound (Globals.reqAt_mem ha).1) h.owners rfl rfl
        (.refl _)
  | respond =>
      exact h.move (Table.thins_consume _ _) (Table.shrinks_consume _ _)
        (Table.sound_consume h.numbered h.sound _) h.owners rfl rfl (.refl _)
  | check r type => exact h.modifySock r fun k => refct_pendingError k type
  | process r exiting forknoexec => exact h.modifySock r fun _ => rfl
  | poll => exact h.move (.refl _) (.refl _) h.sound h.owners rfl rfl (.refl _)
  | visit =>
      have hvisit := h.visit
      exact (hvisit _ _).move (.refl _) (.refl _) (hvisit _ _).sound h.owners rfl rfl (.refl _)
  | xen => exact h.move (.refl _) (.refl _) h.sound h.owners rfl rfl (.refl _)
  | reapRequest ha =>
      exact h.move (Table.thins_reapRequest _ _) (Table.shrinks_reapRequest _ _)
        (Table.sound_reapRequest h.numbered h.sound (Globals.reqAt_mem ha).1) h.owners rfl rfl
        (.refl _)
  | reapSocket hr ht =>
      -- what the reaper lets go of is a sibling, which no file owns
      refine h.move (Table.thins_reapSocket ht) (Table.shrinks_reapSocket ht)
        (Table.sound_reapSocket h.numbered h.sound (fun q hq => ⟨(hG q hq).1, (hG q hq).2.1⟩) ht) ?_
        rfl rfl (.refl _)
      intro x hx
      rcases hq : reaped s.table _ _ with _ | q
      · exact h.owners x hx
      · have hne : x ≠ q := by
          rintro rfl
          rcases List.mem_append.mp hx with hfile | hclosing
          · exact (hG x hq).2.2.1 hfile
          · exact (hG x hq).2.2.2 hclosing
        exact (Function.update_of_ne hne ..).trans (h.owners x hx)
  | release hfile =>
      -- the file is still the owner, and on its way to letting go
      rename_i r
      have hmod := h.modifySock r (f := fun k => { k with mwflags := k.mwflags ||| MwFlags.released })
        fun _ => rfl
      have hperm : (s.files.erase r ++ r :: s.closing).Perm (s.files ++ s.closing) :=
        List.perm_middle.trans ((List.perm_cons_erase hfile).symm.append_right s.closing)
      refine ⟨hmod.numbered, hmod.sound, ?_, ?_, ?_⟩
      · exact fun x hx => h.owners x (hperm.subset hx)
      · exact hperm.symm.nodup h.once
      · exact fun q hq => ⟨(h.apart q hq).1, fun hmem => (h.apart q hq).2 (hperm.subset hmem)⟩
  | releaseSibling hp hq =>
      rename_i p q _ _
      have hmod := h.modifySock q (f := fun k => { k with mwflags := k.mwflags ||| MwFlags.released })
        fun _ => rfl
      exact hmod.letGo hG (h.apart q (.inr ⟨p, hq⟩)).2
  | releaseSelf hr =>
      rename_i r
      have hsub : (s.files ++ s.closing.erase r).Sublist (s.files ++ s.closing) :=
        List.Sublist.append_left List.erase_sublist s.files
      have hgone : r ∉ s.files ++ s.closing.erase r := by
        obtain ⟨-, hclosing, hdisjoint⟩ := List.nodup_append.mp h.once
        rw [List.mem_append, hclosing.mem_erase_iff]
        rintro (hfile | ⟨hne, -⟩)
        · exact hdisjoint r hfile r hr rfl
        · exact hne rfl
      have hless : Counted { s with closing := s.closing.erase r } :=
        ⟨h.numbered, h.sound, fun x hx => h.owners x (hsub.subset hx), h.once.sublist hsub,
          fun q hq => ⟨(h.apart q hq).1, fun hmem => (h.apart q hq).2 (hsub.subset hmem)⟩⟩
      exact hless.letGo (h.owners r (List.mem_append_right _ hr)) hgone

/-! ## The counts -/

/-- The references to an instance: that of its owner and those of the active
requests on it. -/
def references (s : Sockets) (r : Nat) : Nat :=
  (if s.owned r then 1 else 0) +
    (s.table.g.activeRequests.filter fun a => a.sockinst = r).length

/-- Every instance has the count of its references, is listed as long as it has
any, and is freed, once, when it has none. -/
structure RefsCounted (s : Sockets) : Prop where
  refct : ∀ r < s.table.nextSock, (s.sock r).refct = s.references r
  listed : ∀ r < s.table.nextSock, (r ∈ s.table.sockinsts ↔ 0 < s.references r)
  freed : ∀ r < s.table.nextSock, (r ∈ s.table.freed ↔ s.references r = 0)
  once : s.table.freed.Nodup

theorem refs_eq (s : Sockets) (r : Nat) : (s.table.refCount s.owned).refs r = s.references r := by
  rw [Table.refs_def, references, Table.held, Globals.holds, List.countP_map,
    List.countP_eq_length_filter]
  rfl

theorem Counted.refsCounted {s : Sockets} (h : Counted s) : RefsCounted s where
  refct r hr := by
    rw [← refs_eq]
    exact h.sound.agree r hr
  listed r hr := by
    rw [← refs_eq]
    exact (h.sound.live r).trans (and_iff_right hr)
  freed r hr := by
    rw [← refs_eq]
    exact (h.sound.freed r).trans (and_iff_right hr)
  once := h.sound.once

theorem counted_init (counter : MtId) : Counted (sockets counter).init where
  numbered := ⟨List.nodup_nil, fun _ h => absurd h List.not_mem_nil⟩
  sound :=
    { agree := fun x hx => absurd hx (Nat.not_lt_zero x)
      live := fun x => ⟨fun h => absurd h List.not_mem_nil, fun h => absurd h.1 (Nat.not_lt_zero x)⟩
      freed := fun x => ⟨fun h => absurd h List.not_mem_nil, fun h => absurd h.1 (Nat.not_lt_zero x)⟩
      once := List.nodup_nil
      stray := fun _ _ => rfl }
  owners _ h := absurd h List.not_mem_nil
  once := List.nodup_nil
  apart q h := by
    rcases h with h | ⟨p, h⟩
    · exact absurd h List.not_mem_nil
    · exact absurd h List.not_mem_nil

end Sockets

/-- In every state of a run in which each owner lets go once, the counts are
right, and an instance is freed exactly when its last reference goes. -/
theorem references_counted (counter : MtId) (es : List SocketEvent)
    (hG : (sockets counter).Guarded Sockets.KeepsOwners es) (s : Sockets)
    (hrun : (sockets counter).run es = some s) : s.RefsCounted := by
  have h : s.Counted :=
    (sockets counter).guarded_invariant (Sockets.counted_init counter)
      (fun _ _ _ hG hs h => Sockets.counted_step hG hs h) hG hrun
  exact h.refsCounted

/-- A user socket, a sibling for it that accepts, and the close of both; the
accept is destroyed last. -/
def listenAndClose : List SocketEvent :=
  [.insFound insZero 5, .insReady insZero, .create true, .user 0, .replica, .join 0 1,
   .request 1 false true { type := .socketAccept, size := mtRequestBaseSize + 4 },
   .send 0 (.granted 0) false, .replicated 0 1 false, .release 0, .releaseSibling 0 1,
   .releaseSelf 0, .destroy 0]

theorem references_counted_listenAndClose :
    ∃ s, (sockets 0).run listenAndClose = some s ∧ s.table.freed = [0, 1] ∧ s.RefsCounted := by
  have hG : (sockets 0).Guarded Sockets.KeepsOwners listenAndClose := by decide +kernel
  have hview : ((sockets 0).run listenAndClose).map (fun s => s.table.freed) = some [0, 1] := by
    decide +kernel
  obtain ⟨s, hs, hfreed⟩ := Option.map_eq_some_iff.mp hview
  exact ⟨s, hs, hfreed, references_counted 0 listenAndClose hG s hs⟩

/-- A user socket on INS 5 for which the replicator cannot create the active
request of an accept. -/
def acceptRefused : List SocketEvent :=
  [.insFound insZero 5, .insReady insZero, .create true,
   .request 0 false true { type := .socketCreate, size := mtRequestBaseSize + 12 },
   .send 0 (.granted 0) false,
   .respond 0 { sig := mtSignatureResponse, sockfd := mwSocketCreate 5 1 }, .destroy 0,
   .user 0, .replicated 0 0 true]

/-- The error exit of the replicator frees the socket, whose file is open. -/
theorem acceptRefused_freed :
    ∃ s, (sockets 0).run acceptRefused = some s ∧ 0 ∈ s.files ∧ 0 ∈ s.table.freed ∧
      ¬ s.RefsCounted := by
  have hview : ((sockets 0).run acceptRefused).map
      (fun s => (s.files, s.table.freed, s.references 0, s.table.nextSock)) =
        some ([0], [0], 1, 1) := by
    decide +kernel
  obtain ⟨s, hs, heq⟩ := Option.map_eq_some_iff.mp hview
  simp only [Prod.mk.injEq] at heq
  obtain ⟨hfiles, hfreed, hrefs, hnext⟩ := heq
  refine ⟨s, hs, by simp [hfiles], by simp [hfreed], fun h => ?_⟩
  have hzero := (h.freed 0 (by omega)).mp (by simp [hfreed])
  omega

end MagicWand.Kernel
