import MagicWand.Kernel.Replicator

/-!
# The propagation of the listeners

After `mwsocket_propogate_listeners` every listening user socket is bound,
listening and accepting on every INS, whatever its instances there were before.
The flags of an instance tell what it still needs; each step of the replicator
changes one instance (`Changes`), and takes it forward (`Advance`). What is done
for one user socket and one INS stays done (`Grows`), so it is done for all of
them at the end, and there is nothing left to do for a second run.
-/

namespace MagicWand.Kernel

open Foundation

namespace Table

/-! ## The instances of a user socket -/

/-- The user socket and its siblings. -/
def instances (t : Table) (u : Nat) : List Nat := u :: t.siblings u

def isUser (t : Table) (u : Nat) : Prop :=
  u ∈ t.sockinsts ∧ (t.sock u).mwflags.has MwFlags.user = true

def onIns (t : Table) (domid : BitVec 16) (c : Nat) : Bool :=
  decide (mwSocketClientId (t.sock c).remoteFd = domid)

/-- The number of unanswered accepts of an instance. -/
def accepts (t : Table) (c : Nat) : Nat :=
  t.g.activeRequests.countP fun a => decide (a.sockinst = c) && isAccept a

/-- The flags that the replicator sets. -/
def stages : List MwFlags := [MwFlags.bound, MwFlags.listening, MwFlags.accept]

/-- An instance that is bound, listening and accepting. -/
def Full (t : Table) (c : Nat) : Prop := ∀ m ∈ stages, (t.sock c).mwflags.has m = true

/-- The tables on which a propagation starts: active requests and lists are in
order, the user sockets have no defer-accept option, each has one instance at
most on an INS, which is alive, and the instances with the accept flag are those
with an unanswered accept, which is one. -/
structure Replicable (live : List (BitVec 16)) (t : Table) : Prop where
  numbered : t.g.Numbered
  below : ∀ c ∈ t.sockinsts, c < t.nextSock
  known : ∀ u, t.isUser u → ∀ c ∈ t.siblings u, c ∈ t.sockinsts
  plain : ∀ u, t.isUser u → ∀ c ∈ t.siblings u, (t.sock c).mwflags.has MwFlags.user = false
  apart : ∀ u u' c, t.isUser u → t.isUser u' → c ∈ t.siblings u → c ∈ t.siblings u' → u = u'
  held : ∀ c ∈ t.sockinsts, 0 < (t.sock c).refct
  alive : ∀ u, t.isUser u → ∀ c ∈ t.instances u, mwSocketClientId (t.sock c).remoteFd ∈ live →
    (t.sock c).insAlive = true
  single : ∀ u, t.isUser u → ∀ d ∈ live, ((t.instances u).filter (t.onIns d)).length ≤ 1
  accepting : ∀ u, t.isUser u → ∀ c ∈ t.instances u,
    t.accepts c = if (t.sock c).mwflags.has MwFlags.accept then 1 else 0
  undeferred : ∀ u, t.isUser u → (t.sock u).deferAccept = 0
  requests : ∀ a ∈ t.g.activeRequests, a.sockinst ∈ t.sockinsts

/-- What makes a user socket listen, and what its siblings are made of. -/
def listener (t : Table) (u : Nat) : Bool × Bool × MtSockaddrIn × Int :=
  ((t.sock u).mwflags.has MwFlags.bound, (t.sock u).mwflags.has MwFlags.listening,
    (t.sock u).bindSockaddr, (t.sock u).backlog)

/-- Instances are added, and get further; the user sockets are the same. -/
structure Grows (t t' : Table) : Prop where
  sockinsts : ∀ c ∈ t.sockinsts, c ∈ t'.sockinsts
  users : ∀ u, t'.isUser u ↔ t.isUser u
  siblings : ∀ u, t.isUser u → ∀ c ∈ t.siblings u, c ∈ t'.siblings u
  remoteFd : ∀ u, t.isUser u → ∀ c ∈ t.instances u, (t'.sock c).remoteFd = (t.sock c).remoteFd
  flags : ∀ c ∈ t.sockinsts, ∀ m ∈ stages, (t.sock c).mwflags.has m = true →
    (t'.sock c).mwflags.has m = true
  listener : ∀ u, t.isUser u → t'.listener u = t.listener u

namespace Grows

variable {t t' t'' : Table}

theorem refl (t : Table) : Grows t t where
  sockinsts _ h := h
  users _ := Iff.rfl
  siblings _ _ _ h := h
  remoteFd _ _ _ _ := rfl
  flags _ _ _ _ h := h
  listener _ _ := rfl

theorem instances (h : Grows t t') {u : Nat} (hu : t.isUser u) {c : Nat} (hc : c ∈ t.instances u) :
    c ∈ t'.instances u := by
  rcases List.mem_cons.mp hc with rfl | hc
  · exact List.mem_cons_self
  · exact List.mem_cons_of_mem _ (h.siblings u hu c hc)

theorem trans (h : Grows t t') (h' : Grows t' t'') : Grows t t'' where
  sockinsts c hc := h'.sockinsts c (h.sockinsts c hc)
  users u := (h'.users u).trans (h.users u)
  siblings u hu c hc := h'.siblings u ((h.users u).mpr hu) c (h.siblings u hu c hc)
  remoteFd u hu c hc :=
    (h'.remoteFd u ((h.users u).mpr hu) c (h.instances hu hc)).trans (h.remoteFd u hu c hc)
  flags c hc m hm hset := h'.flags c (h.sockinsts c hc) m hm (h.flags c hc m hm hset)
  listener u hu := (h'.listener u ((h.users u).mpr hu)).trans (h.listener u hu)

end Grows

namespace Replicable

variable {live : List (BitVec 16)} {t : Table}

theorem mem_instances (h : Replicable live t) {u c : Nat} (hu : t.isUser u)
    (hc : c ∈ t.instances u) : c ∈ t.sockinsts := by
  rcases List.mem_cons.mp hc with rfl | hc
  · exact hu.1
  · exact h.known u hu c hc

/-- An instance belongs to one user socket. -/
theorem owner (h : Replicable live t) {u u' c : Nat} (hu : t.isUser u) (hu' : t.isUser u')
    (hc : c ∈ t.instances u) (hc' : c ∈ t.instances u') : u = u' := by
  rcases List.mem_cons.mp hc with rfl | hc
  · rcases List.mem_cons.mp hc' with rfl | hc'
    · rfl
    · have hplain := h.plain u' hu' c hc'
      rw [hu.2] at hplain
      cases hplain
  · rcases List.mem_cons.mp hc' with rfl | hc'
    · have hplain := h.plain u hu c hc
      rw [hu'.2] at hplain
      cases hplain
    · exact h.apart u u' c hu hu' hc hc'

end Replicable

/-! ## A change of one instance -/

/-- Instance `q`, and the active requests of it, change from `t` to `t'`. -/
structure Changes (t : Table) (q : Nat) (t' : Table) : Prop where
  lists : t' = { t with g := t'.g }
  numbered : t'.g.Numbered
  requests : ∀ a ∈ t'.g.activeRequests, a ∈ t.g.activeRequests ∨ a.sockinst = q
  accepts : ∀ c, c ≠ q → t'.accepts c = t.accepts c
  accepting : t'.accepts q = if (t'.sock q).mwflags.has MwFlags.accept then 1 else 0
  others : ∀ c, c ≠ q → t'.sock c = t.sock c
  user : (t'.sock q).mwflags.has MwFlags.user = (t.sock q).mwflags.has MwFlags.user
  flags : ∀ m ∈ stages, (t.sock q).mwflags.has m = true → (t'.sock q).mwflags.has m = true
  remoteFd : (t'.sock q).remoteFd = (t.sock q).remoteFd ∨ ∀ u, t.isUser u → q ∉ t.instances u
  held : 0 < (t'.sock q).refct
  alive : (t'.sock q).insAlive = true
  undeferred : t.isUser q → (t'.sock q).deferAccept = 0
  listener : t.isUser q → t'.listener q = t.listener q

namespace Changes

variable {live : List (BitVec 16)} {t t' : Table} {q : Nat}

theorem sockinsts (h : Changes t q t') : t'.sockinsts = t.sockinsts := by rw [h.lists]

theorem siblings (h : Changes t q t') : t'.siblings = t.siblings := by rw [h.lists]

theorem nextSock (h : Changes t q t') : t'.nextSock = t.nextSock := by rw [h.lists]

theorem instances (h : Changes t q t') (u : Nat) : t'.instances u = t.instances u := by
  rw [Table.instances, Table.instances, h.siblings]

/-- Whatever the change keeps of instance `q`, it keeps of all of them. -/
theorem same {α : Type} {F : SockInst → α} (h : Changes t q t') (hq : F (t'.sock q) = F (t.sock q))
    (c : Nat) : F (t'.sock c) = F (t.sock c) := by
  by_cases hc : c = q
  · rw [hc]
    exact hq
  · rw [h.others c hc]

theorem isUser (h : Changes t q t') (u : Nat) : t'.isUser u ↔ t.isUser u := by
  rw [Table.isUser, Table.isUser, h.sockinsts, h.same (F := fun k => k.mwflags.has MwFlags.user) h.user]

theorem remoteFd_eq (h : Changes t q t') {u c : Nat} (hu : t.isUser u) (hc : c ∈ t.instances u) :
    (t'.sock c).remoteFd = (t.sock c).remoteFd := by
  rcases h.remoteFd with hfd | hnone
  · exact h.same hfd c
  · rw [h.others c fun heq => hnone u hu (heq ▸ hc)]

theorem grows (h : Changes t q t') : Grows t t' where
  sockinsts c hc := by
    rw [h.sockinsts]
    exact hc
  users := h.isUser
  siblings u _ c hc := by
    rw [h.siblings]
    exact hc
  remoteFd u hu c hc := h.remoteFd_eq hu hc
  flags c _ m hm hset := by
    by_cases hc : c = q
    · rw [hc] at hset ⊢
      exact h.flags m hm hset
    · rw [h.others c hc]
      exact hset
  listener u hu := by
    by_cases hq : u = q
    · rw [hq] at hu ⊢
      exact h.listener hu
    · rw [Table.listener, h.others u hq]
      rfl

theorem replicable (h : Changes t q t') (hrep : Replicable live t) (hq : q ∈ t.sockinsts) :
    Replicable live t' where
  numbered := h.numbered
  below c hc := by
    rw [h.sockinsts] at hc
    rw [h.nextSock]
    exact hrep.below c hc
  known u hu c hc := by
    rw [h.siblings] at hc
    rw [h.sockinsts]
    exact hrep.known u ((h.isUser u).mp hu) c hc
  plain u hu c hc := by
    rw [h.siblings] at hc
    rw [h.same (F := fun k => k.mwflags.has MwFlags.user) h.user]
    exact hrep.plain u ((h.isUser u).mp hu) c hc
  apart u u' c hu hu' hc hc' := by
    rw [h.siblings] at hc hc'
    exact hrep.apart u u' c ((h.isUser u).mp hu) ((h.isUser u').mp hu') hc hc'
  held c hc := by
    rw [h.sockinsts] at hc
    by_cases heq : c = q
    · rw [heq]
      exact h.held
    · rw [h.others c heq]
      exact hrep.held c hc
  alive u hu c hc hlive := by
    rw [h.instances] at hc
    by_cases heq : c = q
    · rw [heq]
      exact h.alive
    · rw [h.others c heq] at hlive ⊢
      exact hrep.alive u ((h.isUser u).mp hu) c hc hlive
  single u hu d hd := by
    have hu' := (h.isUser u).mp hu
    have hsame : (t'.instances u).filter (t'.onIns d) = (t.instances u).filter (t.onIns d) := by
      rw [h.instances]
      exact List.filter_congr fun c hc => by rw [onIns, onIns, h.remoteFd_eq hu' hc]
    rw [hsame]
    exact hrep.single u hu' d hd
  accepting u hu c hc := by
    rw [h.instances] at hc
    by_cases heq : c = q
    · rw [heq]
      exact h.accepting
    · rw [h.accepts c heq, h.others c heq]
      exact hrep.accepting u ((h.isUser u).mp hu) c hc
  undeferred u hu := by
    have hu' := (h.isUser u).mp hu
    by_cases heq : u = q
    · rw [heq] at hu' ⊢
      exact h.undeferred hu'
    · rw [h.others u heq]
      exact hrep.undeferred u hu'
  requests a ha := by
    rw [h.sockinsts]
    rcases h.requests a ha with hold | hnew
    · exact hrep.requests a hold
    · rw [hnew]
      exact hq

end Changes

/-! ## A new instance -/

section New

variable {live : List (BitVec 16)} {t : Table}

/-- The new instance, which belongs to no user socket yet. -/
structure Orphan (t : Table) (q : Nat) : Prop where
  mem : q ∈ t.sockinsts
  plain : (t.sock q).mwflags.has MwFlags.user = false
  alive : (t.sock q).insAlive = true
  accepting : t.accepts q = if (t.sock q).mwflags.has MwFlags.accept then 1 else 0
  alone : ∀ u, t.isUser u → q ∉ t.instances u

theorem createSockinst_eq (t : Table) : t.mwsocketCreateSockinst true =
    { t with
      g := { t.g with
        socks := Function.update t.g.socks t.nextSock
          { usersock := t.nextSock, mwflags := MwFlags.pollable }
        pollSockCount := t.g.pollSockCount + 1 }
      sockinsts := t.nextSock :: t.sockinsts
      nextSock := t.nextSock + 1 } := by
  have hnew : (Function.update t.g.socks t.nextSock { usersock := t.nextSock } : Nat → SockInst)
      t.nextSock = { usersock := t.nextSock } := Function.update_self ..
  have hflag : (0 : MwFlags).has MwFlags.pollable = false := by decide
  simp only [mwsocketCreateSockinst, modifySock, Globals.modifySock, setPollable, Table.sock, hnew,
    hflag, Function.update_idem]
  rfl

theorem sock_createSockinst (t : Table) (c : Nat) : (t.mwsocketCreateSockinst true).sock c =
    if c = t.nextSock then { usersock := t.nextSock, mwflags := MwFlags.pollable } else t.sock c := by
  rw [createSockinst_eq]
  exact Function.update_apply ..

theorem orphan_create (hrep : Replicable live t) :
    Replicable live (t.mwsocketCreateSockinst true) ∧ Grows t (t.mwsocketCreateSockinst true) ∧
      Orphan (t.mwsocketCreateSockinst true) t.nextSock := by
  generalize ht' : t.mwsocketCreateSockinst true = t'
  have hfresh : ∀ c ∈ t.sockinsts, c ≠ t.nextSock := fun c hc => Nat.ne_of_lt (hrep.below c hc)
  have hself : t'.sock t.nextSock = { usersock := t.nextSock, mwflags := MwFlags.pollable } := by
    rw [← ht', sock_createSockinst, if_pos rfl]
  have hold : ∀ c ∈ t.sockinsts, t'.sock c = t.sock c := by
    intro c hc
    rw [← ht', sock_createSockinst, if_neg (hfresh c hc)]
  have hmem : t'.sockinsts = t.nextSock :: t.sockinsts := by rw [← ht', createSockinst_eq]
  have hsib : t'.siblings = t.siblings := by rw [← ht', createSockinst_eq]
  have hreqs : t'.g.activeRequests = t.g.activeRequests := by rw [← ht', createSockinst_eq]
  have hnext : t'.nextSock = t.nextSock + 1 := by rw [← ht', createSockinst_eq]
  have hnumbered : t'.g.Numbered := by
    have hn := hrep.numbered
    rw [← ht', createSockinst_eq]
    exact ⟨hn.refs, hn.ids, hn.set, hn.below⟩
  have hplain : (t'.sock t.nextSock).mwflags.has MwFlags.user = false := by
    rw [hself]
    exact (by decide : MwFlags.pollable.has MwFlags.user = false)
  have husers (u : Nat) : t'.isUser u ↔ t.isUser u := by
    constructor
    · rintro ⟨hu, hflag⟩
      rw [hmem] at hu
      rcases List.mem_cons.mp hu with rfl | hu
      · rw [hplain] at hflag
        cases hflag
      · rw [hold u hu] at hflag
        exact ⟨hu, hflag⟩
    · rintro ⟨hu, hflag⟩
      refine ⟨hmem ▸ List.mem_cons_of_mem _ hu, ?_⟩
      rw [hold u hu]
      exact hflag
  have hfamily : ∀ u, t.isUser u → ∀ c ∈ t.instances u, t'.sock c = t.sock c := fun u hu c hc =>
    hold c (hrep.mem_instances hu hc)
  have hinst (u : Nat) : t'.instances u = t.instances u := by
    rw [instances, instances, hsib]
  have haccepts (c : Nat) : t'.accepts c = t.accepts c := by rw [accepts, accepts, hreqs]
  refine ⟨⟨hnumbered, ?_, ?_, ?_, ?_, ?_, ?_, ?_, ?_, ?_, ?_⟩, ⟨?_, husers, ?_, ?_, ?_, ?_⟩,
    ⟨hmem ▸ List.mem_cons_self, hplain, ?_, ?_, ?_⟩⟩
  -- the table stays replicable: the new instance is in no family
  · intro c hc
    rw [hmem] at hc
    rw [hnext]
    rcases List.mem_cons.mp hc with rfl | hc
    · exact Nat.lt_succ_self _
    · exact Nat.lt_succ_of_lt (hrep.below c hc)
  · intro u hu c hc
    rw [hsib] at hc
    rw [hmem]
    exact List.mem_cons_of_mem _ (hrep.known u ((husers u).mp hu) c hc)
  · intro u hu c hc
    rw [hsib] at hc
    rw [hfamily u ((husers u).mp hu) c (List.mem_cons_of_mem _ hc)]
    exact hrep.plain u ((husers u).mp hu) c hc
  · intro u u' c hu hu' hc hc'
    rw [hsib] at hc hc'
    exact hrep.apart u u' c ((husers u).mp hu) ((husers u').mp hu') hc hc'
  · intro c hc
    rw [hmem] at hc
    rcases List.mem_cons.mp hc with rfl | hc
    · rw [hself]
      exact Int.one_pos
    · rw [hold c hc]
      exact hrep.held c hc
  · intro u hu c hc hlive
    rw [hinst] at hc
    rw [hfamily u ((husers u).mp hu) c hc] at hlive ⊢
    exact hrep.alive u ((husers u).mp hu) c hc hlive
  · intro u hu d hd
    have hu' := (husers u).mp hu
    have hsame : (t'.instances u).filter (t'.onIns d) = (t.instances u).filter (t.onIns d) := by
      rw [hinst]
      exact List.filter_congr fun c hc => by rw [onIns, onIns, hfamily u hu' c hc]
    rw [hsame]
    exact hrep.single u hu' d hd
  · intro u hu c hc
    rw [hinst] at hc
    rw [haccepts, hfamily u ((husers u).mp hu) c hc]
    exact hrep.accepting u ((husers u).mp hu) c hc
  · intro u hu
    have hu' := (husers u).mp hu
    rw [hold u hu'.1]
    exact hrep.undeferred u hu'
  · intro a ha
    rw [hreqs] at ha
    rw [hmem]
    exact List.mem_cons_of_mem _ (hrep.requests a ha)
  -- nothing that was there is lost
  · intro c hc
    rw [hmem]
    exact List.mem_cons_of_mem _ hc
  · intro u _ c hc
    rw [hsib]
    exact hc
  · intro u hu c hc
    rw [hfamily u hu c hc]
  · intro c hc m _ hset
    rw [hold c hc]
    exact hset
  · intro u hu
    rw [Table.listener, hold u hu.1]
    rfl
  -- and the new instance belongs to nobody yet
  · rw [hself]
  · have hnone : t.accepts t.nextSock = 0 := by
      rw [accepts, List.countP_eq_zero]
      intro a ha hacc
      obtain ⟨hsock, -⟩ := Bool.and_eq_true_iff.mp hacc
      exact hfresh _ (hrep.requests a ha) (of_decide_eq_true hsock)
    have hfree : (t'.sock t.nextSock).mwflags.has MwFlags.accept = false := by
      rw [hself]
      exact (by decide : MwFlags.pollable.has MwFlags.accept = false)
    rw [haccepts, hnone, hfree]
    rfl
  · intro u hu hc
    rw [hinst] at hc
    exact hfresh _ (hrep.mem_instances ((husers u).mp hu) hc) rfl

/-- An instance becomes the sibling of a user socket that has none on its INS. -/
theorem orphan_join (hrep : Replicable live t) {p q : Nat} {d : BitVec 16} (hp : t.isUser p)
    (hq : Orphan t q) (hd : t.onIns d q = true) (hfree : (t.instances p).filter (t.onIns d) = []) :
    Replicable live (t.addSibling p q) ∧ Grows t (t.addSibling p q) := by
  generalize ht' : t.addSibling p q = t'
  have hsock (c : Nat) : t'.sock c =
      if c = q then { t.sock q with usersock := p } else t.sock c := by
    rw [← ht']
    exact Function.update_apply ..
  have hsame {α : Type} {F : SockInst → α} (hF : ∀ k, F { k with usersock := p } = F k) (c : Nat) :
      F (t'.sock c) = F (t.sock c) := by
    rw [hsock]
    split
    · rename_i hc
      rw [hF, hc]
    · rfl
  have hmem : t'.sockinsts = t.sockinsts := by rw [← ht']; rfl
  have hreqs : t'.g.activeRequests = t.g.activeRequests := by rw [← ht']; rfl
  have hself : t'.siblings p = q :: t.siblings p := by
    rw [← ht']
    exact Function.update_self ..
  have hother : ∀ u, u ≠ p → t'.siblings u = t.siblings u := by
    intro u hu
    rw [← ht']
    exact Function.update_of_ne hu _ _
  have husers (u : Nat) : t'.isUser u ↔ t.isUser u := by
    rw [isUser, isUser, hmem, hsame (F := fun k => k.mwflags.has MwFlags.user) fun _ => rfl]
  have hsib : ∀ u c, c ∈ t'.siblings u → (u = p ∧ c = q) ∨ c ∈ t.siblings u := by
    intro u c hc
    by_cases hu : u = p
    · rw [hu, hself] at hc
      rcases List.mem_cons.mp hc with rfl | hc
      · exact .inl ⟨hu, rfl⟩
      · exact .inr (hu ▸ hc)
    · rw [hother u hu] at hc
      exact .inr hc
  have hinst : ∀ u c, c ∈ t'.instances u → c = q ∨ c ∈ t.instances u := by
    intro u c hc
    rcases List.mem_cons.mp hc with rfl | hc
    · exact .inr List.mem_cons_self
    · exact (hsib u c hc).imp (fun h => h.2) fun h => List.mem_cons_of_mem _ h
  have honIns (d : BitVec 16) : t'.onIns d = t.onIns d := by
    funext c
    rw [onIns, onIns, hsame (F := SockInst.remoteFd) fun _ => rfl]
  have hn := hrep.numbered
  have hnumbered : t'.g.Numbered := by
    rw [← ht']
    exact ⟨hn.refs, hn.ids, hn.set, hn.below⟩
  have haccepts (c : Nat) : t'.accepts c = t.accepts c := by rw [accepts, accepts, hreqs]
  refine ⟨⟨hnumbered, ?_, ?_, ?_, ?_, ?_, ?_, ?_, ?_, ?_, ?_⟩, ⟨?_, husers, ?_, ?_, ?_, ?_⟩⟩
  · intro c hc
    rw [hmem] at hc
    rw [← ht']
    exact hrep.below c hc
  · intro u hu c hc
    rw [hmem]
    rcases hsib u c hc with ⟨-, rfl⟩ | hc
    · exact hq.mem
    · exact hrep.known u ((husers u).mp hu) c hc
  · intro u hu c hc
    rw [hsame (F := fun k => k.mwflags.has MwFlags.user) fun _ => rfl]
    rcases hsib u c hc with ⟨-, rfl⟩ | hc
    · exact hq.plain
    · exact hrep.plain u ((husers u).mp hu) c hc
  · -- `q` was in no family, so it is in that of `p` only
    intro u u' c hu hu' hc hc'
    have hno : ∀ u, t'.isUser u → q ∉ t.siblings u := fun u hu hc =>
      hq.alone u ((husers u).mp hu) (List.mem_cons_of_mem _ hc)
    rcases hsib u c hc with ⟨rfl, rfl⟩ | hold
    · rcases hsib u' c hc' with ⟨rfl, -⟩ | hold'
      · rfl
      · exact absurd hold' (hno u' hu')
    · rcases hsib u' c hc' with ⟨rfl, rfl⟩ | hold'
      · exact absurd hold (hno u hu)
      · exact hrep.apart u u' c ((husers u).mp hu) ((husers u').mp hu') hold hold'
  · intro c hc
    rw [hmem] at hc
    rw [hsame (F := SockInst.refct) fun _ => rfl]
    exact hrep.held c hc
  · intro u hu c hc hlive
    rw [hsame (F := SockInst.remoteFd) fun _ => rfl] at hlive
    rw [hsame (F := SockInst.insAlive) fun _ => rfl]
    rcases hinst u c hc with rfl | hc
    · exact hq.alive
    · exact hrep.alive u ((husers u).mp hu) c hc hlive
  · -- on its INS, where the family had no instance, `q` is the only one
    intro u hu d' hd'
    have hsingle := hrep.single u ((husers u).mp hu) d' hd'
    rw [honIns]
    by_cases heq : u = p
    · rw [heq] at hsingle ⊢
      rw [instances, hself]
      by_cases hon : t.onIns d' q = true
      · have hd' : d' = d := (of_decide_eq_true hon).symm.trans (of_decide_eq_true hd)
        have hnone := List.filter_eq_nil_iff.mp hfree
        have hsibs : (t.siblings p).filter (t.onIns d) = [] :=
          List.filter_eq_nil_iff.mpr fun c hc => hnone c (List.mem_cons_of_mem _ hc)
        rw [hd', List.filter_cons_of_neg (hnone p List.mem_cons_self), List.filter_cons_of_pos hd,
          hsibs]
        exact Nat.le_refl 1
      · have hskip : (p :: q :: t.siblings p).filter (t.onIns d') =
            (p :: t.siblings p).filter (t.onIns d') := by
          simp only [List.filter_cons, hon, Bool.false_eq_true, if_false]
        rw [hskip]
        exact hsingle
    · rw [instances, hother u heq]
      exact hsingle
  · intro u hu c hc
    rw [haccepts, hsame (F := fun k => k.mwflags.has MwFlags.accept) fun _ => rfl]
    rcases hinst u c hc with rfl | hc
    · exact hq.accepting
    · exact hrep.accepting u ((husers u).mp hu) c hc
  · intro u hu
    rw [hsame (F := SockInst.deferAccept) fun _ => rfl]
    exact hrep.undeferred u ((husers u).mp hu)
  · intro a ha
    rw [hreqs] at ha
    rw [hmem]
    exact hrep.requests a ha
  · intro c hc
    rw [hmem]
    exact hc
  · intro u _ c hc
    by_cases heq : u = p
    · rw [heq] at hc ⊢
      rw [hself]
      exact List.mem_cons_of_mem _ hc
    · rw [hother u heq]
      exact hc
  · intro u _ c _
    exact hsame (F := SockInst.remoteFd) (fun _ => rfl) c
  · intro c _ m _ hset
    rw [hsame (F := fun k => k.mwflags.has m) fun _ => rfl]
    exact hset
  · intro u _
    exact hsame (F := fun k => (k.mwflags.has MwFlags.bound, k.mwflags.has MwFlags.listening,
      k.bindSockaddr, k.backlog)) (fun _ => rfl) u

end New

end Table

/-! ## What the requests change -/

/-- The flag that the success of a request sets. -/
def stageFlag : MtRequestType → MwFlags
  | .socketBind => MwFlags.bound
  | .socketListen => MwFlags.listening
  | _ => 0

/-- A bind and a listen have the parameters that are recorded on the user socket. -/
def Given (t : Table) (u : Nat) (post : Posting) : Prop :=
  (post.request.type = .socketBind → post.request.sockaddr = (t.sock u).bindSockaddr) ∧
    (post.request.type = .socketListen → post.request.backlog = (t.sock u).backlog)

theorem Given.grows {t t' : Table} {u : Nat} {post : Posting} (h : Given t' u post)
    (hg : Table.Grows t t') (hu : t.isUser u) : Given t u post := by
  have hlistener := hg.listener u hu
  simp only [Table.listener, Prod.mk.injEq] at hlistener
  exact ⟨fun ht => (h.1 ht).trans hlistener.2.2.1, fun ht => (h.2 ht).trans hlistener.2.2.2⟩

namespace Stage

def type : Stage → MtRequestType
  | .bind => .socketBind
  | .listen => .socketListen
  | .attrib => .socketAttrib

variable {t : Table} {p q : Nat} {stage : Stage}

theorem request_some {req : MtRequest} (h : stage.request t p q = some req)
    (hstage : stage ≠ .attrib) : Plain req ∧ req.type = stage.type ∧ Given t p ⟨q, req⟩ ∧
      (t.sock p).mwflags.has (stageFlag stage.type) = true ∧
      (t.sock q).mwflags.has (stageFlag stage.type) = false := by
  cases stage with
  | bind =>
      rw [Stage.request] at h
      split at h
      · rename_i hcond
        obtain ⟨hp, hq⟩ := Bool.and_eq_true_iff.mp hcond
        cases h
        refine ⟨⟨.inr (.inl rfl), rfl,
          (by decide : mtRequestBaseSize ≤ mtRequestSocketBindSize), rfl⟩, rfl, ⟨fun _ => rfl, fun ht => ?_⟩, hp, ?_⟩
        · cases ht
        · exact Bool.not_eq_true' _ ▸ hq
      · cases h
  | listen =>
      rw [Stage.request] at h
      split at h
      · rename_i hcond
        obtain ⟨hp, hq⟩ := Bool.and_eq_true_iff.mp hcond
        cases h
        refine ⟨⟨.inr (.inr rfl), rfl,
          (by decide : mtRequestBaseSize ≤ mtRequestSocketListenSize), rfl⟩, rfl, ⟨fun ht => ?_, fun _ => rfl⟩, hp, ?_⟩
        · cases ht
        · exact Bool.not_eq_true' _ ▸ hq
      · cases h
  | attrib => exact absurd rfl hstage

theorem request_none (h : stage.request t p q = none) (hstage : stage ≠ .attrib)
    (hp : (t.sock p).mwflags.has (stageFlag stage.type) = true) :
    (t.sock q).mwflags.has (stageFlag stage.type) = true := by
  cases stage with
  | bind =>
      rw [Stage.request] at h
      split at h
      · cases h
      · rename_i hcond
        have hp' : (t.sock p).mwflags.has MwFlags.bound = true := hp
        rw [hp', Bool.true_and, Bool.not_eq_true', Bool.not_eq_false] at hcond
        exact hcond
  | listen =>
      rw [Stage.request] at h
      split at h
      · cases h
      · rename_i hcond
        have hp' : (t.sock p).mwflags.has MwFlags.listening = true := hp
        rw [hp', Bool.true_and, Bool.not_eq_true', Bool.not_eq_false] at hcond
        exact hcond
  | attrib => exact absurd rfl hstage

/-- A bind or a listen of an instance that is done already is not made. -/
theorem request_of_done (hstage : stage ≠ .attrib)
    (hq : (t.sock q).mwflags.has (stageFlag stage.type) = true) : stage.request t p q = none := by
  cases hreq : stage.request t p q with
  | none => rfl
  | some req =>
      have hnot := (request_some hreq hstage).2.2.2.2
      rw [hq] at hnot
      cases hnot

theorem request_undeferred (h : (t.sock p).deferAccept = 0) : Stage.attrib.request t p q = none := by
  rw [Stage.request, h, if_neg]
  rintro ⟨hpos, -⟩
  exact absurd hpos (by decide)

end Stage

namespace Profile

variable (k : Profile) (req : MtRequest) (fd : MwSocketFd)

theorem serve_mwflags : (k.serve req fd).mwflags = k.mwflags ||| stageFlag req.type := by
  rw [serve]
  cases req.type
  all_goals first | rfl | exact BitVec.or_zero.symm

theorem serve_kept : (k.serve req fd).insAlive = k.insAlive ∧ (k.serve req fd).refct = k.refct ∧
    (k.serve req fd).deferAccept = k.deferAccept := by
  rw [serve]
  split
  · exact ⟨rfl, rfl, rfl⟩
  · exact ⟨rfl, rfl, rfl⟩
  · exact ⟨rfl, rfl, rfl⟩
  · exact ⟨rfl, rfl, rfl⟩

theorem serve_remoteFd (h : req.type ≠ .socketCreate) : (k.serve req fd).remoteFd = k.remoteFd := by
  rw [serve]
  split
  · rename_i ht
    exact absurd ht h
  · rfl
  · rfl
  · rfl

end Profile

namespace Replication

open Table

variable {live : List (BitVec 16)} {s s' : Replication} {p q : Nat} {req : MtRequest}

/-- No request sets the flags that tell of users and accepts. -/
theorem has_serve (k : Profile) (req : MtRequest) (fd : MwSocketFd) {m : MwFlags}
    (hm : m = MwFlags.user ∨ m = MwFlags.accept) :
    (k.serve req fd).mwflags.has m = k.mwflags.has m := by
  have hflag : (stageFlag req.type).has m = false := by
    unfold stageFlag
    rcases hm with rfl | rfl
    · split <;> decide
    · split <;> decide
  rw [Profile.serve_mwflags, MwFlags.has_or, hflag, Bool.or_false]

theorem Served.changes (h : Served s q req s') (hrep : Replicable live s.table)
    (hq : q ∈ s.table.sockinsts) (halive : (s.table.sock q).insAlive = true)
    (hplain : (s.table.sock q).mwflags.has MwFlags.user = false)
    (hacc : s.table.accepts q = if (s.table.sock q).mwflags.has MwFlags.accept then 1 else 0)
    (hcreate : req.type = .socketCreate → ∀ u, s.table.isUser u → q ∉ s.table.instances u) :
    Changes s.table q s'.table := by
  obtain ⟨fd, hself, -⟩ := h.self
  have hflags : (s'.table.sock q).mwflags = ((s.table.sock q).profile.serve req fd).mwflags :=
    congrArg Profile.mwflags hself
  have hkept := Profile.serve_kept (s.table.sock q).profile req fd
  have hnone : ¬ s.table.isUser q := fun hu => by
    have := hu.2
    rw [hplain] at this
    cases this
  have haccepts (c : Nat) : s'.table.accepts c = s.table.accepts c := by
    rw [accepts, accepts, h.requests]
  have hkinds : s'.table.g.kinds = s.table.g.kinds := by
    rw [Globals.kinds, Globals.kinds, h.requests]
  refine ⟨h.lists, ?_, ?_, fun c _ => haccepts c, ?_, h.others, ?_, ?_, ?_, ?_, ?_,
    fun hu => absurd hu hnone, fun hu => absurd hu hnone⟩
  · have hn := hrep.numbered
    refine ⟨hkinds ▸ hn.refs, hkinds ▸ hn.ids, hkinds ▸ hn.set, fun k hk => ?_⟩
    rw [hkinds] at hk
    rw [h.nextRef]
    exact Nat.lt_succ_of_lt (hn.below k hk)
  · intro a ha
    rw [h.requests] at ha
    exact .inl ha
  · rw [haccepts, hflags, has_serve _ _ _ (.inr rfl)]
    exact hacc
  · rw [hflags]
    exact has_serve _ _ _ (.inl rfl)
  · intro m _ hset
    rw [hflags, Profile.serve_mwflags, MwFlags.has_or, Bool.or_eq_true]
    exact .inl hset
  · by_cases hc : req.type = .socketCreate
    · exact .inr (hcreate hc)
    · have hfd : (s'.table.sock q).remoteFd = ((s.table.sock q).profile.serve req fd).remoteFd :=
        congrArg Profile.remoteFd hself
      rw [hfd, Profile.serve_remoteFd _ _ _ hc]
      exact .inl rfl
  · have hcount : (s'.table.sock q).refct = ((s.table.sock q).profile.serve req fd).refct :=
      congrArg Profile.refct hself
    rw [hcount, hkept.2.1]
    exact hrep.held q hq
  · have hins : (s'.table.sock q).insAlive = ((s.table.sock q).profile.serve req fd).insAlive :=
      congrArg Profile.insAlive hself
    rw [hins, hkept.1]
    exact halive

theorem Accepting.changes (h : Accepting s p q s') (hrep : Replicable live s.table)
    (hp : s.table.isUser p) (hq : q ∈ s.table.instances p)
    (halive : (s.table.sock q).insAlive = true)
    (hfree : (s.table.sock q).mwflags.has MwFlags.accept = false) :
    Changes s.table q s'.table := by
  have hmem := hrep.mem_instances hp hq
  have hflags : (s'.table.sock q).mwflags = (s.table.sock q).mwflags ||| MwFlags.accept :=
    congrArg Profile.mwflags h.self
  have hhas (m : MwFlags) (hm : MwFlags.accept.has m = false) :
      (s'.table.sock q).mwflags.has m = (s.table.sock q).mwflags.has m := by
    rw [hflags, MwFlags.has_or, hm, Bool.or_false]
  obtain ⟨b, hreqs, hsock, htype, hfresh⟩ := h.requests
  have hb : isAccept b = true := by
    rw [isAccept, htype, hfresh]
    rfl
  have haccepts (c : Nat) : s'.table.accepts c =
      s.table.accepts c + if c = q then 1 else 0 := by
    rw [accepts, accepts, hreqs, List.countP_cons, hb, hsock]
    by_cases hc : c = q
    · simp [hc]
    · simp [hc, Ne.symm hc]
  refine ⟨h.lists, h.numbered, ?_, ?_, ?_, h.others, hhas _ (by decide), ?_, ?_, ?_, ?_, ?_, ?_⟩
  · intro a ha
    rw [hreqs] at ha
    rcases List.mem_cons.mp ha with rfl | hold
    · exact .inr hsock
    · exact .inl hold
  · intro c hc
    rw [haccepts, if_neg hc]
    rfl
  · have hzero : s.table.accepts q = 0 := by
      rw [hrep.accepting p hp q hq, hfree]
      rfl
    have hset : (s'.table.sock q).mwflags.has MwFlags.accept = true := by
      rw [hflags, MwFlags.has_or, Bool.or_eq_true]
      exact .inr (by decide)
    rw [haccepts, hset, hzero, if_pos rfl, if_pos rfl]
  · intro m _ hset
    rw [hflags, MwFlags.has_or, Bool.or_eq_true]
    exact .inl hset
  · exact .inl (congrArg Profile.remoteFd h.self)
  · have hcount : (s'.table.sock q).refct = (s.table.sock q).refct + 1 :=
      congrArg Profile.refct h.self
    have := hrep.held q hmem
    omega
  · have hins : (s'.table.sock q).insAlive = (s.table.sock q).insAlive :=
      congrArg Profile.insAlive h.self
    rw [hins]
    exact halive
  · intro _
    have hdefer : (s'.table.sock q).deferAccept = (s.table.sock p).deferAccept :=
      congrArg Profile.deferAccept h.self
    rw [hdefer]
    exact hrep.undeferred p hp
  · intro _
    have haddr : (s'.table.sock q).bindSockaddr = (s.table.sock q).bindSockaddr :=
      congrArg Profile.bindSockaddr h.self
    have hlog : (s'.table.sock q).backlog = (s.table.sock q).backlog :=
      congrArg Profile.backlog h.self
    rw [Table.listener, Table.listener, haddr, hlog, hhas _ (by decide), hhas _ (by decide)]

/-! ## One instance -/

/-- The replicator goes on with instance `q` of user socket `p`, and makes
requests of these types. -/
structure Advance (live : List (BitVec 16)) (p q : Nat) (types : List MtRequestType)
    (s s' : Replication) : Prop where
  replicable : Replicable live s'.table
  grows : Grows s.table s'.table
  length : s'.table.g.activeRequests.length ≤
    s.table.g.activeRequests.length + types.count .socketAccept
  posted : ∃ new, s'.posted = s.posted ++ new ∧ (new.map fun post => post.request.type) = types ∧
    ∀ post ∈ new, post.sock = q ∧ Given s.table p post

namespace Advance

variable {s'' : Replication} {types types' : List MtRequestType}

theorem refl (hrep : Replicable live s.table) (p q : Nat) : Advance live p q [] s s :=
  ⟨hrep, Grows.refl _, Nat.le_refl _, [], (List.append_nil _).symm, rfl, by simp⟩

theorem trans (h : Advance live p q types s s') (h' : Advance live p q types' s' s'')
    (hp : s.table.isUser p) : Advance live p q (types ++ types') s s'' := by
  obtain ⟨new, hposted, htypes, hnew⟩ := h.posted
  obtain ⟨new', hposted', htypes', hnew'⟩ := h'.posted
  refine ⟨h'.replicable, h.grows.trans h'.grows, ?_, new ++ new', ?_, ?_, fun post hpost => ?_⟩
  · have := h.length
    have := h'.length
    rw [List.count_append]
    omega
  · rw [hposted', hposted, List.append_assoc]
  · rw [List.map_append, htypes, htypes']
  · rcases List.mem_append.mp hpost with hpost | hpost
    · exact hnew post hpost
    · exact ⟨(hnew' post hpost).1, (hnew' post hpost).2.grows h.grows hp⟩

end Advance

theorem advance_served (h : Served s q req s') (hrep : Replicable live s.table)
    (hq : q ∈ s.table.sockinsts) (halive : (s.table.sock q).insAlive = true)
    (hplain : (s.table.sock q).mwflags.has MwFlags.user = false)
    (hacc : s.table.accepts q = if (s.table.sock q).mwflags.has MwFlags.accept then 1 else 0)
    (hcreate : req.type = .socketCreate → ∀ u, s.table.isUser u → q ∉ s.table.instances u)
    (hgiven : Given s.table p ⟨q, req⟩) : Advance live p q [req.type] s s' := by
  have hch := h.changes hrep hq halive hplain hacc hcreate
  obtain ⟨id, fd, hposted⟩ := h.posted
  refine ⟨hch.replicable hrep hq, hch.grows, ?_, _, hposted, rfl, fun post hpost => ?_⟩
  · rw [h.requests]
    exact Nat.le_add_right _ _
  cases List.mem_singleton.mp hpost
  exact ⟨rfl, hgiven⟩

theorem advance_accepting (h : Accepting s p q s') (hrep : Replicable live s.table)
    (hp : s.table.isUser p) (hq : q ∈ s.table.instances p)
    (halive : (s.table.sock q).insAlive = true)
    (hfree : (s.table.sock q).mwflags.has MwFlags.accept = false) :
    Advance live p q [.socketAccept] s s' := by
  have hch := h.changes hrep hp hq halive hfree
  obtain ⟨req, hposted, htype⟩ := h.posted
  refine ⟨hch.replicable hrep (hrep.mem_instances hp hq), hch.grows, ?_, _, hposted, ?_,
    fun post hpost => ?_⟩
  · obtain ⟨b, hreqs, -⟩ := h.requests
    rw [hreqs]
    exact Nat.le_refl _
  · rw [List.map_singleton, htype]
  · cases List.mem_singleton.mp hpost
    refine ⟨rfl, fun ht => ?_, fun ht => ?_⟩
    · rw [htype] at ht
      cases ht
    · rw [htype] at ht
      cases ht

/-! ## The stages -/

section Stages

variable {ins : Answers} {d : BitVec 16} {rc : Int}

/-- Where the replicator works: at an instance of a listening user socket on a
live INS. -/
structure At (live : List (BitVec 16)) (s : Replication) (p q : Nat) (d : BitVec 16) : Prop where
  replicable : Replicable live s.table
  user : s.table.isUser p
  bound : (s.table.sock p).mwflags.has MwFlags.bound = true
  listening : (s.table.sock p).mwflags.has MwFlags.listening = true
  mem : q ∈ s.table.instances p
  on : s.table.onIns d q = true
  live : d ∈ live

namespace At

theorem step {types : List MtRequestType} (h : At live s p q d)
    (hadv : Advance live p q types s s') : At live s' p q d := by
  have hlistener := hadv.grows.listener p h.user
  simp only [Table.listener, Prod.mk.injEq] at hlistener
  refine ⟨hadv.replicable, (hadv.grows.users p).mpr h.user, hlistener.1.trans h.bound,
    hlistener.2.1.trans h.listening, hadv.grows.instances h.user h.mem, ?_, h.live⟩
  rw [onIns, hadv.grows.remoteFd p h.user q h.mem]
  exact h.on

theorem known (h : At live s p q d) : q ∈ s.table.sockinsts :=
  h.replicable.mem_instances h.user h.mem

theorem alive (h : At live s p q d) : (s.table.sock q).insAlive = true := by
  refine h.replicable.alive p h.user q h.mem ?_
  rw [of_decide_eq_true h.on]
  exact h.live

/-- An instance that is not done is a sibling. -/
theorem plain (h : At live s p q d) {m : MwFlags} (hp : (s.table.sock p).mwflags.has m = true)
    (hq : (s.table.sock q).mwflags.has m = false) :
    (s.table.sock q).mwflags.has MwFlags.user = false := by
  rcases List.mem_cons.mp h.mem with heq | hsib
  · rw [heq, hp] at hq
    cases hq
  · exact h.replicable.plain p h.user q hsib

end At

/-- What a stage does: nothing if it is done already, or it makes its request. -/
inductive StageDone (live : List (BitVec 16)) (p q : Nat) (type : MtRequestType)
    (m : MwFlags) (s : Replication) : Replication → List MtRequestType → Prop where
  | already (hset : (s.table.sock q).mwflags.has m = true) : StageDone live p q type m s s []
  | made {s' : Replication} (hclear : (s.table.sock q).mwflags.has m = false)
      (hadv : Advance live p q [type] s s') (hset : (s'.table.sock q).mwflags.has m = true) :
      StageDone live p q type m s s' [type]

theorem At.flagged (h : At live s p q d) {stage : Stage} (hstage : stage ≠ .attrib) :
    (s.table.sock p).mwflags.has (stageFlag stage.type) = true := by
  cases stage with
  | bind => exact h.bound
  | listen => exact h.listening
  | attrib => exact absurd rfl hstage

theorem stage_sent (hins : ins.Good) (h : At live s p q d) {stage : Stage} {s₁ : Replication}
    (hstage : stage ≠ .attrib) (hreq : stage.request s.table p q = some req)
    (hsend : mwsocketSendMessage ins s q req = some (s₁, rc)) :
    rc = 0 ∧ StageDone live p q stage.type (stageFlag stage.type) s s₁ [stage.type] := by
  obtain ⟨hplain, htype, hgiven, -, hclear⟩ := Stage.request_some hreq hstage
  obtain ⟨hrc, hserved⟩ := served_of_sendMessage hins hplain h.replicable.numbered h.alive
    (h.replicable.held q h.known) hsend
  have hcreate : req.type = .socketCreate → ∀ u, s.table.isUser u → q ∉ s.table.instances u := by
    intro ht
    rw [htype] at ht
    cases stage <;> cases ht
  have hadv := advance_served hserved h.replicable h.known h.alive
    (h.plain (h.flagged hstage) hclear) (h.replicable.accepting p h.user q h.mem) hcreate hgiven
  obtain ⟨fd, hself, -⟩ := hserved.self
  have hflags : (s₁.table.sock q).mwflags = ((s.table.sock q).profile.serve req fd).mwflags :=
    congrArg Profile.mwflags hself
  rw [htype] at hadv
  refine ⟨hrc, .made hclear hadv ?_⟩
  rw [hflags, Profile.serve_mwflags, MwFlags.has_or, htype, Bool.or_eq_true]
  refine .inr ?_
  cases stage with
  | bind => decide
  | listen => decide
  | attrib => exact absurd rfl hstage

theorem runStages_cons (hins : ins.Good) (h : At live s p q d) {stage : Stage}
    (hstage : stage ≠ .attrib) {rest : List Stage}
    (hrun : runStages ins s p q (stage :: rest) = some (s', rc)) :
    ∃ s₁ types, runStages ins s₁ p q rest = some (s', rc) ∧
      StageDone live p q stage.type (stageFlag stage.type) s s₁ types := by
  rw [runStages] at hrun
  split at hrun
  · rename_i hnone
    exact ⟨s, [], hrun, .already (Stage.request_none hnone hstage (h.flagged hstage))⟩
  · rename_i req hreq
    obtain ⟨⟨s₁, rc₁⟩, hsend, hrest⟩ := Option.bind_eq_some_iff.mp hrun
    obtain ⟨rfl, hdone⟩ := stage_sent hins h hstage hreq hsend
    exact ⟨s₁, [stage.type], hrest, hdone⟩

namespace StageDone

variable {type : MtRequestType} {m : MwFlags} {types : List MtRequestType}

theorem advance (h : StageDone live p q type m s s' types) (hrep : Replicable live s.table) :
    Advance live p q types s s' := by
  cases h with
  | already hset => exact Advance.refl hrep p q
  | made hclear hadv hset => exact hadv

theorem set (h : StageDone live p q type m s s' types) :
    (s'.table.sock q).mwflags.has m = true := by
  cases h with
  | already hset => exact hset
  | made hclear hadv hset => exact hset

theorem types_le (h : StageDone live p q type m s s' types) : types.Sublist [type] := by
  cases h with
  | already hset => exact List.nil_sublist _
  | made hclear hadv hset => exact List.Sublist.refl _

theorem idle (h : StageDone live p q type m s s' types)
    (hset : (s.table.sock q).mwflags.has m = true) : s' = s := by
  cases h with
  | already _ => rfl
  | made hclear hadv _ =>
      rw [hset] at hclear
      cases hclear

end StageDone

theorem sendAccept_done (hins : ins.Good) (h : At live s p q d) {awaits : Bool}
    (hrun : sendAccept ins s p q awaits = some (s', rc)) :
    rc = 0 ∧ ∃ types, StageDone live p q .socketAccept MwFlags.accept s s' types := by
  by_cases hset : (s.table.sock q).mwflags.has MwFlags.accept = true
  · rw [sendAccept, if_pos hset] at hrun
    cases hrun
    exact ⟨rfl, [], .already hset⟩
  · have hclear := Bool.eq_false_iff.mpr hset
    obtain ⟨rfl, hacc⟩ := accepting_of_sendAccept hins h.replicable.numbered hclear h.alive hrun
    have hflags : (s'.table.sock q).mwflags = (s.table.sock q).mwflags ||| MwFlags.accept :=
      congrArg Profile.mwflags hacc.self
    refine ⟨rfl, [.socketAccept], .made hclear
      (advance_accepting hacc h.replicable h.user h.mem h.alive hclear) ?_⟩
    rw [hflags, MwFlags.has_or, Bool.or_eq_true]
    exact .inr (by decide)

/-- Once the instance exists, it is bound, listening and accepting in the end. -/
theorem stages_done (hins : ins.Good) (h : At live s p q d) (awaits : Bool)
    {s₁ : Replication} {rc₁ : Int}
    (hstages : runStages ins s p q [.bind, .listen, .attrib] = some (s₁, rc₁)) :
    rc₁ = 0 ∧ ∀ s' rc, sendAccept ins s₁ p q awaits = some (s', rc) →
      rc = 0 ∧ ∃ types, types.Sublist [.socketBind, .socketListen, .socketAccept] ∧
        Advance live p q types s s' ∧ Full s'.table q ∧ (Full s.table q → s' = s) := by
  obtain ⟨s₂, types₂, hrest, hbind⟩ := runStages_cons hins h (by decide) hstages
  have h₂ := h.step (hbind.advance h.replicable)
  obtain ⟨s₃, types₃, hrest, hlisten⟩ := runStages_cons hins h₂ (by decide) hrest
  have h₃ := h₂.step (hlisten.advance h₂.replicable)
  rw [runStages, Stage.request_undeferred (h₃.replicable.undeferred p h₃.user)] at hrest
  cases hrest
  refine ⟨rfl, fun s' rc haccept => ?_⟩
  obtain ⟨rfl, types₄, hacc⟩ := sendAccept_done hins h₃ haccept
  have hadv₂ := hbind.advance h.replicable
  have hadv₃ := hlisten.advance h₂.replicable
  have hadv₄ := hacc.advance h₃.replicable
  refine ⟨rfl, types₂ ++ (types₃ ++ types₄), ?_, ?_, ?_, ?_⟩
  · exact hbind.types_le.append (hlisten.types_le.append hacc.types_le)
  · exact hadv₂.trans (hadv₃.trans hadv₄ h₂.user) h.user
  · intro m hm
    have hlater := hadv₃.grows.trans hadv₄.grows
    simp only [stages, List.mem_cons, List.not_mem_nil, or_false] at hm
    rcases hm with rfl | rfl | rfl
    · exact hlater.flags q h₂.known _ (by decide) hbind.set
    · exact hadv₄.grows.flags q h₃.known _ (by decide) hlisten.set
    · exact hacc.set
  · intro hfull
    have hs₂ := hbind.idle (hfull _ (by decide))
    subst hs₂
    have hs₃ := hlisten.idle (hfull _ (by decide))
    subst hs₃
    exact hacc.idle (hfull _ (by decide))

/-! ## One user socket and one INS -/

theorem instanceOn_some {t : Table} (h : t.instanceOn p d = some q) :
    q ∈ t.instances p ∧ t.onIns d q = true := by
  rw [instanceOn] at h
  split at h
  · rename_i heq
    cases h
    exact ⟨List.mem_cons_self, decide_eq_true heq⟩
  · exact ⟨List.mem_cons_of_mem _ (List.mem_of_find?_eq_some h), List.find?_some h⟩

theorem instanceOn_none {t : Table} (h : t.instanceOn p d = none) :
    (t.instances p).filter (t.onIns d) = [] := by
  rw [instanceOn] at h
  split at h
  · cases h
  · rename_i hne
    refine List.filter_eq_nil_iff.mpr fun c hc => ?_
    rcases List.mem_cons.mp hc with rfl | hc
    · rw [onIns, decide_eq_true_eq]
      exact hne
    · exact List.find?_eq_none.mp h c hc

/-- A new instance is created on the INS, and becomes a sibling. -/
theorem findOrCreate_new (hins : ins.Good) (hrep : Replicable live s.table)
    (hp : s.table.isUser p) (hnone : s.table.instanceOn p d = none)
    (h : findOrCreate ins s p d = some (s', q, rc)) :
    rc = 0 ∧ Advance live p q [.socketCreate] s s' ∧ q ∉ s.table.sockinsts ∧
      q ∈ s'.table.instances p ∧ s'.table.onIns d q = true := by
  obtain ⟨hrep₁, hgrow₁, horphan⟩ := orphan_create hrep
  rw [findOrCreate, hnone] at h
  obtain ⟨⟨s₂, rc₂⟩, hsend, heq⟩ := Option.map_eq_some_iff.mp h
  let s₁ : Replication := { s with table := s.table.mwsocketCreateSockinst true }
  let req := s.table.createRequest p d
  have hplain : Plain req :=
    ⟨.inl rfl, rfl, (by decide : mtRequestBaseSize ≤ mtRequestSocketCreateSize), rfl⟩
  obtain ⟨rfl, hserved⟩ := served_of_sendMessage hins hplain hrep₁.numbered horphan.alive
    (hrep₁.held _ horphan.mem) hsend
  have hgiven : Given s₁.table p ⟨s.table.nextSock, req⟩ :=
    ⟨fun ht => (by cases ht), fun ht => (by cases ht)⟩
  have hch := hserved.changes hrep₁ horphan.mem horphan.alive horphan.plain horphan.accepting
    fun _ => horphan.alone
  have hadv : Advance live p s.table.nextSock [.socketCreate] s₁ s₂ :=
    advance_served hserved hrep₁ horphan.mem horphan.alive horphan.plain horphan.accepting
      (fun _ => horphan.alone) hgiven
  have horphan₂ : Orphan s₂.table s.table.nextSock := by
    refine ⟨hch.sockinsts ▸ horphan.mem, hch.user.trans horphan.plain, hch.alive, hch.accepting,
      fun u hu hmem => ?_⟩
    rw [hch.instances] at hmem
    exact horphan.alone u ((hch.isUser u).mp hu) hmem
  have hgrow₂ : Grows s.table s₂.table := hgrow₁.trans hadv.grows
  have hp₂ : s₂.table.isUser p := (hgrow₂.users p).mpr hp
  have hon : s₂.table.onIns d s.table.nextSock = true := by
    obtain ⟨fd, hself, hfd⟩ := hserved.self
    have heq : (s₂.table.sock s.table.nextSock).remoteFd = fd := congrArg Profile.remoteFd hself
    rw [onIns, heq, hfd rfl (mwSocketIsFd_create _ _), decide_eq_true_eq]
    exact mwSocketClientId_create _ _
  have hfree : (s₂.table.instances p).filter (s₂.table.onIns d) = [] := by
    have hinst : s₂.table.instances p = s.table.instances p := by
      rw [hch.instances]
      show p :: (s.table.mwsocketCreateSockinst true).siblings p = _
      rw [createSockinst_eq]
      rfl
    rw [hinst]
    refine (List.filter_congr fun c hc => ?_).trans (instanceOn_none hnone)
    rw [onIns, onIns, hgrow₂.remoteFd p hp c hc]
  obtain ⟨hrep₃, hgrow₃⟩ := orphan_join hadv.replicable hp₂ horphan₂ hon hfree
  obtain ⟨new, hposted, htypes, hnew⟩ := hadv.posted
  cases heq
  have hlength : s₂.table.g.activeRequests.length ≤ s.table.g.activeRequests.length := by
    have hsame : s₁.table.g.activeRequests = s.table.g.activeRequests := by
      show (s.table.mwsocketCreateSockinst true).g.activeRequests = _
      rw [createSockinst_eq]
    have hlater := hadv.length
    rw [hsame] at hlater
    exact hlater
  refine ⟨rfl, ⟨hrep₃, hgrow₂.trans hgrow₃, hlength, new, hposted, htypes, fun post hpost => ?_⟩,
    ?_, ?_, ?_⟩
  · exact ⟨(hnew post hpost).1, (hnew post hpost).2.grows hgrow₁ hp⟩
  · exact fun hmem => Nat.lt_irrefl _ (hrep.below _ hmem)
  · show _ ∈ p :: Function.update s₂.table.siblings p _ p
    rw [Function.update_self]
    exact List.mem_cons_of_mem _ List.mem_cons_self
  · show (s₂.table.addSibling p s.table.nextSock).onIns d s.table.nextSock = true
    rw [onIns]
    show decide (mwSocketClientId (Function.update s₂.table.g.socks s.table.nextSock _
      s.table.nextSock).remoteFd = d) = true
    rw [Function.update_self]
    exact hon

/-- What a run of the replicator comes to. -/
structure Replicated (live : List (BitVec 16)) (p : Nat) (d : BitVec 16) (s s' : Replication)
    (q : Nat) (types : List MtRequestType) : Prop where
  advance : Advance live p q types s s'
  types : types.Sublist [.socketCreate, .socketBind, .socketListen, .socketAccept]
  mem : q ∈ s'.table.instances p
  on : s'.table.onIns d q = true
  full : Full s'.table q
  known : q ∈ s.table.sockinsts → q ∈ s.table.instances p
  idle : q ∈ s.table.sockinsts → Full s.table q → s' = s

theorem replicator_spec (hins : ins.Good) (hrep : Replicable live s.table)
    (hlistens : s.table.listens p = true) (hp : p ∈ s.table.sockinsts) (hd : d ∈ live)
    {awaits : Bool} (h : mwsocketInsSockReplicator ins s p d awaits = some (s', rc)) :
    rc = 0 ∧ ∃ q types, Replicated live p d s s' q types := by
  obtain ⟨hub, hlistening⟩ := Bool.and_eq_true_iff.mp hlistens
  obtain ⟨huser, hbound⟩ := Bool.and_eq_true_iff.mp hub
  have hu : s.table.isUser p := ⟨hp, huser⟩
  rw [mwsocketInsSockReplicator, huser, if_neg (by decide)] at h
  obtain ⟨⟨s₁, q, rc₁⟩, hfind, h⟩ := Option.bind_eq_some_iff.mp h
  -- From an instance that exists on, the stages do the rest.
  have finish : ∀ {types₀ : List MtRequestType}, rc₁ = 0 → Advance live p q types₀ s s₁ →
      q ∈ s₁.table.instances p → s₁.table.onIns d q = true →
      rc = 0 ∧ ∃ types, types.Sublist [.socketBind, .socketListen, .socketAccept] ∧
        Advance live p q (types₀ ++ types) s s' ∧ q ∈ s'.table.instances p ∧
        s'.table.onIns d q = true ∧ Full s'.table q ∧ (Full s₁.table q → s' = s₁) := by
    intro types₀ hrc hadv hmem hon
    have hlistener := hadv.grows.listener p hu
    simp only [Table.listener, Prod.mk.injEq] at hlistener
    have hat : At live s₁ p q d := ⟨hadv.replicable, (hadv.grows.users p).mpr hu,
      hlistener.1.trans hbound, hlistener.2.1.trans hlistening, hmem, hon, hd⟩
    simp only [hrc, ne_eq, not_true_eq_false, if_false] at h
    obtain ⟨⟨s₂, rc₂⟩, hstages, hrest⟩ := Option.bind_eq_some_iff.mp h
    obtain ⟨rfl, hdone⟩ := stages_done hins hat awaits hstages
    simp only [not_true_eq_false, if_false] at hrest
    obtain ⟨⟨s₃, rc₃⟩, haccept, heq⟩ := Option.map_eq_some_iff.mp hrest
    obtain ⟨rfl, types, hle, hadv', hfull, hidle⟩ := hdone s₃ rc₃ haccept
    cases heq
    have hat' := hat.step hadv'
    exact ⟨rfl, types, hle, hadv.trans hadv' hu, hat'.mem, hat'.on, hfull, hidle⟩
  cases hinst : s.table.instanceOn p d with
  | some q₀ =>
      rw [findOrCreate, hinst] at hfind
      cases hfind
      obtain ⟨hmem, hon⟩ := instanceOn_some hinst
      obtain ⟨hrc, types, hle, hadv, hmem', hon', hfull, hidle⟩ :=
        finish rfl (Advance.refl hrep p q) hmem hon
      exact ⟨hrc, q, types, hadv, hle.cons _, hmem', hon', hfull, fun _ => hmem, fun _ => hidle⟩
  | none =>
      obtain ⟨hrc₁, hnew, hfresh, hmem, hon⟩ := findOrCreate_new hins hrep hu hinst hfind
      obtain ⟨hrc, types, hle, hadv, hmem', hon', hfull, -⟩ := finish hrc₁ hnew hmem hon
      exact ⟨hrc, q, _, hadv, hle.cons_cons _, hmem', hon', hfull, fun hq => absurd hq hfresh,
        fun hq => absurd hq hfresh⟩

/-! ## Nothing is left to do -/

/-- User socket `u` has what it needs on an INS. -/
def Done (t : Table) (u : Nat) (d : BitVec 16) : Prop :=
  ∃ q ∈ t.instances u, t.onIns d q = true ∧ Full t q

theorem Done.grows {t t' : Table} {u : Nat} (h : Done t u d) (hg : Grows t t') (hu : t.isUser u)
    (hrep : Replicable live t) : Done t' u d := by
  obtain ⟨q, hmem, hon, hfull⟩ := h
  refine ⟨q, hg.instances hu hmem, ?_, fun m hm => ?_⟩
  · rw [onIns, hg.remoteFd u hu q hmem]
    exact hon
  · exact hg.flags q (hrep.mem_instances hu hmem) m hm (hfull m hm)

/-- The instance on a live INS is unique. -/
theorem unique_instance {t : Table} {u q q' : Nat} (hrep : Replicable live t) (hu : t.isUser u)
    (hd : d ∈ live) (hq : q ∈ t.instances u) (hon : t.onIns d q = true)
    (hq' : q' ∈ t.instances u) (hon' : t.onIns d q' = true) :
    q = q' ∧ (t.instances u).filter (t.onIns d) = [q] := by
  have hmem := List.mem_filter.mpr ⟨hq, hon⟩
  have hmem' := List.mem_filter.mpr ⟨hq', hon'⟩
  have hle := hrep.single u hu d hd
  generalize (t.instances u).filter (t.onIns d) = l at hmem hmem' hle ⊢
  match l with
  | [] => cases hmem
  | [x] =>
      rw [List.mem_singleton] at hmem hmem'
      exact ⟨hmem.trans hmem'.symm, by rw [hmem]⟩
  | _ :: _ :: _ =>
      simp only [List.length_cons] at hle
      omega

theorem Done.instanceOn {t : Table} {u : Nat} (h : Done t u d) (hrep : Replicable live t)
    (hu : t.isUser u) (hd : d ∈ live) : ∃ q, t.instanceOn u d = some q ∧ Full t q := by
  obtain ⟨q, hmem, hon, hfull⟩ := h
  cases hinst : t.instanceOn u d with
  | none =>
      have hempty := instanceOn_none hinst
      rw [(unique_instance hrep hu hd hmem hon hmem hon).2] at hempty
      cases hempty
  | some q' =>
      obtain ⟨hmem', hon'⟩ := instanceOn_some hinst
      obtain ⟨rfl, -⟩ := unique_instance hrep hu hd hmem hon hmem' hon'
      exact ⟨q, rfl, hfull⟩

/-- Whatever the INSs would answer, they are not asked. -/
theorem replicator_idle (ins : Answers) (hrep : Replicable live s.table) (hu : s.table.isUser p)
    (hd : d ∈ live) (hdone : Done s.table p d) (awaits : Bool) :
    mwsocketInsSockReplicator ins s p d awaits = some (s, 0) := by
  obtain ⟨q, hinst, hfull⟩ := hdone.instanceOn hrep hu hd
  have hbind : Stage.bind.request s.table p q = none :=
    Stage.request_of_done (by decide) (hfull MwFlags.bound (by decide))
  have hlisten : Stage.listen.request s.table p q = none :=
    Stage.request_of_done (by decide) (hfull MwFlags.listening (by decide))
  have hattrib : Stage.attrib.request s.table p q = none :=
    Stage.request_undeferred (hrep.undeferred p hu)
  have hstages : runStages ins s p q [.bind, .listen, .attrib] = some (s, 0) := by
    simp only [runStages, hbind, hlisten, hattrib]
  have haccept : sendAccept ins s p q awaits = some (s, 0) := by
    rw [sendAccept, if_pos (hfull MwFlags.accept (by decide))]
  rw [mwsocketInsSockReplicator, hu.2, if_neg (by decide), findOrCreate, hinst]
  simp only [Option.bind_some, ne_eq, not_true_eq_false, if_false, hstages, haccept,
    Option.map_some]

/-! ## The whole run -/

/-- The types of the requests that were made for an instance. -/
def typesFor (posted : List Posting) (c : Nat) : List MtRequestType :=
  (posted.filter fun post => post.sock = c).map fun post => post.request.type

/-- The requests of a run that started on `t₀`, and has come to `s`: in order,
for instances that are done, and with the parameters of their user sockets. -/
structure Orderly (t₀ : Table) (s : Replication) : Prop where
  grows : Grows t₀ s.table
  order : ∀ c, (typesFor s.posted c).Sublist
    [.socketCreate, .socketBind, .socketListen, .socketAccept]
  known : ∀ post ∈ s.posted, post.sock ∈ s.table.sockinsts ∧ Full s.table post.sock
  given : ∀ post ∈ s.posted, ∃ u, t₀.isUser u ∧ post.sock ∈ s.table.instances u ∧ Given t₀ u post

theorem Replicated.orderly {types : List MtRequestType} (h : Replicated live p d s s' q types)
    {t₀ : Table} (ho : Orderly t₀ s) (hp : t₀.isUser p) : Orderly t₀ s' := by
  have hg := h.advance.grows
  have hp' : s.table.isUser p := (ho.grows.users p).mpr hp
  have hq : q ∈ s'.table.sockinsts :=
    h.advance.replicable.mem_instances ((hg.users p).mpr hp') h.mem
  obtain ⟨new, hposted, htypes, hnew⟩ := h.advance.posted
  refine ⟨ho.grows.trans hg, fun c => ?_, fun post hpost => ?_, fun post hpost => ?_⟩
  · by_cases hc : c = q
    · subst hc
      by_cases hbefore : typesFor s.posted c = []
      · have hall : new.filter (fun post => post.sock = c) = new :=
          List.filter_eq_self.mpr fun post hpost => decide_eq_true (hnew post hpost).1
        rw [typesFor, hposted, List.filter_append, List.map_append, hall, htypes]
        rw [typesFor] at hbefore
        rw [hbefore]
        exact h.types
      · -- What has been asked for once is done, so nothing is asked for again.
        obtain ⟨ty, hty⟩ := List.exists_mem_of_ne_nil _ hbefore
        obtain ⟨post, hpost, -⟩ := List.mem_map.mp hty
        obtain ⟨hmem, hsock⟩ := List.mem_filter.mp hpost
        have hknown := ho.known post hmem
        rw [of_decide_eq_true hsock] at hknown
        rw [h.idle hknown.1 hknown.2]
        exact ho.order c
    · have hnone : new.filter (fun post => post.sock = c) = [] :=
        List.filter_eq_nil_iff.mpr fun post hpost hsock =>
          hc ((of_decide_eq_true hsock).symm.trans (hnew post hpost).1)
      rw [typesFor, hposted, List.filter_append, hnone, List.append_nil]
      exact ho.order c
  · rw [hposted] at hpost
    rcases List.mem_append.mp hpost with hpost | hpost
    · obtain ⟨hmem, hfull⟩ := ho.known post hpost
      exact ⟨hg.sockinsts _ hmem, fun m hm => hg.flags _ hmem m hm (hfull m hm)⟩
    · rw [(hnew post hpost).1]
      exact ⟨hq, h.full⟩
  · rw [hposted] at hpost
    rcases List.mem_append.mp hpost with hpost | hpost
    · obtain ⟨u, hu, hmem, hgiven⟩ := ho.given post hpost
      exact ⟨u, hu, hg.instances ((ho.grows.users u).mpr hu) hmem, hgiven⟩
    · refine ⟨p, hp, ?_, (hnew post hpost).2.grows ho.grows hp⟩
      rw [(hnew post hpost).1]
      exact h.mem

/-- A run has come this far. -/
structure Reached (live : List (BitVec 16)) (t₀ : Table) (s : Replication) : Prop where
  replicable : Replicable live s.table
  orderly : Orderly t₀ s

theorem Reached.listens {t₀ : Table} (h : Reached live t₀ s) {u : Nat} (hu : u ∈ t₀.sockinsts) :
    s.table.listens u = t₀.listens u := by
  have hg := h.orderly.grows
  have huser : (s.table.sock u).mwflags.has MwFlags.user = (t₀.sock u).mwflags.has MwFlags.user := by
    rw [Bool.eq_iff_iff]
    constructor
    · intro hset
      exact ((hg.users u).mp ⟨hg.sockinsts u hu, hset⟩).2
    · intro hset
      exact ((hg.users u).mpr ⟨hu, hset⟩).2
  by_cases hset : (t₀.sock u).mwflags.has MwFlags.user = true
  · have hlistener := hg.listener u ⟨hu, hset⟩
    simp only [Table.listener, Prod.mk.injEq] at hlistener
    rw [Table.listens, Table.listens, huser, hlistener.1, hlistener.2.1]
  · rw [Table.listens, Table.listens, huser, Bool.eq_false_iff.mpr hset]
    rfl

theorem forEachLiveIns_spec (hins : ins.Good) {t₀ : Table} {awaits : Bool}
    (hp : p ∈ t₀.sockinsts) (hlistens : t₀.listens p = true) {rc₀ : Int} :
    ∀ (todo : List (BitVec 16)), (∀ d ∈ todo, d ∈ live) → ∀ {s : Replication}, Reached live t₀ s →
      forEachLiveIns ins p awaits s rc₀ todo = some (s', rc) →
      rc = rc₀ ∧ Reached live t₀ s' ∧ Grows s.table s'.table ∧ ∀ d ∈ todo, Done s'.table p d := by
  intro todo
  induction todo with
  | nil =>
      intro _ s hs h
      cases h
      exact ⟨rfl, hs, Grows.refl _, by simp⟩
  | cons d rest ih =>
      intro hlive s hs h
      have huser : t₀.isUser p :=
        ⟨hp, (Bool.and_eq_true_iff.mp (Bool.and_eq_true_iff.mp hlistens).1).1⟩
      obtain ⟨⟨s₁, rc₁⟩, hstep, hrest⟩ := Option.bind_eq_some_iff.mp h
      have hl : s.table.listens p = true := (hs.listens hp).trans hlistens
      obtain ⟨rfl, q, types, hrep⟩ := replicator_spec hins hs.replicable hl
        (hs.orderly.grows.sockinsts p hp) (hlive d List.mem_cons_self) hstep
      have hs₁ : Reached live t₀ s₁ := ⟨hrep.advance.replicable, hrep.orderly hs.orderly huser⟩
      obtain ⟨hrc, hs', hg, hdone⟩ := ih (fun d hd => hlive d (List.mem_cons_of_mem _ hd)) hs₁ hrest
      refine ⟨hrc, hs', hrep.advance.grows.trans hg, fun d' hd' => ?_⟩
      rcases List.mem_cons.mp hd' with rfl | hd'
      · have hdone₁ : Done s₁.table p d' := ⟨q, hrep.mem, hrep.on, hrep.full⟩
        exact hdone₁.grows hg ((hs₁.orderly.grows.users p).mpr huser) hs₁.replicable
      · exact hdone d' hd'

theorem propogateFrom_spec (hins : ins.Good) {t₀ : Table} :
    ∀ (todo : List Nat), (∀ u ∈ todo, u ∈ t₀.sockinsts) → ∀ {s : Replication}, Reached live t₀ s →
      propogateFrom ins live s 0 todo = some (s', rc) →
      rc = 0 ∧ Reached live t₀ s' ∧ Grows s.table s'.table ∧
        ∀ u ∈ todo, t₀.listens u = true → ∀ d ∈ live, Done s'.table u d := by
  intro todo
  induction todo with
  | nil =>
      intro _ s hs h
      cases h
      exact ⟨rfl, hs, Grows.refl _, by simp⟩
  | cons curr rest ih =>
      intro hmem s hs h
      have hcurr := hmem curr List.mem_cons_self
      have hrest := fun u hu => hmem u (List.mem_cons_of_mem _ hu)
      rw [propogateFrom, hs.listens hcurr] at h
      by_cases hlistens : t₀.listens curr = true
      · rw [if_pos hlistens] at h
        obtain ⟨⟨s₁, rc₁⟩, hvisit, hlater⟩ := Option.bind_eq_some_iff.mp h
        obtain ⟨rfl, hs₁, hg₁, hdone₁⟩ :=
          forEachLiveIns_spec hins hcurr hlistens live (fun d hd => hd) hs hvisit
        obtain ⟨hrc, hs', hg, hdone⟩ := ih hrest hs₁ hlater
        have huser : t₀.isUser curr :=
          ⟨hcurr, (Bool.and_eq_true_iff.mp (Bool.and_eq_true_iff.mp hlistens).1).1⟩
        refine ⟨hrc, hs', hg₁.trans hg, fun u hu hl d hd => ?_⟩
        rcases List.mem_cons.mp hu with rfl | hu
        · exact (hdone₁ d hd).grows hg ((hs₁.orderly.grows.users u).mpr huser) hs₁.replicable
        · exact hdone u hu hl d hd
      · rw [if_neg hlistens] at h
        obtain ⟨hrc, hs', hg, hdone⟩ := ih hrest hs h
        refine ⟨hrc, hs', hg, fun u hu hl d hd => ?_⟩
        rcases List.mem_cons.mp hu with rfl | hu
        · exact absurd hl hlistens
        · exact hdone u hu hl d hd

/-! ## The run returns -/

theorem sendAccept_returns (ins : Answers) (hroom : Room s 1) (awaits : Bool) :
    ∃ x, sendAccept ins s p q awaits = some x := by
  rw [sendAccept]
  split
  · exact ⟨_, rfl⟩
  split
  · exact ⟨_, rfl⟩
  · rename_i hdead
    have halive : (s.table.sock q).insAlive = true := by simpa using hdead
    obtain ⟨⟨g, ref⟩, hnew, a, ha⟩ := create_returns hroom halive
      (FileState.acceptRequest s.table.g p q (decide (q = p) && awaits))
    have hat : g.reqAt ref = some a := ha
    simp only [hnew, Option.bind_some, hat, Option.map_some]
    exact ⟨_, rfl⟩

theorem Room.step {types : List MtRequestType} {n : Nat} (h : Room s (types.count .socketAccept + n))
    (hadv : Advance live p q types s s') : Room s' n := by
  have := hadv.length
  unfold Room at h ⊢
  omega

theorem runStages_returns (hins : ins.Good) {n : Nat} :
    ∀ (todo : List Stage) {s : Replication}, At live s p q d → Room s (n + 1) →
      ∃ x, runStages ins s p q todo = some x ∧ Room x.1 (n + 1) := by
  intro todo
  induction todo with
  | nil => exact fun _ hroom => ⟨_, rfl, hroom⟩
  | cons stage rest ih =>
      intro s h hroom
      rw [runStages]
      split
      · exact ih h hroom
      · rename_i req hreq
        have hstage : stage ≠ .attrib := by
          rintro rfl
          rw [Stage.request_undeferred (h.replicable.undeferred p h.user)] at hreq
          cases hreq
        have hone : Room s 1 := by
          unfold Room at hroom ⊢
          omega
        obtain ⟨⟨s₁, rc₁⟩, hsend⟩ := sendMessage_returns (q := q) ins hone req
        obtain ⟨rfl, hdone⟩ := stage_sent hins h hstage hreq hsend
        have hadv := hdone.advance h.replicable
        have hnone : List.count MtRequestType.socketAccept [stage.type] = 0 := by
          cases stage <;> rfl
        have hroom₁ : Room s₁ (n + 1) := by
          refine Room.step ?_ hadv
          rw [hnone, Nat.zero_add]
          exact hroom
        obtain ⟨x, hx, hleft⟩ := ih (h.step hadv) hroom₁
        refine ⟨x, ?_, hleft⟩
        rw [hsend, Option.bind_some]
        exact hx

theorem findOrCreate_returns (ins : Answers) (hroom : Room s 1) :
    ∃ x, findOrCreate ins s p d = some x := by
  rw [findOrCreate]
  split
  · exact ⟨_, rfl⟩
  · let s₁ : Replication := { s with table := s.table.mwsocketCreateSockinst true }
    have hroom₁ : Room s₁ 1 := by
      have hsame : s₁.table.g.activeRequests = s.table.g.activeRequests := by
        show (s.table.mwsocketCreateSockinst true).g.activeRequests = _
        rw [createSockinst_eq]
      rw [Room, hsame]
      exact hroom
    obtain ⟨x, hx⟩ := sendMessage_returns (q := s.table.nextSock) ins hroom₁
      (s.table.createRequest p d)
    exact ⟨_, congrArg (Option.map _) hx⟩

theorem findOrCreate_at (hins : ins.Good) (hrep : Replicable live s.table)
    (hlistens : s.table.listens p = true) (hp : p ∈ s.table.sockinsts) (hd : d ∈ live)
    (h : findOrCreate ins s p d = some (s', q, rc)) :
    rc = 0 ∧ At live s' p q d ∧
      ∃ types, Advance live p q types s s' ∧ types.count .socketAccept = 0 := by
  obtain ⟨hub, hlistening⟩ := Bool.and_eq_true_iff.mp hlistens
  obtain ⟨huser, hbound⟩ := Bool.and_eq_true_iff.mp hub
  cases hinst : s.table.instanceOn p d with
  | some q₀ =>
      rw [findOrCreate, hinst] at h
      cases h
      obtain ⟨hmem, hon⟩ := instanceOn_some hinst
      exact ⟨rfl, ⟨hrep, ⟨hp, huser⟩, hbound, hlistening, hmem, hon, hd⟩, [],
        Advance.refl hrep p q, rfl⟩
  | none =>
      have hu : s.table.isUser p := ⟨hp, huser⟩
      obtain ⟨hrc, hnew, -, hmem, hon⟩ := findOrCreate_new hins hrep hu hinst h
      have hlistener := hnew.grows.listener p hu
      simp only [Table.listener, Prod.mk.injEq] at hlistener
      exact ⟨hrc, ⟨hnew.replicable, (hnew.grows.users p).mpr hu, hlistener.1.trans hbound,
        hlistener.2.1.trans hlistening, hmem, hon, hd⟩, _, hnew, rfl⟩

theorem replicator_returns (hins : ins.Good) (hrep : Replicable live s.table)
    (hlistens : s.table.listens p = true) (hp : p ∈ s.table.sockinsts) (hd : d ∈ live) {n : Nat}
    (hroom : Room s (n + 1)) (awaits : Bool) :
    ∃ x, mwsocketInsSockReplicator ins s p d awaits = some x ∧ Room x.1 n := by
  have hone {r : Replication} (h : Room r (n + 1)) : Room r 1 := by
    unfold Room at h ⊢
    omega
  have huser : (s.table.sock p).mwflags.has MwFlags.user = true :=
    (Bool.and_eq_true_iff.mp (Bool.and_eq_true_iff.mp hlistens).1).1
  obtain ⟨⟨s₁, q, rc₁⟩, hfind⟩ := findOrCreate_returns (p := p) (d := d) ins (hone hroom)
  obtain ⟨rfl, hat, types₁, hadv₁, hnone⟩ := findOrCreate_at hins hrep hlistens hp hd hfind
  have hroom₁ : Room s₁ (n + 1) := by
    refine Room.step ?_ hadv₁
    rw [hnone, Nat.zero_add]
    exact hroom
  obtain ⟨⟨s₂, rc₂⟩, hstages, hroom₂⟩ := runStages_returns hins [.bind, .listen, .attrib] hat hroom₁
  obtain ⟨⟨s₃, rc₃⟩, haccept⟩ := sendAccept_returns (p := p) (q := q) ins (hone hroom₂) awaits
  obtain ⟨rfl, hdone⟩ := stages_done hins hat awaits hstages
  obtain ⟨rfl, -⟩ := hdone s₃ rc₃ haccept
  have hrun : mwsocketInsSockReplicator ins s p d awaits = some (s₃, 0) := by
    rw [mwsocketInsSockReplicator, huser, if_neg (by decide), hfind]
    simp only [Option.bind_some, ne_eq, not_true_eq_false, if_false, hstages, haccept,
      Option.map_some]
  refine ⟨_, hrun, ?_⟩
  obtain ⟨-, q', types, hfinal⟩ := replicator_spec hins hrep hlistens hp hd hrun
  have hcount : types.count .socketAccept ≤ 1 := hfinal.types.count_le _
  have := hfinal.advance.length
  unfold Room at hroom ⊢
  show s₃.table.g.activeRequests.length + n < 2 ^ 64
  omega

theorem forEachLiveIns_returns (hins : ins.Good) {t₀ : Table} {awaits : Bool}
    (hp : p ∈ t₀.sockinsts) (hlistens : t₀.listens p = true) {n : Nat} :
    ∀ (todo : List (BitVec 16)), (∀ d ∈ todo, d ∈ live) → ∀ {s : Replication} {rc₀ : Int},
      Reached live t₀ s → Room s (todo.length + n) →
      ∃ x, forEachLiveIns ins p awaits s rc₀ todo = some x ∧ Room x.1 n := by
  intro todo
  induction todo with
  | nil => exact fun _ _ _ _ hroom => ⟨_, rfl, Nat.zero_add n ▸ hroom⟩
  | cons d rest ih =>
      intro hlive s rc₀ hs hroom
      have hl : s.table.listens p = true := (hs.listens hp).trans hlistens
      have hp' := hs.orderly.grows.sockinsts p hp
      have hd := hlive d List.mem_cons_self
      have hroom' : Room s (rest.length + n + 1) := by
        rw [List.length_cons, Nat.add_right_comm] at hroom
        exact hroom
      obtain ⟨⟨s₁, rc₁⟩, hstep, hroom₁⟩ :=
        replicator_returns hins hs.replicable hl hp' hd hroom' awaits
      obtain ⟨rfl, q, types, hrep⟩ := replicator_spec hins hs.replicable hl hp' hd hstep
      have huser : t₀.isUser p :=
        ⟨hp, (Bool.and_eq_true_iff.mp (Bool.and_eq_true_iff.mp hlistens).1).1⟩
      have hs₁ : Reached live t₀ s₁ := ⟨hrep.advance.replicable, hrep.orderly hs.orderly huser⟩
      rw [forEachLiveIns, hstep, Option.bind_some]
      exact ih (fun d hd => hlive d (List.mem_cons_of_mem _ hd)) hs₁ hroom₁

theorem propogateFrom_returns (hins : ins.Good) {t₀ : Table} :
    ∀ (todo : List Nat), (∀ u ∈ todo, u ∈ t₀.sockinsts) → ∀ {s : Replication} {rc₀ : Int},
      Reached live t₀ s → Room s (todo.length * live.length) →
      ∃ x, propogateFrom ins live s rc₀ todo = some x := by
  intro todo
  induction todo with
  | nil => exact fun _ _ _ _ _ => ⟨_, rfl⟩
  | cons curr rest ih =>
      intro hmem s rc₀ hs hroom
      have hcurr := hmem curr List.mem_cons_self
      have hrest := fun u hu => hmem u (List.mem_cons_of_mem _ hu)
      have hroom' : Room s (live.length + rest.length * live.length) := by
        rw [List.length_cons, Nat.succ_mul, Nat.add_comm] at hroom
        exact hroom
      rw [propogateFrom, hs.listens hcurr]
      by_cases hlistens : t₀.listens curr = true
      · obtain ⟨⟨s₁, rc₁⟩, hvisit, hroom₁⟩ :
            ∃ x, forEachLiveIns ins curr false s 0 live = some x ∧
              Room x.1 (rest.length * live.length) :=
          forEachLiveIns_returns hins hcurr hlistens live (fun d hd => hd) hs hroom'
        obtain ⟨-, hs₁, -⟩ :=
          forEachLiveIns_spec hins hcurr hlistens live (fun d hd => hd) hs hvisit
        rw [if_pos hlistens, hvisit, Option.bind_some]
        exact ih hrest hs₁ hroom₁
      · rw [if_neg hlistens]
        refine ih hrest hs ?_
        unfold Room at hroom' ⊢
        omega

/-! ## A second run -/

theorem forEachLiveIns_idle (ins : Answers) (hrep : Replicable live s.table)
    (hu : s.table.isUser p) (awaits : Bool) :
    ∀ (todo : List (BitVec 16)), (∀ d ∈ todo, d ∈ live ∧ Done s.table p d) →
      forEachLiveIns ins p awaits s 0 todo = some (s, 0) := by
  intro todo
  induction todo with
  | nil => exact fun _ => rfl
  | cons d rest ih =>
      intro hdone
      obtain ⟨hd, hd'⟩ := hdone d List.mem_cons_self
      rw [forEachLiveIns, replicator_idle ins hrep hu hd hd' awaits, Option.bind_some]
      exact ih fun d hd => hdone d (List.mem_cons_of_mem _ hd)

theorem propogateFrom_idle (ins : Answers) (hrep : Replicable live s.table)
    (hdone : ∀ u ∈ s.table.sockinsts, s.table.listens u = true → ∀ d ∈ live, Done s.table u d) :
    ∀ (todo : List Nat), (∀ u ∈ todo, u ∈ s.table.sockinsts) →
      propogateFrom ins live s 0 todo = some (s, 0) := by
  intro todo
  induction todo with
  | nil => exact fun _ => rfl
  | cons curr rest ih =>
      intro hmem
      have hcurr := hmem curr List.mem_cons_self
      have hrest := ih fun u hu => hmem u (List.mem_cons_of_mem _ hu)
      rw [propogateFrom]
      by_cases hlistens : s.table.listens curr = true
      · have hu : s.table.isUser curr :=
          ⟨hcurr, (Bool.and_eq_true_iff.mp (Bool.and_eq_true_iff.mp hlistens).1).1⟩
        rw [if_pos hlistens, forEachLiveIns_idle ins hrep hu false live fun d hd =>
          ⟨hd, hdone curr hcurr hlistens d hd⟩, Option.bind_some]
        exact hrest
      · rw [if_neg hlistens]
        exact hrest

end Stages

/-! ## Every listener on every INS -/

/-- What the propagation comes to. -/
structure Propagated (live : List (BitVec 16)) (t : Table) (s' : Replication) : Prop where
  /-- The same user sockets listen as before, -/
  listens : ∀ u ∈ t.sockinsts, s'.table.listens u = t.listens u
  /-- and each of them has one instance on each INS. -/
  instances : ∀ u ∈ s'.table.sockinsts, s'.table.listens u = true → ∀ d ∈ live, ∃ q,
    (s'.table.instances u).filter (s'.table.onIns d) = [q] ∧
      (s'.table.sock q).mwflags.has MwFlags.bound = true ∧
      (s'.table.sock q).mwflags.has MwFlags.listening = true ∧ s'.table.accepts q = 1
  /-- A request is for an instance of one user socket, and has its parameters. -/
  parameters : ∀ post ∈ s'.posted, ∃ u, t.isUser u ∧ post.sock ∈ s'.table.instances u ∧
    Given t u post ∧ ∀ u', t.isUser u' → post.sock ∈ s'.table.instances u' → u' = u
  order : ∀ c, (typesFor s'.posted c).Sublist
    [.socketCreate, .socketBind, .socketListen, .socketAccept]
  /-- A second run changes nothing and makes no request. -/
  again : ∀ ins, mwsocketPropogateListeners ins live s'.table = some ({ table := s'.table }, 0)

/-- The propagation returns, as long as there are ids for its accepts. Then every
listening user socket listens on every INS, and there is nothing left to do. -/
theorem listeners_propagated {ins : Answers} {live : List (BitVec 16)} {t : Table}
    (hins : ins.Good) (hrep : Replicable live t)
    (hroom : t.g.activeRequests.length + t.sockinsts.length * live.length < 2 ^ 64) :
    ∃ s', mwsocketPropogateListeners ins live t = some (s', 0) ∧ Propagated live t s' := by
  have hstart : Reached live t { table := t } :=
    ⟨hrep, Grows.refl t, fun c => List.nil_sublist _, by simp, by simp⟩
  obtain ⟨⟨s', rc⟩, hrun⟩ : ∃ x, propogateFrom ins live { table := t } 0 t.sockinsts = some x :=
    propogateFrom_returns hins t.sockinsts (fun u hu => hu) hstart hroom
  obtain ⟨rfl, hend, hg, hdone⟩ := propogateFrom_spec hins t.sockinsts (fun u hu => hu) hstart hrun
  have hrep' := hend.replicable
  -- A user socket that listens now is one that listened before.
  have hlater : ∀ u ∈ s'.table.sockinsts, s'.table.listens u = true →
      s'.table.isUser u ∧ ∀ d ∈ live, Done s'.table u d := by
    intro u hu hl
    have huser : s'.table.isUser u :=
      ⟨hu, (Bool.and_eq_true_iff.mp (Bool.and_eq_true_iff.mp hl).1).1⟩
    have hold := (hg.users u).mp huser
    exact ⟨huser, hdone u hold.1 ((hend.listens hold.1).symm.trans hl)⟩
  refine ⟨s', hrun, fun u hu => hend.listens hu, ?_, ?_, hend.orderly.order, ?_⟩
  · intro u hu hl d hd
    obtain ⟨huser, hall⟩ := hlater u hu hl
    obtain ⟨q, hmem, hon, hfull⟩ := hall d hd
    refine ⟨q, (unique_instance hrep' huser hd hmem hon hmem hon).2, hfull _ (by decide),
      hfull _ (by decide), ?_⟩
    rw [hrep'.accepting u huser q hmem, hfull MwFlags.accept (by decide), if_pos rfl]
  · intro post hpost
    obtain ⟨u, hu, hmem, hgiven⟩ := hend.orderly.given post hpost
    refine ⟨u, hu, hmem, hgiven, fun u' hu' hmem' => ?_⟩
    exact hrep'.owner ((hg.users u').mpr hu') ((hg.users u).mpr hu) hmem' hmem
  · intro ins'
    exact propogateFrom_idle ins' (s := { table := s'.table }) hrep'
      (fun u hu hl => (hlater u hu hl).2) s'.table.sockinsts fun u hu => hu

/-- INSs that do what they are asked. -/
def obliging : Answers := fun h =>
  { slot := .granted 0
    waited := 1
    response := { sockfd := (h.getLast?.map fun post => post.request.sockfd).getD 0 } }

theorem obliging_good : obliging.Good where
  granted _ := rfl
  waited _ := Int.one_pos
  succeeded _ := rfl
  created h p _ := by
    show mwSocketClientId (((h ++ [p]).getLast?.map fun post => post.request.sockfd).getD 0) = _
    rw [List.getLast?_concat]
    rfl

/-- A user socket listens on INS 5; it has an instance on INS 6, not bound yet,
and none on INS 7. -/
def mixed : Table where
  g := { socks := fun c =>
    if c = 0 then
      { remoteFd := mwSocketCreate 5 3
        mwflags := MwFlags.user ||| MwFlags.bound ||| MwFlags.listening }
    else { remoteFd := mwSocketCreate 6 4 } }
  sockinsts := [1, 0]
  siblings := fun u => if u = 0 then [1] else []
  nextSock := 2

theorem mixed_user {u : Nat} (h : mixed.isUser u) : u = 0 := by
  obtain ⟨hmem, hflag⟩ := h
  rcases List.mem_cons.mp hmem with rfl | hmem
  · exact absurd hflag (by decide)
  · exact List.mem_singleton.mp hmem

theorem mixed_onIns (d : BitVec 16) (c : Nat) :
    mixed.onIns d c = decide ((if c = 0 then 5 else 6) = d) := by
  have hfd : mwSocketClientId (mixed.sock c).remoteFd = if c = 0 then 5 else 6 := by
    by_cases hc : c = 0
    · rw [hc]
      exact mwSocketClientId_create 5 3
    · simp only [mixed, Table.sock, hc, if_false]
      exact mwSocketClientId_create 6 4
  rw [Table.onIns, hfd]

theorem mixed_replicable : Replicable [5, 6, 7] mixed where
  numbered := ⟨List.nodup_nil, List.nodup_nil, by simp [mixed, Globals.kinds],
    by simp [mixed, Globals.kinds]⟩
  below := by decide
  known u hu := by
    rw [mixed_user hu]
    decide
  plain u hu := by
    rw [mixed_user hu]
    decide
  apart u u' c hu hu' _ _ := (mixed_user hu).trans (mixed_user hu').symm
  held := by decide
  alive u _ c _ _ := by
    simp only [mixed, Table.sock]
    split
    · rfl
    · rfl
  single u hu d hd := by
    have hlive : d = 5 ∨ d = 6 ∨ d = 7 := by simpa using hd
    rw [mixed_user hu, show mixed.onIns d = _ from funext (mixed_onIns d)]
    rcases hlive with rfl | rfl | rfl
    · decide
    · decide
    · decide
  accepting u hu := by
    rw [mixed_user hu]
    decide
  undeferred u hu := by
    rw [mixed_user hu]
    rfl
  requests := by simp [mixed]

theorem listeners_propagated_mixed :
    ∃ s', mwsocketPropogateListeners obliging [5, 6, 7] mixed = some (s', 0) ∧
      Propagated [5, 6, 7] mixed s' :=
  listeners_propagated obliging_good mixed_replicable (by decide)

end Replication

end MagicWand.Kernel
