import MagicWand.Distro.Forwarding

/-!
# The rules in the tables

Whatever happens, the tables have the rules of the forwarders that are active, of
all objects that are referred to. While the events are orderly, the active
forwarders are those of the ports that the active INS has published last.
-/

namespace MagicWand.Distro

open Foundation

variable {α : Type} [LinearOrder α]

/-! ## The objects that are referred to -/

/-- A port has one forwarder, and the forwarders of an INS that is not active are
not active either. -/
structure Ins.Fine (x : Ins) : Prop where
  ports : (x.forwarders.map PortForwarder.port).Nodup
  idle : x.active = false → ∀ f ∈ x.forwarders, f.active = false

/-- Distinct objects, whose rules are those in the tables. -/
structure Sound (objects : List Ins) (next : Nat) (rules : List Rule) : Prop where
  refs : (objects.map Ins.ref).Nodup
  fresh : ∀ x ∈ objects, x.ref < next
  fine : ∀ x ∈ objects, x.Fine
  balanced : Balanced Ins.held objects rules

theorem Ins.Fine.held {x : Ins} (h : x.Fine) (hx : x.active = false) : x.held = [] := by
  refine List.flatMap_eq_nil_iff.mpr fun f hf => ?_
  rw [PortForwarder.held, h.idle hx f hf]
  rfl

theorem Ins.Fine.switched {x : Ins} (h : x.Fine) (activated : Bool) :
    (x.switched activated).Fine := by
  rw [Ins.switched]
  split
  · exact h
  · constructor
    · rw [List.map_map]
      exact h.ports
    · rintro rfl f hf
      obtain ⟨f', -, rfl⟩ := List.mem_map.mp hf
      rfl

namespace Sound

variable {objects objects' front back : List Ins} {next : Nat} {rules rules' : List Rule}
  {x y : Ins}

theorem perm (h : Sound objects next rules) (hperm : objects.Perm objects') :
    Sound objects' next rules where
  refs := (hperm.map Ins.ref).nodup_iff.mp h.refs
  fresh := fun x hx => h.fresh x (hperm.mem_iff.mpr hx)
  fine := fun x hx => h.fine x (hperm.mem_iff.mpr hx)
  balanced := h.balanced.reorder hperm

/-- A new object, which has no forwarders yet. -/
theorem enter (h : Sound objects next rules) (domid : Option Nat) :
    Sound ({ ref := next, domid := domid } :: objects) (next + 1) rules where
  refs := by
    rw [List.map_cons, List.nodup_cons]
    refine ⟨?_, h.refs⟩
    intro hmem
    obtain ⟨x, hx, href⟩ := List.mem_map.mp hmem
    exact absurd (h.fresh x hx) (by rw [href]; exact Nat.lt_irrefl _)
  fresh := by
    intro x hx
    rcases List.mem_cons.mp hx with rfl | hx
    · exact Nat.lt_succ_self _
    · exact Nat.lt_succ_of_lt (h.fresh x hx)
  fine := by
    intro x hx
    rcases List.mem_cons.mp hx with rfl | hx
    · exact ⟨List.nodup_nil, fun _ f hf => absurd hf List.not_mem_nil⟩
    · exact h.fine x hx
  balanced := h.balanced.enter rfl

/-- An object goes, and its forwarders delete their rules. -/
theorem leave (h : Sound (x :: objects) next rules) :
    Sound objects next (x.destroy rules) where
  refs := (List.nodup_cons.mp h.refs).2
  fresh := fun y hy => h.fresh y (List.mem_cons_of_mem x hy)
  fine := fun y hy => h.fine y (List.mem_cons_of_mem x hy)
  balanced := h.balanced.leave (Ins.destroy_rules (h.balanced.subperm List.mem_cons_self))

/-- An object changes, and the tables with it. -/
theorem change (h : Sound (front ++ x :: back) next rules) (href : y.ref = x.ref)
    (hfine : y.Fine) (hrules : (rules' ++ x.held).Perm (rules ++ y.held)) :
    Sound (front ++ y :: back) next rules' where
  refs := by
    have hrefs := h.refs
    rw [List.map_append, List.map_cons] at hrefs ⊢
    rwa [href]
  fresh := by
    intro z hz
    rw [List.mem_append, List.mem_cons] at hz
    rcases hz with hz | rfl | hz
    · exact h.fresh z (List.mem_append_left _ hz)
    · rw [href]
      exact h.fresh x (List.mem_append_right _ List.mem_cons_self)
    · exact h.fresh z (List.mem_append_right _ (List.mem_cons_of_mem x hz))
  fine := by
    intro z hz
    rw [List.mem_append, List.mem_cons] at hz
    rcases hz with hz | rfl | hz
    · exact h.fine z (List.mem_append_left _ hz)
    · exact hfine
    · exact h.fine z (List.mem_append_right _ (List.mem_cons_of_mem x hz))
  balanced := h.balanced.exchange hrules

end Sound

/-! ## Changes of an INS -/

/-- A change that the tables do not show. -/
structure Quiet (g : Ins → Ins) : Prop where
  ref : ∀ x, (g x).ref = x.ref
  active : ∀ x, (g x).active = x.active
  held : ∀ x, (g x).held = x.held
  fine : ∀ x, x.Fine → (g x).Fine

theorem addPort_cases (x : Ins) (p : Nat) :
    p ∈ x.forwarders.map PortForwarder.port ∧ x.addPort p = x ∨
      p ∉ x.forwarders.map PortForwarder.port ∧ x.addPort p =
        { x with forwarders := x.forwarders ++ [{ port := p, dest := x.ip }] } := by
  rw [Ins.addPort]
  split
  · rename_i hmem
    exact Or.inl ⟨hmem, rfl⟩
  · rename_i hmem
    exact Or.inr ⟨hmem, rfl⟩

theorem quiet_addPort (p : Nat) : Quiet fun x => x.addPort p where
  ref := by
    intro x
    rcases addPort_cases x p with ⟨-, heq⟩ | ⟨-, heq⟩
    · rw [heq]
    · rw [heq]
  active := by
    intro x
    rcases addPort_cases x p with ⟨-, heq⟩ | ⟨-, heq⟩
    · rw [heq]
    · rw [heq]
  held := by
    intro x
    rcases addPort_cases x p with ⟨-, heq⟩ | ⟨-, heq⟩
    · rw [heq]
    · rw [heq, Ins.held, List.flatMap_append]
      exact List.append_nil _
  fine := by
    intro x hx
    rcases addPort_cases x p with ⟨-, heq⟩ | ⟨hnew, heq⟩
    · rw [heq]
      exact hx
    · rw [heq]
      constructor
      · rw [List.map_append, List.map_singleton, ← List.concat_eq_append]
        exact List.Nodup.concat hnew hx.ports
      · intro hoff f hf
        rcases List.mem_append.mp hf with hf | hf
        · exact hx.idle hoff f hf
        · rw [List.mem_singleton.mp hf]

theorem Quiet.comp {g k : Ins → Ins} (hg : Quiet g) (hk : Quiet k) : Quiet (k ∘ g) where
  ref x := (hk.ref (g x)).trans (hg.ref x)
  active x := (hk.active (g x)).trans (hg.active x)
  held x := (hk.held (g x)).trans (hg.held x)
  fine x hx := hk.fine (g x) (hg.fine x hx)

theorem quiet_setListeningPorts (l : List Nat) : Quiet fun x => x.setListeningPorts l := by
  induction l with
  | nil => exact ⟨fun _ => rfl, fun _ => rfl, fun _ => rfl, fun _ hx => hx⟩
  | cons p l ih => exact (quiet_addPort p).comp ih

/-- Ports that have forwarders already. -/
theorem setListeningPorts_of_subset {x : Ins} {l : List Nat}
    (h : ∀ p ∈ l, p ∈ x.forwarders.map PortForwarder.port) : x.setListeningPorts l = x := by
  induction l with
  | nil => rfl
  | cons p l ih =>
      have hone : x.addPort p = x := by
        rw [Ins.addPort, if_pos (h p List.mem_cons_self)]
      rw [Ins.setListeningPorts, List.foldl_cons, hone]
      exact ih fun q hq => h q (List.mem_cons_of_mem p hq)

/-! ## Calls of `balance_load` -/

/-- What `balance_load` does to the map and the tables, one thing at a time. -/
inductive Pool.Move : Pool → Pool → Prop where
  | same {s s' : Pool} (h : Pool.Same s s') : Move s s'
  | set (s : Pool) (ref : Nat) (activated : Bool) : Move s (s.setInsActive ref activated)

/-- What an INS is forwarded for. -/
def Ins.shape (x : Ins) : Nat × List (Nat × Option String) :=
  (x.ref, x.forwarders.map fun f => (f.port, f.dest))

theorem Ins.switched_shape (activated : Bool) (x : Ins) : (x.switched activated).shape = x.shape := by
  rw [Ins.switched]
  split
  · rfl
  · rw [Ins.shape, Ins.shape, List.map_map]
    rfl

namespace Pool

variable {c : Settings α} {s s' : Pool} {rest : List Ins} {next : Nat}

theorem switch_moves (c : Settings α) (s : Pool) (curr new : Nat) :
    Relation.ReflTransGen Move s (s.switch c curr new).2 :=
  ((Relation.ReflTransGen.single (.set s new true)).tail (.set _ curr false)).tail
    (.same (same_switch c s curr new))

theorem balanceFrom_moves (c : Settings α) (s : Pool) (curr : Nat) :
    Relation.ReflTransGen Move s (s.balanceFrom c curr).2 := by
  have hsame := same_candidates c s curr
  rw [balanceFrom]
  split
  · exact .refl
  · split
    · rename_i heq
      rw [heq] at hsame
      exact .single (.same hsame)
    · rename_i heq
      rw [heq] at hsame
      exact .single (.same hsame)
    · rename_i heq
      rw [heq] at hsame
      have hone := Relation.ReflTransGen.single (Move.same hsame)
      split
      · exact hone
      · split
        · exact hone
        · split
          · exact hone
          · exact hone.trans (switch_moves c _ curr _)

theorem balanceLoad_moves (c : Settings α) (s : Pool) :
    Relation.ReflTransGen Move s (s.balanceLoad c).2 := by
  rw [balanceLoad]
  split
  · exact .refl
  · rename_i first _ _ _
    exact (Relation.ReflTransGen.single (.set s first.ref true)).trans
      (balanceFrom_moves c _ first.ref)
  · exact balanceFrom_moves c s _
  · exact .refl

theorem Same.sound (h : Same s s') (hsound : Sound (s.insMap ++ rest) next s.rules) :
    Sound (s'.insMap ++ rest) next s'.rules := by
  have hmem {x' : Ins} (hx' : x' ∈ s'.insMap ++ rest) :
      ∃ x ∈ s.insMap ++ rest, x.plain = x'.plain := by
    rcases List.mem_append.mp hx' with hx' | hx'
    · have hplain := List.mem_map_of_mem (f := Ins.plain) hx'
      rw [h.insMap] at hplain
      obtain ⟨x, hx, heq⟩ := List.mem_map.mp hplain
      exact ⟨x, List.mem_append_left _ hx, heq⟩
    · exact ⟨x', List.mem_append_right _ hx', rfl⟩
  constructor
  · rw [List.map_append, h.map fun _ => rfl, ← List.map_append]
    exact hsound.refs
  · intro x' hx'
    obtain ⟨x, hx, heq⟩ := hmem hx'
    have href : x.plain.ref = x'.plain.ref := congrArg Ins.ref heq
    change x.ref = x'.ref at href
    exact href ▸ hsound.fresh x hx
  · intro x' hx'
    obtain ⟨x, hx, heq⟩ := hmem hx'
    have hforwarders : x.plain.forwarders = x'.plain.forwarders := congrArg Ins.forwarders heq
    have hactive : x.plain.active = x'.plain.active := congrArg Ins.active heq
    change x.forwarders = x'.forwarders at hforwarders
    change x.active = x'.active at hactive
    have hfine := hsound.fine x hx
    exact ⟨hforwarders ▸ hfine.ports, hforwarders ▸ hactive ▸ hfine.idle⟩
  · rw [h.rules]
    refine hsound.balanced.congr ?_
    rw [List.map_append, h.map fun _ => rfl, ← List.map_append]

theorem setInsActive_split (hrefs : s.refs.Nodup) {x : Ins} (hx : x ∈ s.insMap)
    (activated : Bool) : ∃ front back, s.insMap = front ++ x :: back ∧
      (s.setInsActive x.ref activated).insMap = front ++ x.switched activated :: back ∧
        (s.setInsActive x.ref activated).rules = (x.setInsActive activated s.rules).2 := by
  obtain ⟨front, back, hmap, halter⟩ := alter_split hrefs hx
  refine ⟨front, back, hmap, ?_, ?_⟩
  · rw [setInsActive_insMap hrefs]
    exact halter _
  · rw [setInsActive, find_of_mem hrefs hx]

theorem setInsActive_of_none {ref : Nat} (h : s.find ref = none) (activated : Bool) :
    s.setInsActive ref activated = s := by
  rw [setInsActive, h]

theorem sound_refs (h : Sound (s.insMap ++ rest) next s.rules) : s.refs.Nodup := by
  have hrefs := h.refs
  rw [List.map_append] at hrefs
  exact hrefs.of_append_left

theorem sound_setInsActive (h : Sound (s.insMap ++ rest) next s.rules) (ref : Nat)
    (activated : Bool) : Sound ((s.setInsActive ref activated).insMap ++ rest) next
      (s.setInsActive ref activated).rules := by
  rcases hfind : s.find ref with _ | x
  · rw [setInsActive_of_none hfind]
    exact h
  · obtain ⟨hx, rfl⟩ := find_mem hfind
    obtain ⟨front, back, hmap, hmap', hrules⟩ := setInsActive_split (sound_refs h) hx activated
    rw [hmap, List.append_assoc, List.cons_append] at h
    rw [hmap', hrules, List.append_assoc, List.cons_append]
    exact h.change (x.switched_ref activated)
      ((h.fine x (List.mem_append_right _ List.mem_cons_self)).switched activated)
      (Ins.setInsActive_rules activated
        (h.balanced.subperm (List.mem_append_right _ List.mem_cons_self)))

theorem setInsActive_shape (hrefs : s.refs.Nodup) (ref : Nat) (activated : Bool) :
    (s.setInsActive ref activated).insMap.map Ins.shape = s.insMap.map Ins.shape := by
  rw [setInsActive_insMap hrefs]
  exact map_alter (Ins.switched_shape activated) ref s.insMap

/-- A call of `balance_load` keeps the objects sound, and what each is forwarded for. -/
theorem sound_balanceLoad (c : Settings α) (h : Sound (s.insMap ++ rest) next s.rules) :
    Sound ((s.balanceLoad c).2.insMap ++ rest) next (s.balanceLoad c).2.rules ∧
      (s.balanceLoad c).2.insMap.map Ins.shape = s.insMap.map Ins.shape := by
  have hmoves := balanceLoad_moves c s
  generalize (s.balanceLoad c).2 = s' at hmoves ⊢
  induction hmoves with
  | refl => exact ⟨h, rfl⟩
  | tail _ hmove ih =>
      obtain ⟨hsound, hshape⟩ := ih
      rcases hmove with hsame | ⟨ref, activated⟩
      · exact ⟨hsame.sound hsound, (hsame.map fun _ => rfl).trans hshape⟩
      · exact ⟨sound_setInsActive hsound ref activated,
          (setInsActive_shape (sound_refs hsound) ref activated).trans hshape⟩

/-- Activating an INS when none is active. -/
theorem active_first (hrefs : s.refs.Nodup) {x : Ins} (hx : x ∈ s.insMap)
    (hnone : s.insMap.filter Ins.active = []) :
    (s.setInsActive x.ref true).insMap.filter Ins.active =
      if x.forwarders.isEmpty then [] else [x.switched true] := by
  obtain ⟨front, back, hmap, hmap', -⟩ := setInsActive_split hrefs hx true
  rw [hmap, List.filter_append, List.filter_cons, List.append_eq_nil_iff] at hnone
  obtain ⟨hfront, hback⟩ := hnone
  split at hback
  · cases hback
  · rename_i hoff
    rw [hmap', List.filter_append, List.filter_cons, hfront, hback]
    rcases hempty : x.forwarders.isEmpty with _ | _
    · simp [Ins.switched, hempty]
    · simp [Ins.switched, hempty, hoff]

theorem installed_switched {x : Ins} (h : x.forwarders.isEmpty = false) :
    (x.switched true).Installed := by
  intro f hf
  rw [Ins.switched, h] at hf
  obtain ⟨f', -, rfl⟩ := List.mem_map.mp hf
  rfl

/-- From one active INS: it stays, or none is active, or the one that is picked. -/
theorem balanceFrom_active (c : Settings α) (hrefs : s.refs.Nodup) {curr : Ins}
    (hone : s.insMap.filter Ins.active = [curr]) :
    Same s (s.balanceFrom c curr.ref).2 ∨
      (s.balanceFrom c curr.ref).2.insMap.filter Ins.active = [] ∨
        ∃ x, (s.balanceFrom c curr.ref).2.insMap.filter Ins.active = [x] ∧ x.Installed ∧
          s.Picked c curr.ref x.ref := by
  rcases hports : s.hasForwarders curr.ref with _ | _
  · rw [balanceFrom, hports]
    exact Or.inl (Same.refl s)
  rcases balanceFrom_cases c hrefs hports with ⟨hsame, -⟩ |
    ⟨t, new, hsame, hpicked, hne, hswitch⟩
  · exact Or.inl hsame
  · obtain ⟨available, havailable, hmem⟩ := hpicked.mem
    have hin : new ∈ t.refs := by
      rw [hsame.refs]
      exact (candidates_among havailable).1.subset hmem
    obtain ⟨x, hx, rfl⟩ := List.mem_map.mp hin
    obtain ⟨curr', hcurr', href, -⟩ := hsame.active_one hone
    have hactive := active_switch (hsame.refs ▸ hrefs) hcurr' hx (href ▸ hne)
    rw [href] at hactive
    rcases hempty : x.forwarders.isEmpty with _ | _
    · rw [hempty] at hactive
      obtain ⟨y, hy, href', hforwarders⟩ := hswitch.active_one hactive
      refine Or.inr (Or.inr ⟨y, hy, ?_, ?_⟩)
      · rw [Ins.Installed, hforwarders]
        exact installed_switched hempty
      · rw [href', Ins.switched_ref]
        exact hpicked
    · rw [hempty] at hactive
      have hnone := hswitch.active
      rw [hactive] at hnone
      exact Or.inr (Or.inl (List.map_eq_nil_iff.mp hnone))

/-- After a call the active INS is the one from before, or one that was activated. -/
theorem balanceLoad_active (c : Settings α) (hrefs : s.refs.Nodup)
    (hone : (s.insMap.filter Ins.active).length ≤ 1) :
    Same s (s.balanceLoad c).2 ∨ (s.balanceLoad c).2.insMap.filter Ins.active = [] ∨
      ∃ x, (s.balanceLoad c).2.insMap.filter Ins.active = [x] ∧ x.Installed ∧
        s.Activates c x.ref := by
  rw [balanceLoad]
  unfold Activates
  rcases hmap : s.insMap with _ | ⟨first, rest⟩
  · exact Or.inl (Same.refl s)
  rcases hfilter : s.insMap.filter Ins.active with _ | ⟨curr, _ | ⟨other, l⟩⟩
  · have hfirst : first ∈ s.insMap := hmap ▸ List.mem_cons_self
    have hactive := active_first hrefs hfirst hfilter
    rw [← hmap, hfilter]
    simp only [hmap]
    have hhas : s.hasForwarders first.ref = !first.forwarders.isEmpty := by
      rw [hasForwarders, find_of_mem hrefs hfirst]
      rfl
    rcases hempty : first.forwarders.isEmpty with _ | _
    · rw [hempty] at hactive hhas
      have hcall := balanceFrom_active c (by rw [setInsActive_refs hrefs]; exact hrefs) hactive
      rw [Ins.switched_ref] at hcall
      rcases hcall with hsame | hnone | ⟨x, hx, hinstalled, hpicked⟩
      · obtain ⟨y, hy, href, hforwarders⟩ := hsame.active_one hactive
        refine Or.inr (Or.inr ⟨y, hy, ?_, hhas, Or.inl ?_⟩)
        · rw [Ins.Installed, hforwarders]
          exact installed_switched hempty
        · rw [href, Ins.switched_ref]
      · exact Or.inr (Or.inl hnone)
      · exact Or.inr (Or.inr ⟨x, hx, hinstalled, hhas, Or.inr hpicked⟩)
    · -- An INS that does not listen is not activated, and the call is over.
      rw [hempty] at hactive
      have hquiet : (s.setInsActive first.ref true).hasForwarders first.ref = false := by
        obtain ⟨front, back, hold, hnew, -⟩ := setInsActive_split hrefs hfirst true
        have hmem : first.switched true ∈ (s.setInsActive first.ref true).insMap := by
          rw [hnew]
          exact List.mem_append_right _ List.mem_cons_self
        have hfind := find_of_mem (by rw [setInsActive_refs hrefs]; exact hrefs) hmem
        rw [Ins.switched_ref] at hfind
        rw [hasForwarders, hfind]
        simp [Ins.switched, hempty]
      refine Or.inr (Or.inl ?_)
      rw [balanceFrom, hquiet]
      exact hactive
  · rw [← hmap, hfilter]
    simp only [hmap]
    rcases balanceFrom_active c hrefs hfilter with hsame | hnone | hsome
    · exact Or.inl hsame
    · exact Or.inr (Or.inl hnone)
    · exact Or.inr (Or.inr hsome)
  · rw [hfilter] at hone
    exact absurd hone (by simp)

end Pool

/-! ## Every reachable state -/

namespace World

/-- The objects that are referred to. -/
def objects (w : World) : List Ins := w.pool.insMap ++ (w.queue ++ w.orphan.toList)

/-- What holds whatever happens. -/
structure Wf (w : World) : Prop where
  sound : Sound w.objects w.next w.pool.rules
  one : (w.pool.insMap.filter Ins.active).length ≤ 1
  waiting : ∀ x ∈ w.queue, x.active = false
  orphan : ∀ x ∈ w.orphan, w.last = some x.ref

variable {c : Settings α} {w w' : World}

theorem wf_init : Wf {} where
  sound := ⟨List.nodup_nil, fun _ hx => absurd hx List.not_mem_nil,
    fun _ hx => absurd hx List.not_mem_nil, List.Perm.refl _⟩
  one := Nat.zero_le _
  waiting := fun _ hx => absurd hx List.not_mem_nil
  orphan := fun _ hx => nomatch hx

theorem Wf.refs (h : w.Wf) : w.pool.refs.Nodup := Pool.sound_refs h.sound

theorem Wf.fine (h : w.Wf) {x : Ins} (hx : x ∈ w.pool.insMap) : x.Fine :=
  h.sound.fine x (List.mem_append_left _ hx)

theorem at_mem {domid : Nat} {x : Ins} (h : w.at? domid = some x) : x ∈ w.pool.insMap :=
  List.mem_of_find?_eq_some h

theorem sound_modify (h : Sound w.objects w.next w.pool.rules) {g : Ins → Ins} (hg : Quiet g)
    (ref : Nat) : Sound (w.modify ref g).objects (w.modify ref g).next
      (w.modify ref g).pool.rules := by
  have hmap : (w.modify ref g).pool.insMap = alter Ins.ref ref g w.pool.insMap := rfl
  constructor
  · rw [objects, hmap, List.map_append, map_alter hg.ref, ← List.map_append]
    exact h.refs
  · intro x hx
    rw [objects, hmap, alter, List.mem_append, List.mem_map] at hx
    rcases hx with ⟨y, hy, rfl⟩ | hx
    · have hlt := h.fresh y (List.mem_append_left _ hy)
      split
      · rw [hg.ref]
        exact hlt
      · exact hlt
    · exact h.fresh x (List.mem_append_right _ hx)
  · intro x hx
    rw [objects, hmap, alter, List.mem_append, List.mem_map] at hx
    rcases hx with ⟨y, hy, rfl⟩ | hx
    · have hfine := h.fine y (List.mem_append_left _ hy)
      split
      · exact hg.fine y hfine
      · exact hfine
    · exact h.fine x (List.mem_append_right _ hx)
  · refine h.balanced.congr ?_
    rw [objects, hmap, List.map_append, map_alter hg.held, ← List.map_append]
    rfl

/-- The numbers of active INSs before and after a quiet change. -/
theorem one_modify {g : Ins → Ins} (hg : Quiet g) (ref : Nat) :
    ((w.modify ref g).pool.insMap.filter Ins.active).length =
      (w.pool.insMap.filter Ins.active).length := by
  have hmap : (w.modify ref g).pool.insMap = alter Ins.ref ref g w.pool.insMap := rfl
  rw [← List.countP_eq_length_filter, ← List.countP_eq_length_filter, hmap]
  have hcount (l : List Ins) : l.countP Ins.active = (l.map Ins.active).count true := by
    rw [List.count, List.countP_map]
    congr 1
    funext x
    simp
  rw [hcount, hcount, map_alter hg.active]

theorem wf_modify (h : w.Wf) {g : Ins → Ins} (hg : Quiet g) (ref : Nat) :
    (w.modify ref g).Wf where
  sound := sound_modify h.sound hg ref
  one := by
    rw [one_modify hg ref]
    exact h.one
  waiting := h.waiting
  orphan := h.orphan

theorem wf_change {β : Type} (h : w.Wf) (domid : Nat) (value : Option β) {f : β → Ins → Ins}
    (hf : ∀ v, Quiet (f v)) : (w.change domid value f).Wf := by
  unfold change
  split
  · exact wf_modify h (hf _) _
  · exact ⟨h.sound, h.one, h.waiting, h.orphan⟩

theorem wf_watch (h : w.Wf) {handler : World → World} (hstep : (handler w).Wf) :
    (w.watch handler).Wf := by
  rw [watch]
  split
  · exact hstep
  · exact h

theorem wf_publishPorts (h : w.Wf) (domid : Nat) (value : Option (List Nat)) :
    (w.publishPorts domid value).Wf := by
  unfold publishPorts
  split
  · exact ⟨h.sound, h.one, h.waiting, h.orphan⟩
  · exact h

theorem wf_publishAddress (h : w.Wf) (domid : Nat) (value : Option String) :
    (w.publishAddress domid value).Wf := by
  unfold publishAddress
  split
  · exact ⟨h.sound, h.one, h.waiting, h.orphan⟩
  · exact h

/-! ### Objects that come and go -/

/-- The object that the map does not refer to any longer is kept by `i`, or goes. -/
theorem sound_discard {x : Ins} (h : Sound (x :: w.objects) w.next w.pool.rules)
    (hlast : ∀ y ∈ w.orphan, w.last = some y.ref) :
    Sound (w.discard x).objects (w.discard x).next (w.discard x).pool.rules := by
  rw [discard]
  split
  · rename_i hkept
    have hnone : w.orphan = none := by
      rcases horphan : w.orphan with _ | y
      · rfl
      · have hsame : x.ref = y.ref := Option.some.inj (hkept.symm.trans (hlast y horphan))
        have hmem : y ∈ w.objects := by simp [objects, horphan]
        have hrefs := h.refs
        rw [List.map_cons, List.nodup_cons, hsame] at hrefs
        exact absurd (List.mem_map_of_mem hmem) hrefs.1
    refine h.perm ?_
    rw [objects, objects, hnone, Option.toList_none, List.append_nil, Option.toList_some,
      ← List.append_assoc]
    exact (List.perm_append_singleton x _).symm
  · exact h.leave

theorem discard_frame (w : World) (x : Ins) : (w.discard x).pool.insMap = w.pool.insMap ∧
    (w.discard x).queue = w.queue ∧ (w.discard x).last = w.last ∧
      ∀ y ∈ (w.discard x).orphan, y ∈ w.orphan ∨ y = x ∧ w.last = some x.ref := by
  rw [discard]
  split
  · rename_i hkept
    refine ⟨rfl, rfl, rfl, ?_⟩
    intro y hy
    exact Or.inr ⟨(Option.some.inj hy).symm, hkept⟩
  · exact ⟨rfl, rfl, rfl, fun y hy => Or.inl hy⟩

theorem orphan_discard {x : Ins} (hlast : ∀ y ∈ w.orphan, w.last = some y.ref) :
    ∀ y ∈ (w.discard x).orphan, (w.discard x).last = some y.ref := by
  obtain ⟨-, -, hsame, horphan⟩ := discard_frame w x
  intro y hy
  rw [hsame]
  rcases horphan y hy with hy | ⟨rfl, hkept⟩
  · exact hlast y hy
  · exact hkept

theorem wf_spawn (h : w.Wf) : w.spawn.Wf where
  sound := by
    have hrest : Sound (w.pool.insMap ++ w.queue) w.next w.spawn.pool.rules := by
      rcases horphan : w.orphan with _ | x
      · have hsound := h.sound
        rw [objects, horphan, Option.toList_none, List.append_nil] at hsound
        simp only [spawn, horphan]
        exact hsound
      · have hsound := h.sound
        rw [objects, horphan, Option.toList_some, ← List.append_assoc] at hsound
        simp only [spawn, horphan]
        exact (hsound.perm (List.perm_append_singleton x _)).leave
    refine (hrest.enter none).perm ?_
    rw [objects, spawn]
    simp only [Option.toList_none, List.append_nil]
    rw [← List.append_assoc]
    exact (List.perm_append_singleton _ _).symm
  one := h.one
  waiting := by
    intro x hx
    rcases List.mem_append.mp hx with hx | hx
    · exact h.waiting x hx
    · rw [List.mem_singleton.mp hx]
  orphan := fun x hx => nomatch hx

/-- The object that is put in the map is not active, and none of the others. -/
theorem register_spec (h : w.Wf) (domid : Nat) :
    Sound ((w.register domid).1 :: (w.register domid).2.objects) (w.register domid).2.next
        (w.register domid).2.pool.rules ∧ (w.register domid).1.active = false ∧
      (w.register domid).2.pool = w.pool ∧ (w.register domid).2.last = w.last ∧
        (w.register domid).2.orphan = w.orphan ∧ (w.register domid).2.ports = w.ports ∧
          (w.register domid).2.address = w.address ∧
            ∀ x ∈ (w.register domid).2.queue, x.active = false := by
  rw [register]
  rcases hqueue : w.queue with _ | ⟨x, rest⟩
  · refine ⟨?_, rfl, rfl, rfl, rfl, rfl, rfl, ?_⟩
    · have hsound := h.sound
      rw [objects, hqueue] at hsound
      exact hsound.enter (some domid)
    · intro y hy
      exact absurd hy List.not_mem_nil
  · have hx : x.active = false := h.waiting x (hqueue ▸ List.mem_cons_self)
    refine ⟨?_, hx, rfl, rfl, rfl, rfl, rfl, ?_⟩
    · have hsound := h.sound
      rw [objects, hqueue, List.cons_append] at hsound
      have hfine := hsound.fine x (List.mem_append_right _ List.mem_cons_self)
      have hchange := hsound.change (y := { x with domid := some domid }) rfl
        ⟨hfine.ports, hfine.idle⟩ (List.Perm.refl _)
      exact hchange.perm List.perm_middle
    · intro y hy
      exact h.waiting y (hqueue ▸ List.mem_cons_of_mem x hy)

/-- An INS registers: the map has it at its end, or in place of another one, which
is discarded. -/
theorem insDomId_cases (w : World) (domid : Nat) :
    let x := (w.register domid).1
    let v := (w.register domid).2
    v.at? domid = none ∧ w.insDomId domid (some domid) =
        { v with pool := { v.pool with insMap := v.pool.insMap ++ [x] } } ∨
      ∃ old, v.at? domid = some old ∧
        w.insDomId domid (some domid) = (v.modify old.ref fun _ => x).discard old := by
  intro x v
  rw [insDomId, if_pos rfl]
  simp only
  rcases hat : (w.register domid).2.at? domid with _ | old
  · exact Or.inl ⟨rfl, rfl⟩
  · exact Or.inr ⟨old, rfl, rfl⟩

theorem wf_insDomId (h : w.Wf) (domid : Nat) (value : Option Nat) :
    (w.insDomId domid value).Wf := by
  by_cases hvalue : value = some domid
  swap
  · rw [insDomId, if_neg hvalue]
    exact ⟨h.sound, h.one, h.waiting, h.orphan⟩
  subst hvalue
  obtain ⟨hsound, hoff, hpool, hlast, horphan, -, -, hwaiting⟩ := register_spec h domid
  have hcases := insDomId_cases w domid
  revert hsound hoff hpool hlast horphan hwaiting hcases
  generalize (w.register domid).1 = x
  generalize (w.register domid).2 = v
  intro hsound hoff hpool hlast horphan hwaiting hcases
  have hkept : ∀ y ∈ v.orphan, v.last = some y.ref := by
    rw [horphan, hlast]
    exact h.orphan
  have hone : (v.pool.insMap.filter Ins.active).length ≤ 1 := by
    rw [hpool]
    exact h.one
  rcases hcases with ⟨-, heq⟩ | ⟨old, hat, heq⟩
  · rw [heq]
    refine ⟨hsound.perm ?_, ?_, hwaiting, hkept⟩
    · rw [objects, objects, List.append_assoc]
      exact List.perm_middle.symm
    · rw [List.filter_append, List.filter_singleton, hoff]
      simpa using hone
  · have hrefs := hsound.refs
    rw [List.map_cons, List.nodup_cons, objects, List.map_append] at hrefs
    obtain ⟨front, back, hmap, halter⟩ := alter_split hrefs.2.of_append_left (at_mem hat)
    have hmap' : (v.modify old.ref fun _ => x).pool.insMap = front ++ x :: back := halter _
    rw [heq]
    obtain ⟨hinsMap, hqueue, -, -⟩ := discard_frame (v.modify old.ref fun _ => x) old
    refine ⟨sound_discard ?_ hkept, ?_, ?_, orphan_discard hkept⟩
    · refine hsound.perm ?_
      rw [objects, objects, hmap, hmap', List.append_assoc, List.append_assoc, List.cons_append,
        List.cons_append]
      refine (List.Perm.cons x List.perm_middle).trans ((List.Perm.swap _ _ _).trans ?_)
      exact List.Perm.cons old List.perm_middle.symm
    · rw [hinsMap, hmap', List.filter_append, List.filter_cons_of_neg (by rw [hoff]; simp)]
      rw [hmap, List.filter_append] at hone
      have hsub : (back.filter Ins.active).Sublist ((old :: back).filter Ins.active) :=
        (List.sublist_cons_self old back).filter _
      exact le_trans (hsub.append_left _).length_le hone
    · rw [hqueue]
      exact hwaiting

theorem wf_died (h : w.Wf) (domid : Nat) : (w.died domid).Wf := by
  rw [died]
  rcases hat : w.at? domid with _ | x
  · exact h
  · obtain ⟨front, back, hmap, -⟩ := alter_split h.refs (at_mem hat)
    have hrefs := h.refs
    rw [Pool.refs, hmap, List.map_append, List.map_cons, List.nodup_middle, List.nodup_cons,
      List.mem_append, not_or] at hrefs
    have hkeep {l : List Ins} (hl : x.ref ∉ l.map Ins.ref) :
        l.filter (fun y => y.ref ≠ x.ref) = l := by
      refine List.filter_eq_self.mpr fun y hy => ?_
      rw [decide_eq_true_eq]
      intro heq
      exact hl (heq ▸ List.mem_map_of_mem hy)
    have hfilter : w.pool.insMap.filter (fun y => y.ref ≠ x.ref) = front ++ back := by
      rw [hmap, List.filter_append, List.filter_cons_of_neg (by simp), hkeep hrefs.1.1,
        hkeep hrefs.1.2]
    simp only [hfilter]
    obtain ⟨hinsMap, hqueue, -, -⟩ := discard_frame
      { w with pool := { w.pool with insMap := front ++ back } } x
    refine ⟨sound_discard ?_ h.orphan, ?_, ?_, orphan_discard h.orphan⟩
    · have hsound := h.sound
      rw [objects, hmap, List.append_assoc, List.cons_append] at hsound
      refine hsound.perm (List.perm_middle.trans ?_)
      rw [objects, List.append_assoc]
    · rw [hinsMap]
      have hone := h.one
      rw [hmap] at hone
      have hsub : (front ++ back).Sublist (front ++ x :: back) :=
        (List.sublist_cons_self x back).append_left front
      exact le_trans (hsub.filter _).length_le hone
    · rw [hqueue]
      exact h.waiting

/-! ### Calls -/

theorem wf_same (h : w.Wf) {s : Pool} (hsame : Pool.Same w.pool s) :
    ({ w with pool := s } : World).Wf where
  sound := hsame.sound h.sound
  one := by
    have hlength := congrArg List.length hsame.active
    rw [List.length_map, List.length_map] at hlength
    rw [hlength]
    exact h.one
  waiting := h.waiting
  orphan := h.orphan

theorem wf_printLoad (h : w.Wf) (c : Settings α) (domid : Nat) : (w.printLoad c domid).Wf := by
  rw [printLoad]
  split
  · exact h
  · split
    · exact h
    · exact wf_same h (Pool.same_overloaded c w.pool _)

theorem wf_balanceLoad (h : w.Wf) (c : Settings α) :
    ({ w with pool := (w.pool.balanceLoad c).2 } : World).Wf where
  sound := (Pool.sound_balanceLoad c h.sound).1
  one := by
    rcases Pool.balanceLoad_active c h.refs h.one with hsame | hnone | ⟨x, hx, -⟩
    · exact (wf_same h hsame).one
    · simp only [hnone]
      exact Nat.zero_le _
    · simp only [hx]
      exact Nat.le_refl _
  waiting := h.waiting
  orphan := h.orphan

/-- What holds whatever happens is kept by every step. -/
theorem wf_step {e : Event} (h : w.Wf) (hs : w.step c e = some w') : w'.Wf := by
  cases e with
  | spawn =>
      cases hs
      exact wf_spawn h
  | insDomId domid value =>
      cases hs
      exact wf_watch h (wf_insDomId h domid value)
  | ipAddrs domid value =>
      cases hs
      have hpublish := wf_publishAddress h domid (value.bind single)
      refine wf_watch hpublish (wf_change hpublish domid _ fun ip => ?_)
      exact ⟨fun _ => rfl, fun _ => rfl, fun _ => rfl, fun _ hx => ⟨hx.ports, hx.idle⟩⟩
  | networkStats domid value =>
      cases hs
      refine wf_watch h (wf_change h domid _ fun v => ?_)
      exact ⟨fun _ => rfl, fun _ => rfl, fun _ => rfl, fun _ hx => ⟨hx.ports, hx.idle⟩⟩
  | heartbeat domid =>
      cases hs
      refine wf_watch h (wf_change h domid _ fun _ => ?_)
      exact ⟨fun _ => rfl, fun _ => rfl, fun _ => rfl, fun _ hx => hx⟩
  | listeningPorts domid value =>
      cases hs
      have hpublish := wf_publishPorts h domid value
      exact wf_watch hpublish (wf_change hpublish domid value quiet_setListeningPorts)
  | died domid =>
      cases hs
      exact wf_died h domid
  | balanceLoad =>
      cases hs
      exact wf_balanceLoad h c
  | printLoad domid =>
      cases hs
      exact wf_printLoad h c domid
  | touchTrigger =>
      cases hs
      exact wf_same h ⟨rfl, rfl⟩
  | rehash insMap =>
      rw [step] at hs
      split at hs
      · rename_i hperm
        cases hs
        refine ⟨h.sound.perm (hperm.symm.append_right _), ?_, h.waiting, h.orphan⟩
        rw [(hperm.filter _).length_eq]
        exact h.one
      · cases hs

/-! ## Orderly runs -/

/-- What holds while the events are orderly. -/
structure Live (w : World) : Prop where
  current : ∀ x ∈ w.pool.insMap, x.active = true → x.Installed ∧ w.Current x
  orphan : ∀ x ∈ w.orphan, x.active = false

/-- It depends only on what an INS is forwarded for. -/
theorem current_iff (w : World) (x : Ins) :
    w.Current x ↔ (∀ p, p ∈ x.shape.2.map Prod.fst ↔ p ∈ w.ports x.shape.1) ∧
      ∀ f ∈ x.shape.2, f.2 = w.address x.shape.1 := by
  have hports : x.shape.2.map Prod.fst = x.forwarders.map PortForwarder.port := by
    rw [Ins.shape, List.map_map]
    rfl
  rw [hports, Current]
  refine and_congr Iff.rfl ?_
  constructor
  · intro h f hf
    obtain ⟨f', hf', rfl⟩ := List.mem_map.mp hf
    exact h f' hf'
  · intro h f hf
    exact h (f.port, f.dest) (List.mem_map_of_mem hf)

theorem Current.congr {x y : Ins} (h : w.Current x) (hshape : y.shape = x.shape) :
    w.Current y := by
  rw [current_iff, hshape, ← current_iff]
  exact h

theorem mem_modify {ref : Nat} {g : Ins → Ins} {y : Ins}
    (hy : y ∈ (w.modify ref g).pool.insMap) :
    y ∈ w.pool.insMap ∨ ∃ x ∈ w.pool.insMap, x.ref = ref ∧ y = g x := by
  obtain ⟨x, hx, rfl⟩ := List.mem_map.mp hy
  split
  · rename_i href
    exact Or.inr ⟨x, hx, href, rfl⟩
  · exact Or.inl hx

/-- A change that leaves the forwarders of the INS alone if it is active. -/
theorem live_modify (h : w.Live) {g : Ins → Ins} (hg : Quiet g) {ref : Nat}
    (hsame : ∀ x ∈ w.pool.insMap, x.ref = ref → x.active = true →
      (g x).forwarders = x.forwarders) : (w.modify ref g).Live := by
  refine ⟨?_, h.orphan⟩
  intro y hy hactive
  rcases mem_modify hy with hy | ⟨x, hx, href, rfl⟩
  · exact h.current y hy hactive
  · rw [hg.active] at hactive
    obtain ⟨hinstalled, hcurrent⟩ := h.current x hx hactive
    have hforwarders := hsame x hx href hactive
    refine ⟨?_, ?_⟩
    · rw [Ins.Installed, hforwarders]
      exact hinstalled
    · rw [Current, hforwarders, hg.ref]
      exact hcurrent

theorem live_change {β : Type} (h : w.Live) {domid : Nat} {value : Option β}
    {f : β → Ins → Ins} (hf : ∀ v, Quiet (f v))
    (hsame : ∀ v, value = some v → ∀ x ∈ w.pool.insMap, ∀ y, w.at? domid = some y →
      x.ref = y.ref → x.active = true → (f v x).forwarders = x.forwarders) :
    (w.change domid value f).Live := by
  unfold change
  split
  · rename_i v y hy
    exact live_modify h (hf v) fun x hx => hsame v rfl x hx y hy
  · exact ⟨h.current, h.orphan⟩

theorem live_watch (h : w.Live) {handler : World → World}
    (hstep : w.watching = true → (handler w).Live) : (w.watch handler).Live := by
  rw [watch]
  split
  · rename_i hwatching
    exact hstep hwatching
  · exact h

theorem live_publishPorts (hwf : w.Wf) (h : w.Live) {domid : Nat} {value : Option (List Nat)}
    (hG : ∀ x, w.at? domid = some x → x.active = true → ∀ l, value = some l →
      ∀ p, p ∈ l ↔ p ∈ w.ports x.ref) : (w.publishPorts domid value).Live := by
  unfold publishPorts
  split
  · rename_i l x hx
    refine ⟨fun y hy hactive => ?_, h.orphan⟩
    obtain ⟨hinstalled, hports, haddress⟩ := h.current y hy hactive
    refine ⟨hinstalled, fun p => ?_, haddress⟩
    simp only
    by_cases href : y.ref = x.ref
    · obtain rfl := List.inj_on_of_nodup_map hwf.refs hy (at_mem hx) href
      rw [Function.update_self, hports, hG y hx hactive l rfl]
    · rw [Function.update_of_ne href, hports]
  · exact h

theorem live_publishAddress (hwf : w.Wf) (h : w.Live) {domid : Nat} {value : Option String}
    (hG : ∀ x, w.at? domid = some x → x.active = true → ∀ ip, value = some ip →
      w.address x.ref = some ip) : (w.publishAddress domid value).Live := by
  unfold publishAddress
  split
  · rename_i ip x hx
    refine ⟨fun y hy hactive => ?_, h.orphan⟩
    obtain ⟨hinstalled, hports, haddress⟩ := h.current y hy hactive
    refine ⟨hinstalled, hports, fun f hf => ?_⟩
    simp only
    rw [haddress f hf]
    by_cases href : y.ref = x.ref
    · obtain rfl := List.inj_on_of_nodup_map hwf.refs hy (at_mem hx) href
      rw [Function.update_self, hG y hx hactive ip rfl]
    · rw [Function.update_of_ne href]
  · exact h

theorem publishPorts_frame (w : World) (domid : Nat) (value : Option (List Nat)) :
    (w.publishPorts domid value).pool = w.pool := by
  unfold publishPorts
  split
  · rfl
  · rfl

theorem live_listeningPorts (hwf : w.Wf) (h : w.Live) {domid : Nat} {value : Option (List Nat)}
    (hG : ∀ x, w.at? domid = some x → x.active = true → ∀ l, value = some l →
      ∀ p, p ∈ l ↔ p ∈ w.ports x.ref) :
    ((w.publishPorts domid value).watch fun w =>
      w.change domid value fun l x => x.setListeningPorts l).Live := by
  have hlive := live_publishPorts hwf h hG
  refine live_watch hlive fun _ => live_change hlive quiet_setListeningPorts ?_
  rintro l rfl x hx y hy href hactive
  obtain ⟨-, hports, -⟩ := hlive.current x hx hactive
  have hat : w.at? domid = some y := by
    rw [← hy, at?, at?, publishPorts_frame]
  have hpublished : (w.publishPorts domid (some l)).ports x.ref = l := by
    unfold publishPorts
    rw [hat, href]
    exact Function.update_self _ _ _
  rw [hpublished] at hports
  rw [setListeningPorts_of_subset fun p hp => (hports p).mpr hp]

/-- An INS that the map does not refer to any longer is not active if `i` has it. -/
theorem live_discard (h : w.Live) {x : Ins} (hx : w.last = some x.ref → x.active = false) :
    (w.discard x).Live := by
  obtain ⟨hinsMap, -, -, horphan⟩ := discard_frame w x
  have hghost : (w.discard x).ports = w.ports ∧ (w.discard x).address = w.address := by
    rw [discard]
    split
    · exact ⟨rfl, rfl⟩
    · exact ⟨rfl, rfl⟩
  constructor
  · intro y hy hactive
    rw [hinsMap] at hy
    rw [Current, hghost.1, hghost.2]
    exact h.current y hy hactive
  · intro y hy
    rcases horphan y hy with hy | ⟨rfl, hkept⟩
    · exact h.orphan y hy
    · exact hx hkept

theorem live_insDomId (hwf : w.Wf) (h : w.Live) {domid : Nat} {value : Option Nat}
    (hG : value = some domid → ∀ x, w.at? domid = some x → x.active = true →
      w.last ≠ some x.ref) : (w.insDomId domid value).Live := by
  by_cases hvalue : value = some domid
  swap
  · rw [insDomId, if_neg hvalue]
    exact ⟨h.current, h.orphan⟩
  subst hvalue
  obtain ⟨-, hoff, hpool, hlast, horphan, hports, haddress, -⟩ := register_spec hwf domid
  have hcases := insDomId_cases w domid
  revert hoff hpool hlast horphan hports haddress hcases
  generalize (w.register domid).1 = x
  generalize (w.register domid).2 = v
  intro hoff hpool hlast horphan hports haddress hcases
  have hlive : v.Live := by
    refine ⟨?_, horphan ▸ h.orphan⟩
    intro y hy hactive
    rw [Current, hports, haddress]
    exact h.current y (hpool ▸ hy) hactive
  rcases hcases with ⟨-, heq⟩ | ⟨old, hat, heq⟩
  · rw [heq]
    refine ⟨?_, hlive.orphan⟩
    intro y hy hactive
    rcases List.mem_append.mp hy with hy | hy
    · exact hlive.current y hy hactive
    · rw [List.mem_singleton.mp hy, hoff] at hactive
      cases hactive
  · have hold : w.at? domid = some old := by
      rw [← hat, at?, at?, hpool]
    have hmodify : (v.modify old.ref fun _ => x).Live := by
      refine ⟨?_, hlive.orphan⟩
      intro y hy hactive
      rcases mem_modify hy with hy | ⟨_, _, _, rfl⟩
      · exact hlive.current y hy hactive
      · rw [hoff] at hactive
        cases hactive
    rw [heq]
    refine live_discard hmodify ?_
    intro hkept
    change v.last = some old.ref at hkept
    rw [← Bool.not_eq_true]
    exact fun hactive => hG rfl old hold hactive (hlast ▸ hkept)

theorem live_died (h : w.Live) {domid : Nat}
    (hG : ∀ x, w.at? domid = some x → x.active = true → w.last ≠ some x.ref) :
    (w.died domid).Live := by
  rw [died]
  split
  · exact h
  · rename_i x hx
    have hlive : ({ w with pool := { w.pool with
        insMap := w.pool.insMap.filter fun y => y.ref ≠ x.ref } } : World).Live := by
      refine ⟨?_, h.orphan⟩
      intro y hy hactive
      exact h.current y (List.mem_filter.mp hy).1 hactive
    refine live_discard hlive ?_
    intro hkept
    rw [← Bool.not_eq_true]
    exact fun hactive => hG x hx hactive hkept

theorem live_same (h : w.Live) {s : Pool} (hsame : Pool.Same w.pool s) :
    ({ w with pool := s } : World).Live := by
  refine ⟨?_, h.orphan⟩
  intro y hy hactive
  have hplain := List.mem_map_of_mem (f := Ins.plain) hy
  rw [hsame.insMap] at hplain
  obtain ⟨x, hx, heq⟩ := List.mem_map.mp hplain
  have hon : x.plain.active = y.plain.active := congrArg Ins.active heq
  have hforwarders : x.plain.forwarders = y.plain.forwarders := congrArg Ins.forwarders heq
  have hshape : x.plain.shape = y.plain.shape := congrArg Ins.shape heq
  obtain ⟨hinstalled, hcurrent⟩ := h.current x hx (hon.trans hactive)
  refine ⟨?_, hcurrent.congr hshape.symm⟩
  change x.forwarders = y.forwarders at hforwarders
  rw [Ins.Installed, ← hforwarders]
  exact hinstalled

theorem live_balanceLoad (hwf : w.Wf) (h : w.Live) {c : Settings α}
    (hG : ∀ x ∈ w.pool.insMap, w.pool.Activates c x.ref → w.Current x) :
    ({ w with pool := (w.pool.balanceLoad c).2 } : World).Live := by
  rcases Pool.balanceLoad_active c hwf.refs hwf.one with hsame | hnone |
    ⟨x, hx, hinstalled, hactivates⟩
  · exact live_same h hsame
  · refine ⟨?_, h.orphan⟩
    intro y hy hactive
    have hmem : y ∈ (w.pool.balanceLoad c).2.insMap.filter Ins.active :=
      List.mem_filter.mpr ⟨hy, hactive⟩
    rw [hnone] at hmem
    exact absurd hmem List.not_mem_nil
  · refine ⟨?_, h.orphan⟩
    intro y hy hactive
    have hmem : y ∈ (w.pool.balanceLoad c).2.insMap.filter Ins.active :=
      List.mem_filter.mpr ⟨hy, hactive⟩
    rw [hx, List.mem_singleton] at hmem
    subst hmem
    -- The INS that was activated was in the map before, with the same forwarders.
    have hshape := List.mem_map_of_mem (f := Ins.shape) hy
    simp only [(Pool.sound_balanceLoad c hwf.sound).2] at hshape
    obtain ⟨z, hz, heq⟩ := List.mem_map.mp hshape
    have href : z.ref = y.ref := congrArg Prod.fst heq
    have hcurrent := hG z hz (href ▸ hactivates)
    exact ⟨hinstalled, hcurrent.congr (w := { w with pool := _ }) heq.symm⟩

/-- An orderly step keeps the active forwarders those of what was published last. -/
theorem live_step {e : Event} (hwf : w.Wf) (h : w.Live) (hG : Orderly c w e)
    (hs : w.step c e = some w') : w'.Live := by
  cases e with
  | spawn =>
      cases hs
      exact ⟨h.current, fun x hx => nomatch hx⟩
  | insDomId domid value =>
      cases hs
      exact live_watch h fun hwatching => live_insDomId hwf h (hG hwatching)
  | ipAddrs domid value =>
      cases hs
      have hlive : (w.publishAddress domid (value.bind single)).Live :=
        live_publishAddress hwf h fun x hx hactive => hG x hx hactive
      refine live_watch hlive fun _ => live_change hlive (fun ip => ?_) fun _ _ _ _ _ _ _ _ => rfl
      exact ⟨fun _ => rfl, fun _ => rfl, fun _ => rfl, fun _ hx => ⟨hx.ports, hx.idle⟩⟩
  | networkStats domid value =>
      cases hs
      refine live_watch h fun _ => live_change h (fun v => ?_) fun _ _ _ _ _ _ _ _ => rfl
      exact ⟨fun _ => rfl, fun _ => rfl, fun _ => rfl, fun _ hx => ⟨hx.ports, hx.idle⟩⟩
  | heartbeat domid =>
      cases hs
      refine live_watch h fun _ => live_change h (fun _ => ?_) fun _ _ _ _ _ _ _ _ => rfl
      exact ⟨fun _ => rfl, fun _ => rfl, fun _ => rfl, fun _ hx => hx⟩
  | listeningPorts domid value =>
      cases hs
      exact live_listeningPorts hwf h hG
  | died domid =>
      cases hs
      exact live_died h hG
  | balanceLoad =>
      cases hs
      exact live_balanceLoad hwf h hG
  | printLoad domid =>
      cases hs
      rw [printLoad]
      split
      · exact h
      · split
        · exact h
        · exact live_same h (Pool.same_overloaded c w.pool _)
  | touchTrigger =>
      cases hs
      exact live_same h ⟨rfl, rfl⟩
  | rehash insMap =>
      rw [step] at hs
      split at hs
      · rename_i hperm
        cases hs
        exact ⟨fun x hx => h.current x (hperm.mem_iff.mp hx), h.orphan⟩
      · cases hs

/-! ### From the forwarders to the rules -/

theorem dnat_mem_ruleList {f : PortForwarder} {dest : Option String} {port : Nat} :
    .dnat dest port ∈ f.ruleList ↔ f.dest = dest ∧ f.port = port := by
  rw [@eq_comm _ f.dest, @eq_comm _ f.port]
  simp [PortForwarder.ruleList]

theorem accept_mem_ruleList {f : PortForwarder} {dest : Option String} {port : Nat} :
    .accept dest port ∈ f.ruleList ↔ f.dest = dest ∧ f.port = port := by
  rw [@eq_comm _ f.dest, @eq_comm _ f.port]
  simp [PortForwarder.ruleList]

theorem established_mem_ruleList {f : PortForwarder} {dest : Option String} :
    .established dest ∈ f.ruleList ↔ f.dest = dest := by
  rw [@eq_comm _ f.dest]
  simp [PortForwarder.ruleList]

/-- The rules are those of the forwarders of the active INS. -/
theorem rules_perm (hwf : w.Wf) (h : w.Live) :
    w.pool.rules.Perm
      (((w.pool.insMap.filter Ins.active).flatMap Ins.forwarders).flatMap
        PortForwarder.ruleList) := by
  have hbalanced := hwf.sound.balanced.filter (p := Ins.active)
    fun x hx hoff => (hwf.sound.fine x hx).held hoff
  have hqueue : w.queue.filter Ins.active = [] := by
    refine List.filter_eq_nil_iff.mpr fun x hx => ?_
    rw [hwf.waiting x hx]
    exact Bool.false_ne_true
  have horphan : w.orphan.toList.filter Ins.active = [] := by
    refine List.filter_eq_nil_iff.mpr fun x hx => ?_
    rw [h.orphan x (Option.mem_toList.mp hx)]
    exact Bool.false_ne_true
  rw [objects, List.filter_append, List.filter_append, hqueue, horphan, List.append_nil,
    List.append_nil] at hbalanced
  refine hbalanced.trans (List.Perm.of_eq ?_)
  rw [List.flatMap_assoc]
  refine List.flatMap_congr fun x hx => ?_
  obtain ⟨hx, hactive⟩ := List.mem_filter.mp hx
  refine List.flatMap_congr fun f hf => ?_
  rw [PortForwarder.held, (h.current x hx hactive).1 f hf, if_pos rfl]

theorem count_ruleList_le (fs : List PortForwarder) (dest : Option String) (port : Nat) :
    (fs.flatMap PortForwarder.ruleList).count (.dnat dest port) ≤
        (fs.map PortForwarder.port).count port ∧
      (fs.flatMap PortForwarder.ruleList).count (.accept dest port) ≤
        (fs.map PortForwarder.port).count port := by
  induction fs with
  | nil => exact ⟨Nat.le_refl _, Nat.le_refl _⟩
  | cons f fs ih =>
      obtain ⟨hdnat, haccept⟩ := ih
      rw [List.flatMap_cons, List.map_cons, List.count_append, List.count_append]
      by_cases hport : f.port = port
      · constructor
        · simp [PortForwarder.ruleList, List.count_cons, hport]
          split <;> omega
        · simp [PortForwarder.ruleList, List.count_cons, hport]
          split <;> omega
      · constructor
        · simpa [PortForwarder.ruleList, List.count_cons, hport] using hdnat
        · simpa [PortForwarder.ruleList, List.count_cons, hport] using haccept

theorem published_iff (h : w.Live) (dest : Option String) (port : Nat) :
    w.Published dest port ↔ ∃ f ∈ (w.pool.insMap.filter Ins.active).flatMap Ins.forwarders,
      f.dest = dest ∧ f.port = port := by
  constructor
  · rintro ⟨x, hx, hactive, rfl, hport⟩
    obtain ⟨-, hports, haddress⟩ := h.current x hx hactive
    obtain ⟨f, hf, rfl⟩ := List.mem_map.mp ((hports port).mpr hport)
    exact ⟨f, List.mem_flatMap.mpr ⟨x, List.mem_filter.mpr ⟨hx, hactive⟩, hf⟩, haddress f hf, rfl⟩
  · rintro ⟨f, hf, rfl, rfl⟩
    obtain ⟨x, hx, hf⟩ := List.mem_flatMap.mp hf
    obtain ⟨hx, hactive⟩ := List.mem_filter.mp hx
    obtain ⟨-, hports, haddress⟩ := h.current x hx hactive
    exact ⟨x, hx, hactive, (haddress f hf).symm, (hports f.port).mp (List.mem_map_of_mem hf)⟩

theorem follows (hwf : w.Wf) (h : w.Live) : w.Follows := by
  have hperm := rules_perm hwf h
  have hmem (r : Rule) : r ∈ w.pool.rules ↔
      ∃ f ∈ (w.pool.insMap.filter Ins.active).flatMap Ins.forwarders, r ∈ f.ruleList := by
    rw [hperm.mem_iff, List.mem_flatMap]
  have hports : (((w.pool.insMap.filter Ins.active).flatMap Ins.forwarders).map
      PortForwarder.port).Nodup := by
    have hone := hwf.one
    rcases hactive : w.pool.insMap.filter Ins.active with _ | ⟨x, _ | ⟨y, l⟩⟩
    · exact List.nodup_nil
    · have hx : x ∈ w.pool.insMap := (List.mem_filter.mp (hactive ▸ List.mem_singleton_self x)).1
      rw [List.flatMap_singleton]
      exact (hwf.fine hx).ports
    · rw [hactive] at hone
      exact absurd hone (by simp)
  refine ⟨hwf.one, ?_, ?_, ?_, ?_⟩
  · intro dest port
    simp only [hmem, published_iff h, dnat_mem_ruleList]
  · intro dest port
    simp only [hmem, published_iff h, accept_mem_ruleList]
  · intro dest port
    obtain ⟨hdnat, haccept⟩ := count_ruleList_le
      ((w.pool.insMap.filter Ins.active).flatMap Ins.forwarders) dest port
    have hle := List.nodup_iff_count_le_one.mp hports port
    rw [hperm.count_eq, hperm.count_eq]
    exact ⟨le_trans hdnat hle, le_trans haccept hle⟩
  · intro dest
    simp only [hmem, published_iff h, established_mem_ruleList]
    constructor
    · rintro ⟨f, hf, rfl⟩
      exact ⟨f.port, f, hf, rfl, rfl⟩
    · rintro ⟨port, f, hf, rfl, -⟩
      exact ⟨f, hf, rfl⟩

end World

/-- While the events are orderly the rules in the tables are those for the ports that
the active INS has published last, each of them once. -/
theorem rules_follow_active (c : Settings α) {es : List Event} {w : World}
    (hG : (distro c).Guarded (Orderly c) es) (hrun : (distro c).run es = some w) : w.Follows := by
  have hinv : w.Wf ∧ w.Live := by
    refine @System.guarded_invariant _ _ (distro c) (Orderly c) (fun w => w.Wf ∧ w.Live) ?_ ?_ _ _
      hG hrun
    · exact ⟨World.wf_init, fun x hx => absurd hx List.not_mem_nil, fun x hx => nomatch hx⟩
    · rintro s e s' hG hs ⟨hwf, hlive⟩
      exact ⟨World.wf_step hwf hs, World.live_step hwf hlive hG hs⟩
  exact World.follows hinv.1 hinv.2

/-- An INS is started, registers, publishes its address and its ports, and is activated. -/
def started (ports : List Nat) : List Event :=
  [.spawn, .insDomId 5 (some 5), .ipAddrs 5 (some ["10.15.32.8"]),
    .listeningPorts 5 (some ports), .balanceLoad]

theorem rules_follow_active_started :
    ∃ w, (distro defaults).run (started [80, 443]) = some w ∧ w.Follows := by
  have hG : (distro defaults).Guarded (Orderly defaults) (started [80, 443]) := by
    refine ⟨trivial, ?_⟩
    rintro _ ⟨⟩
    refine ⟨?_, ?_⟩
    · intro _ _ x hx _
      cases hx
    rintro _ ⟨⟩
    refine ⟨?_, ?_⟩
    · intro x hx hactive
      cases hx
      cases hactive
    rintro _ ⟨⟩
    refine ⟨?_, ?_⟩
    · intro x hx hactive
      cases hx
      cases hactive
    rintro _ ⟨⟩
    refine ⟨?_, fun _ _ => trivial⟩
    intro x hx _
    obtain rfl := List.mem_singleton.mp hx
    refine ⟨fun p => Iff.rfl, fun f hf => ?_⟩
    rcases List.mem_cons.mp hf with rfl | hf
    · rfl
    · rw [List.mem_singleton.mp hf]
      rfl
  exact ⟨_, rfl, rules_follow_active defaults hG rfl⟩

/-- Ports that the active INS publishes later are not forwarded, those it no longer
publishes are, and so are those of the INS that was started last when it is dead. -/
theorem rules_do_not_follow :
    (∃ w, (distro defaults).run (started [80] ++ [.listeningPorts 5 (some [443])]) = some w ∧
      w.Published (some "10.15.32.8") 443 ∧ .dnat (some "10.15.32.8") 443 ∉ w.pool.rules ∧
        ¬ w.Published (some "10.15.32.8") 80 ∧ .dnat (some "10.15.32.8") 80 ∈ w.pool.rules ∧
          ¬ w.Follows) ∧
      ∃ w, (distro defaults).run (started [80] ++ [.died 5]) = some w ∧ w.pool.insMap = [] ∧
        .dnat (some "10.15.32.8") 80 ∈ w.pool.rules ∧ ¬ w.Follows := by
  constructor
  · obtain ⟨w, hw⟩ : ∃ w, (distro defaults).run
        (started [80] ++ [.listeningPorts 5 (some [443])]) = some w := ⟨_, rfl⟩
    have hsome : ((distro defaults).run (started [80] ++ [.listeningPorts 5 (some [443])])).map
        (fun w => (w.pool.insMap.map fun x => (x.ref, x.active), w.ports 0, w.address 0)) =
          some ([(0, true)], [443], some "10.15.32.8") := by decide +kernel
    have hrules : ((distro defaults).run (started [80] ++ [.listeningPorts 5 (some [443])])).map
        (fun w => w.pool.rules) = some [.established (some "10.15.32.8"),
          .accept (some "10.15.32.8") 80, .dnat (some "10.15.32.8") 80] := by decide +kernel
    rw [hw, Option.map_some, Option.some.injEq] at hrules
    rw [hw, Option.map_some, Option.some.injEq, Prod.mk.injEq, Prod.mk.injEq,
      List.map_eq_singleton_iff] at hsome
    obtain ⟨⟨x, hmap, hx⟩, hports, haddress⟩ := hsome
    obtain ⟨href, hactive⟩ := Prod.mk.inj hx
    have hpublished (port : Nat) : w.Published (some "10.15.32.8") port ↔ port = 443 := by
      rw [World.Published, hmap]
      simp [href, hactive, hports, haddress]
    refine ⟨w, hw, (hpublished 443).mpr rfl, ?_, ?_, ?_, ?_⟩
    · rw [hrules]
      decide
    · rw [hpublished]
      decide
    · rw [hrules]
      decide
    · intro h
      have hmem := (h.forward (some "10.15.32.8") 443).mpr ((hpublished 443).mpr rfl)
      rw [hrules] at hmem
      exact absurd hmem (by decide)
  · obtain ⟨w, hw⟩ : ∃ w, (distro defaults).run (started [80] ++ [.died 5]) = some w := ⟨_, rfl⟩
    have hpool : ((distro defaults).run (started [80] ++ [.died 5])).map
        (fun w => (w.pool.insMap, w.pool.rules)) = some ([], [.established (some "10.15.32.8"),
          .accept (some "10.15.32.8") 80, .dnat (some "10.15.32.8") 80]) := by decide +kernel
    rw [hw, Option.map_some, Option.some.injEq, Prod.mk.injEq] at hpool
    obtain ⟨hmap, hrules⟩ := hpool
    have hmem : .dnat (some "10.15.32.8") 80 ∈ w.pool.rules := by
      rw [hrules]
      decide
    refine ⟨w, hw, hmap, hmem, ?_⟩
    intro h
    obtain ⟨x, hx, -⟩ := (h.forward _ _).mp hmem
    rw [hmap] at hx
    cases hx

end MagicWand.Distro
