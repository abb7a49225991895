import MagicWand.Distro.Ins
import MagicWand.Foundation.Sweep
import Mathlib.Algebra.Order.Ring.Unbundled.Rat

/-!
# The load balancer

`balance_load` directs new connections to an INS that is not too busy: it collects
the INSs that may take over, removes those that do not listen, and activates the
one with the least load in place of the one that was active.

A load is a quotient of two numbers of sockets. `Settings.quot` is the division;
division by zero raises an exception, which ends the call. Nothing else changes
`ins_map` during a call, and the trigger file is not made again.
-/

namespace MagicWand.Distro

open Foundation

variable {α : Type} [LinearOrder α]

/-- The command line, and the division of floating-point numbers. -/
structure Settings (α : Type) where
  quot : Int → Int → α
  maxInsLoadPercent : α
  leastBusyScheduler : Bool

/-- `ins_map`, in the order of its iteration, the trigger file and the tables. -/
structure Pool where
  insMap : List Ins
  /-- The file `ins_overloaded_trigger` is there. -/
  trigger : Bool := false
  rules : List Rule := []
deriving DecidableEq, Repr

/-- `get_load`; there is no load if the capacity is 0. -/
def Ins.getLoad (c : Settings α) (x : Ins) : Option α :=
  let used := (x.stats.map Stats.usedSockets).getD 0
  let capacity := (x.stats.map Stats.maxSockets).getD 1
  if capacity = 0 then none else some (c.quot used capacity)

namespace Pool

def refs (s : Pool) : List Nat := s.insMap.map Ins.ref

def find (s : Pool) (ref : Nat) : Option Ins := s.insMap.find? fun x => x.ref = ref

def modify (s : Pool) (ref : Nat) (f : Ins → Ins) : Pool :=
  { s with insMap := s.insMap.map fun x => if x.ref = ref then f x else x }

def hasForwarders (s : Pool) (ref : Nat) : Bool :=
  (s.find ref).any fun x => !x.forwarders.isEmpty

/-- An INS with its load. -/
def loaded (c : Settings α) (s : Pool) (ref : Nat) : Option (Nat × α) :=
  ((s.find ref).bind fun x => x.getLoad c).map (Prod.mk ref)

/-- `set_ins_active` on an object. -/
def setInsActive (s : Pool) (ref : Nat) (activated : Bool) : Pool :=
  match s.find ref with
  | none => s
  | some x =>
      { s.modify ref (fun _ => (x.setInsActive activated s.rules).1) with
        rules := (x.setInsActive activated s.rules).2 }

/-- `overloaded`. The first INS that finds the trigger file takes it away. -/
def overloaded (c : Settings α) (s : Pool) (ref : Nat) : Option Bool × Pool :=
  match s.find ref with
  | none => (none, s)
  | some x =>
      if x.overloadedFlag then (some true, s)
      else if s.trigger then
        (some true, { s.modify ref (fun x => { x with overloadedFlag := true }) with
          trigger := false })
      else ((x.getLoad c).map fun q => decide (c.maxInsLoadPercent ≤ q), s)

/-- The INSs of a list that are not overloaded. -/
def notOverloaded (c : Settings α) : List Nat → Pool → Option (List Nat) × Pool
  | [], s => (some [], s)
  | r :: rest, s =>
      match s.overloaded c r with
      | (none, s) => (none, s)
      | (some b, s) =>
          match notOverloaded c rest s with
          | (none, s) => (none, s)
          | (some l, s) => (some (if b then l else r :: l), s)

/-- The loop of the least busy scheduler, which shows every INS. -/
def showAll (c : Settings α) : List Nat → Pool → Option Unit × Pool
  | [], s => (some (), s)
  | r :: rest, s =>
      match s.loaded c r with
      | none => (none, s)
      | some _ =>
          match s.overloaded c r with
          | (none, s) => (none, s)
          | (some _, s) => showAll c rest s

/-- What comes of looking for INSs that may take over. -/
inductive Candidates where
  | raised
  | settled (spawn : Bool)
  | among (available : List Nat)
deriving DecidableEq, Repr

def candidates (c : Settings α) (s : Pool) (curr : Nat) : Candidates × Pool :=
  if c.leastBusyScheduler then
    match s.showAll c s.refs with
    | (none, s) => (.raised, s)
    | (some _, s) => (.among s.refs, s)
  else match s.overloaded c curr with
    | (none, s) => (.raised, s)
    | (some false, s) => (.settled false, s)
    | (some true, s) =>
        -- The message has the load of the current INS, whatever the log level.
        match s.loaded c curr with
        | none => (.raised, s)
        | some _ =>
            match s.notOverloaded c s.refs with
            | (none, s) => (.raised, s)
            | (some [], s) => (.settled true, s)
            | (some available, s) => (.among available, s)

/-- The switch, and whether all INSs are overloaded after it. -/
def switch (c : Settings α) (s : Pool) (curr new : Nat) : Option Bool × Pool :=
  let s := (s.setInsActive new true).setInsActive curr false
  match s.notOverloaded c s.refs with
  | (none, s) => (none, s)
  | (some l, s) => (some l.isEmpty, s)

/-- `balance_load` from an active INS on. -/
def balanceFrom (c : Settings α) (s : Pool) (curr : Nat) : Option Bool × Pool :=
  if !s.hasForwarders curr then (some false, s)
  else match s.candidates c curr with
    | (.raised, s) => (none, s)
    | (.settled spawn, s) => (some spawn, s)
    | (.among available, s) =>
        match (removeWhileIterating (fun r => !s.hasForwarders r) available).mapM (s.loaded c) with
        | none => (none, s)
        | some loads =>
            match loads.argmin Prod.snd with
            | none => (some false, s)
            | some (new, _) =>
                if c.leastBusyScheduler ∧ curr = new then (some false, s)
                else s.switch c curr new

/-- `balance_load`: the value it returns, unless it raises an exception. -/
def balanceLoad (c : Settings α) (s : Pool) : Option Bool × Pool :=
  match s.insMap, s.insMap.filter Ins.active with
  | [], _ => (none, s)
  | first :: _, [] => (s.setInsActive first.ref true).balanceFrom c first.ref
  | _ :: _, [curr] => s.balanceFrom c curr.ref
  | _ :: _, _ => (none, s)

end Pool

/-! ## What the checks leave alone -/

/-- An INS but for the mark that it is overloaded. -/
def Ins.plain (x : Ins) : Ins := { x with overloadedFlag := false }

namespace Pool

/-- The tables and the INSs are as they were, but for these marks. -/
structure Same (s s' : Pool) : Prop where
  insMap : s'.insMap.map Ins.plain = s.insMap.map Ins.plain
  rules : s'.rules = s.rules

variable {c : Settings α} {s s' s'' : Pool}

theorem Same.refl (s : Pool) : Same s s := ⟨rfl, rfl⟩

theorem Same.trans (h : Same s s') (h' : Same s' s'') : Same s s'' :=
  ⟨h'.insMap.trans h.insMap, h'.rules.trans h.rules⟩

/-- What does not depend on the mark, read off every INS. -/
theorem Same.map {β : Type} (h : Same s s') {f : Ins → β} (hf : ∀ x, f x.plain = f x) :
    s'.insMap.map f = s.insMap.map f := by
  have hplain := congrArg (List.map f) h.insMap
  rw [List.map_map, List.map_map] at hplain
  have hcomp : f ∘ Ins.plain = f := funext hf
  rwa [hcomp] at hplain

theorem Same.refs (h : Same s s') : s'.refs = s.refs := h.map fun _ => rfl

theorem Same.find (h : Same s s') (ref : Nat) :
    (s'.find ref).map Ins.plain = (s.find ref).map Ins.plain := by
  have hfind (t : Pool) : (t.find ref).map Ins.plain =
      (t.insMap.map Ins.plain).find? fun x => x.ref = ref := by
    rw [List.find?_map]
    rfl
  rw [hfind, hfind, h.insMap]

/-- A function of an INS that does not depend on the mark. -/
theorem Same.find_bind {β : Type} (h : Same s s') (ref : Nat) {f : Ins → Option β}
    (hf : ∀ x, f x.plain = f x) : (s'.find ref).bind f = (s.find ref).bind f := by
  have hplain (t : Pool) : (t.find ref).bind f = ((t.find ref).map Ins.plain).bind f := by
    rw [Option.bind_map]
    congr 1
    funext x
    exact (hf x).symm
  rw [hplain, hplain, h.find]

theorem Same.hasForwarders (h : Same s s') (ref : Nat) :
    s'.hasForwarders ref = s.hasForwarders ref := by
  have hany (t : Pool) : t.hasForwarders ref =
      ((t.find ref).bind fun x => some !x.forwarders.isEmpty).getD false := by
    rw [Pool.hasForwarders]
    rcases t.find ref with _ | x
    · rfl
    · rfl
  rw [hany, hany, h.find_bind ref fun _ => rfl]

omit [LinearOrder α] in
theorem Same.loaded (h : Same s s') : s'.loaded c = s.loaded c := by
  funext ref
  rw [Pool.loaded, Pool.loaded, h.find_bind ref fun _ => rfl]

theorem same_overloaded (c : Settings α) (s : Pool) (ref : Nat) : Same s (s.overloaded c ref).2 := by
  rw [overloaded]
  split
  · exact Same.refl s
  · split
    · exact Same.refl s
    · split
      · refine ⟨?_, rfl⟩
        rw [modify, List.map_map]
        refine List.map_congr_left fun x _ => ?_
        simp only [Function.comp_apply]
        split
        · rfl
        · rfl
      · exact Same.refl s

theorem same_notOverloaded (c : Settings α) (l : List Nat) (s : Pool) :
    Same s (notOverloaded c l s).2 := by
  induction l generalizing s with
  | nil => exact Same.refl s
  | cons r l ih =>
      have hone := same_overloaded c s r
      rw [notOverloaded]
      rcases hr : s.overloaded c r with ⟨_ | b, s₁⟩
      · rw [hr] at hone
        exact hone
      · rw [hr] at hone
        have hrest := hone.trans (ih s₁)
        simp only
        rcases hl : notOverloaded c l s₁ with ⟨_ | l', s₂⟩
        · rw [hl] at hrest
          exact hrest
        · rw [hl] at hrest
          exact hrest

theorem same_showAll (c : Settings α) (l : List Nat) (s : Pool) : Same s (showAll c l s).2 := by
  induction l generalizing s with
  | nil => exact Same.refl s
  | cons r l ih =>
      have hone := same_overloaded c s r
      rw [showAll]
      split
      · exact Same.refl s
      · rcases hr : s.overloaded c r with ⟨_ | b, s₁⟩
        · rw [hr] at hone
          exact hone
        · rw [hr] at hone
          exact hone.trans (ih s₁)

theorem same_candidates (c : Settings α) (s : Pool) (curr : Nat) :
    Same s (s.candidates c curr).2 := by
  rw [candidates]
  split
  · have hshow := same_showAll c s.refs s
    split
    · rename_i heq
      rwa [heq] at hshow
    · rename_i heq
      rwa [heq] at hshow
  · have hone := same_overloaded c s curr
    split
    · rename_i heq
      rwa [heq] at hone
    · rename_i heq
      rwa [heq] at hone
    · rename_i s₁ heq
      rw [heq] at hone
      have hall := hone.trans (same_notOverloaded c s₁.refs s₁)
      split
      · exact hone
      · split
        · rename_i hrest
          rwa [hrest] at hall
        · rename_i hrest
          rwa [hrest] at hall
        · rename_i hrest
          rwa [hrest] at hall

end Pool

/-! ## The INSs that may take over -/

namespace Pool

variable {c : Settings α} {s s' : Pool}

theorem find_modify (s : Pool) (r ref : Nat) {f : Ins → Ins} (hf : ∀ x, (f x).ref = x.ref) :
    (s.modify r f).find ref = (s.find ref).map fun x => if x.ref = r then f x else x := by
  rw [find, find, modify, List.find?_map]
  congr 2
  funext x
  simp only [Function.comp_apply]
  split
  · rw [hf]
  · rfl

/-- An INS is overloaded, and will be whenever it is asked again. -/
def Hot (c : Settings α) (s : Pool) (ref : Nat) : Prop :=
  ∃ x, s.find ref = some x ∧ (x.overloadedFlag = true ∨
    s.trigger = false ∧ ∃ q, x.getLoad c = some q ∧ c.maxInsLoadPercent ≤ q)

theorem hot_of_overloaded {ref : Nat} (h : s.overloaded c ref = (some true, s')) :
    Hot c s' ref := by
  rw [overloaded] at h
  split at h
  · cases h
  · rename_i x hx
    split at h
    · rename_i hflag
      cases h
      exact ⟨x, hx, Or.inl hflag⟩
    · split at h
      · cases h
        have hfind := find_modify s ref ref (f := fun x => { x with overloadedFlag := true })
          fun _ => rfl
        have href : x.ref = ref := by simpa using List.find?_some hx
        rw [hx, Option.map_some, if_pos href] at hfind
        exact ⟨_, hfind, Or.inl rfl⟩
      · rename_i htrigger
        obtain ⟨hload, rfl⟩ := Prod.mk.inj h
        obtain ⟨q, hq, hle⟩ := Option.map_eq_some_iff.mp hload
        exact ⟨x, hx, Or.inr ⟨Bool.eq_false_iff.mpr htrigger, q, hq, of_decide_eq_true hle⟩⟩

theorem Hot.overloaded {ref : Nat} (h : Hot c s ref) : (s.overloaded c ref).1 = some true := by
  obtain ⟨x, hx, hflag | ⟨htrigger, q, hq, hle⟩⟩ := h
  · rw [Pool.overloaded, hx]
    simp only [hflag, if_true]
  · rw [Pool.overloaded, hx]
    simp only [htrigger, hq, Option.map_some, decide_eq_true hle, Bool.false_eq_true, if_false]
    split
    · rfl
    · rfl

theorem Hot.step {ref : Nat} (h : Hot c s ref) (r : Nat) : Hot c (s.overloaded c r).2 ref := by
  rw [Pool.overloaded]
  split
  · exact h
  · split
    · exact h
    · split
      · rename_i htrigger
        obtain ⟨x, hx, hflag | ⟨hnone, -⟩⟩ := h
        · have hfind := find_modify s r ref (f := fun x => { x with overloadedFlag := true })
            fun _ => rfl
          rw [hx, Option.map_some] at hfind
          refine ⟨_, hfind, Or.inl ?_⟩
          split
          · rfl
          · exact hflag
        · rw [hnone] at htrigger
          cases htrigger
      · exact h

theorem notOverloaded_sublist {l l' : List Nat} (h : (notOverloaded c l s).1 = some l') :
    l'.Sublist l := by
  induction l generalizing s l' with
  | nil =>
      cases h
      exact List.Sublist.refl _
  | cons r l ih =>
      rw [notOverloaded] at h
      split at h
      · cases h
      · split at h
        · cases h
        · rename_i b _ _ rest _ hrest
          cases h
          have hsub := ih (congrArg Prod.fst hrest)
          split
          · exact hsub.cons r
          · exact hsub.cons_cons r

theorem Hot.not_mem {ref : Nat} {l l' : List Nat} (h : Hot c s ref)
    (hl : (notOverloaded c l s).1 = some l') : ref ∉ l' := by
  induction l generalizing s l' with
  | nil =>
      cases hl
      exact List.not_mem_nil
  | cons r l ih =>
      rw [notOverloaded] at hl
      split at hl
      · cases hl
      · rename_i b s₁ hr
        have hstep := h.step r
        rw [hr] at hstep
        split at hl
        · cases hl
        · rename_i rest _ hrest
          cases hl
          have hnot := ih hstep (congrArg Prod.fst hrest)
          split
          · exact hnot
          · rename_i hb
            rw [List.mem_cons, not_or]
            refine ⟨?_, hnot⟩
            rintro rfl
            have hover := h.overloaded
            rw [hr] at hover
            exact hb (Option.some.inj hover)

/-- Only INSs of the map may take over, each once; without the least busy
scheduler, not the current one. -/
theorem candidates_among {curr : Nat} {l : List Nat} (h : (s.candidates c curr).1 = .among l) :
    l.Sublist s.refs ∧ (c.leastBusyScheduler = false → curr ∉ l) := by
  rw [candidates] at h
  split at h
  · rename_i hleast
    split at h
    · cases h
    · rename_i s₁ heq
      cases h
      have hsame := same_showAll c s.refs s
      rw [heq] at hsame
      rw [hsame.refs]
      exact ⟨List.Sublist.refl _, fun hno => absurd hleast (by rw [hno]; exact Bool.false_ne_true)⟩
  · split at h
    · cases h
    · cases h
    · rename_i s₁ heq
      have hsame := same_overloaded c s curr
      rw [heq] at hsame
      split at h
      · cases h
      · split at h
        · cases h
        · cases h
        · rename_i hrest
          cases h
          have hfst := congrArg Prod.fst hrest
          refine ⟨hsame.refs ▸ notOverloaded_sublist hfst, fun _ => ?_⟩
          exact (hot_of_overloaded heq).not_mem hfst

end Pool

/-! ## The switch -/

/-- An INS after `set_ins_active`. -/
def Ins.switched (activated : Bool) (x : Ins) : Ins :=
  if activated && x.forwarders.isEmpty then x
  else
    { x with
      forwarders := x.forwarders.map fun f => { f with active := activated }
      active := activated
      overloadedFlag := activated && x.overloadedFlag }

theorem Ins.setInsActive_fst (x : Ins) (activated : Bool) (rules : List Rule) :
    (x.setInsActive activated rules).1 = x.switched activated := by
  rw [Ins.setInsActive, Ins.switched]
  split
  · rfl
  · simp only [Ins.setForwarders_fst]

@[simp] theorem Ins.switched_ref (activated : Bool) (x : Ins) :
    (x.switched activated).ref = x.ref := by
  rw [Ins.switched]
  split
  · rfl
  · rfl

namespace Pool

variable {c : Settings α} {s s' : Pool}

theorem find_mem {ref : Nat} {x : Ins} (h : s.find ref = some x) : x ∈ s.insMap ∧ x.ref = ref :=
  ⟨List.mem_of_find?_eq_some h, by simpa using List.find?_some h⟩

theorem find_of_mem (hrefs : s.refs.Nodup) {x : Ins} (h : x ∈ s.insMap) :
    s.find x.ref = some x := by
  rcases hfind : s.find x.ref with _ | y
  · have := List.find?_eq_none.mp hfind x h
    simp at this
  · obtain ⟨hy, href⟩ := find_mem hfind
    rw [List.inj_on_of_nodup_map hrefs hy h href]

theorem setInsActive_insMap (hrefs : s.refs.Nodup) (ref : Nat) (activated : Bool) :
    (s.setInsActive ref activated).insMap =
      s.insMap.map fun x => if x.ref = ref then x.switched activated else x := by
  rw [setInsActive]
  split
  · rename_i hnone
    refine (List.map_id _).symm.trans (List.map_congr_left fun x hx => ?_)
    have hne : ¬ x.ref = ref := by simpa using List.find?_eq_none.mp hnone x hx
    rw [if_neg hne]
    rfl
  · rename_i x hx
    obtain ⟨hmem, href⟩ := find_mem hx
    rw [modify]
    refine List.map_congr_left fun y hy => ?_
    split
    · rename_i hy'
      have hsame : y = x := List.inj_on_of_nodup_map hrefs hy hmem (hy'.trans href.symm)
      rw [Ins.setInsActive_fst, hsame]
    · rfl

theorem setInsActive_refs (hrefs : s.refs.Nodup) (ref : Nat) (activated : Bool) :
    (s.setInsActive ref activated).refs = s.refs := by
  rw [refs, setInsActive_insMap hrefs, List.map_map]
  refine List.map_congr_left fun x _ => ?_
  simp only [Function.comp_apply]
  split
  · exact x.switched_ref activated
  · rfl

theorem filter_ref {l : List Ins} (h : (l.map Ins.ref).Nodup) {x : Ins} (hx : x ∈ l) :
    l.filter (fun y => y.ref = x.ref) = [x] := by
  induction l with
  | nil => exact absurd hx List.not_mem_nil
  | cons y l ih =>
      rw [List.map_cons, List.nodup_cons] at h
      rcases List.mem_cons.mp hx with rfl | hx
      · have hnone : l.filter (fun y => y.ref = x.ref) = [] := by
          refine List.filter_eq_nil_iff.mpr fun y hy => ?_
          simp only [decide_eq_true_eq]
          intro heq
          exact h.1 (heq ▸ List.mem_map_of_mem hy)
        rw [List.filter_cons_of_pos (by simp), hnone]
      · have hne : y.ref ≠ x.ref := by
          intro heq
          exact h.1 (heq ▸ List.mem_map_of_mem hx)
        rw [List.filter_cons_of_neg (by simpa using hne), ih h.2 hx]

/-- After the switch the new INS is the active one, if it listens; else none is. -/
theorem active_switch (hrefs : s.refs.Nodup) {curr new : Ins}
    (hone : s.insMap.filter Ins.active = [curr]) (hnew : new ∈ s.insMap)
    (hne : new.ref ≠ curr.ref) :
    ((s.setInsActive new.ref true).setInsActive curr.ref false).insMap.filter Ins.active =
      if new.forwarders.isEmpty then [] else [new.switched true] := by
  have hcurr : ∀ x ∈ s.insMap, x.active = true → x.ref = curr.ref := by
    intro x hx hactive
    have hmem : x ∈ s.insMap.filter Ins.active := List.mem_filter.mpr ⟨hx, hactive⟩
    rw [hone, List.mem_singleton] at hmem
    rw [hmem]
  have hrefs' := setInsActive_refs hrefs new.ref true
  rw [setInsActive_insMap (by rw [hrefs']; exact hrefs), setInsActive_insMap hrefs, List.map_map,
    List.filter_map]
  have hpred : ∀ x ∈ s.insMap, (Ins.active ∘ (fun x => if x.ref = curr.ref then
      x.switched false else x) ∘ fun x => if x.ref = new.ref then x.switched true else x) x =
        (decide (x.ref = new.ref) && !new.forwarders.isEmpty) := by
    intro x hx
    simp only [Function.comp_apply]
    by_cases hxnew : x.ref = new.ref
    · have hsame : x = new := List.inj_on_of_nodup_map hrefs hx hnew hxnew
      rw [if_pos hxnew, Ins.switched_ref, if_neg (hxnew ▸ hne), hsame]
      rw [Ins.switched]
      rcases hempty : new.forwarders.isEmpty with _ | _
      · simp
      · have hoff : new.active = false := by
          rw [← Bool.not_eq_true]
          exact fun hon => hne (hcurr new hnew hon)
        simp [hoff]
    · rw [if_neg hxnew]
      split
      · simp [Ins.switched, hxnew]
      · rename_i hxcurr
        have hoff : x.active = false := by
          rw [← Bool.not_eq_true]
          exact fun hon => hxcurr (hcurr x hx hon)
        simp [hoff, hxnew]
  rw [List.filter_congr hpred]
  rcases new.forwarders.isEmpty with _ | _
  · simp only [Bool.not_false, Bool.and_true, Bool.false_eq_true, if_false]
    rw [filter_ref hrefs hnew]
    simp [Ins.switched_ref, hne]
  · simp

end Pool

/-! ## One active INS -/

/-- The rules of all its forwarders are in the tables. -/
def Ins.Installed (x : Ins) : Prop := ∀ f ∈ x.forwarders, f.active = true

instance : DecidablePred Ins.Installed := fun x =>
  inferInstanceAs (Decidable (∀ f ∈ x.forwarders, f.active = true))

namespace Pool

/-- One INS is active, its forwarders are installed, and it has some if `curr` had. -/
def Served (curr : Ins) (s : Pool) : Prop :=
  ∃ x, s.insMap.filter Ins.active = [x] ∧ x.Installed ∧
    (curr.forwarders ≠ [] → x.forwarders ≠ [])

/-- The INS that new connections are directed to: of the candidates, in the order
of the map and without the first, the third and so on of those without forwarders
that stand side by side, the first with the least load. -/
def Picked (c : Settings α) (s : Pool) (curr r : Nat) : Prop :=
  ∃ available loads q, (s.candidates c curr).1 = .among available ∧
    (sweep (fun r => !s.hasForwarders r) false available).mapM (s.loaded c) = some loads ∧
      loads.argmin Prod.snd = some (r, q)

variable {c : Settings α} {s s' : Pool}

theorem Same.active (h : Same s s') : (s'.insMap.filter Ins.active).map Ins.plain =
    (s.insMap.filter Ins.active).map Ins.plain := by
  have hfilter (t : Pool) : (t.insMap.filter Ins.active).map Ins.plain =
      (t.insMap.map Ins.plain).filter Ins.active := by
    rw [List.filter_map]
    rfl
  rw [hfilter, hfilter, h.insMap]

/-- The one active INS is still the one. -/
theorem Same.active_one (h : Same s s') {x : Ins} (hx : s.insMap.filter Ins.active = [x]) :
    ∃ y, s'.insMap.filter Ins.active = [y] ∧ y.ref = x.ref ∧ y.forwarders = x.forwarders := by
  have hactive := h.active
  rw [hx, List.map_singleton, List.map_eq_singleton_iff] at hactive
  obtain ⟨y, hy, hplain⟩ := hactive
  have href : y.plain.ref = x.plain.ref := congrArg Ins.ref hplain
  have hsame : y.plain.forwarders = x.plain.forwarders := congrArg Ins.forwarders hplain
  exact ⟨y, hy, href, hsame⟩

theorem Same.served (h : Same s s') (curr : Ins) : s'.Served curr ↔ s.Served curr := by
  have hactive := h.active
  have hone {t t' : Pool} (heq : (t'.insMap.filter Ins.active).map Ins.plain =
      (t.insMap.filter Ins.active).map Ins.plain) (ht : t.Served curr) : t'.Served curr := by
    obtain ⟨x, hx, hinstalled, hports⟩ := ht
    rw [hx, List.map_singleton, List.map_eq_singleton_iff] at heq
    obtain ⟨y, hy, hplain⟩ := heq
    have hsame : y.plain.forwarders = x.plain.forwarders := congrArg Ins.forwarders hplain
    change y.forwarders = x.forwarders at hsame
    refine ⟨y, hy, ?_, ?_⟩
    · rw [Ins.Installed, hsame]
      exact hinstalled
    · rw [hsame]
      exact hports
  exact ⟨hone hactive.symm, hone hactive⟩

theorem mem_of_mapM {β γ : Type} {f : β → Option γ} {l : List β} {l' : List γ}
    (h : l.mapM f = some l') {y : γ} (hy : y ∈ l') : ∃ x ∈ l, f x = some y := by
  induction l generalizing l' with
  | nil =>
      cases h
      exact absurd hy List.not_mem_nil
  | cons x l ih =>
      rw [List.mapM_cons] at h
      obtain ⟨z, hz, h⟩ := Option.bind_eq_some_iff.mp h
      obtain ⟨rest, hrest, h⟩ := Option.bind_eq_some_iff.mp h
      cases h
      rcases List.mem_cons.mp hy with rfl | hy
      · exact ⟨x, List.mem_cons_self, hz⟩
      · obtain ⟨x', hx', heq⟩ := ih hrest hy
        exact ⟨x', List.mem_cons_of_mem _ hx', heq⟩

/-- The one that is picked is a candidate. -/
theorem Picked.mem {curr r : Nat} (h : Picked c s curr r) :
    ∃ available, (s.candidates c curr).1 = .among available ∧ r ∈ available := by
  obtain ⟨available, loads, q, havailable, hloads, hmin⟩ := h
  obtain ⟨r', hr', hload⟩ := mem_of_mapM hloads (List.argmin_mem hmin)
  obtain ⟨q', -, heq⟩ := Option.map_eq_some_iff.mp hload
  cases heq
  exact ⟨available, havailable, (sweep_sublist _ _ _).subset hr'⟩

theorem Picked.unique {curr r r' : Nat} (h : Picked c s curr r) (h' : Picked c s curr r') :
    r = r' := by
  obtain ⟨available, loads, q, havailable, hloads, hmin⟩ := h
  obtain ⟨available', loads', q', havailable', hloads', hmin'⟩ := h'
  cases havailable.symm.trans havailable'
  cases hloads.symm.trans hloads'
  cases hmin.symm.trans hmin'
  rfl

theorem same_switch (c : Settings α) (s : Pool) (curr new : Nat) :
    Same ((s.setInsActive new true).setInsActive curr false) (s.switch c curr new).2 := by
  rw [switch]
  have hsame := same_notOverloaded c ((s.setInsActive new true).setInsActive curr false).refs
    ((s.setInsActive new true).setInsActive curr false)
  split
  · rename_i heq
    rwa [heq] at hsame
  · rename_i heq
    rwa [heq] at hsame

/-- A call leaves things as they are, or goes over to the INS that is picked. -/
theorem balanceFrom_cases (c : Settings α) (hrefs : s.refs.Nodup) {curr : Nat}
    (hports : s.hasForwarders curr = true) :
    (Same s (s.balanceFrom c curr).2 ∧ ∀ r, Picked c s curr r → r = curr) ∨
      ∃ s' new, Same s s' ∧ Picked c s curr new ∧ new ≠ curr ∧
        Same ((s'.setInsActive new true).setInsActive curr false) (s.balanceFrom c curr).2 := by
  have hsame := same_candidates c s curr
  rw [balanceFrom, hports]
  simp only [Bool.not_true, Bool.false_eq_true, if_false]
  have hnot {r : Nat} {x : Candidates} (hx : (s.candidates c curr).1 = x)
      (hno : ∀ l, x ≠ .among l) (hpicked : Picked c s curr r) : r = curr := by
    obtain ⟨available, -, -, havailable, -⟩ := hpicked
    exact absurd (hx.symm.trans havailable) (hno available)
  split
  · rename_i heq
    rw [heq] at hsame
    exact Or.inl ⟨hsame, fun r => hnot (congrArg Prod.fst heq) (by simp)⟩
  · rename_i heq
    rw [heq] at hsame
    exact Or.inl ⟨hsame, fun r => hnot (congrArg Prod.fst heq) (by simp)⟩
  · rename_i available s' heq
    rw [heq] at hsame
    have havailable : (s.candidates c curr).1 = .among available := congrArg Prod.fst heq
    obtain ⟨hsub, hcurr⟩ := candidates_among havailable
    have hsweep : removeWhileIterating (fun r => !s'.hasForwarders r) available =
        sweep (fun r => !s.hasForwarders r) false available := by
      rw [removeWhileIterating_eq _ (hrefs.sublist hsub)]
      congr 1
      funext r
      rw [hsame.hasForwarders]
    rw [hsweep, hsame.loaded]
    split
    · rename_i hloads
      refine Or.inl ⟨hsame, fun r hpicked => ?_⟩
      obtain ⟨available', loads, q, havailable', hloads', -⟩ := hpicked
      cases havailable.symm.trans havailable'
      rw [hloads] at hloads'
      cases hloads'
    · rename_i loads hloads
      split
      · rename_i hmin
        refine Or.inl ⟨hsame, fun r hpicked => ?_⟩
        obtain ⟨available', loads', q, havailable', hloads', hmin'⟩ := hpicked
        cases havailable.symm.trans havailable'
        cases hloads.symm.trans hloads'
        rw [hmin] at hmin'
        cases hmin'
      · rename_i new q hmin
        have hpicked : Picked c s curr new := ⟨available, loads, q, havailable, hloads, hmin⟩
        split
        · rename_i hleast
          refine Or.inl ⟨hsame, fun r hr => ?_⟩
          rw [hr.unique hpicked, hleast.2]
        · rename_i hleast
          refine Or.inr ⟨s', new, hsame, hpicked, ?_, same_switch c s' curr new⟩
          rintro rfl
          obtain ⟨available', havailable', hmem⟩ := hpicked.mem
          cases havailable.symm.trans havailable'
          refine hcurr ?_ hmem
          rw [← Bool.not_eq_true]
          exact fun hleast' => hleast ⟨hleast', rfl⟩

end Pool

/-- From one active INS, a call of `balance_load` ends with one active INS whose
forwarders are installed exactly if that INS has no forwarders, or the INS it goes
over to has some, or it goes over to none and the forwarders of the active one are
installed. -/
theorem balance_load_serves_iff (c : Settings α) (s : Pool) (hrefs : s.refs.Nodup) (curr : Ins)
    (hone : s.insMap.filter Ins.active = [curr]) :
    (s.balanceLoad c).2.Served curr ↔ curr.forwarders = [] ∨
      (∀ r, s.Picked c curr.ref r → r ≠ curr.ref → s.hasForwarders r = true) ∧
        ((∀ r, s.Picked c curr.ref r → r = curr.ref) → curr.Installed) := by
  have hcurr : curr ∈ s.insMap := (List.mem_filter.mp (hone ▸ List.mem_singleton_self curr)).1
  have hfind := Pool.find_of_mem hrefs hcurr
  have hserved : s.Served curr ↔ curr.Installed := by
    constructor
    · rintro ⟨x, hx, hinstalled, -⟩
      cases hone.symm.trans hx
      exact hinstalled
    · exact fun hinstalled => ⟨curr, hone, hinstalled, id⟩
  have hcall : s.balanceLoad c = s.balanceFrom c curr.ref := by
    rw [Pool.balanceLoad, hone]
    rcases hmap : s.insMap with _ | ⟨first, rest⟩
    · rw [hmap] at hcurr
      exact absurd hcurr List.not_mem_nil
    · rfl
  rw [hcall]
  by_cases hempty : curr.forwarders = []
  · have hquiet : s.balanceFrom c curr.ref = (some false, s) := by
      rw [Pool.balanceFrom, Pool.hasForwarders, hfind]
      simp [hempty]
    have hinstalled : curr.Installed := by
      rw [Ins.Installed, hempty]
      exact fun f hf => absurd hf List.not_mem_nil
    rw [hquiet]
    exact iff_of_true (hserved.mpr hinstalled) (Or.inl hempty)
  have hports : s.hasForwarders curr.ref = true := by
    rw [Pool.hasForwarders, hfind]
    simpa using hempty
  simp only [hempty, false_or]
  rcases Pool.balanceFrom_cases c hrefs hports with ⟨hsame, hstay⟩ |
    ⟨s', new, hsame, hpicked, hne, hswitch⟩
  · rw [hsame.served, hserved]
    constructor
    · exact fun hinstalled => ⟨fun r hr hne => absurd (hstay r hr) hne, fun _ => hinstalled⟩
    · exact fun h => h.2 hstay
  · -- The INS that is picked is in the map, before and after the checks.
    obtain ⟨available, havailable, hmem⟩ := hpicked.mem
    have hin : new ∈ s'.refs := by
      rw [hsame.refs]
      exact (Pool.candidates_among havailable).1.subset hmem
    obtain ⟨x, hx, rfl⟩ := List.mem_map.mp hin
    have hrefs' : s'.refs.Nodup := hsame.refs ▸ hrefs
    obtain ⟨curr', hcurr', href, -⟩ := hsame.active_one hone
    have hactive := Pool.active_switch hrefs' hcurr' hx (href ▸ hne)
    rw [href] at hactive
    have hhas : s.hasForwarders x.ref = !x.forwarders.isEmpty := by
      rw [← hsame.hasForwarders, Pool.hasForwarders, Pool.find_of_mem hrefs' hx]
      rfl
    rw [hswitch.served, Pool.Served, hactive]
    constructor
    · rintro ⟨y, hy, -⟩
      refine ⟨fun r hr _ => ?_, fun hall => absurd (hall _ hpicked) hne⟩
      rw [hr.unique hpicked, hhas]
      rcases hlisten : x.forwarders.isEmpty with _ | _
      · rfl
      · rw [hlisten] at hy
        cases hy
    · rintro ⟨hlisten, -⟩
      have hsome := (hhas.symm.trans (hlisten _ hpicked hne))
      rw [Bool.not_eq_true'] at hsome
      refine ⟨x.switched true, by rw [hsome]; rfl, ?_, ?_⟩
      · intro f hf
        rw [Ins.switched, hsome] at hf
        obtain ⟨f', -, rfl⟩ := List.mem_map.mp hf
        rfl
      · intro _ hnil
        rw [Ins.switched, hsome] at hnil
        have hnone : x.forwarders = [] := List.map_eq_nil_iff.mp hnil
        rw [hnone] at hsome
        cases hsome

/-- The defaults: no least busy scheduler, and an INS is overloaded from 80 percent on. -/
def defaults : Settings Rat where
  quot used capacity := used / capacity
  maxInsLoadPercent := 4 / 5
  leastBusyScheduler := false

/-- An INS of 100 sockets that listens on some ports. -/
def Ins.listening (ref : Nat) (used : Int) (ports : List Nat) (active : Bool) : Ins where
  ref := ref
  domid := some ref
  ip := some "10.15.32.8"
  stats := some { maxSockets := 100, usedSockets := used }
  forwarders := ports.map fun p => { port := p, dest := some "10.15.32.8", active := active }
  active := active

/-- Two INSs listen, and the first is overloaded: the second takes over. -/
theorem balance_load_serves_iff_two :
    let s : Pool := { insMap := [.listening 1 90 [80] true, .listening 2 10 [80] false] }
    (s.balanceLoad defaults).2.Served (.listening 1 90 [80] true) := by
  intro s
  have hpicked : s.Picked defaults 1 2 :=
    ⟨[2], [(2, 1 / 10)], 1 / 10, by decide +kernel, by decide +kernel, by decide +kernel⟩
  refine (balance_load_serves_iff defaults s (by decide) (.listening 1 90 [80] true)
    (by decide +kernel)).mpr (Or.inr ⟨?_, ?_⟩)
  · intro r hr _
    rw [hr.unique hpicked]
    decide
  · intro _
    decide

/-- Neither of the first two INSs listens. The loop skips the second, which is then
put in place of the INS that does. -/
theorem balance_load_activates_none :
    let s : Pool := { insMap :=
      [.listening 1 0 [] false, .listening 2 0 [] false, .listening 3 90 [80] true] }
    s.insMap.filter Ins.active = [.listening 3 90 [80] true] ∧
      (s.balanceLoad defaults).2.insMap.filter Ins.active = [] ∧
        ¬ (s.balanceLoad defaults).2.Served (.listening 3 90 [80] true) := by
  intro s
  have hnone : (s.balanceLoad defaults).2.insMap.filter Ins.active = [] := by decide +kernel
  refine ⟨by decide +kernel, hnone, ?_⟩
  rintro ⟨x, hx, -⟩
  rw [hnone] at hx
  cases hx

end MagicWand.Distro
