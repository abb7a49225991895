import Mathlib.Algebra.Ring.Nat
import Mathlib.Data.List.Basic

/-!
# Guarded transition systems

A system is an initial state and an executable step function: `step s e` is
`some s'` when event `e` is enabled in `s`. The events carry every choice the
environment makes (which thread moves, what a blocking call returns), so an
interleaving is nothing but a list of events.

`Guarded G` restricts a run to steps that meet a condition on the state before
the step and the event. Properties that hold only of such runs are proved with
`guarded_invariant`; `G := fun _ _ => True` gives the unrestricted rule.
-/

namespace Foundation

/-- An initial state and a guarded step function. -/
structure System (S E : Type) where
  init : S
  step : S → E → Option S

namespace System

variable {S E : Type} (sys : System S E)

/-- Replay a list of events; `none` as soon as one of them is disabled. -/
def runFrom (s : S) : List E → Option S
  | [] => some s
  | e :: es => (sys.step s e).bind fun s' => runFrom s' es

def run (es : List E) : Option S := sys.runFrom sys.init es

@[simp] theorem runFrom_nil (s : S) : sys.runFrom s [] = some s := rfl

theorem runFrom_cons (s : S) (e : E) (es : List E) :
    sys.runFrom s (e :: es) = (sys.step s e).bind fun s' => sys.runFrom s' es := rfl

theorem runFrom_cons_some {s s' : S} {e : E} {es : List E}
    (h : sys.runFrom s (e :: es) = some s') :
    ∃ t, sys.step s e = some t ∧ sys.runFrom t es = some s' := by
  rw [runFrom_cons] at h
  cases ht : sys.step s e with
  | none => rw [ht] at h; simp at h
  | some t => rw [ht] at h; exact ⟨t, rfl, h⟩

theorem runFrom_append (s : S) (es fs : List E) :
    sys.runFrom s (es ++ fs) = (sys.runFrom s es).bind fun s' => sys.runFrom s' fs := by
  induction es generalizing s with
  | nil => rfl
  | cons e es ih =>
      simp only [List.cons_append, runFrom_cons, Option.bind_assoc]
      congr 1
      funext t
      exact ih t

/-- Every step of the run meets `G` in the state it is taken from. -/
def GuardedFrom (G : S → E → Prop) (s : S) : List E → Prop
  | [] => True
  | e :: es => G s e ∧ ∀ s', sys.step s e = some s' → GuardedFrom G s' es

def Guarded (G : S → E → Prop) (es : List E) : Prop := sys.GuardedFrom G sys.init es

/-- The guard of a run is decidable when the guard of a step is. -/
instance decGuardedFrom (G : S → E → Prop) [∀ s e, Decidable (G s e)] :
    ∀ (es : List E) (s : S), Decidable (sys.GuardedFrom G s es)
  | [], _ => isTrue trivial
  | e :: es, s =>
      match h : sys.step s e with
      | none => decidable_of_iff (G s e) (by simp [GuardedFrom, h])
      | some t =>
          have := decGuardedFrom G es t
          decidable_of_iff (G s e ∧ sys.GuardedFrom G t es) (by simp [GuardedFrom, h])

instance decGuarded (G : S → E → Prop) [∀ s e, Decidable (G s e)] (es : List E) :
    Decidable (sys.Guarded G es) :=
  sys.decGuardedFrom G es sys.init

theorem GuardedFrom.mono {G H : S → E → Prop} (hGH : ∀ s e, G s e → H s e) :
    ∀ {es : List E} {s : S}, sys.GuardedFrom G s es → sys.GuardedFrom H s es
  | [], _, _ => trivial
  | _ :: _, _, h => ⟨hGH _ _ h.1, fun s' hs => GuardedFrom.mono hGH (h.2 s' hs)⟩

/-- Two guards that say the same of every state of an invariant, which the steps that
meet them keep, say the same of every run. -/
theorem guardedFrom_congr {P G H : S → E → Prop} {Inv : S → Prop}
    (hiff : ∀ s e, Inv s → P s e → (G s e ↔ H s e))
    (hstep : ∀ s e s', Inv s → P s e → G s e → sys.step s e = some s' → Inv s') :
    ∀ {es : List E} {s : S}, Inv s → sys.GuardedFrom P s es →
      (sys.GuardedFrom G s es ↔ sys.GuardedFrom H s es)
  | [], _, _, _ => Iff.rfl
  | e :: es, s, hinv, hP => by
      rw [GuardedFrom, GuardedFrom, ← hiff s e hinv hP.1]
      refine and_congr_right fun hG => forall_congr' fun s' => forall_congr' fun hs => ?_
      exact guardedFrom_congr hiff hstep (hstep s e s' hinv hP.1 hG hs) (hP.2 s' hs)

theorem runFrom_singleton {s s' : S} {e : E} (h : sys.step s e = some s') :
    sys.runFrom s [e] = some s' := by
  rw [runFrom_cons, h]
  rfl

theorem guardedFrom_singleton {G : S → E → Prop} {s : S} {e : E} (h : G s e) :
    sys.GuardedFrom G s [e] := ⟨h, fun _ _ => trivial⟩

theorem run_append {es fs : List E} {s s' : S} (hrun : sys.run es = some s)
    (hfs : sys.runFrom s fs = some s') : sys.run (es ++ fs) = some s' := by
  rw [run, runFrom_append]
  rw [run] at hrun
  rw [hrun]
  exact hfs

/-- A run that goes on is guarded when both parts are. -/
theorem guardedFrom_append {G : S → E → Prop} {fs : List E} :
    ∀ {es : List E} {s s' : S}, sys.runFrom s es = some s' → sys.GuardedFrom G s es →
      sys.GuardedFrom G s' fs → sys.GuardedFrom G s (es ++ fs) := by
  intro es
  induction es with
  | nil =>
      intro s s' hrun _ hfs
      cases hrun
      exact hfs
  | cons e es ih =>
      intro s s' hrun hG hfs
      obtain ⟨t, ht, hrest⟩ := sys.runFrom_cons_some hrun
      refine ⟨hG.1, ?_⟩
      intro t' ht'
      obtain rfl : t = t' := Option.some.inj (ht.symm.trans ht')
      exact ih hrest (hG.2 t ht) hfs

theorem guardedFrom_true : ∀ (es : List E) (s : S),
    sys.GuardedFrom (fun _ _ => True) s es
  | [], _ => trivial
  | _ :: es, _ => ⟨trivial, fun s' _ => guardedFrom_true es s'⟩

/-- A guard that does not look at the state. -/
theorem guardedFrom_of_mem {G : E → Prop} :
    ∀ {es : List E} (s : S), (∀ e ∈ es, G e) → sys.GuardedFrom (fun _ e => G e) s es
  | [], _, _ => trivial
  | _ :: _, _, h => ⟨h _ List.mem_cons_self, fun s' _ =>
      guardedFrom_of_mem s' fun e he => h e (List.mem_cons_of_mem _ he)⟩

/-- The run rule with a history: the invariant may mention the events so far. -/
theorem guardedFrom_history {G : S → E → Prop} {I : List E → S → Prop}
    (hstep : ∀ past s e s', G s e → sys.step s e = some s' → I past s → I (past ++ [e]) s') :
    ∀ {es : List E} (past : List E) {s s' : S}, sys.GuardedFrom G s es →
      sys.runFrom s es = some s' → I past s → I (past ++ es) s' := by
  intro es
  induction es with
  | nil =>
      intro past s s' _ hrun hinv
      cases hrun
      rwa [List.append_nil]
  | cons e es ih =>
      intro past s s' hG hrun hinv
      obtain ⟨t, ht, hrun⟩ := sys.runFrom_cons_some hrun
      have hnext := ih (past ++ [e]) (hG.2 t ht) hrun (hstep past s e t hG.1 ht hinv)
      rwa [List.append_assoc] at hnext

/-- What a guarded step preserves, a guarded run preserves. -/
theorem guardedFrom_invariant {G : S → E → Prop} {Inv : S → Prop}
    (hstep : ∀ s e s', G s e → sys.step s e = some s' → Inv s → Inv s')
    {es : List E} {s s' : S} (hG : sys.GuardedFrom G s es) (hrun : sys.runFrom s es = some s')
    (hinv : Inv s) : Inv s' :=
  sys.guardedFrom_history (fun _ => hstep) [] hG hrun hinv

/-- The run rule: an invariant of the initial state that every guarded step
preserves holds in every state a guarded run reaches. -/
theorem guarded_invariant {G : S → E → Prop} {Inv : S → Prop} (hinit : Inv sys.init)
    (hstep : ∀ s e s', G s e → sys.step s e = some s' → Inv s → Inv s')
    {es : List E} {s : S} (hG : sys.Guarded G es) (hrun : sys.run es = some s) : Inv s :=
  sys.guardedFrom_invariant hstep hG hrun hinit

/-- The unrestricted rule. -/
theorem run_invariant {Inv : S → Prop} (hinit : Inv sys.init)
    (hstep : ∀ s e s', sys.step s e = some s' → Inv s → Inv s')
    {es : List E} {s : S} (hrun : sys.run es = some s) : Inv s :=
  sys.guarded_invariant hinit (fun s e s' _ => hstep s e s')
    (sys.guardedFrom_true es sys.init) hrun

/-- Forward simulation: if each guarded step is matched by guarded steps of another system,
a guarded run is matched by a guarded run of the other. -/
theorem guarded_simulation {S' E' : Type} (sys' : System S' E') {G : S → E → Prop}
    {H : S' → E' → Prop} {Inv : S → Prop} {abs : S → S'} (hinit : Inv sys.init)
    (habs : sys'.init = abs sys.init)
    (hstep : ∀ s e s', G s e → sys.step s e = some s' → Inv s → Inv s' ∧
      ∃ fs, sys'.runFrom (abs s) fs = some (abs s') ∧ sys'.GuardedFrom H (abs s) fs)
    {es : List E} {s : S} (hG : sys.Guarded G es) (hrun : sys.run es = some s) :
    ∃ fs, sys'.run fs = some (abs s) ∧ sys'.Guarded H fs := by
  have hall : Inv s ∧ ∃ fs, sys'.run fs = some (abs s) ∧ sys'.Guarded H fs := by
    refine @guarded_invariant S E sys G
      (fun t => Inv t ∧ ∃ fs, sys'.run fs = some (abs t) ∧ sys'.Guarded H fs)
      ⟨hinit, [], congrArg some habs, trivial⟩ ?_ es s hG hrun
    rintro t e t' hguard hs ⟨hinv, fs, hfs, hH⟩
    obtain ⟨hinv', gs, hgs, hH'⟩ := hstep t e t' hguard hs hinv
    exact ⟨hinv', fs ++ gs, sys'.run_append hfs hgs, sys'.guardedFrom_append hfs hH hH'⟩
  exact hall.2

/-- If a step from a state that meets `P` ends in one exactly when it meets `G`, a run
stays in `P` exactly when all of its steps meet `G`. The steps may be restricted to those
that meet `H`, and the states to those of an invariant. -/
theorem guardedFrom_iff_always {H G : S → E → Prop} {Inv P : S → Prop}
    (hinv : ∀ s e s', H s e → Inv s → sys.step s e = some s' → Inv s')
    (hstep : ∀ s e s', H s e → Inv s → P s → sys.step s e = some s' → (P s' ↔ G s e))
    {es : List E} {s s' : S} (hH : sys.GuardedFrom H s es) (hrun : sys.runFrom s es = some s')
    (hI : Inv s) (hP : P s) :
    (∀ past t, past <+: es → sys.runFrom s past = some t → P t) ↔ sys.GuardedFrom G s es := by
  induction es generalizing s with
  | nil =>
      refine iff_of_true ?_ trivial
      intro past t hpast ht
      rw [List.prefix_nil.mp hpast] at ht
      cases ht
      exact hP
  | cons e es ih =>
      obtain ⟨u, hu, hrest⟩ := sys.runFrom_cons_some hrun
      have hIu := hinv s e u hH.1 hI hu
      have hiff := hstep s e u hH.1 hI hP hu
      constructor
      · intro h
        have hPu : P u := h [e] u (List.prefix_append [e] es) (by rw [runFrom_cons, hu]; rfl)
        refine ⟨hiff.mp hPu, ?_⟩
        intro u' hu'
        obtain rfl : u = u' := Option.some.inj (hu.symm.trans hu')
        refine (ih (hH.2 u hu) hrest hIu hPu).mp ?_
        intro past t hpast ht
        apply h (e :: past) t (List.cons_prefix_cons.mpr ⟨rfl, hpast⟩)
        rw [runFrom_cons, hu]
        exact ht
      · rintro ⟨hG, hGs⟩ past t hpast ht
        cases past with
        | nil =>
            cases ht
            exact hP
        | cons e' past =>
            obtain ⟨rfl, htail⟩ := List.cons_prefix_cons.mp hpast
            rw [runFrom_cons, hu] at ht
            exact (ih (hH.2 u hu) hrest hIu (hiff.mpr hG)).mpr (hGs u hu) past t htail ht

/-- The run rule for a quantity that steps gain and lose: if what a step loses
tells whether it was guarded, what a run loses tells it of all its steps. -/
theorem guardedFrom_of_balance {G : S → E → Prop} {Inv : S → Prop} {size : S → Nat}
    {gain : E → Nat}
    (hstep : ∀ s e s', Inv s → sys.step s e = some s' → Inv s' ∧
      ∃ lost, size s + gain e = size s' + lost ∧ (lost = 0 → G s e))
    {es : List E} {s s' : S} (hinv : Inv s) (hrun : sys.runFrom s es = some s') :
    ∃ lost, size s + (es.map gain).sum = size s' + lost ∧
      (lost = 0 → sys.GuardedFrom G s es) := by
  induction es generalizing s with
  | nil =>
      cases hrun
      exact ⟨0, rfl, fun _ => trivial⟩
  | cons e es ih =>
      obtain ⟨t, ht, hrest⟩ := sys.runFrom_cons_some hrun
      obtain ⟨hinv', n, hn, hG⟩ := hstep s e t hinv ht
      obtain ⟨lost, hlost, hGs⟩ := ih hinv' hrest
      refine ⟨n + lost, ?_, ?_⟩
      · rw [List.map_cons, List.sum_cons]
        omega
      · intro hzero
        refine ⟨hG (by omega), ?_⟩
        intro t' ht'
        have hsame : t = t' := Option.some.inj (ht.symm.trans ht')
        exact hsame ▸ hGs (by omega)

/-- The potential method: if each step pays its cost out of a quantity and of what it gains, a
run pays no more than there was and what its steps gained. -/
theorem guardedFrom_amortized {G : S → E → Prop} {Inv : S → Prop} {size : S → Nat}
    {cost gain : E → Nat}
    (hstep : ∀ s e s', G s e → sys.step s e = some s' → Inv s →
      Inv s' ∧ cost e + size s' ≤ size s + gain e)
    {es : List E} {s s' : S} (hG : sys.GuardedFrom G s es) (hrun : sys.runFrom s es = some s')
    (hinv : Inv s) : (es.map cost).sum + size s' ≤ size s + (es.map gain).sum := by
  induction es generalizing s with
  | nil =>
      cases hrun
      exact Nat.le_of_eq (Nat.zero_add _)
  | cons e es ih =>
      obtain ⟨t, ht, hrest⟩ := sys.runFrom_cons_some hrun
      obtain ⟨hinv', hpays⟩ := hstep s e t hG.1 ht hinv
      have hle := ih (hG.2 t ht) hrest hinv'
      rw [List.map_cons, List.sum_cons, List.map_cons, List.sum_cons]
      omega

/-- A run of steps that make a quantity smaller is no longer than the quantity. -/
theorem guardedFrom_length_le {G : S → E → Prop} {Inv : S → Prop} {size : S → Nat}
    (hstep : ∀ s e s', Inv s → G s e → sys.step s e = some s' → Inv s' ∧ size s' < size s)
    {es : List E} {s s' : S} (hG : sys.GuardedFrom G s es) (hrun : sys.runFrom s es = some s')
    (hinv : Inv s) : es.length + size s' ≤ size s := by
  induction es generalizing s with
  | nil =>
      cases hrun
      exact Nat.le_of_eq (Nat.zero_add _)
  | cons e es ih =>
      obtain ⟨t, ht, hrest⟩ := sys.runFrom_cons_some hrun
      obtain ⟨hinv', hless⟩ := hstep s e t hinv hG.1 ht
      have hle := ih (hG.2 t ht) hrest hinv'
      rw [List.length_cons]
      omega

/-! ## Histories

A run is observed by what each of its steps adds to a list. -/

variable {α : Type}

/-- What the steps of a run add, in order. -/
def trail (f : S → E → List α) (s : S) : List E → List α
  | [] => []
  | e :: es =>
      f s e ++ match sys.step s e with
        | none => []
        | some s' => trail f s' es

def history (f : S → E → List α) (es : List E) : List α := sys.trail f sys.init es

/-- The run rule for an invariant that mentions what has been observed. -/
theorem guarded_trail {G : S → E → Prop} {f : S → E → List α} {I : List α → S → Prop}
    (hstep : ∀ seen s e s', G s e → sys.step s e = some s' → I seen s → I (seen ++ f s e) s') :
    ∀ {es : List E} {seen : List α} {s s' : S}, sys.GuardedFrom G s es →
      sys.runFrom s es = some s' → I seen s → I (seen ++ sys.trail f s es) s' := by
  intro es
  induction es with
  | nil =>
      intro seen s s' _ hrun hinv
      cases hrun
      simpa only [trail, List.append_nil] using hinv
  | cons e es ih =>
      intro seen s s' hG hrun hinv
      obtain ⟨t, ht, hrun⟩ := sys.runFrom_cons_some hrun
      have hnext := ih (hG.2 t ht) hrun (hstep seen s e t hG.1 ht hinv)
      simpa only [trail, ht, List.append_assoc] using hnext

theorem guarded_history {G : S → E → Prop} {f : S → E → List α} {I : List α → S → Prop}
    (hinit : I [] sys.init)
    (hstep : ∀ seen s e s', G s e → sys.step s e = some s' → I seen s → I (seen ++ f s e) s')
    {es : List E} {s : S} (hG : sys.Guarded G es) (hrun : sys.run es = some s) :
    I (sys.history f es) s :=
  sys.guarded_trail hstep hG hrun hinit

theorem trail_snoc {f : S → E → List α} {e : E} :
    ∀ {es : List E} {s s' : S}, sys.runFrom s es = some s' →
      sys.trail f s (es ++ [e]) = sys.trail f s es ++ f s' e := by
  intro es
  induction es with
  | nil =>
      intro s s' hrun
      cases hrun
      cases h : sys.step s e <;> simp [trail, h]
  | cons e' es ih =>
      intro s s' hrun
      obtain ⟨t, ht, hrun⟩ := sys.runFrom_cons_some hrun
      rw [List.cons_append]
      simp only [trail, ht, ih hrun, List.append_assoc]

theorem history_snoc {f : S → E → List α} {e : E} {es : List E} {s : S}
    (hrun : sys.run es = some s) :
    sys.history f (es ++ [e]) = sys.history f es ++ f s e :=
  sys.trail_snoc hrun

/-- The run rule for an invariant that mentions the run so far. -/
theorem guarded_past {G : S → E → Prop} {I : List E → S → Prop} (hinit : I [] sys.init)
    (hstep : ∀ past s e s', sys.run past = some s → G s e → sys.step s e = some s' → I past s →
      I (past ++ [e]) s')
    {es : List E} {s : S} (hG : sys.Guarded G es) (hrun : sys.run es = some s) : I es s := by
  have hinv : sys.run ([] ++ es) = some s ∧ I ([] ++ es) s := by
    refine @guardedFrom_history _ _ sys G (fun past s => sys.run past = some s ∧ I past s) ?_
      es [] sys.init s hG hrun ⟨rfl, hinit⟩
    rintro past s e s' hguard hs ⟨hpast, hI⟩
    refine ⟨?_, hstep past s e s' hpast hguard hs hI⟩
    rw [run, runFrom_append]
    rw [run] at hpast
    rw [hpast, Option.bind_some, runFrom_cons, hs]
    rfl
  exact hinv.2

/-- What goes into a queue comes out of it in the same order, or is still there. -/
theorem trail_fifo {f k : S → E → List α} {q : S → List α}
    (hstep : ∀ s e s', sys.step s e = some s' → q s ++ f s e = k s e ++ q s') :
    ∀ {es : List E} {s s' : S}, sys.runFrom s es = some s' →
      q s ++ sys.trail f s es = sys.trail k s es ++ q s' := by
  intro es
  induction es with
  | nil =>
      intro s s' hrun
      cases hrun
      simp [trail]
  | cons e es ih =>
      intro s s' hrun
      obtain ⟨t, ht, hrun⟩ := sys.runFrom_cons_some hrun
      calc q s ++ sys.trail f s (e :: es)
          = (q s ++ f s e) ++ sys.trail f t es := by simp only [trail, ht, List.append_assoc]
        _ = k s e ++ (q t ++ sys.trail f t es) := by
            rw [hstep s e t ht, List.append_assoc]
        _ = k s e ++ (sys.trail k t es ++ q s') := by rw [ih hrun]
        _ = sys.trail k s (e :: es) ++ q s' := by simp only [trail, ht, List.append_assoc]

theorem history_fifo {f k : S → E → List α} {q : S → List α} (hinit : q sys.init = [])
    (hstep : ∀ s e s', sys.step s e = some s' → q s ++ f s e = k s e ++ q s')
    {es : List E} {s : S} (hrun : sys.run es = some s) :
    sys.history f es = sys.history k es ++ q s := by
  have h := sys.trail_fifo hstep hrun
  rwa [hinit, List.nil_append] at h

end System

end Foundation
