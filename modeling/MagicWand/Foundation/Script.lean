import Mathlib.Data.List.Basic

/-!
# Computations that call an environment

`Script C O α` is a computation that issues calls of type `C` and receives
outcomes of type `O`. It is run on the list of outcomes received so far: the
result is either a value, or the call it is blocked in (`Except.error c`). A
thread that executes such a computation step by step keeps only the outcomes it
has received; re-running the computation on them tells what it does next.

Loops that make a call in every round are plain recursions on the outcomes, so
they need no fuel and may run for any number of rounds.
-/

namespace Foundation

abbrev Script (C O α : Type) := StateT (List O) (Except C) α

namespace Script

variable {C O α β : Type}

/-- Issue one call: take its outcome from the script, or block in it. -/
def ask (c : C) : Script C O O := fun os =>
  match os with
  | [] => .error c
  | o :: os => .ok (o, os)

theorem pure_ok {a b : α} {os rest : List O} (h : (pure a : Script C O α) os = .ok (b, rest)) :
    b = a := by
  cases h
  rfl

theorem bind_run (m : Script C O α) (f : α → Script C O β) (os : List O) :
    (m >>= f) os = match m os with
      | .error c => .error c
      | .ok (a, rest) => f a rest := by
  show (m os >>= fun p => f p.1 p.2) = _
  cases m os <;> rfl

theorem bind_ok {m : Script C O α} {f : α → Script C O β} {os rest : List O} {b : β}
    (h : (m >>= f) os = .ok (b, rest)) :
    ∃ a mid, m os = .ok (a, mid) ∧ f a mid = .ok (b, rest) := by
  rw [bind_run] at h
  cases hm : m os with
  | error c => rw [hm] at h; simp at h
  | ok p => rw [hm] at h; exact ⟨p.1, p.2, rfl, h⟩

/-- A computation that starts with a call and has returned has received the
outcome of that call first. -/
theorem ask_bind_ok {c : C} {f : O → Script C O β} {os rest : List O} {b : β}
    (h : (ask c >>= f) os = .ok (b, rest)) :
    ∃ o mid, os = o :: mid ∧ f o mid = .ok (b, rest) := by
  cases os with
  | nil => cases h
  | cons o mid => exact ⟨o, mid, rfl, h⟩

/-- Every outcome was `good` for the call it answers. -/
def Along (good : C → O → Prop) (m : Script C O α) (os : List O) : Prop :=
  ∀ pre o post c, os = pre ++ o :: post → m pre = .error c → good c o

theorem along_nil (good : C → O → Prop) (m : Script C O α) : Along good m [] := by
  intro pre o post c h
  simp at h

/-- A computation that has its value without an outcome received none. -/
theorem along_of_ok {good : C → O → Prop} {m : Script C O α} {os : List O}
    (h : ∀ pre, ∃ a rest, m pre = .ok (a, rest)) : Along good m os := by
  intro pre o post c _ hpre
  obtain ⟨a, rest, hok⟩ := h pre
  rw [hok] at hpre
  cases hpre

/-- The first outcome, and those after it. -/
theorem along_cons {good : C → O → Prop} {m k : Script C O α} {c : C} {o : O} {os : List O}
    (hm : m [] = .error c) (hnext : ∀ os, m (o :: os) = k os) :
    Along good m (o :: os) ↔ good c o ∧ Along good k os := by
  constructor
  · intro h
    refine ⟨h [] o os c rfl hm, fun pre o' post c' hos hpre => ?_⟩
    exact h (o :: pre) o' post c' (by rw [hos]; rfl) (by rw [hnext]; exact hpre)
  · rintro ⟨hgood, hrest⟩ pre o' post c' hos hpre
    cases pre with
    | nil =>
        cases hos
        rw [hm] at hpre
        cases hpre
        exact hgood
    | cons x pre =>
        simp only [List.cons_append, List.cons.injEq] at hos
        obtain ⟨rfl, hos⟩ := hos
        rw [hnext] at hpre
        exact hrest pre o' post c' hos hpre

/-- What is done with the value receives no outcome. -/
theorem along_bind_pure {good : C → O → Prop} {m : Script C O α} {f : α → β} {os : List O} :
    Along good (m >>= fun a => pure (f a)) os ↔ Along good m os := by
  have hblocked : ∀ pre c, (m >>= fun a => pure (f a)) pre = .error c ↔ m pre = .error c := by
    intro pre c
    rw [bind_run]
    cases m pre with
    | error c' => simp
    | ok p =>
        constructor
        · intro h
          cases h
        · intro h
          cases h
  constructor
  · intro h pre o post c hos hpre
    exact h pre o post c hos ((hblocked pre c).mpr hpre)
  · intro h pre o post c hos hpre
    exact h pre o post c hos ((hblocked pre c).mp hpre)

theorem along_bind_callless {good : C → O → Prop} {m : Script C O α} {f : α → Script C O β}
    {os : List O} (hf : ∀ a, ∃ b, f a = pure b) : Along good (m >>= f) os ↔ Along good m os := by
  choose g hg using hf
  have hpure : f = fun a => pure (g a) := funext hg
  rw [hpure, along_bind_pure]

theorem Along.mono {good good' : C → O → Prop} {m : Script C O α} {os : List O}
    (h : Along good m os) (himp : ∀ c o, good c o → good' c o) : Along good' m os := by
  intro pre o post c hos hpre
  exact himp c o (h pre o post c hos hpre)

/-- One more good outcome for the call the computation is blocked in. -/
theorem Along.snoc {good : C → O → Prop} {m : Script C O α} {os : List O} {c : C} {o : O}
    (h : Along good m os) (hc : m os = .error c) (ho : good c o) : Along good m (os ++ [o]) := by
  intro pre o' post c' hsplit hpre
  rcases List.eq_nil_or_concat post with rfl | ⟨post', x, rfl⟩
  · obtain ⟨rfl, hlast⟩ := List.append_inj' hsplit rfl
    cases hlast
    rw [hc] at hpre
    cases hpre
    exact ho
  · rw [List.concat_eq_append, ← List.cons_append, ← List.append_assoc] at hsplit
    obtain ⟨hos, -⟩ := List.append_inj' hsplit rfl
    exact h pre o' post' c' hos hpre

/-! ## Traces -/

/-- The calls of a computation, with the outcomes they received. -/
def trace (m : Script C O α) : List O → List (C × O)
  | [] => []
  | o :: os =>
      match m [] with
      | .error c => (c, o) :: trace (fun os => m (o :: os)) os
      | .ok _ => []

theorem trace_cons {m k : Script C O α} {c : C} {o : O} {os : List O} (hm : m [] = .error c)
    (hnext : ∀ os, m (o :: os) = k os) : trace m (o :: os) = (c, o) :: trace k os := by
  rw [trace, hm]
  simp only [hnext]

/-- A computation that has its value makes no call. -/
theorem trace_of_ok {m : Script C O α} {x : α × List O} (h : m [] = .ok x) (os : List O) :
    trace m os = [] := by
  cases os with
  | nil => rfl
  | cons o os => rw [trace, h]

/-- What is done with the value makes no call. -/
theorem trace_bind_pure (m : Script C O α) (f : α → β) (os : List O) :
    trace (m >>= fun a => pure (f a)) os = trace m os := by
  induction os generalizing m with
  | nil => rfl
  | cons o os ih =>
      let m' : Script C O α := fun os => m (o :: os)
      have hnext (os : List O) : (m >>= fun a => pure (f a)) (o :: os) =
          (m' >>= fun a => pure (f a)) os := rfl
      have hnil := bind_run m (fun a => (pure (f a) : Script C O β)) []
      rcases hm : m [] with c | x
      · rw [hm] at hnil
        rw [trace_cons hnil hnext, trace_cons (k := m') hm fun _ => rfl, ih]
      · rw [hm] at hnil
        rw [trace_of_ok hnil, trace_of_ok hm]

theorem trace_bind_callless {m : Script C O α} {f : α → Script C O β}
    (hf : ∀ a, ∃ b, f a = pure b) (os : List O) : trace (m >>= f) os = trace m os := by
  choose g hg using hf
  have hpure : f = fun a => pure (g a) := funext hg
  rw [hpure, trace_bind_pure]

/-- The outcomes in a trace are those that were good. -/
theorem Along.mem_trace {good : C → O → Prop} {m : Script C O α} {os : List O}
    (h : Along good m os) {c : C} {o : O} (hmem : (c, o) ∈ trace m os) : good c o := by
  induction os generalizing m with
  | nil => cases hmem
  | cons o' os ih =>
      let m' : Script C O α := fun os => m (o' :: os)
      rcases hm : m [] with c' | x
      · rw [along_cons (k := m') hm fun _ => rfl] at h
        rw [trace_cons (k := m') hm fun _ => rfl] at hmem
        rcases List.mem_cons.mp hmem with heq | hmem
        · cases heq
          exact h.1
        · exact ih h.2 hmem
      · rw [trace_of_ok hm] at hmem
        cases hmem

/-- A computation that has received all of `os` and is blocked receives one more
outcome. -/
theorem trace_snoc {m : Script C O α} {os : List O} {c : C}
    (hlen : (trace m os).length = os.length) (hm : m os = .error c) (o : O) :
    trace m (os ++ [o]) = trace m os ++ [(c, o)] := by
  induction os generalizing m with
  | nil => rw [List.nil_append, trace_cons hm fun _ => rfl]; rfl
  | cons o' os ih =>
      let m' : Script C O α := fun os => m (o' :: os)
      rcases hnil : m [] with c' | x
      · have hcons (os : List O) : trace m (o' :: os) = (c', o') :: trace m' os :=
          trace_cons hnil fun _ => rfl
        rw [hcons, List.length_cons, List.length_cons] at hlen
        rw [List.cons_append, hcons, hcons, ih (Nat.succ.inj hlen) hm, List.cons_append]
      · rw [trace_of_ok hnil] at hlen
        cases hlen

/-! ## The calls a computation can make -/

/-- Every call that the computation makes, whatever it receives, is a `p`. -/
def Calls (p : C → Prop) (m : Script C O α) : Prop := ∀ os c, m os = .error c → p c

theorem calls_pure (p : C → Prop) (a : α) : Calls p (pure a : Script C O α) := by
  intro os c h
  cases h

theorem calls_ask {p : C → Prop} {c : C} (hc : p c) : Calls p (ask c : Script C O O) := by
  intro os c' h
  cases os with
  | nil =>
      cases h
      exact hc
  | cons o os => cases h

theorem Calls.bind {p : C → Prop} {m : Script C O α} {f : α → Script C O β} (hm : Calls p m)
    (hf : ∀ a, Calls p (f a)) : Calls p (m >>= f) := by
  intro os c h
  rw [bind_run] at h
  rcases hrun : m os with c' | ⟨a, rest⟩
  · rw [hrun] at h
    cases h
    exact hm os c hrun
  · rw [hrun] at h
    exact hf a rest c h

theorem Calls.mem_trace {p : C → Prop} {m : Script C O α} (hm : Calls p m) {os : List O} {c : C}
    {o : O} (h : (c, o) ∈ trace m os) : p c := by
  induction os generalizing m with
  | nil => cases h
  | cons o' os ih =>
      let m' : Script C O α := fun os => m (o' :: os)
      rcases hnil : m [] with c' | x
      · rw [trace_cons (k := m') hnil fun _ => rfl] at h
        rcases List.mem_cons.mp h with heq | hmem
        · cases heq
          exact hm [] c hnil
        · exact ih (fun os c hc => hm (o' :: os) c hc) hmem
      · rw [trace_of_ok hnil] at h
        cases h

/-- The calls of a computation, the one included that it is blocked in. -/
def issued (m : Script C O α) : List O → List C
  | [] =>
      match m [] with
      | .error c => [c]
      | .ok _ => []
  | o :: os =>
      match m [] with
      | .error c => c :: issued (fun os => m (o :: os)) os
      | .ok _ => []

theorem issued_nil {m : Script C O α} {c : C} (hm : m [] = .error c) : issued m [] = [c] := by
  rw [issued, hm]

theorem issued_cons {m k : Script C O α} {c : C} {o : O} {os : List O} (hm : m [] = .error c)
    (hnext : ∀ os, m (o :: os) = k os) : issued m (o :: os) = c :: issued k os := by
  rw [issued, hm]
  simp only [hnext]

theorem issued_of_ok {m : Script C O α} {x : α × List O} (h : m [] = .ok x) (os : List O) :
    issued m os = [] := by
  cases os with
  | nil => rw [issued, h]
  | cons o os => rw [issued, h]

/-- A computation that starts with a call has issued it whatever it has received. -/
theorem mem_issued {m : Script C O α} {c : C} (hm : m [] = .error c) (os : List O) :
    c ∈ issued m os := by
  cases os with
  | nil => rw [issued_nil hm]; exact List.mem_cons_self
  | cons o os =>
      rw [issued_cons (k := fun os => m (o :: os)) hm fun _ => rfl]
      exact List.mem_cons_self

theorem issued_bind_pure (m : Script C O α) (f : α → β) (os : List O) :
    issued (m >>= fun a => pure (f a)) os = issued m os := by
  induction os generalizing m with
  | nil =>
      rw [issued, issued, bind_run]
      cases m [] <;> rfl
  | cons o os ih =>
      let m' : Script C O α := fun os => m (o :: os)
      have hnext (os : List O) : (m >>= fun a => pure (f a)) (o :: os) =
          (m' >>= fun a => pure (f a)) os := rfl
      have hnil := bind_run m (fun a => (pure (f a) : Script C O β)) []
      rcases hm : m [] with c | x
      · rw [hm] at hnil
        rw [issued_cons hnil hnext, issued_cons (k := m') hm fun _ => rfl, ih]
      · rw [hm] at hnil
        rw [issued_of_ok hnil, issued_of_ok hm]

end Script

end Foundation
