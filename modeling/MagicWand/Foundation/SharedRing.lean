import MagicWand.Foundation.CircularBuffer

/-!
# Rings shared by requests and answers

Requests and answers take turns in the cells of one ring: an answer goes where a
request has been read. Positions are counted without bound, and position `i`
lives in cell `i % size`. Four marks move through the positions,

  `rspCons ≤ rspProd ≤ reqCons ≤ reqProd ≤ rspCons + size`,

so that the answers that wait and the requests that wait are two windows of one
stretch of at most `size` positions. A cell is `busy` while it holds one of them.
-/

namespace Foundation

namespace SharedRing

variable {α : Type}

structure Cell (α : Type) where
  item : Option α := none
  busy : Bool := false

structure Marks where
  rspCons : Nat
  rspProd : Nat
  reqCons : Nat
  reqProd : Nat

structure Marks.Ordered (m : Marks) (size : Nat) : Prop where
  rsp : m.rspCons ≤ m.rspProd
  answered : m.rspProd ≤ m.reqCons
  req : m.reqCons ≤ m.reqProd
  room : m.reqProd ≤ m.rspCons + size

/-- Two positions less than a round apart have different cells. -/
theorem cell_ne {size i j : Nat} (hij : i < j) (hj : j < i + size) : i % size ≠ j % size := by
  have hne := @CircularBuffer.index_ne size i 0 (j - i) (by omega) (by omega)
  rwa [Nat.add_zero, Nat.add_sub_of_le (Nat.le_of_lt hij)] at hne

/-- The positions from `lo` to `hi` hold the items of `xs` at these positions. -/
def Held (size : Nat) (cells : Nat → Cell α) (xs : List α) (lo hi : Nat) : Prop :=
  ∀ i x, lo ≤ i → i < hi → xs[i]? = some x → cells (i % size) = ⟨some x, true⟩

namespace Held

variable {size lo hi : Nat} {cells : Nat → Cell α} {xs : List α}

/-- A cell outside the window may change. -/
theorem write (h : Held size cells xs lo hi) {n : Nat}
    (hout : ∀ i, lo ≤ i → i < hi → i % size ≠ n) (c : Cell α) :
    Held size (Function.update cells n c) xs lo hi := by
  intro i x hlo hhi hx
  rw [Function.update_of_ne (hout i hlo hhi)]
  exact h i x hlo hhi hx

/-- The item after the window joins it. -/
theorem push (h : Held size cells xs lo hi) (hlen : xs.length = hi) (hroom : hi < lo + size)
    (x : α) :
    Held size (Function.update cells (hi % size) ⟨some x, true⟩) (xs ++ [x]) lo (hi + 1) := by
  intro i y hlo hhi hy
  rcases Nat.lt_succ_iff_lt_or_eq.mp hhi with hlt | rfl
  · rw [Function.update_of_ne (cell_ne hlt (by omega))]
    rw [List.getElem?_append_left (by omega)] at hy
    exact h i y hlo hlt hy
  · rw [← hlen, List.getElem?_concat_length] at hy
    cases hy
    exact Function.update_self ..

/-- The first item of the window leaves it. -/
theorem pop (h : Held size cells xs lo hi) (hroom : hi ≤ lo + size) (c : Cell α) :
    Held size (Function.update cells (lo % size) c) xs (lo + 1) hi := by
  intro i x hlo hhi hx
  rw [Function.update_of_ne (cell_ne (by omega) (by omega)).symm]
  exact h i x (by omega) hhi hx

end Held

/-- What the cells hold when requests `reqs` have been sent and answers `rsps`
written. -/
structure Pictured (size : Nat) (cells : Nat → Cell α) (reqs rsps : List α) (m : Marks) : Prop where
  ordered : m.Ordered size
  requests : Held size cells reqs m.reqCons m.reqProd
  answers : Held size cells rsps m.rspCons m.rspProd
  sent : reqs.length = m.reqProd
  written : rsps.length = m.rspProd
  busy : ∀ n, (cells n).busy = true → ∃ i, n = i % size ∧
    (m.reqCons ≤ i ∧ i < m.reqProd ∨ m.rspCons ≤ i ∧ i < m.rspProd)

namespace Pictured

variable {size : Nat} {cells : Nat → Cell α} {reqs rsps : List α} {m : Marks}

theorem init : Pictured size (fun _ => ({} : Cell α)) [] [] ⟨0, 0, 0, 0⟩ where
  ordered := ⟨Nat.le_refl _, Nat.le_refl _, Nat.le_refl _, Nat.zero_le _⟩
  requests := fun _ _ _ h => absurd h (Nat.not_lt_zero _)
  answers := fun _ _ _ h => absurd h (Nat.not_lt_zero _)
  sent := rfl
  written := rfl
  busy := fun _ h => by cases h

/-- The cell for the next request, when there is room. -/
theorem free_request (h : Pictured size cells reqs rsps m) (hroom : m.reqProd < m.rspCons + size)
    {i : Nat} (hi : m.reqCons ≤ i ∧ i < m.reqProd ∨ m.rspCons ≤ i ∧ i < m.rspProd) :
    i % size ≠ m.reqProd % size := by
  obtain ⟨h₁, h₂, h₃, -⟩ := h.ordered
  exact cell_ne (by omega) (by omega)

/-- The cell for the next answer, when a request waits for one. -/
theorem free_answer (h : Pictured size cells reqs rsps m) (howed : m.rspProd < m.reqCons)
    {i : Nat} (hi : m.reqCons ≤ i ∧ i < m.reqProd ∨ m.rspCons ≤ i ∧ i < m.rspProd) :
    i % size ≠ m.rspProd % size := by
  obtain ⟨h₁, h₂, h₃, h₄⟩ := h.ordered
  rcases hi with hi | hi
  · exact (cell_ne (by omega) (by omega)).symm
  · exact cell_ne (by omega) (by omega)

/-- A cell that none of the two windows uses is not busy, and may be written. -/
theorem write (h : Pictured size cells reqs rsps m) {n : Nat}
    (hfree : ∀ {i}, m.reqCons ≤ i ∧ i < m.reqProd ∨ m.rspCons ≤ i ∧ i < m.rspProd → i % size ≠ n)
    (item : Option α) :
    (cells n).busy = false ∧ Pictured size (Function.update cells n ⟨item, false⟩) reqs rsps m := by
  constructor
  · by_contra hbusy
    obtain ⟨i, rfl, hi⟩ := h.busy n (by simpa using hbusy)
    exact hfree hi rfl
  · refine ⟨h.ordered, h.requests.write (fun i hlo hhi => hfree (.inl ⟨hlo, hhi⟩)) _,
      h.answers.write (fun i hlo hhi => hfree (.inr ⟨hlo, hhi⟩)) _, h.sent, h.written, ?_⟩
    intro j hj
    by_cases hjn : j = n
    · rw [hjn, Function.update_self] at hj
      cases hj
    · rw [Function.update_of_ne hjn] at hj
      exact h.busy j hj

/-- A request is sent from its cell. -/
theorem send (h : Pictured size cells reqs rsps m) (hroom : m.reqProd < m.rspCons + size) (x : α) :
    Pictured size (Function.update cells (m.reqProd % size) ⟨some x, true⟩) (reqs ++ [x]) rsps
      { m with reqProd := m.reqProd + 1 } := by
  obtain ⟨h₁, h₂, h₃, -⟩ := h.ordered
  refine ⟨⟨h₁, h₂, Nat.le_succ_of_le h₃, hroom⟩, h.requests.push h.sent (by omega) x,
    h.answers.write (fun i hlo hhi => h.free_request hroom (.inr ⟨hlo, hhi⟩)) _, ?_, h.written, ?_⟩
  · rw [List.length_append, h.sent]
    rfl
  · intro n hn
    by_cases hcell : n = m.reqProd % size
    · exact ⟨m.reqProd, hcell, .inl ⟨h₃, Nat.lt_succ_self _⟩⟩
    · rw [Function.update_of_ne hcell] at hn
      obtain ⟨i, hi, hwin⟩ := h.busy n hn
      exact ⟨i, hi, hwin.imp_left fun hw => ⟨hw.1, Nat.lt_succ_of_lt hw.2⟩⟩

/-- An answer is handed over in its cell. -/
theorem answer (h : Pictured size cells reqs rsps m) (howed : m.rspProd < m.reqCons) (x : α) :
    Pictured size (Function.update cells (m.rspProd % size) ⟨some x, true⟩) reqs (rsps ++ [x])
      { m with rspProd := m.rspProd + 1 } := by
  obtain ⟨h₁, h₂, h₃, h₄⟩ := h.ordered
  refine ⟨⟨Nat.le_succ_of_le h₁, howed, h₃, h₄⟩,
    h.requests.write (fun i hlo hhi => h.free_answer howed (.inl ⟨hlo, hhi⟩)) _,
    h.answers.push h.written (by omega) x, h.sent, ?_, ?_⟩
  · rw [List.length_append, h.written]
    rfl
  · intro n hn
    by_cases hcell : n = m.rspProd % size
    · exact ⟨m.rspProd, hcell, .inr ⟨h₁, Nat.lt_succ_self _⟩⟩
    · rw [Function.update_of_ne hcell] at hn
      obtain ⟨i, hi, hwin⟩ := h.busy n hn
      exact ⟨i, hi, hwin.imp_right fun hw => ⟨hw.1, Nat.lt_succ_of_lt hw.2⟩⟩

/-- The request that waits longest is read. -/
theorem read (h : Pictured size cells reqs rsps m) (hwait : m.reqCons < m.reqProd)
    (item : Option α) :
    Pictured size (Function.update cells (m.reqCons % size) ⟨item, false⟩) reqs rsps
      { m with reqCons := m.reqCons + 1 } := by
  obtain ⟨h₁, h₂, h₃, h₄⟩ := h.ordered
  refine ⟨⟨h₁, Nat.le_succ_of_le h₂, hwait, h₄⟩, h.requests.pop (by omega) _,
    h.answers.write (fun i hlo hhi => cell_ne (by omega) (by omega)) _, h.sent, h.written, ?_⟩
  intro n hn
  by_cases hcell : n = m.reqCons % size
  · rw [hcell, Function.update_self] at hn
    cases hn
  · rw [Function.update_of_ne hcell] at hn
    obtain ⟨i, rfl, hwin⟩ := h.busy n hn
    have hne : i ≠ m.reqCons := fun heq => hcell (by rw [heq])
    exact ⟨i, rfl, hwin.imp_left fun hw => ⟨Nat.lt_of_le_of_ne hw.1 hne.symm, hw.2⟩⟩

/-- The answer that waits longest is taken off the ring. -/
theorem consume (h : Pictured size cells reqs rsps m) (hwait : m.rspCons < m.rspProd)
    (item : Option α) :
    Pictured size (Function.update cells (m.rspCons % size) ⟨item, false⟩) reqs rsps
      { m with rspCons := m.rspCons + 1 } := by
  obtain ⟨h₁, h₂, h₃, h₄⟩ := h.ordered
  refine ⟨⟨hwait, h₂, h₃, by dsimp only; omega⟩,
    h.requests.write (fun i hlo hhi => (cell_ne (by omega) (by omega)).symm) _,
    h.answers.pop (by omega) _, h.sent, h.written, ?_⟩
  intro n hn
  by_cases hcell : n = m.rspCons % size
  · rw [hcell, Function.update_self] at hn
    cases hn
  · rw [Function.update_of_ne hcell] at hn
    obtain ⟨i, rfl, hwin⟩ := h.busy n hn
    have hne : i ≠ m.rspCons := fun heq => hcell (by rw [heq])
    exact ⟨i, rfl, hwin.imp_right fun hw => ⟨Nat.lt_of_le_of_ne hw.1 hne.symm, hw.2⟩⟩

end Pictured

end SharedRing

end Foundation
