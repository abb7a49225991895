import MagicWand.Foundation.Tally
import Mathlib.Data.Fintype.Basic
import Mathlib.Data.List.Basic
import Mathlib.Logic.Function.Basic

/-!
# Doorbells

Producers put work on some lines and ring. A ring sets a mark on the line, which a
second ring before the delivery does not change; the delivery clears the mark and adds
one to a count. The one consumer looks at the lines in turn, and when it has found
nothing on any of them it waits until the count is positive, takes one off and looks
at all of them again.

A count may be left over from work that has been found without it, and one delivery
may stand for many pieces of work. A ring may be lost, before it sets the mark or
after, as long as the consumer will come by the line. Still no work is forgotten: while a line has work,
somebody has yet to ring or to deliver, or the count is positive, or the consumer will
come by the line before it waits. And without new work, all this ends.
-/

namespace Foundation

/-- A line: its work, whether a producer has yet to ring, and the mark. -/
structure Line where
  work : Nat
  unrung : Bool
  pending : Bool

/-- The consumer: on its way along the lines, waiting when none is left, or with a
piece of work that it has found, or that it holds. -/
inductive Looker (ι : Type) where
  | scan (todo : List ι)
  | found (i : ι)
  | held (i : ι)

structure Doorbell (ι : Type) where
  lines : ι → Line
  count : Nat
  looker : Looker ι

variable {ι : Type}

/-- What may still happen because of a line. -/
def Line.weight (n : Nat) (l : Line) : Nat :=
  (n + 2) * l.work + (if l.unrung then n + 3 else 0) + if l.pending then n + 2 else 0

namespace Looker

/-- The consumer comes by the line before it waits. -/
def Looks (i : ι) : Looker ι → Prop
  | .scan todo => i ∈ todo
  | .found _ | .held _ => True

/-- How much the consumer may do without new work and without being woken. -/
def weight : Looker ι → Nat
  | .scan todo => todo.length + 2
  | .found _ => 2
  | .held _ => 1

end Looker

namespace Doorbell

/-- No work is forgotten. -/
def Alert (s : Doorbell ι) : Prop :=
  ∀ i, 0 < (s.lines i).work →
    (s.lines i).unrung = true ∨ (s.lines i).pending = true ∨ 0 < s.count ∨
      s.looker.Looks i

/-- When the consumer waits with nothing to wake it, there is no work. -/
theorem Alert.idle {s : Doorbell ι} (h : Alert s) (hunrung : ∀ i, (s.lines i).unrung = false)
    (hpending : ∀ i, (s.lines i).pending = false) (hcount : s.count = 0)
    (hlooker : s.looker = .scan []) (i : ι) : (s.lines i).work = 0 := by
  by_contra hwork
  rcases h i (Nat.pos_of_ne_zero hwork) with hr | hp | hc | hl
  · rw [hunrung i] at hr
    cases hr
  · rw [hpending i] at hp
    cases hp
  · omega
  · rw [hlooker] at hl
    cases hl

variable [DecidableEq ι]

def setLine (s : Doorbell ι) (i : ι) (l : Line) : Doorbell ι :=
  { s with lines := Function.update s.lines i l }

/-- New work on a line. -/
def produce (s : Doorbell ι) (i : ι) : Doorbell ι :=
  s.setLine i { s.lines i with work := (s.lines i).work + 1, unrung := true }

/-- What happens without new work. A way along the lines has at most `n` of them, and
every line is among them. -/
inductive Move (n : Nat) (s : Doorbell ι) : Doorbell ι → Prop where
  | ring (i : ι) (hunrung : (s.lines i).unrung = true) :
      Move n s (s.setLine i { s.lines i with unrung := false, pending := true })
  | miss (i : ι) (hunrung : (s.lines i).unrung = true) (hlooks : s.looker.Looks i) :
      Move n s (s.setLine i { s.lines i with unrung := false })
  | clear (i : ι) (hpending : (s.lines i).pending = true) (hlooks : s.looker.Looks i) :
      Move n s (s.setLine i { s.lines i with pending := false })
  | deliver (i : ι) (hpending : (s.lines i).pending = true) :
      Move n s { s.setLine i { s.lines i with pending := false } with count := s.count + 1 }
  | find (i : ι) (todo : List ι) (hlooker : s.looker = .scan (i :: todo))
      (hwork : 0 < (s.lines i).work) : Move n s { s with looker := .found i }
  | pass (i : ι) (todo : List ι) (hlooker : s.looker = .scan (i :: todo))
      (hnone : (s.lines i).work = 0) : Move n s { s with looker := .scan todo }
  | wake (todo : List ι) (hlooker : s.looker = .scan []) (hcount : 0 < s.count)
      (hall : ∀ i, i ∈ todo) (hlen : todo.length ≤ n) :
      Move n s { s with count := s.count - 1, looker := .scan todo }
  | fetch (i : ι) (hlooker : s.looker = .found i) : Move n s { s with looker := .held i }
  | take (i : ι) (todo : List ι) (hlooker : s.looker = .found i ∨ s.looker = .held i)
      (hwork : 0 < (s.lines i).work) (hall : ∀ i, i ∈ todo) (hlen : todo.length ≤ n) :
      Move n s { s.setLine i { s.lines i with work := (s.lines i).work - 1 } with
        looker := .scan todo }

variable {n : Nat} {s s' : Doorbell ι}

/-! ## No work is forgotten -/

theorem setLine_self (s : Doorbell ι) (i : ι) (l : Line) : (s.setLine i l).lines i = l :=
  Function.update_self ..

theorem setLine_ne (s : Doorbell ι) {i j : ι} (l : Line) (h : j ≠ i) :
    (s.setLine i l).lines j = s.lines j := Function.update_of_ne h ..

theorem setLine_lines (s : Doorbell ι) (i : ι) : s.setLine i (s.lines i) = s :=
  congrArg (fun lines => { s with lines := lines }) (Function.update_eq_self i s.lines)

theorem Alert.produce (h : Alert s) (i : ι) : Alert (s.produce i) := by
  intro j hwork
  by_cases hj : j = i
  · subst hj
    rw [Doorbell.produce, setLine_self]
    exact .inl rfl
  · rw [Doorbell.produce, setLine_ne _ _ hj] at hwork ⊢
    exact h j hwork

theorem Alert.move (h : Alert s) (hm : Move n s s') : Alert s' := by
  intro j hwork
  cases hm with
  | ring i hunrung =>
      by_cases hj : j = i
      · subst hj
        rw [setLine_self]
        exact .inr (.inl rfl)
      · rw [setLine_ne _ _ hj] at hwork ⊢
        exact h j hwork
  | miss i hunrung hlooks | clear i hpending hlooks =>
      by_cases hj : j = i
      · subst hj
        exact .inr (.inr (.inr hlooks))
      · rw [setLine_ne _ _ hj] at hwork ⊢
        exact h j hwork
  | deliver i hpending => exact .inr (.inr (.inl (Nat.succ_pos _)))
  | find i todo hlooker hfound => exact .inr (.inr (.inr trivial))
  | pass i todo hlooker hnone =>
      -- The line that the consumer has just passed had no work.
      rcases h j hwork with hunrung | hpending | hcount | hlooks
      · exact .inl hunrung
      · exact .inr (.inl hpending)
      · exact .inr (.inr (.inl hcount))
      · rw [hlooker] at hlooks
        rcases List.mem_cons.mp hlooks with rfl | hmem
        · exact absurd hwork (Nat.not_lt.mpr (Nat.le_of_eq hnone))
        · exact .inr (.inr (.inr hmem))
  | wake todo hlooker hcount hall hlen => exact .inr (.inr (.inr (hall j)))
  | fetch i hlooker => exact .inr (.inr (.inr trivial))
  | take i todo hlooker hheld hall hlen => exact .inr (.inr (.inr (hall j)))

/-! ## It ends -/

/-- More steps than this are not possible without new work. -/
def potential [Fintype ι] (n : Nat) (s : Doorbell ι) : Nat :=
  ∑ i, (s.lines i).weight n + (n + 1) * s.count + s.looker.weight

theorem sum_setLine [Fintype ι] (s : Doorbell ι) (i : ι) (l : Line) :
    ∑ j, ((s.setLine i l).lines j).weight n + (s.lines i).weight n =
      ∑ j, (s.lines j).weight n + l.weight n := by
  have hchange := sum_change (Finset.mem_univ i) (f := fun j => (s.lines j).weight n)
    (k := fun j => ((s.setLine i l).lines j).weight n)
    fun j hj => by rw [setLine_ne _ _ hj]
  simpa only [setLine_self] using hchange

/-- A step that changes a line comes closer to the end if it gains less than the line
loses. -/
theorem potential_setLine_lt [Fintype ι] {i : ι} {l : Line} {c : Nat} {looker : Looker ι}
    (hless : l.weight n + ((n + 1) * c + looker.weight) <
      (s.lines i).weight n + ((n + 1) * s.count + s.looker.weight)) :
    potential n { s.setLine i l with count := c, looker := looker } < potential n s := by
  have hsum := sum_setLine (n := n) s i l
  show ∑ j, ((s.setLine i l).lines j).weight n + (n + 1) * c + looker.weight < _
  rw [potential]
  omega

/-- Every step without new work brings the end closer. -/
theorem Move.potential_lt [Fintype ι] (hm : Move n s s') : s'.potential n < s.potential n := by
  cases hm with
  | ring i hunrung =>
      apply potential_setLine_lt
      simp only [Line.weight, hunrung, if_true, Bool.false_eq_true, if_false]
      split_ifs <;> omega
  | miss i hunrung hlooks =>
      apply potential_setLine_lt
      simp only [Line.weight, hunrung, if_true, Bool.false_eq_true, if_false]
      omega
  | clear i hpending hlooks =>
      apply potential_setLine_lt
      simp only [Line.weight, hpending, if_true, Bool.false_eq_true, if_false]
      omega
  | deliver i hpending =>
      apply potential_setLine_lt
      simp only [Line.weight, hpending, if_true, Bool.false_eq_true, if_false, setLine, Nat.mul_succ]
      omega
  | find i todo hlooker hwork =>
      simp only [potential, hlooker, Looker.weight, List.length_cons]
      omega
  | pass i todo hlooker hnone =>
      simp only [potential, hlooker, Looker.weight, List.length_cons]
      omega
  | wake todo hlooker hcount hall hlen =>
      obtain ⟨c, hc⟩ := Nat.exists_eq_succ_of_ne_zero (Nat.ne_of_gt hcount)
      simp only [potential, hlooker, hc, Looker.weight, List.length_nil, Nat.succ_eq_add_one,
        Nat.add_sub_cancel, Nat.mul_succ]
      omega
  | fetch i hlooker =>
      simp only [potential, hlooker, Looker.weight]
      omega
  | take i todo hlooker hwork hall hlen =>
      obtain ⟨w, hw⟩ := Nat.exists_eq_succ_of_ne_zero (Nat.ne_of_gt hwork)
      have hlooks : 1 ≤ s.looker.weight := by
        rcases hlooker with hl | hl
        · rw [hl]
          exact Nat.le_succ 1
        · rw [hl]
          exact Nat.le_refl 1
      have hscan : (Looker.scan todo).weight = todo.length + 2 := rfl
      apply potential_setLine_lt
      simp only [Line.weight, hw, Nat.succ_eq_add_one, Nat.add_sub_cancel, Nat.mul_succ, setLine,
        hscan]
      omega

end Doorbell

end Foundation
