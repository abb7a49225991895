import Mathlib.Data.List.Basic
import Mathlib.Tactic.IntervalCases
import Mathlib.Tactic.Ring

/-!
# Numerals

What C code reads and writes as a number in a text: `Nat.toDigits` is what
`printf` writes in a base, `takeDigits` is the loop of `strtoul`, which stops in
front of the first character that is no digit of the base.
-/

namespace Foundation

namespace Numerals

/-- The digit that a character stands for, in bases up to 16. -/
def digit? (c : Char) : Option Nat :=
  if '0' ≤ c ∧ c ≤ '9' then some (c.toNat - '0'.toNat)
  else if 'a' ≤ c ∧ c ≤ 'f' then some (c.toNat - 'a'.toNat + 10)
  else if 'A' ≤ c ∧ c ≤ 'F' then some (c.toNat - 'A'.toNat + 10)
  else none

/-- Is this a digit of base `b`? -/
def isDigit (b : Nat) (c : Char) : Bool := (digit? c).any fun d => decide (d < b)

/-- Read digits of base `b` as far as they go: the number so far, and the rest. -/
def takeDigits (b acc : Nat) : List Char → Nat × List Char
  | [] => (acc, [])
  | c :: cs =>
      match digit? c with
      | some d => if d < b then takeDigits b (b * acc + d) cs else (acc, c :: cs)
      | none => (acc, c :: cs)

variable {b : Nat}

theorem digit?_digitChar {d : Nat} (h : d < 16) : digit? d.digitChar = some d := by
  interval_cases d <;> decide

theorem takeDigits_digitChar (hb : b ≤ 16) {d : Nat} (hd : d < b) (acc : Nat) (cs : List Char) :
    takeDigits b acc (d.digitChar :: cs) = takeDigits b (b * acc + d) cs := by
  rw [takeDigits, digit?_digitChar (by omega)]
  exact if_pos hd

/-- Reading what was written. -/
theorem takeDigits_toDigits (hb₁ : 1 < b) (hb : b ≤ 16) (n acc : Nat) (rest : List Char) :
    takeDigits b acc (Nat.toDigits b n ++ rest) =
      takeDigits b (b ^ (Nat.toDigits b n).length * acc + n) rest := by
  induction n using Nat.strongRecOn generalizing acc rest with
  | ind n ih =>
      by_cases hlt : n < b
      · rw [Nat.toDigits_of_lt_base hlt, List.singleton_append, takeDigits_digitChar hb hlt,
          List.length_singleton, Nat.pow_one]
      · have hle : b ≤ n := Nat.le_of_not_lt hlt
        have hmod : n % b < b := Nat.mod_lt _ (by omega)
        have hsum : b * (n / b) + n % b = n := Nat.div_add_mod n b
        rw [Nat.toDigits_of_base_le hb₁ hle, List.append_assoc,
          ih (n / b) (Nat.div_lt_self (by omega) hb₁), List.singleton_append,
          takeDigits_digitChar hb hmod, List.length_append, List.length_singleton]
        congr 1
        calc b * (b ^ (Nat.toDigits b (n / b)).length * acc + n / b) + n % b
            = b ^ ((Nat.toDigits b (n / b)).length + 1) * acc + (b * (n / b) + n % b) := by ring
          _ = _ := by rw [hsum]

/-- Reading stops in front of a character that is no digit. -/
theorem takeDigits_stop {c : Char} (hc : isDigit b c = false) (acc : Nat) (cs : List Char) :
    takeDigits b acc (c :: cs) = (acc, c :: cs) := by
  rw [takeDigits]
  rw [isDigit] at hc
  cases hd : digit? c with
  | none => rfl
  | some d =>
      rw [hd] at hc
      simp only [Option.any_some, decide_eq_false_iff_not] at hc
      exact if_neg hc

/-- A numeral is made of digits. -/
theorem isDigit_of_mem_toDigits (hb₁ : 1 < b) (hb : b ≤ 16) {n : Nat} {c : Char}
    (h : c ∈ Nat.toDigits b n) : isDigit b c = true := by
  have hchar : ∀ d < b, isDigit b d.digitChar = true := by
    intro d hd
    rw [isDigit, digit?_digitChar (by omega)]
    simpa using hd
  induction n using Nat.strongRecOn with
  | ind n ih =>
      by_cases hlt : n < b
      · rw [Nat.toDigits_of_lt_base hlt, List.mem_singleton] at h
        rw [h]
        exact hchar n hlt
      · rw [Nat.toDigits_of_base_le hb₁ (Nat.le_of_not_lt hlt), List.mem_append,
          List.mem_singleton] at h
        rcases h with h | h
        · exact ih (n / b) (Nat.div_lt_self (by omega) hb₁) h
        · rw [h]
          exact hchar _ (Nat.mod_lt _ (by omega))

/-- Only the numeral of 0 starts with the digit 0. -/
theorem eq_zero_of_head?_toDigits (hb₁ : 1 < b) (hb : b ≤ 16) {n : Nat}
    (h : (Nat.toDigits b n).head? = some '0') : n = 0 := by
  induction n using Nat.strongRecOn with
  | ind n ih =>
      by_cases hlt : n < b
      · rw [Nat.toDigits_of_lt_base hlt, List.head?_cons, Option.some.injEq] at h
        have hdigit := digit?_digitChar (lt_of_lt_of_le hlt hb)
        rw [h] at hdigit
        exact (Option.some.inj hdigit).symm
      · have hle : b ≤ n := Nat.le_of_not_lt hlt
        rw [Nat.toDigits_of_base_le hb₁ hle, List.head?_append_of_ne_nil _ Nat.toDigits_ne_nil] at h
        have hdiv := ih (n / b) (Nat.div_lt_self (by omega) hb₁) h
        exact absurd (Nat.div_pos hle (by omega)) (by omega)

/-- The number read is at least what was read before. -/
theorem le_takeDigits (hb : 0 < b) (acc : Nat) (cs : List Char) :
    acc ≤ (takeDigits b acc cs).1 := by
  induction cs generalizing acc with
  | nil => exact le_refl acc
  | cons c cs ih =>
      rw [takeDigits]
      cases digit? c with
      | none => exact le_refl acc
      | some d =>
          by_cases hd : d < b
          · simp only [if_pos hd]
            calc acc ≤ b * acc := Nat.le_mul_of_pos_left acc hb
              _ ≤ b * acc + d := Nat.le_add_right _ d
              _ ≤ _ := ih (b * acc + d)
          · simp only [if_neg hd, le_refl]

/-- So many digits make no larger number. -/
theorem takeDigits_lt {b : Nat} (hb : 0 < b) (acc : Nat) (cs : List Char) :
    (takeDigits b acc cs).1 < (acc + 1) * b ^ cs.length := by
  have stop : ∀ n, acc < (acc + 1) * b ^ n := fun n =>
    calc acc < acc + 1 := Nat.lt_succ_self acc
      _ ≤ (acc + 1) * b ^ n := Nat.le_mul_of_pos_right _ (Nat.pow_pos hb)
  induction cs generalizing acc with
  | nil => exact stop 0
  | cons c cs ih =>
      rw [takeDigits]
      cases digit? c with
      | none => exact stop _
      | some d =>
          by_cases hd : d < b
          · simp only [if_pos hd]
            have hnext := ih (b * acc + d) fun n =>
              calc b * acc + d < b * acc + d + 1 := Nat.lt_succ_self _
                _ ≤ (b * acc + d + 1) * b ^ n := Nat.le_mul_of_pos_right _ (Nat.pow_pos hb)
            refine lt_of_lt_of_le hnext ?_
            calc (b * acc + d + 1) * b ^ cs.length
                ≤ (b * acc + b) * b ^ cs.length := Nat.mul_le_mul_right _ (by omega)
              _ = (acc + 1) * b ^ (c :: cs).length := by
                  rw [List.length_cons, Nat.pow_succ]
                  ring
          · simp only [if_neg hd]
            exact stop _

/-- A numeral that is followed by no digit is read as the number it was written for. -/
theorem takeDigits_numeral (hb₁ : 1 < b) (hb : b ≤ 16) (n : Nat) {rest : List Char}
    (hrest : ∀ c ∈ rest.head?, isDigit b c = false) :
    takeDigits b 0 (Nat.toDigits b n ++ rest) = (n, rest) := by
  rw [takeDigits_toDigits hb₁ hb, Nat.mul_zero, Nat.zero_add]
  cases rest with
  | nil => rfl
  | cons c cs => exact takeDigits_stop (hrest c rfl) n cs

end Numerals

end Foundation
