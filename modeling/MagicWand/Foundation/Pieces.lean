import Mathlib.Data.List.Basic

/-!
# Transfers buffer by buffer

A transfer into, or out of, a sequence of buffers that is done with one operation
for each buffer. An operation may be short: it moves elements at the front of its
buffer and leaves the rest. Seen as one transfer over the concatenation of the
buffers it is right exactly when nothing is moved after the first short one.
-/

namespace Foundation

/-- A buffer after the operation on it: the front has been moved. -/
structure Piece (α : Type*) where
  front : List α
  rest : List α

namespace Piece

variable {α : Type*}

/-- The elements that were moved, in the order of the operations. -/
def moved (ps : List (Piece α)) : List α := ps.flatMap front

/-- The concatenation of the buffers. -/
def whole (ps : List (Piece α)) : List α := ps.flatMap fun p => p.front ++ p.rest

/-- The places of the moved elements in the concatenation, which begins at `off`. -/
def places (off : Nat) : List (Piece α) → List Nat
  | [] => []
  | p :: ps =>
      List.range' off p.front.length ++ places (off + (p.front.length + p.rest.length)) ps

/-- Nothing is moved after an operation that left a rest. -/
def Packed (ps : List (Piece α)) : Prop :=
  ∀ before p after, ps = before ++ p :: after → p.rest ≠ [] → moved after = []

@[simp] theorem moved_nil : moved ([] : List (Piece α)) = [] := rfl

@[simp] theorem moved_cons (p : Piece α) (ps : List (Piece α)) :
    moved (p :: ps) = p.front ++ moved ps := rfl

theorem moved_append (ps qs : List (Piece α)) : moved (ps ++ qs) = moved ps ++ moved qs :=
  List.flatMap_append

@[simp] theorem whole_cons (p : Piece α) (ps : List (Piece α)) :
    whole (p :: ps) = p.front ++ p.rest ++ whole ps := rfl

/-! ## Packed transfers -/

theorem packed_nil : Packed ([] : List (Piece α)) := by
  intro before p after h
  simp at h

theorem packed_of_moved_eq_nil {ps : List (Piece α)} (h : moved ps = []) : Packed ps := by
  rintro before p after rfl -
  rw [moved_append, moved_cons, List.append_eq_nil_iff, List.append_eq_nil_iff] at h
  exact h.2.2

theorem packed_cons {p : Piece α} {ps : List (Piece α)} :
    Packed (p :: ps) ↔ (p.rest ≠ [] → moved ps = []) ∧ Packed ps := by
  constructor
  · intro h
    refine ⟨h [] p ps rfl, ?_⟩
    rintro before q after rfl
    exact h (p :: before) q after rfl
  · rintro ⟨hhead, htail⟩ before q after heq hrest
    cases before with
    | nil =>
        obtain ⟨rfl, rfl⟩ := List.cons.inj heq
        exact hhead hrest
    | cons r before =>
        obtain ⟨-, rfl⟩ := List.cons.inj heq
        exact htail before q after rfl hrest

/-! ## Where the elements lie -/

theorem length_places (ps : List (Piece α)) (off : Nat) :
    (places off ps).length = (moved ps).length := by
  induction ps generalizing off with
  | nil => rfl
  | cons p ps ih => simp [places, ih]

theorem places_of_moved_eq_nil {ps : List (Piece α)} (h : moved ps = []) (off : Nat) :
    places off ps = [] := by
  apply List.eq_nil_of_length_eq_zero
  rw [length_places, h]
  rfl

/-- The elements of a packed transfer fill the front of the concatenation. -/
theorem places_of_packed {ps : List (Piece α)} (h : Packed ps) (off : Nat) :
    places off ps = List.range' off (moved ps).length := by
  induction ps generalizing off with
  | nil => rfl
  | cons p ps ih =>
      rw [packed_cons] at h
      by_cases hrest : p.rest = []
      · simp [places, hrest, ih h.2]
      · have hnil := h.1 hrest
        simp [places, hnil, places_of_moved_eq_nil hnil]

/-- The last element moved lies no nearer than it would if all were packed. -/
theorem exists_place_ge {ps : List (Piece α)} (h : moved ps ≠ []) (off : Nat) :
    ∃ i ∈ places off ps, off + (moved ps).length ≤ i + 1 := by
  induction ps generalizing off with
  | nil => exact absurd rfl h
  | cons p ps ih =>
      by_cases htail : moved ps = []
      · have hfront : p.front ≠ [] := by simpa [htail] using h
        have hpos := List.length_pos_iff.mpr hfront
        refine ⟨off + (p.front.length - 1), ?_, ?_⟩
        · simp only [places, List.mem_append, List.mem_range'_1]
          omega
        · simp only [moved_cons, htail, List.append_nil]
          omega
      · obtain ⟨i, hi, hle⟩ := ih htail (off + (p.front.length + p.rest.length))
        refine ⟨i, ?_, ?_⟩
        · simp only [places, List.mem_append]
          exact .inr hi
        · simp only [moved_cons, List.length_append]
          omega

/-- **Packed, told by the places**: as many places are below the number of
elements as there are elements. -/
theorem packed_iff_places_lt {ps : List (Piece α)} (off : Nat) :
    Packed ps ↔ ∀ i ∈ places off ps, i < off + (moved ps).length := by
  constructor
  · intro h i hi
    rw [places_of_packed h, List.mem_range'_1] at hi
    exact hi.2
  · intro h
    induction ps generalizing off with
    | nil => exact packed_nil
    | cons p ps ih =>
        simp only [places, List.mem_append, moved_cons, List.length_append] at h
        have hhead : p.rest ≠ [] → moved ps = [] := by
          intro hrest
          by_contra hmoved
          obtain ⟨i, hi, hle⟩ := exists_place_ge hmoved (off + (p.front.length + p.rest.length))
          have hlt := h i (.inr hi)
          have hpos := List.length_pos_iff.mpr hrest
          omega
        refine packed_cons.mpr ⟨hhead, ?_⟩
        by_cases hrest : p.rest = []
        · apply ih (off + (p.front.length + p.rest.length))
          intro i hi
          have hlt := h i (.inr hi)
          rw [hrest, List.length_nil]
          omega
        · exact packed_of_moved_eq_nil (hhead hrest)

theorem packed_iff_places_eq {ps : List (Piece α)} :
    Packed ps ↔ places 0 ps = List.range (moved ps).length := by
  rw [List.range_eq_range']
  constructor
  · intro h
    exact places_of_packed h 0
  · intro h
    rw [packed_iff_places_lt 0]
    intro i hi
    rw [h, List.mem_range'_1] at hi
    exact hi.2

/-- What a packed transfer has moved is a prefix of the concatenation. -/
theorem moved_prefix_of_packed {ps : List (Piece α)} (h : Packed ps) : moved ps <+: whole ps := by
  induction ps with
  | nil => exact List.prefix_rfl
  | cons p ps ih =>
      rw [packed_cons] at h
      rw [moved_cons, whole_cons, List.append_assoc]
      apply (List.prefix_append_right_inj p.front).mpr
      by_cases hrest : p.rest = []
      · rw [hrest, List.nil_append]
        exact ih h.2
      · rw [h.1 hrest]
        exact List.nil_prefix

end Piece

end Foundation
