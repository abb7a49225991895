import Mathlib.Data.List.Infix

/-!
# Messages on a stream

A stream is the messages that were sent, one behind the other. A reader has
taken the first `n` of them as a whole; what it has beyond is the beginning of
what is left.
-/

namespace Foundation.Stream

variable {α : Type} {msgs : List (List α)} {n : Nat} {xs : List α}

theorem prefix_iff : (msgs.take n).flatten ++ xs <+: msgs.flatten ↔
    xs <+: (msgs.drop n).flatten := by
  have hsplit : msgs.flatten = (msgs.take n).flatten ++ (msgs.drop n).flatten := by
    rw [← List.flatten_append, List.take_append_drop]
  rw [hsplit, List.prefix_append_right_inj]

/-- What is beyond the first `n` messages begins with the next one. -/
theorem next (h : (msgs.take n).flatten ++ xs <+: msgs.flatten) (hne : xs ≠ []) :
    ∃ m rest, msgs[n]? = some m ∧ xs <+: m ++ rest := by
  rw [prefix_iff] at h
  rcases hdrop : msgs.drop n with _ | ⟨m, rest⟩
  · rw [hdrop] at h
    exact absurd (List.prefix_nil.mp h) hne
  · rw [hdrop, List.flatten_cons] at h
    refine ⟨m, rest.flatten, ?_, h⟩
    have hhead := congrArg List.head? hdrop
    rwa [List.head?_drop] at hhead

/-- The beginning of the next message, as far as it is there. -/
theorem take_next {m rest : List α} (h : xs <+: m ++ rest) {k : Nat} (hk : k ≤ xs.length)
    (hm : k ≤ m.length) : xs.take k = m.take k := by
  obtain ⟨tail, htail⟩ := h
  have hfirst := congrArg (List.take k) htail
  rwa [List.take_append_of_le_length hk, List.take_append_of_le_length hm] at hfirst

theorem take_succ {m : List α} (h : msgs[n]? = some m) :
    (msgs.take (n + 1)).flatten = (msgs.take n).flatten ++ m := by
  rw [List.take_add_one, h, List.flatten_append]
  simp

end Foundation.Stream
