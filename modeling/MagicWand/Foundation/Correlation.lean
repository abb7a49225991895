import Mathlib.Data.List.Nodup

/-!
# Correlating answers with requests

A requester keeps a table of live entries, each an owner and the identifier it
uses on the wire; messages in flight remember the owner they were sent for (a
history variable) and carry the identifier. The table resolves a message
correctly when owner and identifier agree between every live entry and every
message. The lemmas say what keeps this agreement: opening an entry under an
identifier that no message carries, sending for a live entry, and dropping
entries or messages.
-/

namespace Foundation

variable {R I : Type}

/-- A live entry and a message have the same owner exactly when they have the
same identifier. -/
def Correlated (live flight : List (R × I)) : Prop :=
  ∀ x ∈ live, ∀ y ∈ flight, x.1 = y.1 ↔ x.2 = y.2

namespace Correlated

variable {live live' flight flight' : List (R × I)}

theorem mono (h : Correlated live flight) (hlive : live' ⊆ live) (hflight : flight' ⊆ flight) :
    Correlated live' flight' := by
  intro x hx y hy
  exact h x (hlive hx) y (hflight hy)

/-- A new entry: its owner is new, and no message carries its identifier. -/
theorem open_entry (h : Correlated live flight) {r : R} {i : I}
    (howner : ∀ y ∈ flight, y.1 ≠ r) (hid : ∀ y ∈ flight, y.2 ≠ i) :
    Correlated ((r, i) :: live) flight := by
  intro x hx y hy
  rcases List.mem_cons.mp hx with rfl | hx
  · constructor
    · intro heq
      exact absurd heq.symm (howner y hy)
    · intro heq
      exact absurd heq.symm (hid y hy)
  · exact h x hx y hy

/-- A message sent for an entry of a table without repetitions, which some of its
entries have agreed with so far. -/
theorem send_message {table : List (R × I)} (h : Correlated live flight) (hlive : live ⊆ table)
    (howners : (table.map Prod.fst).Nodup) (hids : (table.map Prod.snd).Nodup) {z : R × I}
    (hz : z ∈ table) : Correlated live (z :: flight) := by
  intro x hx y hy
  rcases List.mem_cons.mp hy with rfl | hy
  · constructor
    · intro heq
      rw [List.inj_on_of_nodup_map howners (hlive hx) hz heq]
    · intro heq
      rw [List.inj_on_of_nodup_map hids (hlive hx) hz heq]
  · exact h x hx y hy

end Correlated

end Foundation
