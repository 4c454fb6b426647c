import Mathlib.Data.List.Induction

/-!
What happened in the course of a list of events, where whether it happened at an event depends on
the events before it.
-/

set_option autoImplicit false

namespace VoteGossip

variable {Event : Type} {happens : List Event → Event → Prop} {events : List Event} {event : Event}

def Occurs (happens : List Event → Event → Prop) (events : List Event) : Prop :=
  ∃ earlier event later, events = earlier ++ event :: later ∧ happens earlier event

theorem not_occurs_nil : ¬ Occurs happens [] := by
  intro occurs
  obtain ⟨earlier, event, later, split, _⟩ := occurs
  exact List.append_ne_nil_of_right_ne_nil earlier (List.cons_ne_nil event later) split.symm

theorem occurs_snoc :
    Occurs happens (events ++ [event]) ↔ Occurs happens events ∨ happens events event := by
  constructor
  · intro occurs
    obtain ⟨earlier, found, later, split, happened⟩ := occurs
    induction later using List.reverseRecOn with
    | nil =>
        obtain ⟨rfl, same⟩ := List.append_inj' split rfl
        cases same
        exact Or.inr happened
    | append_singleton later last _ =>
        rw [← List.cons_append, ← List.append_assoc] at split
        obtain ⟨rfl, _⟩ := List.append_inj' split rfl
        exact Or.inl ⟨earlier, found, later, rfl, happened⟩
  · intro either
    rcases either with old | happened
    · obtain ⟨earlier, found, later, rfl, happened⟩ := old
      exact ⟨earlier, found, later ++ [event], List.append_assoc _ _ _, happened⟩
    · exact ⟨events, event, [], rfl, happened⟩

end VoteGossip
