import Mathlib.Tactic.Lemma
import Mathlib.Tactic.TypeStar

/-!
# Batches of bounded size

A buffer that is filled group by group and refuses a group that does not fit. Filling it with a list
of groups either takes all of them, in order, or fails, and whether it fails is a matter of the
sizes alone.
-/

/-- A buffer of at most `capacity` events. -/
structure Batch (ε : Type*) (capacity : Nat) where
  events : List ε
  fits : events.length ≤ capacity

namespace Batch

variable {ε : Type*} {capacity : Nat}

/-- The batch before anything is put in. -/
def empty : Batch ε capacity := ⟨[], Nat.zero_le _⟩

/-- A group goes in whole or not at all. -/
def put (b : Batch ε capacity) (group : List ε) : Option (Batch ε capacity) :=
  if h : b.events.length + group.length ≤ capacity then
    some ⟨b.events ++ group, by rw [List.length_append]; exact h⟩
  else none

/-- Groups go in one after the other until one does not fit. -/
def putAll (b : Batch ε capacity) : List (List ε) → Option (Batch ε capacity)
  | [] => some b
  | group :: rest => (b.put group).bind fun b => b.putAll rest

/-- The empty batch has no events. -/
@[simp] lemma empty_events : (empty : Batch ε capacity).events = [] := rfl

/-- One group. -/
lemma put_events (b : Batch ε capacity) (group : List ε) :
    (b.put group).map events =
      if b.events.length + group.length ≤ capacity then some (b.events ++ group) else none := by
  unfold put
  split <;> rfl

/-- All groups fit exactly when their sizes sum up to no more than the room that is left. -/
lemma putAll_events (b : Batch ε capacity) (groups : List (List ε)) :
    (b.putAll groups).map events =
      if b.events.length + groups.flatten.length ≤ capacity then some (b.events ++ groups.flatten)
      else none := by
  induction groups generalizing b with
  | nil =>
    have hfits := b.fits
    simp [putAll, hfits]
  | cons group rest ih =>
    have hput := b.put_events group
    rw [putAll, List.flatten_cons, List.length_append, ← Nat.add_assoc]
    cases h : b.put group with
    | none =>
      rw [h] at hput
      split at hput
      · cases hput
      · rw [if_neg (by omega)]
        rfl
    | some c =>
      rw [h] at hput
      split at hput
      · have hc : c.events = b.events ++ group := by simpa using hput
        show (c.putAll rest).map events = _
        rw [ih c, hc, List.length_append, List.append_assoc]
      · cases hput

end Batch
