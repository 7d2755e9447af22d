import Mathlib.Data.Finset.Insert
import Mathlib.Data.Finset.Erase
import Mathlib.Tactic.Lemma
import Mathlib.Tactic.TypeStar
import NextKey.Lib.Machine

/-!
# Named events

An event of the kernel that several processes know by its name. It lives as long as somebody has a
handle to it, and is forgotten with the last handle: who creates it then gets one that is not signaled,
while who creates one that is there gets a handle to it as it is.

The signal of an event that nobody resets is a latch: it is there when it was set and the event has not
been forgotten since (`Machine.latch_run`).
-/

/-- An event with the owners of its handles; without a handle there is no signal. -/
structure NamedEvent (η : Type*) where
  holders : Finset η
  signaled : Bool
  held : signaled = true → holders ≠ ∅

namespace NamedEvent

variable {η : Type*}

/-- There is no event of this name. -/
def absent : NamedEvent η := ⟨∅, false, nofun⟩

/-- What a wait leaves of an event that resets itself. -/
def reset (e : NamedEvent η) : NamedEvent η := ⟨e.holders, false, nofun⟩

/-- Nobody holds an event that is absent. -/
@[simp] lemma absent_holders : (absent : NamedEvent η).holders = ∅ := rfl

/-- It is not signaled. -/
@[simp] lemma absent_signaled : (absent : NamedEvent η).signaled = false := rfl

/-- A reset leaves the holders. -/
@[simp] lemma reset_holders (e : NamedEvent η) : e.reset.holders = e.holders := rfl

/-- After a reset the event is not signaled. -/
@[simp] lemma reset_signaled (e : NamedEvent η) : e.reset.signaled = false := rfl

variable [DecidableEq η]

/-- `CreateEventW`, which opens the event if there is one. -/
def create (e : NamedEvent η) (p : η) : NamedEvent η :=
  ⟨insert p e.holders, e.signaled, fun _ => Finset.insert_ne_empty p e.holders⟩

/-- `OpenEventW`, with whether there is an event to open. -/
def tryOpen (e : NamedEvent η) (p : η) : NamedEvent η × Bool :=
  if e.holders = ∅ then (e, false) else (e.create p, true)

/-- `CloseHandle` -/
def close (e : NamedEvent η) (p : η) : NamedEvent η :=
  ⟨e.holders.erase p, e.signaled && decide (e.holders.erase p ≠ ∅), by
    intro h
    simpa using (Bool.and_eq_true_iff.1 h).2⟩

/-- `SetEvent` -/
def set (e : NamedEvent η) (p : η) : NamedEvent η :=
  if h : p ∈ e.holders then ⟨e.holders, true, fun _ => Finset.ne_empty_of_mem h⟩ else e

variable (e : NamedEvent η) (p q : η)

/-- Who creates it holds it. -/
@[simp] lemma create_holders : (e.create p).holders = insert p e.holders := rfl

/-- To create it does not signal. -/
@[simp] lemma create_signaled : (e.create p).signaled = e.signaled := rfl

/-- Who closes it does not hold it. -/
@[simp] lemma close_holders : (e.close p).holders = e.holders.erase p := rfl

/-- The signal goes with the last holder. -/
@[simp] lemma close_signaled :
    (e.close p).signaled = (e.signaled && decide (e.holders.erase p ≠ ∅)) := rfl

/-- To set it leaves the holders. -/
@[simp] lemma set_holders : (e.set p).holders = e.holders := by
  unfold set
  split <;> rfl

/-- A holder signals it. -/
lemma set_signaled : (e.set p).signaled = (e.signaled || decide (p ∈ e.holders)) := by
  unfold set
  split
  · next h => simp [h]
  · next h => simp [h]

/-- An absent event is not opened. -/
lemma tryOpen_of_absent (h : e.holders = ∅) : e.tryOpen p = (e, false) := if_pos h

/-- An event that is held is opened. -/
lemma tryOpen_of_held (h : e.holders ≠ ∅) : e.tryOpen p = (e.create p, true) := if_neg h

/-- Opening takes a handle just when it says so. -/
lemma mem_tryOpen_holders (h : p ∉ e.holders) :
    p ∈ (e.tryOpen p).1.holders ↔ (e.tryOpen p).2 = true := by
  by_cases hnone : e.holders = ∅
  · simp [tryOpen_of_absent e p hnone, h]
  · simp [tryOpen_of_held e p hnone]

/-- To open it leaves the other holders. -/
lemma mem_tryOpen_holders_of_ne (h : q ≠ p) : q ∈ (e.tryOpen p).1.holders ↔ q ∈ e.holders := by
  unfold tryOpen
  split
  · rfl
  · simp [h]

/-- To open it leaves the signal. -/
@[simp] lemma tryOpen_signaled : (e.tryOpen p).1.signaled = e.signaled := by
  unfold tryOpen
  split <;> rfl

end NamedEvent

namespace Machine

variable {σ ι : Type*} {step : σ → ι → σ}

/-- What an input sets and what stays as long as the state allows is there when it was there at the
start and has been allowed ever since, or was set by an input and has been allowed ever since. -/
theorem latch_run {Inv latch allowed : σ → Prop} {sets : σ → ι → Prop}
    (preserved : ∀ {s i}, Inv s → Inv (step s i))
    (one : ∀ {s i}, Inv s → (latch (step s i) ↔ (latch s ∨ sets s i) ∧ allowed (step s i))) {s : σ}
    {is : List ι} (start : Inv s) :
    latch (run step s is) ↔
      (latch s ∧ ∀ js i, js ++ [i] <+: is → allowed (run step s (js ++ [i]))) ∨
        ∃ before i after, is = before ++ i :: after ∧ sets (run step s before) i ∧
          ∀ js, js <+: after → allowed (run step s (before ++ i :: js)) := by
  induction is generalizing s with
  | nil =>
    constructor
    · intro h
      refine .inl ⟨h, fun js i hjs => ?_⟩
      exact absurd (List.prefix_nil.1 hjs) (by simp)
    · rintro (⟨h, -⟩ | ⟨before, i, after, his, -⟩)
      · exact h
      · exact absurd his (by simp)
  | cons i is ih =>
    rw [run_cons, ih (preserved start), one start]
    constructor
    · rintro (⟨⟨hlatch | hsets, hallowed⟩, hrest⟩ | ⟨before, j, after, rfl, hsets, hafter⟩)
      · refine .inl ⟨hlatch, fun js j hjs => ?_⟩
        cases js with
        | nil =>
          obtain ⟨rfl, -⟩ := List.cons_prefix_cons.1 hjs
          exact hallowed
        | cons k js =>
          obtain ⟨rfl, htail⟩ := List.cons_prefix_cons.1 hjs
          exact hrest js j htail
      · refine .inr ⟨[], i, is, rfl, hsets, fun js hjs => ?_⟩
        rcases List.eq_nil_or_concat js with rfl | ⟨init, j, rfl⟩
        · exact hallowed
        · rw [List.concat_eq_append] at hjs ⊢
          exact hrest init j hjs
      · exact .inr ⟨i :: before, j, after, rfl, hsets, hafter⟩
    · rintro (⟨hlatch, hall⟩ | ⟨before, j, after, his, hsets, hafter⟩)
      · refine .inl ⟨⟨.inl hlatch, hall [] i (List.cons_prefix_cons.2 ⟨rfl, List.nil_prefix⟩)⟩, ?_⟩
        exact fun js j hjs => hall (i :: js) j (List.cons_prefix_cons.2 ⟨rfl, hjs⟩)
      · cases before with
        | nil =>
          obtain ⟨rfl, rfl⟩ := List.cons_eq_cons.1 his
          exact .inl ⟨⟨.inr hsets, hafter [] List.nil_prefix⟩, fun js k hjs => hafter (js ++ [k]) hjs⟩
        | cons k before =>
          obtain ⟨rfl, rfl⟩ := List.cons_eq_cons.1 his
          exact .inr ⟨before, j, after, rfl, hsets, hafter⟩

end Machine
