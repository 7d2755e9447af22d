import Mathlib.Data.List.Basic
import Mathlib.Tactic.Lemma
import Mathlib.Tactic.TypeStar

/-!
# Loops that carry a state

A loop reads a text symbol by symbol, writes one symbol for each and carries a state along. Over a text in
which every symbol is written as a block of units, the loop over the units is read back block by block,
as soon as what a block does to the state is known.
-/

/-- A loop that writes one symbol for each that it reads. -/
structure Scan (σ α β : Type*) where
  next : σ → α → σ
  write : σ → α → β

namespace Scan

variable {σ τ α β υ : Type*}

/-- What the loop writes from a state. -/
def run (m : Scan σ α β) : σ → List α → List β
  | _, [] => []
  | s, a :: l => m.write s a :: m.run (m.next s a) l

/-- The symbols, each with the state in which it is read. -/
def seen (next : σ → α → σ) : σ → List α → List (σ × α)
  | _, [] => []
  | s, a :: l => (s, a) :: seen next (next s a) l

variable {m : Scan σ α β} {next : τ → α → τ} {s : σ} {t : τ} {l : List α}

/-- What is seen is in the list. -/
lemma mem_of_mem_seen {p : τ × α} (h : p ∈ seen next t l) : p.2 ∈ l := by
  induction l generalizing t with
  | nil => cases h
  | cons a l ih =>
    cases h with
    | head => exact .head _
    | tail _ h => exact .tail _ (ih h)

/-- What is in the list is seen. -/
lemma exists_mem_seen (next : τ → α → τ) (t : τ) {a : α} (h : a ∈ l) :
    ∃ p ∈ seen next t l, p.2 = a := by
  induction l generalizing t with
  | nil => cases h
  | cons b l ih =>
    obtain rfl | h := List.mem_cons.1 h
    · exact ⟨_, .head _, rfl⟩
    · obtain ⟨p, hp, hpa⟩ := ih (next t b) h
      exact ⟨p, .tail _ hp, hpa⟩

/-- What every step keeps of a state holds wherever a symbol is read. -/
lemma rel_of_mem_seen {R : τ → Prop} (hstep : ∀ t, R t → ∀ a ∈ l, R (next t a)) (ht : R t) {p : τ × α}
    (h : p ∈ seen next t l) : R p.1 := by
  induction l generalizing t with
  | nil => cases h
  | cons a l ih =>
    cases h with
    | head => exact ht
    | tail _ h =>
      exact ih (fun t ht b hb => hstep t ht b (.tail _ hb)) (hstep t ht a (.head _)) h

/-- A scan in two parts. -/
lemma run_append (l' : List α) : m.run s (l ++ l') = m.run s l ++ m.run (l.foldl m.next s) l' := by
  induction l generalizing s with
  | nil => rfl
  | cons a l ih =>
    show _ :: m.run _ (l ++ l') = _
    rw [ih]
    rfl

/-- A loop without a state. -/
lemma run_of_forall {f : α → β} (h : ∀ s a, m.write s a = f a) : m.run s l = l.map f := by
  induction l generalizing s with
  | nil => rfl
  | cons a l ih =>
    rw [List.map_cons, ← ih (s := m.next s a), ← h s a]
    rfl

/-- A state that determines the state of the loop determines what it writes. -/
lemma run_eq_map_seen (π : τ → σ) (hnext : ∀ t, ∀ a ∈ l, m.next (π t) a = π (next t a)) :
    m.run (π t) l = (seen next t l).map fun p => m.write (π p.1) p.2 := by
  induction l generalizing t with
  | nil => rfl
  | cons a l ih =>
    show _ :: m.run (m.next (π t) a) l = _ :: _
    rw [hnext t a (.head _), ih fun t b hb => hnext t b (.tail _ hb)]

/-- Over a text of blocks the loop goes block by block. -/
lemma run_flatMap {m : Scan σ υ β} {block : α → List υ} (π : τ → σ)
    (hnext : ∀ t, ∀ a ∈ l, (block a).foldl m.next (π t) = π (next t a)) :
    m.run (π t) (l.flatMap block) = (seen next t l).flatMap fun p => m.run (π p.1) (block p.2) := by
  induction l generalizing t with
  | nil => rfl
  | cons a l ih =>
    rw [List.flatMap_cons, run_append, hnext t a (.head _), ih fun t b hb => hnext t b (.tail _ hb)]
    rfl

end Scan
