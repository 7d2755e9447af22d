import Mathlib.Tactic.ByContra
import Mathlib.Tactic.Lemma
import Mathlib.Tactic.TypeStar

/-!
# Deterministic machines

Runs of a deterministic machine `step : σ → ι → σ` over a list of inputs, the invariant rule for
runs and for runs whose every input is allowed in the state it meets, the rule for guards that are
exact, and observational equivalence with its bisimulation rule.
-/

namespace Machine

variable {σ ι ο : Type*}

/-- The state after a list of inputs. -/
def run (step : σ → ι → σ) (s : σ) (inputs : List ι) : σ := inputs.foldl step s

/-- A run without input. -/
@[simp] lemma run_nil {step : σ → ι → σ} {s} : run step s [] = s := rfl

/-- The first step of a run. -/
@[simp] lemma run_cons {step : σ → ι → σ} {s i is} :
    run step s (i :: is) = run step (step s i) is := rfl

/-- A run in two parts. -/
@[simp] lemma run_append {step : σ → ι → σ} {s is js} :
    run step s (is ++ js) = run step (run step s is) js := List.foldl_append

/-- Every input of the run is allowed in the state it meets. -/
def Guarded (step : σ → ι → σ) (ok : σ → ι → Prop) : σ → List ι → Prop
  | _, [] => True
  | s, i :: is => ok s i ∧ Guarded step ok (step s i) is

instance Guarded.decidable {step : σ → ι → σ} {ok : σ → ι → Prop} [∀ s i, Decidable (ok s i)] :
    ∀ s is, Decidable (Guarded step ok s is)
  | _, [] => inferInstanceAs (Decidable True)
  | s, i :: is =>
    have : Decidable (Guarded step ok (step s i) is) := Guarded.decidable (step s i) is
    inferInstanceAs (Decidable (ok s i ∧ Guarded step ok (step s i) is))

/-- A guarded run stays guarded when it is cut short. -/
lemma Guarded.left {step : σ → ι → σ} {ok : σ → ι → Prop} {s is js}
    (h : Guarded step ok s (is ++ js)) : Guarded step ok s is := by
  induction is generalizing s with
  | nil => trivial
  | cons i is ih => exact ⟨h.1, ih h.2⟩

/-- A guard in two parts. -/
lemma guarded_append {step : σ → ι → σ} {ok : σ → ι → Prop} {s is js} :
    Guarded step ok s (is ++ js) ↔ Guarded step ok s is ∧ Guarded step ok (run step s is) js := by
  induction is generalizing s with
  | nil => simp [Guarded]
  | cons i is ih => simp [Guarded, ih, and_assoc]

/-- Inputs that are allowed in every state. -/
lemma guarded_of_forall {step : σ → ι → σ} {ok : σ → ι → Prop} {s is}
    (h : ∀ i ∈ is, ∀ s, ok s i) : Guarded step ok s is := by
  induction is generalizing s with
  | nil => trivial
  | cons i is ih =>
    obtain ⟨hi, his⟩ := List.forall_mem_cons.1 h
    exact ⟨hi s, ih his⟩

/-- Invariant rule: what holds at the start and is preserved by every allowed input holds at the end
    of a guarded run. -/
theorem Guarded.invariant {step : σ → ι → σ} {ok : σ → ι → Prop} {Inv : σ → Prop} {s is}
    (h : Guarded step ok s is) (start : Inv s)
    (preserved : ∀ {s i}, Inv s → ok s i → Inv (step s i)) : Inv (run step s is) := by
  induction is generalizing s with
  | nil => exact start
  | cons i is ih => exact ih h.2 (preserved start h.1)

/-- Invariant rule for runs without a guard. -/
lemma run_invariant {step : σ → ι → σ} {Inv : σ → Prop} {s is} (start : Inv s)
    (preserved : ∀ {s i}, Inv s → Inv (step s i)) : Inv (run step s is) := by
  have hall : Guarded step (fun _ _ => True) s is := guarded_of_forall fun _ _ _ => trivial
  exact hall.invariant start fun h _ => preserved h

/-- Consequence rule: along a guarded run an invariant turns one guard into another. -/
lemma Guarded.imp {step : σ → ι → σ} {ok ok' : σ → ι → Prop} {Inv : σ → Prop} {s is}
    (h : Guarded step ok s is) (start : Inv s)
    (preserved : ∀ {s i}, Inv s → ok s i → Inv (step s i))
    (implies : ∀ {s i}, Inv s → ok s i → ok' s i) : Guarded step ok' s is := by
  induction is generalizing s with
  | nil => trivial
  | cons i is ih => exact ⟨implies start h.1, ih h.2 (preserved start h.1)⟩

/-- A run that is not guarded has a first input that is not allowed. -/
lemma exists_of_not_guarded {step : σ → ι → σ} {ok : σ → ι → Prop} {s is}
    (h : ¬Guarded step ok s is) :
    ∃ js i, js ++ [i] <+: is ∧ Guarded step ok s js ∧ ¬ok (run step s js) i := by
  induction is generalizing s with
  | nil => exact absurd trivial h
  | cons i is ih =>
    by_cases hi : ok s i
    · obtain ⟨js, j, hjs, hguarded, hnot⟩ := ih fun his => h ⟨hi, his⟩
      exact ⟨i :: js, j, List.cons_prefix_cons.2 ⟨rfl, hjs⟩, ⟨hi, hguarded⟩, hnot⟩
    · exact ⟨[], i, List.prefix_append [i] is, trivial, hi⟩

/-- Exact guard rule: when an input that is not allowed breaks the property at once, the property
holds all along a run just when every input is allowed. The inputs may be limited to some domain. -/
theorem forall_prefix_iff_guarded {step : σ → ι → σ} {domain ok : σ → ι → Prop} {Inv P : σ → Prop}
    {s is} (start : Inv s) (inputs : Guarded step domain s is) (safe : ∀ {s}, Inv s → P s)
    (preserved : ∀ {s i}, Inv s → domain s i → ok s i → Inv (step s i))
    (breaks : ∀ {s i}, Inv s → domain s i → ¬ok s i → ¬P (step s i)) :
    (∀ js, js <+: is → P (run step s js)) ↔ Guarded step ok s is := by
  induction is generalizing s with
  | nil =>
    constructor
    · intro _
      trivial
    · intro _ js hjs
      rw [List.prefix_nil.1 hjs]
      exact safe start
  | cons i is ih =>
    obtain ⟨hi, his⟩ := inputs
    constructor
    · intro hall
      have hok : ok s i := by
        by_contra hnot
        exact breaks start hi hnot (hall [i] (List.prefix_append [i] is))
      refine ⟨hok, (ih (preserved start hi hok) his).1 fun js hjs => ?_⟩
      exact hall (i :: js) (List.cons_prefix_cons.2 ⟨rfl, hjs⟩)
    · rintro ⟨hok, hrest⟩ js hjs
      cases js with
      | nil => exact safe start
      | cons j js =>
        obtain ⟨rfl, hjs'⟩ := List.cons_prefix_cons.1 hjs
        exact (ih (preserved start hi hok) his).2 hrest js hjs'

/-- Exact guard rule for inputs of any kind. -/
lemma forall_prefix_iff {step : σ → ι → σ} {ok : σ → ι → Prop} {Inv P : σ → Prop} {s is}
    (start : Inv s) (safe : ∀ {s}, Inv s → P s) (preserved : ∀ {s i}, Inv s → ok s i → Inv (step s i))
    (breaks : ∀ {s i}, Inv s → ¬ok s i → ¬P (step s i)) :
    (∀ js, js <+: is → P (run step s js)) ↔ Guarded step ok s is := by
  have hall : Guarded step (fun _ _ => True) s is := guarded_of_forall fun _ _ _ => trivial
  exact forall_prefix_iff_guarded start hall safe (fun h _ hok => preserved h hok)
    fun h _ hnot => breaks h hnot

/-- Two states no list of inputs tells apart. -/
def ObsEq (step : σ → ι → σ) (obs : σ → ο) (s t : σ) : Prop :=
  ∀ is, obs (run step s is) = obs (run step t is)

/-- Bisimulation rule: states related by a relation that the inputs preserve and the observation
    respects are observationally equal. -/
theorem ObsEq.of_bisimulation {step : σ → ι → σ} {obs : σ → ο} {R : σ → σ → Prop} {s t}
    (related : R s t) (preserved : ∀ {s t} i, R s t → R (step s i) (step t i))
    (respected : ∀ {s t}, R s t → obs s = obs t) : ObsEq step obs s t := by
  intro is
  induction is generalizing s t with
  | nil => exact respected related
  | cons i is ih => exact ih (preserved i related)

end Machine
