import Mathlib.Data.List.Induction
import NextKey.Lib.Machine

/-!
# What has held since

The temporal operator *since* over the run of a deterministic machine: at some input it was opened, and
every input from then on has kept it. A flag that some inputs set and others clear is a *since* of the
whole run (`iff_since`), and a value that comes with the flag is one for each value.
-/

namespace Machine

variable {σ ι : Type*} {step : σ → ι → σ} {opens keeps : σ → ι → Prop} {s : σ} {is : List ι} {i : ι}

/-- Some input of the run opens, and all inputs behind it keep. -/
def Since (step : σ → ι → σ) (opens keeps : σ → ι → Prop) (s : σ) (is : List ι) : Prop :=
  ∃ before i after, is = before ++ i :: after ∧ opens (run step s before) i ∧
    Guarded step keeps (run step s (before ++ [i])) after

/-- Nothing has been since the start. -/
lemma not_since_nil : ¬Since step opens keeps s [] := by
  rintro ⟨before, i, after, h, -⟩
  cases before <;> cases h

/-- The last input opens, or keeps what was opened before. -/
lemma since_concat : Since step opens keeps s (is ++ [i]) ↔
    opens (run step s is) i ∨ Since step opens keeps s is ∧ keeps (run step s is) i := by
  constructor
  · rintro ⟨before, j, after, h, hopens, hkeeps⟩
    cases after using List.reverseRecOn with
    | nil =>
      obtain ⟨rfl, hlast⟩ := List.append_inj' h rfl
      cases hlast
      exact .inl hopens
    | append_singleton after k =>
      have hsplit : is ++ [i] = (before ++ j :: after) ++ [k] := by simp [h]
      obtain ⟨rfl, hlast⟩ := List.append_inj' hsplit rfl
      cases hlast
      obtain ⟨hafter, hlast⟩ := guarded_append.1 hkeeps
      refine .inr ⟨⟨before, j, after, rfl, hopens, hafter⟩, ?_⟩
      rw [← run_append, List.append_assoc] at hlast
      exact hlast.1
  · rintro (hopens | ⟨⟨before, j, after, rfl, hopens, hafter⟩, hkeeps⟩)
    · exact ⟨is, i, [], rfl, hopens, trivial⟩
    · refine ⟨before, j, after ++ [i], by simp, hopens, guarded_append.2 ⟨hafter, ?_, trivial⟩⟩
      rwa [← run_append, List.append_assoc]

/-- A flag that is down at first, and that each input sets, or keeps, or clears. -/
theorem iff_since {P : σ → Prop} (start : ¬P s) (h : ∀ s i, P (step s i) ↔ opens s i ∨ P s ∧ keeps s i) :
    P (run step s is) ↔ Since step opens keeps s is := by
  induction is using List.reverseRecOn with
  | nil => exact iff_of_false start not_since_nil
  | append_singleton is i ih =>
    rw [since_concat, run_append]
    exact (h _ _).trans (or_congr_right (and_congr_left fun _ => ih))

/-- The machine that remembers its inputs: over it, what opens may look at the inputs before. -/
def history (before : List ι) (i : ι) : List ι := before ++ [i]

/-- The run of a history. -/
@[simp] lemma run_history {before : List ι} : run history before is = before ++ is := by
  induction is generalizing before with
  | nil => simp
  | cons i is ih => simp [ih, history]

end Machine
