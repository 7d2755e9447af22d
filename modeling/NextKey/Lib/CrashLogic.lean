import NextKey.Lib.Faults

/-!
# A program logic with crash conditions

Triples for programs whose operations may fail, under given fates: from the precondition, the program
either comes to its end, with the postcondition of its result, or stops on the way, with the crash
condition. There is one rule for each way to build a program, and one for each kind of loop.
-/

namespace Faults

universe u

variable {ι σ κ : Type*} {α β : Type u}

namespace Program

/-- From `P` the program ends with `Q`, or stops with `C`. -/
def Triple (fate : ι → Fate) (P : σ → Prop) (p : Program ι σ α) (Q : α → σ → Prop) (C : σ → Prop) :
    Prop :=
  ∀ ⦃s⦄, P s → match p fate s with
    | (some a, s') => Q a s'
    | (none, s') => C s'

variable {fate : ι → Fate} {P P' : σ → Prop} {p : Program ι σ α} {Q Q' : α → σ → Prop} {C C' : σ → Prop}

/-- The rule of consequence. -/
lemma Triple.conseq (h : Triple fate P p Q C) (hP : ∀ s, P' s → P s) (hQ : ∀ a s, Q a s → Q' a s)
    (hC : ∀ s, C s → C' s) : Triple fate P' p Q' C' := by
  intro s hs
  have hrun := @h s (hP s hs)
  cases hp : p fate s with
  | mk result s' =>
    rw [hp] at hrun
    cases result with
    | some a => exact hQ a s' hrun
    | none => exact hC s' hrun

/-- The rule of a result. -/
lemma Triple.pure {a : α} (h : ∀ s, P s → Q a s) : Triple fate P (pure a) Q C := fun s hs => h s hs

/-- The rule of a sequence. -/
lemma Triple.bind {f : α → Program ι σ β} {R : β → σ → Prop} (hp : Triple fate P p Q C)
    (hf : ∀ a, Triple fate (Q a) (f a) R C) : Triple fate P (p >>= f) R C := by
  intro s hs
  have hrun := @hp s hs
  cases hp : p fate s with
  | mk result s' =>
    rw [hp] at hrun
    cases result with
    | some a =>
      rw [bind_some hp]
      exact hf a hrun
    | none =>
      rw [bind_none hp]
      exact hrun

/-- The rule of an operation: done, refused or stopped. -/
lemma Triple.perform {op : ι} {effect : σ → α × σ} {failed : α}
    (done : fate op = .done → ∀ s, P s → Q (effect s).1 (effect s).2)
    (refused : fate op = .refused → ∀ s, P s → Q failed s)
    (stop : fate op = .stop → ∀ s, P s → C s) : Triple fate P (perform op effect failed) Q C := by
  intro s hs
  cases hop : fate op with
  | done =>
    rw [perform_done hop]
    exact done hop s hs
  | refused =>
    rw [perform_refused hop]
    exact refused hop s hs
  | stop =>
    rw [perform_stop hop]
    exact stop hop s hs

/-- An operation that keeps an invariant, done or not. -/
lemma Triple.keep {I : σ → Prop} {op : ι} {effect : σ → α × σ} {failed : α}
    (h : ∀ s, I s → I (effect s).2) : Triple fate I (Program.perform op effect failed) (fun _ => I) I :=
  .perform (fun _ s => h s) (fun _ _ => id) fun _ _ => id

/-- An operation that is known to be done, and whose result does not depend on the state. -/
lemma Triple.bind_done {R : σ → Prop} {op : ι} {effect : σ → β × σ} {failed b : β}
    {f : β → Program ι σ α} (hop : fate op = .done) (hresult : ∀ s, (effect s).1 = b)
    (heffect : ∀ s, P s → R (effect s).2) (hf : Triple fate R (f b) Q C) :
    Triple fate P (Program.perform op effect failed >>= f) Q C := by
  intro s hs
  rw [bind_some (perform_done hop), hresult]
  exact hf (heffect s hs)

/-- An operation that is known to be refused. -/
lemma Triple.bind_refused {op : ι} {effect : σ → β × σ} {failed : β} {f : β → Program ι σ α}
    (hop : fate op = .refused) (hf : Triple fate P (f failed) Q C) :
    Triple fate P (Program.perform op effect failed >>= f) Q C := by
  intro s hs
  rw [bind_some (perform_refused hop)]
  exact hf hs

/-- The rule of a choice. -/
lemma Triple.ite {c : Prop} [Decidable c] {q : Program ι σ α} (hp : c → Triple fate P p Q C)
    (hq : ¬c → Triple fate P q Q C) : Triple fate P (if c then p else q) Q C := by
  split
  · next h => exact hp h
  · next h => exact hq h

/-- Every state that the program leaves, at its end or on the way. -/
lemma Triple.run {R : σ → Prop} (h : Triple fate P p (fun _ => R) R) {s : σ} (hs : P s) :
    R (p fate s).2 := by
  have hrun := @h s hs
  cases hp : p fate s with
  | mk result s' =>
    rw [hp] at hrun
    cases result with
    | some a => exact hrun
    | none => exact hrun

/-- The state at the end of a program that cannot stop. -/
lemma Triple.result {R : σ → Prop} (h : Triple fate P p (fun _ => R) fun _ => False) {s : σ}
    (hs : P s) : R (p fate s).2 :=
  (h.conseq (fun _ => id) (fun _ _ => id) fun _ => False.elim).run hs

/-- What the program sees of the state, which cannot fail. -/
def read (look : σ → α) : Program ι σ α := fun _ s => (some (look s), s)

/-- The rule of a look. -/
lemma Triple.read {look : σ → α} (h : ∀ s, P s → Q (look s) s) :
    Triple fate P (read look) Q C := fun s hs => h s hs

/-- The body for each element of a list. -/
def each (body : κ → Program ι σ Unit) : List κ → Program ι σ Unit
  | [] => pure ()
  | k :: ks => body k >>= fun _ => each body ks

/-- The invariant names what is left of the list. -/
lemma Triple.each {body : κ → Program ι σ Unit} {I : List κ → σ → Prop}
    (h : ∀ k ks, Triple fate (I (k :: ks)) (body k) (fun _ => I ks) C) (ks : List κ) :
    Triple fate (I ks) (each body ks) (fun _ => I []) C := by
  induction ks with
  | nil => exact .pure fun _ => id
  | cons k ks ih => exact .bind (h k ks) fun _ => ih

/-- The body for each element of a list, until it answers `false`. -/
def untilFalse (body : κ → Program ι σ Bool) : List κ → Program ι σ Bool
  | [] => pure true
  | k :: ks => do
    if ← body k then untilFalse body ks else return false

/-- The rule of a loop that ends at the first failure. -/
lemma Triple.untilFalse {body : κ → Program ι σ Bool} {I : σ → Prop}
    (h : ∀ k, Triple fate I (body k) (fun _ => I) C) (ks : List κ) :
    Triple fate I (untilFalse body ks) (fun _ => I) C := by
  induction ks with
  | nil => exact .pure fun _ => id
  | cons k ks ih => exact .bind (h k) fun _ => .ite (fun _ => ih) fun _ => .pure fun _ => id

/-- A program on a part of the state, with names for its operations. -/
def zoom {τ ι' : Type*} (name : ι' → ι) (get : σ → τ) (set : σ → τ → σ) (p : Program ι' τ α) :
    Program ι σ α := fun fate s =>
  ((p (fun op => fate (name op)) (get s)).1, set s (p (fun op => fate (name op)) (get s)).2)

/-- A program on a part of the state leaves the rest alone. -/
lemma Triple.zoom {τ ι' : Type*} {name : ι' → ι} {get : σ → τ} {set : σ → τ → σ} {p : Program ι' τ α}
    {I : σ → Prop} (h : ∀ s t, I s → I (set s t)) :
    Triple fate I (zoom name get set p) (fun _ => I) I := by
  intro s hs
  unfold Program.zoom
  cases (p (fun op => fate (name op)) (get s)).1 with
  | some a => exact h s _ hs
  | none => exact h s _ hs

end Program

end Faults
