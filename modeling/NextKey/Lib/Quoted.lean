import Mathlib.Algebra.GroupWithZero.Nat
import Mathlib.Data.List.Basic
import Mathlib.Tactic.Lemma
import Mathlib.Tactic.TypeStar

/-!
# Quoted literals

A literal between quotes, in which a quote that is doubled stands for itself. Several characters may be
quotes, and any two of them next to each other count as a doubled one, of which the second is kept. An
escaper that doubles only some of the quotes is safe just for the texts that have no others: a pair of
units is read for every unit of the value, and a quote that is not doubled is only half of one.
-/

namespace Quoted

variable {α : Type*} (isQuote isDoubled : α → Bool)

/-- Read a literal behind its opening quote: its value, and what is behind its closing quote. -/
def read : List α → Option (List α × List α)
  | [] => none
  | [c] => if isQuote c then some ([], []) else none
  | c :: d :: rest =>
    if isQuote c then
      if isQuote d then (read rest).map fun (value, behind) => (d :: value, behind)
      else some ([], d :: rest)
    else (read (d :: rest)).map fun (value, behind) => (c :: value, behind)

/-- Double the quotes that the escaper knows. -/
def escape (text : List α) : List α :=
  text.flatMap fun c => if isDoubled c then [c, c] else [c]

/-- Two for every character, and one for a quote. -/
def weight (input : List α) : Nat :=
  (input.map fun c => if isQuote c then 1 else 2).sum

variable {isQuote isDoubled}

/-- Nothing weighs nothing. -/
lemma weight_nil : weight isQuote ([] : List α) = 0 := rfl

/-- The weight of one more character. -/
lemma weight_cons {c : α} {input : List α} :
    weight isQuote (c :: input) = (if isQuote c then 1 else 2) + weight isQuote input := by
  rw [weight, List.map_cons, List.sum_cons, weight]

/-- The weight of two parts. -/
lemma weight_append {input behind : List α} :
    weight isQuote (input ++ behind) = weight isQuote input + weight isQuote behind := by
  rw [weight, List.map_append, List.sum_append, weight, weight]

/-- One character is escaped. -/
lemma escape_cons {c : α} {text : List α} :
    escape isDoubled (c :: text) =
      (if isDoubled c then [c, c] else [c]) ++ escape isDoubled text := List.flatMap_cons

/-- Every character of the value takes two, and the closing quote takes one. -/
lemma weight_of_read {input value behind : List α} (h : read isQuote input = some (value, behind)) :
    weight isQuote input = 2 * value.length + 1 + weight isQuote behind := by
  induction input using read.induct isQuote generalizing value with
  | case1 => cases h
  | case2 c hc =>
    rw [read, if_pos hc] at h
    cases h
    simp [weight, hc]
  | case3 c hc =>
    rw [read, if_neg hc] at h
    cases h
  | case4 c d rest hc hd ih =>
    rw [read, if_pos hc, if_pos hd] at h
    obtain ⟨⟨inner, behind'⟩, hinner, heq⟩ := Option.map_eq_some_iff.1 h
    cases heq
    rw [weight_cons, weight_cons, if_pos hc, if_pos hd, ih hinner, List.length_cons]
    omega
  | case5 c d rest hc hd =>
    rw [read, if_pos hc, if_neg hd] at h
    cases h
    rw [weight_cons, if_pos hc, List.length_nil]
  | case6 c d rest hc ih =>
    rw [read, if_neg hc] at h
    obtain ⟨⟨inner, behind'⟩, hinner, heq⟩ := Option.map_eq_some_iff.1 h
    cases heq
    rw [weight_cons, if_neg hc, ih hinner, List.length_cons]
    omega

/-- A quote that is not doubled is short of what its place in the value takes. -/
lemma weight_escape (hquote : ∀ c, isDoubled c → isQuote c) {text : List α} :
    weight isQuote (escape isDoubled text) + text.countP (fun c => isQuote c && !isDoubled c) =
      2 * text.length := by
  induction text with
  | nil => rfl
  | cons c text ih =>
    rw [escape_cons, weight_append, List.countP_cons, List.length_cons]
    cases hdoubled : isDoubled c with
    | true =>
      have hc := hquote c hdoubled
      simp only [if_true, weight_cons, weight_nil, hc, Bool.not_true, Bool.and_false,
        Bool.false_eq_true, if_false] at ih ⊢
      omega
    | false =>
      cases hc : isQuote c with
      | true =>
        simp only [Bool.false_eq_true, if_false, weight_cons, weight_nil, hc, if_true, Bool.not_false,
          Bool.and_true] at ih ⊢
        omega
      | false =>
        simp only [Bool.false_eq_true, if_false, weight_cons, weight_nil, hc, Bool.false_and] at ih ⊢
        omega

/-- A text whose quotes are all doubled is read again. -/
lemma read_escape (hquote : ∀ c, isDoubled c → isQuote c) {text : List α} {q : α}
    (hq : isQuote q) (htext : ∀ c ∈ text, isQuote c → isDoubled c) :
    read isQuote (escape isDoubled text ++ [q]) = some (text, []) := by
  induction text with
  | nil =>
    show read isQuote [q] = _
    rw [read, if_pos hq]
  | cons c text ih =>
    have hrest := ih fun d hd => htext d (.tail _ hd)
    rw [escape_cons, List.append_assoc]
    by_cases hc : isQuote c
    · rw [if_pos (htext c (.head _) hc)]
      show read isQuote (c :: c :: (escape isDoubled text ++ [q])) = _
      rw [read, if_pos hc, if_pos hc, hrest]
      rfl
    · rw [if_neg fun hdoubled => hc (hquote c hdoubled)]
      show read isQuote (c :: (escape isDoubled text ++ [q])) = _
      obtain ⟨d, rest, heq⟩ := List.exists_cons_of_ne_nil
        (List.append_ne_nil_of_right_ne_nil (escape isDoubled text) (List.cons_ne_nil q []))
      rw [heq] at hrest ⊢
      rw [read, if_neg hc, hrest]
      rfl

/-- A text is read again just when the escaper doubles every quote that it has. -/
theorem read_escape_iff (hquote : ∀ c, isDoubled c → isQuote c) {text : List α} {q : α}
    (hq : isQuote q) :
    read isQuote (escape isDoubled text ++ [q]) = some (text, []) ↔
      ∀ c ∈ text, isQuote c → isDoubled c := by
  refine ⟨fun hread => ?_, read_escape hquote hq⟩
  have hweight := weight_of_read hread
  rw [weight_append, weight_cons, if_pos hq] at hweight
  have hescape := @weight_escape α isQuote isDoubled hquote text
  have hcount : text.countP (fun c => isQuote c && !isDoubled c) = 0 := by omega
  intro c hc hcq
  have hnone := List.countP_eq_zero.1 hcount c hc
  rw [hcq, Bool.true_and] at hnone
  simpa using hnone

end Quoted
