import Mathlib.Tactic.Lemma

/-!
# Sets of numbers

A set of numbers is the number whose bits at the members are set. Whether a number is in it is one
test, so that a fact about every two members of a long list is checked in one run through the list.
-/

namespace NatSet

/-- Put a number in. -/
def insert (set n : Nat) : Nat := set ||| 1 <<< n

/-- The members of a list. -/
def ofList (ns : List Nat) : Nat := ns.foldr (fun n set => insert set n) 0

/-- No member comes twice, or is in the set from the start. -/
def distinct (set : Nat) : List Nat → Bool
  | [] => true
  | n :: ns => !set.testBit n && distinct (insert set n) ns

variable {set m n : Nat} {ns : List Nat}

/-- What is in a set after an insertion. -/
lemma testBit_insert : (insert set m).testBit n = true ↔ set.testBit n = true ∨ m = n := by
  rw [insert, Nat.testBit_or, Nat.one_shiftLeft, Nat.testBit_two_pow, Bool.or_eq_true,
    decide_eq_true_eq]

/-- What is in the set of a list. -/
lemma testBit_ofList : (ofList ns).testBit n = true ↔ n ∈ ns := by
  induction ns with
  | nil => simp [ofList]
  | cons m ns ih =>
    show (insert (ofList ns) m).testBit n = true ↔ _
    rw [testBit_insert, ih, List.mem_cons, or_comm, eq_comm]

/-- A list of distinct numbers, none of them in the set. -/
lemma distinct_spec (h : distinct set ns = true) :
    ns.Nodup ∧ ∀ n ∈ ns, set.testBit n = false := by
  induction ns generalizing set with
  | nil => exact ⟨List.nodup_nil, fun n hn => nomatch hn⟩
  | cons m ns ih =>
    rw [distinct, Bool.and_eq_true, Bool.not_eq_true'] at h
    obtain ⟨hm, hns⟩ := h
    obtain ⟨hnodup, hfresh⟩ := ih hns
    have hapart : ∀ n ∈ ns, ¬(set.testBit n = true ∨ m = n) := by
      intro n hn hin
      have hset := testBit_insert.2 hin
      rw [hfresh n hn] at hset
      cases hset
    constructor
    · refine List.nodup_cons.2 ⟨fun hmem => ?_, hnodup⟩
      exact hapart m hmem (.inr rfl)
    · intro n hn
      obtain rfl | hn := List.mem_cons.1 hn
      · exact hm
      · exact Bool.eq_false_iff.2 fun hin => hapart n hn (.inl hin)

/-- A list of distinct numbers. -/
lemma nodup_of_distinct (h : distinct 0 ns = true) : ns.Nodup := (distinct_spec h).1

end NatSet
