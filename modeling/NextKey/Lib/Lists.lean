import Mathlib.Data.List.Basic
import Mathlib.Tactic.Lemma
import Mathlib.Tactic.TypeStar

/-!
# Updating lists in place

How `List.modify` acts on columns, members and counts, and the counting of a value that is moved from
one position of a list to another.
-/

namespace List

variable {α β : Type*} {l : List α} {i j : Nat} {f g : α → α}

/-- A column that the update leaves alone does not change. -/
lemma map_modify_of_forall {c : α → β} (h : ∀ a, c (f a) = c a) :
    (l.modify i f).map c = l.map c := by
  apply ext_getElem?
  intro j
  simp only [getElem?_map, getElem?_modify]
  split
  · cases l[j]? with
    | none => rfl
    | some a => simp [h]
  · simp

/-- A member of an updated list is an old one or the updated one. -/
lemma mem_modify {a} (h : a ∈ l.modify i f) : a ∈ l ∨ ∃ b, l[i]? = some b ∧ a = f b := by
  obtain ⟨j, hj, rfl⟩ := getElem_of_mem h
  have hj' : j < l.length := by simpa using hj
  rw [getElem_modify]
  split
  · next hij =>
    subst hij
    exact .inr ⟨l[i], getElem?_eq_getElem hj', rfl⟩
  · exact .inl (getElem_mem hj')

/-- Counting after an update. -/
lemma countP_modify {p : α → Bool} (hi : i < l.length) :
    (l.modify i f).countP p =
      (l.countP p - if p l[i] then 1 else 0) + if p (f l[i]) then 1 else 0 := by
  have : Inhabited α := ⟨l[i]⟩
  rw [modify_eq_set, getElem?_eq_getElem hi, Option.getD_some, countP_set hi]

/-- Moving a value: where the destination counts afterwards the source counted before, and the source
    counts no longer. -/
lemma countP_move_le {p : α → Bool} (hi : i < l.length) (hj : j < l.length) (hne : j ≠ i)
    (hf : p (f l[j]) → p l[i]) (hg : ∀ a, p (g a) = false) :
    ((l.modify j f).modify i g).countP p ≤ l.countP p := by
  have hi' : i < (l.modify j f).length := by simpa using hi
  have hget : (l.modify j f)[i] = l[i] := getElem_modify_ne f l hne _
  rw [countP_modify (by simpa using hi), hget, hg, countP_modify hj]
  simp only [Bool.false_eq_true, if_false, Nat.add_zero]
  by_cases hp : p l[i]
  · -- the source counts, so there is room for the destination
    have hpos : 0 < l.countP p := countP_pos_iff.2 ⟨l[i], getElem_mem hi, hp⟩
    rw [if_pos hp]
    split <;> split <;> omega
  · rw [if_neg hp, if_neg (fun h => hp (hf h))]
    omega

/-- The members two by two. -/
def twos : List α → List (α × α)
  | a :: b :: l => (a, b) :: twos l
  | _ => []

/-- In a list of even length every member is one of two. -/
lemma exists_mem_twos {a : α} (ha : a ∈ l) (heven : l.length % 2 = 0) :
    ∃ p ∈ l.twos, a = p.1 ∨ a = p.2 := by
  induction l using twos.induct with
  | case1 b c l ih =>
    simp only [mem_cons] at ha
    obtain rfl | rfl | ha := ha
    · exact ⟨_, .head _, .inl rfl⟩
    · exact ⟨_, .head _, .inr rfl⟩
    · obtain ⟨p, hp, h⟩ := ih ha (by simp only [length_cons] at heven; omega)
      exact ⟨p, .tail _ hp, h⟩
  | case2 l hshort =>
    cases l with
    | nil => cases ha
    | cons b l =>
      cases l with
      | nil => simp at heven
      | cons c l => exact absurd rfl (hshort b c l)

/-- Neighbours are in the list. -/
lemma mem_of_mem_twos {p : α × α} (hp : p ∈ l.twos) : p.1 ∈ l ∧ p.2 ∈ l := by
  induction l using twos.induct with
  | case1 b c l ih =>
    cases hp with
    | head => exact ⟨.head _, .tail _ (.head _)⟩
    | tail _ hp =>
      obtain ⟨h₁, h₂⟩ := ih hp
      exact ⟨.tail _ (.tail _ h₁), .tail _ (.tail _ h₂)⟩
  | case2 l hshort =>
    unfold twos at hp
    split at hp
    · next b c l => exact absurd rfl (hshort b c l)
    · cases hp

end List
