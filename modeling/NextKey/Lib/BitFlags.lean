import Mathlib.Data.List.Pairwise
import Mathlib.Tactic.Lemma

/-!
# Options as bits of a word

A list of options, each with a flag of its own, is packed into a word by or-ing the flags of the options
that are on. When no two flags share a bit, each option is read back from the word by its flag.
-/

namespace BitFlags

variable {w : Nat} {options : List (BitVec w × Bool)} {flag acc : BitVec w} {on : Bool}

/-- One option is packed into a word. -/
def set (flags : BitVec w) (option : BitVec w × Bool) : BitVec w :=
  if option.2 then flags ||| option.1 else flags

/-- The word of the options that are on. -/
def encode (options : List (BitVec w × Bool)) : BitVec w := options.foldl set 0#w

/-- An option whose flag is not in the word yet. -/
lemma set_and (h : acc &&& flag = 0#w) :
    set acc (flag, on) &&& flag = if on then flag else 0#w := by
  cases on with
  | false => exact h
  | true =>
    show (acc ||| flag) &&& flag = flag
    rw [BitVec.and_or_distrib_right, h, BitVec.and_self, BitVec.zero_or]

/-- Options with other bits do not touch a flag. -/
lemma foldl_set_and (h : ∀ option ∈ options, option.1 &&& flag = 0#w) :
    options.foldl set acc &&& flag = acc &&& flag := by
  induction options generalizing acc with
  | nil => rfl
  | cons option options ih =>
    obtain ⟨hfirst, hrest⟩ := List.forall_mem_cons.1 h
    rw [List.foldl_cons, ih hrest, set]
    split
    · rw [BitVec.and_or_distrib_right, hfirst, BitVec.or_zero]
    · rfl

/-- A flag is in the word just when its option is on. -/
lemma encode_and (h : (options.map Prod.fst).Pairwise (· &&& · = 0#w)) (hmem : (flag, on) ∈ options) :
    encode options &&& flag = if on then flag else 0#w := by
  obtain ⟨before, after, rfl⟩ := List.append_of_mem hmem
  rw [List.map_append, List.map_cons, List.pairwise_append] at h
  obtain ⟨-, hafter, hbefore⟩ := h
  have hnone : ∀ option ∈ before, option.1 &&& flag = 0#w := fun option hoption =>
    hbefore option.1 (List.mem_map_of_mem hoption) flag List.mem_cons_self
  have hrest : ∀ option ∈ after, option.1 &&& flag = 0#w := fun option hoption => by
    rw [BitVec.and_comm]
    exact (List.pairwise_cons.1 hafter).1 option.1 (List.mem_map_of_mem hoption)
  rw [encode, List.foldl_append, List.foldl_cons, foldl_set_and hrest]
  refine set_and ?_
  rw [foldl_set_and hnone, BitVec.zero_and]

/-- An option is read back by its flag, from the whole word or from a part of it with the flag. -/
theorem encode_and_ne_zero {part : BitVec w} (h : (options.map Prod.fst).Pairwise (· &&& · = 0#w))
    (hmem : (flag, on) ∈ options) (hpart : part &&& flag = flag) (hflag : flag ≠ 0#w) :
    (encode options &&& part &&& flag != 0#w) = on := by
  rw [BitVec.and_assoc, hpart, encode_and h hmem]
  cases on with
  | false => exact bne_self_eq_false 0#w
  | true => exact bne_iff_ne.2 hflag

end BitFlags
