import NextKey.Engine.Helpers

/-!
# Spell exclusions as prefixes

`IsSpellExcluded` compares the exclusions with the first sixteen characters of the word only. An
exclusion that is longer never matches there, while the check at typing time, `MatchExclusionBuf`,
compares as many characters as it has. So the match is the match of prefixes just when every longer
exclusion of the word comes with a shorter one (`exclusion_prefix_iff`).
-/

namespace NextKey

section Locale
variable [WideLocale] {states : List CharState} {exclusions : List (List Char)}

/-- The text of a buffer without case. -/
def lowerText (states : List CharState) : List Char := (composeAll states).map towlower

/-- What `IsSpellExcluded` finds: an exclusion that fits in its buffer. -/
lemma isSpellExcluded_iff : isSpellExcluded states exclusions ↔
    ∃ pat ∈ exclusions, 2 ≤ pat.length ∧ pat.length ≤ kMaxBuf ∧ pat <+: lowerText states := by
  have hmatch : ∀ pat : List Char, 2 ≤ pat.length →
      (pat.isPrefixOf (((composeAll states).take kMaxBuf).map towlower) ↔
        pat.length ≤ kMaxBuf ∧ pat <+: lowerText states) := by
    intro pat _
    rw [List.isPrefixOf_iff_prefix, List.map_take, List.prefix_take_iff, and_comm]
    rfl
  unfold isSpellExcluded
  dsimp only
  rw [Bool.and_eq_true, List.any_eq_true]
  constructor
  · rintro ⟨-, pat, hmem, hpat⟩
    rw [Bool.and_eq_true, decide_eq_true_eq] at hpat
    exact ⟨pat, hmem, hpat.1, (hmatch pat hpat.1).1 hpat.2⟩
  · rintro ⟨pat, hmem, hshort, hpat⟩
    refine ⟨?_, pat, hmem, ?_⟩
    · cases states with
      | nil =>
        have hnil : pat = [] := List.prefix_nil.1 hpat.2
        rw [hnil] at hshort
        cases hshort
      | cons s states => rfl
    · rw [Bool.and_eq_true, decide_eq_true_eq]
      exact ⟨hshort, (hmatch pat hshort).2 hpat⟩

/-- The match of `IsSpellExcluded` is a match of prefixes. -/
def MatchesPrefixes (states : List CharState) (exclusions : List (List Char)) : Prop :=
  isSpellExcluded states exclusions ↔ ∃ pat ∈ exclusions, 2 ≤ pat.length ∧ pat <+: lowerText states

/-- A word that the check at typing time accepted because it is an exclusion or goes on behind one is
    excluded once it is there. The check sees the buffer before the edit, with a character in place of
    another. -/
def KeepsAccepted (states : List CharState) (exclusions : List (List Char)) : Prop :=
  ∀ (before : List CharState) (i : Nat) (ch : Char), i < before.length →
    (before.map compose).set i ch = states.map compose →
    ∀ pat ∈ exclusions, matchExclusionBuf (buildExclusionBuf before i ch) [pat] (· == ·) →
      pat <+: lowerText states → isSpellExcluded states exclusions

/-- Where an exclusion that is too long for the buffer is a prefix of the word, so is one that fits. -/
def ShortExclusion (states : List CharState) (exclusions : List (List Char)) : Prop :=
  ∀ pat ∈ exclusions, kMaxBuf < pat.length → pat <+: lowerText states →
    ∃ short ∈ exclusions, 2 ≤ short.length ∧ short.length ≤ kMaxBuf ∧ short <+: lowerText states

omit [WideLocale] in
/-- A pattern that matches has two letters. -/
lemma two_le_of_match {buf pat : List Char} {cmp} (h : matchExclusionBuf buf [pat] cmp) :
    2 ≤ pat.length := by
  rw [matchExclusionBuf, List.any_cons, List.any_nil, Bool.or_false, Bool.and_eq_true,
    Bool.and_eq_true, decide_eq_true_eq] at h
  exact h.1.1

/-- An exclusion of the word, whatever its length. -/
lemma ShortExclusion.excluded (h : ShortExclusion states exclusions) {pat} (hmem : pat ∈ exclusions)
    (htwo : 2 ≤ pat.length) (hpat : pat <+: lowerText states) : isSpellExcluded states exclusions := by
  rw [isSpellExcluded_iff]
  -- a prefix of the word that fits the buffer is found by itself
  by_cases hlong : kMaxBuf < pat.length
  · exact h pat hmem hlong hpat
  · exact ⟨pat, hmem, htwo, not_lt.1 hlong, hpat⟩

/-- The exclusions of a word are its prefixes, and stay so at the next validation, just when a longer
    one comes with one of at most sixteen characters. -/
theorem exclusion_prefix_iff : MatchesPrefixes states exclusions ∧ KeepsAccepted states exclusions ↔
    ShortExclusion states exclusions := by
  constructor
  · rintro ⟨hprefixes, -⟩ pat hmem hlong hpat
    have htwo : 2 ≤ pat.length := (show 2 ≤ kMaxBuf by decide).trans hlong.le
    exact isSpellExcluded_iff.1 (hprefixes.2 ⟨pat, hmem, htwo, hpat⟩)
  · intro h
    constructor
    · constructor
      · intro hexcluded
        obtain ⟨pat, hmem, htwo, -, hpat⟩ := isSpellExcluded_iff.1 hexcluded
        exact ⟨pat, hmem, htwo, hpat⟩
      · rintro ⟨pat, hmem, htwo, hpat⟩
        exact h.excluded hmem htwo hpat
    · intro before i ch _ _ pat hmem hmatch hpat
      exact h.excluded hmem (two_le_of_match hmatch) hpat

end Locale

section Ascii

attribute [local instance] WideLocale.ascii

/-- Seventeen letters. -/
def longWord : List CharState := "abcdefghijklmnopq".toList.map fun c => { base := c }

/-- The word is its own exclusion, and it is not excluded. -/
theorem not_exclusion_prefix_long : ¬∀ (states : List CharState) (exclusions : List (List Char)),
    MatchesPrefixes states exclusions ∧ KeepsAccepted states exclusions := by
  intro h
  have hlong := (h longWord ["abcdefghijklmnopq".toList]).1.2
    ⟨"abcdefghijklmnopq".toList, List.mem_singleton_self _, by decide, by decide +kernel⟩
  exact absurd hlong (by decide +kernel)

end Ascii

end NextKey
