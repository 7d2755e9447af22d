import NextKey.Engine.EnglishProtection
import NextKey.Lib.Runs

/-!
# The V+C+V pattern

What the scan of `HasStructuralVCVPattern` finds, stated over the whole buffer: two groups of vowels with
consonants between them that are not a nucleus with its coda.
-/

namespace NextKey

variable {states group consonants : List CharState}

/-- A vowel group with a modifier and one consonant that closes a syllable. -/
def NucleusWithCoda (group consonants : List CharState) : Prop :=
  (∃ coda, consonants = [coda] ∧ coda.base ∈ ['c', 'k', 'm', 'n', 'p', 't']) ∧
    ∃ v ∈ group, v.hasModifier = true

/-- A vowel group, the consonants behind it and the next vowel group. -/
abbrev VowelGroups (states group consonants nextGroup : List CharState) : Prop :=
  Flanked CharState.isVowel states group consonants nextGroup

/-- The exception of the scan. -/
lemma plausibleCoda_iff : (match consonants with
      | [coda] => group.any (·.hasModifier) && ['c', 'k', 'm', 'n', 'p', 't'].contains coda.base
      | _ => false) = true ↔ NucleusWithCoda group consonants := by
  unfold NucleusWithCoda
  split
  · next coda =>
    rw [Bool.and_eq_true, List.any_eq_true, List.contains_iff_mem]
    constructor
    · rintro ⟨hmod, hbase⟩
      exact ⟨⟨coda, rfl, hbase⟩, hmod⟩
    · rintro ⟨⟨_, hcoda, hbase⟩, hmod⟩
      cases hcoda
      exact ⟨hmod, hbase⟩
  · next hmany =>
    refine iff_of_false Bool.false_ne_true ?_
    rintro ⟨⟨coda, rfl, -⟩, -⟩
    exact hmany coda rfl

/-- The scan finds two vowel groups whose consonants are no coda. -/
lemma vcvScan_iff {fuel : Nat} (hfuel : states.length ≤ fuel) : vcvScan fuel states = true ↔
    ∃ group consonants nextGroup, VowelGroups states group consonants nextGroup ∧
      ¬NucleusWithCoda group consonants := by
  induction fuel generalizing states with
  | zero =>
    obtain rfl := List.eq_nil_of_length_eq_zero (Nat.le_zero.1 hfuel)
    refine iff_of_false Bool.false_ne_true ?_
    rintro ⟨group, consonants, nextGroup, h, -⟩
    exact Flanked.not_nil h
  | succ fuel ih =>
    rw [vcvScan, Flanked.exists_iff rfl rfl rfl]
    by_cases hnext : ((states.dropWhile (!·.isVowel)).dropWhile (·.isVowel)).dropWhile (!·.isVowel) = []
    · rw [if_pos hnext]
      exact iff_of_false Bool.false_ne_true fun h => h.1 hnext
    · have hlt := Flanked.length_lt rfl hnext
      rw [if_neg hnext, ← ih (by omega), and_iff_right hnext]
      by_cases hcoda : NucleusWithCoda ((states.dropWhile (!·.isVowel)).takeWhile (·.isVowel))
          (((states.dropWhile (!·.isVowel)).dropWhile (·.isVowel)).takeWhile (!·.isVowel))
      · rw [if_pos]
        · exact (or_iff_right (not_not_intro hcoda)).symm
        · exact plausibleCoda_iff.2 hcoda
      · rw [if_neg]
        · exact iff_of_true rfl (.inl hcoda)
        · exact fun h => hcoda (plausibleCoda_iff.1 h)

/-- Of a buffer of four states or more `HasStructuralVCVPattern` says whether it has two maximal vowel
    groups with a maximal run of consonants between them, unless the run is one `c`, `k`, `m`, `n`, `p` or
    `t` behind a modified vowel. -/
theorem hasStructuralVCVPattern_iff (h : 4 ≤ states.length) : hasStructuralVCVPattern states = true ↔
    ∃ group consonants nextGroup, VowelGroups states group consonants nextGroup ∧
      ¬NucleusWithCoda group consonants := by
  rw [hasStructuralVCVPattern, decide_eq_true h, Bool.true_and, vcvScan_iff le_rfl]

/-- In `mane` one consonant stands between two plain vowels. -/
theorem hasStructuralVCVPattern_mane :
    ∃ group consonants nextGroup,
      VowelGroups [{ base := 'm' }, { base := 'a' }, { base := 'n' }, { base := 'e' }]
          group consonants nextGroup ∧ ¬NucleusWithCoda group consonants :=
  (hasStructuralVCVPattern_iff (by decide)).1 (by decide)

end NextKey
