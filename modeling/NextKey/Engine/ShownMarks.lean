import NextKey.Engine.AutoUO
import NextKey.Engine.SeedRoundTrip

/-!
# The marks a text shows

A state with one of the letters that take marks shows its base, its modifier and its tone: they are read
back off the character, in either case. So two buffers of such letters that show the same text have the
same marks, but for a modifier that the alphabet does not have on its letter.
-/

namespace NextKey

/-- The letters with marks, and the `w` that a synthetic `ư` goes back to. -/
def markLetters : List Char := ['a', 'd', 'e', 'i', 'o', 'u', 'w', 'y']

/-- Base, modifier and tone of a letter in either case. -/
def shownParts (ch : Char) : Option (Char × Modifier × Tone) :=
  lowerParts (((vietnameseLetters.find? (·.1 == ch)).map (·.2)).getD ch.toLower)

namespace CharState

/-- The modifier a state shows: the alphabet has no other on its letter. -/
def shownMod (s : CharState) : Modifier :=
  if s.isD ∧ s.mod = .stroke ∨ (modifiedVowel s.base s.mod).isSome then s.mod else .none

/-- The tone a state shows. -/
def shownTone (s : CharState) : Tone := if s.isVowel then s.tone else .none

end CharState

/-- The letter with these marks, in its case. -/
def casedShape (base : Char) (mod : Modifier) (tone : Tone) (isUpper : Bool) : Char :=
  let lower := lowerShape base mod tone
  if isUpper then (upperCase? lower).getD lower.toUpper else lower

/-- Each modifier. -/
def kModifiers : List Modifier := [.none, .circumflex, .breve, .horn, .stroke]

/-- Each tone. -/
def kTones : List Tone := [.none, .acute, .grave, .hook, .tilde, .dot]

/-- All marks are listed. -/
lemma mem_kModifiers {mod : Modifier} : mod ∈ kModifiers := by cases mod <;> decide

/-- All tones are listed. -/
lemma mem_kTones {tone : Tone} : tone ∈ kTones := by cases tone <;> decide

/-- A table over the letters and their marks. -/
def forMarks (p : Char → Modifier → Tone → Bool) : Bool :=
  markLetters.all fun base => kModifiers.all fun mod => kTones.all fun tone => p base mod tone

/-- What was checked of all holds of each. -/
lemma forMarks_apply {p : Char → Modifier → Tone → Bool} (h : forMarks p = true) {base}
    (hbase : base ∈ markLetters) (mod : Modifier) (tone : Tone) : p base mod tone = true := by
  have hmods := List.all_eq_true.1 h base hbase
  have htones := List.all_eq_true.1 hmods mod mem_kModifiers
  exact List.all_eq_true.1 htones tone mem_kTones

/-- The letters with marks are ASCII. -/
lemma markLetters_ascii {c : Char} (h : c ∈ markLetters) : AsciiKey c := by
  have hall : markLetters.all (fun c => decide (AsciiKey c)) = true := by decide
  exact of_decide_eq_true (List.all_eq_true.1 hall c h)

/-- A letter in lower case shows its parts. -/
lemma lowerParts_lowerShape {base mod tone} (hbase : base ∈ markLetters) :
    lowerParts (lowerShape base mod tone) =
      some (base, ({ base, mod } : CharState).shownMod, ({ base, tone } : CharState).shownTone) := by
  have htable : forMarks (fun base mod tone => lowerParts (lowerShape base mod tone) ==
      some (base, ({ base, mod } : CharState).shownMod, ({ base, tone } : CharState).shownTone)) =
      true := by
    decide +kernel
  exact eq_of_beq (forMarks_apply htable hbase mod tone)

/-- The lower case is read back off a letter in either case. -/
lemma lower_of_cased {lower : Char} (h : IsLowerLetter lower) (isUpper : Bool) :
    let cased := if isUpper then (upperCase? lower).getD lower.toUpper else lower
    ((vietnameseLetters.find? (·.1 == cased)).map (·.2)).getD cased.toLower = lower := by
  have htable : (lowerLetters.all fun lower => [false, true].all fun isUpper =>
      let cased := if isUpper then (upperCase? lower).getD lower.toUpper else lower
      ((vietnameseLetters.find? (·.1 == cased)).map (·.2)).getD cased.toLower == lower) = true := by
    decide +kernel
  have hcases := List.all_eq_true.1 (List.all_eq_true.1 htable lower (mem_lowerLetters.2 h)) isUpper
    (by cases isUpper <;> decide)
  exact eq_of_beq hcases

/-- A letter is taken apart as it is shown. -/
lemma shownParts_casedShape {base mod tone isUpper} (hbase : base ∈ markLetters) :
    shownParts (casedShape base mod tone isUpper) =
      some (base, ({ base, mod } : CharState).shownMod, ({ base, tone } : CharState).shownTone) := by
  have hparts := @lowerParts_lowerShape base mod tone hbase
  have hlower : IsLowerLetter (lowerShape base mod tone) := by
    by_contra hnot
    rw [lowerParts_of_not_letter hnot] at hparts
    cases hparts
  rw [shownParts, casedShape, lower_of_cased hlower isUpper]
  exact hparts

section Locale
variable [WideLocale] {s t : CharState}

/-- The letters are ASCII where `toUpperVietnamese` asks the locale. -/
lemma compose_eq_casedShape (hs : s.base ∈ markLetters) :
    compose s = casedShape s.base s.mod s.tone s.isUpper := by
  have htable : forMarks (fun base mod tone =>
      (upperCase? (lowerShape base mod tone)).isSome ||
        decide ((lowerShape base mod tone).toNat < 128)) = true := by
    decide +kernel
  have hcase := forMarks_apply htable hs s.mod s.tone
  rw [compose_eq (markLetters_ascii hs), casedShape, toUpperVietnamese_eq]
  cases hupper : upperCase? (lowerShape s.base s.mod s.tone) with
  | some u => rfl
  | none =>
    rw [hupper, Option.isSome_none, Bool.false_or, decide_eq_true_eq] at hcase
    rw [Option.getD_none, Option.getD_none, WideLocale.towupper_ascii _ hcase]

/-- A state shows its base, its modifier and its tone. -/
lemma shownParts_compose (hs : s.base ∈ markLetters) :
    shownParts (compose s) = some (s.base, s.shownMod, s.shownTone) := by
  rw [compose_eq_casedShape hs, shownParts_casedShape hs]
  rfl

/-- Two states that show the same character have the same marks. -/
lemma marks_of_compose (hs : s.base ∈ markLetters) (ht : t.base ∈ markLetters)
    (h : compose s = compose t) :
    s.base = t.base ∧ s.shownMod = t.shownMod ∧ s.shownTone = t.shownTone := by
  have hparts := shownParts_compose hs
  rw [h, shownParts_compose ht] at hparts
  have hpair := Option.some.inj hparts
  exact ⟨(congrArg (·.1) hpair).symm, (congrArg (·.2.1) hpair).symm, (congrArg (·.2.2) hpair).symm⟩

/-- The text of a buffer of typed letters has a character for each. -/
lemma AsciiBases.composeAll_eq {states : List CharState} (h : AsciiBases states) :
    composeAll states = states.map compose := by
  refine List.filter_eq_self.2 fun ch hch => ?_
  obtain ⟨s, hs, rfl⟩ := List.mem_map.1 hch
  exact decide_eq_true (compose_ne_nul (h s hs))

/-- The same text shows the same characters. -/
lemma compose_charAt_congr {states states' : List CharState} (h : AsciiBases states)
    (h' : AsciiBases states') (hshown : composeAll states' = composeAll states) {i : Nat} :
    compose (charAt states' i) = compose (charAt states i) := by
  rw [h.composeAll_eq, h'.composeAll_eq] at hshown
  exact charAt_congr hshown

end Locale

end NextKey
