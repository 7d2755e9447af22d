import Mathlib.Data.List.GetD
import NextKey.Engine.Completion

/-!
# The verdict with and without the tones

What the validator makes of a buffer is what it makes of the buffer without its tones, except that a
stop final refuses some tones (`validateImpl_untone`) and that `CheckToneModInvariant` wants one
toned vowel, a modified one if any is (`checkToneModInvariant_iff`). The vowels of a buffer that is not
invalid stand together (`together_of_ne_invalid`).
-/

namespace NextKey.Phonology

section Untone
variable {states : List CharState} {allowZwjf : Bool} {n : Nat}

/-- The base stays. -/
lemma untone_base {s : CharState} : (untone s).base = s.base := rfl

/-- The mark stays. -/
lemma untone_mod {s : CharState} : (untone s).mod = s.mod := rfl

/-- The letter at an index, without its tone. -/
lemma charAt_untone {i : Nat} : charAt (states.map untone) i = untone (charAt states i) := by
  simp only [charAt, List.getD_eq_getElem?_getD, List.getElem?_map]
  cases states[i]? <;> rfl

/-- The key of the vowels does not ask for tones. -/
lemma vowelKey?_untone : vowelKey? (states.map untone) = vowelKey? states := by
  have hslots : (states.map untone).mapM vowelSlot? = states.mapM vowelSlot? := by
    rw [List.mapM_map]
    rfl
  simp only [vowelKey?, List.length_map, hslots]

/-- Nor do the vowels with other marks. -/
lemma tryModifiedVowels_untone {pred : VowelEntry → Bool} :
    tryModifiedVowels (states.map untone) pred = tryModifiedVowels states pred := by
  simp only [tryModifiedVowels, vowelKey?_untone]

/-- Nor does the coda. -/
lemma parseFinalConsonant_untone :
    parseFinalConsonant (states.map untone) = parseFinalConsonant states := by
  cases states with
  | nil => rfl
  | cons s0 rest => cases rest <;> rfl

/-- Nor does an initial `ngh`. -/
lemma startsNgh_untone : startsNgh (states.map untone) = startsNgh states := by
  match states with
  | [] | [_] | [_, _] | _ :: _ :: _ :: _ => rfl

/-- Nor does the initial consonant. -/
lemma parseInitialConsonant_untone :
    parseInitialConsonant (states.map untone) allowZwjf = parseInitialConsonant states allowZwjf := by
  cases states with
  | nil => rfl
  | cons s0 rest =>
    have hngh := @startsNgh_untone (s0 :: rest)
    rw [List.map_cons] at hngh
    simp only [List.map_cons, parseInitialConsonant, hngh]
    cases rest <;> rfl

/-- Without tones there is none. -/
lemma getTone_untone : getTone (states.map untone) = .none := by
  have hnone : (states.map untone).find? (·.hasTone) = none := by
    rw [List.find?_eq_none]
    intro s hs
    obtain ⟨t, -, rfl⟩ := List.mem_map.1 hs
    exact Bool.false_ne_true
  rw [getTone, hnone]

/-- A final after a nucleus, with the tones and without. -/
lemma validateFinal_ne_invalid {vowels final : List CharState} {key : VowelKey} :
    validateFinal states vowels key final ≠ .invalid ↔
      validateFinal (states.map untone) (vowels.map untone) key (final.map untone) ≠ .invalid ∧
        (isStopFinal final (parseFinalConsonant final) → stopTone (getTone states)) := by
  have hbit : ∀ k, finalConsonantBit (final.map untone) k = finalConsonantBit final k := by
    intro k
    simp only [finalConsonantBit, charAt_untone]
    rfl
  have hstop : ∀ k, isStopFinal (final.map untone) k = isStopFinal final k := by
    intro k
    simp only [isStopFinal, charAt_untone]
    rfl
  have htone : (getTone states = .none ∨ getTone states = .acute ∨ getTone states = .dot) ↔
      stopTone (getTone states) := by
    cases getTone states <;> decide
  simp only [validateFinal, parseFinalConsonant_untone, hbit, hstop, charAt_untone, List.length_map,
    getTone_untone, htone, true_or, not_true_eq_false, and_false, if_false, untone_base, untone_mod]
  generalize isStopFinal final (parseFinalConsonant final) = stop
  generalize stopTone (getTone states) = fits
  split
  · simp
  · split
    · simp
    · split
      · simp
      · split
        · simp
        · cases stop <;> cases fits <;> simp

/-- A stop final of the decomposition refuses the tone of the buffer. -/
def refusesTone (states : List CharState) (n : Nat) : Bool :=
  let final := (states.drop n).dropWhile (·.isVowel)
  isStopFinal final (parseFinalConsonant final) && !stopTone (getTone states)

/-- A decomposition, with the tones and without. -/
lemma validateDecomposition_untone :
    (validateDecomposition states n ≠ .invalid →
      validateDecomposition (states.map untone) n ≠ .invalid) ∧
    (validateDecomposition (states.map untone) n ≠ .invalid → refusesTone states n = false →
      validateDecomposition states n ≠ .invalid) := by
  have hvowels : ((states.drop n).map untone).takeWhile (·.isVowel) =
      ((states.drop n).takeWhile (·.isVowel)).map untone := by
    rw [List.takeWhile_map]
    rfl
  have hfinal : ((states.drop n).map untone).dropWhile (·.isVowel) =
      ((states.drop n).dropWhile (·.isVowel)).map untone := by
    rw [List.dropWhile_map]
    rfl
  simp only [validateDecomposition, refusesTone, ← List.map_drop, hvowels, hfinal, vowelKey?_untone,
    tryModifiedVowels_untone, parseFinalConsonant_untone, List.length_map, List.map_eq_nil_iff]
  generalize (states.drop n).dropWhile (·.isVowel) = final
  generalize (states.drop n).takeWhile (·.isVowel) = vowels
  by_cases hrest : states.drop n = []
  · simp [hrest]
  · rw [if_neg hrest, if_neg hrest]
    cases vowelKey? vowels with
    | none => simp
    | some key =>
      dsimp only
      cases findVowel key with
      | none => exact ⟨fun h => by simpa using h, fun h _ => by simpa using h⟩
      | some entry =>
        dsimp only
        by_cases hnil : final = []
        · simp [hnil]
        · rw [if_neg hnil, if_neg hnil]
          cases entry.canEnd with
          | true =>
            rw [if_pos rfl, if_pos rfl]
            have hne := @validateFinal_ne_invalid states vowels final key
            refine ⟨fun h => (hne.1 h).1, fun h hrefuse => hne.2 ⟨h, fun hstop => ?_⟩⟩
            rw [hstop] at hrefuse
            simpa using hrefuse
          | false => exact ⟨fun h => by simpa using h, fun h _ => by simpa using h⟩

/-- A clash of the initial does not ask for tones. -/
lemma initialVowelClash_untone :
    initialVowelClash (states.map untone) n = initialVowelClash states n := by
  simp only [initialVowelClash, charAt_untone, untone_base, startsNgh_untone]

/-- Nor does a prefix of an initial. -/
lemma isValidConsonantPrefix_untone : isValidConsonantPrefix (states.map untone) allowZwjf =
    isValidConsonantPrefix states allowZwjf := by
  apply isValidConsonantPrefix_congr
  rw [List.map_map]
  rfl

/-- Nor does an opening. -/
lemma opens_untone : Opens (states.map untone) allowZwjf ↔ Opens states allowZwjf := by
  have hiff : ∀ {states' : List CharState}, Opens states' allowZwjf ↔
      parseInitialConsonant states' allowZwjf < states'.length ∧
        (charAt states' (parseInitialConsonant states' allowZwjf)).isVowel ∧
          initialVowelClash states' (parseInitialConsonant states' allowZwjf) = false :=
    ⟨fun h => ⟨h.lt, h.vowel, h.agrees⟩, fun h => ⟨h.1, h.2.1, h.2.2⟩⟩
  rw [hiff, hiff, parseInitialConsonant_untone, List.length_map, charAt_untone,
    initialVowelClash_untone]
  rfl

/-- Nor does a bare `qu`. -/
lemma bareQu_untone : bareQu (states.map untone) = bareQu states := by
  match states with
  | [] | [_] | [_, _] | _ :: _ :: _ :: _ => rfl

/-- Nor do the lengths of the onset. -/
lemma onsetLengths_untone :
    onsetLengths (states.map untone) allowZwjf = onsetLengths states allowZwjf := by
  have hgliding : gliding (states.map untone) = gliding states := by
    match states with
    | [] | [_] | [_, _] | _ :: _ :: _ :: _ => rfl
  rw [onsetLengths, onsetLengths, parseInitialConsonant_untone, hgliding]

/-- The structure of a buffer, with the tones and without. -/
lemma validateImpl_untone :
    (validateImpl states allowZwjf ≠ .invalid → validateImpl (states.map untone) allowZwjf ≠ .invalid) ∧
    (validateImpl (states.map untone) allowZwjf ≠ .invalid →
      (∀ n ∈ onsetLengths states allowZwjf, validateDecomposition (states.map untone) n ≠ .invalid →
        refusesTone states n = false) →
      validateImpl states allowZwjf ≠ .invalid) := by
  by_cases hopen : Opens states allowZwjf
  · have hinvalid := (validateImpl_of_opens hopen).2
    have hinvalid' := (validateImpl_of_opens (opens_untone.2 hopen)).2
    rw [bareQu_untone, onsetLengths_untone] at hinvalid'
    refine ⟨fun h h' => h (hinvalid.2 ?_), fun h hrefuse h' => h (hinvalid'.2 ?_)⟩
    · obtain ⟨hqu, hall⟩ := hinvalid'.1 h'
      refine ⟨hqu, fun n hn => ?_⟩
      by_contra hne
      exact validateDecomposition_untone.1 hne (hall n hn)
    · obtain ⟨hqu, hall⟩ := hinvalid.1 h'
      refine ⟨hqu, fun n hn => ?_⟩
      by_contra hne
      exact validateDecomposition_untone.2 hne (hrefuse n hn hne) (hall n hn)
  · rw [validateImpl_of_not_opens hopen, validateImpl_of_not_opens fun h => hopen (opens_untone.1 h),
      isValidConsonantPrefix_untone]
    exact ⟨id, fun h _ => h⟩

end Untone

section Together
variable {states : List CharState} {allowZwjf : Bool} {n : Nat}

/-- The vowels stand together. -/
def Together (states : List CharState) : Prop :=
  ∃ front nucleus back : List CharState, states = front ++ nucleus ++ back ∧
    (∀ s ∈ front, s.isVowel = false) ∧ (∀ s ∈ nucleus, s.isVowel) ∧ ∀ s ∈ back, s.isVowel = false

/-- The letters of a final are consonants. -/
lemma Final.consonants {final : List CharState} {f : Final} (h : final.map (·.base) = f.letters) :
    ∀ s ∈ final, s.isVowel = false := by
  intro s hs
  have hmem : s.base ∈ f.letters := by
    rw [← h]
    exact List.mem_map_of_mem hs
  have hletters : f.letters.all (fun c => !isVowelBase c) = true := by cases f <;> rfl
  simpa [CharState.isVowel] using List.all_eq_true.1 hletters _ hmem

/-- A final that is parsed to its end has no vowel. -/
lemma consonants_of_parse {final : List CharState} (h : parseFinalConsonant final = final.length) :
    ∀ s ∈ final, s.isVowel = false := by
  intro s hs
  have hpos : parseFinalConsonant final ≠ 0 := by
    rw [h]
    exact (List.length_pos_of_mem hs).ne'
  obtain ⟨f, hf⟩ := letters_of_parseFinalConsonant hpos h.not_lt
  exact Final.consonants hf s hs

/-- A coda is no longer than what is left. -/
lemma parseFinalConsonant_le {final : List CharState} : parseFinalConsonant final ≤ final.length := by
  cases final with
  | nil => exact Nat.le_refl 0
  | cons s0 rest =>
    cases rest with
    | nil =>
      simp only [parseFinalConsonant]
      split <;> simp
      split <;> simp
    | cons s1 rest =>
      simp only [parseFinalConsonant, List.length_cons]
      repeat' split
      all_goals omega

/-- Vowels that fit with other marks have an entry. -/
lemma exists_of_tryModifiedVowels {vowels : List CharState} {pred : VowelEntry → Bool}
    (h : tryModifiedVowels vowels pred) : ∃ entry, pred entry := by
  rw [tryModifiedVowels] at h
  split at h
  · obtain ⟨entry, -, hentry⟩ := List.any_eq_true.1 h
    exact ⟨entry, hentry⟩
  · cases h

/-- A valid end is all coda. -/
lemma parse_of_validateFinal {vowels final : List CharState} {key : VowelKey}
    (h : validateFinal states vowels key final ≠ .invalid) :
    parseFinalConsonant final = final.length := by
  simp only [validateFinal] at h
  split at h
  · exact (h rfl).elim
  · split at h
    · exact (h rfl).elim
    · next hend => exact Nat.le_antisymm parseFinalConsonant_le (Nat.le_of_not_lt hend)

/-- A decomposition that is not invalid parses what follows its vowels. -/
lemma parse_of_decomposition (h : validateDecomposition states n ≠ .invalid) :
    (states.drop n).dropWhile (·.isVowel) = [] ∨
      parseFinalConsonant ((states.drop n).dropWhile (·.isVowel)) =
        ((states.drop n).dropWhile (·.isVowel)).length := by
  simp only [validateDecomposition] at h
  by_cases hrest : states.drop n = []
  · rw [hrest]
    exact .inl rfl
  · rw [if_neg hrest] at h
    generalize (states.drop n).dropWhile (·.isVowel) = final at h ⊢
    generalize (states.drop n).takeWhile (·.isVowel) = vowels at h
    by_cases hnil : final = []
    · exact .inl hnil
    · split at h
      · exact (h rfl).elim
      · next key _ =>
        split at h
        · split at h
          · next hprefix => exact .inl hprefix.2.2
          · split at h
            · next htry =>
              obtain ⟨entry, hentry⟩ := exists_of_tryModifiedVowels htry
              obtain hempty | hparse := Bool.or_eq_true_iff.1 hentry
              · exact .inl (List.isEmpty_iff.1 hempty)
              · exact .inr (by simpa using (Bool.and_eq_true_iff.1 hparse).2)
            · exact (h rfl).elim
        · rw [if_neg hnil] at h
          split at h
          · exact .inr (parse_of_validateFinal h)
          · split at h
            · next htry =>
              obtain ⟨entry, hentry⟩ := exists_of_tryModifiedVowels htry
              exact .inr (by simpa using (Bool.and_eq_true_iff.1 hentry).2)
            · exact (h rfl).elim

/-- Behind the vowels of a decomposition stand consonants. -/
lemma consonants_of_decomposition (h : validateDecomposition states n ≠ .invalid) :
    ∀ s ∈ (states.drop n).dropWhile (·.isVowel), s.isVowel = false := by
  obtain hnil | hparse := parse_of_decomposition h
  · rw [hnil]
    exact List.forall_mem_nil _
  · exact consonants_of_parse hparse

/-- A decomposition that is not invalid has a vowel, unless it is an onset alone. -/
lemma vowels_of_decomposition (h : validateDecomposition states n ≠ .invalid)
    (hrest : states.drop n ≠ []) : (states.drop n).takeWhile (·.isVowel) ≠ [] := by
  intro hnil
  simp only [validateDecomposition, if_neg hrest, hnil] at h
  exact h rfl

/-- Vowels behind consonants stand together. -/
lemma together_of_drop {front : List CharState} (hfront : ∀ s ∈ front, s.isVowel = false)
    (h : ∃ vowels rest : List CharState, states = front ++ vowels ++ rest ∧
      (∀ s ∈ vowels, s.isVowel) ∧ ∀ s ∈ rest.dropWhile (·.isVowel), s.isVowel = false) :
    Together states := by
  obtain ⟨vowels, rest, rfl, hvowels, hback⟩ := h
  have hsplit := @split_takeWhile rest
  refine ⟨front, vowels ++ rest.takeWhile (·.isVowel), rest.dropWhile (·.isVowel), ?_, hfront, ?_,
    hback⟩
  · rw [List.append_assoc, List.append_assoc, List.append_assoc, ← hsplit.eq]
  · intro s hs
    obtain hs | hs := List.mem_append.1 hs
    · exact hvowels s hs
    · exact hsplit.vowels s hs

/-- The vowels of a buffer that is not invalid stand together. -/
lemma together_of_ne_invalid (h : validateImpl states allowZwjf ≠ .invalid) : Together states := by
  by_cases hconsonants : states.all fun s => !s.isVowel
  · refine ⟨states, [], [], by simp, fun s hs => ?_, List.forall_mem_nil _, List.forall_mem_nil _⟩
    simpa using List.all_eq_true.1 hconsonants s hs
  · have hopen := opens_of_ne_invalid h hconsonants
    obtain ⟨onset, v, rest, hstates, hv, honset, hparse⟩ := hopen.exists_onset
    have hne : ¬(bareQu states = false ∧
        ∀ n ∈ onsetLengths states allowZwjf, validateDecomposition states n = .invalid) :=
      fun hinvalid => h ((validateImpl_of_opens hopen).2.2 hinvalid)
    have hfront := isVowel_of_mem_onset honset
    cases hqu : bareQu states with
    | true =>
      obtain ⟨s0, s1, rfl, h0, h1⟩ := bareQu_eq_true.1 hqu
      have hs0 : s0.isVowel = false := by rw [CharState.isVowel, h0]; rfl
      have hs1 : s1.isVowel := by rw [CharState.isVowel, h1]; rfl
      exact ⟨[s0], [s1], [], rfl, by simpa using hs0, by simpa using hs1, List.forall_mem_nil _⟩
    | false =>
      have hsome : ∃ n ∈ onsetLengths states allowZwjf, validateDecomposition states n ≠ .invalid := by
        by_contra hnone
        refine hne ⟨hqu, fun n hn => ?_⟩
        by_contra hvalid
        exact hnone ⟨n, hn, hvalid⟩
      obtain ⟨n, hn, hdec⟩ := hsome
      have hback := consonants_of_decomposition hdec
      rw [onsetLengths, List.mem_cons] at hn
      obtain rfl | hn := hn
      · rw [hparse] at hback
        refine together_of_drop hfront
          ⟨[], v :: rest, by simpa using hstates, List.forall_mem_nil _, ?_⟩
        rw [hstates, List.drop_left] at hback
        exact hback
      · split at hn
        · next hg =>
          obtain rfl : n = 2 := by simpa using hn
          obtain ⟨s0, s1, s2, tail, heq, hletters, -⟩ := exists_of_gliding hg
          have hs0 : s0.isVowel = false := by
            obtain ⟨h0, -⟩ | ⟨h0, -⟩ := hletters <;> rw [CharState.isVowel, h0] <;> rfl
          have hs1 : s1.isVowel := by
            obtain ⟨-, h1⟩ | ⟨-, h1⟩ := hletters <;> rw [CharState.isVowel, h1] <;> rfl
          rw [heq] at hback ⊢
          exact @together_of_drop _ [s0] (by simpa using hs0)
            ⟨[s1], s2 :: tail, rfl, by simpa using hs1, hback⟩
        · cases hn

/-- Where the vowels are that stand together. -/
lemma isVowel_charAt_iff {front nucleus back : List CharState} {k : Nat}
    (hfront : ∀ s ∈ front, s.isVowel = false) (hnucleus : ∀ s ∈ nucleus, s.isVowel)
    (hback : ∀ s ∈ back, s.isVowel = false) : (charAt (front ++ nucleus ++ back) k).isVowel ↔
      front.length ≤ k ∧ k < front.length + nucleus.length := by
  rw [charAt, List.append_assoc]
  by_cases hk : k < front.length
  · rw [List.getD_append _ _ _ _ hk, List.getD_eq_getElem _ _ hk, hfront _ (List.getElem_mem hk)]
    exact ⟨by simp, fun h => absurd hk (Nat.not_lt.2 h.1)⟩
  · rw [List.getD_append_right _ _ _ _ (Nat.le_of_not_lt hk)]
    by_cases hk' : k - front.length < nucleus.length
    · rw [List.getD_append _ _ _ _ hk', List.getD_eq_getElem _ _ hk']
      exact ⟨fun _ => by omega, fun _ => hnucleus _ (List.getElem_mem hk')⟩
    · rw [List.getD_append_right _ _ _ _ (Nat.le_of_not_lt hk')]
      refine ⟨fun h => ?_, fun h => by omega⟩
      have hlt := lt_length_of_isVowel h
      rw [List.getD_eq_getElem _ _ hlt, hback _ (List.getElem_mem hlt)] at h
      cases h

/-- Between two vowels that stand together is no consonant. -/
lemma Together.no_consonant (h : Together states) {i j : Nat} (hi : (charAt states i).isVowel)
    (hj : (charAt states j).isVowel) : hasConsonantBetween states i j = false := by
  obtain ⟨front, nucleus, back, rfl, hfront, hnucleus, hback⟩ := h
  have hiff := fun k => @isVowel_charAt_iff front nucleus back k hfront hnucleus hback
  rw [hiff] at hi hj
  rw [hasConsonantBetween, List.any_eq_false]
  intro k hk
  rw [List.mem_range] at hk
  have hvowel : min i j < k → (charAt (front ++ nucleus ++ back) k).isVowel := fun hlt =>
    (hiff k).2 (by omega)
  simpa using hvowel

end Together

section Tones
variable {states : List CharState}

/-- A state of the buffer has an index. -/
lemma exists_charAt {s : CharState} (h : s ∈ states) :
    ∃ i, i < states.length ∧ charAt states i = s := by
  obtain ⟨i, hi, rfl⟩ := List.mem_iff_getElem.1 h
  exact ⟨i, hi, List.getD_eq_getElem _ _ hi⟩

/-- A letter at an index is in the buffer. -/
lemma charAt_mem {i : Nat} (h : i < states.length) : charAt states i ∈ states := by
  rw [charAt, List.getD_eq_getElem _ _ h]
  exact List.getElem_mem h

/-- At most one state of the buffer has a property. -/
lemma countP_le_one_iff {p : CharState → Bool} (hp : p {} = false) : states.countP p ≤ 1 ↔
    ∀ i j, p (charAt states i) → p (charAt states j) → i = j := by
  have hmem : ∀ {l : List CharState} {i : Nat}, p (charAt l i) → charAt l i ∈ l := by
    intro l i hi
    by_cases hlt : i < l.length
    · exact charAt_mem hlt
    · rw [charAt, List.getD_eq_default _ _ (Nat.le_of_not_lt hlt), hp] at hi
      cases hi
  induction states with
  | nil =>
    refine ⟨fun _ i j hi => ?_, fun _ => Nat.zero_le 1⟩
    exact absurd (hmem hi) List.not_mem_nil
  | cons s states ih =>
    rw [List.countP_cons]
    cases hs : p s with
    | true =>
      have hiff : states.countP p + (if (true : Bool) = true then 1 else 0) ≤ 1 ↔
          ∀ t ∈ states, p t = false := by
        rw [if_pos rfl]
        simp [List.countP_eq_zero]
      rw [hiff]
      constructor
      · intro hnone i j hi hj
        have hzero : ∀ k, p (charAt (s :: states) k) → k = 0 := by
          intro k hk
          cases k with
          | zero => rfl
          | succ k =>
            have hk' : p (charAt states k) := hk
            rw [hnone _ (hmem hk')] at hk'
            cases hk'
        rw [hzero i hi, hzero j hj]
      · intro hunique t ht
        obtain ⟨k, -, rfl⟩ := exists_charAt ht
        by_contra hk
        have hk' : p (charAt states k) := by simpa using hk
        cases hunique 0 (k + 1) hs hk'
    | false =>
      have hiff : states.countP p + (if (false : Bool) = true then 1 else 0) ≤ 1 ↔
          states.countP p ≤ 1 := Iff.rfl
      refine hiff.trans (ih.trans ?_)
      constructor
      · intro hunique i j hi hj
        cases i with
        | zero =>
          have hi' : p s := hi
          rw [hs] at hi'
          cases hi'
        | succ i =>
          cases j with
          | zero =>
            have hj' : p s := hj
            rw [hs] at hj'
            cases hj'
          | succ j => exact congrArg (· + 1) (hunique i j hi hj)
      · intro hunique i j hi hj
        exact Nat.succ.inj (hunique (i + 1) (j + 1) hi hj)

/-- A vowel with a tone. -/
def tonedVowel (s : CharState) : Bool := s.isVowel && s.hasTone

/-- The tone of the vowels: on one of them, a modified one if any is. -/
lemma checkToneModInvariant_iff : checkToneModInvariant states ↔
    (∀ i j, tonedVowel (charAt states i) → tonedVowel (charAt states j) → i = j) ∧
      ∀ i, tonedVowel (charAt states i) → ∀ s ∈ states, s.isVowel → s.hasModifier →
        (charAt states i).hasModifier := by
  rw [checkToneModInvariant_iff_filter, ← countP_le_one_iff (p := tonedVowel) rfl,
    List.countP_eq_length_filter]
  refine and_congr_right fun _ => ?_
  constructor
  · intro h i hi s hs hvowel hmod
    obtain ⟨hivowel, hitone⟩ := Bool.and_eq_true_iff.1 hi
    exact h _ (charAt_mem (lt_length_of_isVowel hivowel)) hivowel hitone ⟨s, hs, hvowel, hmod⟩
  · rintro h t ht hvowel htone ⟨s, hs, hsvowel, hmod⟩
    obtain ⟨i, -, rfl⟩ := exists_charAt ht
    exact h i (Bool.and_eq_true_iff.2 ⟨hvowel, htone⟩) s hs hsvowel hmod

end Tones

end NextKey.Phonology
