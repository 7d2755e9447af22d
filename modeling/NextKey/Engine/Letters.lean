import NextKey.Engine.Modifier

/-!
# Letters, modifiers and tones

The checks of the engine read a state through its letter, its modifier and its tone. A function on
states that keeps these three can be mapped over a buffer without changing what any of them finds: the
verdict of the validator, the English protection, the target of a tone and of a stroke.
-/

namespace NextKey

/-- A function on states that keeps letter, modifier and tone. -/
class KeepsLetters (g : CharState → CharState) : Prop where
  base : ∀ s, (g s).base = s.base
  mod : ∀ s, (g s).mod = s.mod
  tone : ∀ s, (g s).tone = s.tone

variable {g : CharState → CharState} [KeepsLetters g] {states : List CharState} {i j : Nat}

namespace KeepsLetters

attribute [simp] KeepsLetters.base KeepsLetters.mod KeepsLetters.tone

/-- A vowel stays one. -/
@[simp] lemma isVowel (s : CharState) : (g s).isVowel = s.isVowel := by simp [CharState.isVowel]

/-- A `d` stays one. -/
@[simp] lemma isD (s : CharState) : (g s).isD = s.isD := by simp [CharState.isD]

/-- A horn stays. -/
@[simp] lemma isHorn (s : CharState) : (g s).isHorn = s.isHorn := by simp [CharState.isHorn]

/-- A mark stays. -/
@[simp] lemma hasModifier (s : CharState) : (g s).hasModifier = s.hasModifier := by
  simp [CharState.hasModifier]

/-- A tone stays. -/
@[simp] lemma hasTone (s : CharState) : (g s).hasTone = s.hasTone := by simp [CharState.hasTone]

end KeepsLetters

omit [KeepsLetters g] in
/-- Past the end both buffers read the default letter. -/
lemma charAt_map : charAt (states.map g) i = g (charAt states i) ∨
    charAt (states.map g) i = charAt states i := by
  simp only [charAt, List.getD_eq_getElem?_getD, List.getElem?_map]
  cases states[i]? with
  | none => exact .inr rfl
  | some s => exact .inl rfl

/-- The base at an index stays. -/
@[simp] lemma charAt_map_base : (charAt (states.map g) i).base = (charAt states i).base := by
  obtain h | h := @charAt_map g states i <;> simp [h]

/-- The mark at an index stays. -/
@[simp] lemma charAt_map_mod : (charAt (states.map g) i).mod = (charAt states i).mod := by
  obtain h | h := @charAt_map g states i <;> simp [h]

/-- The tone at an index stays. -/
@[simp] lemma charAt_map_tone : (charAt (states.map g) i).tone = (charAt states i).tone := by
  obtain h | h := @charAt_map g states i <;> simp [h]

/-- Whether a vowel stands at an index stays. -/
@[simp] lemma charAt_map_isVowel : (charAt (states.map g) i).isVowel = (charAt states i).isVowel := by
  simp [CharState.isVowel]

/-- Whether a `d` stands at an index stays. -/
@[simp] lemma charAt_map_isD : (charAt (states.map g) i).isD = (charAt states i).isD := by
  simp [CharState.isD]

/-- Whether a horn stands at an index stays. -/
@[simp] lemma charAt_map_isHorn : (charAt (states.map g) i).isHorn = (charAt states i).isHorn := by
  simp [CharState.isHorn]

/-- Whether a mark stands at an index stays. -/
@[simp] lemma charAt_map_hasModifier :
    (charAt (states.map g) i).hasModifier = (charAt states i).hasModifier := by
  simp [CharState.hasModifier]

/-- Whether a tone stands at an index stays. -/
@[simp] lemma charAt_map_hasTone : (charAt (states.map g) i).hasTone = (charAt states i).hasTone := by
  simp [CharState.hasTone]

/-- The vowels of the changed buffer are those of the buffer. -/
@[simp] lemma comp_isVowel : (fun s : CharState => s.isVowel) ∘ g = fun s => s.isVowel := by
  funext s
  simp

/-- The `d`s of the changed buffer are those of the buffer. -/
@[simp] lemma comp_isD : (fun s : CharState => s.isD) ∘ g = fun s => s.isD := by
  funext s
  simp

/-- The consonants of the changed buffer are those of the buffer. -/
@[simp] lemma comp_not_isVowel : (fun s : CharState => !s.isVowel) ∘ g = fun s => !s.isVowel := by
  funext s
  simp

/-- The toned letters of the changed buffer are those of the buffer. -/
@[simp] lemma comp_hasTone : (fun s : CharState => s.hasTone) ∘ g = fun s => s.hasTone := by
  funext s
  simp

/-- The marked letters of the changed buffer are those of the buffer. -/
@[simp] lemma comp_hasModifier :
    (fun s : CharState => s.hasModifier) ∘ g = fun s => s.hasModifier := by
  funext s
  simp

namespace Phonology

variable {allowZwjf : Bool} {n : Nat}

/-- A `đ` stays one. -/
@[simp] lemma isStrokedD_map (s : CharState) : isStrokedD (g s) = isStrokedD s := by
  simp [isStrokedD]

/-- An initial `ngh` stays one. -/
@[simp] lemma startsNgh_map : startsNgh (states.map g) = startsNgh states := by
  rcases states with _ | ⟨s0, _ | ⟨s1, _ | ⟨s2, rest⟩⟩⟩ <;> simp [startsNgh]

/-- The initial consonant is parsed from the letters. -/
@[simp] lemma parseInitialConsonant_map :
    parseInitialConsonant (states.map g) allowZwjf = parseInitialConsonant states allowZwjf := by
  rcases states with _ | ⟨s0, _ | ⟨s1, rest⟩⟩
  · rfl
  · simp [parseInitialConsonant, startsNgh]
  · have hngh : startsNgh (g s0 :: g s1 :: rest.map g) = startsNgh (s0 :: s1 :: rest) :=
      @startsNgh_map g _ (s0 :: s1 :: rest)
    simp [parseInitialConsonant, hngh]

/-- The coda is parsed from the letters. -/
@[simp] lemma parseFinalConsonant_map :
    parseFinalConsonant (states.map g) = parseFinalConsonant states := by
  rcases states with _ | ⟨s0, _ | ⟨s1, rest⟩⟩ <;> simp [parseFinalConsonant]

/-- The bit of the coda is that of its letters. -/
@[simp] lemma finalConsonantBit_map :
    finalConsonantBit (states.map g) n = finalConsonantBit states n := by
  simp [finalConsonantBit]

/-- A stop coda stays one. -/
@[simp] lemma isStopFinal_map : isStopFinal (states.map g) n = isStopFinal states n := by
  simp [isStopFinal]

/-- The tone of the syllable stays. -/
@[simp] lemma getTone_map : getTone (states.map g) = getTone states := by
  simp only [getTone, List.find?_map, comp_hasTone]
  cases states.find? (·.hasTone) <;> simp

/-- A vowel keeps its place in the key. -/
@[simp] lemma vowelSlot?_map (s : CharState) : vowelSlot? (g s) = vowelSlot? s := by
  simp [vowelSlot?]

/-- The key of the vowels is made of their letters. -/
@[simp] lemma vowelKey?_map : vowelKey? (states.map g) = vowelKey? states := by
  have hslots : (states.map g).mapM vowelSlot? = states.mapM vowelSlot? := by
    rw [List.mapM_map]
    exact congrArg (states.mapM ·) (funext vowelSlot?_map)
  simp only [vowelKey?, List.length_map, hslots]

/-- The vowels with other marks are tried on the letters. -/
@[simp] lemma tryModifiedVowels_map {pred : VowelEntry → Bool} :
    tryModifiedVowels (states.map g) pred = tryModifiedVowels states pred := by
  simp only [tryModifiedVowels, vowelKey?_map]

/-- The vowels in front are those of the buffer. -/
@[simp] lemma takeWhile_isVowel_map :
    (states.map g).takeWhile (·.isVowel) = (states.takeWhile (·.isVowel)).map g := by
  rw [List.takeWhile_map, comp_isVowel]

/-- What follows the vowels in front is what follows them in the buffer. -/
@[simp] lemma dropWhile_isVowel_map :
    (states.map g).dropWhile (·.isVowel) = (states.dropWhile (·.isVowel)).map g := by
  rw [List.dropWhile_map, comp_isVowel]

/-- The coda fits the vowels by their letters. -/
@[simp] lemma validateFinal_map {vowels final : List CharState} {key : VowelKey} :
    validateFinal (states.map g) (vowels.map g) key (final.map g) =
      validateFinal states vowels key final := by
  simp [validateFinal]

/-- A decomposition is judged by the letters. -/
@[simp] lemma validateDecomposition_map :
    validateDecomposition (states.map g) n = validateDecomposition states n := by
  simp only [validateDecomposition, ← List.map_drop, takeWhile_isVowel_map, dropWhile_isVowel_map,
    vowelKey?_map, tryModifiedVowels_map, parseFinalConsonant_map, validateFinal_map,
    List.map_eq_nil_iff, List.length_map, List.isEmpty_map]

/-- A prefix of an initial consonant is one by its letters. -/
@[simp] lemma isValidConsonantPrefix_map :
    isValidConsonantPrefix (states.map g) allowZwjf = isValidConsonantPrefix states allowZwjf := by
  rcases states with _ | ⟨s0, _ | ⟨s1, _ | ⟨s2, _ | ⟨s3, rest⟩⟩⟩⟩
  · rfl
  · simp [isValidConsonantPrefix]
  · simp [isValidConsonantPrefix]
  · simp [isValidConsonantPrefix, startsNgh]
  · rfl

/-- An initial consonant clashes with the vowel by its letters. -/
@[simp] lemma initialVowelClash_map :
    initialVowelClash (states.map g) n = initialVowelClash states n := by
  simp [initialVowelClash]

/-- The validation reads the letters alone. -/
@[simp] lemma validateImpl_map :
    validateImpl (states.map g) allowZwjf = validateImpl states allowZwjf := by
  rcases states with _ | ⟨s0, rest⟩
  · rfl
  · have honset := @parseInitialConsonant_map g _ (s0 :: rest) allowZwjf
    have hprefix := @isValidConsonantPrefix_map g _ (s0 :: rest) allowZwjf
    have hvowel := fun i => @charAt_map_isVowel g _ (s0 :: rest) i
    have hclash := fun n => @initialVowelClash_map g _ (s0 :: rest) n
    have hdecomposition := fun n => @validateDecomposition_map g _ (s0 :: rest) n
    rcases rest with _ | ⟨s1, _ | ⟨s2, rest⟩⟩
    all_goals
      simp only [List.map_cons, List.map_nil] at honset hprefix hvowel hclash hdecomposition
      simp only [validateImpl, List.map_cons, List.map_nil, honset, hprefix, hvowel, hclash,
        hdecomposition, KeepsLetters.base, KeepsLetters.isVowel, List.length_cons, List.length_map,
        List.length_nil, reduceCtorEq]

/-- The tones and marks stay where they may be. -/
@[simp] lemma checkToneModInvariant_map :
    checkToneModInvariant (states.map g) = checkToneModInvariant states := by
  simp only [checkToneModInvariant, List.filter_map, comp_isVowel, comp_hasTone, List.any_map,
    comp_hasModifier]
  generalize (states.filter (·.isVowel)).filter (·.hasTone) = toned
  rcases toned with _ | ⟨s, _ | ⟨t, rest⟩⟩ <;> simp

/-- The state of the syllable is that of the letters. -/
@[simp] lemma validateSyllableState_map :
    validateSyllableState (states.map g) allowZwjf = validateSyllableState states allowZwjf := by
  simp [validateSyllableState]

end Phonology

/-- A consonant of a cluster is one by its letter. -/
@[simp] lemma isClusterConsonant_map :
    isClusterConsonant (states.map g) i = isClusterConsonant states i := by
  simp [isClusterConsonant]

/-- The scan for vowel, consonant, vowel reads the letters alone. -/
@[simp] lemma vcvScan_map {fuel : Nat} : vcvScan fuel (states.map g) = vcvScan fuel states := by
  induction fuel generalizing states with
  | zero => rfl
  | succ fuel ih =>
    simp only [vcvScan, List.dropWhile_map, List.takeWhile_map, comp_isVowel, comp_not_isVowel, ih,
      List.map_eq_nil_iff, List.any_map, comp_hasModifier]
    congr 1
    generalize ((states.dropWhile (!·.isVowel)).dropWhile (·.isVowel)).takeWhile (!·.isVowel) =
      consonants
    rcases consonants with _ | ⟨s, _ | ⟨t, rest⟩⟩ <;> simp

/-- The pattern vowel, consonant, vowel is one of the letters. -/
@[simp] lemma hasStructuralVCVPattern_map :
    hasStructuralVCVPattern (states.map g) = hasStructuralVCVPattern states := by
  simp [hasStructuralVCVPattern]

/-- A pair of vowels is invalid by its letters. -/
@[simp] lemma hasInvalidAdjacentVowelPair_map :
    hasInvalidAdjacentVowelPair (states.map g) = hasInvalidAdjacentVowelPair states := by
  simp [hasInvalidAdjacentVowelPair]

/-- The bias of a foreign initial is that of the letters. -/
@[simp] lemma checkZwjfInitialBias_map {cfg prot} :
    checkZwjfInitialBias (states.map g) cfg prot = checkZwjfInitialBias states cfg prot := by
  cases states <;> simp [checkZwjfInitialBias]

/-- The `d` for the stroke is found by the letters. -/
@[simp] lemma findStrokeDTarget_map : findStrokeDTarget (states.map g) = findStrokeDTarget states := by
  simp only [findStrokeDTarget, List.length_map, charAt_map_isD]
  cases lastIdx? states.length fun i => (charAt states i).isD with
  | none => rfl
  | some d =>
    simp only [← List.map_take, ← List.map_reverse, List.dropWhile_map, comp_isD]
    cases (states.take d).reverse.dropWhile (·.isD) <;> simp

/-- A coda blocks the stroke by its letters. -/
@[simp] lemma isStrokeDBlockedByCoda_map :
    isStrokeDBlockedByCoda (states.map g) i = isStrokeDBlockedByCoda states i := by
  simp only [isStrokeDBlockedByCoda, List.length_map, charAt_map_isVowel, List.getLast?_map]
  cases states.getLast? <;> simp

/-- The letters tell whether the stroke is blocked as English. -/
@[simp] lemma shouldBlockStrokeDAsEnglish_map :
    shouldBlockStrokeDAsEnglish (states.map g) i = shouldBlockStrokeDAsEnglish states i := by
  simp [shouldBlockStrokeDAsEnglish]

/-- A mark to escape is found by the letters. -/
@[simp] lemma hasEscapableModifier_map {mod isStroke} :
    hasEscapableModifier (states.map g) mod isStroke = hasEscapableModifier states mod isStroke := by
  simp [hasEscapableModifier, Function.comp_def]

/-- The toned vowel is found by the letters. -/
@[simp] lemma findTonedVowelIndex_map :
    findTonedVowelIndex (states.map g) = findTonedVowelIndex states := by
  simp [findTonedVowelIndex]

/-- A consonant stands between two places by the letters. -/
@[simp] lemma hasConsonantBetween_map :
    hasConsonantBetween (states.map g) i j = hasConsonantBetween states i j := by
  simp [hasConsonantBetween]

/-- The letters tell whether the relocation of the tone is blocked. -/
@[simp] lemma isToneRelocBlockedByP4_map {modernOrtho} :
    isToneRelocBlockedByP4 (states.map g) i modernOrtho =
      isToneRelocBlockedByP4 states i modernOrtho := by
  simp [isToneRelocBlockedByP4]

/-- The `u` of `qu` is told by the letters. -/
@[simp] lemma isQUGlide_map : isQUGlide (states.map g) i = isQUGlide states i := by
  simp [isQUGlide]

/-- What is no vowel is told by the letters. -/
@[simp] lemma hasNonVowelAfter_map : hasNonVowelAfter (states.map g) i = hasNonVowelAfter states i := by
  simp [hasNonVowelAfter, ← List.map_drop, Function.comp_def]

/-- The `u` of the cluster `qu` is told by the letters. -/
@[simp] lemma isQUClusterU_map : isQUClusterU (states.map g) i = isQUClusterU states i := by
  simp [isQUClusterU]

/-- The cluster `qu` is told by the letters. -/
@[simp] lemma isInQUCluster_map : isInQUCluster (states.map g) = isInQUCluster states := by
  simp [isInQUCluster]

/-- A triphthong at the end is told by the letters. -/
@[simp] lemma endsWithTriphthong_map :
    endsWithTriphthong (states.map g) = endsWithTriphthong states := by
  simp [endsWithTriphthong]

/-- The scan for the horn reads the letters alone. -/
@[simp] lemma hornScan_map : hornScan (states.map g) = hornScan states := by
  simp [hornScan]

/-- A pair of vowels is found by the letters. -/
@[simp] lemma vowelPair?_map {first second : Char} :
    vowelPair? (states.map g) first second = vowelPair? states first second := by
  simp [vowelPair?]

/-- The `u` for the horn is found by the letters. -/
@[simp] lemma hornTargetU_map {scan : HornScan} {u : Nat} :
    EngineState.hornTargetU (states.map g) scan u = EngineState.hornTargetU states scan u := by
  simp [EngineState.hornTargetU]

section Locale
variable [WideLocale]

/-- A coda is invalid by its letters. -/
@[simp] lemma isInvalidVietnameseCoda_map :
    isInvalidVietnameseCoda (states.map g) = isInvalidVietnameseCoda states := by
  simp [isInvalidVietnameseCoda]

/-- A word is hard English by its letters. -/
@[simp] lemma isHardEnglishWord_map : isHardEnglishWord (states.map g) = isHardEnglishWord states := by
  simp [isHardEnglishWord]

/-- A sequence around `y` is valid by its letters. -/
@[simp] lemma isValidVietnameseYSequence_map :
    isValidVietnameseYSequence (states.map g) = isValidVietnameseYSequence states := by
  rcases states with _ | ⟨s0, _ | ⟨s1, _ | ⟨s2, rest⟩⟩⟩ <;> simp [isValidVietnameseYSequence]

/-- The soft bias is that of the letters. -/
@[simp] lemma checkSoftEnglishBias_map :
    checkSoftEnglishBias (states.map g) = checkSoftEnglishBias states := by
  rcases states with _ | ⟨s0, _ | ⟨s1, rest⟩⟩
  · rfl
  · simp [checkSoftEnglishBias]
  · have hsequence := @isValidVietnameseYSequence_map g _ (s0 :: s1 :: rest) _
    simp only [List.map_cons] at hsequence
    simp [checkSoftEnglishBias, hsequence]

/-- The bias is that of the letters. -/
@[simp] lemma checkEnglishBias_map {prot} :
    checkEnglishBias (states.map g) prot = checkEnglishBias states prot := by
  simp [checkEnglishBias]

/-- The bias computed anew is that of the letters. -/
@[simp] lemma recalcEnglishBias_map : recalcEnglishBias (states.map g) = recalcEnglishBias states := by
  simp [recalcEnglishBias]

/-- A stop coda at the end is told by the letters. -/
@[simp] lemma hasStopFinalCoda_map : hasStopFinalCoda (states.map g) = hasStopFinalCoda states := by
  simp only [hasStopFinalCoda, List.length_map, charAt_map_isVowel]
  split
  · rfl
  · rw [← List.map_drop]
    generalize states.drop _ = tail
    rcases tail with _ | ⟨s, _ | ⟨t, _ | ⟨r, tail⟩⟩⟩ <;> simp

/-- A tone clashes with a stop coda by the letters. -/
@[simp] lemma isToneStopCodaMismatch_map :
    isToneStopCodaMismatch (states.map g) = isToneStopCodaMismatch states := by
  simp only [isToneStopCodaMismatch, hasStopFinalCoda_map, List.find?_map, comp_hasTone]
  cases states.find? (·.hasTone) <;> simp

/-- The prefixes before `uo` are told by the letters. -/
@[simp] lemma isUOEdgeCasePrefix_map :
    isUOEdgeCasePrefix (states.map g) i = isUOEdgeCasePrefix states i := by
  simp [isUOEdgeCasePrefix]

/-- A state shows as its letter, modifier, tone and case do. -/
lemma compose_congr {s t : CharState} (hbase : s.base = t.base) (hmod : s.mod = t.mod)
    (htone : s.tone = t.tone) (hupper : s.isUpper = t.isUpper) : compose s = compose t := by
  cases s
  cases t
  cases hbase
  cases hmod
  cases htone
  cases hupper
  rfl

/-- The vowels that may carry the tone stand at the same places. -/
@[simp] lemma toneVowelIdxs_map : toneVowelIdxs (states.map g) = toneVowelIdxs states := by
  simp only [toneVowelIdxs, List.length_map, charAt_map_isVowel, isClusterConsonant_map]
  congr 2
  funext i
  rw [compose_congr (t := { charAt states i with tone := .none, isUpper := false })] <;> simp

/-- The target of the tone stands at the same place. -/
@[simp] lemma findToneTarget_map {modernOrtho} :
    findToneTarget modernOrtho (states.map g) = findToneTarget modernOrtho states := by
  have hvowel : ∀ i, compose { charAt (states.map g) i with tone := .none, isUpper := false } =
      compose { charAt states i with tone := .none, isUpper := false } :=
    fun i => compose_congr charAt_map_base charAt_map_mod rfl rfl
  have hcoda : ∀ s, compose { g s with isUpper := false } = compose { s with isUpper := false } :=
    fun s => compose_congr (by simp) (by simp) (by simp) rfl
  simp only [findToneTarget, toneVowelIdxs_map, hvowel, ← List.map_drop, List.map_map,
    Function.comp_def, hcoda]

end Locale

end NextKey
