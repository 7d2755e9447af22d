import NextKey.Engine.MarkEscapes
import NextKey.Engine.SpellState
import NextKey.Engine.ToneTarget

/-!
# The gates of a tone key

When the gates of `HandleToneFsm` let a Telex tone through, under a configuration that checks the
spelling and has no exclusions (`toneGates_open_iff`). A word whose vowels stand together has no V+C+V
pattern, and modifiers only take adjacent plain vowels away. A key that passes applies the tone or
escapes it, and nothing else of `PushChar` runs (`pushChar_tone`).
-/

namespace NextKey

open Phonology

variable {states states' : List CharState}

/-- Behind the vowels that stand together is no other one. -/
lemma Phonology.Together.tail (h : Together states) :
    ∀ s ∈ (states.dropWhile (!·.isVowel)).dropWhile (·.isVowel), s.isVowel = false := by
  obtain ⟨front, nucleus, back, rfl, hfront, hnucleus, hback⟩ := h
  have hskip : (front ++ nucleus ++ back).dropWhile (!·.isVowel) =
      (nucleus ++ back).dropWhile (!·.isVowel) := by
    rw [List.append_assoc, List.dropWhile_append_of_pos]
    intro s hs
    rw [hfront s hs]
    rfl
  rw [hskip]
  cases nucleus with
  | nil =>
    have hnone : back.dropWhile (!·.isVowel) = [] := by
      rw [List.dropWhile_eq_nil_iff]
      intro s hs
      rw [hback s hs]
      rfl
    rw [List.nil_append, hnone]
    exact List.forall_mem_nil _
  | cons s nucleus =>
    have hvowel : s.isVowel = true := hnucleus s List.mem_cons_self
    have hsplit : Split (s :: nucleus ++ back) (s :: nucleus) back :=
      ⟨rfl, hnucleus, fun f hf => hback f (List.mem_of_mem_head? hf)⟩
    have hstart : (s :: nucleus ++ back).dropWhile (!·.isVowel) = s :: nucleus ++ back := by
      rw [List.cons_append, List.dropWhile_cons, hvowel]
      rfl
    rw [hstart, hsplit.dropWhile_eq]
    exact hback

/-- Vowels that stand together have no V+C+V pattern. -/
lemma hasStructuralVCVPattern_of_together (h : Together states) :
    hasStructuralVCVPattern states = false := by
  have hscan : ∀ {fuel}, vcvScan fuel states = false := by
    intro fuel
    cases fuel with
    | zero => rfl
    | succ fuel =>
      have hnext :
          ((states.dropWhile (!·.isVowel)).dropWhile (·.isVowel)).dropWhile (!·.isVowel) = [] := by
        rw [List.dropWhile_eq_nil_iff]
        intro s hs
        rw [h.tail s hs]
        rfl
      unfold vcvScan
      dsimp only
      rw [if_pos hnext]
  rw [hasStructuralVCVPattern, hscan, Bool.and_false]

/-- The same bases stand together. -/
lemma SameBases.together (h : SameBases states states') (ht : Together states) : Together states' := by
  obtain ⟨front, nucleus, back, rfl, hfront, hnucleus, hback⟩ := ht
  unfold SameBases at h
  rw [List.map_append, List.map_append, List.append_assoc, List.map_eq_append_iff] at h
  obtain ⟨front', rest, rfl, hf, h⟩ := h
  rw [List.map_eq_append_iff] at h
  obtain ⟨nucleus', back', rfl, hn, hb⟩ := h
  have hread : ∀ {l l' : List CharState} {v : Bool}, l'.map (·.base) = l.map (·.base) →
      (∀ s ∈ l, s.isVowel = v) → ∀ s ∈ l', s.isVowel = v := by
    intro l l' v heq hl s hs
    have hbase : s.base ∈ l.map (·.base) := by
      rw [← heq]
      exact List.mem_map_of_mem hs
    obtain ⟨t, ht, hts⟩ := List.mem_map.1 hbase
    rw [← hl t ht, CharState.isVowel, ← hts]
    rfl
  exact ⟨front', nucleus', back', (List.append_assoc ..).symm, hread hf hfront, hread hn hnucleus,
    hread hb hback⟩

/-- A pair that is invalid with more modifiers is invalid with fewer. -/
lemma hasInvalidAdjacentVowelPair_mono (hsame : SameBases states states')
    (hmods : ∀ i, (charAt states i).hasModifier → (charAt states' i).hasModifier)
    (h : hasInvalidAdjacentVowelPair states = false) : hasInvalidAdjacentVowelPair states' = false := by
  unfold hasInvalidAdjacentVowelPair at h ⊢
  rw [List.any_eq_false] at h ⊢
  intro i hi
  rw [hsame.length_eq] at hi
  have hplain : ∀ {k}, (charAt states' k).hasModifier = false →
      (charAt states k).hasModifier = false := by
    intro k hk
    rw [Bool.eq_false_iff] at hk ⊢
    exact fun hk' => hk (hmods k hk')
  have hpair := h i hi
  dsimp only at hpair ⊢
  rw [hsame.isVowel, hsame.isVowel, hsame.isClusterConsonant, hsame.charAt, hsame.charAt]
  revert hpair
  cases hm : (charAt states' i).hasModifier with
  | true => simp
  | false =>
    cases hm' : (charAt states' (i + 1)).hasModifier with
    | true => simp
    | false =>
      rw [hplain hm, hplain hm']
      exact id

namespace Phonology

variable {allowZwjf : Bool} {n : Nat}

/-- An initial consonant has three letters at most. -/
lemma parseInitialConsonant_le : parseInitialConsonant states allowZwjf ≤ 3 := by
  unfold parseInitialConsonant
  cases states with
  | nil => exact Nat.zero_le 3
  | cons s0 rest =>
    dsimp only
    repeat' split
    all_goals decide

/-- A coda has two at most. -/
lemma parseFinalConsonant_le_two : parseFinalConsonant states ≤ 2 := by
  unfold parseFinalConsonant
  cases states with
  | nil => exact Nat.zero_le 2
  | cons s0 rest =>
    dsimp only
    repeat' split
    all_goals decide

/-- What follows the onset of a decomposition: three vowels and two consonants at most. -/
lemma length_of_decomposition (h : validateDecomposition states n ≠ .invalid) :
    states.length ≤ n + 5 := by
  by_cases hrest : states.drop n = []
  · exact (List.drop_eq_nil_iff.1 hrest).trans (Nat.le_add_right n 5)
  · have hback : ((states.drop n).dropWhile (·.isVowel)).length ≤ 2 := by
      rcases parse_of_decomposition h with hnil | hparse
      · rw [hnil]
        exact Nat.zero_le 2
      · rw [← hparse]
        exact parseFinalConsonant_le_two
    have hvowels : ((states.drop n).takeWhile (·.isVowel)).length ≤ 3 := by
      by_contra hlong
      have hkey : vowelKey? ((states.drop n).takeWhile (·.isVowel)) = none := by
        rw [vowelKey?, if_neg fun hshort => hlong hshort.2]
      simp only [validateDecomposition, if_neg hrest, hkey] at h
      exact h rfl
    have hsplit := congrArg List.length (@List.takeWhile_append_dropWhile _ (·.isVowel) (states.drop n))
    rw [List.length_append, List.length_drop] at hsplit
    omega

/-- A buffer that is not invalid has eight letters at most. -/
lemma length_of_ne_invalid (h : validateImpl states allowZwjf ≠ .invalid) : states.length ≤ 8 := by
  by_cases hopen : Opens states allowZwjf
  · have hinvalid := (validateImpl_of_opens hopen).2
    by_cases hqu : bareQu states = true
    · obtain ⟨s0, s1, rfl, -⟩ := bareQu_eq_true.1 hqu
      exact Nat.le_of_ble_eq_true rfl
    · have hsome : ∃ n ∈ onsetLengths states allowZwjf, validateDecomposition states n ≠ .invalid := by
        by_contra hnone
        refine h (hinvalid.2 ⟨Bool.eq_false_iff.2 hqu, fun n hn => ?_⟩)
        by_contra hvalid
        exact hnone ⟨n, hn, hvalid⟩
      obtain ⟨n, hn, hdec⟩ := hsome
      have hlength := length_of_decomposition hdec
      have honset : n ≤ 3 := by
        rw [onsetLengths, List.mem_cons] at hn
        rcases hn with rfl | hn
        · exact parseInitialConsonant_le
        · split at hn
          · rw [List.mem_singleton.1 hn]
            decide
          · cases hn
      omega
  · rw [validateImpl_of_not_opens hopen] at h
    have hprefix : isValidConsonantPrefix states allowZwjf := by
      by_contra hnot
      rw [if_neg hnot] at h
      exact h rfl
    rcases states with _ | ⟨s0, _ | ⟨s1, _ | ⟨s2, _ | ⟨s3, states⟩⟩⟩⟩
    case cons.cons.cons.cons => cases hprefix
    all_goals exact Nat.le_of_ble_eq_true rfl

end Phonology

section Locale
variable [WideLocale] {cfg : TypingConfig} {st : EngineState} {c lower : Char} {tone : Tone}

/-- The same bases have the same stop coda. -/
lemma SameBases.hasStopFinalCoda (h : SameBases states states') :
    hasStopFinalCoda states' = hasStopFinalCoda states := by
  have hmap : ∀ n, (states'.drop n).map (·.base) = (states.drop n).map (·.base) := by
    intro n
    rw [List.map_drop, List.map_drop, h]
  have hvowel : (fun i => (NextKey.charAt states' i).isVowel) =
      fun i => (NextKey.charAt states i).isVowel := funext fun _ => h.isVowel
  unfold NextKey.hasStopFinalCoda
  rw [hvowel, h.length_eq]
  split
  · rfl
  · next v _ =>
    have hdrop := hmap (v + 1)
    generalize states'.drop (v + 1) = tail' at hdrop ⊢
    generalize states.drop (v + 1) = tail at hdrop ⊢
    rcases tail with _ | ⟨s, _ | ⟨t, _ | ⟨r, tail⟩⟩⟩ <;>
      rcases tail' with _ | ⟨s', _ | ⟨t', _ | ⟨r', tail'⟩⟩⟩ <;> simp_all

/-- What the English protection lets through. -/
lemma toneEnglishGate_open {isTelexTone : Bool} (h : (toneEnglishGate st c isTelexTone).2 = false) :
    st.engProt.bias ≠ .hardEnglish ∧ hasInvalidAdjacentVowelPair st.states = false := by
  unfold toneEnglishGate at h
  split at h
  · cases h
  · next hhard =>
    refine ⟨hhard, Bool.eq_false_iff.2 fun hpair => ?_⟩
    -- a toned key that is not insisted on is a literal, and so is one behind an invalid pair
    generalize (if st.engProt.bias = .softEnglish then updateToneInsistence c st.engProt
      else (st.engProt, true)) = insistence at h
    dsimp only at h
    split at h
    · cases h
    · rw [if_pos (.inr hpair)] at h
      cases h

/-- Outside the English words the patterns decide. -/
lemma toneEnglishGate_iff {isTelexTone : Bool} (hhard : st.engProt.bias ≠ .hardEnglish)
    (hsoft : st.engProt.bias ≠ .softEnglish) (hvcv : hasStructuralVCVPattern st.states = false) :
    (toneEnglishGate st c isTelexTone).2 = false ↔ hasInvalidAdjacentVowelPair st.states = false := by
  refine ⟨fun h => (toneEnglishGate_open h).2, fun hpair => ?_⟩
  have hstructural : (if isTelexTone then isHardEnglishToneContext st.states c
      else hasStructuralVCVPattern st.states) = false := by
    split
    · rw [isHardEnglishToneContext, hvcv, Bool.and_false]
    · exact hvcv
  unfold toneEnglishGate
  rw [if_neg hhard]
  dsimp only
  rw [if_neg hsoft]
  dsimp only
  rw [if_neg (by simp), hstructural, hpair, if_neg (by simp)]

omit [WideLocale] in
/-- A Telex tone key is a letter. -/
lemma classifyTelex_tone (h : (classifyTelex lower).toTone ≠ .none) :
    (classifyTelex lower).isTone ∧ classifyTelex lower ≠ .clearTone ∧ (lower < '0' ∨ '9' < lower) := by
  unfold classifyTelex at h ⊢
  split at h
  case h_2 => exact ⟨rfl, by decide, by decide⟩
  case h_3 => exact ⟨rfl, by decide, by decide⟩
  case h_4 => exact ⟨rfl, by decide, by decide⟩
  case h_5 => exact ⟨rfl, by decide, by decide⟩
  case h_6 => exact ⟨rfl, by decide, by decide⟩
  all_goals exact absurd rfl h

/-- Grave, hook and tilde do not go before a stop coda. -/
def refusesStop (states : List CharState) (tone : Tone) : Bool :=
  (tone == .grave || tone == .hook || tone == .tilde) && hasStopFinalCoda states

namespace EngineState

/-- The gates of a Telex tone, with the spell check on and no exclusions. -/
lemma toneGates_open_iff (hcheck : cfg.effectiveSpellCheck) (hexclusions : cfg.spellExclusions = [])
    (hescape : st.escape = .none) (hletter : lower < '0' ∨ '9' < lower) :
    (toneGates cfg st tone c lower).2 = false ↔
      (st.spellCheckDisabled = true → toneSpellBlocked cfg st.states tone = false) ∧
        isBlockedEnglishTone st.rawInput = false ∧ (toneEnglishGate st c true).2 = false ∧
          (st.spellCheckDisabled = false → refusesStop st.states tone = false) := by
  have hbypass : cfg.allowEnglishBypass = false := by
    rw [TypingConfig.effectiveSpellCheck, Bool.and_eq_true, Bool.not_eq_true'] at hcheck
    exact hcheck.2
  have hexclusion : ∀ i?, toneMatchesExclusion cfg st.states i? tone = false := by
    intro i?
    unfold toneMatchesExclusion
    cases i? with
    | none => rfl
    | some i =>
      dsimp only
      rw [hexclusions]
      rfl
  unfold toneGates
  dsimp only
  rw [decide_eq_true hletter, toneBlocked, hcheck, hescape, hbypass, hexclusion, refusesStop]
  rw [if_neg Bool.false_ne_true]
  cases st.spellCheckDisabled <;> cases toneSpellBlocked cfg st.states tone <;>
    cases isBlockedEnglishTone st.rawInput <;> simp

/-- A tone key that passes the gates applies the tone or escapes it. -/
lemma pushChar_tone (hq : cfg.QuickOff) (hm : cfg.inputMethod = .telex) (hp : st.Plain)
    (hne : st.states ≠ []) (hescape : st.escape = .none)
    (htone : (classifyTelex (towlower c)).toTone ≠ .none)
    (hopen : (toneGates cfg (st.press c) (classifyTelex (towlower c)).toTone c (towlower c)).2 = false)
    {st' : EngineState}
    (h : processTone cfg { st.press c with
      engProt := (toneGates cfg (st.press c) (classifyTelex (towlower c)).toTone c (towlower c)).1 }
        (classifyTelex (towlower c)).toTone c = some st') :
    st.pushChar cfg c = afterTone cfg st' := by
  obtain ⟨haction, hclear, -⟩ := classifyTelex_tone htone
  have hfsm : handleToneFsm cfg (st.press c) (classifyTelex (towlower c)) c (towlower c) (iswupper c) =
      (afterTone cfg st', true) := by
    have hstates : (st.press c).states ≠ [] := hne
    unfold handleToneFsm
    rw [if_neg hstates, if_neg hclear, if_neg htone]
    dsimp only
    rw [hopen, if_neg Bool.false_ne_true, h]
  rw [pushChar_off hq hp, classify_telex hm, dispatch_eq, if_pos ⟨hescape, haction⟩, hfsm]
  rfl

/-- A tone key that does not pass is a literal. -/
lemma pushChar_refused (hq : cfg.QuickOff) (hm : cfg.inputMethod = .telex) (hp : st.Plain)
    (hne : st.states ≠ []) (hescape : st.escape = .none)
    (htone : (classifyTelex (towlower c)).toTone ≠ .none)
    (hshut : (toneGates cfg (st.press c) (classifyTelex (towlower c)).toTone c (towlower c)).2 = true) :
    (st.pushChar cfg c).states = st.states ++ [(st.press c).keyState c] := by
  obtain ⟨haction, hclear, -⟩ := classifyTelex_tone htone
  have hfsm : handleToneFsm cfg (st.press c) (classifyTelex (towlower c)) c (towlower c) (iswupper c) =
      (asLiteral cfg { st.press c with
        engProt := (toneGates cfg (st.press c) (classifyTelex (towlower c)).toTone c (towlower c)).1 }
          (towlower c) (iswupper c), true) := by
    have hstates : (st.press c).states ≠ [] := hne
    unfold handleToneFsm
    rw [if_neg hstates, if_neg hclear, if_neg htone]
    dsimp only
    rw [hshut, if_pos rfl]
  rw [pushChar_off hq hp, classify_telex hm, dispatch_eq, if_pos ⟨hescape, haction⟩, hfsm]
  rfl

end EngineState

end Locale

end NextKey
