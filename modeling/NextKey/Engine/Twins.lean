import Mathlib.Tactic.MkIffOfInductiveProp
import NextKey.Engine.Caseless
import NextKey.Engine.Growth

/-!
# Two words in different case

The tone keys and the regular keys of an engine that has forgotten its case, and from them the runs: two
words that differ in case alone, typed without a key where the source looks at the case, leave the same
states up to case.
-/

namespace NextKey

namespace EngineState

variable {st st' : EngineState} {c : Char} {i : Nat} [WideLocale] {cfg : TypingConfig}

/-- The exclusions take a tone alike in the buffer and in the same buffer in lower case. -/
def ToneAlike (cfg : TypingConfig) (states : List CharState) (tone : Tone) : Prop :=
  toneMatchesExclusion cfg (states.map .caseless) (findToneTarget cfg.modernOrtho states) tone =
    toneMatchesExclusion cfg states (findToneTarget cfg.modernOrtho states) tone

instance ToneAlike.decidable {states tone} : Decidable (ToneAlike cfg states tone) :=
  inferInstanceAs (Decidable (_ = _))

/-- The spell check blocks a tone in lower case as it does. -/
lemma toneSpellBlocked_caseless {states : List CharState} {tone : Tone}
    (h : ToneAlike cfg states tone) :
    toneSpellBlocked cfg (states.map .caseless) tone = toneSpellBlocked cfg states tone := by
  unfold ToneAlike at h
  simp only [toneSpellBlocked, findToneTarget_map]
  cases htarget : findToneTarget cfg.modernOrtho states with
  | none => rfl
  | some target =>
    rw [htarget] at h
    have hreplaced : (states.map CharState.caseless).modify target (fun s => { s with tone := tone }) =
        (states.modify target fun s => { s with tone := tone }).map .caseless :=
      modify_caseless fun _ => rfl
    simp only [charAt_map_tone, charAt_map_hasTone, h, hreplaced, Phonology.validateSyllableState_map]

/-- A tone is blocked in lower case as it is. -/
lemma toneBlocked_caseless {tone isTelexTone} (h : ToneAlike cfg st.states tone) :
    toneBlocked cfg st.caseless tone isTelexTone = toneBlocked cfg st tone isTelexTone := by
  have hspell := toneSpellBlocked_caseless h
  unfold ToneAlike at h
  simp only [toneBlocked, caseless_spellCheckDisabled, caseless_states, caseless_escape, hspell,
    caseless_rawInput, isBlockedEnglishTone, matchesRawPrefix_caseless, findToneTarget_map, h]

/-- The English context of a tone is one in lower case. -/
lemma isHardEnglishToneContext_caseless {states : List CharState} :
    isHardEnglishToneContext (states.map .caseless) c.toLower = isHardEnglishToneContext states c := by
  simp only [isHardEnglishToneContext, isHardEnglishEnd, towlower_toLower, hasStructuralVCVPattern_map]

/-- The English gate of a tone, in lower case. -/
lemma toneEnglishGate_caseless {isTelexTone}
    (h : st.engProt.bias = .softEnglish → SameToneKey st.engProt c) :
    toneEnglishGate st.caseless c.toLower isTelexTone =
      Prod.map .caseless id (toneEnglishGate st c isTelexTone) := by
  have hstructural : (if isTelexTone then isHardEnglishToneContext st.caseless.states c.toLower
      else hasStructuralVCVPattern st.caseless.states) =
      (if isTelexTone then isHardEnglishToneContext st.states c
        else hasStructuralVCVPattern st.states) := by
    rw [caseless_states, isHardEnglishToneContext_caseless, hasStructuralVCVPattern_map]
  have hpair : hasInvalidAdjacentVowelPair st.caseless.states = hasInvalidAdjacentVowelPair st.states :=
    hasInvalidAdjacentVowelPair_map
  unfold toneEnglishGate
  by_cases hhard : st.engProt.bias = .hardEnglish
  · rw [if_pos hhard, if_pos (show st.caseless.engProt.bias = .hardEnglish from hhard)]
    rfl
  · rw [if_neg hhard, if_neg (show ¬st.caseless.engProt.bias = .hardEnglish from hhard)]
    dsimp only
    rw [hstructural, hpair]
    generalize (if isTelexTone then isHardEnglishToneContext st.states c
      else hasStructuralVCVPattern st.states) = structural
    by_cases hsoft : st.engProt.bias = .softEnglish
    · rw [if_pos hsoft, if_pos (show st.caseless.engProt.bias = .softEnglish from hsoft),
        caseless_engProt, updateToneInsistence_caseless (h hsoft)]
      generalize updateToneInsistence c st.engProt = insisted
      obtain ⟨prot, insisted⟩ := insisted
      dsimp only [Prod.map_apply, id]
      split
      · rfl
      · split <;> rfl
    · rw [if_neg hsoft, if_neg (show ¬st.caseless.engProt.bias = .softEnglish from hsoft)]
      dsimp only
      split
      · rfl
      · split <;> rfl

/-- The gates of a tone, in lower case. -/
lemma toneGates_caseless {tone} (h : ToneAlike cfg st.states tone)
    (hkey : toneBlocked cfg st tone (decide (towlower c < '0' ∨ '9' < towlower c)) = false →
      cfg.allowEnglishBypass = false → st.engProt.bias = .softEnglish → SameToneKey st.engProt c) :
    toneGates cfg st.caseless tone c.toLower (towlower c) =
      Prod.map .caseless id (toneGates cfg st tone c (towlower c)) := by
  have hcoda : hasStopFinalCoda st.caseless.states = hasStopFinalCoda st.states := hasStopFinalCoda_map
  unfold toneGates
  dsimp only
  rw [toneBlocked_caseless h, hcoda, caseless_spellCheckDisabled, caseless_engProt]
  split
  · rfl
  · next hopen =>
    split
    · rfl
    · next hbypass =>
      rw [toneEnglishGate_caseless (hkey (Bool.eq_false_iff.2 hopen) (Bool.eq_false_iff.2 hbypass))]
      rfl

omit [WideLocale] in
/-- A tone is canceled alike. -/
lemma cancelTone_caseless : st.caseless.cancelTone i = (st.cancelTone i).caseless := by
  have huntoned : ({ st.caseless with
      states := st.caseless.states.modify i fun s => { s with tone := .none } } : EngineState) =
      ({ st with states := st.states.modify i fun s => { s with tone := .none } } :
        EngineState).caseless := by
    simp only [caseless]
    rw [modify_caseless]
    intro s
    rfl
  unfold cancelTone
  rw [huntoned, caseless_states, charAt_caseless, CharState.caseless_toneRawIdx]
  cases (charAt st.states i).toneRawIdx with
  | none => rfl
  | some idx =>
    dsimp only
    rw [eraseConsumedRaw_caseless, caseless_states, modify_caseless]
    · rfl
    · intro s
      rfl

/-- A tone is set alike. -/
lemma processTone_caseless {tone} (hc : AsciiKey c) :
    processTone cfg st.caseless tone c.toLower = (processTone cfg st tone c).map caseless := by
  have htarget : findToneTarget cfg.modernOrtho st.caseless.states =
      findToneTarget cfg.modernOrtho st.states := findToneTarget_map
  unfold processTone
  rw [htarget]
  cases findToneTarget cfg.modernOrtho st.states with
  | none => rfl
  | some target =>
    have htone : (charAt st.caseless.states target).tone = (charAt st.states target).tone :=
      charAt_map_tone
    dsimp only
    by_cases hsame : (charAt st.states target).tone = tone
    · rw [if_pos hsame, if_pos (htone.trans hsame), cancelTone_caseless, processKey_caseless hc]
      rfl
    · rw [if_neg hsame, if_neg (htone ▸ hsame), caseless_states, modify_caseless, caseless_rawInput,
         List.length_map]
      · rfl
      · intro s
        rfl

/-- The tone is cleared alike. -/
lemma processClearTone_caseless :
    processClearTone cfg st.caseless = (processClearTone cfg st).map caseless := by
  have htarget : findToneTarget cfg.modernOrtho st.caseless.states =
      findToneTarget cfg.modernOrtho st.states := findToneTarget_map
  unfold processClearTone
  rw [htarget]
  cases findToneTarget cfg.modernOrtho st.states with
  | none => rfl
  | some target =>
    have htone : (charAt st.caseless.states target).tone = (charAt st.states target).tone :=
      charAt_map_tone
    dsimp only
    by_cases hnone : (charAt st.states target).tone = .none
    · rw [if_pos hnone, if_pos (htone.trans hnone)]
      rfl
    · rw [if_neg hnone, if_neg (htone ▸ hnone), caseless_states, modify_caseless]
      · rfl
      · intro s
        rfl

/-- An engine and one that has forgotten its case, but for the verdict of the spell check, where each
may hold its own. -/
structure Twin (cfg : TypingConfig) (st tw : EngineState) : Prop where
  same : { tw with spellCheckDisabled := st.spellCheckDisabled } = st.caseless
  verdict : tw.spellCheckDisabled = st.spellCheckDisabled ∨
    st.spellCheckDisabled = updateSpellCheck st.states cfg ∧
      tw.spellCheckDisabled = updateSpellCheck tw.states cfg

/-- A state and the same in lower case are twins. -/
lemma Twin.refl : Twin cfg st st.caseless := ⟨rfl, .inl rfl⟩

/-- The buffers of twins differ in case only. -/
lemma Twin.states {tw} (h : Twin cfg st tw) : tw.states = st.states.map .caseless :=
  congrArg EngineState.states h.same

/-- The spell check may tell twins apart, and they stay twins. -/
lemma updateSpellState_twin : Twin cfg (st.updateSpellState cfg) (st.caseless.updateSpellState cfg) :=
  ⟨rfl, .inr ⟨rfl, rfl⟩⟩

/-- Where the exclusions take the buffers alike, so does the spell check. -/
lemma updateSpellCheck_caseless {states : List CharState}
    (h : isSpellExcluded (states.map .caseless) cfg.spellExclusions =
      isSpellExcluded states cfg.spellExclusions) :
    updateSpellCheck (states.map .caseless) cfg = updateSpellCheck states cfg := by
  simp only [updateSpellCheck, List.map_eq_nil_iff, h, Phonology.validateSyllableState_map]

/-- A twin has just forgotten its case when the exclusions take the buffers alike. -/
lemma Twin.eq_caseless {tw} (h : Twin cfg st tw)
    (hspell : isSpellExcluded (st.states.map .caseless) cfg.spellExclusions =
      isSpellExcluded st.states cfg.spellExclusions) : tw = st.caseless := by
  have hverdict : tw.spellCheckDisabled = st.spellCheckDisabled := by
    obtain hsame | ⟨hst, htw⟩ := h.verdict
    · exact hsame
    · rw [hst, htw, h.states, updateSpellCheck_caseless hspell]
  have htw : { tw with spellCheckDisabled := st.spellCheckDisabled } = tw := by rw [← hverdict]
  rw [← htw, h.same]

/-- The bias is computed anew alike. -/
lemma recalcBias_caseless : st.caseless.recalcBias cfg = (st.recalcBias cfg).caseless := by
  have hrecalc : recalcEnglishBias st.caseless.states = (recalcEnglishBias st.states).caseless :=
    recalcEnglishBias_map.trans recalcEnglishBias_caseless
  have hzwjf : checkZwjfInitialBias st.caseless.states cfg (recalcEnglishBias st.states).caseless =
      (checkZwjfInitialBias st.states cfg (recalcEnglishBias st.states)).caseless :=
    checkZwjfInitialBias_map.trans checkZwjfInitialBias_caseless
  unfold recalcBias
  rw [hrecalc]
  dsimp only
  rw [hzwjf]
  split <;> rfl

/-- What follows a tone leaves twins. -/
lemma afterTone_twin : Twin cfg (st.afterTone cfg) (st.caseless.afterTone cfg) := by
  have hautoUO : ∀ {st : EngineState},
      ({ st.caseless with states := applyAutoUO cfg st.caseless.states } : EngineState) =
      ({ st with states := applyAutoUO cfg st.states } : EngineState).caseless := by
    intro st
    rw [caseless_states, applyAutoUO_caseless]
    rfl
  unfold afterTone
  by_cases hescape : st.escape = .none
  · rw [if_pos hescape, if_pos (show st.caseless.escape = .none from hescape)]
    rw [show ({ st.caseless with
        engProt := { st.caseless.engProt with bias := .vietnamese } } : EngineState) =
      ({ st with engProt := { st.engProt with bias := .vietnamese } } : EngineState).caseless from rfl]
    dsimp only
    rw [hautoUO]
    exact updateSpellState_twin
  · rw [if_neg hescape, if_neg (show ¬st.caseless.escape = .none from hescape), recalcBias_caseless]
    dsimp only
    rw [hautoUO]
    exact updateSpellState_twin

/-- A literal key leaves twins. -/
lemma asLiteral_twin {isUpper} :
    Twin cfg (st.asLiteral cfg (towlower c) isUpper)
      (st.caseless.asLiteral cfg (towlower c) false) := by
  have hliteral : st.caseless.processChar (towlower c) false =
      (st.processChar (towlower c) isUpper).caseless := by
    unfold processChar
    rw [caseless_rawInput, List.length_map]
    exact @append_caseless st
      { base := towlower c, isUpper := isUpper, rawIdx := st.rawInput.length - 1 }
  unfold asLiteral
  rw [hliteral]
  exact updateSpellState_twin

/-- The result of a handler and that of its twin: the same decision, and the engine that passes the key
on has just forgotten its case. -/
def Follows (cfg : TypingConfig) (result twin : EngineState × Bool) : Prop :=
  twin.2 = result.2 ∧ if result.2 then Twin cfg result.1 twin.1 else twin.1 = result.1.caseless

/-- Twins that both consume the key. -/
lemma Twin.follows {tw} (h : Twin cfg st tw) : Follows cfg (st, true) (tw, true) := ⟨rfl, h⟩

/-- A key that both pass on. -/
lemma follows_passed : Follows cfg (st, false) (st.caseless, false) := ⟨rfl, rfl⟩

/-- A tone key takes twins to twins. -/
lemma handleToneFsm_follows {action isUpper} (hc : AsciiKey c)
    (htone : action.toTone ≠ .none → ToneAlike cfg st.states action.toTone)
    (hkey : toneBlocked cfg st action.toTone (decide (towlower c < '0' ∨ '9' < towlower c)) = false →
      cfg.allowEnglishBypass = false → st.engProt.bias = .softEnglish → st.states ≠ [] →
      action.toTone ≠ .none → SameToneKey st.engProt c) :
    Follows cfg (handleToneFsm cfg st action c (towlower c) isUpper)
      (handleToneFsm cfg st.caseless action c.toLower (towlower c) false) := by
  unfold handleToneFsm
  by_cases hnil : st.states = []
  · rw [if_pos hnil, if_pos (show st.caseless.states = [] by rw [caseless_states, hnil]; rfl)]
    exact follows_passed
  · rw [if_neg hnil, if_neg (show ¬st.caseless.states = [] by simpa using hnil)]
    by_cases hclear : action = .clearTone
    · rw [if_pos hclear, if_pos hclear]
      by_cases hspell : cfg.effectiveSpellCheck ∧ st.spellCheckDisabled
      · rw [if_pos hspell, if_pos (show _ ∧ st.caseless.spellCheckDisabled from hspell),
          processKey_caseless hc]
        exact updateSpellState_twin.follows
      · rw [if_neg hspell, if_neg (show ¬(_ ∧ st.caseless.spellCheckDisabled) from hspell),
          processClearTone_caseless]
        cases processClearTone cfg st with
        | none => exact follows_passed
        | some st' => exact updateSpellState_twin.follows
    · rw [if_neg hclear, if_neg hclear]
      by_cases hnone : action.toTone = .none
      · rw [if_pos hnone, if_pos hnone]
        exact follows_passed
      · rw [if_neg hnone, if_neg hnone, toneGates_caseless (htone hnone)
          fun hopen hbypass hsoft => hkey hopen hbypass hsoft hnil hnone]
        generalize toneGates cfg st action.toTone c (towlower c) = gates
        obtain ⟨prot, literal⟩ := gates
        rw [Prod.map_apply]
        dsimp only [id]
        have hprot : ({ st.caseless with engProt := prot.caseless } : EngineState) =
            ({ st with engProt := prot } : EngineState).caseless := rfl
        rw [hprot]
        split
        · exact asLiteral_twin.follows
        · rw [processTone_caseless hc]
          cases processTone cfg { st with engProt := prot } action.toTone c with
          | none => exact follows_passed
          | some st' => exact afterTone_twin.follows

/-- What follows a mark leaves twins. -/
lemma afterModifier_twin : Twin cfg (st.afterModifier cfg) (st.caseless.afterModifier cfg) := by
  unfold afterModifier
  dsimp only
  rw [caseless_states, applyAutoUO_caseless]
  exact updateSpellState_twin

/-- An escape shuts the modifier keys out. -/
lemma modifierOpen_of_escape {action lower checkRaw checkSpell} (h : st.escape ≠ .none) :
    modifierOpen cfg st action c lower checkRaw checkSpell = false := by
  have hescape : (st.escape == .none) = false := by simpa using h
  simp [modifierOpen, modifierBlocked, bne, hescape]

/-- A mark that is tried takes twins to twins. -/
lemma tryModifier_follows {action checkRaw checkSpell} (hm : cfg.inputMethod ≠ .userDefined)
    (ha : action.isTelexModifier ∨ action.isVniModifier) (hc : AsciiKey c)
    (h : st.escape = .none → ModifierAlike cfg st.states (towlower c) ∧ DoubledAlike cfg st.states c)
    (hdigit : action.isVniModifier → towlower c = c) :
    Follows cfg (tryModifier cfg st action c (towlower c) checkRaw checkSpell)
      (tryModifier cfg st.caseless action c.toLower (towlower c) checkRaw checkSpell) := by
  unfold tryModifier
  by_cases hescape : st.escape = .none
  · obtain ⟨hlower, hdoubled⟩ := h hescape
    rw [modifierOpen_caseless hc hlower]
    split
    · rw [processModifier_caseless hm ha hc hlower hdoubled hdigit]
      generalize processModifier cfg st action c = result
      obtain ⟨st', consumed⟩ := result
      cases consumed with
      | true => exact afterModifier_twin.follows
      | false => exact follows_passed
    · exact follows_passed
  · have hcaseless : st.caseless.escape ≠ .none := hescape
    rw [modifierOpen_of_escape hescape, modifierOpen_of_escape hcaseless]
    exact follows_passed

/-- A key with a mark takes twins to twins. -/
lemma handleModifierAction_follows {action} (hm : cfg.inputMethod ≠ .userDefined) (hc : AsciiKey c)
    (hmodifier : st.escape = .none → action.isTelexModifier ∨ action.isVniModifier →
      ModifierAlike cfg st.states (towlower c) ∧ DoubledAlike cfg st.states c)
    (hdigit : action.isVniModifier → towlower c = c) :
    Follows cfg (handleModifierAction cfg st action c (towlower c))
      (handleModifierAction cfg st.caseless action c.toLower (towlower c)) := by
  have htry : ∀ {checkRaw}, action.isTelexModifier ∨ action.isVniModifier →
      Follows cfg (tryModifier cfg (markStrokeEnglish st action) action c (towlower c) checkRaw true)
        (tryModifier cfg (markStrokeEnglish st.caseless action) action c.toLower (towlower c)
          checkRaw true) := by
    intro checkRaw ha
    rw [markStrokeEnglish_caseless]
    obtain ⟨prot, hst⟩ := @markStrokeEnglish_eq st action
    rw [hst]
    exact tryModifier_follows hm ha hc (fun hescape => hmodifier hescape ha) hdigit
  have huser : (cfg.inputMethod == .userDefined) = false := by simpa using hm
  unfold handleModifierAction
  dsimp only
  rw [huser]
  split
  · next htelex => exact htry (.inl htelex.2)
  · split
    · next hvni => exact htry (.inr hvni.2)
    · rw [if_neg (by simp), if_neg (by simp)]
      exact follows_passed

/-- The buffer a regular key leaves, before a leading `w` is taken back. -/
def regularBuffer (cfg : TypingConfig) (st : EngineState) (c : Char) : List CharState :=
  applyAutoUO cfg (relocateToneToTarget cfg
    (st.states ++ [{ base := towlower c, isUpper := iswupper c, rawIdx := st.rawInput.length - 1 }]))

/-- The buffer begins with a synthetic `ư` of a raw input that begins with `wh` or `wr`: the regular key
    that left it takes the `w` back. -/
def TakesBackW (cfg : TypingConfig) (states : List CharState) (raw : List Char) : Prop :=
  cfg.inputMethod = .telex ∧ (charAt states 0).synthetic ∧ (charAt states 0).base = 'u' ∧
    (charAt states 0).mod = .horn ∧ (charAt states 0).tone = .none ∧ isHardEnglishRawStart raw

instance TakesBackW.decidable {states raw} : Decidable (TakesBackW cfg states raw) :=
  inferInstanceAs (Decidable (_ ∧ _ ∧ _ ∧ _ ∧ _ ∧ _))

/-- A `w` is taken back alike. -/
lemma revertSyntheticW_caseless :
    revertSyntheticW cfg st.caseless = (revertSyntheticW cfg st).caseless := by
  have hfirst : charAt st.caseless.states 0 = (charAt st.states 0).caseless := charAt_caseless
  have hmodify : st.caseless.states.modify 0
      (fun s => { s with base := 'w', mod := .none, synthetic := false }) =
      (st.states.modify 0 fun s => { s with base := 'w', mod := .none, synthetic := false }).map
        .caseless := modify_caseless fun _ => rfl
  have hraw : isHardEnglishRawStart st.caseless.rawInput = isHardEnglishRawStart st.rawInput :=
    isHardEnglishRawStart_caseless
  unfold revertSyntheticW
  dsimp only
  rw [hfirst, hmodify, hraw]
  by_cases hback : cfg.inputMethod = .telex ∧ st.engProt.bias ≠ .hardEnglish ∧
      (charAt st.states 0).synthetic ∧ (charAt st.states 0).base = 'u' ∧
      (charAt st.states 0).mod = .horn ∧ (charAt st.states 0).tone = .none ∧
      isHardEnglishRawStart st.rawInput
  · rw [if_pos hback]
    refine (if_pos ?_).trans rfl
    exact hback
  · rw [if_neg hback]
    refine if_neg ?_
    exact hback

/-- What follows the spell check of C++ `FinalizeRegularChar`. -/
def closeRegular (cfg : TypingConfig) (st : EngineState) : EngineState :=
  let st := revertSyntheticW cfg { st with engProt := checkEnglishBias st.states st.engProt }
  if cfg.isTelexMode then { st with engProt := checkZwjfInitialBias st.states cfg st.engProt } else st

/-- A regular character is closed alike. -/
lemma closeRegular_caseless : closeRegular cfg st.caseless = (closeRegular cfg st).caseless := by
  have hmarked : ({ st.caseless with
      engProt := checkEnglishBias st.caseless.states st.caseless.engProt } : EngineState) =
      ({ st with engProt := checkEnglishBias st.states st.engProt } : EngineState).caseless := by
    rw [caseless_states, caseless_engProt, checkEnglishBias_map, checkEnglishBias_caseless]
    rfl
  unfold closeRegular
  rw [hmarked, revertSyntheticW_caseless]
  generalize revertSyntheticW cfg { st with engProt := checkEnglishBias st.states st.engProt } = st'
  dsimp only
  rw [caseless_states, caseless_engProt, checkZwjfInitialBias_map, checkZwjfInitialBias_caseless]
  split <;> rfl

/-- The verdict of the spell check passes through. -/
lemma closeRegular_verdict {verdict : Bool} :
    closeRegular cfg { st with spellCheckDisabled := verdict } =
      { closeRegular cfg st with spellCheckDisabled := verdict } := by
  simp only [closeRegular, revertSyntheticW]
  split <;> split <;> rfl

/-- The states stay unless a `w` is taken back. -/
lemma closeRegular_states (h : ¬TakesBackW cfg st.states st.rawInput) :
    (closeRegular cfg st).states = st.states := by
  have hkept : revertSyntheticW cfg { st with engProt := checkEnglishBias st.states st.engProt } =
      { st with engProt := checkEnglishBias st.states st.engProt } := by
    unfold revertSyntheticW
    refine if_neg ?_
    rintro ⟨htelex, -, hback⟩
    exact h ⟨htelex, hback⟩
  unfold closeRegular
  rw [hkept]
  split <;> rfl

/-- The end of a regular character, by its parts. -/
lemma finalizeRegularChar_eq :
    st.finalizeRegularChar cfg =
      { closeRegular cfg { st with states := applyAutoUO cfg (relocateToneToTarget cfg st.states) } with
        spellCheckDisabled :=
          updateSpellCheck (applyAutoUO cfg (relocateToneToTarget cfg st.states)) cfg } :=
  closeRegular_verdict

/-- The end of a regular character leaves twins. -/
lemma finalizeRegularChar_twin
    (h : TakesBackW cfg (regularBuffer cfg st c) st.rawInput →
      isSpellExcluded ((regularBuffer cfg st c).map .caseless) cfg.spellExclusions =
        isSpellExcluded (regularBuffer cfg st c) cfg.spellExclusions) :
    Twin cfg ((st.processChar (towlower c) (iswupper c)).finalizeRegularChar cfg)
      ((st.caseless.processChar (towlower c) false).finalizeRegularChar cfg) := by
  -- the spell check reads the buffer behind the key, in either case
  have hst : (st.processChar (towlower c) (iswupper c)).finalizeRegularChar cfg =
      { closeRegular cfg { st with states := regularBuffer cfg st c } with
        spellCheckDisabled := updateSpellCheck (regularBuffer cfg st c) cfg } :=
    finalizeRegularChar_eq
  have hbuffer : applyAutoUO cfg (relocateToneToTarget cfg
      (st.caseless.processChar (towlower c) false).states) =
      (regularBuffer cfg st c).map .caseless := by
    rw [regularBuffer, ← applyAutoUO_caseless, ← relocateToneToTarget_caseless, List.map_append]
    unfold processChar
    rw [caseless_rawInput, List.length_map]
    rfl
  have htw : (st.caseless.processChar (towlower c) false).finalizeRegularChar cfg =
      { (closeRegular cfg { st with states := regularBuffer cfg st c }).caseless with
        spellCheckDisabled := updateSpellCheck ((regularBuffer cfg st c).map .caseless) cfg } := by
    rw [finalizeRegularChar_eq, hbuffer, ← closeRegular_caseless]
    rfl
  rw [hst, htw]
  refine ⟨rfl, ?_⟩
  by_cases hback : TakesBackW cfg (regularBuffer cfg st c) st.rawInput
  · exact .inl (updateSpellCheck_caseless (h hback))
  · refine .inr ?_
    have hstates := @closeRegular_states { st with states := regularBuffer cfg st c } _ cfg hback
    refine ⟨congrArg (updateSpellCheck · cfg) hstates.symm, ?_⟩
    exact congrArg (fun states => updateSpellCheck (states.map .caseless) cfg) hstates.symm

/-- A key that may set a mark leaves twins. -/
lemma dispatchModifier_twin {action} (hq : cfg.quickEndConsonant = false)
    (hm : cfg.inputMethod ≠ .userDefined) (hc : AsciiKey c)
    (hmodifier : st.escape = .none → action.isTelexModifier ∨ action.isVniModifier →
      ModifierAlike cfg st.states (towlower c) ∧ DoubledAlike cfg st.states c)
    (hdigit : action.isVniModifier → towlower c = c)
    (hback : TakesBackW cfg (regularBuffer cfg st c) st.rawInput →
      isSpellExcluded ((regularBuffer cfg st c).map .caseless) cfg.spellExclusions =
        isSpellExcluded (regularBuffer cfg st c) cfg.spellExclusions) :
    Twin cfg (dispatchModifier cfg st action c (towlower c) (iswupper c))
      (dispatchModifier cfg st.caseless action c.toLower (towlower c) false) := by
  have hfollows := @handleModifierAction_follows st c _ cfg action hm hc hmodifier hdigit
  have hgrows := @handleModifierAction_grows st c _ cfg action (towlower c) hc
  unfold Follows at hfollows
  unfold GrowsOr at hgrows
  unfold dispatchModifier
  rw [hfollows.1]
  split
  · next hconsumed =>
    rw [if_pos hconsumed] at hfollows
    exact hfollows.2
  · next hpassed =>
    rw [if_neg hpassed] at hfollows hgrows
    obtain ⟨prot, hst⟩ := hgrows
    rw [hfollows.2, hst, appendRegular_off hq, appendRegular_off hq]
    exact finalizeRegularChar_twin hback

/-- The places where the source looks at the case of the letters and of the key answer alike. -/
@[mk_iff]
structure CaseFree (cfg : TypingConfig) (st : EngineState) (c : Char) : Prop where
  /-- The exclusions take the buffer like the same buffer in lower case, -/
  spelled : isSpellExcluded (st.states.map .caseless) cfg.spellExclusions =
    isSpellExcluded st.states cfg.spellExclusions
  /-- also the buffer that a `w` is taken back from. -/
  takenBack : TakesBackW cfg (regularBuffer cfg (st.press c) c) (st.press c).rawInput →
    isSpellExcluded ((regularBuffer cfg (st.press c) c).map .caseless) cfg.spellExclusions =
      isSpellExcluded (regularBuffer cfg (st.press c) c) cfg.spellExclusions
  /-- They take the tone of a tone key alike, -/
  toned : st.escape = .none → (classify cfg (st.press c) c (towlower c)).toTone ≠ .none →
    ToneAlike cfg st.states (classify cfg (st.press c) c (towlower c)).toTone
  /-- and a modifier key, which a doubled vowel hands over in its case. -/
  modified : st.escape = .none →
    (classify cfg (st.press c) c (towlower c)).isTelexModifier ∨
      (classify cfg (st.press c) c (towlower c)).isVniModifier →
    ModifierAlike cfg st.states (towlower c) ∧ DoubledAlike cfg st.states c
  /-- A tone key whose repetition is counted was not pressed before in the other case. -/
  insisted : st.states ≠ [] → st.engProt.bias = .softEnglish → cfg.allowEnglishBypass = false →
    (classify cfg (st.press c) c (towlower c)).toTone ≠ .none →
    toneBlocked cfg (st.press c) (classify cfg (st.press c) c (towlower c)).toTone
      (decide (towlower c < '0' ∨ '9' < towlower c)) = false →
    SameToneKey st.engProt c

set_option synthInstance.maxSize 512 in
instance CaseFree.decidable : Decidable (CaseFree cfg st c) :=
  decidable_of_iff' _ (caseFree_iff cfg st c)

omit [WideLocale] in
/-- A sequence of digits in VNI is one in lower case. -/
lemma isVniDigitSequence_caseless (hc : AsciiKey c) :
    isVniDigitSequence cfg st.caseless c.toLower = isVniDigitSequence cfg st c := by
  have hdigit : isDigitKey c.toLower = isDigitKey c :=
    AsciiKey.forall (P := fun c => isDigitKey c.toLower = isDigitKey c) (by decide +kernel) hc
  have hlast : st.caseless.states.getLast? = st.states.getLast?.map .caseless := List.getLast?_map
  simp only [isVniDigitSequence, hdigit, hlast]
  cases st.states.getLast? <;> rfl

/-- A key is classified in lower case as it is. -/
lemma classify_caseless (hc : AsciiKey c) :
    classify cfg st.caseless c.toLower (towlower c) = classify cfg st c (towlower c) := by
  simp only [classify, isVniDigitSequence_caseless hc]

/-- The VNI modifiers are on the digits. -/
lemma towlower_of_vniModifier (hc : AsciiKey c) (hm : cfg.inputMethod ≠ .userDefined)
    (h : (classify cfg st c (towlower c)).isVniModifier) : towlower c = c := by
  have hlower : (classifyVni (towlower c)).isVniModifier := by
    simp only [classify, if_neg hm, ne_eq, not_true_eq_false, if_false, classifyKey] at h
    split at h
    · cases h
    · split at h
      · next htelex =>
        generalize towlower c = lower at h
        unfold classifyTelex at h
        split at h <;> cases h
      · split at h
        · exact h
        · cases h
  rw [WideLocale.towlower_ascii c hc.2] at hlower ⊢
  exact AsciiKey.forall (P := fun c => (classifyVni c.toLower).isVniModifier → c.toLower = c)
    (by decide +kernel) hc hlower

omit [WideLocale] in
/-- A key is recorded in lower case. -/
lemma press_caseless : st.caseless.press c.toLower = (st.press c).caseless := by
  simp only [press, caseless, List.map_append, List.map_cons, List.map_nil]

/-- Every action leaves twins. -/
lemma dispatch_twin {action} (hq : cfg.quickEndConsonant = false)
    (hm : cfg.inputMethod ≠ .userDefined) (hc : AsciiKey c)
    (htone : st.escape = .none → action.toTone ≠ .none → ToneAlike cfg st.states action.toTone)
    (hkey : toneBlocked cfg st action.toTone (decide (towlower c < '0' ∨ '9' < towlower c)) = false →
      cfg.allowEnglishBypass = false → st.engProt.bias = .softEnglish → st.states ≠ [] →
      action.toTone ≠ .none → SameToneKey st.engProt c)
    (hmodifier : st.escape = .none → action.isTelexModifier ∨ action.isVniModifier →
      ModifierAlike cfg st.states (towlower c) ∧ DoubledAlike cfg st.states c)
    (hdigit : action.isVniModifier → towlower c = c)
    (hback : TakesBackW cfg (regularBuffer cfg st c) st.rawInput →
      isSpellExcluded ((regularBuffer cfg st c).map .caseless) cfg.spellExclusions =
        isSpellExcluded (regularBuffer cfg st c) cfg.spellExclusions) :
    Twin cfg (dispatch cfg st action c (towlower c) (iswupper c))
      (dispatch cfg st.caseless action c.toLower (towlower c) false) := by
  rw [dispatch_eq, dispatch_eq]
  by_cases htoned : st.escape = .none ∧ action.isTone
  · rw [if_pos htoned, if_pos (show st.caseless.escape = .none ∧ _ from htoned)]
    have hfollows := @handleToneFsm_follows st c _ cfg action (iswupper c) hc (htone htoned.1) hkey
    have hgrows := @handleToneFsm_grows st c _ cfg action (iswupper c) hc
    unfold Follows at hfollows
    unfold GrowsOr at hgrows
    rw [hfollows.1]
    split
    · next hconsumed =>
      rw [if_pos hconsumed] at hfollows
      exact hfollows.2
    · next hpassed =>
      rw [if_neg hpassed] at hfollows hgrows
      obtain ⟨prot, hst⟩ := hgrows
      rw [hfollows.2, hst]
      exact dispatchModifier_twin hq hm hc hmodifier hdigit hback
  · rw [if_neg htoned, if_neg (show ¬(st.caseless.escape = .none ∧ _) from htoned)]
    exact dispatchModifier_twin hq hm hc hmodifier hdigit hback

/-- A key. -/
lemma pushChar_twin (hq : cfg.QuickOff) (hm : cfg.inputMethod ≠ .userDefined) (hc : AsciiKey c)
    (hp : st.Plain) (h : CaseFree cfg st c) :
    Twin cfg (st.pushChar cfg c) (st.caseless.pushChar cfg c.toLower) := by
  have hp' : st.caseless.Plain := ⟨hp.1, by rw [caseless, hp.2]; rfl⟩
  rw [pushChar_off hq hp, pushChar_off hq hp', press_caseless, towlower_toLower, iswupper_toLower hc,
    classify_caseless hc]
  refine dispatch_twin hq.endConsonant hm hc h.toned ?_ h.modified (towlower_of_vniModifier hc hm)
    h.takenBack
  intro hopen hbypass hsoft hne htone
  exact h.insisted hne hsoft hbypass htone hopen

/-- Twins differ at most in the spell check. -/
lemma Twin.eq_with {tw} (h : Twin cfg st tw) :
    tw = { st.caseless with spellCheckDisabled := tw.spellCheckDisabled } := by
  rw [← h.same]

/-- The engine without its last state, before the spell check of C++ `Backspace`. -/
def popped (st : EngineState) : EngineState :=
  { st with
    qc := st.qc.clearActive
    states := st.states.dropLast
    rawInput := st.rawInput.take (charAt st.states (st.states.length - 1)).rawIdx
    escRawHistory := if st.states.dropLast = [] then [] else st.escRawHistory.dropLast }

omit [WideLocale] in
/-- The last letter is taken off alike. -/
lemma popped_caseless : st.caseless.popped = st.popped.caseless := by
  have hescRaw : (if (st.states.dropLast.map CharState.caseless) = [] then []
      else st.escRawHistory.dropLast.map Char.toLower) =
      (if st.states.dropLast = [] then [] else st.escRawHistory.dropLast).map Char.toLower := by
    simp only [List.map_eq_nil_iff]
    split <;> rfl
  simp only [popped, caseless, List.length_map, charAt_caseless, CharState.caseless_rawIdx,
    ← List.map_dropLast, ← List.map_take, hescRaw]

/-- `Backspace` does not read the verdict of the spell check. -/
lemma popChar_twin {verdict : Bool} :
    Twin cfg (popChar cfg st) (popChar cfg { st.caseless with spellCheckDisabled := verdict }) := by
  have hpop : popChar cfg { st.caseless with spellCheckDisabled := verdict } =
      { (popChar cfg st).caseless with
        spellCheckDisabled := updateSpellCheck (st.states.dropLast.map .caseless) cfg } := by
    show (updateSpellState { st.caseless.popped with spellCheckDisabled := verdict } cfg).recalcBias
      cfg = _
    rw [popped_caseless]
    exact congrArg (fun st' : EngineState => { st' with
      spellCheckDisabled := updateSpellCheck (st.states.dropLast.map .caseless) cfg })
      (@recalcBias_caseless (st.popped.updateSpellState cfg) _ cfg)
  rw [hpop]
  exact ⟨rfl, .inr ⟨rfl, rfl⟩⟩

/-- `Backspace`. -/
lemma backspace_twin {tw} (hp : st.Plain) (h : Twin cfg st tw) :
    Twin cfg (st.backspace cfg) (tw.backspace cfg) := by
  by_cases hnil : st.states = []
  · have hnil' : tw.states = [] := by rw [h.states, hnil, List.map_nil]
    simp only [EngineState.backspace, hnil, hnil', if_true]
    exact h
  · have hne : tw.states ≠ [] := by rw [h.states]; simpa using hnil
    have hp' : tw.Plain := by
      rw [h.eq_with]
      exact ⟨hp.1, by rw [caseless, hp.2]; rfl⟩
    rw [hp.backspace_eq hnil, hp'.backspace_eq hne, h.eq_with]
    exact popChar_twin

end EngineState

/-- An event without the case of its key. -/
def EngineEvent.caseless : EngineEvent → EngineEvent
  | .push c => .push c.toLower
  | .back => .back

/-- Keys of ASCII. -/
def EngineEvent.Ascii : EngineEvent → Prop
  | .push c => AsciiKey c
  | .back => True

instance EngineEvent.Ascii.decidable : ∀ e : EngineEvent, Decidable e.Ascii
  | .push c => inferInstanceAs (Decidable (0 < c.toNat ∧ c.toNat < 128))
  | .back => .isTrue trivial

section Locale
variable [WideLocale] {cfg : TypingConfig} {st st₁ st₂ : EngineState}

/-- A key that meets no place where the source looks at the case. -/
def EngineEvent.CaseFree (cfg : TypingConfig) (st : EngineState) : EngineEvent → Prop
  | .push c => EngineState.CaseFree cfg st c
  | .back => True

instance EngineEvent.CaseFree.decidable : ∀ e : EngineEvent, Decidable (e.CaseFree cfg st)
  | .push c => inferInstanceAs (Decidable (EngineState.CaseFree cfg st c))
  | .back => .isTrue trivial

/-- Two engines with one twin, without quick consonants. -/
structure SameSpelling (cfg : TypingConfig) (st₁ st₂ : EngineState) : Prop where
  left : st₁.Plain
  right : st₂.Plain
  twin : ∃ tw, EngineState.Twin cfg st₁ tw ∧ EngineState.Twin cfg st₂ tw

/-- The same spelling is the same buffer up to case. -/
lemma SameSpelling.states (h : SameSpelling cfg st₁ st₂) :
    st₁.states.map CharState.caseless = st₂.states.map CharState.caseless := by
  obtain ⟨tw, h₁, h₂⟩ := h.twin
  exact h₁.states.symm.trans h₂.states

/-- Two keys of one letter keep the engines twins. -/
lemma SameSpelling.pushChar {c₁ c₂ : Char} (hq : cfg.QuickOff) (hm : cfg.inputMethod ≠ .userDefined)
    (h : SameSpelling cfg st₁ st₂) (hcase : c₁.toLower = c₂.toLower) (hc₁ : AsciiKey c₁) (hc₂ : AsciiKey c₂)
    (hfree₁ : st₁.CaseFree cfg c₁) (hfree₂ : st₂.CaseFree cfg c₂) :
    SameSpelling cfg (st₁.pushChar cfg c₁) (st₂.pushChar cfg c₂) := by
  refine ⟨h.left.pushChar hq hm, h.right.pushChar hq hm, ?_⟩
  obtain ⟨tw, htw₁, htw₂⟩ := h.twin
  have hsame : st₁.caseless = st₂.caseless :=
    (htw₁.eq_caseless hfree₁.spelled).symm.trans (htw₂.eq_caseless hfree₂.spelled)
  have hkey₁ := EngineState.pushChar_twin hq hm hc₁ h.left hfree₁
  have hkey₂ := EngineState.pushChar_twin hq hm hc₂ h.right hfree₂
  rw [← hsame, ← hcase] at hkey₂
  exact ⟨_, hkey₁, hkey₂⟩

/-- Backspace keeps the spelling the same. -/
lemma SameSpelling.backspace (h : SameSpelling cfg st₁ st₂) :
    SameSpelling cfg (st₁.backspace cfg) (st₂.backspace cfg) := by
  obtain ⟨tw, htw₁, htw₂⟩ := h.twin
  exact ⟨h.left.backspace, h.right.backspace, tw.backspace cfg,
    EngineState.backspace_twin h.left htw₁, EngineState.backspace_twin h.right htw₂⟩

/-- One event of two words that are equal up to case. -/
lemma SameSpelling.step {e₁ e₂ : EngineEvent} (hq : cfg.QuickOff) (hm : cfg.inputMethod ≠ .userDefined)
    (h : SameSpelling cfg st₁ st₂) (hcase : e₁.caseless = e₂.caseless)
    (hascii₁ : e₁.Ascii) (hascii₂ : e₂.Ascii)
    (hfree₁ : e₁.CaseFree cfg st₁) (hfree₂ : e₂.CaseFree cfg st₂) :
    SameSpelling cfg (st₁.step cfg e₁) (st₂.step cfg e₂) := by
  cases e₁ with
  | push c₁ =>
    cases e₂ with
    | push c₂ =>
      exact h.pushChar hq hm (EngineEvent.push.inj hcase) hascii₁ hascii₂ hfree₁ hfree₂
    | back => cases hcase
  | back =>
    cases e₂ with
    | push c₂ => cases hcase
    | back => exact h.backspace

/-- Two runs of events that are equal up to case. -/
lemma SameSpelling.run {es₁ es₂ : List EngineEvent} (hq : cfg.QuickOff)
    (hm : cfg.inputMethod ≠ .userDefined) (h : SameSpelling cfg st₁ st₂)
    (hcase : es₁.map EngineEvent.caseless = es₂.map EngineEvent.caseless)
    (hascii₁ : ∀ e ∈ es₁, e.Ascii) (hascii₂ : ∀ e ∈ es₂, e.Ascii)
    (hfree₁ : Machine.Guarded (EngineState.step cfg) (EngineEvent.CaseFree cfg) st₁ es₁)
    (hfree₂ : Machine.Guarded (EngineState.step cfg) (EngineEvent.CaseFree cfg) st₂ es₂) :
    SameSpelling cfg (st₁.run cfg es₁) (st₂.run cfg es₂) := by
  induction es₁ generalizing st₁ st₂ es₂ with
  | nil =>
    cases es₂ with
    | nil => exact h
    | cons e₂ es₂ => cases hcase
  | cons e₁ es₁ ih =>
    cases es₂ with
    | nil => cases hcase
    | cons e₂ es₂ =>
      obtain ⟨he, hes⟩ := List.cons.inj hcase
      obtain ⟨he₁, hes₁⟩ := List.forall_mem_cons.1 hascii₁
      obtain ⟨he₂, hes₂⟩ := List.forall_mem_cons.1 hascii₂
      show SameSpelling cfg ((st₁.step cfg e₁).run cfg es₁) ((st₂.step cfg e₂).run cfg es₂)
      exact ih (h.step hq hm he he₁ he₂ hfree₁.1 hfree₂.1) hes hes₁ hes₂ hfree₁.2 hfree₂.2

/-- The case of the keys shows in the case of the letters alone: two words that are equal up to case,
    neither with a key where the source looks at the case, leave the same states up to case after every
    event. -/
theorem composition_caseless {es₁ es₂ : List EngineEvent} (hq : cfg.QuickOff)
    (hm : cfg.inputMethod ≠ .userDefined)
    (hcase : es₁.map EngineEvent.caseless = es₂.map EngineEvent.caseless)
    (hascii₁ : ∀ e ∈ es₁, e.Ascii) (hascii₂ : ∀ e ∈ es₂, e.Ascii)
    (hfree₁ : Machine.Guarded (EngineState.step cfg) (EngineEvent.CaseFree cfg) {} es₁)
    (hfree₂ : Machine.Guarded (EngineState.step cfg) (EngineEvent.CaseFree cfg) {} es₂) (n : Nat) :
    (EngineState.run cfg {} (es₁.take n)).states.map CharState.caseless =
      (EngineState.run cfg {} (es₂.take n)).states.map CharState.caseless := by
  have hinit : SameSpelling cfg {} {} :=
    ⟨⟨rfl, rfl⟩, ⟨rfl, rfl⟩, _, EngineState.Twin.refl, EngineState.Twin.refl⟩
  have hleft : ∀ {es : List EngineEvent},
      Machine.Guarded (EngineState.step cfg) (EngineEvent.CaseFree cfg) {} es →
      Machine.Guarded (EngineState.step cfg) (EngineEvent.CaseFree cfg) {} (es.take n) := by
    intro es h
    rw [← List.take_append_drop n es] at h
    exact h.left
  refine (hinit.run hq hm ?_ ?_ ?_ (hleft hfree₁) (hleft hfree₂)).states
  · rw [List.map_take, List.map_take, hcase]
  · exact fun c hc => hascii₁ c (List.mem_of_mem_take hc)
  · exact fun c hc => hascii₂ c (List.mem_of_mem_take hc)

end Locale

section Ascii
attribute [local instance] WideLocale.ascii

/-- `Tieengs` and `TIEENGS`, and the last letter taken back. -/
theorem composition_caseless_tieng :
    (EngineState.run {} {} ([.push 'T', .push 'i', .push 'e', .push 'e', .push 'n', .push 'g',
        .push 's', .back].take 8)).states.map CharState.caseless =
      (EngineState.run {} {} ([.push 'T', .push 'I', .push 'E', .push 'E', .push 'N', .push 'G',
        .push 'S', .back].take 8)).states.map CharState.caseless :=
  composition_caseless ⟨rfl, rfl, rfl⟩ (by decide) (by decide) (by decide) (by decide)
    (by decide +kernel) (by decide +kernel) 8

/-- The case of the keys does show: without the spell check `yess` gets its tone from the second `s`,
    and `yesS` is left as typed, since the gate of a tone key counts the two as different keys. -/
theorem composition_not_caseless :
    ¬∀ (cfg : TypingConfig) (es₁ es₂ : List EngineEvent), cfg.QuickOff → cfg.inputMethod = .telex →
      (∀ e ∈ es₁, e.Ascii) → (∀ e ∈ es₂, e.Ascii) →
      es₁.map EngineEvent.caseless = es₂.map EngineEvent.caseless → ∀ n,
      (EngineState.run cfg {} (es₁.take n)).states.map CharState.caseless =
        (EngineState.run cfg {} (es₂.take n)).states.map CharState.caseless := by
  intro h
  have hyes := h { spellCheckEnabled := false } [.push 'y', .push 'e', .push 's', .push 's']
    [.push 'y', .push 'e', .push 's', .push 'S'] ⟨rfl, rfl, rfl⟩ rfl (by decide) (by decide)
    (by decide) 4
  exact absurd hyes (by decide +kernel)

-- A doubled vowel asks the exclusions with the key in its case.
example : (EngineState.run { spellExclusions := [['ư', 'ô']] } {}
      [.push 'w', .push 'o', .push 'O']).states.map CharState.caseless ≠
    (EngineState.run { spellExclusions := [['ư', 'ô']] } {}
      [.push 'w', .push 'o', .push 'o']).states.map CharState.caseless := by
  decide +kernel

-- An exclusion does not meet a composed capital whose lower case the locale does not know.
example : (EngineState.run { spellExclusions := [['đ', 'k']] } {}
      [.push 'D', .push 'D', .push 'k', .push 'a', .push 's']).states.map CharState.caseless ≠
    (EngineState.run { spellExclusions := [['đ', 'k']] } {}
      [.push 'd', .push 'd', .push 'k', .push 'a', .push 's']).states.map CharState.caseless := by
  decide +kernel

end Ascii

end NextKey
