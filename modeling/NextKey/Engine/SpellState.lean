import NextKey.Engine.EditClosed
import NextKey.Engine.Grammar
import NextKey.Engine.SingleTone

/-!
# The spell state along a run

Every key ends with `UpdateSpellState`, so the flag of the engine is the verdict on its buffer; the one
exception is a leading `ư` that goes back to `w` behind the check, which marks the word as English. In
every buffer that is reached the tones are on vowels, so a buffer whose flag is down has one tone at
most, and `ClearTone` leaves none.
-/

namespace NextKey

/-- Only vowels have a tone. -/
def TonedVowels (states : List CharState) : Prop := ∀ s ∈ states, s.hasTone → s.isVowel

namespace TonedVowels

variable {states : List CharState} {i : Nat}

/-- An empty buffer has no tones. -/
lemma nil : TonedVowels [] := fun _ hs => absurd hs List.not_mem_nil

/-- A letter without a tone is appended. -/
lemma append {s : CharState} (hs : s.tone = .none) (h : TonedVowels states) :
    TonedVowels (states ++ [s]) := by
  intro t ht htone
  rcases List.mem_append.1 ht with hmem | hmem
  · exact h t hmem htone
  · rw [List.mem_singleton.1 hmem, CharState.hasTone, hs] at htone
    cases htone

/-- Some of the letters. -/
lemma subset {states' : List CharState} (hs : states' ⊆ states) (h : TonedVowels states) :
    TonedVowels states' := fun s hmem => h s (hs hmem)

/-- An edit of states that keep their letters and tones. -/
lemma map {f : CharState → CharState} (htone : ∀ s, (f s).hasTone = s.hasTone)
    (hvowel : ∀ s, (f s).isVowel = s.isVowel) (h : TonedVowels states) :
    TonedVowels (states.map f) := by
  intro s hs
  obtain ⟨t, ht, rfl⟩ := List.mem_map.1 hs
  rw [htone, hvowel]
  exact h t ht

/-- An edit of one state. -/
lemma modify {f : CharState → CharState} (h : TonedVowels states)
    (hf : ∀ s ∈ states[i]?, (f s).hasTone → (f s).isVowel) : TonedVowels (states.modify i f) := by
  intro s hs
  obtain ⟨j, hj, rfl⟩ := List.getElem_of_mem hs
  rw [List.getElem_modify]
  split
  · next hij =>
    subst hij
    exact hf _ (List.getElem?_eq_getElem (by simpa using hj))
  · exact h _ (List.getElem_mem _)

/-- The vowel at an index. -/
lemma isVowel_getElem? {s : CharState} (hs : s ∈ states[i]?) (h : (charAt states i).isVowel) :
    s.isVowel := by
  have hget : charAt states i = s := by
    rw [charAt, List.getD_eq_getElem?_getD, hs]
    rfl
  rwa [hget] at h

/-- A tone that goes to a vowel. -/
lemma moved {src dst : Nat} {f g : CharState → CharState} (hdst : (charAt states dst).isVowel)
    (hf : ∀ s, (f s).isVowel = s.isVowel) (hg : ∀ s, (g s).hasTone = false) (h : TonedVowels states) :
    TonedVowels ((states.modify dst f).modify src g) := by
  refine modify (modify h fun s hs _ => ?_) fun s _ htone => ?_
  · rw [hf]
    exact isVowel_getElem? hs hdst
  · rw [hg] at htone
    cases htone

end TonedVowels

section Locale
variable [WideLocale] {cfg : TypingConfig} {st : EngineState} {c : Char}

/-- Every edit leaves tones on vowels only. -/
lemma editClosed_tonedVowels : EditClosed cfg TonedVowels where
  marked := by
    intro states i mod h
    refine h.modify fun s hs htone => ?_
    exact h s (List.mem_of_getElem? hs) htone
  relocated := by
    intro states h
    unfold relocateToneToTarget
    split
    · exact h
    · next src _ =>
      split
      · exact h
      · next dst hdst =>
        split
        · exact h
        · split
          · exact h
          · split
            · exact h
            · exact h.moved (findToneTarget_eq_some hdst).2.1 (fun _ => rfl) fun _ => rfl
  horned := by
    intro states h
    unfold relocateToneToHornVowel
    dsimp only
    split
    · next hhorn _ =>
      split
      · have hvowel := (lastIdx?_eq_some hhorn).2
        rw [Bool.and_eq_true] at hvowel
        exact h.moved hvowel.1 (fun _ => rfl) fun _ => rfl
      · exact h
    · exact h
  toned := by
    intro states i tone idx hi h
    refine h.modify fun s hs _ => ?_
    have hvowel : s.isVowel := TonedVowels.isVowel_getElem? hs (findToneTarget_eq_some hi).2.1
    exact hvowel
  cleared := by
    intro states i h
    refine h.modify fun s _ htone => ?_
    cases htone
  erased := fun h => h.map (fun _ => rfl) fun _ => rfl
  removed := fun h => h.subset (List.dropLast_subset _)
  appended := fun hs h => h.append hs
  takenBack := by
    intro states hnone h
    refine h.modify fun s hs htone => ?_
    have hget : charAt states 0 = s := by
      rw [charAt, List.getD_eq_getElem?_getD, hs]
      rfl
    rw [hget] at hnone
    have hkept : s.tone ≠ .none := bne_iff_ne.1 htone
    exact absurd hnone hkept

omit [WideLocale] in
/-- What carries a tone is a vowel. -/
lemma decomposeToneBase_vowel {d base : Char} {mod} (h : decomposeToneBase d = some (base, mod)) :
    isVowelBase base := by
  unfold decomposeToneBase at h
  split at h <;> cases h <;> rfl

/-- A toned letter of a seed is a vowel. -/
lemma decomposeVietChar_toned {ch base : Char} {mod tone isUpper}
    (h : decomposeVietChar ch = some (base, mod, tone, isUpper)) (htone : tone ≠ .none) :
    isVowelBase base := by
  unfold decomposeVietChar at h
  dsimp only at h
  split at h
  · cases h
    exact absurd rfl htone
  · split at h
    · obtain ⟨⟨b, m⟩, hb, hpair⟩ := Option.map_eq_some_iff.1 h
      cases hpair
      exact decomposeToneBase_vowel hb
    · split at h
      · cases h
        exact absurd rfl htone
      · split at h
        · cases h
          exact absurd rfl htone
        · cases h

namespace EngineState

/-- The letters of a seed. -/
lemma foldlM_seedChar_tonedVowels {text : List Char} {st' : EngineState}
    (hst' : text.foldlM seedChar st = some st') (h : TonedVowels st.states) :
    TonedVowels st'.states := by
  induction text generalizing st with
  | nil =>
    cases hst'
    exact h
  | cons ch text ih =>
    rw [List.foldlM_cons] at hst'
    obtain ⟨mid, hmid, hrest⟩ := Option.bind_eq_some_iff.1 hst'
    refine ih hrest ?_
    obtain ⟨⟨base, mod, tone, isUpper⟩, hdecompose, rfl⟩ := Option.map_eq_some_iff.1 hmid
    intro s hs htone
    rcases List.mem_append.1 hs with hmem | hmem
    · exact h s hmem htone
    · rw [List.mem_singleton.1 hmem] at htone ⊢
      refine decomposeVietChar_toned hdecompose fun hnone => ?_
      subst hnone
      cases htone

/-- A seeded buffer has its tones on vowels. -/
lemma seedFromText_tonedVowels {text} : TonedVowels (seedFromText cfg text).1.states := by
  unfold seedFromText
  split
  · exact .nil
  · next filled hfilled =>
    have hinit : TonedVowels ({} : EngineState).states := .nil
    have htoned : TonedVowels filled.states := foldlM_seedChar_tonedVowels hfilled hinit
    exact htoned

/-- Only vowels have a tone, whatever was typed. -/
theorem ReachableBy.tonedVowels (hq : cfg.QuickOff) (hm : cfg.inputMethod = .telex)
    (h : st.ReachableBy cfg) : TonedVowels st.states :=
  editClosed_tonedVowels.reachable hq hm .nil (fun _ => seedFromText_tonedVowels) h

/-- The flag is the verdict on the buffer, or on the buffer before its `ư` went back to `w`. -/
def Judged (cfg : TypingConfig) (st : EngineState) : Prop :=
  st.spellCheckDisabled = updateSpellCheck st.states cfg ∨
    st.engProt.bias = .hardEnglish ∧ ∃ judged, TonedVowels judged ∧
      judged.map (·.tone) = st.states.map (·.tone) ∧
      st.spellCheckDisabled = updateSpellCheck judged cfg

/-- The spell check has just judged. -/
lemma judged_updateSpellState : (st.updateSpellState cfg).Judged cfg := .inl rfl

/-- The tone keys. -/
lemma handleToneFsm_judged {action isUpper} :
    st.Passes (Judged cfg) (handleToneFsm cfg st action c (towlower c) isUpper) := by
  unfold handleToneFsm
  split
  · exact OnlyBias.refl
  · split
    · split
      · exact judged_updateSpellState
      · split
        · exact judged_updateSpellState
        · exact OnlyBias.refl
    · split
      · exact OnlyBias.refl
      · dsimp only
        split
        · exact judged_updateSpellState
        · split
          · exact judged_updateSpellState
          · exact ⟨_, rfl⟩

/-- A mark that was set is judged. -/
lemma tryModifier_judged {action lower checkRaw checkSpell} :
    (tryModifier cfg st action c lower checkRaw checkSpell).2 →
      (tryModifier cfg st action c lower checkRaw checkSpell).1.Judged cfg := by
  unfold tryModifier
  split
  · split
    · intro
      exact judged_updateSpellState
    · intro h
      cases h
  · intro h
    cases h

/-- The modifier keys. -/
lemma handleModifierAction_judged {action lower} (hm : cfg.inputMethod ≠ .userDefined) :
    st.Passes (Judged cfg) (handleModifierAction cfg st action c lower) := by
  have houtcome : Outcome none True st (handleModifierAction cfg st action c lower) :=
    handleModifierAction_outcome hm fun _ => trivial
  have hjudged : (handleModifierAction cfg st action c lower).2 →
      (handleModifierAction cfg st action c lower).1.Judged cfg := by
    unfold handleModifierAction
    dsimp only
    split
    · exact tryModifier_judged
    · split
      · exact tryModifier_judged
      · split
        · exact tryModifier_judged
        · intro h
          cases h
  unfold Outcome at houtcome
  unfold Passes
  split
  · next hc => exact hjudged hc
  · next hc =>
    rw [if_neg hc] at houtcome
    exact houtcome

omit [WideLocale] in
/-- A hard bias stays hard. -/
lemma checkZwjfInitialBias_hard {states : List CharState} {prot : EnglishProtectionState}
    (h : prot.bias = .hardEnglish) : (checkZwjfInitialBias states cfg prot).bias = .hardEnglish := by
  unfold checkZwjfInitialBias
  split
  · exact h
  · split
    · exact h
    · split
      · exact h
      · split
        · exact h
        · split
          · rfl
          · exact h

/-- A `ư` that goes back to `w` marks the word as English. -/
lemma regular_bias (h : TakesBackW cfg (regularBuffer cfg st c) st.rawInput ∧
    (checkEnglishBias (regularBuffer cfg st c) st.engProt).bias ≠ .hardEnglish) :
    ((st.processChar (towlower c) (iswupper c)).finalizeRegularChar cfg).engProt.bias =
      .hardEnglish := by
  have hclosed : ((st.processChar (towlower c) (iswupper c)).finalizeRegularChar cfg).engProt =
      (closeRegular cfg { st with states := regularBuffer cfg st c }).engProt := by
    rw [finalizeRegularChar_eq]
    rfl
  have hreverted : (revertSyntheticW cfg { st with
      states := regularBuffer cfg st c
      engProt := checkEnglishBias (regularBuffer cfg st c) st.engProt }).engProt.bias =
        .hardEnglish := by
    unfold revertSyntheticW
    dsimp only
    rw [if_pos ⟨h.1.1, h.2, h.1.2⟩]
  rw [hclosed]
  unfold closeRegular
  dsimp only
  split
  · exact checkZwjfInitialBias_hard hreverted
  · exact hreverted

/-- A regular key; the word whose `ư` goes back to `w` is English. -/
lemma regular_judged (h : TonedVowels st.states) :
    ((st.processChar (towlower c) (iswupper c)).finalizeRegularChar cfg).Judged cfg := by
  have hbuffer : TonedVowels (regularBuffer cfg st c) := by
    show TonedVowels (applyAutoUO cfg (relocateToneToTarget cfg (st.states ++ [st.keyState c])))
    exact editClosed_tonedVowels.applyAutoUO (editClosed_tonedVowels.relocated (h.append rfl))
  have hflag : ((st.processChar (towlower c) (iswupper c)).finalizeRegularChar cfg).spellCheckDisabled =
      updateSpellCheck (regularBuffer cfg st c) cfg := by
    rw [finalizeRegularChar_eq]
    rfl
  have hstates := @regular_states st c _ cfg
  by_cases hback : TakesBackW cfg (regularBuffer cfg st c) st.rawInput ∧
      (checkEnglishBias (regularBuffer cfg st c) st.engProt).bias ≠ .hardEnglish
  · rw [if_pos hback] at hstates
    refine .inr ⟨?_, regularBuffer cfg st c, hbuffer, ?_, hflag⟩
    · exact regular_bias hback
    · rw [hstates]
      exact (List.map_modify_of_forall (by intro _; rfl)).symm
  · rw [if_neg hback] at hstates
    exact .inl (hflag.trans (by rw [hstates]))

/-- One key. -/
lemma pushChar_judged (hq : cfg.QuickOff) (hm : cfg.inputMethod = .telex) (hp : st.Plain)
    (h : TonedVowels st.states) : (st.pushChar cfg c).Judged cfg := by
  have hpress : TonedVowels (st.press c).states := h
  rw [pushChar_off hq hp]
  refine dispatch_rule (fun _ _ => handleToneFsm_judged) (fun _ => ?_) ?_
  · exact handleModifierAction_judged (by rw [hm]; decide)
  · intro prot
    rw [appendRegular_off hq.endConsonant]
    exact @regular_judged _ cfg { st.press c with engProt := prot } c hpress

/-- The flag of every engine that is reached. -/
theorem ReachableBy.judged (hq : cfg.QuickOff) (hm : cfg.inputMethod = .telex)
    (h : st.ReachableBy cfg) : st.Judged cfg := by
  have hcustom : cfg.inputMethod ≠ .userDefined := by rw [hm]; decide
  induction h with
  | init =>
    refine .inl ?_
    show false = updateSpellCheck [] cfg
    rw [updateSpellCheck, if_pos (.inr rfl)]
  | seed =>
    unfold seedFromText
    split
    · refine .inl ?_
      show false = updateSpellCheck [] cfg
      rw [updateSpellCheck, if_pos (.inr rfl)]
    · exact .inl rfl
  | push h _ _ => exact pushChar_judged hq hm (h.plain hq hcustom) (h.tonedVowels hq hm)
  | @back st h ih =>
    by_cases hne : st.states = []
    · unfold EngineState.backspace
      rwa [if_pos hne]
    · rw [(h.plain hq hcustom).backspace_eq hne]
      exact .inl rfl

/-- Without exclusions nothing is excluded. -/
lemma isSpellExcluded_nil {states : List CharState} : isSpellExcluded states [] = false :=
  Bool.and_false _

/-- A buffer that passes the spell check is not invalid. -/
lemma ne_invalid_of_accepted {states : List CharState} (hcheck : cfg.spellCheckEnabled)
    (hexclusions : cfg.spellExclusions = []) (h : updateSpellCheck states cfg = false) :
    Phonology.validateSyllableState states cfg.allowZwjf ≠ .invalid := by
  unfold updateSpellCheck at h
  split at h
  · next hnone =>
    rcases hnone with hoff | rfl
    · exact absurd hcheck hoff
    · intro hinvalid
      cases hinvalid
  · rwa [hexclusions, isSpellExcluded_nil, if_neg Bool.false_ne_true, beq_eq_false_iff_ne] at h

/-- A buffer of vowels with tones that passes the spell check has one tone at most. -/
lemma singleTone_of_accepted {states : List CharState} (hcheck : cfg.spellCheckEnabled)
    (hexclusions : cfg.spellExclusions = []) (htoned : TonedVowels states)
    (h : updateSpellCheck states cfg = false) : SingleTone states := by
  have hvalid := ne_invalid_of_accepted hcheck hexclusions h
  have hinvariant := (Phonology.validateSyllableState_ne_invalid.1 hvalid).2
  have hsingle := (Phonology.checkToneModInvariant_iff_filter.1 hinvariant).1
  have hcount : toneCount states = (states.filter fun s => s.isVowel && s.hasTone).length := by
    rw [toneCount, List.countP_eq_length_filter]
    congr 1
    refine List.filter_congr fun s hs => ?_
    cases htone : s.hasTone with
    | false => exact (Bool.and_false _).symm
    | true => rw [htoned s hs htone, Bool.and_true]
  rwa [SingleTone, hcount]

/-- An engine whose flag is down has one tone at most. -/
lemma ReachableBy.singleTone (hq : cfg.QuickOff) (hm : cfg.inputMethod = .telex)
    (hcheck : cfg.spellCheckEnabled) (hexclusions : cfg.spellExclusions = []) (h : st.ReachableBy cfg)
    (hflag : st.spellCheckDisabled = false) : SingleTone st.states := by
  rcases h.judged hq hm with hverdict | ⟨-, judged, htoned, htones, hverdict⟩
  · exact singleTone_of_accepted hcheck hexclusions (h.tonedVowels hq hm) (hverdict.symm.trans hflag)
  · have hsingle := singleTone_of_accepted hcheck hexclusions htoned (hverdict.symm.trans hflag)
    rwa [SingleTone, toneCount_eq, htones, ← toneCount_eq] at hsingle

/-- A regular key appends a state. -/
lemma length_regular :
    ((st.processChar (towlower c) (iswupper c)).finalizeRegularChar cfg).states.length =
      st.states.length + 1 := by
  rw [finalizeRegularChar_same.1]
  exact List.length_append

/-- A `z` that appends no state has cleared the tone of the target. -/
lemma clearTone_states (hq : cfg.QuickOff) (hm : cfg.inputMethod = .telex) (hp : st.Plain)
    (h : (st.pushChar cfg 'z').states.length = st.states.length) :
    ∃ i, i < st.states.length ∧ (charAt st.states i).hasTone ∧
      (st.pushChar cfg 'z').states = clearTone st.states i := by
  have hkey : classify cfg (st.press 'z') 'z' (towlower 'z') = .clearTone := by
    rw [classify_telex hm, WideLocale.towlower_ascii 'z' (by decide)]
    rfl
  have hrules := pushChar_off (c := 'z') hq hp
  rw [hkey, dispatch_eq_rules hq] at hrules
  have hpassed : ¬(toneRule cfg (st.press 'z') .clearTone 'z').2 = true → False := by
    intro htone
    rw [if_neg htone] at hrules
    have hmodifier : modifierRule cfg (st.press 'z') .clearTone 'z' =
        ((toneRule cfg (st.press 'z') .clearTone 'z').1, false) := by
      unfold modifierRule handleModifierAction
      dsimp only
      rw [if_neg (by rintro ⟨-, h⟩; cases h), if_neg (by rintro ⟨-, h⟩; cases h),
        if_neg (by rintro ⟨-, h⟩; cases h)]
    obtain ⟨prot, hprot⟩ := toneRule_passes (by decide) htone
    rw [hmodifier, if_neg Bool.false_ne_true, hprot] at hrules
    rw [hrules, length_regular] at h
    exact absurd h (Nat.succ_ne_self _)
  have htone : (toneRule cfg (st.press 'z') .clearTone 'z').2 = true := by
    by_contra hnot
    exact hpassed hnot
  rw [if_pos htone] at hrules
  revert htone
  rw [hrules] at h ⊢
  revert h
  unfold toneRule handleToneFsm
  split
  · split
    · intro _ h
      cases h
    · rw [if_pos rfl]
      split
      · intro h
        exact absurd (h.symm.trans List.length_append) (Nat.ne_of_lt (Nat.lt_succ_self _))
      · split
        · next cleared hcleared =>
          intro _ _
          unfold processClearTone at hcleared
          split at hcleared
          · cases hcleared
          · next i hi =>
            split at hcleared
            · cases hcleared
            · next htoned =>
              cases hcleared
              exact ⟨i, (findToneTarget_eq_some hi).1, bne_iff_ne.2 htoned, rfl⟩
        · intro _ h
          cases h
  · intro _ h
    cases h

/-- A `z` that clears a tone leaves no tone, and the letters and their modifiers as they were. -/
theorem clearTone_untones (h : st.ReachableBy {}) (hspell : st.spellCheckDisabled = false)
    (hcleared : (st.pushChar {} 'z').states.length = st.states.length) :
    (∀ s ∈ (st.pushChar {} 'z').states, s.tone = .none) ∧
      (st.pushChar {} 'z').states.map (·.base) = st.states.map (·.base) ∧
      (st.pushChar {} 'z').states.map (·.mod) = st.states.map (·.mod) := by
  have hq : ({} : TypingConfig).QuickOff := ⟨rfl, rfl, rfl⟩
  obtain ⟨i, hi, htone, hstates⟩ := clearTone_states hq rfl (h.plain hq (by decide)) hcleared
  have hsingle : SingleTone st.states := h.singleTone hq rfl rfl rfl hspell
  rw [hstates]
  refine ⟨?_, List.map_modify_of_forall (by intro _; rfl), List.map_modify_of_forall (by intro _; rfl)⟩
  have hzero : toneCount (clearTone st.states i) = 0 := by
    rw [clearTone, toneCount_modify hi, if_pos htone]
    exact Nat.sub_eq_zero_of_le hsingle
  intro s hs
  have hnone := List.countP_eq_zero.1 hzero s hs
  rwa [CharState.hasTone, bne_iff_ne, not_not] at hnone

end EngineState

end Locale

section Ascii

attribute [local instance] WideLocale.ascii

open EngineState

/-- `toán`, with the acute on the second vowel. -/
def acuteToan : EngineState :=
  ((((pushChar {} {} 't').pushChar {} 'o').pushChar {} 'a').pushChar {} 'n').pushChar {} 's'

/-- The example is reached by typing. -/
lemma acuteToan_reachable : acuteToan.ReachableBy {} := by
  unfold acuteToan
  have h : (((pushChar {} {} 't').pushChar {} 'o').pushChar {} 'a').ReachableBy {} :=
    .push (.push (.push .init (by decide)) (by decide)) (by decide)
  exact .push (.push h (by decide)) (by decide)

/-- A `z` makes it `toan`. -/
theorem clearTone_untones_toan :
    (∀ s ∈ (acuteToan.pushChar {} 'z').states, s.tone = .none) ∧
      (acuteToan.pushChar {} 'z').states.map (·.base) = acuteToan.states.map (·.base) ∧
      (acuteToan.pushChar {} 'z').states.map (·.mod) = acuteToan.states.map (·.mod) :=
  clearTone_untones acuteToan_reachable (by decide +kernel) (by decide +kernel)

end Ascii

end NextKey
