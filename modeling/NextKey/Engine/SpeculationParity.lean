import NextKey.Engine.SpeculationVerdict
import NextKey.Engine.Typing

/-!
# Speculate and apply

What a handler does behind the validation it consulted is what the validation was about
(`left_of_handle`). The verdict on what it leaves behind is the verdict on the letters and modifiers
alone, if the relocation brings the tones together (`soundVerdict_left_iff`). An acceptance sees to
both unless it rests on the tone before a stop coda (`soundUntoned_of_accepted`); then nobody has
looked at the rest of the buffer.
-/

namespace NextKey

open Phonology

section Locale
variable [WideLocale]

/-- The modifier of the site turns its vowel into another letter, and its relocation can see it. -/
structure Site.Marks (d : Site) (states : List CharState) : Prop where
  lt : d.target < states.length
  vowel : (charAt states d.target).isVowel
  letter : (modifiedVowel (charAt states d.target).base d.mod).isSome
  /-- The sister whose circumflex is cleared is another vowel. -/
  sister : ∀ k, d.clearIdx = some k → k ≠ d.target
  nucleus : d.relocation = .toTarget → isClusterConsonant states d.target = false
  horn : d.relocation = .toHorn → d.mod = .horn
  /-- The validation relocates the tone as the handler does. -/
  speculated : d.speculates → d.relocation = .toTarget ∧ d.clearIdx = none

section Marks
variable {cfg : TypingConfig} {d : Site} {states : List CharState}

omit [WideLocale] in
/-- A site changes marks, not the length. -/
lemma length_modified : (d.modified states).length = states.length := by
  have hset : ∀ {l : List CharState} {i : Nat} {mod : Modifier}, (setMod l i mod).length = l.length :=
    List.length_modify _ _ _
  simp only [Site.modified, speculateMod]
  split
  · split
    · rw [hset, hset]
    · exact hset
  · exact hset

omit [WideLocale] in
/-- A mark does not change the bases. -/
lemma base_setMod {i k : Nat} {mod : Modifier} :
    (charAt (setMod states i mod) k).base = (charAt states k).base := by
  rw [setMod]
  by_cases hi : i < states.length
  · rw [charAt_modify hi]
    split
    · next h => rw [h]
    · rfl
  · rw [List.modify_eq_self (Nat.le_of_not_lt hi)]

omit [WideLocale] in
/-- A site does not change the bases. -/
lemma base_modified {k : Nat} : (charAt (d.modified states) k).base = (charAt states k).base := by
  simp only [Site.modified, speculateMod]
  split
  · split
    · rw [base_setMod, base_setMod]
    · rw [base_setMod]
  · rw [base_setMod]

omit [WideLocale] in
/-- The target of a site that marks has its mark. -/
lemma Site.Marks.mod_target (h : d.Marks states) :
    (charAt (d.modified states) d.target).mod = d.mod := by
  have hset : (charAt (setMod states d.target d.mod) d.target).mod = d.mod := by
    rw [mod_setMod h.lt, if_pos rfl]
  simp only [Site.modified, speculateMod]
  split
  · next k hk =>
    split
    · next hcirc =>
      by_cases hlt : k < (setMod states d.target d.mod).length
      · rw [mod_setMod hlt, if_neg (h.sister k hk), hset]
      · rwa [setMod, List.modify_eq_self (Nat.le_of_not_lt hlt)]
    · exact hset
  · exact hset

omit [WideLocale] in
/-- A site does not change the vowels. -/
lemma isVowel_modified {k : Nat} :
    (charAt (d.modified states) k).isVowel = (charAt states k).isVowel := by
  rw [CharState.isVowel, CharState.isVowel, base_modified]

omit [WideLocale] in
/-- Nor the consonants of the clusters. -/
lemma isClusterConsonant_modified {k : Nat} :
    isClusterConsonant (d.modified states) k = isClusterConsonant states k := by
  simp only [isClusterConsonant, base_modified, length_modified, isVowel_modified]

omit [WideLocale] in
/-- Moving a tone is not seen without the tones. -/
lemma untone_carried {src dst : Nat} {f g : CharState → CharState} (hf : ∀ t, untone (f t) = untone t)
    (hg : ∀ t, untone (g t) = untone t) :
    ((states.modify dst f).modify src g).map untone = states.map untone := by
  rw [List.map_modify_of_forall hg, List.map_modify_of_forall hf]

/-- Without tones the relocation to the target does nothing. -/
lemma untone_relocateToneToTarget :
    (relocateToneToTarget cfg states).map untone = states.map untone := by
  unfold relocateToneToTarget
  split
  · rfl
  · split
    · rfl
    · split
      · rfl
      · split
        · rfl
        · split
          · rfl
          · exact untone_carried (fun _ => rfl) fun _ => rfl

omit [WideLocale] in
/-- Without tones the relocation to the horn does nothing. -/
lemma untone_relocateToneToHornVowel :
    (relocateToneToHornVowel states).map untone = states.map untone := by
  simp only [relocateToneToHornVowel]
  split
  · split
    · exact untone_carried (fun _ => rfl) fun _ => rfl
    · rfl
  · rfl

/-- Without tones, what is left is what the site has marked. -/
lemma untone_left : (d.left cfg states).map untone = (d.modified states).map untone := by
  rw [Site.left]
  split
  · rfl
  · exact untone_relocateToneToTarget
  · exact untone_relocateToneToHornVowel

omit [WideLocale] in
/-- Vowels that stand together without the tones stand together. -/
lemma together_untone (h : Together (states.map untone)) : Together states := by
  obtain ⟨front, nucleus, back, heq, hfront, hnucleus, hback⟩ := h
  obtain ⟨left, back', rfl, hleft, rfl⟩ := List.map_eq_append_iff.1 heq
  obtain ⟨front', nucleus', rfl, rfl, rfl⟩ := List.map_eq_append_iff.1 hleft
  rw [List.forall_mem_map] at hfront hnucleus hback
  exact ⟨front', nucleus', back', rfl, hfront, hnucleus, hback⟩

/-- Where the vowels stand together the relocation puts the tone where it belongs when it gathers the
    tones of the buffer. -/
lemma checkToneModInvariant_left (hd : d.Marks states) (hlen : states.length ≤ kVowelCap)
    (htogether : Together (d.modified states)) :
    checkToneModInvariant (d.left cfg states) ↔ d.gathersTone cfg states := by
  have hlt : d.target < (d.modified states).length := by
    rw [length_modified]
    exact hd.lt
  have hvowel : (charAt (d.modified states) d.target).isVowel := by
    rw [isVowel_modified]
    exact hd.vowel
  have hletter : (modifiedVowel (charAt (d.modified states) d.target).base
      (charAt (d.modified states) d.target).mod).isSome := by
    rw [base_modified, hd.mod_target]
    exact hd.letter
  cases hrelocation : d.relocation with
  | stay => simp only [Site.left, Site.gathersTone, hrelocation]
  | toTarget =>
    have hnucleus : isClusterConsonant (d.modified states) d.target = false := by
      rw [isClusterConsonant_modified]
      exact hd.nucleus hrelocation
    have hcap : (d.modified states).length ≤ kVowelCap := by
      rw [length_modified]
      exact hlen
    obtain ⟨m, htarget, hmod⟩ :=
      @findToneTarget_of_modified _ _ _ cfg.modernOrtho hcap hlt hvowel hnucleus hletter
    simp only [Site.left, Site.gathersTone, hrelocation, htarget]
    exact checkToneModInvariant_toTarget htogether htarget hmod
  | toHorn =>
    have hhorn : (charAt (d.modified states) d.target).isHorn := by
      rw [CharState.isHorn, hd.mod_target, hd.horn hrelocation]
      rfl
    have hsome : lastIdx? (d.modified states).length (fun i =>
        (charAt (d.modified states) i).isVowel && (charAt (d.modified states) i).isHorn) ≠ none := by
      intro hnone
      have hfalse := lastIdx?_eq_none.1 hnone d.target hlt
      rw [hvowel, hhorn] at hfalse
      cases hfalse
    obtain ⟨h, hlast⟩ := Option.ne_none_iff_exists'.1 hsome
    simp only [Site.left, Site.gathersTone, hrelocation, hlast]
    exact checkToneModInvariant_toHorn htogether hlast

omit [WideLocale] in
/-- Without tones only the validation of the letters is left. -/
lemma validateSyllableState_untone :
    validateSyllableState (states.map untone) cfg.allowZwjf ≠ .invalid ↔
    validateImpl (states.map untone) cfg.allowZwjf ≠ .invalid := by
  have hinv : checkToneModInvariant (states.map untone) := by
    apply checkToneModInvariant_toneless
    intro k
    rw [charAt_untone, tonedVowel]
    exact Bool.and_false _
  rw [validateSyllableState_ne_invalid, and_iff_left hinv]

/-- The verdict on what is left behind is the verdict on letters, modifiers and the place of the
    tone. -/
lemma soundVerdict_left_iff (hd : d.Marks states) (hlen : states.length ≤ kVowelCap) :
    soundVerdict cfg (d.left cfg states) ↔ d.soundUntoned cfg states := by
  rw [soundVerdict_iff, untone_left, Site.soundUntoned, Bool.and_eq_true, bne_iff_ne,
    validateSyllableState_untone]
  refine and_congr_right fun hvalid => ?_
  exact checkToneModInvariant_left hd hlen (together_untone (together_of_ne_invalid hvalid))

/-- A tone that stays where it belongs is gathered by any relocation. -/
lemma gathersTone_of_modified (hinv : checkToneModInvariant (d.modified states)) :
    d.gathersTone cfg states := by
  have hunique := (checkToneModInvariant_iff.1 hinv).1
  have hfound : ∀ {f : Nat → (Nat → Bool) → Option Nat} {j : Option Nat},
      (∀ {n p}, f n p = none → ∀ i < n, p i = false) → (∀ {n p i}, f n p = some i → p i) →
      tonesAmong (d.modified states) (f (d.modified states).length fun i =>
        (charAt (d.modified states) i).isVowel && (charAt (d.modified states) i).hasTone) j := by
    intro f j hnone hsome
    refine tonesAmong_iff.2 fun k hk => .inl ?_
    cases hf : f (d.modified states).length fun i =>
        (charAt (d.modified states) i).isVowel && (charAt (d.modified states) i).hasTone with
    | none =>
      have hfalse := hnone hf k (tonedVowel_lt hk)
      rw [tonedVowel, hfalse] at hk
      cases hk
    | some t => rw [hunique t k (hsome hf) hk]
  rw [Site.gathersTone]
  split
  · exact hinv
  · exact hfound (fun h => firstIdx?_eq_none.1 h) fun h => (firstIdx?_eq_some h).2
  · exact hfound (fun h => lastIdx?_eq_none.1 h) fun h => (lastIdx?_eq_some h).2

/-- A state with its letter alone. -/
def letter (s : CharState) : CharState := { base := s.base }

/-- A stop coda is told by the letters. -/
lemma hasStopFinalCoda_letter : hasStopFinalCoda (states.map letter) = hasStopFinalCoda states := by
  have hvowel : ∀ i, (charAt (states.map letter) i).isVowel = (charAt states i).isVowel := by
    intro i
    simp only [charAt, List.getD_eq_getElem?_getD, List.getElem?_map]
    cases states[i]? <;> rfl
  simp only [hasStopFinalCoda, hvowel, List.length_map]
  split
  · rfl
  · rw [← List.map_drop]
    -- the coda is one consonant or two, and neither is asked for more than its letter
    generalize states.drop _ = tail
    rcases tail with _ | ⟨s, _ | ⟨t, _ | ⟨r, tail⟩⟩⟩ <;> rfl

/-- A stop coda is told by the bases. -/
lemma hasStopFinalCoda_congr {states' : List CharState}
    (h : states'.map (·.base) = states.map (·.base)) :
    hasStopFinalCoda states' = hasStopFinalCoda states := by
  have hletter : ∀ l : List CharState, l.map letter = (l.map (·.base)).map fun b => { base := b } := by
    intro l
    rw [List.map_map]
    rfl
  rw [← hasStopFinalCoda_letter, hletter, h, ← hletter, hasStopFinalCoda_letter]

omit [WideLocale] in
/-- What a rewrite of one state keeps of the tones. -/
lemma tones_modify {P : Tone → Prop} {f : CharState → CharState} {i : Nat}
    (hf : ∀ s, P s.tone → P (f s).tone) (h : ∀ s ∈ states, P s.tone) :
    ∀ s ∈ states.modify i f, P s.tone := by
  induction states generalizing i with
  | nil =>
    rw [List.modify_nil]
    exact h
  | cons t states ih =>
    rw [List.forall_mem_cons] at h
    cases i with
    | zero =>
      rw [List.modify_zero_cons, List.forall_mem_cons]
      exact ⟨hf t h.1, h.2⟩
    | succ i =>
      rw [List.modify_succ_cons, List.forall_mem_cons]
      exact ⟨h.1, ih h.2⟩

omit [WideLocale] in
/-- A site brings no new tone. -/
lemma tones_modified {P : Tone → Prop} (h : ∀ s ∈ states, P s.tone) :
    ∀ s ∈ d.modified states, P s.tone := by
  have hset : ∀ {l : List CharState} {i : Nat} {mod : Modifier}, (∀ s ∈ l, P s.tone) →
      ∀ s ∈ setMod l i mod, P s.tone := fun hl => tones_modify (fun _ hs => hs) hl
  simp only [Site.modified, speculateMod]
  split
  · split
    · exact hset (hset h)
    · exact hset h
  · exact hset h

/-- The relocation brings no new tone. -/
lemma tones_relocateToneToTarget {P : Tone → Prop} (hnone : P .none) (h : ∀ s ∈ states, P s.tone) :
    ∀ s ∈ relocateToneToTarget cfg states, P s.tone := by
  unfold relocateToneToTarget
  split
  · exact h
  · next t htoned =>
    have ht : P (charAt states t).tone := h _ (charAt_mem (findTonedVowelIndex_eq_some htoned).1)
    split
    · exact h
    · split
      · exact h
      · split
        · exact h
        · split
          · exact h
          · exact tones_modify (fun _ _ => hnone) (tones_modify (fun _ _ => ht) h)

/-- What is left brings no new tone. -/
lemma tones_left {P : Tone → Prop} (hnone : P .none) (h : ∀ s ∈ d.modified states, P s.tone) :
    ∀ s ∈ d.left cfg states, P s.tone := by
  rw [Site.left]
  split
  · exact h
  · exact tones_relocateToneToTarget hnone h
  · simp only [relocateToneToHornVowel]
    split
    · next t _ htoned =>
      split
      · have ht : P (charAt (d.modified states) t).tone :=
          h _ (charAt_mem (lastIdx?_eq_some htoned).1)
        exact tones_modify (fun _ _ => hnone) (tones_modify (fun _ _ => ht) h)
      · exact h
    · exact h

/-- A buffer whose tones are allowed before a stop coda does not wait for another tone. -/
lemma isToneStopCodaMismatch_of_fit {states' : List CharState} (hfit : tonesFitCoda states)
    (hbases : states'.map (·.base) = states.map (·.base))
    (htones : (∀ s ∈ states, stopTone s.tone) → ∀ s ∈ states', stopTone s.tone) :
    isToneStopCodaMismatch states' = false := by
  rw [isToneStopCodaMismatch, hasStopFinalCoda_congr hbases]
  rw [tonesFitCoda, Bool.or_eq_true, Bool.not_eq_true', List.all_eq_true] at hfit
  obtain hcoda | hfit := hfit
  · rw [hcoda]
    rfl
  · cases hfind : states'.find? (·.hasTone) with
    | none => exact Bool.and_false _
    | some s =>
      have hs := htones hfit s (List.mem_of_find?_eq_some hfind)
      dsimp only
      cases htone : s.tone <;> rw [htone] at hs <;> first | exact Bool.and_false _ | cases hs

omit [WideLocale] in
/-- The bases are equal when they are at each index. -/
lemma bases_eq {states' : List CharState} (hlen : states'.length = states.length)
    (h : ∀ k, (charAt states' k).base = (charAt states k).base) :
    states'.map (·.base) = states.map (·.base) := by
  apply List.ext_getElem (by simpa using hlen)
  intro k hk hk'
  rw [List.length_map] at hk hk'
  have hbase := h k
  rw [charAt, charAt, List.getD_eq_getElem _ _ hk, List.getD_eq_getElem _ _ hk'] at hbase
  simpa using hbase

omit [WideLocale] in
/-- The bases do not depend on the tones. -/
lemma bases_of_untone {states' : List CharState} (h : states'.map untone = states.map untone) :
    states'.map (·.base) = states.map (·.base) := map_congr_untone (·.base) (fun _ => rfl) h

/-- The buffer that was validated is the modified one or the one left behind. -/
lemma speculation_of_accepted (hd : d.Marks states) (hlen : states.length ≤ kVowelCap)
    (hspell : cfg.spellCheckEnabled) (haccepted : d.accepted cfg states) :
    acceptSpeculation cfg (d.modified states) ∨ acceptSpeculation cfg (d.left cfg states) := by
  unfold Site.accepted wouldBeValidSyllable at haccepted
  rw [if_neg (not_not_intro hspell), if_neg (Nat.not_le.2 hd.lt)] at haccepted
  cases hspeculates : d.speculates with
  | false =>
    rw [hspeculates, if_neg Bool.false_ne_true] at haccepted
    exact .inl haccepted
  | true =>
    obtain ⟨hrelocation, hclear⟩ := hd.speculated hspeculates
    rw [hspeculates, if_pos rfl, if_neg (Nat.not_lt.2 hlen), hclear] at haccepted
    refine .inr ?_
    rw [Site.left, hrelocation]
    unfold Site.modified speculateMod
    rw [hclear]
    exact haccepted

/-- An acceptance that does not rest on the tone before a stop coda sees to the letters and to the
    place of the tone. -/
lemma soundUntoned_of_accepted (hd : d.Marks states) (hlen : states.length ≤ kVowelCap)
    (hspell : cfg.spellCheckEnabled) (haccepted : d.accepted cfg states)
    (hfit : tonesFitCoda states) : d.soundUntoned cfg states := by
  have hbases : (d.modified states).map (·.base) = states.map (·.base) :=
    bases_eq length_modified fun _ => base_modified
  have htones : (∀ s ∈ states, stopTone s.tone) → ∀ s ∈ d.modified states, stopTone s.tone :=
    @tones_modified d states fun t => stopTone t
  obtain hσ | hσ := speculation_of_accepted hd hlen hspell haccepted
  · have hmismatch := isToneStopCodaMismatch_of_fit hfit hbases htones
    rw [acceptSpeculation, hmismatch, Bool.or_false, bne_iff_ne, validateSyllableState_ne_invalid] at hσ
    rw [Site.soundUntoned, Bool.and_eq_true, bne_iff_ne, validateSyllableState_untone]
    exact ⟨validateImpl_untone.1 hσ.1, gathersTone_of_modified hσ.2⟩
  · have hmismatch := isToneStopCodaMismatch_of_fit hfit ((bases_of_untone untone_left).trans hbases)
      fun h => @tones_left _ cfg d states (fun t => stopTone t) rfl (htones h)
    rw [acceptSpeculation, hmismatch, Bool.or_false] at hσ
    refine (soundVerdict_left_iff hd hlen).1 ?_
    rw [soundVerdict, hσ]
    rfl

end Marks

section Handlers
variable {cfg : TypingConfig} {st st' : EngineState} {d : Site}

/-- The keys the engine routes to the handlers: a doubled vowel is `a`, `e` or `o`. -/
def ModifierKey.Routed (cfg : TypingConfig) : ModifierKey → Prop
  | .circumflex action c =>
    (if cfg.inputMethod = .userDefined then action.toVowel else towlower c) ∈ ['a', 'e', 'o']
  | _ => True

/-- `ClassifyKey` and the custom key map route no other key to the handler of the doubled vowels. -/
lemma routed_of_classify {action : TypingAction} {c : Char}
    (h : EngineState.classify cfg st c (towlower c) = action)
    (haction : action = .circumflexA ∨ action = .circumflexE ∨ action = .circumflexO) :
    (ModifierKey.circumflex action c).Routed cfg := by
  have htelex : ∀ {lower : Char}, classifyTelex lower = action → lower ∈ ['a', 'e', 'o'] := by
    intro lower hlower
    unfold classifyTelex at hlower
    split at hlower <;> subst hlower <;> first | decide | simp at haction
  have hvni : ∀ {lower : Char}, classifyVni lower ≠ action := by
    intro lower hlower
    unfold classifyVni at hlower
    split at hlower <;> subst hlower <;> simp at haction
  have hne : TypingAction.none ≠ action := by
    rintro rfl
    simp at haction
  rw [ModifierKey.Routed]
  by_cases huser : cfg.inputMethod = .userDefined
  · rw [if_pos huser]
    obtain rfl | rfl | rfl := haction <;> decide
  · rw [if_neg huser]
    simp only [EngineState.classify, if_neg huser, ne_eq, not_true_eq_false, if_false,
      classifyKey] at h
    split at h
    · exact (hne h).elim
    · split at h
      · exact htelex h
      · split at h
        · exact (hvni h).elim
        · exact (hne h).elim

omit [WideLocale] in
/-- Only `i` and `u` may belong to an initial consonant. -/
lemma nucleus_of_base {states : List CharState} {i : Nat}
    (h : (charAt states i).base ≠ 'i' ∧ (charAt states i).base ≠ 'u') :
    isClusterConsonant states i = false := by
  rw [isClusterConsonant, beq_false_of_ne h.1, beq_false_of_ne h.2]
  simp

omit [WideLocale] in
/-- A circumflex on `a`, `e` or `o`. -/
lemma marks_circumflex {states : List CharState} {targetBase : Char} (hd : d.target < states.length)
    (hbase : (charAt states d.target).base = targetBase) (htarget : targetBase ∈ ['a', 'e', 'o'])
    (hmod : d.mod = .circumflex) (hclear : d.clearIdx = none) (hhorn : d.relocation ≠ .toHorn)
    (hspeculated : d.speculates → d.relocation = .toTarget) : d.Marks states := by
  rw [← hbase] at htarget
  have hcases : (charAt states d.target).base = 'a' ∨ (charAt states d.target).base = 'e' ∨
      (charAt states d.target).base = 'o' := by simpa using htarget
  refine ⟨hd, ?_, ?_, ?_, fun _ => nucleus_of_base ?_, fun h => absurd h hhorn,
    fun h => ⟨hspeculated h, hclear⟩⟩
  · rw [CharState.isVowel]
    obtain h | h | h := hcases <;> rw [h] <;> rfl
  · rw [hmod]
    obtain h | h | h := hcases <;> rw [h] <;> rfl
  · rw [hclear]
    simp
  · obtain h | h | h := hcases <;> rw [h] <;> decide

/-- The site of a circumflex marks its vowel. -/
lemma marks_circumflexSite {action : TypingAction} {c : Char}
    (hkey : (ModifierKey.circumflex action c).Routed cfg)
    (hsite : circumflexSite cfg st.states action c = some d) : d.Marks st.states := by
  rw [ModifierKey.Routed] at hkey
  simp only [circumflexSite] at hsite
  generalize (if cfg.inputMethod = .userDefined then action.toVowel else towlower c) = targetBase at *
  split at hsite
  · cases hsite
  · next hne =>
    have hpos : st.states.length - 1 < st.states.length := by omega
    split at hsite
    · next hbase =>
      simp only [adjacentSite] at hsite
      split at hsite
      · cases hsite
      · split at hsite <;> cases hsite <;>
          exact marks_circumflex hpos hbase hkey rfl rfl (by simp) (by simp)
    · split at hsite
      · cases hsite
      · simp only [freeSite] at hsite
        split at hsite
        · cases hsite
        · next i hi =>
          obtain ⟨hlt, hbase⟩ := lastIdx?_eq_some hi
          split at hsite
          · cases hsite
          · cases hsite
            exact marks_circumflex hlt (beq_iff_eq.1 hbase) hkey rfl rfl (by simp) fun _ => rfl

omit [WideLocale] in
/-- The letters the scan of the `w` key looks for. -/
lemma base_of_hornScan {states : List CharState} {i : Nat} :
    ((hornScan states).firstUIdx = some i → i < states.length ∧ (charAt states i).base = 'u') ∧
    ((hornScan states).uIdx = some i → i < states.length ∧ (charAt states i).base = 'u') ∧
    ((hornScan states).oIdx = some i → i < states.length ∧ (charAt states i).base = 'o') ∧
    ((hornScan states).aIdx = some i → i < states.length ∧ (charAt states i).base = 'a') := by
  refine ⟨fun h => ?_, fun h => ?_, fun h => ?_, fun h => ?_⟩
  case refine_1 =>
    obtain ⟨hlt, hp⟩ := firstIdx?_eq_some h
    simp only [Bool.and_eq_true, beq_iff_eq] at hp
    exact ⟨hlt, hp.1.2⟩
  all_goals
    obtain ⟨hlt, hp⟩ := lastIdx?_eq_some h
    simp only [Bool.and_eq_true, beq_iff_eq] at hp
    exact ⟨hlt, hp.1.2⟩

omit [WideLocale] in
/-- The `u` for the horn is one. -/
lemma base_of_hornTargetU {states : List CharState} {u : Nat} (hu : (hornScan states).uIdx = some u) :
    EngineState.hornTargetU states (hornScan states) u < states.length ∧
      (charAt states (EngineState.hornTargetU states (hornScan states) u)).base = 'u' := by
  rw [EngineState.hornTargetU]
  split
  · cases hfirst : (hornScan states).firstUIdx with
    | none => exact base_of_hornScan.2.1 hu
    | some f => exact base_of_hornScan.1 hfirst
  · exact base_of_hornScan.2.1 hu

omit [WideLocale] in
/-- The site of a single vowel marks it. -/
lemma marks_standaloneSite {states : List CharState}
    (hsite : standaloneSite states (hornScan states) = some d) : d.Marks states := by
  have hgated : ∀ {b : Bool} {d' : Site}, (if b then some d' else none) = some d → d' = d := by
    intro b d' h
    split at h
    · exact Option.some.inj h
    · cases h
  simp only [standaloneSite] at hsite
  split at hsite
  · next u hu =>
    obtain ⟨hlt, hbase⟩ := base_of_hornTargetU hu
    obtain rfl := hgated hsite
    refine ⟨hlt, ?_, ?_, fun k hk => ?_, by simp, fun _ => rfl, by simp⟩
    · rw [CharState.isVowel, hbase]
      rfl
    · rw [hbase]
      rfl
    · rintro rfl
      rw [(base_of_hornScan.2.2.2 hk).2] at hbase
      cases hbase
  · split at hsite
    · next o ho _ =>
      obtain ⟨hlt, hbase⟩ := base_of_hornScan.2.2.1 ho
      obtain rfl := hgated hsite
      refine ⟨hlt, ?_, ?_, by simp, by simp, fun _ => rfl, by simp⟩
      · rw [CharState.isVowel, hbase]
        rfl
      · rw [hbase]
        rfl
    · split at hsite
      · next a ha =>
        obtain ⟨hlt, hbase⟩ := base_of_hornScan.2.2.2 ha
        obtain rfl := hgated hsite
        refine ⟨hlt, ?_, ?_, by simp, by simp, by simp, by simp⟩
        · rw [CharState.isVowel, hbase]
          rfl
        · rw [hbase]
          rfl
      · cases hsite

/-- The site of a `w` marks its vowels. -/
lemma marks_hornSite {c : Char} (hsite : hornSite cfg st c = some d) : d.Marks st.states := by
  simp only [hornSite] at hsite
  split at hsite
  · cases hsite
  · split at hsite
    · cases hsite
    · split at hsite
      · cases hsite
      · split at hsite
        · cases hsite
        · split at hsite
          · cases hsite
          · exact marks_standaloneSite hsite

omit [WideLocale] in
/-- The site of a VNI mark marks its vowel. -/
lemma marks_vniSite {states : List CharState} {targetMod : Modifier}
    (hsite : vniSite cfg states targetMod = some d) : d.Marks states := by
  simp only [vniSite, Option.map_eq_some_iff] at hsite
  obtain ⟨i, hi, hsite⟩ := hsite
  obtain ⟨hlt, hp⟩ := lastIdx?_eq_some hi
  simp only [Bool.and_eq_true, Bool.not_eq_true', beq_iff_eq] at hp
  obtain ⟨⟨hvowel, hcluster⟩, heligible, -⟩ := hp
  have hletter : (modifiedVowel (charAt states i).base targetMod).isSome := by
    cases targetMod <;>
      simp only [EngineState.vniEligible, Bool.or_eq_true, beq_iff_eq, Bool.false_eq_true] at heligible
    case circumflex => obtain (h | h) | h := heligible <;> rw [h] <;> rfl
    case horn => obtain h | h := heligible <;> rw [h] <;> rfl
    case breve => rw [heligible]; rfl
  split at hsite <;> subst hsite
  · exact ⟨hlt, hvowel, hletter, by simp, fun _ => hcluster, by simp, fun _ => ⟨rfl, rfl⟩⟩
  · exact ⟨hlt, hvowel, hletter, by simp, by simp, by simp, by simp⟩

/-- Every site marks its target. -/
lemma marks_of_site {key : ModifierKey} (hkey : key.Routed cfg) (hsite : key.site cfg st = some d) :
    d.Marks st.states := by
  cases key with
  | circumflex action c => exact marks_circumflexSite hkey hsite
  | hornW c => exact marks_hornSite hsite
  | vni targetMod key => exact marks_vniSite hsite

/-- Without exclusions nothing matches one. -/
lemma no_exclusion {states : List CharState} {c : Char} (hexclusions : cfg.spellExclusions = []) :
    wouldModifierKeyMatchExclusion cfg states c = false := by
  have hbuf : ∀ {buf : List Char} {cmp : Char → Char → Bool}, matchExclusionBuf buf [] cmp = false :=
    rfl
  have hany : ∀ {mod : Modifier} {bases : List Char},
      wouldAnyModifierMatchExclusion states [] mod bases = false := by
    intro mod bases
    simp only [wouldAnyModifierMatchExclusion, wouldModifierMatchExclusion,
      matchExclusionBufIgnoreTone, hbuf, Bool.and_false]
    simp
  have hstroke : wouldStrokeDMatchExclusion states [] = false := by
    rw [wouldStrokeDMatchExclusion]
    split <;> rfl
  simp only [wouldModifierKeyMatchExclusion, hexclusions, hany, hstroke, Bool.or_false, ite_self]

/-- What a handler does at a site it consults. -/
def Site.AppliedBy (cfg : TypingConfig) (d : Site) (st st' : EngineState) : Prop :=
  st'.states = d.left cfg st.states ∧ d.accepted cfg st.states

/-- What the spell check does not reject would be valid. -/
lemma wouldBeValid_of_not_rejected {i : Nat} {mod : Modifier} {key : Char}
    (hspell : cfg.spellCheckEnabled) (hexclusions : cfg.spellExclusions = [])
    (h : ¬shouldRejectModifier cfg st.states i mod key) :
    wouldBeValidSyllable cfg st.states i mod none false := by
  rw [shouldRejectModifier, hspell, no_exclusion hexclusions] at h
  simpa using h

/-- A vowel typed twice applies its site. -/
lemma adjacentCircumflex_applied {targetBase c : Char} (hspell : cfg.spellCheckEnabled)
    (hexclusions : cfg.spellExclusions = []) (hsite : adjacentSite cfg st.states = some d)
    (happly : EngineState.adjacentCircumflex cfg st targetBase c = some st') :
    d.AppliedBy cfg st st' := by
  simp only [adjacentSite] at hsite
  simp only [EngineState.adjacentCircumflex] at happly
  split at hsite
  · cases hsite
  · next hopen =>
    rw [not_or] at hopen
    rw [if_neg hopen.1, if_neg hopen.2] at happly
    split at hsite
    · next hprefix =>
      cases hsite
      rw [if_pos hprefix, no_exclusion hexclusions] at happly
      split at happly
      · cases happly
      · next hvalid =>
        cases happly
        refine ⟨rfl, ?_⟩
        rw [Site.accepted]
        simpa using hvalid
    · next hprefix =>
      cases hsite
      rw [if_neg hprefix] at happly
      split at happly
      · cases happly
      · next hkept =>
        cases happly
        exact ⟨rfl, wouldBeValid_of_not_rejected hspell hexclusions hkept⟩

/-- A circumflex further back applies its site. -/
lemma freeCircumflex_applied {targetBase c : Char} (hspell : cfg.spellCheckEnabled)
    (hexclusions : cfg.spellExclusions = []) (hsite : freeSite st.states targetBase = some d)
    (happly : EngineState.freeCircumflex cfg st targetBase c = (st', true)) :
    d.AppliedBy cfg st st' := by
  simp only [freeSite] at hsite
  simp only [EngineState.freeCircumflex] at happly
  split at hsite
  · cases hsite
  · next i hi =>
    rw [hi] at happly
    split at hsite
    · cases hsite
    · next hopen =>
      rw [not_or, not_not] at hopen
      obtain ⟨hmod, hcrossed⟩ := hopen
      cases hsite
      simp only [hmod, hspell, not_true_eq_false, false_and, true_and, if_false, if_true] at happly
      cases hany : (st.states.drop (i + 1)).any (·.isVowel) with
      | true =>
        rw [hany, if_pos rfl] at happly
        split at happly
        · cases happly
        · next hkept =>
          cases happly
          refine ⟨rfl, ?_⟩
          exact wouldBeValid_of_not_rejected hspell hexclusions hkept
      | false =>
        rw [hany, if_neg Bool.false_ne_true] at happly
        have hconsonants : ((st.states.drop (i + 1)).filter fun s => !s.isVowel) ≠ [] := by
          rw [List.any_eq_false] at hany
          rw [List.filter_eq_self.2 fun s hs => by simpa using hany s hs]
          exact hcrossed
        split at happly
        · cases happly
        · next hkept =>
          cases happly
          refine ⟨rfl, ?_⟩
          by_contra hvalid
          exact hkept ⟨hconsonants, hvalid⟩

/-- A circumflex applies its site. -/
lemma circumflex_applied {action : TypingAction} {c : Char} (hspell : cfg.spellCheckEnabled)
    (hexclusions : cfg.spellExclusions = [])
    (hsite : circumflexSite cfg st.states action c = some d)
    (happly : EngineState.handleAdjacentCircumflex cfg st action c = (st', true)) :
    d.AppliedBy cfg st st' := by
  simp only [circumflexSite] at hsite
  simp only [EngineState.handleAdjacentCircumflex] at happly
  generalize (if cfg.inputMethod = .userDefined then action.toVowel else towlower c) = targetBase at *
  split at hsite
  · cases hsite
  · next hopen =>
    rw [not_or, not_not] at hopen
    rw [if_neg hopen.1] at happly
    split at hsite
    · next hbase =>
      rw [if_pos ⟨hbase, hopen.2⟩] at happly
      split at happly
      · next hadjacent =>
        cases happly
        exact adjacentCircumflex_applied hspell hexclusions hsite hadjacent
      · cases happly
    · next hbase =>
      rw [if_neg fun h => hbase h.1] at happly
      split at hsite
      · cases hsite
      · next htriphthong =>
        rw [if_neg htriphthong, if_pos hopen.2] at happly
        exact freeCircumflex_applied hspell hexclusions hsite happly

/-- The `w` key consults a validation behind P1 to P4. -/
lemma hornOutcome_of_site {c : Char} (hsite : hornSite cfg st c = some d) :
    standaloneSite st.states (hornScan st.states) = some d ∧
      EngineState.hornOutcome cfg st c =
        EngineState.hornStandalone cfg st c (hornScan st.states) := by
  simp only [hornSite] at hsite
  simp only [EngineState.hornOutcome]
  split at hsite
  · cases hsite
  · next hopen =>
    rw [if_neg hopen]
    generalize (hornScan st.states).uIdx = u at *
    generalize vowelPair? st.states 'u' 'a' = ua at *
    generalize (vowelPair? st.states 'u' 'o').bind (st.hornPair c) = pair at *
    generalize (hornScan st.states).aIdx = a at *
    generalize vowelPair? st.states 'o' 'a' = oa at *
    generalize st.hornEscape c (hornScan st.states) = escape at *
    -- where one of P1 to P4 takes the key there is no site
    obtain _ | u := u <;> obtain _ | i := ua
    case some.some => cases hsite
    all_goals
      cases pair with
      | some outcome => cases hsite
      | none =>
        obtain _ | k := a <;> obtain _ | j := oa
        case some.some => cases hsite
        all_goals
          cases escape with
          | some st' => cases hsite
          | none => exact ⟨hsite, rfl⟩

/-- The buffer a `w` key leaves behind. -/
def hornLeft : EngineState.HornOutcome → List CharState
  | .horned states => relocateToneToHornVowel states
  | .done st => st.states

omit [WideLocale] in
/-- A speculation sets the mark and clears a circumflex. -/
lemma speculateMod_eq {states : List CharState} {i : Nat} {mod : Modifier} {clearIdx : Option Nat} :
    speculateMod states i mod clearIdx = clearCircumflex (setMod states i mod) clearIdx := by
  cases clearIdx <;> rfl

/-- The horn of a single vowel applies its site. -/
lemma hornStandalone_applied {c : Char} {outcome : EngineState.HornOutcome}
    (hsite : standaloneSite st.states (hornScan st.states) = some d)
    (houtcome : EngineState.hornStandalone cfg st c (hornScan st.states) = some outcome) :
    hornLeft outcome = d.left cfg st.states ∧ d.accepted cfg st.states := by
  have hgated : ∀ {d' : Site} {outcome' : EngineState.HornOutcome} {after rejects : Bool},
      (if after then some d' else none) = some d →
      (if rejects then none else some outcome') = some outcome →
      after = hasNonVowelAfter st.states d'.target →
      rejects = EngineState.hornRejects cfg st.states d'.target d'.mod d'.clearIdx →
      d'.speculates = false → hornLeft outcome' = d'.left cfg st.states →
      hornLeft outcome = d.left cfg st.states ∧ d.accepted cfg st.states := by
    -- the `u`, the `o` and the `a` are validated alike, and only in front of a consonant
    intro d' outcome' after rejects hsite hkept hafter hrejects hspeculates hleft
    cases after with
    | true =>
      cases rejects with
      | true => cases hkept
      | false =>
        cases hsite
        cases hkept
        rw [EngineState.hornRejects, ← hafter, Bool.true_and] at hrejects
        rw [Site.accepted, hspeculates]
        exact ⟨hleft, by simpa using hrejects.symm⟩
    | false => cases hsite
  simp only [standaloneSite] at hsite
  simp only [EngineState.hornStandalone] at houtcome
  cases hu : (hornScan st.states).uIdx with
  | some u =>
    rw [hu] at hsite houtcome
    refine hgated hsite houtcome rfl rfl rfl ?_
    rw [Site.left, Site.modified, speculateMod_eq]
    rfl
  | none =>
    rw [hu] at hsite houtcome
    dsimp only at hsite houtcome
    split at hsite
    · next o ho hpair =>
      rw [ho, hpair] at houtcome
      exact hgated hsite houtcome rfl rfl rfl rfl
    · next hpairs =>
      split at hsite
      · next a ha =>
        split at houtcome
        · next o ho hpair => exact (hpairs o ho hpair).elim
        · rw [ha] at houtcome
          exact hgated hsite houtcome rfl rfl rfl rfl
      · cases hsite

/-- A `w` applies its site. -/
lemma horn_applied {c : Char} (hsite : hornSite cfg st c = some d)
    (happly : EngineState.handleHornW cfg st c = some st') : d.AppliedBy cfg st st' := by
  obtain ⟨hstandalone, houtcome⟩ := hornOutcome_of_site hsite
  rw [EngineState.handleHornW, houtcome] at happly
  cases hout : EngineState.hornStandalone cfg st c (hornScan st.states) with
  | none =>
    rw [hout] at happly
    cases happly
  | some outcome =>
    obtain ⟨hleft, haccepted⟩ := hornStandalone_applied hstandalone hout
    rw [hout] at happly
    cases outcome with
    | horned states =>
      cases happly
      exact ⟨hleft, haccepted⟩
    | done st' =>
      cases happly
      exact ⟨hleft, haccepted⟩

/-- A mark of VNI applies its site. -/
lemma vni_applied {targetMod : Modifier} {key : Char} (hspell : cfg.spellCheckEnabled)
    (hexclusions : cfg.spellExclusions = []) (hsite : vniSite cfg st.states targetMod = some d)
    (happly : EngineState.processVniVowelModifier cfg st targetMod key = some st') :
    d.AppliedBy cfg st st' := by
  simp only [vniSite, Option.map_eq_some_iff] at hsite
  simp only [EngineState.processVniVowelModifier] at happly
  obtain ⟨i, hi, hsite⟩ := hsite
  rw [hi] at happly
  simp only [EngineState.vniApply] at happly
  split at hsite <;> subst hsite
  · next hprefix =>
    rw [if_pos hprefix, no_exclusion hexclusions] at happly
    split at happly
    · cases happly
    · next hvalid =>
      cases happly
      refine ⟨rfl, ?_⟩
      rw [Site.accepted]
      simpa using hvalid
  · next hprefix =>
    rw [if_neg hprefix] at happly
    split at happly
    · cases happly
    · next hkept =>
      cases happly
      exact ⟨rfl, wouldBeValid_of_not_rejected hspell hexclusions hkept⟩

/-- Spell check on and without exclusions, a handler that consults a validation leaves behind what its
    site says, if the validation accepts. -/
lemma applied_of_handle {key : ModifierKey} (hspell : cfg.spellCheckEnabled)
    (hexclusions : cfg.spellExclusions = []) (hsite : key.site cfg st = some d)
    (happly : key.handle cfg st = some st') : d.AppliedBy cfg st st' := by
  cases key with
  | circumflex action c =>
    simp only [ModifierKey.handle] at happly
    split at happly
    · next hconsumed =>
      cases happly
      exact circumflex_applied hspell hexclusions hsite hconsumed
    · cases happly
  | hornW c => exact horn_applied hsite happly
  | vni targetMod key => exact vni_applied hspell hexclusions hsite happly

/-- A modifier applied on the strength of a validation leaves a buffer that is not invalid, or only
    through the tone before a stop coda: always when the tones fit the coda, and else exactly when
    letters and place of the tone are sound. -/
theorem speculation_parity_iff {key : ModifierKey} (hspell : cfg.spellCheckEnabled)
    (hexclusions : cfg.spellExclusions = []) (hlen : st.states.length ≤ kVowelCap)
    (hkey : key.Routed cfg) (hsite : key.site cfg st = some d)
    (happly : key.handle cfg st = some st') :
    soundVerdict cfg st'.states ↔ tonesFitCoda st.states ∨ d.soundUntoned cfg st.states := by
  have hmarks := marks_of_site hkey hsite
  obtain ⟨hleft, haccepted⟩ := applied_of_handle hspell hexclusions hsite happly
  rw [hleft, soundVerdict_left_iff hmarks hlen]
  constructor
  · exact .inr
  · rintro (hfit | hsound)
    · exact soundUntoned_of_accepted hmarks hlen hspell haccepted hfit
    · exact hsound

end Handlers

end Locale

section Ascii
attribute [local instance] WideLocale.ascii

/-- `càc` with `w` waits for its tone: `cằc` is to become `cặc`. -/
theorem speculation_parity_cac : soundVerdict {}
    [{ base := 'c' }, { base := 'a', mod := .breve, tone := .grave }, { base := 'c' }] :=
  (@speculation_parity_iff _ {}
    { states := [{ base := 'c' }, { base := 'a', tone := .grave }, { base := 'c' }] }
    { states := [{ base := 'c' }, { base := 'a', mod := .breve, tone := .grave }, { base := 'c' }] }
    { target := 1, mod := .breve, speculates := false, relocation := .stay } (.hornW 'w')
    rfl rfl (by decide) trivial (by decide +kernel) (by decide +kernel)).2 (.inr (by decide +kernel))

/-- `gafchw` types `gằch`: the `w` is accepted for the grave before `ch`, and `ăch` is not a rime. -/
theorem speculation_parity_gach :
    let st := EngineState.run {} {} [.push 'g', .push 'a', .push 'f', .push 'c', .push 'h']
    let st' := EngineState.run {} st [.push 'w']
    st.states.length ≤ kVowelCap ∧
      (ModifierKey.hornW 'w').site {} st =
        some { target := 1, mod := .breve, speculates := false, relocation := .stay } ∧
      ((ModifierKey.hornW 'w').handle {} st).map (·.states) = some st'.states ∧
      soundVerdict {} st'.states = false := by
  refine ⟨?_, ?_, ?_, ?_⟩ <;> decide +kernel

end Ascii

end NextKey
