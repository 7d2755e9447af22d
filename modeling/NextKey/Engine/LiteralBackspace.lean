import NextKey.Engine.MarkEscapes
import NextKey.Engine.Reachable
import NextKey.Engine.Twins

/-!
# Taking a letter back

`Backspace` removes the last state and touches no other. So it undoes a letter that was appended just when the
letter left the text before it alone: `FinalizeRegularChar` moved no tone, completed no `ươ` and took no
`w` back, and the key escaped no mark.
-/

namespace NextKey

namespace EngineState

variable {st st' : EngineState} {c : Char} {i : Nat} [WideLocale] {cfg : TypingConfig}

/-- The tone rule, which is kept out while an escape is active. -/
def toneRule (cfg : TypingConfig) (st : EngineState) (action : TypingAction) (c : Char) :
    EngineState × Bool :=
  if st.escape = .none ∧ action.isTone then
    handleToneFsm cfg st action c (towlower c) (iswupper c)
  else (st, false)

/-- The modifier rule behind the tone rule. -/
def modifierRule (cfg : TypingConfig) (st : EngineState) (action : TypingAction) (c : Char) :
    EngineState × Bool :=
  handleModifierAction cfg (toneRule cfg st action c).1 action c (towlower c)

/-- A gate of the tone rule refuses the key, which is appended as it is. -/
def RefusesTone (cfg : TypingConfig) (st : EngineState) (action : TypingAction) (c : Char) : Prop :=
  st.escape = .none ∧ action.isTone ∧ st.states ≠ [] ∧
    (action = .clearTone ∧ cfg.effectiveSpellCheck ∧ st.spellCheckDisabled ∨
      action ≠ .clearTone ∧ (toneGates cfg st action.toTone c (towlower c)).2)

instance RefusesTone.decidable {action} : Decidable (RefusesTone cfg st action c) :=
  inferInstanceAs (Decidable (_ ∧ _ ∧ _ ∧ (_ ∨ _)))

/-- No rule for marks takes the key. -/
def PassesMarks (cfg : TypingConfig) (st : EngineState) (action : TypingAction) (c : Char) : Prop :=
  (toneRule cfg st action c).2 = false ∧ (modifierRule cfg st action c).2 = false

instance PassesMarks.decidable {action} : Decidable (PassesMarks cfg st action c) :=
  inferInstanceAs (Decidable (_ ∧ _))

/-- Without quick consonants a key goes through three rules. -/
lemma dispatch_eq_rules {action} (hq : cfg.QuickOff) :
    dispatch cfg st action c (towlower c) (iswupper c) =
      if (toneRule cfg st action c).2 then (toneRule cfg st action c).1
      else if (modifierRule cfg st action c).2 then (modifierRule cfg st action c).1
      else ((modifierRule cfg st action c).1.processChar (towlower c) (iswupper c)).finalizeRegularChar
        cfg := by
  rw [dispatch_eq, ← appendRegular_off hq.endConsonant]
  unfold modifierRule toneRule dispatchModifier
  by_cases htone : st.escape = .none ∧ action.isTone
  · rw [if_pos htone, if_pos htone]
  · rw [if_neg htone, if_neg htone, if_neg Bool.false_ne_true]

/-- `FinalizeRegularChar` leaves the states before a regular key alone: no tone moves, no half-horned `uo`
    is completed, and no leading `ư` goes back to `w`. -/
def KeepsLetters (cfg : TypingConfig) (st : EngineState) (c : Char) : Prop :=
  let buffer := st.states ++ [st.keyState c]
  movesTone cfg buffer = false ∧ (∀ i ∈ autoUOPositions buffer.length, ¬HalfHorned buffer i) ∧
    ¬(TakesBackW cfg buffer st.rawInput ∧ (checkEnglishBias buffer st.engProt).bias ≠ .hardEnglish)

instance KeepsLetters.decidable : Decidable (KeepsLetters cfg st c) :=
  inferInstanceAs (Decidable (_ ∧ _ ∧ _))

/-- The key is refused as a tone, or no rule takes it and the letters before it stay. -/
def LeavesLetters (cfg : TypingConfig) (st : EngineState) (c : Char) : Prop :=
  let action := classify cfg (st.press c) c (towlower c)
  RefusesTone cfg (st.press c) action c ∨
    PassesMarks cfg (st.press c) action c ∧
      KeepsLetters cfg (modifierRule cfg (st.press c) action c).1 c

instance LeavesLetters.decidable : Decidable (LeavesLetters cfg st c) :=
  inferInstanceAs (Decidable (_ ∨ _))

/-- A key appends one state, the letter as it was typed. -/
def AppendsLiteral (cfg : TypingConfig) (st : EngineState) (c : Char) : Prop :=
  let st' := st.pushChar cfg c
  st'.states.length = st.states.length + 1 ∧
    (charAt st'.states st.states.length).base = towlower c ∧
    (charAt st'.states st.states.length).isUpper = iswupper c ∧
    (charAt st'.states st.states.length).mod = .none

instance AppendsLiteral.decidable : Decidable (AppendsLiteral cfg st c) :=
  inferInstanceAs (Decidable (_ ∧ _ ∧ _ ∧ _))

/-- A state before the last one shows a different mark. -/
def ChangesMark (states states' : List CharState) : Prop :=
  ∃ i < states.length, (charAt states i).base ∈ markLetters ∧ (charAt states' i).base ∈ markLetters ∧
    ((charAt states' i).base ≠ (charAt states i).base ∨
      (charAt states' i).shownMod ≠ (charAt states i).shownMod ∨
      (charAt states' i).shownTone ≠ (charAt states i).shownTone)

omit [WideLocale] in
/-- The letters before the last. -/
lemma charAt_dropLast {states : List CharState} (hi : i + 1 < states.length) :
    charAt states.dropLast i = charAt states i := by
  rw [charAt, charAt, List.getD_eq_getElem?_getD, List.getD_eq_getElem?_getD, List.getElem?_dropLast,
    if_pos (by omega)]

/-- `Backspace` shows the other states as they are. -/
lemma Plain.backspace_peek (hp : st.Plain) (hne : st.states ≠ []) :
    (st.backspace cfg).peek = composeAll st.states.dropLast := by
  rw [hp.backspace_eq hne]
  rfl

/-- A changed mark shows when the letter behind it is removed. -/
lemma ChangesMark.peek_ne {states states' : List CharState} (h : ChangesMark states states')
    (hb : AsciiBases states) (hb' : AsciiBases states') (hlen : states'.length = states.length + 1) :
    composeAll states'.dropLast ≠ composeAll states := by
  obtain ⟨i, hi, hletter, hletter', hmarks⟩ := h
  intro hshown
  have hsame := @compose_charAt_congr _ _ _ hb (hb'.subset (List.dropLast_subset _)) hshown i
  rw [charAt_dropLast (by omega)] at hsame
  obtain ⟨hbase, hmod, htone⟩ := marks_of_compose hletter' hletter hsame
  rcases hmarks with hmarks | hmarks | hmarks
  · exact hmarks hbase
  · exact hmarks hmod
  · exact hmarks htone

omit [WideLocale] in
/-- The vowels take marks. -/
lemma markLetters_of_vowel {s : CharState} (h : s.isVowel) : s.base ∈ markLetters := by
  unfold CharState.isVowel isVowelBase at h
  simp only [Bool.or_eq_true, beq_iff_eq] at h
  unfold markLetters
  grind

/-- A half-horned pair that `ApplyAutoUO` completes changes a mark in front of the last state. -/
lemma halfHorned_changes {buffer : List CharState} {k : Nat}
    (hk : k ∈ autoUOPositions buffer.length) (h : HalfHorned buffer k) :
    ∃ j, j + 1 < buffer.length ∧ (charAt buffer j).base ∈ markLetters ∧
      (charAt buffer j).mod = .none ∧ (charAt (applyAutoUO cfg buffer) j).shownMod = .horn := by
  obtain ⟨-, hlt⟩ := mem_autoUOPositions.1 hk
  have hcompleted : ∀ {j}, j = k ∨ j = k + 1 → (charAt (applyAutoUO cfg buffer) j).mod = .horn := by
    intro j hj
    have hround : completedAt buffer (autoUOPositions buffer.length) j = true :=
      List.any_eq_true.2 ⟨k, hk, decide_eq_true ⟨h, hj⟩⟩
    rw [mod_applyAutoUO, if_pos hround]
  have hshown : ∀ {j v}, (charAt buffer j).base ∈ markLetters →
      modifiedVowel (charAt buffer j).base .horn = some v → j = k ∨ j = k + 1 →
      (charAt (applyAutoUO cfg buffer) j).shownMod = .horn := by
    intro j v hletter hv hj
    rw [← hcompleted hj, ← SameBases.applyAutoUO.charAt] at hv
    exact (shownMod_of_modified hv).trans (hcompleted hj)
  obtain ⟨-, hu, ho, hmods⟩ := h
  rcases hmods with ⟨hnone, -⟩ | ⟨-, hnone⟩
  · have hletter : (charAt buffer k).base ∈ markLetters := by rw [hu]; decide
    exact ⟨k, by omega, hletter, hnone, hshown hletter (by rw [hu]; rfl) (.inl rfl)⟩
  · have hletter : (charAt buffer (k + 1)).base ∈ markLetters := by rw [ho]; decide
    exact ⟨k + 1, by omega, hletter, hnone, hshown hletter (by rw [ho]; rfl) (.inr rfl)⟩

/-- A refused tone key is appended. -/
lemma RefusesTone.toneRule {action} (h : RefusesTone cfg st action c) :
    (toneRule cfg st action c).2 = true ∧
      (toneRule cfg st action c).1.states = st.states ++ [st.keyState c] := by
  obtain ⟨hescape, htone, hne, hgate⟩ := h
  unfold EngineState.toneRule
  rw [if_pos ⟨hescape, htone⟩]
  unfold handleToneFsm
  rw [if_neg hne]
  rcases hgate with ⟨hclear, hspell⟩ | ⟨hclear, hliteral⟩
  · rw [if_pos hclear, if_pos hspell]
    exact ⟨rfl, rfl⟩
  · have hnone : action.toTone ≠ .none := by
      cases action <;> first | decide | exact absurd rfl hclear | cases htone
    rw [if_neg hclear, if_neg hnone]
    dsimp only
    rw [if_pos hliteral]
    exact ⟨rfl, rfl⟩

/-- The second press of a tone key: the tone is cleared and the key appended. -/
def EscapesTone (cfg : TypingConfig) (st st' : EngineState) : Prop :=
  ∃ untoned i key, SameBodies st.states untoned ∧ (charAt st.states i).isVowel ∧
    (charAt st.states i).tone ≠ .none ∧ (charAt untoned i).tone = .none ∧
    st'.states = applyAutoUO cfg (untoned ++ [key])

omit [WideLocale] in
/-- What clearing a tone leaves. -/
lemma cancelTone_untoned (hi : i < st.states.length) :
    SameBodies st.states (st.cancelTone i).states ∧
      (charAt (st.cancelTone i).states i).tone = .none := by
  have huntoned : SameBodies st.states (st.states.modify i fun s => { s with tone := .none }) :=
    .modify fun _ => rfl
  have htone : (charAt (st.states.modify i fun s => { s with tone := .none }) i).tone = .none := by
    rw [charAt_modify hi, if_pos rfl]
  unfold cancelTone
  split
  · next idx _ =>
    obtain ⟨erased, herased⟩ : ∃ erased, erased = ({ st with
        states := st.states.modify i fun s => { s with tone := .none } } :
          EngineState).eraseConsumedRaw idx := ⟨_, rfl⟩
    have hbodies : SameBodies (st.states.modify i fun s => { s with tone := .none }) erased.states := by
      rw [herased]
      exact .eraseConsumedRaw
    have htones : erased.states.map (·.tone) =
        (st.states.modify i fun s => { s with tone := .none }).map (·.tone) := by
      rw [herased]
      unfold eraseConsumedRaw
      split
      · rfl
      · show (List.map _ _).map _ = _
        rw [List.map_map]
        rfl
    dsimp only
    rw [← herased]
    refine ⟨(huntoned.trans hbodies).trans (.modify fun _ => rfl), ?_⟩
    have hkept : (erased.states.modify i fun s => { s with toneRawIdx := none }).map (·.tone) =
        erased.states.map (·.tone) := List.map_modify_of_forall (by intro _; rfl)
    exact ((charAt_congr hkept).trans (charAt_congr htones)).trans htone
  · exact ⟨huntoned, htone⟩

/-- What follows a tone completes `ươ`. -/
lemma afterTone_states : (afterTone cfg st).states = applyAutoUO cfg st.states := by
  unfold afterTone
  split <;> rfl

/-- A tone key that finds its vowel. -/
lemma processTone_takes {tone} (hnone : tone ≠ .none) (h : processTone cfg st tone c = some st') :
    (afterTone cfg st').states.length = st.states.length ∨ EscapesTone cfg st (afterTone cfg st') := by
  unfold processTone at h
  split at h
  · cases h
  · next i hi =>
    obtain ⟨hlt, hvowel, -⟩ := findToneTarget_eq_some hi
    split at h
    · next hsame =>
      cases h
      obtain ⟨hbodies, huntoned⟩ := @cancelTone_untoned st i hlt
      refine .inr ⟨(st.cancelTone i).states, i, (st.cancelTone i).keyState c, hbodies, hvowel, ?_,
        huntoned, afterTone_states⟩
      rw [hsame]
      exact hnone
    · cases h
      refine .inl ?_
      rw [afterTone_states, SameBases.applyAutoUO.length_eq]
      exact List.length_modify _ _ _

/-- A tone key that is taken is refused, or applied or cleared in place, or escapes a tone. -/
lemma toneRule_takes {action} (h : (toneRule cfg st action c).2 = true) :
    RefusesTone cfg st action c ∨ (toneRule cfg st action c).1.states.length = st.states.length ∨
      EscapesTone cfg st (toneRule cfg st action c).1 := by
  revert h
  unfold toneRule
  split
  · next htone =>
    unfold handleToneFsm
    split
    · intro h
      cases h
    · next hne =>
      split
      · next hclear =>
        split
        · next hspell =>
          intro
          exact .inl ⟨htone.1, htone.2, hne, .inl ⟨hclear, hspell⟩⟩
        · split
          · next st' hst' =>
            intro
            unfold processClearTone at hst'
            split at hst'
            · cases hst'
            · split at hst'
              · cases hst'
              · cases hst'
                exact .inr (.inl (List.length_modify _ _ _))
          · intro h
            cases h
      · next hclear =>
        split
        · intro h
          cases h
        · next hnone =>
          dsimp only
          split
          · next hliteral =>
            intro
            exact .inl ⟨htone.1, htone.2, hne, .inr ⟨hclear, hliteral⟩⟩
          · split
            · next st' hst' =>
              intro
              exact .inr (@processTone_takes { st with
                engProt := (toneGates cfg st action.toTone c (towlower c)).1 } st' c _ cfg _ hnone hst')
            · intro h
              cases h
  · intro h
    cases h

omit [WideLocale] in
/-- A letter without a modifier does not show one. -/
lemma shownMod_none {s : CharState} (h : s.mod = .none) : s.shownMod = .none := by
  unfold CharState.shownMod
  split
  · exact h
  · rfl

/-- An escaped tone no longer shows, or a horn shows that did not. -/
lemma EscapesTone.changes (h : EscapesTone cfg st st') : ChangesMark st.states st'.states := by
  obtain ⟨untoned, i, key, hbodies, hvowel, htone, huntoned, hst'⟩ := h
  have hlt : i < st.states.length := by
    by_contra hout
    have hdefault : charAt st.states i = {} := by simp [charAt, Nat.le_of_not_lt hout]
    rw [hdefault] at htone
    exact htone rfl
  have hlt' : i < untoned.length := by rwa [hbodies.length_eq]
  have hbase : ∀ {j}, j < st.states.length →
      (charAt st'.states j).base = (charAt st.states j).base := by
    intro j hj
    rw [hst', SameBases.applyAutoUO.charAt, charAt_append (by rwa [hbodies.length_eq]),
      hbodies.bases.charAt]
  by_cases hpair : ∃ k ∈ autoUOPositions (untoned ++ [key]).length, HalfHorned (untoned ++ [key]) k
  · obtain ⟨k, hk, hhalf⟩ := hpair
    obtain ⟨j, hj, hletter, hnone, hshown⟩ := @halfHorned_changes _ cfg _ _ hk hhalf
    rw [List.length_append, List.length_singleton, hbodies.length_eq] at hj
    have hj' : j < st.states.length := by omega
    have hjlt : j < untoned.length := by rwa [hbodies.length_eq]
    rw [charAt_append hjlt, hbodies.bases.charAt] at hletter
    rw [charAt_append hjlt, hbodies.charAt_mod] at hnone
    refine ⟨j, hj', hletter, ?_, .inr (.inl ?_)⟩
    · rwa [hbase hj']
    · rw [hst', hshown, shownMod_none hnone]
      decide
  · have hkept : st'.states = untoned ++ [key] := by
      rw [hst', applyAutoUO_eq_self]
      intro k hk hhalf
      exact hpair ⟨k, hk, hhalf⟩
    have hletter := markLetters_of_vowel hvowel
    refine ⟨i, hlt, hletter, ?_, .inr (.inr ?_)⟩
    · rwa [hbase hlt]
    · have hnone : (charAt st'.states i).shownTone = .none := by
        unfold CharState.shownTone
        rw [hkept, charAt_append hlt', huntoned]
        exact ite_self _
      rw [hnone, CharState.shownTone, if_pos hvowel]
      exact htone.symm

/-- A taken key that appends itself has escaped a mark, and the mark no longer shows. -/
lemma TakesMark.changes (h : st.TakesMark st' c)
    (hlen : (applyAutoUO cfg st'.states).length = st.states.length + 1)
    (hmod : (charAt (applyAutoUO cfg st'.states) st.states.length).mod = .none) :
    ChangesMark st.states (applyAutoUO cfg st'.states) := by
  rw [SameBases.applyAutoUO.length_eq] at hlen
  rcases h with hle | ⟨states, s, hst', hs⟩ | ⟨cleared, i, hst', hclears⟩
  · omega
  · rw [hst', List.length_append, List.length_singleton] at hlen
    obtain hlen : states.length = st.states.length := by omega
    rw [mod_applyAutoUO, hst', ← hlen, charAt_concat] at hmod
    split at hmod
    · cases hmod
    · exact absurd hmod hs
  · have hlt : i < cleared.length := by
      rw [hclears.bases.length_eq]
      exact hclears.lt
    have hbase : (charAt (applyAutoUO cfg st'.states) i).base = (charAt st.states i).base := by
      rw [SameBases.applyAutoUO.charAt, hst', charAt_append hlt, hclears.bases.charAt]
    refine ⟨i, hclears.lt, hclears.letter, ?_, .inr (.inl ?_)⟩
    · rw [hbase]
      exact hclears.letter
    · intro hsame
      have hfinal := @mod_applyAutoUO st'.states i _ cfg
      split at hfinal
      · next hcompleted =>
        obtain ⟨k, hk, hpair⟩ := List.any_eq_true.1 hcompleted
        obtain ⟨-, hpos⟩ := mem_autoUOPositions.1 hk
        rw [decide_eq_true_eq, hst'] at hpair
        rw [hst', List.length_append, List.length_singleton] at hpos
        have hhalf := HalfHorned.of_append hpair.1 (by omega)
        have hhorn : (charAt (applyAutoUO cfg st'.states) i).shownMod = .horn := by
          have hshown := hclears.shown
          rw [← hsame] at hshown
          unfold CharState.shownMod at hshown ⊢
          split
          · exact hfinal
          · next hhidden =>
            rw [if_neg hhidden] at hshown
            exact absurd rfl hshown
        obtain ⟨hne, hne'⟩ := hclears.kept (hsame.symm.trans hhorn) k hhalf
        exact hpair.2.elim hne hne'
      · rw [hst', charAt_append hlt, hclears.none] at hfinal
        exact hclears.shown (hsame.symm.trans (shownMod_none (by rwa [hst'])))

/-- The modifier rule of full Telex takes a key. -/
lemma handleModifierAction_takes (hm : cfg.inputMethod = .telex)
    (h : (handleModifierAction cfg st (classifyTelex (towlower c)) c (towlower c)).2 = true) :
    ∃ taken, st.TakesMark taken c ∧
      (handleModifierAction cfg st (classifyTelex (towlower c)) c (towlower c)).1.states =
        applyAutoUO cfg taken.states := by
  have htelex : cfg.isTelexMode = true := by rw [TypingConfig.isTelexMode, hm]; rfl
  have hvni : cfg.isVniMode = false := by rw [TypingConfig.isVniMode, hm]; rfl
  have hcustom : (cfg.inputMethod == .userDefined) = false := by rw [hm]; rfl
  revert h
  unfold handleModifierAction
  dsimp only
  rw [htelex, hvni, hcustom]
  split
  · next htaken =>
    obtain ⟨prot, hprot⟩ := @markStrokeEnglish_eq st (classifyTelex (towlower c))
    rw [hprot]
    unfold tryModifier
    split
    · have htakes := @processModifier_takes { st with engProt := prot } c _ cfg hm htaken.2
      generalize processModifier cfg { st with engProt := prot } (classifyTelex (towlower c)) c =
        result at htakes ⊢
      obtain ⟨taken, consumed⟩ := result
      cases consumed with
      | true =>
        intro
        exact ⟨taken, htakes rfl, rfl⟩
      | false =>
        intro h
        cases h
    · intro h
      cases h
  · rw [if_neg (by simp), if_neg (by simp)]
    intro h
    cases h

/-- The states behind a regular key. -/
lemma regular_states : ((st.processChar (towlower c) (iswupper c)).finalizeRegularChar cfg).states =
    if TakesBackW cfg (regularBuffer cfg st c) st.rawInput ∧
        (checkEnglishBias (regularBuffer cfg st c) st.engProt).bias ≠ .hardEnglish then
      (regularBuffer cfg st c).modify 0 fun s => { s with base := 'w', mod := .none, synthetic := false }
    else regularBuffer cfg st c := by
  have hclosed : ((st.processChar (towlower c) (iswupper c)).finalizeRegularChar cfg).states =
      (closeRegular cfg { st with states := regularBuffer cfg st c }).states := by
    rw [finalizeRegularChar_eq]
    rfl
  rw [hclosed]
  unfold closeRegular
  dsimp only
  have hbias : ∀ {st : EngineState}, (if cfg.isTelexMode then
      { st with engProt := checkZwjfInitialBias st.states cfg st.engProt } else st).states =
      st.states := by
    intro st
    split <;> rfl
  rw [hbias]
  unfold revertSyntheticW
  dsimp only
  by_cases hback : TakesBackW cfg (regularBuffer cfg st c) st.rawInput ∧
      (checkEnglishBias (regularBuffer cfg st c) st.engProt).bias ≠ .hardEnglish
  · rw [if_pos hback, if_pos ⟨hback.1.1, hback.2, hback.1.2⟩]
  · rw [if_neg hback, if_neg fun h => hback ⟨⟨h.1, h.2.2⟩, h.2.1⟩]

/-- Where the letters stay, the key is appended. -/
lemma KeepsLetters.regular (h : KeepsLetters cfg st c) :
    ((st.processChar (towlower c) (iswupper c)).finalizeRegularChar cfg).states =
      st.states ++ [st.keyState c] := by
  obtain ⟨htone, hpairs, hback⟩ := h
  have hbuffer : regularBuffer cfg st c = st.states ++ [st.keyState c] := by
    show applyAutoUO cfg (relocateToneToTarget cfg (st.states ++ [st.keyState c])) = _
    rw [relocateToneToTarget_eq_self htone, applyAutoUO_eq_self hpairs]
  rw [regular_states, hbuffer, if_neg hback]

/-- Where they do not, a mark changes in front of the key. -/
lemma regular_changes (h : ¬KeepsLetters cfg st c)
    (hlast : (charAt ((st.processChar (towlower c) (iswupper c)).finalizeRegularChar cfg).states
      st.states.length).base = towlower c) :
    ChangesMark st.states
      ((st.processChar (towlower c) (iswupper c)).finalizeRegularChar cfg).states := by
  have hrelocated : SameBodies (st.states ++ [st.keyState c])
      (relocateToneToTarget cfg (st.states ++ [st.keyState c])) := .relocateToneToTarget
  have hbases : SameBases (st.states ++ [st.keyState c]) (regularBuffer cfg st c) :=
    SameBases.relocateToneToTarget.trans .applyAutoUO
  have hbase : ∀ {j}, j < st.states.length →
      (charAt (regularBuffer cfg st c) j).base = (charAt st.states j).base := by
    intro j hj
    rw [hbases.charAt, charAt_append hj]
  rw [regular_states] at hlast ⊢
  split
  · next hback =>
    -- the first letter is a `w` again
    rw [if_pos hback] at hlast
    have hu := hback.1.2.2.1
    have hlen : 0 < (regularBuffer cfg st c).length := lt_length_of_base hu (by decide)
    have hpos : 0 < st.states.length := by
      by_contra hempty
      rw [Nat.eq_zero_of_not_pos hempty, charAt_modify hlen, if_pos rfl] at hlast
      have hkey : (charAt (regularBuffer cfg st c) 0).base = towlower c := by
        rw [hbases.charAt, List.eq_nil_of_length_eq_zero (Nat.eq_zero_of_not_pos hempty)]
        rfl
      have hletter : 'w' = 'u' := hlast.trans (hkey.symm.trans hu)
      exact absurd hletter (by decide)
    have hu' : (charAt st.states 0).base = 'u' := (hbase hpos).symm.trans hu
    refine ⟨0, hpos, ?_, ?_, .inl ?_⟩
    · rw [hu']
      decide
    · rw [charAt_modify hlen, if_pos rfl]
      show 'w' ∈ markLetters
      decide
    · rw [charAt_modify hlen, if_pos rfl, hu']
      show 'w' ≠ 'u'
      decide
  · next hback =>
    by_cases hpair : ∃ k ∈ autoUOPositions (st.states ++ [st.keyState c]).length,
        HalfHorned (relocateToneToTarget cfg (st.states ++ [st.keyState c])) k
    · obtain ⟨k, hk, hhalf⟩ := hpair
      rw [← hrelocated.length_eq] at hk
      obtain ⟨j, hj, hletter, hnone, hshown⟩ := @halfHorned_changes _ cfg _ _ hk hhalf
      rw [hrelocated.length_eq, List.length_append, List.length_singleton] at hj
      have hj' : j < st.states.length := by omega
      rw [hrelocated.bases.charAt, charAt_append hj'] at hletter
      rw [hrelocated.charAt_mod, charAt_append hj'] at hnone
      refine ⟨j, hj', hletter, ?_, .inr (.inl ?_)⟩
      · rwa [hbase hj']
      · rw [shownMod_none hnone]
        exact fun h => absurd (hshown.symm.trans h) (by decide)
    · -- no pair is completed, so a tone has moved away from a letter before the key
      have hscan : regularBuffer cfg st c =
          relocateToneToTarget cfg (st.states ++ [st.keyState c]) := by
        refine applyAutoUO_eq_self fun k hk hhalf => hpair ⟨k, ?_, hhalf⟩
        rwa [← hrelocated.length_eq]
      have hmoves : movesTone cfg (st.states ++ [st.keyState c]) = true := by
        by_contra hstays
        rw [relocateToneToTarget_eq_self (Bool.eq_false_iff.2 hstays)] at hscan hpair
        rw [hscan] at hback
        exact h ⟨Bool.eq_false_iff.2 hstays, fun k hk hhalf => hpair ⟨k, hk, hhalf⟩, hback⟩
      obtain ⟨src, dst, hsrc, -, -, heq⟩ := relocateToneToTarget_eq_moveTone hmoves
      obtain ⟨hlt, hvowel, htoned⟩ := findTonedVowelIndex_eq_some hsrc
      have hsrc' : src < st.states.length := by
        rw [List.length_append, List.length_singleton] at hlt
        by_contra hkey
        obtain rfl : src = st.states.length := by omega
        rw [charAt_concat] at htoned
        cases htoned
      rw [charAt_append hsrc'] at hvowel htoned
      have hletter := markLetters_of_vowel hvowel
      refine ⟨src, hsrc', hletter, ?_, .inr (.inr ?_)⟩
      · rwa [hbase hsrc']
      · have hnone : (charAt (regularBuffer cfg st c) src).shownTone = .none := by
          rw [hscan, heq, moveTone, charAt_modify (by rwa [List.length_modify]), if_pos rfl]
          exact ite_self _
        rw [hnone, CharState.shownTone, if_pos hvowel]
        intro hsame
        rw [CharState.hasTone, ← hsame] at htoned
        cases htoned

/-- A key that the tone rule does not take changes the bias at most. -/
lemma toneRule_passes {action} (hc : AsciiKey c) (h : ¬(toneRule cfg st action c).2 = true) :
    st.OnlyBias (toneRule cfg st action c).1 := by
  unfold toneRule at h ⊢
  split
  · next hact =>
    have hgrows := @handleToneFsm_grows st c _ cfg action (iswupper c) hc
    unfold GrowsOr at hgrows
    rw [if_pos hact] at h
    rwa [if_neg h] at hgrows
  · exact .refl

/-- The same for the modifier rule behind it. -/
lemma modifierRule_passes {action} (hc : AsciiKey c) (htone : ¬(toneRule cfg st action c).2 = true)
    (h : ¬(modifierRule cfg st action c).2 = true) : st.OnlyBias (modifierRule cfg st action c).1 := by
  obtain ⟨prot, hprot⟩ := toneRule_passes hc htone
  unfold modifierRule at h ⊢
  rw [hprot] at h ⊢
  have hgrows := (@handleModifierAction_grows { st with engProt := prot } c _ cfg action (towlower c)
    hc).of_bias
  unfold GrowsOr at hgrows
  rwa [if_neg h] at hgrows

/-- A letter that the modifier rule takes, and that is appended, changes a mark. -/
lemma modifierRule_changes (hm : cfg.inputMethod = .telex) (hc : AsciiKey c)
    (htone : ¬(toneRule cfg st (classifyTelex (towlower c)) c).2 = true)
    (h : (modifierRule cfg st (classifyTelex (towlower c)) c).2 = true)
    (hlen : (modifierRule cfg st (classifyTelex (towlower c)) c).1.states.length =
      st.states.length + 1)
    (hmod : (charAt (modifierRule cfg st (classifyTelex (towlower c)) c).1.states
      st.states.length).mod = .none) :
    ChangesMark st.states (modifierRule cfg st (classifyTelex (towlower c)) c).1.states := by
  obtain ⟨prot, hprot⟩ := toneRule_passes hc htone
  unfold modifierRule at h hlen hmod ⊢
  rw [hprot] at h hlen hmod ⊢
  obtain ⟨taken, htakes, hstates⟩ := handleModifierAction_takes hm h
  rw [hstates] at hlen hmod ⊢
  exact htakes.changes hlen hmod

/-- A key that appended itself left the letters alone, or changed a mark of theirs. -/
lemma literal_cases (hm : cfg.inputMethod = .telex) (hq : cfg.QuickOff) (hp : st.Plain)
    (hc : AsciiKey c) (hliteral : AppendsLiteral cfg st c) :
    LeavesLetters cfg st c ∧ (∃ key, (st.pushChar cfg c).states = st.states ++ [key]) ∨
      ¬LeavesLetters cfg st c ∧ ChangesMark st.states (st.pushChar cfg c).states := by
  obtain ⟨hlen, hbase, -, hmod⟩ := hliteral
  have hrules : st.pushChar cfg c = _ := (pushChar_off hq hp).trans (dispatch_eq_rules hq)
  have hleaves : LeavesLetters cfg st c ↔
      RefusesTone cfg (st.press c) (classifyTelex (towlower c)) c ∨
        PassesMarks cfg (st.press c) (classifyTelex (towlower c)) c ∧
          KeepsLetters cfg (modifierRule cfg (st.press c) (classifyTelex (towlower c)) c).1 c := by
    rw [← @classify_telex (st.press c) c cfg _ hm]
    rfl
  rw [classify_telex hm] at hrules
  rw [hleaves]
  by_cases htone : (toneRule cfg (st.press c) (classifyTelex (towlower c)) c).2 = true
  · -- the tone rule takes the key: it is appended as refused, or a tone is escaped
    rw [if_pos htone] at hrules
    by_cases hrefused : RefusesTone cfg (st.press c) (classifyTelex (towlower c)) c
    · refine .inl ⟨.inl hrefused, ?_⟩
      rw [hrules]
      exact ⟨_, hrefused.toneRule.2⟩
    · refine .inr ⟨?_, ?_⟩
      · rintro (hrefused' | hpasses)
        · exact hrefused hrefused'
        · exact absurd (htone.symm.trans hpasses.1.1) (by decide)
      · rw [hrules] at hlen ⊢
        rcases toneRule_takes htone with hrefused' | hlength | hescaped
        · exact absurd hrefused' hrefused
        · rw [hlength] at hlen
          exact absurd hlen (Nat.ne_of_lt (Nat.lt_succ_self _))
        · exact hescaped.changes
  · have hopen : ¬RefusesTone cfg (st.press c) (classifyTelex (towlower c)) c :=
      fun h => htone h.toneRule.1
    rw [if_neg htone] at hrules
    by_cases hmodifier : (modifierRule cfg (st.press c) (classifyTelex (towlower c)) c).2 = true
    · -- the modifier rule takes the key: a mark is escaped
      rw [if_pos hmodifier] at hrules
      refine .inr ⟨?_, ?_⟩
      · rintro (hrefused | hpasses)
        · exact hopen hrefused
        · exact absurd (hmodifier.symm.trans hpasses.1.2) (by decide)
      · rw [hrules] at hlen hmod ⊢
        exact modifierRule_changes hm hc htone hmodifier hlen hmod
    · -- the key is a regular one
      rw [if_neg hmodifier] at hrules
      obtain ⟨prot, hprot⟩ := modifierRule_passes hc htone hmodifier
      by_cases hkept : KeepsLetters cfg
          (modifierRule cfg (st.press c) (classifyTelex (towlower c)) c).1 c
      · refine .inl ⟨?_, ?_⟩
        · exact .inr ⟨⟨Bool.eq_false_iff.2 htone, Bool.eq_false_iff.2 hmodifier⟩, hkept⟩
        · rw [hrules, hkept.regular, hprot]
          exact ⟨_, rfl⟩
      · refine .inr ⟨?_, ?_⟩
        · rintro (hrefused | hpasses)
          · exact hopen hrefused
          · exact hkept hpasses.2
        · rw [hrules] at hbase ⊢
          have hchanges := @regular_changes
            (modifierRule cfg (st.press c) (classifyTelex (towlower c)) c).1 c _ cfg hkept
          rw [hprot] at hbase hchanges ⊢
          exact hchanges hbase

/-- `Backspace` behind a key that appended itself shows the text before the key just when the key left the
    letters before it alone. -/
theorem backspace_undoes_iff (h : st.ReachableBy {}) (hc : AsciiKey c)
    (hliteral : AppendsLiteral {} st c) :
    ((st.pushChar {} c).backspace {}).peek = st.peek ↔ LeavesLetters {} st c := by
  have hq : ({} : TypingConfig).QuickOff := ⟨rfl, rfl, rfl⟩
  have hcustom : ({} : TypingConfig).inputMethod ≠ .userDefined := by decide
  have hp := h.plain hq hcustom
  have ht := h.reachable.typed
  obtain ⟨hlen, -⟩ := id hliteral
  have hne : (st.pushChar {} c).states ≠ [] := by
    intro hnil
    rw [hnil] at hlen
    cases hlen
  rw [(hp.pushChar hq hcustom).backspace_peek hne]
  rcases literal_cases rfl hq hp hc hliteral with ⟨hleaves, key, hkey⟩ | ⟨hleaves, hchanges⟩
  · refine iff_of_true ?_ hleaves
    rw [hkey, List.dropLast_concat]
    rfl
  · refine iff_of_false ?_ hleaves
    exact hchanges.peek_ne ht.bases (ht.pushChar hc).typed.bases hlen

end EngineState

section Ascii

attribute [local instance] WideLocale.ascii

open EngineState

/-- `gi` with an acute. -/
def acuteGi : EngineState := ((pushChar {} {} 'g').pushChar {} 'i').pushChar {} 's'

/-- The example is reached by typing. -/
lemma acuteGi_reachable : acuteGi.ReachableBy {} := by
  unfold acuteGi
  exact .push (.push (.push .init (by decide)) (by decide)) (by decide)

/-- A consonant behind `gí` is taken back. -/
theorem backspace_undoes_gin : ((acuteGi.pushChar {} 'n').backspace {}).peek = acuteGi.peek :=
  (backspace_undoes_iff acuteGi_reachable (by decide) (by decide +kernel)).2 (by decide +kernel)

/-- An `a` behind `gí` takes the tone, and `Backspace` takes it away with the letter. -/
theorem not_backspace_undoes_gia :
    ¬∀ (st : EngineState) (c : Char), st.ReachableBy {} → AsciiKey c → AppendsLiteral {} st c →
      ((st.pushChar {} c).backspace {}).peek = st.peek := by
  intro h
  exact absurd (h acuteGi 'a' acuteGi_reachable (by decide) (by decide +kernel)) (by decide +kernel)

end Ascii

end NextKey
