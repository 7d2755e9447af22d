import NextKey.Engine.Effects

/-!
# Auto-restore

What `Commit` gives back for a word that was typed without an escape. The raw input of such a word is
what was typed: the handlers that erase a keystroke from it, the second press of a tone and of an
insertion key, leave an escape behind. `Commit` then returns the composed word or the typed one, whose
first letter may take the case of the composed word.
-/

namespace NextKey

section Locale
variable [WideLocale]

namespace EngineState

variable {cfg : TypingConfig} {st st' : EngineState} {c : Char}

/-- The raw input is kept, unless an escape is active now. -/
def KeepsRaw (st st' : EngineState) : Prop := st'.escape = .none → st'.rawInput = st.rawInput

omit [WideLocale] in
/-- The keys are the same. -/
lemma KeepsRaw.of_eq (h : st'.rawInput = st.rawInput) : st.KeepsRaw st' := fun _ => h

/-- Taking an inserted letter back escapes. -/
lemma undoInsert?_keepsRaw {base mod kind} (hkind : kind ≠ .none)
    (h : undoInsert? st c base mod kind = some st') : st.KeepsRaw st' := by
  unfold undoInsert? at h
  split at h
  · split at h
    · cases h
      exact fun hescape => absurd hescape hkind
    · cases h
  · cases h

/-- A bracket keeps the keys or escapes. -/
lemma handleHornInsert_keepsRaw {action} (h : handleHornInsert cfg st action c = some st') :
    st.KeepsRaw st' := by
  simp only [handleHornInsert] at h
  split at h
  · cases h
  · split at h
    · next hundo =>
      cases h
      exact undoInsert?_keepsRaw (by decide) hundo
    · cases h
      exact .of_eq rfl

/-- A stroke keeps the keys or escapes. -/
lemma handleStrokeD_keepsRaw (h : handleStrokeD cfg st c = some st') : st.KeepsRaw st' := by
  unfold handleStrokeD at h
  split at h
  · cases h
  · split at h
    · cases h
    · split at h
      · cases h
        exact .of_eq rfl
      · split at h
        · cases h
        · split at h
          · cases h
          · cases h
            exact .of_eq rfl
      · cases h

/-- A vowel typed twice keeps the keys or escapes. -/
lemma adjacentCircumflex_keepsRaw {targetBase} (h : adjacentCircumflex cfg st targetBase c = some st') :
    st.KeepsRaw st' := by
  simp only [adjacentCircumflex] at h
  split at h
  · cases h
    exact .of_eq rfl
  · split at h
    · cases h
      split <;> exact .of_eq rfl
    · split at h
      · split at h
        · cases h
        · cases h
          exact .of_eq rfl
      · split at h
        · cases h
        · cases h
          exact .of_eq rfl

/-- A circumflex further back keeps the keys. -/
lemma freeCircumflex_rawInput {targetBase} :
    (freeCircumflex cfg st targetBase c).1.rawInput = st.rawInput := by
  simp only [freeCircumflex]
  repeat' first | rfl | split

/-- The circumflex of Telex keeps the keys or escapes. -/
lemma handleAdjacentCircumflex_keepsRaw {action} :
    st.KeepsRaw (handleAdjacentCircumflex cfg st action c).1 := by
  simp only [handleAdjacentCircumflex]
  generalize (if cfg.inputMethod = .userDefined then action.toVowel else towlower c) = targetBase
  split
  · exact .of_eq rfl
  · split
    · split
      · next h => exact adjacentCircumflex_keepsRaw h
      · exact .of_eq rfl
    · split
      · exact .of_eq rfl
      · split
        · exact .of_eq freeCircumflex_rawInput
        · exact .of_eq rfl

omit [WideLocale] in
/-- What a `w` key leaves has the raw input that it found. -/
def HornOutcome.KeepsRaw (st : EngineState) : HornOutcome → Prop
  | .horned _ => True
  | .done st' => st'.rawInput = st.rawInput

/-- The horns of a pair keep the keys or escape. -/
lemma hornPair_keepsRaw {u outcome} (h : hornPair st c u = some outcome) : outcome.KeepsRaw st := by
  simp only [hornPair] at h
  split at h
  · split at h <;> cases h <;> trivial
  · split at h
    · cases h
      trivial
    · split at h
      · cases h
        trivial
      · split at h
        · cases h
          rfl
        · split at h <;> cases h
          rfl

/-- The escape of a horn keeps the keys. -/
lemma hornEscape_rawInput {scan} (h : hornEscape st c scan = some st') :
    st'.rawInput = st.rawInput := by
  simp only [hornEscape] at h
  split at h
  · split at h <;> cases h <;> rfl
  · split at h <;> cases h
    rfl

/-- A `w` that types `ư` keeps the keys. -/
lemma hornSynthetic_rawInput (h : hornSynthetic cfg st c = some st') : st'.rawInput = st.rawInput := by
  simp only [hornSynthetic] at h
  split at h
  · cases h
  · split at h <;> cases h
    rfl

/-- The horn of a single vowel keeps the keys or escapes. -/
lemma hornStandalone_keepsRaw {scan outcome} (h : hornStandalone cfg st c scan = some outcome) :
    outcome.KeepsRaw st := by
  simp only [hornStandalone] at h
  split at h
  · split at h <;> cases h
    trivial
  · split at h
    · split at h <;> cases h
      trivial
    · split at h
      · split at h <;> cases h
        rfl
      · obtain ⟨st', hsynthetic, rfl⟩ := Option.map_eq_some_iff.1 h
        exact hornSynthetic_rawInput hsynthetic

/-- Whatever a `w` does keeps the keys or escapes. -/
lemma hornOutcome_keepsRaw {outcome} (h : hornOutcome cfg st c = some outcome) :
    outcome.KeepsRaw st := by
  simp only [hornOutcome] at h
  split at h
  · cases h
  · split at h
    · cases h
      trivial
    · split at h
      · next hpair =>
        cases h
        obtain ⟨u, -, hpair⟩ := Option.bind_eq_some_iff.1 hpair
        exact hornPair_keepsRaw hpair
      · split at h
        · cases h
          rfl
        · split at h
          · next hescape =>
            cases h
            exact hornEscape_rawInput hescape
          · exact hornStandalone_keepsRaw h

/-- A `w` keeps the keys or escapes. -/
lemma handleHornW_keepsRaw (h : handleHornW cfg st c = some st') : st.KeepsRaw st' := by
  unfold handleHornW at h
  split at h
  · cases h
    exact .of_eq rfl
  · next hdone =>
    cases h
    exact .of_eq (hornOutcome_keepsRaw hdone)
  · cases h

/-- A mark of VNI keeps the keys. -/
lemma vniApply_rawInput {mod key i} (h : vniApply cfg st mod key i = some st') :
    st'.rawInput = st.rawInput := by
  simp only [vniApply] at h
  split at h
  · split at h <;> cases h
    rfl
  · split at h <;> cases h
    rfl

/-- The circumflex and the breve of VNI keep the keys or escape. -/
lemma processVniVowelModifier_keepsRaw {mod key}
    (h : processVniVowelModifier cfg st mod key = some st') : st.KeepsRaw st' := by
  simp only [processVniVowelModifier] at h
  split at h
  · exact .of_eq (vniApply_rawInput h)
  · split at h
    · cases h
      exact .of_eq rfl
    · split at h <;> cases h
      exact .of_eq rfl

/-- The horns of a pair in VNI keep the keys. -/
lemma vniHornPair_rawInput {u} (h : vniHornPair cfg st c u = some st') :
    st'.rawInput = st.rawInput := by
  simp only [vniHornPair] at h
  split at h
  · split at h <;> cases h <;> rfl
  · split at h
    · cases h
      rfl
    · split at h
      · cases h
        rfl
      · split at h <;> cases h
        rfl

/-- The horn of `uu` in VNI keeps the keys. -/
lemma vniHornUU_rawInput {firstU lastU} (h : vniHornUU cfg st c firstU lastU = some st') :
    st'.rawInput = st.rawInput := by
  simp only [vniHornUU] at h
  split at h
  · cases h
  · split at h
    · cases h
      rfl
    · split at h <;> cases h
      rfl

/-- The horn of VNI keeps the keys or escapes. -/
lemma handleVniHorn_keepsRaw (h : handleVniHorn cfg st c = some st') : st.KeepsRaw st' := by
  simp only [handleVniHorn] at h
  split at h
  · next hpair =>
    split at hpair
    · split at hpair
      · cases h
        exact .of_eq (vniHornPair_rawInput hpair)
      · cases hpair
    · cases hpair
  · split at h
    · next huu =>
      split at huu
      · cases h
        exact .of_eq (vniHornUU_rawInput huu)
      · cases huu
    · exact processVniVowelModifier_keepsRaw h

omit [WideLocale] in
/-- The result of a handler that may decline the key. -/
lemma KeepsRaw.of_option {result : Option EngineState} :
    (∀ st', result = some st' → st.KeepsRaw st') →
      st.KeepsRaw
        (match result with
          | some st' => (st', true)
          | none => (st, false)).1 := by
  intro h
  cases result with
  | none => exact .of_eq rfl
  | some st' => exact h st' rfl

/-- Every key with a mark keeps the keys or escapes. -/
lemma processModifier_keepsRaw {action} (ha : action.isTelexModifier ∨ action.isVniModifier) :
    st.KeepsRaw (processModifier cfg st action c).1 := by
  cases action <;> simp only [TypingAction.isTelexModifier, TypingAction.isVniModifier,
    Bool.false_eq_true, or_self] at ha <;> simp only [processModifier]
  case hornInsertO => exact .of_option fun _ h => handleHornInsert_keepsRaw h
  case hornInsertU => exact .of_option fun _ h => handleHornInsert_keepsRaw h
  case hornW => exact .of_option fun _ h => handleHornW_keepsRaw h
  case circumflexA => exact handleAdjacentCircumflex_keepsRaw
  case circumflexE => exact handleAdjacentCircumflex_keepsRaw
  case circumflexO => exact handleAdjacentCircumflex_keepsRaw
  case strokeD => exact .of_option fun _ h => handleStrokeD_keepsRaw h
  case vniStroke => exact .of_option fun _ h => handleStrokeD_keepsRaw h
  case vniCircumflex => exact .of_option fun _ h => processVniVowelModifier_keepsRaw h
  case vniBreve => exact .of_option fun _ h => processVniVowelModifier_keepsRaw h
  case vniHorn => exact .of_option fun _ h => handleVniHorn_keepsRaw h

/-- A mark that is tried keeps the keys or escapes. -/
lemma tryModifier_keepsRaw {action lower checkRaw checkSpell}
    (ha : action.isTelexModifier ∨ action.isVniModifier) :
    st.KeepsRaw (tryModifier cfg st action c lower checkRaw checkSpell).1 := by
  unfold tryModifier
  have hkeeps : st.KeepsRaw (processModifier cfg st action c).1 := processModifier_keepsRaw ha
  split
  · split
    · next st' heq =>
      rw [heq] at hkeeps
      exact hkeeps
    · next st' heq =>
      rw [heq] at hkeeps
      exact hkeeps
  · exact .of_eq rfl

/-- An action with a mark keeps the keys or escapes. -/
lemma handleModifierAction_keepsRaw {action lower} (hm : cfg.inputMethod ≠ .userDefined) :
    st.KeepsRaw (handleModifierAction cfg st action c lower).1 := by
  have marked : ∀ {checkRaw}, action.isTelexModifier ∨ action.isVniModifier →
      st.KeepsRaw (tryModifier cfg (markStrokeEnglish st action) action c lower checkRaw true).1 := by
    intro checkRaw ha
    obtain ⟨prot, hprot⟩ : ∃ prot, markStrokeEnglish st action = { st with engProt := prot } :=
      markStrokeEnglish_eq
    rw [hprot]
    exact tryModifier_keepsRaw ha
  have hud : (cfg.inputMethod == .userDefined) = false := by simpa using hm
  simp only [handleModifierAction, hud, Bool.false_eq_true, or_false, false_and, if_false]
  split
  · next h => exact marked (.inl h.2)
  · split
    · next h => exact marked (.inr h.2)
    · exact .of_eq rfl

omit [WideLocale] in
/-- What follows a tone or a regular character does not touch the raw input. -/
lemma KeepsRaw.trans {st₁ st₂ : EngineState} (h : st.KeepsRaw st₁)
    (h' : st₂.rawInput = st₁.rawInput ∧ st₂.escape = st₁.escape) : st.KeepsRaw st₂ :=
  fun hescape => h'.1.trans (h (h'.2 ▸ hescape))

/-- A `w` that is taken back keeps the keys. -/
lemma revertSyntheticW_rawInput : (revertSyntheticW cfg st).rawInput = st.rawInput ∧
    (revertSyntheticW cfg st).escape = st.escape := by
  simp only [revertSyntheticW]
  split <;> exact ⟨rfl, rfl⟩

/-- The end of a regular character keeps the keys. -/
lemma finalizeRegularChar_rawInput : (finalizeRegularChar cfg st).rawInput = st.rawInput ∧
    (finalizeRegularChar cfg st).escape = st.escape := by
  simp only [finalizeRegularChar]
  split <;> exact revertSyntheticW_rawInput

/-- What follows a tone keeps the keys. -/
lemma afterTone_rawInput : (afterTone cfg st).rawInput = st.rawInput ∧
    (afterTone cfg st).escape = st.escape := by
  unfold afterTone
  split <;> exact ⟨rfl, rfl⟩

/-- A tone keeps the keys or escapes. -/
lemma processTone_keepsRaw {tone} (h : processTone cfg st tone c = some st') : st.KeepsRaw st' := by
  unfold processTone at h
  split at h
  · cases h
  · split at h
    · cases h
      exact fun hescape => by cases hescape
    · cases h
      exact .of_eq rfl

/-- A tone key keeps the keys or escapes. -/
lemma handleToneFsm_keepsRaw {action lower isUpper} :
    st.KeepsRaw (handleToneFsm cfg st action c lower isUpper).1 := by
  simp only [handleToneFsm]
  split
  · exact .of_eq rfl
  · split
    · split
      · exact .of_eq rfl
      · split
        · next h =>
          unfold processClearTone at h
          split at h
          · cases h
          · split at h <;> cases h
            exact .of_eq rfl
        · exact .of_eq rfl
    · split
      · exact .of_eq rfl
      · split
        · exact .of_eq rfl
        · split
          · next toned h =>
            have hkeeps : KeepsRaw { st with engProt := _ } toned := processTone_keepsRaw h
            exact KeepsRaw.trans hkeeps afterTone_rawInput
          · exact .of_eq rfl

/-- Without quick end consonants the rules after the classification keep the raw input, unless an
    escape is active afterwards. -/
lemma dispatch_keepsRaw {action lower isUpper} (hm : cfg.inputMethod ≠ .userDefined)
    (hq : cfg.quickEndConsonant = false) :
    st.KeepsRaw (dispatch cfg st action c lower isUpper) := by
  have passes : ∀ {tone? prot result}, Outcome tone? True { st with engProt := prot } result →
      st.KeepsRaw result.1 → Passes { st with engProt := prot } st.KeepsRaw result := by
    intro tone? prot result ho hkeeps
    unfold Outcome at ho
    unfold Passes
    split
    · exact hkeeps
    · next hpassed =>
      rw [if_neg hpassed] at ho
      exact ho
  refine dispatch_rule (fun hescape _ => ?_) (fun _ => ?_) ?_
  · exact @passes _ st.engProt _ (handleToneFsm_outcome hescape fun _ h => h) handleToneFsm_keepsRaw
  · exact @passes none _ _ (handleModifierAction_outcome hm fun _ => trivial)
      (handleModifierAction_keepsRaw hm)
  · intro prot
    rw [appendRegular_off hq]
    exact .trans (.of_eq rfl) finalizeRegularChar_rawInput

/-- A key is recorded, unless an escape is active afterwards. -/
lemma pushChar_rawInput (hq : cfg.QuickOff) (hm : cfg.inputMethod ≠ .userDefined) (hp : st.Plain)
    (hescape : (st.pushChar cfg c).escape = .none) :
    (st.pushChar cfg c).rawInput = st.rawInput ++ [c] := by
  rw [pushChar_off hq hp] at hescape ⊢
  exact dispatch_keepsRaw hm hq.endConsonant hescape

/-- The event leaves no escape behind. -/
def FiresNoEscape (cfg : TypingConfig) (st : EngineState) (event : EngineEvent) : Prop :=
  (st.step cfg event).escape = .none

instance {event} : Decidable (FiresNoEscape cfg st event) := inferInstanceAs (Decidable (_ = _))

/-- Keys that fire no escape are all in the raw input. -/
lemma run_rawInput {keys : List Char} (hq : cfg.QuickOff) (hm : cfg.inputMethod ≠ .userDefined)
    (hp : st.Plain) (h : Machine.Guarded (step cfg) (FiresNoEscape cfg) st (keys.map .push)) :
    (run cfg st (keys.map .push)).Plain ∧
      (run cfg st (keys.map .push)).rawInput = st.rawInput ++ keys := by
  induction keys generalizing st with
  | nil => exact ⟨hp, (List.append_nil _).symm⟩
  | cons key keys ih =>
    obtain ⟨hplain, hraw⟩ := ih (hp.pushChar hq hm) h.2
    refine ⟨hplain, hraw.trans ?_⟩
    show (st.pushChar cfg key).rawInput ++ keys = st.rawInput ++ key :: keys
    rw [pushChar_rawInput hq hm hp h.1, List.append_assoc, List.singleton_append]

/-- The text is what was typed, or that with the first letter upper-cased as the composed word
    starts. -/
def IsTyped (keys composed text : List Char) : Prop :=
  text = keys ∨ ∃ key rest ch, keys = key :: rest ∧ composed.head? = some ch ∧ iswupper ch ∧
    text = towupper key :: rest

/-- What `Commit` returns without quick consonants. -/
lemma commitText_cases (hp : st.Plain) : st.commitText cfg = st.peek ∨
    cfg.spellCheckEnabled ∧ cfg.autoRestoreEnabled ∧
      IsTyped st.rawInput st.peek (st.commitText cfg) := by
  obtain ⟨hqc, hkey⟩ := hp
  simp only [commitText, hqc, hkey]
  split
  · next h => simp at h
  · split
    · next h =>
      have hflags : cfg.spellCheckEnabled ∧ cfg.autoRestoreEnabled := by
        simpa [QuickConsonantState.hasActive] using h.1
      split
      · next key rest ch word hraw hword =>
        split
        · next hupper =>
          split
          · exact .inr ⟨hflags.1, hflags.2, .inr ⟨key, rest, ch, hraw, by rw [hword]; rfl, hupper, rfl⟩⟩
          · exact .inl rfl
        · split
          · exact .inr ⟨hflags.1, hflags.2, .inl rfl⟩
          · exact .inl rfl
      · split
        · exact .inr ⟨hflags.1, hflags.2, .inl rfl⟩
        · exact .inl rfl
    · exact .inl rfl

end EngineState

/-- A word of keys that fire no escape is committed as it was composed, or with spell check and
    auto-restore as it was typed; the engine is reset. -/
theorem commit_of_typed {cfg : TypingConfig} (hq : cfg.QuickOff) (hm : cfg.inputMethod ≠ .userDefined)
    (keys : List Char)
    (h : Machine.Guarded (EngineState.step cfg) (EngineState.FiresNoEscape cfg) {} (keys.map .push)) :
    let st := EngineState.run cfg {} (keys.map .push)
    (st.commit cfg).1 = {} ∧
      ((st.commit cfg).2 = st.peek ∨
        cfg.spellCheckEnabled ∧ cfg.autoRestoreEnabled ∧
          EngineState.IsTyped keys st.peek (st.commit cfg).2) := by
  intro st
  obtain ⟨hplain, hraw⟩ := EngineState.run_rawInput hq hm ⟨rfl, rfl⟩ h
  refine ⟨rfl, ?_⟩
  have hcommit := @EngineState.commitText_cases _ cfg st hplain
  rw [hraw] at hcommit
  exact hcommit

end Locale

section Ascii
attribute [local instance] WideLocale.ascii

/-- `Hoasb` shows as `Hoáb` and is committed as it was typed. -/
theorem commit_of_typed_hoasb :
    let st := EngineState.run {} {} (['H', 'o', 'a', 's', 'b'].map .push)
    st.peek = ['H', 'o', 'á', 'b'] ∧ (st.commit {}).2 = ['H', 'o', 'a', 's', 'b'] ∧
      (st.commit {}).1 = {} ∧
      ((st.commit {}).2 = st.peek ∨
        EngineState.IsTyped ['H', 'o', 'a', 's', 'b'] st.peek (st.commit {}).2) := by
  intro st
  have h := @commit_of_typed _ {} ⟨rfl, rfl, rfl⟩ (by decide) ['H', 'o', 'a', 's', 'b']
    (by decide +kernel)
  exact ⟨by decide +kernel, by decide +kernel, h.1, h.2.imp_right fun h => h.2.2⟩

end Ascii

end NextKey
