import NextKey.Engine.Effects

/-!
# An emptied engine

`Backspace` on the last state leaves the engine without states, and `HookEngine` then takes the next
key for the start of a word without calling `Reset`. The engine is as good as reset exactly when the
raw input went with the last state: `rawInput_` is cut at the raw index of the removed state, which is
not 0 when an escape replaced the first state, and a pending quick consonant escape is not forgotten.
The results hold for every configuration.
-/

namespace NextKey

/-- What is reworked is as long. -/
lemma Reworks.length_eq {states states'} (h : Reworks states states') :
    states'.length = states.length := by
  induction h with
  | marks h => simpa using congrArg List.length h
  | move => simp [moveTone]
  | clear => simp [clearTone]
  | trans _ _ ih₁ ih₂ => exact ih₂.trans ih₁

/-- The relocation to the horn keeps the length. -/
lemma length_relocateToneToHornVowel {states} :
    (relocateToneToHornVowel states).length = states.length := by
  simp only [relocateToneToHornVowel]
  split
  · split
    · simp [moveToneOnly]
    · rfl
  · rfl

section Locale
variable [WideLocale] {cfg : TypingConfig} {st st' : EngineState}

/-- A key does not empty the buffer. -/
lemma Effect.ne_nil {tone? strands raw states raw' states'}
    (h : Effect tone? strands raw states raw' states') (hne : states ≠ []) : states' ≠ [] := by
  induction h with
  | consumed h =>
    rw [← List.length_pos_iff] at hne ⊢
    rwa [h.length_eq]
  | literal => simp
  | toned =>
    rw [← List.length_pos_iff] at hne ⊢
    simpa [applyTone] using hne
  | stranded _ h =>
    have hlen := congrArg List.length h
    rw [← List.length_pos_iff] at hne ⊢
    rw [length_relocateToneToHornVowel]
    simp only [List.length_map] at hlen
    omega
  | rework _ h ih =>
    rw [← List.length_pos_iff] at ih ⊢
    rwa [h.length_eq]

namespace EngineState

/-- A consumed key: the quick consonant record is the same and the buffer has a state. -/
def Settled (st st' : EngineState) : Prop := st'.qc = st.qc ∧ st'.states ≠ []

/-- An effect on letters settles. -/
lemma HasEffect.settled {tone? strands} (h : st.HasEffect tone? strands st') (hne : st.states ≠ []) :
    st.Settled st' := ⟨h.session.2.1, h.effect.ne_nil hne⟩

omit [WideLocale] in
/-- There is no first index among none. -/
@[simp] lemma firstIdx?_zero {p} : firstIdx? 0 p = none := rfl

omit [WideLocale] in
/-- There is no last index among none. -/
@[simp] lemma lastIdx?_zero {p} : lastIdx? 0 p = none := rfl

omit [WideLocale] in
/-- No scan of the `w` key finds anything in an empty buffer. -/
lemma hornScan_nil : hornScan [] = ⟨none, none, none, none, none, none⟩ := rfl

/-- On an empty buffer the `w` key inserts `ư` or is not consumed. -/
lemma handleHornW_nil {c} (hnil : st.states = []) (h : handleHornW cfg st c = some st') :
    st.Settled st' := by
  have hout : hornOutcome cfg st c =
      if cfg.inputMethod = .simpleTelex then none else (hornSynthetic cfg st c).map .done := by
    simp [hornOutcome, hornEscape, hornStandalone, hnil, hornScan_nil, vowelPair?]
  unfold handleHornW at h
  rw [hout] at h
  split at h
  · next heq =>
    split at heq
    · cases heq
    · obtain ⟨_, -, heq⟩ := Option.map_eq_some_iff.1 heq
      cases heq
  · next heq =>
    split at heq
    · cases heq
    · obtain ⟨st₁, hsyn, hdone⟩ := Option.map_eq_some_iff.1 heq
      cases hdone
      cases h
      simp only [hornSynthetic] at hsyn
      split at hsyn
      · cases hsyn
      · split at hsyn
        · cases hsyn
        · cases hsyn
          exact ⟨rfl, by simp⟩
  · cases h

omit [WideLocale] in
/-- In an empty buffer no `d` is found. -/
lemma findStrokeDTarget_nil : findStrokeDTarget [] = none := rfl

/-- The brackets leave a state, whatever the buffer. -/
lemma undoInsert?_settled {c base mod kind} (h : undoInsert? st c base mod kind = some st') :
    st.Settled st' := by
  have he : st.HasEffect none False st' := undoInsert?_effect h
  refine ⟨he.session.2.1, ?_⟩
  unfold undoInsert? at h
  split at h
  · split at h
    · cases h
      simp [escapeWith, processKey, processChar]
    · cases h
  · cases h

/-- A bracket settles. -/
lemma handleHornInsert_settled {action c} (h : handleHornInsert cfg st action c = some st') :
    st.Settled st' := by
  simp only [handleHornInsert] at h
  split at h
  · cases h
  · split at h
    · next hu =>
      cases h
      exact undoInsert?_settled hu
    · cases h
      exact ⟨rfl, by simp⟩

/-- An inserted glyph settles. -/
lemma handleInsertChar_settled {action c} (h : handleInsertChar st action c = some st') :
    st.Settled st' := by
  unfold handleInsertChar at h
  split at h
  · cases h
  · split at h
    · next hu =>
      cases h
      exact undoInsert?_settled hu
    · cases h
      exact ⟨rfl, by simp⟩

omit [WideLocale] in
/-- All marks taken off settle. -/
lemma handleUndoAllMarks_settled (h : handleUndoAllMarks st = some st') : st.Settled st' := by
  unfold handleUndoAllMarks at h
  split at h
  · next hany =>
    cases h
    refine ⟨rfl, fun hnil => ?_⟩
    rw [List.map_eq_nil_iff.1 hnil] at hany
    simp at hany
  · cases h

/-- A `w` settles. -/
lemma handleHornW_settled {c} (h : handleHornW cfg st c = some st') : st.Settled st' := by
  by_cases hnil : st.states = []
  · exact handleHornW_nil hnil h
  · have he : st.HasEffect none True st' := handleHornW_effect (fun _ => trivial) h
    exact he.settled hnil

/-- A horn or an inserted `ư` settles. -/
lemma handleHornOrInsertU_settled {action c} (h : handleHornOrInsertU cfg st action c = some st') :
    st.Settled st' := by
  unfold handleHornOrInsertU at h
  split at h
  · cases h
  · split at h
    · next hw =>
      cases h
      exact handleHornW_settled hw
    · split at h
      · next hi =>
        have hs := handleHornInsert_settled hi
        split at h
        · cases h
          refine ⟨hs.1, ?_⟩
          rw [← List.length_pos_iff]
          simpa [List.length_pos_iff] using hs.2
        · cases h
          exact hs
      · cases h

/-- Consumed with a state in the buffer, or not consumed with at most a change of bias. -/
def Settles (st : EngineState) (result : EngineState × Bool) : Prop :=
  if result.2 then st.Settled result.1 else st.OnlyBias result.1

/-- What comes of a key on letters settles. -/
lemma Outcome.settles {tone? strands result} (h : Outcome tone? strands st result)
    (hne : st.states ≠ []) : st.Settles result := by
  unfold Outcome at h
  unfold Settles
  split
  · next hc =>
    rw [if_pos hc] at h
    exact h.settled hne
  · next hc =>
    rw [if_neg hc] at h
    exact h

omit [WideLocale] in
/-- The result of a handler that may decline the key. -/
lemma Settles.of_option {result : Option EngineState} :
    (∀ st', result = some st' → st.Settled st') →
      st.Settles
        (match result with
          | some st' => (st', true)
          | none => (st, false)) := by
  intro h
  cases result with
  | none => exact OnlyBias.refl
  | some st' => exact h st' rfl

/-- Every modifier key, the user-defined ones included. -/
lemma processModifier_settles {action c} : st.Settles (processModifier cfg st action c) := by
  have stroke : ∀ st', handleStrokeD cfg st c = some st' → st.Settled st' := by
    intro st' hs
    have he : st.HasEffect none True st' := handleStrokeD_effect hs
    refine he.settled fun hnil => ?_
    simp [handleStrokeD, hnil, findStrokeDTarget_nil] at hs
  have vni : ∀ {mod} st', processVniVowelModifier cfg st mod c = some st' → st.Settled st' := by
    intro mod st' hs
    have he : st.HasEffect none True st' := processVniVowelModifier_effect hs
    refine he.settled fun hnil => ?_
    simp [processVniVowelModifier, hnil] at hs
  have vniHorn : ∀ st', handleVniHorn cfg st c = some st' → st.Settled st' := by
    intro st' hs
    have he : st.HasEffect none True st' := handleVniHorn_effect hs
    refine he.settled fun hnil => ?_
    simp [handleVniHorn, processVniVowelModifier, hnil] at hs
  have insert : ∀ st', handleInsertChar st action c = some st' → st.Settled st' :=
    fun _ h => handleInsertChar_settled h
  have circumflex : st.Settles (handleAdjacentCircumflex cfg st action c) := by
    by_cases hnil : st.states = []
    · simp only [handleAdjacentCircumflex, hnil]
      exact OnlyBias.refl
    · have ho : Outcome none True st (handleAdjacentCircumflex cfg st action c) :=
        handleAdjacentCircumflex_outcome
      exact ho.settles hnil
  cases action <;> simp only [processModifier]
  case hornInsertO => exact .of_option fun _ h => handleHornInsert_settled h
  case hornInsertU => exact .of_option fun _ h => handleHornInsert_settled h
  case hornW => exact .of_option fun _ h => handleHornW_settled h
  case circumflexA => exact circumflex
  case circumflexE => exact circumflex
  case circumflexO => exact circumflex
  case strokeD => exact .of_option stroke
  case vniStroke => exact .of_option stroke
  case vniCircumflex => exact .of_option vni
  case vniBreve => exact .of_option vni
  case vniHorn => exact .of_option vniHorn
  case hornOrInsertU => exact .of_option fun _ h => handleHornOrInsertU_settled h
  case hornOrInsertUNoStart => exact .of_option fun _ h => handleHornOrInsertU_settled h
  case undoAllMarks => exact .of_option fun _ h => handleUndoAllMarks_settled h
  all_goals exact .of_option insert

omit [WideLocale] in
/-- The bias does not matter. -/
lemma Settles.of_bias {prot result} (h : Settles { st with engProt := prot } result) :
    st.Settles result := by
  unfold Settles at h ⊢
  split
  · next hc =>
    rw [if_pos hc] at h
    exact h
  · next hc =>
    rw [if_neg hc] at h
    obtain ⟨prot', h⟩ := h
    exact ⟨prot', h⟩

/-- A mark that is tried settles. -/
lemma tryModifier_settles {action c lower checkRaw checkSpell} :
    st.Settles (tryModifier cfg st action c lower checkRaw checkSpell) := by
  unfold tryModifier
  split
  · have hs : st.Settles (processModifier cfg st action c) := processModifier_settles
    split
    · next st' heq =>
      rw [heq] at hs
      obtain ⟨hqc, hne⟩ : st.Settled st' := hs
      refine ⟨hqc, ?_⟩
      rw [← List.length_pos_iff] at hne ⊢
      rwa [afterModifier, updateSpellState, reworks_applyAutoUO.length_eq]
    · next st' heq =>
      rw [heq] at hs
      exact hs
  · exact OnlyBias.refl

/-- A key with a mark settles. -/
lemma handleModifierAction_settles {action c lower} :
    st.Settles (handleModifierAction cfg st action c lower) := by
  have marked : ∀ {checkRaw}, st.Settles
      (tryModifier cfg (markStrokeEnglish st action) action c lower checkRaw true) := by
    intro checkRaw
    obtain ⟨prot, hprot⟩ : ∃ prot, markStrokeEnglish st action = { st with engProt := prot } :=
      markStrokeEnglish_eq
    rw [hprot]
    exact .of_bias tryModifier_settles
  simp only [handleModifierAction]
  split
  · exact marked
  · split
    · exact marked
    · split
      · exact tryModifier_settles
      · exact OnlyBias.refl

/-- The end of a regular character settles. -/
lemma finalizeRegularChar_settled (h : st.Settled st') :
    st.Settled (finalizeRegularChar cfg st') := by
  have he : st'.HasEffect none False (finalizeRegularChar cfg st') := finalizeRegularChar_effect .refl
  obtain ⟨hqc, hne⟩ := he.settled h.2
  exact ⟨hqc.trans h.1, hne⟩

/-- The rules after the classification leave a state and the quick consonant record. -/
lemma dispatch_settled {action c lower isUpper} :
    st.Settled (dispatch cfg st action c lower isUpper) := by
  refine dispatch_rule (fun hescape _ => ?_) (fun _ => handleModifierAction_settles.of_bias) ?_
  · by_cases hnil : st.states = []
    · simp only [handleToneFsm, hnil, if_true]
      exact OnlyBias.refl
    · have ho : Outcome _ False st (handleToneFsm cfg st action c lower isUpper) :=
        handleToneFsm_outcome hescape fun _ h => h
      exact ho.settles hnil
  · intro prot
    unfold appendRegular
    split
    · next st' h =>
      simp only [handleQuickEndConsonant] at h
      split at h
      · split at h
        · cases h
          exact ⟨rfl, by simp [updateSpellState, processKey, processChar]⟩
        · cases h
      · cases h
    · exact finalizeRegularChar_settled ⟨rfl, by simp [processChar]⟩

/-- No expanded quick consonant is the first state, so `Backspace` never undoes one in front of an
    empty buffer. -/
def Anchored (st : EngineState) : Prop := st.qc.resultIndex ≠ some 0

/-- The end of a regular character keeps the letters anchored. -/
lemma finalizeRegularChar_anchored (hne : st.states ≠ []) (ha : st.Anchored) :
    (finalizeRegularChar cfg st).states ≠ [] ∧ (finalizeRegularChar cfg st).Anchored := by
  obtain ⟨hqc, hs⟩ : st.Settled (finalizeRegularChar cfg st) := finalizeRegularChar_settled ⟨rfl, hne⟩
  refine ⟨hs, ?_⟩
  rwa [Anchored, hqc]

/-- An expanded quick consonant is not the first state of the buffer. -/
lemma quickConsonantExpand_anchored {lower isUpper}
    (h : quickConsonantExpand cfg st lower isUpper = some st') :
    st'.states ≠ [] ∧ st'.Anchored := by
  simp only [quickConsonantExpand] at h
  split at h
  · cases h
  · next hne =>
    have hpos : (some st.states.length : Option Nat) ≠ some 0 := by simpa using hne
    split at h
    · split at h
      · cases h
        exact finalizeRegularChar_anchored (by simp [processKey, processChar]) hpos
      · cases h
    · split at h
      · split at h
        · cases h
        · cases h
          exact ⟨by simp [updateSpellState], hpos⟩
      · cases h

omit [WideLocale] in
/-- A recorded key keeps the letters anchored. -/
lemma Anchored.press {c} (ha : st.Anchored) : (st.press c).Anchored := ha

/-- A quick start that is undone keeps the letters anchored. -/
lemma Anchored.undoQuickStart {c} (ha : st.Anchored) : (st.undoQuickStart c).Anchored := by
  unfold EngineState.undoQuickStart
  split
  · exact ha
  · dsimp only
    split <;> exact ha

/-- The first rule leaves no expanded quick consonant at the start. -/
lemma handleQuickStartConsonant_anchored {keyChar lower isUpper} (ha : st.Anchored) :
    (handleQuickStartConsonant cfg st keyChar lower isUpper).1.Anchored := by
  simp only [handleQuickStartConsonant]
  split
  · exact ha
  · have hu : (st.undoQuickStart keyChar).Anchored := ha.undoQuickStart
    split
    · split
      · next h => exact (quickConsonantExpand_anchored h).2
      · exact hu
    · exact hu

/-- The first rule leaves a state when it consumes the key. -/
lemma handleQuickStartConsonant_ne_nil {keyChar lower isUpper} :
    (handleQuickStartConsonant cfg st keyChar lower isUpper).2 →
      (handleQuickStartConsonant cfg st keyChar lower isUpper).1.states ≠ [] := by
  simp only [handleQuickStartConsonant]
  split
  · intro _
    simp [updateSpellState, processKey, processChar]
  · split
    · split
      · next h =>
        intro _
        exact (quickConsonantExpand_anchored h).1
      · simp
    · simp

/-- A key leaves a state, whatever the engine was like. -/
lemma pushChar_ne_nil {c} : (st.pushChar cfg c).states ≠ [] := by
  simp only [pushChar]
  split
  · next hveto => exact handleQuickStartConsonant_ne_nil hveto
  · exact dispatch_settled.2

/-- A key leaves no expanded quick consonant at the start. -/
lemma Anchored.pushChar {c} (ha : st.Anchored) : (st.pushChar cfg c).Anchored := by
  have ha₁ := @handleQuickStartConsonant_anchored _ cfg (st.press c) c (towlower c) (iswupper c)
    ha.press
  simp only [EngineState.pushChar]
  split
  · exact ha₁
  · have hqc := (@dispatch_settled _ cfg
      (handleQuickStartConsonant cfg (st.press c) c (towlower c) (iswupper c)).1
      (classify cfg
        (handleQuickStartConsonant cfg (st.press c) c (towlower c) (iswupper c)).1 c (towlower c))
      c (towlower c) (iswupper c)).1
    rwa [Anchored, hqc]

/-- A reset engine, up to the quick consonant flags of the word before. -/
def AlmostReset (cfg : TypingConfig) (st : EngineState) : Prop :=
  ∃ onlyQC escaped, st = { qc := { onlyQC := onlyQC, escaped := escaped } } ∧
    (escaped = false ∨ cfg.quickStartConsonant = false)

/-- `Backspace` on the last state cuts the raw input in front of its first key, and no quick consonant
    escape is pending for a quick start consonant. -/
def EmptiesRaw (cfg : TypingConfig) (st : EngineState) : EngineEvent → Prop
  | .push _ => True
  | .back => st.states.length = 1 →
      st.rawInput.take (charAt st.states 0).rawIdx = [] ∧
        (st.qc.escaped = false ∨ cfg.quickStartConsonant = false)

instance {cfg : TypingConfig} {st e} : Decidable (EmptiesRaw cfg st e) :=
  match e with
  | .push _ => inferInstanceAs (Decidable True)
  | .back => inferInstanceAs (Decidable (_ → _ ∧ (_ ∨ _)))

/-- Only `Backspace` empties the buffer, and then the engine is almost reset. -/
structure Clean (cfg : TypingConfig) (st : EngineState) : Prop where
  anchored : st.Anchored
  almost : st.states = [] → AlmostReset cfg st

omit [WideLocale] in
/-- A fresh engine is clean. -/
lemma Clean.init : Clean cfg {} := ⟨by simp [Anchored], fun _ => ⟨false, false, rfl, .inl rfl⟩⟩

/-- Undoing a quick consonant behind the first state leaves the first state. -/
lemma undoQuickConsonant_anchored (hlen : 2 ≤ st.states.length) :
    (undoQuickConsonant cfg st).states ≠ [] ∧ (undoQuickConsonant cfg st).Anchored := by
  have hkept : (undoHornU st.states (st.states.length - 1)).dropLast ≠ [] := by
    have hsame := congrArg List.length (@sameStamps_undoHornU st.states (st.states.length - 1))
    simp only [List.length_map] at hsame
    rw [← List.length_pos_iff, List.length_dropLast, hsame]
    omega
  simp only [undoQuickConsonant, recalcBias, updateSpellState, Anchored]
  cases st.qc.lastKey with
  | none => exact ⟨hkept, by simp [QuickConsonantState.markEscaped]⟩
  | some key =>
    exact ⟨by simp [processKey, processChar],
      by simp [processKey, processChar, QuickConsonantState.markEscaped]⟩

/-- Removing the only state leaves an engine that is almost reset. -/
lemma popChar_almostReset (hlen : st.states.length = 1) (hesc : st.escape = .none)
    (hkey : st.quickStartKey = none) (ok : EmptiesRaw cfg st .back) :
    AlmostReset cfg (popChar cfg st) := by
  obtain ⟨hraw, hq⟩ := ok hlen
  obtain ⟨s, hs⟩ := List.length_eq_one_iff.1 hlen
  rw [hs] at hraw
  refine ⟨st.qc.onlyQC, st.qc.escaped, ?_, hq⟩
  simp [popChar, hs, recalcBias, updateSpellState, updateSpellCheck, recalcEnglishBias,
    checkZwjfInitialBias, QuickConsonantState.clearActive, hesc, hkey, hraw]

/-- `Backspace` keeps the invariant. -/
lemma Clean.backspace (h : Clean cfg st) (ok : EmptiesRaw cfg st .back) :
    Clean cfg (st.backspace cfg) := by
  obtain ⟨ha, hn⟩ := h
  unfold EngineState.backspace
  split
  · exact ⟨ha, hn⟩
  · next hne =>
    have hpos := List.length_pos_iff.2 hne
    dsimp only
    split
    · exact ⟨ha, by simp [processKey, processChar, updateSpellState]⟩
    · split
      · next hres =>
        have hlen : 2 ≤ st.states.length := by
          by_contra hlt
          have hone : st.states.length = 1 := by omega
          rw [hone] at hres
          exact ha hres
        obtain ⟨hne', ha'⟩ := @undoQuickConsonant_anchored _ cfg
          { st with escape := .none, quickStartKey := none } hlen
        exact ⟨ha', fun hnil => absurd hnil hne'⟩
      · refine ⟨by simp [Anchored, popChar, recalcBias, updateSpellState,
          QuickConsonantState.clearActive], fun hnil => ?_⟩
        have hone : st.states.length = 1 := by
          have := congrArg List.length hnil
          simp only [popChar, recalcBias, updateSpellState, List.length_dropLast,
            List.length_nil] at this
          omega
        exact popChar_almostReset hone rfl rfl ok

/-- Every event keeps the invariant. -/
lemma Clean.step {e} (h : Clean cfg st) (ok : EmptiesRaw cfg st e) : Clean cfg (st.step cfg e) := by
  cases e with
  | push c => exact ⟨h.anchored.pushChar, fun hnil => absurd hnil pushChar_ne_nil⟩
  | back => exact h.backspace ok

/-- What the hook sees of an engine: C++ `Peek`, `PeekRaw`, `Count`, and the text `Commit` returns. -/
def observe (cfg : TypingConfig) (st : EngineState) : List Char × List Char × Nat × List Char :=
  (st.peek, st.peekRaw, st.count, st.commitText cfg)

/-- The first key after an empty buffer does not see the quick consonant flags. -/
lemma AlmostReset.pushChar {c} (h : AlmostReset cfg st) :
    st.pushChar cfg c = EngineState.pushChar cfg {} c := by
  obtain ⟨onlyQC, escaped, rfl, hq⟩ := h
  cases escaped with
  | false => rfl
  | true =>
    -- without the quick start consonants the first key drops the escape
    have hstart : cfg.quickStartConsonant = false := by simpa using hq
    simp [EngineState.pushChar, handleQuickStartConsonant, press, hstart, undoQuickStart,
      quickConsonantExpand]

/-- Reset, or emptied by a `Backspace` and almost reset. -/
def SameOrEmptied (cfg : TypingConfig) (st st' : EngineState) : Prop :=
  st = st' ∨ AlmostReset cfg st ∧ st' = {}

/-- Engines that are the same or emptied stay so. -/
lemma SameOrEmptied.step (e : EngineEvent) (h : SameOrEmptied cfg st st') :
    SameOrEmptied cfg (st.step cfg e) (st'.step cfg e) := by
  obtain rfl | ⟨ha, rfl⟩ := h
  · exact .inl rfl
  · cases e with
    | push c => exact .inl ha.pushChar
    | back =>
      have hback : st.step cfg .back = st := by
        obtain ⟨_, _, rfl, -⟩ := ha
        rfl
      rw [hback]
      exact .inr ⟨ha, rfl⟩

/-- Engines that are the same or emptied show the same. -/
lemma SameOrEmptied.observe (h : SameOrEmptied cfg st st') : st.observe cfg = st'.observe cfg := by
  obtain rfl | ⟨⟨_, _, rfl, -⟩, rfl⟩ := h
  · rfl
  · simp [EngineState.observe, commitText, peek, peekRaw, count, composeAll, shouldAutoRestore]

/-- An almost reset engine is observationally equal to a reset one. -/
lemma AlmostReset.obsEq (h : AlmostReset cfg st) :
    Machine.ObsEq (EngineState.step cfg) (EngineState.observe cfg) st {} :=
  .of_bisimulation (R := SameOrEmptied cfg) (.inr ⟨h, rfl⟩) SameOrEmptied.step SameOrEmptied.observe

end EngineState

open EngineState in
/-- Backspace to empty equals `Reset`: after a run whose `Backspace`s on a last state cut the raw input
    in front of its first key, an engine without states cannot be told from a reset one by any further
    events, nor by the text of a `Commit` after them. -/
theorem backspaceToEmpty_obsEq_reset {events : List EngineEvent}
    (ok : Machine.Guarded (EngineState.step cfg) (EmptiesRaw cfg) {} (events ++ [.back]))
    (empty : (EngineState.run cfg {} (events ++ [.back])).count = 0) :
    Machine.ObsEq (EngineState.step cfg) (EngineState.observe cfg)
      (EngineState.run cfg {} (events ++ [.back])) {} := by
  have hclean : Clean cfg (EngineState.run cfg {} (events ++ [.back])) :=
    ok.invariant Clean.init Clean.step
  exact (hclean.almost (List.length_eq_zero_iff.1 empty)).obsEq

end Locale

section Ascii
attribute [local instance] WideLocale.ascii

/-- Typing `as` and taking the `á` back meets the condition. -/
theorem backspaceToEmpty_obsEq_reset_as :
    Machine.ObsEq (EngineState.step {}) (EngineState.observe {})
      (EngineState.run {} {} ([.push 'a', .push 's'] ++ [.back])) {} :=
  backspaceToEmpty_obsEq_reset (by decide +kernel) (by decide +kernel)

/-- After `ww` and a `Backspace` the engine still has the first `w`: a `Commit` after `aaq` returns
    `waaq`. -/
theorem backspaceToEmpty_ww :
    (EngineState.run {} {} [.push 'w', .push 'w', .back]).count = 0 ∧
    ¬Machine.ObsEq (EngineState.step {}) (EngineState.observe {})
      (EngineState.run {} {} [.push 'w', .push 'w', .back]) {} := by
  refine ⟨by decide +kernel, fun h => ?_⟩
  have htext := h [.push 'a', .push 'a', .push 'q']
  revert htext
  decide +kernel

end Ascii

end NextKey
