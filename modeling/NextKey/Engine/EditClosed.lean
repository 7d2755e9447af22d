import NextKey.Engine.LiteralBackspace

/-!
# Properties of a buffer that every key keeps

An induction rule for the words of full Telex: a property of buffers that holds of the empty one and of
every seed, and that the edits of the handlers keep, holds of every buffer that is reached. No later
module walks through the handlers for such a property.
-/

namespace NextKey

/-- The edits of full Telex keep a property of buffers. -/
structure EditClosed [WideLocale] (cfg : TypingConfig) (P : List CharState → Prop) : Prop where
  marked : ∀ {states i mod}, P states → P (setMod states i mod)
  relocated : ∀ {states}, P states → P (relocateToneToTarget cfg states)
  horned : ∀ {states}, P states → P (relocateToneToHornVowel states)
  toned : ∀ {states i tone idx}, findToneTarget cfg.modernOrtho states = some i → P states →
    P (applyTone states i tone idx)
  cleared : ∀ {states i}, P states → P (clearTone states i)
  erased : ∀ {states k}, P states → P (states.map (CharState.eraseRaw k))
  removed : ∀ {states}, P states → P states.dropLast
  appended : ∀ {states s}, s.tone = .none → P states → P (states ++ [s])
  takenBack : ∀ {states}, (charAt states 0).tone = .none → P states →
    P (states.modify 0 fun s => { s with base := 'w', mod := .none, synthetic := false })

namespace EditClosed

open EngineState

variable [WideLocale] {cfg : TypingConfig} {P : List CharState → Prop} {st st' : EngineState} {c : Char}
  {states : List CharState}

/-- Taking off a horn is an edit. -/
lemma undoHornU (hP : EditClosed cfg P) {i} (h : P states) : P (undoHornU states i) := by
  unfold NextKey.undoHornU
  dsimp only
  split
  · exact hP.marked h
  · exact h

/-- Clearing a circumflex is an edit. -/
lemma clearCircumflex (hP : EditClosed cfg P) {i} (h : P states) : P (clearCircumflex states i) := by
  unfold NextKey.clearCircumflex
  split
  · split
    · exact hP.marked h
    · exact h
  · exact h

/-- The completion of `ươ` is an edit. -/
lemma applyAutoUO (hP : EditClosed cfg P) (h : P states) : P (applyAutoUO cfg states) := by
  have round : ∀ {states i}, P states → P (autoUOAt cfg states i) := by
    intro states i h
    have hhorn : P (if (charAt states i).base = 'u' ∧ (charAt states i).mod = .none ∧
        (charAt states (i + 1)).base = 'o' ∧ (charAt states (i + 1)).mod = .horn then
          setMod states i .horn
        else states) := by
      split
      · exact hP.marked h
      · exact h
    unfold autoUOAt
    split
    · exact h
    · dsimp only
      generalize (if (charAt states i).base = 'u' ∧ (charAt states i).mod = .none ∧
        (charAt states (i + 1)).base = 'o' ∧ (charAt states (i + 1)).mod = .horn then
          setMod states i .horn
        else states) = mid at hhorn ⊢
      split
      · exact hP.relocated (hP.marked hhorn)
      · exact hhorn
  unfold NextKey.applyAutoUO
  generalize (List.range (states.length - 2)).drop (states.length - 4) = positions
  induction positions generalizing states with
  | nil => exact h
  | cons i positions ih => exact ih (round h)

/-- The key at the end, as it was typed. -/
lemma typed (hP : EditClosed cfg P) (h : P st.states) : P (st.processKey c).states :=
  hP.appended rfl h

/-- The erasing of a key is an edit. -/
lemma eraseConsumedRaw (hP : EditClosed cfg P) {idx} (h : P st.states) :
    P (st.eraseConsumedRaw idx).states := by
  unfold EngineState.eraseConsumedRaw
  split
  · exact h
  · exact hP.erased h

/-- A stroke is made of edits. -/
lemma handleStrokeD (hP : EditClosed cfg P) (h : P st.states) :
    handleStrokeD cfg st c = some st' → P st'.states := by
  intro hst'
  unfold EngineState.handleStrokeD at hst'
  split at hst'
  · cases hst'
  · split at hst'
    · cases hst'
    · split at hst'
      · cases hst'
        exact hP.marked h
      · split at hst'
        · cases hst'
        · split at hst'
          · cases hst'
          · cases hst'
            exact hP.appended rfl (hP.marked h)
      · cases hst'

/-- So is taking back an inserted letter. -/
lemma undoInsert? (hP : EditClosed cfg P) {base mod kind} (h : P st.states) :
    undoInsert? st c base mod kind = some st' → P st'.states := by
  intro hst'
  unfold EngineState.undoInsert? at hst'
  split at hst'
  · next last _ _ _ =>
    split at hst'
    · cases hst'
      have hremoved : P ({ st with states := st.states.dropLast } : EngineState).states :=
        hP.removed h
      exact hP.appended rfl (hP.eraseConsumedRaw hremoved)
    · cases hst'
  · cases hst'

/-- So is a bracket. -/
lemma handleHornInsert (hP : EditClosed cfg P) {action} (h : P st.states) :
    handleHornInsert cfg st action c = some st' → P st'.states := by
  intro hst'
  unfold EngineState.handleHornInsert at hst'
  split at hst'
  · cases hst'
  · dsimp only at hst'
    split at hst'
    · next hundo =>
      cases hst'
      exact hP.undoInsert? h hundo
    · cases hst'
      exact hP.appended rfl h

/-- So is a vowel typed twice. -/
lemma adjacentCircumflex (hP : EditClosed cfg P) {targetBase} (h : P st.states) :
    adjacentCircumflex cfg st targetBase c = some st' → P st'.states := by
  intro hst'
  unfold EngineState.adjacentCircumflex at hst'
  dsimp only at hst'
  split at hst'
  · cases hst'
    exact h
  · split at hst'
    · cases hst'
      split <;> exact hP.appended rfl (hP.marked h)
    · split at hst'
      · split at hst'
        · cases hst'
        · cases hst'
          exact hP.relocated (hP.marked h)
      · split at hst'
        · cases hst'
        · cases hst'
          exact hP.marked h

/-- A rule keeps the property, or passes the key on with at most a change of bias. -/
abbrev Keeps (P : List CharState → Prop) (st : EngineState) (result : EngineState × Bool) : Prop :=
  st.Passes (fun st' => P st'.states) result

omit [WideLocale] in
/-- Either way. -/
lemma Keeps.ite {p : Prop} [Decidable p] {a b} (ha : Keeps P st a) (hb : Keeps P st b) :
    Keeps P st (if p then a else b) := by
  split
  · exact ha
  · exact hb

omit [WideLocale] in
/-- A key that is passed on. -/
lemma Keeps.passed : Keeps P st (st, false) := OnlyBias.refl

omit [WideLocale] in
/-- The result of a handler that may decline the key. -/
lemma Keeps.of_option {result : Option EngineState} :
    (∀ st', result = some st' → P st'.states) →
      Keeps P st
        (match result with
          | some st' => (st', true)
          | none => (st, false)) := by
  intro h
  cases result with
  | none => exact .passed
  | some st' => exact h st' rfl

/-- A circumflex further back is made of edits. -/
lemma freeCircumflex (hP : EditClosed cfg P) {targetBase} (h : P st.states) :
    Keeps P st (freeCircumflex cfg st targetBase c) := by
  have applied : ∀ {i}, Keeps P st
      ({ st with states := relocateToneToTarget cfg (setMod st.states i .circumflex) }, true) :=
    fun {_} => hP.relocated (hP.marked h)
  have english : Keeps P st ({ st with engProt := { st.engProt with bias := .hardEnglish } }, false) :=
    ⟨_, rfl⟩
  simp only [EngineState.freeCircumflex]
  split
  · exact .passed
  · split
    · exact hP.appended rfl (hP.marked h)
    · exact .ite .passed applied
    · refine .ite ?_ .passed
      exact hP.relocated (hP.undoHornU (hP.marked h))
    · refine .ite (.ite (.ite .passed applied) (.ite english applied)) ?_
      exact .ite (.ite applied english) (.ite .passed applied)
    · exact .passed

/-- So is the circumflex of Telex. -/
lemma handleAdjacentCircumflex (hP : EditClosed cfg P) {action} (h : P st.states) :
    Keeps P st (handleAdjacentCircumflex cfg st action c) := by
  simp only [EngineState.handleAdjacentCircumflex]
  refine .ite .passed (.ite ?_ (.ite .passed (.ite (hP.freeCircumflex h) .passed)))
  split
  · next hadjacent => exact hP.adjacentCircumflex h hadjacent
  · exact .passed

/-- The buffer of an outcome of the `w` key. -/
def outcomeStates : HornOutcome → List CharState
  | .horned states => states
  | .done st => st.states

/-- So are the horns of a pair. -/
lemma hornPair (hP : EditClosed cfg P) {u outcome} (h : P st.states) :
    hornPair st c u = some outcome → P (outcomeStates outcome) := by
  intro hout
  unfold EngineState.hornPair at hout
  dsimp only at hout
  split at hout
  · split at hout <;> cases hout
    · exact hP.marked h
    · exact hP.marked (hP.marked h)
  · split at hout
    · cases hout
      exact hP.marked h
    · split at hout
      · cases hout
        exact hP.marked h
      · split at hout
        · cases hout
          exact hP.appended rfl (hP.marked (hP.marked h))
        · split at hout
          · cases hout
            exact hP.appended rfl (hP.marked h)
          · cases hout

/-- So is the escape of a horn. -/
lemma hornEscape (hP : EditClosed cfg P) {scan} (h : P st.states) :
    hornEscape st c scan = some st' → P st'.states := by
  intro hst'
  unfold EngineState.hornEscape at hst'
  dsimp only at hst'
  split at hst'
  · split at hst'
    · next hlast =>
      cases hst'
      have hremoved : P (st.states.eraseIdx (st.states.length - 1)) := by
        rw [List.eraseIdx_length_sub_one]
        exact hP.removed h
      rw [← hlast.2] at hremoved
      exact hP.appended rfl hremoved
    · cases hst'
      exact hP.appended rfl (hP.marked (hP.undoHornU h))
  · split at hst'
    · cases hst'
      exact hP.appended rfl (hP.marked h)
    · cases hst'

/-- So is a `w` that types `ư`. -/
lemma hornSynthetic (hP : EditClosed cfg P) (h : P st.states) :
    hornSynthetic cfg st c = some st' → P st'.states := by
  intro hst'
  unfold EngineState.hornSynthetic at hst'
  dsimp only at hst'
  split at hst'
  · cases hst'
  · split at hst'
    · cases hst'
    · cases hst'
      exact hP.appended rfl h

/-- So is the horn of a single vowel. -/
lemma hornStandalone (hP : EditClosed cfg P) {scan outcome} (h : P st.states) :
    hornStandalone cfg st c scan = some outcome → P (outcomeStates outcome) := by
  intro hout
  unfold EngineState.hornStandalone at hout
  dsimp only at hout
  split at hout
  · split at hout
    · cases hout
    · cases hout
      exact hP.clearCircumflex (hP.marked h)
  · split at hout
    · split at hout
      · cases hout
      · cases hout
        exact hP.marked h
    · split at hout
      · split at hout
        · cases hout
        · cases hout
          exact hP.marked h
      · obtain ⟨st', hst', rfl⟩ := Option.map_eq_some_iff.1 hout
        exact hP.hornSynthetic h hst'

/-- So is whatever a `w` does. -/
lemma hornOutcome (hP : EditClosed cfg P) {outcome} (h : P st.states) :
    hornOutcome cfg st c = some outcome → P (outcomeStates outcome) := by
  intro hout
  unfold EngineState.hornOutcome at hout
  dsimp only at hout
  split at hout
  · cases hout
  · split at hout
    · cases hout
      exact hP.clearCircumflex (hP.marked h)
    · split at hout
      · next hpair =>
        cases hout
        obtain ⟨u, -, hu⟩ := Option.bind_eq_some_iff.1 hpair
        exact hP.hornPair h hu
      · split at hout
        · cases hout
          exact hP.marked h
        · split at hout
          · next hescape =>
            cases hout
            exact hP.hornEscape h hescape
          · exact hP.hornStandalone h hout

/-- So is a `w`. -/
lemma handleHornW (hP : EditClosed cfg P) (h : P st.states) :
    handleHornW cfg st c = some st' → P st'.states := by
  intro hst'
  unfold EngineState.handleHornW at hst'
  split at hst'
  · next hhorned =>
    cases hst'
    exact hP.horned (hP.hornOutcome h hhorned)
  · next hdone =>
    cases hst'
    exact hP.hornOutcome h hdone
  · cases hst'

/-- The modifier keys of full Telex. -/
lemma processModifier (hP : EditClosed cfg P) {action} (ha : action.isTelexModifier) (h : P st.states) :
    Keeps P st (processModifier cfg st action c) := by
  cases action
  case circumflexA => exact hP.handleAdjacentCircumflex h
  case circumflexE => exact hP.handleAdjacentCircumflex h
  case circumflexO => exact hP.handleAdjacentCircumflex h
  case hornW => exact .of_option fun _ => hP.handleHornW h
  case hornInsertO => exact .of_option fun _ => hP.handleHornInsert h
  case hornInsertU => exact .of_option fun _ => hP.handleHornInsert h
  case strokeD => exact .of_option fun _ => hP.handleStrokeD h
  all_goals cases ha

omit [WideLocale] in
/-- The bias does not matter. -/
lemma Keeps.of_bias {prot result} (h : Keeps P { st with engProt := prot } result) :
    Keeps P st result := by
  unfold Keeps Passes at h ⊢
  split
  · next hc => rwa [if_pos hc] at h
  · next hc =>
    rw [if_neg hc] at h
    obtain ⟨prot', h⟩ := h
    exact ⟨prot', h⟩

/-- A mark that is tried is made of edits. -/
lemma tryModifier (hP : EditClosed cfg P) {action lower checkRaw checkSpell}
    (ha : action.isTelexModifier) (h : P st.states) :
    Keeps P st (tryModifier cfg st action c lower checkRaw checkSpell) := by
  unfold EngineState.tryModifier
  split
  · have hkeeps := @hP.processModifier _ _ _ st c action ha h
    split
    · next heq =>
      rw [heq] at hkeeps
      exact hP.applyAutoUO hkeeps
    · next heq =>
      rw [heq] at hkeeps
      exact hkeeps
  · exact .passed

/-- So is a key with a mark. -/
lemma handleModifierAction (hP : EditClosed cfg P) (hm : cfg.inputMethod = .telex) {action lower}
    (h : P st.states) : Keeps P st (handleModifierAction cfg st action c lower) := by
  have hvni : cfg.isVniMode = false := by rw [TypingConfig.isVniMode, hm]; rfl
  have hcustom : (cfg.inputMethod == .userDefined) = false := by rw [hm]; rfl
  obtain ⟨prot, hprot⟩ : ∃ prot, markStrokeEnglish st action = { st with engProt := prot } :=
    markStrokeEnglish_eq
  unfold EngineState.handleModifierAction
  dsimp only
  rw [hvni, hcustom, hprot]
  split
  · next ha => exact .of_bias (hP.tryModifier ha.2 h)
  · rw [if_neg (by simp), if_neg (by simp)]
    exact .passed

/-- A canceled tone is an edit. -/
lemma cancelTone (hP : EditClosed cfg P) {i} (h : P st.states) : P (st.cancelTone i).states := by
  have huntoned : P (clearTone st.states i) := hP.cleared h
  cases hk : (charAt st.states i).toneRawIdx with
  | none =>
    simp only [EngineState.cancelTone, hk, clearTone_of_keyless hk]
    exact huntoned
  | some k =>
    by_cases hlt : st.rawInput.length ≤ k
    · simp only [EngineState.cancelTone, hk, EngineState.eraseConsumedRaw, hlt, if_true, clearTone_eq]
      exact huntoned
    · simp only [EngineState.cancelTone, hk, EngineState.eraseConsumedRaw, hlt, if_false,
        clearTone_eraseRaw]
      exact hP.erased huntoned

/-- A tone is made of edits. -/
lemma processTone (hP : EditClosed cfg P) {tone} (h : P st.states) :
    processTone cfg st tone c = some st' → P st'.states := by
  intro hst'
  unfold EngineState.processTone at hst'
  split at hst'
  · cases hst'
  · next i hi =>
    split at hst'
    · cases hst'
      exact hP.appended rfl (hP.cancelTone h)
    · cases hst'
      exact hP.toned hi h

/-- So is the clearing of the tone. -/
lemma processClearTone (hP : EditClosed cfg P) (h : P st.states) :
    processClearTone cfg st = some st' → P st'.states := by
  intro hst'
  unfold EngineState.processClearTone at hst'
  split at hst'
  · cases hst'
  · split at hst'
    · cases hst'
    · cases hst'
      exact hP.cleared h

/-- So is what follows a tone. -/
lemma afterTone (hP : EditClosed cfg P) (h : P st.states) : P (afterTone cfg st).states := by
  unfold EngineState.afterTone
  split <;> exact hP.applyAutoUO h

/-- So is a tone key. -/
lemma handleToneFsm (hP : EditClosed cfg P) {action isUpper} (h : P st.states) :
    Keeps P st (handleToneFsm cfg st action c (towlower c) isUpper) := by
  unfold EngineState.handleToneFsm
  refine .ite .passed (.ite (.ite ?_ ?_) (.ite .passed ?_))
  · exact hP.typed h
  · split
    · next cleared hclear =>
      have hcleared : P cleared.states := hP.processClearTone h hclear
      exact hcleared
    · exact .passed
  · cases hgates : toneGates cfg st action.toTone c (towlower c) with
    | mk prot literal =>
      refine @Keeps.of_bias P st prot _ ?_
      refine .ite ?_ ?_
      · exact hP.appended rfl h
      · split
        · next st' hst' =>
          have htoned : P st'.states :=
            @hP.processTone _ _ _ { st with engProt := prot } st' c action.toTone h hst'
          exact hP.afterTone htoned
        · exact .passed

/-- A regular key. -/
lemma regular (hP : EditClosed cfg P) (h : P st.states) :
    P ((st.processChar (towlower c) (iswupper c)).finalizeRegularChar cfg).states := by
  have hbuffer : P (regularBuffer cfg st c) := by
    show P (NextKey.applyAutoUO cfg (relocateToneToTarget cfg (st.states ++ [st.keyState c])))
    exact hP.applyAutoUO (hP.relocated (hP.appended rfl h))
  rw [regular_states]
  split
  · next hback => exact hP.takenBack hback.1.2.2.2.2.1 hbuffer
  · exact hbuffer

/-- One key. -/
lemma pushChar (hP : EditClosed cfg P) (hq : cfg.QuickOff) (hm : cfg.inputMethod = .telex)
    (hp : st.Plain) (h : P st.states) : P (st.pushChar cfg c).states := by
  have hpress : P (st.press c).states := h
  rw [pushChar_off hq hp]
  refine @dispatch_rule _ cfg (st.press c) (fun st' => P st'.states) _ c _ _
    (fun _ _ => hP.handleToneFsm hpress) (fun _ => ?_) ?_
  · exact hP.handleModifierAction hm hpress
  · intro prot
    rw [appendRegular_off hq.endConsonant]
    exact @hP.regular _ _ _ { st.press c with engProt := prot } c h

/-- So is Backspace. -/
lemma backspace (hP : EditClosed cfg P) (hp : st.Plain) (h : P st.states) :
    P (st.backspace cfg).states := by
  by_cases hne : st.states = []
  · unfold EngineState.backspace
    rwa [if_pos hne]
  · rw [hp.backspace_eq hne]
    exact hP.removed h

/-- The induction rule. -/
theorem reachable (hP : EditClosed cfg P) (hq : cfg.QuickOff) (hm : cfg.inputMethod = .telex)
    (init : P []) (seed : ∀ text, P (seedFromText cfg text).1.states) (h : st.ReachableBy cfg) :
    P st.states := by
  have hcustom : cfg.inputMethod ≠ .userDefined := by rw [hm]; decide
  induction h with
  | init => exact init
  | @seed text => exact seed text
  | push h _ ih => exact hP.pushChar hq hm (h.plain hq hcustom) ih
  | back h ih => exact hP.backspace (h.plain hq hcustom) ih

end EditClosed

end NextKey
