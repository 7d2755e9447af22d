import NextKey.Engine.Shown

/-!
# The growth of a word

A key adds one state at most, and leaves the bases of the others alone but for the `w` that a synthetic
`ư` goes back to. Only the quick start and the quick end consonants add two. Here is what each handler
adds, up to the rules after the classification; the user-defined actions are included.
-/

namespace NextKey

namespace EngineState

/-- The fields that only the quick consonants and `Backspace` write. -/
def SameQuick (st st' : EngineState) : Prop := st'.qc = st.qc ∧ st'.quickStartKey = st.quickStartKey

/-- A handler adds one state at most, keeps the bases ASCII, and leaves the quick consonants alone. -/
structure Grows (st st' : EngineState) : Prop where
  length : st'.states.length ≤ st.states.length + 1
  bases : AsciiBases st.states → AsciiBases st'.states
  quick : st.SameQuick st'

variable {st st' st'' : EngineState} {states : List CharState} {c : Char}

/-- Nothing has grown. -/
lemma Grows.refl : st.Grows st := ⟨by omega, id, rfl, rfl⟩

/-- A handler that edits the states it finds. -/
lemma Grows.edit (h : SameBases st.states states) : st.Grows { st with states := states } :=
  ⟨by have := h.length_eq; simp only; omega, fun hb => hb.same h, rfl, rfl⟩

/-- An edit after a handler. -/
lemma Grows.rework (h : st.Grows st') (hs : SameBases st'.states st''.states)
    (hq : st'.SameQuick st'') :
    st.Grows st'' where
  length := by
    rw [hs.length_eq]
    exact h.length
  bases hb := (h.bases hb).same hs
  quick := ⟨hq.1.trans h.quick.1, hq.2.trans h.quick.2⟩

/-- A state with an ASCII base. -/
lemma Grows.append {s : CharState} (h : SameBases st.states states) (hs : AsciiKey s.base) :
    st.Grows { st with states := states ++ [s] } where
  length := by
    rw [List.length_append, h.length_eq]
    exact le_rfl
  bases hb := (hb.same h).append hs
  quick := ⟨rfl, rfl⟩

/-- A handler between two changes of other fields. -/
lemma Grows.of_same {st₁ : EngineState} (h : st₁.Grows st') (hs : st₁.states = st.states)
    (hq : st.SameQuick st₁) : st.Grows st' where
  length := by
    rw [← hs]
    exact h.length
  bases hb := h.bases (by rwa [hs])
  quick := ⟨h.quick.1.trans hq.1, h.quick.2.trans hq.2⟩

variable [WideLocale] {cfg : TypingConfig}

/-- An escape: an edit, and the key as a literal. -/
lemma Grows.escape {kind} (hc : AsciiKey c) (h : SameBases st.states states) :
    st.Grows ({ st with states := states }.escapeWith c kind) :=
  (Grows.append h hc.towlower).rework .refl ⟨rfl, rfl⟩

/-- A stroke. -/
lemma handleStrokeD_grows (hc : AsciiKey c) (h : handleStrokeD cfg st c = some st') : st.Grows st' := by
  unfold handleStrokeD at h
  split at h
  · cases h
  · split at h
    · cases h
    · split at h
      · cases h
        exact .edit .setMod
      · split at h
        · cases h
        · split at h
          · cases h
          · cases h
            exact .escape hc .setMod
      · cases h

omit [WideLocale] in
/-- The erasing of a key changes no letter. -/
lemma eraseConsumedRaw_same {idx} : SameBases st.states (st.eraseConsumedRaw idx).states ∧
    st.SameQuick (st.eraseConsumedRaw idx) := by
  unfold eraseConsumedRaw
  split
  · exact ⟨.refl, rfl, rfl⟩
  · refine ⟨?_, rfl, rfl⟩
    show (st.states.map (CharState.eraseRaw idx)).map (·.base) = _
    rw [List.map_map]
    rfl

/-- A double press removes the last state and appends the key. -/
lemma undoInsert?_grows {base mod kind} (hc : AsciiKey c)
    (h : undoInsert? st c base mod kind = some st') :
    st.Grows st' := by
  unfold undoInsert? at h
  split at h
  · next last prev hlast hprev =>
    split at h
    · cases h
      obtain ⟨hbases, hquick⟩ :=
        @eraseConsumedRaw_same { st with states := st.states.dropLast } last.rawIdx
      refine ⟨?_, fun hb => ?_, hquick⟩
      · show (_ ++ [_]).length ≤ _
        rw [List.length_append, hbases.length_eq, List.length_dropLast]
        simp only [List.length_singleton]
        omega
      · exact AsciiBases.append ((hb.subset (List.dropLast_subset _)).same hbases) hc.towlower
    · cases h
  · cases h

/-- A bracket. -/
lemma handleHornInsert_grows {action} (hc : AsciiKey c)
    (h : handleHornInsert cfg st action c = some st') :
    st.Grows st' := by
  simp only [handleHornInsert] at h
  split at h
  · cases h
  · split at h
    · next hu =>
      cases h
      exact undoInsert?_grows hc hu
    · cases h
      refine .append .refl ?_
      show AsciiKey (if action = .hornInsertO then 'o' else 'u')
      split <;> decide

omit [WideLocale] in
/-- The base of an inserted glyph is ASCII. -/
lemma insertGlyph_ascii {action : TypingAction} {base mod upper}
    (h : action.insertGlyph = some (base, mod, upper)) : AsciiKey base := by
  unfold TypingAction.insertGlyph at h
  split at h <;> cases h <;> decide

/-- An inserted glyph. -/
lemma handleInsertChar_grows {action} (hc : AsciiKey c) (h : handleInsertChar st action c = some st') :
    st.Grows st' := by
  unfold handleInsertChar at h
  split at h
  · cases h
  · next hglyph =>
    split at h
    · next hu =>
      cases h
      exact undoInsert?_grows hc hu
    · cases h
      exact .append .refl (insertGlyph_ascii hglyph)

omit [WideLocale] in
/-- All marks taken off. -/
lemma handleUndoAllMarks_grows (h : handleUndoAllMarks st = some st') : st.Grows st' := by
  unfold handleUndoAllMarks at h
  split at h
  · cases h
    refine (Grows.edit ?_).rework .refl ⟨rfl, rfl⟩
    unfold SameBases
    rw [List.map_map]
    apply List.map_congr_left
    intro s _
    show (if s.hasModifier || s.hasTone then _ else s).base = s.base
    split <;> rfl
  · cases h

/-- A vowel typed twice. -/
lemma adjacentCircumflex_grows {targetBase} (hc : AsciiKey c)
    (h : adjacentCircumflex cfg st targetBase c = some st') : st.Grows st' := by
  simp only [adjacentCircumflex] at h
  split at h
  · cases h
    exact .refl
  · split at h
    · cases h
      have hkey : st.Grows
          ({ st with states := setMod st.states (st.states.length - 1) .none }.processKey c) :=
        .append .setMod hc.towlower
      split
      · exact hkey.rework .refl ⟨rfl, rfl⟩
      · exact hkey
    · split at h
      · split at h
        · cases h
        · cases h
          exact .edit (SameBases.setMod.trans .relocateToneToTarget)
      · split at h
        · cases h
        · cases h
          exact .edit .setMod

/-- Consumed with one state more at most, or not consumed with at most a change of bias. -/
def GrowsOr (st : EngineState) (result : EngineState × Bool) : Prop :=
  if result.2 then st.Grows result.1 else st.OnlyBias result.1

omit [WideLocale] in
/-- Either way. -/
lemma GrowsOr.ite {p : Prop} [Decidable p] {a b} (ha : st.GrowsOr a) (hb : st.GrowsOr b) :
    st.GrowsOr (if p then a else b) := by
  split
  · exact ha
  · exact hb

omit [WideLocale] in
/-- A key that is consumed. -/
lemma GrowsOr.consumed (h : st.Grows st') : st.GrowsOr (st', true) := h

omit [WideLocale] in
/-- A key that is passed on. -/
lemma GrowsOr.passed : st.GrowsOr (st, false) := OnlyBias.refl

omit [WideLocale] in
/-- The result of a handler that may decline the key. -/
lemma GrowsOr.of_option {result : Option EngineState} :
    (∀ st', result = some st' → st.Grows st') →
      st.GrowsOr
        (match result with
          | some st' => (st', true)
          | none => (st, false)) := by
  intro h
  cases result with
  | none => exact .passed
  | some st' => exact .consumed (h st' rfl)

/-- A circumflex further back. -/
lemma freeCircumflex_grows {targetBase} (hc : AsciiKey c) :
    st.GrowsOr (freeCircumflex cfg st targetBase c) := by
  have applied : ∀ {i}, st.GrowsOr
      ({ st with states := relocateToneToTarget cfg (setMod st.states i .circumflex) }, true) := by
    intro i
    exact .consumed (.edit (SameBases.setMod.trans .relocateToneToTarget))
  have english : st.GrowsOr ({ st with engProt := { st.engProt with bias := .hardEnglish } }, false) :=
    ⟨_, rfl⟩
  simp only [freeCircumflex]
  split
  · exact .passed
  · split
    · exact .consumed (.escape hc .setMod)
    · exact .ite .passed applied
    · refine .ite (.consumed (.edit ?_)) .passed
      exact SameBases.setMod.trans (SameBases.undoHornU.trans .relocateToneToTarget)
    · refine .ite (.ite (.ite .passed applied) (.ite english applied)) ?_
      exact .ite (.ite applied english) (.ite .passed applied)
    · exact .passed

/-- The circumflex of Telex. -/
lemma handleAdjacentCircumflex_grows {action} (hc : AsciiKey c) :
    st.GrowsOr (handleAdjacentCircumflex cfg st action c) := by
  simp only [handleAdjacentCircumflex]
  refine .ite .passed (.ite ?_ (.ite .passed (.ite (freeCircumflex_grows hc) .passed)))
  split
  · next h => exact .consumed (adjacentCircumflex_grows hc h)
  · exact .passed

/-- An outcome of the `w` key: an edit, or one state more at most. -/
def HornOutcome.GrowsFrom (st : EngineState) : HornOutcome → Prop
  | .horned states => SameBases st.states states
  | .done st' => st.Grows st'

/-- The horns of a pair. -/
lemma hornPair_grows {u outcome} (hc : AsciiKey c) (h : hornPair st c u = some outcome) :
    outcome.GrowsFrom st := by
  have hu : SameBases st.states (setMod st.states u .horn) := .setMod
  have hn : SameBases st.states (setMod st.states u .none) := .setMod
  simp only [hornPair] at h
  split at h
  · split at h <;> cases h
    · exact SameBases.setMod
    · exact hu.trans .setMod
  · split at h
    · cases h
      exact @SameBases.setMod st.states _ _
    · split at h
      · cases h
        exact hu
      · split at h
        · cases h
          exact Grows.escape hc (hn.trans .setMod)
        · split at h
          · cases h
            exact Grows.escape hc .setMod
          · cases h

/-- The escape of a horn. -/
lemma hornEscape_grows {scan} (hc : AsciiKey c) (h : hornEscape st c scan = some st') :
    st.Grows st' := by
  simp only [hornEscape] at h
  split at h
  · next k hk =>
    split at h
    · cases h
      have hkey : AsciiKey (if (charAt st.states k).isUpper then towupper c else towlower c) := by
        split
        · exact hc.towupper
        · exact hc.towlower
      refine ⟨?_, fun hb => ?_, rfl, rfl⟩
      · show (st.states.eraseIdx k ++ [_]).length ≤ _
        have hle := (List.eraseIdx_sublist st.states k).length_le
        rw [List.length_append, List.length_singleton]
        omega
      · exact AsciiBases.append (hb.subset (List.eraseIdx_subset)) hkey.towlower
    · cases h
      exact .escape hc (SameBases.undoHornU.trans .setMod)
  · split at h
    · cases h
      exact .escape hc .setMod
    · cases h

/-- A `w` that types `ư`. -/
lemma hornSynthetic_grows (h : hornSynthetic cfg st c = some st') : st.Grows st' := by
  simp only [hornSynthetic] at h
  split at h
  · cases h
  · split at h
    · cases h
    · cases h
      have hu : AsciiKey 'u' := by decide
      exact .append .refl hu

/-- The horn of a single vowel. -/
lemma hornStandalone_grows {scan outcome} (h : hornStandalone cfg st c scan = some outcome) :
    outcome.GrowsFrom st := by
  simp only [hornStandalone] at h
  split at h
  · split at h
    · cases h
    · cases h
      exact SameBases.setMod.trans .clearCircumflex
  · split at h
    · split at h
      · cases h
      · cases h
        exact @SameBases.setMod st.states _ _
    · split at h
      · split at h
        · cases h
        · cases h
          exact Grows.edit .setMod
      · obtain ⟨st', hst', rfl⟩ := Option.map_eq_some_iff.1 h
        exact hornSynthetic_grows hst'

/-- Whatever a `w` does. -/
lemma hornOutcome_grows {outcome} (hc : AsciiKey c) (h : hornOutcome cfg st c = some outcome) :
    outcome.GrowsFrom st := by
  simp only [hornOutcome] at h
  split at h
  · cases h
  · split at h
    · cases h
      exact SameBases.setMod.trans .clearCircumflex
    · split at h
      · next outcome' hp =>
        cases h
        obtain ⟨u, -, hu⟩ := Option.bind_eq_some_iff.1 hp
        exact hornPair_grows hc hu
      · split at h
        · cases h
          exact Grows.edit .setMod
        · split at h
          · next hesc =>
            cases h
            exact hornEscape_grows hc hesc
          · exact hornStandalone_grows h

/-- A `w`. -/
lemma handleHornW_grows (hc : AsciiKey c) (h : handleHornW cfg st c = some st') : st.Grows st' := by
  unfold handleHornW at h
  split at h
  · next hhorned =>
    cases h
    have hsame := hornOutcome_grows hc hhorned
    exact .edit (SameBases.trans hsame .relocateToneToHornVowel)
  · next hdone =>
    cases h
    exact hornOutcome_grows hc hdone
  · cases h

/-- A mark of VNI. -/
lemma vniApply_grows {mod key i} (h : vniApply cfg st mod key i = some st') : st.Grows st' := by
  simp only [vniApply] at h
  split at h
  · split at h
    · cases h
    · cases h
      exact .edit (SameBases.setMod.trans .relocateToneToTarget)
  · split at h
    · cases h
    · cases h
      exact .edit .setMod

/-- The circumflex and the breve of VNI. -/
lemma processVniVowelModifier_grows {mod} (hc : AsciiKey c)
    (h : processVniVowelModifier cfg st mod c = some st') : st.Grows st' := by
  simp only [processVniVowelModifier] at h
  split at h
  · exact vniApply_grows h
  · split at h
    · cases h
      exact .edit (SameBases.undoHornU.trans (SameBases.setMod.trans .relocateToneToTarget))
    · split at h
      · cases h
        exact .escape hc (SameBases.undoHornU.trans .setMod)
      · cases h

/-- The horns of a pair in VNI. -/
lemma vniHornPair_grows {u} (hc : AsciiKey c) (h : vniHornPair cfg st c u = some st') :
    st.Grows st' := by
  have horned : ∀ {states}, SameBases st.states states →
      st.Grows { st with states := relocateToneToTarget cfg states } :=
    fun hs => .edit (hs.trans .relocateToneToTarget)
  have hu : SameBases st.states (setMod st.states u .horn) := .setMod
  have hn : SameBases st.states (setMod st.states u .none) := .setMod
  simp only [vniHornPair] at h
  split at h
  · split at h <;> cases h
    · exact horned .setMod
    · exact horned (hu.trans .setMod)
  · split at h
    · cases h
      exact horned .setMod
    · split at h
      · cases h
        exact horned hu
      · split at h
        · cases h
          exact .escape hc (hn.trans .setMod)
        · cases h

/-- The horn of `uu` in VNI. -/
lemma vniHornUU_grows {firstU lastU} (hc : AsciiKey c)
    (h : vniHornUU cfg st c firstU lastU = some st') :
    st.Grows st' := by
  simp only [vniHornUU] at h
  split at h
  · cases h
  · split at h
    · cases h
      exact .edit (SameBases.setMod.trans .relocateToneToTarget)
    · split at h
      · cases h
        exact .escape hc .setMod
      · cases h

/-- The horn of VNI. -/
lemma handleVniHorn_grows (hc : AsciiKey c) (h : handleVniHorn cfg st c = some st') : st.Grows st' := by
  simp only [handleVniHorn] at h
  split at h
  · next hpair =>
    cases h
    split at hpair
    · split at hpair
      · exact vniHornPair_grows hc hpair
      · cases hpair
    · cases hpair
  · split at h
    · next huu =>
      cases h
      split at huu
      · exact vniHornUU_grows hc huu
      · cases huu
    · exact processVniVowelModifier_grows hc h

/-- A horn or an inserted `ư`. -/
lemma handleHornOrInsertU_grows {action} (hc : AsciiKey c)
    (h : handleHornOrInsertU cfg st action c = some st') : st.Grows st' := by
  unfold handleHornOrInsertU at h
  split at h
  · cases h
  · split at h
    · next hw =>
      cases h
      exact handleHornW_grows hc hw
    · split at h
      · next hi =>
        have hs := handleHornInsert_grows hc hi
        split at h
        · cases h
          exact hs.rework (.modify fun _ => rfl) ⟨rfl, rfl⟩
        · cases h
          exact hs
      · cases h

/-- Every modifier key. -/
lemma processModifier_grows {action} (hc : AsciiKey c) :
    st.GrowsOr (processModifier cfg st action c) := by
  have insert : ∀ st', handleInsertChar st action c = some st' → st.Grows st' :=
    fun _ h => handleInsertChar_grows hc h
  cases action <;> simp only [processModifier]
  case hornInsertO => exact .of_option fun _ h => handleHornInsert_grows hc h
  case hornInsertU => exact .of_option fun _ h => handleHornInsert_grows hc h
  case hornW => exact .of_option fun _ h => handleHornW_grows hc h
  case circumflexA => exact handleAdjacentCircumflex_grows hc
  case circumflexE => exact handleAdjacentCircumflex_grows hc
  case circumflexO => exact handleAdjacentCircumflex_grows hc
  case strokeD => exact .of_option fun _ h => handleStrokeD_grows hc h
  case vniStroke => exact .of_option fun _ h => handleStrokeD_grows hc h
  case vniCircumflex => exact .of_option fun _ h => processVniVowelModifier_grows hc h
  case vniBreve => exact .of_option fun _ h => processVniVowelModifier_grows hc h
  case vniHorn => exact .of_option fun _ h => handleVniHorn_grows hc h
  case hornOrInsertU => exact .of_option fun _ h => handleHornOrInsertU_grows hc h
  case hornOrInsertUNoStart => exact .of_option fun _ h => handleHornOrInsertU_grows hc h
  case undoAllMarks => exact .of_option fun _ h => handleUndoAllMarks_grows h
  all_goals exact .of_option insert

omit [WideLocale] in
/-- The bias does not matter. -/
lemma GrowsOr.of_bias {prot result} (h : GrowsOr { st with engProt := prot } result) :
    st.GrowsOr result := by
  unfold GrowsOr at h ⊢
  split
  · next hc =>
    rw [if_pos hc] at h
    exact h.of_same rfl ⟨rfl, rfl⟩
  · next hc =>
    rw [if_neg hc] at h
    obtain ⟨prot', h⟩ := h
    exact ⟨prot', h⟩

/-- A mark that is tried. -/
lemma tryModifier_grows {action lower checkRaw checkSpell} (hc : AsciiKey c) :
    st.GrowsOr (tryModifier cfg st action c lower checkRaw checkSpell) := by
  unfold tryModifier
  split
  · have hs : st.GrowsOr (processModifier cfg st action c) := processModifier_grows hc
    split
    · next st' heq =>
      rw [heq] at hs
      exact Grows.rework hs .applyAutoUO ⟨rfl, rfl⟩
    · next st' heq =>
      rw [heq] at hs
      exact hs
  · exact .passed

/-- A key with a mark. -/
lemma handleModifierAction_grows {action lower} (hc : AsciiKey c) :
    st.GrowsOr (handleModifierAction cfg st action c lower) := by
  have marked : ∀ {checkRaw}, st.GrowsOr
      (tryModifier cfg (markStrokeEnglish st action) action c lower checkRaw true) := by
    intro checkRaw
    obtain ⟨prot, hprot⟩ : ∃ prot, markStrokeEnglish st action = { st with engProt := prot } :=
      markStrokeEnglish_eq
    rw [hprot]
    exact .of_bias (tryModifier_grows hc)
  simp only [handleModifierAction]
  exact .ite marked (.ite marked (.ite (tryModifier_grows hc) .passed))

omit [WideLocale] in
/-- A canceled tone changes no letter. -/
lemma cancelTone_same {i} :
    SameBases st.states (st.cancelTone i).states ∧ st.SameQuick (st.cancelTone i) := by
  have huntoned : SameBases st.states (st.states.modify i fun s => { s with tone := .none }) :=
    .modify fun _ => rfl
  unfold cancelTone
  split
  · next idx _ =>
    obtain ⟨herased, hquick⟩ := @eraseConsumedRaw_same
      { st with states := st.states.modify i fun s => { s with tone := .none } } idx
    exact ⟨huntoned.trans (herased.trans (.modify fun _ => rfl)), hquick⟩
  · exact ⟨huntoned, rfl, rfl⟩

/-- A tone. -/
lemma processTone_grows {tone} (hc : AsciiKey c) (h : processTone cfg st tone c = some st') :
    st.Grows st' := by
  unfold processTone at h
  split at h
  · cases h
  · next i hi =>
    split at h
    · cases h
      obtain ⟨hbases, hquick⟩ := @cancelTone_same st i
      have hkey : (st.cancelTone i).Grows ((st.cancelTone i).processKey c) := .append .refl hc.towlower
      refine ⟨?_, fun hb => hkey.bases (hb.same hbases), hquick⟩
      rw [← hbases.length_eq]
      exact hkey.length
    · cases h
      exact Grows.refl.rework (.modify fun _ => rfl) ⟨rfl, rfl⟩

/-- A tone key. -/
lemma handleToneFsm_grows {action isUpper} (hc : AsciiKey c) :
    st.GrowsOr (handleToneFsm cfg st action c (towlower c) isUpper) := by
  unfold handleToneFsm
  refine .ite .passed (.ite (.ite (.consumed ?_) ?_) (.ite .passed ?_))
  · exact (Grows.append .refl hc.towlower).rework .refl ⟨rfl, rfl⟩
  · unfold processClearTone
    split
    · next h =>
      split at h
      · cases h
      · split at h
        · cases h
        · cases h
          exact .consumed (Grows.refl.rework (.modify fun _ => rfl) ⟨rfl, rfl⟩)
    · exact .passed
  · cases hg : toneGates cfg st action.toTone c (towlower c) with
    | mk prot literal =>
      refine @GrowsOr.of_bias st prot _ ?_
      refine .ite (.consumed ?_) ?_
      · exact (Grows.append .refl hc.towlower).rework .refl ⟨rfl, rfl⟩
      · split
        · next h =>
          refine .consumed ((processTone_grows hc h).rework ?_ ?_)
          · unfold afterTone
            split <;> exact .applyAutoUO
          · unfold afterTone
            split <;> exact ⟨rfl, rfl⟩
        · exact .passed

/-- The regular character at the end: the states it finds are edited, and a leading `ư` can become a
`w`. -/
lemma finalizeRegularChar_same :
    (finalizeRegularChar cfg st).states.length = st.states.length ∧
      (AsciiBases st.states → AsciiBases (finalizeRegularChar cfg st).states) ∧
      st.SameQuick (finalizeRegularChar cfg st) := by
  have hedit : SameBases st.states (applyAutoUO cfg (relocateToneToTarget cfg st.states)) :=
    SameBases.relocateToneToTarget.trans .applyAutoUO
  have hletter : AsciiKey 'w' := by decide
  -- whatever the spelling check and the bias say of the edited states
  have hrevert (spellCheckDisabled : Bool) (engProt : EnglishProtectionState) :
      let result := revertSyntheticW cfg { st with
        states := applyAutoUO cfg (relocateToneToTarget cfg st.states), spellCheckDisabled, engProt }
      result.states.length = st.states.length ∧
        (AsciiBases st.states → AsciiBases result.states) ∧ st.SameQuick result := by
    simp only [revertSyntheticW]
    split
    · refine ⟨(List.length_modify _ _ _).trans hedit.length_eq, fun hb => ?_, rfl, rfl⟩
      exact (hb.same hedit).modify fun _ _ => hletter
    · exact ⟨hedit.length_eq, fun hb => hb.same hedit, rfl, rfl⟩
  simp only [finalizeRegularChar]
  split
  · exact hrevert _ _
  · exact hrevert _ _

/-- The end of a regular character. -/
lemma finalizeRegularChar_grows (h : st.Grows st') : st.Grows (finalizeRegularChar cfg st') := by
  obtain ⟨hlength, hbases, hquick⟩ := @finalizeRegularChar_same st' _ cfg
  refine ⟨?_, fun hb => hbases (h.bases hb), hquick.1.trans h.quick.1, hquick.2.trans h.quick.2⟩
  rw [hlength]
  exact h.length

/-- The state a key makes. -/
def keyState (st : EngineState) (c : Char) : CharState :=
  { base := towlower c, isUpper := iswupper c, rawIdx := st.rawInput.length - 1 }

/-- What a key adds: one state at most, or the two of a quick end consonant. -/
def Adds (st st' : EngineState) (c : Char) : Prop :=
  st.Grows st' ∨
    ∃ first second, quickEndPair (towlower c) = some (first, second) ∧
      st'.states = st.states ++ [st.keyState first, st.keyState second] ∧ st.SameQuick st'

/-- The bias does not matter. -/
lemma Adds.of_bias {prot} (h : Adds { st with engProt := prot } st' c) : st.Adds st' c := by
  rcases h with h | ⟨first, second, hpair, hstates, hquick⟩
  · exact .inl (h.of_same rfl ⟨rfl, rfl⟩)
  · exact .inr ⟨first, second, hpair, hstates, hquick⟩

/-- The quick end consonants, and the regular character. -/
lemma regular_adds (hc : AsciiKey c) :
    st.Adds (appendRegular cfg st (towlower c) (iswupper c)) c := by
  unfold appendRegular
  split
  · next st' h =>
    simp only [handleQuickEndConsonant] at h
    split at h
    · next first second hlast hpair =>
      split at h
      · cases h
        refine .inr ⟨first, second, hpair, ?_, rfl, rfl⟩
        show st.states ++ [_] ++ [_] = _
        rw [List.append_assoc]
        rfl
      · cases h
    · cases h
  · exact .inl (finalizeRegularChar_grows (.append .refl hc.towlower))

/-- The rules after the classification. -/
lemma dispatch_adds {action} (hc : AsciiKey c) :
    st.Adds (dispatch cfg st action c (towlower c) (iswupper c)) c := by
  have adds : ∀ {prot result}, GrowsOr { st with engProt := prot } result →
      Passes { st with engProt := prot } (st.Adds · c) result := by
    intro prot result h
    unfold GrowsOr at h
    unfold Passes
    split
    · next hconsumed =>
      rw [if_pos hconsumed] at h
      exact .of_bias (.inl h)
    · next hpassed =>
      rw [if_neg hpassed] at h
      exact h
  exact dispatch_rule (fun _ _ => @adds st.engProt _ (handleToneFsm_grows hc))
    (fun _ => adds (handleModifierAction_grows hc)) (.of_bias (regular_adds hc))

end EngineState

end NextKey
