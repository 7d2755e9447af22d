import NextKey.Engine.EditClosed

/-!
# The modifiers that letters have

In every buffer that the engine reaches, under any configuration, a vowel has no modifier or one that
the alphabet has on its letter, so what it shows is what the state says. Each edit of the handlers is
followed to the letter that it looks for before it writes.
-/

namespace NextKey

/-- The alphabet has the modifier on the letter, if that is a vowel. -/
def LegalMark (base : Char) (mod : Modifier) : Prop :=
  isVowelBase base = true → mod = .none ∨ (modifiedVowel base mod).isSome = true

instance {base mod} : Decidable (LegalMark base mod) := inferInstanceAs (Decidable (_ → _))

/-- Every vowel has a modifier of its letter. -/
def FittingMarks (states : List CharState) : Prop := ∀ s ∈ states, LegalMark s.base s.mod

/-- No mark fits every letter. -/
lemma legalMark_none {base : Char} : LegalMark base .none := fun _ => .inl rfl

/-- The letters that take the circumflex. -/
lemma legalMark_circumflex {base : Char} (h : base = 'a' ∨ base = 'e' ∨ base = 'o') :
    LegalMark base .circumflex := by
  rcases h with rfl | rfl | rfl <;> decide

/-- The letters that take the horn. -/
lemma legalMark_horn {base : Char} (h : base = 'u' ∨ base = 'o') : LegalMark base .horn := by
  rcases h with rfl | rfl <;> decide

namespace FittingMarks

variable {states states' : List CharState} {i : Nat}

/-- The empty buffer has no marks. -/
lemma nil : FittingMarks [] := fun _ h => absurd h List.not_mem_nil

/-- Tones do not matter. -/
lemma bodies (h : FittingMarks states) (hs : SameBodies states states') : FittingMarks states' := by
  intro s hmem
  have hbody : s.body ∈ states.map CharState.body := by
    rw [← hs]
    exact List.mem_map_of_mem hmem
  obtain ⟨t, ht, heq⟩ := List.mem_map.1 hbody
  have hbase : t.base = s.base := congrArg (·.1) heq
  have hmod : t.mod = s.mod := congrArg (·.2.1) heq
  rw [← hbase, ← hmod]
  exact h t ht

/-- Some letters of a buffer with fitting marks. -/
lemma subset (h : FittingMarks states) (hsub : states' ⊆ states) : FittingMarks states' :=
  fun s hmem => h s (hsub hmem)

/-- A letter with a fitting mark is appended. -/
lemma append (h : FittingMarks states) {s : CharState} (hs : LegalMark s.base s.mod) :
    FittingMarks (states ++ [s]) := by
  intro t hmem
  rcases List.mem_append.1 hmem with hmem | hmem
  · exact h t hmem
  · rw [List.mem_singleton.1 hmem]
    exact hs

/-- A letter gets a fitting mark. -/
lemma modify (h : FittingMarks states) {f : CharState → CharState}
    (hf : ∀ s, states[i]? = some s → LegalMark (f s).base (f s).mod) :
    FittingMarks (states.modify i f) := by
  intro s hmem
  rcases List.mem_modify hmem with hmem | ⟨t, ht, rfl⟩
  · exact h s hmem
  · exact hf t ht

/-- A fitting mark is set. -/
lemma setMod (h : FittingMarks states) {mod} (hlegal : LegalMark (charAt states i).base mod) :
    FittingMarks (setMod states i mod) := by
  refine h.modify fun s hs => ?_
  have hat : charAt states i = s := by
    rw [charAt, List.getD_eq_getElem?_getD, hs, Option.getD_some]
  rw [hat] at hlegal
  exact hlegal

/-- A mark is cleared. -/
lemma cleared (h : FittingMarks states) : FittingMarks (NextKey.setMod states i .none) :=
  h.setMod legalMark_none

/-- A horn is taken off. -/
lemma undoHornU (h : FittingMarks states) : FittingMarks (undoHornU states i) := by
  unfold NextKey.undoHornU
  dsimp only
  split
  · exact h.cleared
  · exact h

/-- A circumflex is cleared. -/
lemma clearCircumflex (h : FittingMarks states) {idx} : FittingMarks (clearCircumflex states idx) := by
  unfold NextKey.clearCircumflex
  split
  · split
    · exact h.cleared
    · exact h
  · exact h

/-- The tone moves to the vowel with the horn. -/
lemma relocateToneToHornVowel (h : FittingMarks states) :
    FittingMarks (relocateToneToHornVowel states) := by
  simp only [NextKey.relocateToneToHornVowel]
  split
  · split
    · exact h.bodies ((SameBodies.modify (by intro _; rfl)).trans (.modify (by intro _; rfl)))
    · exact h
  · exact h

section Locale
variable [WideLocale] {cfg : TypingConfig}

/-- The tone moves to its target. -/
lemma relocateToneToTarget (h : FittingMarks states) : FittingMarks (relocateToneToTarget cfg states) :=
  h.bodies .relocateToneToTarget

/-- The horn that `ươ` is completed with fits its `u` or `o`. -/
lemma autoUOAt (h : FittingMarks states) : FittingMarks (autoUOAt cfg states i) := by
  by_cases hpair : HalfHorned states i
  · rcases @HalfHorned.autoUOAt states i _ cfg hpair with ⟨-, heq⟩ | ⟨-, heq⟩
    · rw [heq]
      exact h.setMod (legalMark_horn (.inl hpair.2.1))
    · rw [heq]
      exact (h.setMod (legalMark_horn (.inr hpair.2.2.1))).relocateToneToTarget
  · rwa [autoUOAt_eq_self hpair]

/-- The completion of `ươ` sets fitting horns. -/
lemma applyAutoUO (h : FittingMarks states) : FittingMarks (applyAutoUO cfg states) := by
  unfold NextKey.applyAutoUO
  generalize (List.range (states.length - 2)).drop (states.length - 4) = positions
  induction positions generalizing states with
  | nil => exact h
  | cons i positions ih => exact ih h.autoUOAt

end Locale

end FittingMarks

section Letters
variable {states : List CharState}

/-- What gets the stroke is a `d`. -/
lemma findStrokeDTarget_isD {i : Nat} (h : findStrokeDTarget states = some i) :
    (charAt states i).base = 'd' := by
  unfold findStrokeDTarget at h
  split at h
  · cases h
  · next dIdx hd =>
    have hbase : (charAt states dIdx).base = 'd' := beq_iff_eq.1 (lastIdx?_eq_some hd).2
    dsimp only at h
    split at h
    · split at h
      · cases h
      · cases h
        exact hbase
    · cases h
      exact hbase

/-- A pair of vowels that was found has their bases. -/
lemma vowelPair?_bases {first second : Char} {i} (h : vowelPair? states first second = some i) :
    (charAt states i).base = first ∧ (charAt states (i + 1)).base = second := by
  have hpair := (lastIdx?_eq_some h).2
  simp only [Bool.and_eq_true, beq_iff_eq] at hpair
  exact ⟨hpair.1.2, hpair.2⟩

/-- The letters that the scan finds. -/
structure HornScan.Found (scan : HornScan) (states : List CharState) : Prop where
  firstU : ∀ u, scan.firstUIdx = some u → (charAt states u).base = 'u'
  u : ∀ u, scan.uIdx = some u → (charAt states u).base = 'u'
  o : ∀ o, scan.oIdx = some o → (charAt states o).base = 'o'
  a : ∀ a, scan.aIdx = some a → (charAt states a).base = 'a'

/-- What the scan for the horn has found are the vowels that it looked for. -/
lemma hornScan_found : (hornScan states).Found states := by
  have first : ∀ {base : Char} {mods : List Modifier} {i}, (firstIdx? states.length fun i =>
      !isQUClusterU states i && (charAt states i).base == base && mods.contains (charAt states i).mod) =
        some i → (charAt states i).base = base := by
    intro base mods i h
    have hat := (firstIdx?_eq_some h).2
    simp only [Bool.and_eq_true, beq_iff_eq] at hat
    exact hat.1.2
  have last : ∀ {base : Char} {mods : List Modifier} {i}, (lastIdx? states.length fun i =>
      !isQUClusterU states i && (charAt states i).base == base && mods.contains (charAt states i).mod) =
        some i → (charAt states i).base = base := by
    intro base mods i h
    have hat := (lastIdx?_eq_some h).2
    simp only [Bool.and_eq_true, beq_iff_eq] at hat
    exact hat.1.2
  exact ⟨fun _ h => first h, fun _ h => last h, fun _ h => last h, fun _ h => last h⟩

end Letters

namespace EngineState

open EditClosed

variable [WideLocale] {cfg : TypingConfig} {st st' : EngineState} {c : Char} {states : List CharState}

/-- The key at the end. -/
lemma processKey_fits (h : FittingMarks st.states) : FittingMarks (st.processKey c).states :=
  h.append legalMark_none

/-- An escape: an edit, and the key as a literal. -/
lemma escapeWith_fits {kind} (h : FittingMarks st.states) :
    FittingMarks (st.escapeWith c kind).states := processKey_fits h

/-- The stroke goes on a `d`. -/
lemma handleStrokeD_fits (h : FittingMarks st.states) (hst' : handleStrokeD cfg st c = some st') :
    FittingMarks st'.states := by
  unfold handleStrokeD at hst'
  split at hst'
  · cases hst'
  · split at hst'
    · cases hst'
    · next dIdx hd =>
      split at hst'
      · cases hst'
        refine h.setMod ?_
        rw [findStrokeDTarget_isD hd]
        decide
      · split at hst'
        · cases hst'
        · split at hst'
          · cases hst'
          · cases hst'
            exact @escapeWith_fits _ { st with states := setMod st.states dIdx .none } _ _ h.cleared
      · cases hst'

/-- Taking an inserted letter back keeps the marks fitting. -/
lemma undoInsert?_fits {base mod kind} (h : FittingMarks st.states)
    (hst' : undoInsert? st c base mod kind = some st') : FittingMarks st'.states := by
  unfold undoInsert? at hst'
  split at hst'
  · split at hst'
    · cases hst'
      refine escapeWith_fits ?_
      have hremoved : FittingMarks ({ st with states := st.states.dropLast } : EngineState).states :=
        h.subset (List.dropLast_subset _)
      exact hremoved.bodies .eraseConsumedRaw
    · cases hst'
  · cases hst'

/-- The brackets insert letters with fitting marks. -/
lemma handleHornInsert_fits {action} (h : FittingMarks st.states)
    (hst' : handleHornInsert cfg st action c = some st') : FittingMarks st'.states := by
  simp only [handleHornInsert] at hst'
  split at hst'
  · cases hst'
  · split at hst'
    · next hundo =>
      cases hst'
      exact undoInsert?_fits h hundo
    · cases hst'
      refine h.append (legalMark_horn ?_)
      show (if action = .hornInsertO then 'o' else 'u') = 'u' ∨ _ = 'o'
      split
      · exact .inr rfl
      · exact .inl rfl

omit [WideLocale] in
/-- The glyph of an action has a fitting mark. -/
lemma insertGlyph_legal {action : TypingAction} {base mod upper}
    (h : action.insertGlyph = some (base, mod, upper)) : LegalMark base mod := by
  unfold TypingAction.insertGlyph at h
  split at h <;> cases h <;> decide

/-- A glyph that is inserted has a fitting mark. -/
lemma handleInsertChar_fits {action} (h : FittingMarks st.states)
    (hst' : handleInsertChar st action c = some st') : FittingMarks st'.states := by
  unfold handleInsertChar at hst'
  split at hst'
  · cases hst'
  · next hglyph =>
    split at hst'
    · next hundo =>
      cases hst'
      exact undoInsert?_fits h hundo
    · cases hst'
      exact h.append (insertGlyph_legal hglyph)

omit [WideLocale] in
/-- Without marks all is fitting. -/
lemma handleUndoAllMarks_fits (h : FittingMarks st.states)
    (hst' : handleUndoAllMarks st = some st') : FittingMarks st'.states := by
  unfold handleUndoAllMarks at hst'
  split at hst'
  · cases hst'
    intro s hs
    obtain ⟨t, ht, rfl⟩ := List.mem_map.1 hs
    split
    · exact legalMark_none
    · exact h t ht
  · cases hst'

/-- A letter that takes the circumflex. -/
def circumflexBase (base : Char) : Prop := base = 'a' ∨ base = 'e' ∨ base = 'o'

/-- A vowel typed twice takes the circumflex. -/
lemma adjacentCircumflex_fits {targetBase} (htarget : circumflexBase targetBase)
    (hlast : (charAt st.states (st.states.length - 1)).base = targetBase) (h : FittingMarks st.states)
    (hst' : adjacentCircumflex cfg st targetBase c = some st') : FittingMarks st'.states := by
  have hlegal : LegalMark (charAt st.states (st.states.length - 1)).base .circumflex := by
    rw [hlast]
    exact legalMark_circumflex htarget
  simp only [adjacentCircumflex] at hst'
  split at hst'
  · cases hst'
    exact h
  · split at hst'
    · cases hst'
      have hkey : FittingMarks
          ({ st with states := setMod st.states (st.states.length - 1) .none }.processKey c).states :=
        @processKey_fits _ { st with states := _ } _ h.cleared
      split <;> exact hkey
    · split at hst'
      · split at hst'
        · cases hst'
        · cases hst'
          exact (h.setMod hlegal).relocateToneToTarget
      · split at hst'
        · cases hst'
        · cases hst'
          exact h.setMod hlegal

/-- A vowel further back takes the circumflex. -/
lemma freeCircumflex_fits {targetBase} (htarget : circumflexBase targetBase)
    (h : FittingMarks st.states) : Keeps FittingMarks st (freeCircumflex cfg st targetBase c) := by
  have english : Keeps FittingMarks st
      ({ st with engProt := { st.engProt with bias := .hardEnglish } }, false) := ⟨_, rfl⟩
  simp only [freeCircumflex]
  split
  · exact .passed
  · next i hi =>
    have hbase : (charAt st.states i).base = targetBase := beq_iff_eq.1 (lastIdx?_eq_some hi).2
    have hlegal : LegalMark (charAt st.states i).base .circumflex := by
      rw [hbase]
      exact legalMark_circumflex htarget
    have applied : Keeps FittingMarks st
        ({ st with states := relocateToneToTarget cfg (setMod st.states i .circumflex) }, true) :=
      (h.setMod hlegal).relocateToneToTarget
    split
    · exact @escapeWith_fits _ { st with states := setMod st.states i .none } _ _ h.cleared
    · exact .ite .passed applied
    · refine .ite ?_ .passed
      exact (h.setMod hlegal).undoHornU.relocateToneToTarget
    · refine .ite (.ite (.ite .passed applied) (.ite english applied)) ?_
      exact .ite (.ite applied english) (.ite .passed applied)
    · exact .passed

/-- The circumflex of Telex fits its vowel. -/
lemma handleAdjacentCircumflex_fits {action}
    (htarget : circumflexBase (if cfg.inputMethod = .userDefined then action.toVowel else towlower c))
    (h : FittingMarks st.states) :
    Keeps FittingMarks st (handleAdjacentCircumflex cfg st action c) := by
  unfold handleAdjacentCircumflex
  dsimp only
  generalize (if cfg.inputMethod = .userDefined then action.toVowel else towlower c) = targetBase
    at htarget
  refine .ite .passed ?_
  split
  · next hlast =>
    split
    · next hadjacent => exact adjacentCircumflex_fits htarget hlast.1 h hadjacent
    · exact .passed
  · exact .ite .passed (.ite (freeCircumflex_fits htarget h) .passed)

omit [WideLocale] in
/-- A mark does not change the bases. -/
lemma setMod_base {i j : Nat} {mod} : (charAt (setMod states i mod) j).base = (charAt states j).base :=
  SameBases.setMod.charAt

/-- The horns of `uo` fit. -/
lemma hornPair_fits {u outcome} (h : FittingMarks st.states) (hu : (charAt st.states u).base = 'u')
    (ho : (charAt st.states (u + 1)).base = 'o') (hout : hornPair st c u = some outcome) :
    FittingMarks (outcomeStates outcome) := by
  have hornU := legalMark_horn (.inl hu)
  have hornO := legalMark_horn (.inr ho)
  simp only [hornPair] at hout
  split at hout
  · split at hout <;> cases hout
    · exact h.setMod hornO
    · exact (h.setMod hornU).setMod (by rwa [setMod_base])
  · split at hout
    · cases hout
      exact h.setMod hornO
    · split at hout
      · cases hout
        exact h.setMod hornU
      · split at hout
        · cases hout
          exact @escapeWith_fits _ { st with states := _ } _ _ h.cleared.cleared
        · split at hout
          · cases hout
            exact @escapeWith_fits _ { st with states := _ } _ _ h.cleared
          · cases hout

/-- An escaped horn leaves fitting marks. -/
lemma hornEscape_fits {scan} (h : FittingMarks st.states) (hst' : hornEscape st c scan = some st') :
    FittingMarks st'.states := by
  simp only [hornEscape] at hst'
  split at hst'
  · next k hk =>
    split at hst'
    · cases hst'
      exact @escapeWith_fits _ { st with states := st.states.eraseIdx k } _ _
        (h.subset List.eraseIdx_subset)
    · cases hst'
      exact @escapeWith_fits _ { st with states := _ } _ _ h.undoHornU.cleared
  · split at hst'
    · cases hst'
      exact @escapeWith_fits _ { st with states := _ } _ _ h.cleared
    · cases hst'

/-- The `ư` that a `w` types has a fitting mark. -/
lemma hornSynthetic_fits (h : FittingMarks st.states) (hst' : hornSynthetic cfg st c = some st') :
    FittingMarks st'.states := by
  simp only [hornSynthetic] at hst'
  split at hst'
  · cases hst'
  · split at hst'
    · cases hst'
    · cases hst'
      exact h.append (legalMark_horn (.inl rfl))

/-- The horn or breve of a single vowel fits what the scan has found. -/
lemma hornStandalone_fits {scan outcome} (h : FittingMarks st.states) (hscan : scan.Found st.states)
    (hout : hornStandalone cfg st c scan = some outcome) : FittingMarks (outcomeStates outcome) := by
  simp only [hornStandalone] at hout
  split at hout
  · next u hu =>
    split at hout
    · cases hout
    · cases hout
      refine (h.setMod (legalMark_horn (.inl ?_))).clearCircumflex
      unfold hornTargetU
      split
      · cases hfirst : scan.firstUIdx with
        | none => exact hscan.u u hu
        | some first => exact hscan.firstU first hfirst
      · exact hscan.u u hu
  · split at hout
    · next o ho _ =>
      split at hout
      · cases hout
      · cases hout
        exact h.setMod (legalMark_horn (.inr (hscan.o o ho)))
    · split at hout
      · next a ha =>
        split at hout
        · cases hout
        · cases hout
          refine h.setMod ?_
          rw [hscan.a a ha]
          decide
      · obtain ⟨st', hst', rfl⟩ := Option.map_eq_some_iff.1 hout
        exact hornSynthetic_fits h hst'

/-- Whatever a `w` does leaves fitting marks. -/
lemma hornOutcome_fits {outcome} (h : FittingMarks st.states)
    (hout : hornOutcome cfg st c = some outcome) : FittingMarks (outcomeStates outcome) := by
  have hscan := @hornScan_found st.states
  simp only [hornOutcome] at hout
  split at hout
  · cases hout
  · split at hout
    · next u _ hu _ =>
      cases hout
      exact (h.setMod (legalMark_horn (.inl (hscan.u u hu)))).clearCircumflex
    · split at hout
      · next hpair =>
        cases hout
        obtain ⟨u, hu, hout⟩ := Option.bind_eq_some_iff.1 hpair
        obtain ⟨hu, ho⟩ := vowelPair?_bases hu
        exact hornPair_fits h hu ho hout
      · split at hout
        · next a _ ha _ =>
          cases hout
          refine h.setMod ?_
          rw [hscan.a a ha]
          decide
        · split at hout
          · next hescape =>
            cases hout
            exact hornEscape_fits h hescape
          · exact hornStandalone_fits h hscan hout

/-- The horn and the breve of Telex fit. -/
lemma handleHornW_fits (h : FittingMarks st.states) (hst' : handleHornW cfg st c = some st') :
    FittingMarks st'.states := by
  unfold handleHornW at hst'
  split at hst'
  · next hhorned =>
    cases hst'
    exact (show FittingMarks _ from hornOutcome_fits h hhorned).relocateToneToHornVowel
  · next hdone =>
    cases hst'
    exact hornOutcome_fits h hdone
  · cases hst'

/-- A mark of VNI fits when it is fit for the letter. -/
lemma vniApply_fits {mod key i} (h : FittingMarks st.states)
    (hlegal : LegalMark (charAt st.states i).base mod) (hst' : vniApply cfg st mod key i = some st') :
    FittingMarks st'.states := by
  simp only [vniApply] at hst'
  split at hst'
  · split at hst'
    · cases hst'
    · cases hst'
      exact (h.setMod hlegal).relocateToneToTarget
  · split at hst'
    · cases hst'
    · cases hst'
      exact h.setMod hlegal

omit [WideLocale] in
/-- A letter is eligible for fitting marks only. -/
lemma vniEligible_legal {mod base} (h : vniEligible mod base = true) : LegalMark base mod := by
  cases mod <;> simp only [vniEligible, Bool.or_eq_true, beq_iff_eq, Bool.false_eq_true] at h
  · exact legalMark_circumflex (by tauto)
  · subst h
    decide
  · exact legalMark_horn (by tauto)

omit [WideLocale] in
/-- A mark is switched for a fitting one only. -/
lemma vniCanSwitch_legal {base curMod mod} (h : vniCanSwitch base curMod mod = true) :
    LegalMark base mod := by
  simp only [vniCanSwitch, Bool.or_eq_true, Bool.and_eq_true, beq_iff_eq] at h
  rcases h with ⟨rfl, ⟨-, rfl⟩ | ⟨-, rfl⟩⟩ | ⟨rfl, ⟨-, rfl⟩ | ⟨-, rfl⟩⟩ <;> decide

/-- The circumflex and the breve of VNI fit. -/
lemma processVniVowelModifier_fits {mod} (h : FittingMarks st.states)
    (hst' : processVniVowelModifier cfg st mod c = some st') : FittingMarks st'.states := by
  simp only [processVniVowelModifier] at hst'
  split at hst'
  · next i hi =>
    have hat := (lastIdx?_eq_some hi).2
    simp only [Bool.and_eq_true] at hat
    exact vniApply_fits h (vniEligible_legal hat.2.1) hst'
  · split at hst'
    · next i hi =>
      cases hst'
      have hat := (lastIdx?_eq_some hi).2
      simp only [Bool.and_eq_true] at hat
      refine (h.undoHornU.setMod ?_).relocateToneToTarget
      rw [SameBases.undoHornU.charAt]
      exact vniCanSwitch_legal hat.2
    · split at hst'
      · cases hst'
        exact @escapeWith_fits _ { st with states := _ } _ _ h.undoHornU.cleared
      · cases hst'

/-- The horns of a pair in VNI fit. -/
lemma vniHornPair_fits {u} (h : FittingMarks st.states) (hu : (charAt st.states u).base = 'u')
    (ho : (charAt st.states (u + 1)).base = 'o') (hst' : vniHornPair cfg st c u = some st') :
    FittingMarks st'.states := by
  have hornU := legalMark_horn (.inl hu)
  have hornO := legalMark_horn (.inr ho)
  simp only [vniHornPair] at hst'
  split at hst'
  · split at hst' <;> cases hst'
    · exact (h.setMod hornO).relocateToneToTarget
    · exact ((h.setMod hornU).setMod (by rwa [setMod_base])).relocateToneToTarget
  · split at hst'
    · cases hst'
      exact (h.setMod hornO).relocateToneToTarget
    · split at hst'
      · cases hst'
        exact (h.setMod hornU).relocateToneToTarget
      · split at hst'
        · cases hst'
          exact @escapeWith_fits _ { st with states := _ } _ _ h.cleared.cleared
        · cases hst'

/-- The horn of `uu` in VNI fits. -/
lemma vniHornUU_fits {firstU lastU} (h : FittingMarks st.states)
    (hu : (charAt st.states firstU).base = 'u') (hst' : vniHornUU cfg st c firstU lastU = some st') :
    FittingMarks st'.states := by
  simp only [vniHornUU] at hst'
  split at hst'
  · cases hst'
  · split at hst'
    · cases hst'
      exact (h.setMod (legalMark_horn (.inl hu))).relocateToneToTarget
    · split at hst'
      · cases hst'
        exact @escapeWith_fits _ { st with states := _ } _ _ h.cleared
      · cases hst'

/-- The horn of VNI fits. -/
lemma handleVniHorn_fits (h : FittingMarks st.states) (hst' : handleVniHorn cfg st c = some st') :
    FittingMarks st'.states := by
  have letter : ∀ {base : Char} {i}, (lastIdx? st.states.length fun i =>
      (charAt st.states i).base == base && !isClusterConsonant st.states i) = some i →
        (charAt st.states i).base = base := by
    intro base i hi
    have hat := (lastIdx?_eq_some hi).2
    simp only [Bool.and_eq_true, beq_iff_eq] at hat
    exact hat.1
  simp only [handleVniHorn] at hst'
  split at hst'
  · next hpair =>
    cases hst'
    split at hpair
    · next u o hu ho =>
      split at hpair
      · next hnext =>
        exact vniHornPair_fits h (letter hu) (hnext ▸ letter ho) hpair
      · cases hpair
    · cases hpair
  · split at hst'
    · next huu =>
      cases hst'
      split at huu
      · next firstU lastU hfirst _ =>
        have hat := (firstIdx?_eq_some hfirst).2
        simp only [Bool.and_eq_true, beq_iff_eq] at hat
        exact vniHornUU_fits h hat.1 huu
      · cases huu
    · exact processVniVowelModifier_fits h hst'

/-- A horn or an inserted `ư` fits. -/
lemma handleHornOrInsertU_fits {action} (h : FittingMarks st.states)
    (hst' : handleHornOrInsertU cfg st action c = some st') : FittingMarks st'.states := by
  unfold handleHornOrInsertU at hst'
  split at hst'
  · cases hst'
  · split at hst'
    · next hw =>
      cases hst'
      exact handleHornW_fits h hw
    · split at hst'
      · next hinsert =>
        have hfits := handleHornInsert_fits h hinsert
        split at hst'
        · cases hst'
          exact hfits.modify fun s hs => hfits s (List.mem_of_getElem? hs)
        · cases hst'
          exact hfits
      · cases hst'

/-- The letter of a circumflex key takes the circumflex. -/
def CircumflexKey (cfg : TypingConfig) (action : TypingAction) (lower : Char) : Prop :=
  action = .circumflexA ∨ action = .circumflexE ∨ action = .circumflexO →
    circumflexBase (if cfg.inputMethod = .userDefined then action.toVowel else lower)

omit [WideLocale] in
/-- The built-in methods have the circumflex keys on their letters. -/
lemma circumflexKey_classifyKey {lower isTelex isVni} (hne : cfg.inputMethod ≠ .userDefined) :
    CircumflexKey cfg (classifyKey lower isTelex isVni) lower := by
  intro haction
  rw [if_neg hne]
  unfold classifyKey at haction
  split at haction
  · unfold classifyTelex at haction
    split at haction
    case h_7 => exact .inl rfl
    case h_8 => exact .inr (.inl rfl)
    case h_9 => exact .inr (.inr rfl)
    all_goals simp at haction
  · split at haction
    · unfold classifyVni at haction
      split at haction <;> simp at haction
    · simp at haction

omit [WideLocale] in
/-- The key that is classified as a circumflex is one of the vowels that take it. -/
lemma circumflexKey_classify {lower} : CircumflexKey cfg (classify cfg st c lower) lower := by
  by_cases huser : cfg.inputMethod = .userDefined
  · -- a user-defined key names the letter
    intro haction
    rw [if_pos huser]
    rcases haction with haction | haction | haction <;> rw [haction]
    · exact .inl rfl
    · exact .inr (.inl rfl)
    · exact .inr (.inr rfl)
  · unfold classify
    rw [if_neg huser]
    split
    · rintro (haction | haction | haction) <;> cases haction
    · rw [if_neg (by simp)]
      exact circumflexKey_classifyKey huser

/-- Every key with a mark leaves fitting marks. -/
lemma processModifier_fits {action} (hkey : CircumflexKey cfg action (towlower c))
    (h : FittingMarks st.states) : Keeps FittingMarks st (processModifier cfg st action c) := by
  have insert : ∀ st', handleInsertChar st action c = some st' → FittingMarks st'.states :=
    fun _ => handleInsertChar_fits h
  cases action <;> simp only [processModifier]
  case hornInsertO => exact .of_option fun _ => handleHornInsert_fits h
  case hornInsertU => exact .of_option fun _ => handleHornInsert_fits h
  case hornW => exact .of_option fun _ => handleHornW_fits h
  case circumflexA => exact handleAdjacentCircumflex_fits (hkey (.inl rfl)) h
  case circumflexE => exact handleAdjacentCircumflex_fits (hkey (.inr (.inl rfl))) h
  case circumflexO => exact handleAdjacentCircumflex_fits (hkey (.inr (.inr rfl))) h
  case strokeD => exact .of_option fun _ => handleStrokeD_fits h
  case vniStroke => exact .of_option fun _ => handleStrokeD_fits h
  case vniCircumflex => exact .of_option fun _ => processVniVowelModifier_fits h
  case vniBreve => exact .of_option fun _ => processVniVowelModifier_fits h
  case vniHorn => exact .of_option fun _ => handleVniHorn_fits h
  case hornOrInsertU => exact .of_option fun _ => handleHornOrInsertU_fits h
  case hornOrInsertUNoStart => exact .of_option fun _ => handleHornOrInsertU_fits h
  case undoAllMarks => exact .of_option fun _ => handleUndoAllMarks_fits h
  all_goals exact .of_option insert

/-- A mark that is tried fits. -/
lemma tryModifier_fits {action lower checkRaw checkSpell}
    (hkey : CircumflexKey cfg action (towlower c)) (h : FittingMarks st.states) :
    Keeps FittingMarks st (tryModifier cfg st action c lower checkRaw checkSpell) := by
  unfold tryModifier
  split
  · have hkeeps := processModifier_fits hkey h
    split
    · next heq =>
      rw [heq] at hkeeps
      exact FittingMarks.applyAutoUO hkeeps
    · next heq =>
      rw [heq] at hkeeps
      exact hkeeps
  · exact .passed

/-- An action with a mark leaves fitting marks. -/
lemma handleModifierAction_fits {action lower} (hkey : CircumflexKey cfg action (towlower c))
    (h : FittingMarks st.states) :
    Keeps FittingMarks st (handleModifierAction cfg st action c lower) := by
  have marked : ∀ {checkRaw}, Keeps FittingMarks st
      (tryModifier cfg (markStrokeEnglish st action) action c lower checkRaw true) := by
    intro checkRaw
    obtain ⟨prot, hprot⟩ : ∃ prot, markStrokeEnglish st action = { st with engProt := prot } :=
      markStrokeEnglish_eq
    rw [hprot]
    exact .of_bias (tryModifier_fits hkey h)
  simp only [handleModifierAction]
  exact .ite marked (.ite marked (.ite (tryModifier_fits hkey h) .passed))

/-- A tone does not touch the marks. -/
lemma processTone_fits {tone} (h : FittingMarks st.states)
    (hst' : processTone cfg st tone c = some st') : FittingMarks st'.states := by
  unfold processTone at hst'
  split at hst'
  · cases hst'
  · next hi =>
    split at hst'
    · cases hst'
      exact processKey_fits (h.bodies (cancelTone_untoned (findToneTarget_eq_some hi).1).1)
    · cases hst'
      exact h.bodies (.modify (by intro _; rfl))

/-- Nor do the states of a tone key. -/
lemma handleToneFsm_fits {action isUpper} (h : FittingMarks st.states) :
    Keeps FittingMarks st (handleToneFsm cfg st action c (towlower c) isUpper) := by
  unfold handleToneFsm
  refine .ite .passed (.ite (.ite ?_ ?_) (.ite .passed ?_))
  · exact processKey_fits h
  · unfold processClearTone
    split
    · next hclear =>
      split at hclear
      · cases hclear
      · split at hclear
        · cases hclear
        · cases hclear
          exact h.bodies (.modify (by intro _; rfl))
    · exact .passed
  · cases hgates : toneGates cfg st action.toTone c (towlower c) with
    | mk prot literal =>
      refine @Keeps.of_bias FittingMarks st prot _ ?_
      refine .ite (h.append legalMark_none) ?_
      split
      · next st' hst' =>
        have htoned : FittingMarks st'.states :=
          @processTone_fits _ _ { st with engProt := prot } _ _ _ h hst'
        show FittingMarks (afterTone cfg st').states
        unfold afterTone
        split <;> exact htoned.applyAutoUO
      · exact .passed

/-- The end of a regular character leaves fitting marks. -/
lemma finalizeRegularChar_fits (h : FittingMarks st.states) :
    FittingMarks (finalizeRegularChar cfg st).states := by
  have hedit : FittingMarks (applyAutoUO cfg (relocateToneToTarget cfg st.states)) :=
    h.relocateToneToTarget.applyAutoUO
  -- whatever the spelling check and the bias say of the edited states
  have hrevert (spellCheckDisabled : Bool) (engProt : EnglishProtectionState) :
      FittingMarks (revertSyntheticW cfg { st with
        states := applyAutoUO cfg (relocateToneToTarget cfg st.states)
        spellCheckDisabled, engProt }).states := by
    simp only [revertSyntheticW]
    split
    · exact hedit.modify fun _ _ => legalMark_none
    · exact hedit
  simp only [finalizeRegularChar]
  split
  · exact hrevert _ _
  · exact hrevert _ _

/-- A regular character is appended without a mark. -/
lemma appendRegular_fits (h : FittingMarks st.states) {lower isUpper} :
    FittingMarks (appendRegular cfg st lower isUpper).states := by
  unfold appendRegular
  split
  · next st' hst' =>
    simp only [handleQuickEndConsonant] at hst'
    split at hst'
    · split at hst'
      · cases hst'
        exact (h.append legalMark_none).append legalMark_none
      · cases hst'
    · cases hst'
  · exact finalizeRegularChar_fits (h.append legalMark_none)

/-- A quick start that is undone leaves fitting marks. -/
lemma undoQuickStart_fits (h : FittingMarks st.states) : FittingMarks (st.undoQuickStart c).states := by
  unfold undoQuickStart
  split
  · exact h
  · dsimp only
    split
    · exact h
    · exact FittingMarks.nil.append legalMark_none

/-- The consonants that a quick one expands to have no marks. -/
lemma quickConsonantExpand_fits {lower isUpper} (h : FittingMarks st.states)
    (hst' : quickConsonantExpand cfg st lower isUpper = some st') : FittingMarks st'.states := by
  simp only [quickConsonantExpand] at hst'
  split at hst'
  · cases hst'
  · split at hst'
    · split at hst'
      · cases hst'
        exact finalizeRegularChar_fits (h.append legalMark_none)
      · cases hst'
    · split at hst'
      · next hu =>
        split at hst'
        · cases hst'
        · cases hst'
          exact (h.setMod (legalMark_horn (.inl hu.1))).append (legalMark_horn (.inr rfl))
      · cases hst'

/-- A quick start leaves fitting marks. -/
lemma handleQuickStartConsonant_fits (h : FittingMarks st.states) {lower isUpper} :
    FittingMarks (handleQuickStartConsonant cfg st c lower isUpper).1.states := by
  have hundone : FittingMarks (st.undoQuickStart c).states := undoQuickStart_fits h
  simp only [handleQuickStartConsonant]
  split
  · exact (h.append legalMark_none).append legalMark_none
  · split
    · split
      · next hexpand =>
        refine quickConsonantExpand_fits ?_ hexpand
        exact hundone
      · exact hundone
    · exact hundone

/-- What every key preserves. -/
lemma pushChar_fits (h : FittingMarks st.states) : FittingMarks (st.pushChar cfg c).states := by
  have hpress : FittingMarks (st.press c).states := h
  have hquick := @handleQuickStartConsonant_fits _ cfg (st.press c) c hpress (towlower c) (iswupper c)
  simp only [pushChar]
  split
  · exact hquick
  · exact dispatch_rule (P := fun st' => FittingMarks st'.states)
      (fun _ _ => handleToneFsm_fits hquick)
      (fun _ => handleModifierAction_fits circumflexKey_classify hquick)
      (fun {prot} => @appendRegular_fits _ _ { (handleQuickStartConsonant cfg (st.press c) c
        (towlower c) (iswupper c)).1 with engProt := prot } hquick _ _)

/-- What Backspace preserves. -/
lemma backspace_fits (h : FittingMarks st.states) : FittingMarks (st.backspace cfg).states := by
  unfold backspace
  split
  · exact h
  · dsimp only
    split
    · exact FittingMarks.nil.append legalMark_none
    · split
      · have hundone : FittingMarks (undoHornU st.states (st.states.length - 1)).dropLast :=
          h.undoHornU.subset (List.dropLast_subset _)
        simp only [undoQuickConsonant]
        split
        · exact hundone.append legalMark_none
        · exact hundone
      · exact h.subset (List.dropLast_subset _)

omit [WideLocale] in
/-- A letter of the tables has a fitting mark. -/
lemma decomposeToneBase_legal {ch base : Char} {mod} (h : decomposeToneBase ch = some (base, mod)) :
    LegalMark base mod := by
  unfold decomposeToneBase at h
  split at h <;> cases h <;> decide

/-- A Vietnamese character has a fitting mark. -/
lemma decomposeVietChar_legal {ch base : Char} {mod tone isUpper}
    (h : decomposeVietChar ch = some (base, mod, tone, isUpper)) : LegalMark base mod := by
  simp only [decomposeVietChar] at h
  split at h
  · cases h
    decide
  · split at h
    · obtain ⟨⟨base', mod'⟩, hbase, heq⟩ := Option.map_eq_some_iff.1 h
      cases heq
      exact decomposeToneBase_legal hbase
    · split at h
      · next hbase =>
        cases h
        exact decomposeToneBase_legal hbase
      · split at h
        · cases h
          exact legalMark_none
        · cases h

/-- A buffer that was seeded has fitting marks. -/
lemma seedFromText_fits {text} : FittingMarks (seedFromText cfg text).1.states := by
  have hfold : ∀ {st st' : EngineState}, FittingMarks st.states → text.foldlM seedChar st = some st' →
      FittingMarks st'.states := by
    induction text with
    | nil =>
      rintro st st' h hst'
      cases hst'
      exact h
    | cons ch rest ih =>
      intro st st' h hst'
      obtain ⟨mid, hmid, hrest⟩ := Option.bind_eq_some_iff.1 hst'
      obtain ⟨⟨base, mod, tone, isUpper⟩, hletter, rfl⟩ := Option.map_eq_some_iff.1 hmid
      exact ih (h.append (decomposeVietChar_legal hletter)) hrest
  unfold seedFromText
  split
  · exact .nil
  · next st hst =>
    have hseeded : FittingMarks st.states := hfold .nil hst
    exact hseeded

/-- Every buffer that is reached has fitting marks. -/
theorem Reachable.fittingMarks (h : Reachable st) : FittingMarks st.states := by
  induction h with
  | init => exact .nil
  | seed => exact seedFromText_fits
  | push _ _ ih => exact pushChar_fits ih
  | back _ ih => exact backspace_fits ih

end EngineState

end NextKey
