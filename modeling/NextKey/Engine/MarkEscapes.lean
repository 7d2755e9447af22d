import NextKey.Engine.Growth
import NextKey.Engine.ShownMarks

/-!
# Escaped marks

What a modifier handler that takes a key of full Telex leaves: it appends nothing, or a state with a modifier,
or it escapes a mark. An escape clears a modifier that showed and appends the key, and `ApplyAutoUO` does
not set the modifier again.
-/

namespace NextKey

namespace EngineState

variable {st st' : EngineState} {c : Char} {i : Nat} [WideLocale] {cfg : TypingConfig}

/-- A modifier that showed is cleared, and no half-horned pair is left that brings it back. -/
structure ClearsMark (states cleared : List CharState) (i : Nat) : Prop where
  lt : i < states.length
  bases : SameBases states cleared
  letter : (charAt states i).base ∈ markLetters
  shown : (charAt states i).shownMod ≠ .none
  none : (charAt cleared i).mod = .none
  kept : (charAt states i).shownMod = .horn → ∀ k, HalfHorned cleared k → i ≠ k ∧ i ≠ k + 1

/-- A mark is cleared and the key appended. -/
def EscapesMark (st st' : EngineState) (c : Char) : Prop :=
  ∃ cleared i, st'.states = cleared ++ [st.keyState c] ∧ ClearsMark st.states cleared i

/-- A handler takes a key: it appends nothing, or a state with a modifier, or it escapes a mark. -/
def TakesMark (st st' : EngineState) (c : Char) : Prop :=
  st'.states.length ≤ st.states.length ∨
    (∃ states s, st'.states = states ++ [s] ∧ s.mod ≠ .none) ∨ st.EscapesMark st' c

omit [WideLocale] in
/-- A mark does not change the length. -/
lemma length_setMod {states : List CharState} {mod} : (setMod states i mod).length = states.length :=
  List.length_modify _ _ _

/-- An edit in place appends nothing. -/
lemma TakesMark.edit {states} (h : SameBases st.states states) :
    st.TakesMark { st with states := states } c :=
  .inl h.length_eq.le

omit [WideLocale] in
/-- A letter whose modifier shows. -/
lemma shownMod_of_modified {s : CharState} {v} (h : modifiedVowel s.base s.mod = some v) :
    s.shownMod = s.mod := by
  unfold CharState.shownMod
  rw [h]
  exact if_pos (.inr rfl)

omit [WideLocale] in
/-- A mark stands in the buffer. -/
lemma lt_of_mod {states : List CharState} {mod : Modifier} (h : (charAt states i).mod = mod)
    (hmod : mod ≠ .none) : i < states.length := by
  by_contra hout
  have hdefault : charAt states i = {} := by simp [charAt, Nat.le_of_not_lt hout]
  rw [hdefault] at h
  exact hmod h.symm

omit [WideLocale] in
/-- Clearing one modifier that is not a horn. -/
lemma clearsMark_setMod {states : List CharState} {v : Char}
    (hletter : (charAt states i).base ∈ markLetters)
    (hshown : modifiedVowel (charAt states i).base (charAt states i).mod = some v)
    (hnone : (charAt states i).mod ≠ .none) (hhorn : (charAt states i).mod ≠ .horn) :
    ClearsMark states (setMod states i .none) i := by
  have hlt := lt_of_mod rfl hnone
  have hmod := shownMod_of_modified hshown
  refine ⟨hlt, .setMod, hletter, ?_, ?_, ?_⟩
  · rwa [hmod]
  · rw [mod_setMod hlt, if_pos rfl]
  · intro h
    exact absurd (hmod.symm.trans h) hhorn

/-- A stroke. -/
lemma handleStrokeD_takes (h : handleStrokeD cfg st c = some st') : st.TakesMark st' c := by
  unfold handleStrokeD at h
  split at h
  · cases h
  · split at h
    · cases h
    · next d hd =>
      have hbase : (charAt st.states d).base = 'd' := by
        unfold findStrokeDTarget at hd
        split at hd
        · cases hd
        · next k hk =>
          obtain ⟨-, hisD⟩ := lastIdx?_eq_some hk
          dsimp only at hd
          split at hd
          · split at hd
            · cases hd
            · cases hd
              exact eq_of_beq hisD
          · cases hd
            exact eq_of_beq hisD
      split at h
      · cases h
        exact .edit .setMod
      · next hstroke =>
        split at h
        · cases h
        · split at h
          · cases h
          · cases h
            have hlt := lt_of_mod hstroke (by decide)
            have hshown : (charAt st.states d).shownMod = .stroke := by
              unfold CharState.shownMod
              rw [if_pos (.inl ⟨beq_iff_eq.2 hbase, hstroke⟩), hstroke]
            refine .inr (.inr ⟨_, d, rfl, hlt, .setMod, ?_, ?_, ?_, ?_⟩)
            · rw [hbase]
              decide
            · rw [hshown]
              decide
            · rw [mod_setMod hlt, if_pos rfl]
            · intro hhorn
              rw [hshown] at hhorn
              cases hhorn
      · cases h

/-- An inserted letter taken back. -/
lemma undoInsert?_takes {base mod kind} (h : undoInsert? st c base mod kind = some st') :
    st.TakesMark st' c := by
  unfold undoInsert? at h
  split at h
  · next last prev hlast hprev =>
    split at h
    · cases h
      refine .inl ?_
      have hlength := (@eraseConsumedRaw_same
        { st with states := st.states.dropLast } last.rawIdx).1.length_eq
      have hpos : 0 < st.states.length := by
        cases hstates : st.states with
        | nil =>
          rw [hstates] at hlast
          cases hlast
        | cons s rest => exact Nat.succ_pos _
      show (_ ++ [_]).length ≤ _
      rw [List.length_append, hlength, List.length_dropLast, List.length_singleton]
      omega
    · cases h
  · cases h

/-- A bracket. -/
lemma handleHornInsert_takes {action} (h : handleHornInsert cfg st action c = some st') :
    st.TakesMark st' c := by
  simp only [handleHornInsert] at h
  split at h
  · cases h
  · split at h
    · next hu =>
      cases h
      exact undoInsert?_takes hu
    · cases h
      refine .inr (.inl ⟨_, _, rfl, ?_⟩)
      exact Modifier.noConfusion

omit [WideLocale] in
/-- A vowel that the doubled key has given a circumflex. -/
lemma circumflex_shown {base : Char} (h : base = 'a' ∨ base = 'e' ∨ base = 'o') :
    base ∈ markLetters ∧ ∃ v, modifiedVowel base .circumflex = some v := by
  rcases h with rfl | rfl | rfl
  · exact ⟨by decide, _, rfl⟩
  · exact ⟨by decide, _, rfl⟩
  · exact ⟨by decide, _, rfl⟩

omit [WideLocale] in
/-- The escape of a circumflex. -/
lemma clearsMark_circumflex {states : List CharState} {base : Char}
    (hbase : base = 'a' ∨ base = 'e' ∨ base = 'o') (hi : (charAt states i).base = base)
    (hmod : (charAt states i).mod = .circumflex) : ClearsMark states (setMod states i .none) i := by
  obtain ⟨hletter, v, hv⟩ := circumflex_shown hbase
  rw [← hi] at hletter hv
  rw [← hmod] at hv
  refine clearsMark_setMod hletter hv ?_ ?_
  · rw [hmod]
    decide
  · rw [hmod]
    decide

/-- A vowel typed twice. -/
lemma adjacentCircumflex_takes {targetBase}
    (hbase : targetBase = 'a' ∨ targetBase = 'e' ∨ targetBase = 'o')
    (hlast : (charAt st.states (st.states.length - 1)).base = targetBase)
    (h : adjacentCircumflex cfg st targetBase c = some st') : st.TakesMark st' c := by
  simp only [adjacentCircumflex] at h
  split at h
  · cases h
    exact .inl le_rfl
  · split at h
    · next hmod =>
      cases h
      refine .inr (.inr ⟨_, _, ?_, clearsMark_circumflex hbase hlast hmod⟩)
      split <;> rfl
    · split at h
      · split at h
        · cases h
        · cases h
          exact .edit (SameBases.setMod.trans .relocateToneToTarget)
      · split at h
        · cases h
        · cases h
          exact .edit .setMod

/-- A circumflex further back. -/
lemma freeCircumflex_takes {targetBase}
    (hbase : targetBase = 'a' ∨ targetBase = 'e' ∨ targetBase = 'o')
    (h : (freeCircumflex cfg st targetBase c).2 = true) :
    st.TakesMark (freeCircumflex cfg st targetBase c).1 c := by
  have hedit : ∀ {i}, st.TakesMark
      { st with states := relocateToneToTarget cfg (setMod st.states i .circumflex) } c :=
    .edit (SameBases.setMod.trans .relocateToneToTarget)
  revert h
  simp only [freeCircumflex]
  split
  · intro h
    cases h
  · next i hi =>
    have hi' := eq_of_beq (lastIdx?_eq_some hi).2
    split
    · next hmod =>
      intro
      exact .inr (.inr ⟨_, i, rfl, clearsMark_circumflex hbase hi' hmod⟩)
    · split
      · intro h
        cases h
      · intro
        exact hedit
    · split
      · intro
        exact .edit (SameBases.setMod.trans (SameBases.undoHornU.trans .relocateToneToTarget))
      · intro h
        cases h
    · split
      · split
        · split
          · intro h
            cases h
          · intro
            exact hedit
        · split
          · intro h
            cases h
          · intro
            exact hedit
      · split
        · split
          · intro
            exact hedit
          · intro h
            cases h
        · split
          · intro h
            cases h
          · intro
            exact hedit
    · intro h
      cases h

/-- The circumflex of Telex. -/
lemma handleAdjacentCircumflex_takes {action} (hm : cfg.inputMethod ≠ .userDefined)
    (hbase : towlower c = 'a' ∨ towlower c = 'e' ∨ towlower c = 'o')
    (h : (handleAdjacentCircumflex cfg st action c).2 = true) :
    st.TakesMark (handleAdjacentCircumflex cfg st action c).1 c := by
  revert h
  simp only [handleAdjacentCircumflex, if_neg hm]
  split
  · intro h
    cases h
  · split
    · next hlast =>
      split
      · next hadjacent =>
        intro
        exact adjacentCircumflex_takes hbase hlast.1 hadjacent
      · intro h
        cases h
    · split
      · intro h
        cases h
      · split
        · exact freeCircumflex_takes hbase
        · intro h
          cases h

omit [WideLocale] in
/-- The last horned vowel of the scan. -/
lemma hornScan_hornedIdx {states : List CharState} {h : Nat}
    (hh : (hornScan states).hornedIdx = some h) :
    h < states.length ∧ (charAt states h).mod = .horn ∧
      ((charAt states h).base = 'u' ∨ (charAt states h).base = 'o') ∧
      ∀ k, h < k → ¬((charAt states k).base = 'o' ∧ (charAt states k).mod = .horn) := by
  obtain ⟨hlt, hp⟩ := lastIdx?_eq_some hh
  have hfound : (charAt states h).mod = .horn ∧
      ((charAt states h).base = 'u' ∨ (charAt states h).base = 'o') := by
    simp only [Bool.or_eq_true, Bool.and_eq_true, List.contains_iff_mem, List.mem_singleton,
      beq_iff_eq] at hp
    rcases hp with hp | hp
    · exact ⟨hp.2, .inl hp.1.2⟩
    · exact ⟨hp.2, .inr hp.1.2⟩
  refine ⟨hlt, hfound.1, hfound.2, ?_⟩
  rintro k hk ⟨hbase, hmod⟩
  have hlast := lastIdx?_last hh hk (lt_of_mod hmod (by decide))
  simp [isQUClusterU, hbase, hmod] at hlast

/-- The escape of a horn: `undoHornU` clears the `u` of an `ươ` with its `o`. -/
lemma hornEscape_takes (h : hornEscape st c (hornScan st.states) = some st') : st.TakesMark st' c := by
  simp only [hornEscape] at h
  split at h
  · next k hk =>
    obtain ⟨hlt, hmod, hbase, hlast⟩ := hornScan_hornedIdx hk
    split at h
    · next hsynthetic =>
      cases h
      refine .inl ?_
      show (st.states.eraseIdx k ++ [_]).length ≤ _
      rw [List.length_append, List.length_eraseIdx_of_lt hlt, List.length_singleton]
      omega
    · cases h
      have hletter : (charAt st.states k).base ∈ markLetters ∧
          ∃ v, modifiedVowel (charAt st.states k).base (charAt st.states k).mod = some v := by
        rw [hmod]
        rcases hbase with hbase | hbase
        · rw [hbase]
          exact ⟨by decide, _, rfl⟩
        · rw [hbase]
          exact ⟨by decide, _, rfl⟩
      obtain ⟨hletter, v, hv⟩ := hletter
      have hundone : SameBases st.states (undoHornU st.states k) := .undoHornU
      have hlt' : k < (undoHornU st.states k).length := by rwa [hundone.length_eq]
      refine .inr (.inr ⟨_, k, rfl, hlt, hundone.trans .setMod, hletter, ?_, ?_, ?_⟩)
      · rw [shownMod_of_modified hv, hmod]
        decide
      · rw [mod_setMod hlt', if_pos rfl]
      · rintro - j ⟨-, hu, ho, hmods⟩
        rw [(hundone.trans SameBases.setMod).charAt] at hu ho
        rw [mod_setMod hlt', mod_setMod hlt'] at hmods
        refine ⟨?_, ?_⟩
        · -- the horn of the `o` behind it would be the last one
          rintro rfl
          rw [if_pos rfl, if_neg (by omega)] at hmods
          have hnext : (charAt (undoHornU st.states k) (k + 1)).mod = .horn := by
            rcases hmods with hmods | hmods
            · exact hmods.2
            · cases hmods.1
          have hsame : (charAt (undoHornU st.states k) (k + 1)).mod =
              (charAt st.states (k + 1)).mod := by
            unfold undoHornU
            dsimp only
            split
            · rw [mod_setMod (by omega), if_neg (by omega)]
            · rfl
          exact hlast (k + 1) (by omega) ⟨ho, hsame.symm.trans hnext⟩
        · -- the horn of the `u` before it is cleared
          rintro rfl
          rw [if_neg (by omega), if_pos rfl] at hmods
          have hhorn : (charAt (undoHornU st.states (j + 1)) j).mod = .horn := by
            rcases hmods with hmods | hmods
            · cases hmods.2
            · exact hmods.1
          unfold undoHornU at hhorn
          dsimp only at hhorn
          rw [Nat.add_sub_cancel] at hhorn
          split at hhorn
          · rw [mod_setMod (by omega), if_pos rfl] at hhorn
            cases hhorn
          · next hkept =>
            refine hkept ⟨Nat.succ_pos j, ho, ?_, hu, ?_⟩
            · rw [CharState.hasModifier, hmod]
              rfl
            · rw [CharState.hasModifier, hhorn]
              rfl
  · split at h
    · next b hb =>
      cases h
      obtain ⟨-, hp⟩ := lastIdx?_eq_some hb
      simp only [Bool.and_eq_true, List.contains_iff_mem, List.mem_singleton, beq_iff_eq] at hp
      have hmod : (charAt st.states b).mod = .breve := hp.2
      have hv : modifiedVowel (charAt st.states b).base (charAt st.states b).mod = some 'ă' := by
        rw [hp.1.2, hmod]
        rfl
      refine .inr (.inr ⟨_, b, rfl, clearsMark_setMod ?_ hv ?_ ?_⟩)
      · rw [hp.1.2]
        decide
      · rw [hmod]
        decide
      · rw [hmod]
        decide
    · cases h

/-- What C++ `HandleHornW` does with a key it takes. -/
def TakesHorn (st : EngineState) (c : Char) : HornOutcome → Prop
  | .horned states => SameBases st.states states
  | .done st' => st.TakesMark st' c

/-- The `uo` cycle: where it clears the horns, no vowel of the pair keeps one. -/
lemma hornPair_takes {u outcome} (hu : vowelPair? st.states 'u' 'o' = some u)
    (h : hornPair st c u = some outcome) : st.TakesHorn c outcome := by
  obtain ⟨hrange, hp⟩ := lastIdx?_eq_some hu
  simp only [Bool.and_eq_true, beq_iff_eq] at hp
  have hlt : u + 1 < st.states.length := by omega
  simp only [hornPair] at h
  split at h
  · split at h
    · cases h
      exact SameBases.setMod
    · cases h
      have hfirst : SameBases st.states (setMod st.states u .horn) := .setMod
      exact hfirst.trans .setMod
  · split at h
    · cases h
      exact SameBases.setMod
    · split at h
      · cases h
        exact SameBases.setMod
      · split at h
        · next hmods =>
          cases h
          have hfirst : SameBases st.states (setMod st.states u .none) := .setMod
          have hu' : modifiedVowel (charAt st.states u).base (charAt st.states u).mod = some 'ư' := by
            rw [hp.1.2, hmods.1]
            rfl
          refine .inr (.inr ⟨_, u, rfl, by omega, hfirst.trans .setMod, ?_, ?_, ?_, ?_⟩)
          · rw [hp.1.2]
            decide
          · rw [shownMod_of_modified hu', hmods.1]
            decide
          · rw [mod_setMod (by rw [length_setMod]; omega), if_neg (by omega), mod_setMod (by omega),
              if_pos rfl]
          · rintro - k ⟨-, hbase, hbase', hpair⟩
            refine ⟨?_, ?_⟩
            · rintro rfl
              rw [mod_setMod (by rw [length_setMod]; omega), if_neg (by omega), mod_setMod (by omega),
                if_pos rfl, mod_setMod (by rw [length_setMod]; omega), if_pos rfl] at hpair
              rcases hpair with hpair | hpair
              · cases hpair.2
              · cases hpair.1
            · rintro rfl
              rw [(hfirst.trans SameBases.setMod).charAt, hp.1.2] at hbase'
              exact absurd hbase' (by decide)
        · split at h
          · next hmods =>
            cases h
            have ho : modifiedVowel (charAt st.states (u + 1)).base (charAt st.states (u + 1)).mod =
                some 'ơ' := by
              rw [hp.2, hmods.2]
              rfl
            refine .inr (.inr ⟨_, u + 1, rfl, hlt, .setMod, ?_, ?_, ?_, ?_⟩)
            · rw [hp.2]
              decide
            · rw [shownMod_of_modified ho, hmods.2]
              decide
            · rw [mod_setMod hlt, if_pos rfl]
            · rintro - k ⟨-, hbase, hbase', hpair⟩
              refine ⟨?_, ?_⟩
              · rintro rfl
                rw [SameBases.setMod.charAt, hp.2] at hbase
                exact absurd hbase (by decide)
              · intro hk
                obtain rfl : u = k := Nat.succ_inj.1 hk
                rw [mod_setMod hlt, if_neg (by omega), mod_setMod hlt, if_pos rfl, hmods.1] at hpair
                rcases hpair with hpair | hpair
                · cases hpair.2
                · cases hpair.1
          · cases h

/-- The horn of a single vowel. -/
lemma hornStandalone_takes {scan outcome} (h : hornStandalone cfg st c scan = some outcome) :
    st.TakesHorn c outcome := by
  simp only [hornStandalone] at h
  split at h
  · split at h
    · cases h
    · cases h
      exact SameBases.setMod.trans .clearCircumflex
  · split at h
    · split at h
      · cases h
      · cases h
        exact SameBases.setMod
    · split at h
      · split at h
        · cases h
        · cases h
          exact .edit .setMod
      · obtain ⟨st', hst', rfl⟩ := Option.map_eq_some_iff.1 h
        simp only [hornSynthetic] at hst'
        split at hst'
        · cases hst'
        · split at hst'
          · cases hst'
          · cases hst'
            refine .inr (.inl ⟨_, _, rfl, ?_⟩)
            exact Modifier.noConfusion

/-- Whatever a `w` does. -/
lemma hornOutcome_takes {outcome} (h : hornOutcome cfg st c = some outcome) :
    st.TakesHorn c outcome := by
  simp only [hornOutcome] at h
  split at h
  · cases h
  · split at h
    · cases h
      exact SameBases.setMod.trans .clearCircumflex
    · split at h
      · next outcome' hp =>
        cases h
        obtain ⟨u, hpair, hu⟩ := Option.bind_eq_some_iff.1 hp
        exact hornPair_takes hpair hu
      · split at h
        · cases h
          exact .edit .setMod
        · split at h
          · next hescape =>
            cases h
            exact hornEscape_takes hescape
          · exact hornStandalone_takes h

/-- A `w`. -/
lemma handleHornW_takes (h : handleHornW cfg st c = some st') : st.TakesMark st' c := by
  unfold handleHornW at h
  split at h
  · next hhorned =>
    cases h
    have hsame := hornOutcome_takes hhorned
    exact .edit (SameBases.trans hsame .relocateToneToHornVowel)
  · next hdone =>
    cases h
    exact hornOutcome_takes hdone
  · cases h

omit [WideLocale] in
/-- The keys of full Telex. -/
lemma classify_telex {lower} (hm : cfg.inputMethod = .telex) :
    classify cfg st c lower = classifyTelex lower := by
  have htelex : cfg.isTelexMode = true := by rw [TypingConfig.isTelexMode, hm]; rfl
  have hvni : cfg.isVniMode = false := by rw [TypingConfig.isVniMode, hm]; rfl
  have hdigits : isVniDigitSequence cfg st c = false := by rw [isVniDigitSequence, hvni]; rfl
  have hcustom : cfg.inputMethod ≠ .userDefined := by rw [hm]; decide
  unfold classify
  rw [hdigits, if_neg Bool.false_ne_true, if_neg hcustom]
  rw [if_neg (by simp), classifyKey, htelex, hvni]
  by_cases hnone : classifyTelex lower = .none
  · rw [hnone, if_neg (by simp), if_neg Bool.false_ne_true]
  · rw [if_pos ⟨rfl, hnone⟩]

omit [WideLocale] in
/-- A doubled vowel is its own key. -/
lemma classifyTelex_circumflex {lower}
    (h : classifyTelex lower = .circumflexA ∨ classifyTelex lower = .circumflexE ∨
      classifyTelex lower = .circumflexO) : lower = 'a' ∨ lower = 'e' ∨ lower = 'o' := by
  unfold classifyTelex at h
  split at h <;> simp_all

/-- The result of a handler that may decline the key. -/
lemma takes_of_option {result : Option EngineState}
    (hresult : ∀ st', result = some st' → st.TakesMark st' c) :
    (match result with
      | some st' => (st', true)
      | none => (st, false)).2 = true →
    st.TakesMark (match result with
      | some st' => (st', true)
      | none => (st, false)).1 c := by
  cases result with
  | none =>
    intro h
    cases h
  | some st' =>
    intro
    exact hresult st' rfl

/-- Every key with a mark. -/
lemma processModifier_takes (hm : cfg.inputMethod = .telex)
    (ha : (classifyTelex (towlower c)).isTelexModifier)
    (h : (processModifier cfg st (classifyTelex (towlower c)) c).2 = true) :
    st.TakesMark (processModifier cfg st (classifyTelex (towlower c)) c).1 c := by
  have hcustom : cfg.inputMethod ≠ .userDefined := by rw [hm]; decide
  have hvowel : classifyTelex (towlower c) = .circumflexA ∨ classifyTelex (towlower c) = .circumflexE ∨
      classifyTelex (towlower c) = .circumflexO → _ := classifyTelex_circumflex
  generalize classifyTelex (towlower c) = action at ha h hvowel ⊢
  cases action
  case circumflexA => exact handleAdjacentCircumflex_takes hcustom (hvowel (.inl rfl)) h
  case circumflexE => exact handleAdjacentCircumflex_takes hcustom (hvowel (.inr (.inl rfl))) h
  case circumflexO => exact handleAdjacentCircumflex_takes hcustom (hvowel (.inr (.inr rfl))) h
  case hornW => exact takes_of_option (fun _ => handleHornW_takes) h
  case hornInsertO => exact takes_of_option (fun _ => handleHornInsert_takes) h
  case hornInsertU => exact takes_of_option (fun _ => handleHornInsert_takes) h
  case strokeD => exact takes_of_option (fun _ => handleStrokeD_takes) h
  all_goals cases ha

end EngineState

end NextKey
