import NextKey.Engine.Letters
import NextKey.Engine.Shown

/-!
# Typing without case

`caseless` forgets the case of a state, of the recorded keys and of an engine. The edits of a buffer
commute with it, and so do the handlers when the key is lower-cased along: an engine that has forgotten
the case of all it holds does what the engine does, and forgets it afterwards. Three places look at the
case: the exclusion list is compared with composed letters, the doubled vowel asks it with the key as
it was typed, and the count of a repeated tone key compares the keys. Their answers are hypotheses of
the lemmas here.
-/

namespace NextKey

/-- A state without its case. -/
def CharState.caseless (s : CharState) : CharState := { s with isUpper := false }

instance : KeepsLetters CharState.caseless where
  base _ := rfl
  mod _ := rfl
  tone _ := rfl

/-- A letter stays synthetic. -/
@[simp] lemma CharState.caseless_synthetic (s : CharState) : s.caseless.synthetic = s.synthetic := rfl

/-- The index of the key stays. -/
@[simp] lemma CharState.caseless_rawIdx (s : CharState) : s.caseless.rawIdx = s.rawIdx := rfl

/-- The index of the tone key stays. -/
@[simp] lemma CharState.caseless_toneRawIdx (s : CharState) :
    s.caseless.toneRawIdx = s.toneRawIdx := rfl

variable {states : List CharState} {i j : Nat}

/-- The letter at an index, in lower case. -/
@[simp] lemma charAt_caseless : charAt (states.map .caseless) i = (charAt states i).caseless := by
  simp only [charAt, List.getD_eq_getElem?_getD, List.getElem?_map]
  cases states[i]? <;> rfl

/-- A change of a letter that does not look at its case. -/
lemma modify_caseless {f : CharState → CharState} (hf : ∀ s, f s.caseless = (f s).caseless) :
    (states.map .caseless).modify i f = (states.modify i f).map .caseless := by
  apply List.ext_getElem?
  intro k
  simp only [List.getElem?_modify, List.getElem?_map]
  cases states[k]? with
  | none => rfl
  | some s =>
    by_cases h : i = k
    · simp [h, hf]
    · simp [h]

/-- Setting a mark does not look at the case. -/
@[simp] lemma setMod_caseless {mod} :
    setMod (states.map .caseless) i mod = (setMod states i mod).map .caseless :=
  modify_caseless fun _ => rfl

/-- Nor does taking the horn off a `u`. -/
@[simp] lemma undoHornU_caseless :
    undoHornU (states.map .caseless) i = (undoHornU states i).map .caseless := by
  simp only [undoHornU, charAt_map_base, charAt_map_hasModifier, setMod_caseless]
  split <;> rfl

/-- Nor does clearing a circumflex. -/
@[simp] lemma clearCircumflex_caseless {idx} :
    clearCircumflex (states.map .caseless) idx = (clearCircumflex states idx).map .caseless := by
  unfold clearCircumflex
  split
  · simp only [charAt_map_mod, setMod_caseless]
    split <;> rfl
  · rfl

/-- Nor does moving the tone with its key. -/
@[simp] lemma moveTone_caseless :
    moveTone (states.map .caseless) i j = (moveTone states i j).map .caseless := by
  simp only [moveTone, charAt_caseless]
  refine Eq.trans ?_ (modify_caseless fun _ => rfl)
  exact congrArg (List.modify · i _) (modify_caseless fun _ => rfl)

/-- Nor does moving the tone alone. -/
@[simp] lemma moveToneOnly_caseless :
    moveToneOnly (states.map .caseless) i j = (moveToneOnly states i j).map .caseless := by
  simp only [moveToneOnly, charAt_caseless]
  refine Eq.trans ?_ (modify_caseless fun _ => rfl)
  exact congrArg (List.modify · i _) (modify_caseless fun _ => rfl)

/-- Nor does the relocation to the vowel with the horn. -/
@[simp] lemma relocateToneToHornVowel_caseless :
    relocateToneToHornVowel (states.map .caseless) =
      (relocateToneToHornVowel states).map .caseless := by
  simp only [relocateToneToHornVowel, List.length_map, charAt_map_isVowel, charAt_map_isHorn,
    charAt_map_hasTone, charAt_map_mod, hasConsonantBetween_map, moveToneOnly_caseless]
  split
  · split <;> rfl
  · rfl

/-- Nor does the shift of the indices when a key is erased. -/
@[simp] lemma map_eraseRaw_caseless {idx} : (states.map .caseless).map (CharState.eraseRaw idx) =
    (states.map (CharState.eraseRaw idx)).map .caseless := by
  simp only [List.map_map]
  rfl

section Locale
variable [WideLocale] {cfg : TypingConfig}

/-- Nor does the relocation to the target. -/
@[simp] lemma relocateToneToTarget_caseless : relocateToneToTarget cfg (states.map .caseless) =
    (relocateToneToTarget cfg states).map .caseless := by
  simp only [relocateToneToTarget, findTonedVowelIndex_map, findToneTarget_map, hasConsonantBetween_map,
    isToneRelocBlockedByP4_map, moveTone_caseless]
  split
  · rfl
  · split
    · rfl
    · split_ifs <;> rfl

/-- Nor does the completion of `ươ` at an index. -/
@[simp] lemma autoUOAt_caseless :
    autoUOAt cfg (states.map .caseless) i = (autoUOAt cfg states i).map .caseless := by
  simp only [autoUOAt, isQUGlide_map, charAt_map_base, charAt_map_mod, setMod_caseless]
  split
  · rfl
  · have hif : ∀ {p : Prop} [Decidable p] {a b : List CharState},
        (if p then a.map CharState.caseless else b.map CharState.caseless) =
          (if p then a else b).map CharState.caseless := by
      intro p _ a b
      split <;> rfl
    simp only [hif, charAt_map_base, charAt_map_mod, setMod_caseless, relocateToneToTarget_caseless]

/-- Nor does the completion of `ươ`. -/
@[simp] lemma applyAutoUO_caseless :
    applyAutoUO cfg (states.map .caseless) = (applyAutoUO cfg states).map .caseless := by
  unfold applyAutoUO
  rw [List.length_map]
  generalize (List.range (states.length - 2)).drop (states.length - 4) = positions
  induction positions generalizing states with
  | nil => rfl
  | cons i positions ih => rw [List.foldl_cons, List.foldl_cons, autoUOAt_caseless, ih]

omit [WideLocale] in
/-- Nor does the speculation on a mark. -/
@[simp] lemma speculateMod_caseless {mod clear} : speculateMod (states.map .caseless) i mod clear =
    (speculateMod states i mod clear).map .caseless := by
  simp only [speculateMod, setMod_caseless, charAt_map_mod]
  split
  · split <;> rfl
  · rfl

/-- A speculation is accepted in lower case as it is. -/
@[simp] lemma acceptSpeculation_caseless :
    acceptSpeculation cfg (states.map .caseless) = acceptSpeculation cfg states := by
  simp [acceptSpeculation]

/-- The syllable that a mark would make is as valid in lower case. -/
@[simp] lemma wouldBeValidSyllable_caseless {mod clear relocates} :
    wouldBeValidSyllable cfg (states.map .caseless) i mod clear relocates =
      wouldBeValidSyllable cfg states i mod clear relocates := by
  simp only [wouldBeValidSyllable, List.length_map, setMod_caseless, charAt_map_mod,
    speculateMod_caseless, acceptSpeculation_caseless]
  split
  · rfl
  · split
    · rfl
    · split
      · split
        · rfl
        · cases clear with
          | none => simp only [relocateToneToTarget_caseless, acceptSpeculation_caseless]
          | some k =>
            dsimp only
            split <;> simp only [relocateToneToTarget_caseless, acceptSpeculation_caseless]
      · rfl

/-- The exclusions take a modifier key alike in the buffer and in the same buffer in lower case. -/
def ModifierAlike (cfg : TypingConfig) (states : List CharState) (lower : Char) : Prop :=
  wouldModifierKeyMatchExclusion cfg (states.map .caseless) lower =
    wouldModifierKeyMatchExclusion cfg states lower

instance ModifierAlike.decidable {lower : Char} : Decidable (ModifierAlike cfg states lower) :=
  inferInstanceAs (Decidable (_ = _))

/-- A mark is rejected in lower case as it is, for a key that is read alike. -/
lemma shouldRejectModifier_caseless {mod : Modifier} {key : Char} (h : ModifierAlike cfg states key) :
    shouldRejectModifier cfg (states.map .caseless) i mod key =
      shouldRejectModifier cfg states i mod key := by
  rw [shouldRejectModifier, shouldRejectModifier, wouldBeValidSyllable_caseless, h]

omit [WideLocale] in
/-- Beyond ASCII a character is its own lower case. -/
lemma toLower_of_not_ascii {c : Char} (h : ¬c.toNat < 128) : c.toLower = c := by
  unfold Char.toLower
  split
  · next hupper =>
    have hle : c.toNat ≤ 'Z'.toNat := hupper.2
    exact absurd (Nat.lt_of_le_of_lt hle (by decide)) h
  · rfl

/-- The lower case of a key does not depend on its case. -/
@[simp] lemma towlower_toLower {c : Char} : towlower c.toLower = towlower c := by
  by_cases h : c.toNat < 128
  · by_cases hpos : 0 < c.toNat
    · have hc : AsciiKey c := ⟨hpos, h⟩
      rw [WideLocale.towlower_ascii _ hc.toLower.2, WideLocale.towlower_ascii c h]
      exact AsciiKey.forall (P := fun c => c.toLower.toLower = c.toLower) (by decide +kernel) hc
    · have hnul : c = '\x00' := by
        apply Char.toNat_inj.1
        show c.toNat = 0
        omega
      rw [hnul]
      rfl
  · rw [toLower_of_not_ascii h]

/-- The protection without the case of its tone key. -/
def EnglishProtectionState.caseless (prot : EnglishProtectionState) : EnglishProtectionState :=
  { prot with lastToneKey := prot.lastToneKey.map Char.toLower }

variable {prot : EnglishProtectionState}

omit [WideLocale] in
/-- The bias stays. -/
@[simp] lemma EnglishProtectionState.caseless_bias : prot.caseless.bias = prot.bias := rfl

/-- The bias is checked alike. -/
lemma checkEnglishBias_caseless :
    checkEnglishBias states prot.caseless = (checkEnglishBias states prot).caseless := by
  unfold checkEnglishBias
  by_cases hviet : prot.bias = .vietnamese
  · rw [if_pos hviet, if_pos (show prot.caseless.bias = .vietnamese from hviet)]
  · rw [if_neg hviet, if_neg (show ¬prot.caseless.bias = .vietnamese from hviet)]
    split
    · rfl
    · by_cases hsoft : prot.bias = .unknown ∧ checkSoftEnglishBias states
      · rw [if_pos hsoft, if_pos (show prot.caseless.bias = .unknown ∧ _ from hsoft)]
        rfl
      · rw [if_neg hsoft, if_neg (show ¬(prot.caseless.bias = .unknown ∧ _) from hsoft)]

omit [WideLocale] in
/-- The bias of a foreign initial is checked alike. -/
lemma checkZwjfInitialBias_caseless :
    checkZwjfInitialBias states cfg prot.caseless =
      (checkZwjfInitialBias states cfg prot).caseless := by
  cases states with
  | nil => rfl
  | cons s0 rest =>
    unfold checkZwjfInitialBias
    dsimp only
    split
    · rfl
    · by_cases hviet : prot.bias = .vietnamese
      · rw [if_pos hviet, if_pos (show prot.caseless.bias = .vietnamese from hviet)]
      · rw [if_neg hviet, if_neg (show ¬prot.caseless.bias = .vietnamese from hviet)]
        split
        · rfl
        · split <;> rfl

/-- A bias computed anew knows no case. -/
lemma recalcEnglishBias_caseless :
    recalcEnglishBias states = (recalcEnglishBias states).caseless := by
  unfold recalcEnglishBias
  split
  · exact @checkEnglishBias_caseless states _ {}
  · rfl

/-- The gate of a tone key counts how often the same key came, in its case. -/
def SameToneKey (prot : EnglishProtectionState) (c : Char) : Prop :=
  ∀ k, prot.lastToneKey = some k → k.toLower = c.toLower → k = c

instance sameToneKey_decidable {c : Char} : Decidable (SameToneKey prot c) :=
  match h : prot.lastToneKey with
  | none => .isTrue (by simp [SameToneKey, h])
  | some k => decidable_of_iff (k.toLower = c.toLower → k = c) (by simp [SameToneKey, h])

omit [WideLocale] in
/-- A tone key is insisted on alike, when its case does not tell it from the last one. -/
lemma updateToneInsistence_caseless {c : Char} (h : SameToneKey prot c) :
    updateToneInsistence c.toLower prot.caseless =
      Prod.map .caseless id (updateToneInsistence c prot) := by
  have hsame : prot.caseless.lastToneKey = some c.toLower ↔ prot.lastToneKey = some c := by
    unfold EnglishProtectionState.caseless
    cases hkey : prot.lastToneKey with
    | none => simp
    | some k =>
      simp only [Option.map_some, Option.some.injEq]
      exact ⟨h k hkey, congrArg Char.toLower⟩
  simp only [updateToneInsistence, hsame]
  split <;> rfl

/-- An English start of the keys is one in lower case. -/
lemma isHardEnglishRawStart_caseless {raw : List Char} :
    isHardEnglishRawStart (raw.map Char.toLower) = isHardEnglishRawStart raw := by
  cases raw with
  | nil => rfl
  | cons r0 raw =>
    cases raw with
    | nil => rfl
    | cons r1 raw =>
      simp only [List.map_cons, isHardEnglishRawStart, isHardEnglishStart, towlower_toLower]

/-- The rules for the first keys match in lower case. -/
lemma matchesRawPrefix_caseless {raw : List Char} {rules} :
    matchesRawPrefix (raw.map Char.toLower) rules = matchesRawPrefix raw rules := by
  have hraw : (raw.map Char.toLower).map towlower = raw.map towlower := by
    rw [List.map_map]
    exact List.map_congr_left fun _ _ => towlower_toLower
  rw [matchesRawPrefix, matchesRawPrefix, hraw]

end Locale

namespace EngineState

variable {st st' : EngineState} {c : Char}

/-- An engine that has forgotten the case of its letters and of its keys. -/
def caseless (st : EngineState) : EngineState :=
  { st with
    states := st.states.map .caseless
    rawInput := st.rawInput.map Char.toLower
    escRawHistory := st.escRawHistory.map Char.toLower
    quickStartKey := st.quickStartKey.map Char.toLower
    engProt := st.engProt.caseless }

/-- The buffer in lower case. -/
@[simp] lemma caseless_states : st.caseless.states = st.states.map .caseless := rfl

/-- The keys in lower case. -/
@[simp] lemma caseless_rawInput : st.caseless.rawInput = st.rawInput.map Char.toLower := rfl

/-- What was escaped stays. -/
@[simp] lemma caseless_escape : st.caseless.escape = st.escape := rfl

/-- The English protection in lower case. -/
@[simp] lemma caseless_engProt : st.caseless.engProt = st.engProt.caseless := rfl

/-- The spell check stays as it is. -/
@[simp] lemma caseless_spellCheckDisabled :
    st.caseless.spellCheckDisabled = st.spellCheckDisabled := rfl

/-- An edit of an engine without case. -/
@[simp] lemma edit_caseless {states escape} :
    (⟨states.map .caseless, st.caseless.rawInput, st.caseless.escRawHistory,
      st.caseless.spellCheckDisabled, st.caseless.qc, escape, st.caseless.quickStartKey,
      st.caseless.engProt⟩ : EngineState) =
    ({ st with states := states, escape := escape } : EngineState).caseless := rfl

/-- The index of the last key stays. -/
@[simp] lemma lastRawIdx_caseless : st.caseless.lastRawIdx = st.lastRawIdx := by
  simp only [lastRawIdx, caseless_rawInput, List.length_map]

/-- A key is erased alike. -/
@[simp] lemma eraseConsumedRaw_caseless {idx} :
    st.caseless.eraseConsumedRaw idx = (st.eraseConsumedRaw idx).caseless := by
  simp only [eraseConsumedRaw, caseless_rawInput, List.length_map]
  split
  · rfl
  · simp only [caseless, List.eraseIdx_map, map_eraseRaw_caseless]

/-- A letter is appended in lower case. -/
lemma append_caseless {s : CharState} :
    ({ st.caseless with states := st.caseless.states ++ [s.caseless] } : EngineState) =
      ({ st with states := st.states ++ [s] } : EngineState).caseless := by
  simp only [caseless, List.map_append, List.map_cons, List.map_nil]

section Locale
variable [WideLocale] {cfg : TypingConfig}

/-- A key in lower case is not in upper case. -/
lemma iswupper_toLower (hc : AsciiKey c) : iswupper c.toLower = false := by
  rw [WideLocale.iswupper_ascii _ hc.toLower.2]
  exact AsciiKey.forall (P := fun c => c.toLower.isUpper = false) (by decide +kernel) hc

/-- A key without an action is typed in lower case. -/
lemma processKey_caseless (hc : AsciiKey c) :
    st.caseless.processKey c.toLower = (st.processKey c).caseless := by
  simp only [processKey, processChar, towlower_toLower, iswupper_toLower hc, caseless,
    List.map_append, List.map_cons, List.map_nil, List.length_map]
  rfl

/-- An escape types its key in lower case. -/
lemma escapeWith_caseless {kind} (hc : AsciiKey c) :
    st.caseless.escapeWith c.toLower kind = (st.escapeWith c kind).caseless := by
  rw [escapeWith, processKey_caseless hc]
  rfl

/-- The stroke of the `d`, in lower case. -/
lemma handleStrokeD_caseless (hc : AsciiKey c) (h : ModifierAlike cfg st.states (towlower c)) :
    handleStrokeD cfg st.caseless c.toLower = (handleStrokeD cfg st c).map caseless := by
  unfold ModifierAlike at h
  simp only [handleStrokeD, caseless_states, caseless_escape, findStrokeDTarget_map, charAt_map_mod,
    List.length_map, towlower_toLower, h, setMod_caseless, edit_caseless, escapeWith_caseless hc]
  split
  · rfl
  · split
    · rfl
    · split
      · rfl
      · split
        · rfl
        · split <;> rfl
      · rfl

/-- A letter that was inserted is taken back alike. -/
lemma undoInsert?_caseless {base mod kind} (hc : AsciiKey c) :
    st.caseless.undoInsert? c.toLower base mod kind =
      (st.undoInsert? c base mod kind).map caseless := by
  have hlast : st.caseless.states.getLast? = st.states.getLast?.map .caseless := List.getLast?_map
  have hprev : st.caseless.rawInput.dropLast.getLast? =
      st.rawInput.dropLast.getLast?.map Char.toLower := by
    rw [caseless_rawInput, ← List.map_dropLast, List.getLast?_map]
  have hdrop : ({ st.caseless with states := st.caseless.states.dropLast } : EngineState) =
      ({ st with states := st.states.dropLast } : EngineState).caseless := by
    simp only [caseless, List.map_dropLast]
  unfold undoInsert?
  rw [hlast, hprev, hdrop]
  cases st.states.getLast? with
  | none => rfl
  | some last =>
    cases st.rawInput.dropLast.getLast? with
    | none => rfl
    | some prev =>
      simp only [Option.map_some, towlower_toLower, KeepsLetters.base, KeepsLetters.mod,
        CharState.caseless_rawIdx, eraseConsumedRaw_caseless, escapeWith_caseless hc]
      split <;> rfl

/-- The brackets insert alike. -/
lemma handleHornInsert_caseless {action} (hc : AsciiKey c) :
    handleHornInsert cfg st.caseless action c.toLower =
      (handleHornInsert cfg st action c).map caseless := by
  have happend : ∀ base, ({ st.caseless with states := st.caseless.states ++
      [{ base := base, mod := .horn, rawIdx := st.caseless.lastRawIdx }] } : EngineState) =
      ({ st with states := st.states ++ [{ base := base, mod := .horn, rawIdx := st.lastRawIdx }] } :
        EngineState).caseless := by
    intro base
    rw [lastRawIdx_caseless]
    exact @append_caseless st { base := base, mod := .horn, rawIdx := st.lastRawIdx }
  simp only [handleHornInsert, undoInsert?_caseless hc, happend]
  split
  · rfl
  · cases st.undoInsert? c (if action = .hornInsertO then 'o' else 'u') .horn .horn <;> rfl

/-- The doubled vowel asks the exclusions with the key as it was typed. Where it asks, the key and its
    lower case get one answer. -/
def DoubledAlike (cfg : TypingConfig) (states : List CharState) (c : Char) : Prop :=
  (charAt states (states.length - 1)).base = towlower c →
    endsWithTriphthong states = false →
    (charAt states (states.length - 1)).mod ≠ .circumflex →
    Phonology.validateSyllableState states cfg.allowZwjf = .validPrefix →
    wouldBeValidSyllable cfg states (states.length - 1) .circumflex none true = false →
    wouldModifierKeyMatchExclusion cfg states c = wouldModifierKeyMatchExclusion cfg states (towlower c)

instance DoubledAlike.decidable {states} : Decidable (DoubledAlike cfg states c) :=
  inferInstanceAs (Decidable (_ → _ → _ → _ → _ → _))

/-- A vowel typed twice gets its circumflex alike, when its case does not tell the two apart. -/
lemma adjacentCircumflex_caseless (hc : AsciiKey c)
    (hlower : ModifierAlike cfg st.states (towlower c)) (hdoubled : DoubledAlike cfg st.states c)
    (hlast : (charAt st.states (st.states.length - 1)).base = towlower c) :
    adjacentCircumflex cfg st.caseless (towlower c) c.toLower =
      (adjacentCircumflex cfg st (towlower c) c).map caseless := by
  have hkey : c.toLower = towlower c := (WideLocale.towlower_ascii c hc.2).symm
  have hlower' := hlower
  unfold ModifierAlike at hlower'
  rw [hkey]
  simp only [adjacentCircumflex, caseless_states, caseless_escape, List.length_map, charAt_map_mod,
    endsWithTriphthong_map, Phonology.validateSyllableState_map, wouldBeValidSyllable_caseless, hlower',
    shouldRejectModifier_caseless hlower, setMod_caseless, relocateToneToTarget_caseless, edit_caseless]
  rw [← hkey, processKey_caseless hc, hkey]
  split
  · rfl
  · next htriphthong =>
    split
    · split <;> rfl
    · next hmod =>
      split
      · next hprefix =>
        by_cases hvalid :
            wouldBeValidSyllable cfg st.states (st.states.length - 1) .circumflex none true
        · simp only [hvalid, not_true_eq_false, false_and, if_false]
          rfl
        · rw [hdoubled hlast (Bool.eq_false_iff.2 htriphthong) hmod hprefix
            (Bool.eq_false_iff.2 hvalid)]
          split <;> rfl
      · split <;> rfl

/-- The circumflex of a vowel further back, in lower case. -/
lemma freeCircumflex_caseless {base} (hc : AsciiKey c) (hbase : ModifierAlike cfg st.states base) :
    freeCircumflex cfg st.caseless base c.toLower =
      Prod.map caseless id (freeCircumflex cfg st base c) := by
  simp only [freeCircumflex, caseless_states, caseless_escape, List.length_map, charAt_map_mod,
    ← List.map_drop, List.filter_map, comp_not_isVowel, List.any_map, comp_isVowel, charAt_map_base,
    List.map_eq_nil_iff, ne_eq, shouldRejectModifier_caseless hbase, wouldBeValidSyllable_caseless,
    setMod_caseless, undoHornU_caseless, relocateToneToTarget_caseless, edit_caseless,
    escapeWith_caseless hc]
  split
  · rfl
  · split
    · rfl
    · split <;> rfl
    · split <;> rfl
    · split
      · split
        · split <;> rfl
        · split <;> rfl
      · split
        · split <;> rfl
        · split <;> rfl
    · rfl

/-- The circumflex of Telex, in lower case. -/
lemma handleAdjacentCircumflex_caseless {action} (hm : cfg.inputMethod ≠ .userDefined)
    (hc : AsciiKey c) (hlower : ModifierAlike cfg st.states (towlower c))
    (hdoubled : DoubledAlike cfg st.states c) :
    handleAdjacentCircumflex cfg st.caseless action c.toLower =
      Prod.map caseless id (handleAdjacentCircumflex cfg st action c) := by
  simp only [handleAdjacentCircumflex, if_neg hm, caseless_states, List.length_map, towlower_toLower,
    charAt_map_base, charAt_map_isVowel, freeCircumflex_caseless hc hlower]
  split
  · rfl
  · split
    · next hlast =>
      rw [adjacentCircumflex_caseless hc hlower hdoubled hlast.1]
      cases adjacentCircumflex cfg st (towlower c) c <;> rfl
    · split
      · rfl
      · split <;> rfl

/-- What the `w` key leaves, without its case. -/
def HornOutcome.caseless : HornOutcome → HornOutcome
  | .horned states => .horned (states.map .caseless)
  | .done st => .done st.caseless

/-- The horns of a pair, in lower case. -/
lemma hornPair_caseless {u} (hc : AsciiKey c) :
    hornPair st.caseless c.toLower u = (hornPair st c u).map .caseless := by
  simp only [hornPair, caseless_states, caseless_escape, charAt_map_mod, isUOEdgeCasePrefix_map,
    setMod_caseless, edit_caseless, escapeWith_caseless hc]
  split
  · split <;> rfl
  · split
    · rfl
    · split
      · rfl
      · split
        · rfl
        · split <;> rfl

/-- The escape of a horn, in lower case. -/
lemma hornEscape_caseless {scan} (hc : AsciiKey c) :
    hornEscape st.caseless c.toLower scan = (hornEscape st c scan).map caseless := by
  -- the key takes the case of the synthetic `ư` it replaces
  have hsynthetic : ∀ {st : EngineState} {isUpper : Bool}, st.caseless.escapeWith (towlower c) .horn =
      (st.escapeWith (if isUpper then towupper c else towlower c) .horn).caseless := by
    intro st isUpper
    rw [WideLocale.towlower_ascii c hc.2, WideLocale.towupper_ascii c hc.2]
    cases isUpper with
    | false =>
      have hlower : c.toLower.toLower = c.toLower :=
        AsciiKey.forall (P := fun c => c.toLower.toLower = c.toLower) (by decide +kernel) hc
      rw [if_neg Bool.false_ne_true, ← escapeWith_caseless hc.toLower, hlower]
    | true =>
      have hlower : c.toUpper.toLower = c.toLower :=
        AsciiKey.forall (P := fun c => c.toUpper.toLower = c.toLower) (by decide +kernel) hc
      rw [if_pos rfl, ← escapeWith_caseless hc.toUpper, hlower]
  simp only [hornEscape, caseless_states, charAt_caseless, List.length_map,
    CharState.caseless_synthetic, List.eraseIdx_map, undoHornU_caseless, setMod_caseless,
    caseless_escape, edit_caseless, escapeWith_caseless hc, towlower_toLower]
  split
  · split
    · exact congrArg some hsynthetic
    · rfl
  · split <;> rfl

/-- A `w` becomes `ư` in lower case. -/
lemma hornSynthetic_caseless (hc : AsciiKey c) :
    hornSynthetic cfg st.caseless c.toLower = (hornSynthetic cfg st c).map caseless := by
  have happend : ({ st.caseless with states := st.caseless.states ++
      [{ base := 'u', mod := .horn, isUpper := iswupper c.toLower, synthetic := true,
         rawIdx := st.caseless.lastRawIdx }] } : EngineState) =
      ({ st with states := st.states ++
        [{ base := 'u', mod := .horn, isUpper := iswupper c, synthetic := true,
           rawIdx := st.lastRawIdx }] } : EngineState).caseless := by
    rw [lastRawIdx_caseless, iswupper_toLower hc]
    exact @append_caseless st
      { base := 'u', mod := .horn, isUpper := iswupper c, synthetic := true, rawIdx := st.lastRawIdx }
  simp only [hornSynthetic, caseless_states, isInQUCluster_map, List.length_map, charAt_map_isVowel,
    charAt_map_base]
  split
  · rfl
  · split
    · rfl
    · exact congrArg some happend

/-- A horn is rejected in lower case as it is. -/
lemma hornRejects_caseless {states : List CharState} {target mod clear} :
    hornRejects cfg (states.map .caseless) target mod clear =
      hornRejects cfg states target mod clear := by
  rw [hornRejects, hornRejects, hasNonVowelAfter_map, wouldBeValidSyllable_caseless]

/-- The horn of a single vowel, in lower case. -/
lemma hornStandalone_caseless {scan} (hc : AsciiKey c) :
    hornStandalone cfg st.caseless c.toLower scan = (hornStandalone cfg st c scan).map .caseless := by
  simp only [hornStandalone, caseless_states, hornTargetU_map, vowelPair?_map, hornRejects_caseless,
    setMod_caseless, clearCircumflex_caseless, caseless_escape, edit_caseless]
  split
  · split <;> rfl
  · split
    · split <;> rfl
    · split
      · split <;> rfl
      · rw [hornSynthetic_caseless hc]
        cases hornSynthetic cfg st c <;> rfl

/-- What a `w` does, in lower case. -/
lemma hornOutcome_caseless (hc : AsciiKey c) :
    hornOutcome cfg st.caseless c.toLower = (hornOutcome cfg st c).map .caseless := by
  have hany : (st.states.map CharState.caseless).any
      (fun s => s.base == 'a' || s.base == 'o' || s.base == 'u') =
      st.states.any fun s => s.base == 'a' || s.base == 'o' || s.base == 'u' := by
    rw [List.any_map]
    rfl
  have hpair : (vowelPair? st.states 'u' 'o').bind (hornPair st.caseless c.toLower) =
      ((vowelPair? st.states 'u' 'o').bind (hornPair st c)).map .caseless := by
    cases vowelPair? st.states 'u' 'o' with
    | none => rfl
    | some u => exact hornPair_caseless hc
  simp only [hornOutcome, caseless_states, hany, hornScan_map, vowelPair?_map, hpair, setMod_caseless,
    clearCircumflex_caseless, caseless_escape, edit_caseless, hornEscape_caseless hc,
    hornStandalone_caseless hc]
  split
  · rfl
  · split
    · rfl
    · cases (vowelPair? st.states 'u' 'o').bind (hornPair st c) with
      | some outcome => rfl
      | none =>
        dsimp only [Option.map_none]
        split
        · rfl
        · cases hornEscape st c (hornScan st.states) <;> rfl

/-- The horn and the breve of Telex, in lower case. -/
lemma handleHornW_caseless (hc : AsciiKey c) :
    handleHornW cfg st.caseless c.toLower = (handleHornW cfg st c).map caseless := by
  simp only [handleHornW, hornOutcome_caseless hc]
  cases hornOutcome cfg st c with
  | none => rfl
  | some outcome =>
    cases outcome with
    | horned states =>
      simp only [Option.map_some, HornOutcome.caseless, relocateToneToHornVowel_caseless]
      rfl
    | done st' => rfl

/-- A mark of VNI is set in lower case. -/
lemma vniApply_caseless {mod} (hkey : wouldModifierKeyMatchExclusion cfg (st.states.map .caseless)
      c.toLower = wouldModifierKeyMatchExclusion cfg st.states c) :
    vniApply cfg st.caseless mod c.toLower i = (vniApply cfg st mod c i).map caseless := by
  have hreject : shouldRejectModifier cfg (st.states.map .caseless) i mod c.toLower =
      shouldRejectModifier cfg st.states i mod c := by
    rw [shouldRejectModifier, shouldRejectModifier, wouldBeValidSyllable_caseless, hkey]
  simp only [vniApply, caseless_states, Phonology.validateSyllableState_map, hkey, hreject,
    wouldBeValidSyllable_caseless, setMod_caseless, relocateToneToTarget_caseless, caseless_escape,
    edit_caseless]
  split
  · split <;> rfl
  · split <;> rfl

/-- The circumflex and the breve of VNI, in lower case. -/
lemma processVniVowelModifier_caseless {mod} (hc : AsciiKey c)
    (hkey : wouldModifierKeyMatchExclusion cfg (st.states.map .caseless)
      c.toLower = wouldModifierKeyMatchExclusion cfg st.states c) :
    processVniVowelModifier cfg st.caseless mod c.toLower =
      (processVniVowelModifier cfg st mod c).map caseless := by
  simp only [processVniVowelModifier, caseless_states, List.length_map, charAt_map_isVowel,
    isClusterConsonant_map, charAt_map_base, charAt_map_mod, vniApply_caseless hkey, setMod_caseless,
    undoHornU_caseless, relocateToneToTarget_caseless, caseless_escape, edit_caseless,
    escapeWith_caseless hc]
  split
  · rfl
  · split
    · rfl
    · split <;> rfl

/-- The horns of a pair in VNI, in lower case. -/
lemma vniHornPair_caseless {u} (hc : AsciiKey c) :
    vniHornPair cfg st.caseless c.toLower u = (vniHornPair cfg st c u).map caseless := by
  simp only [vniHornPair, caseless_states, charAt_map_isHorn, isUOEdgeCasePrefix_map, setMod_caseless,
    relocateToneToTarget_caseless, caseless_escape, edit_caseless, escapeWith_caseless hc]
  split
  · split <;> rfl
  · split
    · rfl
    · split
      · rfl
      · split <;> rfl

/-- The horn of `uu` in VNI, in lower case. -/
lemma vniHornUU_caseless {firstU lastU} (hc : AsciiKey c) :
    vniHornUU cfg st.caseless c.toLower firstU lastU =
      (vniHornUU cfg st c firstU lastU).map caseless := by
  simp only [vniHornUU, caseless_states, charAt_map_mod, setMod_caseless, relocateToneToTarget_caseless,
    caseless_escape, edit_caseless, escapeWith_caseless hc]
  split
  · rfl
  · split
    · rfl
    · split <;> rfl

/-- The horn of VNI, in lower case. -/
lemma handleVniHorn_caseless (hc : AsciiKey c)
    (hkey : wouldModifierKeyMatchExclusion cfg (st.states.map .caseless)
      c.toLower = wouldModifierKeyMatchExclusion cfg st.states c) :
    handleVniHorn cfg st.caseless c.toLower = (handleVniHorn cfg st c).map caseless := by
  simp only [handleVniHorn, caseless_states, List.length_map, charAt_map_base, isClusterConsonant_map,
    vniHornPair_caseless hc, vniHornUU_caseless hc, processVniVowelModifier_caseless hc hkey]
  generalize (lastIdx? st.states.length fun i =>
    (charAt st.states i).base == 'u' && !isClusterConsonant st.states i) = uIdx
  generalize (lastIdx? st.states.length fun i =>
    (charAt st.states i).base == 'o' && !isClusterConsonant st.states i) = oIdx
  generalize (firstIdx? st.states.length fun i =>
    (charAt st.states i).base == 'u' && !isClusterConsonant st.states i) = firstIdx
  cases uIdx with
  | none => cases firstIdx <;> rfl
  | some u =>
    cases oIdx with
    | none =>
      cases firstIdx with
      | none => rfl
      | some firstU =>
        dsimp only
        cases vniHornUU cfg st c firstU u <;> rfl
    | some o =>
      by_cases hpair : o = u + 1
      · simp only [if_pos hpair]
        cases vniHornPair cfg st c u with
        | some st' => rfl
        | none =>
          cases firstIdx with
          | none => rfl
          | some firstU =>
            dsimp only [Option.map_none]
            cases vniHornUU cfg st c firstU u <;> rfl
      · simp only [if_neg hpair]
        cases firstIdx with
        | none => rfl
        | some firstU =>
          dsimp only
          cases vniHornUU cfg st c firstU u <;> rfl

omit [WideLocale] in
/-- A handler that consumes the key or passes it on. -/
lemma consumed_caseless {result : Option EngineState} {st₀ : EngineState} :
    (match result.map caseless with
      | some st' => (st', true)
      | none => (st₀.caseless, false)) =
    Prod.map caseless id (match result with
      | some st' => (st', true)
      | none => (st₀, false)) := by
  cases result <;> rfl

/-- A key with a mark does in lower case what it does. -/
lemma processModifier_caseless {action} (hm : cfg.inputMethod ≠ .userDefined)
    (ha : action.isTelexModifier ∨ action.isVniModifier) (hc : AsciiKey c)
    (hlower : ModifierAlike cfg st.states (towlower c)) (hdoubled : DoubledAlike cfg st.states c)
    (hdigit : action.isVniModifier → towlower c = c) :
    processModifier cfg st.caseless action c.toLower =
      Prod.map caseless id (processModifier cfg st action c) := by
  -- a VNI key has no case
  have hkey (hvni : action.isVniModifier) :
      wouldModifierKeyMatchExclusion cfg (st.states.map .caseless) c.toLower =
        wouldModifierKeyMatchExclusion cfg st.states c := by
    have hlower' := hlower
    unfold ModifierAlike at hlower'
    rw [← WideLocale.towlower_ascii c hc.2, hlower', hdigit hvni]
  cases action <;> simp only [TypingAction.isTelexModifier, TypingAction.isVniModifier,
    Bool.false_eq_true, or_self] at ha <;>
    simp only [processModifier, handleHornW_caseless hc, handleHornInsert_caseless hc,
      handleStrokeD_caseless hc hlower]
  case circumflexA => exact handleAdjacentCircumflex_caseless hm hc hlower hdoubled
  case circumflexE => exact handleAdjacentCircumflex_caseless hm hc hlower hdoubled
  case circumflexO => exact handleAdjacentCircumflex_caseless hm hc hlower hdoubled
  case vniCircumflex =>
    rw [processVniVowelModifier_caseless hc (hkey rfl)]
    exact consumed_caseless
  case vniBreve =>
    rw [processVniVowelModifier_caseless hc (hkey rfl)]
    exact consumed_caseless
  case vniHorn =>
    rw [handleVniHorn_caseless hc (hkey rfl)]
    exact consumed_caseless
  all_goals exact consumed_caseless

omit [WideLocale] in
/-- A stroke is marked as English alike. -/
lemma markStrokeEnglish_caseless {action} :
    markStrokeEnglish st.caseless action = (markStrokeEnglish st action).caseless := by
  simp only [markStrokeEnglish, caseless_states, caseless_engProt, EnglishProtectionState.caseless_bias,
    List.length_map, findStrokeDTarget_map, charAt_map_mod, shouldBlockStrokeDAsEnglish_map]
  split
  · split
    · split <;> rfl
    · rfl
  · rfl

/-- A mark is blocked in lower case as it is. -/
lemma modifierBlocked_caseless {lower checkRaw} (h : ModifierAlike cfg st.states lower) :
    modifierBlocked cfg st.caseless lower checkRaw = modifierBlocked cfg st lower checkRaw := by
  unfold ModifierAlike at h
  simp only [modifierBlocked, caseless_states, caseless_escape, caseless_engProt, caseless_rawInput,
    EnglishProtectionState.caseless_bias, isBlockedEnglishModifier, matchesRawPrefix_caseless, h]

/-- A mark recovers or escapes in lower case as it does. -/
lemma wouldModifierRecoverOrEscape_caseless {action} (hc : AsciiKey c)
    (h : ModifierAlike cfg st.states (towlower c)) :
    wouldModifierRecoverOrEscape cfg st.caseless action c.toLower (towlower c) =
      wouldModifierRecoverOrEscape cfg st action c (towlower c) := by
  unfold ModifierAlike at h
  have hprev : (st.caseless.rawInput.dropLast.getLast?).map towlower =
      (st.rawInput.dropLast.getLast?).map towlower := by
    rw [caseless_rawInput, ← List.map_dropLast, List.getLast?_map, Option.map_map]
    congr 1
    funext k
    exact towlower_toLower
  have hvowel : isVowelChar c.toLower = isVowelChar c :=
    AsciiKey.forall (P := fun c => isVowelChar c.toLower = isVowelChar c) (by decide +kernel) hc
  simp only [wouldModifierRecoverOrEscape, caseless_states, hasEscapableModifier_map, List.length_map,
    findStrokeDTarget_map, charAt_map_isVowel, charAt_map_base, charAt_map_mod, hprev, hvowel, h,
    isToneStopCodaMismatch_map, List.map_eq_nil_iff, ne_eq]

/-- A mark is open in lower case as it is. -/
lemma modifierOpen_caseless {action checkRaw checkSpell} (hc : AsciiKey c)
    (h : ModifierAlike cfg st.states (towlower c)) :
    modifierOpen cfg st.caseless action c.toLower (towlower c) checkRaw checkSpell =
      modifierOpen cfg st action c (towlower c) checkRaw checkSpell := by
  simp only [modifierOpen, modifierBlocked_caseless h, caseless_spellCheckDisabled,
    wouldModifierRecoverOrEscape_caseless hc h]

end Locale

end EngineState

end NextKey
