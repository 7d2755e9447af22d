import NextKey.Engine.LiteralBackspace

/-!
# Undoing a quick consonant

`Backspace` right behind the expansion of a doubled consonant puts the key back in its place. It does so
in lower case, and it undoes nothing that `FinalizeRegularChar` did to the letters before the expansion;
the horn that `uu` sets is undone.
-/

namespace NextKey

namespace EngineState

variable {st st' : EngineState} {c : Char} [WideLocale] {cfg : TypingConfig}

/-- The engine in front of the expansions of C++ `HandleQuickStartConsonant`. -/
def beforeExpansion (st : EngineState) (c : Char) : EngineState :=
  let st := (st.press c).undoQuickStart c
  let sameKey := st.qc.lastKey == some (towlower c)
  { st with qc := { st.qc with
    escaped := false, lastKey := if sameKey then st.qc.lastKey else none } }

/-- A key fires the expansion of a doubled consonant. -/
def FiresQuickConsonant (cfg : TypingConfig) (st : EngineState) (c : Char) : Prop :=
  let undone := (st.press c).undoQuickStart c
  cfg.quickConsonant ∧ st.states ≠ [] ∧ ¬(undone.qc.escaped || undone.qc.lastKey == some (towlower c)) ∧
    (quickConsonantExpand cfg (st.beforeExpansion c) (towlower c) (iswupper c)).isSome

instance FiresQuickConsonant.decidable : Decidable (FiresQuickConsonant cfg st c) :=
  inferInstanceAs (Decidable (_ ∧ _ ∧ _ ∧ _))

/-- The letter a doubled consonant becomes, in the case of its key. -/
def expandedKey (st : EngineState) (c : Char) : Char :=
  let last := charAt st.states (st.states.length - 1)
  let key := (quickConsonantReplacement last.base (towlower c)).getD c
  if iswupper c then towupper key else key

/-- A key that fires a quick consonant expands it. -/
lemma FiresQuickConsonant.pushChar (h : FiresQuickConsonant cfg st c) :
    quickConsonantExpand cfg (st.beforeExpansion c) (towlower c) (iswupper c) =
      some (st.pushChar cfg c) := by
  obtain ⟨hquick, hne, hescaped, hsome⟩ := h
  obtain ⟨expanded, hexpanded⟩ := Option.isSome_iff_exists.1 hsome
  have hhandled : handleQuickStartConsonant cfg (st.press c) c (towlower c) (iswupper c) =
      (expanded, true) := by
    unfold handleQuickStartConsonant
    rw [if_neg fun hstart => hne hstart.2]
    dsimp only
    rw [if_pos ⟨hquick, hescaped⟩]
    unfold beforeExpansion at hexpanded
    dsimp only at hexpanded
    rw [hexpanded]
  rw [hexpanded]
  unfold EngineState.pushChar
  dsimp only
  rw [hhandled]
  rfl

/-- The key behind a quick start consonant. -/
def StartKeyed (st : EngineState) : Prop :=
  ∀ k, st.quickStartKey = some k → (quickStartPair (towlower k)).isSome

/-- Without a quick start. -/
lemma StartKeyed.of_none (h : st.quickStartKey = none) : st.StartKeyed :=
  fun _ hk => absurd (h.symm.trans hk) (by simp)

/-- A pending quick start consonant becomes its key in front of a key that is not a vowel. -/
lemma undoQuickStart_cases :
    ((st.undoQuickStart c).states = st.states ∧ (st.undoQuickStart c).rawInput = st.rawInput ∧
        (st.undoQuickStart c).engProt = st.engProt) ∨
      ∃ k s, st.quickStartKey = some k ∧ (st.undoQuickStart c).states = [s] ∧ s.base = towlower k := by
  unfold undoQuickStart
  split
  · exact .inl ⟨rfl, rfl, rfl⟩
  · next k hk =>
    dsimp only
    split
    · exact .inl ⟨rfl, rfl, rfl⟩
    · exact .inr ⟨k, _, hk, rfl, rfl⟩

omit [WideLocale] in
/-- The keys of the quick starts. -/
lemma quickStartPair_cases {d : Char} (h : (quickStartPair d).isSome) :
    d = 'f' ∨ d = 'j' ∨ d = 'w' := by
  unfold quickStartPair at h
  split at h
  · exact .inl rfl
  · exact .inr (.inl rfl)
  · exact .inr (.inr rfl)
  · cases h

/-- None of these letters has an expansion. -/
lemma quickConsonantExpand_start {s : CharState} {lower isUpper} (hstates : st.states = [s])
    (hs : (quickStartPair s.base).isSome) : quickConsonantExpand cfg st lower isUpper = none := by
  have hlast : charAt st.states (st.states.length - 1) = s := by rw [hstates]; rfl
  have hne : st.states ≠ [] := by rw [hstates]; exact List.cons_ne_nil _ _
  have hcases := quickStartPair_cases hs
  have hvowel : s.isVowel = false := by
    unfold CharState.isVowel
    rcases hcases with h | h | h <;> rw [h] <;> rfl
  have hd : s.isD = false := by
    unfold CharState.isD
    rcases hcases with h | h | h <;> rw [h] <;> rfl
  have hreplacement : quickConsonantReplacement s.base lower = none := by
    unfold quickConsonantReplacement
    rcases hcases with h | h | h <;> rw [h] <;> rfl
  unfold quickConsonantExpand
  dsimp only
  rw [if_neg hne, hlast, if_pos ⟨by rw [hvowel]; decide, by rw [hd]; decide⟩, hreplacement]

/-- So a key that fires an expansion finds the states as they were. -/
lemma FiresQuickConsonant.before (h : FiresQuickConsonant cfg st c) (hs : st.StartKeyed) :
    (st.beforeExpansion c).states = st.states ∧
      (st.beforeExpansion c).rawInput = (st.press c).rawInput ∧
      (st.beforeExpansion c).engProt = st.engProt := by
  rcases @undoQuickStart_cases (st.press c) c _ with hkept | ⟨k, s, hk, hstates, hbase⟩
  · exact hkept
  · have hnone : quickConsonantExpand cfg (st.beforeExpansion c) (towlower c) (iswupper c) = none := by
      refine quickConsonantExpand_start hstates ?_
      rw [hbase]
      exact hs k hk
    have hsome := h.pushChar
    rw [hnone] at hsome
    cases hsome

/-- The rules in front of the classification leave a quick start consonant of their key at most. -/
lemma handleQuickStartConsonant_startKeyed (h : st.Typed) :
    (handleQuickStartConsonant cfg st c (towlower c) (iswupper c)).1.StartKeyed := by
  simp only [handleQuickStartConsonant]
  split
  · next first second hstart =>
    intro k hk
    obtain rfl : c = k := Option.some.inj hk
    split at hstart
    · rw [hstart]
      rfl
    · cases hstart
  · have hnone : (st.undoQuickStart c).quickStartKey = none := (undoQuickStart_typed h).2.1
    split
    · split
      · next hexpand =>
        exact .of_none ((quickConsonantExpand_typed hexpand).2.2.2.trans hnone)
      · exact .of_none hnone
    · exact .of_none hnone

/-- A key leaves its start. -/
lemma startKeyed_pushChar (h : st.Typed) (hc : AsciiKey c) : (st.pushChar cfg c).StartKeyed := by
  have hquick := @handleQuickStartConsonant_typed (st.press c) c _ cfg hc h.press
  have hkeyed := @handleQuickStartConsonant_startKeyed (st.press c) c _ cfg h.press
  simp only [EngineState.pushChar]
  split at hquick
  · next hveto =>
    rw [if_pos hveto]
    exact hkeyed
  · next hveto =>
    rw [if_neg hveto]
    have hnone := hquick.startKey
    generalize (handleQuickStartConsonant cfg (st.press c) c (towlower c) (iswupper c)).1 = mid at hnone
    refine .of_none ?_
    rcases @dispatch_adds mid c _ cfg (classify cfg mid c (towlower c)) hc with
      hgrows | ⟨-, -, -, -, hsame⟩
    · exact hgrows.quick.2.trans hnone
    · exact hsame.2.trans hnone

/-- So does Backspace. -/
lemma startKeyed_backspace (h : st.StartKeyed) : (st.backspace cfg).StartKeyed := by
  unfold EngineState.backspace
  split
  · exact h
  · dsimp only
    split
    · exact .of_none rfl
    · split
      · refine .of_none ?_
        unfold undoQuickConsonant
        dsimp only
        split <;> rfl
      · exact .of_none rfl

/-- So does everything. -/
lemma Reachable.startKeyed (h : st.Reachable) : st.StartKeyed := by
  induction h with
  | init => exact .of_none rfl
  | seed => exact .of_none seedFromText_plain.2
  | push h hc _ => exact startKeyed_pushChar h.typed hc
  | back _ ih => exact startKeyed_backspace ih

/-- The expansion of a doubled consonant. -/
lemma quickConsonantExpand_consonant {lower isUpper}
    (h : quickConsonantExpand cfg st lower isUpper = some st')
    (hlast : ¬(charAt st.states (st.states.length - 1)).isVowel) :
    ∃ replacement qc, quickConsonantReplacement (charAt st.states (st.states.length - 1)).base lower =
        some replacement ∧
      qc.resultIndex = some st.states.length ∧ qc.lastKey = some lower ∧
      st' = (({ st with qc := qc }.processKey (if isUpper then towupper replacement else replacement)
        ).finalizeRegularChar cfg) := by
  unfold quickConsonantExpand at h
  dsimp only at h
  split at h
  · cases h
  · split at h
    · split at h
      · next replacement hreplacement =>
        cases h
        exact ⟨replacement, _, hreplacement, rfl, rfl, rfl⟩
      · cases h
    · split at h
      · next hu =>
        have hvowel : (charAt st.states (st.states.length - 1)).isVowel = true := by
          unfold CharState.isVowel
          rw [hu.1]
          rfl
        exact absurd hvowel hlast
      · cases h

/-- The expansion of `uu`. -/
lemma quickConsonantExpand_uu {lower isUpper}
    (h : quickConsonantExpand cfg st lower isUpper = some st')
    (hlast : (charAt st.states (st.states.length - 1)).isVowel) :
    (charAt st.states (st.states.length - 1)).base = 'u' ∧
      (charAt st.states (st.states.length - 1)).mod = .none ∧
      ∃ qc o verdict, qc.resultIndex = some st.states.length ∧ qc.lastKey = some lower ∧
        o.base = 'o' ∧ o.mod = .horn ∧
        st' = { st with
          states := setMod st.states (st.states.length - 1) .horn ++ [o]
          qc := qc
          spellCheckDisabled := verdict } := by
  unfold quickConsonantExpand at h
  dsimp only at h
  split at h
  · cases h
  · split at h
    · next hconsonant => exact absurd hlast hconsonant.1
    · split at h
      · next hu =>
        split at h
        · cases h
        · cases h
          exact ⟨hu.1, hu.2.1, _, _, _, rfl, rfl, rfl, rfl, rfl⟩
      · cases h

/-- `Backspace` on the letter of an expansion puts the key back. -/
lemma backspace_expansion {n : Nat} {key : Char} (hstart : st.quickStartKey = none)
    (hlen : st.states.length = n + 1) (hindex : st.qc.resultIndex = some n)
    (hkey : st.qc.lastKey = some key) :
    (st.backspace cfg).states = (undoHornU st.states n).dropLast ++ [st.keyState key] := by
  have hne : st.states ≠ [] := by
    intro hnil
    rw [hnil] at hlen
    cases hlen
  unfold EngineState.backspace
  dsimp only
  rw [if_neg hne, hstart, ite_self]
  dsimp only
  rw [hlen, Nat.add_sub_cancel, if_pos hindex]
  unfold undoQuickConsonant
  dsimp only
  rw [hkey, hlen, Nat.add_sub_cancel]
  rfl

omit [WideLocale] in
/-- A horn that is set on an unmodified letter and cleared again. -/
lemma setMod_cleared {states : List CharState} {i : Nat} {mod : Modifier}
    (h : (charAt states i).mod = .none) : setMod (setMod states i mod) i .none = states := by
  apply List.ext_getElem?
  intro j
  unfold setMod
  rw [List.getElem?_modify, List.getElem?_modify]
  cases hj : states[j]? with
  | none => rfl
  | some s =>
    by_cases hij : i = j
    · subst hij
      have hs : charAt states i = s := by simp [charAt, hj]
      rw [hs] at h
      simp only [if_true, Option.map_eq_map, Option.map_some, ← h]
    · simp only [if_neg hij, Option.map_eq_map, Option.map_some]

omit [WideLocale] in
/-- A modifier on a letter in front of the last one. -/
lemma setMod_append {states : List CharState} {o : CharState} {i : Nat} {mod : Modifier}
    (hi : i < states.length) : setMod (states ++ [o]) i mod = setMod states i mod ++ [o] := by
  apply List.ext_getElem?
  intro j
  have hlen : (setMod states i mod).length = states.length := length_setMod
  rcases Nat.lt_or_ge j states.length with hj | hj
  · rw [List.getElem?_append_left (by omega)]
    unfold setMod
    rw [List.getElem?_modify, List.getElem?_modify, List.getElem?_append_left hj]
  · rw [List.getElem?_append_right (by omega), hlen]
    unfold setMod
    rw [List.getElem?_modify, List.getElem?_append_right hj]
    cases h : [o][j - states.length]? with
    | none => rfl
    | some s => exact congrArg some (if_neg (by omega))

omit [WideLocale] in
/-- `UndoHornU` on the `ơ` of an expanded `uu`. -/
lemma undoHornU_expansion {states : List CharState} {o : CharState} (hne : states ≠ [])
    (hu : (charAt states (states.length - 1)).base = 'u')
    (hnone : (charAt states (states.length - 1)).mod = .none) (ho : o.base = 'o')
    (hhorn : o.mod = .horn) :
    (undoHornU (setMod states (states.length - 1) .horn ++ [o]) states.length).dropLast = states := by
  have hpos : 0 < states.length := List.length_pos_iff.2 hne
  have hlen : (setMod states (states.length - 1) .horn).length = states.length := length_setMod
  have hlast : charAt (setMod states (states.length - 1) .horn ++ [o]) states.length = o := by
    have h := @charAt_concat (setMod states (states.length - 1) .horn) o
    rwa [hlen] at h
  have hprev : charAt (setMod states (states.length - 1) .horn ++ [o]) (states.length - 1) =
      charAt (setMod states (states.length - 1) .horn) (states.length - 1) :=
    charAt_append (by omega)
  have hu' : (charAt (setMod states (states.length - 1) .horn) (states.length - 1)).base = 'u' :=
    SameBases.setMod.charAt.trans hu
  have hmod : (charAt (setMod states (states.length - 1) .horn) (states.length - 1)).mod = .horn := by
    rw [mod_setMod (by omega), if_pos rfl]
  unfold undoHornU
  dsimp only
  rw [hlast, hprev, if_pos ⟨hpos, ho, by rw [CharState.hasModifier, hhorn]; rfl, hu',
    by rw [CharState.hasModifier, hmod]; rfl⟩]
  rw [setMod_append (by omega), List.dropLast_concat]
  exact setMod_cleared hnone

/-- The states in front of an expansion are as they were behind it and its undoing, and the key shows
    behind them as it was typed. -/
def UndoneExpansion (cfg : TypingConfig) (st : EngineState) (c : Char) : Prop :=
  let undone := (st.pushChar cfg c).backspace cfg
  undone.peek = st.peek ++ [c] ∧ undone.states.dropLast = st.states

instance UndoneExpansion.decidable : Decidable (UndoneExpansion cfg st c) :=
  inferInstanceAs (Decidable (_ ∧ _))

/-- Nothing in front of the expansion is edited for good: `UndoHornU` undoes `uu`, and the letters stay
    before the letter of another expansion. -/
def LeavesExpansion (cfg : TypingConfig) (st : EngineState) (c : Char) : Prop :=
  (charAt st.states (st.states.length - 1)).isVowel ∨
    KeepsLetters cfg (st.press c) (st.expandedKey c)

instance LeavesExpansion.decidable : Decidable (LeavesExpansion cfg st c) :=
  inferInstanceAs (Decidable (_ ∨ _))

/-- What stays is decided by the states, the raw input and the bias. -/
lemma KeepsLetters.congr (hstates : st'.states = st.states) (hraw : st'.rawInput = st.rawInput)
    (hprot : st'.engProt = st.engProt) : KeepsLetters cfg st' c ↔ KeepsLetters cfg st c := by
  unfold KeepsLetters keyState
  rw [hstates, hraw, hprot]

omit [WideLocale] in
/-- No consonant expands to an `o`. -/
lemma quickConsonantReplacement_ne {d e f : Char} (h : quickConsonantReplacement d e = some f) :
    (f = 'h' ∨ f = 'i' ∨ f = 'g' ∨ f = 'u') ∧ e ≠ 'u' := by
  unfold quickConsonantReplacement at h
  split at h <;> cases h <;> decide

/-- The letter of an expanded consonant is no `o` in either case. -/
lemma replacement_lower {d e f : Char} {isUpper : Bool} (h : quickConsonantReplacement d e = some f) :
    towlower (if isUpper then towupper f else f) ≠ 'o' := by
  have hascii := quickConsonantReplacement_ascii h
  have hcase : AsciiKey (if isUpper then towupper f else f) := by
    split
    · exact hascii.towupper
    · exact hascii
  have hupper := WideLocale.towupper_ascii f hascii.2
  rw [WideLocale.towlower_ascii _ hcase.2, hupper]
  rcases (quickConsonantReplacement_ne h).1 with rfl | rfl | rfl | rfl <;> cases isUpper <;> decide

/-- The key that is put back shows in lower case. -/
lemma compose_putBack (hc : AsciiKey c) : compose (st.keyState (towlower c)) = towlower c :=
  compose_keyState hc.towlower

/-- It is the key as it was typed just when that was in lower case. -/
lemma towlower_eq_iff (hc : AsciiKey c) : towlower c = c ↔ iswupper c = false := by
  rw [WideLocale.towlower_ascii c hc.2, WideLocale.iswupper_ascii c hc.2]
  exact AsciiKey.forall (P := fun c => c.toLower = c ↔ c.isUpper = false) (by decide +kernel) hc

/-- The last letter behind a regular key is the key, unless it is the first one. -/
lemma regular_last (hne : st.states ≠ []) :
    (charAt ((st.processChar (towlower c) (iswupper c)).finalizeRegularChar cfg).states
      st.states.length).base = towlower c := by
  have hsame : SameBases (st.states ++ [st.keyState c]) (regularBuffer cfg st c) :=
    SameBases.relocateToneToTarget.trans .applyAutoUO
  have hregular : (charAt (regularBuffer cfg st c) st.states.length).base = towlower c := by
    rw [hsame.charAt, charAt_concat]
    rfl
  have hlen : (regularBuffer cfg st c).length = st.states.length + 1 := by
    rw [hsame.length_eq, List.length_append]
    rfl
  rw [regular_states]
  split
  · rw [charAt_modify (by omega), if_neg (List.length_pos_iff.2 hne).ne]
    exact hregular
  · exact hregular

/-- The engine behind the expansion of a consonant. -/
lemma FiresQuickConsonant.consonant (h : FiresQuickConsonant cfg st c) (hs : st.StartKeyed)
    (hlast : ¬(charAt st.states (st.states.length - 1)).isVowel) :
    ∃ mid : EngineState, mid.states = st.states ∧ mid.rawInput = (st.press c).rawInput ∧
      mid.engProt = st.engProt ∧ towlower (st.expandedKey c) ≠ 'o' ∧
      (st.pushChar cfg c).states = ((mid.processChar (towlower (st.expandedKey c))
        (iswupper (st.expandedKey c))).finalizeRegularChar cfg).states ∧
      (st.pushChar cfg c).qc.resultIndex = some st.states.length := by
  obtain ⟨hstates, hraw, hprot⟩ := h.before hs
  have hexpand := h.pushChar
  rw [← hstates] at hlast
  obtain ⟨replacement, qc, hreplacement, hindex, -, hpush⟩ :=
    quickConsonantExpand_consonant hexpand hlast
  have hkey : st.expandedKey c = if iswupper c then towupper replacement else replacement := by
    unfold expandedKey
    dsimp only
    rw [← hstates, hreplacement]
    rfl
  refine ⟨{ st.beforeExpansion c with qc := qc }, hstates, hraw, hprot, ?_, ?_, ?_⟩
  · rw [hkey]
    exact replacement_lower hreplacement
  · rw [hpush, hkey]
    rfl
  · rw [hpush, finalizeRegularChar_same.2.2.1]
    show qc.resultIndex = _
    rw [hindex, hstates]

/-- What an expansion leaves for `Backspace`. -/
lemma FiresQuickConsonant.quick (h : FiresQuickConsonant cfg st c) (ht : st.Typed)
    (hs : st.StartKeyed) :
    (st.pushChar cfg c).states.length = st.states.length + 1 ∧
      (st.pushChar cfg c).qc.lastKey = some (towlower c) ∧
      (st.pushChar cfg c).quickStartKey = none := by
  obtain ⟨hlen, -, hkey, hstart⟩ := quickConsonantExpand_typed h.pushChar
  rw [(h.before hs).1] at hlen
  exact ⟨hlen, hkey, hstart.trans (undoQuickStart_typed ht.press).2.1⟩

/-- `Backspace` behind the expansion of a consonant. -/
lemma undone_consonant (h : FiresQuickConsonant cfg st c) (ht : st.Typed) (hs : st.StartKeyed)
    (hlast : ¬(charAt st.states (st.states.length - 1)).isVowel) :
    ((st.pushChar cfg c).backspace cfg).states =
      (st.pushChar cfg c).states.dropLast ++ [(st.pushChar cfg c).keyState (towlower c)] := by
  obtain ⟨mid, hstates, -, -, hne, hpush, hindex⟩ := h.consonant hs hlast
  obtain ⟨hlen, hkey, hstart⟩ := h.quick ht hs
  have hbase : (charAt (st.pushChar cfg c).states st.states.length).base =
      towlower (st.expandedKey c) := by
    rw [hpush, ← hstates]
    exact regular_last (by rw [hstates]; exact h.2.1)
  have hkept : undoHornU (st.pushChar cfg c).states st.states.length =
      (st.pushChar cfg c).states := by
    unfold undoHornU
    dsimp only
    rw [if_neg]
    rintro ⟨-, ho, -⟩
    exact hne (hbase.symm.trans ho)
  rw [backspace_expansion hstart hlen hindex hkey, hkept]

/-- `Backspace` behind the expansion of `uu` finds the `u` without its horn. -/
lemma undone_uu (h : FiresQuickConsonant cfg st c) (ht : st.Typed) (hs : st.StartKeyed)
    (hlast : (charAt st.states (st.states.length - 1)).isVowel) :
    ((st.pushChar cfg c).backspace cfg).states =
      st.states ++ [(st.pushChar cfg c).keyState (towlower c)] := by
  obtain ⟨hstates, -, -⟩ := h.before hs
  have hlast' := hlast
  rw [← hstates] at hlast'
  obtain ⟨hu, hnone, qc, o, verdict, hindex, -, ho, hhorn, hpush⟩ :=
    quickConsonantExpand_uu h.pushChar hlast'
  obtain ⟨hlen, hkey, hstart⟩ := h.quick ht hs
  have hindex' : (st.pushChar cfg c).qc.resultIndex = some st.states.length := by
    rw [hpush, ← hstates]
    exact hindex
  have hexpanded : (st.pushChar cfg c).states =
      setMod st.states (st.states.length - 1) .horn ++ [o] := by
    rw [hpush, ← hstates]
  rw [hstates] at hu hnone
  rw [backspace_expansion hstart hlen hindex' hkey, hexpanded,
    undoHornU_expansion h.2.1 hu hnone ho hhorn]

/-- The text of a buffer with one more letter. -/
lemma composeAll_concat {states : List CharState} {s : CharState} (hs : compose s ≠ '\x00') :
    composeAll (states ++ [s]) = composeAll states ++ [compose s] := by
  unfold composeAll
  rw [List.map_append, List.filter_append]
  congr 1
  exact List.filter_cons_of_pos (decide_eq_true hs)

omit [WideLocale] in
/-- A changed mark is in the states behind which the last one is removed. -/
lemma ChangesMark.dropLast_ne {states states' : List CharState} (h : ChangesMark states states')
    (hlen : states'.length = states.length + 1) : states'.dropLast ≠ states := by
  obtain ⟨i, hi, -, -, hmarks⟩ := h
  intro hsame
  have hchar : charAt states' i = charAt states i := by
    rw [← charAt_dropLast (by omega), hsame]
  rw [hchar] at hmarks
  rcases hmarks with hmarks | hmarks | hmarks <;> exact hmarks rfl

/-- `Backspace` behind the expansion of a doubled consonant or `uu` restores the states and puts the key
    back as it was typed just when the key was in lower case and the expansion left the states before it
    alone. -/
theorem undoneExpansion_iff (h : st.Reachable) (hc : AsciiKey c)
    (hfires : FiresQuickConsonant cfg st c) :
    UndoneExpansion cfg st c ↔ iswupper c = false ∧ LeavesExpansion cfg st c := by
  have ht := h.typed
  have hs := h.startKeyed
  obtain ⟨rest, hundone, hrest⟩ : ∃ rest, ((st.pushChar cfg c).backspace cfg).states =
      rest ++ [(st.pushChar cfg c).keyState (towlower c)] ∧
        (rest = st.states ↔ LeavesExpansion cfg st c) := by
    unfold LeavesExpansion
    by_cases hlast : (charAt st.states (st.states.length - 1)).isVowel
    · exact ⟨_, undone_uu hfires ht hs hlast, iff_of_true rfl (.inl hlast)⟩
    · refine ⟨_, undone_consonant hfires ht hs hlast, ?_⟩
      obtain ⟨mid, hstates, hraw, hprot, -, hpush, -⟩ := hfires.consonant hs hlast
      have hcongr : KeepsLetters cfg mid (st.expandedKey c) ↔
          KeepsLetters cfg (st.press c) (st.expandedKey c) := KeepsLetters.congr hstates hraw hprot
      rw [or_iff_right hlast, ← hcongr, hpush]
      constructor
      · intro hsame
        by_contra hchanged
        have hne : mid.states ≠ [] := by rw [hstates]; exact hfires.2.1
        refine (regular_changes hchanged (regular_last hne)).dropLast_ne ?_ (hsame.trans hstates.symm)
        rw [← hpush, hstates]
        exact (hfires.quick ht hs).1
      · intro hkept
        rw [hkept.regular, List.dropLast_concat, hstates]
  have hshown := @compose_putBack (st.pushChar cfg c) _ _ hc
  have hpeek : ((st.pushChar cfg c).backspace cfg).peek = composeAll rest ++ [towlower c] := by
    unfold peek
    rw [hundone, composeAll_concat, hshown]
    rw [hshown]
    exact hc.towlower.ne_nul
  unfold UndoneExpansion
  dsimp only
  rw [hpeek, hundone, List.dropLast_concat, ← hrest, ← towlower_eq_iff hc]
  constructor
  · rintro ⟨htext, hsame⟩
    exact ⟨(List.append_inj' htext rfl).2 |> List.singleton_inj.1, hsame⟩
  · rintro ⟨hlower, hsame⟩
    rw [hlower, hsame]
    exact ⟨rfl, rfl⟩

end EngineState

section Ascii

attribute [local instance] WideLocale.ascii

open EngineState

/-- The quick consonants on. -/
def quickConfig : TypingConfig := { quickConsonant := true }

/-- An `ap` under them. -/
def quickAp : EngineState := (pushChar quickConfig {} 'a').pushChar quickConfig 'p'

/-- The example is reached by typing. -/
lemma quickAp_reachable : quickAp.ReachableBy quickConfig := by
  unfold quickAp
  exact .push (.push .init (by decide)) (by decide)

/-- Another `p` becomes an `h`, and `Backspace` makes it `app`. -/
theorem undoneExpansion_app : UndoneExpansion quickConfig quickAp 'p' :=
  (undoneExpansion_iff quickAp_reachable.reachable (by decide) (by decide +kernel)).2
    (by decide +kernel)

/-- A `P` becomes an `H`, and `Backspace` makes it `app` as well. -/
theorem not_undoneExpansion_apP :
    ¬∀ (cfg : TypingConfig) (st : EngineState) (c : Char), cfg.quickConsonant → st.ReachableBy cfg →
      AsciiKey c → FiresQuickConsonant cfg st c → UndoneExpansion cfg st c := by
  intro h
  exact absurd (h quickConfig quickAp 'P' rfl quickAp_reachable (by decide) (by decide +kernel))
    (by decide +kernel)

end Ascii

end NextKey
