import Mathlib.Data.List.Perm.Subperm
import NextKey.Engine.Typing
import NextKey.Lib.Lists

/-!
# Effects of a key

One specification for what a key can do to the buffer and to the raw input, shared by the results on
tones and on raw indices. `Reworks` covers the edits that create no state: rewriting letters and
modifiers, moving a tone with its key, clearing a tone. `Effect` adds the literal, the erased
keystroke, the applied tone and the tone that is moved without its key. Every handler of
`TypingEngine` has a lemma that puts it under `Effect`, so later modules never unfold a handler.
-/

namespace NextKey

/-- The first index among one more. -/
lemma firstIdx?_succ {n q} :
    firstIdx? (n + 1) q = (firstIdx? n q).or (if q n then some n else none) := by
  rw [firstIdx?, List.range_succ, List.find?_append]
  cases hq : q n with
  | true => simp [hq, firstIdx?]
  | false => simp [hq, firstIdx?]

/-- The last index among one more. -/
lemma lastIdx?_succ {n q} : lastIdx? (n + 1) q = if q n then some n else lastIdx? n q := by
  rw [lastIdx?, List.range_succ, List.reverse_append, List.reverse_singleton, List.singleton_append,
    List.find?_cons]
  cases q n with
  | true => rfl
  | false => rfl

/-- A forward scan returns an index in range that satisfies the test. -/
lemma firstIdx?_eq_some {n p i} (h : firstIdx? n p = some i) : i < n ∧ p i = true :=
  ⟨List.mem_range.1 (List.mem_of_find?_eq_some h), List.find?_some h⟩

/-- A backward scan returns an index in range that satisfies the test. -/
lemma lastIdx?_eq_some {n p i} (h : lastIdx? n p = some i) : i < n ∧ p i = true :=
  ⟨List.mem_range.1 (List.mem_reverse.1 (List.mem_of_find?_eq_some h)), List.find?_some h⟩

/-- Nothing behind the result of a backward scan satisfies the test. -/
lemma lastIdx?_last {n p i k} (h : lastIdx? n p = some i) (hk : i < k) (hn : k < n) : p k = false := by
  induction n with
  | zero => exact absurd hn (Nat.not_lt_zero k)
  | succ n ih =>
    rw [lastIdx?_succ] at h
    split at h
    · cases h
      omega
    · next hpass =>
      obtain hlt | rfl := Nat.lt_succ_iff_lt_or_eq.1 hn
      · exact ih h hlt
      · exact Bool.eq_false_iff.2 hpass

/-- Reading past the end. -/
lemma charAt_of_length_le {states i} (h : states.length ≤ i) : charAt states i = {} := by
  rw [charAt, List.getD_eq_getElem?_getD, List.getElem?_eq_none h, Option.getD_none]

/-- Reading a modified buffer. -/
lemma charAt_modify {states i j} {f : CharState → CharState} (hi : i < states.length) :
    charAt (states.modify i f) j = if i = j then f (charAt states i) else charAt states j := by
  simp only [charAt, List.getD_eq_getElem?_getD, List.getElem?_modify]
  split
  · next h => subst h; simp [List.getElem?_eq_getElem hi]
  · simp

/-- The mark that was set, and the others. -/
lemma mod_setMod {states i j mod} (hi : i < states.length) :
    (charAt (setMod states i mod) j).mod = if i = j then mod else (charAt states j).mod := by
  rw [setMod, charAt_modify hi]
  split <;> rfl

/-- What the raw bookkeeping sees of a state. -/
def CharState.stamp (s : CharState) : Nat × Tone × Option Nat := (s.rawIdx, s.tone, s.toneRawIdx)

/-- The same states up to letters and modifiers. -/
def SameStamps (states states' : List CharState) : Prop :=
  states'.map CharState.stamp = states.map CharState.stamp

/-- One after the other. -/
lemma SameStamps.trans {s₁ s₂ s₃} (h : SameStamps s₁ s₂) (h' : SameStamps s₂ s₃) :
    SameStamps s₁ s₃ := Eq.trans h' h

/-- A change of a letter that keeps its stamp. -/
lemma SameStamps.modify {states i f} (h : ∀ s, CharState.stamp (f s) = s.stamp) :
    SameStamps states (states.modify i f) := List.map_modify_of_forall h

/-- A mark does not change the stamps. -/
lemma sameStamps_setMod {states i mod} : SameStamps states (setMod states i mod) :=
  .modify fun _ => rfl

/-- Nor does taking off a horn. -/
lemma sameStamps_undoHornU {states i} : SameStamps states (undoHornU states i) := by
  simp only [undoHornU]
  split
  · exact sameStamps_setMod
  · rfl

/-- Nor does clearing a circumflex. -/
lemma sameStamps_clearCircumflex {states i} : SameStamps states (clearCircumflex states i) := by
  unfold clearCircumflex
  split
  · split
    · exact sameStamps_setMod
    · rfl
  · rfl

/-- Remove the tone of a state and forget its key. -/
def clearTone (states : List CharState) (i : Nat) : List CharState :=
  states.modify i fun s => { s with tone := .none, toneRawIdx := none }

/-- Edits of the buffer that create no state and touch no keystroke. -/
inductive Reworks : List CharState → List CharState → Prop where
  | marks {states states'} :
    SameStamps states states' →
    Reworks states states'
  | move {states src dst} :
    src < states.length →
    dst < states.length →
    dst ≠ src →
    (charAt states src).hasTone →
    Reworks states (moveTone states src dst)
  | clear {states i} :
    i < states.length →
    Reworks states (clearTone states i)
  | trans {s₁ s₂ s₃} :
    Reworks s₁ s₂ →
    Reworks s₂ s₃ →
    Reworks s₁ s₃

/-- Nothing is reworked. -/
lemma Reworks.refl {states} : Reworks states states := .marks rfl

/-- Either way. -/
lemma Reworks.ite {states a b} {p : Prop} [Decidable p] (ha : Reworks states a)
    (hb : Reworks states b) : Reworks states (if p then a else b) := by
  split
  · exact ha
  · exact hb

/-- The toned vowel that was found is one. -/
lemma findTonedVowelIndex_eq_some {states i} (h : findTonedVowelIndex states = some i) :
    i < states.length ∧ (charAt states i).isVowel ∧ (charAt states i).hasTone := by
  obtain ⟨hi, hp⟩ := firstIdx?_eq_some h
  rw [Bool.and_eq_true] at hp
  exact ⟨hi, hp⟩

section Locale
variable [WideLocale]

/-- The tone target is a vowel of the buffer outside the onset clusters. -/
lemma findToneTarget_eq_some {modernOrtho states i} (h : findToneTarget modernOrtho states = some i) :
    i < states.length ∧ (charAt states i).isVowel ∧ isClusterConsonant states i = false := by
  simp only [findToneTarget] at h
  split at h
  · cases h
  · split at h
    · have hmem := List.mem_of_getElem? h
      simp only [toneVowelIdxs] at hmem
      have hmem := List.mem_filter.1 (List.mem_of_mem_take hmem)
      simp only [List.mem_range, Bool.and_eq_true, Bool.not_eq_true'] at hmem
      exact ⟨hmem.1, hmem.2.1.1, hmem.2.1.2⟩
    · cases h

/-- Relocating a tone to its target is a rework. -/
lemma reworks_relocateToneToTarget {cfg states} :
    Reworks states (relocateToneToTarget cfg states) := by
  unfold relocateToneToTarget
  split
  · exact .refl
  · next src hsrc =>
    obtain ⟨hs, -, ht⟩ := findTonedVowelIndex_eq_some hsrc
    split
    · exact .refl
    · next dst hdst =>
      obtain ⟨hd, -⟩ := findToneTarget_eq_some hdst
      split
      · exact .refl
      · next hne => exact .ite .refl (.ite .refl (.move hs hd hne ht))

/-- The completion of `ươ` at an index reworks the marks. -/
lemma reworks_autoUOAt {cfg states i} : Reworks states (autoUOAt cfg states i) := by
  simp only [autoUOAt]
  refine .ite .refl ?_
  refine .ite (.trans ?_ reworks_relocateToneToTarget) ?_
  · exact .trans (.ite (.marks sameStamps_setMod) .refl) (.marks sameStamps_setMod)
  · exact .ite (.marks sameStamps_setMod) .refl

/-- The automatic `ươ` is a rework. -/
lemma reworks_applyAutoUO {cfg states} : Reworks states (applyAutoUO cfg states) := by
  unfold applyAutoUO
  generalize (List.range (states.length - 2)).drop (states.length - 4) = positions
  induction positions generalizing states with
  | nil => exact .refl
  | cons i positions ih => exact .trans reworks_autoUOAt ih

end Locale

/-- Indices of the raw entries the states own. -/
def owners (states : List CharState) : List Nat :=
  states.map (·.rawIdx) ++ states.filterMap (·.toneRawIdx)

/-- The keystrokes of the last state are no longer owned once it is removed. -/
lemma owners_dropLast_subperm {states : List CharState} {last} (h : states.getLast? = some last) :
    (last.rawIdx :: owners states.dropLast).Subperm (owners states) := by
  obtain ⟨init, rfl⟩ := List.getLast?_eq_some_iff.1 h
  rw [List.dropLast_concat]
  simp only [owners, List.map_append, List.filterMap_append, List.map_cons, List.map_nil,
    List.append_assoc, List.singleton_append]
  refine List.Subperm.trans ?_ (List.perm_middle.symm.subperm)
  refine (List.subperm_cons _).2 ?_
  rw [← List.append_assoc]
  exact (List.sublist_append_left _ _).subperm

/-- Clearing the tone of a vowel in two steps, with its key erased in between. -/
lemma clearTone_eraseRaw {states i k} :
    (((states.modify i fun s => { s with tone := .none }).map (CharState.eraseRaw k)).modify i
      fun s => { s with toneRawIdx := none }) = (clearTone states i).map (CharState.eraseRaw k) := by
  apply List.ext_getElem?
  intro j
  simp only [clearTone, List.getElem?_modify, List.getElem?_map]
  cases states[j]? with
  | none => simp
  | some s =>
    by_cases h : i = j
    · simp [h, CharState.eraseRaw]
    · simp [h]

/-- Clearing the tone of a vowel in two steps. -/
lemma clearTone_eq {states i} :
    ((states.modify i fun s => { s with tone := .none }).modify i
      fun s => { s with toneRawIdx := none }) = clearTone states i := by
  apply List.ext_getElem?
  intro j
  simp only [clearTone, List.getElem?_modify]
  cases states[j]? with
  | none => simp
  | some s =>
    by_cases h : i = j
    · simp [h]
    · simp [h]

/-- A tone without a key is cleared in one step. -/
lemma clearTone_of_keyless {states i} (hk : (charAt states i).toneRawIdx = none) :
    (states.modify i fun s => { s with tone := .none }) = clearTone states i := by
  apply List.ext_getElem?
  intro j
  simp only [clearTone, List.getElem?_modify]
  by_cases h : i = j
  · subst h
    simp only [charAt, List.getD_eq_getElem?_getD] at hk
    cases hs : states[i]? with
    | none => simp
    | some s =>
      rw [hs, Option.getD_some] at hk
      simp [← hk]
  · simp [h]

/-- The key of a cleared tone is no longer owned. -/
lemma owners_clearTone_subperm {states i k} (hi : i < states.length)
    (hk : (charAt states i).toneRawIdx = some k) :
    (k :: owners (clearTone states i)).Subperm (owners states) := by
  have hraw : (clearTone states i).map (·.rawIdx) = states.map (·.rawIdx) :=
    List.map_modify_of_forall fun _ => rfl
  have htone : (k :: (clearTone states i).filterMap (·.toneRawIdx)).Perm
      (states.filterMap (·.toneRawIdx)) := by
    have hget : states[i] = charAt states i := by simp [charAt, hi]
    have hsplit : states = states.take i ++ states[i] :: states.drop (i + 1) := by simp
    have hclear : clearTone states i = states.take i ++
        { states[i] with tone := .none, toneRawIdx := none } :: states.drop (i + 1) := by
      rw [clearTone, List.modify_eq_take_cons_drop hi]
    rw [hclear]
    conv_rhs => rw [hsplit]
    simp only [List.filterMap_append, List.filterMap_cons, hget, hk]
    exact List.perm_middle.symm
  rw [owners, owners, hraw]
  refine List.Perm.subperm ?_
  exact List.perm_middle.symm.trans (htone.append_left _)

/-- A state created by the last raw entry, without a tone. -/
def Fresh (raw : List Char) (s : CharState) : Prop :=
  s.tone = .none ∧ s.toneRawIdx = none ∧ s.rawIdx = raw.length - 1

/-- Put a tone and its key on a state. -/
def applyTone (states : List CharState) (i : Nat) (tone : Tone) (idx : Nat) : List CharState :=
  states.modify i fun s => { s with tone := tone, toneRawIdx := some idx }

/-- What happens in front of the literal a key may append: a rework, the removal of the last state, or
    the removal of a keystroke no state owns any more. -/
inductive Prep (raw : List Char) (states : List CharState) : List Char → List CharState → Prop where
  | rework {mid} :
    Reworks states mid →
    Prep raw states raw mid
  | drop :
    Prep raw states raw states.dropLast
  | erase {k mid} :
    Reworks states mid ∨ mid = states.dropLast →
    k < raw.length →
    (k :: owners mid).Subperm (owners states) →
    Prep raw states (raw.eraseIdx k) (mid.map (CharState.eraseRaw k))

/-- What one key does to the raw input, which ends with the key, and to the buffer. `tone?` is the tone
    the key applies and where, `strands` holds when the key moves a tone without its key. -/
inductive Effect [WideLocale] (tone? : Option (Nat × Tone)) (strands : Prop) (raw : List Char)
    (states : List CharState) : List Char → List CharState → Prop where
  | consumed {mid} :
    Reworks states mid →
    Effect tone? strands raw states raw mid
  | literal {raw' mid s} :
    Prep raw states raw' mid →
    Fresh raw' s →
    Effect tone? strands raw states raw' (mid ++ [s])
  | toned {i tone} :
    tone? = some (i, tone) →
    i < states.length →
    (charAt states i).tone ≠ tone →
    Effect tone? strands raw states raw (applyTone states i tone (raw.length - 1))
  | stranded {mid} :
    strands →
    SameStamps states mid →
    Effect tone? strands raw states raw (relocateToneToHornVowel mid)
  | rework {raw' mid states'} :
    Effect tone? strands raw states raw' mid →
    Reworks mid states' →
    Effect tone? strands raw states raw' states'

/-- The fields of the engine only the quick consonants and `Backspace` write. -/
def EngineState.SameSession (st st' : EngineState) : Prop :=
  st'.escRawHistory = st.escRawHistory ∧ st'.qc = st.qc ∧ st'.quickStartKey = st.quickStartKey

/-- A key that is not consumed changes the English bias at most. -/
def EngineState.OnlyBias (st st' : EngineState) : Prop := ∃ prot, st' = { st with engProt := prot }

/-- The effect of a handler on the engine. -/
structure EngineState.HasEffect [WideLocale] (tone? : Option (Nat × Tone)) (strands : Prop)
    (st st' : EngineState) : Prop where
  effect : Effect tone? strands st.rawInput st.states st'.rawInput st'.states
  session : st.SameSession st'

namespace EngineState

variable [WideLocale] {cfg : TypingConfig} {st st' : EngineState} {tone? : Option (Nat × Tone)}
  {strands : Prop}

/-- No effect is one. -/
lemma HasEffect.refl : st.HasEffect tone? strands st := ⟨.consumed .refl, rfl, rfl, rfl⟩

/-- A rework after the effect. -/
lemma HasEffect.rework (h : st.HasEffect tone? strands st') {st'' : EngineState}
    (hr : Reworks st'.states st''.states) (hraw : st''.rawInput = st'.rawInput)
    (hs : st'.SameSession st'') : st.HasEffect tone? strands st'' := by
  obtain ⟨he, h₁, h₂, h₃⟩ := h
  obtain ⟨h₁', h₂', h₃'⟩ := hs
  refine ⟨?_, h₁'.trans h₁, h₂'.trans h₂, h₃'.trans h₃⟩
  rw [hraw]
  exact .rework he hr

/-- A consumed key that reworks the buffer. -/
lemma HasEffect.reworked {states} (h : Reworks st.states states) :
    st.HasEffect tone? strands { st with states := states } :=
  ⟨.consumed h, rfl, rfl, rfl⟩

/-- A consumed key that rewrites letters or modifiers. -/
lemma HasEffect.marks {states} (h : SameStamps st.states states) :
    st.HasEffect tone? strands { st with states := states } := .reworked (.marks h)

/-- An escape: a rework, and the key as a literal. -/
lemma HasEffect.escape {states c kind} (h : Reworks st.states states) :
    st.HasEffect tone? strands ({ st with states := states }.escapeWith c kind) :=
  ⟨.literal (.rework h) ⟨rfl, rfl, rfl⟩, rfl, rfl, rfl⟩

/-- A state created by the key. -/
lemma HasEffect.append {s} (h : Fresh st.rawInput s) :
    st.HasEffect tone? strands { st with states := st.states ++ [s] } :=
  ⟨.literal (.rework .refl) h, rfl, rfl, rfl⟩

/-- The effect of a stroke. -/
lemma handleStrokeD_effect {c} (h : handleStrokeD cfg st c = some st') :
    st.HasEffect tone? strands st' := by
  unfold handleStrokeD at h
  split at h
  · cases h
  · split at h
    · cases h
    · split at h
      · cases h
        exact .marks sameStamps_setMod
      · split at h
        · cases h
        · split at h
          · cases h
          · cases h
            exact .escape (.marks sameStamps_setMod)
      · cases h

/-- The effect of taking back an inserted letter. -/
lemma undoInsert?_effect {c base mod kind} (h : undoInsert? st c base mod kind = some st') :
    st.HasEffect tone? strands st' := by
  unfold undoInsert? at h
  split at h
  · next last prev hlast hprev =>
    split at h
    · cases h
      by_cases hk : st.rawInput.length ≤ last.rawIdx
      · simp only [eraseConsumedRaw, hk, if_true]
        exact ⟨.literal .drop ⟨rfl, rfl, rfl⟩, rfl, rfl, rfl⟩
      · simp only [eraseConsumedRaw, hk, if_false]
        refine ⟨.literal (.erase (.inr rfl) (by omega) (owners_dropLast_subperm hlast)) ?_, rfl,
          rfl, rfl⟩
        exact ⟨rfl, rfl, rfl⟩
    · cases h
  · cases h

/-- The effect of a bracket. -/
lemma handleHornInsert_effect {action c} (h : handleHornInsert cfg st action c = some st') :
    st.HasEffect tone? strands st' := by
  simp only [handleHornInsert] at h
  split at h
  · cases h
  · split at h
    · next hu =>
      cases h
      exact undoInsert?_effect hu
    · cases h
      exact .append ⟨rfl, rfl, rfl⟩

/-- The effect of a vowel typed twice. -/
lemma adjacentCircumflex_effect {targetBase c}
    (h : adjacentCircumflex cfg st targetBase c = some st') : st.HasEffect tone? strands st' := by
  simp only [adjacentCircumflex] at h
  split at h
  · cases h
    exact .refl
  · split at h
    · cases h
      have hsame : SameStamps st.states (setMod st.states (st.states.length - 1) .none) :=
        sameStamps_setMod
      have he : st.HasEffect tone? strands
          ({ st with states := setMod st.states (st.states.length - 1) .none }.escapeWith c
            .circumflex) :=
        .escape (.marks hsame)
      split
      · exact he
      · exact ⟨he.effect, he.session⟩
    · split at h
      · split at h
        · cases h
        · cases h
          exact .reworked (.trans (.marks sameStamps_setMod) reworks_relocateToneToTarget)
      · split at h
        · cases h
        · cases h
          exact .marks sameStamps_setMod

omit [WideLocale] in
/-- Nothing has changed. -/
lemma OnlyBias.refl : st.OnlyBias st := ⟨st.engProt, rfl⟩

/-- A rule leaves a state with the property, or passes the key on with at most a change of bias. -/
def Passes (st : EngineState) (P : EngineState → Prop) (result : EngineState × Bool) : Prop :=
  if result.2 then P result.1 else st.OnlyBias result.1

/-- Consumed with an effect, or not consumed with at most a change of bias. -/
def Outcome (tone? : Option (Nat × Tone)) (strands : Prop) (st : EngineState)
    (result : EngineState × Bool) : Prop :=
  if result.2 then st.HasEffect tone? strands result.1 else st.OnlyBias result.1

/-- Either way. -/
lemma Outcome.ite {p : Prop} [Decidable p] {a b} (ha : Outcome tone? strands st a)
    (hb : Outcome tone? strands st b) : Outcome tone? strands st (if p then a else b) := by
  split
  · exact ha
  · exact hb

/-- A key that is consumed with an effect. -/
lemma Outcome.consumed (h : st.HasEffect tone? strands st') : Outcome tone? strands st (st', true) := h

/-- A key that is passed on. -/
lemma Outcome.passed : Outcome tone? strands st (st, false) := OnlyBias.refl

/-- The result of a handler that may decline the key. -/
lemma Outcome.of_option {result : Option EngineState} :
    (∀ st', result = some st' → st.HasEffect tone? strands st') →
      Outcome tone? strands st
        (match result with
          | some st' => (st', true)
          | none => (st, false)) := by
  intro h
  cases result with
  | none => exact .passed
  | some st' => exact .consumed (h st' rfl)

/-- What a circumflex further back comes to. -/
lemma freeCircumflex_outcome {targetBase c} :
    Outcome tone? strands st (freeCircumflex cfg st targetBase c) := by
  have applied : ∀ {i states}, SameStamps st.states states →
      Outcome tone? strands st
        ({ st with states := relocateToneToTarget cfg (setMod states i .circumflex) }, true) := by
    intro i states hs
    exact .consumed (.reworked (.trans (.marks (hs.trans sameStamps_setMod))
      reworks_relocateToneToTarget))
  have english : Outcome tone? strands st
      ({ st with engProt := { st.engProt with bias := .hardEnglish } }, false) := ⟨_, rfl⟩
  simp only [freeCircumflex]
  split
  · exact .passed
  · split
    · exact .consumed (.escape (.marks sameStamps_setMod))
    · exact .ite .passed (applied rfl)
    · refine .ite (.consumed (.reworked (.trans (.marks ?_) reworks_relocateToneToTarget))) .passed
      exact sameStamps_setMod.trans sameStamps_undoHornU
    · refine .ite (.ite (.ite .passed (applied rfl)) (.ite english (applied rfl))) ?_
      exact .ite (.ite (applied rfl) english) (.ite .passed (applied rfl))
    · exact .passed

/-- The doubled vowels. -/
lemma handleAdjacentCircumflex_outcome {action c} :
    Outcome tone? strands st (handleAdjacentCircumflex cfg st action c) := by
  simp only [handleAdjacentCircumflex]
  refine .ite .passed (.ite ?_ (.ite .passed (.ite freeCircumflex_outcome .passed)))
  split
  · next h => exact .consumed (adjacentCircumflex_effect h)
  · exact .passed

/-- An outcome of the `w` key is a horned buffer with the same stamps, or an effect. -/
def HornOutcome.Sound (tone? : Option (Nat × Tone)) (strands : Prop) (st : EngineState) :
    HornOutcome → Prop
  | .horned mid => SameStamps st.states mid
  | .done st' => st.HasEffect tone? strands st'

/-- The horns of a pair are sound. -/
lemma hornPair_sound {c u outcome} (h : hornPair st c u = some outcome) :
    outcome.Sound tone? strands st := by
  have hu : SameStamps st.states (setMod st.states u .horn) := sameStamps_setMod
  have hn : SameStamps st.states (setMod st.states u .none) := sameStamps_setMod
  simp only [hornPair] at h
  split at h
  · split at h <;> cases h
    · exact sameStamps_setMod
    · exact hu.trans sameStamps_setMod
  · split at h
    · cases h
      exact @sameStamps_setMod st.states _ _
    · split at h
      · cases h
        exact hu
      · split at h
        · cases h
          exact .escape (.marks (hn.trans sameStamps_setMod))
        · split at h
          · cases h
            exact .escape (.marks sameStamps_setMod)
          · cases h

/-- The effect of escaping a horn. -/
lemma hornEscape_effect {c scan} (h : hornEscape st c scan = some st') :
    st.HasEffect tone? strands st' := by
  simp only [hornEscape] at h
  split at h
  · next k hk =>
    split at h
    · next hlast =>
      cases h
      -- the synthetic `ư` is the last state, so erasing it drops the last state
      rw [hlast.2, List.eraseIdx_length_sub_one]
      exact ⟨.literal .drop ⟨rfl, rfl, rfl⟩, rfl, rfl, rfl⟩
    · cases h
      exact .escape (.marks (sameStamps_undoHornU.trans sameStamps_setMod))
  · split at h
    · cases h
      exact .escape (.marks sameStamps_setMod)
    · cases h

/-- The effect of a `w` that types `ư`. -/
lemma hornSynthetic_effect {c} (h : hornSynthetic cfg st c = some st') :
    st.HasEffect tone? strands st' := by
  simp only [hornSynthetic] at h
  split at h
  · cases h
  · split at h
    · cases h
    · cases h
      exact .append ⟨rfl, rfl, rfl⟩

/-- The horn of a single vowel is sound. -/
lemma hornStandalone_sound {c scan outcome} (h : hornStandalone cfg st c scan = some outcome) :
    outcome.Sound tone? strands st := by
  simp only [hornStandalone] at h
  split at h
  · split at h
    · cases h
    · cases h
      exact sameStamps_setMod.trans sameStamps_clearCircumflex
  · split at h
    · split at h
      · cases h
      · cases h
        exact @sameStamps_setMod st.states _ _
    · split at h
      · split at h
        · cases h
        · cases h
          exact HasEffect.marks sameStamps_setMod
      · obtain ⟨st', hst', rfl⟩ := Option.map_eq_some_iff.1 h
        exact hornSynthetic_effect hst'

/-- Whatever a `w` does is sound. -/
lemma hornOutcome_sound {c outcome} (h : hornOutcome cfg st c = some outcome) :
    outcome.Sound tone? strands st := by
  simp only [hornOutcome] at h
  split at h
  · cases h
  · split at h
    · cases h
      exact sameStamps_setMod.trans sameStamps_clearCircumflex
    · split at h
      · next outcome' hp =>
        cases h
        obtain ⟨u, -, hu⟩ := Option.bind_eq_some_iff.1 hp
        exact hornPair_sound hu
      · split at h
        · cases h
          exact HasEffect.marks sameStamps_setMod
        · split at h
          · next hesc =>
            cases h
            exact hornEscape_effect hesc
          · exact hornStandalone_sound h

/-- The `w` key moves a tone without its key. -/
def hornStrands (cfg : TypingConfig) (st : EngineState) (c : Char) : Bool :=
  match hornOutcome cfg st c with
  | some (.horned mid) => relocateToneToHornVowel mid != mid
  | _ => false

/-- The effect of a `w`, which may strand a tone. -/
lemma handleHornW_effect {c} (hs : hornStrands cfg st c = true → strands)
    (h : handleHornW cfg st c = some st') : st.HasEffect tone? strands st' := by
  unfold handleHornW at h
  split at h
  · next mid hmid =>
    cases h
    have hsame : SameStamps st.states mid := @hornOutcome_sound _ cfg st tone? strands _ _ hmid
    by_cases hr : relocateToneToHornVowel mid = mid
    · rw [hr]
      exact .marks hsame
    · have : strands := hs (by simp [hornStrands, hmid, hr])
      exact ⟨.stranded this hsame, rfl, rfl, rfl⟩
  · next hdone =>
    cases h
    exact hornOutcome_sound hdone
  · cases h

/-- The effect of a mark of VNI. -/
lemma vniApply_effect {mod key i} (h : vniApply cfg st mod key i = some st') :
    st.HasEffect tone? strands st' := by
  simp only [vniApply] at h
  split at h
  · split at h
    · cases h
    · cases h
      exact .reworked (.trans (.marks sameStamps_setMod) reworks_relocateToneToTarget)
  · split at h
    · cases h
    · cases h
      exact .marks sameStamps_setMod

/-- The VNI modifier keys. -/
lemma processVniVowelModifier_effect {mod key}
    (h : processVniVowelModifier cfg st mod key = some st') : st.HasEffect tone? strands st' := by
  simp only [processVniVowelModifier] at h
  split at h
  · exact vniApply_effect h
  · split at h
    · cases h
      exact .reworked (.trans (.marks (sameStamps_undoHornU.trans sameStamps_setMod))
        reworks_relocateToneToTarget)
    · split at h
      · cases h
        exact .escape (.marks (sameStamps_undoHornU.trans sameStamps_setMod))
      · cases h

/-- The effect of the horns of a pair in VNI. -/
lemma vniHornPair_effect {c u} (h : vniHornPair cfg st c u = some st') :
    st.HasEffect tone? strands st' := by
  have horned : ∀ {states}, SameStamps st.states states →
      st.HasEffect tone? strands { st with states := relocateToneToTarget cfg states } :=
    fun hs => .reworked (.trans (.marks hs) reworks_relocateToneToTarget)
  have hu : SameStamps st.states (setMod st.states u .horn) := sameStamps_setMod
  have hn : SameStamps st.states (setMod st.states u .none) := sameStamps_setMod
  simp only [vniHornPair] at h
  split at h
  · split at h <;> cases h
    · exact horned sameStamps_setMod
    · exact horned (hu.trans sameStamps_setMod)
  · split at h
    · cases h
      exact horned sameStamps_setMod
    · split at h
      · cases h
        exact horned hu
      · split at h
        · cases h
          exact .escape (.marks (hn.trans sameStamps_setMod))
        · cases h

/-- The effect of the horn of `uu` in VNI. -/
lemma vniHornUU_effect {c firstU lastU} (h : vniHornUU cfg st c firstU lastU = some st') :
    st.HasEffect tone? strands st' := by
  simp only [vniHornUU] at h
  split at h
  · cases h
  · split at h
    · cases h
      exact .reworked (.trans (.marks sameStamps_setMod) reworks_relocateToneToTarget)
    · split at h
      · cases h
        exact .escape (.marks sameStamps_setMod)
      · cases h

/-- The effect of the horn of VNI. -/
lemma handleVniHorn_effect {c} (h : handleVniHorn cfg st c = some st') :
    st.HasEffect tone? strands st' := by
  simp only [handleVniHorn] at h
  split at h
  · next hpair =>
    cases h
    split at hpair
    · split at hpair
      · exact vniHornPair_effect hpair
      · cases hpair
    · cases hpair
  · split at h
    · next huu =>
      cases h
      split at huu
      · exact vniHornUU_effect huu
      · cases huu
    · exact processVniVowelModifier_effect h

/-- The dispatch of the Telex and VNI modifier keys. -/
lemma processModifier_outcome {action c} (ha : action.isTelexModifier ∨ action.isVniModifier)
    (hs : action = .hornW → hornStrands cfg st c = true → strands) :
    Outcome tone? strands st (processModifier cfg st action c) := by
  cases action <;> simp only [TypingAction.isTelexModifier, TypingAction.isVniModifier,
    Bool.false_eq_true, or_self] at ha <;> simp only [processModifier]
  case hornW => exact .of_option fun _ h => handleHornW_effect (hs rfl) h
  case hornInsertO => exact .of_option fun _ h => handleHornInsert_effect h
  case hornInsertU => exact .of_option fun _ h => handleHornInsert_effect h
  case circumflexA => exact handleAdjacentCircumflex_outcome
  case circumflexE => exact handleAdjacentCircumflex_outcome
  case circumflexO => exact handleAdjacentCircumflex_outcome
  case strokeD => exact .of_option fun _ h => handleStrokeD_effect h
  case vniStroke => exact .of_option fun _ h => handleStrokeD_effect h
  case vniCircumflex => exact .of_option fun _ h => processVniVowelModifier_effect h
  case vniBreve => exact .of_option fun _ h => processVniVowelModifier_effect h
  case vniHorn => exact .of_option fun _ h => handleVniHorn_effect h

/-- An outcome after a change of bias. -/
lemma Outcome.of_bias {prot result}
    (h : Outcome tone? strands { st with engProt := prot } result) :
    Outcome tone? strands st result := by
  unfold Outcome at h ⊢
  split
  · next hc =>
    rw [if_pos hc] at h
    exact ⟨h.effect, h.session⟩
  · next hc =>
    rw [if_neg hc] at h
    obtain ⟨prot', h⟩ := h
    exact ⟨prot', h⟩

/-- What a mark that is tried comes to. -/
lemma tryModifier_outcome {action c lower checkRaw checkSpell}
    (ha : action.isTelexModifier ∨ action.isVniModifier)
    (hs : action = .hornW → modifierOpen cfg st action c lower checkRaw checkSpell = true →
      hornStrands cfg st c = true → strands) :
    Outcome tone? strands st (tryModifier cfg st action c lower checkRaw checkSpell) := by
  unfold tryModifier
  split
  · next hopen =>
    have ho : Outcome tone? strands st (processModifier cfg st action c) :=
      processModifier_outcome ha fun hw => hs hw hopen
    split
    · next st' heq =>
      rw [heq] at ho
      exact .consumed (HasEffect.rework ho reworks_applyAutoUO rfl ⟨rfl, rfl, rfl⟩)
    · next st' heq =>
      rw [heq] at ho
      exact ho
  · exact .passed

omit [WideLocale] in
/-- To mark a stroke as English changes only the protection. -/
lemma markStrokeEnglish_eq {action} :
    ∃ prot, markStrokeEnglish st action = { st with engProt := prot } := by
  unfold markStrokeEnglish
  split
  · split
    · split
      · exact ⟨_, rfl⟩
      · exact ⟨st.engProt, rfl⟩
    · exact ⟨st.engProt, rfl⟩
  · exact ⟨st.engProt, rfl⟩

omit [WideLocale] in
/-- A `w` marks no stroke. -/
lemma markStrokeEnglish_hornW : markStrokeEnglish st .hornW = st := by
  simp [markStrokeEnglish]

/-- A `w` that passes its gates moves a tone without its key. -/
def movesToneAlone (cfg : TypingConfig) (st : EngineState) (action : TypingAction)
    (c lower : Char) : Bool :=
  action == .hornW && modifierOpen cfg st action c lower true true && hornStrands cfg st c

/-- The modifier rule outside the user-defined input method. -/
lemma handleModifierAction_outcome {action c lower} (hm : cfg.inputMethod ≠ .userDefined)
    (hs : movesToneAlone cfg st action c lower = true → strands) :
    Outcome tone? strands st (handleModifierAction cfg st action c lower) := by
  have marked : ∀ {checkRaw}, (action = .hornW → checkRaw = true) →
      (action.isTelexModifier ∨ action.isVniModifier) →
      Outcome tone? strands st
        (tryModifier cfg (markStrokeEnglish st action) action c lower checkRaw true) := by
    intro checkRaw hraw ha
    obtain ⟨prot, hprot⟩ : ∃ prot, markStrokeEnglish st action = { st with engProt := prot } :=
      markStrokeEnglish_eq
    rw [hprot]
    refine .of_bias (tryModifier_outcome ha fun hw hopen hst => hs ?_)
    rw [← hprot] at hopen hst
    subst hw
    rw [markStrokeEnglish_hornW, hraw rfl] at hopen
    rw [markStrokeEnglish_hornW] at hst
    simp [movesToneAlone, hopen, hst]
  have hud : (cfg.inputMethod == .userDefined) = false := by simpa using hm
  simp only [handleModifierAction, hud, Bool.false_eq_true, or_false, false_and, if_false]
  split
  · next h => exact marked (fun _ => rfl) (.inl h.2)
  · split
    · next h =>
      refine marked (fun hw => ?_) (.inr h.2)
      simp [hw, TypingAction.isVniModifier] at h
    · exact .passed

/-- The tone a key applies and the vowel it goes to, once the gates let it through. -/
def appliedTone (cfg : TypingConfig) (st : EngineState) (action : TypingAction)
    (keyChar lower : Char) : Option (Nat × Tone) :=
  if st.states = [] ∨ st.escape ≠ .none ∨ action.toTone = .none ∨
      (toneGates cfg st action.toTone keyChar lower).2 then none
  else (findToneTarget cfg.modernOrtho st.states).map fun i => (i, action.toTone)

/-- The effect of clearing the tone. -/
lemma processClearTone_effect (h : processClearTone cfg st = some st') :
    st.HasEffect tone? strands st' := by
  unfold processClearTone at h
  split at h
  · cases h
  · next i hi =>
    split at h
    · cases h
    · cases h
      exact .reworked (.clear (findToneTarget_eq_some hi).1)

omit [WideLocale] in
/-- Cancelling a tone clears it, and erases its key when the raw input still has it. -/
lemma cancelTone_prep {i} (hi : i < st.states.length) :
    Prep st.rawInput st.states (st.cancelTone i).rawInput (st.cancelTone i).states := by
  cases hk : (charAt st.states i).toneRawIdx with
  | none =>
    simp only [cancelTone, hk, clearTone_of_keyless hk]
    exact .rework (.clear hi)
  | some k =>
    by_cases hlt : st.rawInput.length ≤ k
    · simp only [cancelTone, hk, eraseConsumedRaw, hlt, if_true, clearTone_eq]
      exact .rework (.clear hi)
    · simp only [cancelTone, hk, eraseConsumedRaw, hlt, if_false, clearTone_eraseRaw]
      exact .erase (.inl (.clear hi)) (by omega) (owners_clearTone_subperm hi hk)

omit [WideLocale] in
/-- To cancel a tone stays in the session. -/
lemma cancelTone_session {i} : st.SameSession (st.cancelTone i) := by
  unfold cancelTone
  split
  · simp only [eraseConsumedRaw]
    split <;> exact ⟨rfl, rfl, rfl⟩
  · exact ⟨rfl, rfl, rfl⟩

/-- A tone is applied, or escaped with its keystroke erased. -/
lemma processTone_effect {tone keyChar} (h : processTone cfg st tone keyChar = some st')
    (ht : ∀ i, findToneTarget cfg.modernOrtho st.states = some i → tone? = some (i, tone)) :
    st.HasEffect tone? strands st' := by
  unfold processTone at h
  split at h
  · cases h
  · next i hi =>
    obtain ⟨hlt, -⟩ := findToneTarget_eq_some hi
    split at h
    · cases h
      exact ⟨.literal (cancelTone_prep hlt) ⟨rfl, rfl, rfl⟩, cancelTone_session⟩
    · next hne =>
      cases h
      exact ⟨.toned (ht i hi) hlt hne, rfl, rfl, rfl⟩

/-- A refused tone key is a literal. -/
lemma asLiteral_effect {lower isUpper} :
    st.HasEffect tone? strands (asLiteral cfg st lower isUpper) :=
  HasEffect.append ⟨rfl, rfl, rfl⟩ |>.rework .refl rfl ⟨rfl, rfl, rfl⟩

/-- What follows a tone keeps its effect. -/
lemma afterTone_effect (h : st.HasEffect tone? strands st') :
    st.HasEffect tone? strands (afterTone cfg st') := by
  unfold afterTone
  split
  · exact h.rework reworks_applyAutoUO rfl ⟨rfl, rfl, rfl⟩
  · exact h.rework reworks_applyAutoUO rfl ⟨rfl, rfl, rfl⟩

/-- The tone rule. -/
lemma handleToneFsm_outcome {action keyChar lower isUpper} (hesc : st.escape = .none)
    (ht : ∀ a, appliedTone cfg st action keyChar lower = some a → tone? = some a) :
    Outcome tone? strands st (handleToneFsm cfg st action keyChar lower isUpper) := by
  unfold handleToneFsm
  by_cases hempty : st.states = []
  · rw [if_pos hempty]
    exact .passed
  rw [if_neg hempty]
  by_cases hclear : action = .clearTone
  · rw [if_pos hclear]
    refine .ite (.consumed ?_) ?_
    · exact HasEffect.append ⟨rfl, rfl, rfl⟩ |>.rework .refl rfl ⟨rfl, rfl, rfl⟩
    · split
      · next h => exact .consumed ((processClearTone_effect h).rework .refl rfl ⟨rfl, rfl, rfl⟩)
      · exact .passed
  rw [if_neg hclear]
  by_cases htone : action.toTone = .none
  · rw [if_pos htone]
    exact .passed
  rw [if_neg htone]
  cases hg : toneGates cfg st action.toTone keyChar lower with
  | mk prot literal =>
    cases literal with
    | true => exact .of_bias (.consumed asLiteral_effect)
    | false =>
      refine @Outcome.of_bias _ st tone? strands prot _ ?_
      have happlied : ∀ i, findToneTarget cfg.modernOrtho st.states = some i →
          tone? = some (i, action.toTone) := by
        intro i hi
        apply ht
        simp [appliedTone, hempty, hesc, htone, hg, hi]
      simp only [Bool.false_eq_true, if_false]
      split
      · next h => exact .consumed (afterTone_effect (processTone_effect h happlied))
      · exact .passed

/-- A `w` that is taken back keeps the effect. -/
lemma revertSyntheticW_effect (h : st.HasEffect tone? strands st') :
    st.HasEffect tone? strands (revertSyntheticW cfg st') := by
  simp only [revertSyntheticW]
  split
  · refine h.rework (.marks ?_) rfl ⟨rfl, rfl, rfl⟩
    have hstamp : ∀ s : CharState,
        CharState.stamp { s with base := 'w', mod := .none, synthetic := false } = s.stamp :=
      fun _ => rfl
    exact SameStamps.modify hstamp
  · exact h

/-- Relocation, automatic `ươ` and the reverted `ư` after a regular character are reworks. -/
lemma finalizeRegularChar_effect (h : st.HasEffect tone? strands st') :
    st.HasEffect tone? strands (finalizeRegularChar cfg st') := by
  simp only [finalizeRegularChar]
  have hr : Reworks st'.states (applyAutoUO cfg (relocateToneToTarget cfg st'.states)) :=
    .trans reworks_relocateToneToTarget reworks_applyAutoUO
  have h₀ : st.HasEffect tone? strands { st' with
      states := applyAutoUO cfg (relocateToneToTarget cfg st'.states)
      spellCheckDisabled := updateSpellCheck (applyAutoUO cfg (relocateToneToTarget cfg st'.states)) cfg
      engProt := checkEnglishBias
        (applyAutoUO cfg (relocateToneToTarget cfg st'.states)) st'.engProt } :=
    h.rework hr rfl ⟨rfl, rfl, rfl⟩
  have h₁ := @revertSyntheticW_effect _ cfg _ _ _ _ h₀
  split
  · exact h₁.rework .refl rfl ⟨rfl, rfl, rfl⟩
  · exact h₁

/-- What `dispatch` does with a key that neither a tone nor a modifier consumes. -/
def appendRegular (cfg : TypingConfig) (st : EngineState) (lower : Char) (isUpper : Bool) :
    EngineState :=
  match handleQuickEndConsonant cfg st lower with
  | some st' => st'
  | none => (st.processChar lower isUpper).finalizeRegularChar cfg

/-- A regular character without quick consonants. -/
lemma appendRegular_off {lower isUpper} (hq : cfg.quickEndConsonant = false) :
    appendRegular cfg st lower isUpper = (st.processChar lower isUpper).finalizeRegularChar cfg := by
  have hnone : handleQuickEndConsonant cfg st lower = none := by
    simp only [handleQuickEndConsonant, hq, Bool.false_eq_true, false_and, if_false]
    split <;> rfl
  rw [appendRegular, hnone]

/-- What `dispatch` does with a key that no tone consumes. -/
def dispatchModifier (cfg : TypingConfig) (st : EngineState) (action : TypingAction)
    (c lower : Char) (isUpper : Bool) : EngineState :=
  if (handleModifierAction cfg st action c lower).2 then (handleModifierAction cfg st action c lower).1
  else appendRegular cfg (handleModifierAction cfg st action c lower).1 lower isUpper

/-- The rules after the classification, in turn. -/
lemma dispatch_eq {action c lower isUpper} : dispatch cfg st action c lower isUpper =
    if st.escape = .none ∧ action.isTone then
      if (handleToneFsm cfg st action c lower isUpper).2 then
        (handleToneFsm cfg st action c lower isUpper).1
      else dispatchModifier cfg (handleToneFsm cfg st action c lower isUpper).1 action c lower isUpper
    else dispatchModifier cfg st action c lower isUpper := by
  unfold dispatch
  by_cases htone : st.escape = .none ∧ action.isTone
  · rw [if_pos htone, if_pos htone]
    rfl
  · rw [if_neg htone, if_neg htone]
    rfl

/-- A rule that passes the key on may have changed the bias. -/
lemma dispatch_rule {P : EngineState → Prop} {action c lower isUpper}
    (toned : st.escape = .none → action.isTone →
      st.Passes P (handleToneFsm cfg st action c lower isUpper))
    (modified : ∀ {prot}, action.isTone ∨ prot = st.engProt →
      Passes { st with engProt := prot } P
        (handleModifierAction cfg { st with engProt := prot } action c lower))
    (regular : ∀ {prot}, P (appendRegular cfg { st with engProt := prot } lower isUpper)) :
    P (dispatch cfg st action c lower isUpper) := by
  have rest : ∀ {prot}, action.isTone ∨ prot = st.engProt →
      P (dispatchModifier cfg { st with engProt := prot } action c lower isUpper) := by
    intro prot hprot
    have hm := @modified prot hprot
    unfold Passes at hm
    unfold dispatchModifier
    split
    · next hconsumed =>
      rw [if_pos hconsumed] at hm
      exact hm
    · next hpassed =>
      rw [if_neg hpassed] at hm
      obtain ⟨prot', hst⟩ := hm
      rw [hst]
      exact regular
  rw [dispatch_eq]
  split
  · next htone =>
    have ht := toned htone.1 htone.2
    unfold Passes at ht
    split
    · next hconsumed =>
      rw [if_pos hconsumed] at ht
      exact ht
    · next hpassed =>
      rw [if_neg hpassed] at ht
      obtain ⟨prot, hst⟩ := ht
      rw [hst]
      exact rest (.inl htone.2)
  · exact @rest st.engProt (.inr rfl)

/-- The rules after the classification, outside the user-defined input method and without quick end
    consonants. -/
lemma dispatch_effect {action c lower isUpper} (hm : cfg.inputMethod ≠ .userDefined)
    (hq : cfg.quickEndConsonant = false)
    (ht : ∀ a, appliedTone cfg st action c lower = some a → tone? = some a)
    (hs : movesToneAlone cfg st action c lower = true → strands) :
    st.HasEffect tone? strands (dispatch cfg st action c lower isUpper) := by
  refine dispatch_rule (fun hescape _ => handleToneFsm_outcome hescape ht) (fun hprot => ?_) ?_
  · refine Outcome.of_bias (handleModifierAction_outcome hm fun hw => hs ?_)
    obtain htone | rfl := hprot
    · -- a tone key is not the `w` key
      have : action = .hornW := by
        simp only [movesToneAlone, Bool.and_eq_true, beq_iff_eq] at hw
        exact hw.1.1
      simp [this, TypingAction.isTone] at htone
    · exact hw
  · -- a key that no rule consumes: the bias may have changed, and the key is appended
    intro prot
    rw [appendRegular_off hq]
    refine finalizeRegularChar_effect ⟨?_, rfl, rfl, rfl⟩
    exact .literal (.rework .refl) ⟨rfl, rfl, rfl⟩

/-- No quick consonant is pending. -/
def Plain (st : EngineState) : Prop := st.qc = {} ∧ st.quickStartKey = none

/-- The tone `PushChar` is about to apply, and where. -/
def toneOfKey (cfg : TypingConfig) (st : EngineState) (c : Char) : Option (Nat × Tone) :=
  let st := st.press c
  appliedTone cfg st (classify cfg st c (towlower c)) c (towlower c)

/-- `PushChar` is about to move a tone without its key. -/
def keyMovesToneAlone (cfg : TypingConfig) (st : EngineState) (c : Char) : Bool :=
  let st := st.press c
  movesToneAlone cfg st (classify cfg st c (towlower c)) c (towlower c)

/-- Without quick consonants the first rule lets every key pass. -/
lemma handleQuickStartConsonant_off {c lower isUpper} (hq : cfg.QuickOff) (hp : st.Plain) :
    handleQuickStartConsonant cfg st c lower isUpper = (st, false) := by
  obtain ⟨hqc, hkey⟩ := hp
  have hundo : st.undoQuickStart c = st := by simp [undoQuickStart, hkey]
  have hst : ({ st with qc := {} } : EngineState) = st := by rw [← hqc]
  simp [handleQuickStartConsonant, hq.start, hq.consonant, hundo, hqc, hst]

/-- Without quick consonants a key is recorded, classified and dispatched. -/
lemma pushChar_off {c} (hq : cfg.QuickOff) (hp : st.Plain) :
    st.pushChar cfg c = dispatch cfg (st.press c) (classify cfg (st.press c) c (towlower c)) c
      (towlower c) (iswupper c) := by
  have hp' : (st.press c).Plain := ⟨by simp [press, hp.1], hp.2⟩
  simp [pushChar, handleQuickStartConsonant_off hq hp']

/-- Everything a key can do, outside the user-defined input method and without quick consonants. -/
theorem pushChar_effect {c} (hq : cfg.QuickOff) (hm : cfg.inputMethod ≠ .userDefined)
    (hp : st.Plain) :
    (st.press c).HasEffect (toneOfKey cfg st c) (keyMovesToneAlone cfg st c) (st.pushChar cfg c) := by
  rw [pushChar_off hq hp]
  exact dispatch_effect hm hq.endConsonant (fun _ h => h) fun h => h

/-- A key leaves no quick consonant pending. -/
lemma Plain.pushChar {c} (hq : cfg.QuickOff) (hm : cfg.inputMethod ≠ .userDefined) (hp : st.Plain) :
    (st.pushChar cfg c).Plain := by
  obtain ⟨-, -, hqc, hkey⟩ := pushChar_effect (c := c) hq hm hp
  exact ⟨hqc.trans (by simp [press, hp.1]), hkey.trans hp.2⟩

/-- Without quick consonants `Backspace` only removes the last state. -/
lemma Plain.backspace_eq (hp : st.Plain) (hne : st.states ≠ []) :
    st.backspace cfg = popChar cfg { st with escape := .none } := by
  obtain ⟨hqc, hkey⟩ := hp
  simp [EngineState.backspace, hne, hkey, hqc]

/-- Backspace keeps the state plain. -/
lemma Plain.backspace (hp : st.Plain) : (st.backspace cfg).Plain := by
  by_cases hne : st.states = []
  · simp only [EngineState.backspace, hne, if_true]
    exact hp
  · rw [hp.backspace_eq hne]
    exact ⟨by simp [popChar, recalcBias, updateSpellState, hp.1, QuickConsonantState.clearActive], hp.2⟩

end EngineState

end NextKey
