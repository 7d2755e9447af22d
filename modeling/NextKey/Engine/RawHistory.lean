import NextKey.Engine.Emptied

/-!
# The raw history behind the letters

`PeekRaw` is the keystrokes that an `Esc` puts back. `PushChar` records its key, and `Backspace` drops
one keystroke for the letter it removes, whatever number of keys made that letter. So the history is that
of the letters that are left just as long as every letter is removed right behind the key that created it.
-/

namespace NextKey

namespace EngineState

variable {st st' : EngineState} {c : Char} [WideLocale] {cfg : TypingConfig}

/-- A rule appends one state at most, and records no keystroke. -/
def Extends (st st' : EngineState) : Prop :=
  st.SameSession st' ∧ st'.states.length ≤ st.states.length + 1

omit [WideLocale] in
/-- The preparation adds no letter. -/
lemma Prep.length_le {raw states raw' mid} (h : Prep raw states raw' mid) :
    mid.length ≤ states.length := by
  cases h with
  | rework h => exact h.length_eq.le
  | drop => simp
  | erase h =>
    rw [List.length_map]
    rcases h with h | rfl
    · exact h.length_eq.le
    · simp

/-- An effect adds one letter at most. -/
lemma Effect.length_le {tone? strands raw states raw' states'}
    (h : Effect tone? strands raw states raw' states') : states'.length ≤ states.length + 1 := by
  induction h with
  | consumed h =>
    rw [h.length_eq]
    exact Nat.le_succ _
  | literal h =>
    rw [List.length_append, List.length_singleton]
    exact Nat.succ_le_succ (Prep.length_le h)
  | toned =>
    rw [applyTone, List.length_modify]
    exact Nat.le_succ _
  | stranded _ h =>
    have hlen := congrArg List.length h
    rw [List.length_map, List.length_map] at hlen
    rw [length_relocateToneToHornVowel, hlen]
    exact Nat.le_succ _
  | rework _ h ih => rwa [h.length_eq]

/-- An effect extends the history. -/
lemma HasEffect.extends {tone? strands} (h : st.HasEffect tone? strands st') : st.Extends st' :=
  ⟨h.session, Effect.length_le h.effect⟩

/-- So does what comes of a key. -/
lemma Outcome.extends {tone? strands result} (h : Outcome tone? strands st result) :
    st.Passes st.Extends result := by
  unfold Outcome at h
  unfold Passes
  split
  · next hc =>
    rw [if_pos hc] at h
    exact h.extends
  · next hc =>
    rw [if_neg hc] at h
    exact h

omit [WideLocale] in
/-- The result of a handler that may decline the key. -/
lemma Passes.of_option {P : EngineState → Prop} {result : Option EngineState} :
    (∀ st', result = some st' → P st') →
      st.Passes P
        (match result with
          | some st' => (st', true)
          | none => (st, false)) := by
  intro h
  cases result with
  | none => exact OnlyBias.refl
  | some st' => exact h st' rfl

/-- So does an inserted glyph. -/
lemma handleInsertChar_extends {action} (h : handleInsertChar st action c = some st') :
    st.Extends st' := by
  unfold handleInsertChar at h
  split at h
  · cases h
  · split at h
    · next hundo =>
      cases h
      have heffect : st.HasEffect none False st' := undoInsert?_effect hundo
      exact heffect.extends
    · cases h
      exact ⟨⟨rfl, rfl, rfl⟩, List.length_append.le⟩

omit [WideLocale] in
/-- So do all marks taken off. -/
lemma handleUndoAllMarks_extends (h : handleUndoAllMarks st = some st') : st.Extends st' := by
  unfold handleUndoAllMarks at h
  split at h
  · cases h
    refine ⟨⟨rfl, rfl, rfl⟩, ?_⟩
    rw [List.length_map]
    exact Nat.le_succ _
  · cases h

/-- So does a horn or an inserted `ư`. -/
lemma handleHornOrInsertU_extends {action} (h : handleHornOrInsertU cfg st action c = some st') :
    st.Extends st' := by
  unfold handleHornOrInsertU at h
  split at h
  · cases h
  · split at h
    · next hhorn =>
      cases h
      have heffect : st.HasEffect none True st' := handleHornW_effect (fun _ => trivial) hhorn
      exact heffect.extends
    · split at h
      · next inserted hinsert =>
        have heffect : st.HasEffect none False inserted := handleHornInsert_effect hinsert
        obtain ⟨hsession, hlen⟩ := heffect.extends
        split at h
        · cases h
          refine ⟨hsession, ?_⟩
          rwa [List.length_modify]
        · cases h
          exact ⟨hsession, hlen⟩
      · cases h

/-- Every modifier key, the user-defined ones included. -/
lemma processModifier_extends {action} : st.Passes st.Extends (processModifier cfg st action c) := by
  have marks : action.isTelexModifier ∨ action.isVniModifier →
      st.Passes st.Extends (processModifier cfg st action c) := by
    intro ha
    have houtcome : Outcome none True st (processModifier cfg st action c) :=
      processModifier_outcome ha fun _ _ => trivial
    exact Outcome.extends houtcome
  have insert : ∀ st', handleInsertChar st action c = some st' → st.Extends st' :=
    fun _ h => handleInsertChar_extends h
  cases action
  case hornOrInsertU => exact Passes.of_option fun _ h => handleHornOrInsertU_extends h
  case hornOrInsertUNoStart => exact Passes.of_option fun _ h => handleHornOrInsertU_extends h
  case undoAllMarks => exact Passes.of_option fun _ h => handleUndoAllMarks_extends h
  all_goals first
    | exact marks (by decide)
    | exact Passes.of_option insert

omit [WideLocale] in
/-- A rule that finds the bias changed. -/
lemma Passes.of_bias {prot result} (h : Passes { st with engProt := prot } st.Extends result) :
    st.Passes st.Extends result := by
  unfold Passes at h ⊢
  split
  · next hc => rwa [if_pos hc] at h
  · next hc =>
    rw [if_neg hc] at h
    obtain ⟨prot', h⟩ := h
    exact ⟨prot', h⟩

/-- So does a mark that is tried. -/
lemma tryModifier_extends {action lower checkRaw checkSpell} :
    st.Passes st.Extends (tryModifier cfg st action c lower checkRaw checkSpell) := by
  unfold tryModifier
  split
  · have h : st.Passes st.Extends (processModifier cfg st action c) := processModifier_extends
    split
    · next heq =>
      rw [heq] at h
      obtain ⟨hsession, hlen⟩ : st.Extends _ := h
      refine ⟨hsession, ?_⟩
      show (applyAutoUO cfg _).length ≤ _
      rwa [reworks_applyAutoUO.length_eq]
    · next heq =>
      rw [heq] at h
      exact h
  · exact OnlyBias.refl

/-- So does a key with a mark. -/
lemma handleModifierAction_extends {action lower} :
    st.Passes st.Extends (handleModifierAction cfg st action c lower) := by
  have marked : ∀ {checkRaw}, st.Passes st.Extends
      (tryModifier cfg (markStrokeEnglish st action) action c lower checkRaw true) := by
    intro checkRaw
    obtain ⟨prot, hprot⟩ : ∃ prot, markStrokeEnglish st action = { st with engProt := prot } :=
      markStrokeEnglish_eq
    rw [hprot]
    exact Passes.of_bias tryModifier_extends
  simp only [handleModifierAction]
  split
  · exact marked
  · split
    · exact marked
    · split
      · exact tryModifier_extends
      · exact OnlyBias.refl

/-- A key without quick consonants is recorded, and appends one state at most. -/
lemma pushChar_extends (hq : cfg.QuickOff) (hp : st.Plain) :
    (st.press c).Extends (st.pushChar cfg c) := by
  rw [pushChar_off hq hp]
  refine dispatch_rule (fun hescape _ => ?_) (fun _ => ?_) ?_
  · have houtcome : Outcome _ False (st.press c) (handleToneFsm cfg (st.press c)
        (classify cfg (st.press c) c (towlower c)) c (towlower c) (iswupper c)) :=
      handleToneFsm_outcome hescape fun _ h => h
    exact Outcome.extends houtcome
  · exact handleModifierAction_extends
  · intro prot
    rw [appendRegular_off hq.endConsonant]
    have heffect : (st.press c).HasEffect none False ((({ st.press c with engProt := prot } :
        EngineState).processChar (towlower c) (iswupper c)).finalizeRegularChar cfg) :=
      finalizeRegularChar_effect ⟨.literal (.rework .refl) ⟨rfl, rfl, rfl⟩, rfl, rfl, rfl⟩
    exact heffect.extends

/-- A key leaves no quick consonant pending, the user-defined keys included. -/
lemma Plain.extends (hq : cfg.QuickOff) (hp : st.Plain) : (st.pushChar cfg c).Plain := by
  obtain ⟨⟨-, hqc, hkey⟩, -⟩ := @pushChar_extends st c _ cfg hq hp
  refine ⟨hqc.trans ?_, hkey.trans hp.2⟩
  show { st.qc with onlyQC := false } = _
  rw [hp.1]

/-- `PushChar` records its key, and `Backspace` drops the newest keystroke, or all of them with the last
    letter. -/
def DropsOne (cfg : TypingConfig) (st : EngineState) : Prop :=
  (∀ c, (st.pushChar cfg c).peekRaw = st.peekRaw ++ [c]) ∧
    (st.backspace cfg).peekRaw = if st.states.length ≤ 1 then [] else st.peekRaw.dropLast

/-- No quick consonant is pending, and an empty buffer has no history. -/
structure Recorded (st : EngineState) : Prop where
  plain : st.Plain
  empty : st.states = [] → st.peekRaw = []

omit [WideLocale] in
/-- A fresh engine has no history. -/
lemma Recorded.init : Recorded {} := ⟨⟨rfl, rfl⟩, fun _ => rfl⟩

/-- A key is added to the history. -/
lemma peekRaw_pushChar (hq : cfg.QuickOff) (hp : st.Plain) :
    (st.pushChar cfg c).peekRaw = st.peekRaw ++ [c] := (pushChar_extends hq hp).1.1

/-- The letter that `Backspace` removes, and the keystroke that goes with it. -/
lemma Plain.popped (hp : st.Plain) (hne : st.states ≠ []) :
    (st.backspace cfg).states = st.states.dropLast ∧
      (st.backspace cfg).peekRaw = if st.states.dropLast = [] then [] else st.peekRaw.dropLast := by
  rw [hp.backspace_eq hne]
  exact ⟨rfl, rfl⟩

/-- Backspace on nothing does nothing. -/
lemma backspace_empty (h : st.states = []) : st.backspace cfg = st := by
  unfold EngineState.backspace
  exact if_pos h

omit [WideLocale] in
/-- What is empty without its last had one at most. -/
lemma dropLast_eq_nil {states : List CharState} : states.dropLast = [] ↔ states.length ≤ 1 := by
  rw [← List.length_eq_zero_iff, List.length_dropLast]
  omega

/-- Backspace takes one letter off. -/
lemma Recorded.dropsOne (hq : cfg.QuickOff) (h : st.Recorded) : st.DropsOne cfg := by
  refine ⟨fun c => peekRaw_pushChar hq h.plain, ?_⟩
  by_cases hnil : st.states = []
  · rw [backspace_empty hnil, hnil, h.empty hnil]
    rfl
  · rw [(h.plain.popped hnil).2]
    simp only [dropLast_eq_nil]

/-- Every event is recorded. -/
lemma Recorded.step {event : EngineEvent} (hq : cfg.QuickOff) (h : st.Recorded) :
    (st.step cfg event).Recorded := by
  cases event with
  | push c => exact ⟨h.plain.extends hq, fun hnil => absurd hnil pushChar_ne_nil⟩
  | back =>
    refine ⟨h.plain.backspace, fun hempty => ?_⟩
    show (st.backspace cfg).peekRaw = []
    by_cases hnil : st.states = []
    · rw [backspace_empty hnil]
      exact h.empty hnil
    · obtain ⟨hstates, hraw⟩ := @Plain.popped st _ cfg h.plain hnil
      rw [hraw, if_pos (hstates.symm.trans hempty)]

end EngineState

/-- An engine with the keys that survive, and for each state the position of the key that created it. -/
structure KeyHistory where
  engine : EngineState := {}
  keys : List Char := []
  born : List Nat := []

namespace KeyHistory

variable [WideLocale] {cfg : TypingConfig} {h : KeyHistory}

/-- `PushChar`: the key survives, and it created the state by which the buffer grows. -/
def push (cfg : TypingConfig) (h : KeyHistory) (c : Char) : KeyHistory :=
  let engine := h.engine.pushChar cfg c
  { engine := engine
    keys := h.keys ++ [c]
    born := (h.born ++ [h.keys.length]).take engine.states.length }

/-- `Backspace`: the keys before the one that created the removed state survive. -/
def back (cfg : TypingConfig) (h : KeyHistory) : KeyHistory :=
  let engine := h.engine.backspace cfg
  match h.born.getLast? with
  | some p => { engine := engine, keys := h.keys.take p, born := h.born.dropLast }
  | none => { h with engine := engine }

/-- One call. -/
def step (cfg : TypingConfig) (h : KeyHistory) : EngineEvent → KeyHistory
  | .push c => h.push cfg c
  | .back => h.back cfg

/-- A run of calls. -/
abbrev run (cfg : TypingConfig) : KeyHistory → List EngineEvent → KeyHistory := Machine.run (step cfg)

/-- `PeekRaw` is the surviving keys. -/
def Follows (h : KeyHistory) : Prop := h.engine.peekRaw = h.keys

omit [WideLocale] in
instance Follows.decidable : Decidable h.Follows := inferInstanceAs (Decidable (_ = _))

omit [WideLocale] in
/-- A removed letter is the only one, or the newest surviving key created it. -/
def PopsNewest (h : KeyHistory) : EngineEvent → Prop
  | .push _ => True
  | .back => h.engine.states.length ≤ 1 ∨ h.born.getLast? = some (h.keys.length - 1)

instance PopsNewest.decidable : ∀ event, Decidable (h.PopsNewest event)
  | .push _ => inferInstanceAs (Decidable True)
  | .back => inferInstanceAs (Decidable (_ ∨ _))

/-- `PeekRaw` is the surviving keys, and every state has the key that created it: the first state the
    first key, and later states later keys. -/
structure Aligned (h : KeyHistory) : Prop where
  recorded : h.engine.Recorded
  follows : h.Follows
  length : h.born.length = h.engine.states.length
  sorted : h.born.Pairwise (· < ·)
  bound : ∀ p ∈ h.born, p < h.keys.length
  first : h.born = [] ∧ h.keys = [] ∨ h.born.head? = some 0

omit [WideLocale] in
/-- A fresh history is aligned. -/
lemma Aligned.init : Aligned {} :=
  ⟨.init, rfl, rfl, .nil, fun _ hp => absurd hp List.not_mem_nil, .inl ⟨rfl, rfl⟩⟩

/-- A key keeps the history aligned. -/
lemma Aligned.push {c : Char} (hq : cfg.QuickOff) (ha : h.Aligned) : (h.push cfg c).Aligned := by
  obtain ⟨hrecorded, hfollows, hlength, hsorted, hbound, hfirst⟩ := ha
  have hpos : 0 < (h.engine.pushChar cfg c).states.length :=
    List.length_pos_iff.2 EngineState.pushChar_ne_nil
  have hle : (h.engine.pushChar cfg c).states.length ≤ h.born.length + 1 := by
    rw [hlength]
    exact (EngineState.pushChar_extends hq hrecorded.plain).2
  refine ⟨@hrecorded.step _ _ cfg (.push c) hq, ?_, ?_, ?_, ?_, .inr ?_⟩
  · show (h.engine.pushChar cfg c).peekRaw = h.keys ++ [c]
    rw [EngineState.peekRaw_pushChar hq hrecorded.plain, hfollows]
  · show ((h.born ++ [h.keys.length]).take _).length = _
    rw [List.length_take, List.length_append]
    exact min_eq_left hle
  · refine List.Pairwise.sublist (List.take_sublist _ _) (List.pairwise_append.2 ⟨hsorted, ?_, ?_⟩)
    · exact List.pairwise_singleton _ _
    · intro p hp q hmem
      rw [List.mem_singleton.1 hmem]
      exact hbound p hp
  · intro p hp
    show p < (h.keys ++ [c]).length
    rw [List.length_append, List.length_singleton]
    rcases List.mem_append.1 (List.mem_of_mem_take hp) with hmem | hmem
    · exact (hbound p hmem).trans (Nat.lt_succ_self _)
    · rw [List.mem_singleton.1 hmem]
      exact Nat.lt_succ_self _
  · show ((h.born ++ [h.keys.length]).take _).head? = some 0
    rw [List.head?_take, if_neg hpos.ne', List.head?_append]
    rcases hfirst with ⟨hborn, hkeys⟩ | hzero
    · rw [hborn, hkeys]
      rfl
    · rw [hzero]
      rfl

/-- The key that created the last state. -/
lemma Aligned.last (ha : h.Aligned) (hne : h.engine.states ≠ []) :
    ∃ p, h.born.getLast? = some p ∧ p < h.keys.length ∧ (∀ q ∈ h.born.dropLast, q < p) ∧
      (h.back cfg).engine = h.engine.backspace cfg ∧ (h.back cfg).keys = h.keys.take p ∧
      (h.back cfg).born = h.born.dropLast := by
  have hborn : h.born ≠ [] := by
    intro hnil
    have hlength := ha.length
    rw [hnil] at hlength
    exact hne (List.eq_nil_of_length_eq_zero hlength.symm)
  obtain ⟨init, p, hsplit⟩ : ∃ init p, h.born = init ++ [p] :=
    ⟨h.born.dropLast, h.born.getLast hborn, (List.dropLast_append_getLast hborn).symm⟩
  have hlast : h.born.getLast? = some p := by
    rw [hsplit]
    exact List.getLast?_concat
  refine ⟨p, hlast, ha.bound p (by simp [hsplit]), ?_, ?_⟩
  · intro q hq
    have hsorted := ha.sorted
    rw [hsplit] at hsorted hq
    rw [List.dropLast_concat] at hq
    exact (List.pairwise_append.1 hsorted).2.2 q hq p (List.mem_singleton.2 rfl)
  · unfold KeyHistory.back
    dsimp only
    rw [hlast]
    exact ⟨rfl, rfl, rfl⟩

/-- A Backspace that pops the newest key keeps it aligned. -/
lemma Aligned.back (hq : cfg.QuickOff) (ha : h.Aligned) (hok : h.PopsNewest .back) :
    (h.back cfg).Aligned := by
  by_cases hnil : h.engine.states = []
  · have hborn : h.born = [] := by
      refine List.eq_nil_of_length_eq_zero ?_
      rw [ha.length, hnil]
      rfl
    have hsame : h.back cfg = h := by
      obtain ⟨engine, keys, born⟩ := h
      subst hborn
      show KeyHistory.mk (engine.backspace cfg) keys [] = _
      rw [EngineState.backspace_empty hnil]
    rwa [hsame]
  · obtain ⟨p, hlast, hlt, hbefore, hengine, hkeys, hborn⟩ := @Aligned.last _ cfg h ha hnil
    obtain ⟨hstates, hraw⟩ := @EngineState.Plain.popped _ _ cfg ha.recorded.plain hnil
    have hrecorded : (h.engine.backspace cfg).Recorded := @ha.recorded.step _ _ cfg .back hq
    have hlen : (h.keys.take p).length = p := List.length_take_of_le hlt.le
    -- the first state was created by the first key
    have hzero : h.born.length = 1 → p = 0 := by
      intro hone
      obtain ⟨q, hq⟩ := List.length_eq_one_iff.1 hone
      rcases ha.first with ⟨hborn, -⟩ | hfirst
      · rw [hborn] at hone
        cases hone
      · rw [hq] at hlast hfirst
        exact (Option.some.inj hlast).symm.trans (Option.some.inj hfirst)
    refine ⟨hengine ▸ hrecorded, ?_, ?_, ?_, ?_, ?_⟩
    · show (h.back cfg).engine.peekRaw = (h.back cfg).keys
      rw [hengine, hkeys, hraw]
      split
      · next hempty =>
        rw [EngineState.dropLast_eq_nil, ← ha.length] at hempty
        have hpos : 0 < h.born.length := by
          rw [ha.length]
          exact List.length_pos_iff.2 hnil
        rw [hzero (Nat.le_antisymm hempty hpos)]
        rfl
      · next hmore =>
        rw [EngineState.dropLast_eq_nil] at hmore
        rcases hok with hone | hnewest
        · exact absurd hone hmore
        · rw [Option.some.inj (hlast.symm.trans hnewest), ← List.dropLast_eq_take, ha.follows]
    · rw [hengine, hborn, hstates, List.length_dropLast, List.length_dropLast, ha.length]
    · rw [hborn]
      exact ha.sorted.sublist (List.dropLast_sublist _)
    · rw [hborn, hkeys, hlen]
      exact hbefore
    · rw [hborn, hkeys]
      by_cases hone : h.born.length = 1
      · refine .inl ⟨?_, ?_⟩
        · rw [← List.length_eq_zero_iff, List.length_dropLast, hone]
        · rw [hzero hone]
          rfl
      · refine .inr ?_
        rcases ha.first with ⟨hnone, -⟩ | hfirst
        · rw [hnone] at hlast
          cases hlast
        · have hpos : h.born.length - 1 ≠ 0 := by
            have := List.length_pos_iff.2 fun hempty => hnil (List.eq_nil_of_length_eq_zero
              (ha.length.symm.trans (congrArg List.length hempty)))
            omega
          rw [List.dropLast_eq_take, List.head?_take, if_neg hpos, hfirst]

/-- A letter that is removed later leaves keystrokes behind. -/
lemma Aligned.breaks (ha : h.Aligned) (hok : ¬h.PopsNewest .back) : ¬(h.back cfg).Follows := by
  intro hfollows
  have hmore : ¬h.engine.states.length ≤ 1 := fun hone => hok (.inl hone)
  have hne : h.engine.states ≠ [] := by
    intro hnil
    rw [hnil] at hmore
    exact hmore (Nat.zero_le _)
  obtain ⟨p, hlast, hlt, -, hengine, hkeys, -⟩ := @Aligned.last _ cfg h ha hne
  unfold Follows at hfollows
  rw [hengine, hkeys, (ha.recorded.plain.popped hne).2, if_neg fun hnil =>
    hmore (EngineState.dropLast_eq_nil.1 hnil), ha.follows] at hfollows
  have hlen := congrArg List.length hfollows
  rw [List.length_dropLast, List.length_take_of_le hlt.le] at hlen
  exact hok (.inr (by rw [hlast, hlen]))

/-- The engine of the history is recorded by every event. -/
lemma recorded_step {event : EngineEvent} (hq : cfg.QuickOff) (hr : h.engine.Recorded) :
    (h.step cfg event).engine.Recorded := by
  have hstep : (h.engine.step cfg event).Recorded := hr.step hq
  cases event with
  | push c => exact hstep
  | back =>
    show (h.back cfg).engine.Recorded
    unfold KeyHistory.back
    dsimp only
    split <;> exact hstep

/-- And in every run. -/
lemma recorded_run (hq : cfg.QuickOff) {events : List EngineEvent} :
    (run cfg {} events).engine.Recorded :=
  @Machine.run_invariant _ _ (step cfg) (fun h : KeyHistory => h.engine.Recorded) _ _ .init
    fun hr => recorded_step hq hr

/-- Every call records or drops one keystroke, or drops all with the last letter. So `PeekRaw` is the
    surviving keys all along a run just when every letter is removed as the only one, or right behind the
    key that created it. -/
theorem peekRaw_run (hq : cfg.QuickOff) {events : List EngineEvent} :
    (∀ done, done <+: events → (run cfg {} done).engine.DropsOne cfg) ∧
      ((∀ done, done <+: events → (run cfg {} done).Follows) ↔
        Machine.Guarded (step cfg) PopsNewest {} events) := by
  constructor
  · intro done _
    exact (recorded_run hq).dropsOne hq
  · refine Machine.forall_prefix_iff Aligned.init Aligned.follows ?_ ?_
    · intro h event ha hok
      cases event with
      | push c => exact ha.push hq
      | back => exact ha.back hq hok
    · intro h event ha hnot
      cases event with
      | push c => exact absurd trivial hnot
      | back => exact ha.breaks hnot

end KeyHistory

section Ascii

attribute [local instance] WideLocale.ascii

open KeyHistory

/-- A letter that is removed right behind its key takes its key along. -/
theorem peekRaw_run_ba : (run {} {} [.push 'b', .push 'a', .back]).Follows :=
  (peekRaw_run ⟨rfl, rfl, rfl⟩).2.2 (by decide +kernel) _ (List.prefix_refl _)

/-- The `á` of `bas` is removed, and its `a` stays in the history. -/
theorem not_peekRaw_follows_bas :
    ¬∀ (cfg : TypingConfig) (events : List EngineEvent),
      cfg.QuickOff → (run cfg {} events).Follows := by
  intro h
  exact absurd (h {} [.push 'b', .push 'a', .push 's', .back] ⟨rfl, rfl, rfl⟩) (by decide +kernel)

end Ascii

end NextKey
