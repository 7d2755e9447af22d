import NextKey.Engine.Shown

/-!
# Speculation in place

`WouldBeValidSyllable` and the tone gate of an invalid buffer try a change on `states_` itself: they
write it, validate the buffer and put back what they saved. The programs of this file make every write
of the source, in its order. Each returns what the pure function of `Engine/State.lean` or
`Engine/Tone.lean` returns and leaves all fields as it found them.
-/

namespace NextKey

/-- Code that reads and writes the fields of the engine. -/
abbrev EngineProgram := StateM EngineState

namespace InPlace

/-- Overwrite `states_`. -/
def writeStates (f : List CharState → List CharState) : EngineProgram Unit :=
  modify fun st => { st with states := f st.states }

/-- `states_[i].mod = mod`. -/
def writeMod (i : Nat) (mod : Modifier) : EngineProgram Unit :=
  writeStates fun states => setMod states i mod

/-- A write to the modifier at an index, if there is one. -/
def writeMod? (i? : Option Nat) (mod : Modifier) : EngineProgram Unit :=
  match i? with
  | some i => writeMod i mod
  | none => pure ()

/-- The sister circumflex to clear: the index, if it is one of the buffer and has a circumflex. -/
def clearable (clearCircumflexIdx : Option Nat) (states : List CharState) : Option Nat :=
  clearCircumflexIdx.filter fun k =>
    decide (k < states.length) && (charAt states k).mod == .circumflex

/-- `states_[i].tone = tone`. -/
def writeTone (i : Nat) (tone : Tone) : EngineProgram Unit :=
  writeStates fun states => states.modify i fun s => { s with tone := tone }

/-- `states_[i].toneRawIdx = toneRawIdx`. -/
def writeToneRawIdx (i : Nat) (toneRawIdx : Option Nat) : EngineProgram Unit :=
  writeStates fun states => states.modify i fun s => { s with toneRawIdx := toneRawIdx }

/-- The stack array of `kVowelCap` slots after `std::copy_n(states_.begin(), n, saved.begin())`. -/
def snapshot (states : List CharState) (n : Nat) : List CharState :=
  states.take n ++ (List.replicate kVowelCap ({} : CharState)).drop n

/-- `std::copy_n(saved.begin(), n, states_.begin())`. -/
def copyBack (saved : List CharState) (n : Nat) : EngineProgram Unit :=
  writeStates fun states => saved.take n ++ states.drop n

variable [WideLocale]

/-- C++ `TypingEngine::RelocateToneToTarget`. -/
def relocateToneToTarget (cfg : TypingConfig) : EngineProgram Unit := do
  let states := (← get).states
  match findTonedVowelIndex states with
  | none => pure ()
  | some tonedIdx =>
    match findToneTarget cfg.modernOrtho states with
    | none => pure ()
    | some targetIdx =>
      if targetIdx = tonedIdx then pure ()
      else if hasConsonantBetween states tonedIdx targetIdx then pure ()
      else if isToneRelocBlockedByP4 states targetIdx cfg.modernOrtho then pure ()
      else
        writeTone targetIdx (charAt (← get).states tonedIdx).tone
        writeToneRawIdx targetIdx (charAt (← get).states tonedIdx).toneRawIdx
        writeTone tonedIdx .none
        writeToneRawIdx tonedIdx none

/-- The verdict at the end of `WouldBeValidSyllable`, on the buffer as it stands. -/
def verdict (cfg : TypingConfig) : EngineProgram Bool := do
  let states := (← get).states
  let result := Phonology.validateSyllableState states cfg.allowZwjf
  let recoverableMismatch := result == .invalid && isToneStopCodaMismatch states
  pure (result != .invalid || recoverableMismatch)

/-- The path of `WouldBeValidSyllable` that relocates the tone and restores a snapshot. -/
def speculateBulk (cfg : TypingConfig) (targetIdx : Nat) (newMod : Modifier)
    (clearCircumflexIdx : Option Nat) : EngineProgram Bool := do
  let bufferLen := (← get).states.length
  if kVowelCap < bufferLen then pure true
  else
    let saved := snapshot (← get).states bufferLen
    writeMod targetIdx newMod
    writeMod? (clearable clearCircumflexIdx (saved.take bufferLen)) .none
    relocateToneToTarget cfg
    let accepted ← verdict cfg
    copyBack saved bufferLen
    pure accepted

/-- The path of `WouldBeValidSyllable` that restores the modifiers one by one. -/
def speculateMod (cfg : TypingConfig) (targetIdx : Nat) (newMod : Modifier)
    (clearCircumflexIdx : Option Nat) : EngineProgram Bool := do
  let saved := (charAt (← get).states targetIdx).mod
  writeMod targetIdx newMod
  let cleared := clearable clearCircumflexIdx (← get).states
  writeMod? cleared .none
  let accepted ← verdict cfg
  writeMod? cleared .circumflex
  writeMod targetIdx saved
  pure accepted

/-- C++ `TypingEngine::WouldBeValidSyllable`. -/
def wouldBeValidSyllable (cfg : TypingConfig) (targetIdx : Nat) (newMod : Modifier)
    (clearCircumflexIdx : Option Nat) (speculateRelocateTone : Bool) : EngineProgram Bool := do
  if ¬cfg.spellCheckEnabled then pure true
  else if (← get).states.length ≤ targetIdx then pure true
  else if speculateRelocateTone then speculateBulk cfg targetIdx newMod clearCircumflexIdx
  else speculateMod cfg targetIdx newMod clearCircumflexIdx

/-- The tone-replacement trial of `HandleToneFsm`: whether the buffer is valid with the requested
    tone in place of the one the vowel has. -/
def wouldRecover (cfg : TypingConfig) (targetIndex : Nat) (requestedTone : Tone) :
    EngineProgram Bool := do
  let savedTone := (charAt (← get).states targetIndex).tone
  writeTone targetIndex requestedTone
  let result := Phonology.validateSyllableState (← get).states cfg.allowZwjf
  writeTone targetIndex savedTone
  pure (result == .valid)

/-- The spell gate of `HandleToneFsm` on an invalid buffer: whether the tone key is a literal. -/
def toneSpellBlocked (cfg : TypingConfig) (requestedTone : Tone) : EngineProgram Bool := do
  let states := (← get).states
  match findToneTarget cfg.modernOrtho states with
  | none => pure true
  | some targetIndex =>
    let isEscape := (charAt states targetIndex).tone == requestedTone
    let matchesExclusion := !isEscape && toneMatchesExclusion cfg states (some targetIndex) requestedTone
    let tries := !isEscape && !matchesExclusion && (charAt states targetIndex).hasTone
    let recovers ← if tries then wouldRecover cfg targetIndex requestedTone else pure false
    pure (!isEscape && !matchesExclusion && !recovers)

section Run
variable {cfg : TypingConfig} {st : EngineState} {α β : Type}

section Writes
omit [WideLocale]

/-- To get the state. -/
lemma run_get_bind {f : EngineState → EngineProgram α} : (get >>= f).run st = (f st).run st := rfl

/-- One program after the other. -/
lemma run_bind {p : EngineProgram α} {f : α → EngineProgram β} {a : α} {st' : EngineState}
    (h : p.run st = (a, st')) : (p >>= f).run st = (f a).run st' := by
  show (f (p.run st).1).run (p.run st).2 = _
  rw [h]

/-- To write the letters. -/
lemma run_writeStates {f : List CharState → List CharState} :
    (writeStates f).run st = ((), { st with states := f st.states }) := rfl

/-- To write the letters and go on. -/
lemma run_writeStates_bind {f : List CharState → List CharState} {p : EngineProgram α} :
    (writeStates f >>= fun _ => p).run st = p.run { st with states := f st.states } := rfl

/-- What the write to an optional index makes of the buffer. -/
def setMod? (states : List CharState) (i? : Option Nat) (mod : Modifier) : List CharState :=
  match i? with
  | some i => setMod states i mod
  | none => states

/-- To write a mark, if at all, and go on. -/
lemma run_writeMod?_bind {i? mod} {p : EngineProgram α} :
    (writeMod? i? mod >>= fun _ => p).run st = p.run { st with states := setMod? st.states i? mod } := by
  cases i? <;> rfl

/-- A write leaves the other letters. -/
lemma charAt_modify_ne {states : List CharState} {i j : Nat} {f : CharState → CharState} (h : i ≠ j) :
    charAt (states.modify i f) j = charAt states j := by
  simp only [charAt, List.getD_eq_getElem?_getD, List.getElem?_modify, if_neg h]
  cases states[j]? <;> rfl

/-- The four writes move the tone and its key. -/
lemma run_moveTone {src dst : Nat} (hne : dst ≠ src) :
    (do
      writeTone dst (charAt (← get).states src).tone
      writeToneRawIdx dst (charAt (← get).states src).toneRawIdx
      writeTone src .none
      writeToneRawIdx src none : EngineProgram Unit).run st =
        ((), { st with states := moveTone st.states src dst }) := by
  simp only [run_get_bind, writeTone, writeToneRawIdx, run_writeStates_bind, charAt_modify_ne hne,
    List.modify_modify_eq, moveTone]
  rw [run_writeStates, List.modify_modify_eq]
  rfl

end Writes

/-- The verdict changes nothing. -/
lemma run_verdict : (verdict cfg).run st = (acceptSpeculation cfg st.states, st) := by
  rw [verdict, run_get_bind, acceptSpeculation]
  dsimp only
  cases Phonology.validateSyllableState st.states cfg.allowZwjf <;> rfl

/-- The relocation in place. -/
lemma run_relocateToneToTarget : (relocateToneToTarget cfg).run st =
    ((), { st with states := NextKey.relocateToneToTarget cfg st.states }) := by
  rw [relocateToneToTarget, run_get_bind, NextKey.relocateToneToTarget]
  dsimp only
  cases findTonedVowelIndex st.states with
  | none => rfl
  | some tonedIdx =>
    cases findToneTarget cfg.modernOrtho st.states with
    | none => rfl
    | some targetIdx =>
      dsimp only
      by_cases hsame : targetIdx = tonedIdx
      · rw [if_pos hsame, if_pos hsame]
        rfl
      rw [if_neg hsame, if_neg hsame]
      by_cases hcross : hasConsonantBetween st.states tonedIdx targetIdx
      · rw [if_pos hcross, if_pos hcross]
        rfl
      rw [if_neg hcross, if_neg hcross]
      by_cases hblocked : isToneRelocBlockedByP4 st.states targetIdx cfg.modernOrtho
      · rw [if_pos hblocked, if_pos hblocked]
        rfl
      rw [if_neg hblocked, if_neg hblocked]
      exact run_moveTone hsame

section Restored
omit [WideLocale]
variable {states : List CharState} {i : Nat}

/-- A write that is undone by a second one. -/
lemma modify_undo {f g : CharState → CharState} (h : g (f (charAt states i)) = charAt states i) :
    (states.modify i f).modify i g = states := by
  rw [List.modify_modify_eq]
  refine List.ext_getElem? fun j => ?_
  rw [List.getElem?_modify]
  by_cases hij : i = j
  · subst hij
    cases hi : states[i]? with
    | none => rfl
    | some s =>
      rw [charAt, List.getD_eq_getElem?_getD, hi] at h
      simpa using h
  · cases states[j]? <;> simp [hij]

/-- Setting a modifier and setting the old one again. -/
lemma setMod_undo {mod : Modifier} : setMod (setMod states i mod) i (charAt states i).mod = states :=
  modify_undo rfl

/-- A circumflex that was cleared is set again. -/
lemma setMod?_clearable_undo {clearCircumflexIdx : Option Nat} :
    setMod? (setMod? states (clearable clearCircumflexIdx states) .none)
      (clearable clearCircumflexIdx states) .circumflex = states := by
  cases hclear : clearable clearCircumflexIdx states with
  | none => rfl
  | some k =>
    obtain ⟨-, hk⟩ := Option.filter_eq_some_iff.1 hclear
    simp only [Bool.and_eq_true, beq_iff_eq] at hk
    show setMod (setMod states k .none) k .circumflex = states
    rw [← hk.2]
    exact setMod_undo

/-- What the snapshot holds of a buffer that fits. -/
lemma take_snapshot : (snapshot states states.length).take states.length = states := by
  rw [snapshot, List.take_length, List.take_left]

/-- The pure function clears the circumflex the program clears. -/
lemma setMod?_clearable {modded : List CharState} {clearCircumflexIdx : Option Nat} :
    setMod? modded (clearable clearCircumflexIdx states) .none =
      match clearCircumflexIdx with
      | some k => if (charAt states k).mod = .circumflex then setMod modded k .none else modded
      | none => modded := by
  cases clearCircumflexIdx with
  | none => rfl
  | some k =>
    by_cases hk : (charAt states k).mod = .circumflex
    · have hlt : k < states.length := by
        by_contra hge
        rw [charAt_of_length_le (Nat.not_lt.1 hge)] at hk
        cases hk
      have hclear : clearable (some k) states = some k := by
        simp [clearable, Option.filter_some, hk, hlt]
      rw [hclear]
      exact (if_pos hk).symm
    · have hclear : clearable (some k) states = none := by
        simp [clearable, Option.filter_some, hk]
      rw [hclear]
      exact (if_neg hk).symm

end Restored

/-- The path with the snapshot. -/
lemma run_speculateBulk {targetIdx newMod clearCircumflexIdx} (h : ¬kVowelCap < st.states.length) :
    (speculateBulk cfg targetIdx newMod clearCircumflexIdx).run st =
      (acceptSpeculation cfg (NextKey.relocateToneToTarget cfg
        (setMod? (setMod st.states targetIdx newMod) (clearable clearCircumflexIdx st.states) .none)),
        st) := by
  rw [speculateBulk, run_get_bind]
  dsimp only
  rw [if_neg h, run_get_bind, take_snapshot, writeMod, run_writeStates_bind, run_writeMod?_bind,
    run_bind run_relocateToneToTarget, run_bind run_verdict, copyBack, run_writeStates_bind]
  have hlen : (NextKey.relocateToneToTarget cfg (setMod? (setMod st.states targetIdx newMod)
      (clearable clearCircumflexIdx st.states) .none)).length = st.states.length := by
    have hclear : SameBases (setMod st.states targetIdx newMod)
        (setMod? (setMod st.states targetIdx newMod) (clearable clearCircumflexIdx st.states) .none) := by
      cases clearable clearCircumflexIdx st.states with
      | none => exact .refl
      | some k => exact .setMod
    exact (SameBases.setMod.trans (hclear.trans .relocateToneToTarget)).length_eq
  dsimp only
  rw [take_snapshot, ← hlen, List.drop_length, List.append_nil]
  rfl

/-- The path that restores the modifiers one by one. -/
lemma run_speculateMod {targetIdx newMod clearCircumflexIdx} :
    (speculateMod cfg targetIdx newMod clearCircumflexIdx).run st =
      (acceptSpeculation cfg (NextKey.speculateMod st.states targetIdx newMod clearCircumflexIdx),
        st) := by
  rw [speculateMod, run_get_bind]
  dsimp only
  rw [writeMod, run_writeStates_bind, run_get_bind, run_writeMod?_bind, run_bind run_verdict,
    run_writeMod?_bind, writeMod, run_writeStates_bind, setMod?_clearable_undo, setMod_undo,
    setMod?_clearable]
  rfl

/-- The speculation in place leaves no trace. -/
lemma run_wouldBeValidSyllable {targetIdx newMod clearCircumflexIdx speculateRelocateTone} :
    (wouldBeValidSyllable cfg targetIdx newMod clearCircumflexIdx speculateRelocateTone).run st =
      (NextKey.wouldBeValidSyllable cfg st.states targetIdx newMod clearCircumflexIdx
        speculateRelocateTone, st) := by
  unfold wouldBeValidSyllable NextKey.wouldBeValidSyllable
  by_cases hspell : ¬cfg.spellCheckEnabled
  · rw [if_pos hspell, if_pos hspell]
    rfl
  rw [if_neg hspell, if_neg hspell, run_get_bind]
  by_cases htarget : st.states.length ≤ targetIdx
  · rw [if_pos htarget, if_pos htarget]
    rfl
  rw [if_neg htarget, if_neg htarget]
  cases speculateRelocateTone with
  | true =>
    rw [if_pos rfl, if_pos rfl]
    by_cases hcap : kVowelCap < st.states.length
    · rw [if_pos hcap, speculateBulk, run_get_bind]
      dsimp only
      rw [if_pos hcap]
      rfl
    · have hbulk := @run_speculateBulk _ cfg st targetIdx newMod clearCircumflexIdx hcap
      rw [setMod?_clearable] at hbulk
      rw [if_neg hcap]
      exact hbulk
  | false =>
    rw [if_neg Bool.false_ne_true, if_neg Bool.false_ne_true]
    exact run_speculateMod

omit [WideLocale] in
/-- The trial of another tone. -/
lemma run_wouldRecover {targetIndex requestedTone} :
    (wouldRecover cfg targetIndex requestedTone).run st =
      (Phonology.validateSyllableState
        (st.states.modify targetIndex fun s => { s with tone := requestedTone }) cfg.allowZwjf == .valid,
        st) := by
  rw [wouldRecover, run_get_bind]
  dsimp only
  rw [writeTone, run_writeStates_bind, run_get_bind]
  dsimp only
  rw [writeTone, run_writeStates_bind, modify_undo rfl]
  rfl

/-- The spell gate of the tone keys. -/
lemma run_toneSpellBlocked {requestedTone} : (toneSpellBlocked cfg requestedTone).run st =
    (NextKey.toneSpellBlocked cfg st.states requestedTone, st) := by
  rw [toneSpellBlocked, run_get_bind, NextKey.toneSpellBlocked]
  dsimp only
  cases findToneTarget cfg.modernOrtho st.states with
  | none => rfl
  | some targetIndex =>
    dsimp only
    cases (charAt st.states targetIndex).tone == requestedTone with
    | true => rfl
    | false =>
      cases toneMatchesExclusion cfg st.states (some targetIndex) requestedTone with
      | true => rfl
      | false =>
        cases (charAt st.states targetIndex).hasTone with
        | false => rfl
        | true => exact run_bind run_wouldRecover

end Run

/-- Neither the speculation on a modifier nor the trial of another tone leaves a trace: on every buffer
    and with every argument they end with the fields they started with, and answer what the pure
    functions answer. -/
theorem speculation_traceless {cfg : TypingConfig} {st : EngineState} :
    (∀ targetIdx newMod clearCircumflexIdx speculateRelocateTone,
      (wouldBeValidSyllable cfg targetIdx newMod clearCircumflexIdx speculateRelocateTone).run st =
        (NextKey.wouldBeValidSyllable cfg st.states targetIdx newMod clearCircumflexIdx
          speculateRelocateTone, st)) ∧
    (∀ targetIndex requestedTone, ((wouldRecover cfg targetIndex requestedTone).run st).2 = st) ∧
    ∀ requestedTone, (toneSpellBlocked cfg requestedTone).run st =
      (NextKey.toneSpellBlocked cfg st.states requestedTone, st) := by
  refine ⟨fun _ _ _ _ => run_wouldBeValidSyllable, fun targetIndex requestedTone => ?_,
    fun _ => run_toneSpellBlocked⟩
  rw [run_wouldRecover]

end InPlace

end NextKey
