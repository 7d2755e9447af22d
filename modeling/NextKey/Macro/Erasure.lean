import NextKey.Hook.KeyDown
import NextKey.Lib.Machine

/-!
# What an expansion erases

`Macro::Plan` erases either the word that is being composed or as many characters as the macro
buffer holds. The buffer counts keys, so it can leave the screen behind: a key may change a letter
instead of adding one, a Backspace may find nothing composed, a Space behind no word is not counted
at all. Here a run of keys since the buffer was last empty keeps the buffer and the screen in step
as long as each key adds one character to both or takes one away from both; and a run that is one
word on the screen is erased as that word.
-/

namespace NextKey

namespace HookTyping

section Locale

variable [WideCtype] [WideLocale] (env : HookConfig) (st : HookTyping) (k : HookKeyDown)

/-- What `DispatchKeyAction` makes of a key. -/
inductive Handling where
  /-- The engine is off for this word. -/
  | bypassed
  /-- The engine takes the key. -/
  | taken (engine : EngineState)
  /-- A commit trigger behind a word. -/
  | commit
  /-- A commit trigger or a Backspace behind no word. -/
  | bare

/-- The engine with the letter. -/
def letterEngine (vkCode : Nat) : EngineState :=
  (pushLetter (typingContext env k) st.toComposing (originalCh vkCode k.shift k.capsLock)).1.engine

/-- What `DispatchKeyAction` will make of a key. -/
def handling : Handling :=
  if st.tempEngineOff ∨ st.digitLed env k ≠ .proceed then .bypassed
  else
    match k.key with
    | .letter vkCode _ => .taken (st.letterEngine env k vkCode)
    | .back => if 0 < st.engine.count then .taken (st.engine.backspace env.config) else .bare
    | .trigger vkCode macroChar _ _ =>
      match st.engineChar env k vkCode macroChar with
      | some ch => .taken (st.engine.pushChar env.config ch)
      | none => if 0 < st.engine.count then .commit else .bare

/-- The characters that a key takes from the buffer. -/
def untracked (k : HookKeyDown) : Nat :=
  match k.key with
  | .back => 1
  | .letter _ _ | .trigger _ _ _ _ => 0

/-- The key adds a character to the buffer and to the screen, or takes one from both. -/
def Handling.OneForOne (st : HookTyping) (k : HookKeyDown) : Handling → Prop
  | .bypassed => st.engine.count = 0 ∧ trackedChar k ≠ []
  | .taken engine => engine.peek.length + untracked k = st.engine.peek.length + (trackedChar k).length
  | .commit => True
  | .bare => trackedChar k ≠ [] ∨ untracked k = 1 ∧ st.macroCrossCommit

instance (handling : Handling) : Decidable (handling.OneForOne st k) :=
  match handling with
  | .bypassed => inferInstanceAs (Decidable (_ ∧ _))
  | .taken _ => inferInstanceAs (Decidable (_ = _))
  | .commit => inferInstanceAs (Decidable True)
  | .bare => inferInstanceAs (Decidable (_ ∨ _))

/-- The engine takes the key. -/
def Handling.isTaken : Handling → Bool
  | .taken _ => true
  | .bypassed | .commit | .bare => false

/-- The undo of a commit leaves the key alone, and it is one for one. -/
def OneForOne : Prop :=
  (st.HandleCommitUndoFsm env k).2 = .fallthrough ∧
    ((st.HandlePreDispatch env k).handling env k).OneForOne st k

instance : Decidable (st.OneForOne env k) := inferInstanceAs (Decidable (_ ∧ _))

/-- The undo of a commit leaves the key alone, and the engine takes it. -/
def InWord : Prop :=
  (st.HandleCommitUndoFsm env k).2 = .fallthrough ∧
    ((st.HandlePreDispatch env k).handling env k).isTaken

instance : Decidable (st.InWord env k) := inferInstanceAs (Decidable (_ ∧ _))

/-- The buffer is not empty after the key. -/
def KeepsBuffer : Prop := (st.ProcessKeyDown env k).rawMacroBuffer ≠ []

instance : Decidable (st.KeepsBuffer env k) := inferInstanceAs (Decidable (_ ≠ _))

/-- No committed word is replayed while the buffer holds something. -/
def NoReplay : Prop :=
  st.rawMacroBuffer = [] ∨ ¬(st.commitState.phase = .primed ∧ st.engine.count = 0)

instance : Decidable st.NoReplay := inferInstanceAs (Decidable (_ ∨ _))

/-- The engine, its text as the previous composition, the screen and the buffer. -/
structure Leaves (st : HookTyping) (e : EngineState) (text : List Char) (units : WString) : Prop where
  engine : st.engine = e
  previous : st.previousComposition = e.peek
  screen : st.screen = text
  buffer : st.rawMacroBuffer = units

variable {env st k}

omit [WideCtype] in
/-- An engine that counts nothing shows nothing. -/
lemma peek_of_count {engine : EngineState} (h : engine.count = 0) : engine.peek = [] := by
  show composeAll engine.states = []
  rw [List.length_eq_zero_iff.mp h]
  rfl

omit [WideCtype] in
/-- What a letter leaves. -/
lemma HandleAlphaKey_leaves (hsync : st.previousComposition = st.engine.peek) (vkCode : Nat) :
    ∃ screen, (st.HandleAlphaKey env k vkCode).Leaves
      (st.letterEngine env k vkCode) screen st.rawMacroBuffer ∧
      ∀ front, st.screen = front ++ st.previousComposition →
        screen = front ++ (st.letterEngine env k vkCode).peek := by
  refine ⟨_, ⟨rfl, rfl, rfl, rfl⟩, fun front hscreen => ?_⟩
  have hprevious := @Composing.Agrees.pushLetter _ (typingContext env k) st.toComposing front
    ⟨hsync ▸ hscreen, hsync⟩ (originalCh vkCode k.shift k.capsLock)
  have hedit := @Composing.editTo_eq (pushLetter (typingContext env k) st.toComposing
    (originalCh vkCode k.shift k.capsLock)).1 front (st.letterEngine env k vkCode).peek
    (hprevious.2.trans (congrArg (front ++ ·) hprevious.1.symm))
  exact congrArg Composing.screen hedit

omit [WideCtype] in
/-- What a key that is pushed leaves. -/
lemma pushKey_leaves (ch : Char) :
    ∃ screen, (st.pushKey env ch).Leaves (st.engine.pushChar env.config ch) screen st.rawMacroBuffer ∧
      ∀ front, st.screen = front ++ st.previousComposition →
        screen = front ++ (st.engine.pushChar env.config ch).peek := by
  refine ⟨_, ⟨rfl, rfl, rfl, rfl⟩, fun front hscreen => ?_⟩
  have hedit := @Composing.editTo_eq
    { st.toComposing with engine := st.engine.pushChar env.config ch } front
    (st.engine.pushChar env.config ch).peek hscreen
  exact congrArg Composing.screen hedit

omit [WideCtype] in
/-- What a Backspace leaves. -/
lemma HandleBackspace_leaves :
    ∃ screen, (st.HandleBackspace env).Leaves
      (st.engine.backspace env.config) screen st.rawMacroBuffer ∧
      ∀ front, st.screen = front ++ st.previousComposition →
        screen = front ++ (st.engine.backspace env.config).peek := by
  unfold HandleBackspace
  dsimp only
  split
  · refine ⟨_, ⟨rfl, rfl, rfl, rfl⟩, fun front hscreen => ?_⟩
    have hedit := @Composing.editTo_eq
      { st.toComposing with engine := st.engine.backspace env.config } front
      (st.engine.backspace env.config).peek hscreen
    exact congrArg Composing.screen hedit
  · next hcount =>
    have hempty : (st.engine.backspace env.config).peek = [] :=
      peek_of_count (Nat.eq_zero_of_not_pos hcount)
    refine ⟨st.screen.rdrop st.previousComposition.length, ?_, fun front hscreen => ?_⟩
    · split
      · exact ⟨rfl, hempty.symm, rfl, rfl⟩
      · exact ⟨rfl, hempty.symm, rfl, rfl⟩
    · have hdrop := rdrop_append_word front st.previousComposition (Nat.zero_le _)
      rw [hscreen, hempty]
      exact hdrop

omit [WideCtype] in
/-- A key that passes reaches the window. -/
lemma Leaves.settle {st' : HookTyping} {engine : EngineState} {buffer : WString}
    (h : st'.Leaves engine st.screen buffer) :
    (HookTyping.settle k (st', .pass)).Leaves engine (st.landed k) buffer := by
  refine ⟨h.engine, h.previous, ?_, h.buffer⟩
  show st'.landed k = st.landed k
  unfold landed
  rw [h.screen]

/-- A commit leaves the text that is on the screen, and the buffer that is kept across it. -/
lemma commitKey_leaves (macroChar : UInt16) :
    (st.commitKey env macroChar).Leaves {} st.screen (st.savedMacroBuffer env macroChar) := by
  have hready (st' : HookTyping) (h : st'.Leaves {} st.screen (st.savedMacroBuffer env macroChar)) :
      (if st'.commitState.pushedToStack then st'.SetCommitUndoReady else st').Leaves {} st.screen
        (st.savedMacroBuffer env macroChar) := by
    split
    · exact ⟨h.engine, h.previous, h.screen, h.buffer⟩
    · exact h
  apply hready
  split
  · exact ⟨rfl, rfl, rfl, rfl⟩
  · next hsaved => exact ⟨rfl, rfl, rfl, (not_not.mp hsaved).symm⟩

omit [WideCtype] in
/-- A Backspace behind no word. -/
lemma backKey_leaves (hsync : st.previousComposition = st.engine.peek) (hcount : ¬0 < st.engine.count) :
    (settle k (st.backKey env)).Leaves st.engine (st.landed k)
      (if st.macroCrossCommit then st.rawMacroBuffer.dropLast else st.rawMacroBuffer) := by
  unfold backKey
  rw [if_neg hcount]
  split
  · next hcross =>
    rw [if_pos hcross.1]
    exact Leaves.settle ⟨rfl, hsync, rfl, rfl⟩
  · next hcross =>
    refine Leaves.settle ⟨rfl, hsync, rfl, ?_⟩
    split
    · next hset =>
      have hempty : st.rawMacroBuffer = [] := by
        by_contra hne
        exact hcross ⟨hset, hne⟩
      rw [hempty]
      rfl
    · rfl

/-- The engine is on for this word. -/
lemma DispatchKeyAction_of_proceed (h : ¬(st.tempEngineOff ∨ st.digitLed env k ≠ .proceed)) :
    st.DispatchKeyAction env k = st.composeKey env k := by
  obtain ⟨hoff, hdigit⟩ := not_or.mp h
  rw [DispatchKeyAction, if_neg hoff, not_not.mp hdigit]

/-- What a key leaves, by how it is handled. -/
def Acts (env : HookConfig) (st : HookTyping) (k : HookKeyDown) (after : HookTyping) : Handling → Prop
  | .bypassed => after.Leaves st.engine (st.landed k) st.rawMacroBuffer
  | .taken engine =>
    ∃ screen,
      after.Leaves engine screen
        (if untracked k = 1 then st.rawMacroBuffer.dropLast else st.rawMacroBuffer) ∧
      ∀ front, st.screen = front ++ st.previousComposition → screen = front ++ engine.peek
  | .commit =>
    ∃ vkCode macroChar typed printable, k.key = .trigger vkCode macroChar typed printable ∧
      after.Leaves {} (st.landed k) (st.savedMacroBuffer env macroChar)
  | .bare =>
    st.engine.count = 0 ∧
      after.Leaves st.engine (st.landed k)
        (if untracked k = 1 ∧ st.macroCrossCommit then st.rawMacroBuffer.dropLast
          else st.rawMacroBuffer)

omit [WideCtype] in
/-- The engine is off: the key goes by. -/
lemma bypassedKey_leaves (hsync : st.previousComposition = st.engine.peek) :
    (st.bypassedKey k).Leaves st.engine st.screen st.rawMacroBuffer := by
  unfold bypassedKey
  split
  · exact ⟨rfl, hsync, rfl, rfl⟩
  · split
    · exact ⟨rfl, hsync, rfl, rfl⟩
    · exact ⟨rfl, hsync, rfl, rfl⟩
  · exact ⟨rfl, hsync, rfl, rfl⟩

/-- The engine is on: the key goes to the composition. -/
lemma composeKey_acts (hsync : st.previousComposition = st.engine.peek)
    (hproceed : ¬(st.tempEngineOff ∨ st.digitLed env k ≠ .proceed)) :
    Acts env st k (settle k (st.composeKey env k)) (st.handling env k) := by
  rw [handling, if_neg hproceed, composeKey]
  cases hkey : k.key with
  | letter vkCode isLetter =>
    rw [Acts, untracked, hkey]
    exact HandleAlphaKey_leaves hsync vkCode
  | back =>
    dsimp only
    by_cases hcount : 0 < st.engine.count
    · rw [if_pos hcount, backKey, if_pos hcount, Acts, untracked, hkey]
      exact @HandleBackspace_leaves _ env { st with rawMacroBuffer := st.rawMacroBuffer.dropLast }
    · rw [if_neg hcount, Acts, untracked, hkey]
      simp only [true_and]
      exact ⟨Nat.eq_zero_of_not_pos hcount, backKey_leaves hsync hcount⟩
  | trigger vkCode macroChar typed printable =>
    dsimp only
    cases st.engineChar env k vkCode macroChar with
    | some ch =>
      dsimp only
      rw [Acts, untracked, hkey]
      exact pushKey_leaves ch
    | none =>
      dsimp only
      by_cases hcount : 0 < st.engine.count
      · rw [if_pos hcount, if_pos hcount, Acts]
        exact ⟨_, _, _, _, hkey, (commitKey_leaves macroChar).settle⟩
      · rw [if_neg hcount, if_neg hcount, Acts, untracked, hkey]
        exact ⟨Nat.eq_zero_of_not_pos hcount, Leaves.settle ⟨rfl, hsync, rfl, rfl⟩⟩

/-- Every key does what its handling says. -/
lemma DispatchKeyAction_acts (hsync : st.previousComposition = st.engine.peek) :
    Acts env st k (settle k (st.DispatchKeyAction env k)) (st.handling env k) := by
  by_cases hbypass : st.tempEngineOff ∨ st.digitLed env k ≠ .proceed
  · rw [handling, if_pos hbypass, Acts, DispatchKeyAction]
    split
    · exact (bypassedKey_leaves hsync).settle
    · next hon =>
      -- a digit-led word only moves its own flag
      cases hdigit : st.digitLed env k with
      | arm => exact Leaves.settle ⟨rfl, hsync, rfl, rfl⟩
      | bypass => exact Leaves.settle ⟨rfl, hsync, rfl, rfl⟩
      | reset => exact Leaves.settle ⟨rfl, hsync, rfl, rfl⟩
      | proceed => exact absurd hdigit (hbypass.resolve_left hon)
  · rw [DispatchKeyAction_of_proceed hbypass]
    exact composeKey_acts hsync hbypass

omit [WideCtype] in
/-- A key that types its own character. -/
lemma landed_of_typed (h : untracked k = 0) : ∃ c, st.landed k = st.screen ++ [c] := by
  unfold untracked at h
  unfold landed
  cases hkey : k.key with
  | letter vkCode isLetter => exact ⟨_, rfl⟩
  | back =>
    rw [hkey] at h
    cases h
  | trigger vkCode macroChar typed printable => exact ⟨_, rfl⟩

omit [WideCtype] in
/-- A key that erases one. -/
lemma landed_of_erased (h : untracked k = 1) : st.landed k = st.screen.dropLast := by
  unfold untracked at h
  unfold landed
  cases hkey : k.key with
  | letter vkCode isLetter =>
    rw [hkey] at h
    cases h
  | back => rfl
  | trigger vkCode macroChar typed printable =>
    rw [hkey] at h
    cases h

omit [WideCtype] in
/-- A key types a character or erases one, and what it erases it does not track. -/
lemma untracked_cases : untracked k = 0 ∨ untracked k = 1 ∧ trackedChar k = [] := by
  unfold untracked trackedChar
  cases k.key with
  | letter vkCode isLetter => exact .inl rfl
  | back => exact .inr ⟨rfl, rfl⟩
  | trigger vkCode macroChar typed printable => exact .inl rfl

omit [WideCtype] in
/-- A key that is tracked is tracked as one character. -/
lemma length_trackedChar (h : trackedChar k ≠ []) : untracked k = 0 ∧ (trackedChar k).length = 1 := by
  unfold trackedChar at h ⊢
  unfold untracked
  cases hkey : k.key with
  | letter vkCode isLetter => exact ⟨rfl, rfl⟩
  | back =>
    rw [hkey] at h
    exact absurd rfl h
  | trigger vkCode macroChar typed printable =>
    rw [hkey] at h
    dsimp only at h ⊢
    split
    · exact ⟨rfl, rfl⟩
    · next hlt => exact absurd (if_neg hlt) h

omit [WideCtype] [WideLocale] in
/-- Before the dispatch only the capitalization changes. -/
lemma HandlePreDispatch_eq : ∃ autoCapState, st.HandlePreDispatch env k = { st with autoCapState } := by
  unfold HandlePreDispatch
  split
  · exact ⟨_, rfl⟩
  · exact ⟨_, rfl⟩

/-- What a commit keeps is the buffer with the trigger. -/
lemma savedMacroBuffer_length {vkCode macroChar typed printable}
    (hkey : k.key = .trigger vkCode macroChar typed printable) {buffer : WString}
    (htracked : st.rawMacroBuffer = buffer ++ trackedChar k)
    (hsaved : st.savedMacroBuffer env macroChar ≠ []) :
    (st.savedMacroBuffer env macroChar).length = buffer.length + 1 := by
  have hunits : trackedChar k = if blank < macroChar then [macroChar] else [] := by
    unfold trackedChar
    rw [hkey]
  unfold savedMacroBuffer at hsaved ⊢
  split
  · next hcond =>
    rw [if_pos hcond] at hsaved
    split
    · next hlt =>
      rw [htracked, hunits, if_pos hlt, List.length_append]
      rfl
    · next hlt =>
      rw [if_neg hlt] at hsaved
      split
      · rw [htracked, hunits, if_neg hlt, List.append_nil, List.length_append]
        rfl
      · next hspace => exact absurd (if_neg hspace) hsaved
  · next hcond => exact absurd (if_neg hcond) hsaved

/-- The state that `DispatchKeyAction` meets: the key is in the buffer. -/
structure Meets (env : HookConfig) (st : HookTyping) (k : HookKeyDown) (mid : HookTyping) : Prop where
  engine : mid.engine = st.engine
  previous : mid.previousComposition = st.previousComposition
  screen : mid.screen = st.screen
  cross : mid.macroCrossCommit = st.macroCrossCommit
  buffer : mid.rawMacroBuffer = st.rawMacroBuffer ++ trackedChar k
  handling : mid.handling env k = (st.HandlePreDispatch env k).handling env k
  action : st.ProcessKeyDown env k = settle k (mid.DispatchKeyAction env k)

/-- A key that the undo of a commit leaves alone and that expands nothing. -/
lemma exists_meets (htable : env.macroTable ≠ [])
    (hfall : (st.HandleCommitUndoFsm env k).2 = .fallthrough)
    (hkeeps : st.KeepsBuffer env k) : ∃ mid, Meets env st k mid := by
  have hfound : st.found env k = none := by
    cases hplan : st.found env k with
    | none => rfl
    | some plan => exact absurd (ProcessKeyDown_of_found hplan) hkeeps
  obtain ⟨commitState, haction⟩ := ProcessKeyDown_of_action htable hfall hfound
  obtain ⟨autoCapState, hpre⟩ := @HandlePreDispatch_eq env st k
  refine ⟨{ st.HandlePreDispatch env k with
    commitState, rawMacroBuffer := st.rawMacroBuffer ++ trackedChar k }, ?_, ?_, ?_, ?_, rfl, rfl,
      haction⟩
  · rw [hpre]
  · rw [hpre]
  · rw [hpre]
  · rw [hpre]

/-- The whole key does what its handling says. -/
lemma Meets.acts {mid : HookTyping} (h : Meets env st k mid)
    (hsync : st.previousComposition = st.engine.peek) :
    Acts env mid k (st.ProcessKeyDown env k) ((st.HandlePreDispatch env k).handling env k) := by
  rw [h.action, ← h.handling]
  apply DispatchKeyAction_acts
  rw [h.previous, h.engine]
  exact hsync

/-- The composition is the engine's text at the end of the screen, and the screen has grown by the
length of the buffer. -/
structure InStep (base : Nat) (st : HookTyping) : Prop where
  sync : st.previousComposition = st.engine.peek
  shown : ∃ front, st.screen = front ++ st.previousComposition
  counted : st.screen.length = base + st.rawMacroBuffer.length

omit [WideCtype] in
/-- What is left is in step. -/
lemma Leaves.sync {engine : EngineState} {text : List Char} {units : WString}
    (h : st.Leaves engine text units) : st.previousComposition = st.engine.peek := by
  rw [h.previous, h.engine]

omit [WideCtype] in
/-- So it is with the units typed since. -/
lemma Leaves.inStep {base : Nat} {engine : EngineState} {text : List Char} {units : WString}
    (h : st.Leaves engine text units) (front : List Char) (hshown : text = front ++ engine.peek)
    (hcounted : text.length = base + units.length) : st.InStep base := by
  refine ⟨h.sync, ⟨front, ?_⟩, ?_⟩
  · rw [h.screen, h.previous, hshown]
  · rw [h.screen, h.buffer, hcounted]

/-- A tracked key that reaches the window adds a character to both. -/
lemma Meets.landed_tracked {base : Nat} {mid : HookTyping} (h : Meets env st k mid)
    (hcounted : st.screen.length = base + st.rawMacroBuffer.length) (htracked : trackedChar k ≠ []) :
    (mid.landed k).length = base + mid.rawMacroBuffer.length := by
  obtain ⟨htyped, hlength⟩ := length_trackedChar htracked
  obtain ⟨c, hland⟩ := @landed_of_typed _ mid k htyped
  rw [hland, h.buffer, h.screen, List.length_append, List.length_append, hcounted, hlength]
  exact Nat.add_assoc _ _ _

/-- A Backspace that reaches the window takes a character from both. -/
lemma Meets.landed_untracked {base : Nat} {mid : HookTyping} (h : Meets env st k mid)
    (hcounted : st.screen.length = base + st.rawMacroBuffer.length) (herased : untracked k = 1)
    (hkeeps : mid.rawMacroBuffer.dropLast ≠ []) :
    (mid.landed k).length = base + mid.rawMacroBuffer.dropLast.length := by
  have hnil : trackedChar k = [] := by
    rcases @untracked_cases _ k with htyped | ⟨-, hnil⟩
    · rw [htyped] at herased
      cases herased
    · exact hnil
  rw [h.buffer, hnil, List.append_nil] at hkeeps ⊢
  rw [landed_of_erased herased, h.screen, List.length_dropLast, List.length_dropLast, hcounted]
  have hpos := List.length_pos_iff.mpr (mt (congrArg List.dropLast) hkeeps)
  omega

/-- A key that is one for one. -/
lemma InStep.step {base : Nat} (htable : env.macroTable ≠ []) (h : st.InStep base)
    (hone : st.OneForOne env k) (hkeeps : st.KeepsBuffer env k) :
    (st.ProcessKeyDown env k).InStep base := by
  obtain ⟨hfall, hone⟩ := hone
  obtain ⟨mid, hmid⟩ := exists_meets htable hfall hkeeps
  have hacts := hmid.acts h.sync
  obtain ⟨front, hfront⟩ := h.shown
  unfold KeepsBuffer at hkeeps
  generalize (st.HandlePreDispatch env k).handling env k = handling at hone hacts
  cases handling with
  | bypassed =>
    obtain ⟨hcount, htracked⟩ := hone
    have hempty : mid.engine.peek = [] := hmid.engine ▸ peek_of_count hcount
    apply Leaves.inStep hacts (mid.landed k)
    · rw [hempty, List.append_nil]
    · exact hmid.landed_tracked h.counted htracked
  | taken engine =>
    have hlength : engine.peek.length + untracked k =
        st.engine.peek.length + (trackedChar k).length := hone
    obtain ⟨text, hleaves, htext⟩ := hacts
    have hshown : text = front ++ engine.peek :=
      htext front (by rw [hmid.screen, hmid.previous, hfront])
    have hlengths : front.length + st.engine.peek.length = base + st.rawMacroBuffer.length := by
      rw [← h.sync, ← List.length_append, ← hfront, h.counted]
    rw [hleaves.buffer, hmid.buffer] at hkeeps
    apply hleaves.inStep front hshown
    rw [hshown, hmid.buffer, List.length_append]
    rcases @untracked_cases _ k with htyped | ⟨herased, hnil⟩
    · rw [htyped, if_neg Nat.zero_ne_one, List.length_append]
      omega
    · rw [herased, if_pos rfl, hnil, List.append_nil] at hkeeps ⊢
      rw [herased, hnil, List.length_nil] at hlength
      rw [List.length_dropLast]
      -- a Backspace that empties the buffer would end the run
      have hpos := List.length_pos_iff.mpr (mt (congrArg List.dropLast) hkeeps)
      omega
  | commit =>
    obtain ⟨vkCode, macroChar, typed, printable, hkey, hleaves⟩ := hacts
    have htyped : untracked k = 0 := by
      rw [untracked, hkey]
    obtain ⟨c, hland⟩ := @landed_of_typed _ mid k htyped
    apply hleaves.inStep (mid.landed k) (List.append_nil _).symm
    rw [hleaves.buffer] at hkeeps
    rw [hland, savedMacroBuffer_length hkey hmid.buffer hkeeps, hmid.screen, List.length_append,
      h.counted]
    exact Nat.add_assoc _ _ _
  | bare =>
    obtain ⟨hcount, hleaves⟩ := hacts
    have hempty : mid.engine.peek = [] := peek_of_count hcount
    rw [hleaves.buffer] at hkeeps
    apply hleaves.inStep (mid.landed k)
    · rw [hempty, List.append_nil]
    · rcases hone with htracked | ⟨herased, hcross⟩
      · rw [if_neg fun hback => Nat.zero_ne_one ((length_trackedChar htracked).1.symm.trans hback.1)]
        exact hmid.landed_tracked h.counted htracked
      · rw [hmid.cross, if_pos ⟨herased, hcross⟩] at hkeeps ⊢
        exact hmid.landed_untracked h.counted herased hkeeps

/-- The screen has grown by the composition. -/
structure OnlyWord (start : List Char) (st : HookTyping) : Prop where
  sync : st.previousComposition = st.engine.peek
  shown : st.screen = start ++ st.previousComposition

/-- A key that the engine takes. -/
lemma OnlyWord.step {start : List Char} (htable : env.macroTable ≠ []) (h : st.OnlyWord start)
    (hword : st.InWord env k) (hkeeps : st.KeepsBuffer env k) :
    (st.ProcessKeyDown env k).OnlyWord start := by
  obtain ⟨hfall, hword⟩ := hword
  obtain ⟨mid, hmid⟩ := exists_meets htable hfall hkeeps
  have hacts := hmid.acts h.sync
  generalize (st.HandlePreDispatch env k).handling env k = handling at hword hacts
  cases handling with
  | taken engine =>
    obtain ⟨text, hleaves, htext⟩ := hacts
    have hshown : text = start ++ engine.peek :=
      htext start (by rw [hmid.screen, hmid.previous, h.shown])
    refine ⟨hleaves.sync, ?_⟩
    rw [hleaves.screen, hleaves.previous, hshown]
  | bypassed => cases hword
  | commit => cases hword
  | bare => cases hword

/-- The previous composition stays the engine's text. -/
lemma sync_step (htable : env.macroTable ≠ []) (h : st.previousComposition = st.engine.peek)
    (hreplay : st.NoReplay) (hkeeps : st.KeepsBuffer env k) :
    (st.ProcessKeyDown env k).previousComposition = (st.ProcessKeyDown env k).engine.peek := by
  rcases @HandleCommitUndoFsm_cases _ env st k with ⟨hfall, -⟩ | ⟨hpass, -, hleft⟩ |
    ⟨htaken, hprimed, hbuffer⟩
  · obtain ⟨mid, hmid⟩ := exists_meets htable hfall hkeeps
    have hacts := hmid.acts h
    generalize (st.HandlePreDispatch env k).handling env k = handling at hacts
    cases handling with
    | bypassed => exact Leaves.sync hacts
    | taken engine =>
      obtain ⟨text, hleaves, -⟩ := hacts
      exact hleaves.sync
    | commit =>
      obtain ⟨_, _, _, _, -, hleaves⟩ := hacts
      exact hleaves.sync
    | bare => exact hacts.2.sync
  · have hundo : (st.HandleCommitUndoFsm env k).2 ≠ .fallthrough := by
      rw [hpass]
      simp
    rcases hleft with ⟨commitState, hsame⟩ | hempty
    · rw [ProcessKeyDown_of_undo hundo, settle, hpass, if_neg (by simp), hsame]
      exact h
    · exfalso
      apply hkeeps
      rw [ProcessKeyDown_of_undo hundo, settle_buffer, hempty]
  · -- the undo replays a committed word: what is in the buffer then is not what is on the screen
    exfalso
    rcases hreplay with hempty | hnever
    · apply hkeeps
      rw [ProcessKeyDown_of_undo htaken, settle_buffer, hbuffer, hempty]
    · exact hnever hprimed

/-- What the plan is made from when a commit trigger comes. -/
def expansionInputs (env : HookConfig) (st : HookTyping) (k : HookKeyDown) : Macro.PlanInputs :=
  ((st.track env k).macroState env).planInputs k.key.macroChar

omit [WideCtype] in
/-- A trigger adds to the buffer just what is taken off again. -/
lemma bufferWidth_eq (htable : env.macroTable ≠ []) {vkCode macroChar typed printable}
    (hkey : k.key = .trigger vkCode macroChar typed printable) :
    (st.expansionInputs env k).bufferWidth = st.rawMacroBuffer.length := by
  have hbuffer : (st.expansionInputs env k).rawMacroBuffer =
      st.rawMacroBuffer ++ if blank < macroChar then [macroChar] else [] := by
    show (st.track env k).rawMacroBuffer = _
    rw [track, if_pos htable, trackedChar, hkey]
  have hprintable : (st.expansionInputs env k).printableTrigger = decide (blank < macroChar) := by
    show decide (0x20 < k.key.macroChar.toNat) = _
    rw [hkey]
    have hlt : blank.toNat < macroChar.toNat ↔ blank < macroChar := UInt16.lt_iff_toNat_lt.symm
    exact decide_eq_decide.mpr hlt
  unfold Macro.PlanInputs.bufferWidth
  rw [hprintable, hbuffer]
  by_cases hlt : blank < macroChar
  · simp [hlt]
  · simp [hlt]

omit [WideCtype] in
/-- An expansion does not look at the committed words. -/
lemma expansionInputs_commitState (commitState : CommitState) :
    ({ st with commitState } : HookTyping).expansionInputs env k = st.expansionInputs env k := by
  unfold expansionInputs track
  split <;> rfl

omit [WideCtype] in
/-- The three counts of a plan, for a commit trigger. -/
lemma bsCount_eq (htable : env.macroTable ≠ []) {vkCode macroChar typed printable}
    (hkey : k.key = .trigger vkCode macroChar typed printable) (viaComposition : Bool) :
    (st.expansionInputs env k).bsCount viaComposition =
      if viaComposition then st.previousComposition.length
      else if st.macroCrossCommit ∨ st.previousComposition = [] then st.rawMacroBuffer.length
      else st.previousComposition.length := by
  have hcross : (st.expansionInputs env k).macroCrossCommit = st.macroCrossCommit := by
    rw [expansionInputs, track, if_pos htable]
    rfl
  have hprevious : (st.expansionInputs env k).previousComposition = wide st.previousComposition := by
    rw [expansionInputs, track, if_pos htable]
    rfl
  have hwidth : (st.expansionInputs env k).compositionWidth = st.previousComposition.length := by
    rw [Macro.PlanInputs.compositionWidth,
      if_neg (by simp [expansionInputs, macroState, MacroState.planInputs]), hprevious]
    exact List.length_map _
  have hempty : wide st.previousComposition ≠ [] ↔ st.previousComposition ≠ [] :=
    not_congr List.map_eq_nil_iff
  rw [Macro.PlanInputs.bsCount, hwidth, bufferWidth_eq htable hkey, hcross, hprevious]
  cases viaComposition with
  | true => rfl
  | false =>
    cases st.macroCrossCommit with
    | true => rfl
    | false =>
      by_cases hnil : st.previousComposition = []
      · rw [hnil]
        rfl
      · simp [hempty.mpr hnil, hnil]

omit [WideLocale] in
/-- A plan comes from a commit trigger. -/
lemma expansion_eq_some {plan} (h : st.expansion env k = some plan) :
    ∃ vkCode macroChar typed printable, k.key = .trigger vkCode macroChar typed printable ∧
      env.macroTable ≠ [] ∧ (st.macroState env).plan macroChar env.mapper = plan ∧ plan.matched := by
  unfold expansion at h
  cases hkey : k.key with
  | letter vkCode isLetter =>
    rw [hkey] at h
    cases h
  | back =>
    rw [hkey] at h
    cases h
  | trigger vkCode macroChar typed printable =>
    rw [hkey] at h
    dsimp only at h
    split at h
    · next hcond =>
      split at h
      · next hmatched =>
        cases h
        exact ⟨_, _, _, _, rfl, hcond.1, rfl, hmatched⟩
      · cases h
    · cases h

/-- A found plan erases the composition, or as much as was in the buffer. -/
lemma found_bsCount {plan} (h : st.found env k = some plan) :
    env.macroTable ≠ [] ∧ plan.bsCount =
      if (st.expansionInputs env k).onlyComposition then st.previousComposition.length
      else if st.macroCrossCommit ∨ st.previousComposition = [] then st.rawMacroBuffer.length
      else st.previousComposition.length := by
  unfold found at h
  dsimp only at h
  split at h
  · next hfall =>
    obtain ⟨commitState, hsame⟩ := HandleCommitUndoFsm_fallthrough hfall
    rw [hsame] at h
    obtain ⟨vkCode, macroChar, typed, printable, hkey, htable, hplan, hmatched⟩ := expansion_eq_some h
    have hinputs : (({ st with commitState } : HookTyping).track env k |>.macroState env).planInputs
        macroChar = st.expansionInputs env k := by
      rw [← expansionInputs_commitState commitState, expansionInputs, hkey]
      rfl
    refine ⟨htable, ?_⟩
    rw [MacroState.plan, hinputs] at hplan
    rw [← hplan] at hmatched ⊢
    rw [Macro.Plan_bsCount hmatched, bsCount_eq htable hkey]
  · cases h

/-- The buffer is empty, and the composition is the engine's text at the end of the screen. -/
structure Begins (st : HookTyping) : Prop where
  buffer : st.rawMacroBuffer = []
  sync : st.previousComposition = st.engine.peek
  shown : ∃ front, st.screen = front ++ st.previousComposition

/-- The state after a list of keys. -/
def run (env : HookConfig) (st : HookTyping) (keys : List HookKeyDown) : HookTyping :=
  Machine.run (fun st k => st.ProcessKeyDown env k) st keys

/-- Every key of a run is allowed in the state it meets. -/
def All (env : HookConfig) (allowed : HookTyping → HookKeyDown → Prop) (st : HookTyping)
    (keys : List HookKeyDown) : Prop :=
  Machine.Guarded (fun st k => st.ProcessKeyDown env k) allowed st keys

instance (allowed : HookTyping → HookKeyDown → Prop) [∀ st k, Decidable (allowed st k)]
    (keys : List HookKeyDown) : Decidable (All env allowed st keys) :=
  inferInstanceAs (Decidable (Machine.Guarded _ _ _ _))

/-- When a plan is found, it erases the word that is being composed if that is all that is matched,
and else what the screen has grown by. -/
def ErasesTyped (env : HookConfig) (start : HookTyping) (keys : List HookKeyDown)
    (k : HookKeyDown) : Prop :=
  ∀ plan, (start.run env keys).found env k = some plan →
    if ((start.run env keys).expansionInputs env k).onlyComposition then
      plan.bsCount = (start.run env keys).engine.peek.length
    else (start.run env keys).screen.length = start.screen.length + plan.bsCount

/-- No committed word is replayed. Where the buffer is matched across a commit or behind no word,
every key was one for one; where it is matched with a word, that word is all that was typed. -/
def ErasureCondition (env : HookConfig) (start : HookTyping) (keys : List HookKeyDown)
    (k : HookKeyDown) :
    Prop :=
  All env (fun st _ => st.NoReplay) start keys ∧
    (¬((start.run env keys).expansionInputs env k).onlyComposition →
      if (start.run env keys).macroCrossCommit ∨ (start.run env keys).previousComposition = [] then
        All env (fun st k => st.OneForOne env k) start keys
      else start.engine.count = 0 ∧ All env (fun st k => st.InWord env k) start keys)

instance (start : HookTyping) (keys : List HookKeyDown) :
    Decidable (ErasureCondition env start keys k) :=
  inferInstanceAs (Decidable (_ ∧ (_ → ite _ _ (_ ∧ _))))

/-- Two guards of one run. -/
lemma All.and {allowed also : HookTyping → HookKeyDown → Prop} {keys : List HookKeyDown}
    (h : All env allowed st keys) (h' : All env also st keys) :
    All env (fun st k => allowed st k ∧ also st k) st keys := by
  induction keys generalizing st with
  | nil => trivial
  | cons k rest ih => exact ⟨⟨h.1, h'.1⟩, ih h.2 h'.2⟩

/-- An invariant of all allowed keys. -/
lemma All.invariant {allowed : HookTyping → HookKeyDown → Prop} {Inv : HookTyping → Prop}
    {keys : List HookKeyDown} (h : All env allowed st keys) (begins : Inv st)
    (preserved : ∀ st k, Inv st → allowed st k → Inv (st.ProcessKeyDown env k)) :
    Inv (st.run env keys) :=
  Machine.Guarded.invariant h begins fun hinv hok => preserved _ _ hinv hok

/-- In every run since the buffer was last empty whose keys meet the condition, an expansion erases
exactly what was typed. -/
theorem expansion_erases_typed {start : HookTyping} {keys : List HookKeyDown} (hstart : start.Begins)
    (hkeeps : All env (fun st k => st.KeepsBuffer env k) start keys)
    (hcond : ErasureCondition env start keys k) : ErasesTyped env start keys k := by
  intro plan hplan
  obtain ⟨htable, hcount⟩ := found_bsCount hplan
  obtain ⟨hreplay, hmatched⟩ := hcond
  rw [hcount]
  split
  · have hsync : (start.run env keys).previousComposition = (start.run env keys).engine.peek := by
      apply @All.invariant _ _ env start _ (fun st => st.previousComposition = st.engine.peek) keys
        (hreplay.and hkeeps) hstart.sync
      intro st k hsync hok
      exact sync_step htable hsync hok.1 hok.2
    rw [hsync]
  · next honly =>
    have hmatched := hmatched honly
    split at hmatched
    · next hcross =>
      have hstep : (start.run env keys).InStep start.screen.length := by
        refine (hmatched.and hkeeps).invariant ⟨hstart.sync, hstart.shown, ?_⟩ ?_
        · rw [hstart.buffer]
          rfl
        · intro st k hstep hok
          exact hstep.step htable hok.1 hok.2
      rw [if_pos hcross]
      exact hstep.counted
    · next hword =>
      have hprevious : start.previousComposition = [] := by
        rw [hstart.sync]
        exact peek_of_count hmatched.1
      have honlyWord : (start.run env keys).OnlyWord start.screen := by
        refine (hmatched.2.and hkeeps).invariant ⟨hstart.sync, ?_⟩ ?_
        · rw [hprevious, List.append_nil]
        · intro st k hstep hok
          exact hstep.step htable hok.1 hok.2
      rw [if_neg hword, honlyWord.shown]
      exact List.length_append

end Locale

section Ascii

attribute [local instance] WideLocale.ascii WideCtype.ascii

/-- Telex with one macro. -/
def oneMacro (key : List Char) : HookConfig where
  config := {}
  macroTable := [(wide key, wide ['m'])]
  mapper := .ascii

/-- A key without Shift. -/
def letterKey (vkCode : Nat) (isLetter : isLetterVk vkCode) : HookKeyDown where
  key := .letter vkCode isLetter

def periodKey : HookKeyDown where
  key := .trigger VK_OEM_PERIOD 0x2E '.' (by decide)

def spaceKey : HookKeyDown where
  key := .trigger VK_SPACE 0x20 ' ' (by decide)

/-- Some text and nothing composed. -/
def typedX : HookTyping where
  engine := {}
  previousComposition := []
  autoCapState := .idle
  screen := ['x']

/-- Typing `a.b` and a Space behind some text. -/
theorem expansion_erases_typed_ab :
    ErasesTyped (oneMacro ['a', '.', 'b']) typedX [letterKey 0x41 rfl, periodKey, letterKey 0x42 rfl]
      spaceKey := by
  have hbegins : typedX.Begins := ⟨rfl, rfl, ['x'], rfl⟩
  have hkeeps : All (oneMacro ['a', '.', 'b'])
      (fun st k => st.KeepsBuffer (oneMacro ['a', '.', 'b']) k) typedX
      [letterKey 0x41 rfl, periodKey, letterKey 0x42 rfl] := by decide +kernel
  have hcond : ErasureCondition (oneMacro ['a', '.', 'b']) typedX
      [letterKey 0x41 rfl, periodKey, letterKey 0x42 rfl] spaceKey := by decide +kernel
  exact @expansion_erases_typed _ _ _ _ _ _ hbegins hkeeps hcond

/-- Typing `aa.b` and a Space behind some text: `âb` shows three characters, and four are erased. -/
theorem expansion_erases_more :
    typedX.Begins ∧
      All (oneMacro ['a', 'a', '.', 'b'])
        (fun st k => st.KeepsBuffer (oneMacro ['a', 'a', '.', 'b']) k) typedX
        [letterKey 0x41 rfl, letterKey 0x41 rfl, periodKey, letterKey 0x42 rfl] ∧
      ¬ErasesTyped (oneMacro ['a', 'a', '.', 'b']) typedX
        [letterKey 0x41 rfl, letterKey 0x41 rfl, periodKey, letterKey 0x42 rfl] spaceKey := by
  refine ⟨⟨rfl, rfl, ['x'], rfl⟩, by decide +kernel, fun h => ?_⟩
  have hfound : ((typedX.run (oneMacro ['a', 'a', '.', 'b'])
      [letterKey 0x41 rfl, letterKey 0x41 rfl, periodKey, letterKey 0x42 rfl]).found
        (oneMacro ['a', 'a', '.', 'b']) spaceKey).map Macro.MacroPlan.bsCount =
          some 4 := by decide +kernel
  obtain ⟨plan, hplan, hcount⟩ := Option.map_eq_some_iff.mp hfound
  have herased := h plan hplan
  rw [if_neg (by decide +kernel), hcount] at herased
  revert herased
  decide +kernel

end Ascii

end HookTyping

end NextKey
