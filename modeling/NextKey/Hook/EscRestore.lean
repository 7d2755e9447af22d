import NextKey.Hook.CodeTableChange
import NextKey.Hook.CommitUndo

/-!
# Escape in every code table

Model of `TryEscRestoreRaw` in `app/system/HookEngine.cpp` and of what decides how much it deletes: the
keys that go to the engine, `CommitComposition`, `ReplayCommittedChars`, `HandleGhostChar` and whatever
clears them, in Vietnamese mode, for every code table, with an input target or without one. The keys
come in any order, and `HandleCommitUndoFsm` may move the phase of the undo at any time.

A word that is being composed is deleted by its characters, and one that is committed by its units.
-/

namespace NextKey

open CodeTableConverter

/-- C++ `CommitState::Entry` without the triggers around the word, in units. -/
structure WordEntry where
  history : List Char
  text : WString
  rawInput : WString
  widths : List Nat

/-- The word of an entry. -/
def WordEntry.word (entry : WordEntry) : EncodedWord := ⟨entry.text, entry.widths⟩

/-- The fields of `HookEngine` behind Escape; the top of the stack comes first. -/
structure EscHook extends HookWord where
  inputHistory : List Char := []
  phase : CommitPhase := .idle
  stack : List WordEntry := []

/-- A key that goes to the engine: a letter, a digit or another character, or Backspace. -/
inductive EngineKey where
  | letter (context : TypingContext) (d : OutputDispatcher) (vkCode : Nat)
      (isLetter : isLetterVk vkCode) (shift capsLock : Bool)
  | char (config : TypingConfig) (ch : Char) (isAscii : AsciiKey ch)
  | back (config : TypingConfig)

namespace EngineKey

def config : EngineKey → TypingConfig
  | letter context _ _ _ _ _ => context.config
  | char config _ _ | back config => config

end EngineKey

section Locale

variable [WideLocale]

/-- What `HandleAlphaKey` pushes. -/
def HookWord.pushedChar (st : HookWord) (context : TypingContext) (letter : Char) : Char :=
  (autoCapitalize context ⟨st.engine, [], st.autoCapState, []⟩ letter).1

/-- Without an input target `ReplaceComposition` keeps the composition and sends nothing. -/
def HookWord.targeted (hasTarget : Bool) (r : HookWord × KeyResult) : HookWord :=
  match r.2 with
  | .replaced word composition _ =>
    if hasTarget then r.1
    else
      { r.1 with
        toEncodedWord :=
          (word.ReplaceComposition false r.1.currentCodeTable composition none).2 }
  | .passed | .erased _ => r.1

namespace EscHook

variable (st : EscHook) (hasTarget : Bool)

/-- C++ `CancelCommitUndo` -/
def CancelCommitUndo : EscHook := { st with phase := .idle, stack := [] }

/-- C++ `ClearWordState` -/
def ClearWordState : EscHook :=
  { st with
    engine := {}
    previousComposition := []
    previousEncodedWidths := []
    inputHistory := [] }

/-- `HandleAlphaKey`, `HandleVniDigitKey` (and the same lines for the brackets and the custom keys), and
`HandleBackspace` -/
def press : EngineKey → EscHook
  | .letter context d vkCode _ shift capsLock =>
    { st with
      toHookWord := .targeted hasTarget (st.HandleAlphaKey context d vkCode shift capsLock)
      inputHistory :=
        st.inputHistory ++ [st.pushedChar context (originalCh vkCode shift capsLock)] }
  | .char config ch _ =>
    let word := { st.toHookWord with engine := st.engine.pushChar config ch }
    { st with
      toHookWord := .targeted hasTarget (word.replace (wide word.engine.peek) none)
      inputHistory := st.inputHistory ++ [ch] }
  | .back config =>
    let word := HookWord.targeted hasTarget (st.HandleBackspace config)
    { st with
      toHookWord := word
      inputHistory := st.inputHistory ++ [kBackspaceMarker]
      phase := if word.engine.count = 0 ∧ st.stack ≠ [] then .ready else st.phase }

/-- One keystroke of `ReplayCommittedChars`. -/
def replayed (config : TypingConfig) (engine : EngineState) (ch : Char) : EngineState :=
  if ch = kBackspaceMarker then engine.backspace config else engine.pushChar config ch

/-- C++ `ReplayCommittedChars` -/
def ReplayCommittedChars (config : TypingConfig) : EscHook :=
  match st.stack with
  | [] => { st with phase := .idle }
  | entry :: rest =>
    { st with
      engine := entry.history.foldl (replayed config) st.engine
      previousComposition := entry.text
      previousEncodedWidths := entry.widths
      inputHistory := entry.history
      phase := .idle
      stack := rest }

/-- A key that undoes a commit; a character is not pushed when nothing was replayed. -/
def undoCommit (key : EngineKey) : EscHook :=
  if st.phase = .primed ∧ st.engine.count = 0 then
    let st := st.ReplayCommittedChars key.config
    match key with
    | .char _ _ _ => if st.engine.count = 0 then st else st.press hasTarget key
    | .letter _ _ _ _ _ _ | .back _ => st.press hasTarget key
  else st

/-- The word on screen when `CommitComposition` pushes its entry: an auto-restore has replaced it. -/
def committedWord (config : TypingConfig) : EncodedWord :=
  let committed := wide (st.engine.commit config).2
  if st.previousComposition ≠ [] ∧ committed ≠ st.previousComposition then
    (st.ReplaceComposition hasTarget st.currentCodeTable committed none).2
  else st.toEncodedWord

/-- The entry that `CommitComposition` pushes. -/
def commitEntry (config : TypingConfig) : WordEntry where
  history := st.inputHistory
  text :=
    let committed := wide (st.engine.commit config).2
    if st.previousComposition ≠ [] ∧ committed ≠ st.previousComposition then committed
    else st.previousComposition
  rawInput := wide st.engine.peekRaw
  widths := (st.committedWord hasTarget config).previousEncodedWidths

/-- A commit pushes an entry. -/
def pushesEntry : Bool := !st.engine.qc.hasActive && st.inputHistory ≠ []

/-- C++ `CommitComposition` -/
def CommitComposition (config : TypingConfig) : EscHook :=
  if st.pushesEntry then
    { st with stack := (st.commitEntry hasTarget config :: st.stack).take kMaxStack }.ClearWordState
  else st.ClearWordState

/-- C++ `HandleGhostChar` -/
def HandleGhostChar (config : TypingConfig) (ch : Char) : EscHook :=
  if AsciiKey ch then
    let word := st.clearStale
    let engine := st.engine.pushChar config ch
    { st with
      toHookWord := { word with engine, previousComposition := wide engine.peek }
      inputHistory := st.inputHistory ++ [ch] }
  else st

/-- C++ `TryEscRestoreRaw`: what is asked of the injector, and the fields afterwards. The commit may be
older than `kCommitUndoTimeoutMs`, and the injection may fail. -/
def TryEscRestoreRaw (expired injOk : Bool) : Option Edit × EscHook :=
  if 0 < st.engine.count then
    -- one Backspace for each character of the engine, whatever the code table
    let composedCount := st.engine.count
    let raw := wide st.engine.peekRaw
    if raw = [] then (none, st)
    else (some ⟨composedCount, raw, none⟩, if injOk then { st with engine := {} } else st)
  else if st.phase = .primed then
    match st.stack with
    | [] => (none, st)
    | top :: _ =>
      if expired then (none, st.CancelCommitUndo)
      else if top.rawInput = [] then (none, st)
      else
        -- the widths of the entry count what the table made of it
        let bsCount :=
          if st.currentCodeTable ≠ .Unicode then top.widths.sum else top.text.length
        (some ⟨bsCount, top.rawInput, none⟩, if injOk then st.CancelCommitUndo else st)
  else (none, st)

end EscHook

/-- The hook, and the words of its stack as they stood on screen when they were committed. -/
structure EscState where
  hook : EscHook
  committed : List EncodedWord := []

/-- What happens to the hook. -/
inductive EscEvent where
  | key (hasTarget : Bool) (key : EngineKey)
  | undoCommit (hasTarget : Bool) (key : EngineKey)
  | commitComposition (hasTarget : Bool) (config : TypingConfig)
  | ghostChar (config : TypingConfig) (ch : Char)
  | cancelComposition (expired injOk : Bool)
  /-- A click, a shortcut, another window, the end of an expansion. -/
  | resetComposition
  | cancelCommitUndo
  /-- A letter that begins another word behind the committed one. -/
  | dropTop
  | moveUndo (phase : CommitPhase)
  | autoCap (autoCapState : AutoCapState)
  | codeTable (table : CodeTable)
  /-- Another configuration. -/
  | newEngine

/-- One event. -/
def escStep (st : EscState) : EscEvent → EscState
  | .key hasTarget key => { st with hook := st.hook.press hasTarget key }
  | .undoCommit hasTarget key =>
    { hook := st.hook.undoCommit hasTarget key
      committed :=
        if st.hook.phase = .primed ∧ st.hook.engine.count = 0 then st.committed.tail
        else st.committed }
  | .commitComposition hasTarget config =>
    { hook := st.hook.CommitComposition hasTarget config
      committed :=
        if st.hook.pushesEntry then
          (st.hook.committedWord hasTarget config :: st.committed).take kMaxStack
        else st.committed }
  | .ghostChar config ch => { st with hook := st.hook.HandleGhostChar config ch }
  | .cancelComposition expired injOk =>
    let hook := (st.hook.TryEscRestoreRaw expired injOk).2
    { hook, committed := if hook.stack = [] then [] else st.committed }
  | .resetComposition => { hook := st.hook.ClearWordState.CancelCommitUndo }
  | .cancelCommitUndo => { hook := st.hook.CancelCommitUndo }
  | .dropTop =>
    { hook := { st.hook with stack := st.hook.stack.tail, phase := .idle }
      committed := st.committed.tail }
  | .moveUndo phase => { st with hook := { st.hook with phase } }
  | .autoCap autoCapState =>
    { st with hook := { st.hook with toHookWord := { st.hook.toHookWord with autoCapState } } }
  | .codeTable table =>
    { st with
      hook := { st.hook with
        toHookWord := { st.hook.toHookWord with currentCodeTable := table } } }
  | .newEngine => { st with hook := { st.hook with engine := {} } }

/-- Nothing typed yet. -/
def escStart (autoCapState : AutoCapState) (table : CodeTable) : EscState where
  hook := { engine := {}, autoCapState, currentCodeTable := table }

/-- The units of a word on screen, by the fields that are kept of it. -/
def EncodedWord.units (table : CodeTable) (word : EncodedWord) : Nat :=
  if table ≠ .Unicode then word.previousEncodedWidths.sum else word.previousComposition.length

namespace EscState

variable (st : EscState)

/-- The word that Escape restores. -/
def target : Option EncodedWord :=
  if 0 < st.hook.engine.count then some st.hook.toEncodedWord else st.committed.head?

/-- Escape deletes the units of the word, none too many and none too few. -/
def DeletesWord : Prop :=
  ∀ expired injOk, ∀ edit ∈ (st.hook.TryEscRestoreRaw expired injOk).1,
    ∃ word ∈ st.target, edit.bsCount = word.units st.hook.currentCodeTable

/-- A word that is composed with another table than Unicode has one unit for each character. -/
def OneUnitEach : Prop :=
  0 < st.hook.engine.count → st.hook.engine.peekRaw ≠ [] → st.hook.currentCodeTable ≠ .Unicode →
    st.hook.previousEncodedWidths.sum = st.hook.previousComposition.length

/-- No character of a word that is composed takes two units. -/
def NoPairs : Prop :=
  0 < st.hook.engine.count → st.hook.engine.peekRaw ≠ [] →
    ∀ ch ∈ wide st.hook.engine.peek, unitCount st.hook.currentCodeTable ch = 1

end EscState

/-- Every word is written under one code table, and with another one than Unicode by the hook alone. -/
def Written (st : EscState) : EscEvent → Prop
  | .key hasTarget _ | .undoCommit hasTarget _ | .commitComposition hasTarget _ =>
    st.hook.currentCodeTable = .Unicode ∨ hasTarget
  | .ghostChar _ _ => st.hook.currentCodeTable = .Unicode
  | .codeTable table =>
    table = st.hook.currentCodeTable ∨ st.hook.toEncodedWord = {} ∧ st.hook.stack = []
  | .cancelComposition _ _ | .resetComposition | .cancelCommitUndo | .dropTop | .moveUndo _
  | .autoCap _ | .newEngine => True

variable {hasTarget : Bool} {config : TypingConfig}

omit [WideLocale] in
/-- `ReplaceComposition` keeps the composition it is called with. -/
lemma EncodedWord.ReplaceComposition_composition (word : EncodedWord) (table : CodeTable)
    (newText : WString) (vk : Option Nat) :
    (word.ReplaceComposition hasTarget table newText vk).2.previousComposition = newText := by
  unfold EncodedWord.ReplaceComposition
  split
  · rfl
  · dsimp only
    split
    · rfl
    · rfl

namespace HookWord

omit [WideLocale] in
/-- A replacement, in whatever window. -/
lemma targeted_replace (st : HookWord) (composition : WString) (vk : Option Nat) :
    (targeted hasTarget (st.replace composition vk)).engine = st.engine ∧
      (targeted hasTarget (st.replace composition vk)).previousComposition = composition ∧
      (targeted hasTarget (st.replace composition vk)).currentCodeTable = st.currentCodeTable := by
  unfold targeted replace
  dsimp only
  split
  · exact ⟨rfl, st.ReplaceComposition_composition _ _ _, rfl⟩
  · exact ⟨rfl, st.ReplaceComposition_composition _ _ _, rfl⟩

/-- A letter is pushed, and the composition shows it. -/
lemma targeted_HandleAlphaKey (st : HookWord) (context : TypingContext) (d : OutputDispatcher)
    (vkCode : Nat) (shift capsLock : Bool) :
    (targeted hasTarget (st.HandleAlphaKey context d vkCode shift capsLock)).engine =
        st.engine.pushChar context.config
          (st.pushedChar context (originalCh vkCode shift capsLock)) ∧
      (targeted hasTarget (st.HandleAlphaKey context d vkCode shift capsLock)).previousComposition =
        wide (st.engine.pushChar context.config
          (st.pushedChar context (originalCh vkCode shift capsLock))).peek ∧
      (targeted hasTarget (st.HandleAlphaKey context d vkCode shift capsLock)).currentCodeTable =
        st.currentCodeTable := by
  have hpush : (st.pushLetter context (originalCh vkCode shift capsLock)).1.engine =
      st.engine.pushChar context.config
        (st.pushedChar context (originalCh vkCode shift capsLock)) := rfl
  have htable : (st.pushLetter context (originalCh vkCode shift capsLock)).1.currentCodeTable =
      st.currentCodeTable := by
    unfold pushLetter clearStale
    dsimp only
    split
    · rfl
    · rfl
  unfold HandleAlphaKey
  dsimp only
  generalize st.pushLetter context (originalCh vkCode shift capsLock) = pushed at hpush htable ⊢
  rw [← hpush, ← htable]
  unfold outputLetter
  dsimp only
  split
  · exact ⟨rfl, rfl, rfl⟩
  · split
    · exact targeted_replace { pushed.1 with
        previousComposition := pushed.1.previousComposition ++ [_] } _ _
    · exact targeted_replace pushed.1 _ _

/-- After a Backspace the composition shows what is left. -/
lemma targeted_HandleBackspace (st : HookWord) :
    (targeted hasTarget (st.HandleBackspace config)).engine = st.engine.backspace config ∧
      (0 < (st.engine.backspace config).count →
        (targeted hasTarget (st.HandleBackspace config)).previousComposition =
          wide (st.engine.backspace config).peek) ∧
      (targeted hasTarget (st.HandleBackspace config)).currentCodeTable = st.currentCodeTable := by
  unfold HandleBackspace
  dsimp only
  split
  · obtain ⟨hengine, hlast, htable⟩ :=
      @targeted_replace hasTarget { st with engine := st.engine.backspace config }
        (wide (st.engine.backspace config).peek) none
    exact ⟨hengine, fun _ => hlast, htable⟩
  · next hcount =>
    split
    · exact ⟨rfl, fun h => absurd h hcount, rfl⟩
    · exact ⟨rfl, fun h => absurd h hcount, rfl⟩

end HookWord

namespace EscHook

variable {st : EscHook}

/-- The engine and the histories come from the keyboard. -/
structure Keyed (st : EscHook) : Prop where
  engine : st.engine.Reachable
  history : ∀ ch ∈ st.inputHistory, AsciiKey ch
  histories : ∀ entry ∈ st.stack, ∀ ch ∈ entry.history, AsciiKey ch

/-- While a word is composed the previous composition is what the engine shows. -/
structure Composes (st : EscHook) : Prop extends st.Keyed where
  composition : 0 < st.engine.count → st.previousComposition = wide st.engine.peek

omit [WideLocale] in
/-- One more keystroke in the history. -/
lemma ascii_append {history : List Char} (h : ∀ ch ∈ history, AsciiKey ch) {c : Char}
    (hc : AsciiKey c) : ∀ ch ∈ history ++ [c], AsciiKey ch := by
  intro ch hch
  obtain hch | hch := List.mem_append.1 hch
  · exact h ch hch
  · rw [List.mem_singleton.1 hch]
    exact hc

/-- A key brings the composition back to what the engine shows. -/
lemma Keyed.press (h : st.Keyed) (key : EngineKey) : (st.press hasTarget key).Composes := by
  cases key with
  | letter context d vkCode isLetter shift capsLock =>
    obtain ⟨hengine, hlast, -⟩ :=
      @HookWord.targeted_HandleAlphaKey _ hasTarget st.toHookWord context d vkCode shift capsLock
    have hc : AsciiKey (st.pushedChar context (originalCh vkCode shift capsLock)) :=
      autoCapitalize_ascii (originalCh_ascii isLetter)
    refine ⟨⟨?_, ascii_append h.history hc, h.histories⟩, fun _ => ?_⟩
    · show (HookWord.targeted _ _).engine.Reachable
      rw [hengine]
      exact .push h.engine hc
    · show (HookWord.targeted _ _).previousComposition = wide (HookWord.targeted _ _).engine.peek
      rw [hengine, hlast]
  | char config ch isAscii =>
    obtain ⟨hengine, hlast, -⟩ :=
      @HookWord.targeted_replace hasTarget { st.toHookWord with engine := st.engine.pushChar config ch }
        (wide (st.engine.pushChar config ch).peek) none
    refine ⟨⟨?_, ascii_append h.history isAscii, h.histories⟩, fun _ => ?_⟩
    · show (HookWord.targeted _ _).engine.Reachable
      rw [hengine]
      exact .push h.engine isAscii
    · show (HookWord.targeted _ _).previousComposition = wide (HookWord.targeted _ _).engine.peek
      rw [hengine, hlast]
  | back config =>
    obtain ⟨hengine, hlast, -⟩ := @HookWord.targeted_HandleBackspace _ hasTarget config st.toHookWord
    refine ⟨⟨?_, ascii_append h.history (by decide), h.histories⟩, fun hcount => ?_⟩
    · show (HookWord.targeted _ _).engine.Reachable
      rw [hengine]
      exact .back h.engine
    · show (HookWord.targeted _ _).previousComposition = wide (HookWord.targeted _ _).engine.peek
      change 0 < (HookWord.targeted _ _).engine.count at hcount
      rw [hengine] at hcount ⊢
      exact hlast hcount

/-- A committed word is typed into the engine again. -/
lemma reachable_replayed {engine : EngineState} (h : engine.Reachable) {history : List Char}
    (hascii : ∀ ch ∈ history, AsciiKey ch) :
    (history.foldl (replayed config) engine).Reachable := by
  induction history generalizing engine with
  | nil => exact h
  | cons ch rest ih =>
    obtain ⟨hch, hrest⟩ := List.forall_mem_cons.1 hascii
    refine ih ?_ hrest
    unfold replayed
    split
    · exact .back h
    · exact .push h hch

/-- A word that is replayed has its keys. -/
lemma Keyed.replayCommittedChars (h : st.Keyed) : (st.ReplayCommittedChars config).Keyed := by
  unfold ReplayCommittedChars
  split
  · exact ⟨h.engine, h.history, h.histories⟩
  · next entry rest hstack =>
    have hall := h.histories
    rw [hstack] at hall
    obtain ⟨hentry, hrest⟩ := List.forall_mem_cons.1 hall
    exact ⟨reachable_replayed h.engine hentry, hentry, hrest⟩

/-- Nothing is composed. -/
lemma Keyed.empty (h : st.Keyed) (hcount : st.engine.count = 0) : st.Composes :=
  ⟨h, fun hpos => absurd hpos (by omega)⟩

/-- The undo of a commit composes again. -/
lemma Composes.undoCommit (h : st.Composes) (key : EngineKey) :
    (st.undoCommit hasTarget key).Composes := by
  unfold EscHook.undoCommit
  split
  · have hreplayed : (st.ReplayCommittedChars key.config).Keyed := h.toKeyed.replayCommittedChars
    cases key with
    | char config ch isAscii =>
      dsimp only at hreplayed ⊢
      split
      · next hcount => exact hreplayed.empty hcount
      · exact hreplayed.press _
    | letter context d vkCode isLetter shift capsLock => exact hreplayed.press _
    | back config => exact hreplayed.press _
  · exact h

/-- The composition of a word that is cleared. -/
lemma Keyed.clearWordState (h : st.Keyed) : st.ClearWordState.Composes :=
  ⟨⟨.init, by simp [ClearWordState], h.histories⟩, fun hpos => absurd hpos (Nat.lt_irrefl 0)⟩

/-- Nothing is composed when the undo is canceled. -/
lemma Composes.cancelCommitUndo (h : st.Composes) : st.CancelCommitUndo.Composes :=
  ⟨⟨h.engine, h.history, by simp [CancelCommitUndo]⟩, h.composition⟩

/-- What the engine and the composition do not depend on. -/
lemma Composes.keep {st' : EscHook} (h : st.Composes) (hengine : st'.engine = st.engine)
    (hcomposition : st'.previousComposition = st.previousComposition)
    (hhistory : st'.inputHistory = st.inputHistory) (hstack : st'.stack ⊆ st.stack) :
    st'.Composes := by
  refine ⟨⟨?_, ?_, fun entry hentry => h.histories entry (hstack hentry)⟩, ?_⟩
  · rw [hengine]
    exact h.engine
  · rw [hhistory]
    exact h.history
  · rw [hengine, hcomposition]
    exact h.composition

/-- Nor when the composition is committed. -/
lemma Composes.commitComposition (h : st.Composes) :
    (st.CommitComposition hasTarget config).Composes := by
  unfold EscHook.CommitComposition
  split
  · refine Keyed.clearWordState ⟨h.engine, h.history, ?_⟩
    intro entry hentry
    obtain rfl | hentry := List.mem_cons.1 (List.mem_of_mem_take hentry)
    · exact h.history
    · exact h.histories entry hentry
  · exact h.toKeyed.clearWordState

/-- A ghost character composes. -/
lemma Composes.handleGhostChar (h : st.Composes) (ch : Char) :
    (st.HandleGhostChar config ch).Composes := by
  unfold EscHook.HandleGhostChar
  split
  · next hascii =>
    exact ⟨⟨.push h.engine hascii, ascii_append h.history hascii, h.histories⟩, fun _ => rfl⟩
  · exact h

omit [WideLocale] in
/-- Escape changes nothing, resets the engine or clears the stack. -/
lemma TryEscRestoreRaw_eq (expired injOk : Bool) :
    (st.TryEscRestoreRaw expired injOk).2 = st ∨
      (st.TryEscRestoreRaw expired injOk).2 = { st with engine := {} } ∨
      (st.TryEscRestoreRaw expired injOk).2 = st.CancelCommitUndo := by
  unfold TryEscRestoreRaw
  dsimp only
  split
  · split
    · exact .inl rfl
    · cases injOk with
      | true => exact .inr (.inl rfl)
      | false => exact .inl rfl
  · split
    · split
      · exact .inl rfl
      · split
        · exact .inr (.inr rfl)
        · split
          · exact .inl rfl
          · cases injOk with
            | true => exact .inr (.inr rfl)
            | false => exact .inl rfl
    · exact .inl rfl

omit [WideLocale] in
/-- A key leaves the committed words. -/
lemma press_stack [WideLocale] (key : EngineKey) : (st.press hasTarget key).stack = st.stack := by
  cases key <;> rfl

/-- The undo of a commit takes the top of the stack. -/
lemma undoCommit_stack (key : EngineKey) :
    (st.undoCommit hasTarget key).stack =
      if st.phase = .primed ∧ st.engine.count = 0 then st.stack.tail else st.stack := by
  have htail : (st.ReplayCommittedChars key.config).stack = st.stack.tail := by
    unfold ReplayCommittedChars
    split
    · next hnil =>
      exact hnil.trans (by rw [hnil, List.tail_nil])
    · next hcons => rw [hcons, List.tail_cons]
  unfold undoCommit
  split
  · dsimp only
    cases key with
    | char config ch isAscii =>
      dsimp only at htail ⊢
      split
      · exact htail
      · exact (press_stack _).trans htail
    | letter context d vkCode isLetter shift capsLock => exact (press_stack _).trans htail
    | back config => exact (press_stack _).trans htail
  · rfl

/-- So does a ghost character. -/
lemma handleGhostChar_stack (ch : Char) : (st.HandleGhostChar config ch).stack = st.stack := by
  unfold HandleGhostChar
  split
  · rfl
  · rfl

/-- The entry of a commit has the text and the widths of the word on screen. -/
lemma commitEntry_word :
    (st.commitEntry hasTarget config).word = st.committedWord hasTarget config := by
  unfold WordEntry.word commitEntry committedWord
  dsimp only
  split
  · have hlast := @EncodedWord.ReplaceComposition_composition hasTarget st.toEncodedWord
      st.currentCodeTable (wide (st.engine.commit config).2) none
    generalize st.ReplaceComposition hasTarget st.currentCodeTable
      (wide (st.engine.commit config).2) none = r at hlast ⊢
    rw [← hlast]
  · rfl

end EscHook

namespace EscState

variable {st : EscState}

/-- What holds between two events. -/
structure Followed (st : EscState) : Prop where
  composes : st.hook.Composes
  committed : st.committed = st.hook.stack.map WordEntry.word

/-- At the start the record is right. -/
lemma followed_start (autoCapState : AutoCapState) (table : CodeTable) :
    (escStart autoCapState table).Followed :=
  ⟨⟨⟨.init, by simp [escStart], by simp [escStart]⟩, fun h => absurd h (Nat.lt_irrefl 0)⟩, rfl⟩

/-- Every event is followed. -/
lemma Followed.step (h : st.Followed) (event : EscEvent) : (escStep st event).Followed := by
  obtain ⟨hcomposes, hcommitted⟩ := h
  cases event with
  | key hasTarget key =>
    refine ⟨hcomposes.toKeyed.press key, ?_⟩
    rw [escStep, EscHook.press_stack]
    exact hcommitted
  | undoCommit hasTarget key =>
    refine ⟨hcomposes.undoCommit key, ?_⟩
    rw [escStep, EscHook.undoCommit_stack]
    dsimp only
    split
    · rw [hcommitted, List.map_tail]
    · exact hcommitted
  | commitComposition hasTarget config =>
    refine ⟨hcomposes.commitComposition, ?_⟩
    unfold escStep EscHook.CommitComposition
    dsimp only
    split
    · rw [hcommitted, ← EscHook.commitEntry_word, ← List.map_cons, ← List.map_take]
      rfl
    · exact hcommitted
  | ghostChar config ch =>
    refine ⟨hcomposes.handleGhostChar ch, ?_⟩
    rw [escStep, EscHook.handleGhostChar_stack]
    exact hcommitted
  | cancelComposition expired injOk =>
    have hkept (hook : EscHook) (hstack : hook.stack = st.hook.stack) :
        (if hook.stack = [] then [] else st.committed) =
          hook.stack.map WordEntry.word := by
      split
      · next hnil => rw [hnil, List.map_nil]
      · rw [hstack]
        exact hcommitted
    unfold escStep
    dsimp only
    obtain hsame | hreset | hcancel := @EscHook.TryEscRestoreRaw_eq st.hook expired injOk
    · rw [hsame]
      exact ⟨hcomposes, hkept _ rfl⟩
    · rw [hreset]
      refine ⟨?_, hkept _ rfl⟩
      exact EscHook.Keyed.empty ⟨.init, hcomposes.history, hcomposes.histories⟩ rfl
    · rw [hcancel]
      exact ⟨hcomposes.cancelCommitUndo, rfl⟩
  | resetComposition => exact ⟨hcomposes.toKeyed.clearWordState.cancelCommitUndo, rfl⟩
  | cancelCommitUndo => exact ⟨hcomposes.cancelCommitUndo, rfl⟩
  | dropTop =>
    refine ⟨hcomposes.keep rfl rfl rfl fun _ => List.mem_of_mem_tail, ?_⟩
    unfold escStep
    dsimp only
    rw [hcommitted, List.map_tail]
  | moveUndo phase => exact ⟨hcomposes.keep rfl rfl rfl (List.Subset.refl _), hcommitted⟩
  | autoCap autoCapState => exact ⟨hcomposes.keep rfl rfl rfl (List.Subset.refl _), hcommitted⟩
  | codeTable table => exact ⟨hcomposes.keep rfl rfl rfl (List.Subset.refl _), hcommitted⟩
  | newEngine =>
    exact ⟨EscHook.Keyed.empty ⟨.init, hcomposes.history, hcomposes.histories⟩ rfl, hcommitted⟩

/-- As many characters as are composed. -/
lemma Followed.count_eq (h : st.Followed) (hcount : 0 < st.hook.engine.count) :
    st.hook.engine.count = st.hook.previousComposition.length := by
  rw [h.composes.composition hcount, wide, List.length_map]
  exact h.composes.engine.typed.bases.length_composeAll.symm

/-- The right word is deleted when each character is one unit. -/
lemma Followed.deletesWord_iff (h : st.Followed) : st.DeletesWord ↔ st.OneUnitEach := by
  constructor
  · intro hdeletes hcount hraw htable
    have hwide : wide st.hook.engine.peekRaw ≠ [] := fun hnil => hraw (List.map_eq_nil_iff.1 hnil)
    have hedit : (st.hook.TryEscRestoreRaw false true).1 =
        some ⟨st.hook.engine.count, wide st.hook.engine.peekRaw, none⟩ := by
      unfold EscHook.TryEscRestoreRaw
      dsimp only
      rw [if_pos hcount, if_neg hwide]
    obtain ⟨word, hword, hunits⟩ := hdeletes false true _ hedit
    rw [target, if_pos hcount] at hword
    obtain rfl := Option.some.inj hword
    rw [EncodedWord.units, if_pos htable] at hunits
    exact hunits.symm.trans (h.count_eq hcount)
  · intro hone expired injOk edit hedit
    unfold EscHook.TryEscRestoreRaw at hedit
    dsimp only at hedit
    unfold target EncodedWord.units
    split at hedit
    · next hcount =>
      rw [if_pos hcount]
      split at hedit
      · cases hedit
      · next hwide =>
        cases hedit
        refine ⟨_, rfl, ?_⟩
        have hraw : st.hook.engine.peekRaw ≠ [] := fun hnil => hwide (by rw [hnil]; rfl)
        split
        · next htable => exact (h.count_eq hcount).trans (hone hcount hraw htable).symm
        · exact h.count_eq hcount
    · -- a committed word is deleted by the word its entry keeps
      next hcount =>
      rw [if_neg hcount, h.committed]
      split at hedit
      · split at hedit
        · cases hedit
        · next top rest hstack =>
          rw [hstack]
          split at hedit
          · cases hedit
          · split at hedit
            · cases hedit
            · cases hedit
              exact ⟨_, rfl, rfl⟩
      · cases hedit

end EscState

/-- With another table than Unicode the widths are those of the composition. -/
def EncodedWord.Encodes (table : CodeTable) (word : EncodedWord) : Prop :=
  table ≠ .Unicode → word.previousEncodedWidths = word.previousComposition.map (unitCount table)

namespace EncodedWord

variable {table : CodeTable} {word : EncodedWord}

omit [WideLocale] in
/-- Nothing is encoded by nothing. -/
lemma encodes_nil : ({} : EncodedWord).Encodes table := fun _ => rfl

omit [WideLocale] in
/-- In Unicode nothing is to be encoded. -/
lemma encodes_unicode (h : table = .Unicode) : word.Encodes table := fun hne => absurd h hne

omit [WideLocale] in
/-- One replacement, in a window. -/
lemma Encodes.replace (h : word.Encodes table) (newText : WString) (vk : Option Nat) :
    (word.ReplaceComposition true table newText vk).2.Encodes table :=
  (Shows.replace ⟨rfl, h⟩ newText vk).1.widths

omit [WideLocale] in
/-- The units the word was written in. -/
lemma Encodes.units_eq (h : word.Encodes table) :
    word.units table = (encodeText table word.previousComposition).length := by
  unfold units
  split
  · next htable => rw [h htable, length_encodeText]
  · next htable => rw [not_not.1 htable, encodeText_Unicode]

end EncodedWord

namespace HookWord

variable {st : HookWord}

omit [WideLocale] in
/-- With a target the word is what it became. -/
lemma targeted_true (r : HookWord × KeyResult) : targeted true r = r.1 := by
  unfold targeted
  split <;> rfl

/-- A letter is encoded. -/
lemma encodes_HandleAlphaKey (h : st.Encodes st.currentCodeTable)
    (htable : st.currentCodeTable ≠ .Unicode) (context : TypingContext) (d : OutputDispatcher)
    (vkCode : Nat) (shift capsLock : Bool) :
    (st.HandleAlphaKey context d vkCode shift capsLock).1.Encodes st.currentCodeTable := by
  obtain ⟨hword, hsame⟩ :
      (st.pushLetter context (originalCh vkCode shift capsLock)).1.Encodes st.currentCodeTable ∧
        (st.pushLetter context (originalCh vkCode shift capsLock)).1.currentCodeTable =
          st.currentCodeTable := by
    unfold pushLetter clearStale
    dsimp only
    split
    · exact ⟨EncodedWord.encodes_nil, rfl⟩
    · exact ⟨h, rfl⟩
  unfold HandleAlphaKey
  dsimp only
  generalize st.pushLetter context (originalCh vkCode shift capsLock) = pushed at hword hsame ⊢
  rw [← hsame] at htable hword ⊢
  unfold outputLetter
  dsimp only
  rw [if_neg fun hpass => htable hpass.1, if_neg fun hreinject => htable hreinject.2.1]
  exact hword.replace _ none

/-- What Backspace leaves is encoded. -/
lemma encodes_HandleBackspace (h : st.Encodes st.currentCodeTable) :
    (st.HandleBackspace config).1.Encodes st.currentCodeTable := by
  unfold HandleBackspace
  dsimp only
  split
  · exact h.replace _ none
  · split
    · exact EncodedWord.encodes_nil
    · exact h

end HookWord

namespace EscHook

variable {st : EscHook}

/-- The word that is composed and the committed ones. -/
structure Encoded (st : EscHook) : Prop where
  word : st.Encodes st.currentCodeTable
  entries : ∀ entry ∈ st.stack, entry.word.Encodes st.currentCodeTable

omit [WideLocale] in
/-- In Unicode the word is as good as encoded. -/
lemma encoded_unicode (h : st.currentCodeTable = .Unicode) : st.Encoded :=
  ⟨EncodedWord.encodes_unicode h, fun _ _ => EncodedWord.encodes_unicode h⟩

/-- A key leaves the table. -/
lemma press_table (key : EngineKey) :
    (st.press hasTarget key).currentCodeTable = st.currentCodeTable := by
  cases key with
  | letter context d vkCode isLetter shift capsLock =>
    exact (HookWord.targeted_HandleAlphaKey _ context d vkCode shift capsLock).2.2
  | char config ch isAscii =>
    exact (@HookWord.targeted_replace hasTarget
      { st.toHookWord with engine := st.engine.pushChar config ch } _ none).2.2
  | back config => exact (@HookWord.targeted_HandleBackspace _ hasTarget config st.toHookWord).2.2

/-- A key leaves the word encoded. -/
lemma Encoded.press (h : st.Encoded) (hwritten : st.currentCodeTable = .Unicode ∨ hasTarget)
    (key : EngineKey) : (st.press hasTarget key).Encoded := by
  by_cases htable : st.currentCodeTable = .Unicode
  · exact encoded_unicode ((press_table key).trans htable)
  · have htarget : hasTarget = true := hwritten.resolve_left htable
    subst htarget
    have hword : (st.press true key).Encodes st.currentCodeTable := by
      cases key with
      | letter context d vkCode isLetter shift capsLock =>
        show (HookWord.targeted true _).Encodes _
        rw [HookWord.targeted_true]
        exact HookWord.encodes_HandleAlphaKey h.word htable context d vkCode shift capsLock
      | char config ch isAscii =>
        show (HookWord.targeted true _).Encodes _
        rw [HookWord.targeted_true]
        exact h.word.replace _ none
      | back config =>
        show (HookWord.targeted true _).Encodes _
        rw [HookWord.targeted_true]
        exact HookWord.encodes_HandleBackspace h.word
    constructor
    · rw [press_table]
      exact hword
    · rw [press_table, press_stack]
      exact h.entries

/-- So does a replay. -/
lemma Encoded.replayCommittedChars (h : st.Encoded) :
    (st.ReplayCommittedChars config).Encoded ∧
      (st.ReplayCommittedChars config).currentCodeTable = st.currentCodeTable := by
  unfold ReplayCommittedChars
  split
  · exact ⟨⟨h.word, h.entries⟩, rfl⟩
  · next entry rest hstack =>
    have hall := h.entries
    rw [hstack] at hall
    obtain ⟨hentry, hrest⟩ := List.forall_mem_cons.1 hall
    exact ⟨⟨hentry, hrest⟩, rfl⟩

/-- So does the undo of a commit. -/
lemma Encoded.undoCommit (h : st.Encoded) (hwritten : st.currentCodeTable = .Unicode ∨ hasTarget)
    (key : EngineKey) : (st.undoCommit hasTarget key).Encoded := by
  obtain ⟨hreplayed, htable⟩ := @Encoded.replayCommittedChars _ key.config st h
  rw [← htable] at hwritten
  unfold EscHook.undoCommit
  split
  · cases key with
    | char config ch isAscii =>
      dsimp only
      split
      · exact hreplayed
      · exact hreplayed.press hwritten _
    | letter context d vkCode isLetter shift capsLock => exact hreplayed.press hwritten _
    | back config => exact hreplayed.press hwritten _
  · exact h

/-- So does a commit. -/
lemma Encoded.commitComposition (h : st.Encoded)
    (hwritten : st.currentCodeTable = .Unicode ∨ hasTarget) :
    (st.CommitComposition hasTarget config).Encoded := by
  have hcommitted : (st.committedWord hasTarget config).Encodes st.currentCodeTable := by
    by_cases htable : st.currentCodeTable = .Unicode
    · exact EncodedWord.encodes_unicode htable
    · rw [hwritten.resolve_left htable]
      unfold committedWord
      dsimp only
      split
      · exact h.word.replace _ none
      · exact h.word
  unfold EscHook.CommitComposition
  split
  · refine ⟨EncodedWord.encodes_nil, fun entry hentry => ?_⟩
    obtain rfl | hentry := List.mem_cons.1 (List.mem_of_mem_take hentry)
    · rw [commitEntry_word]
      exact hcommitted
    · exact h.entries entry hentry
  · exact ⟨EncodedWord.encodes_nil, h.entries⟩

end EscHook

namespace EscState

variable {st : EscState}

omit [WideLocale] in
/-- At the start there is no word. -/
lemma encoded_start (autoCapState : AutoCapState) (table : CodeTable) :
    (escStart autoCapState table).hook.Encoded :=
  ⟨EncodedWord.encodes_nil, by simp [escStart]⟩

/-- What every event preserves. -/
lemma encoded_step {event : EscEvent} (h : st.hook.Encoded) (hwritten : Written st event) :
    (escStep st event).hook.Encoded := by
  cases event with
  | key hasTarget key => exact h.press hwritten key
  | undoCommit hasTarget key => exact h.undoCommit hwritten key
  | commitComposition hasTarget config => exact h.commitComposition hwritten
  | ghostChar config ch =>
    -- a ghost character counts no widths, so only Unicode allows it
    refine EscHook.encoded_unicode (Eq.trans ?_ hwritten)
    show (st.hook.HandleGhostChar config ch).currentCodeTable = _
    unfold EscHook.HandleGhostChar HookWord.clearStale
    dsimp only
    split
    · split
      · rfl
      · rfl
    · rfl
  | cancelComposition expired injOk =>
    unfold escStep
    dsimp only
    obtain hsame | hreset | hcancel := @EscHook.TryEscRestoreRaw_eq st.hook expired injOk
    · rw [hsame]
      exact h
    · rw [hreset]
      exact ⟨h.word, h.entries⟩
    · rw [hcancel]
      exact ⟨h.word, by simp [EscHook.CancelCommitUndo]⟩
  | resetComposition => exact ⟨EncodedWord.encodes_nil, by simp [escStep, EscHook.CancelCommitUndo]⟩
  | cancelCommitUndo => exact ⟨h.word, by simp [escStep, EscHook.CancelCommitUndo]⟩
  | dropTop => exact ⟨h.word, fun entry hentry => h.entries entry (List.mem_of_mem_tail hentry)⟩
  | moveUndo phase => exact ⟨h.word, h.entries⟩
  | autoCap autoCapState => exact ⟨h.word, h.entries⟩
  | codeTable table =>
    obtain rfl | ⟨hword, hstack⟩ := hwritten
    · exact ⟨h.word, h.entries⟩
    · constructor
      · show st.hook.toEncodedWord.Encodes table
        rw [hword]
        exact EncodedWord.encodes_nil
      · show ∀ entry ∈ st.hook.stack, _
        rw [hstack]
        simp
  | newEngine => exact ⟨h.word, h.entries⟩

omit [WideLocale] in
/-- A sum of numbers from one on. -/
lemma sum_map_eq_length {f : UInt16 → Nat} (hf : ∀ ch, 1 ≤ f ch) (text : WString) :
    (text.map f).sum = text.length ↔ ∀ ch ∈ text, f ch = 1 := by
  have hle : ∀ text : WString, text.length ≤ (text.map f).sum := by
    intro text
    induction text with
    | nil => exact Nat.le_refl 0
    | cons ch rest ih =>
      rw [List.map_cons, List.sum_cons, List.length_cons]
      have := hf ch
      omega
  induction text with
  | nil => simp
  | cons ch rest ih =>
    have hone := hf ch
    have hrest := hle rest
    rw [List.map_cons, List.sum_cons, List.length_cons, List.forall_mem_cons]
    constructor
    · intro hsum
      exact ⟨by omega, ih.1 (by omega)⟩
    · rintro ⟨hch, hall⟩
      rw [hch, ih.2 hall, Nat.add_comm]

/-- In a word of one code table. -/
lemma Followed.oneUnitEach_iff (h : st.Followed) (hencoded : st.hook.Encoded) :
    st.OneUnitEach ↔ st.NoPairs := by
  have hpos : ∀ ch, 1 ≤ unitCount st.hook.currentCodeTable ch := by
    intro ch
    exact Nat.succ_le_succ (Nat.zero_le _)
  by_cases htable : st.hook.currentCodeTable = .Unicode
  · refine ⟨fun _ _ _ ch _ => ?_, fun _ _ _ hne => absurd htable hne⟩
    rw [htable]
    rfl
  · have hsum (hcount : 0 < st.hook.engine.count) :
        st.hook.previousEncodedWidths.sum = st.hook.previousComposition.length ↔
          ∀ ch ∈ wide st.hook.engine.peek, unitCount st.hook.currentCodeTable ch = 1 := by
      rw [hencoded.word htable, h.composes.composition hcount]
      exact sum_map_eq_length hpos _
    constructor
    · intro hone hcount hraw
      exact (hsum hcount).1 (hone hcount hraw htable)
    · intro hpairs hcount hraw _
      exact (hsum hcount).2 (hpairs hcount hraw)

/-- The word that Escape restores, in the units it was written in. -/
lemma Followed.units_target (h : st.Followed) (hencoded : st.hook.Encoded) :
    ∀ word ∈ st.target, word.units st.hook.currentCodeTable =
      (encodeText st.hook.currentCodeTable word.previousComposition).length := by
  intro word hword
  unfold target at hword
  split at hword
  · cases hword
    exact hencoded.word.units_eq
  · rw [h.committed, List.head?_map] at hword
    obtain ⟨entry, hentry, rfl⟩ := Option.map_eq_some_iff.1 hword
    exact (hencoded.entries entry (List.mem_of_head? hentry)).units_eq

/-- In every run Escape deletes the word it restores, except for a live word in another table than
Unicode that has not one unit for each character. When every word is written under one table, that is a
word with a character of two units, and what Escape has to delete is what was written. -/
theorem deletesWord_run (autoCapState : AutoCapState) (table : CodeTable) (events : List EscEvent) :
    let st := Machine.run escStep (escStart autoCapState table) events
    (st.DeletesWord ↔ st.OneUnitEach) ∧
      (Machine.Guarded escStep Written (escStart autoCapState table) events →
        (st.OneUnitEach ↔ st.NoPairs) ∧
          ∀ word ∈ st.target, word.units st.hook.currentCodeTable =
            (encodeText st.hook.currentCodeTable word.previousComposition).length) := by
  have hfollowed : (Machine.run escStep (escStart autoCapState table) events).Followed :=
    Machine.run_invariant (followed_start autoCapState table) fun h => h.step _
  refine ⟨hfollowed.deletesWord_iff, fun hwritten => ?_⟩
  have hencoded := @Machine.Guarded.invariant _ _ escStep Written (fun st => st.hook.Encoded) _ _
    hwritten (encoded_start autoCapState table) fun h hok => encoded_step h hok
  exact ⟨hfollowed.oneUnitEach_iff hencoded, hfollowed.units_target hencoded⟩

end EscState

end Locale

section Ascii

attribute [local instance] WideLocale.ascii

/-- A letter, in a window. -/
def typedLetter (vkCode : Nat) (isLetter : isLetterVk vkCode) : EscEvent :=
  .key true (.letter ⟨{}, false, none⟩ plainDispatcher vkCode isLetter false false)

/-- The letters `a` and `s` make an `á` of two units, and Escape deletes one of them. -/
theorem EscState.not_deletesWord_accentedLetter :
    ¬∀ (autoCapState : AutoCapState) (table : CodeTable) (events : List EscEvent),
      (Machine.run escStep (escStart autoCapState table) events).DeletesWord := by
  intro h
  have hone := h .idle .VNIWindows [typedLetter 0x41 rfl, typedLetter 0x53 rfl] false true
    ⟨1, [0x61, 0x73], none⟩ (by decide +kernel)
  exact absurd hone (by decide +kernel)

end Ascii

end NextKey
