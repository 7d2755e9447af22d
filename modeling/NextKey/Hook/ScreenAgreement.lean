import NextKey.Hook.HistoryReplay

/-!
# The word before the caret

The word that is being composed is kept in three places by hand: in the engine, as the previous
composition and on the screen. Beside it go the encoded widths and the history. Model of what writes
them in `app/system/HookEngine.cpp`, for the Unicode code table: `HandleAlphaKey`, `HandleBackspace`,
`CommitComposition`, `TryEscRestoreRaw` and the keys that go to the engine directly, with an injector
that makes every edit. The three agree after every step but an Escape that restores a live word, which
resets the engine alone.
-/

namespace NextKey

/-- C++ `ReplaceUnicode` when every injection succeeds. The generic channel types the key again in front
of the edit; the clipboard channel takes its backspace off instead. -/
def OutputDispatcher.edited (d : OutputDispatcher) (screen : List Char) (bsCount : Nat)
    (text : List Char) (reinject : Option Char) : List Char :=
  if d.IsSyncReplaceChannel then screen.rdrop bsCount ++ text
  else if d.useClipboardPaste then
    screen.rdrop (if reinject.isSome then bsCount - 1 else bsCount) ++ text
  else (screen ++ reinject.toList).rdrop bsCount ++ text

/-- The edit when the last letter of the previous composition is not on the screen. -/
lemma edit_eq_unsent (front previous composition : List Char) {letter : Char}
    (herase : commonLen (previous ++ [letter]) composition ≤ previous.length) :
    (front ++ previous).rdrop
        ((previous ++ [letter]).length - commonLen (previous ++ [letter]) composition - 1) ++
      composition.drop (commonLen (previous ++ [letter]) composition) = front ++ composition := by
  have hbs : (previous ++ [letter]).length - commonLen (previous ++ [letter]) composition - 1 =
      previous.length - commonLen (previous ++ [letter]) composition := by
    rw [List.length_append, List.length_singleton]
    omega
  have htake : (previous ++ [letter]).take (commonLen (previous ++ [letter]) composition) =
      previous.take (commonLen (previous ++ [letter]) composition) :=
    List.take_append_of_le_length herase
  rw [hbs, rdrop_append_word front previous herase, ← htake, take_commonLen, List.append_assoc,
    List.take_append_drop]

section Locale

variable [WideLocale]

namespace Composing

variable (d : OutputDispatcher) (st : Composing)

/-- C++ `ReplaceComposition` -/
def replace (newText : List Char) (reinject : Option Char) : Composing :=
  { st with
    screen := d.edited st.screen
      (st.previousComposition.length - commonLen st.previousComposition newText)
      (newText.drop (commonLen st.previousComposition newText)) reinject
    previousComposition := newText }

/-- The second half of `HandleAlphaKey`, and the letter when it is not eaten. -/
def output (letter : Char) (autoCapped : Bool) : Composing :=
  let composition := st.engine.peek
  if mayPassThrough d autoCapped ∧ isSimpleAppend st.previousComposition composition letter then
    { st with previousComposition := composition, screen := st.screen ++ [letter] }
  else if ¬isSimpleAppend st.previousComposition composition letter ∧ mayReinject d autoCapped then
    { st with previousComposition := st.previousComposition ++ [letter] }.replace d composition
      (some letter)
  else st.replace d composition none

variable {d st} {front newText : List Char} {letter : Char} {autoCapped : Bool}

omit [WideLocale] in
/-- Without the key the edit is the same on every channel. -/
lemma replace_none : st.replace d newText none = st.editTo newText := by
  unfold replace editTo OutputDispatcher.edited
  split
  · rfl
  · split
    · rfl
    · rw [Option.toList_none, List.append_nil]

omit [WideLocale] in
/-- With the key, which is not on the screen yet. -/
lemma replace_reinject {previous : List Char} (hsync : d.IsSyncReplaceChannel = false)
    (hprevious : st.previousComposition = previous ++ [letter])
    (hscreen : st.screen = front ++ previous)
    (herase : commonLen (previous ++ [letter]) newText ≤ previous.length) :
    st.replace d newText (some letter) =
      { st with screen := front ++ newText, previousComposition := newText } := by
  have hedit : d.edited st.screen
      (st.previousComposition.length - commonLen st.previousComposition newText)
      (newText.drop (commonLen st.previousComposition newText)) (some letter) = front ++ newText := by
    rw [hprevious, hscreen, OutputDispatcher.edited, hsync, if_neg Bool.false_ne_true]
    split
    · exact edit_eq_unsent front previous newText herase
    · rw [Option.toList_some, List.append_assoc]
      exact edit_eq front (previous ++ [letter]) newText
  rw [replace, hedit]

/-- Every path shows the engine's text. A letter that is typed as it was pressed does not stand in front
of more. -/
lemma output_eq (hscreen : st.screen = front ++ st.previousComposition)
    (hlonger : autoCapped = false → ∀ more,
      st.engine.peek = st.previousComposition ++ letter :: more → more = []) :
    st.output d letter autoCapped =
      { st with screen := front ++ st.engine.peek, previousComposition := st.engine.peek } := by
  unfold output
  dsimp only
  split
  · next hpass => rw [hscreen, isSimpleAppend_iff.mp hpass.2, List.append_assoc]
  · split
    · next hreinject =>
      obtain ⟨hsimple, hmay⟩ := hreinject
      simp only [mayReinject, Bool.and_eq_true, Bool.not_eq_true'] at hmay
      refine replace_reinject hmay.2 rfl hscreen (Nat.le_of_not_lt fun herase => ?_)
      obtain ⟨more, hmore⟩ := append_of_commonLen herase
      rw [hlonger hmay.1.1.1 more hmore] at hmore
      exact hsimple (isSimpleAppend_iff.mpr hmore)
    · rw [replace_none, editTo_eq hscreen]

end Composing

/-- The fields of `HookTyping` and the encoded widths. -/
structure WordTyping extends HookTyping where
  previousEncodedWidths : List Nat := []

/-- What happens to the word. -/
inductive TypingEvent where
  | letter (k : HookKeyDown) (vkCode : Nat) (isLetter : isLetterVk vkCode)
    (dispatcher : OutputDispatcher)
  /-- A key that goes to the engine directly: of a user-defined method, a bracket or a digit. -/
  | direct (ch : Char) (ascii : AsciiKey ch)
  | back
  /-- A commit trigger, and what it makes of the text before the caret. -/
  | commitTrigger (land : List Char → List Char)
  | cancelComposition (expired : Bool)
  /-- The undo of a commit sets its own fields. -/
  | undo (commitState : CommitState)

namespace WordTyping

open HookTyping

variable (env : HookConfig) (st : WordTyping)

/-- The widths are cleared with a previous composition that is not empty. -/
def clearedWidths (cleared : Bool) : List Nat :=
  if cleared ∧ st.previousComposition ≠ [] then [] else st.previousEncodedWidths

/-- C++ `HandleAlphaKey`, and the letter when it is not eaten -/
def HandleAlphaKey (k : HookKeyDown) (vkCode : Nat) (d : OutputDispatcher) : WordTyping :=
  let letter := originalCh vkCode k.shift k.capsLock
  let pushed := pushLetter (typingContext env k) st.toComposing letter
  { toHookTyping := { st.toHookTyping with
      toComposing := pushed.1.output d letter pushed.2
      commitState := st.commitState.AppendHistory
        (autoCapitalize (typingContext env k) st.toComposing letter).1 }
    previousEncodedWidths := st.clearedWidths (st.engine.count = 0) }

/-- C++ `HandleBackspace` -/
def HandleBackspace : WordTyping :=
  { toHookTyping := st.toHookTyping.HandleBackspace env
    previousEncodedWidths := st.clearedWidths ((st.engine.backspace env.config).count = 0) }

/-- The automatic restore of `CommitComposition`. -/
def autoRestore : HookTyping :=
  let committed := st.engine.commitText env.config
  if st.previousComposition ≠ [] ∧ committed ≠ st.previousComposition then
    { st.toHookTyping with toComposing := st.toComposing.editTo committed }
  else st.toHookTyping

/-- C++ `CommitComposition`; an entry keeps the text that is on the screen -/
def CommitComposition : WordTyping :=
  { toHookTyping := (st.autoRestore env).CommitComposition, previousEncodedWidths := [] }

/-- One event. -/
def step : TypingEvent → WordTyping
  | .letter k vkCode _ d => st.HandleAlphaKey env k vkCode d
  | .direct ch _ => { st with toHookTyping := st.toHookTyping.pushKey env ch }
  | .back =>
    if 0 < st.engine.count then st.HandleBackspace env else { st with screen := st.screen.dropLast }
  | .commitTrigger land =>
    let st := if 0 < st.engine.count then st.CommitComposition env else st
    { st with screen := land st.screen }
  | .cancelComposition expired => { st with toHookTyping := (st.TryEscRestoreRaw expired).1 }
  | .undo commitState =>
    { st with commitState := { commitState with inputHistory := st.commitState.inputHistory } }

/-- Nothing is composed behind some text. -/
def start (screen : List Char) : WordTyping where
  engine := {}
  previousComposition := []
  autoCapState := .idle
  screen

/-- Escape does not find a live word. -/
def NoLiveRestore : TypingEvent → Prop
  | .cancelComposition _ => st.engine.count = 0
  | _ => True

/-- The engine, the previous composition and the screen agree, and an engine without a word has left
nothing. -/
def ScreenAgrees : Prop :=
  (0 < st.engine.count →
      st.previousComposition = st.engine.peek ∧ st.previousComposition <:+ st.screen) ∧
    (st.engine.count = 0 →
      st.previousComposition = [] ∧ st.previousEncodedWidths = [] ∧ st.commitState.inputHistory = [])

/-- What holds after every step. -/
structure Tracked : Prop where
  reachable : st.engine.Reachable
  previous : st.previousComposition = st.engine.peek
  screen : st.previousComposition <:+ st.screen
  widths : st.previousEncodedWidths = []
  history : st.engine.count = 0 →
    st.commitState.inputHistory = [] ∨ st.commitState.inputHistory.getLast? = some kBackspaceMarker

variable {env st}

omit [WideLocale] in
/-- No widths are cleared. -/
lemma clearedWidths_nil (h : st.previousEncodedWidths = []) (cleared : Bool) :
    st.clearedWidths cleared = [] := by
  unfold clearedWidths
  split
  · rfl
  · exact h

/-- A key leaves something to compose. -/
lemma count_pushChar_ne_zero {engine : EngineState} {ch : Char} :
    (engine.pushChar env.config ch).count ≠ 0 := by
  intro hcount
  exact EngineState.pushChar_ne_nil (List.length_eq_zero_iff.mp hcount)

/-- The screen ends with the engine's text. -/
lemma Tracked.shown (h : st.Tracked) : ∃ front, st.toComposing.Agrees front := by
  obtain ⟨front, hfront⟩ := h.screen
  exact ⟨front, h.previous ▸ hfront.symm, h.previous⟩

/-- Something is composed, and shown at the end of the screen. -/
lemma tracked_of_word (front : List Char) (hreachable : st.engine.Reachable)
    (hagrees : st.toComposing.Agrees front) (hwidths : st.previousEncodedWidths = [])
    (hcount : st.engine.count ≠ 0) : st.Tracked :=
  ⟨hreachable, hagrees.2, ⟨front, hagrees.2.symm ▸ hagrees.1.symm⟩, hwidths, fun h => absurd h hcount⟩

/-- A letter on every path. -/
lemma HandleAlphaKey_eq {front : List Char} (hreachable : st.engine.Reachable)
    (h : st.toComposing.Agrees front) {k : HookKeyDown} {vkCode : Nat} (d : OutputDispatcher)
    (hvk : isLetterVk vkCode) :
    (st.HandleAlphaKey env k vkCode d).toComposing =
      { (pushLetter (typingContext env k) st.toComposing (originalCh vkCode k.shift k.capsLock)).1 with
        screen := front ++ (pushLetter (typingContext env k) st.toComposing
          (originalCh vkCode k.shift k.capsLock)).1.engine.peek
        previousComposition := (pushLetter (typingContext env k) st.toComposing
          (originalCh vkCode k.shift k.capsLock)).1.engine.peek } := by
  have hpushed := @Composing.Agrees.pushLetter _ (typingContext env k) st.toComposing front h
    (originalCh vkCode k.shift k.capsLock)
  exact Composing.output_eq (hpushed.2.trans (congrArg (front ++ ·) hpushed.1.symm))
    (h.pushLetter_grows (originalCh_ascii hvk) hreachable)

/-- For words that fit into the batches of the injectors a letter is what the dispatcher makes of it. -/
theorem HandleAlphaKey_eq_press {front : List Char} (hreachable : st.engine.Reachable)
    (h : st.toComposing.Agrees front) {k : HookKeyDown} {vkCode : Nat} (d : OutputDispatcher)
    (hvk : isLetterVk vkCode) (hshort : st.engine.peek.length ≤ 60)
    (hnew : (st.HandleAlphaKey env k vkCode d).engine.peek.length ≤ 60) :
    (st.HandleAlphaKey env k vkCode d).toComposing =
      st.toComposing.press
        { typingContext env k with vietnameseMode := true, hasTarget := true, dispatcher := d }
        vkCode k.shift k.capsLock := by
  have hcomposing := @HandleAlphaKey_eq _ env st front hreachable h k vkCode d hvk
  have hengineKey : (st.toComposing.press
      { typingContext env k with vietnameseMode := true, hasTarget := true, dispatcher := d } vkCode
        k.shift k.capsLock).engine = (st.HandleAlphaKey env k vkCode d).engine :=
    outputLetter_engine.trans (congrArg Composing.engine hcomposing).symm
  rw [hcomposing, press_eq hvk hreachable h hshort (hengineKey ▸ hnew) rfl rfl]

/-- A letter is tracked. -/
lemma Tracked.HandleAlphaKey (h : st.Tracked) {k : HookKeyDown} {vkCode : Nat}
    {d : OutputDispatcher} (hvk : isLetterVk vkCode) : (st.HandleAlphaKey env k vkCode d).Tracked := by
  obtain ⟨front, hagrees⟩ := h.shown
  have hcomposing := @HandleAlphaKey_eq _ env st front h.reachable hagrees k vkCode d hvk
  refine tracked_of_word front ?_ ?_ (clearedWidths_nil h.widths _) ?_
  · rw [hcomposing]
    exact h.reachable.push (autoCapitalize_ascii (originalCh_ascii hvk))
  · rw [hcomposing]
    exact ⟨rfl, rfl⟩
  · rw [hcomposing]
    exact count_pushChar_ne_zero

/-- A key that is pushed is tracked. -/
lemma Tracked.pushKey (h : st.Tracked) {ch : Char} (hascii : AsciiKey ch) :
    ({ st with toHookTyping := st.toHookTyping.pushKey env ch } : WordTyping).Tracked := by
  obtain ⟨front, hfront⟩ := h.screen
  have hedit := @Composing.editTo_eq
    { st.toComposing with engine := st.engine.pushChar env.config ch } front
    (st.engine.pushChar env.config ch).peek hfront.symm
  refine tracked_of_word front (h.reachable.push hascii) ?_ h.widths count_pushChar_ne_zero
  exact ⟨congrArg Composing.screen hedit, rfl⟩

/-- A Backspace is tracked. -/
lemma Tracked.HandleBackspace (h : st.Tracked) : (st.HandleBackspace env).Tracked := by
  obtain ⟨front, hfront⟩ := h.screen
  obtain ⟨screen, hleaves, hshown⟩ := @HookTyping.HandleBackspace_leaves _ env st.toHookTyping
  have hhistory : (st.HandleBackspace env).commitState.inputHistory =
      st.commitState.inputHistory ++ [kBackspaceMarker] := by
    show (st.toHookTyping.HandleBackspace env).commitState.inputHistory = _
    unfold HookTyping.HandleBackspace
    dsimp only
    split
    · rfl
    · split <;> rfl
  refine ⟨?_, hleaves.previous.trans (congrArg _ hleaves.engine.symm), ?_, clearedWidths_nil h.widths _,
    fun _ => .inr ?_⟩
  · exact hleaves.engine ▸ h.reachable.back
  · refine ⟨front, ?_⟩
    show front ++ (st.toHookTyping.HandleBackspace env).previousComposition = _
    rw [hleaves.previous, ← hshown front hfront.symm]
    exact hleaves.screen.symm
  · rw [hhistory, List.getLast?_append]
    rfl

/-- Nothing is composed. -/
lemma tracked_of_cleared (hengine : st.engine = {}) (hprevious : st.previousComposition = [])
    (hwidths : st.previousEncodedWidths = []) (hhistory : st.commitState.inputHistory = []) :
    st.Tracked :=
  ⟨hengine ▸ .init, by rw [hprevious, hengine]; rfl, hprevious ▸ List.nil_suffix, hwidths,
    fun _ => .inl hhistory⟩

/-- A step that leaves the word alone, with nothing composed or with the screen as it was. -/
lemma Tracked.keep {st' : WordTyping} (h : st.Tracked) (hengine : st'.engine = st.engine)
    (hprevious : st'.previousComposition = st.previousComposition)
    (hscreen : st'.screen = st.screen ∨ st.engine.count = 0)
    (hwidths : st'.previousEncodedWidths = st.previousEncodedWidths)
    (hhistory : st'.commitState.inputHistory = st.commitState.inputHistory) : st'.Tracked := by
  refine ⟨hengine ▸ h.reachable, by rw [hprevious, hengine]; exact h.previous, ?_,
    hwidths.trans h.widths, fun hcount => ?_⟩
  · rw [hprevious]
    rcases hscreen with hsame | hcount
    · exact hsame ▸ h.screen
    · rw [h.previous, peek_of_count hcount]
      exact List.nil_suffix
  · rw [hhistory]
    exact h.history (hengine ▸ hcount)

/-- Esc on an empty engine is tracked. -/
lemma Tracked.TryEscRestoreRaw (h : st.Tracked) (expired : Bool) (hcount : st.engine.count = 0) :
    ({ st with toHookTyping := (st.toHookTyping.TryEscRestoreRaw expired).1 } :
      WordTyping).Tracked := by
  unfold HookTyping.TryEscRestoreRaw
  rw [if_neg (by omega)]
  split
  · split
    · exact h
    · split
      · exact h.keep rfl rfl (.inl rfl) rfl rfl
      · split
        · exact h
        · exact h.keep rfl rfl (.inr hcount) rfl rfl
  · exact h

/-- Every event but the restore of a live word. -/
lemma Tracked.step {event : TypingEvent} (h : st.Tracked) (ok : st.NoLiveRestore event) :
    (st.step env event).Tracked := by
  cases event with
  | letter k vkCode hvk d => exact h.HandleAlphaKey hvk
  | direct ch hascii => exact h.pushKey hascii
  | back =>
    unfold WordTyping.step
    dsimp only
    split
    · exact h.HandleBackspace
    · next hcount => exact h.keep rfl rfl (.inr (Nat.eq_zero_of_not_pos hcount)) rfl rfl
  | commitTrigger land =>
    unfold WordTyping.step
    dsimp only
    split
    · exact tracked_of_cleared rfl rfl rfl rfl
    · next hcount => exact h.keep rfl rfl (.inr (Nat.eq_zero_of_not_pos hcount)) rfl rfl
  | cancelComposition expired => exact h.TryEscRestoreRaw expired ok
  | undo commitState => exact h.keep rfl rfl (.inl rfl) rfl rfl

/-- After every step of a run in which Escape does not find a live word, the previous composition is the
engine's text and ends the screen; without a word it is empty, and so are the widths, and the history
says how the word was erased. -/
theorem screenAgrees_run (screen : List Char) {events : List TypingEvent}
    (ok : Machine.Guarded (step env) NoLiveRestore (start screen) events) :
    let st := Machine.run (step env) (start screen) events
    (0 < st.engine.count →
        st.previousComposition = st.engine.peek ∧ st.previousComposition <:+ st.screen) ∧
      (st.engine.count = 0 → st.previousComposition = [] ∧ st.previousEncodedWidths = [] ∧
        (st.commitState.inputHistory = [] ∨
          st.commitState.inputHistory.getLast? = some kBackspaceMarker)) := by
  have htracked : (Machine.run (WordTyping.step env) (start screen) events).Tracked :=
    ok.invariant (tracked_of_cleared rfl rfl rfl rfl) Tracked.step
  refine ⟨fun _ => ⟨htracked.previous, htracked.screen⟩, fun hcount => ?_⟩
  exact ⟨htracked.previous.trans (peek_of_count hcount), htracked.widths, htracked.history hcount⟩

end WordTyping

end Locale

section Ascii

attribute [local instance] WideLocale.ascii

open HookTyping

/-- The letter `a` and the Backspace that erases it. -/
def typedAndErased : List TypingEvent :=
  [.letter (letterKey 0x41 rfl) 0x41 rfl ansiContext.dispatcher, .back]

/-- The history still has the letter. -/
theorem WordTyping.not_screenAgrees_a :
    ¬(Machine.run (WordTyping.step telexHook) (WordTyping.start []) typedAndErased).ScreenAgrees := by
  intro h
  have hhistory := (h.2 (by decide +kernel)).2.2
  revert hhistory
  decide +kernel

/-- Behind some text the letter comes and goes. -/
theorem WordTyping.screenAgrees_run_a :
    (Machine.run (WordTyping.step telexHook) (WordTyping.start ['x']) typedAndErased).engine.count = 0 ∧
      (Machine.run (WordTyping.step telexHook) (WordTyping.start ['x'])
        typedAndErased).commitState.inputHistory.getLast? = some kBackspaceMarker := by
  obtain ⟨-, herased⟩ :=
    @WordTyping.screenAgrees_run _ telexHook ['x'] typedAndErased ⟨trivial, trivial, trivial⟩
  have hcount : (Machine.run (WordTyping.step telexHook) (WordTyping.start ['x'])
      typedAndErased).engine.count = 0 := by decide +kernel
  refine ⟨hcount, (herased hcount).2.2.resolve_left ?_⟩
  decide +kernel

end Ascii

end NextKey
