import NextKey.Engine.Reachable
import NextKey.Output.Dispatcher

/-!
# Letter keys

Model of `HandleAlphaKey`, `DispatchCoordinator` and `ReplaceComposition` in
`app/system/HookEngine.cpp` for the Unicode code table. A letter key types its letter, physically or
injected again, and what the screen shows is the text before the caret. The history for the undo of
a commit and the log are left out.
-/

namespace NextKey

/-- C++ `AutoCapState` -/
inductive AutoCapState where
  | idle
  | afterPunct
  | readyToCapitalize
  deriving DecidableEq, Repr

/-- The settings behind a letter key. -/
structure TypingContext where
  config : TypingConfig
  autoCaps : Bool
  /-- `isSentenceStart` and `isLineStart` of the anchor, when it is kept and available. -/
  anchor : Option (Bool × Bool)

/-- What `HandleAlphaKey` reads and does not write. -/
structure HookContext extends TypingContext where
  vietnameseMode : Bool
  /-- `GetInputTarget` finds a window. -/
  hasTarget : Bool
  dispatcher : OutputDispatcher

/-- The fields of `HookEngine` that `HandleAlphaKey` writes, and the text before the caret. -/
structure Composing where
  engine : EngineState
  previousComposition : List Char
  autoCapState : AutoCapState
  screen : List Char

section Locale

variable [WideLocale]

/-- The letter of a key: Shift inverts Caps Lock. -/
def originalCh (vkCode : Nat) (shift capsLock : Bool) : Char :=
  if shift != capsLock then Char.ofNat vkCode else towlower (Char.ofNat vkCode)

/-- The first letter of a sentence or a line: the letter that is pushed and the next state. -/
def autoCapitalize (env : TypingContext) (st : Composing) (letter : Char) : Char × AutoCapState :=
  if env.autoCaps ∧ st.engine.count = 0 then
    let keystrokePending := st.autoCapState == .readyToCapitalize
    let shouldCap := match env.anchor with
      | some (isSentenceStart, isLineStart) => isSentenceStart || isLineStart
      | none => keystrokePending
    (if shouldCap then towupper letter else letter,
      if env.anchor.isSome ∨ keystrokePending then .idle else st.autoCapState)
  else (letter, st.autoCapState)

/-- The composition is the previous one followed by the letter. -/
def isSimpleAppend (previousComposition composition : List Char) (letter : Char) : Bool :=
  composition.length == previousComposition.length + 1 && composition.getLast? == some letter &&
    composition.take previousComposition.length == previousComposition

/-- The loop over `commonLen` in `ReplaceComposition`. -/
def commonLen : List Char → List Char → Nat
  | a :: as, b :: bs => if a = b then commonLen as bs + 1 else 0
  | [], _ | _, [] => 0

/-- C++ `ReplaceComposition` -/
def ReplaceComposition (env : HookContext) (typed : Nat → List Char) (st : Composing)
    (newText : List Char) (reinjectVk : Option Nat) : Composing :=
  if env.hasTarget then
    let common := commonLen st.previousComposition newText
    { st with
      screen := env.dispatcher.ReplaceUnicode typed st.screen
        (st.previousComposition.length - common) (newText.drop common) reinjectVk
      previousComposition := newText }
  else { st with previousComposition := newText }

/-- C++ `DispatchCoordinator`: the backward edit, behind the gate of the English mode -/
def DispatchCoordinator (env : HookContext) (typed : Nat → List Char) (st : Composing)
    (composition : List Char) (reinjectVk : Option Nat) : Composing :=
  if env.vietnameseMode then ReplaceComposition env typed st composition reinjectVk else st

/-- The physical key may reach the window by itself. -/
def mayPassThrough (d : OutputDispatcher) (autoCapped : Bool) : Bool :=
  !autoCapped && !(d.hadSynthInWord && d.injector.HasMultiProcessRenderer) && !d.IsSyncReplaceChannel &&
    d.synthEventsPending == 0

/-- The key may be injected again in front of the edit. -/
def mayReinject (d : OutputDispatcher) (autoCapped : Bool) : Bool :=
  !autoCapped && !d.injector.NeedsBaitCharPrefix && !d.skipEmptyChar && !d.IsSyncReplaceChannel

/-- The first half of `HandleAlphaKey`, up to the `Peek`: the fields and whether the letter was
capitalized. A stale previous composition is cleared at the first letter of a word. -/
def pushLetter (env : TypingContext) (st : Composing) (letter : Char) : Composing × Bool :=
  let (ch, autoCapState) := autoCapitalize env st letter
  ({ st with
      engine := st.engine.pushChar env.config ch
      previousComposition := if st.engine.count = 0 then [] else st.previousComposition
      autoCapState },
    ch != letter)

/-- The second half of `HandleAlphaKey`: the fields and whether the key is eaten. -/
def outputLetter (env : HookContext) (st : Composing) (vkCode : Nat) (letter : Char)
    (autoCapped : Bool) :
    Composing × Bool :=
  let composition := st.engine.peek
  if mayPassThrough env.dispatcher autoCapped ∧
      isSimpleAppend st.previousComposition composition letter then
    ({ st with previousComposition := composition }, false)
  else if ¬isSimpleAppend st.previousComposition composition letter ∧
      mayReinject env.dispatcher autoCapped then
    (DispatchCoordinator env (fun _ => [letter])
      { st with previousComposition := st.previousComposition ++ [letter] } composition
        (some vkCode), true)
  else (DispatchCoordinator env (fun _ => [letter]) st composition none, true)

/-- C++ `HandleAlphaKey`: the fields and whether the key is eaten -/
def HandleAlphaKey (env : HookContext) (st : Composing) (vkCode : Nat) (shift capsLock : Bool) :
    Composing × Bool :=
  let letter := originalCh vkCode shift capsLock
  let (st, autoCapped) := pushLetter env.toTypingContext st letter
  outputLetter env st vkCode letter autoCapped

/-- A physical letter key that is not eaten reaches the window. -/
def landKey (vkCode : Nat) (letter : Char) (result : Composing × Bool) : Composing :=
  if result.2 then result.1
  else { result.1 with screen := (Input.key vkCode false).land (fun _ => [letter]) result.1.screen }

/-- A press of a letter key. -/
def Composing.press (env : HookContext) (st : Composing) (vkCode : Nat) (shift capsLock : Bool) :
    Composing :=
  landKey vkCode (originalCh vkCode shift capsLock) (HandleAlphaKey env st vkCode shift capsLock)

omit [WideLocale] in
/-- The common part is in both. -/
lemma commonLen_le (a b : List Char) : commonLen a b ≤ a.length ∧ commonLen a b ≤ b.length := by
  induction a generalizing b with
  | nil => exact ⟨Nat.le_refl 0, Nat.zero_le _⟩
  | cons x as ih =>
    cases b with
    | nil => exact ⟨Nat.zero_le _, Nat.le_refl 0⟩
    | cons y bs =>
      unfold commonLen
      split
      · exact ⟨Nat.succ_le_succ (ih bs).1, Nat.succ_le_succ (ih bs).2⟩
      · exact ⟨Nat.zero_le _, Nat.zero_le _⟩

omit [WideLocale] in
/-- Up to there the two are equal. -/
lemma take_commonLen (a b : List Char) : a.take (commonLen a b) = b.take (commonLen a b) := by
  induction a generalizing b with
  | nil => rfl
  | cons x as ih =>
    cases b with
    | nil => rfl
    | cons y bs =>
      unfold commonLen
      split
      · next heq => rw [List.take_succ_cons, List.take_succ_cons, heq, ih bs]
      · rfl

omit [WideLocale] in
/-- Erasing the end of a word leaves its beginning. -/
lemma rdrop_append_word (front word : List Char) {kept : Nat} (h : kept ≤ word.length) :
    (front ++ word).rdrop (word.length - kept) = front ++ word.take kept := by
  rw [List.rdrop, List.length_append, List.take_append]
  congr 1
  · exact List.take_of_length_le (by omega)
  · congr 1
    omega

omit [WideLocale] in
/-- The edit that `ReplaceComposition` asks for. -/
lemma edit_eq (front previous composition : List Char) :
    (front ++ previous).rdrop (previous.length - commonLen previous composition) ++
      composition.drop (commonLen previous composition) = front ++ composition := by
  rw [rdrop_append_word front previous (commonLen_le _ _).1, List.append_assoc, take_commonLen,
    List.take_append_drop]

omit [WideLocale] in
/-- A word that shares all of the other one begins with it. -/
lemma append_of_commonLen {previous composition : List Char} {letter : Char}
    (h : previous.length < commonLen (previous ++ [letter]) composition) :
    ∃ more, composition = previous ++ letter :: more := by
  refine ⟨composition.drop (commonLen (previous ++ [letter]) composition), ?_⟩
  have hall : (previous ++ [letter]).take (commonLen (previous ++ [letter]) composition) =
      previous ++ [letter] := by
    apply List.take_of_length_le
    rw [List.length_append]
    exact h
  rw [take_commonLen] at hall
  calc composition
      = composition.take (commonLen (previous ++ [letter]) composition) ++
          composition.drop (commonLen (previous ++ [letter]) composition) :=
            (List.take_append_drop _ _).symm
    _ = previous ++ [letter] ++
      composition.drop (commonLen (previous ++ [letter]) composition) := by rw [hall]
    _ = _ := List.append_assoc _ _ _

/-- The edit from the previous composition to the new text, made by a channel that makes every edit. -/
def Composing.editTo (st : Composing) (newText : List Char) : Composing :=
  { st with
    screen :=
      st.screen.rdrop (st.previousComposition.length - commonLen st.previousComposition newText) ++
      newText.drop (commonLen st.previousComposition newText)
    previousComposition := newText }

omit [WideLocale] in
/-- The edit leaves what was before the word. -/
lemma Composing.editTo_eq {st : Composing} {front newText : List Char}
    (hscreen : st.screen = front ++ st.previousComposition) :
    st.editTo newText = { st with screen := front ++ newText, previousComposition := newText } := by
  rw [Composing.editTo, hscreen, edit_eq]

variable {context : TypingContext} {env : HookContext} {st : Composing} {typed : Nat → List Char}
  {front composition : List Char}

omit [WideLocale] in
/-- The size of the edit. -/
lemma edit_short {previous : List Char} (hprevious : previous.length ≤ 61)
    (hcomposition : composition.length ≤ 60) :
    previous.length - commonLen previous composition +
      (composition.drop (commonLen previous composition)).length ≤ 126 := by
  rw [List.length_drop]
  omega

omit [WideLocale] in
/-- Without the key. -/
lemma replaceComposition_eq (htarget : env.hasTarget)
    (hscreen : st.screen = front ++ st.previousComposition)
    (hprevious : st.previousComposition.length ≤ 61) (hcomposition : composition.length ≤ 60) :
    ReplaceComposition env typed st composition none =
      { st with screen := front ++ composition, previousComposition := composition } := by
  have hlength : st.previousComposition.length - commonLen st.previousComposition composition ≤
      st.screen.length := by
    rw [hscreen, List.length_append]
    omega
  have hshort := edit_short hprevious hcomposition
  have hedit : env.dispatcher.ReplaceUnicode typed st.screen
      (st.previousComposition.length - commonLen st.previousComposition composition)
      (composition.drop (commonLen st.previousComposition composition)) none =
        front ++ composition := by
    rw [← edit_eq front st.previousComposition, ← hscreen]
    unfold OutputDispatcher.ReplaceUnicode
    split
    · exact OutputDispatcher.replaceSync_eq hlength hshort
    · split
      · exact OutputDispatcher.replaceAnsi_eq hlength
      · exact OutputDispatcher.replaceGeneric_eq hlength hshort
  rw [ReplaceComposition, if_pos htarget]
  dsimp only
  rw [hedit]

omit [WideLocale] in
/-- With the key, which is not on the screen yet: the generic channel types it, and the clipboard
channel takes its backspace off, as long as there is one. -/
lemma replaceComposition_reinject {previous : List Char} {letter : Char} {vkCode : Nat}
    (htarget : env.hasTarget) (hsync : env.dispatcher.IsSyncReplaceChannel = false)
    (hvk : vkCode ≠ VK_BACK)
    (hpreviousComposition : st.previousComposition = previous ++ [letter])
    (hscreen : st.screen = front ++ previous) (htyped : typed vkCode = [letter])
    (hprevious : previous.length ≤ 60) (hcomposition : composition.length ≤ 60)
    (herase : commonLen st.previousComposition composition ≤ previous.length) :
    ReplaceComposition env typed st composition (some vkCode) =
      { st with screen := front ++ composition, previousComposition := composition } := by
  have hlength : st.previousComposition.length = previous.length + 1 := by
    rw [hpreviousComposition, List.length_append]
    rfl
  have hshort := edit_short (hlength.trans_le (Nat.succ_le_succ hprevious)) hcomposition
  have hedit : env.dispatcher.ReplaceUnicode typed st.screen
      (st.previousComposition.length - commonLen st.previousComposition composition)
      (composition.drop (commonLen st.previousComposition composition)) (some vkCode) =
        front ++ composition := by
    unfold OutputDispatcher.ReplaceUnicode
    rw [hsync, if_neg Bool.false_ne_true]
    split
    · have hbs : st.previousComposition.length - commonLen st.previousComposition composition - 1 =
          previous.length - commonLen st.previousComposition composition := by omega
      have htake : st.previousComposition.take (commonLen st.previousComposition composition) =
          previous.take (commonLen st.previousComposition composition) := by
        conv_lhs => arg 2; rw [hpreviousComposition]
        exact List.take_append_of_le_length herase
      rw [OutputDispatcher.replaceAnsi_eq]
      · show st.screen.rdrop (_ - 1) ++ _ = _
        rw [hbs, hscreen, rdrop_append_word front previous herase, ← htake, take_commonLen,
          List.append_assoc, List.take_append_drop]
      · show _ - 1 ≤ _
        rw [hscreen, List.length_append]
        omega
    · have hkey : st.screen ++ typed vkCode = front ++ st.previousComposition := by
        rw [hscreen, htyped, hpreviousComposition, List.append_assoc]
      rw [OutputDispatcher.replaceGeneric_reinject hvk ?_ hshort, hkey, edit_eq]
      rw [hkey, List.length_append]
      omega
  rw [ReplaceComposition, if_pos htarget]
  dsimp only
  rw [hedit]

omit [WideLocale] in
/-- A simple append adds the letter itself. -/
lemma isSimpleAppend_iff {previous : List Char} {letter : Char} :
    isSimpleAppend previous composition letter ↔ composition = previous ++ [letter] := by
  simp only [isSimpleAppend, Bool.and_eq_true, beq_iff_eq]
  constructor
  · rintro ⟨⟨hlength, hlast⟩, htake⟩
    obtain ⟨init, rfl⟩ := List.getLast?_eq_some_iff.mp hlast
    have hinit : init.length = previous.length := by simpa using hlength
    rw [← hinit, List.take_left] at htake
    rw [htake]
  · rintro rfl
    simp

omit [WideLocale] in
/-- The letter keys of the keyboard. -/
lemma letterVk_ascii {vkCode : Nat} (hvk : isLetterVk vkCode) : AsciiKey (Char.ofNat vkCode) := by
  obtain ⟨hlow, hhigh⟩ := of_decide_eq_true hvk
  have hcode : (Char.ofNat vkCode).toNat = vkCode := by
    rw [Char.ofNat, dif_pos (.inl (by omega))]
    rfl
  unfold AsciiKey
  omega

/-- A letter key types ASCII. -/
lemma originalCh_ascii {vkCode : Nat} {shift capsLock : Bool} (hvk : isLetterVk vkCode) :
    AsciiKey (originalCh vkCode shift capsLock) := by
  unfold originalCh
  split
  · exact letterVk_ascii hvk
  · exact (letterVk_ascii hvk).towlower

/-- Also when it is capitalized. -/
lemma autoCapitalize_ascii {letter : Char} (h : AsciiKey letter) :
    AsciiKey (autoCapitalize context st letter).1 := by
  unfold autoCapitalize
  split
  · exact iteInduction (motive := AsciiKey) (fun _ => h.towupper) (fun _ => h)
  · exact h

/-- The screen and the previous composition show the engine's text, behind what stood there before. -/
def Composing.Agrees (st : Composing) (front : List Char) : Prop :=
  st.screen = front ++ st.engine.peek ∧ st.previousComposition = st.engine.peek

/-- The second half. `previous` is what the screen shows, and a letter that is typed as it was
pressed does not stand in front of more. -/
lemma outputLetter_agrees {vkCode : Nat} {letter : Char} {autoCapped : Bool} (hback : vkCode ≠ VK_BACK)
    (hscreen : st.screen = front ++ st.previousComposition)
    (hlonger : autoCapped = false → ∀ more,
      st.engine.peek = st.previousComposition ++ letter :: more → more = [])
    (hprevious : st.previousComposition.length ≤ 60) (hnew : st.engine.peek.length ≤ 60)
    (htarget : env.hasTarget) (hvietnamese : env.vietnameseMode) :
    landKey vkCode letter (outputLetter env st vkCode letter autoCapped) =
      { st with screen := front ++ st.engine.peek, previousComposition := st.engine.peek } := by
  have hgate (st' : Composing) (vk : Option Nat) :
      DispatchCoordinator env (fun _ => [letter]) st' st.engine.peek vk =
        ReplaceComposition env (fun _ => [letter]) st' st.engine.peek vk := if_pos hvietnamese
  unfold outputLetter
  dsimp only
  split
  · next hpass =>
    -- The physical key types the letter.
    show ({ st with screen := _, previousComposition := _ } : Composing) = _
    have happend := isSimpleAppend_iff.mp hpass.2
    rw [Input.land, if_neg hback, hscreen, happend, List.append_assoc]
  · split
    · next hreinject =>
      obtain ⟨hsimple, hmay⟩ := hreinject
      simp only [mayReinject, Bool.and_eq_true, Bool.not_eq_true'] at hmay
      show DispatchCoordinator env _ { st with previousComposition := _ } _ (some vkCode) = _
      rw [hgate]
      refine replaceComposition_reinject htarget hmay.2 hback rfl hscreen rfl hprevious hnew ?_
      -- Without a backspace the letter would stand in front of more.
      apply Nat.le_of_not_lt
      intro herase
      obtain ⟨more, hmore⟩ := append_of_commonLen herase
      have hnil := hlonger hmay.1.1.1 more hmore
      rw [hnil] at hmore
      exact hsimple (isSimpleAppend_iff.mpr hmore)
    · show DispatchCoordinator env _ st _ none = _
      rw [hgate]
      exact replaceComposition_eq htarget hscreen (Nat.le_succ_of_le hprevious) hnew

/-- A letter keeps screen and engine in agreement. -/
lemma Composing.Agrees.pushLetter (h : st.Agrees front) (letter : Char) :
    (pushLetter context st letter).1.previousComposition = st.engine.peek ∧
      (pushLetter context st letter).1.screen = front ++ st.engine.peek := by
  refine ⟨?_, h.1⟩
  show (if st.engine.count = 0 then [] else st.previousComposition) = st.engine.peek
  split
  · next hcount =>
    show [] = composeAll st.engine.states
    rw [List.length_eq_zero_iff.mp hcount]
    rfl
  · exact h.2

/-- A letter that is pushed as it was pressed does not stand in front of more. -/
lemma Composing.Agrees.pushLetter_grows (h : st.Agrees front) {letter : Char} (hascii : AsciiKey letter)
    (hengine : st.engine.Reachable) (hcapped : (NextKey.pushLetter context st letter).2 = false)
    (more : List Char)
    (hmore : (NextKey.pushLetter context st letter).1.engine.peek =
      (NextKey.pushLetter context st letter).1.previousComposition ++ letter :: more) : more = [] := by
  have hpushed : (autoCapitalize context st letter).1 = letter := bne_eq_false_iff_eq.mp hcapped
  have hpeek : (st.engine.pushChar context.config (autoCapitalize context st letter).1).peek =
      st.engine.peek ++ (autoCapitalize context st letter).1 :: more := by
    rw [(h.pushLetter letter).1] at hmore
    conv_rhs => rw [hpushed]
    exact hmore
  exact hengine.typed.pushChar_peek (autoCapitalize_ascii hascii) hpeek

/-- The second half leaves the engine alone. -/
lemma outputLetter_engine {vkCode : Nat} {letter : Char} {autoCapped : Bool} :
    (landKey vkCode letter (outputLetter env st vkCode letter autoCapped)).engine = st.engine := by
  have hgate (typed : Nat → List Char) (st' : Composing) (composition : List Char) (vk : Option Nat) :
      (DispatchCoordinator env typed st' composition vk).engine = st'.engine := by
    unfold DispatchCoordinator ReplaceComposition
    split
    · split <;> rfl
    · rfl
  unfold outputLetter
  dsimp only
  split
  · rfl
  · split
    · exact hgate _ _ _ _
    · exact hgate _ _ _ _

/-- The letter key on every path: the letter is pushed, and the screen and the previous composition
show the engine's text. -/
theorem press_eq {vkCode : Nat} {shift capsLock : Bool} (hvk : isLetterVk vkCode)
    (hengine : st.engine.Reachable) (h : st.Agrees front) (hshort : st.engine.peek.length ≤ 60)
    (hnew : (st.press env vkCode shift capsLock).engine.peek.length ≤ 60)
    (htarget : env.hasTarget) (hvietnamese : env.vietnameseMode) :
    st.press env vkCode shift capsLock =
      { (pushLetter env.toTypingContext st (originalCh vkCode shift capsLock)).1 with
        screen := front ++ (pushLetter env.toTypingContext st
          (originalCh vkCode shift capsLock)).1.engine.peek
        previousComposition :=
          (pushLetter env.toTypingContext st (originalCh vkCode shift capsLock)).1.engine.peek } := by
  have hback : vkCode ≠ VK_BACK := by
    rintro rfl
    cases hvk
  have hascii : AsciiKey (originalCh vkCode shift capsLock) := originalCh_ascii hvk
  have hengineKey : (st.press env vkCode shift capsLock).engine =
      (pushLetter env.toTypingContext st (originalCh vkCode shift capsLock)).1.engine :=
        outputLetter_engine
  rw [hengineKey] at hnew
  obtain ⟨hprevious, hscreen⟩ :=
    @Composing.Agrees.pushLetter _ env.toTypingContext st front h (originalCh vkCode shift capsLock)
  exact outputLetter_agrees hback (hprevious ▸ hscreen) (h.pushLetter_grows hascii hengine)
    (hprevious ▸ hshort) hnew htarget hvietnamese

/-- Every path of a letter key leads from agreement to agreement. -/
theorem alphaKey_agrees {vkCode : Nat} {shift capsLock : Bool} (hvk : isLetterVk vkCode)
    (hengine : st.engine.Reachable) (h : st.Agrees front) (hshort : st.engine.peek.length ≤ 60)
    (hnew : (st.press env vkCode shift capsLock).engine.peek.length ≤ 60)
    (htarget : env.hasTarget) (hvietnamese : env.vietnameseMode) :
    (st.press env vkCode shift capsLock).Agrees front := by
  rw [press_eq hvk hengine h hshort hnew htarget hvietnamese]
  exact ⟨rfl, rfl⟩

end Locale

section Ascii

attribute [local instance] WideLocale.ascii

/-- An ANSI window that pastes from the clipboard. -/
def ansiContext : HookContext where
  config := {}
  autoCaps := false
  anchor := none
  vietnameseMode := true
  hasTarget := true
  dispatcher := {
    injector := .sendInput SendInputInjector.plain
    cachedClass := some false
    refreshedClass := none
    resolvedClass := none
    useClipboardPaste := true
    skipEmptyChar := false
    hadSynthInWord := false
    synthEventsPending := 0 }

/-- The text `xa` with the `a` being composed. -/
def typedA : Composing where
  engine := ({} : EngineState).pushChar {} 'a'
  previousComposition := ['a']
  autoCapState := .idle
  screen := ['x', 'a']

/-- `aa` behind an `x`. -/
theorem alphaKey_agrees_aa :
    (typedA.press ansiContext 0x41 false false).screen = ['x', 'â'] ∧
      (typedA.press ansiContext 0x41 false false).Agrees ['x'] := by
  have hengine : (({} : EngineState).pushChar {} 'a').Reachable :=
    EngineState.Reachable.push .init (by decide)
  have hagrees : (typedA.press ansiContext 0x41 false false).Agrees ['x'] :=
    alphaKey_agrees rfl hengine ⟨by decide +kernel, by decide +kernel⟩ (by decide +kernel)
      (by decide +kernel) rfl rfl
  exact ⟨by decide +kernel, hagrees⟩

end Ascii

end NextKey
