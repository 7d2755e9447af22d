import NextKey.Output.Injector

/-!
# The output dispatcher

Model of `OutputDispatcher::ReplaceUnicode` and `TryEditMessagePaste` in
`app/system/OutputDispatcher.cpp` and of the `Replace` of all four injectors. Messages to an edit
control are answered and the clipboard works; the caret stands at the end of the text, so
`EM_GETSEL` finds its length. Every path comes down to the same edit of the text before the caret:
some units are erased and the text follows.
-/

namespace NextKey

/-- `Win32SendInputInjector(false)`, to which the other paths fall back. -/
def SendInputInjector.plain : SendInputInjector where
  channel := .win32
  needsBaitCharPrefix := false
  suggestKeepChars := false
  suppressBait := false

/-- C++ `IOutputInjector`: one of its four classes -/
inductive Injector where
  | sendInput (inj : SendInputInjector)
  | richEdit (forced : Bool)
  | clipboard

namespace Injector

/-- C++ `IsForced` -/
def IsForced : Injector → Bool
  | .richEdit forced => forced
  | .sendInput _ | .clipboard => false

/-- C++ `IsMessageBasedReplace` -/
def IsMessageBasedReplace : Injector → Bool
  | .richEdit _ => true
  | .sendInput _ | .clipboard => false

/-- C++ `SettleBudget`, in milliseconds -/
def SettleBudget : Injector → Nat
  | .sendInput inj =>
    match inj.channel with
    | .win32 => 30
    | .split _ _ => 100
  | .richEdit _ => 0
  | .clipboard => 150

/-- C++ `HasMultiProcessRenderer` -/
def HasMultiProcessRenderer : Injector → Bool
  | .sendInput inj =>
    match inj.channel with
    | .win32 => false
    | .split _ multi => multi
  | .richEdit _ | .clipboard => false

/-- C++ `NeedsBaitCharPrefix` -/
def NeedsBaitCharPrefix : Injector → Bool
  | .sendInput inj => inj.needsBaitCharPrefix
  | .richEdit _ | .clipboard => false

end Injector

/-- What the dispatcher and the injectors find. A window class is given by whether it is compatible with
the messages of an edit control, and `none` stands for no window. -/
structure OutputDispatcher where
  injector : Injector
  /-- The cached focused window. -/
  cachedClass : Option Bool
  /-- What `RefreshFocusCache` would find. -/
  refreshedClass : Option Bool
  /-- What the injector's own `ResolveFocusedHwnd` would find. -/
  resolvedClass : Option Bool
  useClipboardPaste : Bool
  skipEmptyChar : Bool
  hadSynthInWord : Bool
  synthEventsPending : Nat

variable {α : Type*} [WideUnit α]

/-- `EM_SETSEL` and `EM_REPLACESEL` over the last `bsCount` units, when there are so many. -/
def replaceSelection (screen : List α) (bsCount : Nat) (text : List α) : Option (List α) :=
  if screen.length < bsCount then none else some (screen.rdrop bsCount ++ text)

namespace OutputDispatcher

variable (d : OutputDispatcher) (typed : Nat → List α)

/-- `Replace` of `Win32SendInputInjector(false)`. -/
def fallback (screen : List α) (bsCount : Nat) (text : List α) : List α × Bool :=
  let sent := SendInputInjector.plain.Replace bsCount text
  (landAll typed screen sent.1, sent.2)

/-- `SendInput` of backspaces alone, of any number. -/
def sendBackspaces (screen : List α) (bsCount : Nat) : List α :=
  landAll typed screen (List.replicate bsCount (press (.key VK_BACK))).flatten

/-- C++ `IOutputInjector::Replace`: the text before the caret and the result -/
def Replace (screen : List α) (bsCount : Nat) (text : List α) : List α × Bool :=
  match d.injector with
  | .sendInput inj =>
    let sent := inj.Replace bsCount text
    (landAll typed screen sent.1, sent.2)
  | .richEdit forced =>
    if bsCount = 0 ∧ text = [] then (screen, true)
    else
      match d.resolvedClass with
      | none => fallback typed screen bsCount text
      | some compatible =>
        if forced ∨ compatible then
          match replaceSelection screen bsCount text with
          | some screen => (screen, true)
          | none => (screen, false)
        else fallback typed screen bsCount text
  | .clipboard =>
    if bsCount = 0 ∧ text = [] then (screen, true)
    else (sendBackspaces typed screen bsCount ++ text, true)

/-- The focused window, after a refresh when the cache has none. -/
def focusedClass : Option Bool := d.cachedClass.or d.refreshedClass

/-- C++ `IsSyncReplaceChannel` -/
def IsSyncReplaceChannel : Bool :=
  d.injector.SettleBudget == 0 &&
    (d.injector.IsMessageBasedReplace && d.injector.IsForced || d.cachedClass.getD true)

/-- C++ `TryEditMessagePaste`; `none` when it fails -/
def TryEditMessagePaste (screen : List α) (bsCount : Nat) (text : List α) : Option (List α) :=
  if text = [] ∧ bsCount = 0 then some screen
  else if d.focusedClass = some true then replaceSelection screen bsCount text
  else none

/-- The retry loop of the synchronous channel. -/
def retryReplace : Nat → List α → Nat → List α → List α × Bool
  | 0, screen, _, _ => (screen, false)
  | tries + 1, screen, bsCount, text =>
    let result := d.Replace typed screen bsCount text
    if result.2 then result else retryReplace tries result.1 bsCount text

/-- The synchronous channel of `ReplaceUnicode`: 30 ms of retries, then the fallback. -/
def replaceSync (screen : List α) (bsCount : Nat) (text : List α) : List α :=
  let isEditCompatible := d.focusedClass.any fun compatible => compatible || d.injector.IsForced
  let result :=
    if isEditCompatible then d.retryReplace typed 31 screen bsCount text else (screen, false)
  if result.2 then result.1 else (fallback typed result.1 bsCount text).1

/-- The clipboard channel of `ReplaceUnicode`: the key that is not injected again never reached the
window, so it needs no backspace. -/
def replaceAnsi (screen : List α) (bsCount : Nat) (text : List α) (reinjectVk : Option Nat) : List α :=
  let bsCount := if reinjectVk.isSome ∧ 0 < bsCount then bsCount - 1 else bsCount
  match d.TryEditMessagePaste screen bsCount text with
  | some screen => screen
  | none => sendBackspaces typed screen bsCount ++ text

/-- The generic channel of `ReplaceUnicode`: the key is injected again in front of the edit. -/
def replaceGeneric (screen : List α) (bsCount : Nat) (text : List α) (reinjectVk : Option Nat) :
    List α :=
  let screen := match reinjectVk with
    | some vk => (Input.key vk false).land typed screen
    | none => screen
  if 0 < bsCount ∨ text ≠ [] then (d.Replace typed screen bsCount text).1 else screen

/-- C++ `ReplaceUnicode`; `none` stands for a `reinjectVk` of 0 -/
def ReplaceUnicode (screen : List α) (bsCount : Nat) (text : List α) (reinjectVk : Option Nat) :
    List α :=
  if d.IsSyncReplaceChannel then d.replaceSync typed screen bsCount text
  else if d.useClipboardPaste then d.replaceAnsi typed screen bsCount text reinjectVk
  else d.replaceGeneric typed screen bsCount text reinjectVk

variable {d} {typed} {screen text : List α} {bsCount : Nat}

omit [WideUnit α] in
/-- A short edit fits into the batches of every injector. -/
lemma fits_of_short (inj : SendInputInjector) (h : bsCount + text.length ≤ 126) :
    inj.Fits bsCount text := by
  have hpresses : inj.erasingPresses bsCount text ≤ bsCount + 2 := by
    unfold SendInputInjector.erasingPresses
    split <;> omega
  unfold SendInputInjector.Fits SendInputInjector.EraseFits
  rw [kMaxBatch]
  split <;> omega

/-- The injectors that send key presses. -/
lemma sendInput_eq (inj : SendInputInjector) (h : bsCount + text.length ≤ 126) :
    (landAll typed screen (inj.Replace bsCount text).1, (inj.Replace bsCount text).2) =
      (screen.rdrop bsCount ++ text, true) := by
  have hfits := fits_of_short inj h
  rw [inj.Replace_of_fits typed hfits, inj.Replace_sent hfits]

/-- What the keys of the fallback do. -/
lemma fallback_eq (h : bsCount + text.length ≤ 126) :
    fallback typed screen bsCount text = (screen.rdrop bsCount ++ text, true) :=
  sendInput_eq SendInputInjector.plain h

omit [WideUnit α] in
/-- What the replacement of a selection does. -/
lemma replaceSelection_eq (hlength : bsCount ≤ screen.length) :
    replaceSelection screen bsCount text = some (screen.rdrop bsCount ++ text) :=
  if_neg (Nat.not_lt.mpr hlength)

omit [WideUnit α] in
/-- Nothing to do is the edit of nothing. -/
lemma rdrop_append_nil (h : bsCount = 0 ∧ text = []) : screen.rdrop bsCount ++ text = screen := by
  obtain ⟨rfl, rfl⟩ := h
  simp

/-- Every injector. -/
lemma Replace_eq (hlength : bsCount ≤ screen.length) (h : bsCount + text.length ≤ 126) :
    d.Replace typed screen bsCount text = (screen.rdrop bsCount ++ text, true) := by
  unfold Replace
  cases d.injector with
  | sendInput inj => exact sendInput_eq inj h
  | richEdit forced =>
    dsimp only
    split
    · next hnothing => rw [rdrop_append_nil hnothing]
    · cases d.resolvedClass with
      | none => exact fallback_eq h
      | some compatible =>
        dsimp only
        split
        · rw [replaceSelection_eq hlength]
        · exact fallback_eq h
  | clipboard =>
    dsimp only
    split
    · next hnothing => rw [rdrop_append_nil hnothing]
    · rw [sendBackspaces, landAll_backs]

/-- The synchronous channel succeeds at the first try, or falls back. -/
lemma replaceSync_eq (hlength : bsCount ≤ screen.length) (h : bsCount + text.length ≤ 126) :
    d.replaceSync typed screen bsCount text = screen.rdrop bsCount ++ text := by
  have hretry : d.retryReplace typed 31 screen bsCount text = (screen.rdrop bsCount ++ text, true) := by
    rw [retryReplace, Replace_eq hlength h]
    rfl
  unfold replaceSync
  cases d.focusedClass.any fun compatible => compatible || d.injector.IsForced with
  | true => simp [hretry]
  | false => simp [fallback_eq h]

omit [WideUnit α] in
/-- What a paste by messages does. -/
lemma TryEditMessagePaste_eq {edited : List α} (hlength : bsCount ≤ screen.length)
    (h : d.TryEditMessagePaste screen bsCount text = some edited) :
    edited = screen.rdrop bsCount ++ text := by
  unfold TryEditMessagePaste at h
  split at h
  · next hnothing =>
    cases h
    rw [rdrop_append_nil hnothing.symm]
  · split at h
    · rw [replaceSelection_eq hlength] at h
      cases h
      rfl
    · cases h

omit [WideUnit α] in
/-- The clipboard channel makes the edit with the backspace for the missing key taken off. -/
lemma replaceAnsi_eq {reinjectVk : Option Nat}
    (hlength : (if reinjectVk.isSome then bsCount - 1 else bsCount) ≤ screen.length) :
    d.replaceAnsi typed screen bsCount text reinjectVk =
      screen.rdrop (if reinjectVk.isSome then bsCount - 1 else bsCount) ++ text := by
  have hcount : (if reinjectVk.isSome ∧ 0 < bsCount then bsCount - 1 else bsCount) =
      if reinjectVk.isSome then bsCount - 1 else bsCount := by
    cases reinjectVk with
    | none => simp
    | some vk =>
      simp
      omega
  unfold replaceAnsi
  rw [hcount]
  dsimp only
  split
  · next hpaste => exact TryEditMessagePaste_eq hlength hpaste
  · rw [sendBackspaces, landAll_backs]

/-- The second half of the generic channel. -/
lemma generic_eq (hlength : bsCount ≤ screen.length) (h : bsCount + text.length ≤ 126) :
    (if 0 < bsCount ∨ text ≠ [] then (d.Replace typed screen bsCount text).1 else screen) =
      screen.rdrop bsCount ++ text := by
  split
  · rw [Replace_eq hlength h]
  · next hnothing =>
    obtain ⟨hcount, htext⟩ := not_or.mp hnothing
    exact (rdrop_append_nil ⟨Nat.eq_zero_of_not_pos hcount, not_not.mp htext⟩).symm

/-- The generic channel without the key. -/
lemma replaceGeneric_eq (hlength : bsCount ≤ screen.length) (h : bsCount + text.length ≤ 126) :
    d.replaceGeneric typed screen bsCount text none = screen.rdrop bsCount ++ text :=
  generic_eq hlength h

/-- The generic channel types the key first. -/
lemma replaceGeneric_reinject {vk : Nat} (hvk : vk ≠ VK_BACK)
    (hlength : bsCount ≤ (screen ++ typed vk).length) (h : bsCount + text.length ≤ 126) :
    d.replaceGeneric typed screen bsCount text (some vk) =
      (screen ++ typed vk).rdrop bsCount ++ text := by
  have hland : (Input.key vk false).land typed screen = screen ++ typed vk := if_neg hvk
  rw [← generic_eq (d := d) hlength h, ← hland]
  rfl

end OutputDispatcher

end NextKey
