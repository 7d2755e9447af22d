import Mathlib.Data.List.DropRight
import NextKey.Hook.VirtualKeys
import NextKey.Lib.Batch

/-!
# The SendInput injectors

Model of `output/Win32SendInputInjector.cpp`, `output/SplitDispatchInjector.cpp` and of
`ShouldEmitBait` in `output/Internal.h`. `SendInput` takes every event it is given. The focused
control is the text before its caret: a `KEYEVENTF_UNICODE` press inserts its unit, `VK_BACK`
deletes one unit, and any other key inserts what the control makes of it, which is a parameter.
-/

namespace NextKey

/-- `wchar_t`: the units that text is sent in, by their codes. -/
class WideUnit (α : Type*) where
  ofCode : Nat → α

instance : WideUnit Char := ⟨Char.ofNat⟩
instance : WideUnit UInt16 := ⟨UInt16.ofNat⟩

/-- C++ `INPUT` of a keyboard event -/
inductive Input (α : Type*) where
  | unicode (unit : α) (keyup : Bool)
  | key (vk : Nat) (keyup : Bool)

variable {α : Type*}

section Control

variable (typed : Nat → List α)

/-- What one event does to the text before the caret. -/
def Input.land (screen : List α) : Input α → List α
  | .unicode unit false => screen ++ [unit]
  | .key vk false => if vk = VK_BACK then screen.dropLast else screen ++ typed vk
  | .unicode _ true | .key _ true => screen

/-- The text after all events. -/
def landAll (screen : List α) (events : List (Input α)) : List α :=
  events.foldl (Input.land typed) screen

/-- A press and its release. -/
def press (event : Bool → Input α) : List (Input α) := [event false, event true]

/-- A press is two events. -/
@[simp] lemma length_press (event : Bool → Input α) : (press event).length = 2 := rfl

/-- The presses of the characters. -/
def textGroups (text : List α) : List (List (Input α)) := text.map fun ch => press (.unicode ch)

/-- A text is two events for each unit. -/
lemma length_textGroups (text : List α) : (textGroups text).flatten.length = 2 * text.length := by
  induction text with
  | nil => rfl
  | cons ch rest ih =>
    show (press (.unicode ch) ++ (textGroups rest).flatten).length = _
    rw [List.length_append, ih, length_press, List.length_cons]
    omega

/-- Events in two parts. -/
lemma landAll_append (screen : List α) (events more : List (Input α)) :
    landAll typed screen (events ++ more) = landAll typed (landAll typed screen events) more :=
  List.foldl_append

/-- Backspaces delete from the end. -/
lemma landAll_backs (screen : List α) (n : Nat) :
    landAll typed screen (List.replicate n (press (.key VK_BACK))).flatten = screen.rdrop n := by
  induction n generalizing screen with
  | zero => simp [landAll, List.rdrop]
  | succ n ih =>
    rw [List.replicate_succ, List.flatten_cons, landAll_append, ih]
    show List.rdrop screen.dropLast n = _
    rw [List.dropLast_eq_take, List.rdrop, List.rdrop, List.take_take, List.length_take]
    congr 1
    omega

/-- Characters are inserted in their order. -/
lemma landAll_text (screen text : List α) :
    landAll typed screen (textGroups text).flatten = screen ++ text := by
  induction text generalizing screen with
  | nil => simp [landAll, textGroups]
  | cons ch rest ih =>
    show landAll typed screen (press (.unicode ch) ++ (textGroups rest).flatten) = _
    rw [landAll_append, ih]
    show screen ++ [ch] ++ rest = _
    simp

end Control

/-- C++ `kMaxBatch` -/
def kMaxBatch : Nat := 256

/-- C++ `ShouldEmitBait` -/
def ShouldEmitBait (needsBaitCharPrefix : Bool) (bsCount : Nat) (text : List α)
    (suggestKeepChars suppressBait : Bool) : Bool :=
  if !needsBaitCharPrefix || bsCount == 0 then false
  else if suppressBait then false
  else if suggestKeepChars && text.isEmpty then false
  else true

/-- Which of the two classes. -/
inductive SendInputChannel where
  | win32
  | split (sleepMs : Nat) (hasMultiProcessRenderer : Bool)

/-- C++ `Win32SendInputInjector` and `SplitDispatchInjector` -/
structure SendInputInjector where
  channel : SendInputChannel
  needsBaitCharPrefix : Bool
  suggestKeepChars : Bool
  suppressBait : Bool

namespace SendInputInjector

variable (inj : SendInputInjector)

/-- `ShouldEmitBait` at the injector's own flags. -/
def emitBait (bsCount : Nat) (text : List α) : Bool :=
  ShouldEmitBait inj.needsBaitCharPrefix bsCount text inj.suggestKeepChars inj.suppressBait

variable [WideUnit α]

/-- The bait character with its own backspace, then the backspaces. -/
def putBackspaces (bsCount : Nat) (text : List α) : Option (Batch (Input α) kMaxBatch) := do
  if inj.emitBait bsCount text then
    let buf ← Batch.empty.put (press (.unicode (WideUnit.ofCode 0x202F)))
    buf.putAll (List.replicate (bsCount + 1) (press (.key VK_BACK)))
  else Batch.empty.putAll (List.replicate bsCount (press (.key VK_BACK)))

/-- C++ `Win32SendInputInjector::Replace`: the events sent and the result -/
def replaceWin32 (bsCount : Nat) (text : List α) : List (Input α) × Bool :=
  match (inj.putBackspaces bsCount text).bind (·.putAll (textGroups text)) with
  | none => ([], false)
  | some buf => (buf.events, true)

/-- C++ `SplitDispatchInjector::Replace`: the events sent and the result -/
def replaceSplit (bsCount : Nat) (text : List α) : List (Input α) × Bool :=
  match inj.putBackspaces bsCount text with
  | none => ([], false)
  | some bsBuf =>
    match (Batch.empty : Batch (Input α) kMaxBatch).putAll (textGroups text) with
    | none => (bsBuf.events, false)
    | some charBuf => (bsBuf.events ++ charBuf.events, true)

/-- C++ `Replace` -/
def Replace (bsCount : Nat) (text : List α) : List (Input α) × Bool :=
  match inj.channel with
  | .win32 => inj.replaceWin32 bsCount text
  | .split _ _ => inj.replaceSplit bsCount text

/-- The key presses that erase: the backspaces, the bait and the backspace for the bait. -/
def erasingPresses (bsCount : Nat) (text : List α) : Nat :=
  if inj.emitBait bsCount text then bsCount + 2 else bsCount

/-- One batch holds the erasing presses and the text. -/
def oneBatch : Bool :=
  match inj.channel with
  | .win32 => true
  | .split _ _ => false

/-- The erasing part fits into its batch. -/
def EraseFits (bsCount : Nat) (text : List α) : Prop := 2 * inj.erasingPresses bsCount text ≤ kMaxBatch

/-- Both parts fit, into the batch they share or into one each. -/
def Fits (bsCount : Nat) (text : List α) : Prop :=
  if inj.oneBatch then 2 * (inj.erasingPresses bsCount text + text.length) ≤ kMaxBatch
  else inj.EraseFits bsCount text ∧ 2 * text.length ≤ kMaxBatch

instance (bsCount : Nat) (text : List α) : Decidable (inj.EraseFits bsCount text) :=
  inferInstanceAs (Decidable (_ ≤ _))

instance (bsCount : Nat) (text : List α) : Decidable (inj.Fits bsCount text) :=
  inferInstanceAs (Decidable (ite _ (_ ≤ _) (_ ∧ _ ≤ _)))

variable (typed : Nat → List α)

/-- The groups of the erasing part. -/
def eraseGroups (bsCount : Nat) (text : List α) : List (List (Input α)) :=
  if inj.emitBait bsCount text then
    press (.unicode (WideUnit.ofCode 0x202F)) :: List.replicate (bsCount + 1) (press (.key VK_BACK))
  else List.replicate bsCount (press (.key VK_BACK))

/-- What is put into the batch for the backspaces. -/
lemma putBackspaces_eq (bsCount : Nat) (text : List α) :
    inj.putBackspaces bsCount text = Batch.empty.putAll (inj.eraseGroups bsCount text) := by
  unfold putBackspaces eraseGroups
  split <;> rfl

/-- The length of the erasing part. -/
lemma length_eraseGroups (bsCount : Nat) (text : List α) :
    (inj.eraseGroups bsCount text).flatten.length = 2 * inj.erasingPresses bsCount text := by
  unfold eraseGroups erasingPresses
  split
  · simp
    omega
  · simp
    omega

/-- The erasing part is sent when it fits. -/
lemma putBackspaces_events (bsCount : Nat) (text : List α) :
    (inj.putBackspaces bsCount text).map Batch.events =
      if inj.EraseFits bsCount text then some (inj.eraseGroups bsCount text).flatten else none := by
  rw [putBackspaces_eq, Batch.putAll_events, Batch.empty_events, List.length_nil, Nat.zero_add,
    length_eraseGroups]
  rfl

/-- The erasing part erases, and the bait is gone again. -/
lemma landAll_eraseGroups (bsCount : Nat) (text screen : List α) :
    landAll typed screen (inj.eraseGroups bsCount text).flatten = screen.rdrop bsCount := by
  unfold eraseGroups
  split
  · rw [List.flatten_cons, landAll_append, landAll_backs]
    exact List.rdrop_concat_succ screen _ _
  · exact landAll_backs typed screen bsCount

/-- One batch: everything is sent or nothing. -/
lemma replaceWin32_eq (bsCount : Nat) (text : List α) :
    inj.replaceWin32 bsCount text =
      if 2 * (inj.erasingPresses bsCount text + text.length) ≤ kMaxBatch then
        ((inj.eraseGroups bsCount text).flatten ++ (textGroups text).flatten, true)
      else ([], false) := by
  have hback := inj.putBackspaces_events bsCount text
  unfold replaceWin32
  split at hback
  · obtain ⟨bsBuf, hbsBuf, hevents⟩ := Option.map_eq_some_iff.mp hback
    have hall := bsBuf.putAll_events (textGroups text)
    rw [hevents, length_eraseGroups, length_textGroups, ← Nat.mul_add] at hall
    rw [hbsBuf, Option.bind_some]
    split at hall
    · next hfits =>
      obtain ⟨buf, hbuf, hbufEvents⟩ := Option.map_eq_some_iff.mp hall
      rw [hbuf, if_pos hfits, ← hbufEvents]
    · next hfits => rw [Option.map_eq_none_iff.mp hall, if_neg hfits]
  · next hfits =>
    rw [Option.map_eq_none_iff.mp hback, Option.bind_none, if_neg]
    unfold EraseFits at hfits
    omega

/-- Two batches: the erasing part is sent first. -/
lemma replaceSplit_eq (bsCount : Nat) (text : List α) :
    inj.replaceSplit bsCount text =
      if inj.EraseFits bsCount text then
        if 2 * text.length ≤ kMaxBatch then
          ((inj.eraseGroups bsCount text).flatten ++ (textGroups text).flatten, true)
        else ((inj.eraseGroups bsCount text).flatten, false)
      else ([], false) := by
  have hback := inj.putBackspaces_events bsCount text
  unfold replaceSplit
  split at hback
  · next hfits =>
    obtain ⟨bsBuf, hbsBuf, hevents⟩ := Option.map_eq_some_iff.mp hback
    have hall := (Batch.empty : Batch (Input α) kMaxBatch).putAll_events (textGroups text)
    rw [Batch.empty_events, List.length_nil, Nat.zero_add, length_textGroups, List.nil_append] at hall
    rw [hbsBuf, if_pos hfits]
    split at hall
    · next htext =>
      obtain ⟨buf, hbuf, hbufEvents⟩ := Option.map_eq_some_iff.mp hall
      rw [if_pos htext, ← hevents, ← hbufEvents]
      simp only [hbuf]
    · next htext =>
      rw [if_neg htext, ← hevents]
      simp only [Option.map_eq_none_iff.mp hall]
  · next hfits => rw [Option.map_eq_none_iff.mp hback, if_neg hfits]

/-- What fits is sent whole. -/
lemma Replace_sent {bsCount : Nat} {text : List α} (h : inj.Fits bsCount text) :
    inj.Replace bsCount text =
      ((inj.eraseGroups bsCount text).flatten ++ (textGroups text).flatten, true) := by
  unfold Fits oneBatch at h
  unfold Replace
  cases hchannel : inj.channel with
  | win32 =>
    rw [hchannel, if_pos rfl] at h
    show inj.replaceWin32 bsCount text = _
    rw [replaceWin32_eq, if_pos h]
  | split sleepMs multi =>
    rw [hchannel, if_neg (by simp)] at h
    show inj.replaceSplit bsCount text = _
    rw [replaceSplit_eq, if_pos h.1, if_pos h.2]

/-- What fits is delivered: the backspaces delete and the text follows. -/
theorem Replace_of_fits {bsCount : Nat} {text : List α} (h : inj.Fits bsCount text) (screen : List α) :
    landAll typed screen (inj.Replace bsCount text).1 = screen.rdrop bsCount ++ text := by
  rw [inj.Replace_sent h, landAll_append, landAll_eraseGroups, landAll_text]

omit [WideUnit α] in
/-- Without a backspace there is no bait either. -/
lemma erasingPresses_zero (text : List α) : inj.erasingPresses 0 text = 0 := by
  simp [erasingPresses, emitBait, ShouldEmitBait]

/-- What does not fit is not delivered: no text arrives, and at most the backspaces do, before a
text that is then lost. -/
theorem Replace_of_not_fits {bsCount : Nat} {text : List α} (h : ¬inj.Fits bsCount text) :
    ∃ k, (k = 0 ∨ k = bsCount) ∧ (k = bsCount → text ≠ []) ∧
      ∀ screen : List α, landAll typed screen (inj.Replace bsCount text).1 = screen.rdrop k := by
  -- Without backspaces only the text takes room.
  have hempty : text = [] → bsCount ≠ 0 := by
    rintro rfl rfl
    apply h
    unfold Fits EraseFits
    rw [erasingPresses_zero]
    simp
  have hnothing : (inj.Replace bsCount text).1 = [] →
      ∃ k, (k = 0 ∨ k = bsCount) ∧ (k = bsCount → text ≠ []) ∧
        ∀ screen : List α, landAll typed screen (inj.Replace bsCount text).1 = screen.rdrop k := by
    intro hsent
    refine ⟨0, .inl rfl, fun hk htext => hempty htext hk.symm, fun screen => ?_⟩
    rw [hsent, List.rdrop_zero]
    rfl
  unfold Fits oneBatch at h
  cases hchannel : inj.channel with
  | win32 =>
    rw [hchannel, if_pos rfl] at h
    apply hnothing
    rw [Replace, hchannel]
    show (inj.replaceWin32 bsCount text).1 = _
    rw [replaceWin32_eq, if_neg h]
  | split sleepMs multi =>
    rw [hchannel, if_neg (by simp)] at h
    by_cases hfits : inj.EraseFits bsCount text
    · have htext : ¬2 * text.length ≤ kMaxBatch := fun htext => h ⟨hfits, htext⟩
      refine ⟨bsCount, .inr rfl, ?_, fun screen => ?_⟩
      · rintro - rfl
        simp at htext
      · rw [Replace, hchannel]
        show landAll typed screen (inj.replaceSplit bsCount text).1 = _
        rw [replaceSplit_eq, if_pos hfits, if_neg htext, landAll_eraseGroups]
    · apply hnothing
      rw [Replace, hchannel]
      show (inj.replaceSplit bsCount text).1 = _
      rw [replaceSplit_eq, if_neg hfits]

end SendInputInjector

end NextKey
