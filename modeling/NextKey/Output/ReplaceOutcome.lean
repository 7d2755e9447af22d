import NextKey.Output.Injector

/-!
# What is left of a replacement that fails

`Replace` of the SendInput injectors over a `SendInput` that takes a batch whole or refuses it. The
Win32 injector has one batch, so a replacement happens or does not. The split injector sends the
backspaces before it knows whether the text fits and whether it will be taken: when either fails it
returns false over a screen that has lost its characters, and its caller, told to fall back, types on
behind what is left.
-/

namespace NextKey

variable {α : Type*}

/-- C++ `TrackedSendInput` of a batch that is taken or refused: the events that land and the result -/
def TrackedSendInput (taken : Bool) (events : List (Input α)) : List (Input α) × Bool :=
  if taken then (events, true) else ([], false)

/-- The call, unless there is nothing to send. -/
def sendAny (taken : Bool) (events : List (Input α)) : List (Input α) × Bool :=
  if events.isEmpty then ([], true) else TrackedSendInput taken events

namespace SendInputInjector

section Outcome

variable [WideUnit α] (inj : SendInputInjector) (taken : Nat → Bool)

/-- C++ `Win32SendInputInjector::Replace`, whose calls of `SendInput` go as `taken` says -/
def win32Replace (bsCount : Nat) (text : List α) : List (Input α) × Bool :=
  match (inj.putBackspaces bsCount text).bind (·.putAll (textGroups text)) with
  | none => ([], false)
  | some buf => sendAny (taken 0) buf.events

/-- C++ `SplitDispatchInjector::Replace`, whose calls of `SendInput` go as `taken` says -/
def splitReplace (bsCount : Nat) (text : List α) : List (Input α) × Bool :=
  match inj.putBackspaces bsCount text with
  | none => ([], false)
  | some bsBuf =>
    let bs := sendAny (taken 0) bsBuf.events
    if !bs.2 then bs
    else if text.isEmpty then bs
    else
      match (Batch.empty : Batch (Input α) kMaxBatch).putAll (textGroups text) with
      | none => (bs.1, false)
      | some charBuf =>
        let chars := sendAny (taken (if bsBuf.events.isEmpty then 0 else 1)) charBuf.events
        (bs.1 ++ chars.1, chars.2)

/-- C++ `Replace`: the events that land and the result -/
def sendReplace (bsCount : Nat) (text : List α) : List (Input α) × Bool :=
  match inj.channel with
  | .win32 => inj.win32Replace taken bsCount text
  | .split _ _ => inj.splitReplace taken bsCount text

/-- A replacement happens whole or leaves the screen as it is, and says which. -/
def AllOrNothing (typed : Nat → List α) (bsCount : Nat) (text : List α) : Prop :=
  ∀ screen : List α, bsCount ≤ screen.length →
    let result := inj.sendReplace taken bsCount text
    landAll typed screen result.1 = if result.2 then screen.rdrop bsCount ++ text else screen

variable (typed : Nat → List α) {taken} {bsCount : Nat} {text screen : List α}

omit [WideUnit α] in
/-- A call lands as a whole or not at all. -/
lemma landAll_sendAny (accepted : Bool) (events : List (Input α)) :
    landAll typed screen (sendAny accepted events).1 =
      if (sendAny accepted events).2 then landAll typed screen events else screen := by
  unfold sendAny TrackedSendInput
  cases events with
  | nil => rfl
  | cons event events => cases accepted <;> rfl

omit [WideUnit α] in
/-- A call that is taken sends all. -/
lemma sendAny_taken (events : List (Input α)) : sendAny true events = (events, true) := by
  cases events <;> rfl

omit [WideUnit α] in
/-- One that is refused sends nothing. -/
lemma sendAny_refused {events : List (Input α)} (h : events ≠ []) :
    sendAny false events = ([], false) := by
  cases events with
  | nil => exact absurd rfl h
  | cons event events => rfl

/-- The erasing part is empty just when nothing is erased. -/
lemma eraseGroups_eq_nil : (inj.eraseGroups bsCount text).flatten = [] ↔ bsCount = 0 := by
  rw [← List.length_eq_zero_iff, length_eraseGroups, erasingPresses]
  cases hbait : inj.emitBait bsCount text with
  | true =>
    -- no bait without a backspace
    have hne : bsCount ≠ 0 := by
      rintro rfl
      simp [emitBait, ShouldEmitBait] at hbait
    simp [hne]
  | false =>
    rw [if_neg Bool.false_ne_true]
    omega

omit [WideUnit α] in
/-- Only an empty text has no events. -/
lemma textGroups_eq_nil : (textGroups text).flatten = [] ↔ text = [] := by
  rw [← List.length_eq_zero_iff, length_textGroups, ← List.length_eq_zero_iff]
  omega

/-- What a replacement in one batch sends. -/
lemma win32Replace_eq : inj.win32Replace taken bsCount text =
    if 2 * (inj.erasingPresses bsCount text + text.length) ≤ kMaxBatch then
      sendAny (taken 0) ((inj.eraseGroups bsCount text).flatten ++ (textGroups text).flatten)
    else ([], false) := by
  have hwin32 := inj.replaceWin32_eq bsCount text
  unfold replaceWin32 at hwin32
  unfold win32Replace
  cases hbuf : (inj.putBackspaces bsCount text).bind (·.putAll (textGroups text)) with
  | none =>
    rw [hbuf] at hwin32
    split_ifs at hwin32 with hfits
    · exact absurd (Prod.mk.inj hwin32).2 Bool.false_ne_true
    · rw [if_neg hfits]
  | some buf =>
    rw [hbuf] at hwin32
    split_ifs at hwin32 with hfits
    · rw [if_pos hfits, ← (Prod.mk.inj hwin32).1]
    · exact absurd (Prod.mk.inj hwin32).2.symm Bool.false_ne_true

/-- What the split injector does, once the batches are known. -/
lemma splitReplace_eq : inj.splitReplace taken bsCount text =
    if inj.EraseFits bsCount text then
      let bs := sendAny (taken 0) (inj.eraseGroups bsCount text).flatten
      if !bs.2 then bs
      else if text.isEmpty then bs
      else if 2 * text.length ≤ kMaxBatch then
        let chars := sendAny (taken (if bsCount = 0 then 0 else 1)) (textGroups text).flatten
        (bs.1 ++ chars.1, chars.2)
      else (bs.1, false)
    else ([], false) := by
  have hback := inj.putBackspaces_events bsCount text
  unfold splitReplace
  split at hback
  · next hfits =>
    obtain ⟨bsBuf, hbsBuf, hevents⟩ := Option.map_eq_some_iff.mp hback
    have hall := (Batch.empty : Batch (Input α) kMaxBatch).putAll_events (textGroups text)
    rw [Batch.empty_events, List.length_nil, Nat.zero_add, length_textGroups, List.nil_append] at hall
    have hcall : bsBuf.events.isEmpty = true ↔ bsCount = 0 := by
      rw [List.isEmpty_iff, hevents, eraseGroups_eq_nil]
    simp only [hbsBuf, if_pos hfits, hevents]
    split at hall
    · next htext =>
      obtain ⟨buf, hbuf, hbufEvents⟩ := Option.map_eq_some_iff.mp hall
      simp only [hbuf, hbufEvents, if_pos htext, List.isEmpty_iff, eraseGroups_eq_nil]
    · next htext => simp only [Option.map_eq_none_iff.mp hall, if_neg htext]
  · next hfits => rw [Option.map_eq_none_iff.mp hback, if_neg hfits]

/-- Over a `SendInput` that takes everything this is `Replace`. -/
lemma sendReplace_taken : inj.sendReplace (fun _ => true) bsCount text = inj.Replace bsCount text := by
  unfold sendReplace Replace
  cases inj.channel with
  | win32 =>
    show inj.win32Replace _ bsCount text = inj.replaceWin32 bsCount text
    rw [win32Replace_eq, replaceWin32_eq, sendAny_taken]
  | split sleepMs multi =>
    show inj.splitReplace _ bsCount text = inj.replaceSplit bsCount text
    rw [splitReplace_eq, replaceSplit_eq]
    simp only [sendAny_taken, Bool.not_true, Bool.false_eq_true, if_false]
    cases text with
    | nil => simp [textGroups]
    | cons ch text => rfl

/-- One batch is all or nothing. -/
lemma allOrNothing_win32 (hchannel : inj.channel = .win32) :
    inj.AllOrNothing taken typed bsCount text := by
  intro screen hscreen
  rw [sendReplace, hchannel]
  dsimp only
  rw [win32Replace_eq]
  split
  · rw [landAll_sendAny, landAll_append, landAll_eraseGroups, landAll_text]
  · rfl

/-- The text follows the backspaces for sure: there are none, or no text, or they do not go out
    themselves, or the text fits and is taken. -/
def TextFollows (taken : Nat → Bool) (bsCount : Nat) (text : List α) : Prop :=
  bsCount = 0 ∨ text = [] ∨ ¬inj.EraseFits bsCount text ∨ taken 0 = false ∨
    (2 * text.length ≤ kMaxBatch ∧ taken 1 = true)

/-- What the split injector leaves when the text follows. -/
lemma allOrNothing_split {sleepMs multi} (hchannel : inj.channel = .split sleepMs multi)
    (hfollows : inj.TextFollows taken bsCount text) : inj.AllOrNothing taken typed bsCount text := by
  intro screen hscreen
  have hbs : landAll typed screen (sendAny (taken 0) (inj.eraseGroups bsCount text).flatten).1 =
      if (sendAny (taken 0) (inj.eraseGroups bsCount text).flatten).2 then screen.rdrop bsCount
      else screen := by
    rw [landAll_sendAny, landAll_eraseGroups]
  rw [sendReplace, hchannel]
  dsimp only
  rw [splitReplace_eq]
  by_cases hfits : inj.EraseFits bsCount text
  · rw [if_pos hfits]
    generalize hsent : sendAny (taken 0) (inj.eraseGroups bsCount text).flatten = bs at hbs
    obtain ⟨events, accepted⟩ := bs
    cases accepted with
    | false => exact hbs
    | true =>
      by_cases htext : text = []
      · subst htext
        rw [List.append_nil]
        exact hbs
      have hempty : ¬text.isEmpty = true := List.isEmpty_iff.not.2 htext
      simp only [Bool.not_true, Bool.false_eq_true, if_false, if_neg hempty, if_true] at hbs ⊢
      by_cases hzero : bsCount = 0
      · -- nothing is erased, and the text is the only batch
        subst hzero
        rw [List.rdrop_zero] at hbs ⊢
        split
        · rw [landAll_append, hbs, landAll_sendAny, landAll_text]
        · exact hbs
      · have hfirst : taken 0 ≠ false := by
          intro hfirst
          rw [hfirst, sendAny_refused (inj.eraseGroups_eq_nil.not.2 hzero)] at hsent
          cases hsent
        obtain ⟨hroom, hsecond⟩ := ((((hfollows.resolve_left hzero).resolve_left htext).resolve_left
          (not_not.2 hfits)).resolve_left hfirst)
        rw [if_pos hroom, if_neg hzero, hsecond, sendAny_taken, landAll_append, hbs, landAll_text]
        rfl
  · rw [if_neg hfits]
    rfl

/-- What the split injector leaves when the text does not follow: the backspaces alone. -/
lemma splitReplace_erased (hfollows : ¬inj.TextFollows taken bsCount text) :
    inj.splitReplace taken bsCount text = ((inj.eraseGroups bsCount text).flatten, false) := by
  simp only [TextFollows, not_or, not_and, Bool.not_eq_true, Bool.not_eq_false, not_not] at hfollows
  obtain ⟨hzero, htext, hfits, hfirst, hsecond⟩ := hfollows
  rw [splitReplace_eq, if_pos hfits, hfirst, sendAny_taken]
  simp only [Bool.not_true, Bool.false_eq_true, if_false, List.isEmpty_iff, htext, hzero]
  split
  · next hroom =>
    rw [hsecond hroom, sendAny_refused (textGroups_eq_nil.not.2 htext), List.append_nil]
  · rfl

/-- A replacement is all or nothing just when it has one batch or the text follows the backspaces. -/
theorem allOrNothing_iff (bsCount : Nat) (text : List α) (taken : Nat → Bool) :
    inj.AllOrNothing taken typed bsCount text ↔
      inj.channel = .win32 ∨ bsCount = 0 ∨ text = [] ∨ ¬inj.EraseFits bsCount text ∨
        taken 0 = false ∨ (2 * text.length ≤ kMaxBatch ∧ taken 1 = true) := by
  cases hchannel : inj.channel with
  | win32 => exact iff_of_true (inj.allOrNothing_win32 typed hchannel) (.inl rfl)
  | split sleepMs multi =>
    refine ⟨fun hall => .inr ?_, fun h => ?_⟩
    · by_contra hfollows
      have hzero : bsCount ≠ 0 := fun hzero => hfollows (.inl hzero)
      -- a screen with just the characters that are erased
      have hlost := hall (List.replicate bsCount (WideUnit.ofCode 0)) (by simp)
      rw [sendReplace, hchannel] at hlost
      dsimp only at hlost
      rw [inj.splitReplace_erased hfollows, landAll_eraseGroups, if_neg Bool.false_ne_true] at hlost
      have hlength := congrArg List.length hlost
      rw [List.rdrop, List.length_take, List.length_replicate] at hlength
      omega
    · exact inj.allOrNothing_split typed hchannel (h.resolve_left (by simp))

end Outcome

/-- The injector for consoles. -/
def consoleInjector : SendInputInjector where
  channel := .split 5 false
  needsBaitCharPrefix := false
  suggestKeepChars := false
  suppressBait := false

/-- A console takes the backspace and refuses the text: the "a" is gone and no "á" is there. -/
theorem not_allOrNothing_console :
    ¬∀ (inj : SendInputInjector) (taken : Nat → Bool) (bsCount : Nat) (text : List UInt16),
      inj.AllOrNothing taken (fun _ => []) bsCount text := by
  intro h
  have hlost := h consoleInjector (· == 0) 1 [0xE1] [0x61] (by decide)
  exact absurd hlost (by decide)

end SendInputInjector

end NextKey
