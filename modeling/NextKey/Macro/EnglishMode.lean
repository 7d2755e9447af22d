import Mathlib.Data.List.DropRight
import NextKey.Config.Sections
import NextKey.Hook.KeyDown
import NextKey.Lib.Machine

/-!
# Macros in English mode

Model of the English branch of `HookEngine::HandleMacro`, with macros on in English mode, of
`IsCommitTrigger` and of `IsMacroTrigger`. A key that is injected again is a key that passes, and an
expansion is delivered whole.

The macro buffer stands for the word before the caret, and leaves it behind in three ways: a letter
counts with Ctrl held, a Space behind a word that is no macro does not empty the buffer, and a Backspace
behind a Space takes nothing back. As long as a run keeps clear of them, a Space expands the word before
it exactly when that word is a macro (`firesRight_run`).
-/

namespace NextKey

def VK_INSERT : Nat := 0x2D
def VK_NUMPAD0 : Nat := 0x60
def VK_DIVIDE : Nat := 0x6F

/-- C++ `IsCommitTrigger` -/
def IsCommitTrigger (vkCode : Nat) : Bool :=
  vkCode == VK_SPACE || vkCode == VK_RETURN || vkCode == VK_ESCAPE || vkCode == VK_TAB ||
  decide (VK_LEFT ≤ vkCode ∧ vkCode ≤ VK_DOWN) ||
  vkCode == VK_HOME || vkCode == VK_END || vkCode == VK_PRIOR || vkCode == VK_NEXT ||
  isDigitVk vkCode || decide (VK_NUMPAD0 ≤ vkCode ∧ vkCode ≤ VK_DIVIDE) || IsOemPunctVk vkCode ||
  vkCode == VK_DELETE || vkCode == VK_INSERT

/-- What the English branch reads of the settings. -/
structure EnglishConfig where
  macroTable : List (WString × WString)
  hotkeys : HotkeyRegistry := {}
  autoCapsMacro : Bool := false
  macroTriggerSpace : Bool := true
  macroTriggerEnter : Bool := true
  macroTriggerTab : Bool := true
  macroTriggerDir : Bool := true
  codeTable : CodeTable := .Unicode
  mapper : CaseMapper

/-- C++ `IsMacroTrigger` -/
def EnglishConfig.IsMacroTrigger (env : EnglishConfig) (vkCode : Nat) : Bool :=
  if !IsCommitTrigger vkCode then false
  else if vkCode = VK_SPACE then env.macroTriggerSpace
  else if vkCode = VK_RETURN then env.macroTriggerEnter
  else if vkCode = VK_TAB then env.macroTriggerTab
  else if VK_LEFT ≤ vkCode ∧ vkCode ≤ VK_DOWN ∨ vkCode = VK_HOME ∨ vkCode = VK_END ∨
      vkCode = VK_PRIOR ∨ vkCode = VK_NEXT then
    env.macroTriggerDir
  else true

/-- The fields of `HookEngine` that the branch reads and writes, and the text before the caret. -/
structure EnglishTyping where
  rawMacroBuffer : WString := []
  tempMacroOff : Bool := false
  previousComposition : WString := []
  previousEncodedWidths : List Nat := []
  macroCrossCommit : Bool := false
  screen : WString := []

/-- A key with the modifiers held, and what `VkToMacroChar` makes of it. -/
structure EnglishPress where
  vkCode : Nat
  macroChar : UInt16
  shift : Bool := false
  capsLock : Bool := false
  ctrl : Bool := false
  alt : Bool := false
  win : Bool := false

/-- C++ `ComputeModMask` -/
def EnglishPress.mods (k : EnglishPress) : BitVec 32 :=
  (if k.ctrl then 0x01 else 0) ||| (if k.shift then 0x02 else 0) ||| (if k.alt then 0x04 else 0) |||
    (if k.win then 0x08 else 0)

/-- The hotkey that skips the next macro. -/
def EnglishConfig.skipsMacro (env : EnglishConfig) (k : EnglishPress) : Bool :=
  env.hotkeys.Matches .SkipMacro (BitVec.ofNat 32 k.vkCode) k.mods false false

namespace EnglishTyping

variable [WideCtype] [WideLocale] (env : EnglishConfig) (st : EnglishTyping) (k : EnglishPress)

/-- What `TryExpandMacro` reads. -/
def macroState : MacroState where
  rawMacroBuffer := st.rawMacroBuffer
  previousComposition := st.previousComposition
  previousEncodedWidths := st.previousEncodedWidths
  macroTable := env.macroTable
  macroCrossCommit := st.macroCrossCommit
  currentCodeTable := env.codeTable
  autoCapsMacro := env.autoCapsMacro

/-- What `TryExpandMacro` does with a plan. -/
def deliver (plan : Macro.MacroPlan) : EnglishTyping where
  screen := st.screen.rdrop plan.bsCount ++ renderedExpansion env.codeTable plan.expansion

/-- A printable trigger joins the buffer. -/
def trackTrigger : EnglishTyping :=
  if blank < k.macroChar then { st with rawMacroBuffer := st.rawMacroBuffer ++ [k.macroChar] } else st

/-- The plan of `TryExpandMacro` when it is called and finds a macro. -/
def expansion : Option Macro.MacroPlan :=
  if st.rawMacroBuffer ≠ [] ∧ env.IsMacroTrigger k.vkCode then
    let plan := (st.macroState env).plan k.macroChar env.mapper
    if plan.matched then some plan else none
  else none

/-- C++ `HandleMacro` in English mode -/
def HandleMacro : EnglishTyping × KeyOutcome :=
  if isLetterVk k.vkCode then
    ({ st with
        rawMacroBuffer := st.rawMacroBuffer ++ wide [originalCh k.vkCode k.shift k.capsLock] }, .pass)
  else if env.skipsMacro k ∧ st.rawMacroBuffer = [] then ({ st with tempMacroOff := true }, .pass)
  else if IsCommitTrigger k.vkCode ∧ ¬st.tempMacroOff then
    let st := st.trackTrigger k
    match st.expansion env k with
    | some plan => (st.deliver env plan, if plan.isPartOfMacro then .eat else .pass)
    | none =>
      -- only a disabled trigger ends the word here
      if ¬env.IsMacroTrigger k.vkCode then
        ({ st with rawMacroBuffer := [], tempMacroOff := false }, .pass)
      else (st, .pass)
  else if k.vkCode = VK_BACK ∧ st.rawMacroBuffer ≠ [] then
    ({ st with rawMacroBuffer := st.rawMacroBuffer.dropLast }, .pass)
  else if ¬IsCommitTrigger k.vkCode then
    ({ st with rawMacroBuffer := [], tempMacroOff := false }, .pass)
  else (st, .pass)

/-- The plan that the key finds, when it finds one. -/
def fired : Option Macro.MacroPlan :=
  if isLetterVk k.vkCode ∨ env.skipsMacro k ∧ st.rawMacroBuffer = [] ∨
      ¬(IsCommitTrigger k.vkCode ∧ ¬st.tempMacroOff) then none
  else (st.trackTrigger k).expansion env k

end EnglishTyping

/-- A key of a text without digits and punctuation. -/
inductive EnglishKey where
  | letter (vkCode : Nat) (isLetter : isLetterVk vkCode) (shift capsLock : Bool)
  | ctrlLetter (vkCode : Nat) (isLetter : isLetterVk vkCode) (shift capsLock : Bool)
  | back (shift : Bool)
  | space (shift : Bool)

namespace EnglishKey

def press : EnglishKey → EnglishPress
  | letter vkCode _ shift capsLock => { vkCode, macroChar := 0, shift, capsLock }
  | ctrlLetter vkCode _ shift capsLock => { vkCode, macroChar := 0, shift, capsLock, ctrl := true }
  | back shift => { vkCode := VK_BACK, macroChar := 0x08, shift }
  | space shift => { vkCode := VK_SPACE, macroChar := blank, shift }

/-- What the key does to the text when it reaches the window. -/
def land [WideLocale] (screen : WString) : EnglishKey → WString
  | letter vkCode _ shift capsLock => screen ++ wide [originalCh vkCode shift capsLock]
  | ctrlLetter _ _ _ _ => screen
  | back _ => screen.dropLast
  | space _ => screen ++ [blank]

end EnglishKey

/-- The word before the caret: everything behind the last blank. -/
def lastWord (screen : WString) : WString := screen.rtakeWhile (· ≠ blank)

/-- A key of the macro table that has lower-case letters only. -/
def LowerCaseKey [WideCtype] (key : WString) : Prop :=
  key ≠ [] ∧ ∀ c ∈ key, WideCtype.iswalpha c ∧ WideCtype.towlower c = c

namespace EnglishTyping

variable [WideCtype] [WideLocale] (env : EnglishConfig) (st : EnglishTyping)

/-- The key, and its way to the window when it is not eaten. -/
def step (st : EnglishTyping) (key : EnglishKey) : EnglishTyping :=
  let result := st.HandleMacro env key.press
  if result.2 = .eat then result.1 else { result.1 with screen := key.land result.1.screen }

/-- The word before the caret is a macro, compared case-insensitively. -/
def WordIsMacro : Prop := Macro.PlanInputs.LowerCopy (lastWord st.screen) ∈ env.macroTable.map Prod.fst

instance : Decidable (st.WordIsMacro env) := inferInstanceAs (Decidable (_ ∈ _))

/-- A Space expands a macro exactly when the word before it is one, and erases that word. -/
def FiresRight (shift : Bool) : Prop :=
  match st.fired env (EnglishKey.space shift).press with
  | some plan => st.WordIsMacro env ∧ plan.bsCount = (lastWord st.screen).length
  | none => ¬st.WordIsMacro env

/-- No letter comes with Ctrl, a Space comes behind a macro or behind no word, a Backspace takes a
letter of the word or, behind no word, does not reach the word before; behind no word neither of the
two is the hotkey that skips a macro. -/
def InStep (st : EnglishTyping) : EnglishKey → Prop
  | .letter _ _ _ _ => True
  | .ctrlLetter _ _ _ _ => False
  | .back shift =>
    lastWord st.screen ≠ [] ∨
      lastWord st.screen.dropLast = [] ∧ env.skipsMacro (EnglishKey.back shift).press = false
  | .space shift =>
    st.WordIsMacro env ∨
      lastWord st.screen = [] ∧ env.skipsMacro (EnglishKey.space shift).press = false

instance (st : EnglishTyping) : ∀ key, Decidable (st.InStep env key)
  | .letter _ _ _ _ => inferInstanceAs (Decidable True)
  | .ctrlLetter _ _ _ _ => inferInstanceAs (Decidable False)
  | .back _ => inferInstanceAs (Decidable (_ ∨ _ ∧ _))
  | .space _ => inferInstanceAs (Decidable (_ ∨ _ ∧ _))

variable {env st} in
/-- The plan that a key finds is what it delivers. -/
lemma HandleMacro_of_fired {k : EnglishPress} {plan} (h : st.fired env k = some plan) :
    st.HandleMacro env k =
      ((st.trackTrigger k).deliver env plan, if plan.isPartOfMacro then .eat else .pass) := by
  unfold fired at h
  split at h
  · cases h
  · next hreached =>
    obtain ⟨hletter, hreached⟩ := not_or.1 hreached
    obtain ⟨hskip, hcommit⟩ := not_or.1 hreached
    rw [HandleMacro, if_neg hletter, if_neg hskip, if_pos (not_not.1 hcommit)]
    simp only [h]

/-- The buffer holds the word before the caret, and nothing is left from a composition. -/
structure Mirrors (st : EnglishTyping) : Prop where
  buffer : st.rawMacroBuffer = lastWord st.screen
  macroOn : st.tempMacroOff = false
  composition : st.previousComposition = []
  sameCommit : st.macroCrossCommit = false

variable {env st}

omit [WideCtype] in
/-- A letter key types no blank. -/
lemma originalCh_ne_blank {vkCode : Nat} (h : isLetterVk vkCode) (shift capsLock : Bool) :
    UInt16.ofNat (originalCh vkCode shift capsLock).toNat ≠ blank := by
  have hvk : 0x41 ≤ vkCode ∧ vkCode ≤ 0x5A := of_decide_eq_true h
  have hletters : ∀ n : Fin 0x5B, 0x41 ≤ n.val →
      (Char.ofNat n.val).toNat < 128 ∧ UInt16.ofNat (Char.ofNat n.val).toNat ≠ blank ∧
        UInt16.ofNat (Char.ofNat n.val).toLower.toNat ≠ blank := by
    decide +kernel
  obtain ⟨hascii, hupper, hlower⟩ := hletters ⟨vkCode, by omega⟩ hvk.1
  unfold originalCh
  split
  · exact hupper
  · rw [WideLocale.towlower_ascii _ hascii]
    exact hlower

omit [WideCtype] [WideLocale] in
/-- Behind a blank there is no word. -/
lemma lastWord_blank (screen : WString) : lastWord (screen ++ [blank]) = [] :=
  List.rtakeWhile_concat_neg _ _ _ (by simp)

omit [WideCtype] [WideLocale] in
/-- A letter belongs to the last word. -/
lemma lastWord_letter {c : UInt16} (h : c ≠ blank) (screen : WString) :
    lastWord (screen ++ [c]) = lastWord screen ++ [c] :=
  List.rtakeWhile_concat_pos _ _ _ (by simpa using h)

omit [WideCtype] [WideLocale] in
/-- A Backspace takes the last letter of a word. -/
lemma lastWord_dropLast {screen : WString} (h : lastWord screen ≠ []) :
    lastWord screen.dropLast = (lastWord screen).dropLast := by
  obtain rfl | ⟨front, c, rfl⟩ := List.eq_nil_or_concat screen
  · exact absurd rfl h
  · rw [List.concat_eq_append] at h ⊢
    by_cases hc : c = blank
    · subst hc
      exact absurd (lastWord_blank front) h
    · rw [lastWord_letter hc, List.dropLast_concat, List.dropLast_concat]

omit [WideLocale] in
/-- A word that is a macro is not empty. -/
lemma WordIsMacro.ne_nil (h : st.WordIsMacro env)
    (hkeys : ∀ key ∈ env.macroTable.map Prod.fst, LowerCaseKey key) : lastWord st.screen ≠ [] := by
  intro hnil
  have hkey := hkeys _ h
  rw [hnil] at hkey
  exact hkey.1 rfl

omit [WideLocale] in
/-- A lower-case name that is found as it is typed is found in lower case. -/
lemma lowerCopy_mem {names : List WString} (hkeys : ∀ key ∈ names, LowerCaseKey key) {buffer : WString}
    (h : buffer ∈ names) : Macro.PlanInputs.LowerCopy buffer ∈ names := by
  have hlower : Macro.PlanInputs.LowerCopy buffer = buffer :=
    (List.map_congr_left fun c hc => ((hkeys _ h).2 c hc).2).trans (List.map_id _)
  rwa [hlower]

omit [WideLocale] in
/-- A Space looks up the buffer only: it joins no word, and nothing is composed. -/
lemma Mirrors.search (h : st.Mirrors) :
    let inp := (st.macroState env).planInputs blank
    inp.search = inp.findBuffer := by
  intro inp
  have htrigger : inp.findWithoutTrigger = none := by
    have hprintable : inp.printableTrigger = false := rfl
    unfold Macro.PlanInputs.findWithoutTrigger
    simp [hprintable]
  have hcomposition : inp.findComposition = none := if_pos h.composition
  rw [Macro.PlanInputs.search, htrigger, hcomposition]
  cases inp.findBuffer <;> rfl

omit [WideLocale] in
/-- A printable trigger is part of a macro that is found with it. -/
lemma findBuffer_isPartOfMacro {inp : Macro.PlanInputs} {found}
    (h : inp.findBuffer = some found) : found.isPartOfMacro = inp.printableTrigger := by
  unfold Macro.PlanInputs.findBuffer at h
  split at h
  · cases h
    rfl
  · obtain ⟨e, -, rfl⟩ := Option.map_eq_some_iff.1 h
    rfl

omit [WideLocale] in
/-- What a Space finds is the word before it, and what it erases too. -/
lemma Mirrors.plan (h : st.Mirrors)
    (hkeys : ∀ key ∈ env.macroTable.map Prod.fst, LowerCaseKey key) :
    let plan := (st.macroState env).plan blank env.mapper
    (plan.matched = true ↔ st.WordIsMacro env) ∧
      (plan.matched → plan.bsCount = (lastWord st.screen).length ∧ plan.isPartOfMacro = false) := by
  intro plan
  set inp := (st.macroState env).planInputs blank
  have hsearch : inp.search = inp.findBuffer := h.search
  have hfound : inp.findBuffer.isSome ↔ st.WordIsMacro env := by
    rw [Macro.PlanInputs.findBuffer_isSome, WordIsMacro, ← h.buffer]
    exact or_iff_right_of_imp (lowerCopy_mem hkeys)
  have hmatched : plan.matched = inp.search.isSome := Macro.Plan_matched
  rw [hmatched, hsearch]
  refine ⟨hfound, fun hsome => ?_⟩
  obtain ⟨found, hfind⟩ := Option.isSome_iff_exists.1 hsome
  have hplan : plan.bsCount = inp.bsCount found.matchedViaComposition ∧
      plan.isPartOfMacro = found.isPartOfMacro := by
    show (Macro.Plan inp env.mapper).bsCount = _ ∧ (Macro.Plan inp env.mapper).isPartOfMacro = _
    unfold Macro.Plan
    rw [hsearch, hfind]
    exact ⟨rfl, rfl⟩
  have hprintable : inp.printableTrigger = false := rfl
  rw [hplan.1, hplan.2, findBuffer_isPartOfMacro hfind, Macro.PlanInputs.findBuffer_via hfind,
    ← h.buffer]
  refine ⟨?_, hprintable⟩
  have hcross : inp.macroCrossCommit = false := h.sameCommit
  have hprevious : inp.previousComposition = [] := h.composition
  simp only [Macro.PlanInputs.bsCount, Macro.PlanInputs.bufferWidth, hcross, hprevious, hprintable,
    Bool.false_eq_true, if_false, ne_eq, not_true_eq_false, false_and]
  rfl

omit [WideCtype] [WideLocale] in
/-- A Space does not join the buffer. -/
lemma trackTrigger_space (shift : Bool) : st.trackTrigger (EnglishKey.space shift).press = st :=
  if_neg (show ¬blank < blank by decide)

omit [WideLocale] in
/-- Behind a word a Space looks for a macro. -/
lemma Mirrors.fired_space (h : st.Mirrors) (hspace : env.macroTriggerSpace)
    (hfull : st.rawMacroBuffer ≠ []) (shift : Bool) :
    st.fired env (EnglishKey.space shift).press =
      if ((st.macroState env).plan blank env.mapper).matched then
        some ((st.macroState env).plan blank env.mapper)
      else none := by
  have hreached : ¬(isLetterVk VK_SPACE ∨
      env.skipsMacro (EnglishKey.space shift).press ∧ st.rawMacroBuffer = [] ∨
      ¬(IsCommitTrigger VK_SPACE ∧ ¬st.tempMacroOff)) := by
    rw [h.macroOn]
    rintro (hletter | hskip | hcommit)
    · revert hletter
      decide
    · exact hfull hskip.2
    · exact hcommit ⟨by decide, Bool.false_ne_true⟩
  have htrigger : env.IsMacroTrigger VK_SPACE = true := hspace
  unfold fired
  rw [trackTrigger_space]
  exact (if_neg hreached).trans (if_pos ⟨hfull, htrigger⟩)

omit [WideLocale] in
/-- A Space that finds a word in step fires right. -/
lemma Mirrors.firesRight (h : st.Mirrors) (hspace : env.macroTriggerSpace)
    (hkeys : ∀ key ∈ env.macroTable.map Prod.fst, LowerCaseKey key) (shift : Bool) :
    st.FiresRight env shift := by
  obtain ⟨hmatched, herased⟩ := h.plan hkeys
  unfold FiresRight
  by_cases hnil : st.rawMacroBuffer = []
  · -- there is no word
    have hfired : st.fired env (EnglishKey.space shift).press = none := by
      unfold fired
      rw [trackTrigger_space]
      split
      · rfl
      · exact if_neg fun hcalled => hcalled.1 hnil
    rw [hfired]
    intro hresult
    exact WordIsMacro.ne_nil hresult hkeys (h.buffer.symm.trans hnil)
  · rw [h.fired_space hspace hnil]
    split
    · next plan hsome =>
      split at hsome
      · next hmatch =>
        cases hsome
        exact ⟨hmatched.1 hmatch, (herased hmatch).1⟩
      · cases hsome
    · next hnone =>
      split at hnone
      · cases hnone
      · next hmatch => exact fun hresult => hmatch (hmatched.2 hresult)

/-- A letter joins the buffer and the word. -/
lemma Mirrors.letter (h : st.Mirrors) {vkCode : Nat} (isLetter : isLetterVk vkCode)
    (shift capsLock : Bool) : (st.step env (.letter vkCode isLetter shift capsLock)).Mirrors := by
  have hresult : st.HandleMacro env (EnglishKey.letter vkCode isLetter shift capsLock).press =
      ({ st with rawMacroBuffer := st.rawMacroBuffer ++ wide [originalCh vkCode shift capsLock] },
        .pass) := if_pos isLetter
  have hword := lastWord_letter (originalCh_ne_blank isLetter shift capsLock) st.screen
  unfold EnglishTyping.step
  rw [hresult]
  exact ⟨(congrArg (· ++ wide [originalCh vkCode shift capsLock]) h.buffer).trans hword.symm,
    h.macroOn, h.composition, h.sameCommit⟩

omit [WideCtype] [WideLocale] in
/-- The SkipMacro hotkey is another key. -/
lemma not_skips {k : EnglishPress} (hskip : env.skipsMacro k = false) :
    ¬(env.skipsMacro k = true ∧ st.rawMacroBuffer = []) := by
  rw [hskip]
  exact fun hskips => Bool.false_ne_true hskips.1

/-- A Backspace takes back what the last letter added, or empties the buffer between two words. -/
lemma Mirrors.back (h : st.Mirrors) {shift : Bool} (hkey : st.InStep env (.back shift)) :
    (st.step env (.back shift)).Mirrors := by
  have hletter : ¬isLetterVk VK_BACK = true := by decide
  have hcommit : ¬(IsCommitTrigger VK_BACK = true ∧ ¬st.tempMacroOff = true) := by
    rintro ⟨hback, -⟩
    revert hback
    decide
  unfold EnglishTyping.step
  by_cases hnil : lastWord st.screen = []
  · rcases hkey with hword | ⟨hbefore, hskip⟩
    · exact absurd hnil hword
    · have hresult : st.HandleMacro env (EnglishKey.back shift).press =
          ({ st with rawMacroBuffer := [], tempMacroOff := false }, .pass) := by
        have hbuffer : ¬(VK_BACK = VK_BACK ∧ st.rawMacroBuffer ≠ []) := fun hfull =>
          hfull.2 (h.buffer.trans hnil)
        exact (if_neg hletter).trans <| (if_neg (not_skips hskip)).trans <| (if_neg hcommit).trans <|
          (if_neg hbuffer).trans <| if_pos (show ¬IsCommitTrigger VK_BACK = true by decide)
      rw [hresult]
      exact ⟨hbefore.symm, rfl, h.composition, h.sameCommit⟩
  · have hresult : st.HandleMacro env (EnglishKey.back shift).press =
        ({ st with rawMacroBuffer := st.rawMacroBuffer.dropLast }, .pass) := by
      have hfull : st.rawMacroBuffer ≠ [] := fun hbuffer => hnil (h.buffer.symm.trans hbuffer)
      exact (if_neg hletter).trans <| (if_neg fun hskip => hfull hskip.2).trans <|
        (if_neg hcommit).trans <| if_pos ⟨rfl, hfull⟩
    rw [hresult]
    exact ⟨(congrArg List.dropLast h.buffer).trans (lastWord_dropLast hnil).symm, h.macroOn,
      h.composition, h.sameCommit⟩

/-- A Space expands the word, or comes where there is none. -/
lemma Mirrors.space (h : st.Mirrors) (hspace : env.macroTriggerSpace)
    (hkeys : ∀ key ∈ env.macroTable.map Prod.fst, LowerCaseKey key) {shift : Bool}
    (hkey : st.InStep env (.space shift)) : (st.step env (.space shift)).Mirrors := by
  unfold EnglishTyping.step
  rcases hkey with hword | ⟨hnil, hskip⟩
  · have hfull : st.rawMacroBuffer ≠ [] := by
      rw [h.buffer]
      exact WordIsMacro.ne_nil hword hkeys
    obtain ⟨hmatched, herased⟩ := h.plan hkeys
    have hplan := hmatched.2 hword
    have hresult := HandleMacro_of_fired ((h.fired_space hspace hfull shift).trans (if_pos hplan))
    rw [trackTrigger_space, (herased hplan).2] at hresult
    rw [hresult]
    -- the expansion empties the buffer, and the Space ends the word
    exact ⟨(lastWord_blank _).symm, rfl, rfl, rfl⟩
  · have hempty : st.rawMacroBuffer = [] := h.buffer.trans hnil
    have hexpansion : st.expansion env (EnglishKey.space shift).press = none :=
      if_neg fun hcalled => hcalled.1 hempty
    have hresult : st.HandleMacro env (EnglishKey.space shift).press = (st, .pass) := by
      have hletter : ¬isLetterVk VK_SPACE = true := by decide
      have htrigger : env.IsMacroTrigger VK_SPACE = true := hspace
      have hcommit : IsCommitTrigger VK_SPACE = true ∧ ¬st.tempMacroOff = true := by
        rw [h.macroOn]
        exact ⟨by decide, Bool.false_ne_true⟩
      refine (if_neg hletter).trans <| (if_neg (not_skips hskip)).trans <| (if_pos hcommit).trans ?_
      simp only [trackTrigger_space, hexpansion]
      exact if_neg fun hdisabled => hdisabled htrigger
    rw [hresult]
    exact ⟨hempty.trans (lastWord_blank _).symm, h.macroOn, h.composition, h.sameCommit⟩

/-- A key that is allowed keeps the buffer and the word in step. -/
lemma Mirrors.step {key : EnglishKey} (h : st.Mirrors) (hspace : env.macroTriggerSpace)
    (hkeys : ∀ key ∈ env.macroTable.map Prod.fst, LowerCaseKey key) (hkey : st.InStep env key) :
    (st.step env key).Mirrors := by
  cases key with
  | letter vkCode isLetter shift capsLock => exact h.letter isLetter shift capsLock
  | ctrlLetter vkCode isLetter shift capsLock => exact hkey.elim
  | back shift => exact h.back hkey
  | space shift => exact h.space hspace hkeys hkey

end EnglishTyping

/-- In English mode, a Space expands the word before it exactly when it is a macro, and erases that
word, in every state that a run reaches whose keys all keep the buffer in step. -/
theorem firesRight_run [WideCtype] [WideLocale] {env : EnglishConfig} {text : WString}
    {keys : List EnglishKey} (hspace : env.macroTriggerSpace)
    (hkeys : ∀ key ∈ env.macroTable.map Prod.fst, LowerCaseKey key) (htext : lastWord text = [])
    (hrun : Machine.Guarded (EnglishTyping.step env) (EnglishTyping.InStep env) { screen := text } keys)
    (shift : Bool) :
    (Machine.run (EnglishTyping.step env) { screen := text } keys).FiresRight env shift := by
  have hstart : ({ screen := text } : EnglishTyping).Mirrors := ⟨htext.symm, rfl, rfl, rfl⟩
  have hmirrors := hrun.invariant hstart fun {s i} h hkey => h.step hspace hkeys hkey
  exact hmirrors.firesRight hspace hkeys shift

section Ascii

attribute [local instance] WideLocale.ascii WideCtype.ascii

/-- One macro, the letter `b`. -/
def macroB : EnglishConfig where
  macroTable := [(wide ['b'], wide ['m'])]
  mapper := .ascii

/-- A letter without Shift. -/
def plainLetter (vkCode : Nat) (isLetter : isLetterVk vkCode) : EnglishKey :=
  .letter vkCode isLetter false false

/-- The keys of the example are in lower case. -/
lemma macroB_lowerCase : ∀ key ∈ macroB.macroTable.map Prod.fst, LowerCaseKey key := by
  intro key hkey
  obtain rfl := List.mem_singleton.1 hkey
  refine ⟨by decide, fun c hc => ?_⟩
  obtain rfl := List.mem_singleton.1 hc
  decide

/-- One letter. -/
theorem firesRight_run_b :
    (Machine.run (EnglishTyping.step macroB) { screen := [] } [plainLetter 0x42 rfl]).FiresRight
      macroB false :=
  @firesRight_run _ _ macroB [] [plainLetter 0x42 rfl] rfl macroB_lowerCase rfl (by decide +kernel)
    false

/-- Behind `a` and a Space, `b` is not expanded: the buffer holds both letters. -/
theorem not_firesRight_ab :
    ¬∀ (env : EnglishConfig) (text : WString) (keys : List EnglishKey) (shift : Bool),
      env.macroTriggerSpace → (∀ key ∈ env.macroTable.map Prod.fst, LowerCaseKey key) →
      lastWord text = [] →
      (Machine.run (EnglishTyping.step env) { screen := text } keys).FiresRight env shift := by
  intro h
  have hright := h macroB [] [plainLetter 0x41 rfl, .space false, plainLetter 0x42 rfl] false rfl
    macroB_lowerCase rfl
  have hfired : ((Machine.run (EnglishTyping.step macroB) { screen := [] }
      [plainLetter 0x41 rfl, .space false, plainLetter 0x42 rfl]).fired macroB
        (EnglishKey.space false).press).isNone := by decide +kernel
  have hword : (Machine.run (EnglishTyping.step macroB) { screen := [] }
      [plainLetter 0x41 rfl, .space false, plainLetter 0x42 rfl]).WordIsMacro macroB := by
    decide +kernel
  unfold EnglishTyping.FiresRight at hright
  rw [Option.isNone_iff_eq_none.1 hfired] at hright
  exact hright hword

end Ascii

end NextKey
