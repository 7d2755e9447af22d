import NextKey.Macro.Erasure

/-!
# Macros and the keys of tones and modifiers

In VNI and the combined method the digits carry the tones and modifiers of a word, in Telex the
brackets do. `DispatchKeyAction` gives them to the engine before it looks for commit triggers, but
`HandleMacro` comes first, and to `IsMacroTrigger` every digit and bracket is a trigger. So a macro
that the word before the key spells out is expanded, and the engine does not see the key.
-/

namespace NextKey

namespace HookTyping

section Locale

variable [WideCtype] [WideLocale] (env : HookConfig) (st : HookTyping) (k : HookKeyDown)

/-- A digit without Shift in VNI or the combined method, or a bracket without Shift in Telex, that types
    a character. -/
def IsMarkKey (method : InputMethod) (k : HookKeyDown) : Prop :=
  k.shift = false ∧ blank < k.key.macroChar ∧
    ((method = .vni ∨ method = .combined) ∧ isDigitVk k.key.vkCode ∨
      method = .telex ∧ (k.key.vkCode = VK_OEM_4 ∨ k.key.vkCode = VK_OEM_6))

/-- The character that the engine takes from the key. -/
def markChar : Option Char :=
  match k.key with
  | .trigger vkCode macroChar _ _ => st.engineChar env k vkCode macroChar
  | .letter _ _ | .back => none

/-- The engine would consume the key as a tone or modifier of the word: it does not just put the
    character behind it. -/
def ConsumesMark : Prop :=
  IsMarkKey env.config.inputMethod k ∧ 0 < st.engine.count ∧ (st.handling env k).isTaken ∧
    ∃ ch ∈ st.markChar env k, (st.engine.pushChar env.config ch).peek ≠ st.engine.peek ++ [ch]

/-- No expansion fires, and the key reaches the engine. -/
def ReachesEngine : Prop :=
  st.found env k = none ∧
    ∃ ch ∈ st.markChar env k, (st.ProcessKeyDown env k).engine = st.engine.pushChar env.config ch

/-- The macro table has the buffer with the key, or the buffer without it, as typed or in lower case, or
    the lower-case composition with the key or without it. -/
def EndsMacro (key : UInt16) : Prop :=
  ∃ name ∈ env.macroTable.map Prod.fst,
    name = st.rawMacroBuffer ++ [key] ∨
    name = Macro.PlanInputs.LowerCopy (st.rawMacroBuffer ++ [key]) ∨
    (st.rawMacroBuffer ≠ [] ∧ WideCtype.towlower key = key ∧
      (name = st.rawMacroBuffer ∨ name = Macro.PlanInputs.LowerCopy st.rawMacroBuffer)) ∨
    (st.previousComposition ≠ [] ∧
      (name = Macro.PlanInputs.LowerCopy (wide st.previousComposition) ++ [key] ∨
        name = Macro.PlanInputs.LowerCopy (wide st.previousComposition)))

/-- The next macro is skipped, or the key ends none. -/
def SparesKey : Prop := st.tempMacroOff = true ∨ ¬st.EndsMacro env k.key.macroChar

variable {env st k}

omit [WideLocale] in
/-- Which names of the table a search looks for, behind a printable trigger. -/
lemma ends_iff {inp : Macro.PlanInputs} {buffer : WString}
    (hbuffer : inp.rawMacroBuffer = buffer ++ [inp.triggerChar])
    (hprintable : blank < inp.triggerChar) :
    inp.search.isSome ↔ ∃ name ∈ inp.macroTable.map Prod.fst,
      name = buffer ++ [inp.triggerChar] ∨
      name = Macro.PlanInputs.LowerCopy (buffer ++ [inp.triggerChar]) ∨
      (buffer ≠ [] ∧ WideCtype.towlower inp.triggerChar = inp.triggerChar ∧
        (name = buffer ∨ name = Macro.PlanInputs.LowerCopy buffer)) ∨
      (inp.previousComposition ≠ [] ∧
        (name = Macro.PlanInputs.LowerCopy inp.previousComposition ++ [inp.triggerChar] ∨
          name = Macro.PlanInputs.LowerCopy inp.previousComposition)) := by
  have hsome : inp.printableTrigger = true := decide_eq_true hprintable
  have hlower : Macro.PlanInputs.LowerCopy (buffer ++ [inp.triggerChar]) =
      Macro.PlanInputs.LowerCopy buffer ++ [WideCtype.towlower inp.triggerChar] := by
    simp [Macro.PlanInputs.LowerCopy]
  rw [Macro.PlanInputs.search_isSome, Macro.PlanInputs.findBuffer_isSome,
    Macro.PlanInputs.findWithoutTrigger_isSome, Macro.PlanInputs.findComposition_isSome, hbuffer,
    hlower, List.dropLast_concat, List.dropLast_concat, List.getLast?_concat, hsome]
  have hlength :
      1 < (Macro.PlanInputs.LowerCopy buffer ++ [WideCtype.towlower inp.triggerChar]).length ↔
        buffer ≠ [] := by
    rw [List.length_append, List.length_singleton, Macro.PlanInputs.LowerCopy, List.length_map,
      ← List.length_pos_iff]
    omega
  rw [hlength]
  simp only [true_and, Option.some.injEq]
  constructor
  · rintro ((h | h) | ⟨⟨hne, hkey⟩, h | h⟩ | ⟨hne, h | h⟩)
    · exact ⟨_, h, .inl rfl⟩
    · exact ⟨_, h, .inr (.inl rfl)⟩
    · exact ⟨_, h, .inr (.inr (.inl ⟨hne, hkey, .inl rfl⟩))⟩
    · exact ⟨_, h, .inr (.inr (.inl ⟨hne, hkey, .inr rfl⟩))⟩
    · exact ⟨_, h, .inr (.inr (.inr ⟨hne, .inl rfl⟩))⟩
    · exact ⟨_, h, .inr (.inr (.inr ⟨hne, .inr rfl⟩))⟩
  · rintro ⟨name, h, rfl | rfl | ⟨hne, hkey, rfl | rfl⟩ | ⟨hne, rfl | rfl⟩⟩
    · exact .inl (.inl h)
    · exact .inl (.inr h)
    · exact .inr (.inl ⟨⟨hne, hkey⟩, .inl h⟩)
    · exact .inr (.inl ⟨⟨hne, hkey⟩, .inr h⟩)
    · exact .inr (.inr ⟨hne, .inl h⟩)
    · exact .inr (.inr ⟨hne, .inr h⟩)

omit [WideCtype] [WideLocale] in
/-- A mark key is a commit trigger, and not the Space. -/
lemma IsMarkKey.trigger {method : InputMethod} (h : IsMarkKey method k) :
    ∃ vkCode macroChar typed printable,
      k.key = .trigger vkCode macroChar typed printable ∧ vkCode ≠ VK_SPACE := by
  obtain ⟨-, -, hvk⟩ := h
  have hcode : 0x30 ≤ k.key.vkCode ∧ k.key.vkCode ≤ 0x39 ∨
      k.key.vkCode = 0xDB ∨ k.key.vkCode = 0xDD := by
    obtain ⟨-, hdigit⟩ | ⟨-, hoem⟩ := hvk
    · exact .inl (of_decide_eq_true hdigit)
    · exact .inr hoem
  cases hkey : k.key with
  | letter vkCode isLetter =>
    have hletter : 0x41 ≤ vkCode ∧ vkCode ≤ 0x5A := of_decide_eq_true isLetter
    rw [hkey] at hcode
    simp only [HookKey.vkCode] at hcode
    omega
  | back =>
    rw [hkey] at hcode
    simp only [HookKey.vkCode, VK_BACK] at hcode
    omega
  | trigger vkCode macroChar typed printable =>
    refine ⟨_, _, _, _, rfl, ?_⟩
    rw [hkey] at hcode
    simp only [HookKey.vkCode] at hcode
    rw [VK_SPACE]
    omega

omit [WideCtype] in
/-- Behind a word, the undo of a commit leaves a trigger alone. -/
lemma undo_fallthrough {vkCode macroChar typed printable} (hcount : 0 < st.engine.count)
    (hkey : k.key = .trigger vkCode macroChar typed printable) :
    (st.HandleCommitUndoFsm env k).2 = .fallthrough := by
  rcases @HandleCommitUndoFsm_cases _ env st k with ⟨hfall, -⟩ | ⟨-, hback, -⟩ | ⟨-, ⟨-, hzero⟩, -⟩
  · exact hfall
  · rw [hkey] at hback
    cases hback
  · omega

/-- A mark key finds a macro just when it ends one that is not skipped. -/
lemma found_isSome_iff (hmark : IsMarkKey env.config.inputMethod k) (hcount : 0 < st.engine.count) :
    (st.found env k).isSome ↔ ¬st.SparesKey env k := by
  obtain ⟨vkCode, macroChar, typed, printable, hkey, hspace⟩ := hmark.trigger
  have hfall := @undo_fallthrough _ env st k _ _ _ _ hcount hkey
  obtain ⟨commitState, hsame⟩ := HandleCommitUndoFsm_fallthrough hfall
  have hchar : k.key.macroChar = macroChar := by
    rw [hkey]
    rfl
  have hprintable : blank < macroChar := hchar ▸ hmark.2.1
  have htracked : trackedChar k = [macroChar] := by
    rw [trackedChar, hkey]
    exact if_pos hprintable
  have htrigger : env.IsMacroTrigger vkCode = true := if_neg hspace
  unfold found SparesKey EndsMacro
  rw [if_pos hfall, hsame, hchar, not_or, not_not]
  by_cases htable : env.macroTable = []
  · -- no macros
    have hnone : (({ st with commitState } : HookTyping).track env k).expansion env k = none := by
      rw [expansion, hkey]
      exact if_neg fun h => h.1 htable
    rw [hnone, htable]
    simp
  · -- the key joins the buffer before the search
    have htrack : ({ st with commitState } : HookTyping).track env k =
        { st with commitState, rawMacroBuffer := st.rawMacroBuffer ++ [macroChar] } := by
      rw [track, if_pos htable, htracked]
    rw [htrack, expansion, hkey]
    dsimp only
    by_cases hoff : st.tempMacroOff = true
    · rw [if_neg fun h => h.2.1 hoff]
      exact iff_of_false Bool.false_ne_true fun h => h.1 hoff
    · rw [if_pos ⟨htable, hoff, htrigger, List.append_ne_nil_of_right_ne_nil _ (List.cons_ne_nil _ _)⟩]
      have hsearch := @ends_iff _ (({ st with
        commitState, rawMacroBuffer := st.rawMacroBuffer ++ [macroChar] } : HookTyping).macroState
          env |>.planInputs macroChar) st.rawMacroBuffer rfl hprintable
      have hmatched : (({ st with
          commitState, rawMacroBuffer := st.rawMacroBuffer ++ [macroChar] } : HookTyping).macroState
            env |>.plan macroChar env.mapper).matched = _ := Macro.Plan_matched
      rw [← hmatched] at hsearch
      have hwide : wide st.previousComposition ≠ [] ↔ st.previousComposition ≠ [] := by
        simp [wide]
      rw [← hwide]
      split
      · next hplan => exact iff_of_true rfl ⟨hoff, hsearch.1 hplan⟩
      · next hplan => exact iff_of_false Bool.false_ne_true fun h => hplan (hsearch.2 h.2)

omit [WideCtype] [WideLocale] in
/-- What falls through goes on. -/
lemma andThen_fallthrough (next : HookTyping → HookTyping × KeyOutcome) :
    andThen (st, .fallthrough) next = next st := if_pos rfl

/-- A trigger behind a word that finds no macro comes to the dispatch of its action. -/
lemma ProcessKeyDown_of_trigger {vkCode macroChar typed printable} (hcount : 0 < st.engine.count)
    (hkey : k.key = .trigger vkCode macroChar typed printable) (hnone : st.found env k = none) :
    ∃ st' : HookTyping, st'.engine = st.engine ∧ st'.handling env k = st.handling env k ∧
      st'.engineChar env k vkCode macroChar = st.engineChar env k vkCode macroChar ∧
      st.ProcessKeyDown env k = settle k (st'.DispatchKeyAction env k) := by
  have hfall := @undo_fallthrough _ env st k _ _ _ _ hcount hkey
  -- the stages before the dispatch change the undo state, the buffer and the auto-capitalization
  obtain ⟨commitState, hsame⟩ := HandleCommitUndoFsm_fallthrough hfall
  have hplan : (({ st with commitState } : HookTyping).track env k).expansion env k = none := by
    unfold found at hnone
    rwa [if_pos hfall, hsame] at hnone
  obtain ⟨buffer, htrack⟩ : ∃ buffer, ({ st with commitState } : HookTyping).track env k =
      { st with commitState, rawMacroBuffer := buffer } := by
    unfold track
    split
    · exact ⟨_, rfl⟩
    · exact ⟨_, rfl⟩
  obtain ⟨autoCapState, hcap⟩ : ∃ autoCapState,
      ({ st with commitState, rawMacroBuffer := buffer } : HookTyping).HandlePreDispatch env k =
        { st with commitState, rawMacroBuffer := buffer, autoCapState } := by
    unfold HandlePreDispatch
    split
    · exact ⟨_, rfl⟩
    · exact ⟨_, rfl⟩
  refine ⟨{ st with commitState, rawMacroBuffer := buffer, autoCapState }, rfl, ?_, rfl, ?_⟩
  · -- only a letter asks for the auto-capitalization
    simp only [handling, digitLed, hkey, engineChar]
  · have hresult : ({ st with commitState } : HookTyping).HandleMacro env k =
        ({ st with commitState, rawMacroBuffer := buffer }, .fallthrough) := by
      rw [htrack] at hplan
      simp only [HandleMacro, htrack, hplan]
    have hundo : st.HandleCommitUndoFsm env k = ({ st with commitState }, .fallthrough) :=
      Prod.ext hsame hfall
    rw [ProcessKeyDown, stages, hundo, andThen_fallthrough, hresult, andThen_fallthrough, hcap]

/-- A key that the engine would consume and that finds no macro reaches the engine. -/
lemma reaches_of_not_found (hconsumes : st.ConsumesMark env k) (hnone : st.found env k = none) :
    st.ReachesEngine env k := by
  obtain ⟨hmark, hcount, htaken, ch, hch, -⟩ := hconsumes
  obtain ⟨vkCode, macroChar, typed, printable, hkey, -⟩ := hmark.trigger
  refine ⟨hnone, ch, hch, ?_⟩
  obtain ⟨st', hengine, hhandling, hchar, hprocess⟩ := ProcessKeyDown_of_trigger hcount hkey hnone
  have hproceed : ¬(st'.tempEngineOff ∨ st'.digitLed env k ≠ .proceed) := by
    intro hbypass
    rw [← hhandling, handling, if_pos hbypass] at htaken
    cases htaken
  have hcompose : st'.composeKey env k = (st'.pushKey env ch, .eat) := by
    have htyped : st.engineChar env k vkCode macroChar = some ch := by
      rw [markChar, hkey] at hch
      exact hch
    rw [composeKey, hkey]
    dsimp only
    rw [hchar, htyped]
  rw [hprocess, DispatchKeyAction_of_proceed hproceed, hcompose, settle, if_pos rfl, ← hengine]
  rfl

/-- A mark key that the engine would consume reaches it just when it is spared. -/
lemma reaches_iff (hconsumes : st.ConsumesMark env k) :
    st.ReachesEngine env k ↔ st.SparesKey env k := by
  have hfound := found_isSome_iff hconsumes.1 hconsumes.2.1
  constructor
  · intro hreaches
    by_contra hspared
    have hsome := hfound.2 hspared
    rw [hreaches.1] at hsome
    cases hsome
  · intro hspared
    refine reaches_of_not_found hconsumes ?_
    by_contra hne
    exact hfound.1 (Option.isSome_iff_ne_none.2 hne) hspared

/-- All along a run, every key that the engine would consume as a tone or modifier reaches it, and no
    expansion fires, just when every such key is spared. -/
theorem marksReach_iff (env : HookConfig) (start : HookTyping) (keys : List HookKeyDown) :
    All env (fun st k => st.ConsumesMark env k → st.ReachesEngine env k) start keys ↔
      All env (fun st k => st.ConsumesMark env k → st.SparesKey env k) start keys := by
  constructor
  · intro h
    exact @Machine.Guarded.imp _ _ _ _ _ (fun _ => True) _ _ h trivial (fun _ _ => trivial)
      fun _ hkey hconsumes => (reaches_iff hconsumes).1 (hkey hconsumes)
  · intro h
    exact @Machine.Guarded.imp _ _ _ _ _ (fun _ => True) _ _ h trivial (fun _ _ => trivial)
      fun _ hkey hconsumes => (reaches_iff hconsumes).2 (hkey hconsumes)

end Locale

section Ascii

attribute [local instance] WideLocale.ascii WideCtype.ascii

/-- VNI with one macro, the letter `a`. -/
def vniMacroA : HookConfig where
  config := { inputMethod := .vni }
  macroTable := [(wide ['a'], wide ['m'])]
  mapper := .ascii

/-- The key A is a letter. -/
lemma isLetterVk_a : isLetterVk 0x41 := rfl

/-- The keys of `á`. -/
def aAcute : List HookKeyDown :=
  [{ key := .letter 0x41 isLetterVk_a }, { key := .trigger 0x31 0x31 '1' (by decide) }]

/-- Nothing typed. -/
def nothingTyped : HookTyping where
  engine := {}
  previousComposition := []
  autoCapState := .idle
  screen := []

/-- Typing `a` and 1 expands the macro, and the engine does not see the tone. -/
theorem not_marksReach_aAcute :
    ¬∀ (env : HookConfig) (start : HookTyping) (keys : List HookKeyDown),
      All env (fun st k => st.ConsumesMark env k → st.ReachesEngine env k) start keys := by
  intro h
  obtain ⟨-, htone, -⟩ := h vniMacroA nothingTyped aAcute
  have hconsumes : (nothingTyped.run vniMacroA [{ key := .letter 0x41 rfl }]).ConsumesMark vniMacroA
      { key := .trigger 0x31 0x31 '1' (by decide) } := by
    have hmark : IsMarkKey .vni { key := .trigger 0x31 0x31 '1' (by decide) } :=
      ⟨rfl, by decide, .inl ⟨.inl rfl, by decide⟩⟩
    refine ⟨hmark, by decide +kernel, by decide +kernel, '1', ?_, ?_⟩
    · decide +kernel
    · decide +kernel
  have hfound : ((nothingTyped.run vniMacroA [{ key := .letter 0x41 rfl }]).found vniMacroA
      { key := .trigger 0x31 0x31 '1' (by decide) }).isSome := by decide +kernel
  have hreaches := htone hconsumes
  rw [Option.isSome_iff_ne_none] at hfound
  exact hfound hreaches.1

end Ascii

end HookTyping

end NextKey
