import NextKey.Hook.TableKey

/-!
# Macros of several words

A macro key with blanks is typed across commits. At each inner Space the buffer is looked up, the
commit of the word empties it, and it is put back with a blank when a key of the table begins so. From a
clean state the keys of such a macro lead to its expansion, unless a macro is met on the way: a beginning
of the key, or the composition of one of its words, which is compared in lower case.
-/

namespace NextKey

/-- Words joined by single blanks. -/
def phrase (words : List WString) : WString := [blank].intercalate words

/-- A word of small letters. -/
def SmallWord (word : WString) : Prop := word ≠ [] ∧ word.all isAsciiLower

instance (word : WString) : Decidable (SmallWord word) := inferInstanceAs (Decidable (_ ∧ _))

/-- The unit that a key adds to a phrase: a letter that is typed small, or the Space. -/
def phraseUnit (k : HookKeyDown) : Option UInt16 :=
  match k.key with
  | .letter vkCode _ => if k.shift = k.capsLock then some (UInt16.ofNat (vkCode + 0x20)) else none
  | .trigger vkCode macroChar _ _ =>
    if vkCode = VK_SPACE ∧ macroChar = blank then some blank else none
  | .back => none

/-- A phrase of one word. -/
lemma phrase_singleton (word : WString) : phrase [word] = word := List.intercalate_singleton

/-- A blank stands between two words. -/
lemma phrase_cons_cons (word next : WString) (rest : List WString) :
    phrase (word :: next :: rest) = word ++ blank :: phrase (next :: rest) := by
  rw [phrase, List.intercalate_cons_cons, List.append_assoc]
  rfl

/-- A phrase has the letters of its words and blanks. -/
lemma mem_phrase {words : List WString} {c : UInt16} (h : c ∈ phrase words) :
    (∃ word ∈ words, c ∈ word) ∨ c = blank := by
  induction words with
  | nil => cases h
  | cons word rest ih =>
    cases rest with
    | nil =>
      rw [phrase_singleton] at h
      exact .inl ⟨word, List.mem_singleton_self word, h⟩
    | cons next rest =>
      rw [phrase_cons_cons, List.mem_append, List.mem_cons] at h
      rcases h with hword | hblank | hrest
      · exact .inl ⟨word, List.mem_cons_self, hword⟩
      · exact .inr hblank
      · refine (ih hrest).imp_left ?_
        rintro ⟨other, hother, hmem⟩
        exact ⟨other, List.mem_cons_of_mem _ hother, hmem⟩

/-- A phrase of words is not empty. -/
lemma phrase_ne_nil {words : List WString} (hwords : words ≠ [])
    (hsmall : ∀ word ∈ words, SmallWord word) : phrase words ≠ [] := by
  cases words with
  | nil => exact absurd rfl hwords
  | cons word rest =>
    cases rest with
    | nil =>
      rw [phrase_singleton]
      exact (hsmall word List.mem_cons_self).1
    | cons next rest =>
      rw [phrase_cons_cons]
      simp

/-- The keys type the text. -/
def Types (keys : List TableKey) (text : WString) : Prop :=
  keys.map (fun k => phraseUnit k.toHookKeyDown) = text.map some

instance (keys : List TableKey) (text : WString) : Decidable (Types keys text) :=
  inferInstanceAs (Decidable (_ = _))

section Ctype

variable [WideCtype] [WideLocale]

namespace TableConfig

variable (env : TableConfig) (st : HookTyping) (k : TableKey)

/-- No composition that a Space of a phrase finds is a macro in lower case. -/
def NoShownMacro : Prop :=
  phraseUnit k.toHookKeyDown = some blank →
    Macro.PlanInputs.LowerCopy (wide st.previousComposition) ∉ env.macroKeys

instance : Decidable (env.NoShownMacro st k) := inferInstanceAs (Decidable (_ → _))

/-- A Space behind the phrase makes `TryExpandMacro` match it. -/
def Matches (key : WString) : Prop :=
  ∃ macroState value, env.lookup st k = some macroState ∧ macroState.rawMacroBuffer = key ∧
    env.macroTable.lookup key = some value ∧
    (macroState.planInputs k.key.macroChar).search = some { expansion := value, matchedExact := true } ∧
    (TryExpandMacro macroState k.key.macroChar env.mapper).1 = .ExpandedPassTrigger

end TableConfig

namespace HookTyping

/-- The buffer holds what has been typed, and nothing keeps the hook from the next key. -/
structure Typed (st : HookTyping) (typed : WString) : Prop where
  buffer : st.rawMacroBuffer = typed
  macroOn : st.tempMacroOff = false
  engineOn : st.tempEngineOff = false
  notDigitLed : st.digitLedWord = false
  notPrimed : st.commitState.phase ≠ .primed

end HookTyping

variable {env : TableConfig} {st : HookTyping} {k : TableKey} {typed : WString}

omit [WideCtype] in
/-- Shift and Caps Lock together type the small letter. -/
lemma wide_originalCh {vkCode : Nat} (hvk : isLetterVk vkCode) (shift : Bool) :
    wide [originalCh vkCode shift shift] = [UInt16.ofNat (vkCode + 0x20)] := by
  have hrange : 0x41 ≤ vkCode ∧ vkCode ≤ 0x5A := of_decide_eq_true hvk
  have hletters : ∀ n : Fin 0x5B, 0x41 ≤ n.val →
      (Char.ofNat n.val).toNat < 128 ∧ (Char.ofNat n.val).toLower.toNat = n.val + 0x20 := by
    decide +kernel
  obtain ⟨hascii, hlower⟩ := hletters ⟨vkCode, by omega⟩ hrange.1
  have hsmall : originalCh vkCode shift shift = (Char.ofNat vkCode).toLower := by
    rw [originalCh, if_neg (by simp), WideLocale.towlower_ascii _ hascii]
  rw [hsmall]
  exact congrArg (fun n => [UInt16.ofNat n]) hlower

omit [WideCtype] in
/-- A small letter comes from a letter key. -/
lemma letter_of_phraseUnit {k : HookKeyDown} {c : UInt16} (h : phraseUnit k = some c)
    (hsmall : isAsciiLower c) :
    ∃ vkCode hvk, k.key = .letter vkCode hvk ∧ HookTyping.trackedChar k = [c] := by
  unfold phraseUnit at h
  unfold HookTyping.trackedChar
  split at h
  · next vkCode hvk hkey =>
    split at h
    · next hshift =>
      rw [hkey]
      dsimp only
      rw [hshift, wide_originalCh hvk, Option.some_inj.1 h]
      exact ⟨vkCode, hvk, rfl, rfl⟩
    · cases h
  · split at h
    · cases h
      cases hsmall
    · cases h
  · cases h

omit [WideCtype] [WideLocale] in
/-- A blank comes from the Space. -/
lemma space_of_phraseUnit {k : HookKeyDown} (h : phraseUnit k = some blank) :
    ∃ typed printable, k.key = .trigger VK_SPACE blank typed printable := by
  unfold phraseUnit at h
  split at h
  · next vkCode hvk hkey =>
    split at h
    · have hrange : 0x41 ≤ vkCode ∧ vkCode ≤ 0x5A := of_decide_eq_true hvk
      have hcode : UInt16.ofNat (vkCode + 0x20) = blank := Option.some_inj.1 h
      have hnat := congrArg UInt16.toNat hcode
      rw [UInt16.toNat_ofNat'] at hnat
      have hblank : blank.toNat = 0x20 := rfl
      omega
    · cases h
  · next hkey =>
    split at h
    · next hspace =>
      obtain ⟨rfl, rfl⟩ := hspace
      exact ⟨_, _, hkey⟩
    · cases h
  · cases h

omit [WideCtype] in
/-- The Space leaves the buffer alone. -/
lemma trackedChar_space {k : HookKeyDown} {shown printable}
    (h : k.key = .trigger VK_SPACE blank shown printable) : HookTyping.trackedChar k = [] := by
  unfold HookTyping.trackedChar
  rw [h]
  rfl

namespace HookTyping

variable {env : HookConfig} {k : HookKeyDown}

omit [WideLocale] in
/-- A commit keeps what it saves of the buffer. -/
lemma Typed.commitKey {saved : WString} (h : st.Typed typed)
    (hsaved : st.savedMacroBuffer env blank = saved) (hsome : saved ≠ []) :
    (st.commitKey env blank).Typed saved := by
  have hphase : st.CommitComposition.commitState.phase ≠ .primed := by
    unfold CommitComposition
    dsimp only
    split
    · exact h.notPrimed
    · exact h.notPrimed
  unfold HookTyping.commitKey
  dsimp only
  rw [hsaved, if_pos hsome]
  split
  · exact ⟨rfl, rfl, h.engineOn, rfl, by simp [SetCommitUndoReady, CommitState.SetReady]⟩
  · exact ⟨rfl, rfl, h.engineOn, rfl, hphase⟩

end HookTyping

namespace TableConfig

/-- A letter or the Space reaches the engine. -/
lemma DispatchKeyAction_of_typed (h : st.Typed typed) (hdigit : isDigitVk k.key.vkCode = false) :
    env.DispatchKeyAction st k = env.composeKey st k := by
  have hled : st.digitLed env.toHookConfig k.toHookKeyDown = .proceed := by
    unfold HookTyping.digitLed DecideDigitLed
    rw [h.notDigitLed, hdigit]
    simp
  unfold DispatchKeyAction
  rw [h.engineOn, hled, if_neg Bool.false_ne_true]

/-- A key of a phrase that no macro takes reaches the engine, with the key in the buffer. -/
lemma ProcessKeyDown_of_typed (h : st.Typed typed) (htable : env.macroTable ≠ [])
    (hback : k.key ≠ .back) (hdigit : isDigitVk k.key.vkCode = false)
    (hunmatched : ∀ macroState, env.lookup st k = some macroState →
      (macroState.plan k.key.macroChar env.mapper).matched = false) :
    ∃ mid : HookTyping, mid.Typed (typed ++ HookTyping.trackedChar k.toHookKeyDown) ∧
      mid.engine = st.engine ∧
      env.ProcessKeyDown st k = { (env.composeKey mid k).1 with screen := k.shown } := by
  obtain ⟨commitState, autoCapState, hphase, hstep⟩ :=
    ProcessKeyDown_of_action htable h.notPrimed hback hunmatched
  have hmid : ({ st with
      commitState, autoCapState
      rawMacroBuffer := st.rawMacroBuffer ++ HookTyping.trackedChar k.toHookKeyDown } :
        HookTyping).Typed (typed ++ HookTyping.trackedChar k.toHookKeyDown) :=
    ⟨by rw [h.buffer], h.macroOn, h.engineOn, h.notDigitLed, hphase⟩
  refine ⟨_, hmid, rfl, ?_⟩
  rw [hstep, DispatchKeyAction_of_typed hmid hdigit]

omit [WideCtype] in
/-- No letter triggers a macro. -/
lemma lookup_letter {vkCode hvk} (hkey : k.key = .letter vkCode hvk) : env.lookup st k = none := by
  have htried (st : HookTyping) : env.tried st k = none := by
    unfold tried
    rw [hkey]
  unfold lookup
  dsimp only
  split
  · exact htried _
  · rfl

/-- A letter joins the buffer, and something is composed. -/
lemma ProcessKeyDown_letter (h : st.Typed typed) (htable : env.macroTable ≠ []) {c : UInt16}
    (hunit : phraseUnit k.toHookKeyDown = some c) (hsmall : isAsciiLower c) :
    (env.ProcessKeyDown st k).Typed (typed ++ [c]) ∧ 0 < (env.ProcessKeyDown st k).engine.count := by
  obtain ⟨vkCode, hvk, hkey, htracked⟩ := letter_of_phraseUnit hunit hsmall
  have huntried : ∀ macroState, env.lookup st k = some macroState →
      (macroState.plan k.key.macroChar env.mapper).matched = false := by
    intro macroState hlookup
    rw [lookup_letter hkey] at hlookup
    cases hlookup
  have hdigit : isDigitVk k.key.vkCode = false := by
    have hrange : 0x41 ≤ vkCode ∧ vkCode ≤ 0x5A := of_decide_eq_true hvk
    rw [hkey]
    exact decide_eq_false (show ¬(0x30 ≤ vkCode ∧ vkCode ≤ 0x39) by omega)
  obtain ⟨mid, hmid, hengine, hstep⟩ :=
    ProcessKeyDown_of_typed h htable (by rw [hkey]; simp) hdigit huntried
  have hcompose : env.composeKey mid k =
      (mid.HandleAlphaKey env.toHookConfig k.toHookKeyDown vkCode, .eat) := by
    unfold composeKey HookTyping.composeKey
    rw [hkey]
  rw [htracked] at hmid
  rw [hstep, hcompose]
  refine ⟨⟨hmid.buffer, hmid.macroOn, hmid.engineOn, hmid.notDigitLed, hmid.notPrimed⟩, ?_⟩
  exact Nat.pos_of_ne_zero WordTyping.count_pushChar_ne_zero

omit [WideCtype] in
/-- The Space is looked up as the hook stands when it comes. -/
lemma lookup_space (h : st.Typed typed) {shown printable}
    (hkey : k.key = .trigger VK_SPACE blank shown printable) : env.lookup st k = env.tried st k := by
  obtain ⟨commitState, -, hundo⟩ := @HookTyping.HandleCommitUndoFsm_unprimed _ st env.toHookConfig
    k.toHookKeyDown h.notPrimed (by rw [hkey]; simp)
  have htrack : ({ st with commitState } : HookTyping).track env.toHookConfig k.toHookKeyDown =
      { st with commitState } := by
    unfold HookTyping.track
    rw [trackedChar_space hkey, List.append_nil]
    split
    · rfl
    · rfl
  unfold lookup
  rw [hundo, if_pos rfl, htrack]
  unfold tried
  rw [hkey]
  rfl

omit [WideCtype] [WideLocale] in
/-- What is looked up. -/
lemma tried_eq (h : st.Typed typed) {macroState : MacroState}
    (htried : env.tried st k = some macroState) :
    macroState.rawMacroBuffer = typed ∧ macroState.previousComposition = wide st.previousComposition ∧
      macroState.macroTable = env.macroTable := by
  unfold tried at htried
  split at htried
  · split at htried
    · cases htried
      exact ⟨h.buffer, rfl, rfl⟩
    · cases htried
  · cases htried
  · cases htried

omit [WideLocale] in
/-- Neither the buffer nor the composition is a macro, and a blank is no part of one. -/
lemma unmatched_of_blank {macroState : MacroState} {mapper : CaseMapper}
    (hbuffer : macroState.rawMacroBuffer ∉ macroState.macroTable.map Prod.fst)
    (hlower : Macro.PlanInputs.LowerCopy macroState.rawMacroBuffer ∉
      macroState.macroTable.map Prod.fst)
    (hcomposition : Macro.PlanInputs.LowerCopy macroState.previousComposition ∉
      macroState.macroTable.map Prod.fst) :
    (macroState.plan blank mapper).matched = false := by
  have hprintable : (macroState.planInputs blank).printableTrigger = false := rfl
  unfold MacroState.plan
  rw [Macro.Plan_matched, ← Bool.not_eq_true, Macro.PlanInputs.search_isSome,
    Macro.PlanInputs.findBuffer_isSome, Macro.PlanInputs.findWithoutTrigger_isSome,
    Macro.PlanInputs.findComposition_isSome, hprintable]
  rintro ((hkey | hkey) | ⟨⟨htrigger, -⟩, -⟩ | ⟨-, ⟨htrigger, -⟩ | hkey⟩)
  · exact hbuffer hkey
  · exact hlower hkey
  · cases htrigger
  · cases htrigger
  · exact hcomposition hkey

omit [WideCtype] in
/-- An automatic restore edits the screen alone. -/
lemma autoRestore_typed (h : st.Typed typed) : (env.autoRestore st).Typed typed := by
  unfold autoRestore WordTyping.autoRestore
  dsimp only
  split
  · exact ⟨h.buffer, h.macroOn, h.engineOn, h.notDigitLed, h.notPrimed⟩
  · exact h

/-- A Space that no macro takes commits the word, and the buffer survives with a blank when a key begins
so. -/
lemma ProcessKeyDown_space (h : st.Typed typed) (htable : env.macroTable ≠ [])
    (hunit : phraseUnit k.toHookKeyDown = some blank) (hcount : 0 < st.engine.count)
    (hunmatched : ∀ macroState, env.lookup st k = some macroState →
      (macroState.plan blank env.mapper).matched = false)
    (hbuffer : typed ≠ []) (hbegins : IsSpaceMacroPrefix (typed ++ [blank]) env.spaceMacroKeys) :
    (env.ProcessKeyDown st k).Typed (typed ++ [blank]) := by
  obtain ⟨shown, printable, hkey⟩ := space_of_phraseUnit hunit
  have hchar : k.key.macroChar = blank := by rw [hkey]; rfl
  obtain ⟨mid, hmid, hengine, hstep⟩ :=
    ProcessKeyDown_of_typed h htable (by rw [hkey]; simp) (by rw [hkey]; rfl) (by rwa [hchar])
  rw [trackedChar_space hkey, List.append_nil] at hmid
  have hnone : mid.engineChar env.toHookConfig k.toHookKeyDown VK_SPACE blank = none := by
    have hdigit : isDigitVk VK_SPACE = false := rfl
    have hpunct : IsOemPunctVk VK_SPACE = false := rfl
    unfold HookTyping.engineChar
    rw [hdigit, hpunct]
    simp [VK_SPACE, VK_OEM_4, VK_OEM_6]
  have hcompose : env.composeKey mid k =
      ((env.autoRestore mid).commitKey env.toHookConfig blank, .pass) := by
    unfold composeKey
    rw [hkey]
    dsimp only
    rw [hnone, hengine]
    exact if_pos hcount
  have hrestored : (env.autoRestore mid).Typed typed := autoRestore_typed hmid
  have hsaved : (env.autoRestore mid).savedMacroBuffer env.toHookConfig blank = typed ++ [blank] := by
    unfold HookTyping.savedMacroBuffer
    rw [hrestored.buffer, hrestored.macroOn, if_pos ⟨htable, Bool.false_ne_true, hbuffer⟩,
      if_neg (by decide), if_pos ⟨rfl, hbegins⟩]
  have hkept := hrestored.commitKey hsaved (by simp)
  rw [hstep, hcompose]
  exact ⟨hkept.buffer, hkept.macroOn, hkept.engineOn, hkept.notDigitLed, hkept.notPrimed⟩

omit [WideCtype] [WideLocale] in
/-- A table with a key is not empty. -/
lemma macroTable_ne_nil {key : WString} (h : key ∈ env.macroKeys) : env.macroTable ≠ [] := by
  intro hnil
  rw [macroKeys, hnil] at h
  cases h

/-- The letters of a word. -/
lemma run_word (htable : env.macroTable ≠ []) {word : WString} (hsmall : ∀ c ∈ word, isAsciiLower c)
    {keys : List TableKey} (hkeys : Types keys word) (h : st.Typed typed)
    (hsome : word ≠ [] ∨ 0 < st.engine.count) :
    (Machine.run env.ProcessKeyDown st keys).Typed (typed ++ word) ∧
      0 < (Machine.run env.ProcessKeyDown st keys).engine.count := by
  induction word generalizing st typed keys with
  | nil =>
    rw [List.map_eq_nil_iff.1 hkeys, Machine.run_nil, List.append_nil]
    exact ⟨h, hsome.resolve_left fun hne => hne rfl⟩
  | cons c rest ih =>
    obtain ⟨k, keys, rfl, hunit, hrest⟩ := List.map_eq_cons_iff.1 hkeys
    obtain ⟨hc, hsmall⟩ := List.forall_mem_cons.1 hsmall
    obtain ⟨htyped, hcount⟩ := ProcessKeyDown_letter h htable hunit hc
    have hrun := ih hsmall hrest htyped (.inr hcount)
    rwa [List.append_assoc] at hrun

/-- A Space behind no macro. -/
lemma unmatched_space (h : st.Typed typed) (hunit : phraseUnit k.toHookKeyDown = some blank)
    (hbuffer : typed ∉ env.macroKeys) (hlower : Macro.PlanInputs.LowerCopy typed = typed)
    (hshown : Macro.PlanInputs.LowerCopy (wide st.previousComposition) ∉ env.macroKeys)
    (macroState : MacroState) (hlookup : env.lookup st k = some macroState) :
    (macroState.plan blank env.mapper).matched = false := by
  obtain ⟨_, _, hkey⟩ := space_of_phraseUnit hunit
  rw [lookup_space h hkey] at hlookup
  obtain ⟨hraw, hprevious, hmacros⟩ := tried_eq h hlookup
  refine unmatched_of_blank ?_ ?_ ?_
  · rwa [hraw, hmacros]
  · rwa [hraw, hmacros, hlower]
  · rwa [hprevious, hmacros]

omit [WideLocale] in
/-- The beginnings of a text that is in small letters. -/
lemma lowerCopy_beginning {front text : WString} (hlower : Macro.PlanInputs.LowerCopy text = text)
    (hbegins : front <+: text) : Macro.PlanInputs.LowerCopy front = front := by
  have htake : text.take front.length = front := (List.prefix_iff_eq_take.1 hbegins).symm
  conv_lhs => rw [← htake, Macro.PlanInputs.LowerCopy, List.map_take]
  exact (congrArg (List.take front.length) hlower).trans htake

omit [WideLocale] in
/-- A beginning of a key with a blank passes the test, when the key has small letters only. -/
lemma isSpaceMacroPrefix_beginning {candidate key : WString} (hkey : key ∈ env.macroKeys)
    (hlower : Macro.PlanInputs.LowerCopy key = key) (hbegins : candidate <+: key)
    (hblank : blank ∈ candidate) : IsSpaceMacroPrefix candidate env.spaceMacroKeys := by
  have htake : key.take candidate.length = candidate := (List.prefix_iff_eq_take.1 hbegins).symm
  have hfixed : candidate.map WideCtype.towlower = candidate := lowerCopy_beginning hlower hbegins
  have hspace : key ∈ env.spaceMacroKeys :=
    List.mem_filter.2 ⟨hkey, List.contains_iff_mem.2 (hbegins.subset hblank)⟩
  simp only [IsSpaceMacroPrefix, Bool.and_eq_true, decide_eq_true_eq, List.any_eq_true]
  refine ⟨List.ne_nil_of_mem hblank, key, hspace, hbegins.length_le, ?_⟩
  rw [htake, hfixed]
  split
  · exact beq_self_eq_true _
  · exact beq_self_eq_true _

/-- The words behind what has been typed: at each blank the word is committed and the buffer goes on. -/
lemma run_phrase {key : WString} (hkey : key ∈ env.macroKeys)
    (hlower : Macro.PlanInputs.LowerCopy key = key)
    (hboundary : ∀ name ∈ env.macroKeys, ¬name ++ [blank] <+: key) {words : List WString}
    (hwords : words ≠ []) (hsmall : ∀ word ∈ words, SmallWord word) {keys : List TableKey}
    (hkeys : Types keys (phrase words)) (h : st.Typed typed) (hfull : typed ++ phrase words = key)
    (hshown : Machine.Guarded env.ProcessKeyDown env.NoShownMacro st keys) :
    (Machine.run env.ProcessKeyDown st keys).Typed key := by
  have htable : env.macroTable ≠ [] := macroTable_ne_nil hkey
  induction words generalizing st typed keys with
  | nil => exact absurd rfl hwords
  | cons word rest ih =>
    obtain ⟨hword, hrestSmall⟩ := List.forall_mem_cons.1 hsmall
    cases rest with
    | nil =>
      rw [phrase_singleton] at hkeys hfull
      rw [← hfull]
      exact (run_word htable (List.all_eq_true.1 hword.2) hkeys h (.inl hword.1)).1
    | cons next rest =>
      rw [phrase_cons_cons] at hkeys hfull
      rw [Types, List.map_append, List.map_cons] at hkeys
      obtain ⟨letters, behind, rfl, hletters, hbehind⟩ := List.map_eq_append_iff.1 hkeys
      obtain ⟨space, keys, rfl, hspace, hnext⟩ := List.map_eq_cons_iff.1 hbehind
      obtain ⟨-, hblank, hguard⟩ := Machine.guarded_append.1 hshown
      obtain ⟨htyped, hcount⟩ :=
        run_word htable (List.all_eq_true.1 hword.2) hletters h (.inl hword.1)
      have hbegins : (typed ++ word) ++ [blank] <+: key :=
        ⟨phrase (next :: rest), by rw [← hfull]; simp⟩
      have hname : typed ++ word ∉ env.macroKeys := fun hname => hboundary _ hname hbegins
      have hbuffer : typed ++ word ≠ [] := List.append_ne_nil_of_right_ne_nil _ hword.1
      have hunmatched := unmatched_space htyped hspace hname
        (lowerCopy_beginning hlower ((List.prefix_append _ _).trans hbegins)) (hblank hspace)
      have hcommitted := ProcessKeyDown_space htyped htable hspace hcount hunmatched hbuffer
        (isSpaceMacroPrefix_beginning hkey hlower hbegins (by simp))
      rw [Machine.run_append, Machine.run_cons]
      exact ih (by simp) hrestSmall hnext hcommitted (by rw [← hfull]; simp) hguard

omit [WideLocale] in
/-- A phrase of small words is in small letters. -/
lemma lowerCopy_phrase (hfixed : ∀ c, isAsciiLower c ∨ c = blank → WideCtype.towlower c = c)
    {words : List WString} (hsmall : ∀ word ∈ words, SmallWord word) :
    Macro.PlanInputs.LowerCopy (phrase words) = phrase words := by
  refine (List.map_congr_left fun c hc => hfixed c ?_).trans (List.map_id _)
  rcases mem_phrase hc with ⟨word, hword, hmem⟩ | hblank
  · exact .inl (List.all_eq_true.1 (hsmall word hword).2 c hmem)
  · exact .inr hblank

omit [WideLocale] in
/-- A buffer that is a macro comes before everything else. -/
lemma search_of_find {inp : Macro.PlanInputs} {value : WString}
    (h : inp.find inp.rawMacroBuffer = some value) :
    inp.search = some
      { expansion := value, matchedExact := true, isPartOfMacro := inp.printableTrigger } := by
  unfold Macro.PlanInputs.search Macro.PlanInputs.findBuffer
  rw [h]
  rfl

/-- The buffer is a macro. -/
lemma matches_of_typed (h : st.Typed typed) (hunit : phraseUnit k.toHookKeyDown = some blank)
    (htrigger : env.macroTriggerSpace) (hsome : typed ≠ []) (hkey : typed ∈ env.macroKeys) :
    env.Matches st k typed := by
  obtain ⟨_, _, hspace⟩ := space_of_phraseUnit hunit
  have hchar : k.key.macroChar = blank := by rw [hspace]; rfl
  have hcalled : env.macroTable ≠ [] ∧ ¬st.tempMacroOff ∧ env.IsMacroTrigger VK_SPACE ∧
      st.rawMacroBuffer ≠ [] :=
    ⟨macroTable_ne_nil hkey, by rw [h.macroOn]; simp, htrigger, by rwa [h.buffer]⟩
  obtain ⟨macroState, htried⟩ : ∃ macroState, env.tried st k = some macroState := by
    unfold tried
    rw [hspace]
    exact ⟨_, if_pos hcalled⟩
  obtain ⟨hraw, -, hmacros⟩ := tried_eq h htried
  have hnamed : typed ∈ (macroState.planInputs blank).macroTable.map Prod.fst := by
    show typed ∈ macroState.macroTable.map Prod.fst
    rwa [hmacros]
  obtain ⟨value, hvalue⟩ := Option.isSome_iff_exists.1 (Macro.PlanInputs.find_isSome.2 hnamed)
  have hsearch : (macroState.planInputs blank).search =
      some { expansion := value, matchedExact := true } := by
    apply search_of_find
    show (macroState.planInputs blank).find macroState.rawMacroBuffer = some value
    rwa [hraw]
  refine ⟨macroState, value, (lookup_space h hspace).trans htried, hraw, ?_, by rwa [hchar], ?_⟩
  · exact (congrArg (List.lookup typed) hmacros).symm.trans hvalue
  · unfold TryExpandMacro MacroState.plan Macro.Plan
    rw [hchar, hsearch]
    rfl

/-- Macros of several words can be reached. From a clean state the letters and blanks of a macro key of
small words lead to a match at the Space behind it, when no beginning of the key up to a blank is a
macro and no composition that a Space finds on the way is one in lower case. -/
theorem matches_phrase (hfixed : ∀ c, isAsciiLower c ∨ c = blank → WideCtype.towlower c = c)
    (htrigger : env.macroTriggerSpace) {words : List WString} (hwords : words ≠ [])
    (hsmall : ∀ word ∈ words, SmallWord word) (hkey : phrase words ∈ env.macroKeys)
    (hboundary : ∀ name ∈ env.macroKeys, ¬name ++ [blank] <+: phrase words) (hclean : st.Typed [])
    {keys : List TableKey} (hkeys : Types keys (phrase words))
    (hshown : Machine.Guarded env.ProcessKeyDown env.NoShownMacro st keys)
    (hspace : phraseUnit k.toHookKeyDown = some blank) :
    env.Matches (Machine.run env.ProcessKeyDown st keys) k (phrase words) := by
  have htyped := run_phrase hkey (lowerCopy_phrase hfixed hsmall) hboundary hwords hsmall hkeys hclean
    (List.nil_append _) hshown
  exact matches_of_typed htyped hspace htrigger (phrase_ne_nil hwords hsmall) hkey

end TableConfig

end Ctype

section Ascii

attribute [local instance] WideCtype.ascii WideLocale.ascii

open HookTyping

/-- Telex with some macros, which capitalizes the first letter of a sentence. -/
def telexTable (macroTable : List (WString × WString)) : TableConfig where
  config := {}
  autoCaps := true
  macroTable
  mapper := .ascii
  codeTable := .Unicode

/-- Nothing is typed yet. -/
def nothingTyped : HookTyping where
  engine := {}
  previousComposition := []
  autoCapState := .idle
  screen := []

/-- The first letter of a sentence. -/
def sentenceKey (vkCode : Nat) (isLetter : isLetterVk vkCode) : TableKey where
  key := .letter vkCode isLetter
  anchor := some (true, false)

def plainKey (k : HookKeyDown) : TableKey where
  toHookKeyDown := k

/-- The keys of `oc om`, behind a sentence. -/
def ocOm : List TableKey :=
  [sentenceKey 0x4F rfl, plainKey (letterKey 0x43 rfl), plainKey spaceKey,
    plainKey (letterKey 0x4F rfl), plainKey (letterKey 0x4D rfl)]

/-- The keys of `noo bo`, behind a sentence. -/
def nooBo : List TableKey :=
  [sentenceKey 0x4E rfl, plainKey (letterKey 0x4F rfl), plainKey (letterKey 0x4F rfl),
    plainKey spaceKey, plainKey (letterKey 0x42 rfl), plainKey (letterKey 0x4F rfl)]

/-- A phrase of two words. -/
theorem matches_phrase_ocOm :
    (telexTable [(wide ['o', 'c', ' ', 'o', 'm'], wide ['m'])]).Matches
      (Machine.run (telexTable [(wide ['o', 'c', ' ', 'o', 'm'], wide ['m'])]).ProcessKeyDown
        nothingTyped ocOm)
      (plainKey spaceKey) (phrase [wide ['o', 'c'], wide ['o', 'm']]) := by
  refine TableConfig.matches_phrase ?_ rfl (by simp) (by decide +kernel) (by decide +kernel)
    (by decide +kernel) ⟨rfl, rfl, rfl, rfl, by decide⟩ (by decide +kernel) (by decide +kernel) rfl
  intro c hc
  have hupper : isAsciiUpper c = false := by
    rcases hc with hsmall | rfl
    · have hrange : 0x61 ≤ c.toNat ∧ c.toNat ≤ 0x7A := of_decide_eq_true hsmall
      exact decide_eq_false (by omega)
    · rfl
  exact if_neg (by rw [hupper]; exact Bool.false_ne_true)

/-- `Nô` is no macro, but `nô` is one, and is found at the Space behind it. -/
theorem not_matches_phrase_noo :
    let env := telexTable
      [([0x6E, 0xF4], wide ['x']), (wide ['n', 'o', 'o', ' ', 'b', 'o'], wide ['m'])]
    let words := [wide ['n', 'o', 'o'], wide ['b', 'o']]
    env.macroTriggerSpace = true ∧ (∀ word ∈ words, SmallWord word) ∧ phrase words ∈ env.macroKeys ∧
      (∀ name ∈ env.macroKeys, ¬name ++ [blank] <+: phrase words) ∧ nothingTyped.Typed [] ∧
      Types nooBo (phrase words) ∧
      Machine.Guarded env.ProcessKeyDown
        (fun st k => phraseUnit k.toHookKeyDown = some blank →
          wide st.previousComposition ∉ env.macroKeys) nothingTyped nooBo ∧
      ¬env.Matches (Machine.run env.ProcessKeyDown nothingTyped nooBo) (plainKey spaceKey)
        (phrase words) := by
  intro env words
  refine ⟨rfl, by decide +kernel, by decide +kernel, by decide +kernel,
    ⟨rfl, rfl, rfl, rfl, by decide⟩, by decide +kernel, by decide +kernel, ?_⟩
  rintro ⟨macroState, value, hlookup, hbuffer, -⟩
  have hleft : (env.lookup (Machine.run env.ProcessKeyDown nothingTyped nooBo) (plainKey spaceKey)).map
      MacroState.rawMacroBuffer = some (wide ['b', 'o']) := by decide +kernel
  rw [hlookup, Option.map_some, hbuffer] at hleft
  revert hleft
  decide +kernel

end Ascii

end NextKey
