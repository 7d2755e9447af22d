import NextKey.Tsf.UndoPhases

/-!
# A letter whose edit session fails

Model of `OnKeyDown` for a letter key when the host refuses an edit session, or `StartComposition`,
`ShiftStart` or the setting of a text fails in it. Where everything succeeds it is `OnKeyDown`
(`letterKeyDown_success`). An eaten letter is lost just when it would take the word before the caret
back into a composition and the session that does so fails (`keepsLetter_iff`): `HandleKey` answers
that the key is eaten without a look at what came of it.
-/

namespace NextKey

/-- What the host makes of the edit sessions of a key. -/
structure SessionOutcome where
  /-- The session that reads the text before the caret finds it. -/
  inspect : Bool := true
  /-- `ShiftStart` of that session over the word before the caret. -/
  wordRange : Bool := true
  /-- The session that writes is carried out. -/
  request : Bool := true
  startComposition : Bool := true
  /-- `ShiftStart` of the composition. -/
  shiftStart : Bool := true
  setText : Bool := true

/-- The session that takes a word back comes to the letter. -/
def SessionOutcome.revives (o : SessionOutcome) : Prop :=
  o.request = true ∧ o.startComposition = true ∧ o.shiftStart = true

section Locale
variable [WideLocale]

/-- The letter of a key (in `HandleKey`). -/
def KeyInput.letter (k : KeyInput) : Char :=
  if k.shift != k.capsLock then Char.ofNat k.vk else towlower (Char.ofNat k.vk)

namespace TextService

/-- C++ `CompositionManager::StartComposition` -/
def StartCompositionWith (o : SessionOutcome) (s : TextService) : TextService × Bool :=
  if o.startComposition then (s.StartComposition, true) else (s.EndComposition, false)

/-- C++ `CompositionManager::SetCompositionText` -/
def SetCompositionTextWith (o : SessionOutcome) (s : TextService) (text : List Char) : TextService :=
  if o.setText then s.SetCompositionText text else s

/-- C++ `StartCompositionEditSession`, if it is carried out. -/
def StartCompositionEditSessionWith (o : SessionOutcome) (s : TextService) (text : List Char) :
    TextService :=
  if ¬o.request then s
  else
    let (s, started) := s.StartCompositionWith o
    if ¬started then s
    else if text ≠ [] then s.SetCompositionTextWith o text
    else s

/-- C++ `UpdateCompositionEditSession`, if it is carried out. -/
def UpdateCompositionEditSessionWith (o : SessionOutcome) (s : TextService) (text : List Char) :
    TextService :=
  if ¬o.request then s
  else if s.IsComposing then s.SetCompositionTextWith o text
  else
    let (s, started) := s.StartCompositionWith o
    if started then s.SetCompositionTextWith o text else s

/-- C++ `CommitEditSession`, if it is carried out. -/
def CommitEditSessionWith (o : SessionOutcome) (s : TextService) (finalText : List Char) :
    TextService :=
  if ¬o.request then s
  else if s.IsComposing then (s.SetCompositionTextWith o finalText).EndComposition
  else s

/-- C++ `ReviveAndTypeEditSession`, if it is carried out. -/
def ReviveAndTypeEditSessionWith (o : SessionOutcome) (s : TextService) (word : List Char)
    (ch : Char) : TextService :=
  if ¬o.request then s
  else if word = [] then s
  else
    let (engine, ok) := EngineState.seedFromText s.config.toTypingConfig word
    let s := { s with engine := engine }
    if ¬ok then s
    else
      let (s, started) := s.StartCompositionWith o
      if ¬started then { s with engine := {} }
      else if ¬o.shiftStart then { s with engine := {} }.EndComposition
      else
        let s := s.shiftStart word
        let s := { s with engine := s.engine.pushChar s.config.toTypingConfig ch }
        let s := s.SetCompositionTextWith o s.engine.peek
        if s.engine.count = 0 then s.EndComposition else s

/-- What `HandleKey` learns from `InspectPrecedingTextEditSession`: the word, if there is a range for
    it, and whether to capitalize. -/
def InspectPrecedingTextWith (o : SessionOutcome) (s : TextService) (k : KeyInput) :
    Option (List Char) × Bool :=
  if ¬o.inspect then (none, false)
  else
    let (word, shouldAutoCap) := s.InspectPrecedingTextEditSession k
    (if word ≠ [] ∧ o.wordRange then some word else none, shouldAutoCap)

/-- C++ `Commit` -/
def CommitWith (o : SessionOutcome) (s : TextService) (k : KeyInput) : TextService :=
  let rawSnapshot := s.engine.peekRaw
  let committed := (s.engine.commit s.config.toTypingConfig).2
  let s := s.CommitEditSessionWith o committed
  { s with engine := {}, digitLedWord := false }.RecordCommitSnapshot k committed rawSnapshot false

/-- The last part of the letter branch of C++ `HandleKey`. -/
def pushLetterWith (o : SessionOutcome) (s : TextService) (ch : Char) : TextService × Bool :=
  let s := { s with engine := s.engine.pushChar s.config.toTypingConfig ch }
  if ¬s.IsComposing then
    let s := s.StartCompositionEditSessionWith o s.engine.peek
    if ¬s.IsComposing then ({ s with engine := {} }, false) else (s, true)
  else (s.UpdateCompositionEditSessionWith o s.engine.peek, true)

/-- The letter branch of C++ `HandleKey`. -/
def handleLetterWith (o : SessionOutcome) (s : TextService) (k : KeyInput) : TextService × Bool :=
  if s.engine.count = 0 ∧ ¬s.IsComposing ∧ ¬s.isScintillaApp then
    let (word, shouldAutoCap) := s.InspectPrecedingTextWith o k
    match word.filter (EngineState.canRevive s.config.toTypingConfig) with
    | some word => (s.ReviveAndTypeEditSessionWith o word k.letter, true)
    | none =>
      s.pushLetterWith o (if s.config.autoCaps ∧ shouldAutoCap then towupper k.letter else k.letter)
  else s.pushLetterWith o k.letter

/-- `OnKeyDown` of a letter key comes to `HandleKey`, or to what stands before it. -/
def letterKeyDown (o : SessionOutcome) (s : TextService) (k : KeyInput) : TextService × Bool :=
  let s := s.CheckConfigEvent
  if k.modifiers then (s, false)
  else
    let (s, wantKey) := s.cachedWantKey k
    let s := s.clearCache
    if ¬wantKey then (if s.HasEngineBuffer then s.CommitWith o k else s, false)
    else s.handleLetterWith o k

variable {s s' : TextService} {k : KeyInput} {o : SessionOutcome}

omit [WideLocale] in
/-- Without failures a composition starts as before. -/
@[simp] lemma StartCompositionWith_success :
    s.StartCompositionWith {} = (s.StartComposition, true) := rfl

omit [WideLocale] in
/-- Without failures the text is set. -/
@[simp] lemma SetCompositionTextWith_success {text} :
    s.SetCompositionTextWith {} text = s.SetCompositionText text := rfl

omit [WideLocale] in
/-- Without failures the session starts the composition. -/
lemma StartCompositionEditSessionWith_success {text} :
    s.StartCompositionEditSessionWith {} text = s.StartCompositionEditSession text := by
  simp [StartCompositionEditSessionWith, StartCompositionEditSession]

omit [WideLocale] in
/-- Without failures the session updates the composition. -/
lemma UpdateCompositionEditSessionWith_success {text} :
    s.UpdateCompositionEditSessionWith {} text = s.UpdateCompositionEditSession text := by
  unfold UpdateCompositionEditSessionWith UpdateCompositionEditSession
  rw [if_neg (by simp)]
  split <;> rfl

/-- Without failures the word is committed. -/
lemma CommitWith_success : s.CommitWith {} k = s.Commit k := by
  simp [CommitWith, Commit, CommitEditSessionWith, CommitEditSession]

/-- Without failures the word is revived. -/
lemma ReviveAndTypeEditSessionWith_success {word ch} :
    s.ReviveAndTypeEditSessionWith {} word ch = s.ReviveAndTypeEditSession word ch := by
  unfold ReviveAndTypeEditSessionWith ReviveAndTypeEditSession reviveSession
  rw [if_neg (by simp)]
  rfl

/-- Without failures the letter is pushed. -/
lemma pushLetterWith_success {ch} : s.pushLetterWith {} ch = s.pushLetter ch := by
  unfold pushLetterWith pushLetter
  simp only [StartCompositionEditSessionWith_success, UpdateCompositionEditSessionWith_success]

/-- Without failures the letter is handled. -/
lemma handleLetterWith_success : s.handleLetterWith {} k = s.handleLetter k := by
  unfold handleLetterWith handleLetter
  dsimp only
  rw [← KeyInput.letter]
  split
  · have hinspect : s.InspectPrecedingTextWith {} k =
        (if (s.InspectPrecedingTextEditSession k).1 ≠ [] then
          some (s.InspectPrecedingTextEditSession k).1 else none,
          (s.InspectPrecedingTextEditSession k).2) := by
      simp [InspectPrecedingTextWith]
    rw [hinspect]
    generalize s.InspectPrecedingTextEditSession k = inspected
    obtain ⟨word, shouldAutoCap⟩ := inspected
    dsimp only
    by_cases hword : word ≠ [] ∧ EngineState.canRevive s.config.toTypingConfig word = true
    · rw [if_pos hword, if_pos hword.1, Option.filter_some_pos hword.2]
      simp only [ReviveAndTypeEditSessionWith_success]
    · have hnone : (if word ≠ [] then some word else none).filter
          (EngineState.canRevive s.config.toTypingConfig) = none := by
        split
        · next hne => exact Option.filter_some_neg (by simpa [hne] using hword)
        · rfl
      rw [if_neg hword, hnone]
      exact pushLetterWith_success
  · exact pushLetterWith_success

/-- Where every session succeeds, a letter key is what `OnKeyDown` says. -/
lemma letterKeyDown_success (hletter : isLetterVk k.vk = true) :
    s.letterKeyDown {} k = s.OnKeyDown k := by
  have hvk : 0x41 ≤ k.vk ∧ k.vk ≤ 0x5A := by simpa [isLetterVk] using hletter
  have hback : k.vk ≠ VK_BACK := by
    rw [VK_BACK]
    omega
  have hesc : k.vk ≠ VK_ESCAPE := by
    rw [VK_ESCAPE]
    omega
  have hspace : k.vk ≠ VK_SPACE := by
    rw [VK_SPACE]
    omega
  have hpunct : IsPunctuationKey k.vk = false := by
    simp only [IsPunctuationKey, isDigitVk, VK_TAB, Bool.or_eq_false_iff, decide_eq_false_iff_not,
      beq_eq_false_iff_ne]
    omega
  have hdismiss : s.CheckConfigEvent.dismissesSuggestion k = false := by
    simp [dismissesSuggestion, hback]
  have hescape : s.CheckConfigEvent.escRestoreRaw k = (s.CheckConfigEvent, false) := by
    rw [escRestoreRaw, if_neg fun h => hesc h.1]
  have hhandle : ∀ {s : TextService}, s.HandleKey k = s.handleLetter k := by
    intro s
    unfold HandleKey
    rw [if_neg hback, if_neg hspace, if_pos hletter]
  rw [OnKeyDown_eq, hescape]
  unfold letterKeyDown keyTyping
  dsimp only
  simp only [hdismiss, hpunct, Bool.false_eq_true, and_false, false_and, if_false, CommitWith_success,
    handleLetterWith_success, hhandle]

/-- The engine after a letter: pushed to what it had, or to the word before the caret. -/
def Takes (s : TextService) (k : KeyInput) (engine : EngineState) : Prop :=
  ∃ ch, (ch = k.letter ∨ ch = towupper k.letter) ∧
    (engine = s.engine.pushChar s.config.toTypingConfig ch ∨
      ∃ word, word ≠ [] ∧ word <:+ s.caretText ∧
        engine = (EngineState.seedFromText s.config.toTypingConfig word).1.pushChar
          s.config.toTypingConfig ch)

/-- The engine holds the letter, for the next edit session. -/
def HoldsLetter (s s' : TextService) (k : KeyInput) : Prop :=
  s'.HasEngineBuffer = true ∧ s.Takes k s'.engine

/-- The document has come to show the letter. -/
def ShowsLetter (s s' : TextService) (k : KeyInput) : Prop :=
  s'.document ≠ s.document ∧ ∃ engine, s.Takes k engine ∧ engine.peek <:+ s'.caretText

/-- A letter that is eaten is in the document or in the engine. -/
def KeepsLetter (o : SessionOutcome) (s : TextService) (k : KeyInput) : Prop :=
  (s.letterKeyDown o k).2 = true →
    s.CheckConfigEvent.ShowsLetter (s.letterKeyDown o k).1 k ∨
      s.CheckConfigEvent.HoldsLetter (s.letterKeyDown o k).1 k

/-- The word that the letter takes back into a composition. -/
def revivedWord (o : SessionOutcome) (s : TextService) (k : KeyInput) : Option (List Char) :=
  let s := s.CheckConfigEvent
  if k.modifiers then none
  else
    let (s, wantKey) := s.cachedWantKey k
    let s := s.clearCache
    if wantKey ∧ s.engine.count = 0 ∧ ¬s.IsComposing ∧ ¬s.isScintillaApp then
      (s.InspectPrecedingTextWith o k).1.filter (EngineState.canRevive s.config.toTypingConfig)
    else none

omit [WideLocale] in
/-- To set the text leaves the engine, whatever fails. -/
lemma SetCompositionTextWith_engine {text} : (s.SetCompositionTextWith o text).engine = s.engine := by
  unfold SetCompositionTextWith
  split <;> rfl

omit [WideLocale] in
/-- So does the start of a composition. -/
lemma StartCompositionWith_engine : (s.StartCompositionWith o).1.engine = s.engine := by
  unfold StartCompositionWith
  split <;> rfl

omit [WideLocale] in
/-- So does its session. -/
lemma StartCompositionEditSessionWith_engine {text} :
    (s.StartCompositionEditSessionWith o text).engine = s.engine := by
  unfold StartCompositionEditSessionWith
  have hengine := @StartCompositionWith_engine s o
  split
  · rfl
  · dsimp only
    split
    · exact hengine
    · split
      · exact SetCompositionTextWith_engine.trans hengine
      · exact hengine

omit [WideLocale] in
/-- So does the session of an update. -/
lemma UpdateCompositionEditSessionWith_engine {text} :
    (s.UpdateCompositionEditSessionWith o text).engine = s.engine := by
  unfold UpdateCompositionEditSessionWith
  have hengine := @StartCompositionWith_engine s o
  split
  · rfl
  · split
    · exact SetCompositionTextWith_engine
    · dsimp only
      split
      · exact SetCompositionTextWith_engine.trans hengine
      · exact hengine

/-- An eaten letter that goes to the buffer stays in it, whatever fails. -/
lemma pushLetterWith_engine {ch} (heaten : (s.pushLetterWith o ch).2 = true) :
    (s.pushLetterWith o ch).1.engine = s.engine.pushChar s.config.toTypingConfig ch := by
  unfold pushLetterWith at heaten ⊢
  dsimp only at heaten ⊢
  split
  · next hcomp =>
    rw [if_pos hcomp] at heaten
    split
    · next hnot =>
      rw [if_pos hnot] at heaten
      cases heaten
    · exact StartCompositionEditSessionWith_engine
  · exact UpdateCompositionEditSessionWith_engine

omit [WideLocale] in
/-- The start of a composition shows no text. -/
lemma StartComposition_document : s.StartComposition.document = s.document := by
  simp [StartComposition, document, caretText]

omit [WideLocale] in
/-- The end of a composition leaves its text. -/
lemma EndComposition_document : s.EndComposition.document = s.document := by
  simp [EndComposition, document, caretText]

/-- A session that takes a word back and fails leaves the document as it is and the engine empty. -/
lemma ReviveAndTypeEditSessionWith_fails {word ch}
    (hseed : (EngineState.seedFromText s.config.toTypingConfig word).2 = true)
    (hzero : s.engine.count = 0) (hfails : ¬o.revives) :
    (s.ReviveAndTypeEditSessionWith o word ch).document = s.document ∧
      (s.ReviveAndTypeEditSessionWith o word ch).engine.count = 0 := by
  unfold ReviveAndTypeEditSessionWith
  split
  · exact ⟨rfl, hzero⟩
  · next hrequest =>
    split
    · exact ⟨rfl, hzero⟩
    · dsimp only
      rw [if_neg (by simp [hseed])]
      unfold StartCompositionWith
      split
      · next hstart =>
        rw [if_neg (by simp), if_pos fun hshift => hfails ⟨not_not.1 hrequest, hstart, hshift⟩]
        exact ⟨EndComposition_document.trans StartComposition_document, rfl⟩
      · exact ⟨EndComposition_document, rfl⟩

/-- A session that takes a word back and does not fail pushes the letter to it. -/
lemma ReviveAndTypeEditSessionWith_engine {word ch} (hne : word ≠ [])
    (hseed : (EngineState.seedFromText s.config.toTypingConfig word).2 = true)
    (hrevives : o.revives) :
    (s.ReviveAndTypeEditSessionWith o word ch).engine =
      (EngineState.seedFromText s.config.toTypingConfig word).1.pushChar s.config.toTypingConfig
        ch := by
  obtain ⟨hrequest, hstart, hshift⟩ := hrevives
  unfold ReviveAndTypeEditSessionWith StartCompositionWith
  rw [if_neg (by simp [hrequest]), if_neg hne]
  dsimp only
  rw [if_neg (by simp [hseed]), if_pos hstart]
  dsimp only
  rw [if_neg (by simp), if_neg (by simp [hshift])]
  split
  · exact SetCompositionTextWith_engine
  · exact SetCompositionTextWith_engine

/-- The word that is read stands before the caret. -/
lemma InspectPrecedingTextWith_word {word} (h : (s.InspectPrecedingTextWith o k).1 = some word) :
    word ≠ [] ∧ word <:+ s.caretText := by
  unfold InspectPrecedingTextWith at h
  split at h
  · cases h
  · dsimp only at h
    split at h
    · next hword =>
      cases h
      refine ⟨hword.1, ?_⟩
      have hne := hword.1
      unfold InspectPrecedingTextEditSession at hne ⊢
      split
      · exact List.nil_suffix
      · split
        · exact List.nil_suffix
        · exact (List.rtakeWhile_suffix _ _).trans (List.drop_suffix _ _)
    · cases h

/-- To ask for a key leaves the configuration. -/
lemma WantKey_config : (s.WantKey k).1.config = s.config := by
  unfold WantKey
  split
  · rfl
  · dsimp only
    split_ifs
    case neg =>
      unfold wantTypingKey
      dsimp only
      split
      · rfl
      · rfl
      · rfl
      · split_ifs <;> rfl
    all_goals rfl

/-- So does the answer of the test. -/
lemma cachedWantKey_config : (s.cachedWantKey k).1.config = s.config := by
  unfold cachedWantKey
  split
  · rfl
  · exact WantKey_config

/-- To ask for a key leaves the text behind the caret. -/
lemma WantKey_after : (s.WantKey k).1.after = s.after := by
  unfold WantKey
  split
  · rfl
  · dsimp only
    split_ifs
    case neg =>
      unfold wantTypingKey
      dsimp only
      split
      · rfl
      · rfl
      · rfl
      · split_ifs <;> rfl
    all_goals rfl

/-- The answer of the test leaves the document. -/
lemma cachedWantKey_text : (s.cachedWantKey k).1.before = s.before ∧
    (s.cachedWantKey k).1.composition = s.composition ∧ (s.cachedWantKey k).1.after = s.after := by
  refine ⟨?_, cachedWantKey_sameWord.composition, ?_⟩
  · unfold cachedWantKey
    split
    · rfl
    · exact WantKey_before
  · unfold cachedWantKey
    split
    · rfl
    · exact WantKey_after

/-- An eaten letter is held when it takes no word back, or when its session gets that far. -/
lemma handleLetterWith_holds
    (hrevives : (s.engine.count = 0 ∧ ¬s.IsComposing = true ∧ ¬s.isScintillaApp = true →
      (s.InspectPrecedingTextWith o k).1.filter (EngineState.canRevive s.config.toTypingConfig) ≠ none →
        o.revives))
    (heaten : (s.handleLetterWith o k).2 = true) : s.Takes k (s.handleLetterWith o k).1.engine := by
  unfold handleLetterWith at heaten ⊢
  split
  · next hempty =>
    have hword := @InspectPrecedingTextWith_word _ s k o
    have hrevives' := hrevives hempty
    rw [if_pos hempty] at heaten
    generalize s.InspectPrecedingTextWith o k = inspected at heaten hword hrevives' ⊢
    obtain ⟨word?, shouldAutoCap⟩ := inspected
    dsimp only at heaten hword hrevives' ⊢
    split
    · next word hfilter =>
      obtain ⟨hsome, hcan⟩ := Option.filter_eq_some_iff.1 hfilter
      obtain ⟨hne, hsuffix⟩ := hword hsome
      simp only [EngineState.canRevive, Bool.and_eq_true] at hcan
      refine ⟨k.letter, .inl rfl, .inr ⟨word, hne, hsuffix, ?_⟩⟩
      exact ReviveAndTypeEditSessionWith_engine hne hcan.1 (hrevives' (by simp [hfilter]))
    · next hfilter =>
      rw [hfilter] at heaten
      refine ⟨_, ?_, .inl (pushLetterWith_engine heaten)⟩
      split
      · exact .inr rfl
      · exact .inl rfl
  · next hfull =>
    rw [if_neg hfull] at heaten
    exact ⟨k.letter, .inl rfl, .inl (pushLetterWith_engine heaten)⟩

end TextService

open TextService in
/-- An eaten letter is kept just when it takes no word back into a composition or the session that does
    so comes to the letter. -/
theorem keepsLetter_iff {s : TextService} {k : KeyInput} {o : SessionOutcome} :
    s.KeepsLetter o k ↔ (s.revivedWord o k ≠ none → o.revives) := by
  have hword : SameWord s.CheckConfigEvent (s.CheckConfigEvent.cachedWantKey k).1 :=
    cachedWantKey_sameWord
  have hconfig := @cachedWantKey_config _ s.CheckConfigEvent k
  obtain ⟨hbefore, hcomp, hafter⟩ := @cachedWantKey_text _ s.CheckConfigEvent k
  unfold KeepsLetter letterKeyDown revivedWord
  dsimp only
  generalize s.CheckConfigEvent = s₀ at hword hconfig hbefore hcomp hafter ⊢
  generalize s₀.cachedWantKey k = cached at hword hconfig hbefore hcomp hafter ⊢
  obtain ⟨s₁, wantKey⟩ := cached
  dsimp only at hword hconfig hbefore hcomp hafter ⊢
  have hdocument : s₁.document = s₀.document := by rw [document, document, hbefore, hcomp, hafter]
  have hcaret : s₁.caretText = s₀.caretText := by rw [caretText, caretText, hbefore, hcomp]
  cases hmods : k.modifiers with
  | true => simp
  | false =>
    simp only [Bool.false_eq_true, if_false]
    cases wantKey with
    | false => simp
    | true =>
      simp only [not_true_eq_false, if_false, true_and]
      have htakes : ∀ {engine}, s₁.clearCache.Takes k engine → s₀.Takes k engine := by
        rintro engine ⟨ch, hch, htakes⟩
        refine ⟨ch, hch, ?_⟩
        rw [← hword.engine, ← hconfig, ← hcaret]
        exact htakes
      have hheld : ∀ {engine}, s₀.Takes k engine → 0 < engine.count := by
        rintro engine ⟨ch, -, rfl | ⟨word, -, -, rfl⟩⟩
        · exact count_pos EngineState.pushChar_ne_nil
        · exact count_pos EngineState.pushChar_ne_nil
      constructor
      · intro hkeeps
        by_contra hnot
        obtain ⟨hsome, hfails⟩ := Classical.not_imp.1 hnot
        split at hsome
        · next hempty =>
          obtain ⟨word, hfilter⟩ := Option.ne_none_iff_exists'.1 hsome
          have hrevive : s₁.clearCache.handleLetterWith o k =
              (s₁.clearCache.ReviveAndTypeEditSessionWith o word k.letter, true) := by
            unfold handleLetterWith
            rw [if_pos hempty]
            dsimp only
            rw [hfilter]
          have hcan := (Option.filter_eq_some_iff.1 hfilter).2
          simp only [EngineState.canRevive, Bool.and_eq_true] at hcan
          obtain ⟨hsame, hzero⟩ := @ReviveAndTypeEditSessionWith_fails _ s₁.clearCache o word k.letter
            hcan.1 hempty.1 hfails
          rw [hrevive] at hkeeps
          obtain ⟨hchanged, -⟩ | ⟨hbuf, -⟩ := hkeeps rfl
          · exact hchanged (hsame.trans hdocument)
          · rw [hasEngineBuffer_eq] at hbuf
            exact absurd hzero hbuf.ne'
        · exact hsome rfl
      · intro hrevives heaten
        right
        have htaken : s₁.clearCache.Takes k (s₁.clearCache.handleLetterWith o k).1.engine := by
          refine handleLetterWith_holds (fun hempty hsome => hrevives ?_) heaten
          rw [if_pos hempty]
          exact hsome
        exact ⟨hasEngineBuffer_eq.2 (hheld (htakes htaken)), htakes htaken⟩

end Locale

section Ascii
attribute [local instance] WideLocale.ascii

/-- Behind `gõ`, an `f` whose edit session is refused is eaten, and is neither in the document nor in
    the engine. -/
theorem letter_lost :
    let s := { TextService.create (some tsfDefaults) with before := ['g', 'õ'] }
    let r := s.letterKeyDown { request := false } { vk := 0x46 }
    r.2 = true ∧ r.1.document = ['g', 'õ'] ∧ r.1.HasEngineBuffer = false ∧
      ¬s.KeepsLetter { request := false } { vk := 0x46 } := by
  intro s r
  have heaten : r.2 = true := by decide +kernel
  have hbuf : r.1.HasEngineBuffer = false := by decide +kernel
  refine ⟨heaten, by decide +kernel, hbuf, fun hkeeps => ?_⟩
  obtain ⟨hchanged, -⟩ | ⟨hholds, -⟩ := hkeeps heaten
  · revert hchanged
    decide +kernel
  · rw [show (s.letterKeyDown { request := false } { vk := 0x46 }).1.HasEngineBuffer = false from hbuf]
      at hholds
    cases hholds

end Ascii

end NextKey
