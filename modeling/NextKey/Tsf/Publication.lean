import NextKey.Tsf.Agreement

/-!
# Publications in the middle of a word

The application publishes the shared state while a word is being composed. The next callback notices it,
and `ApplySharedState` throws the engine away while the composition stays: `OnTestKeyDown` then takes
engine and composition for out of step and commits the empty text, and a letter that reaches `OnKeyDown`
alone starts a new word in the old composition. Both delete the word from the document (`word_deleted`).

The words that publications have interrupted stay in the document when no later callback is one of these
(`interrupted_kept`).
-/

namespace NextKey

/-- The shared state after C++ `Write`, which counts the epoch up twice. -/
def SharedState.written (old state : SharedState) : SharedState
  | .epoch => old .epoch + 2
  | f => state f

/-- The text service, with the words that were being composed when a publication came: each as the
    composition showed it, and its raw keys. -/
structure PublicationRun where
  service : TextService
  interrupted : List (List Char × List Char) := []

/-- A callback, or a publication of the application, which creates the shared state if there is none. -/
inductive TsfEvent where
  | call (call : Callback)
  | publish (state : SharedState)

section Locale
variable [WideLocale]

namespace TextService

/-- The word being composed. -/
def composedWord (s : TextService) : List (List Char × List Char) :=
  s.composition.toList.map fun text => (text, s.engine.peekRaw)

/-- `Write` of the application. -/
def publish (s : TextService) (state : SharedState) : TextService :=
  { s with shared := some ((s.shared.getD SharedState.InitDefaults).written state) }

/-- Whether the context of a key blocks the input. -/
def blocks (s : TextService) (k : KeyInput) : Bool :=
  if s.lastContext = some k.context then s.contextBlocked else k.inputScopeBlocked

/-- Letters go to the engine. -/
def takesLetters (s : TextService) : Prop :=
  s.abiOk = true ∧ s.digitLedWord = false ∧
    ∃ shared, s.shared = some shared ∧
      hasFlag shared.readFlagsNow SharedFlags.ENGINE_ENABLED = true ∧
      hasFlag shared.readFlagsNow SharedFlags.TSF_ACTIVE = true ∧
      hasFlag shared.readFlagsNow SharedFlags.VIETNAMESE_MODE = true

/-- The key would be typed into a composition: its test phase wanted it, or it has had none and is a
    letter. -/
def typesInto (s : TextService) (k : KeyInput) : Prop :=
  if k.vk = s.lastTestedVk then
    s.lastWantKeyResult = true ∧ (isLetterVk k.vk = true ∨ k.vk = VK_SPACE ∨ k.vk = VK_BACK)
  else isLetterVk k.vk = true ∧ s.takesLetters

/-- The callback leaves a composition alone whose engine is empty, or is thrown away by
    `CheckConfigEvent`. -/
def Spares (s : TextService) : Callback → Prop
  | .testKeyDown k => s.blocks k = true
  | .keyDown k =>
    k.modifiers = true ∨
      (s.engine.count = 0 ∨ ¬s.Noticed) ∧ ¬s.typesInto k ∧
        ¬(k.vk = VK_ESCAPE ∧ s.commitUndoState = .primed)

end TextService

/-- One event. -/
def publicationStep (r : PublicationRun) : TsfEvent → PublicationRun
  | .call call => { r with service := callbackStep r.service call }
  | .publish state =>
    { service := r.service.publish state, interrupted := r.service.composedWord ++ r.interrupted }

/-- Once a word has been interrupted, the callbacks spare it. -/
def SparesInterrupted (r : PublicationRun) : TsfEvent → Prop
  | .call call => r.interrupted ≠ [] → r.service.Spares call
  | .publish _ => True

/-- Every interrupted word is in the document, as composed or raw text. -/
def PublicationRun.Kept (r : PublicationRun) : Prop :=
  ∀ word ∈ r.interrupted,
    word.1 <:+: r.service.document ∨ word.2 ≠ [] ∧ word.2 <:+: r.service.document

namespace TextService

variable {s s' : TextService} {k : KeyInput}

/-- `CheckConfigEvent` changes the engine and the config, and what it has seen of the shared state. -/
structure SameDocument (s s' : TextService) : Prop where
  shared : s'.shared = s.shared
  composition : s'.composition = s.composition
  abiOk : s'.abiOk = s.abiOk
  digitLedWord : s'.digitLedWord = s.digitLedWord
  lastTestedVk : s'.lastTestedVk = s.lastTestedVk
  lastWantKeyResult : s'.lastWantKeyResult = s.lastWantKeyResult
  commitUndoState : s'.commitUndoState = s.commitUndoState
  lastContext : s'.lastContext = s.lastContext
  contextBlocked : s'.contextBlocked = s.contextBlocked

omit [WideLocale] in
/-- A look at the configuration leaves the document. -/
lemma CheckConfigEvent_sameDocument : SameDocument s s.CheckConfigEvent := by
  unfold CheckConfigEvent
  split
  · exact ⟨rfl, rfl, rfl, rfl, rfl, rfl, rfl, rfl, rfl⟩
  · split_ifs <;> exact ⟨rfl, rfl, rfl, rfl, rfl, rfl, rfl, rfl, rfl⟩

omit [WideLocale] in
/-- The same document is typed into by the same keys. -/
lemma SameDocument.typesInto (h : SameDocument s s') : s'.typesInto k ↔ s.typesInto k := by
  simp only [TextService.typesInto, takesLetters, h.lastTestedVk, h.lastWantKeyResult, h.shared,
    h.abiOk, h.digitLedWord]

/-- The engine is empty once `CheckConfigEvent` has thrown it away. -/
lemma CheckConfigEvent_emptied (h : s.engine.count = 0 ∨ ¬s.Noticed) :
    s.CheckConfigEvent.HasEngineBuffer = false := by
  have hzero : s.engine.count = 0 → s.HasEngineBuffer = false := by
    intro h
    simp [HasEngineBuffer, h]
  unfold CheckConfigEvent
  split
  · next hnone =>
    obtain h | h := h
    · exact hzero h
    · refine absurd ?_ h
      intro shared hshared
      rw [hnone] at hshared
      cases hshared
  · next shared hshared =>
    have hnoticed : (shared.readEpochNow = s.lastEpoch ∨ ¬shared.readNow.IsValid) → s.Noticed := by
      intro hdone shared' hshared'
      cases hshared.symm.trans hshared'
      exact hdone
    split
    · next hepoch =>
      obtain h | h := h
      · exact hzero h
      · exact absurd (hnoticed (.inl hepoch)) h
    · split
      · next hvalid =>
        obtain h | h := h
        · exact hzero h
        · exact absurd (hnoticed (.inr hvalid)) h
      · rfl

/-- The keys that are wanted for typing. -/
lemma wantTypingKey_true (h : (s.wantTypingKey k).2 = true) :
    s.digitLedWord = false ∧ (isLetterVk k.vk = true ∨ s.HasEngineBuffer = true) := by
  unfold wantTypingKey at h
  dsimp only at h
  split at h
  · cases h
  · cases h
  · cases h
  · next hdecision =>
    constructor
    · by_contra harmed
      rw [DecideDigitLed, if_pos (by simpa using harmed)] at hdecision
      split at hdecision <;> cases hdecision
    · split_ifs at h with hletter hdigit hback hspace
      · exact .inl hletter
      · exact .inr hdigit.2
      · exact .inr h
      · simp only [Bool.and_eq_true] at h
        exact .inr h.2

/-- What `WantKey` wants without a buffer is a letter. -/
lemma WantKey_true (h : (s.WantKey k).2 = true) :
    s.takesLetters ∧ (isLetterVk k.vk = true ∨ s.HasEngineBuffer = true) := by
  unfold WantKey at h
  split at h
  · cases h
  · next shared hshared =>
    dsimp only at h
    split_ifs at h with habi henabled hactive hmode hmods
    obtain ⟨hled, hkey⟩ := wantTypingKey_true h
    refine ⟨⟨by simpa using habi, hled, shared, hshared, ?_, ?_, ?_⟩, hkey⟩
    · simpa using henabled
    · simpa using hactive
    · simpa using hmode

/-- A key that would type nothing is not wanted. -/
lemma cachedWantKey_typesInto (hbuf : s.HasEngineBuffer = false) (h : (s.cachedWantKey k).2 = true)
    (hsafe : ¬s.typesInto k) :
    ¬(isLetterVk k.vk = true ∨ k.vk = VK_SPACE ∨ k.vk = VK_BACK) := by
  unfold cachedWantKey at h
  unfold typesInto at hsafe
  split at h
  · next hcached =>
    rw [if_pos hcached] at hsafe
    exact fun hkey => hsafe ⟨h, hkey⟩
  · next hcached =>
    rw [if_neg hcached] at hsafe
    dsimp only at h
    rw [Bool.and_eq_true] at h
    obtain ⟨htakes, hletter | hfull⟩ := WantKey_true h.1
    · exact absurd ⟨hletter, htakes⟩ hsafe
    · rw [hbuf] at hfull
      cases hfull

/-- A key that the branches of `HandleKey` pass over. -/
lemma HandleKey_spared (hbuf : s.HasEngineBuffer = false)
    (hkey : ¬(isLetterVk k.vk = true ∨ k.vk = VK_SPACE ∨ k.vk = VK_BACK)) :
    s.HandleKey k = (s, false) := by
  obtain ⟨hletter, hspace, hback⟩ : ¬isLetterVk k.vk = true ∧ k.vk ≠ VK_SPACE ∧ k.vk ≠ VK_BACK := by
    simpa only [not_or] using hkey
  unfold HandleKey
  rw [if_neg hback, if_neg hspace, if_neg hletter, if_neg (by simp [hbuf])]

/-- The same word is buffered. -/
lemma SameWord.hasEngineBuffer (h : SameWord s s') : s'.HasEngineBuffer = s.HasEngineBuffer := by
  rw [HasEngineBuffer, HasEngineBuffer, h.engine]

/-- A typing key that types nothing leaves the composition. -/
lemma keyTyping_spared (hbuf : s.HasEngineBuffer = false) (hsafe : ¬s.typesInto k) :
    (s.keyTyping k).1.composition = s.composition := by
  unfold keyTyping
  extract_lets ch
  rw [if_neg (by simp [hbuf])]
  have hsame : SameWord s (s.cachedWantKey k).1.clearCache :=
    cachedWantKey_sameWord.trans clearCache_sameWord
  have hbuf' : (s.cachedWantKey k).1.clearCache.HasEngineBuffer = false :=
    hsame.hasEngineBuffer.trans hbuf
  have hwant := @cachedWantKey_typesInto _ s k hbuf
  generalize s.cachedWantKey k = cached at hsame hbuf' hwant
  obtain ⟨s₁, wantKey⟩ := cached
  dsimp only at hsame hbuf' hwant ⊢
  split
  · rw [if_neg (by simp [hbuf'])]
    exact hsame.composition
  · next hwanted =>
    rw [HandleKey_spared hbuf' (hwant (not_not.1 hwanted) hsafe)]
    exact hsame.composition

/-- So does Esc when it restores nothing. -/
lemma escRestoreRaw_spared (hbuf : s.HasEngineBuffer = false)
    (hsafe : ¬(k.vk = VK_ESCAPE ∧ s.commitUndoState = .primed)) : s.escRestoreRaw k = (s, false) := by
  unfold escRestoreRaw
  rw [hbuf]
  split
  · next hesc =>
    rw [if_neg Bool.false_ne_true, if_neg fun h => hsafe ⟨hesc.1, h.1⟩]
  · rfl

/-- So does the test of a key that is blocked. -/
lemma OnTestKeyDown_spared (h : s.blocks k = true) :
    (s.OnTestKeyDown k).1.composition = s.composition := by
  have hdoc : SameDocument s s.CheckConfigEvent := CheckConfigEvent_sameDocument
  have hblocked :
      ({ s.CheckConfigEvent with lastPunctChar := '\x00' }.CheckContextBlocked k).contextBlocked =
        true := by
    unfold CheckContextBlocked
    unfold blocks at h
    dsimp only
    rw [hdoc.lastContext]
    split
    · next hsame =>
      rw [if_pos hsame] at h
      exact hdoc.contextBlocked.trans h
    · next hother =>
      rw [if_neg hother] at h
      exact h
  unfold OnTestKeyDown
  dsimp only
  rw [if_pos hblocked]
  exact CheckContextBlocked_sameWord.composition.trans hdoc.composition

/-- So does a key that spares it. -/
lemma OnKeyDown_spared (h : s.Spares (.keyDown k)) : (s.OnKeyDown k).1.composition = s.composition := by
  have hdoc : SameDocument s s.CheckConfigEvent := CheckConfigEvent_sameDocument
  unfold OnKeyDown
  dsimp only
  split
  · exact hdoc.composition
  · next hmods =>
    obtain h | ⟨hempty, htypes, hesc⟩ := h
    · exact absurd h hmods
    · have hbuf : s.CheckConfigEvent.HasEngineBuffer = false := CheckConfigEvent_emptied hempty
      rw [if_neg (by simp [hbuf])]
      rw [← hdoc.commitUndoState] at hesc
      rw [escRestoreRaw_spared hbuf hesc]
      dsimp only
      rw [if_neg Bool.false_ne_true]
      rw [← hdoc.typesInto] at htypes
      exact (keyTyping_spared hbuf htypes).trans hdoc.composition

/-- A callback that spares the composition leaves its text alone. -/
lemma callbackStep_spared {call} (h : s.Spares call) :
    (callbackStep s call).composition = s.composition := by
  cases call with
  | testKeyDown k => exact @OnTestKeyDown_spared _ (s.surround k) k h
  | keyDown k => exact @OnKeyDown_spared _ (s.surround k) k h

end TextService

/-- The interrupted words are the one that is still being composed. -/
def PublicationRun.Live (r : PublicationRun) : Prop :=
  ∀ word ∈ r.interrupted, r.service.composition = some word.1

/-- What every sparing event preserves. -/
lemma PublicationRun.Live.step {r : PublicationRun} {e} (h : r.Live) (ok : SparesInterrupted r e) :
    (publicationStep r e).Live := by
  cases e with
  | call call =>
    intro word hword
    have hspares : r.service.Spares call := ok (List.ne_nil_of_mem hword)
    exact (TextService.callbackStep_spared hspares).trans (h word hword)
  | publish state =>
    intro word hword
    obtain hnew | hold := List.mem_append.1 hword
    · obtain ⟨text, htext, rfl⟩ := List.mem_map.1 hnew
      exact Option.mem_toList.1 htext
    · exact h word hold

omit [WideLocale] in
/-- A live composition is kept. -/
lemma PublicationRun.Live.kept {r : PublicationRun} (h : r.Live) : r.Kept := by
  intro word hword
  left
  rw [TextService.document, h word hword]
  exact ⟨r.service.before, r.service.after, rfl⟩

/-- When the callbacks after a publication in the middle of a word all spare the composition, every
    interrupted word stays in the document. -/
theorem interrupted_kept {s : TextService} {events : List TsfEvent}
    (ok : Machine.Guarded publicationStep SparesInterrupted ⟨s, []⟩ events) {es} (hes : es <+: events) :
    (Machine.run publicationStep ⟨s, []⟩ es).Kept := by
  obtain ⟨rest, rfl⟩ := hes
  have hlive : (Machine.run publicationStep ⟨s, []⟩ es).Live := by
    refine ok.left.invariant ?_ fun h ok => h.step ok
    intro word hword
    cases hword
  exact hlive.kept

end Locale

section Ascii
attribute [local instance] WideLocale.ascii

/-- The keys of `tes`, and a publication. -/
def interruptedTes : List TsfEvent :=
  (keyPair { vk := 0x54 } ++ keyPair { vk := 0x45 } ++ keyPair { vk := 0x53 }).map .call ++
    [.publish tsfDefaults]

/-- After `té` has been interrupted, `Ctrl` with a key leaves it in the document. -/
theorem interrupted_kept_ctrl :
    let r := Machine.run publicationStep ⟨TextService.create (some tsfDefaults), []⟩
      (interruptedTes ++ [.call (.keyDown { vk := 0x53, ctrl := true })])
    r.interrupted = [(['t', 'é'], ['t', 'e', 's'])] ∧ r.Kept := by
  refine ⟨by decide +kernel, interrupted_kept ?_ (List.prefix_refl _)⟩
  have quiet : ∀ {r : PublicationRun} {e}, r.interrupted = [] → SparesInterrupted r e := by
    intro r e hnone
    cases e with
    | call call => exact fun hsome => absurd hnone hsome
    | publish state => trivial
  exact ⟨quiet rfl, quiet rfl, quiet rfl, quiet rfl, quiet rfl, quiet rfl, trivial, fun _ =>
    .inl rfl, trivial⟩

/-- After `té` has been interrupted, the next letter deletes it from the document. -/
theorem word_deleted :
    let r := Machine.run publicationStep ⟨TextService.create (some tsfDefaults), []⟩
      (interruptedTes ++ (keyPair { vk := 0x54 }).map .call)
    r.interrupted = [(['t', 'é'], ['t', 'e', 's'])] ∧ r.service.document = ['t'] ∧ ¬r.Kept := by
  refine ⟨by decide +kernel, by decide +kernel, ?_⟩
  intro hkept
  have hword := hkept (['t', 'é'], ['t', 'e', 's']) (by decide +kernel)
  revert hword
  decide +kernel

end Ascii

end NextKey
