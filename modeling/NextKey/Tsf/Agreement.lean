import NextKey.Engine.Emptied
import NextKey.Lib.Machine
import NextKey.Tsf.KeyEventSink

/-!
# Engine and composition agree

The engine of the text service and the composition in the document are two states that every branch
of `OnTestKeyDown` and `OnKeyDown` moves together. While the shared state stays what it is, the
engine has a buffer just when a composition is there, and the composition shows the text of the
buffer (`agreement_run`). Each callback keeps this alone, so it does not matter in which order the
host calls them, nor whether the modifier keys change between the two callbacks of a key.

`Ended` says what every way to end a composition does, and `reviveSession_synced` and
`pushLetter_synced` what the two ways to begin one do.
-/

namespace NextKey

section Locale
variable [WideLocale]

namespace TextService

/-- Engine and composition agree. -/
structure Agrees (s : TextService) : Prop where
  buffer : 0 < s.engine.count ↔ s.IsComposing = true
  text : ∀ text, s.composition = some text → text = s.engine.peek

/-- No word is being typed. -/
structure Idle (s : TextService) : Prop where
  engine : s.engine.count = 0
  composition : s.composition = none
  revive : s.pendingRevive = none

/-- `CheckConfigEvent` has nothing new to apply. -/
def Noticed (s : TextService) : Prop :=
  ∀ shared, s.shared = some shared → shared.readEpochNow = s.lastEpoch ∨ ¬shared.readNow.IsValid

/-- A pending word seeds the engine. -/
def Revivable (s : TextService) : Prop :=
  ∀ word, s.pendingRevive = some word →
    word ≠ [] ∧ (EngineState.seedFromText s.config.toTypingConfig word).2

/-- The invariant between two steps of a callback. -/
structure Synced (s : TextService) : Prop where
  agrees : s.Agrees
  noticed : s.Noticed
  revivable : s.Revivable

/-- What no key changes. -/
structure SameFrame (s s' : TextService) : Prop where
  shared : s'.shared = s.shared
  lastEpoch : s'.lastEpoch = s.lastEpoch
  pendingRevive : s'.pendingRevive = s.pendingRevive

/-- Nothing about the word changes. -/
structure SameWord (s s' : TextService) : Prop extends SameFrame s s' where
  engine : s'.engine = s.engine
  composition : s'.composition = s.composition

/-- Engine and composition are empty afterwards. -/
structure Ended (s s' : TextService) : Prop extends SameFrame s s' where
  engine : s'.engine = {}
  composition : s'.composition = none

variable {s s' s'' : TextService} {k : KeyInput}

omit [WideLocale] in
/-- Nothing has happened. -/
lemma SameFrame.refl : SameFrame s s := ⟨rfl, rfl, rfl⟩

omit [WideLocale] in
/-- One after the other. -/
lemma SameFrame.trans (h : SameFrame s s') (h' : SameFrame s' s'') : SameFrame s s'' :=
  ⟨h'.shared.trans h.shared, h'.lastEpoch.trans h.lastEpoch, h'.pendingRevive.trans h.pendingRevive⟩

omit [WideLocale] in
/-- What was noticed is still noticed. -/
lemma SameFrame.noticed (h : SameFrame s s') (hn : s.Noticed) : s'.Noticed := by
  intro shared hshared
  rw [h.shared] at hshared
  rw [h.lastEpoch]
  exact hn shared hshared

/-- What could be revived still can. -/
lemma SameFrame.revivable (h : SameFrame s s') (hr : s.Revivable) : s'.Revivable := by
  intro word hword
  rw [h.pendingRevive] at hword
  obtain ⟨hne, hseed⟩ := hr word hword
  refine ⟨hne, ?_⟩
  rwa [EngineState.seedFromText_snd_congr]

/-- In the same frame an agreement of engine and document is all that is asked. -/
lemma SameFrame.synced (h : SameFrame s s') (hs : s.Synced) (ha : s'.Agrees) : s'.Synced :=
  ⟨ha, h.noticed hs.noticed, h.revivable hs.revivable⟩

omit [WideLocale] in
/-- Nothing has happened. -/
lemma SameWord.refl : SameWord s s := ⟨.refl, rfl, rfl⟩

omit [WideLocale] in
/-- One after the other. -/
lemma SameWord.trans (h : SameWord s s') (h' : SameWord s' s'') : SameWord s s'' :=
  ⟨h.toSameFrame.trans h'.toSameFrame, h'.engine.trans h.engine, h'.composition.trans h.composition⟩

/-- The same word agrees as before. -/
lemma SameWord.agrees (h : SameWord s s') (ha : s.Agrees) : s'.Agrees := by
  constructor
  · rw [IsComposing, h.engine, h.composition]
    exact ha.buffer
  · rw [h.engine, h.composition]
    exact ha.text

/-- The same word is in step as before. -/
lemma SameWord.synced (h : SameWord s s') (hs : s.Synced) : s'.Synced :=
  h.toSameFrame.synced hs (h.agrees hs.agrees)

/-- A state without a word agrees. -/
lemma agrees_of_empty (hcount : s.engine.count = 0) (hcomp : s.composition = none) : s.Agrees := by
  constructor
  · simp [IsComposing, hcount, hcomp]
  · intro text htext
    rw [hcomp] at htext
    cases htext

/-- Without a word the two agree. -/
lemma Ended.agrees (h : Ended s s') : s'.Agrees :=
  agrees_of_empty (by rw [h.engine]; rfl) h.composition

/-- Without a word the service is in step. -/
lemma Ended.synced (h : Ended s s') (hs : s.Synced) : s'.Synced := h.toSameFrame.synced hs h.agrees

omit [WideLocale] in
/-- What comes after the end touches no word. -/
lemma Ended.trans_sameWord (h : Ended s s') (h' : SameWord s' s'') : Ended s s'' :=
  ⟨h.toSameFrame.trans h'.toSameFrame, h'.engine.trans h.engine, h'.composition.trans h.composition⟩

/-- The engine has a buffer when it counts letters. -/
lemma hasEngineBuffer_eq : s.HasEngineBuffer = true ↔ 0 < s.engine.count := by simp [HasEngineBuffer]

omit [WideLocale] in
/-- A buffer with letters is counted. -/
lemma count_pos {st : EngineState} (h : st.states ≠ []) : 0 < st.count := List.length_pos_iff.2 h

/-- To ask for a typing key changes no word. -/
lemma wantTypingKey_sameWord : SameWord s (s.wantTypingKey k).1 := by
  unfold wantTypingKey
  dsimp only
  split
  · exact ⟨⟨rfl, rfl, rfl⟩, rfl, rfl⟩
  · exact .refl
  · exact ⟨⟨rfl, rfl, rfl⟩, rfl, rfl⟩
  · split_ifs <;> exact .refl

/-- To ask for a key changes no word. -/
lemma WantKey_sameWord : SameWord s (s.WantKey k).1 := by
  unfold WantKey
  split
  · exact .refl
  · dsimp only
    split_ifs
    case neg =>
      obtain ⟨⟨h₁, h₂, h₃⟩, h₄, h₅⟩ :=
        @wantTypingKey_sameWord _ { s with tsfActive := _, vietnameseMode := _ } k
      exact ⟨⟨h₁, h₂, h₃⟩, h₄, h₅⟩
    all_goals exact ⟨⟨rfl, rfl, rfl⟩, rfl, rfl⟩

omit [WideLocale] in
/-- To reset the undo changes no word. -/
lemma ResetCommitUndo_sameWord : SameWord s s.ResetCommitUndo := by
  unfold ResetCommitUndo
  split <;> exact ⟨⟨rfl, rfl, rfl⟩, rfl, rfl⟩

omit [WideLocale] in
/-- To record a commit changes no word. -/
lemma RecordCommitSnapshot_sameWord {text raw trailing} :
    SameWord s (s.RecordCommitSnapshot k text raw trailing) := by
  unfold RecordCommitSnapshot
  split <;> exact ⟨⟨rfl, rfl, rfl⟩, rfl, rfl⟩

omit [WideLocale] in
/-- To look at the context changes no word. -/
lemma CheckContextBlocked_sameWord : SameWord s (s.CheckContextBlocked k) := by
  unfold CheckContextBlocked
  split <;> exact ⟨⟨rfl, rfl, rfl⟩, rfl, rfl⟩

omit [WideLocale] in
/-- To keep the answer of the test changes no word. -/
lemma cacheResult_sameWord {wantKey} : SameWord s (s.cacheResult k wantKey) :=
  ⟨⟨rfl, rfl, rfl⟩, rfl, rfl⟩

omit [WideLocale] in
/-- To drop the answer of the test changes no word. -/
lemma clearCache_sameWord : SameWord s s.clearCache := ⟨⟨rfl, rfl, rfl⟩, rfl, rfl⟩

/-- To use the answer of the test changes no word. -/
lemma cachedWantKey_sameWord : SameWord s (s.cachedWantKey k).1 := by
  unfold cachedWantKey
  split
  · exact .refl
  · exact WantKey_sameWord

omit [WideLocale] in
/-- To restore the last commit in the document changes no word that is being typed. -/
lemma EscRestoreLastCommitSession_sameWord {body raw} (hcomp : s.composition = none) :
    SameWord s (s.EscRestoreLastCommitSession body raw) := by
  unfold EscRestoreLastCommitSession
  rw [hcomp]
  split_ifs
  · exact .refl
  · exact .refl
  · exact ⟨⟨rfl, rfl, rfl⟩, rfl, hcomp.symm⟩

omit [WideLocale] in
/-- The raw keys of the last commit replace committed text. -/
lemma TryRestoreLastCommitRaw_sameWord (hcomp : s.composition = none) :
    SameWord s (s.TryRestoreLastCommitRaw k).1 := by
  unfold TryRestoreLastCommitRaw
  split
  · exact .refl
  · split
    · exact ResetCommitUndo_sameWord
    · split
      · exact ResetCommitUndo_sameWord
      · exact (EscRestoreLastCommitSession_sameWord hcomp).trans ResetCommitUndo_sameWord

omit [WideLocale] in
/-- A commit ends the composition. -/
lemma CommitEditSession_composition {text} : (s.CommitEditSession text).composition = none := by
  unfold CommitEditSession
  split
  · rfl
  · next h => simpa [IsComposing] using h

omit [WideLocale] in
/-- A commit stays in the frame. -/
lemma CommitEditSession_sameFrame {text} : SameFrame s (s.CommitEditSession text) := by
  unfold CommitEditSession
  split <;> exact ⟨rfl, rfl, rfl⟩

omit [WideLocale] in
/-- The session of a commit leaves the engine alone. -/
lemma CommitEditSession_engine {text} : (s.CommitEditSession text).engine = s.engine := by
  unfold CommitEditSession
  split <;> rfl

omit [WideLocale] in
/-- What the three ways to commit have in common. -/
lemma CommitEditSession_ended {text} :
    Ended s { s.CommitEditSession text with engine := {}, digitLedWord := false } := by
  obtain ⟨h₁, h₂, h₃⟩ : SameFrame s (s.CommitEditSession text) := CommitEditSession_sameFrame
  exact ⟨⟨h₁, h₂, h₃⟩, rfl, CommitEditSession_composition⟩

/-- A commit ends the word. -/
lemma Commit_ended : Ended s (s.Commit k) :=
  CommitEditSession_ended.trans_sameWord RecordCommitSnapshot_sameWord

/-- So does one with a character. -/
lemma CommitWithChar_ended {ch} : Ended s (s.CommitWithChar k ch) :=
  CommitEditSession_ended.trans_sameWord RecordCommitSnapshot_sameWord

omit [WideLocale] in
/-- So does one of the raw keys. -/
lemma CommitRawAndEnd_ended (h : s.CommitRawAndEnd = some s') : Ended s s' := by
  unfold CommitRawAndEnd at h
  dsimp only at h
  split at h
  · cases h
  · cases h
    exact CommitEditSession_ended

omit [WideLocale] in
/-- So does a reset. -/
lemma Reset_ended : Ended s s.Reset := ⟨⟨rfl, rfl, rfl⟩, rfl, rfl⟩

omit [WideLocale] in
/-- The composition shows the text, and was started if there was none. -/
lemma UpdateCompositionEditSession_spec {text} :
    SameFrame s (s.UpdateCompositionEditSession text) ∧
      (s.UpdateCompositionEditSession text).engine = s.engine ∧
      (s.UpdateCompositionEditSession text).composition = some text := by
  unfold UpdateCompositionEditSession
  split
  · next h =>
    obtain ⟨old, hold⟩ := Option.isSome_iff_exists.1 h
    exact ⟨⟨rfl, rfl, rfl⟩, rfl, by simp [SetCompositionText, hold]⟩
  · exact ⟨⟨rfl, rfl, rfl⟩, rfl, rfl⟩

omit [WideLocale] in
/-- A composition that is started shows its text and leaves the engine alone. -/
lemma StartCompositionEditSession_spec {text} :
    SameFrame s (s.StartCompositionEditSession text) ∧
      (s.StartCompositionEditSession text).engine = s.engine ∧
      (s.StartCompositionEditSession text).composition = some text := by
  unfold StartCompositionEditSession
  split
  · exact ⟨⟨rfl, rfl, rfl⟩, rfl, rfl⟩
  · next h =>
    obtain rfl : text = [] := by simpa using h
    exact ⟨⟨rfl, rfl, rfl⟩, rfl, rfl⟩

/-- A buffer whose text the composition shows. -/
lemma agrees_of_shown (hcount : 0 < s.engine.count) (hcomp : s.composition = some s.engine.peek) :
    s.Agrees := by
  constructor
  · simp [IsComposing, hcount, hcomp]
  · intro text htext
    rw [hcomp] at htext
    exact (Option.some.inj htext).symm

/-- A word that seeds the engine is revived in step. -/
lemma reviveSession_synced {word key} (hs : s.Synced) (hne : word ≠ [])
    (hseed : (EngineState.seedFromText s.config.toTypingConfig word).2) :
    (s.reviveSession word key).Synced := by
  unfold reviveSession
  rw [if_neg hne]
  simp only [hseed, not_true_eq_false, if_false]
  split
  · next hzero =>
    -- the key has emptied the engine
    exact SameFrame.synced (s := s) ⟨rfl, rfl, rfl⟩ hs (agrees_of_empty hzero rfl)
  · next hpos =>
    exact SameFrame.synced (s := s) ⟨rfl, rfl, rfl⟩ hs (agrees_of_shown (Nat.pos_of_ne_zero hpos) rfl)

/-- So it is when a character is typed with it. -/
lemma ReviveAndTypeEditSession_synced {word ch} (hs : s.Synced) (hne : word ≠ [])
    (hseed : (EngineState.seedFromText s.config.toTypingConfig word).2) :
    (s.ReviveAndTypeEditSession word ch).Synced := by
  unfold ReviveAndTypeEditSession
  exact reviveSession_synced hs hne hseed

/-- The engine gets a buffer and the composition its text. -/
lemma UpdateCompositionEditSession_synced {st} (hs : s.Synced) (hpos : 0 < st.count) :
    ({ s with engine := st }.UpdateCompositionEditSession st.peek).Synced := by
  obtain ⟨⟨h₁, h₂, h₃⟩, hengine, hcomp⟩ :=
    @UpdateCompositionEditSession_spec { s with engine := st } st.peek
  refine SameFrame.synced (s := s) ⟨h₁, h₂, h₃⟩ hs (agrees_of_shown ?_ ?_)
  · rw [hengine]
    exact hpos
  · rw [hengine]
    exact hcomp

/-- The first letters of a word start a composition in step. -/
lemma StartCompositionEditSession_synced {st} (hs : s.Synced) (hpos : 0 < st.count) :
    ({ s with engine := st }.StartCompositionEditSession st.peek).Synced := by
  obtain ⟨⟨h₁, h₂, h₃⟩, hengine, hcomp⟩ :=
    @StartCompositionEditSession_spec { s with engine := st } st.peek
  refine SameFrame.synced (s := s) ⟨h₁, h₂, h₃⟩ hs (agrees_of_shown ?_ ?_)
  · rw [hengine]
    exact hpos
  · rw [hengine]
    exact hcomp

/-- A letter keeps the two in step. -/
lemma pushLetter_synced {ch} (hs : s.Synced) : (s.pushLetter ch).1.Synced := by
  have hpos : 0 < (s.engine.pushChar s.config.toTypingConfig ch).count :=
    count_pos EngineState.pushChar_ne_nil
  unfold pushLetter
  dsimp only
  split
  · have hstarted := StartCompositionEditSession_synced hs hpos
    split
    · next hnot => exact absurd (hstarted.agrees.buffer.1 (by
        rw [StartCompositionEditSession_spec.2.1]
        exact hpos)) hnot
    · exact hstarted
  · exact UpdateCompositionEditSession_synced hs hpos

/-- So does Backspace. -/
lemma ProcessBackspace_synced (hs : s.Synced) : s.ProcessBackspace.Synced := by
  unfold ProcessBackspace
  dsimp only
  split
  · next hbuf => exact UpdateCompositionEditSession_synced hs (hasEngineBuffer_eq.1 hbuf)
  · next hbuf =>
    obtain ⟨h₁, h₂, h₃⟩ :=
      @CommitEditSession_sameFrame { s with engine := s.engine.backspace s.config.toTypingConfig } []
    refine SameFrame.synced (s := s) ⟨h₁, h₂, h₃⟩ hs (agrees_of_empty ?_ CommitEditSession_composition)
    rw [CommitEditSession_engine]
    rw [hasEngineBuffer_eq] at hbuf
    exact Nat.eq_zero_of_not_pos hbuf

/-- A letter takes the word before the caret back into a composition, or begins or continues one. -/
lemma handleLetter_synced (hs : s.Synced) : (s.handleLetter k).1.Synced := by
  unfold handleLetter
  dsimp only
  split
  · split
    · next hword =>
      obtain ⟨hne, hrevive⟩ := hword
      simp only [EngineState.canRevive, Bool.and_eq_true] at hrevive
      exact ReviveAndTypeEditSession_synced hs hne hrevive.1
    · exact pushLetter_synced hs
  · exact pushLetter_synced hs

/-- So does a digit in a word. -/
lemma handleDigit_synced (hs : s.Synced) (hbuf : s.HasEngineBuffer) :
    (s.handleDigit k).1.Synced := by
  have hcomp : s.IsComposing = true := hs.agrees.buffer.1 (hasEngineBuffer_eq.1 hbuf)
  unfold handleDigit
  dsimp only
  split
  · exact UpdateCompositionEditSession_synced hs (count_pos EngineState.pushChar_ne_nil)
  · next hnot => exact absurd hcomp hnot

/-- So does every key that is handled. -/
lemma HandleKey_synced (hs : s.Synced) : (s.HandleKey k).1.Synced := by
  unfold HandleKey
  split
  · split
    · next word hword =>
      -- a word that was left pending over other keys is taken back all the same
      obtain ⟨hne, hseed⟩ := hs.revivable word hword
      have hsync : (s.ReviveCompositionEditSession word).Synced := reviveSession_synced hs hne hseed
      exact ⟨⟨hsync.agrees.buffer, hsync.agrees.text⟩, hsync.noticed, nofun⟩
    · exact ProcessBackspace_synced hs
  · split
    · exact CommitWithChar_ended.synced hs
    · split
      · exact handleLetter_synced hs
      · split
        · next hdigit => exact handleDigit_synced hs hdigit.2
        · exact hs

/-- So does the resynchronization. -/
lemma resync_synced (hs : s.Synced) : (s.resync k).Synced := by
  unfold resync
  split
  · exact Reset_ended.synced hs
  · split
    · exact Commit_ended.synced hs
    · exact hs

/-- So does Esc. -/
lemma escRestoreRaw_synced (hs : s.Synced) : (s.escRestoreRaw k).1.Synced := by
  unfold escRestoreRaw
  split
  · split
    · split
      · next h => exact (CommitRawAndEnd_ended h).synced hs
      · exact hs
    · next hempty =>
      split
      · have hcomp : s.composition = none := by
          rw [hasEngineBuffer_eq, hs.agrees.buffer] at hempty
          simpa [IsComposing] using hempty
        exact (TryRestoreLastCommitRaw_sameWord hcomp).synced hs
      · exact hs
  · exact hs

/-- So does the preparation of a revival. -/
lemma PrepareBackspaceRevive_synced (hs : s.Synced) : (s.PrepareBackspaceRevive k).1.Synced := by
  have hnone : Synced { s with pendingRevive := none } :=
    ⟨⟨hs.agrees.buffer, hs.agrees.text⟩, hs.noticed, nofun⟩
  unfold PrepareBackspaceRevive
  dsimp only
  split
  · exact hnone
  · split
    · exact hnone
    · split
      · exact hnone
      · split
        · exact hnone
        · split
          · exact hnone
          · next hword =>
            refine ⟨⟨hs.agrees.buffer, hs.agrees.text⟩, hs.noticed, ?_⟩
            intro word hpending
            cases hpending
            simp only [not_or, not_not, EngineState.canRevive, Bool.and_eq_true] at hword
            exact ⟨hword.1, hword.2.1⟩

/-- So does the test of a key that is wanted. -/
lemma testWanted_synced {wantKey} (hs : s.Synced) : (s.testWanted k wantKey).1.Synced := by
  have finish : ∀ {s wantKey}, Synced s →
      (if ¬wantKey = true ∧ (s.cacheResult k wantKey).HasEngineBuffer = true then
        ((s.cacheResult k wantKey).Commit k, false) else
          (s.cacheResult k wantKey, wantKey)).1.Synced := by
    intro s wantKey hs
    have hcached : (s.cacheResult k wantKey).Synced := cacheResult_sameWord.synced hs
    split
    · exact Commit_ended.synced hcached
    · exact hcached
  unfold testWanted
  dsimp only
  split
  · exact SameWord.synced (s := s) ⟨⟨rfl, rfl, rfl⟩, rfl, rfl⟩ hs
  · have hreset : Synced
        (if (decide (k.vk = VK_BACK) && !s.HasEngineBuffer) = true ∧ s.commitUndoState = .primed then
          s.ResetCommitUndo else s) := by
      split
      · exact ResetCommitUndo_sameWord.synced hs
      · exact hs
    apply finish
    split
    · exact PrepareBackspaceRevive_synced hreset
    · exact hreset

/-- So does the test of a typing key. -/
lemma testTyping_synced (hs : s.Synced) : (s.testTyping k).1.Synced := by
  unfold testTyping
  split
  · exact SameWord.synced (s := s) ⟨⟨rfl, rfl, rfl⟩, rfl, rfl⟩ hs
  · exact testWanted_synced (WantKey_sameWord.synced hs)

omit [WideLocale] in
/-- What `Read` returns when it is valid is the shared state. -/
lemma readNow_eq {shared : SharedState} (hvalid : shared.readNow.IsValid) :
    shared.readNow = shared ∧ shared .magic = SharedState.MAGIC_VALUE := by
  unfold SharedState.readNow at hvalid ⊢
  split at hvalid
  · next h => exact ⟨if_pos h, h.1⟩
  · exact absurd hvalid.1 (by decide)

/-- `CheckConfigEvent` applies what there is to apply; a word that is being typed must not have missed a
    publication. -/
lemma CheckConfigEvent_synced (ha : s.Agrees) (hr : s.Revivable)
    (hn : s.Noticed ∨ s.composition = none) : s.CheckConfigEvent.Synced := by
  unfold CheckConfigEvent
  split
  · next hnone =>
    refine ⟨ha, ?_, hr⟩
    intro shared hshared
    rw [hnone] at hshared
    cases hshared
  · next shared hshared =>
    split
    · next hepoch =>
      refine ⟨ha, ?_, hr⟩
      intro shared' hshared'
      cases hshared.symm.trans hshared'
      exact .inl hepoch
    · next hepoch =>
      split
      · next hvalid =>
        refine ⟨ha, ?_, hr⟩
        intro shared' hshared'
        cases hshared.symm.trans hshared'
        exact .inr hvalid
      · next hvalid =>
        have hcomp : s.composition = none := by
          obtain hn | hn := hn
          · obtain h | h := hn shared hshared
            · exact absurd h hepoch
            · exact absurd h hvalid
          · exact hn
        obtain ⟨hread, hmagic⟩ := readNow_eq (not_not.1 hvalid)
        refine ⟨agrees_of_empty rfl hcomp, ?_, ?_⟩
        · intro shared' hshared'
          cases hshared.symm.trans hshared'
          left
          show shared.readEpochNow = shared.readNow .epoch
          rw [hread, SharedState.readEpochNow, if_pos hmagic]
        · intro word hword
          obtain ⟨hne, hseed⟩ := hr word hword
          refine ⟨hne, ?_⟩
          rwa [EngineState.seedFromText_snd_congr]

/-- From `CheckConfigEvent` on, every branch of the test phase keeps the invariant. -/
lemma OnTestKeyDown_synced (hs : s.CheckConfigEvent.Synced) : (s.OnTestKeyDown k).1.Synced := by
  have hchecked :
      ({ s.CheckConfigEvent with lastPunctChar := '\x00' }.CheckContextBlocked k).Synced := by
    apply CheckContextBlocked_sameWord.synced
    exact SameWord.synced (s := s.CheckConfigEvent) ⟨⟨rfl, rfl, rfl⟩, rfl, rfl⟩ hs
  unfold OnTestKeyDown
  generalize { s.CheckConfigEvent with lastPunctChar := '\x00' }.CheckContextBlocked k = s₁ at hchecked
  dsimp only
  split
  · exact hchecked
  · split
    · exact cacheResult_sameWord.synced (Commit_ended.synced hchecked)
    · have hreset : Synced
          (if k.vk ≠ VK_BACK ∧ k.vk ≠ VK_ESCAPE then s₁.ResetCommitUndo else s₁) := by
        split
        · exact ResetCommitUndo_sameWord.synced hchecked
        · exact hchecked
      have hresync := @resync_synced _ _ k hreset
      generalize (if k.vk ≠ VK_BACK ∧ k.vk ≠ VK_ESCAPE then s₁.ResetCommitUndo else s₁).resync k = s₂
        at hresync
      split
      · split
        · exact Commit_ended.synced hresync
        · exact hresync
      · split
        · exact escRestoreRaw_synced hresync
        · exact testTyping_synced (escRestoreRaw_synced hresync)

/-- So does a typing key. -/
lemma keyTyping_synced (hs : s.Synced) : (s.keyTyping k).1.Synced := by
  unfold keyTyping
  extract_lets ch
  generalize hcached : s.cachedWantKey k = cached
  obtain ⟨s₁, wantKey⟩ := cached
  dsimp only
  split
  · exact clearCache_sameWord.synced (CommitWithChar_ended.synced hs)
  · have hsame : SameWord s s₁ := by
      have h := @cachedWantKey_sameWord _ s k
      rwa [hcached] at h
    have hcleared : s₁.clearCache.Synced := clearCache_sameWord.synced (hsame.synced hs)
    split
    · split
      · exact Commit_ended.synced hcleared
      · exact hcleared
    · exact HandleKey_synced hcleared

/-- From `CheckConfigEvent` on, every branch of the key phase keeps the invariant. -/
lemma OnKeyDown_synced (hs : s.CheckConfigEvent.Synced) : (s.OnKeyDown k).1.Synced := by
  unfold OnKeyDown
  dsimp only
  split
  · exact hs
  · split
    · exact clearCache_sameWord.synced (Commit_ended.synced hs)
    · split
      · exact escRestoreRaw_synced hs
      · exact keyTyping_synced (escRestoreRaw_synced hs)

/-- Every callback of the host keeps the two in step. -/
lemma callbackStep_synced {call} (ha : s.Agrees) (hr : s.Revivable)
    (hn : s.Noticed ∨ s.composition = none) : (callbackStep s call).Synced := by
  have hchecked : ∀ k, (s.surround k).CheckConfigEvent.Synced := fun _ =>
    CheckConfigEvent_synced ⟨ha.buffer, ha.text⟩ hr hn
  cases call with
  | testKeyDown k => exact OnTestKeyDown_synced (hchecked k)
  | keyDown k => exact OnKeyDown_synced (hchecked k)

/-- A run of callbacks keeps the invariant. -/
lemma Synced.run (hs : s.Synced) {calls : List Callback} :
    (Machine.run callbackStep s calls).Synced :=
  Machine.run_invariant hs fun hs => callbackStep_synced hs.agrees hs.revivable (.inl hs.noticed)

omit [WideLocale] in
/-- A new service is idle. -/
lemma create_idle {shared} : (create shared).Idle := by
  unfold create
  dsimp only
  split
  · exact ⟨rfl, rfl, rfl⟩
  · split_ifs <;> exact ⟨rfl, rfl, rfl⟩

end TextService

open TextService in
/-- From any state in which no word is being typed, after any callbacks the engine has a buffer just
when a composition is there, and then the composition shows the text of the buffer. -/
theorem agreement_run {s : TextService} (idle : s.Idle) (calls : List Callback) :
    (0 < (Machine.run callbackStep s calls).engine.count ↔
        (Machine.run callbackStep s calls).IsComposing = true) ∧
      ∀ text, (Machine.run callbackStep s calls).composition = some text →
        text = (Machine.run callbackStep s calls).engine.peek := by
  have hagrees : (Machine.run callbackStep s calls).Agrees := by
    cases calls with
    | nil => exact agrees_of_empty idle.engine idle.composition
    | cons call calls =>
      have hfirst : (callbackStep s call).Synced := by
        refine callbackStep_synced (agrees_of_empty idle.engine idle.composition) ?_ ?_
        · intro word hword
          rw [idle.revive] at hword
          cases hword
        · exact .inr idle.composition
      exact hfirst.run.agrees
  exact ⟨hagrees.buffer, hagrees.text⟩

/-- The shared state after `Create`, with the foreground app in the TSF list. -/
def tsfDefaults : SharedState
  | .flags => 0x000B
  | f => SharedState.InitDefaults f

/-- The callbacks of a key, in the order of most hosts. -/
def keyPair (k : KeyInput) : List Callback := [.testKeyDown k, .keyDown k]

end Locale

section Ascii
attribute [local instance] WideLocale.ascii

open TextService in
/-- Typing `tes` composes `té`. -/
theorem agreement_run_tes :
    let calls := keyPair { vk := 0x54 } ++ keyPair { vk := 0x45 } ++ keyPair { vk := 0x53 }
    let s := Machine.run callbackStep (create (some tsfDefaults)) calls
    s.composition = some ['t', 'é'] ∧ (0 < s.engine.count ↔ s.IsComposing = true) ∧
      ∀ text, s.composition = some text → text = s.engine.peek :=
  ⟨by decide +kernel, agreement_run create_idle _⟩

end Ascii

end NextKey
