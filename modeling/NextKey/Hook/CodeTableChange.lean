import NextKey.Hook.AlphaKey
import NextKey.Hook.EncodedWord
import NextKey.Hook.KeyDown

/-!
# A change of the code table inside a word

Model of `HandleAlphaKey` and `HandleBackspace` in `app/system/HookEngine.cpp` for every code table, in
Vietnamese mode and with an input target. `QuickSyncFromSharedState` and `ReloadFromToml` store another
code table whatever is being composed. What is on screen is followed apart, character by character,
with the units each one was written in.
-/

namespace NextKey

open CodeTableConverter

/-- The fields of `HookEngine` behind a key. -/
structure HookWord extends EncodedWord where
  engine : EngineState
  autoCapState : AutoCapState
  currentCodeTable : CodeTable

/-- What becomes of a key. -/
inductive KeyResult where
  /-- It reaches the window. -/
  | passed
  /-- `ReplaceComposition` is called on a word and sends an edit. -/
  | replaced (word : EncodedWord) (composition : WString) (edit : Option Edit)
  /-- `SendBackspaces` -/
  | erased (bsCount : Nat)

section Locale

variable [WideLocale]

/-- The composition is the previous one followed by the letter. -/
def appendsUnit (previousComposition composition : WString) (letter : UInt16) : Bool :=
  composition.length == previousComposition.length + 1 && composition.getLast? == some letter &&
    composition.take previousComposition.length == previousComposition

namespace HookWord

/-- `DispatchCoordinator` in Vietnamese mode: `ReplaceComposition` -/
def replace (st : HookWord) (composition : WString) (reinjectVk : Option Nat) : HookWord × KeyResult :=
  let (edit, word) := st.ReplaceComposition true st.currentCodeTable composition reinjectVk
  ({ st with toEncodedWord := word }, .replaced st.toEncodedWord composition edit)

/-- The first letter of a word clears what is left of a previous one. -/
def clearStale (st : HookWord) : HookWord :=
  if st.engine.count = 0 ∧ st.previousComposition ≠ [] then { st with toEncodedWord := {} } else st

/-- C++ `HandleAlphaKey`, up to the `Peek`: the letter that was pushed differs from the key's when
it was capitalized. -/
def pushLetter (context : TypingContext) (st : HookWord) (letter : Char) : HookWord × Bool :=
  let (ch, autoCapState) := autoCapitalize context ⟨st.engine, [], st.autoCapState, []⟩ letter
  ({ st.clearStale with engine := st.engine.pushChar context.config ch, autoCapState }, ch != letter)

/-- C++ `HandleAlphaKey`, behind the `Peek`. -/
def outputLetter (d : OutputDispatcher) (st : HookWord) (vkCode : Nat) (letter : UInt16)
    (autoCapped : Bool) : HookWord × KeyResult :=
  let composition := wide st.engine.peek
  let simple := appendsUnit st.previousComposition composition letter
  if st.currentCodeTable = .Unicode ∧ mayPassThrough d autoCapped ∧ simple then
    ({ st with previousComposition := composition }, .passed)
  else if ¬simple ∧ st.currentCodeTable = .Unicode ∧ mayReinject d autoCapped then
    replace { st with previousComposition := st.previousComposition ++ [letter] } composition
      (some vkCode)
  else replace st composition none

/-- C++ `HandleAlphaKey` -/
def HandleAlphaKey (context : TypingContext) (d : OutputDispatcher) (st : HookWord) (vkCode : Nat)
    (shift capsLock : Bool) : HookWord × KeyResult :=
  let letter := originalCh vkCode shift capsLock
  let (st, autoCapped) := pushLetter context st letter
  outputLetter d st vkCode (.ofNat letter.toNat) autoCapped

/-- C++ `HandleBackspace` -/
def HandleBackspace (config : TypingConfig) (st : HookWord) : HookWord × KeyResult :=
  let st := { st with engine := st.engine.backspace config }
  if st.engine.count > 0 then replace st (wide st.engine.peek) none
  else if st.previousComposition ≠ [] then
    let bsCount := if st.currentCodeTable ≠ .Unicode then st.previousEncodedWidths.sum
      else st.previousComposition.length
    ({ st with toEncodedWord := {} }, .erased bsCount)
  else (st, .erased 0)

end HookWord

end Locale

/-- The current word on screen, and the table in force at the last key that was handled. -/
structure WordOnScreen where
  /-- Character by character, the units it was written in. -/
  shown : List WString := []
  /-- The units before the caret that belong to the word. -/
  screen : WString := []
  lastTable : CodeTable

/-- A key that is injected again types its letter first. -/
def WordOnScreen.type (scr : WordOnScreen) (letter : UInt16) : WordOnScreen :=
  { scr with shown := scr.shown ++ [[letter]], screen := scr.screen ++ [letter] }

/-- What `ReplaceComposition` finds on screen. -/
def WordOnScreen.found (scr : WordOnScreen) (letter : UInt16) (edit : Option Edit) : WordOnScreen :=
  if (edit.bind Edit.reinjectVk).isSome then scr.type letter else scr

/-- How many units the key erases. -/
def KeyResult.deletes : KeyResult → Nat
  | .passed => 0
  | .replaced _ _ edit => edit.elim 0 Edit.bsCount
  | .erased bsCount => bsCount

/-- How many units on screen belong to the characters that the key takes away. -/
def WordOnScreen.due (scr : WordOnScreen) (letter : UInt16) : KeyResult → Nat
  | .passed => 0
  | .replaced word composition edit =>
    ((scr.found letter edit).shown.drop
      (commonUnits word.previousComposition composition)).flatten.length
  | .erased _ => scr.shown.flatten.length

/-- The screen after the key. -/
def WordOnScreen.after (scr : WordOnScreen) (table : CodeTable) (letter : UInt16) :
    KeyResult → WordOnScreen
  | .passed => { scr.type letter with lastTable := table }
  | .replaced word composition edit =>
    let common := commonUnits word.previousComposition composition
    { shown := (scr.found letter edit).shown.take common ++
        (composition.drop common).map fun ch => (ConvertChar ch table).units
      screen := applyEdit edit (scr.found letter edit).screen
      lastTable := table }
  | .erased bsCount => { shown := [], screen := scr.screen.rdrop bsCount, lastTable := table }

/-- The engine and the screen. -/
structure WordState where
  hook : HookWord
  scr : WordOnScreen

/-- Letter keys, Backspaces and changes of the code table. The settings and the dispatcher may be
    different ones at every key. -/
inductive WordEvent where
  | letter (context : TypingContext) (d : OutputDispatcher) (vkCode : Nat) (shift capsLock : Bool)
  | backspace (config : TypingConfig)
  | codeTable (table : CodeTable)

section Locale

variable [WideLocale]

/-- The letter of a key. -/
def WordEvent.unit : WordEvent → UInt16
  | letter _ _ vkCode shift capsLock => .ofNat (originalCh vkCode shift capsLock).toNat
  | backspace _ | codeTable _ => 0

/-- What the engine does with an event; a Backspace with nothing composed is not its own, and a change
    of the table touches nothing else. -/
def WordEvent.handle (st : HookWord) : WordEvent → Option (HookWord × KeyResult)
  | letter context d vkCode shift capsLock => some (st.HandleAlphaKey context d vkCode shift capsLock)
  | backspace config => if st.engine.count = 0 then none else some (st.HandleBackspace config)
  | codeTable _ => none

/-- An event. The first letter of a word starts a new word on screen. -/
def wordStep (st : WordState) (event : WordEvent) : WordState :=
  match event.handle st.hook with
  | some (hook, result) =>
    let scr := if st.hook.engine.count = 0 then { st.scr with shown := [], screen := [] } else st.scr
    { hook, scr := scr.after st.hook.currentCodeTable event.unit result }
  | none =>
    match event with
    | .codeTable table => { st with hook := { st.hook with currentCodeTable := table } }
    | _ => st

/-- The event erases the units on screen of the characters it takes away, none too many and none too
    few. -/
def Exact (st : WordState) (event : WordEvent) : Prop :=
  ∀ r ∈ event.handle st.hook,
    let scr := if st.hook.engine.count = 0 then { st.scr with shown := [], screen := [] } else st.scr
    r.2.deletes = scr.due event.unit r.2

/-- A word that is handled with Unicode in force was written with Unicode in force, and one that is
    handled with another table with another one, not always the same. -/
def SameKind (st : WordState) : WordEvent → Prop
  | .codeTable _ => True
  | .letter .. | .backspace _ =>
    st.hook.engine.count = 0 ∨ (st.hook.currentCodeTable = .Unicode ↔ st.scr.lastTable = .Unicode)

/-- Nothing typed yet. -/
def wordStart (autoCapState : AutoCapState) (table : CodeTable) : WordState where
  hook := { engine := {}, autoCapState, currentCodeTable := table }
  scr := { lastTable := table }

end Locale

/-- The word describes what is shown: with Unicode one unit for each character, with another table as
    many as the widths say. -/
structure Fits (table : CodeTable) (word : EncodedWord) (shown : List WString) : Prop where
  length : shown.length = word.previousComposition.length
  unicode : table = .Unicode → word.previousEncodedWidths = [] ∧ ∀ units ∈ shown, units.length = 1
  legacy : table ≠ .Unicode → word.previousEncodedWidths = shown.map List.length

/-- Nothing fits nothing. -/
lemma Fits.nil {table : CodeTable} : Fits table {} [] := ⟨rfl, fun _ => ⟨rfl, by simp⟩, fun _ => rfl⟩

/-- Only whether the table is Unicode matters. -/
lemma Fits.congr {table table' : CodeTable} {word shown} (h : Fits table word shown)
    (hkind : table' = .Unicode ↔ table = .Unicode) : Fits table' word shown :=
  ⟨h.length, fun ht => h.unicode (hkind.1 ht), fun ht => h.legacy (fun hu => ht (hkind.2 hu))⟩

/-- A word of no characters. -/
lemma Fits.eq_nil {table : CodeTable} {word : EncodedWord} {shown} (h : Fits table word shown)
    (hword : word.previousComposition = []) : word = {} ∧ shown = [] := by
  have hshown : shown = [] := by
    have hlength := h.length
    rw [hword, List.length_nil] at hlength
    exact List.length_eq_zero_iff.1 hlength
  subst hshown
  refine ⟨?_, rfl⟩
  have hwidths : word.previousEncodedWidths = [] := by
    by_cases ht : table = .Unicode
    · exact (h.unicode ht).1
    · exact h.legacy ht
  cases word
  simp only at hword hwidths
  rw [hword, hwidths]

/-- Characters of one unit each. -/
lemma length_flatten_of_one {shown : List WString} (h : ∀ units ∈ shown, units.length = 1) :
    shown.flatten.length = shown.length := by
  induction shown with
  | nil => rfl
  | cons units shown ih =>
    rw [List.flatten_cons, List.length_append, h units (.head _), ih fun u hu => h u (.tail _ hu),
      List.length_cons, Nat.add_comm]

/-- With Unicode, the characters from one on have one unit each. -/
lemma Fits.length_drop_unicode {word : EncodedWord} {shown} (h : Fits .Unicode word shown) (n : Nat) :
    (shown.drop n).flatten.length = word.previousComposition.length - n := by
  obtain ⟨-, hone⟩ := h.unicode rfl
  rw [length_flatten_of_one fun units hu => hone units (List.mem_of_mem_drop hu), List.length_drop,
    h.length]

/-- With another table, as many as the widths say. -/
lemma Fits.length_drop_legacy {table : CodeTable} {word : EncodedWord} {shown}
    (h : Fits table word shown) (ht : table ≠ .Unicode) (n : Nat) :
    (shown.drop n).flatten.length = (word.previousEncodedWidths.drop n).sum := by
  rw [h.legacy ht, ← List.map_drop, List.length_flatten]

/-- Erasing the units of the characters from one on leaves those before it. -/
lemma rdrop_flatten (shown : List WString) (n : Nat) :
    shown.flatten.rdrop (shown.drop n).flatten.length = (shown.take n).flatten := by
  have hsplit : shown.flatten = (shown.take n).flatten ++ (shown.drop n).flatten := by
    rw [← List.flatten_append, List.take_append_drop]
  rw [hsplit, List.rdrop_append_length]

/-- One call of `ReplaceComposition`. -/
lemma Fits.replace {table : CodeTable} {word : EncodedWord} {shown} (h : Fits table word shown)
    (composition : WString) (vk : Option Nat) :
    let common := commonUnits word.previousComposition composition
    let r := word.ReplaceComposition true table composition vk
    let shown' := shown.take common ++
      (composition.drop common).map fun ch => (ConvertChar ch table).units
    r.1.elim 0 Edit.bsCount = (shown.drop common).flatten.length ∧
      applyEdit r.1 shown.flatten = shown'.flatten ∧ Fits table r.2 shown' ∧
      r.2.previousComposition = composition := by
  obtain ⟨hle, hle'⟩ := commonUnits_le word.previousComposition composition
  have hlength : (shown.take (commonUnits word.previousComposition composition) ++
      (composition.drop (commonUnits word.previousComposition composition)).map
        fun ch => (ConvertChar ch table).units).length = composition.length := by
    rw [List.length_append, List.length_take, List.length_map, List.length_drop, h.length]
    omega
  unfold EncodedWord.ReplaceComposition
  rw [if_neg (by simp)]
  dsimp only
  by_cases ht : table = .Unicode
  · -- the difference is counted in characters
    subst ht
    have hdrop := h.length_drop_unicode (commonUnits word.previousComposition composition)
    obtain ⟨hwidths, hone⟩ := h.unicode rfl
    rw [if_neg (by simp)]
    refine ⟨hdrop.symm, ?_, ⟨hlength, fun _ => ⟨hwidths, ?_⟩, fun hne => absurd rfl hne⟩, rfl⟩
    · show shown.flatten.rdrop _ ++ _ = _
      rw [← hdrop, rdrop_flatten, List.flatten_append]
      exact congrArg _ (encodeText_Unicode _).symm
    · intro units hu
      rcases List.mem_append.1 hu with hu | hu
      · exact hone units (List.mem_of_mem_take hu)
      · obtain ⟨ch, -, rfl⟩ := List.mem_map.1 hu
        rfl
  · -- the difference is counted in the widths, which are cut and appended to
    have hdrop := h.length_drop_legacy ht (commonUnits word.previousComposition composition)
    rw [if_pos ht]
    refine ⟨?_, ?_, ⟨hlength, fun hu => absurd hu ht, fun _ => ?_⟩, rfl⟩
    · rw [hdrop]
      split
      · rfl
      · next hnot =>
        show 0 = _
        omega
    · rw [applyEdit_ite (by simp +contextual), Edit.apply, ← hdrop, rdrop_flatten, List.flatten_append]
      rfl
    · show resize _ _ ++ _ = _
      rw [h.legacy ht, resize, List.length_map, h.length, Nat.sub_eq_zero_of_le hle,
        List.replicate_zero, List.append_nil, List.map_append, List.map_take, List.map_map]
      rfl

section Locale

variable [WideLocale]

/-- What holds of the fields, the screen and the word on screen between two keys. -/
structure Tracks (st : WordState) : Prop where
  fits : Fits st.scr.lastTable st.hook.toEncodedWord st.scr.shown
  screen : st.scr.screen = st.scr.shown.flatten
  empty : st.hook.engine.count = 0 → st.hook.previousComposition = []

/-- A key that was handled: it erased what was due, and the word is followed again. -/
structure Handled (table : CodeTable) (scr : WordOnScreen) (letter : UInt16)
    (r : HookWord × KeyResult) : Prop where
  exact : r.2.deletes = scr.due letter r.2
  fits : Fits table r.1.toEncodedWord (scr.after table letter r.2).shown
  screen : (scr.after table letter r.2).screen = (scr.after table letter r.2).shown.flatten
  composition : r.1.engine.count = 0 → r.1.previousComposition = []

/-- An engine that counts nothing shows no units. -/
lemma wide_peek_of_count {engine : EngineState} (h : engine.count = 0) : wide engine.peek = [] := by
  have hstates : engine.states = [] := List.length_eq_zero_iff.1 h
  rw [EngineState.peek, hstates]
  rfl

omit [WideLocale] in
/-- A key is typed again only in the edits of the Unicode table. -/
lemma WordOnScreen.found_replace (scr : WordOnScreen) (letter : UInt16) {table : CodeTable}
    {word : EncodedWord} {composition : WString} {vk : Option Nat}
    (hvk : vk.isSome → table = .Unicode) :
    scr.found letter (word.ReplaceComposition true table composition vk).1 =
      if vk.isSome then scr.type letter else scr := by
  have hsome : ((word.ReplaceComposition true table composition vk).1.bind Edit.reinjectVk).isSome =
      vk.isSome := by
    unfold EncodedWord.ReplaceComposition
    rw [if_neg (by simp)]
    dsimp only
    by_cases ht : table = .Unicode
    · rw [if_neg (not_not_intro ht)]
      rfl
    · have hnone : vk = none := Option.not_isSome_iff_eq_none.1 fun h => ht (hvk h)
      subst hnone
      rw [if_pos ht]
      split <;> rfl
  rw [WordOnScreen.found, hsome]

/-- A replacement, of a word that a key typed again may have made longer. -/
lemma Handled.replace {st : HookWord} {scr : WordOnScreen} {letter : UInt16} {vk : Option Nat}
    (hvk : vk.isSome → st.currentCodeTable = .Unicode)
    (hfits : Fits st.currentCodeTable st.toEncodedWord
      (if vk.isSome then scr.type letter else scr).shown)
    (hscreen : (if vk.isSome then scr.type letter else scr).screen =
      (if vk.isSome then scr.type letter else scr).shown.flatten) :
    Handled st.currentCodeTable scr letter (st.replace (wide st.engine.peek) vk) := by
  have hfound := @WordOnScreen.found_replace scr letter _ st.toEncodedWord (wide st.engine.peek) _ hvk
  obtain ⟨hexact, happly, hfits', hlast⟩ := hfits.replace (wide st.engine.peek) vk
  unfold HookWord.replace
  generalize st.ReplaceComposition true st.currentCodeTable (wide st.engine.peek) vk = r at *
  constructor
  · show r.1.elim 0 Edit.bsCount = ((scr.found letter r.1).shown.drop _).flatten.length
    rw [hfound]
    exact hexact
  · show Fits _ r.2 ((scr.found letter r.1).shown.take _ ++ _)
    rw [hfound]
    exact hfits'
  · show applyEdit r.1 (scr.found letter r.1).screen =
      ((scr.found letter r.1).shown.take _ ++ _).flatten
    rw [hfound, hscreen]
    exact happly
  · intro hcount
    exact hlast.trans (wide_peek_of_count hcount)

omit [WideLocale] in
/-- A letter behind a word of Unicode. -/
lemma Fits.type {word : EncodedWord} {scr : WordOnScreen} (h : Fits .Unicode word scr.shown)
    (letter : UInt16) :
    Fits .Unicode { word with previousComposition := word.previousComposition ++ [letter] }
      (scr.type letter).shown := by
  obtain ⟨hwidths, hone⟩ := h.unicode rfl
  refine ⟨?_, fun _ => ⟨hwidths, ?_⟩, fun hne => absurd rfl hne⟩
  · simp [WordOnScreen.type, h.length]
  · intro units hu
    obtain hu | hu := List.mem_append.1 hu
    · exact hone units hu
    · rw [List.mem_singleton.1 hu]
      rfl

omit [WideLocale] in
/-- A unit that is appended. -/
lemma appendsUnit_eq {previous composition : WString} {letter : UInt16}
    (h : appendsUnit previous composition letter) : composition = previous ++ [letter] := by
  simp only [appendsUnit, Bool.and_eq_true, beq_iff_eq] at h
  obtain ⟨⟨hlength, hlast⟩, htake⟩ := h
  obtain ⟨init, rfl⟩ := List.getLast?_eq_some_iff.1 hlast
  have hinit : init.length = previous.length := by simpa using hlength
  rw [← hinit, List.take_left] at htake
  rw [htake]

/-- The second half of a letter key. -/
lemma Handled.outputLetter {st : HookWord} {scr : WordOnScreen} {letter : UInt16}
    (d : OutputDispatcher) (vkCode : Nat) (autoCapped : Bool)
    (hfits : Fits st.currentCodeTable st.toEncodedWord scr.shown)
    (hscreen : scr.screen = scr.shown.flatten) :
    Handled st.currentCodeTable scr letter (st.outputLetter d vkCode letter autoCapped) := by
  have htype : (scr.type letter).screen = (scr.type letter).shown.flatten := by
    simp [WordOnScreen.type, hscreen]
  unfold HookWord.outputLetter
  dsimp only
  split
  · next hpass =>
    -- the physical key types the letter
    obtain ⟨htable, -, happend⟩ := hpass
    have hcomposition := appendsUnit_eq happend
    rw [htable] at hfits ⊢
    refine ⟨rfl, ?_, htype, fun hcount => wide_peek_of_count hcount⟩
    show Fits .Unicode { st.toEncodedWord with previousComposition := wide st.engine.peek } _
    rw [hcomposition]
    exact hfits.type letter
  · split
    · next hreinject =>
      have htable : st.currentCodeTable = .Unicode := hreinject.2.1
      refine @Handled.replace _ { st with
        previousComposition := st.previousComposition ++ [letter] } _ _ _ (fun _ => htable) ?_ htype
      rw [htable] at hfits
      show Fits st.currentCodeTable _ (scr.type letter).shown
      rw [htable]
      exact hfits.type letter
    · exact Handled.replace (fun h => absurd h (by simp)) hfits hscreen

/-- A letter key, in a word that is followed or at the start of one. -/
lemma Handled.alphaKey {st : HookWord} {scr : WordOnScreen} (context : TypingContext)
    (d : OutputDispatcher) (vkCode : Nat) (shift capsLock : Bool)
    (hfits : Fits st.currentCodeTable st.toEncodedWord scr.shown)
    (hscreen : scr.screen = scr.shown.flatten)
    (hempty : st.engine.count = 0 → st.previousComposition = []) :
    Handled st.currentCodeTable scr (.ofNat (originalCh vkCode shift capsLock).toNat)
      (st.HandleAlphaKey context d vkCode shift capsLock) := by
  have hstale : st.clearStale = st := if_neg fun h => h.2 (hempty h.1)
  have hkeep : ∀ letter, (st.pushLetter context letter).1.toEncodedWord = st.toEncodedWord ∧
      (st.pushLetter context letter).1.currentCodeTable = st.currentCodeTable := by
    intro letter
    unfold HookWord.pushLetter
    rw [hstale]
    exact ⟨rfl, rfl⟩
  obtain ⟨hword, htable⟩ := hkeep (originalCh vkCode shift capsLock)
  have h := @Handled.outputLetter _ (st.pushLetter context (originalCh vkCode shift capsLock)).1 _
    (.ofNat (originalCh vkCode shift capsLock).toNat) d vkCode
    (st.pushLetter context (originalCh vkCode shift capsLock)).2
    (by rw [hword, htable]; exact hfits) hscreen
  rw [htable] at h
  exact h

/-- A Backspace in a word that is followed. -/
lemma Handled.backspace {st : HookWord} {scr : WordOnScreen} {letter : UInt16} (config : TypingConfig)
    (hfits : Fits st.currentCodeTable st.toEncodedWord scr.shown)
    (hscreen : scr.screen = scr.shown.flatten) :
    Handled st.currentCodeTable scr letter (st.HandleBackspace config) := by
  unfold HookWord.HandleBackspace
  dsimp only
  split
  · exact @Handled.replace _ { st with engine := st.engine.backspace config } _ _ _
      (fun h => absurd h (by simp)) hfits hscreen
  · split
    · have hall : (if st.currentCodeTable ≠ .Unicode then st.previousEncodedWidths.sum
          else st.previousComposition.length) = scr.shown.flatten.length := by
        by_cases ht : st.currentCodeTable = .Unicode
        · obtain ⟨-, hone⟩ := hfits.unicode ht
          rw [if_neg (not_not_intro ht), length_flatten_of_one hone, hfits.length]
        · rw [if_pos ht, hfits.legacy ht, List.length_flatten]
      refine ⟨hall, Fits.nil, ?_, fun _ => rfl⟩
      show scr.screen.rdrop _ = []
      rw [hall, hscreen, List.rdrop, Nat.sub_self, List.take_zero]
    · next hnil =>
      have hprevious : st.previousComposition = [] := not_not.1 hnil
      obtain ⟨hword, hshown⟩ := hfits.eq_nil hprevious
      refine ⟨?_, ?_, ?_, fun _ => hprevious⟩
      · show 0 = scr.shown.flatten.length
        rw [hshown]
        rfl
      · show Fits _ st.toEncodedWord []
        rw [hword]
        exact Fits.nil
      · show scr.screen.rdrop 0 = []
        rw [hscreen, hshown]
        rfl

omit [WideLocale] in
/-- The screen a key finds: the first letter of a word starts a new one. -/
lemma Tracks.start {st : WordState} (h : Tracks st)
    (hkind : st.hook.engine.count = 0 ∨
      (st.hook.currentCodeTable = .Unicode ↔ st.scr.lastTable = .Unicode)) :
    let scr : WordOnScreen :=
      if st.hook.engine.count = 0 then { st.scr with shown := [], screen := [] } else st.scr
    Fits st.hook.currentCodeTable st.hook.toEncodedWord scr.shown ∧
      scr.screen = scr.shown.flatten := by
  dsimp only
  split
  · next hcount =>
    obtain ⟨hword, -⟩ := h.fits.eq_nil (h.empty hcount)
    rw [hword]
    exact ⟨Fits.nil, rfl⟩
  · next hcount => exact ⟨h.fits.congr (hkind.resolve_left hcount), h.screen⟩

/-- What an allowed key does. -/
lemma Tracks.handled {st : WordState} {event : WordEvent} (h : Tracks st) (hok : SameKind st event)
    {r} (hr : event.handle st.hook = some r) :
    Handled st.hook.currentCodeTable
      (if st.hook.engine.count = 0 then { st.scr with shown := [], screen := [] } else st.scr)
      event.unit r := by
  cases event with
  | letter context d vkCode shift capsLock =>
    obtain ⟨hfits, hscreen⟩ := h.start hok
    obtain rfl := Option.some.inj hr
    exact Handled.alphaKey context d vkCode shift capsLock hfits hscreen h.empty
  | backspace config =>
    obtain ⟨hfits, hscreen⟩ := h.start hok
    replace hr : (if st.hook.engine.count = 0 then none
      else some (st.hook.HandleBackspace config)) = some r := hr
    split at hr
    · cases hr
    · obtain rfl := Option.some.inj hr
      exact Handled.backspace config hfits hscreen
  | codeTable table => cases hr

/-- What is tracked is erased exactly. -/
lemma Tracks.exact {st : WordState} {event : WordEvent} (h : Tracks st) (hok : SameKind st event) :
    Exact st event := fun _ hr => (h.handled hok hr).exact

/-- What every event of one kind preserves. -/
lemma Tracks.step {st : WordState} {event : WordEvent} (h : Tracks st) (hok : SameKind st event) :
    Tracks (wordStep st event) := by
  unfold wordStep
  cases hr : event.handle st.hook with
  | some r =>
    obtain ⟨-, hfits, hscreen, hempty⟩ := h.handled hok hr
    have hlast : ∀ (scr : WordOnScreen) table letter,
        (scr.after table letter r.2).lastTable = table := by
      intro scr table letter
      cases r.2 <;> rfl
    exact ⟨by rw [hlast]; exact hfits, hscreen, hempty⟩
  | none =>
    cases event with
    | codeTable table => exact ⟨h.fits, h.screen, h.empty⟩
    | letter context d vkCode shift capsLock => exact h
    | backspace config => exact h

omit [WideLocale] in
/-- At the start. -/
lemma tracks_start (autoCapState : AutoCapState) (table : CodeTable) :
    Tracks (wordStart autoCapState table) := ⟨Fits.nil, rfl, fun _ => rfl⟩

/-- As long as no word is handled under Unicode that was written under another table, or the other way
    round, every key erases exactly what it takes away from the screen, and the screen shows the word
    that is followed. -/
theorem exact_of_sameKind (autoCapState : AutoCapState) (table : CodeTable) (events : List WordEvent)
    (h : Machine.Guarded wordStep SameKind (wordStart autoCapState table) events) :
    Machine.Guarded wordStep Exact (wordStart autoCapState table) events ∧
      (Machine.run wordStep (wordStart autoCapState table) events).scr.screen =
        (Machine.run wordStep (wordStart autoCapState table) events).scr.shown.flatten := by
  have hstart := tracks_start autoCapState table
  exact ⟨h.imp hstart (fun hinv hok => hinv.step hok) fun hinv hok => hinv.exact hok,
    (h.invariant hstart fun hinv hok => hinv.step hok).screen⟩

end Locale

section Ascii

attribute [local instance] WideLocale.ascii

/-- A window that takes what is sent. -/
def plainDispatcher : OutputDispatcher where
  injector := .clipboard
  cachedClass := none
  refreshedClass := none
  resolvedClass := none
  useClipboardPaste := false
  skipEmptyChar := false
  hadSynthInWord := false
  synthEventsPending := 0

/-- Two letters and a Backspace, with a change from one legacy table to another between them. -/
def legacyTables : List WordEvent :=
  [.letter ⟨{}, false, none⟩ plainDispatcher 0x41 false false, .codeTable .TCVN3,
    .letter ⟨{}, false, none⟩ plainDispatcher 0x53 false false, .backspace {}]

/-- A change between two old tables. -/
theorem exact_legacyTables :
    Machine.Guarded wordStep Exact (wordStart .idle .VNIWindows) legacyTables :=
  (exact_of_sameKind .idle .VNIWindows legacyTables
    ⟨.inl rfl, trivial, .inr (by decide +kernel), .inr (by decide +kernel), trivial⟩).1

/-- A letter under Unicode, and a Backspace after VNI was chosen. -/
def lateTable : List WordEvent :=
  [.letter ⟨{}, false, none⟩ plainDispatcher 0x41 false false, .codeTable .VNIWindows, .backspace {}]

/-- The Backspace erases nothing. -/
theorem not_exact_lateTable :
    ¬∀ (autoCapState : AutoCapState) (table : CodeTable) (events : List WordEvent),
      Machine.Guarded wordStep Exact (wordStart autoCapState table) events := by
  intro h
  obtain ⟨-, -, hback, -⟩ := h .idle .Unicode lateTable
  exact absurd (hback _ rfl) (by decide +kernel)

end Ascii

end NextKey
