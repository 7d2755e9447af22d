import NextKey.Engine.Growth
import NextKey.Engine.Seed

/-!
# Reachable engines

What holds of an engine between two keys, and what a key adds to it: one state, or the two of a quick
start or a quick end consonant, which do not begin with the key. So the text never grows by the pressed
key with more behind it, whatever was typed before.
-/

namespace NextKey

namespace EngineState

variable {st st' : EngineState} {c : Char} [WideLocale] {cfg : TypingConfig}

/-- What holds of an engine between two keys: ASCII bases, ASCII keys behind the quick consonants, and a
quick start consonant is the whole buffer. -/
structure Typed (st : EngineState) : Prop where
  bases : AsciiBases st.states
  lastKey : ∀ k, st.qc.lastKey = some k → AsciiKey k
  startKey : ∀ k, st.quickStartKey = some k → AsciiKey k ∧ st.states.length = 2

omit [WideLocale] in
/-- A quick end is made of ASCII letters. -/
lemma quickEndPair_ascii {d first second : Char} (h : quickEndPair d = some (first, second)) :
    AsciiKey first ∧ AsciiKey second := by
  unfold quickEndPair at h
  split at h <;> cases h <;> decide

omit [WideLocale] in
/-- So is a quick start. -/
lemma quickStartPair_ascii {d first second : Char} (h : quickStartPair d = some (first, second)) :
    AsciiKey first ∧ AsciiKey second := by
  unfold quickStartPair at h
  split at h <;> cases h <;> decide

omit [WideLocale] in
/-- So is a quick consonant. -/
lemma quickConsonantReplacement_ascii {d e f : Char} (h : quickConsonantReplacement d e = some f) :
    AsciiKey f := by
  unfold quickConsonantReplacement at h
  split at h <;> cases h <;> decide

/-- A key shows as itself. -/
lemma compose_keyState (hc : AsciiKey c) : compose (st.keyState c) = c := by
  rw [compose_plain hc.towlower rfl rfl]
  show (if iswupper c then (towlower c).toUpper else towlower c) = c
  rw [WideLocale.iswupper_ascii c hc.2, WideLocale.towlower_ascii c hc.2]
  exact AsciiKey.forall (P := fun c => (if c.isUpper then c.toLower.toUpper else c.toLower) = c)
    (by decide +kernel) hc

/-- A quick start consonant is taken back in front of a key that is not a vowel. -/
lemma undoQuickStart_typed (h : st.Typed) :
    (st.undoQuickStart c).qc = st.qc ∧ (st.undoQuickStart c).quickStartKey = none ∧
      AsciiBases (st.undoQuickStart c).states ∧
      ((st.undoQuickStart c).states = st.states ∨
        (st.undoQuickStart c).states.length = 1 ∧ st.states.length = 2) := by
  unfold undoQuickStart
  split
  · next hnone => exact ⟨rfl, hnone, h.bases, .inl rfl⟩
  · next savedKey hsome =>
    obtain ⟨hascii, hlength⟩ := h.startKey savedKey hsome
    dsimp only
    split
    · exact ⟨rfl, rfl, h.bases, .inl rfl⟩
    · refine ⟨rfl, rfl, ?_, .inr ⟨rfl, hlength⟩⟩
      exact AsciiBases.append .nil hascii.towlower

/-- A doubled consonant adds one state. -/
lemma quickConsonantExpand_typed {lower isUpper}
    (h : quickConsonantExpand cfg st lower isUpper = some st') :
    st'.states.length = st.states.length + 1 ∧ (AsciiBases st.states → AsciiBases st'.states) ∧
      st'.qc.lastKey = some lower ∧ st'.quickStartKey = st.quickStartKey := by
  simp only [quickConsonantExpand] at h
  split at h
  · cases h
  · split at h
    · split at h
      · next replacement hreplacement =>
        cases h
        have hkey : AsciiKey (if isUpper then towupper replacement else replacement) := by
          have hascii := quickConsonantReplacement_ascii hreplacement
          split
          · exact hascii.towupper
          · exact hascii
        obtain ⟨hlength, hbases, hquick⟩ := @finalizeRegularChar_same ({ st with
          qc := { st.qc with
            resultIndex := some st.states.length, lastKey := some lower
            onlyQC := st.qc.onlyQC || st.states.length == 1 } }.processKey
          (if isUpper then towupper replacement else replacement)) _ cfg
        refine ⟨?_, fun hb => hbases (hb.append hkey.towlower), ?_, hquick.2⟩
        · rw [hlength]
          exact List.length_append
        · rw [hquick.1]
          rfl
      · cases h
    · split at h
      · split at h
        · cases h
        · cases h
          have ho : AsciiKey 'o' := by decide
          have hsame : SameBases st.states (setMod st.states (st.states.length - 1) .horn) := .setMod
          refine ⟨?_, fun hb => (hb.same hsame).append ho, rfl, rfl⟩
          show (setMod st.states (st.states.length - 1) .horn ++ [_]).length = _
          rw [List.length_append, hsame.length_eq]
          rfl
      · cases h

omit [WideLocale] in
/-- A key is recorded. -/
lemma Typed.press (h : st.Typed) : (st.press c).Typed := ⟨h.bases, h.lastKey, h.startKey⟩

/-- What a key adds to an engine between two keys: one state at most, or two of which the first does not
show as the key. -/
structure Pressed (st st' : EngineState) (c : Char) : Prop where
  typed : st'.Typed
  growth : st'.states.length ≤ st.states.length + 1 ∨
    ∃ x y, st'.states = st.states ++ [x, y] ∧ compose x ≠ c

/-- A quick start consonant does not begin with the key, in either case. -/
lemma quickStartPair_ne {first second} (h : quickStartPair (towlower c) = some (first, second)) :
    (if iswupper c then towupper first else first) ≠ c := by
  intro heq
  have hfirst := (quickStartPair_ascii h).1
  have hcase : c = first.toUpper ∨ c = first := by
    rw [← heq]
    split
    · exact .inl (WideLocale.towupper_ascii first hfirst.2)
    · exact .inr rfl
  have hlower : towlower c = first.toUpper.toLower ∨ towlower c = first.toLower := by
    rcases hcase with rfl | rfl
    · exact .inl (WideLocale.towlower_ascii _ hfirst.toUpper.2)
    · exact .inr (WideLocale.towlower_ascii _ hfirst.2)
  generalize towlower c = d at h hlower
  unfold quickStartPair at h
  split at h <;> cases h <;> revert hlower <;> decide

/-- A quick end consonant does not begin with the key. -/
lemma quickEndPair_ne {first second} (h : quickEndPair (towlower c) = some (first, second)) :
    first ≠ c := by
  rintro rfl
  have hlower : towlower first = first.toLower :=
    WideLocale.towlower_ascii first (quickEndPair_ascii h).1.2
  generalize towlower first = d at h hlower
  unfold quickEndPair at h
  split at h <;> cases h <;> revert hlower <;> decide

/-- A quick start consonant in an empty buffer. -/
lemma quickStart_pressed {first second} (hc : AsciiKey c) (h : st.Typed) (hnil : st.states = [])
    (hpair : quickStartPair (towlower c) = some (first, second)) :
    st.Pressed
      ({ (st.processKey (if iswupper c then towupper first else first)).processKey second with
        quickStartKey := some c }.updateSpellState cfg) c := by
  obtain ⟨hfirst, hsecond⟩ := quickStartPair_ascii hpair
  have hkey : AsciiKey (if iswupper c then towupper first else first) := by
    split
    · exact hfirst.towupper
    · exact hfirst
  have hstates : st.states ++ [st.keyState (if iswupper c then towupper first else first)] ++
      [st.keyState second] =
        [st.keyState (if iswupper c then towupper first else first), st.keyState second] := by
    rw [hnil]
    rfl
  have hbases := (h.bases.append (s := st.keyState (if iswupper c then towupper first else first))
    hkey.towlower).append (s := st.keyState second) hsecond.towlower
  refine ⟨⟨hbases, h.lastKey, ?_⟩, .inr ⟨_, _, hstates.trans (by rw [hnil]; rfl), ?_⟩⟩
  · rintro k hk
    cases hk
    exact ⟨hc, congrArg List.length hstates⟩
  · rw [compose_keyState hkey]
    exact quickStartPair_ne hpair

/-- What `HandleQuickStartConsonant` leaves when it does not consume the key. -/
structure Unconsumed (st st' : EngineState) : Prop where
  bases : AsciiBases st'.states
  lastKey : ∀ k, st'.qc.lastKey = some k → AsciiKey k
  startKey : st'.quickStartKey = none
  states : st'.states = st.states ∨ st'.states.length = 1 ∧ st.states.length = 2

/-- The rules in front of the classification. -/
lemma handleQuickStartConsonant_typed (hc : AsciiKey c) (h : st.Typed) :
    if (handleQuickStartConsonant cfg st c (towlower c) (iswupper c)).2 then
      st.Pressed (handleQuickStartConsonant cfg st c (towlower c) (iswupper c)).1 c
    else st.Unconsumed (handleQuickStartConsonant cfg st c (towlower c) (iswupper c)).1 := by
  simp only [handleQuickStartConsonant]
  split
  · next first second hstart =>
    rw [if_pos rfl]
    split at hstart
    · next hcond => exact quickStart_pressed hc h hcond.2 hstart
    · cases hstart
  · obtain ⟨hqc, hstartKey, hbases, hstates⟩ := @undoQuickStart_typed st c _ h
    have hlast (k : Char) (hk : (if (st.undoQuickStart c).qc.lastKey == some (towlower c) then
        (st.undoQuickStart c).qc.lastKey else none) = some k) : AsciiKey k := by
      split at hk
      · rw [hqc] at hk
        exact h.lastKey k hk
      · cases hk
    have hpassed (qc : QuickConsonantState)
        (hqcKey : qc.lastKey = if (st.undoQuickStart c).qc.lastKey == some (towlower c) then
          (st.undoQuickStart c).qc.lastKey else none) :
        st.Unconsumed { st.undoQuickStart c with qc := qc } :=
      ⟨hbases, fun k hk => hlast k (hqcKey.symm.trans hk), hstartKey, hstates⟩
    split
    · split
      · next hexpand =>
        rw [if_pos rfl]
        obtain ⟨hlength, hbases', hlastKey, hstart⟩ := quickConsonantExpand_typed hexpand
        refine ⟨⟨hbases' hbases, ?_, ?_⟩, .inl ?_⟩
        · rintro k hk
          rw [hlastKey] at hk
          cases hk
          exact hc.towlower
        · rintro k hk
          rw [hstart] at hk
          exact absurd (hstartKey.symm.trans hk) (by simp)
        · rw [hlength]
          show (st.undoQuickStart c).states.length + 1 ≤ _
          rcases hstates with hstates | ⟨hone, htwo⟩
          · rw [hstates]
          · omega
      · rw [if_neg Bool.false_ne_true]
        exact hpassed _ rfl
    · rw [if_neg Bool.false_ne_true]
      exact hpassed _ rfl

/-- A key. -/
theorem Typed.pushChar (h : st.Typed) (hc : AsciiKey c) : st.Pressed (st.pushChar cfg c) c := by
  have hquick := @handleQuickStartConsonant_typed (st.press c) c _ cfg hc h.press
  simp only [EngineState.pushChar]
  split at hquick
  · next hveto =>
    rw [if_pos hveto]
    exact ⟨hquick.typed, hquick.growth⟩
  · next hveto =>
    rw [if_neg hveto]
    generalize (handleQuickStartConsonant cfg (st.press c) c (towlower c) (iswupper c)).1 =
      mid at hquick
    have hstates : mid.states = st.states ∨ mid.states.length = 1 ∧ st.states.length = 2 :=
      hquick.states
    rcases @dispatch_adds mid c _ cfg (classify cfg mid c (towlower c)) hc with
      hgrows | ⟨first, second, hpair, hadded, hsame⟩
    · refine ⟨⟨hgrows.bases hquick.bases, ?_, ?_⟩, .inl ?_⟩
      · rw [hgrows.quick.1]
        exact hquick.lastKey
      · intro k hk
        rw [hgrows.quick.2, hquick.startKey] at hk
        cases hk
      · have hlength := hgrows.length
        rcases hstates with hstates | ⟨hone, htwo⟩
        · rw [hstates] at hlength
          exact hlength
        · omega
    · obtain ⟨hfirst, hsecond⟩ := quickEndPair_ascii hpair
      refine ⟨⟨?_, ?_, ?_⟩, ?_⟩
      · rw [hadded, List.append_cons]
        exact (hquick.bases.append hfirst.towlower).append hsecond.towlower
      · rw [hsame.1]
        exact hquick.lastKey
      · intro k hk
        rw [hsame.2, hquick.startKey] at hk
        cases hk
      · rcases hstates with hstates | ⟨hone, htwo⟩
        · refine .inr ⟨_, _, by rw [hadded, hstates], ?_⟩
          rw [compose_keyState hfirst]
          exact quickEndPair_ne hpair
        · refine .inl ?_
          rw [hadded, List.length_append]
          simp only [List.length_cons, List.length_nil]
          omega

/-- The text grows by the key alone, or not by the key followed by more. -/
theorem Typed.pushChar_peek (h : st.Typed) (hc : AsciiKey c) {more : List Char}
    (hpeek : (st.pushChar cfg c).peek = st.peek ++ c :: more) : more = [] := by
  obtain ⟨htyped, hgrowth⟩ := @Typed.pushChar st c _ cfg h hc
  have hold : st.peek.length = st.states.length := h.bases.length_composeAll
  have hnew : (st.pushChar cfg c).peek.length = (st.pushChar cfg c).states.length :=
    htyped.bases.length_composeAll
  rcases hgrowth with hlength | ⟨x, y, hstates, hx⟩
  · rw [hpeek, List.length_append, List.length_cons] at hnew
    rw [← List.length_eq_zero_iff]
    omega
  · -- The first of the two states shows, and not as the key.
    have hbases := htyped.bases
    rw [hstates] at hbases
    have hshown : compose x ≠ '\x00' := compose_ne_nul (hbases x (by simp))
    have hsplit : (st.pushChar cfg c).peek = st.peek ++ (compose x :: composeAll [y]) := by
      show composeAll (st.pushChar cfg c).states = _
      rw [hstates]
      simp [peek, composeAll, hshown]
    rw [hsplit] at hpeek
    exact absurd (List.cons.inj (List.append_cancel_left hpeek)).1 hx

/-- The spell check touches no letter. -/
lemma Typed.updateSpellState (h : st.Typed) : (st.updateSpellState cfg).Typed :=
  ⟨h.bases, h.lastKey, h.startKey⟩

/-- Nor does the bias. -/
lemma Typed.recalcBias (h : st.Typed) : (st.recalcBias cfg).Typed := ⟨h.bases, h.lastKey, h.startKey⟩

omit [WideLocale] in
/-- An engine without a quick start consonant. -/
lemma typed_of_bases (hb : AsciiBases st.states) (hlast : ∀ k, st.qc.lastKey = some k → AsciiKey k)
    (hstart : st.quickStartKey = none) : st.Typed :=
  ⟨hb, hlast, fun k hk => absurd (hstart.symm.trans hk) (by simp)⟩

/-- A quick consonant that is undone leaves typed letters. -/
lemma undoQuickConsonant_typed (h : st.Typed) (hstart : st.quickStartKey = none) :
    (undoQuickConsonant cfg st).Typed := by
  have hbases : AsciiBases (undoHornU st.states (st.states.length - 1)).dropLast :=
    (h.bases.same .undoHornU).subset (List.dropLast_subset _)
  simp only [undoQuickConsonant]
  refine Typed.recalcBias (Typed.updateSpellState ?_)
  split
  · next key hkey =>
    refine typed_of_bases (hbases.append (h.lastKey key hkey).towlower) ?_ hstart
    rintro k hk
    cases hk
  · refine typed_of_bases hbases ?_ hstart
    rintro k hk
    cases hk

/-- So does a letter taken off. -/
lemma popChar_typed (h : st.Typed) (hstart : st.quickStartKey = none) : (popChar cfg st).Typed := by
  simp only [popChar]
  refine Typed.recalcBias (Typed.updateSpellState (typed_of_bases ?_ ?_ hstart))
  · exact h.bases.subset (List.dropLast_subset _)
  · rintro k hk
    cases hk

/-- `Backspace`. -/
lemma Typed.backspace (h : st.Typed) : (st.backspace cfg).Typed := by
  have hcleared : ({ st with escape := .none, quickStartKey := none } : EngineState).Typed :=
    typed_of_bases h.bases h.lastKey rfl
  unfold EngineState.backspace
  split
  · exact h
  · dsimp only
    split
    · next key hkey =>
      split at hkey
      · refine Typed.updateSpellState (typed_of_bases ?_ h.lastKey rfl)
        exact AsciiBases.nil.append (h.startKey key hkey).1.towlower
      · cases hkey
    · split
      · exact undoQuickConsonant_typed hcleared rfl
      · exact popChar_typed hcleared rfl

omit [WideLocale] in
/-- The base of a toned letter is ASCII. -/
lemma decomposeToneBase_ascii {ch base : Char} {mod} (h : decomposeToneBase ch = some (base, mod)) :
    AsciiKey base := by
  unfold decomposeToneBase at h
  split at h <;> cases h <;> decide

/-- The base of a Vietnamese character is ASCII. -/
lemma decomposeVietChar_ascii {ch base : Char} {mod tone isUpper}
    (h : decomposeVietChar ch = some (base, mod, tone, isUpper)) : AsciiKey base := by
  simp only [decomposeVietChar] at h
  split at h
  · cases h
    decide
  · split at h
    · obtain ⟨⟨base', mod'⟩, hbase, heq⟩ := Option.map_eq_some_iff.mp h
      cases heq
      exact decomposeToneBase_ascii hbase
    · split at h
      · next hbase =>
        cases h
        exact decomposeToneBase_ascii hbase
      · split at h
        · next hletter =>
          cases h
          have hlow : 'a'.toNat ≤ (toLowerVietnamese ch).toNat := hletter.1
          have hhigh : (toLowerVietnamese ch).toNat ≤ 'z'.toNat := hletter.2
          exact ⟨Nat.lt_of_lt_of_le (by decide) hlow, Nat.lt_of_le_of_lt hhigh (by decide)⟩
        · cases h

/-- `SeedFromText`. -/
lemma seedFromText_typed {text} : (seedFromText cfg text).1.Typed := by
  have hinit : ({} : EngineState).Typed := typed_of_bases .nil (fun _ h => by cases h) rfl
  have hfold : ∀ {st st' : EngineState}, AsciiBases st.states → st.qc.lastKey = none →
      st.quickStartKey = none → text.foldlM seedChar st = some st' →
      AsciiBases st'.states ∧ st'.qc.lastKey = none ∧ st'.quickStartKey = none := by
    induction text with
    | nil =>
      rintro st st' hb hlast hstart h
      cases h
      exact ⟨hb, hlast, hstart⟩
    | cons ch rest ih =>
      intro st st' hb hlast hstart h
      obtain ⟨mid, hmid, hrest⟩ := Option.bind_eq_some_iff.mp h
      obtain ⟨⟨base, mod, tone, isUpper⟩, hletter, rfl⟩ := Option.map_eq_some_iff.mp hmid
      have hbase := decomposeVietChar_ascii hletter
      refine ih ?_ ?_ ?_ hrest
      · exact hb.append hbase
      · exact hlast
      · exact hstart
  unfold seedFromText
  split
  · exact hinit
  · next st h =>
    obtain ⟨hb, hlast, hstart⟩ := hfold .nil rfl rfl h
    exact ⟨hb, fun k hk => absurd (hlast.symm.trans hk) (by simp),
      fun k hk => absurd (hstart.symm.trans hk) (by simp)⟩

/-- What keys of the keyboard, `Backspace` and `SeedFromText` make of a fresh engine. -/
inductive Reachable : EngineState → Prop
  | init : Reachable {}
  | seed {cfg : TypingConfig} {text : List Char} :
    Reachable (seedFromText cfg text).1
  | push {cfg : TypingConfig} {st : EngineState} {c : Char} :
    Reachable st →
    AsciiKey c →
    Reachable (st.pushChar cfg c)
  | back {cfg : TypingConfig} {st : EngineState} :
    Reachable st →
    Reachable (st.backspace cfg)

/-- Whatever is reached is typed. -/
lemma Reachable.typed (h : Reachable st) : st.Typed := by
  induction h with
  | init => exact typed_of_bases .nil (fun _ h => by cases h) rfl
  | seed => exact seedFromText_typed
  | push _ hc ih => exact (ih.pushChar hc).typed
  | back _ ih => exact ih.backspace

/-- The same, under one configuration. -/
inductive ReachableBy (cfg : TypingConfig) : EngineState → Prop
  | init : ReachableBy cfg {}
  | seed {text : List Char} :
    ReachableBy cfg (seedFromText cfg text).1
  | push {st : EngineState} {c : Char} :
    ReachableBy cfg st →
    AsciiKey c →
    ReachableBy cfg (st.pushChar cfg c)
  | back {st : EngineState} :
    ReachableBy cfg st →
    ReachableBy cfg (st.backspace cfg)

/-- What is reached in one configuration is reached. -/
lemma ReachableBy.reachable (h : ReachableBy cfg st) : Reachable st := by
  induction h with
  | init => exact .init
  | seed => exact .seed
  | push _ hc ih => exact .push ih hc
  | back _ ih => exact .back ih

/-- `SeedFromText` leaves no quick consonant pending. -/
lemma seedFromText_plain {text} : (seedFromText cfg text).1.Plain := by
  have hfold : ∀ {st st' : EngineState}, st.Plain → text.foldlM seedChar st = some st' → st'.Plain := by
    induction text with
    | nil =>
      rintro st st' hp h
      cases h
      exact hp
    | cons ch rest ih =>
      intro st st' hp h
      obtain ⟨mid, hmid, hrest⟩ := Option.bind_eq_some_iff.mp h
      obtain ⟨parts, -, rfl⟩ := Option.map_eq_some_iff.mp hmid
      refine ih ?_ hrest
      exact hp
  unfold seedFromText
  split
  · exact ⟨rfl, rfl⟩
  · next st h =>
    have hseeded : st.Plain := hfold ⟨rfl, rfl⟩ h
    exact hseeded

/-- Without quick consonants whatever is reached is plain. -/
lemma ReachableBy.plain (hq : cfg.QuickOff) (hm : cfg.inputMethod ≠ .userDefined)
    (h : ReachableBy cfg st) : st.Plain := by
  induction h with
  | init => exact ⟨rfl, rfl⟩
  | seed => exact seedFromText_plain
  | push _ _ ih => exact ih.pushChar hq hm
  | back _ ih => exact ih.backspace

end EngineState

end NextKey
