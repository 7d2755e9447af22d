import NextKey.Engine.ToneGates

/-!
# A tone key pressed twice

A tone key that puts a tone on an untoned word takes it back when it is pressed again: the gates let
the second press through, `FindToneTarget` returns the vowel that carries the tone, and its key is
erased from the raw input (`doubleTone_takesBack`). The word is as it was with the key behind it, but
for the pairs `uơ` and `ưo` in it, which `ApplyAutoUO` completes: the key behind them is the letter it
waits for.
-/

namespace NextKey

open Phonology

variable {states states' : List CharState} {i j n : Nat}

/-- What no mark changes: the letter, its case, its origin and its keystroke. -/
def CharState.frame (s : CharState) : Char × Bool × Bool × Nat :=
  (s.base, s.isUpper, s.synthetic, s.rawIdx)

/-- The same letters, from the same keystrokes. -/
def SameFrames (states states' : List CharState) : Prop :=
  states'.map CharState.frame = states.map CharState.frame

namespace SameFrames

variable {s₁ s₂ s₃ : List CharState}

/-- Nothing has changed. -/
lemma refl : SameFrames states states := rfl

/-- One after the other. -/
lemma trans (h : SameFrames s₁ s₂) (h' : SameFrames s₂ s₃) : SameFrames s₁ s₃ := Eq.trans h' h

/-- A change of a letter that keeps its frame. -/
lemma modify {f : CharState → CharState} (h : ∀ s, (f s).frame = s.frame) :
    SameFrames states (states.modify i f) := List.map_modify_of_forall h

/-- A mark keeps the frames. -/
lemma setMod {mod : Modifier} : SameFrames states (setMod states i mod) := modify fun _ => rfl

/-- The keystrokes behind an erased one move up. -/
lemma eraseRaw (h : SameFrames states states') :
    SameFrames (states.map (CharState.eraseRaw n)) (states'.map (CharState.eraseRaw n)) := by
  have hread : ∀ l : List CharState, (l.map (CharState.eraseRaw n)).map CharState.frame =
      (l.map CharState.frame).map fun f => (f.1, f.2.1, f.2.2.1, shiftIdx n f.2.2.2) := by
    intro l
    rw [List.map_map, List.map_map]
    rfl
  unfold SameFrames at h ⊢
  rw [hread, hread, h]

section Locale
variable [WideLocale] {cfg : TypingConfig}

/-- The relocation keeps the frames. -/
lemma relocateToneToTarget : SameFrames states (relocateToneToTarget cfg states) := by
  cases hmoves : movesTone cfg states with
  | false =>
    rw [relocateToneToTarget_eq_self hmoves]
    exact refl
  | true =>
    obtain ⟨src, dst, -, -, -, heq⟩ := relocateToneToTarget_eq_moveTone hmoves
    rw [heq]
    exact (modify (by intro _; rfl)).trans (modify (by intro _; rfl))

/-- The completion of `ươ` at an index keeps the frames. -/
lemma autoUOAt : SameFrames states (autoUOAt cfg states i) := by
  by_cases hpair : HalfHorned states i
  · rcases @HalfHorned.autoUOAt states i _ cfg hpair with ⟨-, heq⟩ | ⟨-, heq⟩
    · rw [heq]
      exact setMod
    · rw [heq]
      exact setMod.trans relocateToneToTarget
  · rw [autoUOAt_eq_self hpair]
    exact refl

/-- The completion of `ươ` keeps the frames. -/
lemma applyAutoUO : SameFrames states (applyAutoUO cfg states) := by
  unfold NextKey.applyAutoUO
  generalize (List.range (states.length - 2)).drop (states.length - 4) = positions
  induction positions generalizing states with
  | nil => exact refl
  | cons i positions ih => exact autoUOAt.trans ih

end Locale

end SameFrames

/-- A letter after a key was erased. -/
lemma charAt_eraseRaw :
    charAt (states.map (CharState.eraseRaw n)) i = (charAt states i).eraseRaw n := by
  rw [charAt, charAt, List.getD_eq_getElem?_getD, List.getD_eq_getElem?_getD, List.getElem?_map]
  cases states[i]? with
  | none =>
    show ({} : CharState) = CharState.eraseRaw n {}
    unfold CharState.eraseRaw shiftIdx
    rw [if_neg (Nat.not_lt_zero n)]
    rfl
  | some s => rfl

/-- The letters of a word, from the same keystrokes, with more horns at most: the ones that complete a
    pair. No letter gains the index of a tone key. -/
structure Restores (completed : List CharState → Nat → Prop) (n : Nat)
    (states letters : List CharState) : Prop where
  frames : SameFrames (states.map (CharState.eraseRaw n)) letters
  mods : ∀ i < states.length, (charAt letters i).mod = (charAt states i).mod ∨
    completed states i ∧ (charAt letters i).mod = .horn
  keys : ∀ i < states.length, (charAt letters i).toneRawIdx = none ∨
    (charAt letters i).toneRawIdx = (charAt states i).toneRawIdx.map (shiftIdx n)

/-- No tones are counted where no letter has one. -/
lemma toneCount_eq_zero : toneCount states = 0 ↔ ∀ s ∈ states, s.tone = .none := by
  rw [toneCount, List.countP_eq_zero]
  refine forall_congr' fun s => imp_congr_right fun _ => ?_
  rw [CharState.hasTone, bne_iff_ne, not_not]

/-- What is reworked gets no tone. -/
lemma Reworks.untoned (h : Reworks states states') (hnone : ∀ s ∈ states, s.tone = .none) :
    ∀ s ∈ states', s.tone = .none :=
  toneCount_eq_zero.1 (Nat.eq_zero_of_le_zero (h.toneCount_le.trans (toneCount_eq_zero.2 hnone).le))

/-- A tone no vowel has is not moved. -/
lemma findTonedVowelIndex_untoned (h : ∀ s ∈ states, s.tone = .none) :
    findTonedVowelIndex states = none := by
  refine firstIdx?_eq_none.2 fun i hi => ?_
  have htone := h _ (charAt_mem hi)
  rw [CharState.hasTone, htone]
  simp

/-- Without the one tone there is none. -/
lemma TonedAt.cleared {before : List CharState} {tone : Tone}
    (h : TonedAt before states i tone n)
    (hi : i < states.length) :
    ∀ s ∈ (clearTone states i).map (CharState.eraseRaw j), s.tone = .none := by
  intro s hs
  obtain ⟨t, ht, rfl⟩ := List.mem_map.1 hs
  obtain ⟨m, -, rfl⟩ := exists_charAt ht
  show (charAt (clearTone states i) m).tone = .none
  rw [clearTone, charAt_modify hi]
  split
  · rfl
  · next hne => exact h.others m (Ne.symm hne)

section Locale
variable [WideLocale] {cfg : TypingConfig}

/-- Without a tone `ApplyAutoUO` sets horns and nothing else. -/
lemma sameStamps_applyAutoUO (h : ∀ s ∈ states, s.tone = .none) :
    SameStamps states (applyAutoUO cfg states) := by
  unfold applyAutoUO
  generalize (List.range (states.length - 2)).drop (states.length - 4) = positions
  induction positions generalizing states with
  | nil => rfl
  | cons i positions ih =>
    have hround : SameStamps states (autoUOAt cfg states i) := by
      by_cases hpair : HalfHorned states i
      · rcases @HalfHorned.autoUOAt states i _ cfg hpair with ⟨-, heq⟩ | ⟨-, heq⟩
        · rw [heq]
          exact sameStamps_setMod
        · have huntoned := (Reworks.marks (@sameStamps_setMod states (i + 1) .horn)).untoned h
          have hstays : movesTone cfg (setMod states (i + 1) .horn) = false := by
            rw [movesTone, findTonedVowelIndex_untoned huntoned]
          rw [heq, relocateToneToTarget_eq_self hstays]
          exact sameStamps_setMod
      · rw [autoUOAt_eq_self hpair]
        rfl
    exact hround.trans (ih (reworks_autoUOAt.untoned h))

/-- A key that applies no tone leaves an untoned word untoned. -/
lemma Effect.untoned {strands : Prop} {raw raw' : List Char}
    (h : Effect none strands raw states raw' states') (hnone : ∀ s ∈ states, s.tone = .none) :
    ∀ s ∈ states', s.tone = .none := by
  induction h with
  | consumed hr => exact hr.untoned hnone
  | literal hprep hfresh =>
    have hzero := Nat.eq_zero_of_le_zero (hprep.toneCount_le.trans (toneCount_eq_zero.2 hnone).le)
    intro s hs
    rcases List.mem_append.1 hs with hmem | hmem
    · exact toneCount_eq_zero.1 hzero s hmem
    · rw [List.mem_singleton.1 hmem]
      exact hfresh.1
  | toned htone => cases htone
  | stranded _ hs =>
    have hzero := toneCount_eq_zero.2 hnone
    rw [← hs.toneCount_eq] at hzero
    exact toneCount_eq_zero.1
      (Nat.eq_zero_of_le_zero (toneCount_relocateToneToHornVowel_le.trans hzero.le))
  | rework _ hr ih => exact hr.untoned ih

/-- A vowel of a pair `uơ` or `ưo`. -/
def InHalfPair (states : List CharState) (i : Nat) : Prop :=
  HalfHorned states i ∨ ∃ j, i = j + 1 ∧ HalfHorned states j

/-- A mark is as it was, or completes a pair. -/
lemma mod_applyAutoUO_cases : (charAt (applyAutoUO cfg states) i).mod = (charAt states i).mod ∨
    InHalfPair states i ∧ (charAt (applyAutoUO cfg states) i).mod = .horn := by
  rw [mod_applyAutoUO]
  split
  · next hcompleted =>
    obtain ⟨j, -, hpair⟩ := List.any_eq_true.1 hcompleted
    rw [decide_eq_true_eq] at hpair
    refine .inr ⟨?_, rfl⟩
    obtain ⟨hhalf, rfl | rfl⟩ := hpair
    · exact .inl hhalf
    · exact .inr ⟨j, rfl, hhalf⟩
  · exact .inl rfl

/-- A scan leaves no new pair to complete. -/
lemma halfHorned_of_applyAutoUO (h : HalfHorned (applyAutoUO cfg states) i) : HalfHorned states i := by
  unfold applyAutoUO at h
  generalize (List.range (states.length - 2)).drop (states.length - 4) = positions at h
  induction positions generalizing states with
  | nil => exact h
  | cons k positions ih => exact (halfHorned_autoUOAt.1 (ih h)).1

/-- A half pair after the completion was one before. -/
lemma InHalfPair.of_applyAutoUO (h : InHalfPair (applyAutoUO cfg states) i) : InHalfPair states i := by
  rcases h with h | ⟨j, rfl, h⟩
  · exact .inl (halfHorned_of_applyAutoUO h)
  · exact .inr ⟨j, rfl, halfHorned_of_applyAutoUO h⟩

omit [WideLocale] in
/-- The same marks make the same half pair. -/
lemma SameMarks.halfHorned (h : SameMarks states states') (hpair : HalfHorned states' i) :
    HalfHorned states i := by
  obtain ⟨hglide, hu, ho, hmods⟩ := hpair
  unfold isQUGlide at hglide
  rw [h.bases.charAt] at hu
  rw [h.bases.charAt] at ho
  rw [h.bases.charAt, h.bases.charAt] at hglide
  rw [h.mods, h.mods] at hmods
  exact ⟨hglide, hu, ho, hmods⟩

omit [WideLocale] in
/-- The same marks stand in the same half pair. -/
lemma SameMarks.inHalfPair (h : SameMarks states states') (hpair : InHalfPair states' i) :
    InHalfPair states i := by
  rcases hpair with hpair | ⟨j, rfl, hpair⟩
  · exact .inl (h.halfHorned hpair)
  · exact .inr ⟨j, rfl, h.halfHorned hpair⟩

omit [WideLocale] in
/-- A literal that is no `o` behind a word is in no pair. -/
lemma InHalfPair.of_append {s : CharState} (ho : s.base ≠ 'o') (h : InHalfPair (states ++ [s]) i) :
    InHalfPair states i := by
  have hpair : ∀ {k}, HalfHorned (states ++ [s]) k → HalfHorned states k := by
    intro k hk
    have hlt := hk.lt
    rw [List.length_append, List.length_singleton] at hlt
    refine hk.of_append ?_
    by_contra hlast
    obtain heq : k + 1 = states.length := by omega
    have hbase := hk.2.2.1
    rw [heq, charAt_concat] at hbase
    exact ho hbase
  rcases h with h | ⟨j, rfl, h⟩
  · exact .inl (hpair h)
  · exact .inr ⟨j, rfl, hpair h⟩

omit [WideLocale] in
/-- A tone does not touch the marks. -/
lemma SameMarks.applyTone {tone : Tone} : SameMarks states (applyTone states i tone n) where
  bases := SameBases.modify (by intro _; rfl)
  mods j := by
    have hsame : SameBodies states (NextKey.applyTone states i tone n) :=
      SameBodies.modify (by intro _; rfl)
    exact hsame.charAt_mod

omit [WideLocale] in
/-- Nor does clearing one. -/
lemma SameMarks.cleared : SameMarks states ((clearTone states i).map (CharState.eraseRaw n)) := by
  have hsame : SameBodies states ((clearTone states i).map (CharState.eraseRaw n)) := by
    have hcleared : SameBodies states (clearTone states i) := SameBodies.modify (by intro _; rfl)
    unfold SameBodies at hcleared ⊢
    rw [List.map_map, ← hcleared]
    rfl
  exact ⟨hsame.bases, fun _ => hsame.charAt_mod⟩

/-- A literal behind an untoned word completes pairs at most. -/
lemma Restores.behind {word : List CharState} {s : CharState} (h : Restores InHalfPair n states word)
    (hnone : ∀ t ∈ word, t.tone = .none) (hpairs : ∀ m, InHalfPair word m → InHalfPair states m)
    (ho : s.base ≠ 'o') (htone : s.tone = .none) (hmod : s.mod = .none) :
    ∃ letters, applyAutoUO cfg (word ++ [s]) = letters ++ [s] ∧
      Restores InHalfPair n states letters := by
  have huntoned : ∀ t ∈ word ++ [s], t.tone = .none := by
    intro t ht
    rcases List.mem_append.1 ht with hmem | hmem
    · exact hnone t hmem
    · rw [List.mem_singleton.1 hmem]
      exact htone
  have hframes : SameFrames (word ++ [s]) (applyAutoUO cfg (word ++ [s])) := .applyAutoUO
  have hstamps : SameStamps (word ++ [s]) (applyAutoUO cfg (word ++ [s])) :=
    sameStamps_applyAutoUO huntoned
  have hmods := fun m => @mod_applyAutoUO_cases (word ++ [s]) m _ cfg
  have hlength : (applyAutoUO cfg (word ++ [s])).length = word.length + 1 := by
    rw [SameBases.applyAutoUO.length_eq, List.length_append]
    rfl
  generalize applyAutoUO cfg (word ++ [s]) = final at *
  have hne : final ≠ [] := List.ne_nil_of_length_eq_add_one hlength
  obtain ⟨letters, last, rfl⟩ : ∃ letters last, final = letters ++ [last] :=
    ⟨final.dropLast, final.getLast hne, (List.dropLast_append_getLast hne).symm⟩
  obtain hlength : letters.length = word.length := by
    rw [List.length_append, List.length_singleton] at hlength
    omega
  have hsize : word.length = states.length := by
    have hsize := congrArg List.length h.frames
    rw [List.length_map, List.length_map, List.length_map] at hsize
    exact hsize
  unfold SameFrames at hframes
  unfold SameStamps at hstamps
  rw [List.map_append, List.map_append] at hframes hstamps
  obtain ⟨hframes, hframe⟩ := List.append_inj' hframes rfl
  obtain ⟨hstamps, hstamp⟩ := List.append_inj' hstamps rfl
  have hlastmod : last.mod = .none := by
    rcases hmods word.length with heq | ⟨hpair, -⟩
    · rw [charAt_concat, ← hlength, charAt_concat] at heq
      exact heq.trans hmod
    · -- the literal is in no pair
      rcases hpair.of_append ho with hpair | ⟨m, hm, hpair⟩
      · exact absurd hpair.lt (by omega)
      · exact absurd hpair.lt (by omega)
  have hlast : last = s := by
    rw [List.map_singleton, List.map_singleton, List.singleton_inj] at hframe hstamp
    cases last
    cases s
    cases hframe
    cases hstamp
    cases hlastmod
    cases hmod
    rfl
  refine ⟨letters, by rw [hlast], hframes.trans h.frames, fun m hm => ?_, fun m hm => ?_⟩
  · have hreadl : charAt (letters ++ [last]) m = charAt letters m := charAt_append (by omega)
    have hreadw : charAt (word ++ [s]) m = charAt word m := charAt_append (by omega)
    have hcases := hmods m
    rw [hreadl, hreadw] at hcases
    rcases hcases with heq | ⟨hpair, heq⟩
    · rcases h.mods m hm with hkept | ⟨hpair, hhorn⟩
      · exact .inl (heq.trans hkept)
      · exact .inr ⟨hpair, heq.trans hhorn⟩
    · exact .inr ⟨hpairs m (hpair.of_append ho), heq⟩
  · have hkey : (charAt letters m).toneRawIdx = (charAt word m).toneRawIdx :=
      congrArg (·.2.2) (charAt_congr (g := CharState.stamp) hstamps)
    rw [hkey]
    exact h.keys m hm

namespace EngineState

variable {st : EngineState} {k : Char} {tone : Tone}

/-- A key that gives an untoned word a tone has passed the gates. -/
lemma exists_toneOfKey (hq : cfg.QuickOff) (hm : cfg.inputMethod = .telex) (hp : st.Plain)
    (hnone : ∀ s ∈ st.states, s.tone = .none)
    (happlied : ¬∀ s ∈ (st.pushChar cfg k).states, s.tone = .none) :
    ∃ a, st.toneOfKey cfg k = some a := by
  have heffect := (pushChar_effect (c := k) hq (by rw [hm]; decide) hp).effect
  cases htone : st.toneOfKey cfg k with
  | none =>
    rw [htone] at heffect
    exact absurd (heffect.untoned hnone) happlied
  | some a => exact ⟨a, rfl⟩

/-- What lets a tone pass. -/
structure TonePasses (cfg : TypingConfig) (st : EngineState) (k : Char) (i : Nat) (tone : Tone) :
    Prop where
  nonempty : st.states ≠ []
  escape : st.escape = .none
  key : tone = (classifyTelex (towlower k)).toTone
  marked : tone ≠ .none
  gates : (toneGates cfg (st.press k) tone k (towlower k)).2 = false
  target : findToneTarget cfg.modernOrtho st.states = some i

/-- A key that sets a tone passes the gates. -/
lemma tonePasses_of_toneOfKey (hm : cfg.inputMethod = .telex)
    (h : st.toneOfKey cfg k = some (i, tone)) : TonePasses cfg st k i tone := by
  unfold toneOfKey appliedTone at h
  dsimp only at h
  rw [classify_telex hm] at h
  split at h
  · cases h
  · next hopen =>
    rw [not_or, not_or, not_or, not_not] at hopen
    obtain ⟨hne, hescape, htone, hgates⟩ := hopen
    obtain ⟨i', hi', heq⟩ := Option.map_eq_some_iff.1 h
    cases heq
    exact ⟨hne, hescape, rfl, htone, Bool.eq_false_iff.2 hgates, hi'⟩

/-- The engine behind a tone that was applied. -/
structure ToneApplied (cfg : TypingConfig) (st st' : EngineState) (k : Char) (i : Nat) (tone : Tone) :
    Prop where
  states : st'.states = applyAutoUO cfg (applyTone st.states i tone st.rawInput.length)
  rawInput : st'.rawInput = st.rawInput ++ [k]
  escape : st'.escape = .none
  bias : st'.engProt.bias = .vietnamese

/-- A tone that passes is applied. -/
lemma TonePasses.applied (hq : cfg.QuickOff) (hm : cfg.inputMethod = .telex) (hp : st.Plain)
    (hnone : ∀ s ∈ st.states, s.tone = .none) (h : TonePasses cfg st k i tone) :
    ToneApplied cfg st (st.pushChar cfg k) k i tone := by
  obtain ⟨hne, hescape, rfl, hmarked, hgates, htarget⟩ := h
  have hlast : (st.press k).rawInput.length - 1 = st.rawInput.length := by
    show (st.rawInput ++ [k]).length - 1 = _
    rw [List.length_append]
    rfl
  have hold : (charAt (st.press k).states i).tone ≠ (classifyTelex (towlower k)).toTone := by
    rw [show charAt (st.press k).states i = charAt st.states i from rfl,
      hnone _ (charAt_mem (findToneTarget_eq_some htarget).1)]
    exact Ne.symm hmarked
  generalize hprot :
    (toneGates cfg (st.press k) (classifyTelex (towlower k)).toTone k (towlower k)).1 = prot
  have hprocess : processTone cfg { st.press k with engProt := prot }
      (classifyTelex (towlower k)).toTone k = some { st.press k with
        engProt := prot
        states := applyTone st.states i (classifyTelex (towlower k)).toTone st.rawInput.length
        escape := .none } := by
    have htarget' : findToneTarget cfg.modernOrtho (st.press k).states = some i := htarget
    unfold processTone
    dsimp only
    rw [htarget']
    dsimp only
    rw [if_neg hold, hlast]
    rfl
  rw [← hprot] at hprocess
  rw [pushChar_tone hq hm hp hne hescape hmarked hgates hprocess]
  exact ⟨rfl, rfl, rfl, rfl⟩

omit [WideLocale] in
/-- A cancelled tone takes its keystroke along. -/
lemma cancelTone_of_key (hkey : (charAt st.states i).toneRawIdx = some n)
    (hlt : n < st.rawInput.length) :
    st.cancelTone i = { st with
      rawInput := st.rawInput.eraseIdx n
      states := (clearTone st.states i).map (CharState.eraseRaw n) } := by
  unfold cancelTone
  rw [hkey]
  dsimp only
  unfold eraseConsumedRaw
  rw [if_neg (Nat.not_le.2 hlt)]
  dsimp only
  rw [clearTone_eraseRaw]

/-- No blocked word ends in a doubled letter. -/
lemma isBlockedEnglishTone_double {raw : List Char} (h : isBlockedEnglishTone (raw ++ [k]) = false) :
    isBlockedEnglishTone (raw ++ [k] ++ [k]) = false := by
  unfold isBlockedEnglishTone matchesRawPrefix at h ⊢
  rw [List.any_eq_false] at h ⊢
  intro pattern hpattern hprefix
  rw [List.isPrefixOf_iff_prefix, List.map_append, List.map_singleton,
    List.prefix_concat_iff] at hprefix
  rcases hprefix with heq | hprefix
  · rw [List.map_append, List.map_singleton] at heq
    have hreverse := congrArg List.reverse heq
    rw [List.reverse_append, List.reverse_append] at hreverse
    unfold kBlockedTonePrefixes at hpattern
    rcases List.mem_pair.1 hpattern with rfl | rfl
    · obtain ⟨hs, hrest⟩ := List.cons.inj hreverse
      exact absurd (hs.trans (List.cons.inj hrest).1.symm) (by decide)
    · obtain ⟨hs, hrest⟩ := List.cons.inj hreverse
      exact absurd (hs.trans (List.cons.inj hrest).1.symm) (by decide)
  · exact h pattern hpattern (List.isPrefixOf_iff_prefix.2 hprefix)

/-- What the gates say of the word a tone comes to. -/
structure TakesTone (st : EngineState) (k : Char) (tone : Tone) : Prop where
  together : Together st.states
  short : st.states.length ≤ kVowelCap
  pairs : hasInvalidAdjacentVowelPair st.states = false
  blocked : isBlockedEnglishTone (st.rawInput ++ [k]) = false
  coda : refusesStop st.states tone = false

/-- The gates of an untoned word stay shut when it is no syllable. -/
lemma toneSpellBlocked_untoned (hexclusions : cfg.spellExclusions = [])
    (hnone : ∀ s ∈ states, s.tone = .none) (htone : tone ≠ .none) :
    toneSpellBlocked cfg states tone = true := by
  unfold toneSpellBlocked
  split
  · rfl
  · next i hi =>
    have huntoned : (charAt states i).tone = .none :=
      hnone _ (charAt_mem (findToneTarget_eq_some hi).1)
    have hexclusion : toneMatchesExclusion cfg states (some i) tone = false := by
      unfold toneMatchesExclusion
      dsimp only
      rw [hexclusions]
      rfl
    dsimp only
    rw [hexclusion, CharState.hasTone, huntoned, beq_eq_false_iff_ne.2 (Ne.symm htone)]
    rfl

/-- A tone only comes to a word that passes the spell check. -/
lemma TonePasses.takesTone (hq : cfg.QuickOff) (hm : cfg.inputMethod = .telex)
    (hcheck : cfg.effectiveSpellCheck) (hexclusions : cfg.spellExclusions = [])
    (hreach : st.ReachableBy cfg) (hnone : ∀ s ∈ st.states, s.tone = .none)
    (h : TonePasses cfg st k i tone) : TakesTone st k tone := by
  obtain ⟨hne, hescape, hkey, hmarked, hgates, htarget⟩ := h
  have hletter : towlower k < '0' ∨ '9' < towlower k := by
    rw [hkey] at hmarked
    exact (classifyTelex_tone hmarked).2.2
  have hopen := (@toneGates_open_iff _ cfg (st.press k) k _ tone hcheck hexclusions hescape hletter).1
    hgates
  obtain ⟨hspell, hblocked, hgate, hcoda⟩ := hopen
  have hflag : st.spellCheckDisabled = false := by
    rw [Bool.eq_false_iff]
    intro hdisabled
    have hshut := hspell hdisabled
    have hblock := @toneSpellBlocked_untoned _ _ cfg tone hexclusions hnone hmarked
    exact absurd (hblock.symm.trans hshut) (by decide)
  obtain ⟨hhard, hpairs⟩ := toneEnglishGate_open hgate
  have hverdict : updateSpellCheck st.states cfg = false := by
    rcases hreach.judged hq hm with hjudged | ⟨hbias, -⟩
    · exact hjudged.symm.trans hflag
    · exact absurd hbias hhard
  have hvalid : validateImpl st.states cfg.allowZwjf ≠ .invalid := by
    have henabled : cfg.spellCheckEnabled = true := (Bool.and_eq_true_iff.1 hcheck).1
    have hvalid := ne_invalid_of_accepted henabled hexclusions hverdict
    exact (validateSyllableState_ne_invalid.1 hvalid).1
  have hshort : st.states.length ≤ kVowelCap := (length_of_ne_invalid hvalid).trans (by decide)
  exact ⟨together_of_ne_invalid hvalid, hshort, hpairs, hblocked, hcoda hflag⟩

/-- The tone that was applied is on the target. -/
lemma ToneApplied.onTarget {st' : EngineState} (htyped : st.Typed)
    (hnone : ∀ s ∈ st.states, s.tone = .none) (hpasses : TonePasses cfg st k i tone)
    (htakes : TakesTone st k tone) (h : ToneApplied cfg st st' k i tone) :
    OnTarget cfg.modernOrtho st.states st'.states tone st.rawInput.length := by
  obtain ⟨hlt, -⟩ := findToneTarget_eq_some hpasses.target
  have hmarks : SameMarks st.states (applyTone st.states i tone st.rawInput.length) := .applyTone
  have htoned : TonedAt st.states (applyTone st.states i tone st.rawInput.length) i tone
      st.rawInput.length := by
    refine ⟨?_, ?_, fun j hj => ?_, fun j hj => ?_⟩
    · rw [applyTone, charAt_modify hlt, if_pos rfl]
    · rw [applyTone, charAt_modify hlt, if_pos rfl]
    · rw [applyTone, charAt_modify hlt, if_neg hj.symm]
      by_cases hj' : j < st.states.length
      · exact hnone _ (charAt_mem hj')
      · rw [charAt_of_length_le (Nat.le_of_not_lt hj')]
    · rw [applyTone, charAt_modify hlt, if_neg hj.symm]
      exact .inr rfl
  rw [h.states]
  refine OnTarget.applyAutoUO ?_ (htyped.bases.same hmarks.bases) hpasses.marked ⟨i, ?_, htoned⟩
  · rw [hmarks.bases.length_eq]
    exact htakes.short
  · exact (hmarks.findToneTarget htyped.bases).trans hpasses.target

/-- The same key passes the gates of the toned word. -/
lemma ToneApplied.gates {st' : EngineState} (hcheck : cfg.effectiveSpellCheck)
    (hexclusions : cfg.spellExclusions = []) (hpasses : TonePasses cfg st k i tone)
    (htakes : TakesTone st k tone) (h : ToneApplied cfg st st' k i tone)
    (htarget : findToneTarget cfg.modernOrtho st'.states = some j)
    (htone : (charAt st'.states j).tone = tone) :
    (toneGates cfg (st'.press k) tone k (towlower k)).2 = false := by
  have hletter : towlower k < '0' ∨ '9' < towlower k := by
    have hmarked := hpasses.marked
    rw [hpasses.key] at hmarked
    exact (classifyTelex_tone hmarked).2.2
  have hsame : SameBases st.states st'.states := by
    rw [h.states]
    exact SameMarks.applyTone.bases.trans .applyAutoUO
  have hmods : ∀ m, (charAt st.states m).hasModifier → (charAt st'.states m).hasModifier := by
    intro m hm
    rw [h.states]
    rcases @mod_applyAutoUO_cases (applyTone st.states i tone st.rawInput.length) m _ cfg with
      heq | ⟨-, heq⟩
    · rw [CharState.hasModifier, heq, SameMarks.applyTone.mods]
      exact hm
    · rw [CharState.hasModifier, heq]
      rfl
  have hpairs := hasInvalidAdjacentVowelPair_mono hsame hmods htakes.pairs
  have hvcv := hasStructuralVCVPattern_of_together (hsame.together htakes.together)
  refine (@toneGates_open_iff _ cfg (st'.press k) k _ tone hcheck hexclusions h.escape hletter).2
    ⟨fun _ => ?_, ?_, ?_, fun _ => ?_⟩
  · -- the key escapes the tone of the target
    show toneSpellBlocked cfg st'.states tone = false
    unfold toneSpellBlocked
    rw [htarget]
    dsimp only
    rw [htone]
    simp
  · show isBlockedEnglishTone (st'.rawInput ++ [k]) = false
    rw [h.rawInput]
    exact isBlockedEnglishTone_double htakes.blocked
  · refine (@toneEnglishGate_iff _ (st'.press k) k true ?_ ?_ hvcv).2 hpairs
    · show st'.engProt.bias ≠ .hardEnglish
      rw [h.bias]
      decide
    · show st'.engProt.bias ≠ .softEnglish
      rw [h.bias]
      decide
  · show refusesStop st'.states tone = false
    have hcoda := htakes.coda
    unfold refusesStop at hcoda ⊢
    rwa [hsame.hasStopFinalCoda]

/-- The engine behind the second press: the tone is cleared, and the key stands behind the word. -/
structure ToneEscaped (cfg : TypingConfig) (toned st' : EngineState) (k : Char) (j n : Nat) : Prop where
  states : st'.states = applyAutoUO cfg ((clearTone toned.states j).map (CharState.eraseRaw n) ++
    [{ base := towlower k, isUpper := iswupper k, rawIdx := n }])
  rawInput : st'.rawInput = toned.rawInput
  escape : st'.escape = .tone

/-- The same tone again takes it back. -/
lemma ToneApplied.escaped {st' : EngineState} (hq : cfg.QuickOff) (hm : cfg.inputMethod = .telex)
    (hp : st'.Plain) (hpasses : TonePasses cfg st k i tone) (h : ToneApplied cfg st st' k i tone)
    (hgates : (toneGates cfg (st'.press k) tone k (towlower k)).2 = false)
    (htarget : findToneTarget cfg.modernOrtho st'.states = some j)
    (htoned : TonedAt st.states st'.states j tone st.rawInput.length) :
    ToneEscaped cfg st' (st'.pushChar cfg k) k j st.rawInput.length := by
  obtain ⟨hne, -, rfl, hmarked, -, -⟩ := hpasses
  have hne' : st'.states ≠ [] := by
    intro hnil
    have hlt := (findToneTarget_eq_some htarget).1
    rw [hnil] at hlt
    cases hlt
  have hraw : (st'.rawInput ++ [k]).eraseIdx st.rawInput.length = st'.rawInput := by
    rw [h.rawInput, List.append_assoc, List.eraseIdx_append_of_length_le (Nat.le_refl _), Nat.sub_self]
    rfl
  have hlength : st'.rawInput.length - 1 = st.rawInput.length := by
    rw [h.rawInput, List.length_append]
    rfl
  generalize hprot :
    (toneGates cfg (st'.press k) (classifyTelex (towlower k)).toTone k (towlower k)).1 = prot
  have hcancel : ({ st'.press k with engProt := prot } : EngineState).cancelTone j =
      { st'.press k with
        engProt := prot
        rawInput := st'.rawInput
        states := (clearTone st'.states j).map (CharState.eraseRaw st.rawInput.length) } := by
    have hlt : st.rawInput.length <
        ({ st'.press k with engProt := prot } : EngineState).rawInput.length := by
      show st.rawInput.length < (st'.rawInput ++ [k]).length
      rw [h.rawInput, List.length_append, List.length_append]
      exact Nat.lt_of_lt_of_le (Nat.lt_succ_self _) (Nat.le_add_right _ _)
    rw [@cancelTone_of_key j st.rawInput.length { st'.press k with engProt := prot } htoned.key hlt]
    show ({ st'.press k with
      engProt := prot
      rawInput := (st'.rawInput ++ [k]).eraseIdx st.rawInput.length
      states := (clearTone st'.states j).map (CharState.eraseRaw st.rawInput.length) } :
        EngineState) = _
    rw [hraw]
  have hprocess : processTone cfg { st'.press k with engProt := prot }
      (classifyTelex (towlower k)).toTone k = some { ({ st'.press k with
        engProt := prot
        rawInput := st'.rawInput
        states := (clearTone st'.states j).map (CharState.eraseRaw st.rawInput.length) } :
          EngineState).processKey k with escape := .tone } := by
    have htarget' : findToneTarget cfg.modernOrtho (st'.press k).states = some j := htarget
    have htone : (charAt (st'.press k).states j).tone = (classifyTelex (towlower k)).toTone :=
      htoned.tone
    unfold processTone
    dsimp only
    rw [htarget']
    dsimp only
    rw [if_pos htone, hcancel]
  rw [← hprot] at hprocess
  rw [pushChar_tone hq hm hp hne' h.escape hmarked hgates hprocess]
  refine ⟨?_, rfl, rfl⟩
  show applyAutoUO cfg ((clearTone st'.states j).map (CharState.eraseRaw st.rawInput.length) ++
    [{ base := towlower k, isUpper := iswupper k, rawIdx := st'.rawInput.length - 1 }]) = _
  rw [hlength]

/-- A tone key that was pressed twice: the word, the key as a literal, and one keystroke for it. -/
structure TakesToneBack (completed : List CharState → Nat → Prop) (st st' : EngineState) (k : Char) :
    Prop where
  states : ∃ letters, st'.states = letters ++
      [{ base := towlower k, isUpper := iswupper k, rawIdx := st.rawInput.length }] ∧
    Restores completed st.rawInput.length st.states letters
  untoned : ∀ s ∈ st'.states, s.tone = .none
  escape : st'.escape = .tone
  rawInput : st'.rawInput = st.rawInput ++ [k]

/-- The pairs of the toned word are pairs of the word before. -/
lemma ToneApplied.inHalfPair {st' : EngineState} {m : Nat} (h : ToneApplied cfg st st' k i tone)
    (hpair : InHalfPair st'.states m) : InHalfPair st.states m := by
  rw [h.states] at hpair
  exact SameMarks.applyTone.inHalfPair hpair.of_applyAutoUO

/-- The toned word without its tone. -/
lemma ToneApplied.restores {st' : EngineState} (h : ToneApplied cfg st st' k i tone)
    (htoned : TonedAt st.states st'.states j tone st.rawInput.length) (hj : j < st'.states.length) :
    Restores InHalfPair st.rawInput.length st.states
      ((clearTone st'.states j).map (CharState.eraseRaw st.rawInput.length)) := by
  refine ⟨?_, fun m _ => ?_, fun m _ => ?_⟩
  · have happlied : SameFrames st.states (applyTone st.states i tone st.rawInput.length) :=
      SameFrames.modify (by intro _; rfl)
    have hcleared : SameFrames st'.states (clearTone st'.states j) :=
      SameFrames.modify (by intro _; rfl)
    rw [h.states] at hcleared ⊢
    exact ((happlied.trans .applyAutoUO).trans hcleared).eraseRaw
  · rw [SameMarks.cleared.mods m, h.states]
    rcases @mod_applyAutoUO_cases (applyTone st.states i tone st.rawInput.length) m _ cfg with
      heq | ⟨hpair, heq⟩
    · exact .inl (heq.trans (SameMarks.applyTone.mods m))
    · exact .inr ⟨SameMarks.applyTone.inHalfPair hpair, heq⟩
  · rw [charAt_eraseRaw, clearTone, charAt_modify hj]
    split
    · exact .inl rfl
    · next hne =>
      unfold CharState.eraseRaw
      dsimp only
      rcases htoned.keys m (Ne.symm hne) with hnone | hkept
      · rw [hnone]
        exact .inl rfl
      · rw [hkept]
        exact .inr rfl

/-- A tone key pressed twice on an untoned word takes its tone back. -/
theorem doubleTone_takesBack {st : EngineState} {k : Char} (h : st.ReachableBy {})
    (hnone : ∀ s ∈ st.states, s.tone = .none)
    (happlied : ¬∀ s ∈ (st.pushChar {} k).states, s.tone = .none) :
    TakesToneBack InHalfPair st ((st.pushChar {} k).pushChar {} k) k := by
  have hq : ({} : TypingConfig).QuickOff := ⟨rfl, rfl, rfl⟩
  have hp : st.Plain := h.plain hq (by decide)
  -- the first press
  obtain ⟨⟨i, tone⟩, hkey⟩ := exists_toneOfKey hq rfl hp hnone happlied
  have hpasses := tonePasses_of_toneOfKey rfl hkey
  have htakes := hpasses.takesTone hq rfl rfl rfl h hnone
  have htoned := hpasses.applied hq rfl hp hnone
  have hp' : (st.pushChar {} k).Plain := hp.pushChar hq (by decide)
  obtain ⟨j, htarget, hone⟩ := htoned.onTarget h.reachable.typed hnone hpasses htakes
  obtain ⟨hlt, -⟩ := findToneTarget_eq_some htarget
  -- the second press
  have hgates := htoned.gates rfl rfl hpasses htakes htarget hone.tone
  have hescaped := htoned.escaped hq rfl hp' hpasses hgates htarget hone
  have hrestores := htoned.restores hone hlt
  have hcleared := hone.cleared (j := st.rawInput.length) hlt
  have hpairs : ∀ m, InHalfPair ((clearTone (st.pushChar {} k).states j).map
      (CharState.eraseRaw st.rawInput.length)) m → InHalfPair st.states m :=
    fun _ hpair => htoned.inHalfPair (SameMarks.cleared.inHalfPair hpair)
  have hletter : towlower k ≠ 'o' := by
    intro ho
    have hmarked := hpasses.marked
    rw [hpasses.key, ho] at hmarked
    exact hmarked rfl
  obtain ⟨letters, hstates, hletters⟩ := @Restores.behind _ _ _ {} _
    { base := towlower k, isUpper := iswupper k, rawIdx := st.rawInput.length }
    hrestores hcleared hpairs hletter rfl rfl
  refine ⟨⟨letters, ?_, hletters⟩, ?_, hescaped.escape, ?_⟩
  · rw [hescaped.states, hstates]
  · rw [hescaped.states]
    refine reworks_applyAutoUO.untoned fun s hs => ?_
    rcases List.mem_append.1 hs with hmem | hmem
    · exact hcleared s hmem
    · rw [List.mem_singleton.1 hmem]
  · rw [hescaped.rawInput, htoned.rawInput]

end EngineState

end Locale

section Ascii

attribute [local instance] WideLocale.ascii

open EngineState

/-- `hưo`. -/
def hornedHuo : EngineState :=
  (((pushChar {} {} 'h').pushChar {} 'u').pushChar {} 'w').pushChar {} 'o'

/-- The example is reached by typing. -/
lemma hornedHuo_reachable : hornedHuo.ReachableBy {} := by
  unfold hornedHuo
  exact .push (.push (.push (.push .init (by decide)) (by decide)) (by decide)) (by decide)

/-- `huwoss` is `hươs`. -/
theorem doubleTone_takesBack_huo :
    TakesToneBack InHalfPair hornedHuo ((hornedHuo.pushChar {} 's').pushChar {} 's') 's' :=
  doubleTone_takesBack hornedHuo_reachable (by decide +kernel) (by decide +kernel)

/-- Its `o` has a horn, and stands in no pair `uơ`. -/
theorem not_doubleTone_takesBack_huo : ¬∀ {st : EngineState} {k : Char}, st.ReachableBy {} →
    (∀ s ∈ st.states, s.tone = .none) → (¬∀ s ∈ (st.pushChar {} k).states, s.tone = .none) →
    TakesToneBack (fun states i => HalfHorned states i ∧ (charAt states i).mod = .none) st
      ((st.pushChar {} k).pushChar {} k) k := by
  intro h
  obtain ⟨⟨letters, hstates, hletters⟩, -, -, -⟩ :=
    @h hornedHuo 's' hornedHuo_reachable (by decide +kernel) (by decide +kernel)
  have hhorn : (charAt ((hornedHuo.pushChar {} 's').pushChar {} 's').states 2).mod = .horn := by
    decide +kernel
  have hlength : 2 < letters.length := by
    have hsize := congrArg List.length hstates
    rw [List.length_append] at hsize
    have hfour : ((hornedHuo.pushChar {} 's').pushChar {} 's').states.length = 4 := by decide +kernel
    rw [hfour, List.length_singleton] at hsize
    omega
  rw [hstates, charAt_append hlength] at hhorn
  rcases hletters.mods 2 (by decide +kernel) with hkept | ⟨⟨hpair, -⟩, -⟩
  · rw [hhorn] at hkept
    revert hkept
    decide +kernel
  · revert hpair
    decide +kernel

end Ascii

end NextKey
