import NextKey.Engine.DoubleTone

/-!
# The gates and the vowel table

What the gates of a tone key make of a syllable that keeps its place in the grammar when it takes the
tone. The approximations of the English protection agree with the vowel table on every nucleus but one:
`oo` is in the table, and `HasInvalidAdjacentVowelPair` has no exception for it. So the tone is applied
exactly when no two plain `o` stand together (`tone_applied_iff`).
-/

namespace NextKey

open Phonology

variable {states : List CharState} {allowZwjf : Bool} {i : Nat}

/-- Two vowels that `HasInvalidAdjacentVowelPair` takes for English. -/
def noDiphthong (b c : Char) : Bool :=
  !([('i', 'e'), ('y', 'a'), ('y', 'e')].contains (b, c)) &&
    match diphthongVowelIndex b, diphthongVowelIndex c with
    | some v0, some v1 => kDiphthongClassic v0 v1 == .noRule && kDiphthongModern v0 v1 == .noRule
    | _, _ => false

/-- The invalid pairs are looked for at each index. -/
lemma hasInvalidAdjacentVowelPair_eq_any : hasInvalidAdjacentVowelPair states =
    (List.range (states.length - 1)).any fun i =>
      (charAt states i).isVowel && (charAt states (i + 1)).isVowel &&
        !(charAt states i).hasModifier && !(charAt states (i + 1)).hasModifier &&
          !isClusterConsonant states i &&
            noDiphthong (charAt states i).base (charAt states (i + 1)).base := by
  refine congrArg (List.any _) (funext fun i => ?_)
  exact Bool.and_assoc ..

/-- Two plain `o` in a row. -/
def hasPlainOO (states : List CharState) : Bool :=
  (List.range (states.length - 1)).any fun i =>
    (charAt states i).base == 'o' && !(charAt states i).hasModifier &&
      (charAt states (i + 1)).base == 'o' && !(charAt states (i + 1)).hasModifier

/-- Two plain `o` in a row. -/
lemma hasPlainOO_iff : hasPlainOO states ↔ ∃ i < states.length - 1,
    ((charAt states i).base = 'o' ∧ (charAt states i).mod = .none) ∧
      (charAt states (i + 1)).base = 'o' ∧ (charAt states (i + 1)).mod = .none := by
  simp only [hasPlainOO, List.any_eq_true, List.mem_range, Bool.and_eq_true, beq_iff_eq,
    Bool.not_eq_true', CharState.hasModifier, bne_eq_false_iff_eq, and_assoc]

namespace Phonology

variable {onset nucleus coda : List CharState}

/-- A coda has no vowels. -/
lemma IsSyllable.consonants (h : IsSyllable allowZwjf states onset nucleus coda) :
    ∀ s ∈ coda, s.isVowel = false := by
  obtain ⟨-, -, -, rfl | ⟨-, f, hf, -⟩⟩ := h.rime
  · exact List.forall_mem_nil _
  · exact Final.consonants hf

/-- An initial consonant has no vowel. -/
lemma initialConsonants_letters {letters : List Char} (h : letters ∈ initialConsonants allowZwjf) :
    ∀ c ∈ letters, isVowelBase c = false := by
  have hall : ((initialConsonants allowZwjf).all fun l => l.all fun c => !isVowelBase c) = true := by
    cases allowZwjf <;> rfl
  intro c hc
  simpa using List.all_eq_true.1 (List.all_eq_true.1 hall letters h) c hc

/-- A vowel of the onset, in front of another vowel, is the glide of `gi` or `qu`. -/
lemma IsSyllable.glide (h : IsSyllable allowZwjf states onset nucleus coda) (hi : i < onset.length)
    (hvowel : (charAt states i).isVowel) (hnext : (charAt states (i + 1)).isVowel) :
    isClusterConsonant states i = true := by
  have hread : ∀ {k}, k < onset.length → charAt states k = charAt onset k := by
    intro k hk
    rw [h.eq, List.append_assoc, charAt, charAt, List.getD_append _ _ _ _ hk]
  have hlt := lt_length_of_isVowel hnext
  have hpair : ∀ {b c : Char}, onset.map (·.base) = [b, c] → isVowelBase b = false →
      i = 1 ∧ (charAt states 0).base = b ∧ (charAt states 1).base = c := by
    intro b c honset hb
    obtain ⟨s, rest, rfl, rfl, hrest⟩ := List.map_eq_cons_iff.1 honset
    obtain ⟨t, rest', rfl, rfl, hrest'⟩ := List.map_eq_cons_iff.1 hrest
    obtain rfl := List.map_eq_nil_iff.1 hrest'
    refine ⟨?_, congrArg (·.base) (hread (Nat.zero_lt_two)), congrArg (·.base) (hread Nat.one_lt_two)⟩
    cases i with
    | zero =>
      rw [hread Nat.zero_lt_two] at hvowel
      exact absurd (hvowel.symm.trans hb) (by decide)
    | succ k =>
      have hk : k + 1 < 2 := hi
      omega
  rcases h.opens with rfl | hgi | hqu | ⟨hmem, -⟩
  · cases hi
  · obtain ⟨rfl, h0, h1⟩ := hpair hgi rfl
    rw [isClusterConsonant, h0, h1, hnext, decide_eq_true hlt]
    rfl
  · obtain ⟨rfl, h0, h1⟩ := hpair hqu rfl
    rw [isClusterConsonant, h0, h1]
    simp
  · have hletter : (charAt onset i).base ∈ onset.map (·.base) := List.mem_map_of_mem (charAt_mem hi)
    rw [hread hi, CharState.isVowel, initialConsonants_letters hmem _ hletter] at hvowel
    cases hvowel

/-- Two adjacent vowels outside the onset are adjacent in the nucleus. -/
lemma IsSyllable.adjacent (h : IsSyllable allowZwjf states onset nucleus coda)
    (hvowel : (charAt states i).isVowel) (hnext : (charAt states (i + 1)).isVowel)
    (hcluster : isClusterConsonant states i = false) :
    ∃ j, nucleus[j]? = some (charAt states i) ∧ nucleus[j + 1]? = some (charAt states (i + 1)) := by
  have honset : onset.length ≤ i := by
    by_contra hlt
    have hglide := h.glide (Nat.lt_of_not_le hlt) hvowel hnext
    rw [hcluster] at hglide
    cases hglide
  have hread : ∀ {k}, onset.length ≤ k → (charAt states k).isVowel →
      nucleus[k - onset.length]? = some (charAt states k) := by
    intro k hk hkvowel
    have hlt := lt_length_of_isVowel hkvowel
    rw [h.eq, List.append_assoc, charAt, List.getD_append_right _ _ _ _ hk] at hkvowel ⊢
    by_cases hnucleus : k - onset.length < nucleus.length
    · rw [List.getD_append _ _ _ _ hnucleus, List.getD_eq_getElem _ _ hnucleus]
      exact List.getElem?_eq_getElem hnucleus
    · -- behind the nucleus stand consonants
      rw [List.getD_append_right _ _ _ _ (Nat.le_of_not_lt hnucleus)] at hkvowel
      have hcoda := lt_length_of_isVowel hkvowel
      rw [List.getD_eq_getElem _ _ hcoda, h.consonants _ (List.getElem_mem hcoda)] at hkvowel
      cases hkvowel
  refine ⟨i - onset.length, hread honset hvowel, ?_⟩
  have hbehind := hread (Nat.le_succ_of_le honset) hnext
  rwa [Nat.succ_sub honset] at hbehind

/-- The slots of two adjacent vowels. -/
def adjacentSlots : List (VowelSlot × VowelSlot) :=
  kVowelTable.flatMap fun entry => entry.key.zip entry.key.tail

/-- Two adjacent vowels of a syllable are adjacent in the vowel table. -/
lemma IsSyllable.slots (h : IsSyllable allowZwjf states onset nucleus coda)
    (hvowel : (charAt states i).isVowel) (hnext : (charAt states (i + 1)).isVowel)
    (hcluster : isClusterConsonant states i = false) :
    ∃ s t, (s, t) ∈ adjacentSlots ∧
      (charAt states i).base = s.base.letter ∧ modOrdinal (charAt states i).mod = s.mod ∧
        (charAt states (i + 1)).base = t.base.letter ∧
          modOrdinal (charAt states (i + 1)).mod = t.mod := by
  obtain ⟨j, hj, hj'⟩ := h.adjacent hvowel hnext hcluster
  obtain ⟨entry, hentry, hspells, -⟩ := h.rime
  have hslot : ∀ {k : Nat} {s : CharState}, nucleus[k]? = some s →
      ∃ slot : VowelSlot, entry.key[k]? = some slot ∧
        s.base = slot.base.letter ∧ modOrdinal s.mod = slot.mod := by
    intro k s hs
    have hmap := congrArg (fun l => l[k]?) hspells
    rw [List.getElem?_map, List.getElem?_map, hs] at hmap
    obtain ⟨slot, hslot, heq⟩ := Option.map_eq_some_iff.1 hmap.symm
    obtain ⟨hbase, hmod⟩ := Prod.mk.inj heq
    exact ⟨slot, hslot, hbase.symm, hmod.symm⟩
  obtain ⟨s, hs, hbase, hmod⟩ := hslot hj
  obtain ⟨t, ht, hbase', hmod'⟩ := hslot hj'
  refine ⟨s, t, List.mem_flatMap.2 ⟨entry, hentry, ?_⟩, hbase, hmod, hbase', hmod'⟩
  refine List.mem_iff_getElem?.2 ⟨j, List.getElem?_zip_eq_some.2 ⟨hs, ?_⟩⟩
  rw [List.getElem?_tail]
  exact ht

/-- The plain pairs of the table are diphthongs to the English protection, but for `oo`. -/
lemma adjacentSlots_plain : ∀ p ∈ adjacentSlots, p.1.mod = .none → p.2.mod = .none →
    noDiphthong p.1.base.letter p.2.base.letter = true → p.1.base = .o ∧ p.2.base = .o := by
  decide

/-- No nucleus of the table has `ư` in front of a plain `o`. -/
lemma adjacentSlots_horn : ∀ p ∈ adjacentSlots, ¬(p.1 = Slot.uHorn ∧ p.2 = Slot.o) := by
  decide

end Phonology

/-- In a syllable the pairs that are taken for English are the plain `oo`. -/
lemma hasInvalidAdjacentVowelPair_eq (hvalid : validateSyllableState states allowZwjf = .valid) :
    hasInvalidAdjacentVowelPair states = hasPlainOO states := by
  obtain ⟨-, onset, nucleus, coda, hsyllable⟩ := validateSyllableState_iff_isSyllable.1 hvalid
  rw [Bool.eq_iff_iff, hasPlainOO_iff, hasInvalidAdjacentVowelPair_eq_any, List.any_eq_true]
  constructor
  · rintro ⟨i, hi, hpair⟩
    rw [Bool.and_eq_true, Bool.and_eq_true, Bool.and_eq_true, Bool.and_eq_true, Bool.and_eq_true,
      Bool.not_eq_true', Bool.not_eq_true', Bool.not_eq_true'] at hpair
    obtain ⟨⟨⟨⟨⟨hvowel, hnext⟩, hplain⟩, hplain'⟩, hcluster⟩, hno⟩ := hpair
    have hmod : (charAt states i).mod = .none := by simpa [CharState.hasModifier] using hplain
    have hmod' : (charAt states (i + 1)).mod = .none := by simpa [CharState.hasModifier] using hplain'
    obtain ⟨s, t, hmem, hbase, hslot, hbase', hslot'⟩ := hsyllable.slots hvowel hnext hcluster
    rw [hbase, hbase'] at hno
    rw [hmod] at hslot
    rw [hmod'] at hslot'
    obtain ⟨hs, ht⟩ := adjacentSlots_plain (s, t) hmem hslot.symm hslot'.symm hno
    dsimp only at hs ht
    rw [hs] at hbase
    rw [ht] at hbase'
    exact ⟨i, List.mem_range.1 hi, ⟨hbase, hmod⟩, hbase', hmod'⟩
  · rintro ⟨i, hi, ⟨hbase, hmod⟩, hbase', hmod'⟩
    refine ⟨i, List.mem_range.2 hi, ?_⟩
    have hcluster : isClusterConsonant states i = false := by
      rw [isClusterConsonant, hbase]
      simp
    rw [hcluster, CharState.isVowel, CharState.isVowel, CharState.hasModifier, CharState.hasModifier,
      hbase, hmod, hbase', hmod']
    rfl

/-- The pairs a syllable leaves to `ApplyAutoUO` are `uơ`. -/
lemma halfHorned_of_valid (hvalid : validateSyllableState states allowZwjf = .valid)
    (h : HalfHorned states i) : (charAt states i).mod = .none := by
  obtain ⟨-, onset, nucleus, coda, hsyllable⟩ := validateSyllableState_iff_isSyllable.1 hvalid
  obtain ⟨⟨hvowel, hcluster⟩, hnext, -⟩ := h.nucleus
  obtain ⟨-, hu, ho, ⟨hmod, -⟩ | ⟨hmod, hmod'⟩⟩ := h
  · exact hmod
  · obtain ⟨s, t, hmem, hbase, hslot, hbase', hslot'⟩ := hsyllable.slots hvowel hnext hcluster
    refine absurd ⟨?_, ?_⟩ (adjacentSlots_horn (s, t) hmem)
    · rw [hu] at hbase
      rw [hmod] at hslot
      obtain ⟨base, mod⟩ := s
      cases hslot
      cases base <;> first | rfl | cases hbase
    · rw [ho] at hbase'
      rw [hmod'] at hslot'
      obtain ⟨base, mod⟩ := t
      cases hslot'
      cases base <;> first | rfl | cases hbase'

section Locale
variable [WideLocale] {cfg : TypingConfig} {tone : Tone} {key : Nat}

/-- A final that ends a buffer in a stop coda is a stop. -/
lemma isStop_of_stopCoda {coda : List CharState} {f : Final} :
    coda.map (·.base) = f.letters →
      (match coda with
        | [c] => ['c', 'k', 'p', 't'].contains (towlower c.base)
        | [c0, c1] => towlower c0.base == 'c' && towlower c1.base == 'h'
        | _ => false) = true → f.isStop := by
  intro hletters hstop
  have hlower : ∀ c : Char, c.toNat < 128 → towlower c = c.toLower := WideLocale.towlower_ascii
  cases f <;> simp only [Final.letters, List.map_eq_cons_iff, List.map_eq_nil_iff] at hletters
  case c | k | p | t | ch => rfl
  case m | n =>
    obtain ⟨x, _, rfl, hx, rfl⟩ := hletters
    dsimp only at hstop
    rw [hx, hlower _ (by decide)] at hstop
    cases hstop
  case ng | nh =>
    obtain ⟨x, _, rfl, hx, y, _, rfl, hy, rfl⟩ := hletters
    dsimp only at hstop
    rw [hx, hlower _ (by decide)] at hstop
    cases hstop

/-- A syllable with a stop coda has a tone that goes before it. -/
lemma stopTone_of_valid (hvalid : validateSyllableState states allowZwjf = .valid)
    (hstop : hasStopFinalCoda states) : stopTone (getTone states) := by
  obtain ⟨-, onset, nucleus, coda, hsyllable⟩ := validateSyllableState_iff_isSyllable.1 hvalid
  obtain ⟨entry, hentry, hspells, hcoda⟩ := hsyllable.rime
  obtain ⟨hvowels, v, rest, hne⟩ := exists_cons_of_spells hentry hspells
  obtain ⟨init, last, rfl⟩ := (List.eq_nil_or_concat nucleus).resolve_left (by rw [hne]; simp)
  have hstates : states = (onset ++ init) ++ last :: coda := by
    rw [hsyllable.eq]
    simp
  have hdrop : ((onset ++ init) ++ last :: coda).drop ((onset ++ init).length + 1) = coda := by
    rw [List.drop_length_add_append]
    rfl
  have hlast : last.isVowel := hvowels last (by simp)
  rw [hasStopFinalCoda, hstates, lastIdx?_isVowel hlast hsyllable.consonants] at hstop
  dsimp only at hstop
  rw [hdrop] at hstop
  rcases hcoda with rfl | ⟨-, f, hletters, -, htone⟩
  · cases hstop
  · exact htone (isStop_of_stopCoda hletters hstop)

omit [WideLocale] in
/-- The tone of a buffer that has one. -/
lemma getTone_applyTone (hnone : ∀ s ∈ states, s.tone = .none) (hi : i < states.length)
    (htone : tone ≠ .none) : getTone (states.modify i fun s => { s with tone := tone }) = tone := by
  have hread : ∀ j, charAt (states.modify i fun s => { s with tone := tone }) j =
      if i = j then { charAt states i with tone := tone } else charAt states j :=
    fun _ => charAt_modify hi
  have htoned : ∃ s ∈ states.modify i fun s => { s with tone := tone }, s.hasTone := by
    refine ⟨charAt (states.modify i fun s => { s with tone := tone }) i, charAt_mem ?_, ?_⟩
    · rwa [List.length_modify]
    · rw [hread, if_pos rfl, CharState.hasTone, bne_iff_ne]
      exact htone
  unfold getTone
  cases hfind : (states.modify i fun s => { s with tone := tone }).find? (·.hasTone) with
  | none =>
    obtain ⟨s, hs, hs'⟩ := htoned
    exact absurd hs' (List.find?_eq_none.1 hfind s hs)
  | some s =>
    dsimp only
    have hs : s.hasTone := List.find?_some hfind
    obtain ⟨j, hj, rfl⟩ := exists_charAt (List.mem_of_find?_eq_some hfind)
    rw [hread] at hs ⊢
    split
    · rfl
    · next hne =>
      rw [if_neg hne, CharState.hasTone, bne_iff_ne] at hs
      rw [List.length_modify] at hj
      exact absurd (hnone _ (charAt_mem hj)) hs

/-- A tone that keeps the word a syllable is not refused by its coda. -/
lemma refusesStop_of_valid (hnone : ∀ s ∈ states, s.tone = .none) (hi : i < states.length)
    (htone : tone ≠ .none) (hkeeps : validateSyllableState (states.modify i fun s =>
      { s with tone := tone }) allowZwjf = .valid) : refusesStop states tone = false := by
  have hsame : SameBases states (states.modify i fun s => { s with tone := tone }) :=
    SameBases.modify (by intro _; rfl)
  have hfits := stopTone_of_valid hkeeps
  rw [hsame.hasStopFinalCoda, getTone_applyTone hnone hi htone] at hfits
  unfold refusesStop
  cases hstop : hasStopFinalCoda states with
  | false => exact Bool.and_false _
  | true =>
    have hfit := hfits hstop
    cases tone <;> first | rfl | cases hfit

/-- `ApplyAutoUO` completes a syllable in front of its last horn, and the tone stays where it is. -/
lemma sameStamps_applyAutoUO_of_horned (h : ∀ j, HalfHorned states j → (charAt states j).mod = .none) :
    SameStamps states (applyAutoUO cfg states) := by
  unfold applyAutoUO
  generalize (List.range (states.length - 2)).drop (states.length - 4) = positions
  induction positions generalizing states with
  | nil => rfl
  | cons i positions ih =>
    have hround : SameStamps states (autoUOAt cfg states i) := by
      by_cases hpair : HalfHorned states i
      · rcases @HalfHorned.autoUOAt states i _ cfg hpair with ⟨-, heq⟩ | ⟨hnone, -⟩
        · rw [heq]
          exact sameStamps_setMod
        · obtain ⟨-, -, -, ⟨-, hhorn⟩ | ⟨hhorn, -⟩⟩ := id hpair
          · rw [hhorn] at hnone
            cases hnone
          · rw [h i hpair] at hhorn
            cases hhorn
      · rw [autoUOAt_eq_self hpair]
        rfl
    refine hround.trans (ih fun j hj => ?_)
    obtain ⟨hj, hne⟩ := halfHorned_autoUOAt.1 hj
    rw [mod_autoUOAt, if_neg]
    · exact h j hj
    · rintro ⟨hpair, rfl | rfl⟩
      · exact hne rfl
      · exact (hpair.disjoint hj hne).1 rfl

namespace EngineState

/-- The tone is on the vowel, and no letter was added. -/
def AppliesTone (st st' : EngineState) (i : Nat) (tone : Tone) : Prop :=
  (charAt st'.states i).tone = tone ∧ st'.states.length = st.states.length

/-- A syllable is not marked as invalid. -/
lemma updateSpellCheck_of_valid (hvalid : validateSyllableState states cfg.allowZwjf = .valid) :
    updateSpellCheck states cfg = false := by
  unfold updateSpellCheck
  split
  · rfl
  · split
    · rfl
    · rw [hvalid]
      rfl

/-- A tone that keeps the word a syllable is applied to its target exactly when the word has no plain
    `oo`. -/
theorem tone_applied_iff {st : EngineState} {k : Char} (h : st.ReachableBy {})
    (hvalid : validateSyllableState st.states false = .valid)
    (hnone : ∀ s ∈ st.states, s.tone = .none) (hescape : st.escape = .none)
    (hhard : st.engProt.bias ≠ .hardEnglish) (hsoft : st.engProt.bias ≠ .softEnglish)
    (hblocked : isBlockedEnglishTone (st.rawInput ++ [k]) = false)
    (hkey : (classifyTelex (towlower k)).toTone = tone) (htone : tone ≠ .none)
    (htarget : findToneTarget true st.states = some i)
    (hkeeps : validateSyllableState (st.states.modify i fun s => { s with tone := tone }) false =
      .valid) :
    st.AppliesTone (st.pushChar {} k) i tone ↔ hasPlainOO st.states = false := by
  have hq : ({} : TypingConfig).QuickOff := ⟨rfl, rfl, rfl⟩
  have hp : st.Plain := h.plain hq (by decide)
  obtain ⟨hlt, -⟩ := findToneTarget_eq_some htarget
  have hne : st.states ≠ [] := List.ne_nil_of_length_pos (Nat.zero_lt_of_lt hlt)
  have hmarked : (classifyTelex (towlower k)).toTone ≠ .none := by rwa [hkey]
  have hletter := (classifyTelex_tone hmarked).2.2
  have hflag : st.spellCheckDisabled = false := by
    rcases h.judged hq rfl with hjudged | ⟨hbias, -⟩
    · exact hjudged.trans (updateSpellCheck_of_valid hvalid)
    · exact absurd hbias hhard
  have htogether : Together st.states := by
    have hne : validateSyllableState st.states false ≠ .invalid := by
      rw [hvalid]
      decide
    exact together_of_ne_invalid (validateSyllableState_ne_invalid.1 hne).1
  have hcoda := refusesStop_of_valid hnone hlt htone hkeeps
  have hgate := @toneEnglishGate_iff _ (st.press k) k true hhard hsoft
    (hasStructuralVCVPattern_of_together htogether)
  have hpairs : hasInvalidAdjacentVowelPair (st.press k).states = hasPlainOO st.states :=
    hasInvalidAdjacentVowelPair_eq hvalid
  rw [hpairs] at hgate
  -- every gate but the one of the adjacent vowels is open
  have hopen : (toneGates {} (st.press k) tone k (towlower k)).2 = false ↔
      hasPlainOO st.states = false := by
    rw [@toneGates_open_iff _ {} (st.press k) k _ tone rfl rfl hescape hletter, ← hgate]
    refine ⟨fun hall => hall.2.2.1, fun henglish => ⟨fun hdisabled => ?_, hblocked, henglish, ?_⟩⟩
    · exact absurd (hflag.symm.trans hdisabled) Bool.false_ne_true
    · exact fun _ => hcoda
  rw [← hopen]
  constructor
  · rintro ⟨-, hlength⟩
    by_contra hshut
    rw [Bool.not_eq_false, ← hkey] at hshut
    have hstates := pushChar_refused hq rfl hp hne hescape hmarked hshut
    rw [hstates, List.length_append, List.length_singleton] at hlength
    exact absurd hlength (Nat.succ_ne_self _)
  · intro hgates
    have hpasses : TonePasses {} st k i tone := ⟨hne, hescape, hkey.symm, htone, hgates, htarget⟩
    have hstates := (hpasses.applied hq rfl hp hnone).states
    have hstamps : SameStamps (applyTone st.states i tone st.rawInput.length)
        (applyAutoUO {} (applyTone st.states i tone st.rawInput.length)) := by
      refine sameStamps_applyAutoUO_of_horned fun j hj => ?_
      rw [SameMarks.applyTone.mods]
      exact halfHorned_of_valid hvalid (SameMarks.applyTone.halfHorned hj)
    refine ⟨?_, ?_⟩
    · rw [hstates]
      have hstamp : (charAt (applyAutoUO {} (applyTone st.states i tone st.rawInput.length)) i).tone =
          (charAt (applyTone st.states i tone st.rawInput.length) i).tone :=
        congrArg (·.2.1) (charAt_congr (g := CharState.stamp) hstamps)
      rw [hstamp, applyTone, charAt_modify hlt, if_pos rfl]
    · rw [hstates, SameBases.applyAutoUO.length_eq, SameMarks.applyTone.bases.length_eq]

end EngineState

end Locale

section Ascii

attribute [local instance] WideLocale.ascii

open EngineState

/-- `toan`. -/
def plainToan : EngineState := (((pushChar {} {} 't').pushChar {} 'o').pushChar {} 'a').pushChar {} 'n'

/-- The first example is reached by typing. -/
lemma plainToan_reachable : plainToan.ReachableBy {} := by
  unfold plainToan
  exact .push (.push (.push (.push .init (by decide)) (by decide)) (by decide)) (by decide)

/-- An `s` makes it `toán`. -/
theorem tone_applied_toan : plainToan.AppliesTone (plainToan.pushChar {} 's') 2 .acute ↔
    hasPlainOO plainToan.states = false :=
  tone_applied_iff plainToan_reachable (by decide +kernel) (by decide +kernel) (by decide +kernel)
    (by decide +kernel) (by decide +kernel) (by decide +kernel) (by decide +kernel) (by decide)
    (by decide +kernel) (by decide +kernel)

/-- `xoo`: the third `o` undoes the circumflex. -/
def escapedXoo : EngineState :=
  (((pushChar {} {} 'x').pushChar {} 'o').pushChar {} 'o').pushChar {} 'o'

/-- `xoong`, behind a letter that was taken back and ended the escape. -/
def plainXoong : EngineState :=
  (((escapedXoo.pushChar {} 'n').pushChar {} 'g').pushChar {} 'b').backspace {}

/-- So is the second. -/
lemma plainXoong_reachable : plainXoong.ReachableBy {} := by
  have hxoo : escapedXoo.ReachableBy {} := by
    unfold escapedXoo
    exact .push (.push (.push (.push .init (by decide)) (by decide)) (by decide)) (by decide)
  unfold plainXoong
  exact .back (.push (.push (.push hxoo (by decide)) (by decide)) (by decide))

/-- An `s` behind it is a literal. -/
theorem not_tone_applied_xoong : ¬∀ {st : EngineState} {k : Char} {i : Nat} {tone : Tone},
    st.ReachableBy {} → validateSyllableState st.states false = .valid →
    (∀ s ∈ st.states, s.tone = .none) → st.escape = .none → st.engProt.bias ≠ .hardEnglish →
    st.engProt.bias ≠ .softEnglish → isBlockedEnglishTone (st.rawInput ++ [k]) = false →
    (classifyTelex (towlower k)).toTone = tone → tone ≠ .none →
    findToneTarget true st.states = some i →
    validateSyllableState (st.states.modify i fun s => { s with tone := tone }) false = .valid →
    st.AppliesTone (st.pushChar {} k) i tone := by
  intro h
  obtain ⟨-, hlength⟩ := @h plainXoong 's' 2 .acute plainXoong_reachable (by decide +kernel)
    (by decide +kernel) (by decide +kernel) (by decide +kernel) (by decide +kernel)
    (by decide +kernel) (by decide +kernel) (by decide) (by decide +kernel) (by decide +kernel)
  revert hlength
  decide +kernel

end Ascii

end NextKey
