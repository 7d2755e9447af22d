import NextKey.Engine.AutoUO
import NextKey.Engine.Letters
import NextKey.Engine.SpeculationVerdict

/-!
# The target of the tone

`FindToneTarget` reads the letters and the modifiers of a buffer and nothing else, and a horned vowel
comes first: the last one takes the tone. A buffer in which the target carries the one tone keeps it so
under `ApplyAutoUO`: a pair that is completed hands the tone over to the vowel that is now the target.
-/

namespace NextKey

open Phonology

variable {states states' : List CharState} {i j : Nat}

/-- The same letters with the same modifiers. -/
structure SameMarks (states states' : List CharState) : Prop where
  bases : SameBases states states'
  mods : ∀ i, (charAt states' i).mod = (charAt states i).mod

namespace SameBases

/-- The same bases have the same vowels. -/
lemma isVowel (h : SameBases states states') :
    (NextKey.charAt states' i).isVowel = (NextKey.charAt states i).isVowel := by
  rw [CharState.isVowel, h.charAt]
  rfl

/-- And the same clusters. -/
lemma isClusterConsonant (h : SameBases states states') :
    isClusterConsonant states' i = isClusterConsonant states i := by
  unfold NextKey.isClusterConsonant
  rw [h.charAt, h.charAt, h.isVowel, h.length_eq]

end SameBases

section Locale
variable [WideLocale] {cfg : TypingConfig} {modernOrtho : Bool}

/-- The indices of the vowels are read from the letters. -/
lemma toneVowelIdxs_eq : toneVowelIdxs states = ((List.range states.length).filter fun i =>
    (charAt states i).isVowel && !isClusterConsonant states i).take kVowelCap := by
  unfold toneVowelIdxs
  congr 1
  refine List.filter_congr fun i _ => ?_
  cases hv : (charAt states i).isVowel with
  | false => rfl
  | true =>
    have hshown : compose { charAt states i with tone := .none, isUpper := false } ≠ '\x00' := by
      intro hnul
      have hsome := decompose_compose hv
      rw [hnul] at hsome
      cases hsome
    rw [bne_iff_ne.2 hshown, Bool.and_true]

/-- The tone may stand on the same vowels. -/
lemma SameBases.toneVowelIdxs (h : SameBases states states') :
    toneVowelIdxs states' = toneVowelIdxs states := by
  rw [toneVowelIdxs_eq, toneVowelIdxs_eq, h.length_eq]
  congr 1
  refine List.filter_congr fun i _ => ?_
  rw [h.isVowel, h.isClusterConsonant]

omit [WideLocale] in
/-- Of the coda the placement sees whether there is one. -/
lemma computeTonePosition_coda {vowelSeq coda coda' : List Char} (h : coda.isEmpty = coda'.isEmpty) :
    computeTonePosition vowelSeq coda modernOrtho = computeTonePosition vowelSeq coda' modernOrtho := by
  unfold computeTonePosition
  rw [h]

/-- A buffer has no coda where none of its states shows. -/
lemma coda_isEmpty_iff {n : Nat} :
    ((((states.drop n).map fun s => compose { s with isUpper := false }).filter
      (· ≠ '\x00')).take kVowelCap).isEmpty = true ↔
      ∀ i, n ≤ i → i < states.length → compose { charAt states i with isUpper := false } = '\x00' := by
  rw [List.isEmpty_iff, List.take_eq_nil_iff, or_iff_right (by decide), List.filter_eq_nil_iff]
  constructor
  · intro h i hn hi
    have hmem : charAt states i ∈ states.drop n := by
      rw [List.mem_drop_iff_getElem]
      exact ⟨i - n, by omega, by simp [charAt, hi, Nat.add_sub_cancel' hn]⟩
    simpa using h _ (List.mem_map_of_mem hmem)
  · intro h c hc
    obtain ⟨s, hs, rfl⟩ := List.mem_map.1 hc
    obtain ⟨k, hk, rfl⟩ := List.mem_drop_iff_getElem.1 hs
    have hlt : n + k < states.length := by omega
    have hget : charAt states (n + k) = states[n + k] := List.getD_eq_getElem states {} hlt
    simpa [hget] using h (n + k) (Nat.le_add_right n k) hlt

/-- The same marks make the same target when the same states show, with their tones. -/
lemma SameMarks.findToneTarget_of_shown (h : SameMarks states states')
    (hshown : ∀ i < states.length, compose { charAt states' i with isUpper := false } = '\x00' ↔
      compose { charAt states i with isUpper := false } = '\x00') :
    findToneTarget modernOrtho states' = findToneTarget modernOrtho states := by
  have hseq : ∀ idxs : List Nat,
      (idxs.map fun i => compose { charAt states' i with tone := .none, isUpper := false }) =
        idxs.map fun i => compose { charAt states i with tone := .none, isUpper := false } := by
    intro idxs
    refine List.map_congr_left fun i _ => ?_
    exact compose_congr h.bases.charAt (h.mods i) rfl rfl
  unfold NextKey.findToneTarget
  dsimp only
  rw [h.bases.toneVowelIdxs]
  cases (toneVowelIdxs states).getLast? with
  | none => rfl
  | some last =>
    have hcoda : ((((states'.drop (last + 1)).map fun s => compose { s with isUpper := false }).filter
        (· ≠ '\x00')).take kVowelCap).isEmpty =
        ((((states.drop (last + 1)).map fun s => compose { s with isUpper := false }).filter
          (· ≠ '\x00')).take kVowelCap).isEmpty := by
      rw [Bool.eq_iff_iff, coda_isEmpty_iff, coda_isEmpty_iff, h.bases.length_eq]
      exact forall₃_congr fun i _ hi => hshown i hi
    dsimp only
    rw [hseq, computeTonePosition_coda hcoda]

/-- The same marks have the same target. -/
lemma SameMarks.findToneTarget (h : SameMarks states states') (hb : AsciiBases states) :
    findToneTarget modernOrtho states' = findToneTarget modernOrtho states := by
  apply h.findToneTarget_of_shown
  intro i hi
  have hbase : AsciiKey (charAt states i).base := hb _ (charAt_mem hi)
  have hbase' : AsciiKey (charAt states' i).base := by rwa [h.bases.charAt]
  exact iff_of_false (@compose_ne_nul _ { charAt states' i with isUpper := false } hbase')
    (@compose_ne_nul _ { charAt states i with isUpper := false } hbase)

/-- A vowel of the nucleus that shows a horn. -/
def hornedVowel (states : List CharState) (i : Nat) : Bool :=
  (charAt states i).isVowel && !isClusterConsonant states i &&
    (rendered (charAt states i)).2 == .horn

omit [WideLocale] in
/-- When a vowel counts as horned. -/
lemma hornedVowel_iff : hornedVowel states i ↔ (charAt states i).isVowel ∧
    isClusterConsonant states i = false ∧ (rendered (charAt states i)).2 = .horn := by
  rw [hornedVowel, Bool.and_eq_true, Bool.and_eq_true, Bool.not_eq_true', beq_iff_eq, and_assoc]

/-- The last horned vowel takes the tone. -/
lemma findToneTarget_of_horned (hlen : states.length ≤ kVowelCap)
    (h : lastIdx? states.length (hornedVowel states) = some i) :
    findToneTarget modernOrtho states = some i := by
  obtain ⟨hlt, hhorned⟩ := lastIdx?_eq_some h
  obtain ⟨hvowel, hcluster, hhorn⟩ := hornedVowel_iff.1 hhorned
  have hmem : i ∈ toneVowelIdxs states := (mem_toneVowelIdxs hlen).2 ⟨hlt, hvowel, hcluster⟩
  have hread : ∀ k ∈ toneVowelIdxs states, k < states.length ∧ (charAt states k).isVowel ∧
      isClusterConsonant states k = false := fun k hk => (mem_toneVowelIdxs hlen).1 hk
  have hsorted : (toneVowelIdxs states).Pairwise (· < ·) := by
    rw [toneVowelIdxs_eq]
    exact ((List.pairwise_lt_range).filter _).sublist (List.take_sublist _ _)
  have hidxs : (toneVowelIdxs states).length ≤ kVowelCap := List.length_take_le _ _
  obtain ⟨last, hlast⟩ := Option.isSome_iff_exists.1
    (List.getLast?_isSome.2 (List.ne_nil_of_mem hmem))
  unfold findToneTarget
  dsimp only
  rw [hlast]
  dsimp only
  generalize toneVowelIdxs states = idxs at *
  have hvowels := decompose_vowels hidxs fun k hk => (hread k hk).2.1
  obtain ⟨p, hp, rfl⟩ := List.mem_iff_getElem.1 hmem
  -- the vowels behind the position of the last horn have none
  have hposition : lastIdx? (idxs.map fun j => rendered (charAt states j)).length (fun q =>
      ((idxs.map fun j => rendered (charAt states j)).getD q ('\x00', .none)).2 == .horn) = some p := by
    have hgetD : ∀ {q} (hq : q < idxs.length), (idxs.map fun j =>
        rendered (charAt states j)).getD q ('\x00', .none) = rendered (charAt states idxs[q]) := by
      intro q hq
      rw [List.getD_eq_getElem?_getD, List.getElem?_map, List.getElem?_eq_getElem hq]
      rfl
    rw [List.length_map]
    refine lastIdx?_of_last hp ?_ ?_
    · rw [hgetD hp, hhorn]
      rfl
    · intro q hpq hq
      rw [hgetD hq, beq_eq_false_iff_ne]
      intro hq'
      obtain ⟨hltq, hvowelq, hclusterq⟩ := hread idxs[q] (List.getElem_mem hq)
      have hbehind : idxs[p] < idxs[q] := List.pairwise_iff_getElem.1 hsorted p q hp hq hpq
      have hfalse := lastIdx?_last h hbehind hltq
      rw [hornedVowel_iff.2 ⟨hvowelq, hclusterq, hq'⟩] at hfalse
      cases hfalse
  have hne : (idxs.map fun j => rendered (charAt states j)) ≠ [] := by
    rw [ne_eq, List.map_eq_nil_iff]
    exact List.ne_nil_of_mem hmem
  unfold computeTonePosition
  dsimp only
  rw [hvowels, if_neg hne, hposition]
  exact List.getElem?_eq_getElem hp

/-- The one tone of a buffer, with its key. A state that had the index of a key before the tone came may
    have forgotten it. -/
structure TonedAt (before states : List CharState) (i : Nat) (tone : Tone) (key : Nat) : Prop where
  tone : (charAt states i).tone = tone
  key : (charAt states i).toneRawIdx = some key
  others : ∀ j, j ≠ i → (charAt states j).tone = .none
  keys : ∀ j, j ≠ i → (charAt states j).toneRawIdx = none ∨
    (charAt states j).toneRawIdx = (charAt before j).toneRawIdx

/-- The target carries the one tone. -/
def OnTarget (modernOrtho : Bool) (before states : List CharState) (tone : Tone) (key : Nat) : Prop :=
  ∃ i, findToneTarget modernOrtho states = some i ∧ TonedAt before states i tone key

section Tone
variable {before : List CharState} {tone : Tone} {key : Nat}

omit [WideLocale] in
/-- An edit that keeps tones and keys. -/
lemma TonedAt.stamps (h : TonedAt before states i tone key) (hs : SameStamps states states') :
    TonedAt before states' i tone key := by
  have hstamp : ∀ k, (charAt states' k).stamp = (charAt states k).stamp := fun k => charAt_congr hs
  refine ⟨?_, ?_, fun k hk => ?_, fun k hk => ?_⟩
  · exact (congrArg (·.2.1) (hstamp i)).trans h.tone
  · exact (congrArg (·.2.2) (hstamp i)).trans h.key
  · exact (congrArg (·.2.1) (hstamp k)).trans (h.others k hk)
  · have hkey : (charAt states' k).toneRawIdx = (charAt states k).toneRawIdx :=
      congrArg (·.2.2) (hstamp k)
    rw [hkey]
    exact h.keys k hk

omit [WideLocale] in
/-- The one tone is the first one. -/
lemma TonedAt.first (h : TonedAt before states i tone key) (hlt : i < states.length)
    (hvowel : (charAt states i).isVowel) (htone : tone ≠ .none) :
    findTonedVowelIndex states = some i := by
  have htoned : (charAt states i).hasTone := by
    rw [CharState.hasTone, h.tone, bne_iff_ne]
    exact htone
  refine List.find?_range_eq_some.2 ⟨?_, List.mem_range.2 hlt, fun k hk => ?_⟩
  · rw [hvowel, htoned]
    rfl
  · rw [CharState.hasTone, h.others k hk.ne]
    simp

omit [WideLocale] in
/-- The tone goes to another vowel with its key. -/
lemma TonedAt.moved (h : TonedAt before states i tone key) (hi : i < states.length)
    (hj : j < states.length) (hne : j ≠ i) : TonedAt before (moveTone states i j) j tone key := by
  have hi' : ∀ {f : CharState → CharState}, i < (states.modify j f).length := by
    intro f
    rwa [List.length_modify]
  unfold moveTone
  refine ⟨?_, ?_, fun k hk => ?_, fun k hk => ?_⟩
  · rw [charAt_modify hi', if_neg hne.symm, charAt_modify hj, if_pos rfl]
    exact h.tone
  · rw [charAt_modify hi', if_neg hne.symm, charAt_modify hj, if_pos rfl]
    exact h.key
  · rw [charAt_modify hi']
    split
    · rfl
    · next hki =>
      rw [charAt_modify hj, if_neg hk.symm]
      exact h.others k (Ne.symm hki)
  · rw [charAt_modify hi']
    split
    · exact .inl rfl
    · next hki =>
      rw [charAt_modify hj, if_neg hk.symm]
      exact h.keys k (Ne.symm hki)

/-- A tone follows the target to the next vowel. -/
lemma TonedAt.relocate (h : TonedAt before states i tone key) (htone : tone ≠ .none)
    (hb : AsciiBases states) (hi : i < states.length) (hvowel : (charAt states i).isVowel)
    (htarget : findToneTarget cfg.modernOrtho states = some j) (hmod : (charAt states j).hasModifier)
    (hnext : j = i ∨ j = i + 1) :
    OnTarget cfg.modernOrtho before (relocateToneToTarget cfg states) tone key := by
  have htoned : findTonedVowelIndex states = some i := h.first hi hvowel htone
  rcases hnext with rfl | rfl
  · -- the tone is where it should be
    have hstays : movesTone cfg states = false := by
      unfold movesTone
      rw [htoned, htarget]
      simp
    rw [relocateToneToTarget_eq_self hstays]
    exact ⟨_, htarget, h⟩
  · have hnear : hasConsonantBetween states i (i + 1) = false := by
      rw [hasConsonantBetween, List.any_eq_false]
      intro k hk
      rw [List.mem_range] at hk
      simp only [Bool.and_eq_true, decide_eq_true_eq]
      omega
    have hopen : isToneRelocBlockedByP4 states (i + 1) cfg.modernOrtho = false := by
      rw [isToneRelocBlockedByP4, if_pos hmod]
    have hmoves : movesTone cfg states = true := by
      unfold movesTone
      rw [htoned, htarget]
      dsimp only
      rw [hnear, hopen]
      simp
    obtain ⟨src, dst, hsrc, hdst, hne, heq⟩ := relocateToneToTarget_eq_moveTone hmoves
    cases htoned.symm.trans hsrc
    cases htarget.symm.trans hdst
    obtain ⟨hlt, -⟩ := findToneTarget_eq_some htarget
    have hsame : SameBodies states (moveTone states i (i + 1)) := .moveTone
    have hmarks : SameMarks states (moveTone states i (i + 1)) :=
      ⟨hsame.bases, fun _ => hsame.charAt_mod⟩
    rw [heq]
    exact ⟨i + 1, (hmarks.findToneTarget hb).trans htarget, h.moved hi hlt hne⟩

omit [WideLocale] in
/-- The two vowels of a pair to complete belong to the nucleus. -/
lemma HalfHorned.nucleus (h : HalfHorned states i) :
    ((charAt states i).isVowel ∧ isClusterConsonant states i = false) ∧
      (charAt states (i + 1)).isVowel ∧ isClusterConsonant states (i + 1) = false := by
  obtain ⟨hglide, hu, ho, -⟩ := h
  refine ⟨⟨?_, ?_⟩, ?_, ?_⟩
  · rw [CharState.isVowel, hu]
    rfl
  · unfold isQUGlide at hglide
    unfold isClusterConsonant
    rw [hu] at hglide ⊢
    cases i with
    | zero => rfl
    | succ k => simpa using hglide
  · rw [CharState.isVowel, ho]
    rfl
  · unfold isClusterConsonant
    rw [ho]
    simp

omit [WideLocale] in
/-- A vowel of a pair shows its horn. -/
lemma hornedVowel_of_mod (hvowel : (charAt states i).isVowel)
    (hcluster : isClusterConsonant states i = false)
    (hletter : (charAt states i).base = 'u' ∨ (charAt states i).base = 'o')
    (hmod : (charAt states i).mod = .horn) : hornedVowel states i := by
  refine hornedVowel_iff.2 ⟨hvowel, hcluster, ?_⟩
  rw [rendered, hmod]
  rcases hletter with hletter | hletter
  · rw [hletter]
    rfl
  · rw [hletter]
    rfl

omit [WideLocale] in
/-- A vowel without a mark does not. -/
lemma not_hornedVowel_of_mod (hmod : (charAt states i).mod = .none) :
    hornedVowel states i = false := by
  rw [Bool.eq_false_iff]
  intro h
  have hhorn := (hornedVowel_iff.1 h).2.2
  rw [rendered, hmod, ite_self] at hhorn
  cases hhorn

omit [WideLocale] in
/-- A new horn changes one vowel. -/
lemma hornedVowel_setMod {mod : Modifier} (hlt : i < states.length) (hne : j ≠ i) :
    hornedVowel (setMod states i mod) j = hornedVowel states j := by
  have hsame : SameBases states (setMod states i mod) := .setMod
  have hmod : (charAt (setMod states i mod) j).mod = (charAt states j).mod := by
    rw [mod_setMod hlt, if_neg hne.symm]
  unfold hornedVowel rendered
  rw [hsame.isVowel, hsame.isClusterConsonant, hsame.charAt, hmod]

omit [WideLocale] in
/-- A horned vowel is not behind the last one. -/
lemma exists_lastHorned (hlt : i < states.length) (hhorned : hornedVowel states i) :
    ∃ k, lastIdx? states.length (hornedVowel states) = some k ∧ i ≤ k := by
  cases hlast : lastIdx? states.length (hornedVowel states) with
  | none =>
    rw [lastIdx?_eq_none.1 hlast i hlt] at hhorned
    cases hhorned
  | some k =>
    refine ⟨k, rfl, Nat.le_of_not_lt fun hk => ?_⟩
    rw [lastIdx?_last hlast hk hlt] at hhorned
    cases hhorned

omit [WideLocale] in
/-- A horned vowel has a modifier. -/
lemma hasModifier_of_hornedVowel (hhorned : hornedVowel states i) : (charAt states i).hasModifier := by
  refine rendered_mod ?_
  rw [(hornedVowel_iff.1 hhorned).2.2]
  decide

omit [WideLocale] in
/-- A change in front of the last horned vowel leaves it the last one. -/
lemma lastHorned_setMod {mod : Modifier} {k : Nat}
    (hk : lastIdx? states.length (hornedVowel states) = some k) (hlt : i < k) :
    lastIdx? (setMod states i mod).length (hornedVowel (setMod states i mod)) = some k := by
  have hsame : SameBases states (setMod states i mod) := .setMod
  obtain ⟨hklt, hkhorned⟩ := lastIdx?_eq_some hk
  rw [hsame.length_eq]
  refine lastIdx?_of_last hklt ?_ fun m hm hmlt => ?_
  · rwa [hornedVowel_setMod (by omega) (by omega)]
  · rw [hornedVowel_setMod (by omega) (by omega)]
    exact lastIdx?_last hk hm hmlt

omit [WideLocale] in
/-- A horn on the vowel behind the last horned one is the last horn. -/
lemma lastHorned_setMod_succ {k : Nat} (hk : lastIdx? states.length (hornedVowel states) = some k)
    (hlt : k + 1 < states.length) (hvowel : (charAt states (k + 1)).isVowel)
    (hcluster : isClusterConsonant states (k + 1) = false) (ho : (charAt states (k + 1)).base = 'o') :
    lastIdx? (setMod states (k + 1) .horn).length (hornedVowel (setMod states (k + 1) .horn)) =
      some (k + 1) := by
  have hsame : SameBases states (setMod states (k + 1) .horn) := .setMod
  have hmod : (charAt (setMod states (k + 1) .horn) (k + 1)).mod = .horn := by
    rw [mod_setMod hlt, if_pos rfl]
  rw [hsame.length_eq]
  refine lastIdx?_of_last hlt ?_ fun m hm hmlt => ?_
  · refine hornedVowel_of_mod ?_ ?_ (.inr ?_) hmod
    · rwa [hsame.isVowel]
    · rwa [hsame.isClusterConsonant]
    · rwa [hsame.charAt]
  · rw [hornedVowel_setMod hlt (by omega)]
    exact lastIdx?_last hk (by omega) hmlt

/-- A round keeps the tone on the target. -/
lemma OnTarget.autoUOAt (hlen : states.length ≤ kVowelCap) (hb : AsciiBases states)
    (htone : tone ≠ .none) (h : OnTarget cfg.modernOrtho before states tone key) :
    OnTarget cfg.modernOrtho before (autoUOAt cfg states i) tone key := by
  by_cases hpair : HalfHorned states i
  · obtain ⟨⟨hvowel, hcluster⟩, hvowel', hcluster'⟩ := hpair.nucleus
    have hlt := hpair.lt
    obtain ⟨target, htarget, htoned⟩ := h
    obtain ⟨-, hu, ho, hmods⟩ := id hpair
    rcases @HalfHorned.autoUOAt states i _ cfg hpair with ⟨hnone, heq⟩ | ⟨hnone, heq⟩
    · -- the `u` gets its horn in front of the last horn
      have hhorn : (charAt states (i + 1)).mod = .horn := by
        rcases hmods with hmods | hmods
        · exact hmods.2
        · rw [hmods.1] at hnone
          cases hnone
      have hhorned : hornedVowel states (i + 1) := hornedVowel_of_mod hvowel' hcluster' (.inr ho) hhorn
      obtain ⟨k, hk, hle⟩ := exists_lastHorned hlt hhorned
      cases htarget.symm.trans (findToneTarget_of_horned hlen hk)
      have hsame : SameBases states (setMod states i .horn) := .setMod
      have hlen' : (setMod states i .horn).length ≤ kVowelCap := by rwa [hsame.length_eq]
      rw [heq]
      exact ⟨target, findToneTarget_of_horned hlen' (lastHorned_setMod hk hle),
        htoned.stamps sameStamps_setMod⟩
    · -- the `o` gets its horn: the tone is on the `u`, or on a horn behind the pair
      have hhorn : (charAt states i).mod = .horn := by
        rcases hmods with hmods | hmods
        · rw [hmods.2] at hnone
          cases hnone
        · exact hmods.1
      have hhorned : hornedVowel states i := hornedVowel_of_mod hvowel hcluster (.inl hu) hhorn
      obtain ⟨k, hk, hle⟩ := exists_lastHorned (by omega) hhorned
      cases htarget.symm.trans (findToneTarget_of_horned hlen hk)
      have hsame : SameBases states (setMod states (i + 1) .horn) := .setMod
      have hne : target ≠ i + 1 := by
        rintro rfl
        have hkhorned := (lastIdx?_eq_some hk).2
        rw [not_hornedVowel_of_mod hnone] at hkhorned
        cases hkhorned
      have hlast : ∃ m, lastIdx? (setMod states (i + 1) .horn).length
          (hornedVowel (setMod states (i + 1) .horn)) = some m ∧ (m = target ∨ m = target + 1) := by
        by_cases hbehind : i + 1 < target
        · exact ⟨target, lastHorned_setMod hk hbehind, .inl rfl⟩
        · obtain rfl : target = i := by omega
          exact ⟨target + 1, lastHorned_setMod_succ hk hlt hvowel' hcluster' ho, .inr rfl⟩
      obtain ⟨m, hm, hnext⟩ := hlast
      have hmod := hasModifier_of_hornedVowel (lastIdx?_eq_some hm).2
      have hlen' : (setMod states (i + 1) .horn).length ≤ kVowelCap := by rwa [hsame.length_eq]
      rw [heq]
      refine (htoned.stamps sameStamps_setMod).relocate htone (hb.same hsame) ?_ ?_
        (findToneTarget_of_horned hlen' hm) hmod hnext
      · rw [hsame.length_eq]
        exact (lastIdx?_eq_some hk).1
      · rw [hsame.isVowel]
        exact (findToneTarget_eq_some htarget).2.1
  · rw [autoUOAt_eq_self hpair]
    exact h

/-- `ApplyAutoUO` keeps the tone on the target. -/
lemma OnTarget.applyAutoUO (hlen : states.length ≤ kVowelCap) (hb : AsciiBases states)
    (htone : tone ≠ .none) (h : OnTarget cfg.modernOrtho before states tone key) :
    OnTarget cfg.modernOrtho before (applyAutoUO cfg states) tone key := by
  unfold NextKey.applyAutoUO
  generalize (List.range (states.length - 2)).drop (states.length - 4) = positions
  induction positions generalizing states with
  | nil => exact h
  | cons i positions ih =>
    have hsame : SameBases states (NextKey.autoUOAt cfg states i) := .autoUOAt
    refine ih ?_ (hb.same hsame) (OnTarget.autoUOAt hlen hb htone h)
    rwa [hsame.length_eq]

end Tone

end Locale

end NextKey
