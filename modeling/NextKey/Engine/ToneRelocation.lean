import NextKey.Engine.SingleTone
import NextKey.Engine.ToneTarget

/-!
# Relocating the tone

`RelocateToneToTarget` over every buffer with at most one tone. Where the tone sits does not matter to
`FindToneTarget`: it reads the vowels without their tones, and of the coda whether anything shows, which a
vowel does with and without a tone. So a tone that has moved is where the next call looks for it.
-/

namespace NextKey

open Phonology

variable {states states' after : List CharState} {src dst : Nat}

/-- The tone of `src` and the index of its key stand on `dst`, and nothing else is different. -/
structure ToneMoved (states after : List CharState) (src dst : Nat) : Prop where
  length_eq : after.length = states.length
  source : charAt after src = { charAt states src with tone := .none, toneRawIdx := none }
  target : charAt after dst = { charAt states dst with
    tone := (charAt states src).tone, toneRawIdx := (charAt states src).toneRawIdx }
  others : ∀ i, i ≠ src → i ≠ dst → charAt after i = charAt states i

/-- The tone stands on a vowel and may go to another one of the same group. -/
structure SameGroup (states : List CharState) (src dst : Nat) : Prop where
  src_lt : src < states.length
  dst_lt : dst < states.length
  src_vowel : (charAt states src).isVowel
  dst_vowel : (charAt states dst).isVowel
  toned : (charAt states src).hasTone
  ne : dst ≠ src
  between : ∀ i, min src dst < i → i < max src dst → (charAt states i).isVowel

/-- Only vowels stand between the two. -/
lemma not_hasConsonantBetween (h : hasConsonantBetween states src dst = false) :
    ∀ i, min src dst < i → i < max src dst → (charAt states i).isVowel := by
  intro i hmin hmax
  unfold hasConsonantBetween at h
  rw [List.any_eq_false] at h
  have hi := h i (List.mem_range.2 hmax)
  rw [decide_eq_true hmin, Bool.true_and, Bool.not_eq_true', Bool.not_eq_false] at hi
  exact hi

/-- The tone has moved within its group. -/
lemma moveTone_moved (h : SameGroup states src dst) :
    ToneMoved states (moveTone states src dst) src dst := by
  have hsrc : ∀ {f : CharState → CharState}, src < (states.modify dst f).length := by
    intro f
    rw [List.length_modify]
    exact h.src_lt
  refine ⟨?_, ?_, ?_, fun i hi hi' => ?_⟩
  · rw [moveTone, List.length_modify, List.length_modify]
  · rw [moveTone, charAt_modify hsrc, if_pos rfl, charAt_modify h.dst_lt, if_neg h.ne]
  · rw [moveTone, charAt_modify hsrc, if_neg h.ne.symm, charAt_modify h.dst_lt, if_pos rfl]
  · rw [moveTone, charAt_modify hsrc, if_neg hi.symm, charAt_modify h.dst_lt, if_neg hi'.symm]

/-- Of a buffer with one tone every other state has none. -/
lemma SingleTone.others (h : SingleTone states) (hlt : src < states.length)
    (htoned : (charAt states src).hasTone) {i : Nat} (hne : i ≠ src) :
    (charAt states i).hasTone = false := by
  have hcleared := @toneCount_modify states src (fun s => { s with tone := .none }) hlt
  have hcount : toneCount (states.modify src fun s => { s with tone := .none }) = 0 := by
    rw [hcleared, if_pos htoned]
    exact Nat.sub_eq_zero_of_le h
  by_cases hi : i < states.length
  · have hi' : i < (states.modify src fun s => { s with tone := .none }).length := by
      rwa [List.length_modify]
    have hnone := List.countP_eq_zero.1 hcount _ (charAt_mem hi')
    rw [charAt_modify hlt, if_neg hne.symm] at hnone
    exact Bool.eq_false_iff.2 hnone
  · rw [charAt_of_length_le (Nat.le_of_not_lt hi)]
    rfl

namespace ToneMoved

/-- The tones of the two states have changed places. -/
lemma tones_perm (h : ToneMoved states after src dst) (hgroup : SameGroup states src dst)
    (hsingle : SingleTone states) : (after.map (·.tone)).Perm (states.map (·.tone)) := by
  have hsrc : src < (states.map (·.tone)).length := by simpa using hgroup.src_lt
  have hdst : dst < (states.map (·.tone)).length := by simpa using hgroup.dst_lt
  have hread : ∀ {l : List CharState} {i : Nat} (hi : i < (l.map (·.tone)).length),
      (l.map (·.tone))[i] = (charAt l i).tone := by
    intro l i hi
    rw [List.getElem_map]
    exact congrArg (·.tone) (List.getD_eq_getElem l {} (by simpa using hi)).symm
  have huntoned : (charAt states dst).tone = .none := by
    have hnone := hsingle.others hgroup.src_lt hgroup.toned hgroup.ne
    rwa [CharState.hasTone, bne_eq_false_iff_eq] at hnone
  have hset : after.map (·.tone) = ((states.map (·.tone)).set dst (charAt states src).tone).set src
      (charAt states dst).tone := by
    apply List.ext_getElem
    · simp [h.length_eq]
    · intro i hi _
      rw [hread hi, List.getElem_set]
      split
      · next hi' => rw [← hi', h.source, huntoned]
      · next hi' =>
        rw [List.getElem_set]
        split
        · next hi'' => rw [← hi'', h.target]
        · next hi'' =>
          rw [h.others i (Ne.symm hi') (Ne.symm hi''), hread]
  rw [hset, ← hread hsrc, ← hread hdst]
  exact List.set_set_perm hdst hsrc

/-- The tone is found where it has gone. -/
lemma findTonedVowelIndex (h : ToneMoved states after src dst) (hgroup : SameGroup states src dst)
    (hsingle : SingleTone states) : findTonedVowelIndex after = some dst := by
  refine List.find?_range_eq_some.2 ⟨?_, List.mem_range.2 (h.length_eq ▸ hgroup.dst_lt), fun i hi => ?_⟩
  · rw [h.target]
    exact Bool.and_eq_true_iff.2 ⟨hgroup.dst_vowel, hgroup.toned⟩
  · have huntoned : (charAt after i).hasTone = false := by
      by_cases hsrc : i = src
      · rw [hsrc, h.source]
        rfl
      · rw [h.others i hsrc hi.ne]
        exact hsingle.others hgroup.src_lt hgroup.toned hsrc
    rw [huntoned, Bool.and_false]
    rfl

end ToneMoved

section Locale
variable [WideLocale] {cfg : TypingConfig} {modernOrtho : Bool}

/-- A vowel shows, with every tone. -/
lemma compose_vowel_ne_nul {s : CharState} (h : s.isVowel) : compose s ≠ '\x00' := by
  apply compose_ne_nul
  unfold CharState.isVowel isVowelBase at h
  simp only [Bool.or_eq_true, beq_iff_eq] at h
  rcases h with ((((h | h) | h) | h) | h) | h
  all_goals
    rw [h]
    decide

/-- The target is where it was when the tone has moved. -/
lemma findToneTarget_moveTone (hgroup : SameGroup states src dst) :
    findToneTarget modernOrtho (moveTone states src dst) = findToneTarget modernOrtho states := by
  have hbodies : SameBodies states (moveTone states src dst) := .moveTone
  have hmarks : SameMarks states (moveTone states src dst) :=
    ⟨hbodies.bases, fun _ => hbodies.charAt_mod⟩
  apply hmarks.findToneTarget_of_shown
  intro i _
  have hvowels : ∀ j, (charAt states j).isVowel →
      (compose { charAt (moveTone states src dst) j with isUpper := false } = '\x00' ↔
        compose { charAt states j with isUpper := false } = '\x00') := by
    intro j hj
    have hj' : (charAt (moveTone states src dst) j).isVowel := by rwa [hbodies.bases.isVowel]
    exact iff_of_false
      (@compose_vowel_ne_nul _ { charAt (moveTone states src dst) j with isUpper := false } hj')
      (@compose_vowel_ne_nul _ { charAt states j with isUpper := false } hj)
  by_cases hsrc : i = src
  · exact hsrc ▸ hvowels src hgroup.src_vowel
  · by_cases hdst : i = dst
    · exact hdst ▸ hvowels dst hgroup.dst_vowel
    · rw [(moveTone_moved hgroup).others i hsrc hdst]

/-- A tone that moves goes to the target, past vowels. -/
lemma sameGroup_of_movesTone (h : movesTone cfg states = true) :
    ∃ src dst, SameGroup states src dst ∧ findToneTarget cfg.modernOrtho states = some dst ∧
      relocateToneToTarget cfg states = moveTone states src dst := by
  obtain ⟨src, dst, hsrc, hdst, hne, heq⟩ := relocateToneToTarget_eq_moveTone h
  obtain ⟨hlt, hvowel, htoned⟩ := findTonedVowelIndex_eq_some hsrc
  obtain ⟨hlt', hvowel', -⟩ := findToneTarget_eq_some hdst
  unfold movesTone at h
  rw [hsrc, hdst] at h
  simp only [Bool.and_eq_true, Bool.not_eq_true'] at h
  exact ⟨src, dst, ⟨hlt, hlt', hvowel, hvowel', htoned, hne, not_hasConsonantBetween h.1.2⟩, hdst, heq⟩

/-- A tone on the target stays. -/
lemma relocateToneToTarget_of_onTarget (htoned : findTonedVowelIndex states = some dst)
    (htarget : findToneTarget cfg.modernOrtho states = some dst) :
    relocateToneToTarget cfg states = states := by
  apply relocateToneToTarget_eq_self
  unfold movesTone
  rw [htoned, htarget]
  simp

/-- On a buffer with at most one tone `RelocateToneToTarget` leaves everything as it is or moves the tone
    with the index of its key from one vowel to the target, over vowels alone. The tones are the same ones,
    and a second call leaves everything as it is. -/
theorem relocateToneToTarget_moves_one_tone (h : SingleTone states) :
    (relocateToneToTarget cfg states = states ∨
      ∃ src dst, SameGroup states src dst ∧ findToneTarget cfg.modernOrtho states = some dst ∧
        ToneMoved states (relocateToneToTarget cfg states) src dst) ∧
    ((relocateToneToTarget cfg states).map (·.tone)).Perm (states.map (·.tone)) ∧
    relocateToneToTarget cfg (relocateToneToTarget cfg states) = relocateToneToTarget cfg states := by
  cases hmoves : movesTone cfg states with
  | false =>
    have heq := relocateToneToTarget_eq_self hmoves
    rw [heq, heq]
    exact ⟨.inl rfl, .refl _, rfl⟩
  | true =>
    obtain ⟨src, dst, hgroup, htarget, heq⟩ := sameGroup_of_movesTone hmoves
    have hmoved := moveTone_moved hgroup
    rw [← heq] at hmoved
    refine ⟨.inr ⟨src, dst, hgroup, htarget, hmoved⟩, hmoved.tones_perm hgroup h, ?_⟩
    apply relocateToneToTarget_of_onTarget (hmoved.findTonedVowelIndex hgroup h)
    rw [heq, findToneTarget_moveTone hgroup, htarget]

end Locale

/-- In `hòan` the tone moves to the `a`, once. -/
theorem relocateToneToTarget_moves_hoan :
    letI := WideLocale.ascii
    let hoan : List CharState :=
      [{ base := 'h' }, { base := 'o', tone := .grave, toneRawIdx := some 2 }, { base := 'a' },
        { base := 'n' }]
    relocateToneToTarget {} hoan ≠ hoan ∧
      relocateToneToTarget {} (relocateToneToTarget {} hoan) = relocateToneToTarget {} hoan :=
  letI := WideLocale.ascii
  ⟨by decide, (relocateToneToTarget_moves_one_tone (Nat.le_of_eq rfl)).2.2⟩

end NextKey
