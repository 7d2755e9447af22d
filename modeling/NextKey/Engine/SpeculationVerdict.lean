import NextKey.Engine.Effects
import NextKey.Engine.Speculation
import NextKey.Engine.ToneVerdict

/-!
# The verdict and the relocations

A buffer is not invalid, or only through the tone before its stop coda, exactly when it is not invalid
without its tones and its toned vowel is where `CheckToneModInvariant` wants it (`soundVerdict_iff`).
`RelocateToneToHornVowel` and `RelocateToneToTarget` bring that about exactly when no third vowel has
a tone (`checkToneModInvariant_toHorn`, `checkToneModInvariant_toTarget`): with a modified vowel in
the buffer the target of the tone is a modified one (`findToneTarget_of_modified`).
-/

namespace NextKey

open Phonology

/-- There is no last index where no index passes. -/
lemma lastIdx?_eq_none {n : Nat} {p : Nat → Bool} : lastIdx? n p = none ↔ ∀ i < n, p i = false := by
  simp [lastIdx?]

/-- Nor a first one. -/
lemma firstIdx?_eq_none {n : Nat} {p : Nat → Bool} : firstIdx? n p = none ↔ ∀ i < n, p i = false := by
  simp [firstIdx?]

/-- The last hit of a backward scan. -/
lemma lastIdx?_of_last {n v : Nat} {p : Nat → Bool} (hv : v < n) (hp : p v)
    (hlast : ∀ k, v < k → k < n → p k = false) : lastIdx? n p = some v := by
  induction n with
  | zero => cases hv
  | succ n ih =>
    rw [lastIdx?_succ]
    by_cases heq : v = n
    · subst heq
      rw [if_pos hp]
    · have hlt : v < n := by omega
      rw [hlast n hlt (Nat.lt_succ_self n)]
      exact ih hlt fun k hk hkn => hlast k hk (by omega)

variable [WideLocale]

section Verdict
variable {cfg : TypingConfig} {states : List CharState} {allowZwjf : Bool} {n : Nat}

/-- The stop finals in the locale. -/
lemma stopCoda_of_letters {coda : List CharState} {f : Final} :
    coda.map (·.base) = f.letters → isStopFinal coda (parseFinalConsonant coda) →
      (match coda with
        | [c] => ['c', 'k', 'p', 't'].contains (towlower c.base)
        | [c0, c1] => towlower c0.base == 'c' && towlower c1.base == 'h'
        | _ => false) = true := by
  intro hletters hstop
  rw [parseFinalConsonant_of_letters hletters, isStopFinal_of_letters hletters] at hstop
  have hlower : ∀ c : Char, c.toNat < 128 → towlower c = c.toLower := WideLocale.towlower_ascii
  cases f <;> simp only [Final.letters, List.map_eq_cons_iff, List.map_eq_nil_iff] at hletters
  case ch =>
    obtain ⟨x, _, rfl, hx, y, _, rfl, hy, rfl⟩ := hletters
    dsimp only
    rw [hx, hy, hlower _ (by decide), hlower _ (by decide)]
    rfl
  case c | k | p | t =>
    obtain ⟨x, _, rfl, hx, rfl⟩ := hletters
    dsimp only
    rw [hx, hlower _ (by decide)]
    rfl
  all_goals cases hstop

omit [WideLocale] in
/-- The last vowel and the coda behind it. -/
lemma lastIdx?_isVowel {front coda : List CharState} {v : CharState} (hv : v.isVowel)
    (hcoda : ∀ s ∈ coda, s.isVowel = false) :
    (lastIdx? (front ++ v :: coda).length fun i => (charAt (front ++ v :: coda) i).isVowel) =
      some front.length := by
  apply lastIdx?_of_last
  · simp
  · simpa [charAt] using hv
  · intro k hk hlt
    apply hcoda
    have hk' : front.length ≤ k := Nat.le_of_lt hk
    rw [charAt, List.getD_append_right _ _ _ _ hk']
    obtain ⟨j, hj⟩ : ∃ j, k - front.length = j + 1 := ⟨k - front.length - 1, by omega⟩
    rw [hj, List.getD_cons_succ]
    refine charAt_mem ?_
    simp only [List.length_append, List.length_cons] at hlt
    omega

/-- A decomposition with a stop final that refuses the tone of the buffer ends in a stop coda. -/
lemma hasStopFinalCoda_of_refusesTone (h : refusesTone states n)
    (hdec : validateDecomposition (states.map untone) n ≠ .invalid) : hasStopFinalCoda states := by
  rw [refusesTone, Bool.and_eq_true] at h
  obtain ⟨hstop, -⟩ := h
  have hsplit := @split_takeWhile (states.drop n)
  have hdec' : ((states.map untone).drop n).dropWhile (·.isVowel) =
      ((states.drop n).dropWhile (·.isVowel)).map untone := by
    rw [← List.map_drop, List.dropWhile_map]
    rfl
  have hdec'' : ((states.map untone).drop n).takeWhile (·.isVowel) =
      ((states.drop n).takeWhile (·.isVowel)).map untone := by
    rw [← List.map_drop, List.takeWhile_map]
    rfl
  have hparse := parse_of_decomposition hdec
  have hvowels := vowels_of_decomposition hdec
  rw [hdec', parseFinalConsonant_untone, List.length_map, List.map_eq_nil_iff] at hparse
  rw [hdec'', ← List.map_drop, Ne, List.map_eq_nil_iff, Ne, List.map_eq_nil_iff] at hvowels
  generalize (states.drop n).dropWhile (·.isVowel) = coda at *
  generalize (states.drop n).takeWhile (·.isVowel) = vowels at *
  have hpos : parseFinalConsonant coda ≠ 0 := by
    intro hzero
    rw [hzero] at hstop
    cases hstop
  obtain rfl | hparse := hparse
  · exact (hpos rfl).elim
  · obtain ⟨f, hletters⟩ := letters_of_parseFinalConsonant hpos hparse.not_lt
    have hne : vowels ≠ [] := by
      refine hvowels fun hnil => ?_
      have heq := hsplit.eq
      rw [hnil] at heq
      have hcoda := (List.append_eq_nil_iff.1 heq.symm).2
      rw [hcoda] at hpos
      exact hpos rfl
    obtain ⟨init, v, rfl⟩ := (List.eq_nil_or_concat vowels).resolve_left hne
    have hstates : states = (states.take n ++ init) ++ v :: coda := by
      rw [List.append_assoc]
      conv_lhs => rw [← List.take_append_drop n states, hsplit.eq]
      simp
    generalize states.take n ++ init = front at hstates
    have hcoda := consonants_of_parse hparse
    have hv : v.isVowel := hsplit.vowels v (by simp)
    have hdrop : (front ++ v :: coda).drop (front.length + 1) = coda := by
      rw [List.drop_length_add_append]
      rfl
    rw [hstates, hasStopFinalCoda, lastIdx?_isVowel hv hcoda]
    dsimp only
    rw [hdrop]
    exact stopCoda_of_letters hletters hstop

/-- Invalid through the tone alone. -/
lemma isToneStopCodaMismatch_of_refusesTone (h : refusesTone states n)
    (hdec : validateDecomposition (states.map untone) n ≠ .invalid) :
    isToneStopCodaMismatch states := by
  have hcoda := hasStopFinalCoda_of_refusesTone h hdec
  rw [refusesTone, Bool.and_eq_true, Bool.not_eq_true'] at h
  have htone := h.2
  rw [isToneStopCodaMismatch, hcoda, Bool.true_and]
  rw [getTone] at htone
  cases hfind : states.find? (·.hasTone) with
  | none =>
    rw [hfind] at htone
    cases htone
  | some s =>
    rw [hfind] at htone
    dsimp only at htone ⊢
    cases hs : s.tone <;> rw [hs] at htone <;> first | rfl | cases htone

/-- The buffer is structurally sound but for the tone before its stop coda. -/
lemma validateImpl_of_untone (h : validateImpl (states.map untone) allowZwjf ≠ .invalid)
    (hfit : isToneStopCodaMismatch states = false) : validateImpl states allowZwjf ≠ .invalid := by
  refine validateImpl_untone.2 h fun n _ hdec => ?_
  cases hrefuse : refusesTone states n with
  | false => rfl
  | true =>
    rw [isToneStopCodaMismatch_of_refusesTone hrefuse hdec] at hfit
    cases hfit

/-- Acute in place of any tone. -/
def acute (s : CharState) : CharState := if s.hasTone then { s with tone := .acute } else s

omit [WideLocale] in
/-- The acute does not touch vowel, toned or marked. -/
lemma acute_marks {s : CharState} : (acute s).isVowel = s.isVowel ∧ (acute s).hasTone = s.hasTone ∧
    (acute s).hasModifier = s.hasModifier ∧ untone (acute s) = untone s := by
  rw [acute]
  cases h : s.hasTone with
  | true => exact ⟨rfl, rfl, rfl, rfl⟩
  | false => exact ⟨rfl, h, rfl, rfl⟩

omit [WideLocale] in
/-- The letter at an index, with the acute for its tone. -/
lemma charAt_acute {i : Nat} : charAt (states.map acute) i = acute (charAt states i) := by
  simp only [charAt, List.getD_eq_getElem?_getD, List.getElem?_map]
  cases states[i]? <;> rfl

omit [WideLocale] in
/-- Without tones the acute is gone. -/
lemma untone_acute : (states.map acute).map untone = states.map untone := by
  rw [List.map_map]
  exact List.map_congr_left fun s _ => acute_marks.2.2.2

omit [WideLocale] in
/-- Which tone it is does not matter. -/
lemma checkToneModInvariant_acute :
    checkToneModInvariant (states.map acute) ↔ checkToneModInvariant states := by
  have htoned : ∀ s, tonedVowel (acute s) = tonedVowel s := by
    intro s
    rw [tonedVowel, tonedVowel, acute_marks.1, acute_marks.2.1]
  rw [checkToneModInvariant_iff, checkToneModInvariant_iff]
  simp only [charAt_acute, htoned, acute_marks.2.2.1, List.forall_mem_map, acute_marks.1]

/-- With acute, which every stop coda allows, the structure is what it is without the tones. -/
lemma validateImpl_acute (h : validateImpl (states.map untone) allowZwjf ≠ .invalid) :
    validateImpl (states.map acute) allowZwjf ≠ .invalid := by
  apply validateImpl_of_untone
  · rwa [untone_acute]
  · rw [isToneStopCodaMismatch]
    cases hfind : (states.map acute).find? (·.hasTone) with
    | none => exact Bool.and_false _
    | some s =>
      obtain ⟨t, -, rfl⟩ := List.mem_map.1 (List.mem_of_find?_eq_some hfind)
      have htone := List.find?_some hfind
      rw [acute_marks.2.1] at htone
      rw [acute, if_pos htone]
      exact Bool.and_false _

/-- Not invalid, or only through the tone: sound without the tones, and a tone where it belongs. -/
lemma soundVerdict_iff : soundVerdict cfg states ↔
    validateImpl (states.map untone) cfg.allowZwjf ≠ .invalid ∧ checkToneModInvariant states := by
  have honly : onlyToneStopCodaMismatch cfg states ↔ isToneStopCodaMismatch states ∧
      validateSyllableState (states.map acute) cfg.allowZwjf ≠ .invalid := by
    rw [onlyToneStopCodaMismatch, Bool.and_eq_true, bne_iff_ne]
    rfl
  rw [soundVerdict, Bool.or_eq_true, bne_iff_ne, honly, validateSyllableState_ne_invalid,
    validateSyllableState_ne_invalid, checkToneModInvariant_acute]
  constructor
  · rintro (⟨hvalid, hinv⟩ | ⟨-, hvalid, hinv⟩)
    · exact ⟨validateImpl_untone.1 hvalid, hinv⟩
    · have huntoned := validateImpl_untone.1 hvalid
      rw [untone_acute] at huntoned
      exact ⟨huntoned, hinv⟩
  · rintro ⟨huntoned, hinv⟩
    cases hfit : isToneStopCodaMismatch states with
    | false => exact .inl ⟨validateImpl_of_untone huntoned hfit, hinv⟩
    | true => exact .inr ⟨rfl, validateImpl_acute huntoned, hinv⟩

end Verdict

section Relocation
variable {states left : List CharState} {src dst k : Nat}

omit [WideLocale] in
/-- A toned vowel stands in the buffer. -/
lemma tonedVowel_lt (h : tonedVowel (charAt states k)) : k < states.length := by
  by_contra hge
  rw [charAt, List.getD_eq_default _ _ (Nat.le_of_not_lt hge)] at h
  cases h

omit [WideLocale] in
/-- The tones stand at the two places. -/
lemma tonesAmong_iff {i j : Option Nat} : tonesAmong states i j ↔
    ∀ k, tonedVowel (charAt states k) → i = some k ∨ j = some k := by
  have hiff : tonesAmong states i j ↔
      ∀ k < states.length, tonedVowel (charAt states k) → i = some k ∨ j = some k := by
    rw [tonesAmong, List.all_eq_true]
    refine forall_congr' fun k => ?_
    rw [List.mem_range, Bool.or_eq_true, Bool.or_eq_true, beq_iff_eq, beq_iff_eq]
    refine imp_congr_right fun _ => ?_
    rw [or_assoc, tonedVowel]
    cases (charAt states k).isVowel && (charAt states k).hasTone <;> simp
  rw [hiff]
  exact ⟨fun h k hk => h k (tonedVowel_lt hk) hk, fun h k _ hk => h k hk⟩

omit [WideLocale] in
/-- Without tones the invariant holds. -/
lemma checkToneModInvariant_toneless (h : ∀ k, tonedVowel (charAt states k) = false) :
    checkToneModInvariant states := by
  refine checkToneModInvariant_iff.2 ⟨fun i _ hi => ?_, fun i hi => ?_⟩ <;>
    rw [h i] at hi <;> cases hi

omit [WideLocale] in
/-- A tone taken to a modified vowel is where it belongs when no third vowel has one. -/
lemma checkToneModInvariant_gathered (hmod : (charAt left dst).hasModifier)
    (hleft : ∀ k, tonedVowel (charAt left k) ↔
      dst = k ∨ src ≠ k ∧ tonedVowel (charAt states k)) :
    checkToneModInvariant left ↔ ∀ k, tonedVowel (charAt states k) → src = k ∨ dst = k := by
  rw [checkToneModInvariant_iff]
  constructor
  · rintro ⟨hunique, -⟩ k hk
    by_cases hsrc : src = k
    · exact .inl hsrc
    · exact .inr (hunique dst k ((hleft dst).2 (.inl rfl)) ((hleft k).2 (.inr ⟨hsrc, hk⟩)))
  · intro hamong
    have hdst : ∀ k, tonedVowel (charAt left k) → dst = k := by
      intro k hk
      obtain hk | ⟨hne, hk⟩ := (hleft k).1 hk
      · exact hk
      · exact (hamong k hk).resolve_left hne
    refine ⟨fun i j hi hj => (hdst i hi).symm.trans (hdst j hj), fun i hi s _ _ _ => ?_⟩
    rw [← hdst i hi]
    exact hmod

omit [WideLocale] in
/-- A tone that stays on a modified vowel is where it belongs when no other vowel has one. -/
lemma checkToneModInvariant_kept (htoned : tonedVowel (charAt states dst))
    (hmod : (charAt states dst).hasModifier) :
    checkToneModInvariant states ↔ ∀ k, tonedVowel (charAt states k) → dst = k := by
  have hleft : ∀ k, tonedVowel (charAt states k) ↔
      dst = k ∨ dst ≠ k ∧ tonedVowel (charAt states k) := by
    intro k
    by_cases hk : dst = k
    · rw [← hk]
      exact iff_of_true htoned (.inl rfl)
    · simp only [hk, ne_eq, not_false_eq_true, true_and, false_or]
  rw [checkToneModInvariant_gathered hmod hleft]
  simp only [or_self]

omit [WideLocale] in
/-- The toned vowels after a tone was carried from one vowel to another. -/
lemma tonedVowel_carried {f g : CharState → CharState}
    (hf : ∀ t, (f t).base = t.base ∧ (f t).tone = (charAt states src).tone)
    (hg : ∀ t, (g t).base = t.base ∧ (g t).tone = .none)
    (hsrc : tonedVowel (charAt states src)) (hlt : dst < states.length)
    (hdst : (charAt states dst).isVowel) (hne : src ≠ dst) :
    tonedVowel (charAt ((states.modify dst f).modify src g) k) ↔
      dst = k ∨ src ≠ k ∧ tonedVowel (charAt states k) := by
  have hlen : src < (states.modify dst f).length := by
    rw [List.length_modify]
    exact tonedVowel_lt hsrc
  rw [charAt_modify hlen, charAt_modify hlt, charAt_modify hlt]
  by_cases hk : src = k
  · subst hk
    rw [if_pos rfl, tonedVowel, CharState.hasTone, (hg _).2]
    simp [Ne.symm hne]
  · rw [if_neg hk]
    by_cases hk' : dst = k
    · subst hk'
      rw [tonedVowel, Bool.and_eq_true] at hsrc
      rw [if_pos rfl, tonedVowel, CharState.isVowel, CharState.hasTone, (hf _).1, (hf _).2]
      simpa [CharState.isVowel, CharState.hasTone] using And.intro hdst hsrc.2
    · rw [if_neg hk']
      simp [hk, hk']

omit [WideLocale] in
/-- Carrying a tone keeps the modifiers. -/
lemma hasModifier_carried {f g : CharState → CharState} (hf : ∀ t, (f t).mod = t.mod)
    (hg : ∀ t, (g t).mod = t.mod) :
    (charAt ((states.modify dst f).modify src g) k).hasModifier = (charAt states k).hasModifier := by
  have hmap : ((states.modify dst f).modify src g).map (·.mod) = states.map (·.mod) := by
    rw [List.map_modify_of_forall hg, List.map_modify_of_forall hf]
  have hget := congrArg (fun l : List Modifier => l.getD k .none) hmap
  simp only [List.getD_eq_getElem?_getD, List.getElem?_map] at hget
  simp only [CharState.hasModifier, charAt, List.getD_eq_getElem?_getD]
  cases h : ((states.modify dst f).modify src g)[k]? <;> cases h' : states[k]? <;>
    rw [h, h'] at hget <;> exact congrArg (· != Modifier.none) hget

omit [WideLocale] in
/-- No tone, and nothing to relocate. -/
lemma checkToneModInvariant_of_none {f : Nat → (Nat → Bool) → Option Nat}
    (hf : ∀ {n p}, f n p = none → ∀ i < n, p i = false)
    (h : f states.length (fun i => (charAt states i).isVowel && (charAt states i).hasTone) = none) :
    checkToneModInvariant states ∧ ∀ k, tonedVowel (charAt states k) = false := by
  have hnone : ∀ k, tonedVowel (charAt states k) = false := by
    intro k
    rw [Bool.eq_false_iff]
    intro hk
    have hfalse := hf h k (tonedVowel_lt hk)
    rw [tonedVowel, hfalse] at hk
    cases hk
  exact ⟨checkToneModInvariant_toneless hnone, hnone⟩

omit [WideLocale] in
/-- `RelocateToneToHornVowel` on vowels that stand together, one of them horned. -/
lemma checkToneModInvariant_toHorn (htogether : Together states) {h : Nat}
    (hhorn : lastIdx? states.length (fun i => (charAt states i).isVowel && (charAt states i).isHorn) =
      some h) :
    checkToneModInvariant (relocateToneToHornVowel states) ↔
      let tonedIdx :=
        lastIdx? states.length fun i => (charAt states i).isVowel && (charAt states i).hasTone
      let follows := tonedIdx.any fun t =>
        (charAt states t).mod == .none || (charAt states t).mod == .horn
      tonesAmong states tonedIdx (if follows then some h else none) := by
  obtain ⟨hlt, hp⟩ := lastIdx?_eq_some hhorn
  rw [Bool.and_eq_true, CharState.isHorn, beq_iff_eq] at hp
  have hmod : (charAt states h).hasModifier := by
    rw [CharState.hasModifier, hp.2]
    rfl
  rw [relocateToneToHornVowel, hhorn, tonesAmong_iff]
  cases htoned :
      lastIdx? states.length fun i => (charAt states i).isVowel && (charAt states i).hasTone with
  | none =>
    obtain ⟨hinv, hnone⟩ := checkToneModInvariant_of_none (fun h => lastIdx?_eq_none.1 h) htoned
    exact iff_of_true hinv fun k hk => by simp [hnone k] at hk
  | some t =>
    have ht : tonedVowel (charAt states t) := (lastIdx?_eq_some htoned).2
    have hvowel : (charAt states t).isVowel := by
      rw [tonedVowel, Bool.and_eq_true] at ht
      exact ht.1
    have hbetween := htogether.no_consonant hvowel hp.1
    have hfollows : ((charAt states t).mod == .none || (charAt states t).mod == .horn) ↔
        (charAt states t).mod = .none ∨ (charAt states t).mod = .horn := by
      rw [Bool.or_eq_true, beq_iff_eq, beq_iff_eq]
    dsimp only [Option.any_some]
    rw [hbetween]
    by_cases hmods : (charAt states t).mod = .none ∨ (charAt states t).mod = .horn
    · rw [if_pos (hfollows.2 hmods)]
      by_cases hne : h = t
      · subst hne
        rw [if_neg fun hif => hif.1 rfl, checkToneModInvariant_kept ht hmod]
        simp only [Option.some.injEq, or_self]
      · have hmoved : (charAt (moveToneOnly states t h) h).hasModifier :=
          (hasModifier_carried (by intro; rfl) (by intro; rfl)).trans hmod
        have hcarried : ∀ k, tonedVowel (charAt (moveToneOnly states t h) k) ↔
            h = k ∨ t ≠ k ∧ tonedVowel (charAt states k) := fun k =>
          tonedVowel_carried (fun _ => ⟨rfl, rfl⟩) (fun _ => ⟨rfl, rfl⟩) ht hlt hp.1 (Ne.symm hne)
        rw [if_pos ⟨hne, hmods, Bool.false_ne_true⟩, checkToneModInvariant_gathered hmoved hcarried]
        simp only [Option.some.injEq]
    · -- the tone stays on its vowel, which is modified
      have hmodt : (charAt states t).hasModifier := by
        rw [CharState.hasModifier, bne_iff_ne]
        exact fun hn => hmods (.inl hn)
      rw [if_neg fun hif => hmods hif.2.1, if_neg fun hf => hmods (hfollows.1 hf),
        checkToneModInvariant_kept ht hmodt]
      simp only [Option.some.injEq, reduceCtorEq, or_false]

/-- `RelocateToneToTarget` on vowels that stand together, with a modified vowel as target. -/
lemma checkToneModInvariant_toTarget {cfg : TypingConfig} (htogether : Together states) {m : Nat}
    (htarget : findToneTarget cfg.modernOrtho states = some m) (hmod : (charAt states m).hasModifier) :
    checkToneModInvariant (relocateToneToTarget cfg states) ↔
      tonesAmong states (findTonedVowelIndex states) (some m) := by
  obtain ⟨hlt, hm, -⟩ := findToneTarget_eq_some htarget
  have hopen : isToneRelocBlockedByP4 states m cfg.modernOrtho = false := by
    rw [isToneRelocBlockedByP4, if_pos hmod]
  rw [relocateToneToTarget, htarget, tonesAmong_iff]
  cases htoned : findTonedVowelIndex states with
  | none =>
    obtain ⟨hinv, hnone⟩ := checkToneModInvariant_of_none (fun h => firstIdx?_eq_none.1 h) htoned
    exact iff_of_true hinv fun k hk => by simp [hnone k] at hk
  | some t =>
    obtain ⟨-, hvowel, htone⟩ := findTonedVowelIndex_eq_some htoned
    have ht : tonedVowel (charAt states t) := by rw [tonedVowel, hvowel, htone]; rfl
    have hbetween := htogether.no_consonant hvowel hm
    dsimp only
    rw [hbetween, hopen]
    by_cases hne : m = t
    · subst hne
      rw [if_pos rfl, checkToneModInvariant_kept ht hmod]
      simp only [Option.some.injEq, or_self]
    · have hmoved : (charAt (moveTone states t m) m).hasModifier :=
        (hasModifier_carried (by intro; rfl) (by intro; rfl)).trans hmod
      have hcarried : ∀ k, tonedVowel (charAt (moveTone states t m) k) ↔
          m = k ∨ t ≠ k ∧ tonedVowel (charAt states k) := fun k =>
        tonedVowel_carried (fun _ => ⟨rfl, rfl⟩) (fun _ => ⟨rfl, rfl⟩) ht hlt hm (Ne.symm hne)
      rw [if_neg hne, if_neg Bool.false_ne_true, if_neg Bool.false_ne_true,
        checkToneModInvariant_gathered hmoved hcarried]
      simp only [Option.some.injEq]

end Relocation

section Target
variable {states : List CharState} {i : Nat}

/-- What the tone placement reads of a state. -/
def rendered (s : CharState) : Char × Modifier :=
  (s.base, if (modifiedVowel s.base s.mod).isSome then s.mod else .none)

/-- A vowel is decomposed as it was composed. -/
lemma decompose_compose {s : CharState} (hv : s.isVowel) :
    decompose (compose { s with tone := .none, isUpper := false }) = some (rendered s) := by
  obtain ⟨base, mod, tone, isUpper, synthetic, rawIdx, toneRawIdx⟩ := s
  simp only [CharState.isVowel, isVowelBase, Bool.or_eq_true, beq_iff_eq] at hv
  obtain ((((rfl | rfl) | rfl) | rfl) | rfl) | rfl := hv <;> cases mod <;> rfl

omit [WideLocale] in
/-- A mark that shows is one. -/
lemma rendered_mod {s : CharState} (h : (rendered s).2 ≠ .none) : s.hasModifier := by
  rw [rendered] at h
  rw [CharState.hasModifier, bne_iff_ne]
  intro hn
  rw [hn] at h
  exact h (by split <;> rfl)

omit [WideLocale] in
/-- The marks of the vowels. -/
lemma mod_of_modifiedVowel {base : Char} {mod : Modifier} (h : (modifiedVowel base mod).isSome) :
    mod = .horn ∨ mod = .circumflex ∨ mod = .breve := by
  cases mod with
  | none => simp [modifiedVowel] at h
  | circumflex => exact .inr (.inl rfl)
  | breve => exact .inr (.inr rfl)
  | horn => exact .inl rfl
  | stroke => simp [modifiedVowel] at h

omit [WideLocale] in
/-- A modified vowel takes the tone before the diphthong rules. -/
lemma computeTonePosition_of_modified {vowelSeq coda : List Char} {modernOrtho : Bool}
    {vowels : List (Char × Modifier)} (hvowels : (vowelSeq.filterMap decompose).take kVowelCap = vowels)
    {p : Nat} (hp : p < vowels.length)
    (hmod : (vowels.getD p ('\x00', .none)).2 = .horn ∨
      (vowels.getD p ('\x00', .none)).2 = .circumflex ∨ (vowels.getD p ('\x00', .none)).2 = .breve) :
    ∃ q, q < vowels.length ∧ computeTonePosition vowelSeq coda modernOrtho = some q ∧
      (vowels.getD q ('\x00', .none)).2 ≠ .none := by
  have hne : vowels ≠ [] := List.ne_nil_of_length_pos (Nat.lt_of_le_of_lt (Nat.zero_le p) hp)
  simp only [computeTonePosition, hvowels, if_neg hne]
  cases hhorn : lastIdx? vowels.length fun i => (vowels.getD i ('\x00', .none)).2 == .horn with
  | some q =>
    obtain ⟨hq, hmodq⟩ := lastIdx?_eq_some hhorn
    refine ⟨q, hq, rfl, ?_⟩
    rw [beq_iff_eq.1 hmodq]
    decide
  | none =>
    cases hother : firstIdx? vowels.length fun i =>
        (vowels.getD i ('\x00', .none)).2 == .circumflex ||
          (vowels.getD i ('\x00', .none)).2 == .breve with
    | some q =>
      obtain ⟨hq, hmodq⟩ := firstIdx?_eq_some hother
      refine ⟨q, hq, rfl, fun hn => ?_⟩
      rw [hn] at hmodq
      cases hmodq
    | none =>
      have hfalse := lastIdx?_eq_none.1 hhorn p hp
      have hfalse' := firstIdx?_eq_none.1 hother p hp
      obtain h | h | h := hmod <;> rw [h] at hfalse hfalse'
      · cases hfalse
      · cases hfalse'
      · cases hfalse'

/-- The vowels that may carry the tone. -/
lemma mem_toneVowelIdxs (hlen : states.length ≤ kVowelCap) : i ∈ toneVowelIdxs states ↔
    i < states.length ∧ (charAt states i).isVowel ∧ isClusterConsonant states i = false := by
  have hle : ((List.range states.length).filter fun i =>
      (charAt states i).isVowel && !isClusterConsonant states i &&
        compose { charAt states i with tone := .none, isUpper := false } != '\x00').length ≤
          kVowelCap :=
    (List.length_filter_le _ _).trans (List.length_range.le.trans hlen)
  rw [toneVowelIdxs, List.take_of_length_le hle, List.mem_filter, List.mem_range]
  refine and_congr_right fun _ => ?_
  rw [Bool.and_eq_true, Bool.and_eq_true, Bool.not_eq_true', bne_iff_ne, and_iff_left_iff_imp]
  rintro ⟨hv, -⟩ hzero
  have hsome := decompose_compose hv
  rw [hzero] at hsome
  cases hsome

/-- The vowels of the placement are the marks of the states. -/
lemma decompose_vowels {idxs : List Nat} (hlen : idxs.length ≤ kVowelCap)
    (hvowel : ∀ k ∈ idxs, (charAt states k).isVowel) : ((idxs.map fun k =>
      compose { charAt states k with tone := .none, isUpper := false }).filterMap decompose).take
        kVowelCap = idxs.map fun k => rendered (charAt states k) := by
  have hrendered : idxs.filterMap (decompose ∘ fun k =>
      compose { charAt states k with tone := .none, isUpper := false }) =
        idxs.map fun k => rendered (charAt states k) :=
    List.filterMap_eq_map_iff_forall_eq_some.2 fun k hk => decompose_compose (hvowel k hk)
  rw [List.filterMap_map, hrendered, List.take_of_length_le]
  rwa [List.length_map]

/-- With a modified vowel in the buffer the tone goes to a modified one. -/
lemma findToneTarget_of_modified {modernOrtho : Bool} (hlen : states.length ≤ kVowelCap)
    (hi : i < states.length) (hv : (charAt states i).isVowel)
    (hcluster : isClusterConsonant states i = false)
    (hmod : (modifiedVowel (charAt states i).base (charAt states i).mod).isSome) :
    ∃ m, findToneTarget modernOrtho states = some m ∧ (charAt states m).hasModifier := by
  have hmem : i ∈ toneVowelIdxs states := (mem_toneVowelIdxs hlen).2 ⟨hi, hv, hcluster⟩
  have hvowel : ∀ j ∈ toneVowelIdxs states, (charAt states j).isVowel := fun j hj =>
    ((mem_toneVowelIdxs hlen).1 hj).2.1
  have hidxs : (toneVowelIdxs states).length ≤ kVowelCap := List.length_take_le _ _
  have hvowels := decompose_vowels hidxs hvowel
  obtain ⟨last, hlast⟩ := Option.isSome_iff_exists.1
    (List.getLast?_isSome.2 (List.ne_nil_of_mem hmem))
  simp only [findToneTarget, hlast]
  generalize toneVowelIdxs states = idxs at *
  generalize (idxs.map fun j =>
    compose { charAt states j with tone := .none, isUpper := false }) = vowelSeq at hvowels ⊢
  generalize (List.filter _ _).take kVowelCap = coda
  have hread : ∀ {q j}, idxs[q]? = some j →
      (idxs.map fun j => rendered (charAt states j)).getD q ('\x00', .none) =
        rendered (charAt states j) := by
    intro q j hq
    rw [List.getD_eq_getElem?_getD, List.getElem?_map, hq]
    rfl
  obtain ⟨p, hp⟩ := List.mem_iff_getElem?.1 hmem
  have hmodp : (rendered (charAt states i)).2 = .horn ∨ (rendered (charAt states i)).2 = .circumflex ∨
      (rendered (charAt states i)).2 = .breve := by
    rw [rendered, if_pos hmod]
    exact mod_of_modifiedVowel hmod
  have hltp : p < (idxs.map fun j => rendered (charAt states j)).length := by
    rw [List.length_map]
    exact (List.getElem?_eq_some_iff.1 hp).1
  rw [← hread hp] at hmodp
  obtain ⟨q, hq, hposition, hmodq⟩ := @computeTonePosition_of_modified vowelSeq coda modernOrtho
    _ hvowels p hltp hmodp
  rw [List.length_map] at hq
  refine ⟨idxs[q], ?_, ?_⟩
  · rw [hposition]
    exact List.getElem?_eq_getElem hq
  · rw [hread (List.getElem?_eq_getElem hq)] at hmodq
    exact rendered_mod hmodq

end Target

end NextKey
