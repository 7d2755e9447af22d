import NextKey.Engine.Syllable

/-!
# Prefixes of a valid syllable

A syllable typed letter by letter passes through its prefixes. The verdict on a prefix of a valid
buffer is never `Invalid`, but for two kinds of buffers. A nucleus may allow a final and not its
first letter: `uych`, `uêch` and `oong`. And the `i` of an onset `gi` may carry a modifier, which the
two letters alone do not accept.
-/

namespace NextKey.Phonology

open Slot in
/-- The finals a nucleus allows without allowing their first letter. -/
def strandedPairs : List (VowelKey × Final) :=
  [([u, y], .ch), ([u, eHat], .ch), ([o, o], .ng)]

/-- The buffer ends in a nucleus and a final from `strandedPairs`. The `u` of `quêch` may be part of
    the onset, and `ê` allows `c`. -/
def strandedFinal (states : List CharState) : Bool :=
  match states.reverse with
  | y :: x :: v2 :: v1 :: front =>
    strandedPairs.any fun (key, f) =>
      [v1, v2].map vowelSlot? == key.map some && [x.base, y.base] == f.letters &&
        !(key == [Slot.u, Slot.eHat] && front.head?.map (·.base) == some 'q')
  | _ => false

/-- The onset is `gi` with a modifier on the `i`. -/
def modifiedGi : List CharState → Bool
  | s0 :: s1 :: _ :: _ => s0.base == 'g' && s1.base == 'i' && modOrdinal s1.mod != .none
  | _ => false

/-- The prefixes of a nucleus are nuclei. -/
lemma findVowel_take {key entry} (h : findVowel key = some entry) {j} (hj : 1 ≤ j) :
    ∃ entry', findVowel (key.take j) = some entry' := by
  have table : ∀ e ∈ kVowelTable, (findVowel (e.key.take 1)).isSome ∧
      (findVowel (e.key.take 2)).isSome ∧ e.key.length ≤ 3 := by decide
  obtain ⟨hmem, rfl⟩ := findVowel_eq_some h
  obtain ⟨h₁, h₂, hlen⟩ := table entry hmem
  obtain rfl | rfl | hj : j = 1 ∨ j = 2 ∨ 3 ≤ j := by omega
  · exact Option.isSome_iff_exists.1 h₁
  · exact Option.isSome_iff_exists.1 h₂
  · rw [List.take_of_length_le (by omega)]
    exact ⟨entry, h⟩

/-- The final the first letter of a final spells. -/
def Final.head : Final → Final
  | .ch => .c
  | .ng => .n
  | .nh => .n
  | f => f

/-- All codas are listed. -/
lemma mem_allFinals {f : Final} : f ∈ allFinals := by cases f <;> decide

/-- The first letter of a coda. -/
lemma letters_head {f : Final} : f.head.letters = f.letters.take 1 := by cases f <;> rfl

/-- A coda begins as a stop when it is one. -/
lemma isStop_head {f : Final} : f.head.isStop = f.isStop := by cases f <;> rfl

/-- A nucleus that allows a final allows its first letter, but for the stranded pairs. -/
lemma allowsFinal_head {key entry} {f : Final} (h : findVowel key = some entry) (hend : entry.canEnd)
    (hf : allowsFinal key f) : allowsFinal key f.head ∨ (key, f) ∈ strandedPairs := by
  have table : ∀ e ∈ kVowelTable, e.canEnd → ∀ f ∈ allFinals, allowsFinal e.key f →
      allowsFinal e.key f.head ∨ (e.key, f) ∈ strandedPairs := by decide +kernel
  obtain ⟨hmem, rfl⟩ := findVowel_eq_some h
  exact table entry hmem hend f mem_allFinals hf

/-- A part of the nucleus is accepted. -/
lemma Accepts.take_nucleus {tone tone' : Tone} {nucleus final : List CharState} {j}
    (h : Accepts tone nucleus final) (hj : 1 ≤ j) : Accepts tone' (nucleus.take j) [] := by
  obtain ⟨key, entry, hkey, hentry, -⟩ := h
  obtain ⟨⟨h₁, h₃⟩, hslots⟩ := vowelKey?_eq_some.1 hkey
  obtain ⟨entry', hentry'⟩ := findVowel_take hentry hj
  refine ⟨key.take j, entry', vowelKey?_eq_some.2 ⟨?_, List.forall₂_take j hslots⟩, hentry', .inl rfl⟩
  rw [List.length_take]
  omega

/-- A prefix has the tone or none. -/
lemma getTone_take {states : List CharState} {k : Nat} :
    getTone (states.take k) = .none ∨ getTone (states.take k) = getTone states := by
  have hsplit : states.find? (·.hasTone) =
      ((states.take k).find? (·.hasTone)).or ((states.drop k).find? (·.hasTone)) := by
    rw [← List.find?_append, List.take_append_drop]
  cases h : (states.take k).find? (·.hasTone) with
  | none => simp [getTone, h]
  | some s => simp [getTone, hsplit, h]

/-- A stop that accepts the tone of a buffer accepts the tone of a prefix. -/
lemma stopTone_take {states : List CharState} {k : Nat} (h : stopTone (getTone states)) :
    stopTone (getTone (states.take k)) := by
  obtain h' | h' := @getTone_take states k
  · simp [h', stopTone]
  · rwa [h']

/-- A prefix of a buffer keeps the tone on a modified vowel. -/
lemma checkToneModInvariant_take {states : List CharState} {k : Nat}
    (h : checkToneModInvariant states) : checkToneModInvariant (states.take k) := by
  rw [← List.take_append_drop k states] at h
  generalize states.take k = front at h ⊢
  simp only [checkToneModInvariant, List.filter_append] at h ⊢
  rcases htoned : (front.filter (·.isVowel)).filter (·.hasTone) with _ | ⟨s, _ | ⟨s', rest⟩⟩
  · simp [htoned]
  · simp only [htoned] at h ⊢
    generalize ((states.drop k).filter (·.isVowel)).filter (·.hasTone) = toned at h
    cases toned with
    | nil =>
      simp only [List.append_nil, List.any_append, Bool.not_eq_true', Bool.and_eq_false_imp,
        Bool.or_eq_true] at h ⊢
      exact fun hmod => h (.inl hmod)
    | cons => simp at h
  · simp [htoned] at h

/-- A consonant prefix cut short is one. -/
lemma isValidConsonantPrefix_take {onset : List CharState} {allowZwjf k}
    (h : isValidConsonantPrefix onset allowZwjf) :
    isValidConsonantPrefix (onset.take k) allowZwjf := by
  have pair : ∀ {c d : Char}, kPrefixPairs.contains (c, d) → isInitialChar c allowZwjf = true := by
    intro c d hcd
    simp only [kPrefixPairs, List.contains_eq_mem, List.mem_cons, List.not_mem_nil, or_false,
      decide_eq_true_eq, Prod.mk.injEq] at hcd
    obtain ⟨rfl, -⟩ | ⟨rfl, -⟩ | ⟨rfl, -⟩ | ⟨rfl, -⟩ | ⟨rfl, -⟩ | ⟨rfl, -⟩ | ⟨rfl, -⟩ | ⟨rfl, -⟩ :=
      hcd <;>
      simp [isInitialChar]
  rcases onset with _ | ⟨s0, _ | ⟨s1, _ | ⟨s2, _ | ⟨s3, rest⟩⟩⟩⟩ <;>
    rcases k with _ | _ | _ | k <;> try exact h
  all_goals try rfl
  · simp only [isValidConsonantPrefix, Bool.and_eq_true, Bool.not_eq_true'] at h
    simp [isValidConsonantPrefix, h.1.1, pair h.2]
  · simp only [isValidConsonantPrefix, startsNgh, Bool.and_eq_true, beq_iff_eq] at h
    simp [isValidConsonantPrefix, isInitialChar, CharState.isVowel, isVowelBase, h]
  · simp only [isValidConsonantPrefix, startsNgh, Bool.and_eq_true, beq_iff_eq] at h
    simp [isValidConsonantPrefix, kPrefixPairs, CharState.isVowel, isVowelBase, h]
  · simpa [isValidConsonantPrefix] using h
  all_goals simp [isValidConsonantPrefix] at h

/-- A prefix that ends in the onset may become a syllable. -/
lemma validateImpl_of_consonants {states : List CharState} {allowZwjf}
    (h : isValidConsonantPrefix states allowZwjf) : validateImpl states allowZwjf = .validPrefix := by
  have hclosed : ¬Opens states allowZwjf := by
    intro ho
    have := ho.lt
    rw [parseInitialConsonant_self h] at this
    omega
  rw [validateImpl_of_not_opens hclosed, if_pos h]

/-- The verdict on an open buffer is not `Invalid` when one of its decompositions is valid. -/
lemma validateImpl_ne_invalid {states : List CharState} {allowZwjf n} (h : Opens states allowZwjf)
    (hn : n ∈ onsetLengths states allowZwjf) (hv : validateDecomposition states n = .valid) :
    validateImpl states allowZwjf ≠ .invalid := by
  rw [ne_eq, (validateImpl_of_opens h).2]
  rintro ⟨-, hall⟩
  rw [hall n hn] at hv
  cases hv

/-- A decomposition of a valid buffer stays valid when the buffer is cut short, unless the final is
    cut and its first letter is not allowed. -/
lemma validateDecomposition_take {states : List CharState} {n k}
    (hv : validateDecomposition states n = .valid) (hk : n < k) :
    validateDecomposition (states.take k) n = .valid ∨
      ∃ v1 v2 x y key f, states = states.take n ++ [v1, v2, x, y] ∧ k = n + 3 ∧
        vowelKey? [v1, v2] = some key ∧ [x, y].map (·.base) = f.letters ∧ (key, f) ∈ strandedPairs ∧
        (f.isStop → stopTone (getTone states)) := by
  obtain ⟨nucleus, final, hsplit⟩ : ∃ V F, Split (states.drop n) V F := ⟨_, _, split_takeWhile⟩
  obtain ⟨key, entry, hkey, hentry, hfinal⟩ := (validateDecomposition_eq_valid hsplit).1 hv
  have hdrop : (states.take k).drop n = (states.drop n).take (k - n) := by rw [List.drop_take]
  by_cases hj : k - n ≤ nucleus.length
  · left
    have hsplit' := hsplit.take_nucleus hj
    rw [← hdrop] at hsplit'
    exact (validateDecomposition_eq_valid hsplit').2
      (Accepts.take_nucleus ⟨key, entry, hkey, hentry, hfinal⟩ (by omega))
  · obtain ⟨j, hj⟩ : ∃ j, k - n = nucleus.length + (j + 1) := ⟨k - n - nucleus.length - 1, by omega⟩
    have hsplit' := hsplit.take_final (j := j + 1)
    rw [← hj, ← hdrop] at hsplit'
    have hvalid := validateDecomposition_eq_valid hsplit'
    obtain rfl | ⟨hend, f, hf, hallow, hstop⟩ := hfinal
    · exact .inl (hvalid.2 ⟨key, entry, hkey, hentry, .inl (by simp)⟩)
    · by_cases hfull : f.letters.take (j + 1) = f.letters
      · refine .inl (hvalid.2 ⟨key, entry, hkey, hentry, .inr ⟨hend, f, ?_, hallow, fun hs => ?_⟩⟩)
        · rw [List.map_take, hf, hfull]
        · exact stopTone_take (hstop hs)
      · have hlt : j + 1 < f.letters.length := by
          by_contra hn
          exact hfull (List.take_of_length_le (by omega))
        have htwo : f.letters.length ≤ 2 := by cases f <;> simp [Final.letters]
        obtain rfl : j = 0 := by omega
        obtain hhead | hstranded := allowsFinal_head hentry hend hallow
        · refine .inl (hvalid.2 ⟨key, entry, hkey, hentry,
            .inr ⟨hend, f.head, ?_, hhead, fun hs => ?_⟩⟩)
          · rw [List.map_take, hf, letters_head]
          · rw [isStop_head] at hs
            exact stopTone_take (hstop hs)
        · have hkeys : ∀ p ∈ strandedPairs, p.1.length = 2 := by decide
          obtain ⟨-, hslots⟩ := vowelKey?_eq_some.1 hkey
          obtain ⟨v1, v2, rfl⟩ := List.length_eq_two.1 (hslots.length_eq.trans (hkeys _ hstranded))
          have hflen : final.length = 2 := by
            have := congrArg List.length hf
            rw [List.length_map] at this
            omega
          obtain ⟨x, y, rfl⟩ := List.length_eq_two.1 hflen
          refine .inr ⟨v1, v2, x, y, key, f, ?_, ?_, hkey, hf, hstranded, hstop⟩
          · conv_lhs => rw [← List.take_append_drop n states, hsplit.eq]
            rfl
          · simp only [List.length_cons, List.length_nil] at hj
            omega

/-- A coda is stranded by the four last letters. -/
lemma strandedFinal_append {front : List CharState} {v1 v2 x y} :
    strandedFinal (front ++ [v1, v2, x, y]) = strandedPairs.any fun (key, f) =>
      [v1, v2].map vowelSlot? == key.map some && [x.base, y.base] == f.letters &&
        !(key == [Slot.u, Slot.eHat] && front.getLast?.map (·.base) == some 'q') := by
  simp [strandedFinal]

/-- A stranded pair at the end of a buffer that is not stranded is `quêch`. -/
lemma quech_of_not_strandedFinal {front : List CharState} {v1 v2 x y key f}
    (h : strandedFinal (front ++ [v1, v2, x, y]) = false) (hkey : vowelKey? [v1, v2] = some key)
    (hf : [x, y].map (·.base) = f.letters) (hmem : (key, f) ∈ strandedPairs) :
    (key, f) = ([Slot.u, Slot.eHat], .ch) ∧ front.getLast?.map (·.base) = some 'q' := by
  have hmap := (vowelKey?_eq_some_iff_map.1 hkey).2
  rw [strandedFinal_append, List.any_eq_false] at h
  have := h _ hmem
  have hf' : [x.base, y.base] = f.letters := hf
  simp only [hmap, hf', beq_self_eq_true, Bool.true_and, Bool.not_eq_true', Bool.not_eq_false,
    Bool.and_eq_true, beq_iff_eq] at this
  obtain ⟨rfl, hq⟩ := this
  have hpairs : ∀ p ∈ strandedPairs, p.1 = [Slot.u, Slot.eHat] → p.2 = .ch := by decide
  have hch : f = .ch := hpairs _ hmem rfl
  exact ⟨by rw [hch], hq⟩

/-- A consonant prefix that ends in `q` is `q`. -/
lemma onset_eq_q {onset : List CharState} {allowZwjf} (h : isValidConsonantPrefix onset allowZwjf)
    (hq : onset.getLast?.map (·.base) = some 'q') : ∃ s0, onset = [s0] ∧ s0.base = 'q' := by
  rcases onset with _ | ⟨s0, _ | ⟨s1, _ | ⟨s2, _ | ⟨s3, rest⟩⟩⟩⟩
  · simp at hq
  · exact ⟨s0, rfl, by simpa using hq⟩
  · have hb : s1.base = 'q' := by simpa using hq
    simp [isValidConsonantPrefix, hb, kPrefixPairs] at h
  · have hb : s2.base = 'q' := by simpa using hq
    simp [isValidConsonantPrefix, startsNgh, hb] at h
  · simp [isValidConsonantPrefix] at h

section Prefix
variable {states : List CharState} {allowZwjf : Bool}

/-- When a syllable is invalid. -/
lemma validateSyllableState_eq_invalid : validateSyllableState states allowZwjf = .invalid ↔
    validateImpl states allowZwjf = .invalid ∨ ¬checkToneModInvariant states := by
  simp only [validateSyllableState]
  split
  · next h => simp [h.2]
  · next h =>
    constructor
    · exact .inl
    · rintro (hi | hc)
      · exact hi
      · by_contra hn
        exact h ⟨hn, hc⟩

/-- A longer prefix glides as the whole. -/
lemma gliding_take {k} (hk : 2 < k) : gliding (states.take k) = gliding states := by
  obtain ⟨j, rfl⟩ : ∃ j, k = j + 3 := ⟨k - 3, by omega⟩
  rcases states with _ | ⟨_, _ | ⟨_, _ | ⟨_, _⟩⟩⟩ <;> simp [gliding]

/-- The decompositions whose rest starts in a prefix are decompositions of the prefix. -/
lemma mem_onsetLengths_take {onset tail : List CharState} {v n j}
    (ho : isValidConsonantPrefix onset allowZwjf) (hv : v.isVowel)
    (hn : n ∈ onsetLengths (onset ++ v :: tail) allowZwjf) (hk : n < onset.length + (j + 1)) :
    n ∈ onsetLengths (onset ++ v :: tail.take j) allowZwjf := by
  simp only [onsetLengths, parseInitialConsonant_append ho hv, List.mem_cons] at hn ⊢
  obtain rfl | hn := hn
  · exact .inl rfl
  · have htake : onset ++ v :: tail.take j = (onset ++ v :: tail).take (onset.length + (j + 1)) := by
      rw [List.take_length_add_append, List.take_succ_cons]
    split at hn
    · next hg =>
      obtain rfl : n = 2 := by simpa using hn
      rw [htake, gliding_take hk, hg]
      exact .inr (List.mem_singleton_self _)
    · cases hn

/-- A prefix with a vowel opens like the whole buffer. -/
lemma opens_take {onset tail : List CharState} {v j} (ho : isValidConsonantPrefix onset allowZwjf)
    (hv : v.isVowel) (h : Opens (onset ++ v :: tail) allowZwjf) :
    Opens (onset ++ v :: tail.take j) allowZwjf := by
  rw [opens_append_iff ho hv] at h ⊢
  have hclash : initialVowelClash (onset ++ v :: tail.take j) onset.length =
      initialVowelClash (onset ++ v :: tail) onset.length := initialVowelClash_congr rfl rfl
  rwa [hclash]

/-- The two letters of an onset `gi` or `qu` that is followed by a vowel. -/
lemma exists_of_gliding (h : gliding states) : ∃ s0 s1 s2 rest, states = s0 :: s1 :: s2 :: rest ∧
    (s0.base = 'g' ∧ s1.base = 'i' ∨ s0.base = 'q' ∧ s1.base = 'u') ∧ s2.isVowel := by
  rcases states with _ | ⟨s0, _ | ⟨s1, _ | ⟨s2, rest⟩⟩⟩
  · cases h
  · cases h
  · cases h
  · exact ⟨s0, s1, s2, rest, rfl, by simpa [gliding] using h⟩

/-- The letters `gi` or `qu` open when a buffer that starts with them does. -/
lemma opens_glide {s0 s1 : CharState} {rest}
    (h : s0.base = 'g' ∧ s1.base = 'i' ∨ s0.base = 'q' ∧ s1.base = 'u')
    (ho : Opens (s0 :: s1 :: rest) allowZwjf) : Opens [s0, s1] allowZwjf := by
  obtain ⟨onset, v, tail, heq, hv, hp, hparse⟩ := ho.exists_onset
  rw [parseInitialConsonant_glide h] at hparse
  obtain ⟨q, rfl⟩ := List.length_eq_one_iff.1 hparse.symm
  obtain ⟨rfl, rfl, rfl⟩ : s0 = q ∧ s1 = v ∧ rest = tail := by simpa using heq
  exact opens_take (j := 0) hp hv ho

/-- A plain `i` is the nucleus of `gi`. -/
lemma validateDecomposition_gi {s0 s1 : CharState} (h1 : s1.base = 'i')
    (hm : modOrdinal s1.mod = .none) : validateDecomposition [s0, s1] 1 = .valid := by
  have hi : s1.isVowel := by simp [CharState.isVowel, isVowelBase, h1]
  have hsplit : Split ([s0, s1].drop 1) [s1] [] := ⟨rfl, by simpa, by simp⟩
  refine (validateDecomposition_eq_valid hsplit).2 ?_
  refine ⟨[Slot.i], ⟨[Slot.i], true⟩, ?_, by decide, .inl rfl⟩
  rw [vowelKey?_eq_some]
  simp [vowelSlot?_eq_some, h1, hm, VowelBase.letter]

/-- In `gi` the onset may be `g` alone. -/
lemma mem_onsetLengths_gi {s0 s1 : CharState} (h0 : s0.base = 'g') (h1 : s1.base = 'i') :
    1 ∈ onsetLengths [s0, s1] allowZwjf := by
  simp [onsetLengths, parseInitialConsonant_glide (.inl ⟨h0, h1⟩)]

/-- The verdict on a prefix that cuts an onset `gi` or `qu` in front of its vowel. -/
lemma validateImpl_glide_ne_invalid {s0 s1 : CharState}
    (h : s0.base = 'g' ∧ s1.base = 'i' ∨ s0.base = 'q' ∧ s1.base = 'u')
    (hm : s0.base = 'g' → modOrdinal s1.mod = .none) (ho : Opens [s0, s1] allowZwjf) :
    validateImpl [s0, s1] allowZwjf ≠ .invalid := by
  obtain ⟨h0, h1⟩ | ⟨h0, h1⟩ := h
  · exact validateImpl_ne_invalid ho (mem_onsetLengths_gi h0 h1) (validateDecomposition_gi h1 (hm h0))
  · rw [ne_eq, (validateImpl_of_opens ho).2]
    simp [bareQu, h0, h1]

/-- A decomposition is at the onset, or at two letters behind `gi` or `qu`. -/
lemma mem_onsetLengths {onset tail : List CharState} {v n} (ho : isValidConsonantPrefix onset allowZwjf)
    (hv : v.isVowel) (hn : n ∈ onsetLengths (onset ++ v :: tail) allowZwjf) :
    n = onset.length ∨ n = 2 ∧ onset.length = 1 ∧ gliding (onset ++ v :: tail) := by
  have hparse := @parseInitialConsonant_append allowZwjf onset tail v ho hv
  simp only [onsetLengths, List.mem_cons] at hn
  obtain rfl | hn := hn
  · exact .inl hparse
  · split at hn
    · next hg =>
      obtain ⟨s0, s1, s2, rest, heq, hb, -⟩ := exists_of_gliding hg
      refine .inr ⟨by simpa using hn, ?_, hg⟩
      rw [← hparse, heq]
      exact parseInitialConsonant_glide hb
    · cases hn

/-- `quêc` is accepted with `qu` as its onset. -/
lemma validateImpl_quec_ne_invalid {q u e c : CharState} (hopen : Opens [q, u, e, c] allowZwjf)
    (hq : q.base = 'q') (hkey : vowelKey? [u, e] = some [Slot.u, Slot.eHat]) (hc : c.base = 'c')
    (htone : stopTone (getTone [q, u, e, c])) :
    validateImpl [q, u, e, c] allowZwjf ≠ .invalid := by
  obtain ⟨-, hslots⟩ := vowelKey?_eq_some.1 hkey
  simp only [List.forall₂_cons, List.forall₂_nil_right_iff, and_true, vowelSlot?_eq_some] at hslots
  obtain ⟨⟨hu, -⟩, he, hem⟩ := hslots
  have heb : e.base = 'e' := he
  have hub : u.base = 'u' := hu
  have hev : e.isVowel := by simp [CharState.isVowel, isVowelBase, heb]
  have hcv : c.isVowel = false := by simp [CharState.isVowel, isVowelBase, hc]
  refine validateImpl_ne_invalid hopen (n := 2) ?_ ?_
  · simp [onsetLengths, gliding, hq, hub, hev]
  · have hsplit : Split ([q, u, e, c].drop 2) [e] [c] := ⟨rfl, by simpa using hev, by simpa using hcv⟩
    refine (validateDecomposition_eq_valid hsplit).2 ?_
    refine ⟨[Slot.eHat], ⟨[Slot.eHat], true⟩, ?_, by decide,
      .inr ⟨rfl, .c, ?_, by decide, fun _ => htone⟩⟩
    · rw [vowelKey?_eq_some]
      simp [vowelSlot?_eq_some, he, hem]
    · simp [hc, Final.letters]

/-- Up to the two kinds, no prefix of a valid syllable is impossible. -/
lemma validateImpl_take_ne_invalid {k} (hvalid : validateImpl states allowZwjf = .valid)
    (hs : strandedFinal states = false) (hg : modifiedGi states = false) :
    validateImpl (states.take k) allowZwjf ≠ .invalid := by
  obtain ⟨hopen, -, n, hn, hdec⟩ := validateImpl_eq_valid.1 hvalid
  obtain ⟨onset, v, tail, rfl, hv, ho, hparse⟩ := hopen.exists_onset
  by_cases hlen : k ≤ onset.length
  · rw [List.take_append_of_le_length hlen, validateImpl_of_consonants (isValidConsonantPrefix_take ho)]
    simp
  obtain ⟨j, rfl⟩ : ∃ j, k = onset.length + (j + 1) := ⟨k - onset.length - 1, by omega⟩
  have htake : (onset ++ v :: tail).take (onset.length + (j + 1)) = onset ++ v :: tail.take j := by
    rw [List.take_length_add_append, List.take_succ_cons]
  have hopen' : Opens ((onset ++ v :: tail).take (onset.length + (j + 1))) allowZwjf := by
    rw [htake]
    exact opens_take ho hv hopen
  by_cases hk : n < onset.length + (j + 1)
  · obtain hdec' | ⟨v1, v2, x, y, key, f, heq, hk3, hkey, hf, hmem, hstop⟩ :=
      validateDecomposition_take hdec hk
    · refine validateImpl_ne_invalid hopen' (n := n) ?_ hdec'
      rw [htake]
      exact mem_onsetLengths_take ho hv hn hk
    · -- the final is cut: only `quêch` is left, whose `qu` is an onset too
      obtain ⟨hpair, hq⟩ := quech_of_not_strandedFinal (by rw [← heq]; exact hs) hkey hf hmem
      obtain ⟨rfl, rfl⟩ := Prod.mk.inj hpair
      obtain rfl | ⟨rfl, -, hglide⟩ := mem_onsetLengths ho hv hn
      · rw [List.take_left] at heq hq
        obtain ⟨q, rfl, hqb⟩ := onset_eq_q ho hq
        obtain rfl : j = 2 := by
          rw [List.length_singleton] at hk3
          omega
        rw [heq] at hopen' hstop ⊢
        exact validateImpl_quec_ne_invalid hopen' hqb hkey (by simpa using (List.cons.inj hf).1)
          (stopTone_take (k := 4) (hstop rfl))
      · obtain ⟨s0, s1, s2, rest, heq', hb, -⟩ := exists_of_gliding hglide
        rw [heq'] at hq
        have hq1 : s1.base = 'q' := by simpa using hq
        rw [hq1] at hb
        simp at hb
  · -- the cut is between the letters of the onset `gi` or `qu` and the vowel
    obtain rfl | ⟨rfl, hone, hglide⟩ := mem_onsetLengths ho hv hn
    · omega
    · obtain ⟨s0, s1, s2, rest, heq, hb, -⟩ := exists_of_gliding hglide
      obtain rfl : j = 0 := by omega
      rw [heq, hone] at hopen' ⊢
      refine validateImpl_glide_ne_invalid hb (fun h0 => ?_) hopen'
      obtain ⟨-, h1⟩ | ⟨h0', -⟩ := hb
      · rw [heq] at hg
        simpa [modifiedGi, h0, h1] using hg
      · rw [h0] at h0'
        cases h0'

/-- The `i` of an onset `gi` alone is no nucleus when it is modified. -/
lemma validateImpl_modifiedGi {s0 s1 : CharState} (h0 : s0.base = 'g') (h1 : s1.base = 'i')
    (hm : modOrdinal s1.mod ≠ .none) (ho : Opens [s0, s1] allowZwjf) :
    validateImpl [s0, s1] allowZwjf = .invalid := by
  rw [(validateImpl_of_opens ho).2]
  refine ⟨by simp [bareQu, h0], ?_⟩
  have hi : s1.isVowel := by simp [CharState.isVowel, isVowelBase, h1]
  have hkey : vowelKey? [s1] = some [⟨.i, modOrdinal s1.mod⟩] := by
    rw [vowelKey?_eq_some]
    simp [vowelSlot?_eq_some, h1, VowelBase.letter]
  have htable : ∀ m ∈ [SlotMod.circ, .brev, .horn], findVowel [⟨.i, m⟩] = none ∧
      isVowelPrefix [⟨.i, m⟩] = false ∧ modifiedEntries [⟨.i, m⟩] = [] := by decide
  obtain ⟨hfind, hprefix, hmod⟩ := htable (modOrdinal s1.mod) (by
    cases hmo : modOrdinal s1.mod <;> simp_all)
  intro n hn
  obtain rfl : n = 1 := by
    simpa [onsetLengths, gliding, parseInitialConsonant_glide (.inl ⟨h0, h1⟩)] using hn
  simp [validateDecomposition, hi, hkey, hfind, hprefix, tryModifiedVowels, hmod]

/-- A nucleus that ends in the vowels of a stranded pair consists of them. -/
lemma stranded_nucleus {key entry pair} (h : findVowel key = some entry) (hp : pair ∈ strandedPairs)
    (hsuffix : pair.1 <:+ key) : key = pair.1 := by
  have table : ∀ e ∈ kVowelTable, ∀ p ∈ strandedPairs, p.1.isSuffixOf e.key → e.key = p.1 := by
    decide +kernel
  obtain ⟨hmem, rfl⟩ := findVowel_eq_some h
  exact table entry hmem pair hp (List.isSuffixOf_iff_suffix.2 hsuffix)

/-- A buffer that ends in a stranded pair. -/
structure Stranded (states front : List CharState) (v1 v2 x y : CharState)
    (pair : VowelKey × Final) : Prop where
  eq : states = front ++ [v1, v2, x, y]
  key : vowelKey? [v1, v2] = some pair.1
  letters : [x, y].map (·.base) = pair.2.letters
  mem : pair ∈ strandedPairs
  onset : pair.1 = [Slot.u, Slot.eHat] → front.getLast?.map (·.base) ≠ some 'q'

/-- The letters of a stranded coda. -/
lemma exists_of_strandedFinal (h : strandedFinal states) :
    ∃ front v1 v2 x y pair, Stranded states front v1 v2 x y pair := by
  obtain ⟨rev, rfl⟩ : ∃ rev, states = rev.reverse := ⟨states.reverse, by simp⟩
  rcases rev with _ | ⟨y, _ | ⟨x, _ | ⟨v2, _ | ⟨v1, front⟩⟩⟩⟩
  · cases h
  · cases h
  · cases h
  · cases h
  have heq : (y :: x :: v2 :: v1 :: front).reverse = front.reverse ++ [v1, v2, x, y] := by simp
  rw [heq] at h ⊢
  rw [strandedFinal_append] at h
  obtain ⟨⟨key, f⟩, hmem, hp⟩ := List.any_eq_true.1 h
  simp only [Bool.and_eq_true, beq_iff_eq, Bool.not_eq_true', Bool.and_eq_false_imp] at hp
  obtain ⟨⟨hslots, hf⟩, hq⟩ := hp
  refine ⟨front.reverse, v1, v2, x, y, (key, f), rfl, ?_, hf, hmem, fun hkey => ?_⟩
  · exact vowelKey?_eq_some_iff_map.2 ⟨by simp, hslots⟩
  · simpa using hq hkey

section Stranded
variable {front onset tail : List CharState} {v v1 v2 x y : CharState} {pair : VowelKey × Final}
  {n : Nat}

/-- The letters of a stranded pair: a vowel `u` or `o`, a vowel, and two consonants. -/
lemma Stranded.classes (h : Stranded states front v1 v2 x y pair) :
    (v1.base = 'u' ∨ v1.base = 'o') ∧ v1.isVowel ∧ v2.isVowel ∧ x.isVowel = false ∧
      y.isVowel = false := by
  have hpairs : ∀ p ∈ strandedPairs, ∃ b1 b2, p.1 = [b1, b2] ∧ (b1.base = .u ∨ b1.base = .o) ∧
      p.2.letters.all fun c => !isVowelBase c := by
    simp only [strandedPairs, List.mem_cons, List.not_mem_nil, or_false]
    rintro p (rfl | rfl | rfl) <;> exact ⟨_, _, rfl, by simp, by decide⟩
  obtain ⟨b1, b2, hkey, hb1, hfinal⟩ := hpairs pair h.mem
  have hslots := (vowelKey?_eq_some.1 (hkey ▸ h.key)).2
  simp only [List.forall₂_cons, List.forall₂_nil_right_iff, and_true, vowelSlot?_eq_some] at hslots
  have vowel : ∀ {b : VowelBase}, isVowelBase b.letter = true := by intro b; cases b <;> rfl
  rw [← h.letters] at hfinal
  simp only [List.map_cons, List.map_nil, List.all_cons, List.all_nil, Bool.and_true, Bool.and_eq_true,
    Bool.not_eq_true'] at hfinal
  refine ⟨?_, ?_, ?_, hfinal⟩
  · obtain hb | hb := hb1
    · exact .inl (by rw [hslots.1.1, hb]; rfl)
    · exact .inr (by rw [hslots.1.1, hb]; rfl)
  · rw [CharState.isVowel, hslots.1.1, vowel]
  · rw [CharState.isVowel, hslots.2.1, vowel]

/-- Behind `qu` only `uych` is stranded. -/
lemma Stranded.uych (h : Stranded states front v1 v2 x y pair) (hv1 : v1.base = 'u')
    (hq : front.getLast?.map (·.base) = some 'q') :
    pair = ([Slot.u, Slot.y], .ch) ∧ vowelKey? [v2] = some [Slot.y] := by
  obtain rfl : pair = ([Slot.u, Slot.y], .ch) := by
    have hmem := h.mem
    simp only [strandedPairs, List.mem_cons, List.not_mem_nil, or_false] at hmem
    obtain rfl | rfl | rfl := hmem
    · rfl
    · exact absurd hq (h.onset rfl)
    · have hslots := (vowelKey?_eq_some.1 h.key).2
      simp [vowelSlot?_eq_some, hv1, VowelBase.letter] at hslots
  have hslots := (vowelKey?_eq_some.1 h.key).2
  simp only [List.forall₂_cons, List.forall₂_nil_right_iff, and_true] at hslots
  refine ⟨rfl, vowelKey?_eq_some.2 ⟨by simp, ?_⟩⟩
  simpa using hslots.2

/-- A buffer whose `gi` or `qu` takes the first vowel of the stranded pair starts with `qu`. -/
lemma Stranded.front_eq_q (h : Stranded states front v1 v2 x y pair) (hlen : front.length = 1)
    (hg : gliding states) : v1.base = 'u' ∧ front.getLast?.map (·.base) = some 'q' := by
  obtain ⟨s0, rfl⟩ := List.length_eq_one_iff.1 hlen
  obtain ⟨t0, t1, t2, rest, heq, hb, -⟩ := exists_of_gliding hg
  rw [h.eq] at heq
  obtain ⟨rfl, rfl, -⟩ : s0 = t0 ∧ v1 = t1 ∧ v2 :: [x, y] = t2 :: rest := by simpa using heq
  obtain ⟨-, h1⟩ | ⟨h0, h1⟩ := hb
  · obtain ⟨hv1 | hv1, -⟩ := h.classes <;> simp [hv1] at h1
  · exact ⟨h1, by simpa using h0⟩

/-- An onset has no vowels. -/
lemma isVowel_of_mem_onset (ho : isValidConsonantPrefix onset allowZwjf) :
    ∀ s ∈ onset, s.isVowel = false := by
  rcases onset with _ | ⟨s0, _ | ⟨s1, _ | ⟨s2, _ | ⟨s3, rest⟩⟩⟩⟩
  · simp
  · simp only [isValidConsonantPrefix, Bool.and_eq_true, Bool.not_eq_true'] at ho
    simpa using ho.1
  · simp only [isValidConsonantPrefix, Bool.and_eq_true, Bool.not_eq_true'] at ho
    simpa using ho.1
  · simp only [isValidConsonantPrefix, startsNgh, Bool.and_eq_true, beq_iff_eq] at ho
    simp [CharState.isVowel, isVowelBase, ho]
  · simp [isValidConsonantPrefix] at ho

/-- The onset ends in front of the stranded nucleus. -/
lemma Stranded.onset_le (h : Stranded states front v1 v2 x y pair) (hs : states = onset ++ v :: tail)
    (ho : isValidConsonantPrefix onset allowZwjf) : onset.length ≤ front.length := by
  by_contra hlt
  have hget : states[front.length]? = some v1 := by rw [h.eq]; simp
  rw [hs, List.getElem?_append_left (by omega)] at hget
  have := isVowel_of_mem_onset ho v1 (List.mem_of_getElem? hget)
  rw [h.classes.2.1] at this
  cases this

/-- The letters tell the coda. -/
lemma letters_injective {f f' : Final} (h : f.letters = f'.letters) : f = f' := by
  cases f <;> cases f' <;> first | rfl | (simp [Final.letters] at h)

/-- The accepted rest of a stranded buffer ends in the stranded pair. -/
lemma Stranded.of_accepts {w nucleus final : List CharState} {tone}
    (h : Stranded states front v1 v2 x y pair)
    (hsplit : Split (w ++ [v1, v2, x, y]) nucleus final) (ha : Accepts tone nucleus final) :
    w = [] := by
  obtain ⟨-, -, -, hx, -⟩ := h.classes
  obtain ⟨key, entry, hkey, hentry, hfinal⟩ := ha
  have hshort : final.length ≤ 2 := by
    obtain rfl | ⟨-, f, hf, -⟩ := hfinal
    · simp
    · rw [← List.length_map (·.base), hf]
      cases f <;> simp [Final.letters]
  have hnucleus : nucleus = w ++ [v1, v2] := by
    have heq : nucleus ++ final = (w ++ [v1, v2]) ++ [x, y] := by simpa using hsplit.eq.symm
    obtain ⟨rest, hw, hf⟩ | ⟨rest, hn, hxy⟩ := List.append_eq_append_iff.1 heq
    · obtain rfl : rest = [] := by
        rw [hf, List.length_append] at hshort
        exact List.length_eq_zero_iff.1 (by simpa using hshort)
      simpa using hw.symm
    · rcases rest with _ | ⟨x', rest⟩
      · simpa using hn
      · obtain ⟨rfl, -⟩ := List.cons.inj hxy
        have := hsplit.vowels x (by simp [hn])
        rw [hx] at this
        cases this
  have hslots := (vowelKey?_eq_some_iff_map.1 hkey).2
  have hlast : key.drop w.length = pair.1 := by
    have := congrArg (List.drop w.length) hslots
    rw [hnucleus, List.map_append, List.drop_left' (by simp), ← List.map_drop,
      (vowelKey?_eq_some_iff_map.1 h.key).2] at this
    exact (List.map_inj_right fun _ _ => Option.some.inj).1 this.symm
  have hwhole := stranded_nucleus hentry h.mem (hlast ▸ List.drop_suffix _ _)
  have hlen := congrArg List.length hlast
  rw [← hwhole, List.length_drop] at hlen
  have hpos : key.length ≠ 0 := by
    have := congrArg List.length hslots
    simp only [List.length_map, hnucleus, List.length_append, List.length_cons, List.length_nil] at this
    omega
  exact List.length_eq_zero_iff.1 (by omega)

/-- The nucleus of a valid decomposition of a stranded buffer is the stranded one. -/
lemma Stranded.length_eq (h : Stranded states front v1 v2 x y pair)
    (hs : states = onset ++ v :: tail) (ho : isValidConsonantPrefix onset allowZwjf) (hv : v.isVowel)
    (hn : n ∈ onsetLengths states allowZwjf) (hdec : validateDecomposition states n = .valid) :
    n = front.length := by
  have hle := h.onset_le hs ho
  obtain ⟨-, hv1, hv2, hx, hy⟩ := h.classes
  by_cases hnf : n ≤ front.length
  · have hdrop : states.drop n = front.drop n ++ [v1, v2, x, y] := by
      rw [h.eq, List.drop_append_of_le_length hnf]
    have hsplit := @split_takeWhile (states.drop n)
    have ha := (validateDecomposition_eq_valid hsplit).1 hdec
    have hlen := congrArg List.length (h.of_accepts (hdrop ▸ hsplit) (hdrop ▸ ha))
    rw [List.length_drop, List.length_nil] at hlen
    omega
  · rw [hs] at hn
    obtain rfl | ⟨rfl, hone, hglide⟩ := mem_onsetLengths ho hv hn
    · omega
    · -- `qu` and the nucleus `y`, which does not take `ch`
      have hfront : front.length = 1 := by omega
      rw [← hs] at hglide
      obtain ⟨hu, hq⟩ := h.front_eq_q hfront hglide
      obtain ⟨rfl, hkey⟩ := h.uych hu hq
      have hsplit : Split (states.drop 2) [v2] [x, y] := by
        refine ⟨?_, by simpa using hv2, by simpa using hx⟩
        obtain ⟨s0, rfl⟩ := List.length_eq_one_iff.1 hfront
        rw [h.eq]
        rfl
      obtain ⟨key', entry, hkey', hentry, hfinal⟩ := (validateDecomposition_eq_valid hsplit).1 hdec
      obtain rfl : key' = [Slot.y] := Option.some.inj (hkey'.symm.trans hkey)
      obtain hnil | ⟨-, f, hf, hallow, -⟩ := hfinal
      · cases hnil
      · obtain rfl : f = .ch := letters_injective (hf.symm.trans h.letters)
        exact absurd hallow (by decide)

/-- The first letter of a stranded final spells a final. -/
lemma Stranded.head_eq (h : Stranded states front v1 v2 x y pair) {f : Final}
    (hf : [x].map (·.base) = f.letters) : f = pair.2.head := by
  refine letters_injective ?_
  rw [letters_head, ← h.letters, ← hf]
  rfl

/-- The first letter of a stranded final is not allowed after its own nucleus. -/
lemma Stranded.cut_invalid (h : Stranded states front v1 v2 x y pair) :
    validateDecomposition (front ++ [v1, v2, x]) front.length = .invalid := by
  obtain ⟨-, hv1, hv2, hx, -⟩ := h.classes
  have table : ∀ p ∈ strandedPairs, allowsFinal p.1 p.2.head = false ∧
      ∀ e ∈ modifiedEntries p.1, e.canEnd = false := by decide
  obtain ⟨hno, hmod⟩ := table pair h.mem
  have hsplit : Split ((front ++ [v1, v2, x]).drop front.length) [v1, v2] [x] :=
    ⟨by rw [List.drop_left]; rfl, by simp [hv1, hv2], by simpa using hx⟩
  refine validateDecomposition_eq_invalid hsplit h.key (by simp) (fun _ _ _ f hf => ?_) hmod
  rw [h.head_eq hf, hno]

/-- Nor after the `y` of `quych`. -/
lemma Stranded.quy_invalid (h : Stranded states front v1 v2 x y pair) (hlen : front.length = 1)
    (hg : gliding states) : validateDecomposition (front ++ [v1, v2, x]) 2 = .invalid := by
  obtain ⟨-, hv1, hv2, hx, -⟩ := h.classes
  obtain ⟨hu, hq⟩ := h.front_eq_q hlen hg
  obtain ⟨rfl, hkey⟩ := h.uych hu hq
  have hsplit : Split ((front ++ [v1, v2, x]).drop 2) [v2] [x] := by
    refine ⟨?_, by simpa using hv2, by simpa using hx⟩
    obtain ⟨s0, rfl⟩ := List.length_eq_one_iff.1 hlen
    rfl
  refine validateDecomposition_eq_invalid hsplit hkey (by simp) (fun _ _ _ f hf => ?_) (by decide)
  obtain rfl : f = .c := h.head_eq hf
  decide

/-- Nor with the second letter of `gi` or `qu` in the nucleus. -/
lemma Stranded.glide_invalid (h : Stranded states front v1 v2 x y pair) (hlen : front.length = 2)
    (hg : gliding states) : validateDecomposition (front ++ [v1, v2, x]) 1 = .invalid := by
  obtain ⟨-, hv1, hv2, hx, -⟩ := h.classes
  obtain ⟨s0, s1, rfl⟩ := List.length_eq_two.1 hlen
  obtain ⟨b, hb, hs1⟩ : ∃ b, (b = VowelBase.i ∨ b = .u) ∧ s1.base = b.letter := by
    obtain ⟨t0, t1, t2, rest, heq, hb, -⟩ := exists_of_gliding hg
    rw [h.eq] at heq
    obtain ⟨rfl, rfl, -⟩ : s0 = t0 ∧ s1 = t1 ∧ _ := by simpa using heq
    obtain ⟨-, h1⟩ | ⟨-, h1⟩ := hb
    · exact ⟨.i, .inl rfl, h1⟩
    · exact ⟨.u, .inr rfl, h1⟩
  have hv : s1.isVowel := by
    obtain rfl | rfl := hb <;> simp [CharState.isVowel, hs1, VowelBase.letter, isVowelBase]
  have hslot : vowelSlot? s1 = some ⟨b, modOrdinal s1.mod⟩ := vowelSlot?_eq_some.2 ⟨hs1, rfl⟩
  have hkey : vowelKey? [s1, v1, v2] = some (⟨b, modOrdinal s1.mod⟩ :: pair.1) := by
    refine vowelKey?_eq_some_iff_map.2 ⟨by simp, ?_⟩
    rw [List.map_cons, (vowelKey?_eq_some_iff_map.1 h.key).2, hslot, List.map_cons]
  have table : ∀ b ∈ [VowelBase.i, .u], ∀ m ∈ [SlotMod.none, .circ, .brev, .horn],
      ∀ p ∈ strandedPairs, findVowel (⟨b, m⟩ :: p.1) = none ∧
        ∀ e ∈ modifiedEntries (⟨b, m⟩ :: p.1), e.canEnd = false := by decide +kernel
  obtain ⟨hno, hmod⟩ := table b (by simpa using hb) (modOrdinal s1.mod)
    (by cases modOrdinal s1.mod <;> simp) pair h.mem
  have hsplit : Split (([s0, s1] ++ [v1, v2, x]).drop 1) [s1, v1, v2] [x] :=
    ⟨rfl, by simp [hv, hv1, hv2], by simpa using hx⟩
  refine validateDecomposition_eq_invalid hsplit hkey (by simp) (fun entry hentry => ?_) hmod
  rw [hno] at hentry
  cases hentry

/-- A stranded buffer without its last letter is impossible. -/
lemma Stranded.prefix_invalid (h : Stranded states front v1 v2 x y pair)
    (hvalid : validateImpl states allowZwjf = .valid) :
    validateImpl (front ++ [v1, v2, x]) allowZwjf = .invalid := by
  obtain ⟨hopen, -, n, hn, hdec⟩ := validateImpl_eq_valid.1 hvalid
  obtain ⟨onset, v, tail, hs, hv, ho, -⟩ := hopen.exists_onset
  have hle := h.onset_le hs ho
  obtain rfl := h.length_eq hs ho hv hn hdec
  -- the cut buffer is the same onset with a shorter rest
  obtain ⟨j, hj⟩ : ∃ j, front.length + 3 = onset.length + (j + 1) :=
    ⟨front.length + 2 - onset.length, by omega⟩
  have hcut : states.take (front.length + 3) = front ++ [v1, v2, x] := by
    rw [h.eq, List.take_length_add_append]
    rfl
  have hcut' : front ++ [v1, v2, x] = onset ++ v :: tail.take j := by
    rw [← hcut, hj, hs, List.take_length_add_append, List.take_succ_cons]
  have hopen' : Opens (front ++ [v1, v2, x]) allowZwjf := by
    rw [hcut']
    rw [hs] at hopen
    exact opens_take ho hv hopen
  rw [(validateImpl_of_opens hopen').2]
  refine ⟨?_, fun m hm => ?_⟩
  · rcases front with _ | ⟨s0, _ | ⟨s1, _ | ⟨s2, rest⟩⟩⟩ <;> rfl
  · have hglide : gliding (front ++ [v1, v2, x]) = gliding states := by
      rw [← hcut, gliding_take (by omega)]
    rw [hcut'] at hm
    have hm := mem_onsetLengths ho hv hm
    rw [← hcut', hglide] at hm
    rw [hs] at hn
    have hn := mem_onsetLengths ho hv hn
    rw [← hs] at hn
    obtain rfl | ⟨rfl, hone, hg⟩ := hm
    · obtain hn | ⟨htwo, hone, hg⟩ := hn
      · rw [← hn]
        exact h.cut_invalid
      · rw [hone]
        exact h.glide_invalid htwo hg
    · obtain hn | ⟨htwo, -, -⟩ := hn
      · exact h.quy_invalid (hn.trans hone) hg
      · rw [← htwo]
        exact h.cut_invalid

end Stranded

/-- Prefix completeness: a valid syllable has no impossible prefix exactly when it ends in no stranded
    final and its onset is not a modified `gi`. -/
theorem valid_prefixes_iff (h : validateSyllableState states allowZwjf = .valid) :
    (∀ front, front ≠ [] → front <+: states →
        validateSyllableState front allowZwjf ≠ .invalid) ↔
      strandedFinal states = false ∧ modifiedGi states = false := by
  obtain ⟨hvalid, htone⟩ := validateSyllableState_eq_valid.1 h
  constructor
  · intro hall
    refine ⟨?_, ?_⟩
    · by_contra hs
      obtain ⟨front, v1, v2, x, y, pair, hst⟩ := exists_of_strandedFinal (by simpa using hs)
      refine hall (front ++ [v1, v2, x]) (by simp) ⟨[y], by simp [hst.eq]⟩ ?_
      exact validateSyllableState_eq_invalid.2 (.inl (hst.prefix_invalid hvalid))
    · by_contra hg
      rcases states with _ | ⟨s0, _ | ⟨s1, _ | ⟨s2, rest⟩⟩⟩
      · exact hg rfl
      · exact hg rfl
      · exact hg rfl
      simp only [modifiedGi, Bool.not_eq_false, Bool.and_eq_true, beq_iff_eq, bne_iff_ne] at hg
      obtain ⟨⟨h0, h1⟩, hm⟩ := hg
      obtain ⟨hopen, -⟩ := validateImpl_eq_valid.1 hvalid
      refine hall [s0, s1] (by simp) ⟨s2 :: rest, rfl⟩ (validateSyllableState_eq_invalid.2 (.inl ?_))
      exact validateImpl_modifiedGi h0 h1 hm (opens_glide (.inl ⟨h0, h1⟩) hopen)
  · rintro ⟨hs, hg⟩ front - hprefix
    rw [List.prefix_iff_eq_take.1 hprefix, ne_eq, validateSyllableState_eq_invalid, not_or, not_not]
    exact ⟨validateImpl_take_ne_invalid hvalid hs hg, checkToneModInvariant_take htone⟩

end Prefix

/-- `thuế` is a valid syllable, and every prefix of it is accepted. -/
theorem valid_prefixes_thue :
    validateSyllableState [{ base := 't' }, { base := 'h' }, { base := 'u' },
        { base := 'e', mod := .circumflex, tone := .acute }] false = .valid ∧
      ∀ front, front ≠ [] → front <+: [{ base := 't' }, { base := 'h' }, { base := 'u' },
          { base := 'e', mod := .circumflex, tone := .acute }] →
        validateSyllableState front false ≠ .invalid :=
  ⟨by decide, (valid_prefixes_iff (by decide)).2 (by decide)⟩

/-- `oong` is a valid syllable, and its prefix `oon` is refused. -/
theorem valid_prefixes_oong :
    ¬(validateSyllableState [{ base := 'o' }, { base := 'o' }, { base := 'n' }, { base := 'g' }] false =
        .valid →
      ∀ front, front ≠ [] →
        front <+: [{ base := 'o' }, { base := 'o' }, { base := 'n' }, { base := 'g' }] →
        validateSyllableState front false ≠ .invalid) := by
  intro h
  exact h (by decide) [{ base := 'o' }, { base := 'o' }, { base := 'n' }] (by simp) ⟨[_], rfl⟩
    (by decide)

end NextKey.Phonology
