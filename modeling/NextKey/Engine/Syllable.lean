import Mathlib.Data.List.Forall2
import Mathlib.Data.List.TakeWhile
import NextKey.Engine.Validator

/-!
# Structure of the verdict

What `ValidateSyllableState` accepts, stated without its loops. A buffer is an onset, a run of vowels
and what follows it; a decomposition is valid when the run is a nucleus of the table and the rest is
a final the nucleus allows. `gi` and `qu` give two decompositions, and the buffer is valid when one
of them is. The results on prefixes and on completions use these lemmas instead of the definitions.
-/

namespace NextKey.Phonology

/-- `rest` is a run of vowels and what follows it. -/
structure Split (rest nucleus final : List CharState) : Prop where
  eq : rest = nucleus ++ final
  vowels : ∀ v ∈ nucleus, v.isVowel
  stop : ∀ f ∈ final.head?, f.isVowel = false

/-- The vowels in front and what follows them. -/
lemma split_takeWhile {rest : List CharState} :
    Split rest (rest.takeWhile (·.isVowel)) (rest.dropWhile (·.isVowel)) where
  eq := List.takeWhile_append_dropWhile.symm
  vowels _ hv := List.mem_takeWhile_imp hv
  stop f hf := by
    have := List.head?_dropWhile_not (fun s : CharState => s.isVowel) rest
    rw [Option.mem_def.1 hf] at this
    simpa using this

section Split
variable {rest nucleus final : List CharState}

/-- The nucleus is the vowels in front. -/
lemma Split.takeWhile_eq (h : Split rest nucleus final) :
    rest.takeWhile (·.isVowel) = nucleus := by
  rw [h.eq, List.takeWhile_append_of_pos h.vowels]
  cases final with
  | nil => simp
  | cons f _ => simp [h.stop f rfl]

/-- The end is what follows them. -/
lemma Split.dropWhile_eq (h : Split rest nucleus final) : rest.dropWhile (·.isVowel) = final := by
  rw [h.eq, List.dropWhile_append_of_pos h.vowels]
  cases final with
  | nil => simp
  | cons f _ => simp [h.stop f rfl]

/-- A prefix that ends in the run of vowels. -/
lemma Split.take_nucleus (h : Split rest nucleus final) {j} (hj : j ≤ nucleus.length) :
    Split (rest.take j) (nucleus.take j) [] where
  eq := by rw [h.eq, List.take_append_of_le_length hj, List.append_nil]
  vowels v hv := h.vowels v (List.mem_of_mem_take hv)
  stop := by simp

/-- A prefix that ends in the final. -/
lemma Split.take_final (h : Split rest nucleus final) {j} :
    Split (rest.take (nucleus.length + j)) nucleus (final.take j) where
  eq := by rw [h.eq, List.take_length_add_append]
  vowels := h.vowels
  stop f hf := by
    cases final with
    | nil => simp at hf
    | cons f' _ =>
      cases j with
      | zero => simp at hf
      | succ j => exact h.stop f (by simpa using hf)

end Split

/-- The slots of the vowels, one for each. -/
lemma mapM_vowelSlot?_eq_some {vowels : List CharState} {key} :
    vowels.mapM vowelSlot? = some key ↔
      List.Forall₂ (fun v slot => vowelSlot? v = some slot) vowels key := by
  induction vowels generalizing key with
  | nil => simp [eq_comm]
  | cons v vowels ih =>
    simp only [List.mapM_cons, Option.pure_def, Option.bind_eq_bind, Option.bind_eq_some_iff,
      List.forall₂_cons_left_iff, ih, Option.some.injEq]
    constructor
    · rintro ⟨slot, hv, slots, hs, rfl⟩
      exact ⟨slot, slots, hv, hs, rfl⟩
    · rintro ⟨slot, slots, hv, hs, rfl⟩
      exact ⟨slot, hv, slots, hs, rfl⟩

/-- The key of a run of one to three vowels lists their slots. -/
lemma vowelKey?_eq_some {vowels : List CharState} {key} :
    vowelKey? vowels = some key ↔ (1 ≤ vowels.length ∧ vowels.length ≤ 3) ∧
      List.Forall₂ (fun v slot => vowelSlot? v = some slot) vowels key := by
  unfold vowelKey?
  split
  · next h => simp [h, mapM_vowelSlot?_eq_some]
  · next h => simp [h]

/-- The key of one to three vowels. -/
lemma vowelKey?_eq_some_iff_map {vowels : List CharState} {key} :
    vowelKey? vowels = some key ↔ (1 ≤ vowels.length ∧ vowels.length ≤ 3) ∧
      vowels.map vowelSlot? = key.map some := by
  rw [vowelKey?_eq_some, ← List.forall₂_eq_eq_eq, List.forall₂_map_left_iff,
    List.forall₂_map_right_iff]

/-- A key that is found has an entry. -/
lemma findVowel_eq_some {key entry} (h : findVowel key = some entry) :
    entry ∈ kVowelTable ∧ entry.key = key :=
  ⟨List.mem_of_find?_eq_some h, by simpa using List.find?_some h⟩

/-- Letters of a final consonant. -/
def Final.letters : Final → List Char
  | .c => ['c']
  | .ch => ['c', 'h']
  | .k => ['k']
  | .m => ['m']
  | .n => ['n']
  | .ng => ['n', 'g']
  | .nh => ['n', 'h']
  | .p => ['p']
  | .t => ['t']

/-- Finals that only go with no tone, the acute or the dot. -/
def Final.isStop : Final → Bool
  | .c | .ch | .k | .p | .t => true
  | _ => false

/-- The final may follow the nucleus: the pair table does not rule it out, and `k` only follows `ă`. -/
def allowsFinal (key : VowelKey) (f : Final) : Bool :=
  !pairForbidden key (some f) && (f != .k || key == [Slot.aBreve])

/-- A tone a stop final accepts. -/
def stopTone (tone : Tone) : Bool := tone == .none || tone == .acute || tone == .dot

/-- The letters of a final are parsed to their end. -/
lemma parseFinalConsonant_of_letters {final : List CharState} {f : Final}
    (h : final.map (·.base) = f.letters) : parseFinalConsonant final = f.letters.length := by
  cases f <;> simp only [Final.letters, List.map_eq_cons_iff, List.map_eq_nil_iff] at h
  case ch | ng | nh =>
    obtain ⟨x, _, rfl, hx, y, _, rfl, hy, rfl⟩ := h
    simp [parseFinalConsonant, CharState.isVowel, isVowelBase, hx, hy, kFinalPairs, Final.letters]
  all_goals
    obtain ⟨x, _, rfl, hx, rfl⟩ := h
    simp [parseFinalConsonant, CharState.isVowel, isVowelBase, hx, Final.letters]

/-- The bit of a coda, from its letters. -/
lemma finalConsonantBit_of_letters {final : List CharState} {f : Final}
    (h : final.map (·.base) = f.letters) : finalConsonantBit final f.letters.length = some f := by
  cases f <;> simp only [Final.letters, List.map_eq_cons_iff, List.map_eq_nil_iff] at h
  case ch | ng | nh =>
    obtain ⟨x, _, rfl, hx, y, _, rfl, hy, rfl⟩ := h
    simp [finalConsonantBit, Final.letters, charAt, hx, hy]
  all_goals
    obtain ⟨x, _, rfl, hx, rfl⟩ := h
    simp [finalConsonantBit, Final.letters, charAt, hx]

/-- A stop coda, from its letters. -/
lemma isStopFinal_of_letters {final : List CharState} {f : Final}
    (h : final.map (·.base) = f.letters) : isStopFinal final f.letters.length = f.isStop := by
  cases f <;> simp only [Final.letters, List.map_eq_cons_iff, List.map_eq_nil_iff] at h
  case ch | ng | nh =>
    obtain ⟨x, _, rfl, hx, y, _, rfl, hy, rfl⟩ := h
    simp [isStopFinal, Final.letters, Final.isStop, charAt, hx]
  all_goals
    obtain ⟨x, _, rfl, hx, rfl⟩ := h
    simp [isStopFinal, Final.letters, Final.isStop, charAt, hx]

/-- A final that is parsed to its end is spelled like one of the nine finals. -/
lemma letters_of_parseFinalConsonant {final : List CharState} (hpos : parseFinalConsonant final ≠ 0)
    (hend : ¬parseFinalConsonant final < final.length) :
    ∃ f : Final, final.map (·.base) = f.letters := by
  have single : ∀ {c : Char}, ['c', 'k', 'm', 'n', 'p', 't'].contains c = true →
      ∃ f : Final, [c] = f.letters := by
    intro c hc
    simp only [List.contains_eq_mem, List.mem_cons, List.not_mem_nil, or_false, decide_eq_true_eq] at hc
    obtain rfl | rfl | rfl | rfl | rfl | rfl := hc
    exacts [⟨.c, rfl⟩, ⟨.k, rfl⟩, ⟨.m, rfl⟩, ⟨.n, rfl⟩, ⟨.p, rfl⟩, ⟨.t, rfl⟩]
  have double : ∀ {c d : Char}, kFinalPairs.contains (c, d) = true →
      ∃ f : Final, [c, d] = f.letters := by
    intro c d hcd
    simp only [kFinalPairs, List.contains_eq_mem, List.mem_cons, List.not_mem_nil, or_false,
      decide_eq_true_eq, Prod.mk.injEq] at hcd
    obtain ⟨rfl, rfl⟩ | ⟨rfl, rfl⟩ | ⟨rfl, rfl⟩ := hcd
    exacts [⟨.ch, rfl⟩, ⟨.ng, rfl⟩, ⟨.nh, rfl⟩]
  rcases final with _ | ⟨x, _ | ⟨y, rest⟩⟩
  · simp [parseFinalConsonant] at hpos
  · simp only [parseFinalConsonant, Bool.false_eq_true, if_false] at hpos
    split at hpos
    · simp at hpos
    · split at hpos
      · next hc => exact single hc
      · simp at hpos
  · simp only [parseFinalConsonant] at hpos hend
    split at hend
    · simp at hend
    · split at hend
      · next hp =>
        simp only [Bool.and_eq_true] at hp
        obtain rfl : rest = [] := by
          simp only [List.length_cons] at hend
          exact List.length_eq_zero_iff.1 (by omega)
        exact double hp.2
      · simp only [List.length_cons] at hend
        split at hend <;> omega

/-- The letter of a base vowel. -/
def VowelBase.letter : VowelBase → Char
  | .a => 'a'
  | .e => 'e'
  | .i => 'i'
  | .o => 'o'
  | .u => 'u'
  | .y => 'y'

/-- The index of a base vowel. -/
lemma baseIndex_eq_some {c b} : baseIndex c = some b ↔ c = b.letter := by
  constructor
  · intro h
    unfold baseIndex at h
    split at h <;> cases h <;> rfl
  · rintro rfl
    cases b <;> rfl

/-- The slot of a vowel, from its base and mark. -/
lemma vowelSlot?_eq_some {v : CharState} {slot} :
    vowelSlot? v = some slot ↔ v.base = slot.base.letter ∧ modOrdinal v.mod = slot.mod := by
  obtain ⟨b, m⟩ := slot
  simp only [vowelSlot?, Option.map_eq_some_iff, baseIndex_eq_some, VowelSlot.mk.injEq]
  constructor
  · rintro ⟨_, h, rfl, hm⟩
    exact ⟨h, hm⟩
  · rintro ⟨h, hm⟩
    exact ⟨b, h, rfl, hm⟩

/-- The guard of the final `k` compares the letters of the nucleus; it accepts the key of `ă`. -/
lemma kNucleus_iff {vowels : List CharState} {key} (hkey : vowelKey? vowels = some key) :
    (vowels.length = 1 ∧ (charAt vowels 0).base = 'a' ∧ modOrdinal (charAt vowels 0).mod = .brev) ↔
      key = [Slot.aBreve] := by
  obtain ⟨-, hslots⟩ := vowelKey?_eq_some.1 hkey
  cases hslots with
  | nil => simp
  | cons hv hrest =>
    cases hrest with
    | nil =>
      obtain ⟨hbase, hmod⟩ := vowelSlot?_eq_some.1 hv
      rename_i slot
      obtain ⟨b, m⟩ := slot
      cases b <;> simp [charAt, hbase, hmod, VowelBase.letter]
    | cons => simp

/-- The coda `k`, from its letters. -/
lemma letters_eq_k {final : List CharState} {f : Final} (h : final.map (·.base) = f.letters) :
    (f.letters.length = 1 ∧ (charAt final 0).base = 'k') ↔ f = .k := by
  cases f <;> simp only [Final.letters, List.map_eq_cons_iff, List.map_eq_nil_iff] at h
  case ch | ng | nh => simp [Final.letters]
  all_goals
    obtain ⟨x, _, rfl, hx, rfl⟩ := h
    simp [Final.letters, charAt, hx]

/-- The rest of a syllable after its nucleus is valid exactly when it is spelled like a final the
    nucleus allows, with a tone a stop accepts. -/
lemma validateFinal_eq_valid {states vowels final : List CharState} {key}
    (hkey : vowelKey? vowels = some key) :
    validateFinal states vowels key final = .valid ↔
      ∃ f : Final, final.map (·.base) = f.letters ∧ allowsFinal key f ∧
        (f.isStop → stopTone (getTone states)) := by
  have hk := kNucleus_iff hkey
  constructor
  · intro h
    simp only [validateFinal, hk] at h
    split at h
    · cases h
    · next hpos =>
      split at h
      · cases h
      · next hend =>
        obtain ⟨f, hf⟩ := letters_of_parseFinalConsonant hpos hend
        simp only [← and_assoc, parseFinalConsonant_of_letters hf, finalConsonantBit_of_letters hf,
          isStopFinal_of_letters hf, letters_eq_k hf] at h
        refine ⟨f, hf, ?_⟩
        split at h
        · cases h
        · next hk' =>
          split at h
          · cases h
          · next hpair =>
            split at h
            · cases h
            · next hstop =>
              refine ⟨?_, fun hs => ?_⟩
              · have hkey' : f = .k → key = [Slot.aBreve] := not_and_not_right.1 hk'
                simp only [Bool.not_eq_true] at hpair
                simp only [allowsFinal, hpair, Bool.not_false, Bool.true_and, Bool.or_eq_true,
                  bne_iff_ne, beq_iff_eq]
                exact not_or_of_imp hkey'
              · simpa only [stopTone, Bool.or_eq_true, beq_iff_eq, or_assoc] using
                  not_and_not_right.1 hstop hs
  · rintro ⟨f, hf, hallow, hstop⟩
    simp only [allowsFinal, Bool.and_eq_true, Bool.not_eq_true', Bool.or_eq_true, bne_iff_ne,
      beq_iff_eq] at hallow
    have hne : f.letters.length ≠ 0 := by cases f <;> simp [Final.letters]
    have hlen : final.length = f.letters.length := by simpa using congrArg List.length hf
    have hnk : ¬(f = .k ∧ ¬key = [Slot.aBreve]) := fun hc => hallow.2.elim (· hc.1) hc.2
    have hns : ¬(f.isStop ∧ ¬(getTone states = .none ∨ getTone states = .acute ∨
        getTone states = .dot)) := by
      rintro ⟨hs, hn⟩
      exact hn (by simpa only [stopTone, Bool.or_eq_true, beq_iff_eq, or_assoc] using hstop hs)
    simp only [validateFinal, hk, ← and_assoc, parseFinalConsonant_of_letters hf,
      finalConsonantBit_of_letters hf, isStopFinal_of_letters hf, letters_eq_k hf]
    rw [if_neg hne, if_neg (by omega), if_neg hnk, if_neg (by simp [hallow.1]), if_neg hns]

/-- What follows an onset is a nucleus of the table with a final it allows; `tone` is the tone of the
    buffer. -/
def Accepts (tone : Tone) (nucleus final : List CharState) : Prop :=
  ∃ key entry, vowelKey? nucleus = some key ∧ findVowel key = some entry ∧
    (final = [] ∨ entry.canEnd ∧ ∃ f : Final, final.map (·.base) = f.letters ∧ allowsFinal key f ∧
      (f.isStop → stopTone tone))

section Decomposition
variable {states nucleus final : List CharState} {initialLen : Nat}

/-- A decomposition is valid exactly when its rest is accepted. -/
lemma validateDecomposition_eq_valid (h : Split (states.drop initialLen) nucleus final) :
    validateDecomposition states initialLen = .valid ↔ Accepts (getTone states) nucleus final := by
  by_cases hrest : states.drop initialLen = []
  · have hnil : nucleus = [] := (List.append_eq_nil_iff.1 (h.eq.symm.trans hrest)).1
    simp [validateDecomposition, hrest, Accepts, hnil, vowelKey?]
  · simp only [validateDecomposition, hrest, if_false, h.takeWhile_eq, h.dropWhile_eq, Accepts]
    cases hkey : vowelKey? nucleus with
    | none => simp
    | some key =>
      simp only [Option.some.injEq, exists_and_left, exists_eq_left']
      cases hentry : findVowel key with
      | none =>
        simp only [reduceCtorEq, false_and, exists_false, iff_false]
        split
        · simp
        · split <;> simp
      | some entry =>
        simp only [Option.some.injEq, exists_eq_left']
        rw [← validateFinal_eq_valid hkey]
        by_cases hf : final = []
        · simp [hf]
        · rw [if_neg hf]
          cases hend : entry.canEnd with
          | true => simp [hf]
          | false =>
            simp only [Bool.false_eq_true, if_false, false_and, or_false, hf, iff_false]
            split <;> simp

/-- An end is valid or not, never a prefix. -/
lemma validateFinal_ne_validPrefix {vowels : List CharState} {key} :
    validateFinal states vowels key final ≠ .validPrefix := by
  simp only [validateFinal]
  repeat' split
  all_goals simp

/-- A decomposition with a final is invalid when neither its nucleus nor a modified one takes it. -/
lemma validateDecomposition_eq_invalid {key} (h : Split (states.drop initialLen) nucleus final)
    (hkey : vowelKey? nucleus = some key) (hfinal : final ≠ [])
    (hno : ∀ entry, findVowel key = some entry → entry.canEnd →
      ∀ f : Final, final.map (·.base) = f.letters → allowsFinal key f = false)
    (hmod : ∀ entry ∈ modifiedEntries key, entry.canEnd = false) :
    validateDecomposition states initialLen = .invalid := by
  have hrest : states.drop initialLen ≠ [] := by
    rw [h.eq]
    simp [hfinal]
  simp only [validateDecomposition, hrest, if_false, h.takeWhile_eq, h.dropWhile_eq, hkey, hfinal,
    and_false]
  have htry : (tryModifiedVowels nucleus fun e =>
      e.canEnd && parseFinalConsonant final == final.length) = false := by
    simp only [tryModifiedVowels, hkey]
    exact List.any_eq_false.2 fun e he => by simp [hmod e he]
  have hempty : final.isEmpty = false := by simpa using hfinal
  cases hentry : findVowel key with
  | none => simp [htry, hempty]
  | some entry =>
    cases hend : entry.canEnd with
    | true =>
      simp only [hend, if_true]
      cases hv : validateFinal states nucleus key final with
      | valid =>
        obtain ⟨f, hf, hallow, -⟩ := (validateFinal_eq_valid hkey).1 hv
        rw [hno entry hentry hend f hf] at hallow
        cases hallow
      | validPrefix => exact absurd hv validateFinal_ne_validPrefix
      | invalid => rfl
    | false => simp [htry, hend]

end Decomposition

/-- A buffer of the two letters `qu` alone. -/
def bareQu : List CharState → Bool
  | [s0, s1] => s0.base == 'q' && s1.base == 'u'
  | _ => false

/-- `gi` or `qu` in front of a vowel: its second letter may belong to the onset. -/
def gliding : List CharState → Bool
  | s0 :: s1 :: s2 :: _ =>
    (s0.base == 'g' && s1.base == 'i' || s0.base == 'q' && s1.base == 'u') && s2.isVowel
  | _ => false

/-- Lengths of the onset in the decompositions of a buffer. -/
def onsetLengths (states : List CharState) (allowZwjf : Bool) : List Nat :=
  parseInitialConsonant states allowZwjf :: if gliding states then [2] else []

/-- The onset is followed by a vowel it agrees with. -/
structure Opens (states : List CharState) (allowZwjf : Bool) : Prop where
  lt : parseInitialConsonant states allowZwjf < states.length
  vowel : (charAt states (parseInitialConsonant states allowZwjf)).isVowel
  agrees : initialVowelClash states (parseInitialConsonant states allowZwjf) = false

section Onset
variable {states : List CharState} {allowZwjf : Bool}

/-- The onset of a buffer that starts with `gi` or `qu` is one letter. -/
lemma parseInitialConsonant_glide {s0 s1 rest}
    (h : s0.base = 'g' ∧ s1.base = 'i' ∨ s0.base = 'q' ∧ s1.base = 'u') :
    parseInitialConsonant (s0 :: s1 :: rest) allowZwjf = 1 := by
  obtain ⟨h0, h1⟩ | ⟨h0, h1⟩ := h <;>
  · have hn : startsNgh (s0 :: s1 :: rest) = false := by
      cases rest <;> simp [startsNgh, h0]
    simp [parseInitialConsonant, isStrokedD, CharState.isD, CharState.isVowel, isVowelBase, h0, h1, hn,
      isInitialChar]

/-- The more permissive of two verdicts is valid when one is, and invalid when both are. -/
lemma permissive_self {r r2 : SyllableState} :
    (r.permissive r r2 = .valid ↔ r = .valid ∨ r2 = .valid) ∧
    (r.permissive r r2 = .invalid ↔ r = .invalid ∧ r2 = .invalid) := by
  cases r <;> cases r2 <;> decide

/-- The verdict on a buffer with an open onset, from its decompositions. -/
lemma validateImpl_of_opens (h : Opens states allowZwjf) :
    (validateImpl states allowZwjf = .valid ↔ bareQu states = false ∧
      ∃ n ∈ onsetLengths states allowZwjf, validateDecomposition states n = .valid) ∧
    (validateImpl states allowZwjf = .invalid ↔ bareQu states = false ∧
      ∀ n ∈ onsetLengths states allowZwjf, validateDecomposition states n = .invalid) := by
  obtain ⟨hlt, hvowel, hagree⟩ := h
  rcases states with _ | ⟨s0, rest⟩
  · simp at hlt
  have hvow : ¬(parseInitialConsonant (s0 :: rest) allowZwjf = 0 ∧ ¬s0.isVowel) := by
    rintro ⟨h0, hn⟩
    rw [h0] at hvowel
    exact hn hvowel
  have hend : ¬(0 < parseInitialConsonant (s0 :: rest) allowZwjf ∧
      parseInitialConsonant (s0 :: rest) allowZwjf = (s0 :: rest).length) := by omega
  simp only [validateImpl, hvow, hend, hvowel, hagree, if_false, not_true_eq_false, and_false,
    Bool.false_eq_true]
  rcases rest with _ | ⟨s1, rest⟩
  · simp [bareQu, onsetLengths, gliding]
  by_cases hgi : s0.base = 'g' ∧ s1.base = 'i'
  · have hL := @parseInitialConsonant_glide allowZwjf s0 s1 rest (.inl hgi)
    simp only [hL, hgi, and_self, if_true, onsetLengths]
    rcases rest with _ | ⟨s2, rest⟩
    · simp only [bareQu, gliding, hgi.1, Bool.false_eq_true, if_false, List.mem_singleton,
        exists_eq_left, forall_eq]
      generalize validateDecomposition [s0, s1] 1 = r
      cases r <;> simp
    · cases hs2 : s2.isVowel with
      | true => simp [bareQu, gliding, hgi, hs2, permissive_self]
      | false =>
        simp only [bareQu, gliding, hs2, Bool.and_false, Bool.false_eq_true, if_false,
          List.mem_singleton, exists_eq_left, forall_eq]
        generalize validateDecomposition (s0 :: s1 :: s2 :: rest) 1 = r
        cases r <;> simp
  · by_cases hqu : s0.base = 'q' ∧ s1.base = 'u'
    · have hL := @parseInitialConsonant_glide allowZwjf s0 s1 rest (.inr hqu)
      simp only [hL, hqu, and_self, if_true, onsetLengths]
      rcases rest with _ | ⟨s2, rest⟩
      · simp [bareQu, hqu]
      · cases hs2 : s2.isVowel with
        | true =>
          simp only [bareQu, gliding, hqu, hs2, beq_self_eq_true, Bool.and_self, Bool.or_true, if_true,
            List.mem_cons, List.not_mem_nil, or_false, exists_eq_or_imp, exists_eq_left,
              forall_eq_or_imp, forall_eq]
          generalize validateDecomposition (s0 :: s1 :: s2 :: rest) 1 = r
          generalize validateDecomposition (s0 :: s1 :: s2 :: rest) 2 = r2
          cases r <;> cases r2 <;> simp
        | false => simp [bareQu, gliding, hs2]
    · have hg : gliding (s0 :: s1 :: rest) = false := by
        cases rest with
        | nil => rfl
        | cons s2 rest =>
          simp only [gliding, Bool.and_eq_false_imp, Bool.or_eq_true, Bool.and_eq_true, beq_iff_eq]
          rintro (hc | hc)
          · exact absurd hc hgi
          · exact absurd hc hqu
      have hb : bareQu (s0 :: s1 :: rest) = false := by
        cases rest with
        | nil => simpa [bareQu] using hqu
        | cons => rfl
      simp [hgi, hqu, hg, hb, onsetLengths]

/-- The base tells a vowel. -/
lemma isVowel_congr {s t : CharState} (h : t.base = s.base) : t.isVowel = s.isVowel := by
  simp [CharState.isVowel, h]

/-- A stroked `d` spells an initial consonant like a plain one. -/
lemma isInitialChar_of_isStrokedD {s : CharState} (h : isStrokedD s) :
    isInitialChar s.base allowZwjf = true := by
  simp only [isStrokedD, CharState.isD, Bool.and_eq_true, beq_iff_eq] at h
  simp [isInitialChar, h.1]

/-- The letters of a two-letter initial: neither is a vowel or a `d`, and it is not the start of
    `ngh`. -/
lemma kPrefixPairs_letters {c d : Char} (h : kPrefixPairs.contains (c, d)) :
    (c ≠ 'd' ∧ d ≠ 'd' ∧ isVowelBase c = false ∧ isVowelBase d = false) ∧
      kInitialPairs.contains (c, d) := by
  simp only [kPrefixPairs, List.contains_eq_mem, List.mem_cons, List.not_mem_nil, or_false,
    decide_eq_true_eq, Prod.mk.injEq] at h
  obtain ⟨rfl, rfl⟩ | ⟨rfl, rfl⟩ | ⟨rfl, rfl⟩ | ⟨rfl, rfl⟩ | ⟨rfl, rfl⟩ | ⟨rfl, rfl⟩ | ⟨rfl, rfl⟩ |
    ⟨rfl, rfl⟩ := h <;> decide

/-- A two-letter initial whose second letter is a consonant. -/
lemma kPrefixPairs_of_consonant {c d : Char} (h : kInitialPairs.contains (c, d))
    (hd : isVowelBase d = false) : kPrefixPairs.contains (c, d) = true := by
  simp only [kInitialPairs, List.contains_eq_mem, List.mem_cons, List.not_mem_nil, or_false,
    decide_eq_true_eq, Prod.mk.injEq] at h
  obtain ⟨rfl, rfl⟩ | ⟨rfl, rfl⟩ | ⟨rfl, rfl⟩ | ⟨rfl, rfl⟩ | ⟨rfl, rfl⟩ | ⟨rfl, rfl⟩ | ⟨rfl, rfl⟩ |
    ⟨rfl, rfl⟩ | ⟨rfl, rfl⟩ | ⟨rfl, rfl⟩ := h <;> first | decide | cases hd

/-- An initial `ngh`, from its letters. -/
lemma startsNgh_eq_true : ∀ {states : List CharState}, startsNgh states = true ↔
    ∃ s0 s1 s2 rest, states = s0 :: s1 :: s2 :: rest ∧ s0.base = 'n' ∧ s1.base = 'g' ∧ s2.base = 'h'
  | [] => by simp [startsNgh]
  | [_] => by simp [startsNgh]
  | [_, _] => by simp [startsNgh]
  | _ :: _ :: _ :: _ => by simp [startsNgh, and_assoc]

/-- The onset of a buffer is the consonant prefix in front of its first vowel. -/
lemma parseInitialConsonant_append {onset rest : List CharState} {v}
    (ho : isValidConsonantPrefix onset allowZwjf) (hv : v.isVowel) :
    parseInitialConsonant (onset ++ v :: rest) allowZwjf = onset.length := by
  have hvg : ∀ {c : Char}, isVowelBase c = false → v.base ≠ c := by
    rintro c hc rfl
    rw [CharState.isVowel, hc] at hv
    cases hv
  rcases onset with _ | ⟨s0, _ | ⟨s1, _ | ⟨s2, _ | ⟨s3, onset⟩⟩⟩⟩
  · have hd : v.isD = false := by simpa [CharState.isD] using hvg (c := 'd') rfl
    simp [parseInitialConsonant, isStrokedD, hd, hv]
  · simp only [isValidConsonantPrefix, Bool.and_eq_true, Bool.not_eq_true', Bool.or_eq_true] at ho
    have hi : isInitialChar s0.base allowZwjf = true := ho.2.elim id isInitialChar_of_isStrokedD
    have hn : startsNgh (s0 :: v :: rest) = false := by
      cases rest with
      | nil => rfl
      | cons => simp [startsNgh, hvg (c := 'g') rfl]
    simp [parseInitialConsonant, ho.1, hn, hv, hi]
  · simp only [isValidConsonantPrefix, Bool.and_eq_true, Bool.not_eq_true'] at ho
    obtain ⟨⟨h0, h1⟩, hpair⟩ := ho
    obtain ⟨⟨hd0, hd1, -, -⟩, hpair'⟩ := kPrefixPairs_letters hpair
    have hn : startsNgh (s0 :: s1 :: v :: rest) = false := by
      simp [startsNgh, hvg (c := 'h') rfl]
    simp [parseInitialConsonant, isStrokedD, CharState.isD, hd0, hd1, h0, h1, hn,
      List.contains_iff_mem.1 hpair']
  · have hn : startsNgh (s0 :: s1 :: s2 :: v :: rest) = true := ho
    simp only [isValidConsonantPrefix, startsNgh, Bool.and_eq_true, beq_iff_eq] at ho
    simp [parseInitialConsonant, isStrokedD, CharState.isD, CharState.isVowel, isVowelBase, ho, hn]
  · simp [isValidConsonantPrefix] at ho

/-- The consonant prefix in front of the first vowel of an open buffer. -/
lemma Opens.exists_onset (h : Opens states allowZwjf) : ∃ onset v rest,
    states = onset ++ v :: rest ∧ v.isVowel ∧ isValidConsonantPrefix onset allowZwjf ∧
      parseInitialConsonant states allowZwjf = onset.length := by
  obtain ⟨hlt, hvowel, -⟩ := h
  -- an onset of one letter, with the vowel behind it
  have single : ∀ {s0 rest}, s0.isVowel = false → isInitialChar s0.base allowZwjf ∨ isStrokedD s0 →
      1 < (s0 :: rest).length → (charAt (s0 :: rest) 1).isVowel →
      ∃ onset v tail, s0 :: rest = onset ++ v :: tail ∧ v.isVowel ∧
        isValidConsonantPrefix onset allowZwjf ∧ 1 = onset.length := by
    intro s0 rest h0 hi hlen hv
    rcases rest with _ | ⟨v, tail⟩
    · simp at hlen
    · refine ⟨[s0], v, tail, rfl, hv, ?_, rfl⟩
      simpa [isValidConsonantPrefix, h0] using hi
  rcases states with _ | ⟨s0, rest⟩
  · simp at hlt
  simp only [parseInitialConsonant] at hlt hvowel ⊢
  split at hvowel
  · next hstroke =>
    rw [if_pos hstroke] at hlt ⊢
    have h0 : s0.isVowel = false := by
      simp only [isStrokedD, CharState.isD, Bool.and_eq_true, beq_iff_eq] at hstroke
      simp [CharState.isVowel, isVowelBase, hstroke.1]
    exact single h0 (.inr hstroke) hlt hvowel
  · next hstroke =>
    rw [if_neg hstroke] at hlt ⊢
    split at hvowel
    · next h0 =>
      rw [if_pos h0]
      exact ⟨[], s0, rest, rfl, h0, rfl, rfl⟩
    · next h0 =>
      rw [if_neg h0] at hlt ⊢
      simp only [Bool.not_eq_true] at h0
      split at hvowel
      · next hn =>
        rw [if_pos hn] at hlt ⊢
        obtain ⟨_, s1, s2, tail, heq, hb⟩ := startsNgh_eq_true.1 hn
        cases heq
        rcases tail with _ | ⟨v, tail⟩
        · simp at hlt
        · exact ⟨[s0, s1, s2], v, tail, rfl,
            hvowel, by simp [isValidConsonantPrefix, startsNgh, hb], rfl⟩
      · next hn =>
        rw [if_neg hn] at hlt ⊢
        rcases rest with _ | ⟨s1, rest⟩
        · simp only [Bool.false_eq_true, if_false] at hlt hvowel ⊢
          split at hvowel
          · next hi =>
            simp [hi] at hlt
          · rw [charAt, List.getD_cons_zero, h0] at hvowel
            cases hvowel
        · dsimp only at hlt hvowel ⊢
          split at hvowel
          · next hpair =>
            rw [if_pos hpair] at hlt ⊢
            simp only [Bool.and_eq_true, Bool.not_eq_true'] at hpair
            rcases rest with _ | ⟨v, tail⟩
            · simp at hlt
            · refine ⟨[s0, s1], v, tail, rfl, hvowel, ?_, rfl⟩
              simp [isValidConsonantPrefix, h0, hpair.1.1, -List.contains_eq_mem,
                kPrefixPairs_of_consonant hpair.2 hpair.1.1]
          · next hpair =>
            rw [if_neg hpair] at hlt ⊢
            split at hvowel
            · next hi =>
              rw [if_pos hi] at hlt ⊢
              exact single h0 (.inl hi) hlt hvowel
            · rw [charAt, List.getD_cons_zero, h0] at hvowel
              cases hvowel

/-- The onset and its agreement with the first vowel only depend on the letters. -/
lemma opens_append_iff {onset rest : List CharState} {v} (ho : isValidConsonantPrefix onset allowZwjf)
    (hv : v.isVowel) : Opens (onset ++ v :: rest) allowZwjf ↔
      initialVowelClash (onset ++ v :: rest) onset.length = false := by
  have hp := @parseInitialConsonant_append allowZwjf onset rest v ho hv
  constructor
  · intro h
    rw [← hp]
    exact h.agrees
  · intro h
    refine ⟨?_, ?_, ?_⟩ <;> rw [hp]
    · simp
    · simpa [charAt] using hv
    · exact h

/-- Whether a list is a consonant prefix only depends on its letters. -/
lemma isValidConsonantPrefix_congr {onset onset' : List CharState}
    (h : onset'.map (·.base) = onset.map (·.base)) :
    isValidConsonantPrefix onset' allowZwjf = isValidConsonantPrefix onset allowZwjf := by
  have single : ∀ {s : CharState}, (isInitialChar s.base allowZwjf || isStrokedD s) =
      isInitialChar s.base allowZwjf := by
    intro s
    cases hs : isStrokedD s with
    | true => simp [isInitialChar_of_isStrokedD hs]
    | false => simp
  have hlen : onset'.length = onset.length := by simpa using congrArg List.length h
  rcases onset with _ | ⟨s0, _ | ⟨s1, _ | ⟨s2, _ | ⟨s3, onset⟩⟩⟩⟩ <;>
  rcases onset' with _ | ⟨t0, _ | ⟨t1, _ | ⟨t2, _ | ⟨t3, onset'⟩⟩⟩⟩ <;>
  simp only [List.length_cons, List.length_nil] at hlen <;> try omega
  · rfl
  · simp only [List.map_cons, List.map_nil, List.cons.injEq, and_true] at h
    simp only [isValidConsonantPrefix, single]
    simp [CharState.isVowel, h]
  · simp only [List.map_cons, List.map_nil, List.cons.injEq, and_true] at h
    simp [isValidConsonantPrefix, CharState.isVowel, h]
  · simp only [List.map_cons, List.map_nil, List.cons.injEq, and_true] at h
    simp [isValidConsonantPrefix, startsNgh, h]
  · rfl

/-- Whether the onset agrees with the first vowel only depends on the letters. -/
lemma initialVowelClash_congr {onset onset' rest rest' : List CharState} {v v' : CharState}
    (h : onset'.map (·.base) = onset.map (·.base)) (hv : v'.base = v.base) :
    initialVowelClash (onset' ++ v' :: rest') onset'.length =
      initialVowelClash (onset ++ v :: rest) onset.length := by
  have hlen : onset'.length = onset.length := by simpa using congrArg List.length h
  rcases onset with _ | ⟨s0, _ | ⟨s1, _ | ⟨s2, _ | ⟨s3, onset⟩⟩⟩⟩ <;>
  rcases onset' with _ | ⟨t0, _ | ⟨t1, _ | ⟨t2, _ | ⟨t3, onset'⟩⟩⟩⟩ <;>
  simp only [List.length_cons, List.length_nil] at hlen <;> try omega
  · rfl
  · simp only [List.map_cons, List.map_nil, List.cons.injEq, and_true] at h
    simp [initialVowelClash, charAt, h, hv]
  · simp only [List.map_cons, List.map_nil, List.cons.injEq, and_true] at h
    simp [initialVowelClash, charAt, h, hv]
  · simp only [List.map_cons, List.map_nil, List.cons.injEq, and_true] at h
    simp [initialVowelClash, charAt, startsNgh, h, hv]
  · rfl

/-- A consonant prefix is its own onset. -/
lemma parseInitialConsonant_self (ho : isValidConsonantPrefix states allowZwjf) :
    parseInitialConsonant states allowZwjf = states.length := by
  rcases states with _ | ⟨s0, _ | ⟨s1, _ | ⟨s2, _ | ⟨s3, rest⟩⟩⟩⟩
  · rfl
  · simp only [isValidConsonantPrefix, Bool.and_eq_true, Bool.not_eq_true', Bool.or_eq_true] at ho
    have hi : isInitialChar s0.base allowZwjf = true := ho.2.elim id isInitialChar_of_isStrokedD
    simp [parseInitialConsonant, ho.1, hi, startsNgh]
  · simp only [isValidConsonantPrefix, Bool.and_eq_true, Bool.not_eq_true'] at ho
    obtain ⟨⟨h0, h1⟩, hpair⟩ := ho
    obtain ⟨⟨hd0, hd1, -, -⟩, hpair'⟩ := kPrefixPairs_letters hpair
    simp [parseInitialConsonant, isStrokedD, CharState.isD, hd0, hd1, h0, h1, startsNgh,
      List.contains_iff_mem.1 hpair']
  · have hn : startsNgh [s0, s1, s2] = true := ho
    simp only [isValidConsonantPrefix, startsNgh, Bool.and_eq_true, beq_iff_eq] at ho
    simp [parseInitialConsonant, isStrokedD, CharState.isD, CharState.isVowel, isVowelBase, ho, hn]
  · simp [isValidConsonantPrefix] at ho

/-- A vowel stands in the buffer. -/
lemma lt_length_of_isVowel {i : Nat} (h : (charAt states i).isVowel) : i < states.length := by
  by_contra hn
  rw [charAt, List.getD_eq_getElem?_getD, List.getElem?_eq_none (by omega)] at h
  cases h

/-- A buffer whose onset does not open is a consonant prefix or invalid. -/
lemma validateImpl_of_not_opens (h : ¬Opens states allowZwjf) :
    validateImpl states allowZwjf =
      if isValidConsonantPrefix states allowZwjf then .validPrefix else .invalid := by
  rcases states with _ | ⟨s0, rest⟩
  · rfl
  -- a consonant prefix ends at its onset
  have hself : ¬(0 < parseInitialConsonant (s0 :: rest) allowZwjf ∧
      parseInitialConsonant (s0 :: rest) allowZwjf = (s0 :: rest).length) →
      SyllableState.invalid =
        if isValidConsonantPrefix (s0 :: rest) allowZwjf then .validPrefix else .invalid := by
    intro hn
    rw [if_neg]
    intro ho
    have := parseInitialConsonant_self ho
    exact hn ⟨by rw [this]; simp, this⟩
  unfold validateImpl
  dsimp only
  by_cases h0 : parseInitialConsonant (s0 :: rest) allowZwjf = 0 ∧ ¬s0.isVowel
  · rw [if_pos h0]
    exact hself (by omega)
  rw [if_neg h0]
  by_cases hend : 0 < parseInitialConsonant (s0 :: rest) allowZwjf ∧
      parseInitialConsonant (s0 :: rest) allowZwjf = (s0 :: rest).length
  · rw [if_pos hend]
  rw [if_neg hend]
  by_cases hvow : 0 < parseInitialConsonant (s0 :: rest) allowZwjf ∧
      ¬(charAt (s0 :: rest) (parseInitialConsonant (s0 :: rest) allowZwjf)).isVowel
  · rw [if_pos hvow]
  rw [if_neg hvow]
  have hvowel : (charAt (s0 :: rest) (parseInitialConsonant (s0 :: rest) allowZwjf)).isVowel := by
    by_cases hL : parseInitialConsonant (s0 :: rest) allowZwjf = 0
    · rw [hL, charAt, List.getD_cons_zero]
      simpa [hL] using h0
    · by_contra hn
      exact hvow ⟨by omega, hn⟩
  by_cases hclash : initialVowelClash (s0 :: rest) (parseInitialConsonant (s0 :: rest) allowZwjf) = true
  · rw [if_pos hclash]
    exact hself hend
  · exact absurd ⟨lt_length_of_isVowel hvowel, hvowel, by simpa using hclash⟩ h

/-- The buffers with a valid structure. -/
theorem validateImpl_eq_valid : validateImpl states allowZwjf = .valid ↔
    Opens states allowZwjf ∧ bareQu states = false ∧
      ∃ n ∈ onsetLengths states allowZwjf, validateDecomposition states n = .valid := by
  by_cases h : Opens states allowZwjf
  · rw [(validateImpl_of_opens h).1]
    simp [h]
  · rw [validateImpl_of_not_opens h]
    split <;> simp [h]

/-- A valid syllable has valid letters and a fitting tone. -/
lemma validateSyllableState_eq_valid : validateSyllableState states allowZwjf = .valid ↔
    validateImpl states allowZwjf = .valid ∧ checkToneModInvariant states := by
  simp only [validateSyllableState]
  split
  · next h => simp [h.2]
  · next h =>
    constructor
    · intro hv
      refine ⟨hv, ?_⟩
      by_contra hn
      exact h ⟨by simp [hv], hn⟩
    · exact And.left

/-- So does a syllable that is not invalid. -/
lemma validateSyllableState_ne_invalid : validateSyllableState states allowZwjf ≠ .invalid ↔
    validateImpl states allowZwjf ≠ .invalid ∧ checkToneModInvariant states := by
  rw [validateSyllableState]
  cases validateImpl states allowZwjf <;> cases checkToneModInvariant states <;> simp

end Onset

/-- One tone on the vowels, and on a modified one if any is. -/
lemma checkToneModInvariant_iff_filter {states : List CharState} : checkToneModInvariant states ↔
    (states.filter fun s => s.isVowel && s.hasTone).length ≤ 1 ∧
      ∀ s ∈ states, s.isVowel → s.hasTone →
        (∃ t ∈ states, t.isVowel ∧ t.hasModifier) → s.hasModifier := by
  have htoned : ((states.filter (·.isVowel)).filter (·.hasTone)) =
      states.filter fun s => s.isVowel && s.hasTone := by
    rw [List.filter_filter]
    exact List.filter_congr fun s _ => Bool.and_comm _ _
  have hmem : ∀ {s}, s ∈ (states.filter fun s => s.isVowel && s.hasTone) ↔
      s ∈ states ∧ s.isVowel ∧ s.hasTone := by
    intro s
    rw [List.mem_filter, Bool.and_eq_true]
  have hany : (states.filter (·.isVowel)).any (·.hasModifier) ↔
      ∃ t ∈ states, t.isVowel ∧ t.hasModifier := by
    simp
  simp only [checkToneModInvariant, htoned]
  generalize states.filter (fun s => s.isVowel && s.hasTone) = toned at hmem
  cases toned with
  | nil =>
    simp only [List.length_nil, Nat.zero_le, true_and, true_iff]
    intro s hs hvowel htone
    cases hmem.2 ⟨hs, hvowel, htone⟩
  | cons t rest =>
    cases rest with
    | nil =>
      obtain ⟨ht, hvowel, htone⟩ := hmem.1 List.mem_cons_self
      simp only [List.length_singleton, le_refl, true_and, Bool.not_eq_true', Bool.and_eq_false_imp,
        hany, Bool.not_eq_false']
      constructor
      · intro h s hs hsv hst hmod
        obtain rfl := List.mem_singleton.1 (hmem.2 ⟨hs, hsv, hst⟩)
        exact h hmod
      · intro h hmod
        exact h t ht hvowel htone hmod
    | cons u rest => simp

end NextKey.Phonology
