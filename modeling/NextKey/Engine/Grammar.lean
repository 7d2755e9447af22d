import NextKey.Engine.Syllable

/-!
# The syllable grammar

The grammar `ValidateSyllableState` decides, without its parser: an onset of the lexicon that agrees
with the first vowel, a nucleus of the vowel table, a final the nucleus allows, and one tone in the
right place. `gi` and `qu` in front of a vowel are onsets too. The letters of a buffer are the bases of
its states, so `đ` has the letter `d`, and a `qu` whose `u` is marked is still `qu`.

The two letters `qu` alone satisfy the grammar, with the onset `q` and the nucleus `u`; the source keeps
them open.
-/

namespace NextKey.Phonology

/-- Letters of the initial consonants; `z`, `j`, `w`, `f` only when allowed. -/
def initialConsonants (allowZwjf : Bool) : List (List Char) :=
  [['b'], ['c'], ['d'], ['g'], ['h'], ['k'], ['l'], ['m'], ['n'], ['p'], ['q'], ['r'], ['s'], ['t'],
    ['v'], ['x'], ['c', 'h'], ['g', 'h'], ['k', 'h'], ['n', 'g'], ['n', 'h'], ['p', 'h'], ['t', 'h'],
    ['t', 'r'], ['n', 'g', 'h']] ++
  if allowZwjf then [['z'], ['j'], ['w'], ['f']] else []

/-- The onset may stand in front of the vowel: `k`, `gh` and `ngh` in front of a front vowel, `c` in
    front of the others, `q` in front of `u`. -/
def onsetAgrees : List Char → Char → Bool
  | ['k'], v | ['g', 'h'], v | ['n', 'g', 'h'], v => isFrontBaseVowel v
  | ['c'], v => !isFrontBaseVowel v
  | ['q'], v => v == 'u'
  | _, _ => true

/-- The states are the vowels of a nucleus. -/
def Spells (nucleus : List CharState) (key : VowelKey) : Prop :=
  nucleus.map (fun s => (s.base, modOrdinal s.mod)) = key.map fun slot => (slot.base.letter, slot.mod)

/-- The final may follow the nucleus: it is among those the pair table lists for it, if the table has
    the nucleus, and `k` only follows `ă`. -/
def FinalFollows (key : VowelKey) (f : Final) : Prop :=
  (getAllowedFinals key = [] ∨ f ∈ getAllowedFinals key) ∧ (f = .k → key = [Slot.aBreve])

/-- A buffer is a syllable with the onset, the nucleus and the coda. -/
structure IsSyllable (allowZwjf : Bool) (states onset nucleus coda : List CharState) : Prop where
  eq : states = onset ++ nucleus ++ coda
  /-- No onset, an initial consonant that agrees with the first vowel, or `gi` or `qu`. -/
  opens : onset = [] ∨ onset.map (·.base) = ['g', 'i'] ∨ onset.map (·.base) = ['q', 'u'] ∨
    onset.map (·.base) ∈ initialConsonants allowZwjf ∧
      ∀ v ∈ nucleus.head?, onsetAgrees (onset.map (·.base)) v.base
  /-- The nucleus is in the table, and the coda is a final it allows. -/
  rime : ∃ entry ∈ kVowelTable, Spells nucleus entry.key ∧
    (coda = [] ∨ entry.canEnd ∧ ∃ f : Final, coda.map (·.base) = f.letters ∧
      FinalFollows entry.key f ∧ (f.isStop → stopTone (getTone states)))
  /-- At most one vowel has a tone. -/
  single : (states.filter fun s => s.isVowel && s.hasTone).length ≤ 1
  /-- The tone is on a modified vowel if there is one. -/
  placed : ∀ s ∈ states, s.isVowel → s.hasTone →
    (∃ t ∈ states, t.isVowel ∧ t.hasModifier) → s.hasModifier

/-- No nucleus is twice in the table. -/
lemma findVowel_of_mem {entry : VowelEntry} (h : entry ∈ kVowelTable) :
    findVowel entry.key = some entry := by
  revert entry
  decide

/-- Every nucleus of the table has one to three vowels. -/
lemma length_of_mem_kVowelTable {entry : VowelEntry} (h : entry ∈ kVowelTable) :
    1 ≤ entry.key.length ∧ entry.key.length ≤ 3 := by
  revert entry
  decide

/-- The slots of the states are those of the key. -/
lemma spells_iff {nucleus : List CharState} {key : VowelKey} :
    Spells nucleus key ↔ nucleus.map vowelSlot? = key.map some := by
  unfold Spells
  induction nucleus generalizing key with
  | nil => cases key <;> simp
  | cons s nucleus ih =>
    cases key with
    | nil => simp
    | cons slot key =>
      simp only [List.map_cons, List.cons.injEq, ih, Prod.mk.injEq, vowelSlot?_eq_some]

/-- The bits of the codas say which may follow. -/
lemma allowsFinal_iff {key : VowelKey} {f : Final} : allowsFinal key f ↔ FinalFollows key f := by
  simp only [allowsFinal, pairForbidden, FinalFollows, Bool.and_eq_true, Bool.not_eq_true',
    Bool.and_eq_false_imp, bne_iff_ne, Bool.not_eq_false', List.contains_iff_mem, Bool.or_eq_true,
    beq_iff_eq, ne_eq, imp_iff_not_or, not_not]

/-- What `ValidateDecomposition` accepts is a rime of the grammar. -/
lemma accepts_iff {tone : Tone} {nucleus coda : List CharState} : Accepts tone nucleus coda ↔
    ∃ entry ∈ kVowelTable, Spells nucleus entry.key ∧
      (coda = [] ∨ entry.canEnd ∧ ∃ f : Final, coda.map (·.base) = f.letters ∧
        FinalFollows entry.key f ∧ (f.isStop → stopTone tone)) := by
  simp only [Accepts, vowelKey?_eq_some_iff_map, allowsFinal_iff]
  constructor
  · rintro ⟨key, entry, ⟨-, hslots⟩, hfind, hcoda⟩
    obtain ⟨hmem, rfl⟩ := findVowel_eq_some hfind
    exact ⟨entry, hmem, spells_iff.2 hslots, hcoda⟩
  · rintro ⟨entry, hmem, hspells, hcoda⟩
    have hslots := spells_iff.1 hspells
    have hlen : nucleus.length = entry.key.length := by simpa using congrArg List.length hslots
    have hbound := length_of_mem_kVowelTable hmem
    exact ⟨entry.key, entry, ⟨by omega, hslots⟩, findVowel_of_mem hmem, hcoda⟩

/-- The base vowels are vowels. -/
lemma isVowelBase_letter (b : VowelBase) : isVowelBase b.letter = true := by cases b <;> rfl

/-- A nucleus of the table is a run of vowels with a first one. -/
lemma exists_cons_of_spells {entry : VowelEntry} {nucleus : List CharState} (h : entry ∈ kVowelTable)
    (hspells : Spells nucleus entry.key) :
    (∀ v ∈ nucleus, v.isVowel) ∧ ∃ v rest, nucleus = v :: rest := by
  constructor
  · intro v hv
    have hmem := List.mem_map_of_mem (f := fun s => (s.base, modOrdinal s.mod)) hv
    rw [hspells] at hmem
    obtain ⟨slot, -, hslot⟩ := List.mem_map.1 hmem
    rw [CharState.isVowel, ← (Prod.mk.inj hslot).1]
    exact isVowelBase_letter slot.base
  · have hlen : nucleus.length = entry.key.length := by simpa using congrArg List.length hspells
    have hbound := length_of_mem_kVowelTable h
    cases nucleus with
    | nil => simp at hlen; omega
    | cons v rest => exact ⟨v, rest, rfl⟩

/-- A single letter is an initial consonant of the grammar when the source takes it for one. -/
lemma singleton_mem_initialConsonants {c : Char} {allowZwjf : Bool} :
    [c] ∈ initialConsonants allowZwjf ↔ isVowelBase c = false ∧ isInitialChar c allowZwjf := by
  have hvowel : isInitialChar c allowZwjf → isVowelBase c = false := by
    rw [← Bool.not_eq_true]
    intro h hv
    simp only [isVowelBase, Bool.or_eq_true, beq_iff_eq, or_assoc] at hv
    obtain rfl | rfl | rfl | rfl | rfl | rfl := hv <;> cases allowZwjf <;> cases h
  rw [and_iff_right_of_imp hvowel]
  cases allowZwjf <;> simp [isInitialChar, initialConsonants, or_assoc]

/-- The initial consonants of two letters. -/
lemma pair_mem_initialConsonants {c d : Char} {allowZwjf : Bool} :
    [c, d] ∈ initialConsonants allowZwjf ↔ (c, d) ∈ kPrefixPairs := by
  cases allowZwjf <;> simp [initialConsonants, kPrefixPairs]

/-- The one of three letters. -/
lemma triple_mem_initialConsonants {c d e : Char} {allowZwjf : Bool} :
    [c, d, e] ∈ initialConsonants allowZwjf ↔ c = 'n' ∧ d = 'g' ∧ e = 'h' := by
  cases allowZwjf <;> simp [initialConsonants]

/-- The consonant prefixes of the source are the initial consonants of the grammar. -/
lemma isValidConsonantPrefix_iff {onset : List CharState} {allowZwjf : Bool} :
    isValidConsonantPrefix onset allowZwjf ↔
      onset = [] ∨ onset.map (·.base) ∈ initialConsonants allowZwjf := by
  rcases onset with _ | ⟨s0, _ | ⟨s1, _ | ⟨s2, _ | ⟨s3, onset⟩⟩⟩⟩
  · simp [isValidConsonantPrefix]
  · have hstroke : (isInitialChar s0.base allowZwjf || isStrokedD s0) =
        isInitialChar s0.base allowZwjf := by
      cases hs : isStrokedD s0 with
      | true => simp [isInitialChar_of_isStrokedD hs]
      | false => simp
    simp [isValidConsonantPrefix, hstroke, singleton_mem_initialConsonants, CharState.isVowel]
  · simp only [isValidConsonantPrefix, List.map_cons, List.map_nil, pair_mem_initialConsonants,
      reduceCtorEq, false_or, Bool.and_eq_true, List.contains_iff_mem, Bool.not_eq_true',
      CharState.isVowel]
    exact and_iff_right_of_imp fun h => (kPrefixPairs_letters (List.contains_iff_mem.2 h)).1.2.2
  · simp [isValidConsonantPrefix, triple_mem_initialConsonants, startsNgh, and_assoc]
  · cases allowZwjf <;> simp [isValidConsonantPrefix, initialConsonants]

/-- The agreement rules of the grammar are those of the source. -/
lemma onsetAgrees_iff {onset rest : List CharState} {v : CharState} {allowZwjf : Bool}
    (ho : isValidConsonantPrefix onset allowZwjf) :
    onsetAgrees (onset.map (·.base)) v.base ↔
      initialVowelClash (onset ++ v :: rest) onset.length = false := by
  rcases onset with _ | ⟨s0, _ | ⟨s1, _ | ⟨s2, _ | ⟨s3, onset⟩⟩⟩⟩
  · simp [onsetAgrees, initialVowelClash]
  · simp only [List.map_cons, List.map_nil, onsetAgrees, initialVowelClash, charAt,
      List.length_singleton]
    split <;> simp_all
  · simp only [List.map_cons, List.map_nil, onsetAgrees, initialVowelClash, charAt,
      List.length_cons, List.length_nil]
    split <;> simp_all
  · simp only [isValidConsonantPrefix, startsNgh, Bool.and_eq_true, beq_iff_eq] at ho
    simp [onsetAgrees, initialVowelClash, startsNgh, charAt, ho]
  · simp [isValidConsonantPrefix] at ho

section Buffer
variable {states onset nucleus coda : List CharState} {allowZwjf : Bool}

/-- A final has a first letter, and it is a consonant. -/
lemma Final.not_vowel {f : Final} (h : coda.map (·.base) = f.letters) :
    ∀ s ∈ coda.head?, s.isVowel = false := by
  intro s hs
  cases coda with
  | nil => simp at hs
  | cons s' coda =>
    obtain rfl : s' = s := by simpa using hs
    rw [CharState.isVowel]
    cases f <;> simp only [Final.letters, List.map_cons, List.cons.injEq] at h <;> rw [h.1] <;> rfl

/-- A rime of the grammar is split where the validator splits it. -/
lemma split_of_rime {tone : Tone} (h : Accepts tone nucleus coda)
    (hvowels : ∀ v ∈ nucleus, v.isVowel) : Split (nucleus ++ coda) nucleus coda where
  eq := rfl
  vowels := hvowels
  stop := by
    obtain ⟨-, -, -, -, rfl | ⟨-, f, hf, -⟩⟩ := h
    · simp
    · exact Final.not_vowel hf

/-- An accepted rest is a nucleus of the table in front of its final. -/
lemma vowels_of_accepts {tone : Tone} (h : Accepts tone nucleus coda) :
    (∀ v ∈ nucleus, v.isVowel) ∧ ∃ v rest, nucleus = v :: rest := by
  obtain ⟨entry, hmem, hspells, -⟩ := accepts_iff.1 h
  exact exists_cons_of_spells hmem hspells

/-- The onset of a syllable and its rime, in the terms of the validator. -/
def Opening (allowZwjf : Bool) (onset nucleus : List CharState) : Prop :=
  onset.map (·.base) = ['g', 'i'] ∨ onset.map (·.base) = ['q', 'u'] ∨
    isValidConsonantPrefix onset allowZwjf ∧
      ∀ v ∈ nucleus.head?, onsetAgrees (onset.map (·.base)) v.base

/-- The decomposition at the consonants in front of the first vowel. -/
lemma opening_of_opens {v : CharState} {rest : List CharState}
    (h : Opens (onset ++ v :: rest) allowZwjf) (ho : isValidConsonantPrefix onset allowZwjf)
    (hv : v.isVowel) : Opening allowZwjf onset ((v :: rest).takeWhile (·.isVowel)) := by
  refine .inr (.inr ⟨ho, fun w hw => ?_⟩)
  obtain rfl : v = w := by simpa [List.takeWhile_cons, hv] using hw
  exact (onsetAgrees_iff ho).2 ((opens_append_iff ho hv).1 h)

/-- A glide, from its letters. -/
lemma gliding_eq_true : ∀ {states : List CharState}, gliding states ↔
    ∃ s0 s1 s2 rest, states = s0 :: s1 :: s2 :: rest ∧ s2.isVowel ∧
      (s0.base = 'g' ∧ s1.base = 'i' ∨ s0.base = 'q' ∧ s1.base = 'u')
  | [] => by simp [gliding]
  | [_] => by simp [gliding]
  | [_, _] => by simp [gliding]
  | _ :: _ :: _ :: _ => by simp [gliding, and_comm]

/-- A buffer that starts with `gi` or `qu` opens with its first letter. -/
lemma opens_of_glide {s0 s1 : CharState} {rest : List CharState}
    (h : s0.base = 'g' ∧ s1.base = 'i' ∨ s0.base = 'q' ∧ s1.base = 'u') :
    Opens (s0 :: s1 :: rest) allowZwjf := by
  refine ⟨?_, ?_, ?_⟩ <;> rw [parseInitialConsonant_glide h]
  · simp
  · obtain ⟨-, h1⟩ | ⟨-, h1⟩ := h <;> simp [charAt, CharState.isVowel, isVowelBase, h1]
  · obtain ⟨h0, h1⟩ | ⟨h0, h1⟩ := h <;> simp [initialVowelClash, charAt, h0, h1]

/-- The validator accepts the structures of the grammar, `qu` aside. -/
lemma validateImpl_eq_valid_iff : validateImpl states allowZwjf = .valid ↔ bareQu states = false ∧
    ∃ onset nucleus coda, states = onset ++ nucleus ++ coda ∧ Opening allowZwjf onset nucleus ∧
      Accepts (getTone states) nucleus coda := by
  rw [validateImpl_eq_valid]
  constructor
  · rintro ⟨hopens, hbare, n, hn, hvalid⟩
    refine ⟨hbare, ?_⟩
    rw [validateDecomposition_eq_valid split_takeWhile] at hvalid
    rcases List.mem_cons.1 hn with rfl | hglide
    · obtain ⟨onset, v, rest, rfl, hv, ho, hlen⟩ := hopens.exists_onset
      rw [hlen, List.drop_left] at hvalid
      refine ⟨onset, _, _, ?_, opening_of_opens hopens ho hv, hvalid⟩
      rw [List.append_assoc, List.takeWhile_append_dropWhile]
    · rw [List.mem_ite_nil_right, List.mem_singleton] at hglide
      obtain ⟨hg, rfl⟩ := hglide
      obtain ⟨s0, s1, s2, rest, rfl, hs2, hbases⟩ := gliding_eq_true.1 hg
      refine ⟨[s0, s1], _, _, ?_, ?_, hvalid⟩
      · rw [List.append_assoc, List.takeWhile_append_dropWhile]
        rfl
      · obtain ⟨h0, h1⟩ | ⟨h0, h1⟩ := hbases
        · exact .inl (by simp [h0, h1])
        · exact .inr (.inl (by simp [h0, h1]))
  · rintro ⟨hbare, onset, nucleus, coda, rfl, hopening, haccepts⟩
    obtain ⟨hvowels, v, rest, rfl⟩ := vowels_of_accepts haccepts
    have hsplit := split_of_rime haccepts hvowels
    have hv : v.isVowel := hvowels v List.mem_cons_self
    rw [List.append_assoc] at hbare haccepts ⊢
    -- the two letters of a cluster
    have cluster : ∀ {c d : Char}, onset.map (·.base) = [c, d] →
        (c = 'g' ∧ d = 'i' ∨ c = 'q' ∧ d = 'u') →
        Opens (onset ++ (v :: rest ++ coda)) allowZwjf ∧
          2 ∈ onsetLengths (onset ++ (v :: rest ++ coda)) allowZwjf ∧
          (onset ++ (v :: rest ++ coda)).drop 2 = v :: rest ++ coda := by
      intro c d hbases hcluster
      simp only [List.map_eq_cons_iff, List.map_eq_nil_iff] at hbases
      obtain ⟨s0, _, rfl, rfl, s1, _, rfl, rfl, rfl⟩ := hbases
      refine ⟨opens_of_glide hcluster, ?_, rfl⟩
      refine List.mem_cons_of_mem _ ?_
      rw [List.mem_ite_nil_right, List.mem_singleton]
      exact ⟨gliding_eq_true.2 ⟨s0, s1, v, rest ++ coda, rfl, hv, hcluster⟩, rfl⟩
    rcases hopening with hgi | hqu | ⟨ho, hagrees⟩
    · obtain ⟨hopens, hmem, hdrop⟩ := cluster hgi (.inl ⟨rfl, rfl⟩)
      refine ⟨hopens, hbare, 2, hmem, ?_⟩
      rw [← hdrop] at hsplit
      exact (validateDecomposition_eq_valid hsplit).2 haccepts
    · obtain ⟨hopens, hmem, hdrop⟩ := cluster hqu (.inr ⟨rfl, rfl⟩)
      refine ⟨hopens, hbare, 2, hmem, ?_⟩
      rw [← hdrop] at hsplit
      exact (validateDecomposition_eq_valid hsplit).2 haccepts
    · have hclash := (@onsetAgrees_iff onset (rest ++ coda) v _ ho).1 (hagrees v rfl)
      have hopens := (opens_append_iff ho hv).2 hclash
      refine ⟨hopens, hbare, onset.length, ?_, ?_⟩
      · exact List.mem_cons.2 (.inl (parseInitialConsonant_append ho hv).symm)
      · have hdrop : (onset ++ (v :: rest ++ coda)).drop onset.length = v :: rest ++ coda :=
          List.drop_left
        rw [← hdrop] at hsplit
        exact (validateDecomposition_eq_valid hsplit).2 haccepts

/-- A buffer that is not `qu` alone. -/
lemma bareQu_eq_false : ∀ {states : List CharState}, bareQu states = false ↔
    states.map (·.base) ≠ ['q', 'u']
  | [] => by simp [bareQu]
  | [_] => by simp [bareQu]
  | [_, _] => by simp [bareQu]
  | _ :: _ :: _ :: _ => by simp [bareQu]

/-- The openings of the validator are those of the grammar. -/
lemma opening_iff : Opening allowZwjf onset nucleus ↔
    onset = [] ∨ onset.map (·.base) = ['g', 'i'] ∨ onset.map (·.base) = ['q', 'u'] ∨
      onset.map (·.base) ∈ initialConsonants allowZwjf ∧
        ∀ v ∈ nucleus.head?, onsetAgrees (onset.map (·.base)) v.base := by
  simp only [Opening, isValidConsonantPrefix_iff]
  constructor
  · rintro (hgi | hqu | ⟨rfl | hmem, hagrees⟩)
    · exact .inr (.inl hgi)
    · exact .inr (.inr (.inl hqu))
    · exact .inl rfl
    · exact .inr (.inr (.inr ⟨hmem, hagrees⟩))
  · rintro (rfl | hgi | hqu | ⟨hmem, hagrees⟩)
    · exact .inr (.inr ⟨.inl rfl, fun _ _ => rfl⟩)
    · exact .inl hgi
    · exact .inr (.inl hqu)
    · exact .inr (.inr ⟨.inr hmem, hagrees⟩)

/-- Split syllables and the structures of the validator with the tone in its place. -/
lemma isSyllable_iff : IsSyllable allowZwjf states onset nucleus coda ↔
    states = onset ++ nucleus ++ coda ∧ Opening allowZwjf onset nucleus ∧
      Accepts (getTone states) nucleus coda ∧ checkToneModInvariant states := by
  rw [checkToneModInvariant_iff_filter]
  constructor
  · rintro ⟨heq, hopens, hrime, hsingle, hplaced⟩
    exact ⟨heq, opening_iff.2 hopens, accepts_iff.2 hrime, hsingle, hplaced⟩
  · rintro ⟨heq, hopening, haccepts, hsingle, hplaced⟩
    exact ⟨heq, opening_iff.1 hopening, accepts_iff.1 haccepts, hsingle,
      hplaced⟩

end Buffer

/-- The validator decides the grammar: it accepts the syllables and nothing else, the two letters `qu`
    aside, which it keeps open. -/
theorem validateSyllableState_iff_isSyllable {states : List CharState} {allowZwjf : Bool} :
    validateSyllableState states allowZwjf = .valid ↔
      states.map (·.base) ≠ ['q', 'u'] ∧
        ∃ onset nucleus coda, IsSyllable allowZwjf states onset nucleus coda := by
  rw [validateSyllableState_eq_valid, validateImpl_eq_valid_iff, bareQu_eq_false]
  constructor
  · rintro ⟨⟨hbare, onset, nucleus, coda, heq, hopening, haccepts⟩, htone⟩
    exact ⟨hbare, onset, nucleus, coda, isSyllable_iff.2 ⟨heq, hopening, haccepts, htone⟩⟩
  · rintro ⟨hbare, onset, nucleus, coda, hsyllable⟩
    obtain ⟨heq, hopening, haccepts, htone⟩ := isSyllable_iff.1 hsyllable
    exact ⟨⟨hbare, onset, nucleus, coda, heq, hopening, haccepts⟩, htone⟩

/-- `qu` is the onset `q` in front of the nucleus `u`, and the validator does not accept it. -/
theorem isSyllable_qu_open : ¬(validateSyllableState [{ base := 'q' }, { base := 'u' }] false = .valid ↔
    ∃ onset nucleus coda,
      IsSyllable false [{ base := 'q' }, { base := 'u' }] onset nucleus coda) := by
  intro h
  have hopen : validateSyllableState [{ base := 'q' }, { base := 'u' }] false = .validPrefix := by
    decide
  have hsyllable : IsSyllable false [{ base := 'q' }, { base := 'u' }] [{ base := 'q' }]
      [{ base := 'u' }] [] :=
    isSyllable_iff.2 ⟨rfl, .inr (.inr ⟨rfl, by simp [onsetAgrees]⟩),
      ⟨[Slot.u], ⟨[Slot.u], true⟩, rfl, by decide, .inl rfl⟩, rfl⟩
  rw [hopen] at h
  cases h.2 ⟨_, _, _, hsyllable⟩

end NextKey.Phonology
