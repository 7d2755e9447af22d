import NextKey.Engine.Grammar
import NextKey.Engine.Phonotactics

/-!
# Completable text

Model of `Parse` and `CanComplete` in `core/engine/Phonotactics.cpp`, the phonotactics of rendered
text, and its agreement with the validator of the buffer. The two keep lists of their own: the validator
knows the final `k` of `Đắk Lắk`, and the list of codas here has no `k`.
-/

namespace NextKey.Phonotactics

open Phonology

/-- Letters a syllable may start with; the empty onset stands for a syllable that starts with its vowel
    (C++ `kValidOnsets`). -/
def kValidOnsets : List (List Char) :=
  [[],
    ['b'], ['c'], ['d'], ['đ'],
    ['g'], ['h'], ['k'], ['l'], ['m'], ['n'],
    ['p'], ['q'], ['r'], ['s'], ['t'], ['v'], ['x'],
    ['c', 'h'], ['g', 'h'], ['g', 'i'], ['k', 'h'], ['n', 'g'], ['n', 'h'], ['p', 'h'], ['q', 'u'],
    ['t', 'h'], ['t', 'r'],
    ['n', 'g', 'h']]

/-- C++ `IsKnownOnset`. -/
def isKnownOnset (text : List Char) : Bool := kValidOnsets.contains text

/-- C++ `Decompose(c).base != 0`. -/
def isVowelChar (c : Char) : Bool := (decompose c).isSome

/-- C++ `IsKnownOnsetPrefix`. -/
def isKnownOnsetPrefix : List Char → Bool
  | [] => true
  | [leadChar] => !isVowelChar leadChar && (decide ('a' ≤ leadChar ∧ leadChar ≤ 'z') || leadChar == 'đ')
  | text => isKnownOnset text

/-- C++ `kValidCodas`. -/
def kValidCodas : List (List Char) :=
  [['c'], ['m'], ['n'], ['p'], ['t'],
    ['c', 'h'], ['n', 'g'], ['n', 'h']]

/-- C++ `IsKnownCoda`. -/
def isKnownCoda (text : List Char) : Bool := kValidCodas.contains text

/-- C++ `ParsedSyllable`. -/
structure ParsedSyllable where
  onset : List Char := []
  vowels : List Char := []
  coda : List Char := []
  /-- Anything past the coda. -/
  leftover : List Char := []
  hasVowel : Bool := false
  deriving DecidableEq, Repr

/-- Split a text at its first run of vowels; the coda is up to two consonants (C++ `Parse`). -/
def parse (text : List Char) : ParsedSyllable :=
  let onset := text.takeWhile fun c => !isVowelChar c
  let tail := text.dropWhile fun c => !isVowelChar c
  if tail = [] then { onset := text }
  else
    let rest := tail.dropWhile isVowelChar
    let codaLen := ((rest.take 2).takeWhile fun c => !isVowelChar c).length
    { onset := onset, vowels := tail.takeWhile isVowelChar, coda := rest.take codaLen,
      leftover := rest.drop codaLen, hasVowel := true }

/-- C++ `Phonotactics::CanComplete`. -/
def canComplete (text : List Char) : Bool :=
  if text = [] then true
  else
    let parsed := parse text
    if ¬parsed.hasVowel then isKnownOnsetPrefix parsed.onset
    else if ¬isKnownOnset parsed.onset then false
    else if parsed.leftover ≠ [] then false
    else if parsed.coda ≠ [] ∧ ¬isKnownCoda parsed.coda then false
    else true

/-- A text of consonants, vowels and at most two consonants is split there. -/
lemma parse_append {onset vowels coda : List Char} (ho : ∀ c ∈ onset, isVowelChar c = false)
    (hv : ∀ c ∈ vowels, isVowelChar c) (hne : vowels ≠ []) (hc : ∀ c ∈ coda, isVowelChar c = false)
    (hlen : coda.length ≤ 2) :
    parse (onset ++ vowels ++ coda) =
      { onset := onset, vowels := vowels, coda := coda, leftover := [], hasVowel := true } := by
  have hconsonants : ∀ {text : List Char}, (∀ c ∈ text, isVowelChar c = false) →
      ∀ c ∈ text, (!isVowelChar c) = true := by
    intro text h c hmem
    rw [h c hmem]
    rfl
  have hcut : (coda.takeWhile fun c => !isVowelChar c) = coda :=
    List.takeWhile_eq_self_iff.2 (hconsonants hc)
  cases vowels with
  | nil => exact absurd rfl hne
  | cons v vowels =>
    have hfirst : isVowelChar v = true := hv v List.mem_cons_self
    have honset : (onset ++ (v :: vowels ++ coda)).takeWhile (fun c => !isVowelChar c) = onset := by
      rw [List.takeWhile_append_of_pos (hconsonants ho)]
      simp [hfirst]
    have htail : (onset ++ (v :: vowels ++ coda)).dropWhile (fun c => !isVowelChar c) =
        v :: vowels ++ coda := by
      rw [List.dropWhile_append_of_pos (hconsonants ho)]
      simp [hfirst]
    have hvowels : (v :: vowels ++ coda).takeWhile isVowelChar = v :: vowels := by
      rw [List.takeWhile_append_of_pos hv]
      cases coda with
      | nil => simp
      | cons c coda => simp [hc c List.mem_cons_self]
    have hrest : (v :: vowels ++ coda).dropWhile isVowelChar = coda := by
      rw [List.dropWhile_append_of_pos hv]
      cases coda with
      | nil => simp
      | cons c coda => simp [hc c List.mem_cons_self]
    rw [List.append_assoc, parse, honset, htail, hvowels, hrest]
    dsimp only
    rw [if_neg (by simp), List.take_of_length_le hlen, hcut, List.take_length,
      List.drop_length]

/-- Whether such a text can complete is a matter of its onset and its coda. -/
lemma canComplete_append {onset vowels coda : List Char} (ho : ∀ c ∈ onset, isVowelChar c = false)
    (hv : ∀ c ∈ vowels, isVowelChar c) (hne : vowels ≠ []) (hc : ∀ c ∈ coda, isVowelChar c = false)
    (hlen : coda.length ≤ 2) : canComplete (onset ++ vowels ++ coda) =
      (isKnownOnset onset && (coda.isEmpty || isKnownCoda coda)) := by
  have hnil : onset ++ vowels ++ coda ≠ [] := by simp [hne]
  rw [canComplete, if_neg hnil, parse_append ho hv hne hc hlen]
  dsimp only
  cases isKnownOnset onset with
  | false => rfl
  | true => cases coda <;> simp

section Locale
variable [WideLocale]

/-- The letter a state shows in lower case. -/
def letter (s : CharState) : Char := compose { s with isUpper := false }

/-- The text of a buffer in lower case. -/
def rendered (states : List CharState) : List Char :=
  composeAll (states.map fun s => { s with isUpper := false })

section Letters
variable {s : CharState} {states : List CharState}

/-- An untoned vowel shows as a vowel, whatever mark it has. -/
lemma isVowelChar_letter (hv : s.isVowel) (ht : s.tone = .none) : isVowelChar (letter s) := by
  obtain ⟨base, mod, tone, isUpper, synthetic, rawIdx, toneRawIdx⟩ := s
  obtain rfl : tone = .none := ht
  simp only [CharState.isVowel, isVowelBase, Bool.or_eq_true, beq_iff_eq, or_assoc] at hv
  obtain rfl | rfl | rfl | rfl | rfl | rfl := hv <;> cases mod <;> rfl

/-- An untoned consonant shows as itself, a stroked `d` aside. -/
lemma letter_of_consonant (hv : s.isVowel = false) (ht : s.tone = .none) :
    letter s = if s.isD ∧ s.mod = .stroke then 'đ' else s.base := by
  obtain ⟨base, mod, tone, isUpper, synthetic, rawIdx, toneRawIdx⟩ := s
  obtain rfl : tone = .none := ht
  have huntoned : toneIndex .none = none := rfl
  by_cases hnul : base = '\x00'
  · subst hnul
    rfl
  · have hvowel : isVowelBase base = false := hv
    simp [letter, compose, CharState.isEmpty, CharState.isVowel, CharState.isD, hvowel, hnul, huntoned]

/-- A text is rendered part by part. -/
lemma rendered_append {states' : List CharState} :
    rendered (states ++ states') = rendered states ++ rendered states' := by
  simp [rendered, composeAll]

/-- A buffer without empty states shows letter by letter. -/
lemma rendered_eq_map (h : ∀ s ∈ states, letter s ≠ '\x00') : rendered states = states.map letter := by
  rw [rendered, composeAll, List.map_map]
  refine List.filter_eq_self.2 fun c hc => ?_
  obtain ⟨s, hs, rfl⟩ := List.mem_map.1 hc
  exact decide_eq_true (h s hs)

/-- Untoned vowels show as vowels. -/
lemma rendered_vowels (hv : ∀ s ∈ states, s.isVowel) (ht : ∀ s ∈ states, s.tone = .none) :
    (∀ c ∈ rendered states, isVowelChar c) ∧ (rendered states).length = states.length := by
  have hletters : ∀ s ∈ states, isVowelChar (letter s) = true := fun s hs =>
    isVowelChar_letter (hv s hs) (ht s hs)
  have hshown : ∀ s ∈ states, letter s ≠ '\x00' := by
    intro s hs hnul
    have := hletters s hs
    rw [hnul] at this
    cases this
  rw [rendered_eq_map hshown]
  constructor
  · intro c hc
    obtain ⟨s, hs, rfl⟩ := List.mem_map.1 hc
    exact hletters s hs
  · simp

/-- A consonant that shows as its letter: not a `d`. -/
def isPlainConsonant (c : Char) : Bool :=
  !isVowelBase c && !isVowelChar c && c != 'd' && c != '\x00'

omit [WideLocale] in
/-- A plain consonant is no vowel of any kind. -/
lemma isPlainConsonant_iff {c : Char} : isPlainConsonant c ↔
    isVowelBase c = false ∧ isVowelChar c = false ∧ c ≠ 'd' ∧ c ≠ '\x00' := by
  simp [isPlainConsonant, and_assoc]

/-- Untoned consonants without a `d` show as their letters. -/
lemma rendered_consonants {letters : List Char} (hbases : states.map (·.base) = letters)
    (ht : ∀ s ∈ states, s.tone = .none) (hletters : letters.all isPlainConsonant) :
    rendered states = letters ∧ ∀ c ∈ letters, isVowelChar c = false := by
  subst hbases
  have hplain : ∀ c ∈ states.map (·.base), isVowelBase c = false ∧ isVowelChar c = false ∧
      c ≠ 'd' ∧ c ≠ '\x00' := fun c hc => isPlainConsonant_iff.1 (List.all_eq_true.1 hletters c hc)
  refine ⟨?_, fun c hc => (hplain c hc).2.1⟩
  have hletter : ∀ s ∈ states, letter s = s.base := by
    intro s hs
    obtain ⟨hvowel, -, hd, -⟩ := hplain s.base (List.mem_map_of_mem hs)
    rw [letter_of_consonant hvowel (ht s hs), if_neg]
    rintro ⟨hd', -⟩
    exact hd (by simpa [CharState.isD] using hd')
  rw [rendered_eq_map]
  · exact List.map_congr_left hletter
  · intro s hs
    rw [hletter s hs]
    exact (hplain s.base (List.mem_map_of_mem hs)).2.2.2

end Letters

/-- The initial consonants of the validator are onsets here. -/
lemma isKnownOnset_of_prefix {onset : List CharState} (ho : isValidConsonantPrefix onset false)
    (ht : ∀ s ∈ onset, s.tone = .none) :
    isKnownOnset (rendered onset) ∧ ∀ c ∈ rendered onset, isVowelChar c = false := by
  have hlexicon : ([] :: initialConsonants false).all (fun letters =>
      isKnownOnset letters && (letters == ['d'] || letters.all isPlainConsonant)) = true := by
    decide
  have hmem : onset.map (·.base) ∈ [] :: initialConsonants false := by
    rcases isValidConsonantPrefix_iff.1 ho with rfl | hmem
    · exact List.mem_cons_self
    · exact List.mem_cons_of_mem _ hmem
  have hletters := List.all_eq_true.1 hlexicon _ hmem
  rw [Bool.and_eq_true, Bool.or_eq_true, beq_iff_eq] at hletters
  obtain ⟨hknown, hd | hplain⟩ := hletters
  · -- `d` and `đ`
    simp only [List.map_eq_cons_iff, List.map_eq_nil_iff] at hd
    obtain ⟨s, _, rfl, hbase, rfl⟩ := hd
    have hvowel : s.isVowel = false := by
      rw [CharState.isVowel, hbase]
      rfl
    have hletter : letter s = 'đ' ∨ letter s = 'd' := by
      rw [letter_of_consonant hvowel (ht s List.mem_cons_self), hbase]
      exact ite_eq_or_eq _ _ _
    have hshown : rendered [s] = [letter s] := by
      refine rendered_eq_map fun t hmem => ?_
      obtain rfl := List.mem_singleton.1 hmem
      obtain h | h := hletter <;> rw [h] <;> decide
    rw [hshown]
    obtain h | h := hletter <;> rw [h] <;>
      exact ⟨rfl, fun c hc => by rw [List.mem_singleton.1 hc]; rfl⟩
  · obtain ⟨hshown, hconsonants⟩ := rendered_consonants rfl ht hplain
    rw [hshown]
    exact ⟨hknown, hconsonants⟩

/-- The finals of the validator are codas here, but for `k`. -/
lemma rendered_final {coda : List CharState} {f : Final} (hf : coda.map (·.base) = f.letters)
    (ht : ∀ s ∈ coda, s.tone = .none) :
    rendered coda = f.letters ∧ ∀ c ∈ f.letters, isVowelChar c = false := by
  refine rendered_consonants hf ht ?_
  cases f <;> rfl

omit [WideLocale] in
/-- A valid buffer as consonants, a run of vowels and a final. -/
lemma exists_run {states : List CharState} (h : validateSyllableState states false = .valid) :
    ∃ onset vowels coda, states = onset ++ vowels ++ coda ∧ isValidConsonantPrefix onset false ∧
      (∀ v ∈ vowels, v.isVowel) ∧ vowels ≠ [] ∧
        (coda = [] ∨ ∃ f : Final, coda.map (·.base) = f.letters) := by
  obtain ⟨himpl, -⟩ := validateSyllableState_eq_valid.1 h
  obtain ⟨-, onset, nucleus, coda, rfl, hopening, haccepts⟩ := validateImpl_eq_valid_iff.1 himpl
  obtain ⟨hvowels, v, rest, rfl⟩ := vowels_of_accepts haccepts
  have hcoda : coda = [] ∨ ∃ f : Final, coda.map (·.base) = f.letters := by
    obtain ⟨-, -, -, -, rfl | ⟨-, f, hf, -⟩⟩ := haccepts
    · exact .inl rfl
    · exact .inr ⟨f, hf⟩
  -- the second letter of a cluster is a vowel here
  have cluster : ∀ {c d : Char}, onset.map (·.base) = [c, d] → isVowelBase d = true →
      [c] ∈ initialConsonants false → ∃ onset' vowels coda',
        onset ++ v :: rest ++ coda = onset' ++ vowels ++ coda' ∧
          isValidConsonantPrefix onset' false ∧ (∀ v ∈ vowels, v.isVowel) ∧ vowels ≠ [] ∧
            (coda' = [] ∨ ∃ f : Final, coda'.map (·.base) = f.letters) := by
    intro c d hbases hd hc
    simp only [List.map_eq_cons_iff, List.map_eq_nil_iff] at hbases
    obtain ⟨s0, _, rfl, rfl, s1, _, rfl, rfl, rfl⟩ := hbases
    exact ⟨[s0], s1 :: v :: rest, coda, rfl, isValidConsonantPrefix_iff.2 (.inr hc),
      List.forall_mem_cons.2 ⟨hd, hvowels⟩, List.cons_ne_nil _ _, hcoda⟩
  rcases hopening with hgi | hqu | ⟨ho, -⟩
  · exact cluster hgi rfl (by decide)
  · exact cluster hqu rfl (by decide)
  · exact ⟨onset, v :: rest, coda, rfl, ho, hvowels, List.cons_ne_nil v rest, hcoda⟩

omit [WideLocale] in
/-- The last letter is `k` just when the final is. -/
lemma getLast?_eq_k {onset vowels coda : List CharState} (hv : ∀ v ∈ vowels, v.isVowel)
    (hne : vowels ≠ []) (hcoda : coda = [] ∨ ∃ f : Final, coda.map (·.base) = f.letters) :
    ((onset ++ vowels ++ coda).map (·.base)).getLast? = some 'k' ↔
      coda.map (·.base) = Final.letters .k := by
  rw [List.map_append, List.map_append]
  rcases hcoda with rfl | ⟨f, hf⟩
  · obtain ⟨front, v, rfl⟩ := (List.eq_nil_or_concat vowels).resolve_left hne
    have hvowel : isVowelBase v.base = true := hv v (by simp)
    have hk : v.base ≠ 'k' := by
      intro hbase
      rw [hbase] at hvowel
      cases hvowel
    simp [Final.letters, hk]
  · rw [hf]
    cases f <;> simp [Final.letters]

/-- A valid untoned buffer shows a text that can complete, unless it ends in `k`. -/
theorem canComplete_iff_of_valid {states : List CharState}
    (h : validateSyllableState states false = .valid) (ht : ∀ s ∈ states, s.tone = .none) :
    canComplete (rendered states) ↔ (states.map (·.base)).getLast? ≠ some 'k' := by
  obtain ⟨onset, vowels, coda, rfl, ho, hv, hne, hcoda⟩ := exists_run h
  simp only [List.mem_append, or_imp, forall_and] at ht
  obtain ⟨⟨hto, htv⟩, htc⟩ := ht
  obtain ⟨hknown, honset⟩ := isKnownOnset_of_prefix ho hto
  obtain ⟨hvowels, hlen⟩ := rendered_vowels hv htv
  have hshown : rendered vowels ≠ [] := by
    rw [← List.length_pos_iff, hlen]
    exact List.length_pos_iff.2 hne
  rw [rendered_append, rendered_append, ne_eq, getLast?_eq_k hv hne hcoda]
  rcases hcoda with rfl | ⟨f, hf⟩
  · have hnil : rendered [] = [] := rfl
    rw [hnil, canComplete_append honset hvowels hshown (by simp) (by simp), hknown]
    simp [Final.letters]
  · have hfinal : f.letters.length ≤ 2 ∧
        ((f.letters.isEmpty || isKnownCoda f.letters) = true ↔ f.letters ≠ Final.letters .k) := by
      cases f <;> decide
    obtain ⟨hcoda, hconsonants⟩ := rendered_final hf htc
    rw [hcoda, hf, canComplete_append honset hvowels hshown hconsonants hfinal.1, hknown,
      Bool.true_and]
    exact hfinal.2

end Locale

section Ascii

attribute [local instance] WideLocale.ascii

/-- `đăk`, as in `Đắk Lắk`, without its tone. -/
def dak : List CharState :=
  [{ base := 'd', mod := .stroke }, { base := 'a', mod := .breve }, { base := 'k' }]

/-- The validator accepts `đăk`, and its text cannot complete. -/
theorem dak_cannot_complete : validateSyllableState dak false = .valid ∧
    (∀ s ∈ dak, s.tone = .none) ∧ ¬canComplete (rendered dak) := by
  decide

/-- `đăng` can complete. -/
theorem dang_can_complete : canComplete (rendered
    [{ base := 'd', mod := .stroke }, { base := 'a', mod := .breve }, { base := 'n' },
      { base := 'g' }]) :=
  (canComplete_iff_of_valid (by decide) (by decide)).2 (by decide)

end Ascii

end NextKey.Phonotactics
