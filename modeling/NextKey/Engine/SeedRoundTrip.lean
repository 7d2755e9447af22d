import NextKey.Engine.Seed
import NextKey.Engine.Shown

/-!
# What a word seeds

A word of ASCII letters and precomposed Vietnamese letters seeds the engine, and the engine shows it
again: `decomposeVietChar` and `compose` are inverse on the letters, whose lower case and upper case are
tables for all of them but the ASCII ones and those that `towlower` has to leave alone.

`decomposeVietChar` looks at the lower case alone. Another character that `towlower` maps to a letter,
such as the Kelvin sign, is taken for this letter.
-/

namespace NextKey

/-- The precomposed Vietnamese letters in lower case. -/
def vietnameseLower : List Char :=
  [ 'á', 'à', 'ả', 'ã', 'ạ', 'ă', 'ắ', 'ằ', 'ẳ', 'ẵ', 'ặ', 'â', 'ấ', 'ầ', 'ẩ', 'ẫ', 'ậ',
    'é', 'è', 'ẻ', 'ẽ', 'ẹ', 'ê', 'ế', 'ề', 'ể', 'ễ', 'ệ', 'í', 'ì', 'ỉ', 'ĩ', 'ị',
    'ó', 'ò', 'ỏ', 'õ', 'ọ', 'ô', 'ố', 'ồ', 'ổ', 'ỗ', 'ộ', 'ơ', 'ớ', 'ờ', 'ở', 'ỡ', 'ợ',
    'ú', 'ù', 'ủ', 'ũ', 'ụ', 'ư', 'ứ', 'ừ', 'ử', 'ữ', 'ự', 'ý', 'ỳ', 'ỷ', 'ỹ', 'ỵ', 'đ' ]

/-- The same letters in upper case. -/
def vietnameseUpper : List Char :=
  [ 'Á', 'À', 'Ả', 'Ã', 'Ạ', 'Ă', 'Ắ', 'Ằ', 'Ẳ', 'Ẵ', 'Ặ', 'Â', 'Ấ', 'Ầ', 'Ẩ', 'Ẫ', 'Ậ',
    'É', 'È', 'Ẻ', 'Ẽ', 'Ẹ', 'Ê', 'Ế', 'Ề', 'Ể', 'Ễ', 'Ệ', 'Í', 'Ì', 'Ỉ', 'Ĩ', 'Ị',
    'Ó', 'Ò', 'Ỏ', 'Õ', 'Ọ', 'Ô', 'Ố', 'Ồ', 'Ổ', 'Ỗ', 'Ộ', 'Ơ', 'Ớ', 'Ờ', 'Ở', 'Ỡ', 'Ợ',
    'Ú', 'Ù', 'Ủ', 'Ũ', 'Ụ', 'Ư', 'Ứ', 'Ừ', 'Ử', 'Ữ', 'Ự', 'Ý', 'Ỳ', 'Ỷ', 'Ỹ', 'Ỵ', 'Đ' ]

/-- Each letter in upper and in lower case. -/
def vietnameseLetters : List (Char × Char) := vietnameseUpper.zip vietnameseLower

/-- A letter in lower case. -/
def IsLowerLetter (c : Char) : Prop := 'a' ≤ c ∧ c ≤ 'z' ∨ c ∈ vietnameseLower

/-- An ASCII letter or a precomposed Vietnamese letter. -/
def IsLetter (c : Char) : Prop := IsLowerLetter c ∨ 'A' ≤ c ∧ c ≤ 'Z' ∨ c ∈ vietnameseUpper

instance (c : Char) : Decidable (IsLowerLetter c) := inferInstanceAs (Decidable (_ ∨ _))
instance (c : Char) : Decidable (IsLetter c) := inferInstanceAs (Decidable (_ ∨ _))

/-- The letters that `toLowerVietnamese` has a case for. -/
def lowerCase? (ch : Char) : Option Char :=
  let n := ch.toNat
  if 0xC0 ≤ n ∧ n ≤ 0xD6 then some (Char.ofNat (n + 0x20))
  else if 0xD8 ≤ n ∧ n ≤ 0xDE then some (Char.ofNat (n + 0x20))
  else if ch = 'Ă' then some 'ă'
  else if ch = 'Đ' then some 'đ'
  else if ch = 'Ơ' then some 'ơ'
  else if ch = 'Ư' then some 'ư'
  else if 0x1EA0 ≤ n ∧ n ≤ 0x1EF9 ∧ n % 2 = 0 then some (Char.ofNat (n + 1))
  else none

/-- The letters that `toUpperVietnamese` has a case for. -/
def upperCase? (ch : Char) : Option Char :=
  let n := ch.toNat
  if 0xE0 ≤ n ∧ n ≤ 0xF6 then some (Char.ofNat (n - 0x20))
  else if 0xF8 ≤ n ∧ n ≤ 0xFE then some (Char.ofNat (n - 0x20))
  else if ch = 'ă' then some 'Ă'
  else if ch = 'đ' then some 'Đ'
  else if ch = 'ĩ' then some 'Ĩ'
  else if ch = 'ũ' then some 'Ũ'
  else if ch = 'ơ' then some 'Ơ'
  else if ch = 'ư' then some 'Ư'
  else if 0x1EA0 ≤ n ∧ n ≤ 0x1EF9 then some (if n % 2 = 1 then Char.ofNat (n - 1) else ch)
  else none

/-- Base, modifier and tone of a letter in lower case. -/
def lowerParts (lower : Char) : Option (Char × Modifier × Tone) :=
  if lower = 'đ' then some ('d', .stroke, .none)
  else
    match kTonedVowel.findIdx? (·.contains lower) with
    | some i =>
      (decomposeToneBase (kToneBase.getD i '\x00')).map fun (base, mod) =>
        (base, mod, toneOfIndex ((kTonedVowel.getD i []).idxOf lower))
    | none =>
      match decomposeToneBase lower with
      | some (base, mod) => some (base, mod, .none)
      | none => if 'a' ≤ lower ∧ lower ≤ 'z' then some (lower, .none, .none) else none

/-- The letter with this base, modifier and tone in lower case. -/
def lowerShape (base : Char) (mod : Modifier) (tone : Tone) : Char :=
  if base = 'd' ∧ mod = .stroke then 'đ'
  else
    let modified := if isVowelBase base then (modifiedVowel base mod).getD base else base
    match toneBaseIndex modified, toneIndex tone with
    | some ti, some si => (kTonedVowel.getD ti []).getD si modified
    | _, _ => modified

/-- The letters in lower case. -/
def lowerLetters : List Char := (List.range 26).map (fun i => Char.ofNat (0x61 + i)) ++ vietnameseLower

/-- The list of the small letters. -/
lemma mem_lowerLetters {c : Char} : c ∈ lowerLetters ↔ IsLowerLetter c := by
  unfold lowerLetters IsLowerLetter
  rw [List.mem_append]
  refine or_congr_left ?_
  constructor
  · intro h
    have hall : (((List.range 26).map fun i => Char.ofNat (0x61 + i)).all
        fun c => decide ('a' ≤ c ∧ c ≤ 'z')) = true := by decide +kernel
    exact of_decide_eq_true (List.all_eq_true.mp hall c h)
  · rintro ⟨ha, hz⟩
    have hn : 0x61 ≤ c.toNat ∧ c.toNat ≤ 0x7A := ⟨ha, hz⟩
    refine List.mem_map.2 ⟨c.toNat - 0x61, List.mem_range.2 (by omega), ?_⟩
    rw [Nat.add_sub_cancel' hn.1]
    exact Char.ofNat_toNat c

/-- The parts of a letter in lower case make the letter. -/
lemma lowerParts_of_letter {c : Char} (h : IsLowerLetter c) :
    ∃ base mod tone, lowerParts c = some (base, mod, tone) ∧ lowerShape base mod tone = c ∧
      AsciiKey base := by
  have hall : (lowerLetters.all fun c => (lowerParts c).any fun parts =>
      lowerShape parts.1 parts.2.1 parts.2.2 == c && decide (AsciiKey parts.1)) = true := by
    decide +kernel
  have hany := List.all_eq_true.mp hall c (mem_lowerLetters.2 h)
  cases hparts : lowerParts c with
  | none =>
    rw [hparts] at hany
    cases hany
  | some parts =>
    rw [hparts, Option.any_some, Bool.and_eq_true] at hany
    exact ⟨parts.1, parts.2.1, parts.2.2, rfl, eq_of_beq hany.1, of_decide_eq_true hany.2⟩

/-- What is no small letter has no parts. -/
lemma lowerParts_of_not_letter {c : Char} (h : ¬IsLowerLetter c) : lowerParts c = none := by
  have hne (d : Char) (hd : IsLowerLetter d) : c ≠ d := by
    rintro rfl
    exact h hd
  have hrow : kTonedVowel.findIdx? (·.contains c) = none := by
    rw [List.findIdx?_eq_none_iff]
    intro row hmem
    have hall : (kTonedVowel.all fun row => row.all fun d => decide (IsLowerLetter d)) = true := by
      decide +kernel
    rw [List.contains_eq_mem, decide_eq_false_iff_not]
    intro hc
    exact h (of_decide_eq_true (List.all_eq_true.mp (List.all_eq_true.mp hall row hmem) c hc))
  have hbase : decomposeToneBase c = none := by
    unfold decomposeToneBase
    split <;> first | rfl | exact absurd (by decide) h
  unfold lowerParts
  rw [if_neg (hne 'đ' (by decide)), hrow]
  dsimp only
  rw [hbase]
  exact if_neg fun haz => h (.inl haz)

/-- The small Vietnamese letters are the second of the pairs. -/
lemma vietnameseLower_eq : vietnameseLower = vietnameseLetters.map Prod.snd := by decide +kernel

/-- The capital ones are the first. -/
lemma vietnameseUpper_eq : vietnameseUpper = vietnameseLetters.map Prod.fst := by decide +kernel

/-- The case tables on the Vietnamese letters. -/
lemma vietnameseLetters_cases {u l : Char} (h : (u, l) ∈ vietnameseLetters) :
    (lowerCase? u = none ∨ lowerCase? u = some l) ∧ lowerCase? l = none ∧ upperCase? l = some u ∧
      l ≠ u := by
  have hall : (vietnameseLetters.all fun p =>
      decide ((lowerCase? p.1 = none ∨ lowerCase? p.1 = some p.2) ∧ lowerCase? p.2 = none ∧
        upperCase? p.2 = some p.1 ∧ p.2 ≠ p.1)) = true := by
    decide +kernel
  exact of_decide_eq_true (List.all_eq_true.mp hall _ h)

/-- The same for an ASCII letter in lower case. -/
lemma ascii_lower {c : Char} (hc : AsciiKey c) (h : 'a' ≤ c ∧ c ≤ 'z') :
    lowerCase? c = none ∧ c.toLower = c :=
  @AsciiKey.forall (fun c => 'a' ≤ c ∧ c ≤ 'z' → lowerCase? c = none ∧ c.toLower = c)
    (by decide +kernel) c hc h

/-- The same for an ASCII letter in upper case. -/
lemma ascii_upper {c : Char} (hc : AsciiKey c) (h : 'A' ≤ c ∧ c ≤ 'Z') :
    lowerCase? c = none ∧ ('a' ≤ c.toLower ∧ c.toLower ≤ 'z') ∧ c.toLower ≠ c ∧
      c.toLower.toUpper = c :=
  @AsciiKey.forall (fun c => 'A' ≤ c ∧ c ≤ 'Z' → lowerCase? c = none ∧
      ('a' ≤ c.toLower ∧ c.toLower ≤ 'z') ∧ c.toLower ≠ c ∧ c.toLower.toUpper = c)
    (by decide +kernel) c hc h

section Locale

variable [WideLocale]

omit [WideLocale] in
/-- A default behind a choice. -/
lemma ite_some_getD {p : Prop} [Decidable p] (a d : Char) (o : Option Char) :
    (if p then some a else o).getD d = if p then a else o.getD d := by
  split <;> rfl

/-- The lower case is looked up, or that of the library. -/
lemma toLowerVietnamese_eq (c : Char) : toLowerVietnamese c = (lowerCase? c).getD (towlower c) := by
  unfold lowerCase?
  dsimp only
  rw [ite_some_getD, ite_some_getD, ite_some_getD, ite_some_getD, ite_some_getD, ite_some_getD,
    ite_some_getD]
  rfl

/-- So is the upper case. -/
lemma toUpperVietnamese_eq (c : Char) : toUpperVietnamese c = (upperCase? c).getD (towupper c) := by
  unfold upperCase?
  dsimp only
  rw [ite_some_getD, ite_some_getD, ite_some_getD, ite_some_getD, ite_some_getD, ite_some_getD,
    ite_some_getD, ite_some_getD, ite_some_getD]
  rfl

/-- A character is taken apart in lower case. -/
lemma decomposeVietChar_eq (c : Char) :
    decomposeVietChar c = (lowerParts (toLowerVietnamese c)).map fun (base, mod, tone) =>
      (base, mod, tone, toLowerVietnamese c != c) := by
  unfold decomposeVietChar lowerParts
  generalize toLowerVietnamese c = lower
  dsimp only
  by_cases hstroke : lower = 'đ'
  · rw [if_pos hstroke, if_pos hstroke]
    rfl
  · rw [if_neg hstroke, if_neg hstroke]
    cases kTonedVowel.findIdx? (·.contains lower) with
    | some i =>
      dsimp only
      rw [Option.map_map]
      rfl
    | none =>
      dsimp only
      cases decomposeToneBase lower with
      | some parts => rfl
      | none =>
        dsimp only
        split <;> rfl

/-- A letter is composed in lower case and then capitalized. -/
lemma compose_eq {s : CharState} (hs : AsciiKey s.base) :
    compose s =
      if s.isUpper then toUpperVietnamese (lowerShape s.base s.mod s.tone)
      else lowerShape s.base s.mod s.tone := by
  have hempty : s.isEmpty = false := beq_eq_false_iff_ne.mpr hs.ne_nul
  unfold compose lowerShape
  rw [hempty, if_neg Bool.false_ne_true]
  by_cases hstroke : s.base = 'd' ∧ s.mod = .stroke
  · have hd : s.isD ∧ s.mod = .stroke := ⟨beq_iff_eq.2 hstroke.1, hstroke.2⟩
    rw [if_pos hd, if_pos hstroke, toUpperVietnamese_eq]
    rfl
  · have hd : ¬(s.isD ∧ s.mod = .stroke) := fun h => hstroke ⟨eq_of_beq h.1, h.2⟩
    rw [if_neg hd, if_neg hstroke]
    rfl

/-- `towlower` and `towupper` are right on the Vietnamese letters. -/
structure CorrectOnVietnamese : Prop where
  lowered : ∀ p ∈ vietnameseLetters, towlower p.1 = p.2 ∧ towlower p.2 = p.2
  raised : ∀ p ∈ vietnameseLetters, towupper p.1 = p.1 ∧ towupper p.2 = p.1

/-- A letter in lower case is its own lower case. -/
lemma CorrectOnVietnamese.lower (correct : CorrectOnVietnamese) {c : Char} (h : IsLowerLetter c) :
    toLowerVietnamese c = c := by
  rw [toLowerVietnamese_eq]
  obtain haz | hmem := h
  · have hascii : AsciiKey c :=
      ⟨Nat.lt_of_lt_of_le (by decide) haz.1, Nat.lt_of_le_of_lt haz.2 (by decide)⟩
    obtain ⟨hnone, hlower⟩ := ascii_lower hascii haz
    rw [hnone, Option.getD_none, WideLocale.towlower_ascii c hascii.2, hlower]
  · rw [vietnameseLower_eq] at hmem
    obtain ⟨⟨u, _⟩, hpair, rfl⟩ := List.mem_map.1 hmem
    rw [(vietnameseLetters_cases hpair).2.1]
    exact (correct.lowered _ hpair).2

/-- A letter in upper case has a lower case, whose upper case it is. -/
lemma CorrectOnVietnamese.upper (correct : CorrectOnVietnamese) {c : Char}
    (h : 'A' ≤ c ∧ c ≤ 'Z' ∨ c ∈ vietnameseUpper) :
    IsLowerLetter (toLowerVietnamese c) ∧ toLowerVietnamese c ≠ c ∧
      toUpperVietnamese (toLowerVietnamese c) = c := by
  rw [toLowerVietnamese_eq]
  obtain haz | hmem := h
  · have hascii : AsciiKey c :=
      ⟨Nat.lt_of_lt_of_le (by decide) haz.1, Nat.lt_of_le_of_lt haz.2 (by decide)⟩
    obtain ⟨hnone, hletter, hne, hupper⟩ := ascii_upper hascii haz
    rw [hnone, Option.getD_none, WideLocale.towlower_ascii c hascii.2]
    refine ⟨.inl hletter, hne, ?_⟩
    rw [toUpperVietnamese_ascii hascii.toLower, hupper]
  · rw [vietnameseUpper_eq] at hmem
    obtain ⟨⟨u, l⟩, hpair, heq⟩ := List.mem_map.1 hmem
    obtain rfl : u = c := heq
    obtain ⟨hlower, -, hupper, hne⟩ := vietnameseLetters_cases hpair
    have hl : (lowerCase? u).getD (towlower u) = l := by
      obtain hnone | hsome := hlower
      · rw [hnone]
        exact (correct.lowered _ hpair).1
      · rw [hsome]
        rfl
    have hmem : l ∈ vietnameseLower := by
      rw [vietnameseLower_eq]
      exact List.mem_map_of_mem hpair
    rw [hl]
    refine ⟨.inr hmem, hne, ?_⟩
    rw [toUpperVietnamese_eq, hupper]
    rfl

/-- The lower case of a letter is a small letter. -/
lemma CorrectOnVietnamese.isLowerLetter (correct : CorrectOnVietnamese) {c : Char} (h : IsLetter c) :
    IsLowerLetter (toLowerVietnamese c) := by
  obtain hlow | hupp := h
  · rw [correct.lower hlow]
    exact hlow
  · exact (correct.upper hupp).1

/-- Decomposing a letter and composing a state from the parts gives the letter. -/
lemma CorrectOnVietnamese.decompose (correct : CorrectOnVietnamese) {c : Char} (h : IsLetter c) :
    ∃ base mod tone isUpper, decomposeVietChar c = some (base, mod, tone, isUpper) ∧
      ∀ s : CharState, s.base = base → s.mod = mod → s.tone = tone → s.isUpper = isUpper →
        compose s = c ∧ c ≠ '\x00' := by
  obtain ⟨base, mod, tone, hparts, hshape, hbase⟩ := lowerParts_of_letter (correct.isLowerLetter h)
  refine ⟨base, mod, tone, toLowerVietnamese c != c, ?_, ?_⟩
  · rw [decomposeVietChar_eq, hparts]
    rfl
  · rintro s rfl rfl rfl hupper
    have hcompose : compose s = c := by
      rw [compose_eq hbase, hshape, hupper]
      obtain hlow | hupp := h
      · have hsame := correct.lower hlow
        rw [hsame, bne_self_eq_false, if_neg Bool.false_ne_true]
      · obtain ⟨-, hne, hup⟩ := correct.upper hupp
        rw [if_pos (bne_iff_ne.2 hne), hup]
    exact ⟨hcompose, hcompose ▸ compose_ne_nul hbase⟩

/-- Whether a character is taken depends on its lower case. -/
lemma decomposeVietChar_isSome {c : Char} :
    (decomposeVietChar c).isSome = true ↔ IsLowerLetter (toLowerVietnamese c) := by
  rw [decomposeVietChar_eq, Option.isSome_map]
  constructor
  · intro hsome
    by_contra hnot
    rw [lowerParts_of_not_letter hnot] at hsome
    cases hsome
  · intro h
    obtain ⟨base, mod, tone, hparts, -⟩ := lowerParts_of_letter h
    rw [hparts]
    rfl

namespace EngineState

/-- A partly filled buffer shows the letters so far, each with one keystroke of its own. -/
structure Seeded (st : EngineState) (text : List Char) : Prop where
  shown : st.peek = text
  count : st.count = text.length
  raw : st.rawInput.length = st.states.length
  rawIdx : ∀ i, ∀ h : i < st.states.length, st.states[i].rawIdx = i

/-- Nothing is shown of nothing. -/
lemma Seeded.init : Seeded {} [] where
  shown := rfl
  count := rfl
  raw := rfl
  rawIdx := nofun

/-- One more letter. -/
lemma Seeded.seedChar {st : EngineState} {text : List Char} (h : st.Seeded text)
    (correct : CorrectOnVietnamese) {c : Char} (hc : IsLetter c) :
    ∃ st', st.seedChar c = some st' ∧ st'.Seeded (text ++ [c]) := by
  obtain ⟨base, mod, tone, isUpper, hparts, hcompose⟩ := correct.decompose hc
  unfold EngineState.seedChar
  rw [hparts]
  refine ⟨_, rfl, ?_⟩
  obtain ⟨hshows, hnul⟩ := hcompose
    { base := base, mod := mod, tone := tone, isUpper := isUpper, rawIdx := st.rawInput.length }
    rfl rfl rfl rfl
  constructor
  · unfold peek composeAll
    rw [List.map_append, List.filter_append]
    refine congrArg₂ (· ++ ·) h.shown ?_
    simp [hshows, hnul]
  · have hcount : st.states.length = text.length := h.count
    simp [EngineState.count, hcount]
  · simp [h.raw]
  · intro i hi
    have hlen : i < st.states.length + 1 := by simpa using hi
    dsimp only
    rw [List.getElem_append]
    split
    · next hold => exact h.rawIdx i hold
    · next hnew =>
      rw [List.getElem_singleton]
      dsimp only
      rw [h.raw]
      omega

/-- The letters one by one. -/
lemma Seeded.foldlM {st : EngineState} {text : List Char} (h : st.Seeded text)
    (correct : CorrectOnVietnamese) {cs : List Char} (hcs : ∀ c ∈ cs, IsLetter c) :
    ∃ st', cs.foldlM EngineState.seedChar st = some st' ∧ st'.Seeded (text ++ cs) := by
  induction cs generalizing st text with
  | nil => exact ⟨st, rfl, by rwa [List.append_nil]⟩
  | cons c cs ih =>
    obtain ⟨hc, hrest⟩ := List.forall_mem_cons.1 hcs
    obtain ⟨st', hstep, hst'⟩ := h.seedChar correct hc
    obtain ⟨st'', hrun, hst''⟩ := ih hst' hrest
    refine ⟨st'', ?_, ?_⟩
    · rw [List.foldlM_cons, hstep]
      exact hrun
    · rwa [List.append_assoc] at hst''

/-- Each character of a word that seeds the engine is taken. -/
lemma foldlM_seedChar_isSome {st : EngineState} {cs : List Char} :
    (cs.foldlM seedChar st).isSome = true ↔ ∀ c ∈ cs, (decomposeVietChar c).isSome = true := by
  induction cs generalizing st with
  | nil => simp
  | cons c cs ih =>
    rw [List.foldlM_cons, List.forall_mem_cons]
    unfold seedChar
    cases decomposeVietChar c with
    | none => simp
    | some parts =>
      rw [Option.isSome_some, eq_self, true_and]
      exact ih

/-- Seeding accepts just the texts of letters. A text that is accepted stands in the engine as if it had been
typed, and one that is not leaves the engine as after a reset. -/
structure SeedsFaithfully (cfg : TypingConfig) (text : List Char) : Prop where
  accepts : (seedFromText cfg text).2 = true ↔ ∀ c ∈ text, IsLetter c
  seeded : (seedFromText cfg text).2 = true → (seedFromText cfg text).1.Seeded text
  reset : (seedFromText cfg text).2 = false → (seedFromText cfg text).1 = {}

/-- A character that is no letter, and whose lower case is one. -/
def Lookalike (c : Char) : Prop := ¬IsLetter c ∧ IsLowerLetter (toLowerVietnamese c)

/-- A text is accepted when the lower case of each character is a small letter. -/
lemma seedFromText_accepts {cfg : TypingConfig} {text : List Char} :
    (seedFromText cfg text).2 = true ↔ ∀ c ∈ text, IsLowerLetter (toLowerVietnamese c) := by
  rw [seedFromText_snd, foldlM_seedChar_isSome]
  exact forall₂_congr fun c _ => decomposeVietChar_isSome

/-- A text that is rejected leaves an empty engine. -/
lemma seedFromText_reset {cfg : TypingConfig} {text : List Char}
    (h : (seedFromText cfg text).2 = false) : (seedFromText cfg text).1 = {} := by
  unfold seedFromText at h ⊢
  split
  · rfl
  · next st hst =>
    rw [hst] at h
    cases h

/-- A text of letters is seeded. -/
lemma seedFromText_seeded (correct : CorrectOnVietnamese) {cfg : TypingConfig} {text : List Char}
    (h : ∀ c ∈ text, IsLetter c) : (seedFromText cfg text).1.Seeded text := by
  obtain ⟨st, hrun, hst⟩ := Seeded.init.foldlM correct h
  unfold seedFromText
  rw [hrun]
  exact ⟨hst.shown, hst.count, hst.raw, hst.rawIdx⟩

/-- A text seeds the engine as it should just when none of its characters looks like a letter, or
another one is rejected. -/
theorem seedsFaithfully_iff (correct : CorrectOnVietnamese) (cfg : TypingConfig) (text : List Char) :
    SeedsFaithfully cfg text ↔
      (∀ c ∈ text, ¬Lookalike c) ∨ ∃ c ∈ text, ¬IsLowerLetter (toLowerVietnamese c) := by
  constructor
  · intro h
    by_cases hrejects : ∃ c ∈ text, ¬IsLowerLetter (toLowerVietnamese c)
    · exact .inr hrejects
    · simp only [not_exists, not_and, not_not] at hrejects
      have hletters := h.accepts.1 (seedFromText_accepts.2 hrejects)
      exact .inl fun c hc hlook => hlook.1 (hletters c hc)
  · rintro (hnone | ⟨c, hc, hrejected⟩)
    · have haccepts : (seedFromText cfg text).2 = true ↔ ∀ c ∈ text, IsLetter c := by
        rw [seedFromText_accepts]
        refine forall₂_congr fun c hc => ⟨fun hlower => ?_, correct.isLowerLetter⟩
        by_contra hletter
        exact hnone c hc ⟨hletter, hlower⟩
      exact ⟨haccepts, fun h => seedFromText_seeded correct (haccepts.1 h), seedFromText_reset⟩
    · have hfalse : ¬(seedFromText cfg text).2 = true := fun h =>
        hrejected (seedFromText_accepts.1 h c hc)
      exact
        { accepts := iff_of_false hfalse fun h => hrejected (correct.isLowerLetter (h c hc))
          seeded := fun h => absurd h hfalse
          reset := seedFromText_reset }

end EngineState

end Locale

section Unicode

/-- What holds of the characters below 128. -/
lemma forall_ascii {P : Char → Prop} (h : ∀ n : Fin 128, P (Char.ofNat n)) {c : Char}
    (hc : c.toNat < 128) : P c := by
  have hP := h ⟨c.toNat, hc⟩
  rwa [Char.ofNat_toNat] at hP

/-- Lower case by Unicode's simple mapping, for ASCII, the Vietnamese letters and the Kelvin sign. -/
def unicodeLower (c : Char) : Char :=
  if c = '\u212A' then 'k' else (vietnameseLetters.lookup c).getD c.toLower

/-- Upper case by the same mapping. -/
def unicodeUpper (c : Char) : Char := ((vietnameseLetters.map Prod.swap).lookup c).getD c.toUpper

@[reducible] def WideLocale.unicode : WideLocale where
  towlower := unicodeLower
  towupper := unicodeUpper
  iswupper c := c.isUpper || vietnameseUpper.contains c
  towlower_ascii _ := forall_ascii (P := fun c => unicodeLower c = c.toLower) (by decide +kernel)
  towupper_ascii _ := forall_ascii (P := fun c => unicodeUpper c = c.toUpper) (by decide +kernel)
  iswupper_ascii _ := forall_ascii
    (P := fun c => (c.isUpper || vietnameseUpper.contains c) = c.isUpper) (by decide +kernel)

attribute [local instance] WideLocale.unicode

/-- The case of Unicode is correct on the letters. -/
lemma correctOnVietnamese_unicode : CorrectOnVietnamese where
  lowered := by decide +kernel
  raised := by decide +kernel

namespace EngineState

/-- `Đẹp` seeds the engine, and is shown again. -/
theorem seedsFaithfully_iff_dep : SeedsFaithfully {} ['Đ', 'ẹ', 'p'] := by
  refine (seedsFaithfully_iff correctOnVietnamese_unicode {} _).2 (.inl ?_)
  have hletters : (['Đ', 'ẹ', 'p'].all fun c => decide (IsLetter c)) = true := by decide +kernel
  intro c hc hlook
  exact hlook.1 (of_decide_eq_true (List.all_eq_true.mp hletters c hc))

/-- The Kelvin sign seeds the engine with `K`. -/
theorem not_seedsFaithfully_kelvin :
    CorrectOnVietnamese ∧ (seedFromText {} ['\u212A']).2 = true ∧ ¬IsLetter '\u212A' ∧
      (seedFromText {} ['\u212A']).1.peek = ['K'] :=
  ⟨correctOnVietnamese_unicode, by decide +kernel, by decide +kernel, by decide +kernel⟩

end EngineState

end Unicode

end NextKey
