import Mathlib.Tactic.MkIffOfInductiveProp
import NextKey.Convert.TextTransforms
import NextKey.Lib.Lists
import NextKey.Output.UnitReading

/-!
# The case of units

The units of the tables and the letters themselves have the same case in every locale, but for the small
letters of `Ĩ` and `Ũ`. What the case conversions make of the units of a letter can therefore be checked
in one locale, letter by letter.
-/

namespace NextKey.CodeTableConverter

/-- The characters on whose case every locale agrees, up to the small letters of `Ĩ` and `Ũ`. -/
def known (ch : UInt16) : Bool :=
  let n := ch.toNat
  decide (n < 0x80) || decide (0xC0 ≤ n ∧ n ≤ 0xFE ∧ n ≠ 0xD7 ∧ n ≠ 0xDF ∧ n ≠ 0xF7) ||
    decide (0x1EA0 ≤ n ∧ n ≤ 0x1EF9) ||
    [0x300, 0x301, 0x303, 0x309, 0x323, 0xA0, 0xA1, 0xAF, 0xB0, 0x102, 0x103, 0x110, 0x111, 0x128, 0x129,
      0x168, 0x169, 0x1A0, 0x1A1, 0x1AF, 0x1B0].contains n

/-- The capitals that `ToLowerVietnamese` leaves to the C library. -/
def leftToLibrary : WText := [0x128, 0x168]

/-- A known unit has an ASCII case or is Vietnamese, small or capital. -/
lemma known_cases {ch : UInt16} (h : known ch = true) :
    hasAsciiCase ch = true ∨ isSmallViet ch = true ∨ isCapitalViet ch = true := by
  simp only [known, Bool.or_eq_true, decide_eq_true_eq] at h
  obtain ((h | h) | h) | h := h
  · exact .inl (by simp [hasAsciiCase, UInt16.lt_iff_toNat_lt, h])
  · by_cases hsmall : 0xE0 ≤ ch.toNat
    · exact .inr (.inl (by simp [isSmallViet, UInt16.le_iff_toNat_le, ← UInt16.toNat_inj]; omega))
    · exact .inr (.inr (by simp [isCapitalViet, UInt16.le_iff_toNat_le, ← UInt16.toNat_inj]; omega))
  · by_cases hsmall : ch.toNat % 2 = 1
    · exact .inr (.inl (by simp [isSmallViet, UInt16.le_iff_toNat_le, hsmall, h]))
    · exact .inr (.inr (by simp [isCapitalViet, UInt16.le_iff_toNat_le, h]; omega))
  · have hnamed : ∀ n ∈ [0x300, 0x301, 0x303, 0x309, 0x323, 0xA0, 0xA1, 0xAF, 0xB0, 0x102, 0x103, 0x110,
        0x111, 0x128, 0x129, 0x168, 0x169, 0x1A0, 0x1A1, 0x1AF, 0x1B0], hasAsciiCase (.ofNat n) = true ∨
          isSmallViet (.ofNat n) = true ∨ isCapitalViet (.ofNat n) = true := by
      decide
    simpa using hnamed ch.toNat (by simpa using h)

/-- Either way something. -/
lemma ite_some_ne_none {p : Prop} [Decidable p] {ch : UInt16} {o : Option UInt16} (h : ¬p → o ≠ none) :
    (if p then some ch else o) ≠ none := by
  split
  · exact Option.some_ne_none _
  · next hp => exact h hp

/-- Every small Vietnamese letter has an upper case by name. -/
lemma namedUpper_small {ch : UInt16} (h : isSmallViet ch = true) : namedUpper ch ≠ none := by
  simp only [isSmallViet, Bool.or_eq_true, decide_eq_true_eq, List.contains_eq_mem] at h
  unfold namedUpper
  iterate 8 refine ite_some_ne_none fun _ => ?_
  rw [if_pos (by grind)]
  split <;> exact Option.some_ne_none _

/-- Every capital has a lower case by name, but for those left to the library. -/
lemma namedLower_capital {ch : UInt16} (h : isCapitalViet ch = true) (hch : ch ∉ leftToLibrary) :
    namedLower ch ≠ none := by
  simp only [isCapitalViet, Bool.or_eq_true, decide_eq_true_eq, List.contains_eq_mem] at h
  simp only [leftToLibrary] at hch
  unfold namedLower
  iterate 6 refine ite_some_ne_none fun _ => ?_
  rw [if_pos (by grind)]
  exact Option.some_ne_none _

section Locale

variable [WideChars] {ch : UInt16}

/-- The upper case of a known unit does not depend on the library. -/
lemma ToUpperVietnamese_known (h : known ch = true) :
    ToUpperVietnamese ch = @ToUpperVietnamese .ascii ch := by
  unfold ToUpperVietnamese
  cases hname : namedUpper ch with
  | some up => rfl
  | none =>
    obtain h | h | h := known_cases h
    · exact WideChars.towupper_eq ch h
    · exact absurd hname (namedUpper_small h)
    · exact (WideChars.towupper_capitalViet ch h).trans (WideChars.ascii.towupper_capitalViet ch h).symm

/-- Nor does the lower case, but for those left to the library. -/
lemma ToLowerVietnamese_known (h : known ch = true) (hch : ch ∉ leftToLibrary) :
    ToLowerVietnamese ch = @ToLowerVietnamese .ascii ch := by
  unfold ToLowerVietnamese
  cases hname : namedLower ch with
  | some low => rfl
  | none =>
    obtain h | h | h := known_cases h
    · exact WideChars.towlower_eq ch h
    · exact (WideCase.towlower_small ch h).trans (WideCase.ascii.towlower_small ch h).symm
    · exact absurd hname (namedLower_capital h hch)

end Locale

/-- What the case conversions make of ASCII characters, marks and the other units that are no letter. -/
lemma ascii_case : ∀ n ∈ List.range 0x80 ++ [0x300, 0x301, 0x303, 0x309, 0x323, 0xA0, 0xA1, 0xAF, 0xB0],
    let ch := UInt16.ofNat n
    (known ch = true ∧ ch ∉ leftToLibrary) ∧
    (ch < 0x80 → @ToUpperVietnamese .ascii ch < 0x80 ∧ @ToLowerVietnamese .ascii ch < 0x80) ∧
      if IsAlpha ch then @ToUpperVietnamese .ascii ch ≠ @ToLowerVietnamese .ascii ch
      else @ToUpperVietnamese .ascii ch = ch ∧ @ToLowerVietnamese .ascii ch = ch := by
  decide +kernel

/-- The units with an ASCII case are listed. -/
lemma hasAsciiCase_mem {ch : UInt16} (h : hasAsciiCase ch = true) :
    ch.toNat ∈ List.range 0x80 ++ [0x300, 0x301, 0x303, 0x309, 0x323, 0xA0, 0xA1, 0xAF, 0xB0] := by
  simp only [hasAsciiCase, IsCombiningMark, Bool.or_eq_true, decide_eq_true_eq, beq_iff_eq,
    List.contains_eq_mem, List.mem_cons, List.not_mem_nil, or_false, UInt16.lt_iff_toNat_lt,
    ← UInt16.toNat_inj, UInt16.reduceToNat] at h
  simp only [List.mem_append, List.mem_range, List.mem_cons, List.not_mem_nil, or_false]
  omega

/-- A unit with an ASCII case is known. -/
lemma known_of_hasAsciiCase {ch : UInt16} (h : hasAsciiCase ch = true) :
    known ch = true ∧ ch ∉ leftToLibrary := by
  simpa only [UInt16.ofNat_toNat] using (ascii_case _ (hasAsciiCase_mem h)).1

/-- A letter beyond ASCII is one for `IsAlpha`. -/
lemma alpha_of_small {ch : UInt16} (h : isSmallViet ch = true) : IsAlpha ch = true := by
  simp only [isSmallViet, Bool.or_eq_true, decide_eq_true_eq, List.contains_eq_mem] at h
  simp only [IsAlpha, Bool.or_eq_true, decide_eq_true_eq]
  obtain (⟨hge, hle, -⟩ | h) | ⟨hge, hle, -⟩ := h
  · exact .inl (.inr (by grind))
  · have hrange : ∀ c ∈ [0x103, 0x111, 0x129, 0x169, 0x1A1, 0x1B0], 0xC0 ≤ c ∧ c ≤ (0x24F : UInt16) :=
      List.all_iff_forall_prop.1 (by decide)
    exact .inl (.inr (hrange ch h))
  · exact .inr ⟨hge, hle⟩

/-- A capital is a letter. -/
lemma alpha_of_capital {ch : UInt16} (h : isCapitalViet ch = true) : IsAlpha ch = true := by
  simp only [isCapitalViet, Bool.or_eq_true, decide_eq_true_eq, List.contains_eq_mem] at h
  simp only [IsAlpha, Bool.or_eq_true, decide_eq_true_eq]
  obtain (⟨hge, hle, -⟩ | h) | ⟨hge, hle, -⟩ := h
  · exact .inl (.inr (by grind))
  · have hrange : ∀ c ∈ [0x102, 0x110, 0x128, 0x168, 0x1A0, 0x1AF], 0xC0 ≤ c ∧ c ≤ (0x24F : UInt16) :=
      List.all_iff_forall_prop.1 (by decide)
    exact .inl (.inr (hrange ch h))
  · exact .inr ⟨hge, hle⟩

/-- A combining mark is no letter. -/
lemma mark_not_alpha {ch : UInt16} (h : IsCombiningMark ch = true) : IsAlpha ch = false := by
  simp only [IsCombiningMark, Bool.or_eq_true, beq_iff_eq, or_assoc] at h
  obtain rfl | rfl | rfl | rfl | rfl := h <;> rfl

/-- A known unit that is no letter has an ASCII case. -/
lemma hasAsciiCase_of_not_alpha {ch : UInt16} (h : known ch = true) (hno : IsAlpha ch = false) :
    hasAsciiCase ch = true := by
  obtain h | h | h := known_cases h
  · exact h
  · simp [alpha_of_small h] at hno
  · simp [alpha_of_capital h] at hno

section Locale

variable [WideChars] {ch : UInt16}

/-- In every locale. -/
lemma case_of_hasAsciiCase (h : hasAsciiCase ch = true) :
    (ch < 0x80 → ToUpperVietnamese ch < 0x80 ∧ ToLowerVietnamese ch < 0x80) ∧
      if IsAlpha ch then ToUpperVietnamese ch ≠ ToLowerVietnamese ch
      else ToUpperVietnamese ch = ch ∧ ToLowerVietnamese ch = ch := by
  obtain ⟨hknown, hleft⟩ := known_of_hasAsciiCase h
  rw [ToUpperVietnamese_known hknown, ToLowerVietnamese_known hknown hleft]
  simpa only [UInt16.ofNat_toNat] using (ascii_case _ (hasAsciiCase_mem h)).2

/-- What is no letter has no case. -/
lemma case_of_not_alpha (h : known ch = true) (hno : IsAlpha ch = false) :
    ToUpperVietnamese ch = ch ∧ ToLowerVietnamese ch = ch := by
  have hcase := (case_of_hasAsciiCase (hasAsciiCase_of_not_alpha h hno)).2
  rwa [hno] at hcase

end Locale

section Bare

/-- The rows of the diacritics have known letters, a letter beyond ASCII is mapped to an ASCII letter,
    and every letter of the tables is mapped. -/
lemma diacritics_checked :
    (∀ e ∈ kTonedVowel.zip rowBase,
      (e.1.all fun c => known (unitOf c)) = true ∧ hasAsciiCase e.2 = true) ∧
    ((@diacriticsWrites .ascii).all fun e =>
      decide ((0x80 ≤ e.1 ∧ IsAlpha e.1 = true) ∧ e.2 < 0x80 ∧ IsAlpha e.2 = true)) = true ∧
    (letters.all fun n =>
      (NatSet.ofList ((@diacriticsWrites .ascii).map fun e => e.1.toNat)).testBit n) = true := by
  decide +kernel

/-- What is written into the map does not depend on the locale. -/
lemma diacriticsWrites_eq [WideChars] : diacriticsWrites = @diacriticsWrites .ascii := by
  unfold diacriticsWrites
  congr 1
  refine List.flatMap_congr fun e he => List.flatMap_congr fun c hc => ?_
  obtain ⟨hrow, hbase⟩ := diacritics_checked.1 e he
  rw [ToUpperVietnamese_known (List.all_eq_true.1 hrow c hc), WideChars.towupper_eq _ hbase]

/-- The bare letter does not depend on the library. -/
lemma bare_eq [WideChars] (ch : UInt16) : bare ch = @bare .ascii ch := by
  unfold bare GetDiacriticsMap
  rw [diacriticsWrites_eq]

/-- The table of the diacritics leads from letters beyond ASCII to ASCII letters. -/
lemma diacriticsWrites_letters : ∀ e ∈ @diacriticsWrites .ascii,
    (0x80 ≤ e.1 ∧ IsAlpha e.1 = true) ∧ e.2 < 0x80 ∧ IsAlpha e.2 = true :=
  List.all_iff_forall_prop.1 diacritics_checked.2.1

/-- The bare letter is the unit itself or an ASCII letter. -/
lemma bare_cases [WideChars] (ch : UInt16) :
    bare ch = ch ∨ (0x80 ≤ ch ∧ IsAlpha ch = true) ∧ bare ch < 0x80 ∧ IsAlpha (bare ch) = true := by
  rw [bare_eq]
  unfold bare GetDiacriticsMap
  cases h : (@diacriticsWrites .ascii).reverse.lookup ch with
  | none => exact .inl rfl
  | some base => exact .inr (diacriticsWrites_letters _ (List.mem_reverse.1 (mem_of_lookup_eq_some h)))

/-- The bare letter of a known unit is known. -/
lemma known_bare [WideChars] {ch : UInt16} (h : known ch = true) (hleft : ch ∉ leftToLibrary) :
    known (bare ch) = true ∧ bare ch ∉ leftToLibrary := by
  obtain hsame | ⟨-, hlt, -⟩ := bare_cases ch
  · rw [hsame]
    exact ⟨h, hleft⟩
  · exact known_of_hasAsciiCase (by simp [hasAsciiCase, hlt])

/-- Every letter of the tables has a base letter. -/
lemma bare_letter [WideChars] {ch : UInt16} (h : ch.toNat ∈ letters) :
    bare ch < 0x80 ∧ IsAlpha (bare ch) = true := by
  have hkey := NatSet.testBit_ofList.1 (List.all_eq_true.1 diacritics_checked.2.2 _ h)
  obtain ⟨e, he, hch⟩ := List.mem_map.1 hkey
  rw [bare_eq]
  unfold bare GetDiacriticsMap
  cases hlook : (@diacriticsWrites .ascii).reverse.lookup ch with
  | none =>
    have := List.lookup_eq_none_iff.1 hlook e (List.mem_reverse.2 he)
    simp [UInt16.toNat_inj.1 hch] at this
  | some base => exact (diacriticsWrites_letters _ (List.mem_reverse.1 (mem_of_lookup_eq_some hlook))).2

end Bare

/-- A letter whose first unit is none: in Compound the toned letters of `ă`, `ơ` and `ư`, of whose base
    the table keeps the low byte. -/
def lost (ch : UInt16) (code : EncodedChar) : Bool := IsAlpha ch && !IsAlpha code.primary

/-- The letters that lose their mark where their only unit does. -/
def bareUnits : CodeTable → WText
  | .VNIWindows => [0x1A0, 0x1A1, 0xCD, 0xED, 0xCC, 0xEC]
  | .UnicodeCompound =>
    [0xC2, 0xE2, 0x102, 0x103, 0xCA, 0xEA, 0xD4, 0xF4, 0x1A0, 0x1A1, 0x1AF, 0x1B0, 0x110, 0x111]
  | .VietnameseLocale => [0xC2, 0xE2, 0x102, 0x103, 0xCA, 0xEA, 0xD4, 0xF4, 0x1A0, 0x1A1]
  | _ => []

/-- The capitals of the units of a letter are the units of its capital. In CP1258 the marks `0xEC` (acute)
    and `0xF2` (dot) have capitals, and those are other marks. -/
def keptUpper (table : CodeTable) (ch : UInt16) (code : EncodedChar) : Bool :=
  match table with
  | .VietnameseLocale => !([some 0xEC, some 0xF2].contains code.secondary)
  | _ => !(lost ch code && isSmallViet ch)

/-- The small units of a letter are the units of its small letter. In CP1258 the marks `0xCC` (grave),
    `0xD2` (hook) and `0xDE` (tilde) are capitals of something else; elsewhere `Ĩ` and `Ũ` have small
    units, whatever the C library knows of them. -/
def keptLower [WideCase] (table : CodeTable) (ch : UInt16) (code : EncodedChar) : Bool :=
  match table with
  | .VietnameseLocale => !([some 0xCC, some 0xD2, some 0xDE].contains code.secondary)
  | _ =>
    !(lost ch code && isCapitalViet ch) &&
      (!(leftToLibrary.contains ch) || WideCase.towlower ch == ch + 1)

/-- The same where only what starts a sentence or word is made a capital; `unitStart` tells whether one
    starts for the loop over the units. -/
def keptCapital [WideCase] (table : CodeTable) (unitStart start : Bool) (ch : UInt16)
    (code : EncodedChar) : Bool :=
  match table with
  | .VNIWindows => if start then code.secondary.isNone else keptLower table ch code
  | .UnicodeCompound =>
    if lost ch code then start == isCapitalViet ch
    else
      (unitStart == start || !IsAlpha ch || leftToLibrary.contains ch && WideCase.towlower ch == ch) &&
        (unitStart || keptLower table ch code)
  | _ => keptLower table ch code

/-- A code with its units mapped. -/
def cased (f g : UInt16 → UInt16) (code : EncodedChar) : WText :=
  f code.primary :: code.secondary.toList.map g

/-- The letters of the tables are beyond ASCII. -/
lemma letters_beyond_ascii : ∀ n ∈ letters, 0x80 ≤ UInt16.ofNat n := by
  intro n hn
  have hkeys : (forwardMap .VNIWindows).map Prod.fst = letters := keys_forwardMap (by decide)
  rw [← hkeys] at hn
  obtain ⟨e, he, rfl⟩ := List.mem_map.1 hn
  exact beyond_ascii _ (.head _) e he

section Ascii

attribute [local instance] WideChars.ascii

/-- No ASCII unit is the second of a pair. -/
lemma completes_ascii {table : CodeTable} (htable : table ∈ pairTables) {v : UInt16} (hv : v < 0x80) :
    completes table v = false := by
  have hall : ∀ table ∈ pairTables, ∀ n ∈ List.range 0x80, completes table (.ofNat n) = false := by
    decide +kernel
  simpa using hall table htable v.toNat (List.mem_range.2 hv)

/-- A letter of one unit loses its mark with the unit, or no case makes the unit without its mark the
    base of the letter. A letter of two units is not among those of `bareUnits`. -/
def bareUnit (table : CodeTable) (ch : UInt16) (code : EncodedChar) : Bool :=
  if code.secondary.isSome then decide (ch ∉ bareUnits table)
  else if ch ∈ bareUnits table then bare code.primary == bare ch
  else
    [id, ToUpperVietnamese, ToLowerVietnamese].all fun f =>
      [id, ToUpperVietnamese, ToLowerVietnamese].all fun g => f (bare code.primary) != g (bare ch)

/-- What is checked of the units of a letter. -/
@[mk_iff]
structure CheckedCode (table : CodeTable) (ch : UInt16) (code : EncodedChar) : Prop where
  /-- The units are known, and so are their small letters. -/
  known : known ch = true ∧ (code.units.all fun v => known v && !leftToLibrary.contains v) = true
  /-- A letter starts with a letter, or is lost and has a mark; what follows is a letter or a mark. -/
  shape : IsAlpha ch = true ∧ (IsAlpha code.primary = true ∨ endsSentence code.primary = false ∧
      code.secondary.any IsCombiningMark = true) ∧
    (code.secondary.all fun v => (IsAlpha v || IsCombiningMark v) && !endsSentence v) = true
  /-- The tables of bytes start every letter with one. -/
  primary : table = .UnicodeCompound ∨ IsAlpha code.primary = true
  /-- The first unit completes no pair, nor does it in another case. -/
  start : completes table code.primary = false ∧
    completes table (ToUpperVietnamese code.primary) = false ∧
    completes table (ToLowerVietnamese code.primary) = false
  bare : bareUnit table ch code = true

instance (table : CodeTable) (ch : UInt16) (code : EncodedChar) : Decidable (CheckedCode table ch code) :=
  decidable_of_iff _ (checkedCode_iff table ch code).symm

/-- Every code of the tables is checked. -/
lemma units_checked : ∀ table ∈ pairTables, ∀ e ∈ forwardMap table,
    CheckedCode table (.ofNat e.1) (decodeValue table e.2) := by
  decide +kernel

/-- The maps are written in twos, a capital and its small letter. What becomes of the units of either is
    the units of the one or the other exactly for the letters that are kept. -/
lemma twos_recased : ∀ table ∈ pairTables, (forwardMap table).length % 2 = 0 ∧
    ∀ p ∈ (forwardMap table).twos,
    let capital := UInt16.ofNat p.1.1
    let small := UInt16.ofNat p.2.1
    let upper := decodeValue table p.1.2
    let lower := decodeValue table p.2.2
    (isCapitalViet capital = true ∧ isCapitalViet small = false ∧
      ToUpperVietnamese capital = capital ∧ ToUpperVietnamese small = capital ∧
      ToLowerVietnamese small = small ∧
      (capital ∉ leftToLibrary → ToLowerVietnamese capital = small)) ∧
    ∀ q ∈ [(capital, upper), (small, lower)],
      (upper.units = cased ToUpperVietnamese ToUpperVietnamese q.2 ↔ keptUpper table q.1 q.2 = true) ∧
      (upper.units = cased ToUpperVietnamese ToLowerVietnamese q.2 ↔
        keptCapital table true true q.1 q.2 = true) ∧
      (q.1 ∉ leftToLibrary →
        (lower.units = cased ToLowerVietnamese ToLowerVietnamese q.2 ↔
          keptLower table q.1 q.2 = true)) := by
  decide +kernel

/-- A letter is a capital or a small letter of the maps, and the other one is one of them too. -/
lemma exists_twin_ascii {table : CodeTable} (htable : table ∈ pairTables) {ch : UInt16}
    (h : ch.toNat ∈ letters) :
    ∃ capital small : UInt16, (capital.toNat ∈ letters ∧ small.toNat ∈ letters) ∧
      (isCapitalViet capital = true ∧ isCapitalViet small = false) ∧ (ch = capital ∨ ch = small) ∧
      @ToUpperVietnamese .ascii ch = capital ∧ (ch ∉ leftToLibrary → @ToLowerVietnamese .ascii ch = small) ∧
      ((ConvertChar capital table).units =
          cased (@ToUpperVietnamese .ascii) (@ToUpperVietnamese .ascii) (ConvertChar ch table) ↔
        keptUpper table ch (ConvertChar ch table) = true) ∧
      ((ConvertChar capital table).units =
          cased (@ToUpperVietnamese .ascii) (@ToLowerVietnamese .ascii) (ConvertChar ch table) ↔
        @keptCapital .ascii table true true ch (ConvertChar ch table) = true) ∧
      (ch ∉ leftToLibrary →
        ((ConvertChar small table).units =
            cased (@ToLowerVietnamese .ascii) (@ToLowerVietnamese .ascii) (ConvertChar ch table) ↔
          @keptLower .ascii table ch (ConvertChar ch table) = true)) := by
  have hkeys := keys_forwardMap (ne_Unicode htable)
  rw [← hkeys] at h
  obtain ⟨⟨n, value⟩, hmem, hn⟩ := List.mem_map.1 h
  obtain ⟨heven, htwos⟩ := twos_recased table htable
  obtain ⟨p, hp, hwhich⟩ := List.exists_mem_twos hmem heven
  obtain ⟨hupper, hlower⟩ := List.mem_of_mem_twos hp
  obtain ⟨⟨hcapital, hnot, hupcap, hupsmall, hlowsmall, hlowcap⟩, hcodes⟩ := htwos p hp
  have hcap := ConvertChar_entry htable (mem_forwardMap htable hupper)
  have hsmall := ConvertChar_entry htable (mem_forwardMap htable hlower)
  have hletter : ∀ e ∈ forwardMap table, (UInt16.ofNat e.1).toNat ∈ letters := by
    intro e he
    rw [← hkeys]
    exact List.mem_map_of_mem (mem_forwardMap htable he)
  have hch : ch = UInt16.ofNat n := by
    rw [show n = ch.toNat from hn, UInt16.ofNat_toNat]
  refine ⟨.ofNat p.1.1, .ofNat p.2.1, ⟨hletter _ hupper, hletter _ hlower⟩,
    ⟨hcapital, hnot⟩, ?_⟩
  rw [hcap, hsmall]
  obtain h | h := hwhich
  · obtain rfl : ch = .ofNat p.1.1 := by rw [hch, ← h]
    rw [hcap]
    exact ⟨.inl rfl, hupcap, hlowcap, hcodes _ (.head _)⟩
  · obtain rfl : ch = .ofNat p.2.1 := by rw [hch, ← h]
    rw [hsmall]
    exact ⟨.inr rfl, hupsmall, fun _ => hlowsmall, hcodes _ (.tail _ (.head _))⟩

end Ascii

/-- `Ĩ` and `Ũ` are letters of which no case is named, and what is read of their small units. -/
lemma read_left : ∀ ch ∈ leftToLibrary,
    (ch.toNat ∈ letters ∧ namedLower ch = none ∧ namedUpper ch = none) ∧ ∀ table ∈ pairTables,
    let code := ConvertChar ch table
    let read := PairCode.decode (readPair table) (readSingle table)
      (cased (@ToLowerVietnamese .ascii) (@ToLowerVietnamese .ascii) code)
    if table = .VietnameseLocale then code.secondary = some 0xDE ∧ read.length = 2
    else lost ch code = false ∧ read = [ch + 1] :=
  List.all_iff_forall_prop.1 (by decide +kernel)

/-- `Ĩ` and `Ũ` are not lost. -/
lemma not_left_of_lost {ch : UInt16} (hlost : lost ch (ConvertChar ch .UnicodeCompound) = true) :
    ch ∉ leftToLibrary := by
  intro hmem
  have hread := ((read_left ch hmem).2 .UnicodeCompound (by decide)).1
  rw [hlost] at hread
  cases hread

section Letters

variable {table : CodeTable} {ch : UInt16}

/-- What is checked of every entry of a map holds of every letter and its code. -/
lemma letter_checked (htable : table ∈ pairTables) (h : ch.toNat ∈ letters) :
    CheckedCode table ch (ConvertChar ch table) := by
  obtain ⟨value, hmem, hcode⟩ | ⟨hno, -⟩ := ConvertChar_cases ch table
  · rw [hcode]
    simpa using units_checked table htable _ hmem
  · rw [keys_forwardMap (ne_Unicode htable)] at hno
    exact absurd h hno

/-- A letter of the tables and its units are known. -/
lemma letter_known (htable : table ∈ pairTables) (h : ch.toNat ∈ letters) :
    known ch = true ∧
      ∀ v ∈ (ConvertChar ch table).units, known v = true ∧ v ∉ leftToLibrary := by
  obtain ⟨hch, hunits⟩ := (letter_checked htable h).known
  refine ⟨hch, fun v hv => ?_⟩
  simpa using List.all_eq_true.1 hunits v hv

/-- Only Compound loses a letter. -/
lemma not_lost (htable : table ∈ pairTables) (h : ch.toNat ∈ letters) (hne : table ≠ .UnicodeCompound) :
    lost ch (ConvertChar ch table) = false := by
  have halpha := (letter_checked htable h).primary.resolve_left hne
  simp [lost, halpha]

/-- Two ways to map the units of a letter that agree on every known unit. -/
lemma cased_congr (htable : table ∈ pairTables) (h : ch.toNat ∈ letters) {f f' g g' : UInt16 → UInt16}
    (hf : ∀ v, known v = true → v ∉ leftToLibrary → f v = f' v)
    (hg : ∀ v, known v = true → v ∉ leftToLibrary → g v = g' v) :
    cased f g (ConvertChar ch table) = cased f' g' (ConvertChar ch table) := by
  obtain ⟨-, hunits⟩ := letter_known htable h
  unfold cased
  congr 1
  · obtain ⟨hknown, hleft⟩ := hunits _ (.head _)
    exact hf _ hknown hleft
  · refine List.map_congr_left fun v hv => ?_
    obtain ⟨hknown, hleft⟩ := hunits _ (.tail _ hv)
    exact hg _ hknown hleft

/-- At the start of a sentence or word no letter is left to the C library. -/
lemma keptCapital_start [WideCase] (htable : table ∈ pairTables) (code : EncodedChar) :
    keptCapital table true true ch code = @keptCapital .ascii table true true ch code := by
  simp only [pairTables, List.mem_cons, List.not_mem_nil, or_false] at htable
  obtain rfl | rfl | rfl := htable
  · rfl
  · simp [keptCapital]
  · rfl

variable [WideChars]

/-- Whether the lower case is kept does not depend on the library. -/
lemma keptLower_ascii (hch : ch ∉ leftToLibrary) (code : EncodedChar) :
    keptLower table ch code = @keptLower .ascii table ch code := by
  have hno : leftToLibrary.contains ch = false := by simpa using hch
  unfold keptLower
  rw [hno]
  rfl

/-- A letter is a capital or a small letter of the maps, and the other one is one of them too. Whether
    the units of the letter become those of the one or the other is told by `keptUpper`, `keptCapital`
    and `keptLower`. -/
lemma exists_twin (htable : table ∈ pairTables) (h : ch.toNat ∈ letters) :
    ∃ capital small : UInt16, (capital.toNat ∈ letters ∧ small.toNat ∈ letters) ∧
      (isCapitalViet capital = true ∧ isCapitalViet small = false) ∧ (ch = capital ∨ ch = small) ∧
      ToUpperVietnamese ch = capital ∧ (ch ∉ leftToLibrary → ToLowerVietnamese ch = small) ∧
      ((ConvertChar capital table).units =
          cased ToUpperVietnamese ToUpperVietnamese (ConvertChar ch table) ↔
        keptUpper table ch (ConvertChar ch table) = true) ∧
      ((ConvertChar capital table).units =
          cased ToUpperVietnamese ToLowerVietnamese (ConvertChar ch table) ↔
        keptCapital table true true ch (ConvertChar ch table) = true) ∧
      (ch ∉ leftToLibrary →
        ((ConvertChar small table).units =
            cased ToLowerVietnamese ToLowerVietnamese (ConvertChar ch table) ↔
          keptLower table ch (ConvertChar ch table) = true)) := by
  have hup := fun (v : UInt16) (hv : known v = true) (_ : v ∉ leftToLibrary) => ToUpperVietnamese_known hv
  have hlow := fun (v : UInt16) (hv : known v = true) (hl : v ∉ leftToLibrary) =>
    ToLowerVietnamese_known hv hl
  obtain ⟨hknown, -⟩ := letter_known htable h
  obtain ⟨capital, small, hletters, hcapital, hwhich, hu, hl, hrest⟩ := exists_twin_ascii htable h
  refine ⟨capital, small, hletters, hcapital, hwhich, (ToUpperVietnamese_known hknown).trans hu,
    fun hch => (ToLowerVietnamese_known hknown hch).trans (hl hch), ?_⟩
  rw [cased_congr htable h hup hup, cased_congr htable h hup hlow, cased_congr htable h hlow hlow,
    keptCapital_start htable]
  refine ⟨hrest.1, hrest.2.1, fun hch => ?_⟩
  rw [keptLower_ascii hch]
  exact hrest.2.2 hch

omit [WideChars] in
/-- The code of a letter is a unit, or a pair that is read as one. -/
lemma letter_shape (htable : table ∈ pairTables) (h : ch.toNat ∈ letters) :
    let code := ConvertChar ch table
    IsAlpha ch = true ∧ (IsAlpha code.primary = true ∨ endsSentence code.primary = false ∧
        code.secondary.any IsCombiningMark = true) ∧
      ∀ v ∈ code.secondary, (IsAlpha v = true ∨ IsCombiningMark v = true) ∧ endsSentence v = false := by
  obtain ⟨halpha, hfirst, hsecond⟩ := (letter_checked htable h).shape
  refine ⟨halpha, hfirst, fun v hv => ?_⟩
  simpa using (Option.all_eq_true _ _).1 hsecond v hv

/-- What becomes of a known character in one of the cases does not depend on the locale. -/
lemma exists_case_ascii {u : UInt16} (hu : known u = true) (hleft : u ∉ leftToLibrary)
    {f : UInt16 → UInt16} (hf : f ∈ [id, ToUpperVietnamese, ToLowerVietnamese]) :
    ∃ f' ∈ [id, @ToUpperVietnamese .ascii, @ToLowerVietnamese .ascii], f u = f' u := by
  simp only [List.mem_cons, List.not_mem_nil, or_false] at hf
  obtain rfl | rfl | rfl := hf
  · exact ⟨_, .head _, rfl⟩
  · exact ⟨_, .tail _ (.head _), ToUpperVietnamese_known hu⟩
  · exact ⟨_, .tail _ (.tail _ (.head _)), ToLowerVietnamese_known hu hleft⟩

/-- A letter of `bareUnits` is written as one unit, which loses its mark with the letter. -/
lemma bareUnits_spec (htable : table ∈ pairTables) (h : ch.toNat ∈ letters) (hch : ch ∈ bareUnits table) :
    (ConvertChar ch table).secondary = none ∧ bare (ConvertChar ch table).primary = bare ch := by
  have hbare := (letter_checked htable h).bare
  unfold bareUnit at hbare
  split at hbare
  · exact absurd hch (of_decide_eq_true hbare)
  · next hone =>
    refine ⟨by simpa using hone, ?_⟩
    rw [bare_eq, bare_eq]
    exact beq_iff_eq.1 hbare

/-- Another letter of one unit becomes with it no base letter in any case. -/
lemma bare_ne_of_single (htable : table ∈ pairTables) (h : ch.toNat ∈ letters)
    (hch : ch ∉ bareUnits table) (hone : (ConvertChar ch table).secondary = none) {f g : UInt16 → UInt16}
    (hf : f ∈ [id, ToUpperVietnamese, ToLowerVietnamese])
    (hg : g ∈ [id, ToUpperVietnamese, ToLowerVietnamese]) :
    f (bare (ConvertChar ch table).primary) ≠ g (bare ch) := by
  have hbare := (letter_checked htable h).bare
  unfold bareUnit at hbare
  rw [hone, if_neg (by simp), if_neg hch, ← bare_eq, ← bare_eq] at hbare
  obtain ⟨hknown, hleft⟩ := (letter_known htable h).2 _ (.head _)
  obtain ⟨f', hf', hfu⟩ := exists_case_ascii (known_bare hknown hleft).1 (known_bare hknown hleft).2 hf
  have hascii : hasAsciiCase (bare ch) = true := by simp [hasAsciiCase, (bare_letter h).1]
  obtain ⟨hbase, hbaseLeft⟩ := known_of_hasAsciiCase hascii
  obtain ⟨g', hg', hgu⟩ := exists_case_ascii hbase hbaseLeft hg
  rw [hfu, hgu]
  exact bne_iff_ne.1 (List.all_eq_true.1 (List.all_eq_true.1 hbare f' hf') g' hg')

/-- The first unit of a letter completes no pair in any case. -/
lemma letter_start (htable : table ∈ pairTables) (h : ch.toNat ∈ letters) :
    let u := (ConvertChar ch table).primary
    completes table u = false ∧ completes table (ToUpperVietnamese u) = false ∧
      completes table (ToLowerVietnamese u) = false := by
  obtain ⟨hknown, hleft⟩ := (letter_known htable h).2 _ (.head _)
  intro u
  rw [ToUpperVietnamese_known hknown, ToLowerVietnamese_known hknown hleft]
  exact (letter_checked htable h).start

omit [WideChars] in
/-- What is written as one unit, and not lost, is kept whatever happens to it. -/
lemma kept_of_single [WideCase] (htable : table ∈ pairTables) {code : EncodedChar}
    (hone : code.secondary = none) (hlost : lost ch code = false) :
    keptUpper table ch code = true ∧ keptCapital table true true ch code = true ∧
      (ch ∉ leftToLibrary → keptLower table ch code = true) := by
  simp only [pairTables, List.mem_cons, List.not_mem_nil, or_false] at htable
  obtain rfl | rfl | rfl := htable
  · refine ⟨by simp [keptUpper, hlost], by simp [keptCapital, hone], fun hch => ?_⟩
    simp [keptLower, hlost, hch]
  · refine ⟨by simp [keptUpper, hlost], by simp [keptCapital, hlost], fun hch => ?_⟩
    simp [keptLower, hlost, hch]
  · refine ⟨?_, ?_, fun _ => ?_⟩ <;> simp [keptUpper, keptCapital, keptLower, hone]

omit [WideChars] in
/-- A letter of one unit is not lost. -/
lemma not_lost_of_single (htable : table ∈ pairTables) (h : ch.toNat ∈ letters)
    (hone : (ConvertChar ch table).secondary = none) : lost ch (ConvertChar ch table) = false := by
  obtain ⟨-, halpha | ⟨-, hmark⟩, -⟩ := letter_shape htable h
  · simp [lost, halpha]
  · rw [hone] at hmark
    cases hmark

omit [WideChars] in
/-- Mapped units are read as a character when they are its units, if a letter of one unit is kept. -/
lemma read_cased_iff (htable : table ∈ pairTables) {code : EncodedChar} {f g : UInt16 → UInt16}
    {e : UInt16} (he : e.toNat ∈ letters)
    (hone : code.secondary = none → (ConvertChar e table).units = cased f g code) :
    PairCode.decode (readPair table) (readSingle table) (cased f g code) = [e] ↔
      (ConvertChar e table).units = cased f g code := by
  have hencodable : Encodable e := encodable_iff.2 (.inr he)
  cases hsec : code.secondary with
  | none =>
    have hunits := hone hsec
    rw [← hunits]
    exact iff_of_true (read_units htable hencodable) rfl
  | some v =>
    unfold cased
    rw [hsec]
    exact read_pair_iff htable hencodable

/-- The capitals of the units of a letter. -/
lemma read_upper (htable : table ∈ pairTables) (h : ch.toNat ∈ letters) :
    PairCode.decode (readPair table) (readSingle table)
        (cased ToUpperVietnamese ToUpperVietnamese (ConvertChar ch table)) = [ToUpperVietnamese ch] ↔
      keptUpper table ch (ConvertChar ch table) = true := by
  obtain ⟨capital, small, ⟨hletter, -⟩, -, -, hup, -, hunits, -⟩ := exists_twin htable h
  rw [hup, read_cased_iff htable hletter fun hone => hunits.2
    (kept_of_single htable hone (not_lost_of_single htable h hone)).1, hunits]

/-- A letter that starts a sentence or word, by its units. -/
lemma read_start (htable : table ∈ pairTables) (h : ch.toNat ∈ letters) :
    PairCode.decode (readPair table) (readSingle table)
        (cased ToUpperVietnamese ToLowerVietnamese (ConvertChar ch table)) = [ToUpperVietnamese ch] ↔
      keptCapital table true true ch (ConvertChar ch table) = true := by
  obtain ⟨capital, small, ⟨hletter, -⟩, -, -, hup, -, -, hunits, -⟩ := exists_twin htable h
  rw [hup, read_cased_iff htable hletter fun hone => hunits.2
    (kept_of_single htable hone (not_lost_of_single htable h hone)).2.1, hunits]

/-- The small units of a letter. -/
lemma read_lower (htable : table ∈ pairTables) (h : ch.toNat ∈ letters) :
    PairCode.decode (readPair table) (readSingle table)
        (cased ToLowerVietnamese ToLowerVietnamese (ConvertChar ch table)) = [ToLowerVietnamese ch] ↔
      keptLower table ch (ConvertChar ch table) = true := by
  by_cases hch : ch ∈ leftToLibrary
  · -- The letter is left to the C library, its units are not.
    have hlow : ToLowerVietnamese ch = WideCase.towlower ch := by
      rw [ToLowerVietnamese, (read_left ch hch).1.2.1]
      rfl
    have hread := (read_left ch hch).2 table htable
    have hunits := fun (v : UInt16) (hv : known v = true) (hl : v ∉ leftToLibrary) =>
      ToLowerVietnamese_known hv hl
    rw [cased_congr htable h hunits hunits, hlow]
    have hcontains : leftToLibrary.contains ch = true := by simpa using hch
    by_cases htbl : table = .VietnameseLocale
    · subst htbl
      obtain ⟨hmark, hlen⟩ := hread
      refine iff_of_false (fun heq => ?_) (by simp [keptLower, hmark])
      simp [heq] at hlen
    · obtain ⟨hlost, hsmall⟩ := (if_neg htbl).mp hread
      rw [hsmall]
      have hkept : keptLower table ch (ConvertChar ch table) = (WideCase.towlower ch == ch + 1) := by
        unfold keptLower
        rw [hlost, hcontains]
        cases table <;> first | rfl | exact absurd rfl htbl
      rw [hkept, beq_iff_eq]
      exact ⟨fun heq => (List.head_eq_of_cons_eq heq).symm, fun heq => by rw [heq]⟩
  · obtain ⟨capital, small, ⟨-, hletter⟩, -, -, -, hlow, -, -, hunits⟩ := exists_twin htable h
    rw [hlow hch, read_cased_iff htable hletter fun hone =>
      (hunits hch).2 ((kept_of_single htable hone (not_lost_of_single htable h hone)).2.2 hch),
      hunits hch]

/-- The units of a lost letter have no case. -/
lemma cased_lost (htable : table ∈ pairTables) (h : ch.toNat ∈ letters)
    (hlost : lost ch (ConvertChar ch table) = true) :
    cased ToUpperVietnamese ToLowerVietnamese (ConvertChar ch table) = (ConvertChar ch table).units := by
  obtain ⟨-, hknown⟩ := letter_known htable h
  obtain ⟨halpha, hshape, -⟩ := letter_shape htable h
  have hprimary : IsAlpha (ConvertChar ch table).primary = false := by
    simpa [lost, halpha] using hlost
  have hmark := (hshape.resolve_left (by simp [hprimary])).2
  obtain ⟨v, hv, hvmark⟩ := (Option.any_eq_true _ _).1 hmark
  have hvalpha : IsAlpha v = false := mark_not_alpha hvmark
  have hsecond : v ∈ (ConvertChar ch table).units := by
    rw [EncodedChar.units, hv]
    exact .tail _ (.head _)
  unfold cased EncodedChar.units
  rw [hv, (case_of_not_alpha (hknown _ (.head _)).1 hprimary).1]
  show _ :: [ToLowerVietnamese v] = _
  rw [(case_of_not_alpha (hknown v hsecond).1 hvalpha).2]
  rfl

/-- A letter that only the loop over the units takes for the start of a sentence. -/
lemma read_late (h : ch.toNat ∈ letters) :
    PairCode.decode (readPair .UnicodeCompound) (readSingle .UnicodeCompound)
        (cased ToUpperVietnamese ToLowerVietnamese (ConvertChar ch .UnicodeCompound)) =
          [ToLowerVietnamese ch] ↔
      keptCapital .UnicodeCompound true false ch (ConvertChar ch .UnicodeCompound) = true := by
  have htable : CodeTable.UnicodeCompound ∈ pairTables := by decide
  obtain ⟨halpha, -⟩ := letter_shape htable h
  obtain ⟨capital, small, -, ⟨hcapital, hsmall⟩, hwhich, hup, hlow, -⟩ := exists_twin htable h
  have hne : capital ≠ small := by
    rintro rfl
    simp [hcapital] at hsmall
  cases hlost : lost ch (ConvertChar ch .UnicodeCompound) with
  | true =>
    have hleft := not_left_of_lost hlost
    rw [cased_lost htable h hlost, read_units htable (encodable_iff.2 (.inr h)), hlow hleft]
    have hkept : keptCapital .UnicodeCompound true false ch (ConvertChar ch .UnicodeCompound) =
        (false == isCapitalViet ch) := by
      simp [keptCapital, hlost]
    rw [hkept]
    obtain rfl | rfl := hwhich
    · simp [hne, hcapital]
    · simp [hsmall]
  | false =>
    rw [(read_start htable h).2 (by simp [keptCapital, hlost])]
    have hkept : keptCapital .UnicodeCompound true false ch (ConvertChar ch .UnicodeCompound) =
        (leftToLibrary.contains ch && WideCase.towlower ch == ch) := by
      simp [keptCapital, hlost, halpha]
    rw [hkept]
    by_cases hleft : ch ∈ leftToLibrary
    · -- The letter is its own capital, and its small letter is what the C library says.
      obtain ⟨-, hnolow, hnoup⟩ := (read_left ch hleft).1
      have hcapital : ToUpperVietnamese ch = ch := by
        rw [ToUpperVietnamese, hnoup]
        exact WideCase.towupper_capital ch hleft
      have hlower : ToLowerVietnamese ch = WideCase.towlower ch := by
        rw [ToLowerVietnamese, hnolow]
        rfl
      rw [hcapital, hlower, List.contains_iff_mem.2 hleft, Bool.true_and, beq_iff_eq]
      exact ⟨fun heq => (List.head_eq_of_cons_eq heq).symm, fun heq => by rw [heq]⟩
    · simp [hup, hlow hleft, hleft, hne]

end Letters

end NextKey.CodeTableConverter
