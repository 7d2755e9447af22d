import NextKey.Output.RoundTrip

/-!
# Unicode Compound against canonical decomposition

Canonical decomposition writes a toned vowel as the untoned vowel, of the same modifier and case, and
the combining mark of the tone. The compound map packs the untoned vowel and the mark in sixteen bits
and `DecodeCompound` takes the low eight for the vowel, which is too few for `ă`, `ơ` and `ư`.
-/

namespace NextKey.CodeTableConverter

/-- The combining character of a tone. -/
def combiningMark : Tone → Option UInt16
  | .acute => some 0x0301
  | .grave => some 0x0300
  | .hook => some 0x0309
  | .tilde => some 0x0303
  | .dot => some 0x0323
  | .none => none

/-- The untoned vowels (C++ `kToneBase`) as units. -/
def untonedVowels : List UInt16 := kToneBase.map unitOf

/-- The rows of the toned vowels as units. -/
def tonedRows : List (List UInt16) := kTonedVowel.map fun row => row.map unitOf

/-- The tone of a toned vowel is its column. -/
def toneOfVowel (v : UInt16) : Option Tone :=
  [Tone.acute, .grave, .hook, .tilde, .dot].find? fun tone =>
    tonedRows.any fun row => (toneIndex tone).any fun j => row[j]? == some v

section Locale

variable [WideCase]

/-- C++ `StripTone` -/
def StripTone (ch : UInt16) : UInt16 :=
  if untonedVowels.contains ch then ch
  else
    match tonedRows.findIdx? (·.contains (WideCase.towlower ch)) with
    | some i => untonedVowels.getD i ch
    | none => ch

/-- Canonical decomposition of tones: a toned vowel of either case is its untoned vowel, in the same
    case, and the mark of its tone. -/
def canonical (ch : UInt16) : WText :=
  match tonedVowels.find? fun v => v == ch || ToUpperVietnamese v == ch with
  | some v =>
    (if v = ch then StripTone v else ToUpperVietnamese (StripTone v)) ::
      ((toneOfVowel v).bind combiningMark).toList
  | none => [ch]

/-- The toned vowels on an untoned vowel. -/
def tonedOn (base : Char) : List UInt16 :=
  tonedRows.getD ((toneBaseIndex base).getD tonedRows.length) []

/-- A toned `ă`, `ơ` or `ư`, of either case. -/
def TonedWide (ch : UInt16) : Prop :=
  ∃ base ∈ ['ă', 'ơ', 'ư'], ∃ v ∈ tonedOn base, v = ch ∨ ToUpperVietnamese v = ch

end Locale

/-- The capital of a small vowel, which no locale changes. -/
def capital (ch : UInt16) : UInt16 := (namedUpper ch).getD (ch - 0x20)

/-- `StripTone` of a small toned vowel. -/
def untone (v : UInt16) : UInt16 :=
  (tonedRows.findIdx? (·.contains v)).elim v fun i => untonedVowels.getD i v

/-- The decomposition of a toned vowel or of its capital. -/
def decomposeToned (v ch : UInt16) : WText :=
  (if v = ch then untone v else capital (untone v)) :: ((toneOfVowel v).bind combiningMark).toList

/-- `canonical` by them. -/
def decompose (ch : UInt16) : WText :=
  match tonedVowels.find? fun v => v == ch || capital v == ch with
  | some v => decomposeToned v ch
  | none => [ch]

/-- `TonedWide` by the named capitals. -/
def wide (ch : UInt16) : Bool :=
  ['ă', 'ơ', 'ư'].any fun base => (tonedOn base).any fun v => v == ch || capital v == ch

/-- The compound form of a toned vowel or of its capital has as many units as the decomposition, and is
    it unless the vowel is too wide. -/
def Compounds (v ch : UInt16) : Prop :=
  (ConvertChar ch .UnicodeCompound).units.length = (decomposeToned v ch).length ∧
    ((ConvertChar ch .UnicodeCompound).units = decomposeToned v ch ↔ wide ch = false)

instance {v ch} : Decidable (Compounds v ch) := inferInstanceAs (Decidable (_ ∧ _))

/-- The toned vowels are small letters with capitals. -/
lemma tonedVowels_facts : ∀ v ∈ tonedVowels,
    isSmallViet v = true ∧ untonedVowels.contains v = false ∧ (namedUpper v).isSome ∧
      untone v ∈ untonedVowels ∧ Compounds v v ∧ Compounds v (capital v) :=
  List.all_iff_forall_prop.1 (by decide +kernel)

/-- The others are ASCII or have a capital. -/
lemma untonedVowels_facts : ∀ b ∈ untonedVowels,
    (namedUpper b).isSome ∨ namedUpper b = none ∧ 0x61 ≤ b ∧ b ≤ 0x7A :=
  List.all_iff_forall_prop.1 (by decide +kernel)

/-- The toned forms of a base are toned vowels. -/
lemma tonedOn_subset : ∀ base ∈ ['ă', 'ơ', 'ư'], tonedOn base ⊆ tonedVowels :=
  List.all_iff_forall_prop.1 (by decide +kernel)

/-- The map writes a mark for toned vowels and their capitals only. -/
lemma marked_toned : ∀ e ∈ kUnicodeCompoundMap, (DecodeCompound e.2).secondary = none ∨
    (NatSet.ofList (tonedVowels.flatMap fun v => [v.toNat, (capital v).toNat])).testBit e.1 := by
  decide +kernel

/-- Any other character is written as it is. -/
lemma ConvertChar_untoned {ch : UInt16} (h : ∀ v ∈ tonedVowels, ¬(v = ch ∨ capital v = ch)) :
    (ConvertChar ch .UnicodeCompound).units = [ch] := by
  obtain ⟨value, hmem, hcode⟩ | ⟨-, hcode⟩ := ConvertChar_cases ch .UnicodeCompound
  · replace hmem : (ch.toNat, value) ∈ kUnicodeCompoundMap := hmem
    rw [hcode]
    show (DecodeCompound value).units = [ch]
    obtain hsec | htoned := marked_toned _ hmem
    · have hprimary := (compound_entries.1 _ hmem).1 hsec
      rw [EncodedChar.units, hsec, UInt16.toNat_inj.1 hprimary]
      rfl
    · obtain ⟨v, hv, hch⟩ := List.mem_flatMap.1 (NatSet.testBit_ofList.1 htoned)
      simp only [List.mem_cons, List.not_mem_nil, or_false, UInt16.toNat_inj] at hch
      exact absurd (hch.imp Eq.symm Eq.symm) (h v hv)
  · rw [hcode]
    rfl

section Locale

variable [WideCase]

/-- The capital of a toned vowel. -/
lemma ToUpperVietnamese_toned {v} (hv : v ∈ tonedVowels) : ToUpperVietnamese v = capital v := by
  obtain ⟨-, -, hup, -⟩ := tonedVowels_facts v hv
  obtain ⟨c, hc⟩ := Option.isSome_iff_exists.1 hup
  rw [ToUpperVietnamese, capital, hc, Option.getD_some, Option.getD_some]

/-- The capital of any other vowel. -/
lemma ToUpperVietnamese_untoned {b} (hb : b ∈ untonedVowels) : ToUpperVietnamese b = capital b := by
  rw [ToUpperVietnamese, capital]
  obtain hup | ⟨hup, hge, hle⟩ := untonedVowels_facts b hb
  · obtain ⟨c, hc⟩ := Option.isSome_iff_exists.1 hup
    rw [hc, Option.getD_some, Option.getD_some]
  · rw [hup, Option.getD_none, Option.getD_none, WideCase.towupper_ascii b hge hle]

/-- A toned vowel without its tone. -/
lemma StripTone_toned {v} (hv : v ∈ tonedVowels) : StripTone v = untone v := by
  obtain ⟨hsmall, huntoned, -⟩ := tonedVowels_facts v hv
  rw [StripTone, huntoned, if_neg Bool.false_ne_true, WideCase.towlower_small v hsmall, untone]
  cases tonedRows.findIdx? (·.contains v) <;> rfl

/-- The canonical form is the decomposition. -/
lemma canonical_eq (ch : UInt16) : canonical ch = decompose ch := by
  have hfind : (tonedVowels.find? fun v => v == ch || ToUpperVietnamese v == ch) =
      tonedVowels.find? fun v => v == ch || capital v == ch :=
    List.find?_congr fun v hv => by rw [ToUpperVietnamese_toned hv]
  rw [canonical, decompose, hfind]
  cases h : tonedVowels.find? fun v => v == ch || capital v == ch with
  | none => rfl
  | some v =>
    have hv := List.mem_of_find?_eq_some h
    obtain ⟨-, -, -, huntone, -⟩ := tonedVowels_facts v hv
    simp only [decomposeToned, StripTone_toned hv, ToUpperVietnamese_untoned huntone]

/-- The toned letters on wide bases. -/
lemma tonedWide_iff (ch : UInt16) : TonedWide ch ↔ wide ch = true := by
  unfold TonedWide wide
  simp only [List.any_eq_true, Bool.or_eq_true, beq_iff_eq]
  constructor
  · rintro ⟨base, hbase, v, hv, h⟩
    rw [ToUpperVietnamese_toned (tonedOn_subset base hbase hv)] at h
    exact ⟨base, hbase, v, hv, h⟩
  · rintro ⟨base, hbase, v, hv, h⟩
    rw [← ToUpperVietnamese_toned (tonedOn_subset base hbase hv)] at h
    exact ⟨base, hbase, v, hv, h⟩

/-- One character: as many units, and the same ones unless it is too wide. -/
lemma compound_char (ch : UInt16) :
    (ConvertChar ch .UnicodeCompound).units.length = (canonical ch).length ∧
      ((ConvertChar ch .UnicodeCompound).units = canonical ch ↔ ¬TonedWide ch) := by
  rw [canonical_eq, tonedWide_iff, Bool.not_eq_true, decompose]
  cases h : tonedVowels.find? fun v => v == ch || capital v == ch with
  | some v =>
    obtain ⟨-, -, -, -, hself, hcapital⟩ := tonedVowels_facts v (List.mem_of_find?_eq_some h)
    have hch : v = ch ∨ capital v = ch := by simpa using List.find?_some h
    obtain rfl | rfl := hch
    · exact hself
    · exact hcapital
  | none =>
    have hno : ∀ v ∈ tonedVowels, ¬(v = ch ∨ capital v = ch) := by
      intro v hv
      simpa using List.find?_eq_none.1 h v hv
    have hwide : wide ch = false := by
      rw [← Bool.not_eq_true, wide]
      simp only [List.any_eq_true, Bool.or_eq_true, beq_iff_eq]
      rintro ⟨base, hbase, v, hv, h⟩
      exact hno v (tonedOn_subset base hbase hv) h
    rw [ConvertChar_untoned hno, hwide]
    exact ⟨rfl, iff_of_true rfl rfl⟩

/-- The compound form of a text is its canonical decomposition, and is read back, exactly when no
    character of the text is a toned `ă`, `ơ` or `ư`. -/
theorem EncodeString_canonical_iff (orders : MapOrders) (s : WText) :
    (EncodeString s .UnicodeCompound = s.flatMap canonical ∧
      ((∀ ch ∈ s, IsCombiningMark ch = false) →
        DecodeString orders (EncodeString s .UnicodeCompound) .UnicodeCompound = s)) ↔
      ∀ ch ∈ s, ¬TonedWide ch := by
  have hencode : EncodeString s .UnicodeCompound = s.flatMap canonical ↔ ∀ ch ∈ s, ¬TonedWide ch := by
    show (s.flatMap fun ch => (ConvertChar ch .UnicodeCompound).units) = s.flatMap canonical ↔ _
    rw [List.flatMap_inj_iff_of_length fun ch _ => (compound_char ch).1]
    exact forall₂_congr fun ch _ => (compound_char ch).2
  rw [hencode]
  exact and_iff_left fun hmark => DecodeString_EncodeString_Compound orders hmark

end Locale

section Ascii

attribute [local instance] WideCase.ascii

/-- `ắ` is written as U+0003 and the acute. -/
theorem EncodeString_not_canonical :
    ¬∀ s : WText, EncodeString s .UnicodeCompound = s.flatMap canonical ∧
      ((∀ ch ∈ s, IsCombiningMark ch = false) →
        DecodeString .written (EncodeString s .UnicodeCompound) .UnicodeCompound = s) := by
  intro h
  have hcode : EncodeString [0x1EAF] .UnicodeCompound = [0x03, 0x0301] := by decide +kernel
  have hspec : [(0x1EAF : UInt16)].flatMap canonical = [0x0103, 0x0301] := by decide +kernel
  have heq := (h [0x1EAF]).1
  rw [hcode, hspec] at heq
  exact absurd heq (by decide)

end Ascii

end NextKey.CodeTableConverter
