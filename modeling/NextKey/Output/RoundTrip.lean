import Mathlib.Data.Bool.AllAny
import Mathlib.Data.List.Dedup
import Mathlib.Data.List.Find
import NextKey.Lib.NatSet
import NextKey.Output.CodeTableStrings

/-!
# Round trips of the code tables

A string of ASCII characters and Vietnamese letters that is encoded and decoded again comes back as it
was, or, for TCVN3, with its toned capitals made small. No order of the reverse maps makes a
difference.
-/

namespace NextKey.CodeTableConverter

/-- What makes a map of one or two bytes readable: no value is an ASCII character, no two letters have
    one value, and no trailing byte starts a letter or is an ASCII character. -/
structure LoHiTable (forward : List (Nat × Nat)) : Prop where
  value : ∀ e ∈ forward, 0x80 ≤ e.2 ∧ e.2 < 0x10000
  nodup : (forward.map Prod.snd).Nodup
  trail : ∀ e ∈ forward, 0xFF < e.2 →
    0x80 ≤ e.2 / 0x100 ∧ ∀ e' ∈ forward, e'.2 % 0x100 ≠ e.2 / 0x100

/-- No two letters have the same value. -/
lemma LoHiTable.injective {forward} (ht : LoHiTable forward) {m n value} (hm : (m, value) ∈ forward)
    (hn : (n, value) ∈ forward) : m = n :=
  congrArg Prod.fst (List.inj_on_of_nodup_map ht.nodup hm hn rfl)

/-- The same, checked in one run through the map. -/
def loHiCheck (forward : List (Nat × Nat)) : Bool :=
  NatSet.distinct 0 (forward.map Prod.snd) &&
    forward.all fun e =>
      decide (0x80 ≤ e.2 ∧ e.2 < 0x10000) &&
        (decide (e.2 ≤ 0xFF) || decide (0x80 ≤ e.2 / 0x100) &&
          !(NatSet.ofList (forward.map (·.2 % 0x100))).testBit (e.2 / 0x100))

/-- The check of a table is enough. -/
lemma LoHiTable.of_check {forward} (h : loHiCheck forward = true) : LoHiTable forward := by
  rw [loHiCheck, Bool.and_eq_true, List.all_eq_true] at h
  obtain ⟨hdistinct, hall⟩ := h
  refine ⟨fun e he => ?_, NatSet.nodup_of_distinct hdistinct, fun e he hpair => ?_⟩
  · obtain ⟨hvalue, -⟩ := (Bool.and_eq_true _ _).mp (hall e he)
    exact of_decide_eq_true hvalue
  · obtain ⟨-, htrail⟩ := (Bool.and_eq_true _ _).mp (hall e he)
    rw [decide_eq_false (Nat.not_le.2 hpair), Bool.false_or, Bool.and_eq_true, Bool.not_eq_true']
      at htrail
    refine ⟨of_decide_eq_true htrail.1, fun e' he' heq => ?_⟩
    have hmem := NatSet.testBit_ofList.2 (List.mem_map_of_mem (f := (·.2 % 0x100)) he')
    rw [heq, htrail.2] at hmem
    cases hmem

/-- Both tables pass the check. -/
lemma loHiTable : LoHiTable kVniMap ∧ LoHiTable kCp1258Map :=
  ⟨.of_check (by decide +kernel), .of_check (by decide +kernel)⟩

/-- A value of one byte is one unit. -/
lemma DecodeLoHi_single {value : Nat} (h : value ≤ 0xFF) : DecodeLoHi value = ⟨.ofNat value, none⟩ :=
  if_pos h

/-- A larger value is a pair. -/
lemma DecodeLoHi_pair {value : Nat} (h : 0xFF < value) :
    DecodeLoHi value = ⟨.ofNat (value % 0x100), some (.ofNat (value / 0x100 % 0x100))⟩ :=
  if_neg (Nat.not_le.2 h)

/-- A byte fits a unit. -/
lemma toNat_ofNat_byte (n : Nat) : (UInt16.ofNat (n % 0x100)).toNat = n % 0x100 := by
  rw [UInt16.toNat_ofNat']
  omega

/-- The first unit is the low byte. -/
lemma DecodeLoHi_primary (value : Nat) : (DecodeLoHi value).primary.toNat = value % 0x100 := by
  by_cases h : value ≤ 0xFF
  · rw [DecodeLoHi_single h, ← toNat_ofNat_byte, Nat.mod_eq_of_lt (by omega)]
  · rw [DecodeLoHi_pair (by omega), toNat_ofNat_byte]

section Locale

variable {forward : List (Nat × Nat)} {code : UInt16 → EncodedChar} {s : WText}

/-- How `ConvertChar` writes a character: a letter by its value, another character as it is. -/
def CodedBy (forward : List (Nat × Nat)) (ch : UInt16) (code : EncodedChar) : Prop :=
  (∃ value, (ch.toNat, value) ∈ forward ∧ code = DecodeLoHi value) ∨
    ch.toNat ∉ forward.map Prod.fst ∧ code = ⟨ch, none⟩

/-- A letter or an ASCII character does not start with a trailing byte. -/
lemma CodedBy.primary_ne {ch : UInt16} {code : EncodedChar} (h : CodedBy forward ch code)
    (ht : LoHiTable forward) (hch : ch.toNat < 0x80 ∨ ch.toNat ∈ forward.map Prod.fst)
    {e} (he : e ∈ forward) (hpair : 0xFF < e.2) : code.primary.toNat ≠ e.2 / 0x100 := by
  obtain ⟨htrail, hdisj⟩ := ht.trail e he hpair
  rcases h with ⟨value, hmem, rfl⟩ | ⟨hno, rfl⟩
  · rw [DecodeLoHi_primary]
    exact hdisj _ hmem
  · have hlt := hch.resolve_right hno
    show ch.toNat ≠ _
    omega

variable [WideCase]

/-- So no pair of units ends where one starts. -/
lemma CodedBy.pair_none {ch : UInt16} {code : EncodedChar} (h : CodedBy forward ch code)
    (ht : LoHiTable forward) (hch : ch.toNat < 0x80 ∨ ch.toNat ∈ forward.map Prod.fst)
    (visit : Visit forward) (u : UInt16) :
    (BuildReversePairMap visit).pair (pairKey u.toNat code.primary.toNat) = none := by
  refine (filed_pair visit).eq_none fun w hw => ?_
  obtain ⟨n, value, hn, hbig, hkey, -⟩ := mem_pairEntry.1 hw
  have hlt := (ht.value _ hn).2
  have hub := code.primary.toNat_lt
  obtain ⟨-, hhi⟩ := pairKey_inj (by omega) (by omega) hkey
  exact h.primary_ne ht hch hn hbig (by simp only; omega)

/-- A letter of one byte is read back: no other letter has it. -/
lemma single_byte (ht : LoHiTable forward) (visit : Visit forward) {ch : UInt16} {value : Nat}
    (hmem : (ch.toNat, value) ∈ forward) (hle : value ≤ 0xFF) :
    (BuildReversePairMap visit).single (UInt16.ofNat value).toNat = some ch := by
  rw [UInt16.toNat_ofNat', Nat.mod_eq_of_lt (by omega)]
  apply (filed_single visit).eq_some
  · exact mem_singleEntry.2 ⟨_, hmem, hle, UInt16.ofNat_toNat⟩
  · intro w hw
    obtain ⟨n, hn, -, rfl⟩ := mem_singleEntry.1 hw
    have hkey : n = ch.toNat := ht.injective hn hmem
    exact .inl (by rw [hkey, UInt16.ofNat_toNat])

/-- A letter of two bytes is read back: no other letter has them. -/
lemma pair_bytes (ht : LoHiTable forward) (visit : Visit forward) {ch : UInt16} {value : Nat}
    (hmem : (ch.toNat, value) ∈ forward) (hbig : 0xFF < value) :
    (BuildReversePairMap visit).pair (pairKey (value % 0x100) (value / 0x100 % 0x100)) = some ch := by
  have hval := (ht.value _ hmem).2
  refine (filed_pair visit).eq_some
    (mem_pairEntry.2 ⟨_, _, hmem, hbig, rfl, UInt16.ofNat_toNat⟩) fun w hw => ?_
  obtain ⟨n, value', hn, -, hkey, rfl⟩ := mem_pairEntry.1 hw
  obtain ⟨hlo, hhi⟩ := pairKey_inj (by omega) (by omega) hkey
  have hval' := (ht.value _ hn).2
  have hvalue : value' = value := by
    simp only at hval hval'
    omega
  have hn' : n = ch.toNat := ht.injective (hvalue ▸ hn) hmem
  exact .inl (by rw [hn', UInt16.ofNat_toNat])

/-- A character that is no letter is read as it is: it is no value. -/
lemma single_ascii (ht : LoHiTable forward) (visit : Visit forward) {ch : UInt16}
    (hlt : ch.toNat < 0x80) : (BuildReversePairMap visit).single ch.toNat = none := by
  refine (filed_single visit).eq_none fun w hw => ?_
  obtain ⟨n, hn, -, -⟩ := mem_singleEntry.1 hw
  have hge := (ht.value _ hn).1
  simp only at hge
  omega

/-- Reading a text of one-byte and two-byte letters. -/
theorem decodeWith_flatMap (ht : LoHiTable forward) (visit : Visit forward)
    (hcode : ∀ ch, CodedBy forward ch (code ch))
    (hs : ∀ ch ∈ s, ch.toNat < 0x80 ∨ ch.toNat ∈ forward.map Prod.fst) :
    DecodeString.decodeWith (BuildReversePairMap visit) (s.flatMap fun ch => (code ch).units) = s := by
  have hnext : ∀ u : UInt16, ∀ b ∈ s,
      (BuildReversePairMap visit).pair (pairKey u.toNat (code b).primary.toNat) = none :=
    fun u b hb => (hcode b).pair_none ht (hs b hb) visit u
  refine PairCode.decode_flatMap_units (fun ch => ⟨(code ch).primary, (code ch).secondary⟩) s ?_
  intro ch hch
  rcases hcode ch with ⟨value, hmem, hch'⟩ | ⟨hno, hch'⟩
  · by_cases hle : value ≤ 0xFF
    · rw [DecodeLoHi_single hle] at hch'
      simp only [PairCode.Readable, hch']
      rw [single_byte ht visit hmem hle]
      exact ⟨rfl, hnext _⟩
    · rw [DecodeLoHi_pair (by omega)] at hch'
      simp only [PairCode.Readable, hch', toNat_ofNat_byte]
      exact pair_bytes ht visit hmem (by omega)
  · simp only [PairCode.Readable, hch']
    rw [single_ascii ht visit ((hs ch hch).resolve_right hno)]
    exact ⟨rfl, hnext _⟩

end Locale

/-- A letter with a mark is written as a base that is no mark, and a mark; another letter as it is. No
    two letters are written with the same base and the same mark. -/
lemma compound_entries :
    (∀ e ∈ kUnicodeCompoundMap,
      ((DecodeCompound e.2).secondary = none → (DecodeCompound e.2).primary.toNat = e.1) ∧
        (DecodeCompound e.2).secondary.all fun mark =>
          IsCombiningMark mark && !IsCombiningMark (DecodeCompound e.2).primary) ∧
      ((kUnicodeCompoundMap.filterMap compoundEntry).map Prod.fst).Nodup := by
  refine ⟨by decide +kernel, ?_⟩
  -- The marks differ in their last six bits.
  have hdistinct : NatSet.distinct 0 (((kUnicodeCompoundMap.filterMap compoundEntry).map Prod.fst).map
      fun key => key / 0x10000 * 0x40 + key % 0x40) = true := by
    decide +kernel
  exact (NatSet.nodup_of_distinct hdistinct).of_map _

section Compound

variable [WideCase] (orders : MapOrders) {s : WText}

/-- A character that is no mark is written as a base and the mark under which the base is found again,
    or as it is. -/
lemma ConvertChar_compound {ch : UInt16} (hch : IsCombiningMark ch = false) :
    let code := ConvertChar ch .UnicodeCompound
    IsCombiningMark code.primary = false ∧
      ((code.primary = ch ∧ code.secondary = none) ∨ ∃ mark, code.secondary = some mark ∧
        IsCombiningMark mark = true ∧
        GetCompoundReverse orders.compound (pairKey code.primary.toNat mark.toNat) = some ch) := by
  obtain ⟨value, hmem, hcode⟩ | ⟨-, hcode⟩ := ConvertChar_cases ch .UnicodeCompound
  · replace hmem : (ch.toNat, value) ∈ kUnicodeCompoundMap := hmem
    obtain ⟨hnone, hsome⟩ := compound_entries.1 _ hmem
    rw [hcode]
    show IsCombiningMark (DecodeCompound value).primary = false ∧ _
    cases hsec : (DecodeCompound value).secondary with
    | none =>
      have hprimary : (DecodeCompound value).primary = ch := UInt16.toNat_inj.1 (hnone hsec)
      rw [hprimary]
      exact ⟨hch, .inl ⟨hprimary, hsec⟩⟩
    | some mark =>
      have hmarked : IsCombiningMark mark = true ∧
          IsCombiningMark (DecodeCompound value).primary = false := by
        simpa [hsec] using hsome
      obtain ⟨hmark, hbase⟩ := hmarked
      refine ⟨hbase, .inr ⟨mark, hsec, hmark, ?_⟩⟩
      have hfile : (pairKey (DecodeCompound value).primary.toNat mark.toNat, ch) ∈
          kUnicodeCompoundMap.filterMap compoundEntry :=
        List.mem_filterMap.2 ⟨_, hmem, by simp [compoundEntry, hsec]⟩
      refine (filed_compound orders.compound).eq_some hfile fun w hw => .inl ?_
      exact congrArg Prod.snd (List.inj_on_of_nodup_map compound_entries.2 hw hfile rfl)
  · rw [hcode]
    exact ⟨hch, .inl ⟨rfl, rfl⟩⟩

/-- A text without combining marks is read back. -/
theorem DecodeString_EncodeString_Compound (hs : ∀ ch ∈ s, IsCombiningMark ch = false) :
    DecodeString orders (EncodeString s .UnicodeCompound) .UnicodeCompound = s := by
  refine PairCode.decode_flatMap_units
    (fun ch => ⟨(ConvertChar ch .UnicodeCompound).primary, (ConvertChar ch .UnicodeCompound).secondary⟩)
    s ?_
  intro ch hch
  obtain ⟨-, ⟨hprimary, hsec⟩ | ⟨mark, hsec, hmark, hrev⟩⟩ := ConvertChar_compound orders (hs ch hch)
  · simp only [PairCode.Readable, hprimary, hsec]
    -- What follows starts with a base, so it is not taken for a mark.
    refine ⟨rfl, fun b hb => ?_⟩
    rw [(ConvertChar_compound orders (hs b hb)).1]
    rfl
  · simp only [PairCode.Readable, hsec, hmark, if_true]
    exact hrev

end Compound

/-- ASCII characters and the letters of the maps. -/
def Encodable (ch : UInt16) : Prop :=
  ch.toNat < 0x80 ∨ ∃ table, ch.toNat ∈ (forwardMap table).map Prod.fst

/-- What can be encoded is ASCII or a letter of the tables. -/
lemma encodable_iff {ch} : Encodable ch ↔ ch.toNat < 0x80 ∨ ch.toNat ∈ letters := by
  constructor
  · rintro (h | ⟨table, h⟩)
    · exact .inl h
    · by_cases htable : table = .Unicode
      · subst htable
        cases h
      · rw [keys_forwardMap htable] at h
        exact .inr h
  · rintro (h | h)
    · exact .inl h
    · exact .inr ⟨.TCVN3, h⟩

instance (ch : UInt16) : Decidable (Encodable ch) := decidable_of_iff _ encodable_iff.symm

/-- No letter of the tables is a combining mark. -/
lemma letters_not_mark : ∀ n ∈ letters, IsCombiningMark (.ofNat n) = false := by
  decide +kernel

/-- Nothing that can be encoded is a combining mark. -/
lemma Encodable.not_mark {ch} (h : Encodable ch) : IsCombiningMark ch = false := by
  obtain h | h := encodable_iff.1 h
  · unfold IsCombiningMark
    simp only [Bool.or_eq_false_iff, beq_eq_false_iff_ne, ne_eq, ← UInt16.toNat_inj, UInt16.reduceToNat]
    omega
  · simpa using letters_not_mark _ h

/-- The tables without loss give every string of encodable characters back. -/
theorem DecodeString_EncodeString [WideCase] (orders : MapOrders) {table : CodeTable}
    (htable : table ∈ [CodeTable.VNIWindows, .VietnameseLocale, .UnicodeCompound]) (s : WText)
    (hs : ∀ ch ∈ s, Encodable ch) : DecodeString orders (EncodeString s table) table = s := by
  simp only [List.mem_cons, List.not_mem_nil, or_false] at htable
  obtain rfl | rfl | rfl := htable
  · exact decodeWith_flatMap loHiTable.1 orders.vni (ConvertChar_cases · .VNIWindows) fun ch hch =>
      encodable_iff.1 (hs ch hch)
  · exact decodeWith_flatMap loHiTable.2 orders.cp1258 (ConvertChar_cases · .VietnameseLocale)
      fun ch hch => encodable_iff.1 (hs ch hch)
  · exact DecodeString_EncodeString_Compound orders fun ch hch => (hs ch hch).not_mark

section Ascii

attribute [local instance] WideCase.ascii

/-- A word in VNI Windows. -/
theorem DecodeString_EncodeString_word :
    DecodeString .written (EncodeString [0x56, 0x69, 0x1EC7, 0x74] .VNIWindows) .VNIWindows =
      [0x56, 0x69, 0x1EC7, 0x74] :=
  DecodeString_EncodeString .written (by decide) _ (List.all_iff_forall_prop.1 (by decide +kernel))

end Ascii

section Tcvn3

variable [WideCase]

/-- A toned capital is replaced by its small letter. -/
def lowerToned (ch : UInt16) : UInt16 :=
  (tonedVowels.find? fun v => ToUpperVietnamese v == ch).getD ch

end Tcvn3

/-- The same by the named capitals alone. -/
def lowerTonedNamed (ch : UInt16) : UInt16 :=
  (tonedVowels.find? fun v => namedUpper v == some ch).getD ch

/-- A toned vowel is small and names a capital, which TCVN3 writes as it writes the vowel. -/
lemma tonedVowels_named : ∀ v ∈ tonedVowels, isSmallViet v = true ∧ (kTcvn3Map.lookup v.toNat).isSome ∧
    ∃ c ∈ namedUpper v, 0x80 ≤ c.toNat ∧ isSmallViet c = false ∧
      c ∉ [(0xC2 : UInt16), 0x102, 0xCA, 0xD4, 0x1A0, 0x1AF, 0x110] ∧
      kTcvn3Map.lookup c.toNat = kTcvn3Map.lookup v.toNat :=
  List.all_iff_forall_prop.1 (by decide +kernel)

/-- What is replaced is a toned capital. -/
lemma lowerTonedNamed_cases (ch : UInt16) :
    (lowerTonedNamed ch = ch ∧ ∀ v ∈ tonedVowels, namedUpper v ≠ some ch) ∨
      lowerTonedNamed ch ∈ tonedVowels ∧ namedUpper (lowerTonedNamed ch) = some ch := by
  unfold lowerTonedNamed
  cases h : tonedVowels.find? fun v => namedUpper v == some ch with
  | none => exact .inl ⟨rfl, fun v hv => by simpa using List.find?_eq_none.1 h v hv⟩
  | some v => exact .inr ⟨List.mem_of_find?_eq_some h, by simpa using List.find?_some h⟩

/-- What is no capital of a toned vowel stays. -/
lemma lowerTonedNamed_of_forall {ch : UInt16} (h : ∀ v ∈ tonedVowels, namedUpper v ≠ some ch) :
    lowerTonedNamed ch = ch := by
  obtain ⟨hstay, -⟩ | ⟨hv, hup⟩ := lowerTonedNamed_cases ch
  · exact hstay
  · exact absurd hup (h _ hv)

/-- What a character is replaced by is no toned capital. -/
lemma lowerTonedNamed_not_capital (ch : UInt16) :
    ∀ v ∈ tonedVowels, namedUpper v ≠ some (lowerTonedNamed ch) := by
  intro v hv hup
  obtain ⟨hstay, hno⟩ | ⟨hlow, -⟩ := lowerTonedNamed_cases ch
  · rw [hstay] at hup
    exact hno v hv hup
  · obtain ⟨hsmall, -⟩ := tonedVowels_named _ hlow
    obtain ⟨-, -, c, hc, -, hcapital, -⟩ := tonedVowels_named v hv
    obtain rfl : c = _ := Option.some.inj (Option.mem_def.1 hc ▸ hup)
    rw [hsmall] at hcapital
    cases hcapital

/-- The toned capitals. -/
def tonedCapitals : Nat := NatSet.ofList ((tonedVowels.filterMap namedUpper).map UInt16.toNat)

/-- The bits of the toned capitals. -/
lemma tonedCapitals_iff {ch : UInt16} :
    tonedCapitals.testBit ch.toNat = true ↔ ∃ v ∈ tonedVowels, namedUpper v = some ch := by
  rw [tonedCapitals, NatSet.testBit_ofList, List.mem_map]
  constructor
  · rintro ⟨c, hc, heq⟩
    obtain rfl := UInt16.toNat_inj.1 heq
    exact List.mem_filterMap.1 hc
  · exact fun h => ⟨ch, List.mem_filterMap.2 h, rfl⟩

/-- A letter has one value, and a value is that of one letter that is no toned capital. -/
lemma tcvn3_entries :
    (∀ e ∈ kTcvn3Map, e.1 < 0x10000 ∧ 0x80 ≤ e.2 ∧ e.2 < 0x10000) ∧
      (kTcvn3Map.map Prod.fst).Nodup ∧
      ((kTcvn3Map.filter fun e => !tonedCapitals.testBit e.1).map Prod.snd).Nodup :=
  ⟨by decide +kernel, NatSet.nodup_of_distinct (by decide +kernel),
    NatSet.nodup_of_distinct (by decide +kernel)⟩

/-- What is looked up is in the table. -/
lemma mem_tcvn3_of_lookup {n value : Nat} (h : kTcvn3Map.lookup n = some value) :
    (n, value) ∈ kTcvn3Map := by
  obtain ⟨l₁, l₂, hsplit, -⟩ := List.lookup_eq_some_iff.1 h
  simp [hsplit]

/-- What a letter is replaced by is a letter with the same value, and a small one. -/
lemma lowerTonedNamed_entry {n value : Nat} (h : (n, value) ∈ kTcvn3Map) :
    ((lowerTonedNamed (.ofNat n)).toNat, value) ∈ kTcvn3Map ∧
      (lowerTonedNamed (.ofNat n) = .ofNat n ∨
        isSmallViet (lowerTonedNamed (.ofNat n)) = true ∧ isSmallViet (.ofNat n) = false) := by
  have hn : (UInt16.ofNat n).toNat = n := by
    rw [UInt16.toNat_ofNat', Nat.mod_eq_of_lt (tcvn3_entries.1 _ h).1]
  obtain ⟨hstay, -⟩ | ⟨hv, hup⟩ := lowerTonedNamed_cases (.ofNat n)
  · rw [hstay, hn]
    exact ⟨h, .inl rfl⟩
  · obtain ⟨hsmall, hletter, c, hc, -, hcapital, -, hsame⟩ := tonedVowels_named _ hv
    obtain rfl : c = _ := Option.some.inj (Option.mem_def.1 hc ▸ hup)
    obtain ⟨x, hx⟩ := Option.isSome_iff_exists.1 hletter
    rw [hx, hn] at hsame
    have hkey := List.inj_on_of_nodup_map tcvn3_entries.2.1 (mem_tcvn3_of_lookup hsame) h rfl
    obtain rfl : x = value := congrArg Prod.snd hkey
    exact ⟨mem_tcvn3_of_lookup hx, .inr ⟨hsmall, hcapital⟩⟩

/-- What the reverse map is filled from. -/
lemma mem_tcvn3Entries {key : Nat} {w : UInt16} :
    (key, w) ∈ kTcvn3Map.filterMap tcvn3Entry ↔ ∃ n, (n, key) ∈ kTcvn3Map ∧ UInt16.ofNat n = w := by
  simp [tcvn3Entry, List.mem_filterMap]

/-- Letters of one value are replaced by one letter. -/
lemma lowerTonedNamed_eq_of_value {m n value} (hm : (m, value) ∈ kTcvn3Map)
    (hn : (n, value) ∈ kTcvn3Map) : lowerTonedNamed (.ofNat m) = lowerTonedNamed (.ofNat n) := by
  have hmem : ∀ n, (n, value) ∈ kTcvn3Map → ((lowerTonedNamed (.ofNat n)).toNat, value) ∈
      kTcvn3Map.filter fun e => !tonedCapitals.testBit e.1 := by
    intro n hn
    refine List.mem_filter.2 ⟨(lowerTonedNamed_entry hn).1, ?_⟩
    rw [Bool.not_eq_true', Bool.eq_false_iff]
    intro hcapital
    obtain ⟨v, hv, hup⟩ := tonedCapitals_iff.1 hcapital
    exact lowerTonedNamed_not_capital _ v hv hup
  have h := List.inj_on_of_nodup_map tcvn3_entries.2.2 (hmem m hm) (hmem n hn) rfl
  exact UInt16.toNat_inj.1 (congrArg Prod.fst h)

section Tcvn3

variable [WideCase]

/-- The lower case of the toned capitals, by name. -/
lemma lowerToned_eq (ch : UInt16) : lowerToned ch = lowerTonedNamed ch := by
  unfold lowerToned lowerTonedNamed
  refine congrArg (Option.getD · ch) (List.find?_congr fun v hv => ?_)
  obtain ⟨-, -, c, hc, -⟩ := tonedVowels_named v hv
  rw [ToUpperVietnamese, hc, Option.getD_some]
  rfl

/-- ASCII stays as it is. -/
lemma lowerToned_ascii {ch : UInt16} (h : ch.toNat < 0x80) : lowerToned ch = ch := by
  rw [lowerToned_eq]
  refine lowerTonedNamed_of_forall fun v hv hup => ?_
  obtain ⟨-, -, c, hc, hge, -⟩ := tonedVowels_named v hv
  obtain rfl : c = ch := Option.some.inj (Option.mem_def.1 hc ▸ hup)
  omega

/-- One character and back: a letter comes back as the small one of those with its value. -/
lemma reverse_tcvn3 (orders : MapOrders) {ch : UInt16}
    (hch : ch.toNat < 0x80 ∨ ch.toNat ∈ kTcvn3Map.map Prod.fst) :
    ((ConvertChar ch .TCVN3).units.map fun ch => (GetTcvn3Reverse orders.tcvn3 ch.toNat).getD ch) =
      [lowerToned ch] := by
  have hfiled := filed_tcvn3 orders.tcvn3
  obtain ⟨value, hmem, hcode⟩ | ⟨hno, hcode⟩ := ConvertChar_cases ch .TCVN3
  · replace hmem : (ch.toNat, value) ∈ kTcvn3Map := hmem
    have hvalue := tcvn3_entries.1 _ hmem
    obtain ⟨hmap, -⟩ := lowerTonedNamed_entry hmem
    rw [hcode]
    show [(GetTcvn3Reverse orders.tcvn3 (UInt16.ofNat value).toNat).getD _] = _
    rw [UInt16.toNat_ofNat', Nat.mod_eq_of_lt hvalue.2.2, lowerToned_eq,
      hfiled.eq_some (v := lowerTonedNamed ch), Option.getD_some]
    · rw [UInt16.ofNat_toNat] at hmap
      exact mem_tcvn3Entries.2 ⟨_, hmap, UInt16.ofNat_toNat⟩
    · intro w hw
      obtain ⟨n, hn, rfl⟩ := mem_tcvn3Entries.1 hw
      have hsame := lowerTonedNamed_eq_of_value hn hmem
      obtain ⟨hmapn, hprefer⟩ := lowerTonedNamed_entry hn
      rw [UInt16.ofNat_toNat] at hsame
      rw [hsame] at hprefer hmapn
      -- A letter of the same value is the one that is wanted, or a capital that gives way to it.
      obtain hstay | ⟨hsmall, hnot⟩ := hprefer
      · exact .inl hstay.symm
      · refine .inr ⟨?_, ?_⟩
        · have hletter := IsLowerViet_letter (List.mem_map_of_mem (f := Prod.fst) hmapn)
          simpa [hsmall] using hletter
        · rw [IsLowerViet_letter (List.mem_map_of_mem (f := Prod.fst) hn), hnot]
  · have hlt := hch.resolve_right hno
    rw [hcode, lowerToned_ascii hlt]
    show [(GetTcvn3Reverse orders.tcvn3 ch.toNat).getD _] = _
    rw [hfiled.eq_none, Option.getD_none]
    intro w hw
    obtain ⟨n, hn, -⟩ := mem_tcvn3Entries.1 hw
    have hge := (tcvn3_entries.1 _ hn).2.1
    simp only at hge
    omega

/-- TCVN3 gives a string of encodable characters back with its toned capitals made small; an untoned
    capital stays. -/
theorem DecodeString_EncodeString_TCVN3 (orders : MapOrders) (s : WText)
    (hs : ∀ ch ∈ s, ch.toNat < 0x80 ∨ ch.toNat ∈ kTcvn3Map.map Prod.fst) :
    DecodeString orders (EncodeString s .TCVN3) .TCVN3 = s.map lowerToned ∧
      ∀ ch ∈ [(0xC2 : UInt16), 0x102, 0xCA, 0xD4, 0x1A0, 0x1AF, 0x110], lowerToned ch = ch := by
  constructor
  · show ((s.flatMap fun ch => (ConvertChar ch .TCVN3).units).map fun ch =>
      (GetTcvn3Reverse orders.tcvn3 ch.toNat).getD ch) = s.map lowerToned
    rw [List.map_flatMap, List.flatMap_congr fun ch hch => reverse_tcvn3 orders (hs ch hch),
      List.map_eq_flatMap]
  · intro ch hch
    rw [lowerToned_eq]
    refine lowerTonedNamed_of_forall fun v hv hup => ?_
    obtain ⟨-, -, c, hc, -, -, huntoned, -⟩ := tonedVowels_named v hv
    obtain rfl : c = ch := Option.some.inj (Option.mem_def.1 hc ▸ hup)
    exact huntoned hch

end Tcvn3

section Ascii

attribute [local instance] WideCase.ascii

/-- A word in TCVN3. -/
theorem DecodeString_EncodeString_TCVN3_word :
    DecodeString .written (EncodeString [0x56, 0x49, 0x1EC6, 0x54] .TCVN3) .TCVN3 =
      [0x56, 0x49, 0x1EC7, 0x54] :=
  (DecodeString_EncodeString_TCVN3 .written [0x56, 0x49, 0x1EC6, 0x54]
    (List.all_iff_forall_prop.1 (by decide +kernel))).1.trans (by decide +kernel)

end Ascii

end NextKey.CodeTableConverter
