import NextKey.Output.RoundTrip

/-!
# Reading units by the maps themselves

The tables that write a letter as one unit or two give no two letters the same units, so `DecodeString`
reads what a look into the map itself yields, whatever the order in which the reverse map was filled.
-/

namespace NextKey.CodeTableConverter

/-- The tables of one unit or two for each letter. -/
def pairTables : List CodeTable := [.VNIWindows, .UnicodeCompound, .VietnameseLocale]

/-- The tables of pairs are not Unicode. -/
lemma ne_Unicode {table : CodeTable} (htable : table ∈ pairTables) : table ≠ .Unicode := by
  rintro rfl
  simp [pairTables] at htable

/-- The letter that two units stand for. -/
def readPair : CodeTable → UInt16 → UInt16 → Option UInt16
  | .UnicodeCompound, u, v =>
    if IsCombiningMark v then
      (kUnicodeCompoundMap.filterMap compoundEntry).lookup (pairKey u.toNat v.toNat)
    else none
  | table, u, v => ((forwardMap table).filterMap pairEntry).lookup (pairKey u.toNat v.toNat)

/-- The letter that a single unit stands for. -/
def readSingle : CodeTable → UInt16 → UInt16
  | .UnicodeCompound, u => u
  | table, u => (((forwardMap table).filterMap singleEntry).lookup u.toNat).getD u

/-- No two letters have the same units. -/
lemma entries_nodup :
    ∀ forward ∈ [kVniMap, kCp1258Map], ((forward.filterMap pairEntry).map Prod.fst).Nodup ∧
      ((forward.filterMap singleEntry).map Prod.fst).Nodup := by
  -- A pair of bytes is told by the number they make together.
  have hdistinct : ∀ forward ∈ [kVniMap, kCp1258Map],
      NatSet.distinct 0 (((forward.filterMap pairEntry).map Prod.fst).map
        fun key => key / 0x10000 * 0x100 + key % 0x100) = true ∧
      NatSet.distinct 0 ((forward.filterMap singleEntry).map Prod.fst) = true := by
    decide +kernel
  intro forward hforward
  obtain ⟨hpair, hsingle⟩ := hdistinct forward hforward
  exact ⟨(NatSet.nodup_of_distinct hpair).of_map _, NatSet.nodup_of_distinct hsingle⟩

section Locale

variable [WideCase] (orders : MapOrders)

/-- The decoder of a table, as a reading of pairs. -/
lemma decodeWith_eq {forward : List (Nat × Nat)} (hforward : forward ∈ [kVniMap, kCp1258Map])
    (visit : Visit forward) (input : WText) :
    DecodeString.decodeWith (BuildReversePairMap visit) input =
      PairCode.decode
        (fun u v => (forward.filterMap pairEntry).lookup (pairKey u.toNat v.toNat))
        (fun u => ((forward.filterMap singleEntry).lookup u.toNat).getD u) input := by
  obtain ⟨hpair, hsingle⟩ := entries_nodup forward hforward
  unfold DecodeString.decodeWith decodePairs
  congr 1
  · funext u v
    exact (filed_pair visit).eq_lookup hpair _
  · funext u
    rw [(filed_single visit).eq_lookup hsingle]

/-- `DecodeString` reads by the maps themselves. -/
lemma DecodeString_eq {table : CodeTable} (htable : table ∈ pairTables) (input : WText) :
    DecodeString orders input table = PairCode.decode (readPair table) (readSingle table) input := by
  simp only [pairTables, List.mem_cons, List.not_mem_nil, or_false] at htable
  obtain rfl | rfl | rfl := htable
  · exact decodeWith_eq (.head _) orders.vni input
  · have hrev : GetCompoundReverse orders.compound =
        fun key => (kUnicodeCompoundMap.filterMap compoundEntry).lookup key :=
      funext ((filed_compound orders.compound).eq_lookup compound_entries.2)
    unfold DecodeString
    rw [hrev]
    rfl
  · exact decodeWith_eq (.tail _ (.head _)) orders.cp1258 input

end Locale

/-- The bytes that are the second one of a letter. -/
def trailing (forward : List (Nat × Nat)) : Nat :=
  NatSet.ofList ((forward.filter fun e => decide (0xFF < e.2)).map fun e => e.2 / 0x100)

/-- A unit is the second one of some letter. -/
def completes : CodeTable → UInt16 → Bool
  | .UnicodeCompound, v => IsCombiningMark v
  | table, v => (trailing (forwardMap table)).testBit v.toNat

/-- What never comes second completes no pair. -/
lemma lookup_pairEntry_eq_none {forward : List (Nat × Nat)} (ht : LoHiTable forward) {v : UInt16}
    (h : (trailing forward).testBit v.toNat = false) (u : UInt16) :
    (forward.filterMap pairEntry).lookup (pairKey u.toNat v.toNat) = none := by
  rw [List.lookup_eq_none_iff]
  rintro ⟨key, w⟩ hmem
  obtain ⟨n, value, hn, hbig, rfl, -⟩ := mem_pairEntry.1 hmem
  have hlt : value < 0x10000 := (ht.value _ hn).2
  have hv := v.toNat_lt
  rw [bne_iff_ne]
  intro hkey
  obtain ⟨-, hhi⟩ := pairKey_inj (by omega) (by omega) hkey
  have htrail : (trailing forward).testBit (value / 0x100) = true :=
    NatSet.testBit_ofList.2 (List.mem_map.2
      ⟨(n, value), List.mem_filter.2 ⟨hn, decide_eq_true hbig⟩, rfl⟩)
  rw [show value / 0x100 = v.toNat by omega, h] at htrail
  cases htrail

/-- A unit that is the second one of no letter completes none. -/
lemma readPair_eq_none {table : CodeTable} (htable : table ∈ pairTables) {v : UInt16}
    (h : completes table v = false) (u : UInt16) : readPair table u v = none := by
  simp only [pairTables, List.mem_cons, List.not_mem_nil, or_false] at htable
  obtain rfl | rfl | rfl := htable
  · exact lookup_pairEntry_eq_none loHiTable.1 h u
  · exact if_neg (Bool.eq_false_iff.1 h)
  · exact lookup_pairEntry_eq_none loHiTable.2 h u

/-- A letter has one value. -/
lemma value_unique {table : CodeTable} (htable : table ∈ pairTables) {n value value' : Nat}
    (h : (n, value) ∈ forwardMap table) (h' : (n, value') ∈ forwardMap table) : value = value' := by
  have hkeys : ((forwardMap table).map Prod.fst).Nodup := by
    rw [keys_forwardMap (ne_Unicode htable)]
    exact NatSet.nodup_of_distinct (by decide +kernel)
  exact (Prod.mk.inj (List.inj_on_of_nodup_map hkeys h h' rfl)).2

/-- The code of a letter of the table. -/
lemma ConvertChar_entry {table : CodeTable} (htable : table ∈ pairTables) {ch : UInt16} {value : Nat}
    (h : (ch.toNat, value) ∈ forwardMap table) : ConvertChar ch table = decodeValue table value := by
  obtain ⟨value', h', hcode⟩ | ⟨hno, -⟩ := ConvertChar_cases ch table
  · rw [hcode, value_unique htable h h']
  · exact absurd (List.mem_map_of_mem h) hno

/-- The units of an encodable character are read as the character. -/
lemma read_units {table : CodeTable} (htable : table ∈ pairTables) {ch : UInt16} (h : Encodable ch) :
    PairCode.decode (readPair table) (readSingle table) (ConvertChar ch table).units = [ch] := by
  let _ : WideCase := .ascii
  rw [← DecodeString_eq .written htable]
  have hunits : (ConvertChar ch table).units = [ch].flatMap fun c => (ConvertChar c table).units := by
    simp
  simp only [pairTables, List.mem_cons, List.not_mem_nil, or_false] at htable
  have hch : ∀ c ∈ [ch], Encodable c := List.forall_mem_singleton.2 h
  rw [hunits]
  obtain rfl | rfl | rfl := htable
  · exact decodeWith_flatMap loHiTable.1 _ (ConvertChar_cases · .VNIWindows) fun c hc =>
      encodable_iff.1 (hch c hc)
  · exact DecodeString_EncodeString_Compound .written fun c hc => (hch c hc).not_mark
  · exact decodeWith_flatMap loHiTable.2 _ (ConvertChar_cases · .VietnameseLocale) fun c hc =>
      encodable_iff.1 (hch c hc)

/-- The tables are beyond ASCII. -/
lemma beyond_ascii : ∀ forward ∈ [kVniMap, kCp1258Map], ∀ e ∈ forward, 0x80 ≤ UInt16.ofNat e.1 := by
  decide +kernel

/-- The letters fit a unit. -/
lemma toNat_ofNat_letter : ∀ n ∈ letters, (UInt16.ofNat n).toNat = n := by
  decide +kernel

/-- What is looked up is there. -/
lemma mem_of_lookup_eq_some {κ ν : Type*} [BEq κ] [LawfulBEq κ] {entries : List (κ × ν)} {key : κ} {v : ν}
    (h : entries.lookup key = some v) : (key, v) ∈ entries := by
  obtain ⟨l₁, l₂, hsplit, -⟩ := List.lookup_eq_some_iff.1 h
  simp [hsplit]

/-- An entry of a letter is found under the letter again. -/
lemma mem_forwardMap {table : CodeTable} (htable : table ∈ pairTables) {n value : Nat}
    (h : (n, value) ∈ forwardMap table) : ((UInt16.ofNat n).toNat, value) ∈ forwardMap table := by
  have hletter : n ∈ letters := by
    rw [← keys_forwardMap (ne_Unicode htable)]
    exact List.mem_map_of_mem h
  rwa [toNat_ofNat_letter n hletter]

/-- A pair is looked up by its units. -/
lemma units_of_lookup_pairEntry {table : CodeTable} (htable : table ∈ pairTables)
    (hdecode : decodeValue table = DecodeLoHi) {u v ch : UInt16}
    (h : ((forwardMap table).filterMap pairEntry).lookup (pairKey u.toNat v.toNat) = some ch) :
    (ConvertChar ch table).units = [u, v] := by
  obtain ⟨n, value, hn, hbig, hkey, rfl⟩ := mem_pairEntry.1 (mem_of_lookup_eq_some h)
  have hv := v.toNat_lt
  obtain ⟨hlo, hhi⟩ := pairKey_inj (by omega) (by omega) hkey
  rw [ConvertChar_entry htable (mem_forwardMap htable hn), hdecode, DecodeLoHi_pair hbig, hlo, hhi,
    UInt16.ofNat_toNat, UInt16.ofNat_toNat]
  rfl

/-- No ASCII unit is looked up. -/
lemma lookup_singleEntry_ascii {forward : List (Nat × Nat)} (hforward : forward ∈ [kVniMap, kCp1258Map])
    {u : UInt16} (h : ((forward.filterMap singleEntry).lookup u.toNat).getD u < 0x80) :
    ((forward.filterMap singleEntry).lookup u.toNat).getD u = u := by
  cases hlook : (forward.filterMap singleEntry).lookup u.toNat with
  | none => rfl
  | some w =>
    rw [hlook] at h
    obtain ⟨n, hn, -, rfl⟩ := mem_singleEntry.1 (mem_of_lookup_eq_some hlook)
    exact absurd h (UInt16.not_lt.2 (beyond_ascii forward hforward _ hn))

/-- Only an ASCII character is read as one. -/
lemma readSingle_ascii {table : CodeTable} (htable : table ∈ pairTables) {u : UInt16}
    (h : readSingle table u < 0x80) : readSingle table u = u := by
  simp only [pairTables, List.mem_cons, List.not_mem_nil, or_false] at htable
  obtain rfl | rfl | rfl := htable
  · exact lookup_singleEntry_ascii (.head _) h
  · rfl
  · exact lookup_singleEntry_ascii (.tail _ (.head _)) h

/-- Two units that stand for a letter are its units. -/
lemma units_of_readPair {table : CodeTable} (htable : table ∈ pairTables) {u v ch : UInt16}
    (h : readPair table u v = some ch) : (ConvertChar ch table).units = [u, v] := by
  have htables := htable
  simp only [pairTables, List.mem_cons, List.not_mem_nil, or_false] at htables
  obtain rfl | rfl | rfl := htables
  · exact units_of_lookup_pairEntry htable rfl h
  · change (if IsCombiningMark v then _ else none) = some ch at h
    split at h
    · obtain ⟨⟨n, value⟩, he, hentry⟩ := List.mem_filterMap.1 (mem_of_lookup_eq_some h)
      obtain ⟨mark, hmark, hkey⟩ := Option.map_eq_some_iff.1 hentry
      simp only [Prod.mk.injEq] at hkey
      obtain ⟨hkey, rfl⟩ := hkey
      obtain ⟨hu, hv⟩ := pairKey_inj mark.toNat_lt v.toNat_lt hkey
      rw [ConvertChar_entry htable (mem_forwardMap htable he)]
      show (DecodeCompound value).units = _
      rw [EncodedChar.units, hmark, UInt16.toNat_inj.1 hu, UInt16.toNat_inj.1 hv]
      rfl
    · cases h
  · exact units_of_lookup_pairEntry htable rfl h

/-- Two units are read as one character when they are its units. -/
lemma read_pair_iff {table : CodeTable} (htable : table ∈ pairTables) {u v ch : UInt16}
    (hch : Encodable ch) : PairCode.decode (readPair table) (readSingle table) [u, v] = [ch] ↔
      (ConvertChar ch table).units = [u, v] := by
  constructor
  · intro h
    cases hpair : readPair table u v with
    | none => simp [PairCode.decode, hpair] at h
    | some c =>
      rw [PairCode.decode_of_pair hpair] at h
      obtain rfl : c = ch := List.head_eq_of_cons_eq h
      exact units_of_readPair htable hpair
  · intro h
    rw [← h]
    exact read_units htable hch

section Locale

variable [WideCase] {ch : UInt16}

/-- The lower case of what can be encoded can be encoded. -/
lemma Encodable.lowerToned (h : Encodable ch) : Encodable (lowerToned ch) := by
  obtain hlt | hletter := encodable_iff.1 h
  · rwa [lowerToned_ascii hlt]
  · obtain ⟨⟨n, value⟩, he, hkey⟩ := List.mem_map.1 hletter
    obtain rfl : n = ch.toNat := hkey
    obtain ⟨hmem, -⟩ := lowerTonedNamed_entry he
    rw [UInt16.ofNat_toNat] at hmem
    rw [lowerToned_eq]
    exact encodable_iff.2 (.inr (List.mem_map_of_mem (f := Prod.fst) hmem))

/-- A text of encodable characters stays one, whatever table it goes through. -/
lemma encodable_DecodeString (orders : MapOrders) (source : CodeTable) {s : WText}
    (hs : ∀ ch ∈ s, Encodable ch) :
    ∀ ch ∈ DecodeString orders (EncodeString s source) source, Encodable ch := by
  cases source with
  | Unicode => exact hs
  | TCVN3 =>
    show ∀ ch ∈ (s.flatMap fun ch => (ConvertChar ch .TCVN3).units).map fun ch =>
      (GetTcvn3Reverse orders.tcvn3 ch.toNat).getD ch, Encodable ch
    rw [List.map_flatMap, List.flatMap_congr fun ch hch => reverse_tcvn3 orders
      (encodable_iff.1 (hs ch hch))]
    intro ch hch
    obtain ⟨c, hc, hmem⟩ := List.mem_flatMap.1 hch
    obtain rfl := List.mem_singleton.1 hmem
    exact (hs c hc).lowerToned
  | VNIWindows =>
    have hback := decodeWith_flatMap loHiTable.1 orders.vni (ConvertChar_cases · .VNIWindows)
      fun ch hch => encodable_iff.1 (hs ch hch)
    exact fun ch hch => hs ch (hback ▸ hch)
  | UnicodeCompound =>
    rwa [DecodeString_EncodeString_Compound orders fun ch hch => (hs ch hch).not_mark]
  | VietnameseLocale =>
    have hback := decodeWith_flatMap loHiTable.2 orders.cp1258 (ConvertChar_cases · .VietnameseLocale)
      fun ch hch => encodable_iff.1 (hs ch hch)
    exact fun ch hch => hs ch (hback ▸ hch)

end Locale

end NextKey.CodeTableConverter
