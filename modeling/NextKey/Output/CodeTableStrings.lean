import Mathlib.Logic.Function.Basic
import NextKey.Engine.Tables
import NextKey.Lib.PairCode
import NextKey.Output.CodeTableConverter

/-!
# Converting whole strings

Model of `EncodeString`, `DecodeString` and the reverse maps in `core/engine/CodeTableConverter.cpp`. A
reverse map is built by a loop over an `unordered_map`, which visits the entries in no particular
order: any order is allowed here, and the strings come back the same.
-/

namespace NextKey

/-- A small letter of the ranges that the case conversions name. -/
def isSmallViet (ch : UInt16) : Bool :=
  decide (0xE0 ≤ ch ∧ ch ≤ 0xFE ∧ ch ≠ 0xF7) ||
    [0x103, 0x111, 0x129, 0x169, 0x1A1, 0x1B0].contains ch ||
    decide (0x1EA0 ≤ ch ∧ ch ≤ 0x1EF9 ∧ ch.toNat % 2 = 1)

/-- The C library's case mapping. In every locale a small letter is its own small letter and a capital
    its own capital, and an ASCII letter has the other letter of its pair. -/
class WideCase where
  /-- `towlower` -/
  towlower : UInt16 → UInt16
  /-- `towupper` -/
  towupper : UInt16 → UInt16
  towlower_small : ∀ ch, isSmallViet ch → towlower ch = ch
  towupper_capital : ∀ ch ∈ [(0x128 : UInt16), 0x168], towupper ch = ch
  towupper_ascii : ∀ ch, 0x61 ≤ ch → ch ≤ 0x7A → towupper ch = ch - 0x20

/-- The `"C"` locale: only ASCII letters have a case. -/
@[reducible] def WideCase.ascii : WideCase where
  towlower ch := if 0x41 ≤ ch ∧ ch ≤ 0x5A then ch + 0x20 else ch
  towupper ch := if 0x61 ≤ ch ∧ ch ≤ 0x7A then ch - 0x20 else ch
  towlower_small ch h := by
    rw [if_neg]
    rintro ⟨-, hle⟩
    simp [isSmallViet] at h
    grind
  towupper_capital ch h := by
    rw [if_neg]
    simp at h
    grind
  towupper_ascii ch hle hge := if_pos ⟨hle, hge⟩

namespace CodeTableConverter

/-- A character as a unit. -/
def unitOf (c : Char) : UInt16 := UInt16.ofNat c.toNat

/-- The toned vowels (C++ `kTonedVowel`), row by row. -/
def tonedVowels : List UInt16 := kTonedVowel.flatten.map unitOf

/-- C++ `std::wstring` -/
abbrev WText := List UInt16

/-- An order in which the loop over an `unordered_map` visits its entries. -/
structure Visit (forward : List (Nat × Nat)) where
  order : List (Nat × Nat)
  perm : order.Perm forward

/-- The orders of the four maps. -/
structure MapOrders where
  tcvn3 : Visit kTcvn3Map
  vni : Visit kVniMap
  compound : Visit kUnicodeCompoundMap
  cp1258 : Visit kCp1258Map

/-- The order in which the maps are written down. -/
def MapOrders.written : MapOrders :=
  ⟨⟨_, .refl _⟩, ⟨_, .refl _⟩, ⟨_, .refl _⟩, ⟨_, .refl _⟩⟩

/-- C++ `ReverseMap` -/
abbrev ReverseMap := Nat → Option UInt16

/-- C++ `ReversePairMap` -/
structure ReversePairMap where
  single : ReverseMap
  pair : ReverseMap

/-- `(first << 16) | second` -/
def pairKey (first second : Nat) : Nat := first <<< 16 ||| second

/-- C++ `IsCombiningMark` -/
def IsCombiningMark (ch : UInt16) : Bool :=
  ch == 0x0300 || ch == 0x0301 || ch == 0x0303 || ch == 0x0309 || ch == 0x0323

/-- The capitals that `ToUpperVietnamese` names itself. -/
def namedUpper (ch : UInt16) : Option UInt16 :=
  if 0xE0 ≤ ch ∧ ch ≤ 0xF6 then some (ch - 0x20)
  else if 0xF8 ≤ ch ∧ ch ≤ 0xFE then some (ch - 0x20)
  else if ch = 0x103 then some 0x102
  else if ch = 0x111 then some 0x110
  else if ch = 0x129 then some 0x128
  else if ch = 0x169 then some 0x168
  else if ch = 0x1A1 then some 0x1A0
  else if ch = 0x1B0 then some 0x1AF
  else if 0x1EA0 ≤ ch ∧ ch ≤ 0x1EF9 then if ch.toNat % 2 = 1 then some (ch - 1) else some ch
  else none

/-- The small letters that `ToLowerVietnamese` names itself. `Ĩ` and `Ũ` are not among them. -/
def namedLower (ch : UInt16) : Option UInt16 :=
  if 0xC0 ≤ ch ∧ ch ≤ 0xD6 then some (ch + 0x20)
  else if 0xD8 ≤ ch ∧ ch ≤ 0xDE then some (ch + 0x20)
  else if ch = 0x102 then some 0x103
  else if ch = 0x110 then some 0x111
  else if ch = 0x1A0 then some 0x1A1
  else if ch = 0x1AF then some 0x1B0
  else if 0x1EA0 ≤ ch ∧ ch ≤ 0x1EF9 ∧ ch.toNat % 2 = 0 then some (ch + 1)
  else none

section Locale

variable [WideCase]

/-- C++ `ToUpperVietnamese` -/
def ToUpperVietnamese (ch : UInt16) : UInt16 := (namedUpper ch).getD (WideCase.towupper ch)

/-- C++ `ToLowerVietnamese` -/
def ToLowerVietnamese (ch : UInt16) : UInt16 := (namedLower ch).getD (WideCase.towlower ch)

/-- C++ `IsLowerViet` -/
def IsLowerViet (ch : UInt16) : Bool := ToLowerVietnamese ch == ch && ToUpperVietnamese ch != ch

/-- The insertion in the loops over the forward maps: a small letter is preferred. -/
def insertReverse (rev : ReverseMap) (key : Nat) (wch : UInt16) : ReverseMap :=
  filePreferred IsLowerViet rev key wch

/-- C++ `GetTcvn3Reverse` -/
def GetTcvn3Reverse (visit : Visit kTcvn3Map) : ReverseMap :=
  visit.order.foldl (fun rev e => insertReverse rev e.2 (.ofNat e.1)) fun _ => none

/-- C++ `BuildReversePairMap` -/
def BuildReversePairMap {forward} (visit : Visit forward) : ReversePairMap :=
  visit.order.foldl
    (fun result e =>
      if e.2 ≤ 0xFF then { result with single := insertReverse result.single e.2 (.ofNat e.1) }
      else
        { result with
          pair :=
            insertReverse result.pair (pairKey (e.2 % 0x100) (e.2 / 0x100 % 0x100)) (.ofNat e.1) })
    ⟨fun _ => none, fun _ => none⟩

/-- C++ `GetCompoundReverse` -/
def GetCompoundReverse (visit : Visit kUnicodeCompoundMap) : ReverseMap :=
  visit.order.foldl
    (fun rev e =>
      let decoded := DecodeCompound e.2
      match decoded.secondary with
      | some mark => insertReverse rev (pairKey decoded.primary.toNat mark.toNat) (.ofNat e.1)
      | none => rev)
    fun _ => none

/-- The loop of `DecodeString` that tries two units first. -/
def decodePairs (pair : UInt16 → UInt16 → Option UInt16) (single : UInt16 → UInt16) : WText → WText :=
  PairCode.decode pair single

/-- C++ `DecodeString` -/
def DecodeString (orders : MapOrders) (input : WText) (source : CodeTable) : WText :=
  match source with
  | .Unicode => input
  | .TCVN3 => input.map fun ch => (GetTcvn3Reverse orders.tcvn3 ch.toNat).getD ch
  | .UnicodeCompound =>
    decodePairs
      (fun ch next =>
        if IsCombiningMark next then
          GetCompoundReverse orders.compound (pairKey ch.toNat next.toNat)
        else none)
      id input
  | .VNIWindows => decodeWith (BuildReversePairMap orders.vni) input
  | .VietnameseLocale => decodeWith (BuildReversePairMap orders.cp1258) input
where
  /-- The last branch of `DecodeString`, for VNI and CP1258. -/
  decodeWith (maps : ReversePairMap) (input : WText) : WText :=
    decodePairs (fun ch next => maps.pair (pairKey ch.toNat next.toNat))
      (fun ch => (maps.single ch.toNat).getD ch) input

end Locale

/-- C++ `EncodeString` -/
def EncodeString (input : WText) (target : CodeTable) : WText :=
  match target with
  | .Unicode => input
  | _ => input.flatMap fun ch => (ConvertChar ch target).units

/-- A text is not decoded to nothing. -/
lemma DecodeString_ne_nil [WideCase] (orders : MapOrders) {input : WText} (h : input ≠ [])
    (source : CodeTable) : DecodeString orders input source ≠ [] := by
  cases source with
  | Unicode => exact h
  | TCVN3 => exact fun hnil => h (List.map_eq_nil_iff.1 hnil)
  | VNIWindows => exact PairCode.decode_ne_nil h
  | UnicodeCompound => exact PairCode.decode_ne_nil h
  | VietnameseLocale => exact PairCode.decode_ne_nil h

/-- A text is not encoded to nothing. -/
lemma EncodeString_ne_nil {input : WText} (h : input ≠ []) (target : CodeTable) :
    EncodeString input target ≠ [] := by
  cases input with
  | nil => exact absurd rfl h
  | cons ch rest => cases target <;> exact List.cons_ne_nil _ _

/-- The map of a code table. -/
def forwardMap : CodeTable → List (Nat × Nat)
  | .Unicode => []
  | .TCVN3 => kTcvn3Map
  | .VNIWindows => kVniMap
  | .UnicodeCompound => kUnicodeCompoundMap
  | .VietnameseLocale => kCp1258Map

/-- The letters of the maps. -/
def letters : List Nat := kTcvn3Map.map Prod.fst

/-- Every map has the same letters. -/
lemma keys_forwardMap {table} (h : table ≠ .Unicode) :
    (forwardMap table).map Prod.fst = letters := by
  cases table with
  | Unicode => exact absurd rfl h
  | TCVN3 => rfl
  | VNIWindows => rfl
  | UnicodeCompound => rfl
  | VietnameseLocale => rfl

/-- How a value of a map is written. -/
def decodeValue : CodeTable → Nat → EncodedChar
  | .VNIWindows | .VietnameseLocale => DecodeLoHi
  | .UnicodeCompound => DecodeCompound
  | .Unicode | .TCVN3 => fun value => ⟨.ofNat value, none⟩

/-- A character is looked up and its value decoded. -/
lemma ConvertChar_eq (ch : UInt16) (table : CodeTable) :
    ConvertChar ch table =
      (((forwardMap table).lookup ch.toNat).map (decodeValue table)).getD ⟨ch, none⟩ := by
  cases table <;> rfl

/-- A character is in the map, or is passed on. -/
lemma ConvertChar_cases (ch : UInt16) (table : CodeTable) :
    (∃ value, (ch.toNat, value) ∈ forwardMap table ∧ ConvertChar ch table = decodeValue table value) ∨
      ch.toNat ∉ (forwardMap table).map Prod.fst ∧ ConvertChar ch table = ⟨ch, none⟩ := by
  rw [ConvertChar_eq]
  cases h : (forwardMap table).lookup ch.toNat with
  | none =>
    refine .inr ⟨?_, rfl⟩
    intro hmem
    obtain ⟨e, he, hkey⟩ := List.mem_map.1 hmem
    have := List.lookup_eq_none_iff.1 h e he
    simp [hkey] at this
  | some value =>
    obtain ⟨l₁, l₂, hsplit, -⟩ := List.lookup_eq_some_iff.1 h
    exact .inl ⟨value, by simp [hsplit], rfl⟩

/-- A letter of the maps is small and names its capital, or names its small letter; `Ĩ` and `Ũ` are
    their own capitals. -/
lemma letters_case : ∀ n ∈ letters,
    let ch := UInt16.ofNat n
    (isSmallViet ch = true ∧ namedLower ch = none ∧ (namedUpper ch).any (· != ch)) ∨
      isSmallViet ch = false ∧ ((namedLower ch).any (· != ch) ∨
        ch ∈ [(0x128 : UInt16), 0x168] ∧ namedUpper ch = none) := by
  decide +kernel

section Filing

variable [WideCase]

/-- Whether a letter of the maps is small does not depend on the locale. -/
lemma IsLowerViet_letter {n} (hn : n ∈ letters) :
    IsLowerViet (.ofNat n) = isSmallViet (.ofNat n) := by
  unfold IsLowerViet ToLowerVietnamese ToUpperVietnamese
  obtain ⟨hsmall, hlow, hup⟩ | ⟨hsmall, hlow | ⟨hmem, hup⟩⟩ := letters_case n hn
  · obtain ⟨d, hd, hne⟩ := (Option.any_eq_true _ _).1 hup
    simp [hsmall, hlow, hd, WideCase.towlower_small _ hsmall, by simpa using hne]
  · obtain ⟨d, hd, hne⟩ := (Option.any_eq_true _ _).1 hlow
    have hd' : d ≠ .ofNat n := by simpa using hne
    simp [hsmall, hd, hd']
  · simp [hsmall, hup, WideCase.towupper_capital _ hmem]

/-- The entry a letter of TCVN3 is filed as. -/
def tcvn3Entry (e : Nat × Nat) : Option (Nat × UInt16) := some (e.2, .ofNat e.1)

/-- The entry a letter of one byte is filed as. -/
def singleEntry (e : Nat × Nat) : Option (Nat × UInt16) :=
  if e.2 ≤ 0xFF then some (e.2, .ofNat e.1) else none

/-- The entry a letter of two bytes is filed as. -/
def pairEntry (e : Nat × Nat) : Option (Nat × UInt16) :=
  if e.2 ≤ 0xFF then none
  else some (pairKey (e.2 % 0x100) (e.2 / 0x100 % 0x100), .ofNat e.1)

/-- The entry a letter with a combining mark is filed as. -/
def compoundEntry (e : Nat × Nat) : Option (Nat × UInt16) :=
  (DecodeCompound e.2).secondary.map fun mark =>
    (pairKey (DecodeCompound e.2).primary.toNat mark.toNat, .ofNat e.1)

/-- The reverse table of TCVN3. -/
lemma filed_tcvn3 (visit : Visit kTcvn3Map) :
    Filed IsLowerViet (kTcvn3Map.filterMap tcvn3Entry) (GetTcvn3Reverse visit) :=
  (Filed.foldl tcvn3Entry _ visit.order fun _ _ => rfl).perm (visit.perm.filterMap _)

/-- The reverse table of the compound Unicode. -/
lemma filed_compound (visit : Visit kUnicodeCompoundMap) :
    Filed IsLowerViet (kUnicodeCompoundMap.filterMap compoundEntry) (GetCompoundReverse visit) := by
  refine (Filed.foldl compoundEntry _ visit.order ?_).perm (visit.perm.filterMap _)
  intro rev e
  unfold compoundEntry
  cases h : (DecodeCompound e.2).secondary <;> simp [h, insertReverse]

/-- The reverse table of the single units. -/
lemma filed_single {forward} (visit : Visit forward) :
    Filed IsLowerViet (forward.filterMap singleEntry) (BuildReversePairMap visit).single := by
  have h : (BuildReversePairMap visit).single = visit.order.foldl
      (fun rev e => (singleEntry e).elim rev fun kv => insertReverse rev kv.1 kv.2) fun _ => none := by
    refine (List.foldl_hom ReversePairMap.single ?_).symm
    intro maps e
    unfold singleEntry
    split <;> rfl
  rw [h]
  exact (Filed.foldl singleEntry _ visit.order fun _ _ => rfl).perm (visit.perm.filterMap _)

/-- The reverse table of the pairs. -/
lemma filed_pair {forward} (visit : Visit forward) :
    Filed IsLowerViet (forward.filterMap pairEntry) (BuildReversePairMap visit).pair := by
  have h : (BuildReversePairMap visit).pair = visit.order.foldl
      (fun rev e => (pairEntry e).elim rev fun kv => insertReverse rev kv.1 kv.2) fun _ => none := by
    refine (List.foldl_hom ReversePairMap.pair ?_).symm
    intro maps e
    unfold pairEntry
    split <;> rfl
  rw [h]
  exact (Filed.foldl pairEntry _ visit.order fun _ _ => rfl).perm (visit.perm.filterMap _)

end Filing

/-- The key of a pair as a number. -/
lemma pairKey_eq {first second : Nat} (h : second < 0x10000) :
    pairKey first second = first * 0x10000 + second := by
  unfold pairKey
  rw [← Nat.shiftLeft_add_eq_or_of_lt h, Nat.shiftLeft_eq]

/-- The key tells the pair. -/
lemma pairKey_inj {a b c d : Nat} (hb : b < 0x10000) (hd : d < 0x10000)
    (h : pairKey a b = pairKey c d) : a = c ∧ b = d := by
  rw [pairKey_eq hb, pairKey_eq hd] at h
  omega

/-- The entries of single units. -/
lemma mem_singleEntry {forward : List (Nat × Nat)} {key w} :
    (key, w) ∈ forward.filterMap singleEntry ↔
      ∃ n, (n, key) ∈ forward ∧ key ≤ 0xFF ∧ UInt16.ofNat n = w := by
  constructor
  · intro h
    obtain ⟨e, he, hentry⟩ := List.mem_filterMap.1 h
    unfold singleEntry at hentry
    split at hentry
    · next hle =>
      simp only [Option.some.injEq, Prod.mk.injEq] at hentry
      obtain ⟨rfl, rfl⟩ := hentry
      exact ⟨e.1, he, hle, rfl⟩
    · cases hentry
  · rintro ⟨n, hn, hle, rfl⟩
    exact List.mem_filterMap.2 ⟨_, hn, if_pos hle⟩

/-- The entries of pairs. -/
lemma mem_pairEntry {forward : List (Nat × Nat)} {key w} :
    (key, w) ∈ forward.filterMap pairEntry ↔
      ∃ n value, (n, value) ∈ forward ∧ 0xFF < value ∧
        pairKey (value % 0x100) (value / 0x100 % 0x100) = key ∧ UInt16.ofNat n = w := by
  constructor
  · intro h
    obtain ⟨e, he, hentry⟩ := List.mem_filterMap.1 h
    unfold pairEntry at hentry
    split at hentry
    · cases hentry
    · next hgt =>
      simp only [Option.some.injEq, Prod.mk.injEq] at hentry
      exact ⟨e.1, e.2, he, Nat.lt_of_not_le hgt, hentry.1, hentry.2⟩
  · rintro ⟨n, value, hn, hgt, rfl, rfl⟩
    exact List.mem_filterMap.2 ⟨_, hn, if_neg (Nat.not_le.2 hgt)⟩

end CodeTableConverter

end NextKey
