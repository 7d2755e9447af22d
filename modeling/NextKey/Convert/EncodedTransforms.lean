import NextKey.Convert.QuickConvert
import NextKey.Convert.UnitCase
import NextKey.Lib.Scan

/-!
# Transforming an encoded text

In the non-sequential mode the options are applied to the units of the destination table. Which characters
and which neighbours they then treat as they would treat the decoded text is told exactly, table by table.
-/

namespace NextKey.QuickConvert

open CodeTableConverter

/-- The case option that is applied: the first one of those that are on. -/
inductive Casing where
  | keep
  | upper
  | lower
  /-- the first letter of every sentence, or of each word -/
  | capital (each : Bool)
  deriving DecidableEq

/-- The case option of a configuration. -/
def casing (config : ConvertConfig) : Casing :=
  if config.allCaps then .upper
  else if config.allLower then .lower
  else if config.capsFirst then .capital false
  else if config.capsEach then .capital true
  else .keep

/-- What a case option makes of a unit, at a start or not. -/
def Casing.write [WideCase] : Casing → Bool → UInt16 → UInt16
  | .keep, _, ch => ch
  | .upper, _, ch => ToUpperVietnamese ch
  | .lower, _, ch => ToLowerVietnamese ch
  | .capital _, start, ch =>
    if IsAlpha ch then if start then ToUpperVietnamese ch else ToLowerVietnamese ch else ch

/-- Whether a sentence or word still has to start after a character, where `letter` tells what starts
    one. -/
def Casing.after [WideChars] (letter : UInt16 → Bool) : Casing → Bool → UInt16 → Bool
  | .capital false, start, ch => !letter ch && (start || endsSentence ch)
  | .capital true, _, ch => !letter ch && WideChars.iswspace ch
  | _, start, _ => start

/-- What is left of a unit where marks are removed. -/
def strip [WideCase] (removeMark : Bool) (ch : UInt16) : UInt16 := if removeMark then bare ch else ch

/-- A letter ends no sentence. -/
lemma not_end_of_alpha {ch : UInt16} (h : IsAlpha ch = true) : endsSentence ch = false := by
  rw [Bool.eq_false_iff]
  intro hend
  simp only [endsSentence, Bool.or_eq_true, beq_iff_eq, or_assoc] at hend
  obtain rfl | rfl | rfl | rfl := hend <;> cases h

section Loop

variable [WideChars]

/-- The mark option and a case option as one loop. -/
def optionLoop (removeMark : Bool) (c : Casing) : Scan Bool UInt16 UInt16 where
  next := c.after IsAlpha
  write start ch := c.write start (strip removeMark ch)

/-- A unit without its mark is itself or a letter for a letter. -/
lemma strip_cases (removeMark : Bool) (ch : UInt16) :
    strip removeMark ch = ch ∨ IsAlpha ch = true ∧ IsAlpha (strip removeMark ch) = true := by
  unfold strip
  split
  · obtain h | ⟨⟨-, h⟩, -, h'⟩ := bare_cases ch
    · exact .inl h
    · exact .inr ⟨h, h'⟩
  · exact .inl rfl

/-- The loop of the sentence and title cases, which carries the flag on at a letter. -/
lemma capitalize_map {removeMark : Bool} {flag : Bool → UInt16 → Bool} {each : Bool}
    (hflag : ∀ start ch, Casing.after IsAlpha (.capital each) start ch = (!IsAlpha ch && flag start ch))
    (hletter : ∀ ch, IsAlpha ch = true → flag false ch = false) (start : Bool) (input : WText) :
    capitalize flag start (input.map (strip removeMark)) =
      (optionLoop removeMark (.capital each)).run start input := by
  induction input generalizing start with
  | nil => rfl
  | cons ch input ih =>
    have halpha : IsAlpha (strip removeMark ch) = IsAlpha ch := by
      obtain h | ⟨h, h'⟩ := strip_cases removeMark ch
      · rw [h]
      · rw [h, h']
    show capitalize flag start (strip removeMark ch :: _) =
      Casing.write (.capital each) start (strip removeMark ch) ::
        (optionLoop removeMark (.capital each)).run (Casing.after IsAlpha (.capital each) start ch) input
    rw [hflag, ← ih, capitalize, Casing.write, halpha]
    cases hch : IsAlpha ch with
    | true =>
      -- After a letter nothing starts.
      cases start with
      | true => rfl
      | false => rw [hletter _ (halpha.trans hch)]; rfl
    | false =>
      rw [(strip_cases _ ch).resolve_right (by simp [hch]), Bool.and_false]
      rfl

/-- The options are one loop over the text. -/
lemma transform_eq (config : ConvertConfig) (input : WText) :
    (transform config input).1 = (optionLoop config.removeMark (casing config)).run true input := by
  have hstrip : (transform config input).1 = match casing config with
      | .keep => input.map (strip config.removeMark)
      | .upper => ToUpper (input.map (strip config.removeMark))
      | .lower => ToLower (input.map (strip config.removeMark))
      | .capital false => ToSentenceCase (input.map (strip config.removeMark))
      | .capital true => ToTitleCase (input.map (strip config.removeMark)) := by
    unfold transform casing
    cases config.removeMark with
    | true =>
      rw [if_pos rfl]
      split_ifs <;> rfl
    | false =>
      rw [if_neg Bool.false_ne_true, show input.map (strip false) = input from List.map_id' input]
      split_ifs <;> rfl
  rw [hstrip]
  cases casing config with
  | keep => exact (Scan.run_of_forall fun _ _ => rfl).symm
  | upper =>
    rw [ToUpper, List.map_map]
    exact (Scan.run_of_forall fun _ _ => rfl).symm
  | lower =>
    rw [ToLower, List.map_map]
    exact (Scan.run_of_forall fun _ _ => rfl).symm
  | capital each =>
    cases each with
    | false => exact capitalize_map (fun _ _ => rfl) (fun _ hch => not_end_of_alpha hch) true input
    | true =>
      exact capitalize_map (fun _ _ => rfl) (fun ch hch => WideChars.iswspace_letter ch (.inl hch)) true
        input

end Loop

/-- The letters that the loop over the units takes for one. -/
def unitLetter (table : CodeTable) (ch : UInt16) : Bool := IsAlpha ch && !lost ch (ConvertChar ch table)

/-- Whether a sentence or word has to start after a character, for the loop over the units of the table and
    for the loop over the text. -/
def starts [WideChars] (c : Casing) (table : CodeTable) (t : Bool × Bool) (ch : UInt16) : Bool × Bool :=
  (c.after (unitLetter table) t.1 ch, c.after IsAlpha t.2 ch)

/-- The options treat the units of a character as they treat the character. -/
def kept [WideCase] (removeMark : Bool) (c : Casing) (table : CodeTable) (t : Bool × Bool)
    (ch : UInt16) : Bool :=
  if removeMark then decide (ch < 0x80) || (bareUnits table).contains ch
  else
    match c with
    | .keep => true
    | .upper => keptUpper table ch (ConvertChar ch table)
    | .lower => keptLower table ch (ConvertChar ch table)
    | .capital _ => keptCapital table t.1 t.2 ch (ConvertChar ch table)

section Character

variable [WideChars] {table : CodeTable} {removeMark : Bool} {c : Casing} {ch : UInt16}

omit [WideChars] in
/-- An ASCII character is its own unit. -/
lemma ConvertChar_ascii (htable : table ∈ pairTables) (h : ch < 0x80) :
    ConvertChar ch table = ⟨ch, none⟩ := by
  obtain ⟨value, hmem, -⟩ | ⟨-, hcode⟩ := ConvertChar_cases ch table
  · have hletter : ch.toNat ∈ letters := by
      rw [← keys_forwardMap (ne_Unicode htable)]
      exact List.mem_map_of_mem hmem
    exact absurd h (UInt16.not_lt.2 (by simpa using letters_beyond_ascii _ hletter))
  · exact hcode

omit [WideChars] in
/-- What can be encoded is ASCII or a letter of the tables. -/
lemma encodable_cases (h : Encodable ch) : ch < 0x80 ∨ ch.toNat ∈ letters :=
  (encodable_iff.1 h).imp_left UInt16.lt_iff_toNat_lt.2

/-- After a letter or a mark nothing starts. -/
lemma after_letter {letter : UInt16 → Bool} {each : Bool} {u : UInt16} (hu : letter u = true)
    (start : Bool) : Casing.after letter (.capital each) start u = false := by
  cases each <;> simp [Casing.after, hu]

/-- A mark ends a word, and leaves a sentence as it is. -/
lemma after_mark {each : Bool} {v : UInt16} (hv : IsCombiningMark v = true) (start : Bool) :
    Casing.after IsAlpha (.capital each) start v = (!each && start) := by
  have halpha := mark_not_alpha hv
  cases each with
  | true => simp [Casing.after, WideChars.iswspace_letter v (.inr hv)]
  | false =>
    simp only [IsCombiningMark, Bool.or_eq_true, beq_iff_eq, or_assoc] at hv
    have hend : endsSentence v = false := by obtain rfl | rfl | rfl | rfl | rfl := hv <;> rfl
    simp [Casing.after, halpha, hend]

/-- What the units of a letter do to the flag. -/
lemma after_units_letter (htable : table ∈ pairTables) (h : ch.toNat ∈ letters) (each start : Bool) :
    (ConvertChar ch table).units.foldl (Casing.after IsAlpha (.capital each)) start =
      Casing.after (unitLetter table) (.capital each) start ch := by
  obtain ⟨halpha, hfirst, hsecond⟩ := letter_shape htable h
  cases hlost : lost ch (ConvertChar ch table) with
  | false =>
    have hprimary : IsAlpha (ConvertChar ch table).primary = true := by
      simpa [lost, halpha] using hlost
    have hunit : unitLetter table ch = true := by simp [unitLetter, halpha, hlost]
    rw [after_letter hunit, EncodedChar.units, List.foldl_cons, after_letter hprimary]
    cases hsec : (ConvertChar ch table).secondary with
    | none => rfl
    | some v =>
      obtain hv | hv := (hsecond v hsec).1
      · exact after_letter hv false
      · exact (after_mark hv false).trans (Bool.and_false _)
  | true =>
    -- The base is no letter, so the flag comes through to the mark, and through it in a sentence.
    have hprimary : IsAlpha (ConvertChar ch table).primary = false := by
      simpa [lost, halpha] using hlost
    obtain ⟨hend, hmark⟩ := hfirst.resolve_left (by simp [hprimary])
    obtain ⟨v, hsec, hv⟩ := (Option.any_eq_true _ _).1 hmark
    rw [EncodedChar.units, hsec]
    show Casing.after IsAlpha _ (Casing.after IsAlpha _ start _) v = _
    rw [after_mark hv]
    have hunit : unitLetter table ch = false := by simp [unitLetter, hlost]
    cases each with
    | true => simp [Casing.after, WideChars.iswspace_letter ch (.inl halpha)]
    | false => simp [Casing.after, hprimary, hend, hunit, not_end_of_alpha halpha]

omit [WideChars] in
/-- ASCII is not lost. -/
lemma lost_ascii (htable : table ∈ pairTables) (h : ch < 0x80) :
    lost ch (ConvertChar ch table) = false := by
  rw [ConvertChar_ascii htable h, lost]
  cases IsAlpha ch <;> rfl

omit [WideChars] in
/-- An ASCII unit is a letter when it is one. -/
lemma unitLetter_ascii (htable : table ∈ pairTables) (h : ch < 0x80) :
    unitLetter table ch = IsAlpha ch := by
  rw [unitLetter, lost_ascii htable h, Bool.not_false, Bool.and_true]

/-- What the units of a character do to the flag. -/
lemma after_units (htable : table ∈ pairTables) (h : Encodable ch) (start : Bool) :
    (ConvertChar ch table).units.foldl (c.after IsAlpha) start = c.after (unitLetter table) start ch := by
  obtain h | h := encodable_cases h
  · have hsame := unitLetter_ascii htable h
    rw [ConvertChar_ascii htable h]
    show c.after IsAlpha start ch = _
    cases c with
    | capital each => cases each <;> simp [Casing.after, hsame]
    | _ => rfl
  · cases c with
    | capital each => exact after_units_letter htable h each start
    | _ =>
      unfold EncodedChar.units
      cases (ConvertChar ch table).secondary <;> rfl

/-- What is written of the units of a character: the flag is of no account for the second one. -/
lemma run_units (htable : table ∈ pairTables) (h : Encodable ch) (start : Bool) :
    (optionLoop removeMark c).run start (ConvertChar ch table).units =
      cased (fun u => c.write start (strip removeMark u)) (fun u => c.write false (strip removeMark u))
        (ConvertChar ch table) := by
  unfold EncodedChar.units cased
  cases hsec : (ConvertChar ch table).secondary with
  | none => rfl
  | some v =>
    have hletter : ch.toNat ∈ letters := by
      obtain h | h := encodable_cases h
      · rw [ConvertChar_ascii htable h] at hsec
        cases hsec
      · exact h
    obtain ⟨-, hfirst, -⟩ := letter_shape htable hletter
    have hflag : c.write (c.after IsAlpha start (ConvertChar ch table).primary) (strip removeMark v) =
        c.write false (strip removeMark v) := by
      cases c with
      | capital each =>
        obtain hprimary | ⟨-, hmark⟩ := hfirst
        · rw [after_letter hprimary]
        · have halpha := mark_not_alpha (show IsCombiningMark v = true by simpa [hsec] using hmark)
          rw [(strip_cases _ v).resolve_right (by simp [halpha]), Casing.write, Casing.write, halpha]
          rfl
      | _ => rfl
    show [_, c.write (c.after IsAlpha start _) (strip removeMark v)] = _
    rw [hflag]
    rfl

/-- What is written of a unit is the unit in one of the cases. -/
lemma exists_case (c : Casing) (start : Bool) (u : UInt16) :
    ∃ f ∈ [id, ToUpperVietnamese, ToLowerVietnamese], c.write start u = f u := by
  cases c with
  | keep => exact ⟨_, .head _, rfl⟩
  | upper => exact ⟨_, .tail _ (.head _), rfl⟩
  | lower => exact ⟨_, .tail _ (.tail _ (.head _)), rfl⟩
  | capital each =>
    simp only [Casing.write]
    split_ifs
    · exact ⟨_, .tail _ (.head _), rfl⟩
    · exact ⟨_, .tail _ (.tail _ (.head _)), rfl⟩
    · exact ⟨_, .head _, rfl⟩

/-- A unit is written as it is, in upper case or in lower case. -/
lemma write_cases (c : Casing) (start : Bool) (u : UInt16) :
    c.write start u = u ∨ c.write start u = ToUpperVietnamese u ∨
      c.write start u = ToLowerVietnamese u := by
  obtain ⟨f, hf, hwrite⟩ := exists_case c start u
  simp only [List.mem_cons, List.not_mem_nil, or_false] at hf
  obtain rfl | rfl | rfl := hf
  · exact .inl hwrite
  · exact .inr (.inl hwrite)
  · exact .inr (.inr hwrite)

/-- ASCII is written as ASCII. -/
lemma write_ascii {u : UInt16} (hu : u < 0x80) (c : Casing) (start : Bool) : c.write start u < 0x80 := by
  obtain ⟨hup, hlow⟩ := (case_of_hasAsciiCase (by simp [hasAsciiCase, hu])).1 hu
  obtain h | h | h := write_cases c start u
  · rwa [h]
  · rwa [h]
  · rwa [h]

/-- A block starts with a unit that completes no pair. -/
lemma completes_write (htable : table ∈ pairTables) (h : Encodable ch) (start : Bool) :
    completes table (c.write start (strip removeMark (ConvertChar ch table).primary)) = false := by
  by_cases hu : strip removeMark (ConvertChar ch table).primary < 0x80
  · exact completes_ascii htable (write_ascii hu c start)
  · -- A unit that is not ASCII is the one of the letter, with its mark.
    have hsame : strip removeMark (ConvertChar ch table).primary = (ConvertChar ch table).primary := by
      cases removeMark with
      | false => rfl
      | true =>
        obtain hbare | ⟨-, hbare, -⟩ := bare_cases (ConvertChar ch table).primary
        · exact hbare
        · exact absurd hbare hu
    rw [hsame] at hu ⊢
    obtain h | h := encodable_cases h
    · rw [ConvertChar_ascii htable h] at hu
      exact absurd h hu
    · obtain ⟨hstart, hup, hlow⟩ := letter_start htable h
      obtain h | h | h := write_cases c start (ConvertChar ch table).primary
      · rwa [h]
      · rwa [h]
      · rwa [h]

/-- On a known unit the sentence and title cases are the capital or the small letter. -/
lemma capital_write {each : Bool} {u : UInt16} (hu : known u = true) (start : Bool) :
    Casing.write (.capital each) start u =
      if start then ToUpperVietnamese u else ToLowerVietnamese u := by
  cases halpha : IsAlpha u with
  | true => simp only [Casing.write, halpha, if_true]
  | false =>
    obtain ⟨hup, hlow⟩ := case_of_not_alpha hu halpha
    simp only [Casing.write, halpha, hup, hlow, ite_self]

/-- Away from a start the sentence and title cases keep what the small letters keep. -/
lemma keptCapital_rest (htable : table ∈ pairTables) :
    keptCapital table false false ch (ConvertChar ch table) =
      keptLower table ch (ConvertChar ch table) := by
  simp only [pairTables, List.mem_cons, List.not_mem_nil, or_false] at htable
  obtain rfl | rfl | rfl := htable
  · rfl
  · cases hlost : lost ch (ConvertChar ch .UnicodeCompound) with
    | false => simp [keptCapital, hlost]
    | true => simp [keptCapital, keptLower, hlost, not_left_of_lost hlost]
  · rfl

/-- One letter whose marks stay. -/
lemma read_letter (htable : table ∈ pairTables) (h : ch.toNat ∈ letters) {t : Bool × Bool}
    (hone : table ≠ .UnicodeCompound → t.1 = t.2) (hle : t.2 = true → t.1 = true) :
    PairCode.decode (readPair table) (readSingle table)
        (cased (c.write t.1) (c.write false) (ConvertChar ch table)) = [c.write t.2 ch] ↔
      kept false c table t ch = true := by
  cases c with
  | keep =>
    have hunits : cased (Casing.write .keep t.1) (Casing.write .keep false) (ConvertChar ch table) =
        (ConvertChar ch table).units := by
      unfold cased EncodedChar.units
      rw [show (ConvertChar ch table).secondary.toList.map (Casing.write .keep false) = _ from
        List.map_id' _]
      rfl
    rw [hunits]
    exact iff_of_true (read_units htable (encodable_iff.2 (.inr h))) rfl
  | upper => exact read_upper htable h
  | lower => exact read_lower htable h
  | capital each =>
    obtain ⟨hknown, -⟩ := letter_known htable h
    rw [capital_write hknown, cased_congr htable h (fun u hu _ => capital_write hu t.1)
      (fun u hu _ => capital_write hu false)]
    obtain ⟨unitStart, start⟩ := t
    cases start with
    | true =>
      obtain rfl : unitStart = true := hle rfl
      exact read_start htable h
    | false =>
      cases unitStart with
      | false =>
        show _ ↔ keptCapital table false false ch _ = true
        rw [keptCapital_rest htable]
        exact read_lower htable h
      | true =>
        obtain rfl : table = .UnicodeCompound := by
          by_contra htbl
          cases hone htbl
        exact read_late h

omit [WideChars] in
/-- ASCII can be encoded. -/
lemma encodable_ascii (h : ch < 0x80) : Encodable ch :=
  encodable_iff.2 (.inl (UInt16.lt_iff_toNat_lt.1 h))

omit [WideChars] in
/-- An ASCII character is read as it is. -/
lemma read_one (htable : table ∈ pairTables) (h : ch < 0x80) :
    PairCode.decode (readPair table) (readSingle table) [ch] = [ch] := by
  have hunits := read_units htable (encodable_ascii h)
  rwa [ConvertChar_ascii htable h] at hunits

/-- One ASCII character whose marks stay. -/
lemma read_ascii (htable : table ∈ pairTables) (h : ch < 0x80) {t : Bool × Bool}
    (hone : table ≠ .UnicodeCompound → t.1 = t.2) :
    PairCode.decode (readPair table) (readSingle table)
        (cased (c.write t.1) (c.write false) (ConvertChar ch table)) = [c.write t.2 ch] ↔
      kept false c table t ch = true := by
  have hread : ∀ start, PairCode.decode (readPair table) (readSingle table)
      (cased (c.write start) (c.write false) (ConvertChar ch table)) = [c.write start ch] := by
    intro start
    rw [ConvertChar_ascii htable h]
    exact read_one htable (write_ascii h c start)
  rw [hread]
  have hascii : hasAsciiCase ch = true := by simp [hasAsciiCase, h]
  have hcode := ConvertChar_ascii htable h
  have hlost := lost_ascii htable h
  have hleft : ch ∉ leftToLibrary := (known_of_hasAsciiCase hascii).2
  obtain ⟨hupper, hstart, hlower⟩ := kept_of_single htable (by rw [hcode]) hlost
  cases c with
  | keep => exact iff_of_true rfl rfl
  | upper => exact iff_of_true rfl hupper
  | lower => exact iff_of_true rfl (hlower hleft)
  | capital each =>
    show _ ↔ keptCapital table t.1 t.2 ch (ConvertChar ch table) = true
    obtain ⟨unitStart, start⟩ := t
    by_cases hsame : unitStart = start
    · subst hsame
      refine iff_of_true rfl ?_
      cases unitStart with
      | true => exact hstart
      | false => exact (keptCapital_rest htable).trans (hlower hleft)
    · obtain rfl : table = .UnicodeCompound := by
        by_contra htbl
        exact hsame (hone htbl)
      have hkept : keptCapital .UnicodeCompound unitStart start ch (ConvertChar ch .UnicodeCompound) =
          !IsAlpha ch := by
        simp [keptCapital, hlost, hleft, hsame, hlower hleft]
      obtain ⟨hknown, -⟩ := known_of_hasAsciiCase hascii
      have hcase := (case_of_hasAsciiCase hascii).2
      rw [hkept, capital_write hknown, capital_write hknown]
      cases halpha : IsAlpha ch with
      | false =>
        rw [halpha] at hcase
        simp [hcase.1, hcase.2]
      | true =>
        rw [halpha, if_pos rfl] at hcase
        refine iff_of_false (fun heq => ?_) Bool.false_ne_true
        replace heq := List.head_eq_of_cons_eq heq
        cases unitStart with
        | true =>
          cases start with
          | true => exact hsame rfl
          | false => exact hcase heq
        | false =>
          cases start with
          | true => exact hcase heq.symm
          | false => exact hsame rfl

/-- A letter that keeps its mark in its units is not read without it, in whatever case. -/
lemma read_bare_ne (htable : table ∈ pairTables) (h : ch.toNat ∈ letters) (hch : ch ∉ bareUnits table)
    (unitStart start : Bool) :
    PairCode.decode (readPair table) (readSingle table)
        (cased (fun u => c.write unitStart (bare u)) (fun u => c.write false (bare u))
          (ConvertChar ch table)) ≠ [c.write start (bare ch)] := by
  have hlt := write_ascii (bare_letter h).1 c start
  unfold cased
  cases hsec : (ConvertChar ch table).secondary with
  | some v =>
    -- Two units are no ASCII character.
    intro heq
    have hunits := (read_pair_iff htable (encodable_ascii hlt)).1 heq
    rw [ConvertChar_ascii htable hlt] at hunits
    exact absurd (congrArg List.length hunits) (show ¬(1 = 2) by decide)
  | none =>
    intro heq
    have hread := List.head_eq_of_cons_eq (show [readSingle table _] = [_] from heq)
    rw [readSingle_ascii htable (by rw [hread]; exact hlt)] at hread
    obtain ⟨f, hf, hfu⟩ := exists_case c unitStart (bare (ConvertChar ch table).primary)
    obtain ⟨g, hg, hgu⟩ := exists_case c start (bare ch)
    exact bare_ne_of_single htable h hch hsec hf hg (hfu.symm.trans (hread.trans hgu))

/-- An ASCII character, and a letter of `bareUnits`, is one unit that loses its mark with it. -/
lemma bare_single (htable : table ∈ pairTables) (h : Encodable ch)
    (hkept : ch < 0x80 ∨ ch ∈ bareUnits table) :
    (ConvertChar ch table).secondary = none ∧ bare (ConvertChar ch table).primary = bare ch ∧
      bare ch < 0x80 := by
  obtain h | h := encodable_cases h
  · have hsame : bare ch = ch := (bare_cases ch).resolve_right fun hbig => UInt16.not_le.2 h hbig.1.1
    rw [ConvertChar_ascii htable h]
    exact ⟨rfl, rfl, by rwa [hsame]⟩
  · have hch := hkept.resolve_left fun hlt =>
      UInt16.not_lt.2 (by simpa using letters_beyond_ascii _ h) hlt
    obtain ⟨hone, hbare⟩ := bareUnits_spec htable h hch
    exact ⟨hone, hbare, (bare_letter h).1⟩

/-- A character that loses its mark with its unit is read without it. -/
lemma read_bare (htable : table ∈ pairTables) (h : Encodable ch)
    (hkept : ch < 0x80 ∨ ch ∈ bareUnits table) (start : Bool) :
    PairCode.decode (readPair table) (readSingle table)
        (cased (fun u => c.write start (bare u)) (fun u => c.write false (bare u))
          (ConvertChar ch table)) = [c.write start (bare ch)] := by
  obtain ⟨hone, hbare, hlt⟩ := bare_single htable h hkept
  unfold cased
  rw [hone]
  show PairCode.decode _ _ [c.write start (bare _)] = _
  rw [hbare]
  exact read_one htable (write_ascii hlt c start)

omit [WideChars] in
/-- A character that loses its mark with its unit is a letter for the loop over the units if it is one. -/
lemma unitLetter_of_single (htable : table ∈ pairTables) (h : Encodable ch)
    (hone : (ConvertChar ch table).secondary = none) : unitLetter table ch = IsAlpha ch := by
  obtain h | h := encodable_cases h
  · exact unitLetter_ascii htable h
  · rw [unitLetter, not_lost_of_single htable h hone, Bool.not_false, Bool.and_true]

omit [WideChars] in
/-- But for compound Unicode the first unit tells a letter. -/
lemma unitLetter_of_ne (htable : table ∈ pairTables) (h : Encodable ch) (hne : table ≠ .UnicodeCompound) :
    unitLetter table ch = IsAlpha ch := by
  obtain h | h := encodable_cases h
  · exact unitLetter_ascii htable h
  · rw [unitLetter, not_lost htable h hne, Bool.not_false, Bool.and_true]

end Character

section Text

variable [WideChars] {table : CodeTable} {c : Casing} {text : WText}

/-- What follows depends on whether it was a letter. -/
lemma after_congr {letter letter' : UInt16 → Bool} {ch : UInt16} (h : letter ch = letter' ch)
    (start : Bool) : c.after letter start ch = c.after letter' start ch := by
  cases c with
  | capital each => cases each <;> simp [Casing.after, h]
  | _ => rfl

/-- What starts for the loop over the text starts for the loop over the units. -/
lemma starts_le {t : Bool × Bool} (hle : t.2 = true → t.1 = true) (ch : UInt16) :
    (starts c table t ch).2 = true → (starts c table t ch).1 = true := by
  cases c with
  | capital each =>
    cases each with
    | false =>
      simp only [starts, Casing.after, unitLetter, Bool.and_eq_true, Bool.or_eq_true, Bool.not_eq_true']
      rintro ⟨halpha, hstart⟩
      exact ⟨by simp [halpha], hstart.imp_left hle⟩
    | true =>
      simp only [starts, Casing.after, unitLetter, Bool.and_eq_true, Bool.not_eq_true']
      rintro ⟨halpha, hspace⟩
      exact ⟨by simp [halpha], hspace⟩
  | _ => exact hle

/-- Where marks stay, what is read of a block is told character by character. -/
lemma read_block_iff (htable : table ∈ pairTables) (htext : ∀ ch ∈ text, Encodable ch)
    {p : (Bool × Bool) × UInt16} (hp : p ∈ Scan.seen (starts c table) (true, true) text) :
    PairCode.decode (readPair table) (readSingle table)
        ((optionLoop false c).run p.1.1 (ConvertChar p.2 table).units) =
      [(optionLoop false c).write p.1.2 p.2] ↔ kept false c table p.1 p.2 = true := by
  have hmem := htext _ (Scan.mem_of_mem_seen hp)
  obtain ⟨hone, hle⟩ := Scan.rel_of_mem_seen
    (R := fun t => (table ≠ .UnicodeCompound → t.1 = t.2) ∧ (t.2 = true → t.1 = true))
    (fun t ht ch hch => by
      refine ⟨fun hne => ?_, starts_le ht.2 ch⟩
      show c.after (unitLetter table) t.1 ch = c.after IsAlpha t.2 ch
      rw [ht.1 hne]
      exact after_congr (unitLetter_of_ne htable (htext ch hch) hne) _)
    ⟨fun _ => rfl, fun _ => rfl⟩ hp
  rw [run_units htable hmem]
  obtain h | h := encodable_cases hmem
  · exact read_ascii htable h hone
  · exact read_letter htable h hone hle

/-- Where marks are removed, a letter outside `bareUnits` is read with its mark, and before the first
    such letter the flags are one. -/
lemma read_bare_iff (htable : table ∈ pairTables) (htext : ∀ ch ∈ text, Encodable ch) :
    (∀ p ∈ Scan.seen (starts c table) (true, true) text,
      PairCode.decode (readPair table) (readSingle table)
          ((optionLoop true c).run p.1.1 (ConvertChar p.2 table).units) =
        [(optionLoop true c).write p.1.2 p.2]) ↔
    ∀ p ∈ Scan.seen (starts c table) (true, true) text, kept true c table p.1 p.2 = true := by
  have hkept : ∀ t ch, kept true c table t ch = true ↔ ch < 0x80 ∨ ch ∈ bareUnits table := by
    intro t ch
    show (decide (ch < 0x80) || (bareUnits table).contains ch) = true ↔ _
    simp
  constructor
  · intro hread p hp
    have hmem := htext _ (Scan.mem_of_mem_seen hp)
    rw [hkept]
    by_contra hno
    obtain ⟨hbig, hmark⟩ := not_or.1 hno
    have hp' := hread p hp
    rw [run_units htable hmem] at hp'
    exact read_bare_ne htable ((encodable_cases hmem).resolve_left hbig) hmark p.1.1 p.1.2 hp'
  · intro hall p hp
    have hmem := htext _ (Scan.mem_of_mem_seen hp)
    have hsame : p.1.1 = p.1.2 := by
      refine Scan.rel_of_mem_seen (R := fun t => t.1 = t.2) (fun t ht ch hch => ?_) rfl hp
      obtain ⟨q, hq, rfl⟩ := Scan.exists_mem_seen (starts c table) (true, true) hch
      obtain ⟨hone, -⟩ := bare_single htable (htext _ hch) ((hkept _ _).1 (hall q hq))
      show c.after (unitLetter table) t.1 q.2 = c.after IsAlpha t.2 q.2
      rw [ht]
      exact after_congr (unitLetter_of_single htable (htext _ hch) hone) _
    rw [run_units htable hmem, hsame]
    exact read_bare htable hmem ((hkept _ _).1 (hall p hp)) p.1.2

/-- Whether the options act on the units of a text as on the text. -/
lemma read_transformed_iff (htable : table ∈ pairTables) (removeMark : Bool)
    (htext : ∀ ch ∈ text, Encodable ch) :
    PairCode.decode (readPair table) (readSingle table)
        ((optionLoop removeMark c).run true (EncodeString text table)) =
      (optionLoop removeMark c).run true text ↔
    ∀ p ∈ Scan.seen (starts c table) (true, true) text, kept removeMark c table p.1 p.2 = true := by
  have hencode : EncodeString text table = text.flatMap fun ch => (ConvertChar ch table).units := by
    cases table with
    | Unicode => exact absurd rfl (ne_Unicode htable)
    | _ => rfl
  have hmem : ∀ p ∈ Scan.seen (starts c table) (true, true) text, Encodable p.2 :=
    fun p hp => htext _ (Scan.mem_of_mem_seen hp)
  -- The loop over the units goes block by block, and so does reading what it wrote.
  have hrun : (optionLoop removeMark c).run true (text.flatMap fun ch => (ConvertChar ch table).units) =
      (Scan.seen (starts c table) (true, true) text).flatMap fun p =>
        (optionLoop removeMark c).run p.1.1 (ConvertChar p.2 table).units :=
    Scan.run_flatMap (t := (true, true)) Prod.fst fun t ch hch => after_units htable (htext ch hch) t.1
  have hplain : (optionLoop removeMark c).run true text =
      (Scan.seen (starts c table) (true, true) text).map fun p =>
        (optionLoop removeMark c).write p.1.2 p.2 :=
    Scan.run_eq_map_seen (t := (true, true)) Prod.snd fun t ch _ => rfl
  rw [hencode, hrun, hplain, PairCode.decode_flatMap, List.flatMap_eq_map_iff]
  · cases removeMark with
    | false => exact forall₂_congr fun p hp => read_block_iff htable htext hp
    | true => exact read_bare_iff htable htext
  · intro p hp
    apply PairCode.decode_ne_nil
    rw [run_units htable (hmem p hp)]
    exact List.cons_ne_nil _ _
  · intro p hp v hv u
    rw [run_units htable (hmem p hp)] at hv
    obtain rfl := Option.some.inj hv
    exact readPair_eq_none htable (completes_write htable (hmem p hp) _) u

end Text

section Conversion

variable [WideChars] (orders : MapOrders) (config : ConvertConfig) {source dest : CodeTable}

/-- Between two tables the options are applied to the units of the destination table. -/
lemma convertAll_eq (hne : source ≠ dest)
    (hsource : CodeTable.ofInt? config.sourceEncoding.toNat = some source)
    (hdest : CodeTable.ofInt? config.destEncoding.toNat = some dest) (input : WText) :
    (convertAll orders config input).1 =
      (transform config (EncodeString (DecodeString orders input source) dest)).1 := by
  have hbytes : config.sourceEncoding ≠ config.destEncoding := by
    intro hsame
    rw [hsame, hdest] at hsource
    exact hne (Option.some.inj hsource).symm
  unfold convertAll encodeTo decodeFrom
  rw [if_pos hbytes, hsource, hdest]
  rfl

/-- Reading the result by the destination table gives the options applied to the text exactly where each
    character keeps, in its units, what the options make of it. -/
theorem DecodeString_convertAll_iff (hdest : dest ∈ pairTables) (hne : source ≠ dest)
    (hfrom : CodeTable.ofInt? config.sourceEncoding.toNat = some source)
    (hto : CodeTable.ofInt? config.destEncoding.toNat = some dest) (s : WText)
    (hs : ∀ ch ∈ s, Encodable ch) :
    let text := DecodeString orders (EncodeString s source) source
    DecodeString orders (convertAll orders config (EncodeString s source)).1 dest =
        (transform config text).1 ↔
      ∀ p ∈ Scan.seen (starts (casing config) dest) (true, true) text,
        kept config.removeMark (casing config) dest p.1 p.2 = true := by
  intro text
  rw [convertAll_eq orders config hne hfrom hto, DecodeString_eq orders hdest, transform_eq, transform_eq]
  exact read_transformed_iff hdest config.removeMark (encodable_DecodeString orders source hs)

end Conversion

section Ascii

attribute [local instance] WideChars.ascii

/-- A word in capitals. -/
theorem DecodeString_convertAll_word :
    DecodeString .written
        (convertAll .written { allCaps := true, sourceEncoding := 0, destEncoding := 2 }
          (EncodeString [0x56, 0x69, 0x1EC7, 0x74] .Unicode)).1 .VNIWindows =
      [0x56, 0x49, 0x1EC6, 0x54] :=
  ((DecodeString_convertAll_iff .written
    { allCaps := true, sourceEncoding := 0, destEncoding := 2 } (by decide)
    (by decide) (by rfl) rfl _ (List.all_iff_forall_prop.1 (by decide +kernel))).2
      (List.all_iff_forall_prop.1 (by decide +kernel))).trans (by decide +kernel)

/-- Without its mark `á` stays two bytes in VNI, and the second one is read as a letter. -/
theorem not_DecodeString_convertAll_bare :
    ¬ ∀ (config : ConvertConfig) (source dest : CodeTable), dest ∈ pairTables → source ≠ dest →
      CodeTable.ofInt? config.sourceEncoding.toNat = some source →
      CodeTable.ofInt? config.destEncoding.toNat = some dest →
      ∀ s : WText, (∀ ch ∈ s, Encodable ch) →
        DecodeString .written (convertAll .written config (EncodeString s source)).1 dest =
          (transform config (DecodeString .written (EncodeString s source) source)).1 := by
  intro hclaim
  have h := hclaim { removeMark := true, sourceEncoding := 0, destEncoding := 2 } .Unicode .VNIWindows
    (by decide) (by decide) rfl rfl [0xE1] (List.all_iff_forall_prop.1 (by decide +kernel))
  rw [DecodeString_eq .written (by decide)] at h
  exact absurd h (by decide +kernel)

end Ascii

end NextKey.QuickConvert
