import Mathlib.Data.List.Forall2
import NextKey.Macro.Case

/-!
# The lines of a macro

Adapting the case of an expansion leaves its line structure: `Plan` and `BuildSegments` look for the
escape of a line break on their own, and both find the same ones, since the case of an escape is left
alone and no other pair of characters becomes one. The mapper may take different characters to one upper
case, and an upper case to a lower case that is not the one it came from.
-/

namespace NextKey

/-- Characters are mapped one by one, and in their case only: no other character has a backslash or an
    `n` as its upper case. -/
structure CaseMapper.CaseOnly (mapper : CaseMapper) (up : UInt16 → UInt16) : Prop where
  upper : ∀ s, mapper.Upper s = s.map up
  upper_backslash : ∀ c, up c = backslash → c = backslash
  upper_letterN : ∀ c, up c = letterN → c = letterN

namespace Macro

/-- A character, or its upper case. -/
def SameUpToCase (up : UInt16 → UInt16) (c' c : UInt16) : Prop := c' = c ∨ c' = up c

/-- The same kind of segment, as long, and character by character the same up to case. -/
def Segment.SameUpToCase (up : UInt16 → UInt16) (segment other : Segment) : Prop :=
  segment.isReturn = other.isReturn ∧ segment.text.length = other.text.length ∧
    List.Forall₂ (Macro.SameUpToCase up) segment.text other.text

/-- A text that is the same as another one up to case, with the escapes of that one. -/
inductive Recased (up : UInt16 → UInt16) : WString → WString → Prop
  | nil : Recased up [] []
  | last {c' c} : SameUpToCase up c' c → Recased up [c'] [c]
  | escape {s' s} : Recased up s' s → Recased up (backslash :: letterN :: s') (backslash :: letterN :: s)
  | char {c' c d' d s' s} : SameUpToCase up c' c → isReturnEscape c d = false →
    Recased up (d' :: s') (d :: s) → Recased up (c' :: d' :: s') (c :: d :: s)

/-- An escape is a backslash and an `n`. -/
lemma isReturnEscape_iff {c d : UInt16} : isReturnEscape c d ↔ c = backslash ∧ d = letterN := by
  rw [isReturnEscape, Bool.and_eq_true, beq_iff_eq, beq_iff_eq]

section Lines

variable {mapper : CaseMapper} {up : UInt16 → UInt16}

/-- A character in front of a text that does not become an escape with it. -/
lemma Recased.cons {c' c d : UInt16} {s' s : WString} (hc : SameUpToCase up c' c)
    (hescape : ¬isReturnEscape c d) (h : Recased up s' (d :: s)) :
    Recased up (c' :: s') (c :: d :: s) := by
  have hfalse : isReturnEscape c d = false := Bool.eq_false_iff.2 hescape
  cases h with
  | last hd => exact .char hc hfalse (.last hd)
  | escape hs => exact .char hc hfalse (.escape hs)
  | char hd hnext hs => exact .char hc hfalse (.char hd hnext hs)

/-- The first characters are the same up to case. -/
lemma Recased.head {c' c : UInt16} {s' s : WString} (h : Recased up (c' :: s') (c :: s)) :
    SameUpToCase up c' c := by
  cases h with
  | last hc => exact hc
  | escape _ => exact .inl rfl
  | char hc _ _ => exact hc

/-- A text is itself up to case. -/
lemma recased_refl (s : WString) : Recased up s s := by
  induction s using upperExpansion.induct with
  | case1 => exact .nil
  | case2 c => exact .last (.inl rfl)
  | case3 c d rest hescape ih =>
    obtain ⟨rfl, rfl⟩ := isReturnEscape_iff.1 hescape
    exact .escape ih
  | case4 c d rest hescape ih => exact ih.cons (.inl rfl) hescape

variable (hmapper : mapper.CaseOnly up)

include hmapper

/-- No pair of characters becomes an escape. -/
lemma not_isReturnEscape {c' c d' d : UInt16} (hc : SameUpToCase up c' c) (hd : SameUpToCase up d' d)
    (h : isReturnEscape c d = false) : isReturnEscape c' d' = false := by
  rw [Bool.eq_false_iff] at h ⊢
  intro hescape
  obtain ⟨hc', hd'⟩ := isReturnEscape_iff.1 hescape
  have hbackslash : c = backslash := by
    obtain rfl | rfl := hc
    · exact hc'
    · exact hmapper.upper_backslash c hc'
  have hletter : d = letterN := by
    obtain rfl | rfl := hd
    · exact hd'
    · exact hmapper.upper_letterN d hd'
  exact h (isReturnEscape_iff.2 ⟨hbackslash, hletter⟩)

/-- Upper case keeps the escapes. -/
lemma recased_upperExpansion (s : WString) : Recased up (upperExpansion mapper s) s := by
  induction s using upperExpansion.induct with
  | case1 => exact .nil
  | case2 c =>
    rw [upperExpansion, hmapper.upper]
    exact .last (.inr rfl)
  | case3 c d rest hescape ih =>
    obtain ⟨rfl, rfl⟩ := isReturnEscape_iff.1 hescape
    rw [upperExpansion, if_pos hescape]
    exact .escape ih
  | case4 c d rest hescape ih =>
    rw [upperExpansion, if_neg hescape, hmapper.upper]
    exact ih.cons (.inr rfl) hescape

/-- The character behind the start of a word or within one. -/
lemma recased_wordStart (c : UInt16) (newWord : Bool) :
    ∃ c', (if newWord then mapper.Upper [c] else [c]) = [c'] ∧ SameUpToCase up c' c := by
  cases newWord with
  | true => exact ⟨up c, hmapper.upper [c], .inr rfl⟩
  | false => exact ⟨c, rfl, .inl rfl⟩

/-- So does upper case at the start of each word. -/
lemma recased_titleExpansion [WideCtype] (s : WString) (newWord : Bool) :
    Recased up (titleExpansion mapper newWord s) s := by
  induction newWord, s using titleExpansion.induct with
  | case1 newWord => exact .nil
  | case2 newWord c hspace =>
    rw [titleExpansion, if_pos hspace]
    exact .last (.inl rfl)
  | case3 c hspace =>
    obtain ⟨c', heq, hc⟩ := recased_wordStart hmapper c true
    rw [titleExpansion, if_neg hspace, heq]
    exact .last hc
  | case4 newWord c hspace hword =>
    rw [titleExpansion, if_neg hspace, if_neg hword]
    exact .last (.inl rfl)
  | case5 newWord c d rest hescape ih =>
    obtain ⟨rfl, rfl⟩ := isReturnEscape_iff.1 hescape
    rw [titleExpansion, if_pos hescape]
    exact .escape ih
  | case6 newWord c d rest hescape hspace ih =>
    rw [titleExpansion, if_neg hescape, if_pos hspace]
    exact ih.cons (.inl rfl) hescape
  | case7 newWord c d rest hescape hspace ih =>
    obtain ⟨c', heq, hc⟩ := recased_wordStart hmapper c newWord
    rw [titleExpansion, if_neg hescape, if_neg hspace, heq]
    exact ih.cons hc hescape

/-- Adapting the case keeps the escapes. -/
lemma recased_autoCaps [WideCtype] (s buffer : WString) : Recased up (autoCaps mapper buffer s) s := by
  unfold autoCaps
  split_ifs
  · exact recased_refl s
  · exact recased_upperExpansion hmapper s
  · exact recased_titleExpansion hmapper s true
  · exact recased_refl s

omit hmapper in
/-- Segments under construction that are the same up to case are finished alike. -/
lemma flush_sameUpToCase {cur' cur : WString} (hcur : List.Forall₂ (SameUpToCase up) cur' cur) :
    List.Forall₂ (Segment.SameUpToCase up) (flush cur') (flush cur) := by
  have hlength : cur'.length = cur.length := hcur.length_eq
  unfold flush
  by_cases hnil : cur = []
  · have hnil' : cur' = [] := List.length_eq_zero_iff.1 (hlength.trans (List.length_eq_zero_iff.2 hnil))
    rw [if_pos hnil, if_pos hnil']
    exact .nil
  · have hnil' : cur' ≠ [] := by
      rintro rfl
      exact hnil (List.length_eq_zero_iff.1 hlength.symm)
    rw [if_neg hnil, if_neg hnil']
    exact .cons ⟨rfl, hlength, hcur⟩ .nil

/-- A text that is recased, with the same escapes, has the same lines. -/
lemma buildSegments_recased {s' s cur' cur : WString} (h : Recased up s' s)
    (hcur : List.Forall₂ (SameUpToCase up) cur' cur) :
    List.Forall₂ (Segment.SameUpToCase up) (buildSegments .Unicode cur' s')
      (buildSegments .Unicode cur s) := by
  have hnext : ∀ {cur' cur : WString} {c' c : UInt16}, List.Forall₂ (SameUpToCase up) cur' cur →
      SameUpToCase up c' c → List.Forall₂ (SameUpToCase up) (cur' ++ [c']) (cur ++ [c]) := by
    intro cur' cur c' c hcur hc
    exact List.rel_append hcur (.cons hc .nil)
  induction h generalizing cur' cur with
  | nil => exact flush_sameUpToCase hcur
  | last hc =>
    rw [buildSegments, buildSegments, CodeTableConverter.ConvertChar_Unicode,
      CodeTableConverter.ConvertChar_Unicode]
    exact flush_sameUpToCase (hnext hcur hc)
  | escape _ ih =>
    have hescape : isReturnEscape backslash letterN = true := rfl
    rw [buildSegments, buildSegments, if_pos hescape, if_pos hescape]
    exact List.rel_append (flush_sameUpToCase hcur) (.cons ⟨rfl, rfl, .nil⟩ (ih .nil))
  | char hc hescape hrest ih =>
    have hescape' := not_isReturnEscape hmapper hc hrest.head hescape
    rw [buildSegments, buildSegments, if_neg (Bool.eq_false_iff.1 hescape),
      if_neg (Bool.eq_false_iff.1 hescape'), CodeTableConverter.ConvertChar_Unicode,
      CodeTableConverter.ConvertChar_Unicode]
    exact ih (hnext hcur hc)

/-- The plan of a macro has the lines of the macro, up to case. -/
theorem Plan_lines [WideCtype] {inp : PlanInputs} {found : Found} (hfound : inp.search = some found) :
    List.Forall₂ (Segment.SameUpToCase up) (BuildSegments (Plan inp mapper).expansion .Unicode)
      (BuildSegments found.expansion .Unicode) := by
  have hplan : (Plan inp mapper).expansion =
      if inp.autoCapsEnabled ∧ ¬found.matchedExact ∧ ¬found.matchedViaComposition ∧
          inp.rawMacroBuffer ≠ [] ∧ found.expansion ≠ [] then
        autoCaps mapper inp.rawMacroBuffer found.expansion
      else found.expansion := by
    rw [Plan, hfound]
  have hrecased : Recased up (Plan inp mapper).expansion found.expansion := by
    rw [hplan]
    split
    · exact recased_autoCaps hmapper found.expansion inp.rawMacroBuffer
    · exact recased_refl found.expansion
  exact buildSegments_recased hmapper hrecased .nil

end Lines

/-- The upper case of an ASCII letter is no backslash and no `n`. -/
lemma upper_ascii {c : UInt16} (hlower : isAsciiLower c) :
    0x41 ≤ (c - 0x20).toNat ∧ (c - 0x20).toNat ≤ 0x5A := by
  have hrange : 0x61 ≤ c.toNat ∧ c.toNat ≤ 0x7A := of_decide_eq_true hlower
  have hle : (0x20 : UInt16) ≤ c := UInt16.le_iff_toNat_le.2 (Nat.le_trans (by decide) hrange.1)
  rw [UInt16.toNat_sub_of_le _ _ hle]
  show 0x41 ≤ c.toNat - 0x20 ∧ c.toNat - 0x20 ≤ 0x5A
  omega

/-- The ASCII letters are mapped in their case only. -/
lemma caseOnly_ascii : CaseMapper.ascii.CaseOnly fun c => if isAsciiLower c then c - 0x20 else c where
  upper _ := rfl
  upper_backslash c h := by
    split at h
    · next hlower =>
      have hupper := upper_ascii hlower
      rw [h] at hupper
      exact absurd hupper (by decide)
    · exact h
  upper_letterN c h := by
    split at h
    · next hlower =>
      have hupper := upper_ascii hlower
      rw [h] at hupper
      exact absurd hupper (by decide)
    · exact h

section Ascii

attribute [local instance] WideCtype.ascii

/-- "ab", typed in capitals, stands for an x, a backslash, the escape of a line break and a y. -/
def shoutedLines : PlanInputs where
  rawMacroBuffer := [0x41, 0x42]
  previousComposition := []
  previousEncodedWidths := []
  macroTable := [([0x61, 0x62], [0x78, 0x5C, 0x5C, 0x6E, 0x79])]
  macroCrossCommit := false
  currentCodeTable := .Unicode
  autoCapsEnabled := true
  triggerChar := 0x20
  clipboardThreshold := 100

/-- The escape behind the backslash is still one between the capitals. -/
theorem Plan_lines_shouted :
    List.Forall₂ (Segment.SameUpToCase fun c => if isAsciiLower c then c - 0x20 else c)
      (BuildSegments (Plan shoutedLines .ascii).expansion .Unicode)
      [{ text := [0x78, 0x5C] }, { isReturn := true }, { text := [0x79] }] := by
  have hfound : shoutedLines.search = some { expansion := [0x78, 0x5C, 0x5C, 0x6E, 0x79] } := rfl
  exact Plan_lines caseOnly_ascii hfound

end Ascii

end Macro
end NextKey
