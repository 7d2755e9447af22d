import Mathlib.Algebra.GroupWithZero.Nat
import NextKey.Output.CodeTableConverter

/-!
# The macro expansion plan

Model of `core/MacroCase.cpp`: which macro the typed text matches, how much of it has to be erased, and
what is sent in its place. Strings are sequences of `wchar_t` units. The C library's classification of
wide characters and the system's case mapping are parameters.
-/

namespace NextKey

/-- C++ `std::wstring` -/
abbrev WString := List UInt16

/-- The C library's wide character functions, on units. -/
class WideCtype where
  towlower : UInt16 → UInt16
  iswalpha : UInt16 → Bool
  iswupper : UInt16 → Bool
  iswspace : UInt16 → Bool

/-- An ASCII capital letter. -/
def isAsciiUpper (c : UInt16) : Bool := decide (0x41 ≤ c.toNat ∧ c.toNat ≤ 0x5A)

/-- An ASCII small letter. -/
def isAsciiLower (c : UInt16) : Bool := decide (0x61 ≤ c.toNat ∧ c.toNat ≤ 0x7A)

/-- The `"C"` locale: only ASCII letters are letters. -/
@[reducible] def WideCtype.ascii : WideCtype where
  towlower c := if isAsciiUpper c then c + 0x20 else c
  iswalpha c := isAsciiUpper c || isAsciiLower c
  iswupper := isAsciiUpper
  iswspace c := c == 0x20 || decide (0x09 ≤ c.toNat ∧ c.toNat ≤ 0x0D)

/-- C++ `CaseMapper`: the mapped buffer has the length of the old one -/
structure CaseMapper where
  Upper : WString → WString
  Lower : WString → WString
  length_Upper : ∀ s, (Upper s).length = s.length
  length_Lower : ∀ s, (Lower s).length = s.length

/-- The mapping of ASCII letters alone. -/
def CaseMapper.ascii : CaseMapper where
  Upper s := s.map fun c => if isAsciiLower c then c - 0x20 else c
  Lower s := s.map fun c => if isAsciiUpper c then c + 0x20 else c
  length_Upper _ := List.length_map _
  length_Lower _ := List.length_map _

/-- `L'\\'` -/
def backslash : UInt16 := 0x5C

/-- `L'n'` -/
def letterN : UInt16 := 0x6E

/-- A backslash and an `n` start here. -/
def isReturnEscape (c d : UInt16) : Bool := c == backslash && d == letterN

namespace Macro

/-- C++ `PlanInputs` -/
structure PlanInputs where
  rawMacroBuffer : WString
  previousComposition : WString
  previousEncodedWidths : List Nat
  macroTable : List (WString × WString)
  macroCrossCommit : Bool
  currentCodeTable : CodeTable
  autoCapsEnabled : Bool
  triggerChar : UInt16
  clipboardThreshold : Nat

/-- C++ `MacroPlan` -/
structure MacroPlan where
  matched : Bool := false
  isPartOfMacro : Bool := false
  bsCount : Nat := 0
  expansion : WString := []
  useClipboard : Bool := false

/-- A macro that has been found and how. -/
structure Found where
  expansion : WString
  matchedExact : Bool := false
  matchedViaComposition : Bool := false
  isPartOfMacro : Bool := false

namespace PlanInputs

variable (inp : PlanInputs)

/-- `macroTable.find` -/
def find (key : WString) : Option WString := inp.macroTable.lookup key

/-- `triggerChar > L' '` -/
def printableTrigger : Bool := decide (0x20 < inp.triggerChar.toNat)

variable [WideCtype]

/-- C++ `LowerCopy` -/
def LowerCopy (s : WString) : WString := s.map WideCtype.towlower

/-- Priority 1: the full buffer, as typed or lowered. -/
def findBuffer : Option Found :=
  match inp.find inp.rawMacroBuffer with
  | some e => some { expansion := e, matchedExact := true, isPartOfMacro := inp.printableTrigger }
  | none =>
    (inp.find (LowerCopy inp.rawMacroBuffer)).map fun e =>
      { expansion := e, isPartOfMacro := inp.printableTrigger }

/-- Priority 2: the buffer without the trigger character. -/
def findWithoutTrigger : Option Found :=
  let lowerKey := LowerCopy inp.rawMacroBuffer
  if inp.printableTrigger ∧ 1 < lowerKey.length ∧ lowerKey.getLast? = some inp.triggerChar then
    match inp.find inp.rawMacroBuffer.dropLast with
    | some e => some { expansion := e, matchedExact := true }
    | none => (inp.find lowerKey.dropLast).map fun e => { expansion := e }
  else none

/-- Priorities 3 and 4: the composition, with the trigger character and without it. -/
def findComposition : Option Found :=
  if inp.previousComposition = [] then none
  else
    let compKey := LowerCopy inp.previousComposition
    let withTrigger := if inp.printableTrigger then inp.find (compKey ++ [inp.triggerChar]) else none
    match withTrigger with
    | some e => some { expansion := e, matchedViaComposition := true, isPartOfMacro := true }
    | none => (inp.find compKey).map fun e => { expansion := e, matchedViaComposition := true }

/-- The first of the three that finds a macro. -/
def search : Option Found := inp.findBuffer <|> inp.findWithoutTrigger <|> inp.findComposition

end PlanInputs

namespace PlanInputs

variable (inp : PlanInputs)

/-- The width of the composition on the screen. -/
def compositionWidth : Nat :=
  if inp.currentCodeTable ≠ .Unicode then inp.previousEncodedWidths.sum
  else inp.previousComposition.length

/-- The buffer, less a printable trigger character. -/
def bufferWidth : Nat :=
  if inp.printableTrigger ∧ 0 < inp.rawMacroBuffer.length then inp.rawMacroBuffer.length - 1
  else inp.rawMacroBuffer.length

/-- `plan.bsCount` -/
def bsCount (matchedViaComposition : Bool) : Nat :=
  if matchedViaComposition then inp.compositionWidth
  else if inp.macroCrossCommit then inp.bufferWidth
  else if inp.previousComposition ≠ [] then inp.compositionWidth
  else inp.bufferWidth

end PlanInputs

/-- An expansion in upper case; the `n` of an escape stays. -/
def upperExpansion (mapper : CaseMapper) : WString → WString
  | [] => []
  | [c] => mapper.Upper [c]
  | c :: d :: rest =>
    if isReturnEscape c d then c :: d :: upperExpansion mapper rest
    else mapper.Upper [c] ++ upperExpansion mapper (d :: rest)

variable [WideCtype]

/-- An expansion with the first letter of each word in upper case. -/
def titleExpansion (mapper : CaseMapper) : Bool → WString → WString
  | _, [] => []
  | newWord, [c] => if WideCtype.iswspace c then [c] else if newWord then mapper.Upper [c] else [c]
  | newWord, c :: d :: rest =>
    if isReturnEscape c d then c :: d :: titleExpansion mapper true rest
    else if WideCtype.iswspace c then c :: titleExpansion mapper true (d :: rest)
    else (if newWord then mapper.Upper [c] else [c]) ++ titleExpansion mapper false (d :: rest)

/-- Every letter of the buffer is in upper case, and there is one, and the buffer is longer than one. -/
def allUpper (buffer : WString) : Bool :=
  buffer.all (fun c => !WideCtype.iswalpha c || WideCtype.iswupper c) &&
    buffer.any WideCtype.iswalpha &&
    decide (1 < buffer.length)

/-- The first character of the buffer is in upper case. -/
def firstUpper (buffer : WString) : Bool := buffer.head?.any WideCtype.iswupper

/-- An all-lowercase expansion takes over the case in which the macro was typed. -/
def autoCaps (mapper : CaseMapper) (buffer expansion : WString) : WString :=
  if mapper.Lower expansion ≠ expansion then expansion
  else if allUpper buffer then upperExpansion mapper expansion
  else if firstUpper buffer then titleExpansion mapper true expansion
  else expansion

/-- C++ `Plan` -/
def Plan (inp : PlanInputs) (mapper : CaseMapper) : MacroPlan :=
  match inp.search with
  | none => {}
  | some found =>
    let expansion :=
      if inp.autoCapsEnabled ∧ ¬found.matchedExact ∧ ¬found.matchedViaComposition ∧
          inp.rawMacroBuffer ≠ [] ∧ found.expansion ≠ [] then
        autoCaps mapper inp.rawMacroBuffer found.expansion
      else found.expansion
    { matched := true
      isPartOfMacro := found.isPartOfMacro
      bsCount := inp.bsCount found.matchedViaComposition
      expansion := expansion
      useClipboard := decide (inp.currentCodeTable = .Unicode ∧
        inp.clipboardThreshold < expansion.length) }

namespace PlanInputs

variable {inp : PlanInputs}

omit [WideCtype] in
/-- A macro is found when it is in the table. -/
lemma find_isSome {key : WString} : (inp.find key).isSome ↔ key ∈ inp.macroTable.map Prod.fst := by
  rw [find, List.lookup_isSome_iff, List.mem_map]
  constructor
  · rintro ⟨entry, hentry, heq⟩
    exact ⟨entry, hentry, (beq_iff_eq.1 heq).symm⟩
  · rintro ⟨entry, hentry, rfl⟩
    exact ⟨entry, hentry, beq_self_eq_true _⟩

omit [WideCtype] in
/-- Trying one name and then another finds one of the two. -/
lemma find_or_isSome {first second : WString} {f g : WString → Found} :
    (match inp.find first with
      | some e => some (f e)
      | none => (inp.find second).map g).isSome ↔
      first ∈ inp.macroTable.map Prod.fst ∨ second ∈ inp.macroTable.map Prod.fst := by
  rw [← find_isSome, ← find_isSome]
  cases inp.find first with
  | none => simp
  | some e => simp

/-- The buffer finds one, as it is or in lower case. -/
lemma findBuffer_isSome : inp.findBuffer.isSome ↔
    inp.rawMacroBuffer ∈ inp.macroTable.map Prod.fst ∨
      LowerCopy inp.rawMacroBuffer ∈ inp.macroTable.map Prod.fst := find_or_isSome

/-- So does the buffer without its trigger. -/
lemma findWithoutTrigger_isSome : inp.findWithoutTrigger.isSome ↔
    (inp.printableTrigger ∧ 1 < (LowerCopy inp.rawMacroBuffer).length ∧
      (LowerCopy inp.rawMacroBuffer).getLast? = some inp.triggerChar) ∧
    (inp.rawMacroBuffer.dropLast ∈ inp.macroTable.map Prod.fst ∨
      (LowerCopy inp.rawMacroBuffer).dropLast ∈ inp.macroTable.map Prod.fst) := by
  unfold findWithoutTrigger
  dsimp only
  split
  · next htrigger =>
    rw [find_or_isSome]
    exact ⟨fun h => ⟨htrigger, h⟩, fun h => h.2⟩
  · next htrigger => exact iff_of_false Bool.false_ne_true fun h => htrigger h.1

/-- So does the composition. -/
lemma findComposition_isSome : inp.findComposition.isSome ↔
    inp.previousComposition ≠ [] ∧
      (inp.printableTrigger ∧
          LowerCopy inp.previousComposition ++ [inp.triggerChar] ∈ inp.macroTable.map Prod.fst ∨
        LowerCopy inp.previousComposition ∈ inp.macroTable.map Prod.fst) := by
  unfold findComposition
  dsimp only
  by_cases hnil : inp.previousComposition = []
  · rw [if_pos hnil]
    exact iff_of_false Bool.false_ne_true fun h => h.1 hnil
  · rw [if_neg hnil]
    cases inp.printableTrigger with
    | true =>
      rw [if_pos rfl, find_or_isSome]
      simp [hnil]
    | false =>
      rw [if_neg Bool.false_ne_true, Option.isSome_map, find_isSome]
      simp [hnil]

/-- The search tries the three in turn. -/
lemma search_isSome : inp.search.isSome ↔
    inp.findBuffer.isSome ∨ inp.findWithoutTrigger.isSome ∨ inp.findComposition.isSome := by
  unfold search
  cases inp.findBuffer with
  | some e => simp
  | none => cases inp.findWithoutTrigger <;> simp

/-- Neither the buffer nor the buffer without the trigger is a macro. -/
def onlyComposition (inp : PlanInputs) : Bool := inp.findBuffer.isNone && inp.findWithoutTrigger.isNone

/-- The buffer is no composition. -/
lemma findBuffer_via {found : Found} (h : inp.findBuffer = some found) :
    found.matchedViaComposition = false := by
  unfold findBuffer at h
  split at h
  · cases h
    rfl
  · obtain ⟨e, -, rfl⟩ := Option.map_eq_some_iff.mp h
    rfl

/-- Nor is the buffer without its trigger. -/
lemma findWithoutTrigger_via {found : Found} (h : inp.findWithoutTrigger = some found) :
    found.matchedViaComposition = false := by
  unfold findWithoutTrigger at h
  dsimp only at h
  split at h
  · split at h
    · cases h
      rfl
    · obtain ⟨e, -, rfl⟩ := Option.map_eq_some_iff.mp h
      rfl
  · cases h

/-- The composition is one. -/
lemma findComposition_via {found : Found} (h : inp.findComposition = some found) :
    found.matchedViaComposition = true := by
  unfold findComposition at h
  split at h
  · cases h
  · dsimp only at h
    split at h
    · cases h
      rfl
    · obtain ⟨e, -, rfl⟩ := Option.map_eq_some_iff.mp h
      rfl

/-- The composition counts when nothing else is matched. -/
lemma search_via {found : Found} (h : inp.search = some found) :
    found.matchedViaComposition = inp.onlyComposition := by
  unfold search at h
  unfold onlyComposition
  cases hbuffer : inp.findBuffer with
  | some e =>
    rw [hbuffer] at h
    cases h
    exact findBuffer_via hbuffer
  | none =>
    rw [hbuffer] at h
    cases htrigger : inp.findWithoutTrigger with
    | some e =>
      rw [htrigger] at h
      cases h
      exact findWithoutTrigger_via htrigger
    | none =>
      rw [htrigger] at h
      exact findComposition_via h

end PlanInputs

/-- A plan matches when the search finds a macro. -/
lemma Plan_matched {inp : PlanInputs} {mapper : CaseMapper} :
    (Plan inp mapper).matched = inp.search.isSome := by
  unfold Plan
  cases inp.search <;> rfl

/-- A plan erases what its match is counted by. -/
lemma Plan_bsCount {inp : PlanInputs} {mapper : CaseMapper} (h : (Plan inp mapper).matched) :
    (Plan inp mapper).bsCount = inp.bsCount inp.onlyComposition := by
  unfold Plan at h ⊢
  cases hsearch : inp.search with
  | none =>
    rw [hsearch] at h
    cases h
  | some found => rw [← PlanInputs.search_via hsearch]

/-- C++ `ExpandEscapesForClipboard` -/
def ExpandEscapesForClipboard : WString → WString
  | [] => []
  | [c] => [c]
  | c :: d :: rest =>
    if isReturnEscape c d then 0x0D :: 0x0A :: ExpandEscapesForClipboard rest
    else c :: ExpandEscapesForClipboard (d :: rest)

/-- C++ `Segment` -/
structure Segment where
  isReturn : Bool := false
  text : WString := []
  deriving DecidableEq, Repr

/-- The segment under construction goes to the others unless it is empty. -/
def flush (cur : WString) : List Segment := if cur = [] then [] else [{ text := cur }]

/-- `BuildSegments` with the segment under construction. -/
def buildSegments (codeTable : CodeTable) (cur : WString) : WString → List Segment
  | [] => flush cur
  | [c] => flush (cur ++ (CodeTableConverter.ConvertChar c codeTable).units)
  | c :: d :: rest =>
    if isReturnEscape c d then flush cur ++ { isReturn := true } :: buildSegments codeTable [] rest
    else buildSegments codeTable (cur ++ (CodeTableConverter.ConvertChar c codeTable).units) (d :: rest)

/-- C++ `BuildSegments` -/
def BuildSegments (expansion : WString) (codeTable : CodeTable) : List Segment :=
  buildSegments codeTable [] expansion

end Macro

end NextKey
