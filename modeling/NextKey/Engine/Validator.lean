import NextKey.Engine.Phonology

/-!
# Syllable validation

Model of `core/engine/PhonotacticsValidator.cpp`: the structural check of a buffer as
`[C₁] + V + [C₂]`, with the double decomposition of `gi` and `qu`, and the invariant that the tone
sits on a modified vowel when there is one. A pointer into the buffer with a remaining count is the
list `states.drop pos`.
-/

namespace NextKey.Phonology

/-- Tri-state result of structural syllable validation (C++ `SyllableState`). -/
inductive SyllableState where
  /-- Complete valid syllable. -/
  | valid
  /-- Could become valid with more characters. -/
  | validPrefix
  /-- Cannot form a valid Vietnamese syllable. -/
  | invalid
  deriving DecidableEq, Repr

/-- The letter `đ`: a `d` with a modifier. -/
def isStrokedD (s : CharState) : Bool := s.isD && s.hasModifier

/-- Two-letter initial consonants, `gi` and `qu` included. -/
def kInitialPairs : List (Char × Char) :=
  [('c', 'h'), ('g', 'h'), ('g', 'i'), ('k', 'h'), ('n', 'g'), ('n', 'h'), ('p', 'h'), ('q', 'u'),
    ('t', 'h'), ('t', 'r')]

/-- Two-letter initials accepted by the consonant prefix check. -/
def kPrefixPairs : List (Char × Char) :=
  [('c', 'h'), ('g', 'h'), ('k', 'h'), ('n', 'g'), ('n', 'h'), ('p', 'h'), ('t', 'h'), ('t', 'r')]

/-- Two-letter final consonants. -/
def kFinalPairs : List (Char × Char) := [('c', 'h'), ('n', 'g'), ('n', 'h')]

/-- One-letter initial consonants; `z`, `j`, `w`, `f` only when allowed. -/
def isInitialChar (c : Char) (allowZwjf : Bool) : Bool :=
  ['b', 'c', 'd', 'g', 'h', 'k', 'l', 'm', 'n', 'p', 'q', 'r', 's', 't', 'v', 'x'].contains c ||
    allowZwjf && ['z', 'j', 'w', 'f'].contains c

/-- Whether the buffer starts with the consonants `ngh`. -/
def startsNgh : List CharState → Bool
  | s0 :: s1 :: s2 :: _ => s0.base == 'n' && s1.base == 'g' && s2.base == 'h'
  | _ => false

/-- Number of states the initial consonant takes (C++ `ParseInitialConsonant`). -/
def parseInitialConsonant (states : List CharState) (allowZwjf : Bool) : Nat :=
  match states with
  | [] => 0
  | s0 :: rest =>
    if isStrokedD s0 then 1
    else if s0.isVowel then 0
    else if startsNgh states then 3
    else
      let pair :=
        match rest with
        | s1 :: _ => !s1.isVowel && !s1.isD && kInitialPairs.contains (s0.base, s1.base)
        | [] => false
      if pair then 2
      else if isInitialChar s0.base allowZwjf then 1
      else 0

/-- Number of states the final consonant takes, 0 if there is none (C++ `ParseFinalConsonant`). -/
def parseFinalConsonant (states : List CharState) : Nat :=
  match states with
  | [] => 0
  | s0 :: rest =>
    if s0.isVowel then 0
    else
      let pair :=
        match rest with
        | s1 :: _ => !s1.isVowel && kFinalPairs.contains (s0.base, s1.base)
        | [] => false
      if pair then 2
      else if ['c', 'k', 'm', 'n', 'p', 't'].contains s0.base then 1
      else 0

/-- Encode a parsed final consonant (C++ `FinalConsonantBit`). -/
def finalConsonantBit (states : List CharState) (finalLen : Nat) : Option Final :=
  if finalLen = 0 then none
  else if finalLen = 2 then
    match (charAt states 0).base, (charAt states 1).base with
    | 'c', 'h' => some .ch
    | 'n', 'g' => some .ng
    | 'n', 'h' => some .nh
    | _, _ => none
  else
    match (charAt states 0).base with
    | 'c' => some .c
    | 'k' => some .k
    | 'm' => some .m
    | 'n' => some .n
    | 'p' => some .p
    | 't' => some .t
    | _ => none

/-- Stop finals `c`, `ch`, `k`, `p`, `t` (C++ `IsStopFinal`). -/
def isStopFinal (states : List CharState) (finalLen : Nat) : Bool :=
  finalLen != 0 && ['p', 't', 'c', 'k'].contains (charAt states 0).base

/-- Tone of the first state that has one (C++ `GetTone`). -/
def getTone (states : List CharState) : Tone :=
  match states.find? (·.hasTone) with
  | some s => s.tone
  | none => .none

/-- The slot of a vowel state. -/
def vowelSlot? (s : CharState) : Option VowelSlot :=
  (baseIndex s.base).map (⟨·, modOrdinal s.mod⟩)

/-- The key of a run of vowels, `none` unless it has one to three of them. -/
def vowelKey? (vowelStates : List CharState) : Option VowelKey :=
  if 1 ≤ vowelStates.length ∧ vowelStates.length ≤ 3 then vowelStates.mapM vowelSlot? else none

/-- Entries reached by adding one modifier to one unmodified slot, in the order the source tries
    them (C++ `BuildModifiedKey` under the loops of `TryModifiedVowels`). -/
def modifiedEntries (key : VowelKey) : List VowelEntry :=
  (List.range key.length).flatMap fun vi =>
    match key[vi]? with
    | some slot =>
      if slot.mod = .none then
        [SlotMod.circ, .brev, .horn].filterMap fun tryMod => findVowel (key.set vi ⟨slot.base, tryMod⟩)
      else []
    | none => []

/-- Whether adding a modifier to an unmodified vowel gives a nucleus with the property
    (C++ `TryModifiedVowels`). -/
def tryModifiedVowels (vowelStates : List CharState) (pred : VowelEntry → Bool) : Bool :=
  match vowelKey? vowelStates with
  | some key => (modifiedEntries key).any pred
  | none => false

/-- Whether the pair table rules out the final after the nucleus; a nucleus without an entry allows
    every final. -/
def pairForbidden (vowelKey : VowelKey) : Option Final → Bool
  | some bit => getAllowedFinals vowelKey != [] && !(getAllowedFinals vowelKey).contains bit
  | none => false

/-- The rest of a syllable after a nucleus that can end in a consonant. -/
def validateFinal (states vowelStates : List CharState) (vowelKey : VowelKey)
    (final : List CharState) : SyllableState :=
  let finalLen := parseFinalConsonant final
  if finalLen = 0 then .invalid
  else if finalLen < final.length then .invalid
  else if finalLen = 1 ∧ (charAt final 0).base = 'k' ∧
      ¬(vowelStates.length = 1 ∧ (charAt vowelStates 0).base = 'a' ∧
        modOrdinal (charAt vowelStates 0).mod = .brev) then .invalid
  else if pairForbidden vowelKey (finalConsonantBit final finalLen) then .invalid
  else if isStopFinal final finalLen ∧
      ¬(getTone states = .none ∨ getTone states = .acute ∨ getTone states = .dot) then .invalid
  else .valid

/-- Validate one decomposition, with the first `initialLen` states as initial consonant
    (C++ `ValidateDecomposition`). -/
def validateDecomposition (states : List CharState) (initialLen : Nat) : SyllableState :=
  let rest := states.drop initialLen
  if rest = [] then .validPrefix
  else
    let vowelStates := rest.takeWhile (·.isVowel)
    let final := rest.dropWhile (·.isVowel)
    match vowelKey? vowelStates with
    | none => .invalid
    | some vowelKey =>
      match findVowel vowelKey with
      | none =>
        if vowelStates.length ≤ 2 ∧ isVowelPrefix vowelKey ∧ final = [] then .validPrefix
        else if tryModifiedVowels vowelStates fun e =>
            final.isEmpty || e.canEnd && parseFinalConsonant final == final.length then .validPrefix
        else .invalid
      | some entry =>
        if final = [] then .valid
        else if entry.canEnd then validateFinal states vowelStates vowelKey final
        -- a future modifier may change the nucleus to one that can end: "ua" to "uâ"
        else if tryModifiedVowels vowelStates fun e =>
            e.canEnd && parseFinalConsonant final == final.length then .validPrefix
        else .invalid

/-- Whether the buffer is a consonant-only prefix of a syllable (C++ `IsValidConsonantPrefix`). -/
def isValidConsonantPrefix (states : List CharState) (allowZwjf : Bool) : Bool :=
  match states with
  | [] => true
  | [s0] => !s0.isVowel && (isInitialChar s0.base allowZwjf || isStrokedD s0)
  | [s0, s1] => !s0.isVowel && !s1.isVowel && kPrefixPairs.contains (s0.base, s1.base)
  | [_, _, _] => startsNgh states
  | _ => false

/-- Agreement of the initial consonant with the first vowel: c/k, gh, ngh and q. -/
def initialVowelClash (states : List CharState) (initialLen : Nat) : Bool :=
  let firstVowel := (charAt states initialLen).base
  let front := isFrontBaseVowel firstVowel
  let c0 := (charAt states 0).base
  match initialLen with
  | 1 => c0 == 'k' && !front || c0 == 'c' && front || c0 == 'q' && firstVowel != 'u'
  | 2 => c0 == 'g' && (charAt states 1).base == 'h' && !front
  | 3 => startsNgh states && !front
  | _ => false

/-- The more permissive of the results of the `gi` decompositions. -/
def SyllableState.permissive (result r1 r2 : SyllableState) : SyllableState :=
  if r1 = .valid ∨ r2 = .valid then .valid
  else if r1 = .validPrefix ∨ r2 = .validPrefix then .validPrefix
  else result

/-- Structure of the buffer with `gi`/`qu` dual decomposition (C++ `ValidateImpl`). A plain `d` is an
    initial character, so the fallback the source keeps for it is not reached. -/
def validateImpl (states : List CharState) (allowZwjf : Bool) : SyllableState :=
  match states with
  | [] => .validPrefix
  | s0 :: rest =>
    let initialLen := parseInitialConsonant states allowZwjf
    if initialLen = 0 ∧ ¬s0.isVowel then .invalid
    else if 0 < initialLen ∧ initialLen = states.length then
      if isValidConsonantPrefix states allowZwjf then .validPrefix else .invalid
    else if 0 < initialLen ∧ ¬(charAt states initialLen).isVowel then
      if isValidConsonantPrefix states allowZwjf then .validPrefix else .invalid
    else if initialVowelClash states initialLen then .invalid
    else
      let result := validateDecomposition states initialLen
      match rest with
      | [] => result
      | s1 :: rest' =>
        let thirdVowel := match rest' with
          | s2 :: _ => s2.isVowel
          | [] => false
        if s0.base = 'g' ∧ s1.base = 'i' then
          let r1 := validateDecomposition states 1
          if thirdVowel then result.permissive r1 (validateDecomposition states 2)
          else if r1 = .valid then .valid
          else if r1 = .validPrefix ∧ result ≠ .valid then .validPrefix
          else result
        else if s0.base = 'q' ∧ s1.base = 'u' then
          if thirdVowel then
            let r2 := validateDecomposition states 2
            if r2 = .valid then .valid
            else if r2 = .validPrefix ∧ result ≠ .valid then .validPrefix
            else result
          else if rest' = [] then .validPrefix
          else result
        else result

/-- The tone sits on a modified vowel if any vowel is modified, and there is at most one toned vowel
    (C++ `CheckToneModInvariant`). -/
def checkToneModInvariant (states : List CharState) : Bool :=
  let vowels := states.filter (·.isVowel)
  match vowels.filter (·.hasTone) with
  | [] => true
  | [toned] => !(vowels.any (·.hasModifier) && !toned.hasModifier)
  | _ => false

/-- C++ `ValidateSyllableState`. -/
def validateSyllableState (states : List CharState) (allowZwjf : Bool) : SyllableState :=
  let r := validateImpl states allowZwjf
  if r ≠ .invalid ∧ ¬checkToneModInvariant states then .invalid else r

end NextKey.Phonology
