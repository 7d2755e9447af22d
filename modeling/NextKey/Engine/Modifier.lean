import NextKey.Engine.State

/-!
# Modifier keys

Model of the modifier subsystem of `core/engine/TypingEngine.cpp`: the handlers of the Telex keys
(`w`, the doubled vowels, `dd`, the brackets), of the VNI keys `6` to `9` and of the user-defined
actions, and `HandleModifierAction`, which puts the English and spell gates in front of them. A
handler that consumes the key returns the new state; `none` means that the key falls through to be
appended as a literal.
-/

namespace NextKey

/-- A non-vowel stands after the index (the lambda of C++ `HandleHornW`). -/
def hasNonVowelAfter (states : List CharState) (idx : Nat) : Bool :=
  (states.drop (idx + 1)).any fun s => !s.isVowel

/-- An unmodified `u` after `q` (the lambda of C++ `HandleHornW`). -/
def isQUClusterU (states : List CharState) (i : Nat) : Bool :=
  decide (0 < i) && (charAt states i).base == 'u' && (charAt states i).mod == .none &&
    (charAt states (i - 1)).base == 'q'

/-- C++ `TypingEngine::IsInQUCluster`. -/
def isInQUCluster (states : List CharState) : Bool :=
  (List.range (states.length - 1)).any fun i =>
    (charAt states i).base == 'q' && (charAt states (i + 1)).base == 'u' &&
      (charAt states (i + 1)).mod == .none

/-- The last three states are vowels of a triphthong. -/
def endsWithTriphthong (states : List CharState) : Bool :=
  let n := states.length
  let v i := charAt states (n - i)
  decide (3 ≤ n) && (v 3).isVowel && (v 2).isVowel && isTriphthong (v 3).base (v 2).base (v 1).base

/-- Vowels the `w` key can act on, outside the `qu` cluster. -/
structure HornScan where
  /-- first and last unmodified `u` -/
  firstUIdx : Option Nat
  uIdx : Option Nat
  /-- last `o` without horn or breve -/
  oIdx : Option Nat
  /-- last `a` without horn or breve -/
  aIdx : Option Nat
  /-- last horned `u` or `o` -/
  hornedIdx : Option Nat
  /-- last `a` with breve -/
  brevedIdx : Option Nat

/-- The scan at the top of C++ `HandleHornW`. -/
def hornScan (states : List CharState) : HornScan :=
  let n := states.length
  let isAt (base : Char) (mods : List Modifier) i :=
    !isQUClusterU states i && (charAt states i).base == base && mods.contains (charAt states i).mod
  { firstUIdx := firstIdx? n (isAt 'u' [.none])
    uIdx := lastIdx? n (isAt 'u' [.none])
    oIdx := lastIdx? n (isAt 'o' [.none, .circumflex])
    aIdx := lastIdx? n (isAt 'a' [.none, .circumflex])
    hornedIdx := lastIdx? n fun i => isAt 'u' [.horn] i || isAt 'o' [.horn] i
    brevedIdx := lastIdx? n (isAt 'a' [.breve]) }

/-- The last pair of adjacent vowels with the given bases, outside the `qu` cluster. -/
def vowelPair? (states : List CharState) (first second : Char) : Option Nat :=
  lastIdx? (states.length - 1) fun i =>
    !isQUClusterU states i && (charAt states i).base == first && (charAt states (i + 1)).base == second

/-- Clear the circumflex of a sister vowel. -/
def clearCircumflex (states : List CharState) (idx : Option Nat) : List CharState :=
  match idx with
  | some k => if (charAt states k).mod = .circumflex then setMod states k .none else states
  | none => states

variable [WideLocale]

namespace EngineState

/-- Append the key and remember what it escaped. -/
def escapeWith (st : EngineState) (c : Char) (kind : EscapeKind) : EngineState :=
  { st.processKey c with escape := kind }

/-- Index a state created by the current key gets. -/
def lastRawIdx (st : EngineState) : Nat := st.rawInput.length - 1

/-- C++ `TypingEngine::HandleStrokeD`, for Telex `dd` and VNI `9`. -/
def handleStrokeD (cfg : TypingConfig) (st : EngineState) (c : Char) : Option EngineState :=
  if st.escape = .stroke then none
  else
    match findStrokeDTarget st.states with
    | none => none
    | some dIdx =>
      match (charAt st.states dIdx).mod with
      | .none => some { st with states := setMod st.states dIdx .stroke }
      | .stroke =>
        if ¬isStrokeDEscapeAllowed st.states.length dIdx then none
        else if dIdx = 0 ∧ cfg.spellExclusions ≠ [] ∧
            wouldModifierKeyMatchExclusion cfg st.states (towlower c) then none
        else some ({ st with states := setMod st.states dIdx .none }.escapeWith c .stroke)
      | _ => none

/-- The last glyph is the one the action inserts and the key is pressed twice: remove the glyph and
    append the key. -/
def undoInsert? (st : EngineState) (c : Char) (base : Char) (mod : Modifier) (kind : EscapeKind) :
    Option EngineState :=
  match st.states.getLast?, st.rawInput.dropLast.getLast? with
  | some last, some prev =>
    if towlower prev = towlower c ∧ last.base = base ∧ last.mod = mod then
      some (({ st with states := st.states.dropLast }.eraseConsumedRaw last.rawIdx).escapeWith c kind)
    else none
  | _, _ => none

/-- C++ `TypingEngine::HandleHornInsert`, the brackets. -/
def handleHornInsert (cfg : TypingConfig) (st : EngineState) (action : TypingAction) (c : Char) :
    Option EngineState :=
  if cfg.inputMethod = .simpleTelex then none
  else
    let baseVowel := if action = .hornInsertO then 'o' else 'u'
    match st.undoInsert? c baseVowel .horn .horn with
    | some st' => some st'
    | none =>
      some { st with states :=
        st.states ++ [{ base := baseVowel, mod := .horn, rawIdx := st.lastRawIdx }] }

/-- Escape kind of a doubled insertion key. -/
def insertEscapeKind : Modifier → EscapeKind
  | .horn => .horn
  | .circumflex => .circumflex
  | .breve => .breve
  | .stroke => .stroke
  | .none => .modifier

/-- C++ `TypingEngine::HandleInsertChar`. -/
def handleInsertChar (st : EngineState) (action : TypingAction) (c : Char) : Option EngineState :=
  match action.insertGlyph with
  | none => none
  | some (base, mod, upper) =>
    match st.undoInsert? c base mod (insertEscapeKind mod) with
    | some st' => some st'
    | none =>
      some { st with states :=
        st.states ++ [{ base := base, mod := mod, isUpper := upper, rawIdx := st.lastRawIdx }] }

/-- C++ `TypingEngine::HandleUndoAllMarks`. -/
def handleUndoAllMarks (st : EngineState) : Option EngineState :=
  if st.states.any fun s => s.hasModifier || s.hasTone then
    some { st with
      states := st.states.map fun s =>
        if s.hasModifier || s.hasTone then { s with mod := .none, tone := .none, toneRawIdx := none }
        else s
      escape := .tone }
  else none

/-- A doubled vowel next to its twin, the first half of C++ `HandleAdjacentCircumflex`. The last
    state is a vowel with the target base. -/
def adjacentCircumflex (cfg : TypingConfig) (st : EngineState) (targetBase c : Char) :
    Option EngineState :=
  let states := st.states
  let last := states.length - 1
  if endsWithTriphthong states then some st
  else if (charAt states last).mod = .circumflex then
    let st := { st with states := setMod states last .none }.processKey c
    some (if cfg.spellCheckEnabled then { st with escape := .circumflex } else st)
  else if Phonology.validateSyllableState states cfg.allowZwjf = .validPrefix then
    if ¬wouldBeValidSyllable cfg states last .circumflex none true ∧
        ¬wouldModifierKeyMatchExclusion cfg states c then none
    else some { st with states := relocateToneToTarget cfg (setMod states last .circumflex) }
  else if shouldRejectModifier cfg states last .circumflex targetBase then none
  else some { st with states := setMod states last .circumflex }

/-- A doubled vowel across other characters, the second half of C++ `HandleAdjacentCircumflex`: the
    backward scan stops at the last vowel with the target base. The flag says whether the key was
    consumed; a refused key can still mark the word as English. -/
def freeCircumflex (cfg : TypingConfig) (st : EngineState) (targetBase c : Char) :
    EngineState × Bool :=
  let states := st.states
  match lastIdx? states.length fun i => (charAt states i).base == targetBase with
  | none => (st, false)
  | some i =>
    let crossed := states.drop (i + 1)
    let consonants := crossed.filter fun s => !s.isVowel
    let needsValidation := crossed.any (·.isVowel)
    let applied := { st with states := relocateToneToTarget cfg (setMod states i .circumflex) }
    let english := { st with engProt := { st.engProt with bias := .hardEnglish } }
    match (charAt states i).mod with
    | .circumflex => ({ st with states := setMod states i .none }.escapeWith c .circumflex, true)
    | .breve =>
      if needsValidation ∨ targetBase ≠ 'a' then (st, false) else (applied, true)
    | .horn =>
      if targetBase = 'o' then
        ({ st with states :=
            relocateToneToTarget cfg (undoHornU (setMod states i .circumflex) i) }, true)
      else (st, false)
    | .none =>
      if needsValidation then
        if cfg.spellCheckEnabled then
          if shouldRejectModifier cfg states i .circumflex targetBase then (st, false)
          else (applied, true)
        else if consonants ≠ [] then (english, false)
        else (applied, true)
      else if ¬cfg.spellCheckEnabled ∧ consonants.length = 1 then
        if ['c', 'k', 'm', 'n', 'p', 't'].contains (charAt consonants 0).base then (applied, true)
        else (english, false)
      else if cfg.spellCheckEnabled ∧ consonants ≠ [] ∧
          ¬wouldBeValidSyllable cfg states i .circumflex none true then (st, false)
      else (applied, true)
    | .stroke => (st, false)

/-- C++ `TypingEngine::HandleAdjacentCircumflex`. -/
def handleAdjacentCircumflex (cfg : TypingConfig) (st : EngineState) (action : TypingAction)
    (c : Char) : EngineState × Bool :=
  let targetBase := if cfg.inputMethod = .userDefined then action.toVowel else towlower c
  let n := st.states.length
  if n = 0 then (st, false)
  else if (charAt st.states (n - 1)).base = targetBase ∧ isVowelBase targetBase then
    match adjacentCircumflex cfg st targetBase c with
    | some st' => (st', true)
    | none => (st, false)
  else if 2 ≤ n ∧ (charAt st.states (n - 1)).isVowel ∧ (charAt st.states (n - 2)).isVowel ∧
      isTriphthong (charAt st.states (n - 2)).base (charAt st.states (n - 1)).base targetBase then
    (st, false)
  else if isVowelBase targetBase then freeCircumflex cfg st targetBase c
  else (st, false)

/-- What C++ `HandleHornW` does with the key it consumes. -/
inductive HornOutcome where
  /-- The horns are set; `RelocateToneToHornVowel` follows. -/
  | horned (states : List CharState)
  /-- Any other branch. -/
  | done (st : EngineState)

/-- P2 of C++ `HandleHornW`: the `uo` pair cycle, at the index of its `u`. -/
def hornPair (st : EngineState) (c : Char) (u : Nat) : Option HornOutcome :=
  let states := st.states
  let uMod := (charAt states u).mod
  let oMod := (charAt states (u + 1)).mod
  let isEdge := isUOEdgeCasePrefix states u
  if uMod ≠ .horn ∧ (oMod = .none ∨ oMod = .circumflex) then
    if isEdge then some (.horned (setMod states (u + 1) .horn))
    else some (.horned (setMod (setMod states u .horn) (u + 1) .horn))
  else if uMod = .horn ∧ oMod = .none then some (.horned (setMod states (u + 1) .horn))
  else if uMod = .none ∧ oMod = .horn ∧ isEdge then some (.horned (setMod states u .horn))
  else if uMod = .horn ∧ oMod = .horn then
    let cleared := setMod (setMod states u .none) (u + 1) .none
    some (.done ({ st with states := cleared }.escapeWith c .horn))
  else if uMod = .none ∧ oMod = .horn then
    some (.done ({ st with states := setMod states (u + 1) .none }.escapeWith c .horn))
  else none

/-- P4 of C++ `HandleHornW`: a second `w` clears the horn or the breve and is appended. A synthetic
    `ư` at the end is removed instead, and the key takes its case. -/
def hornEscape (st : EngineState) (c : Char) (scan : HornScan) : Option EngineState :=
  let states := st.states
  match scan.hornedIdx with
  | some h =>
    let s := charAt states h
    if s.synthetic ∧ h = states.length - 1 then
      some ({ st with states := states.eraseIdx h }.escapeWith
        (if s.isUpper then towupper c else towlower c) .horn)
    else some ({ st with states := setMod (undoHornU states h) h .none }.escapeWith c .horn)
  | none =>
    match scan.brevedIdx with
    | some b => some ({ st with states := setMod states b .none }.escapeWith c .breve)
    | none => none

/-- P8 of C++ `HandleHornW`: insert `ư` when no vowel but the `i` of `gi` is in the buffer. -/
def hornSynthetic (cfg : TypingConfig) (st : EngineState) (c : Char) : Option EngineState :=
  let states := st.states
  let isNonClusterVowel i := (charAt states i).isVowel &&
    !((charAt states i).base == 'i' && decide (0 < i) && (charAt states (i - 1)).base == 'g')
  if cfg.inputMethod = .simpleTelex ∨ isInQUCluster states then none
  else if (List.range states.length).any isNonClusterVowel then none
  else
    some { st with states := states ++
      [{ base := 'u', mod := .horn, isUpper := iswupper c, synthetic := true,
         rawIdx := st.lastRawIdx }] }

/-- The validation of P5 to P7 of C++ `HandleHornW`, only behind a later consonant. -/
def hornRejects (cfg : TypingConfig) (states : List CharState) (target : Nat) (mod : Modifier)
    (clearIdx : Option Nat) : Bool :=
  hasNonVowelAfter states target && !wouldBeValidSyllable cfg states target mod clearIdx false

/-- The `u` of P5 of C++ `HandleHornW`: the first one of a `uu` pattern, else the last one. -/
def hornTargetU (states : List CharState) (scan : HornScan) (u : Nat) : Nat :=
  if (vowelPair? states 'u' 'u').isSome then scan.firstUIdx.getD u else u

/-- P5 to P8 of C++ `HandleHornW`: horn on a lone `u` or `o`, breve on a lone `a`. -/
def hornStandalone (cfg : TypingConfig) (st : EngineState) (c : Char) (scan : HornScan) :
    Option HornOutcome :=
  let states := st.states
  match scan.uIdx with
  | some u =>
    let targetU := hornTargetU states scan u
    if hornRejects cfg states targetU .horn scan.aIdx then none
    else some (.horned (clearCircumflex (setMod states targetU .horn) scan.aIdx))
  | none =>
    match scan.oIdx, vowelPair? states 'o' 'a' with
    | some o, none =>
      if hornRejects cfg states o .horn none then none else some (.horned (setMod states o .horn))
    | _, _ =>
      match scan.aIdx with
      | some a =>
        if hornRejects cfg states a .breve none then none
        else some (.done { st with states := setMod states a .breve })
      | none => (hornSynthetic cfg st c).map .done

/-- The priority order P1 to P8 of C++ `HandleHornW`. -/
def hornOutcome (cfg : TypingConfig) (st : EngineState) (c : Char) : Option HornOutcome :=
  let states := st.states
  let scan := hornScan states
  if cfg.inputMethod = .simpleTelex ∧
      ¬states.any fun s => s.base == 'a' || s.base == 'o' || s.base == 'u' then none
  else
    match scan.uIdx, vowelPair? states 'u' 'a' with
    | some u, some _ => some (.horned (clearCircumflex (setMod states u .horn) scan.aIdx))
    | _, _ =>
      match (vowelPair? states 'u' 'o').bind (hornPair st c) with
      | some outcome => some outcome
      | none =>
        match scan.aIdx, vowelPair? states 'o' 'a' with
        | some a, some _ => some (.done { st with states := setMod states a .breve })
        | _, _ =>
          match hornEscape st c scan with
          | some st' => some (.done st')
          | none => hornStandalone cfg st c scan

/-- C++ `TypingEngine::HandleHornW`. -/
def handleHornW (cfg : TypingConfig) (st : EngineState) (c : Char) : Option EngineState :=
  match hornOutcome cfg st c with
  | some (.horned states) => some { st with states := relocateToneToHornVowel states }
  | some (.done st') => some st'
  | none => none

/-- Base vowels a VNI modifier applies to. -/
def vniEligible : Modifier → Char → Bool
  | .circumflex, base => base == 'a' || base == 'e' || base == 'o'
  | .horn, base => base == 'o' || base == 'u'
  | .breve, base => base == 'a'
  | _, _ => false

/-- Pairs of modifiers one VNI key switches between (pass 1.5 of C++ `ProcessVniVowelModifier`). -/
def vniCanSwitch (base : Char) (curMod targetMod : Modifier) : Bool :=
  base == 'a' && (curMod == .circumflex && targetMod == .breve ||
      curMod == .breve && targetMod == .circumflex) ||
    base == 'o' && (curMod == .circumflex && targetMod == .horn ||
      curMod == .horn && targetMod == .circumflex)

/-- Pass 1 of C++ `ProcessVniVowelModifier` at its target, a vowel without modifier. -/
def vniApply (cfg : TypingConfig) (st : EngineState) (targetMod : Modifier) (key : Char) (i : Nat) :
    Option EngineState :=
  let states := st.states
  if Phonology.validateSyllableState states cfg.allowZwjf = .validPrefix then
    if ¬wouldBeValidSyllable cfg states i targetMod none true ∧
        ¬wouldModifierKeyMatchExclusion cfg states key then none
    else some { st with states := relocateToneToTarget cfg (setMod states i targetMod) }
  else if shouldRejectModifier cfg states i targetMod key then none
  else some { st with states := setMod states i targetMod }

/-- C++ `TypingEngine::ProcessVniVowelModifier`. -/
def processVniVowelModifier (cfg : TypingConfig) (st : EngineState) (targetMod : Modifier)
    (key : Char) : Option EngineState :=
  let states := st.states
  let scan p := lastIdx? states.length fun i =>
    (charAt states i).isVowel && !isClusterConsonant states i && p (charAt states i)
  match scan fun s => vniEligible targetMod s.base && s.mod == .none with
  | some i => vniApply cfg st targetMod key i
  | none =>
    match scan fun s => vniCanSwitch s.base s.mod targetMod with
    | some i =>
      some { st with states := relocateToneToTarget cfg (setMod (undoHornU states i) i targetMod) }
    | none =>
      match scan fun s => s.mod == targetMod with
      | some i =>
        some ({ st with states := setMod (undoHornU states i) i .none }.escapeWith key .modifier)
      | none => none

/-- The `uo` cycle of C++ `HandleVniHorn`, at the index of its `u`. -/
def vniHornPair (cfg : TypingConfig) (st : EngineState) (c : Char) (u : Nat) : Option EngineState :=
  let states := st.states
  let isEdge := isUOEdgeCasePrefix states u
  let uHorn := (charAt states u).isHorn
  let oHorn := (charAt states (u + 1)).isHorn
  let horned states := some { st with states := relocateToneToTarget cfg states }
  if ¬uHorn ∧ ¬oHorn then
    if isEdge then horned (setMod states (u + 1) .horn)
    else horned (setMod (setMod states u .horn) (u + 1) .horn)
  else if uHorn ∧ ¬oHorn then horned (setMod states (u + 1) .horn)
  else if isEdge ∧ ¬uHorn ∧ oHorn then horned (setMod states u .horn)
  else if uHorn ∧ oHorn then
    some ({ st with states := setMod (setMod states u .none) (u + 1) .none }.escapeWith c .horn)
  else none

/-- The `uu` pattern of C++ `HandleVniHorn`: horn on the first `u`, and its escape. -/
def vniHornUU (cfg : TypingConfig) (st : EngineState) (c : Char) (firstU lastU : Nat) :
    Option EngineState :=
  let states := st.states
  if firstU = lastU then none
  else if (charAt states firstU).mod = .none ∧ (charAt states lastU).mod = .none then
    some { st with states := relocateToneToTarget cfg (setMod states firstU .horn) }
  else if (charAt states firstU).mod = .horn then
    some ({ st with states := setMod states firstU .none }.escapeWith c .horn)
  else none

/-- C++ `TypingEngine::HandleVniHorn`. -/
def handleVniHorn (cfg : TypingConfig) (st : EngineState) (c : Char) : Option EngineState :=
  let states := st.states
  let isU i := (charAt states i).base == 'u' && !isClusterConsonant states i
  let uIdx := lastIdx? states.length isU
  let oIdx := lastIdx? states.length fun i =>
    (charAt states i).base == 'o' && !isClusterConsonant states i
  let pair := match uIdx, oIdx with
    | some u, some o => if o = u + 1 then vniHornPair cfg st c u else none
    | _, _ => none
  let uu := match firstIdx? states.length isU, uIdx with
    | some firstU, some lastU => vniHornUU cfg st c firstU lastU
    | _, _ => none
  match pair with
  | some st' => some st'
  | none =>
    match uu with
    | some st' => some st'
    | none => processVniVowelModifier cfg st .horn c

/-- C++ `TypingEngine::HandleHornOrInsertU`. -/
def handleHornOrInsertU (cfg : TypingConfig) (st : EngineState) (action : TypingAction) (c : Char) :
    Option EngineState :=
  if action = .hornOrInsertUNoStart ∧ st.states = [] then none
  else
    match handleHornW cfg st c with
    | some st' => some st'
    | none =>
      match handleHornInsert cfg st .hornInsertU c with
      | some st' =>
        if st.states.length < st'.states.length then
          some { st' with states :=
            st'.states.modify (st'.states.length - 1) fun s => { s with synthetic := true } }
        else some st'
      | none => none

/-- C++ `TypingEngine::ProcessModifier`; the flag says whether the key was consumed. -/
def processModifier (cfg : TypingConfig) (st : EngineState) (action : TypingAction) (c : Char) :
    EngineState × Bool :=
  let consumed (result : Option EngineState) := match result with
    | some st' => (st', true)
    | none => (st, false)
  match action with
  | .hornInsertO | .hornInsertU => consumed (handleHornInsert cfg st action c)
  | .hornW => consumed (handleHornW cfg st c)
  | .circumflexA | .circumflexE | .circumflexO => handleAdjacentCircumflex cfg st action c
  | .strokeD | .vniStroke => consumed (handleStrokeD cfg st c)
  | .vniCircumflex => consumed (processVniVowelModifier cfg st .circumflex c)
  | .vniHorn => consumed (handleVniHorn cfg st c)
  | .vniBreve => consumed (processVniVowelModifier cfg st .breve c)
  | .hornOrInsertU | .hornOrInsertUNoStart => consumed (handleHornOrInsertU cfg st action c)
  | .undoAllMarks => consumed (handleUndoAllMarks st)
  | _ => consumed (handleInsertChar st action c)

/-- C++ `TypingEngine::WouldModifierRecoverOrEscape`. -/
def wouldModifierRecoverOrEscape (cfg : TypingConfig) (st : EngineState) (action : TypingAction)
    (keyChar lower : Char) : Bool :=
  let states := st.states
  let last := charAt states (states.length - 1)
  let strokeEscape := hasEscapableModifier states .stroke true || (findStrokeDTarget states).isSome
  let canEscape :=
    if action.isTelexModifier then
      if lower = 'w' then
        hasEscapableModifier states .horn false || hasEscapableModifier states .breve false
      else if lower = 'd' then strokeEscape
      else if isVowelChar keyChar ∧ states ≠ [] then
        last.isVowel && last.base == lower && last.mod == .circumflex
      else if (action = .hornInsertO ∨ action = .hornInsertU) ∧ states ≠ [] ∧
          (st.rawInput.dropLast.getLast?).map towlower = some lower then
        last.base == (if action = .hornInsertO then 'o' else 'u') && last.mod == .horn
      else false
    else
      match action.toVniModifier with
      | .stroke => strokeEscape
      | .none => false
      | escMod => hasEscapableModifier states escMod false
  canEscape || wouldModifierKeyMatchExclusion cfg states lower || isToneStopCodaMismatch states

/-- A `d` that would become `đ` in an English-looking word marks the word as English. -/
def markStrokeEnglish (st : EngineState) (action : TypingAction) : EngineState :=
  if (action = .strokeD ∨ action = .vniStroke) ∧ st.engProt.bias ≠ .hardEnglish ∧
      3 ≤ st.states.length then
    match findStrokeDTarget st.states with
    | some dTarget =>
      if (charAt st.states dTarget).mod = .none ∧ shouldBlockStrokeDAsEnglish st.states dTarget then
        { st with engProt := { st.engProt with bias := .hardEnglish } }
      else st
    | none => st
  else st

/-- The gate of a modifier key; `checkRaw` adds the raw prefix block. -/
def modifierBlocked (cfg : TypingConfig) (st : EngineState) (lower : Char) (checkRaw : Bool) : Bool :=
  let block := st.escape != .none ||
    (!cfg.allowEnglishBypass && st.engProt.bias == .hardEnglish) ||
    (checkRaw && cfg.effectiveSpellCheck && isBlockedEnglishModifier st.rawInput)
  block && !(st.escape == .none && !cfg.spellExclusions.isEmpty &&
    wouldModifierKeyMatchExclusion cfg st.states lower)

/-- What follows a modifier that was applied. -/
def afterModifier (cfg : TypingConfig) (st : EngineState) : EngineState :=
  { st with
    engProt := { st.engProt with bias := .vietnamese }
    states := applyAutoUO cfg st.states }.updateSpellState cfg

/-- The gates in front of C++ `ProcessModifier`; `checkSpell` is false for the user-defined actions,
    which skip the gate of an invalid buffer. -/
def modifierOpen (cfg : TypingConfig) (st : EngineState) (action : TypingAction) (c lower : Char)
    (checkRaw checkSpell : Bool) : Bool :=
  !modifierBlocked cfg st lower checkRaw &&
    (!(checkSpell && cfg.effectiveSpellCheck && st.spellCheckDisabled) ||
      wouldModifierRecoverOrEscape cfg st action c lower)

/-- One branch of C++ `HandleModifierAction`. -/
def tryModifier (cfg : TypingConfig) (st : EngineState) (action : TypingAction) (c lower : Char)
    (checkRaw checkSpell : Bool) : EngineState × Bool :=
  if modifierOpen cfg st action c lower checkRaw checkSpell then
    match processModifier cfg st action c with
    | (st', true) => (afterModifier cfg st', true)
    | (st', false) => (st', false)
  else (st, false)

/-- C++ `TypingEngine::HandleModifierAction`; the flag says whether the key was consumed. -/
def handleModifierAction (cfg : TypingConfig) (st : EngineState) (action : TypingAction)
    (c lower : Char) : EngineState × Bool :=
  let isUserDefined := cfg.inputMethod == .userDefined
  if (cfg.isTelexMode ∨ isUserDefined) ∧ action.isTelexModifier then
    tryModifier cfg (markStrokeEnglish st action) action c lower true true
  else if (cfg.isVniMode ∨ isUserDefined) ∧ action.isVniModifier then
    tryModifier cfg (markStrokeEnglish st action) action c lower false true
  else if isUserDefined ∧ action.isUserDefinedOnly then
    tryModifier cfg st action c lower true false
  else (st, false)

end EngineState

end NextKey
