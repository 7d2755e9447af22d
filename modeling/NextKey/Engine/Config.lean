import NextKey.Engine.CharState

/-!
# Actions and configuration

Model of `core/engine/TypingAction.h` and of the part of `core/config/TypingConfig.h` the engine
reads: what a key is bound to, the classification of keys by input method, and the configuration.
-/

namespace NextKey

/-- Action a keystroke is classified as before dispatch (C++ `TypingAction`). -/
inductive TypingAction where
  | none
  -- tone application
  | clearTone
  | toneAcute
  | toneGrave
  | toneHook
  | toneTilde
  | toneDot
  -- Telex modifier keys
  | circumflexA
  | circumflexE
  | circumflexO
  | hornW
  | hornInsertO
  | hornInsertU
  | strokeD
  -- VNI modifier keys
  | vniCircumflex
  | vniHorn
  | vniBreve
  | vniStroke
  -- user-defined only
  | hornOrInsertU
  | hornOrInsertUNoStart
  | undoAllMarks
  -- direct char insertion
  | insertABreve
  | insertABreveUpper
  | insertACircumflex
  | insertACircumflexUpper
  | insertDStroke
  | insertDStrokeUpper
  | insertECircumflex
  | insertECircumflexUpper
  | insertOCircumflex
  | insertOCircumflexUpper
  | insertOHorn
  | insertOHornUpper
  | insertUHorn
  | insertUHornUpper
  deriving DecidableEq, Repr, Inhabited

/-- Input method types (C++ `InputMethod`). -/
inductive InputMethod where
  | telex
  | vni
  | simpleTelex
  | combined
  | userDefined
  deriving DecidableEq, Repr

namespace TypingAction

/-- C++ `IsToneAction`. -/
def isTone : TypingAction → Bool
  | clearTone | toneAcute | toneGrave | toneHook | toneTilde | toneDot => true
  | _ => false

/-- C++ `IsTelexModifierAction`. -/
def isTelexModifier : TypingAction → Bool
  | circumflexA | circumflexE | circumflexO | hornW | hornInsertO | hornInsertU | strokeD => true
  | _ => false

/-- C++ `IsVniModifierAction`. -/
def isVniModifier : TypingAction → Bool
  | vniCircumflex | vniHorn | vniBreve | vniStroke => true
  | _ => false

/-- Glyph of a direct insertion: base, modifier and case (the table of C++ `HandleInsertChar`). -/
def insertGlyph : TypingAction → Option (Char × Modifier × Bool)
  | insertABreve => some ('a', .breve, false)
  | insertABreveUpper => some ('a', .breve, true)
  | insertACircumflex => some ('a', .circumflex, false)
  | insertACircumflexUpper => some ('a', .circumflex, true)
  | insertDStroke => some ('d', .stroke, false)
  | insertDStrokeUpper => some ('d', .stroke, true)
  | insertECircumflex => some ('e', .circumflex, false)
  | insertECircumflexUpper => some ('e', .circumflex, true)
  | insertOCircumflex => some ('o', .circumflex, false)
  | insertOCircumflexUpper => some ('o', .circumflex, true)
  | insertOHorn => some ('o', .horn, false)
  | insertOHornUpper => some ('o', .horn, true)
  | insertUHorn => some ('u', .horn, false)
  | insertUHornUpper => some ('u', .horn, true)
  | _ => Option.none

/-- C++ `IsUserDefinedOnlyAction`. -/
def isUserDefinedOnly : TypingAction → Bool
  | hornOrInsertU | hornOrInsertUNoStart | undoAllMarks => true
  | action => action.insertGlyph.isSome

/-- Actions that can fire on an empty buffer (C++ `IsInsertTypeAction`). -/
def isInsertType : TypingAction → Bool
  | hornInsertO | hornInsertU | hornOrInsertU | hornW => true
  | action => action.insertGlyph.isSome

/-- Tone requested by an action (C++ `ActionToTone`). -/
def toTone : TypingAction → Tone
  | toneAcute => .acute
  | toneGrave => .grave
  | toneHook => .hook
  | toneTilde => .tilde
  | toneDot => .dot
  | _ => .none

/-- Target vowel of a circumflex action, `'\x00'` otherwise (C++ `ActionToVowel`). -/
def toVowel : TypingAction → Char
  | circumflexA => 'a'
  | circumflexE => 'e'
  | circumflexO => 'o'
  | _ => '\x00'

/-- Modifier of a VNI action (C++ `ActionToVniModifier`). -/
def toVniModifier : TypingAction → Modifier
  | vniCircumflex => .circumflex
  | vniHorn => .horn
  | vniBreve => .breve
  | vniStroke => .stroke
  | _ => .none

end TypingAction

/-- Telex keys of `ClassifyKey`. -/
def classifyTelex : Char → TypingAction
  | 'z' => .clearTone
  | 's' => .toneAcute
  | 'f' => .toneGrave
  | 'r' => .toneHook
  | 'x' => .toneTilde
  | 'j' => .toneDot
  | 'a' => .circumflexA
  | 'e' => .circumflexE
  | 'o' => .circumflexO
  | 'w' => .hornW
  | '[' => .hornInsertO
  | ']' => .hornInsertU
  | 'd' => .strokeD
  | _ => .none

/-- VNI keys of `ClassifyKey`. -/
def classifyVni : Char → TypingAction
  | '0' => .clearTone
  | '1' => .toneAcute
  | '2' => .toneGrave
  | '3' => .toneHook
  | '4' => .toneTilde
  | '5' => .toneDot
  | '6' => .vniCircumflex
  | '7' => .vniHorn
  | '8' => .vniBreve
  | '9' => .vniStroke
  | _ => .none

/-- Classify a key from the key and the mode alone (C++ `ClassifyKey`). -/
def classifyKey (lower : Char) (isTelex isVni : Bool) : TypingAction :=
  if isTelex ∧ classifyTelex lower ≠ .none then classifyTelex lower
  else if isVni then classifyVni lower
  else .none

/-- Typing configuration used by the engine (C++ `TypingConfig`). -/
structure TypingConfig where
  inputMethod : InputMethod := .telex
  spellCheckEnabled : Bool := true
  modernOrtho : Bool := true
  /-- Accept `z`, `w`, `j`, `f` as initial consonants. -/
  allowZwjf : Bool := false
  autoRestoreEnabled : Bool := true
  quickConsonant : Bool := false
  quickStartConsonant : Bool := false
  quickEndConsonant : Bool := false
  allowEnglishBypass : Bool := false
  /-- Spell check exclusion prefixes, lowercase. -/
  spellExclusions : List (List Char) := []
  /-- Per-key override, indexed by ASCII code. -/
  customKeyMap : Fin 128 → TypingAction := fun _ => .none

namespace TypingConfig

/-- C++ `TypingEngine::IsTelexMode`. -/
def isTelexMode (cfg : TypingConfig) : Bool :=
  cfg.inputMethod != .vni && cfg.inputMethod != .userDefined

/-- C++ `TypingEngine::IsVniMode`. -/
def isVniMode (cfg : TypingConfig) : Bool :=
  cfg.inputMethod == .vni || cfg.inputMethod == .combined

/-- The quick consonant options are off. -/
structure QuickOff (cfg : TypingConfig) : Prop where
  consonant : cfg.quickConsonant = false
  start : cfg.quickStartConsonant = false
  endConsonant : cfg.quickEndConsonant = false

/-- The custom key map at a key; keys outside ASCII have no entry. -/
def customAction (cfg : TypingConfig) (key : Char) : TypingAction :=
  if h : key.toNat < 128 then cfg.customKeyMap ⟨key.toNat, h⟩ else .none

/-- The `effectiveSpellCheck` flag of the tone and modifier gates. -/
def effectiveSpellCheck (cfg : TypingConfig) : Bool :=
  cfg.spellCheckEnabled && !cfg.allowEnglishBypass

end TypingConfig

end NextKey
