import NextKey.Engine.Config
import NextKey.Engine.Phonotactics
import NextKey.Engine.Validator

/-!
# Engine helpers

Model of `core/engine/EngineHelpers.h`: the escape and quick consonant records, the spell exclusion
list, the stroke target of `d`, the stop coda and the guards of the tone relocation. The templates of
the source are instantiated at `CharState`, and their compose callback at `compose`.
-/

namespace NextKey

/-- What the user undid by pressing a mark key twice (C++ `EscapeKind` in `EscapeState`). -/
inductive EscapeKind where
  | none
  | tone
  | circumflex
  | horn
  | breve
  | stroke
  | modifier
  deriving DecidableEq, Repr, Inhabited

/-- Quick consonant bookkeeping (C++ `QuickConsonantState`). -/
structure QuickConsonantState where
  /-- Index in `states_` of the expanded character. -/
  resultIndex : Option Nat := none
  /-- Key that triggered the last expansion. -/
  lastKey : Option Char := none
  /-- The buffer is only a quick consonant expansion. -/
  onlyQC : Bool := false
  /-- A backspace undid the expansion. -/
  escaped : Bool := false
  deriving DecidableEq, Repr

namespace QuickConsonantState

/-- C++ `clearActive`. -/
def clearActive (qc : QuickConsonantState) : QuickConsonantState :=
  { qc with resultIndex := none, lastKey := none }

/-- C++ `markEscaped`. -/
def markEscaped (qc : QuickConsonantState) : QuickConsonantState :=
  { qc with resultIndex := none, lastKey := none, escaped := true }

/-- C++ `hasActive`. -/
def hasActive (qc : QuickConsonantState) : Bool := qc.resultIndex.isSome

end QuickConsonantState

/-- Characters of a composed word the exclusion list is compared with. -/
def kMaxBuf : Nat := 16

/-- The consonant onset before the `u` at `uIdx` is `h`, `th` or `kh` (C++ `IsUOEdgeCasePrefix`). -/
def isUOEdgeCasePrefix [WideLocale] (states : List CharState) (uIdx : Nat) : Bool :=
  let c0 := towlower (charAt states 0).base
  let c1 := towlower (charAt states 1).base
  uIdx == 1 && c0 == 'h' || uIdx == 2 && c1 == 'h' && (c0 == 't' || c0 == 'k')

/-- Overwrite the modifier at an index. -/
def setMod (states : List CharState) (i : Nat) (mod : Modifier) : List CharState :=
  states.modify i fun s => { s with mod := mod }

/-- Clear the `u` of a modified `uo` pair (C++ `UndoHornU`). -/
def undoHornU (states : List CharState) (oIndex : Nat) : List CharState :=
  let o := charAt states oIndex
  let u := charAt states (oIndex - 1)
  if 0 < oIndex ∧ o.base = 'o' ∧ o.hasModifier ∧ u.base = 'u' ∧ u.hasModifier then
    setMod states (oIndex - 1) .none
  else states

/-- C++ `CheckZwjfInitialBias`. -/
def checkZwjfInitialBias (states : List CharState) (cfg : TypingConfig)
    (prot : EnglishProtectionState) : EnglishProtectionState :=
  match states with
  | [] => prot
  | s0 :: _ =>
    if cfg.allowZwjf ∨ ¬cfg.spellCheckEnabled then prot
    else if prot.bias = .vietnamese then prot
    else if s0.isVowel then prot
    else if ['w', 'z', 'j', 'f'].contains s0.base then { prot with bias := .hardEnglish }
    else prot

/-- C++ `RecalcEnglishBias`. -/
def recalcEnglishBias [WideLocale] (states : List CharState) : EnglishProtectionState :=
  if 2 ≤ states.length then checkEnglishBias states {} else {}

/-- The last `d`, unless its cluster of `d` follows a vowel (C++ `FindStrokeDTarget`). -/
def findStrokeDTarget (states : List CharState) : Option Nat :=
  match lastIdx? states.length fun i => (charAt states i).isD with
  | none => none
  | some dIdx =>
    let beforeCluster := (states.take dIdx).reverse.dropWhile (·.isD)
    match beforeCluster with
    | s :: _ => if s.isVowel then none else some dIdx
    | [] => some dIdx

/-- C++ `IsStrokeDBlockedByCoda`. -/
def isStrokeDBlockedByCoda (states : List CharState) (dTarget : Nat) : Bool :=
  if dTarget = 0 ∧ 1 < states.length ∧ (charAt states 1).isVowel then false
  else
    match states.getLast? with
    | some last => !(last.isVowel || last.isD)
    | none => false

/-- C++ `ShouldBlockStrokeDAsEnglish`. -/
def shouldBlockStrokeDAsEnglish (states : List CharState) (dTarget : Nat) : Bool :=
  isStrokeDBlockedByCoda states dTarget || dTarget == 0 && hasStructuralVCVPattern states

/-- Trailing `đ`, or leading `đ` (C++ `IsStrokeDEscapeAllowed`). -/
def isStrokeDEscapeAllowed (count dIdx : Nat) : Bool :=
  decide (0 < count) && dIdx == count - 1 || dIdx == 0 && decide (2 ≤ count)

/-- The buffer ends with a stop final `c`, `ch`, `k`, `p` or `t` after a vowel
    (C++ `HasStopFinalCoda`). -/
def hasStopFinalCoda [WideLocale] (states : List CharState) : Bool :=
  match lastIdx? states.length fun i => (charAt states i).isVowel with
  | none => false
  | some v =>
    match states.drop (v + 1) with
    | [c] => ['c', 'k', 'p', 't'].contains (towlower c.base)
    | [c0, c1] => towlower c0.base == 'c' && towlower c1.base == 'h'
    | _ => false

/-- C++ `HasEscapableModifier`. -/
def hasEscapableModifier (states : List CharState) (mod : Modifier) (isStroke : Bool) : Bool :=
  states.any fun s => (if isStroke then s.isD else s.isVowel) && s.mod == mod

/-- C++ `FindTonedVowelIndex`. -/
def findTonedVowelIndex (states : List CharState) : Option Nat :=
  firstIdx? states.length fun i => (charAt states i).isVowel && (charAt states i).hasTone

/-- C++ `HasConsonantBetween`. -/
def hasConsonantBetween (states : List CharState) (fromIdx toIdx : Nat) : Bool :=
  (List.range (max fromIdx toIdx)).any fun i =>
    decide (min fromIdx toIdx < i) && !(charAt states i).isVowel

/-- The target is the rightmost vowel only because the last two vowels have no diphthong rule
    (C++ `IsToneRelocBlockedByP4`). -/
def isToneRelocBlockedByP4 (states : List CharState) (targetIdx : Nat) (modernOrtho : Bool) : Bool :=
  if (charAt states targetIdx).hasModifier then false
  else
    let nucleus i := (charAt states i).isVowel && !isClusterConsonant states i
    match lastIdx? states.length nucleus with
    | none => false
    | some vLast =>
      match lastIdx? vLast nucleus with
      | none => false
      | some v2nd =>
        if targetIdx ≠ vLast ∨ vLast ≠ v2nd + 1 then false
        else
          match diphthongVowelIndex (charAt states v2nd).base,
            diphthongVowelIndex (charAt states vLast).base with
          | some fi, some li => diphthongTable modernOrtho fi li == .noRule
          | _, _ => false

section Locale
variable [WideLocale]

/-- The composed word starts with an exclusion entry (C++ `IsSpellExcluded`). -/
def isSpellExcluded (states : List CharState) (exclusions : List (List Char)) : Bool :=
  let buf := ((composeAll states).take kMaxBuf).map towlower
  !states.isEmpty && exclusions.any fun pat => decide (2 ≤ pat.length) && pat.isPrefixOf buf

/-- The new `spellCheckDisabled_` (C++ `UpdateSpellCheck`). -/
def updateSpellCheck (states : List CharState) (cfg : TypingConfig) : Bool :=
  if ¬cfg.spellCheckEnabled ∨ states = [] then false
  else if isSpellExcluded states cfg.spellExclusions then false
  else Phonology.validateSyllableState states cfg.allowZwjf == .invalid

/-- C++ `ShouldAutoRestore`. -/
def shouldAutoRestore (raw composed : List Char) : Bool :=
  raw != composed &&
    (composed.any (fun ch => decide (0x7F < ch.toNat)) || decide (raw.length ≤ composed.length))

/-- `dd` or `d9` somewhere in the raw input, in either case. -/
def hasRawDD : List Char → Bool
  | a :: b :: rest =>
    (a == 'd' || a == 'D') && (b == 'd' || b == 'D' || b == '9') || hasRawDD (b :: rest)
  | _ => false

/-- A typed `đ` with no plain vowel after the last one (C++ `HasIntentionalStrokeD`). -/
def hasIntentionalStrokeD (rawInput composed : List Char) : Bool :=
  let isStroke c := c == 'đ' || c == 'Đ'
  hasRawDD rawInput && composed.any isStroke &&
    (composed.reverse.takeWhile fun c => !isStroke c).all fun c => !isVowelBase (towlower c)

/-- Two-way prefix match of a buffer with the exclusion list (C++ `MatchExclusionBuf`). -/
def matchExclusionBuf (buf : List Char) (exclusions : List (List Char))
    (cmp : Char → Char → Bool) : Bool :=
  exclusions.any fun pat =>
    decide (2 ≤ pat.length) && !buf.isEmpty && (pat.zip buf).all fun (a, b) => cmp a b

/-- C++ `MatchExclusionBufIgnoreTone`. -/
def matchExclusionBufIgnoreTone (buf : List Char) (exclusions : List (List Char)) : Bool :=
  matchExclusionBuf buf exclusions fun a b => stripTone a == stripTone b

/-- The composed buffer with one character overridden (C++ `BuildExclusionBuf`). -/
def buildExclusionBuf (states : List CharState) (overrideIdx : Nat) (overrideChar : Char) :
    List Char :=
  ((((states.map compose).set overrideIdx overrideChar).filter (· ≠ '\x00')).take kMaxBuf).map
    towlower

/-- C++ `WouldStrokeDMatchExclusion`. -/
def wouldStrokeDMatchExclusion (states : List CharState) (exclusions : List (List Char)) : Bool :=
  match findStrokeDTarget states with
  | some dIdx => matchExclusionBuf (buildExclusionBuf states dIdx 'đ') exclusions (· == ·)
  | none => false

/-- C++ `WouldToneMatchExclusion`. -/
def wouldToneMatchExclusion (states : List CharState) (exclusions : List (List Char))
    (toneIdx : Nat) (tonedChar : Char) : Bool :=
  decide (toneIdx < states.length) &&
    matchExclusionBuf (buildExclusionBuf states toneIdx tonedChar) exclusions (· == ·)

/-- C++ `WouldModifierMatchExclusion`. -/
def wouldModifierMatchExclusion (states : List CharState) (exclusions : List (List Char))
    (targetIdx : Nat) (mod : Modifier) : Bool :=
  let modChar := compose { charAt states targetIdx with mod := mod }
  decide (targetIdx < states.length) &&
    matchExclusionBufIgnoreTone (buildExclusionBuf states targetIdx modChar) exclusions

/-- C++ `WouldAnyModifierMatchExclusion`. -/
def wouldAnyModifierMatchExclusion (states : List CharState) (exclusions : List (List Char))
    (mod : Modifier) (eligibleBases : List Char) : Bool :=
  (List.range states.length).any fun i =>
    let s := charAt states i
    s.isVowel && !s.hasModifier && eligibleBases.contains s.base &&
      wouldModifierMatchExclusion states exclusions i mod

end Locale

end NextKey
