import NextKey.Engine.Tables

/-!
# English protection

Model of `core/engine/EnglishProtection.h`: the language bias of a word, the consonant clusters and
vowel patterns that mark it as English, and the detection of the `gi`/`qu` onset clusters.
-/

namespace NextKey

/-- C++ `LanguageBias`. -/
inductive LanguageBias where
  | unknown
  | hardEnglish
  | softEnglish
  | vietnamese
  deriving DecidableEq, Repr

/-- C++ `EnglishProtectionState`; `lastToneKey` is `none` for the source's 0. -/
structure EnglishProtectionState where
  bias : LanguageBias := .unknown
  lastToneKey : Option Char := none
  sameToneKeyCount : Nat := 0
  deriving DecidableEq, Repr

/-- Start clusters that no Vietnamese word has. -/
def kHardEnglishStarts : List (Char × Char) :=
  [ ('c', 'l'), ('c', 'r'), ('b', 'r'), ('b', 'l'), ('d', 'r'), ('f', 'r'), ('f', 'l'), ('g', 'r'),
    ('g', 'l'), ('p', 'r'), ('p', 'l'), ('s', 'm'), ('s', 'n'), ('s', 'p'), ('s', 'w'), ('s', 't'),
    ('s', 'c'), ('s', 'k'), ('s', 'l'), ('w', 'h'), ('w', 'r'), ('k', 'n'), ('p', 'n'), ('p', 's') ]

/-- Acting as a consonant inside the onset clusters `gi` and `qu` (C++ `IsClusterConsonant`). -/
def isClusterConsonant (states : List CharState) (i : Nat) : Bool :=
  i != 0 &&
    ((charAt states i).base == 'i' && (charAt states (i - 1)).base == 'g' &&
        decide (i + 1 < states.length) && (charAt states (i + 1)).isVowel ||
      (charAt states i).base == 'u' && (charAt states (i - 1)).base == 'q')

/-- The scan of `HasStructuralVCVPattern`: each round drops one vowel group and the consonants after
    it. A modified vowel group followed by a single plausible coda is not counted. -/
def vcvScan : Nat → List CharState → Bool
  | 0, _ => false
  | fuel + 1, states =>
    let rest := states.dropWhile (!·.isVowel)
    let group := rest.takeWhile (·.isVowel)
    let tail := rest.dropWhile (·.isVowel)
    let consonants := tail.takeWhile (!·.isVowel)
    let next := tail.dropWhile (!·.isVowel)
    let plausibleCoda := match consonants with
      | [coda] => group.any (·.hasModifier) && ['c', 'k', 'm', 'n', 'p', 't'].contains coda.base
      | _ => false
    if next = [] then false
    else if plausibleCoda then vcvScan fuel next
    else true

/-- V+C(1+)+V anywhere in a buffer of at least four states (C++ `HasStructuralVCVPattern`). -/
def hasStructuralVCVPattern (states : List CharState) : Bool :=
  decide (4 ≤ states.length) && vcvScan states.length states

/-- Adjacent plain vowels that no Vietnamese nucleus has, with the exceptions `ie`, `ya` and `ye`
    (C++ `HasInvalidAdjacentVowelPair`). -/
def hasInvalidAdjacentVowelPair (states : List CharState) : Bool :=
  (List.range (states.length - 1)).any fun i =>
    let s := charAt states i
    let t := charAt states (i + 1)
    s.isVowel && t.isVowel && !s.hasModifier && !t.hasModifier && !isClusterConsonant states i &&
      !([('i', 'e'), ('y', 'a'), ('y', 'e')].contains (s.base, t.base)) &&
      match diphthongVowelIndex s.base, diphthongVowelIndex t.base with
      | some v0, some v1 =>
        kDiphthongClassic v0 v1 == .noRule && kDiphthongModern v0 v1 == .noRule
      | _, _ => false

/-- Raw keystroke prefixes that block a tone (C++ `kBlockedTonePrefixes`). -/
def kBlockedTonePrefixes : List (List Char) := [['p', 'a', 's'], ['g', 'u', 'e', 's']]

/-- Raw keystroke prefixes that block a modifier (C++ `kBlockedModifierPrefixes`). -/
def kBlockedModifierPrefixes : List (List Char) := [['p', 'o', 'w'], ['u', 'p', 'w']]

section Locale
variable [WideLocale]

/-- C++ `IsHardEnglishStart`. -/
def isHardEnglishStart (c0 c1 : Char) : Bool :=
  kHardEnglishStarts.contains (towlower c0, towlower c1)

/-- C++ `IsHardEnglishRawStart`. -/
def isHardEnglishRawStart : List Char → Bool
  | r0 :: r1 :: _ => isHardEnglishStart r0 r1
  | _ => false

/-- C++ `IsHardEnglishEnd`. -/
def isHardEnglishEnd (c : Char) : Bool :=
  ['x', 'r', 'z', 'f', 's', 'j'].contains (towlower c)

/-- C++ `IsQWithoutU`. -/
def isQWithoutU (c0 c1 : Char) : Bool := towlower c0 == 'q' && towlower c1 != 'u'

/-- C++ `IsValidVietnameseYSequence`. -/
def isValidVietnameseYSequence : List CharState → Bool
  | s0 :: s1 :: rest =>
    towlower s0.base == 'y' && s1.base == 'e' && s1.hasModifier &&
      match rest with
      | [] => true
      | s2 :: _ => ['u', 'n', 'm', 't'].contains (towlower s2.base)
  | _ => false

/-- C++ `CheckSoftEnglishBias`. -/
def checkSoftEnglishBias (states : List CharState) : Bool :=
  match states with
  | s0 :: s1 :: _ =>
    towlower s0.base == 'y' && s1.isVowel && ['a', 'o', 'e'].contains (towlower s1.base) &&
      !isValidVietnameseYSequence states
  | _ => false

/-- C++ `UpdateToneInsistence`: the new state and whether the same key was pressed twice. -/
def updateToneInsistence (toneKey : Char) (st : EnglishProtectionState) :
    EnglishProtectionState × Bool :=
  let st' :=
    if st.lastToneKey = some toneKey then { st with sameToneKeyCount := st.sameToneKeyCount + 1 }
    else { st with lastToneKey := some toneKey, sameToneKeyCount := 1 }
  (st', decide (2 ≤ st'.sameToneKeyCount))

/-- C++ `IsHardEnglishToneContext`. -/
def isHardEnglishToneContext (states : List CharState) (toneKey : Char) : Bool :=
  isHardEnglishEnd toneKey && hasStructuralVCVPattern states

/-- C++ `IsInvalidVietnameseCoda`: a `d` at position 0 stops the scan like a vowel. -/
def isInvalidVietnameseCoda (states : List CharState) : Bool :=
  let n := states.length
  if n < 3 then false
  else
    match lastIdx? n fun i => (charAt states i).isVowel || (charAt states i).isD && i == 0 with
    | none => false
    | some i =>
      let codaLen := n - 1 - i
      if codaLen < 2 then false
      else if 3 ≤ codaLen then true
      else
        !([('c', 'h'), ('n', 'g'), ('n', 'h')].contains
          (towlower (charAt states (n - 2)).base, towlower (charAt states (n - 1)).base))

/-- The hard rejections of `CheckEnglishBias`. -/
def isHardEnglishWord (states : List CharState) : Bool :=
  let n := states.length
  let s0 := charAt states 0
  let s1 := charAt states 1
  let prev := charAt states (n - 2)
  let last := charAt states (n - 1)
  decide (2 ≤ n) && !s0.isVowel && !s1.isVowel && !s0.isD &&
      (isHardEnglishStart s0.base s1.base || isQWithoutU s0.base s1.base) ||
    decide (3 ≤ n) && !last.isVowel && !last.isD && prev.isVowel && isHardEnglishEnd last.base ||
    isInvalidVietnameseCoda states

/-- C++ `CheckEnglishBias`. -/
def checkEnglishBias (states : List CharState) (prot : EnglishProtectionState) :
    EnglishProtectionState :=
  if prot.bias = .vietnamese then prot
  else if isHardEnglishWord states then { prot with bias := .hardEnglish }
  else if prot.bias = .unknown ∧ checkSoftEnglishBias states then { prot with bias := .softEnglish }
  else prot

/-- C++ `MatchesRawPrefix`. -/
def matchesRawPrefix (raw : List Char) (rules : List (List Char)) : Bool :=
  rules.any fun pattern => pattern.isPrefixOf (raw.map towlower)

/-- C++ `IsBlockedEnglishTone`. -/
def isBlockedEnglishTone (raw : List Char) : Bool := matchesRawPrefix raw kBlockedTonePrefixes

/-- C++ `IsBlockedEnglishModifier`. -/
def isBlockedEnglishModifier (raw : List Char) : Bool :=
  matchesRawPrefix raw kBlockedModifierPrefixes

end Locale

end NextKey
