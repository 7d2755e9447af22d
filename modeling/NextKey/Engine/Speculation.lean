import NextKey.Engine.Modifier
import NextKey.Engine.Untoned

/-!
# Speculation and what is applied

A handler that sets a modifier behind `WouldBeValidSyllable` has the modifier validated on a copy of
the buffer, with the tone where it is or with the tone relocated, and then sets it and relocates the
tone in its own way. A `Site` is one such decision. `WouldBeValidSyllable` also accepts a buffer with
grave, hook or tilde before a stop coda, which is meant for buffers that are invalid for no other
reason, but it does not check the rest of the buffer then: `gàch` with `w` becomes `gằch`, and `ăch`
is not a rime with any tone.
-/

namespace NextKey

open Phonology

/-- How a handler relocates the tone after it has set the modifier. -/
inductive Relocation where
  /-- not at all -/
  | stay
  /-- `RelocateToneToTarget` -/
  | toTarget
  /-- `RelocateToneToHornVowel` -/
  | toHorn
  deriving DecidableEq, Repr

/-- A modifier that is set if `WouldBeValidSyllable` accepts it. -/
structure Site where
  target : Nat
  mod : Modifier
  clearIdx : Option Nat := none
  /-- The validation relocates the tone. -/
  speculates : Bool
  relocation : Relocation
  deriving DecidableEq, Repr

variable [WideLocale]

namespace Site

/-- The buffer with the modifier and the tone where it was. -/
def modified (d : Site) (states : List CharState) : List CharState :=
  speculateMod states d.target d.mod d.clearIdx

/-- The buffer the handler leaves behind. -/
def left (cfg : TypingConfig) (d : Site) (states : List CharState) : List CharState :=
  match d.relocation with
  | .stay => d.modified states
  | .toTarget => relocateToneToTarget cfg (d.modified states)
  | .toHorn => relocateToneToHornVowel (d.modified states)

/-- The validation the handler consults. -/
def accepted (cfg : TypingConfig) (d : Site) (states : List CharState) : Bool :=
  wouldBeValidSyllable cfg states d.target d.mod d.clearIdx d.speculates

end Site

/-- The validation of a doubled vowel next to its twin. -/
def adjacentSite (cfg : TypingConfig) (states : List CharState) : Option Site :=
  let last := states.length - 1
  if endsWithTriphthong states ∨ (charAt states last).mod = .circumflex then none
  else if validateSyllableState states cfg.allowZwjf = .validPrefix then
    some { target := last, mod := .circumflex, speculates := true, relocation := .toTarget }
  else some { target := last, mod := .circumflex, speculates := false, relocation := .stay }

/-- The validation of a doubled vowel across other characters: the tone stays in it when a vowel is
    crossed. -/
def freeSite (states : List CharState) (targetBase : Char) : Option Site :=
  match lastIdx? states.length fun i => (charAt states i).base == targetBase with
  | none => none
  | some i =>
    let crossed := states.drop (i + 1)
    if (charAt states i).mod ≠ .none ∨ crossed = [] then none
    else
      some { target := i, mod := .circumflex, speculates := !crossed.any (·.isVowel)
             relocation := .toTarget }

/-- The validation C++ `HandleAdjacentCircumflex` consults. -/
def circumflexSite (cfg : TypingConfig) (states : List CharState) (action : TypingAction) (c : Char) :
    Option Site :=
  let targetBase := if cfg.inputMethod = .userDefined then action.toVowel else towlower c
  let n := states.length
  if n = 0 ∨ ¬isVowelBase targetBase then none
  else if (charAt states (n - 1)).base = targetBase then adjacentSite cfg states
  else if 2 ≤ n ∧ (charAt states (n - 1)).isVowel ∧ (charAt states (n - 2)).isVowel ∧
      isTriphthong (charAt states (n - 2)).base (charAt states (n - 1)).base targetBase then none
  else freeSite states targetBase

/-- The validation of P5 to P7 of C++ `HandleHornW`, consulted behind a later consonant only. -/
def standaloneSite (states : List CharState) (scan : HornScan) : Option Site :=
  let gated (d : Site) := if hasNonVowelAfter states d.target then some d else none
  match scan.uIdx with
  | some u =>
    gated { target := EngineState.hornTargetU states scan u, mod := .horn, clearIdx := scan.aIdx
            speculates := false, relocation := .toHorn }
  | none =>
    match scan.oIdx, vowelPair? states 'o' 'a' with
    | some o, none => gated { target := o, mod := .horn, speculates := false, relocation := .toHorn }
    | _, _ =>
      match scan.aIdx with
      | some a => gated { target := a, mod := .breve, speculates := false, relocation := .stay }
      | none => none

/-- The validation C++ `HandleHornW` consults, when P1 to P4 do not apply. -/
def hornSite (cfg : TypingConfig) (st : EngineState) (c : Char) : Option Site :=
  let states := st.states
  let scan := hornScan states
  if cfg.inputMethod = .simpleTelex ∧
      ¬states.any fun s => s.base == 'a' || s.base == 'o' || s.base == 'u' then none
  else
    match scan.uIdx, vowelPair? states 'u' 'a' with
    | some _, some _ => none
    | _, _ =>
      match (vowelPair? states 'u' 'o').bind (st.hornPair c) with
      | some _ => none
      | none =>
        match scan.aIdx, vowelPair? states 'o' 'a' with
        | some _, some _ => none
        | _, _ =>
          match st.hornEscape c scan with
          | some _ => none
          | none => standaloneSite states scan

/-- The validation pass 1 of C++ `ProcessVniVowelModifier` consults. -/
def vniSite (cfg : TypingConfig) (states : List CharState) (targetMod : Modifier) : Option Site :=
  let target? := lastIdx? states.length fun i =>
    (charAt states i).isVowel && !isClusterConsonant states i &&
      (EngineState.vniEligible targetMod (charAt states i).base && (charAt states i).mod == .none)
  target?.map fun i =>
    if validateSyllableState states cfg.allowZwjf = .validPrefix then
      { target := i, mod := targetMod, speculates := true, relocation := .toTarget }
    else { target := i, mod := targetMod, speculates := false, relocation := .stay }

/-- The modifier keys whose handlers validate what they are about to apply. -/
inductive ModifierKey where
  | circumflex (action : TypingAction) (c : Char)
  | hornW (c : Char)
  | vni (targetMod : Modifier) (key : Char)

namespace ModifierKey

/-- The handler of the key; `none` when it does not consume the key. -/
def handle (cfg : TypingConfig) (st : EngineState) : ModifierKey → Option EngineState
  | .circumflex action c =>
    match st.handleAdjacentCircumflex cfg action c with
    | (st', true) => some st'
    | (_, false) => none
  | .hornW c => st.handleHornW cfg c
  | .vni targetMod key => st.processVniVowelModifier cfg targetMod key

/-- The validation its handler consults. -/
def site (cfg : TypingConfig) (st : EngineState) : ModifierKey → Option Site
  | .circumflex action c => circumflexSite cfg st.states action c
  | .hornW c => hornSite cfg st c
  | .vni targetMod _ => vniSite cfg st.states targetMod

end ModifierKey

/-- Invalid because of the tone before the stop coda and of nothing else: with acute, which every
    coda allows, the buffer is not invalid. -/
def onlyToneStopCodaMismatch (cfg : TypingConfig) (states : List CharState) : Bool :=
  isToneStopCodaMismatch states &&
    validateSyllableState (states.map fun s => if s.hasTone then { s with tone := .acute } else s)
      cfg.allowZwjf != .invalid

/-- Not invalid, or invalid only through a tone that is to be corrected. -/
def soundVerdict (cfg : TypingConfig) (states : List CharState) : Bool :=
  validateSyllableState states cfg.allowZwjf != .invalid || onlyToneStopCodaMismatch cfg states

/-- No tone of the buffer is refused by a stop coda, or there is no stop coda. -/
def tonesFitCoda (states : List CharState) : Bool :=
  !hasStopFinalCoda states || states.all fun s => stopTone s.tone

/-- The toned vowels are among two. -/
def tonesAmong (states : List CharState) (i j : Option Nat) : Bool :=
  (List.range states.length).all fun k =>
    !((charAt states k).isVowel && (charAt states k).hasTone) || i == some k || j == some k

/-- The relocation brings the tones of the buffer together on one vowel, a modified one. -/
def Site.gathersTone (cfg : TypingConfig) (d : Site) (states : List CharState) : Bool :=
  let modified := d.modified states
  match d.relocation with
  | .stay => checkToneModInvariant modified
  | .toTarget =>
    tonesAmong modified (findTonedVowelIndex modified) (findToneTarget cfg.modernOrtho modified)
  | .toHorn =>
    let tonedIdx :=
      lastIdx? modified.length fun i => (charAt modified i).isVowel && (charAt modified i).hasTone
    let hornIdx :=
      lastIdx? modified.length fun i => (charAt modified i).isVowel && (charAt modified i).isHorn
    let follows := tonedIdx.any fun t =>
      (charAt modified t).mod == .none || (charAt modified t).mod == .horn
    tonesAmong modified tonedIdx (if follows then hornIdx else none)

/-- The letters and modifiers are a syllable or a prefix of one with any tone, and the relocation
    puts the tone where it belongs. -/
def Site.soundUntoned (cfg : TypingConfig) (d : Site) (states : List CharState) : Bool :=
  validateSyllableState ((d.modified states).map untone) cfg.allowZwjf != .invalid &&
    d.gathersTone cfg states

end NextKey
