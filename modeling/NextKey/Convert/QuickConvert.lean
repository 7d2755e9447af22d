import NextKey.Config.Loading
import NextKey.Convert.TextTransforms

/-!
# Quick conversion

Model of `Execute` in `app/system/QuickConvert.cpp`: the selected text is copied, converted and pasted.
In sequential mode one option is applied at a press, the next one at the next press, and after the last
one the original text is shown. What a press finds on the screen and on the clock is its input; the hash
of the standard library is a parameter.
-/

namespace NextKey

open CodeTableConverter

/-- C++ `ConvertOption` -/
inductive ConvertOption where
  | kEncoding
  | kToUpper
  | kToLower
  | kCapsFirst
  | kCapsEach
  | kRemoveDiacritics
  deriving DecidableEq, Repr

/-- C++ `SelectionAnchor`, `stop` is its `end` -/
structure SelectionAnchor where
  start : BitVec 32 := 0
  stop : BitVec 32 := 0
  valid : Bool := false
  hasControl : Bool := false

/-- C++ `SequentialState` -/
structure SequentialState where
  originText : WText := []
  anchor : SelectionAnchor := {}
  window : BitVec 64 := 0
  currentIndex : Int := 0
  lastConvertTime : BitVec 32 := 0
  contentHash : BitVec 64 := 0
  lastPastedLength : Int := 0

/-- What one press of the hotkey finds: the foreground window and its selection, the clipboard, what the
    simulated copying puts there (nothing where it fails), and the clock each time it is read. -/
structure HotkeyPress where
  window : BitVec 64
  anchor : SelectionAnchor
  savedClipboard : WText
  copied : WText
  /-- another program wrote to the clipboard in the meantime -/
  touched : Bool
  /-- the clock in `IsStillInCycle` -/
  cycleTick : BitVec 32
  /-- the clock in `Execute` -/
  now : BitVec 32
  /-- the clock in `IsNewSelection` -/
  selectionTick : BitVec 32

/-- What a press does: the text it leaves on the clipboard if it writes one, the paste, the selection
    of the pasted text and of the previous one, and the toast. -/
structure PressResult where
  clipboard : Option WText := none
  pasted : Option WText := none
  reselected : Option (SelectionAnchor × Nat) := none
  recovered : Option Int := none
  toast : Option String := none

/-- C++ `QuickConvert` -/
structure QuickConvert where
  config : ConvertConfig
  seqState : SequentialState := {}

/-- C++ `SEQUENTIAL_TIMEOUT_MS` -/
def SEQUENTIAL_TIMEOUT_MS : BitVec 32 := 5000

namespace QuickConvert

/-- C++ `GetOptionName` -/
def GetOptionName : ConvertOption → String
  | .kEncoding => "→ Chuyển mã"
  | .kToUpper => "→ chữ HOA"
  | .kToLower => "→ chữ thường"
  | .kCapsFirst => "→ Hoa đầu câu"
  | .kCapsEach => "→ Hoa Từng Chữ"
  | .kRemoveDiacritics => "→ Bỏ dấu"

/-- C++ `GetEnabledOptions` -/
def GetEnabledOptions (config : ConvertConfig) : List ConvertOption :=
  (if config.sourceEncoding ≠ config.destEncoding then [.kEncoding] else []) ++
  (if config.allCaps then [.kToUpper] else []) ++
  (if config.allLower then [.kToLower] else []) ++
  (if config.capsFirst then [.kCapsFirst] else []) ++
  (if config.capsEach then [.kCapsEach] else []) ++
  (if config.removeMark then [.kRemoveDiacritics] else [])

/-- The text that the copying yields; it is skipped when the control says that nothing is selected. -/
def clipText (p : HotkeyPress) : WText := if p.anchor.hasControl && !p.anchor.valid then [] else p.copied

/-- C++ `restoreSavedClipboardIfSafe` -/
def restoreSavedClipboardIfSafe (p : HotkeyPress) : PressResult :=
  if p.savedClipboard.isEmpty || p.touched then {} else { clipboard := some p.savedClipboard }

/-- C++ `IsNewSelection` -/
def IsNewSelection (hash : WText → BitVec 64) (s : SequentialState) (text : WText)
    (p : HotkeyPress) : Bool :=
  if p.selectionTick - s.lastConvertTime > SEQUENTIAL_TIMEOUT_MS then true
  else if p.window ≠ s.window then true
  else if p.anchor.valid && s.anchor.valid && p.anchor.start != s.anchor.start then true
  else if text = s.originText then false
  else if hash text = s.contentHash then false
  else true

/-- C++ `IsStillInCycle` -/
def IsStillInCycle (s : SequentialState) (p : HotkeyPress) : Bool :=
  if s.lastConvertTime = 0 ∨ s.lastPastedLength ≤ 0 then false
  else if p.cycleTick - s.lastConvertTime > SEQUENTIAL_TIMEOUT_MS then false
  else if p.window ≠ s.window then false
  else
    let expectedCursor := s.anchor.start + BitVec.ofInt 32 s.lastPastedLength
    !(p.anchor.valid && s.anchor.valid &&
      (p.anchor.start != expectedCursor || p.anchor.stop != expectedCursor))

section Conversion

variable [WideChars] (orders : MapOrders)

/-- Decoding by the number of a code table; one that is no table is taken for CP1258. -/
def decodeFrom (table : BitVec 8) (input : WText) : WText :=
  DecodeString orders input ((CodeTable.ofInt? table.toNat).getD .VietnameseLocale)

/-- Encoding by the number of a code table; one that is no table passes every character on. -/
def encodeTo (table : BitVec 8) (input : WText) : WText :=
  EncodeString input ((CodeTable.ofInt? table.toNat).getD .Unicode)

/-- C++ `ApplyConversion` -/
def ApplyConversion (config : ConvertConfig) (input : WText) : ConvertOption → WText
  | .kEncoding => encodeTo config.destEncoding (decodeFrom orders config.sourceEncoding input)
  | .kToUpper => ToUpper input
  | .kToLower => ToLower input
  | .kCapsFirst => ToSentenceCase input
  | .kCapsEach => ToTitleCase input
  | .kRemoveDiacritics => RemoveDiacritics input

/-- No conversion empties a text. -/
lemma ApplyConversion_ne_nil (config : ConvertConfig) {input : WText} (h : input ≠ [])
    (option : ConvertOption) : ApplyConversion orders config input option ≠ [] := by
  have hlen := List.length_pos_iff.2 h
  cases option with
  | kEncoding => exact EncodeString_ne_nil (DecodeString_ne_nil orders h _) _
  | kToUpper => exact List.length_pos_iff.1 (by simpa [ApplyConversion] using hlen)
  | kToLower => exact List.length_pos_iff.1 (by simpa [ApplyConversion] using hlen)
  | kCapsFirst => exact List.length_pos_iff.1 (by simpa [ApplyConversion] using hlen)
  | kCapsEach => exact List.length_pos_iff.1 (by simpa [ApplyConversion] using hlen)
  | kRemoveDiacritics => exact List.length_pos_iff.1 (by simpa [ApplyConversion] using hlen)

/-- The mark and case options of the non-sequential mode, with the name of the last one applied. -/
def transform (config : ConvertConfig) (input : WText) : WText × Option ConvertOption :=
  let (result, toast) :=
    if config.removeMark then (RemoveDiacritics input, some ConvertOption.kRemoveDiacritics)
    else (input, none)
  if config.allCaps then (ToUpper result, some .kToUpper)
  else if config.allLower then (ToLower result, some .kToLower)
  else if config.capsFirst then (ToSentenceCase result, some .kCapsFirst)
  else if config.capsEach then (ToTitleCase result, some .kCapsEach)
  else (result, toast)

/-- The non-sequential mode: all enabled conversions at once, the encoding first. -/
def convertAll (config : ConvertConfig) (input : WText) : WText × Option String :=
  if config.sourceEncoding ≠ config.destEncoding then
    let (result, toast) :=
      transform config (encodeTo config.destEncoding (decodeFrom orders config.sourceEncoding input))
    (result, some (GetOptionName (toast.getD .kEncoding)))
  else
    let (result, toast) := transform config input
    (result, toast.map GetOptionName)

/-- The state of the cycle at a press: a new selection starts it again, the same one advances it, past
    the last option to the original text. -/
def advance (hash : WText → BitVec 64) (q : QuickConvert) (p : HotkeyPress) (text : WText)
    (recoveryMode : Bool) : SequentialState :=
  let s := q.seqState
  let next :=
    if !recoveryMode && IsNewSelection hash s text p then
      { s with
        originText := text
        anchor := p.anchor
        window := p.window
        currentIndex := 0
        contentHash := hash text }
    else
      let index := s.currentIndex + 1
      { s with
        currentIndex := if index ≥ (GetEnabledOptions q.config).length then -1 else index }
  { next with lastConvertTime := p.now }

/-- What the cycle shows: the original text, or one option applied to it. -/
def shown (config : ConvertConfig) (s : SequentialState) : WText × String :=
  if s.currentIndex < 0 then (s.originText, "→ Gốc")
  else
    match (GetEnabledOptions config)[s.currentIndex.toNat]? with
    | some option => (ApplyConversion orders config s.originText option, GetOptionName option)
    | none => (s.originText, "→ Gốc") -- out of range, which `advance` excludes

/-- The end of `Execute`: a result that differs from the text is pasted, or left on the clipboard. -/
def deliver (q : QuickConvert) (p : HotkeyPress) (text result : WText) (toast : Option String)
    (recoveryMode : Bool) : QuickConvert × PressResult :=
  let done : PressResult :=
    { clipboard := some result, toast := if q.config.alertDone then toast else none }
  if result = text then (q, restoreSavedClipboardIfSafe p)
  else if q.config.autoPaste then
    (if q.config.sequential then
      { q with seqState.lastPastedLength := (BitVec.ofNat 32 result.length).toInt }
     else q,
     { done with
        pasted := some result
        reselected := some (if recoveryMode then q.seqState.anchor else p.anchor, result.length) })
  else (q, done)

/-- `Execute` from the enabled options on. -/
def convert (hash : WText → BitVec 64) (q : QuickConvert) (p : HotkeyPress) (text : WText)
    (recoveryMode : Bool) : QuickConvert × PressResult :=
  if (GetEnabledOptions q.config).isEmpty then (q, restoreSavedClipboardIfSafe p)
  else if q.config.sequential && q.config.autoPaste then
    let s := advance hash q p text recoveryMode
    let (result, toast) := shown orders q.config s
    deliver { q with seqState := { s with contentHash := hash result } } p text result (some toast)
      recoveryMode
  else
    let (result, toast) := convertAll orders q.config text
    deliver q p text result toast recoveryMode

/-- C++ `Execute` -/
def Execute (hash : WText → BitVec 64) (q : QuickConvert) (p : HotkeyPress) :
    QuickConvert × PressResult :=
  if (clipText p).isEmpty then
    -- Nothing was copied: the previous paste is selected again, or the clipboard is converted.
    if q.config.sequential && q.config.autoPaste && IsStillInCycle q.seqState p then
      let (q', result) := convert orders hash q p [] true
      (q', { result with recovered := some q.seqState.lastPastedLength })
    else if !p.savedClipboard.isEmpty then convert orders hash q p p.savedClipboard false
    else (q, {})
  else convert orders hash q p (clipText p) false

end Conversion

end QuickConvert

end NextKey
