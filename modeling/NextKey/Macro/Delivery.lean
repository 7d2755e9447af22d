import NextKey.Macro.Case
import NextKey.Output.Injector

/-!
# Delivery of a macro expansion

Model of `HookEngine::TryExpandMacro` with the `ReplaceRaw`, `InjectKey` and `ClipboardPasteText` of
the output dispatcher. The dispatcher drops the result of `ReplaceRaw`, so a segment that does not
fit into the injector's batch is lost without a trace. The expansion is delivered whole exactly when
no segment is lost: when the erasing and the first line fit together, and each later line fits by
itself.
-/

namespace NextKey

open Macro

/-- C++ `kMacroClipboardThreshold` -/
def kMacroClipboardThreshold : Nat := 200

/-- C++ `HookEngine::MacroResult` -/
inductive MacroResult where
  | NoMatch
  | ExpandedEatTrigger
  | ExpandedPassTrigger
  deriving DecidableEq, Repr

/-- What `TryExpandMacro` reads of the hook engine. -/
structure MacroState where
  rawMacroBuffer : WString
  previousComposition : WString
  previousEncodedWidths : List Nat
  macroTable : List (WString × WString)
  macroCrossCommit : Bool
  currentCodeTable : CodeTable
  autoCapsMacro : Bool

namespace MacroState

/-- The inputs of the plan. -/
def planInputs (st : MacroState) (triggerChar : UInt16) : PlanInputs where
  rawMacroBuffer := st.rawMacroBuffer
  previousComposition := st.previousComposition
  previousEncodedWidths := st.previousEncodedWidths
  macroTable := st.macroTable
  macroCrossCommit := st.macroCrossCommit
  currentCodeTable := st.currentCodeTable
  autoCapsEnabled := st.autoCapsMacro
  triggerChar := triggerChar
  clipboardThreshold := kMacroClipboardThreshold

/-- The plan. -/
def plan [WideCtype] (st : MacroState) (triggerChar : UInt16) (mapper : CaseMapper) : MacroPlan :=
  Plan (st.planInputs triggerChar) mapper

end MacroState

/-- A call of the output dispatcher. -/
inductive Dispatch where
  | replaceRaw (bsCount : Nat) (text : WString)
  | injectKey (vk : Nat)
  | clipboardPasteText (text : WString)
  deriving DecidableEq, Repr

/-- The line break of a text control. -/
def lineBreak : WString := [0x0D, 0x0A]

/-- Enter starts a new line; no other key is injected here. -/
def typedKey (vk : Nat) : WString := if vk = VK_RETURN then lineBreak else []

namespace SendInputInjector

variable (inj : SendInputInjector)

/-- C++ `ReplaceRaw`, on the text before the caret -/
def ReplaceRaw (screen : WString) (bsCount : Nat) (text : WString) : WString :=
  if bsCount = 0 ∧ text = [] then screen else landAll typedKey screen (inj.Replace bsCount text).1

/-- What a call does to the text before the caret. -/
def run (screen : WString) : Dispatch → WString
  | .replaceRaw bsCount text => inj.ReplaceRaw screen bsCount text
  | .injectKey vk => landAll typedKey screen (press (.key vk))
  | .clipboardPasteText text => screen ++ text

/-- All calls in their order. -/
def runAll (screen : WString) (calls : List Dispatch) : WString := calls.foldl inj.run screen

end SendInputInjector

/-- The loop of `TryExpandMacro` over the segments, with the backspaces that are still pending. -/
def sendSegments : Nat → List Segment → List Dispatch
  | pendingBs, [] => if 0 < pendingBs then [.replaceRaw pendingBs []] else []
  | pendingBs, s :: rest =>
    if s.isReturn then
      (if 0 < pendingBs then [.replaceRaw pendingBs []] else []) ++
        .injectKey VK_RETURN :: sendSegments 0 rest
    else if s.text ≠ [] then .replaceRaw pendingBs s.text :: sendSegments 0 rest
    else sendSegments pendingBs rest

/-- The calls that send a plan. -/
def sendPlan (plan : MacroPlan) (codeTable : CodeTable) : List Dispatch :=
  if plan.useClipboard then
    (if 0 < plan.bsCount then [.replaceRaw plan.bsCount []] else []) ++
      [.clipboardPasteText (ExpandEscapesForClipboard plan.expansion)]
  else sendSegments plan.bsCount (BuildSegments plan.expansion codeTable)

/-- C++ `TryExpandMacro`: the result and the calls of the dispatcher -/
def TryExpandMacro [WideCtype] (st : MacroState) (triggerChar : UInt16) (mapper : CaseMapper) :
    MacroResult × List Dispatch :=
  let plan := st.plan triggerChar mapper
  if plan.matched then
    (if plan.isPartOfMacro then .ExpandedEatTrigger else .ExpandedPassTrigger,
      sendPlan plan st.currentCodeTable)
  else (.NoMatch, [])

/-- The expansion as it should be read: encoded, with the escape as a line break. -/
def renderedExpansion (codeTable : CodeTable) : WString → WString
  | [] => []
  | [c] => (CodeTableConverter.ConvertChar c codeTable).units
  | c :: d :: rest =>
    if isReturnEscape c d then lineBreak ++ renderedExpansion codeTable rest
    else (CodeTableConverter.ConvertChar c codeTable).units ++ renderedExpansion codeTable (d :: rest)

/-- The encoded lines of an expansion: the first one and the others. -/
def encodedLines (codeTable : CodeTable) : WString → WString × List WString
  | [] => ([], [])
  | [c] => ((CodeTableConverter.ConvertChar c codeTable).units, [])
  | c :: d :: rest =>
    if isReturnEscape c d then
      let lines := encodedLines codeTable rest
      ([], lines.1 :: lines.2)
    else
      let lines := encodedLines codeTable (d :: rest)
      ((CodeTableConverter.ConvertChar c codeTable).units ++ lines.1, lines.2)

/-- Lines after a line that has been sent. -/
def moreLines (lines : List WString) : WString := lines.flatMap (lineBreak ++ ·)

/-- What an expansion shows, line by line. -/
lemma renderedExpansion_eq (codeTable : CodeTable) (expansion : WString) :
    renderedExpansion codeTable expansion =
      (encodedLines codeTable expansion).1 ++ moreLines (encodedLines codeTable expansion).2 := by
  induction expansion using renderedExpansion.induct with
  | case1 => rfl
  | case2 c => simp [renderedExpansion, encodedLines, moreLines]
  | case3 c d rest hescape ih =>
    rw [renderedExpansion, encodedLines, if_pos hescape, if_pos hescape, ih]
    simp [moreLines]
  | case4 c d rest hescape ih =>
    rw [renderedExpansion, encodedLines, if_neg hescape, if_neg hescape, ih, List.append_assoc]

/-- What is pasted is what should be read. -/
lemma ExpandEscapesForClipboard_eq (expansion : WString) :
    ExpandEscapesForClipboard expansion = renderedExpansion .Unicode expansion := by
  induction expansion using renderedExpansion.induct with
  | case1 => rfl
  | case2 c => rfl
  | case3 c d rest hescape ih =>
    rw [ExpandEscapesForClipboard, renderedExpansion, if_pos hescape, if_pos hescape, ih]
    rfl
  | case4 c d rest hescape ih =>
    rw [ExpandEscapesForClipboard, renderedExpansion, if_neg hescape, if_neg hescape, ih,
      CodeTableConverter.ConvertChar_Unicode]
    rfl

/-- The segments of later lines. -/
def moreSegments (lines : List WString) : List Segment :=
  lines.flatMap fun line => { isReturn := true } :: flush line

/-- The segments are the lines. -/
lemma buildSegments_eq (codeTable : CodeTable) (cur expansion : WString) :
    buildSegments codeTable cur expansion =
      flush (cur ++ (encodedLines codeTable expansion).1) ++
        moreSegments (encodedLines codeTable expansion).2 := by
  induction expansion using renderedExpansion.induct generalizing cur with
  | case1 => simp [buildSegments, encodedLines, moreSegments]
  | case2 c => simp [buildSegments, encodedLines, moreSegments]
  | case3 c d rest hescape ih =>
    rw [buildSegments, encodedLines, if_pos hescape, if_pos hescape, ih]
    simp [moreSegments]
  | case4 c d rest hescape ih =>
    rw [buildSegments, encodedLines, if_neg hescape, if_neg hescape, ih, List.append_assoc]

/-- What a segment stands for: a return segment is CR LF. -/
def Macro.Segment.render (s : Segment) : WString := if s.isReturn then lineBreak else s.text

/-- A line that is flushed shows itself. -/
lemma render_flush (line : WString) : (flush line).flatMap Segment.render = line := by
  unfold flush
  split
  · next hempty => exact hempty.symm
  · exact List.append_nil line

/-- The further segments show the further lines. -/
lemma render_moreSegments (lines : List WString) :
    (moreSegments lines).flatMap Segment.render = moreLines lines := by
  rw [moreSegments, moreLines, List.flatMap_assoc]
  congr 1
  funext line
  rw [List.flatMap_cons, render_flush]
  rfl

/-- No segment loses or adds a character. -/
lemma render_BuildSegments (codeTable : CodeTable) (expansion : WString) :
    (BuildSegments expansion codeTable).flatMap Segment.render =
      renderedExpansion codeTable expansion := by
  rw [BuildSegments, buildSegments_eq, List.flatMap_append, render_flush, render_moreSegments,
    List.nil_append, renderedExpansion_eq]

/-- The segments of an expansion in Unicode, one after the other, are what the clipboard gets. -/
theorem segments_eq_clipboard (expansion : WString) :
    (BuildSegments expansion .Unicode).flatMap Segment.render =
      ExpandEscapesForClipboard expansion := by
  rw [render_BuildSegments, ExpandEscapesForClipboard_eq]

namespace SendInputInjector

variable (inj : SendInputInjector)

/-- Calls in two parts. -/
lemma runAll_append (screen : WString) (calls more : List Dispatch) :
    inj.runAll screen (calls ++ more) = inj.runAll (inj.runAll screen calls) more := List.foldl_append

/-- Nothing is replaced by nothing. -/
lemma ReplaceRaw_zero_nil (screen : WString) : inj.ReplaceRaw screen 0 [] = screen := if_pos ⟨rfl, rfl⟩

/-- Erasing alone is left out when there is nothing to erase. -/
lemma runAll_erase (screen : WString) (bsCount : Nat) :
    inj.runAll screen (if 0 < bsCount then [.replaceRaw bsCount []] else []) =
      inj.ReplaceRaw screen bsCount [] := by
  split
  · rfl
  · next h =>
    obtain rfl : bsCount = 0 := by omega
    exact (inj.ReplaceRaw_zero_nil screen).symm

/-- What fits replaces the erased text. -/
lemma ReplaceRaw_of_fits {bsCount : Nat} {text : WString} (h : inj.Fits bsCount text)
    (screen : WString) :
    inj.ReplaceRaw screen bsCount text = screen.rdrop bsCount ++ text := by
  unfold ReplaceRaw
  split
  · next hnone =>
    obtain ⟨rfl, rfl⟩ := hnone
    simp
  · exact inj.Replace_of_fits typedKey h screen

/-- What does not fit is lost. -/
lemma ReplaceRaw_of_not_fits {bsCount : Nat} {text : WString} (h : ¬inj.Fits bsCount text) :
    ∃ k, (k = 0 ∨ k = bsCount) ∧ (k = bsCount → text ≠ []) ∧
      ∀ screen, inj.ReplaceRaw screen bsCount text = screen.rdrop k := by
  obtain ⟨k, hk, htext, hland⟩ := inj.Replace_of_not_fits typedKey h
  refine ⟨k, hk, htext, fun screen => ?_⟩
  unfold ReplaceRaw
  rw [if_neg, hland]
  rintro ⟨rfl, rfl⟩
  rcases hk with rfl | rfl
  · exact htext rfl rfl
  · exact htext rfl rfl

/-- A later line, or nothing when it does not fit. -/
def survivor (line : WString) : WString := if inj.Fits 0 line then line else []

/-- A line is appended as far as it arrives. -/
lemma ReplaceRaw_line (screen line : WString) :
    inj.ReplaceRaw screen 0 line = screen ++ inj.survivor line := by
  unfold survivor
  split
  · next h => rw [inj.ReplaceRaw_of_fits h, List.rdrop_zero]
  · next h =>
    obtain ⟨k, hk, -, hland⟩ := inj.ReplaceRaw_of_not_fits h
    obtain rfl : k = 0 := by omega
    rw [hland, List.rdrop_zero, List.append_nil]

/-- The loop sends the first line with the backspaces, and then each line that fits. -/
theorem runAll_sendSegments (bsCount : Nat) (line : WString) (lines : List WString) (screen : WString) :
    inj.runAll screen (sendSegments bsCount (flush line ++ moreSegments lines)) =
      inj.ReplaceRaw screen bsCount line ++ moreLines (lines.map inj.survivor) := by
  induction lines generalizing bsCount line screen with
  | nil =>
    unfold flush
    split
    · next hline =>
      subst hline
      show inj.runAll screen (if 0 < bsCount then [.replaceRaw bsCount []] else []) = _ ++ []
      rw [runAll_erase, List.append_nil]
    · next hline =>
      show inj.runAll screen (sendSegments bsCount [{ text := line }]) = _ ++ []
      rw [sendSegments, if_neg (by simp), if_pos hline, List.append_nil]
      rfl
  | cons next rest ih =>
    -- Enter is sent behind the first line, and the rest follows without backspaces.
    have hreturn (s : WString) :
        inj.runAll s (.injectKey VK_RETURN :: sendSegments 0 (flush next ++ moreSegments rest)) =
          s ++ moreLines ((next :: rest).map inj.survivor) := by
      show inj.runAll (s ++ lineBreak) _ = _
      rw [ih, ReplaceRaw_line]
      simp [moreLines]
    have hmore : moreSegments (next :: rest) =
        { isReturn := true } :: (flush next ++ moreSegments rest) := by simp [moreSegments]
    rw [hmore]
    unfold flush
    split
    · next hline =>
      subst hline
      rw [List.nil_append, sendSegments, if_pos rfl, runAll_append, runAll_erase]
      exact hreturn _
    · next hline =>
      rw [List.singleton_append, sendSegments, if_neg (by simp), if_pos hline, sendSegments, if_pos rfl,
        if_neg (Nat.lt_irrefl 0), List.nil_append]
      exact hreturn _

/-- Nothing fits. -/
lemma fits_zero_nil : inj.Fits 0 ([] : WString) := by
  unfold Fits EraseFits
  rw [erasingPresses_zero]
  simp

/-- What fits arrives whole. -/
lemma survivor_of_fits {line : WString} (h : inj.Fits 0 line) : inj.survivor line = line := if_pos h

/-- What arrives is no longer than the line. -/
lemma length_survivor_le (line : WString) : (inj.survivor line).length ≤ line.length := by
  unfold survivor
  split
  · exact le_rfl
  · exact Nat.zero_le _

/-- A line that keeps its length has fitted. -/
lemma fits_of_length_survivor {line : WString} (h : line.length ≤ (inj.survivor line).length) :
    inj.Fits 0 line := by
  unfold survivor at h
  split at h
  · assumption
  · obtain rfl : line = [] := List.length_eq_zero_iff.mp (Nat.le_zero.mp h)
    exact inj.fits_zero_nil

/-- The length of one more line. -/
lemma length_moreLines_cons (line : WString) (lines : List WString) :
    (moreLines (line :: lines)).length = lineBreak.length + line.length + (moreLines lines).length := by
  simp [moreLines, Nat.add_assoc]

/-- What arrives of the lines is no longer than they are. -/
lemma length_moreLines_survivors (lines : List WString) :
    (moreLines (lines.map inj.survivor)).length ≤ (moreLines lines).length := by
  induction lines with
  | nil => exact le_rfl
  | cons line rest ih =>
    have hline := inj.length_survivor_le line
    rw [List.map_cons, length_moreLines_cons, length_moreLines_cons]
    omega

/-- Lines that keep their total length have all fitted. -/
lemma fits_of_length_moreLines {lines : List WString}
    (h : (moreLines lines).length ≤ (moreLines (lines.map inj.survivor)).length) :
    ∀ line ∈ lines, inj.Fits 0 line := by
  induction lines with
  | nil => exact fun _ hline => absurd hline List.not_mem_nil
  | cons line rest ih =>
    have hline := inj.length_survivor_le line
    have hrest := inj.length_moreLines_survivors rest
    rw [List.map_cons, length_moreLines_cons, length_moreLines_cons] at h
    intro other hother
    rcases List.mem_cons.mp hother with rfl | hother
    · exact inj.fits_of_length_survivor (by omega)
    · exact ih (by omega) other hother

/-- Lines that fit arrive whole. -/
lemma moreLines_survivors {lines : List WString} (h : ∀ line ∈ lines, inj.Fits 0 line) :
    moreLines (lines.map inj.survivor) = moreLines lines := by
  have hsame : lines.map inj.survivor = lines.map id :=
    List.map_congr_left fun line hline => inj.survivor_of_fits (h line hline)
  rw [hsame, List.map_id]

/-- Every call of the injector fits: the erasing of the typed text with the first line, each later line,
and on the clipboard route the erasing alone. -/
def EveryCallFits (plan : MacroPlan) (codeTable : CodeTable) : Prop :=
  if plan.useClipboard then inj.Fits plan.bsCount ([] : WString)
  else
    inj.Fits plan.bsCount (encodedLines codeTable plan.expansion).1 ∧
      ∀ line ∈ (encodedLines codeTable plan.expansion).2, inj.Fits 0 line

instance (plan : MacroPlan) (codeTable : CodeTable) : Decidable (inj.EveryCallFits plan codeTable) :=
  inferInstanceAs (Decidable (ite _ _ (_ ∧ _)))

/-- The plan is delivered whole: whatever stood before the typed text and whatever that text was, it
gives way to the expansion. -/
def DeliversWhole (plan : MacroPlan) (codeTable : CodeTable) (calls : List Dispatch) : Prop :=
  ∀ front typed : WString, typed.length = plan.bsCount →
    inj.runAll (front ++ typed) calls = front ++ renderedExpansion codeTable plan.expansion

/-- The text is erased when it gives way to the same text whatever it was. -/
lemma eq_of_forall_typed {bsCount : Nat} {before after : WString}
    (h : ∀ typed : WString, typed.length = bsCount → typed ++ before = after) : bsCount = 0 := by
  have hzero := h (List.replicate bsCount 0) List.length_replicate
  have hone := h (List.replicate bsCount 1) List.length_replicate
  have hsame := List.append_cancel_right (hzero.trans hone.symm)
  cases bsCount with
  | zero => rfl
  | succ n =>
    rw [List.replicate_succ, List.replicate_succ] at hsame
    cases hsame

/-- Typing a plan delivers it whole exactly when every call fits. -/
lemma deliversWhole_typed_iff (plan : MacroPlan) (codeTable : CodeTable) :
    inj.DeliversWhole plan codeTable
      (sendSegments plan.bsCount (BuildSegments plan.expansion codeTable)) ↔
      inj.Fits plan.bsCount (encodedLines codeTable plan.expansion).1 ∧
        ∀ line ∈ (encodedLines codeTable plan.expansion).2, inj.Fits 0 line := by
  unfold DeliversWhole BuildSegments
  rw [buildSegments_eq, List.nil_append, renderedExpansion_eq]
  simp only [runAll_sendSegments]
  constructor
  · intro h
    have hrest := inj.length_moreLines_survivors (encodedLines codeTable plan.expansion).2
    by_cases hfits : inj.Fits plan.bsCount (encodedLines codeTable plan.expansion).1
    · refine ⟨hfits, inj.fits_of_length_moreLines ?_⟩
      have hlength := congrArg List.length (h [] (List.replicate plan.bsCount 0) List.length_replicate)
      rw [inj.ReplaceRaw_of_fits hfits] at hlength
      simp [List.rdrop] at hlength
      omega
    · obtain ⟨k, hk, htext, hland⟩ := inj.ReplaceRaw_of_not_fits hfits
      simp only [hland] at h
      rcases hk with rfl | rfl
      · -- Nothing happened to the typed text.
        have hzero : plan.bsCount = 0 := eq_of_forall_typed fun typed htyped => by
          simpa using h [] typed htyped
        have hlength := congrArg List.length (h [] [] hzero.symm)
        have hne := List.length_pos_iff.mpr (htext hzero.symm)
        simp at hlength
        omega
      · -- The typed text is erased and the first line is lost.
        have hlength := congrArg List.length
          (h [] (List.replicate plan.bsCount 0) List.length_replicate)
        have hne := List.length_pos_iff.mpr (htext rfl)
        simp [List.rdrop] at hlength
        omega
  · rintro ⟨hfirst, hrest⟩ front typed htyped
    rw [inj.ReplaceRaw_of_fits hfirst, inj.moreLines_survivors hrest, ← htyped, List.append_assoc]
    simp [List.rdrop]

/-- The clipboard route delivers a plan whole exactly when the erasing fits. -/
lemma deliversWhole_clipboard_iff (plan : MacroPlan) :
    inj.DeliversWhole plan .Unicode
        ((if 0 < plan.bsCount then [.replaceRaw plan.bsCount []] else []) ++
          [.clipboardPasteText (ExpandEscapesForClipboard plan.expansion)]) ↔
      inj.Fits plan.bsCount ([] : WString) := by
  unfold DeliversWhole
  simp only [runAll_append, runAll_erase, ExpandEscapesForClipboard_eq]
  show (∀ front typed : WString, typed.length = plan.bsCount →
    inj.ReplaceRaw (front ++ typed) plan.bsCount [] ++
      renderedExpansion .Unicode plan.expansion = _) ↔ _
  constructor
  · intro h
    by_contra hfits
    obtain ⟨k, hk, htext, hland⟩ := inj.ReplaceRaw_of_not_fits hfits
    simp only [hland] at h
    rcases hk with rfl | rfl
    · have hzero : plan.bsCount = 0 := eq_of_forall_typed fun typed htyped =>
        show typed ++ [] = [] by simpa using h [] typed htyped
      exact htext hzero.symm rfl
    · exact htext rfl rfl
  · intro hfits front typed htyped
    rw [inj.ReplaceRaw_of_fits hfits, ← htyped, List.append_nil]
    simp [List.rdrop]

end SendInputInjector

section Locale
variable [WideCtype]

/-- A clipboard plan is a plan in Unicode. -/
lemma MacroState.useClipboard_unicode {st : MacroState} {triggerChar : UInt16} {mapper : CaseMapper}
    (h : (st.plan triggerChar mapper).useClipboard = true) : st.currentCodeTable = .Unicode := by
  unfold MacroState.plan Plan at h
  split at h
  · cases h
  · exact (of_decide_eq_true h).1

/-- A matched macro is delivered whole exactly when every call of the injector fits into its batches. -/
theorem expansion_whole_iff (inj : SendInputInjector) (st : MacroState) (triggerChar : UInt16)
    (mapper : CaseMapper) (hmatch : (TryExpandMacro st triggerChar mapper).1 ≠ .NoMatch) :
    inj.DeliversWhole (st.plan triggerChar mapper) st.currentCodeTable
        (TryExpandMacro st triggerChar mapper).2 ↔
      inj.EveryCallFits (st.plan triggerChar mapper) st.currentCodeTable := by
  have hmatched : (st.plan triggerChar mapper).matched = true := by
    by_contra hno
    apply hmatch
    rw [TryExpandMacro, if_neg hno]
  have hcalls : (TryExpandMacro st triggerChar mapper).2 =
      sendPlan (st.plan triggerChar mapper) st.currentCodeTable := by
    rw [TryExpandMacro, if_pos hmatched]
  rw [hcalls, sendPlan, SendInputInjector.EveryCallFits]
  split
  · next hclipboard =>
    rw [MacroState.useClipboard_unicode hclipboard]
    exact inj.deliversWhole_clipboard_iff _
  · exact inj.deliversWhole_typed_iff _ _

end Locale

section Ascii
attribute [local instance] WideCtype.ascii

/-- `tt` has been typed, and the table has it with this expansion. -/
def typedTt (expansion : WString) : MacroState where
  rawMacroBuffer := [0x74, 0x74]
  previousComposition := [0x74, 0x74]
  previousEncodedWidths := []
  macroTable := [([0x74, 0x74], expansion)]
  macroCrossCommit := false
  currentCodeTable := .Unicode
  autoCapsMacro := false

/-- The default injector. -/
def plainInjector : SendInputInjector where
  channel := .win32
  needsBaitCharPrefix := false
  suggestKeepChars := false
  suppressBait := false

/-- Two lines of 90 and of 100 characters arrive. -/
theorem expansion_whole_lines :
    plainInjector.DeliversWhole
      ((typedTt (List.replicate 90 0x61 ++ [0x5C, 0x6E] ++ List.replicate 100 0x62)).plan 0x20 .ascii)
      .Unicode
      (TryExpandMacro (typedTt (List.replicate 90 0x61 ++ [0x5C, 0x6E] ++ List.replicate 100 0x62)) 0x20
        .ascii).2 :=
  (expansion_whole_iff plainInjector
    (typedTt (List.replicate 90 0x61 ++ [0x5C, 0x6E] ++ List.replicate 100 0x62)) 0x20 .ascii
    (by decide +kernel)).mpr (by decide +kernel)

/-- A line of 130 characters does not arrive, and `tt` stays. -/
theorem expansion_lost :
    (TryExpandMacro (typedTt (List.replicate 130 0x61)) 0x20 .ascii).1 = .ExpandedPassTrigger ∧
      plainInjector.runAll [0x74, 0x74]
        (TryExpandMacro (typedTt (List.replicate 130 0x61)) 0x20 .ascii).2 =
        [0x74, 0x74] ∧
      ¬plainInjector.DeliversWhole ((typedTt (List.replicate 130 0x61)).plan 0x20 .ascii) .Unicode
        (TryExpandMacro (typedTt (List.replicate 130 0x61)) 0x20 .ascii).2 := by
  refine ⟨by decide +kernel, by decide +kernel, fun hwhole => ?_⟩
  have harrived := hwhole [] [0x74, 0x74] (by decide +kernel)
  revert harrived
  decide +kernel

end Ascii

end NextKey
