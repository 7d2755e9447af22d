import Mathlib.Algebra.Group.Nat.Defs
import NextKey.Output.Dispatcher

/-!
# Replacements by messages

Model of `RichEditEmReplaceSelInjector::Replace` over messages that may fail, and of the synchronous
channel of `OutputDispatcher::ReplaceUnicode`, which tries it again for 30 ms and then types. The target
is an edit control, the text around its selection. A message to it is answered, or is lost, or comes
late: the call times out, and the control gets the message all the same. The key events of the fallback
all land.

Through messages a replacement happens whole or not at all (`replaceEdit_whole`). Over all tries and the
fallback the text is edited once, but for a try that has selected the units and not replaced them: the
first backspace of the fallback then deletes the selection, and the others what stands before it
(`replaceSync_text`).
-/

namespace NextKey

variable {α : Type*}

/-- The focused edit control. -/
@[ext]
structure EditControl (α : Type*) where
  before : List α
  selected : List α := []
  after : List α := []

namespace EditControl

variable (c : EditControl α)

/-- `EM_GETSEL`: the end of the selection -/
def selectionEnd : Nat := c.before.length + c.selected.length

/-- `EM_SETSEL` of the units in front of the end of the selection -/
def setSel (start stop : Nat) : EditControl α where
  before := (c.before ++ c.selected ++ c.after).take start
  selected := ((c.before ++ c.selected ++ c.after).take stop).drop start
  after := (c.before ++ c.selected ++ c.after).drop stop

/-- `EM_REPLACESEL` -/
def replaceSel (new : List α) : EditControl α where
  before := c.before ++ new
  after := c.after

/-- What one key event does: a backspace deletes the selection or else the unit before it, and what is
    inserted replaces the selection. -/
def land (typed : Nat → List α) (c : EditControl α) : Input α → EditControl α
  | .unicode unit false => c.replaceSel [unit]
  | .key vk false =>
    if vk = VK_BACK then
      if c.selected.isEmpty then { c with before := c.before.dropLast } else { c with selected := [] }
    else if (typed vk).isEmpty then c
    else c.replaceSel (typed vk)
  | .unicode _ true | .key _ true => c

def landAll (typed : Nat → List α) (events : List (Input α)) : EditControl α :=
  events.foldl (land typed) c

end EditControl

/-- How a call of `SendMessageTimeoutW` goes. -/
inductive Delivery where
  | answered
  | lost
  | late
  deriving DecidableEq

namespace Delivery

/-- The call succeeds. -/
def ok (d : Delivery) : Bool := d == .answered

/-- The control gets the message. -/
def arrives (d : Delivery) : Bool := d != .lost

variable {d : Delivery}

/-- What was answered has arrived. -/
lemma arrives_of_ok (h : d.ok = true) : d.arrives = true := by
  cases d with
  | answered => rfl
  | lost | late => cases h

/-- What was lost was not answered. -/
lemma not_ok_of_lost (h : ¬d.arrives = true) : d.ok = false := by
  cases d with
  | lost => rfl
  | answered | late => exact absurd rfl h

/-- What has arrived in time was answered. -/
lemma ok_of_arrives (h : d.arrives = true) (hlate : d ≠ .late) : d.ok = true := by
  cases d with
  | answered => rfl
  | lost => cases h
  | late => exact absurd rfl hlate

end Delivery

/-- The messages of a replacement. -/
inductive EditMessage where
  | getSel
  | redrawOff
  | setSel
  | replaceSel
  | redrawOn
  deriving DecidableEq

/-- The window of the control. -/
structure EditWindow (α : Type*) where
  control : EditControl α
  redraw : Bool := true

/-- What one call of `Replace` meets: whether the class of the window it resolves is compatible, and how
    the messages go. -/
structure EditTry where
  resolvedClass : Option Bool := some true
  sent : EditMessage → Delivery := fun _ => .answered

namespace EditWindow

section Messages

variable (sent : EditMessage → Delivery) (w : EditWindow α)

/-- A message that changes the control. -/
def edit (message : EditMessage) (change : EditControl α → EditControl α) : EditWindow α :=
  if (sent message).arrives then { w with control := change w.control } else w

/-- `WM_SETREDRAW` -/
def setRedraw (message : EditMessage) (on : Bool) : EditWindow α :=
  if (sent message).arrives then { w with redraw := on } else w

/-- Redrawing again, after it was suppressed for sure. -/
def redrawAgain : EditWindow α := if (sent .redrawOff).ok then w.setRedraw sent .redrawOn true else w

/-- C++ `RichEditEmReplaceSelInjector::Replace` by messages -/
def replaceEdit (backspaceCount : Nat) (text : List α) : EditWindow α × Bool :=
  if backspaceCount = 0 then (w.edit sent .replaceSel (·.replaceSel text), (sent .replaceSel).ok)
  else if !(sent .getSel).ok then (w, false)
  else
    let selectionEnd := w.control.selectionEnd
    if selectionEnd < backspaceCount % 2 ^ 32 then (w, false)
    else
      let newSelectionStart := selectionEnd - backspaceCount % 2 ^ 32
      let suppressed := w.setRedraw sent .redrawOff false
      let selecting := suppressed.edit sent .setSel (·.setSel newSelectionStart selectionEnd)
      if !(sent .setSel).ok then (selecting.redrawAgain sent, false)
      else
        let replaced := selecting.edit sent .replaceSel (·.replaceSel text)
        (replaced.redrawAgain sent, (sent .replaceSel).ok)

end Messages

section Channel

variable [WideUnit α] (typed : Nat → List α)

/-- `Win32SendInputInjector(false)` -/
def type (w : EditWindow α) (backspaceCount : Nat) (text : List α) : EditWindow α × Bool :=
  let sent := SendInputInjector.plain.Replace backspaceCount text
  ({ w with control := w.control.landAll typed sent.1 }, sent.2)

/-- C++ `RichEditEmReplaceSelInjector::Replace` -/
def Replace (forced : Bool) (w : EditWindow α) (t : EditTry) (backspaceCount : Nat) (text : List α) :
    EditWindow α × Bool :=
  if backspaceCount = 0 ∧ text = [] then (w, true)
  else
    match t.resolvedClass with
    | none => w.type typed backspaceCount text
    | some compatible =>
      if forced ∨ compatible then w.replaceEdit t.sent backspaceCount text
      else w.type typed backspaceCount text

/-- The retry loop of the synchronous channel. -/
def retryReplace (forced : Bool) (backspaceCount : Nat) (text : List α) :
    EditWindow α → List EditTry → EditWindow α × Bool
  | w, [] => (w, false)
  | w, t :: ts =>
    let result := w.Replace typed forced t backspaceCount text
    if result.2 then result else retryReplace forced backspaceCount text result.1 ts

/-- The synchronous channel of C++ `ReplaceUnicode`: a try at once and one after each of 30 ms, and then
    the fallback -/
def replaceSync (forced isEditCompatible : Bool) (tries : Nat → EditTry) (w : EditWindow α)
    (backspaceCount : Nat) (text : List α) : EditWindow α :=
  let result :=
    if isEditCompatible then retryReplace typed forced backspaceCount text w ((List.range 31).map tries)
    else (w, false)
  if result.2 then result.1 else (result.1.type typed backspaceCount text).1

end Channel

end EditWindow

namespace EditControl

/-- The last units before the caret are selected. -/
def marked (before after : List α) (n : Nat) : EditControl α where
  before := before.rdrop n
  selected := before.rtake n
  after := after

/-- The control when a replacement has happened. -/
def edited (c : EditControl α) (backspaceCount : Nat) (text : List α) : EditControl α where
  before :=
    (if backspaceCount = 0 then c.before else (c.before ++ c.selected).rdrop backspaceCount) ++ text
  after := c.after

/-- The text and the end of the selection are the same. -/
def SameText (c c' : EditControl α) : Prop :=
  c'.before ++ c'.selected = c.before ++ c.selected ∧ c'.after = c.after

section Control

variable {c : EditControl α} {before after text : List α} {n k : Nat} {typed : Nat → List α}

/-- A text cut near its end. -/
lemma rdrop_append_rtake : before.rdrop n ++ before.rtake n = before := List.take_append_drop ..

/-- Nothing is marked. -/
lemma marked_zero : marked before after 0 = { before, after } := by
  simp [marked, List.rdrop_zero, List.rtake_zero]

/-- A selection does not change the text. -/
lemma sameText_marked : SameText c (marked (c.before ++ c.selected) c.after n) :=
  ⟨rdrop_append_rtake, rfl⟩

/-- A selection ends at the caret. -/
lemma selectionEnd_marked : (marked before after n).selectionEnd = before.length := by
  rw [← congrArg List.length (@rdrop_append_rtake _ before n), List.length_append]
  rfl

/-- Selecting the units in front of the end of the selection. -/
lemma setSel_marked :
    c.setSel (c.selectionEnd - n) c.selectionEnd = marked (c.before ++ c.selected) c.after n := by
  have hend : c.selectionEnd = (c.before ++ c.selected).length := List.length_append.symm
  rw [hend]
  ext1
  · exact List.take_append_of_le_length (Nat.sub_le _ _)
  · show ((c.before ++ c.selected ++ c.after).take _).drop _ = _
    rw [List.take_left]
    rfl
  · exact List.drop_left

/-- With nothing selected the keys change what stands before the caret. -/
lemma landAll_caret {events : List (Input α)} :
    ({ before, after } : EditControl α).landAll typed events =
      { before := NextKey.landAll typed before events, after } := by
  induction events generalizing before with
  | nil => rfl
  | cons event events ih =>
    have hland : ({ before, after } : EditControl α).land typed event =
        { before := event.land typed before, after } := by
      cases event with
      | unicode unit keyup => cases keyup <;> rfl
      | key vk keyup =>
        cases keyup with
        | true => rfl
        | false =>
          simp only [land, Input.land]
          split
          · rfl
          · split
            · next hempty => rw [List.isEmpty_iff.1 hempty, List.append_nil]
            · rfl
    show (({ before, after } : EditControl α).land typed event).landAll typed events = _
    rw [hland, ih]
    rfl

/-- The first backspace deletes the selection, and the others what stands before it. -/
lemma landAll_marked [WideUnit α] (hn : n ≠ 0) (hle : n ≤ before.length)
    (h : SendInputInjector.plain.Fits n text) :
    (marked before after n).landAll typed (SendInputInjector.plain.Replace n text).1 =
      { before := before.rdrop (2 * n - 1) ++ text, after } := by
  obtain ⟨k, rfl⟩ := Nat.exists_eq_succ_of_ne_zero hn
  have hselected : (before.rtake (k + 1)).isEmpty = false := by
    rw [List.isEmpty_eq_false_iff, ← List.length_pos_iff, List.rtake, List.length_drop]
    omega
  have hfirst : (marked before after (k + 1)).land typed (.key VK_BACK false) =
      { before := before.rdrop (k + 1), after } := by
    simp only [land, marked, hselected]
    rfl
  rw [SendInputInjector.plain.Replace_sent h]
  show (((marked before after (k + 1)).land typed (.key VK_BACK false)).landAll typed
    ((List.replicate k (press (.key VK_BACK))).flatten ++ (textGroups text).flatten)) = _
  rw [hfirst, landAll_caret, landAll_append, landAll_backs, landAll_text, List.rdrop_add]
  congr 3
  omega

end Control

end EditControl

namespace EditWindow

open EditControl

section Whole

variable {sent : EditMessage → Delivery} {w : EditWindow α} {backspaceCount : Nat} {text : List α}

/-- Redrawing does not touch the control. -/
@[simp] lemma control_setRedraw {message : EditMessage} {on : Bool} :
    (w.setRedraw sent message on).control = w.control := by
  unfold setRedraw
  split <;> rfl

/-- Nor does the redrawing at the end. -/
@[simp] lemma control_redrawAgain : (w.redrawAgain sent).control = w.control := by
  unfold redrawAgain
  split
  · exact control_setRedraw
  · rfl

/-- A message changes the control when it arrives. -/
lemma control_edit {message : EditMessage} {change : EditControl α → EditControl α} :
    (w.edit sent message change).control =
      if (sent message).arrives then change w.control else w.control := by
  unfold edit
  split <;> rfl

/-- An edit does not touch the redrawing. -/
@[simp] lemma redraw_edit {message : EditMessage} {change : EditControl α → EditControl α} :
    (w.edit sent message change).redraw = w.redraw := by
  unfold edit
  split <;> rfl

/-- The units get selected. -/
def Selects (sent : EditMessage → Delivery) (backspaceCount : Nat) : Prop :=
  backspaceCount ≠ 0 ∧ (sent .getSel).ok ∧ (sent .setSel).arrives

/-- All messages are answered. -/
def Replaces (sent : EditMessage → Delivery) (backspaceCount : Nat) : Prop :=
  (backspaceCount = 0 ∨ (sent .getSel).ok ∧ (sent .setSel).ok) ∧ (sent .replaceSel).ok

instance : Decidable (Selects sent backspaceCount) := inferInstanceAs (Decidable (_ ∧ _ ∧ _))

instance : Decidable (Replaces sent backspaceCount) := inferInstanceAs (Decidable ((_ ∨ _ ∧ _) ∧ _))

/-- The control after the replacement by messages: as it was, or with the units selected, or edited. -/
lemma replaceEdit_control (hcount : backspaceCount < 2 ^ 32) :
    let r := w.replaceEdit sent backspaceCount text
    (r.1.control = w.control ∧ r.2 = false ∧ (backspaceCount ≤ w.control.selectionEnd →
        ¬Selects sent backspaceCount ∧ ¬Replaces sent backspaceCount)) ∨
      (r.1.control = marked (w.control.before ++ w.control.selected) w.control.after backspaceCount ∧
        r.2 = false ∧ Selects sent backspaceCount ∧ ¬Replaces sent backspaceCount) ∨
      (r.1.control = w.control.edited backspaceCount text ∧ (sent .replaceSel).arrives ∧
        r.2 = (sent .replaceSel).ok ∧
          (backspaceCount = 0 ∨ (sent .getSel).ok ∧ (sent .setSel).ok)) := by
  unfold replaceEdit Selects Replaces
  dsimp only
  rw [Nat.mod_eq_of_lt hcount]
  split
  · next hzero =>
    rw [control_edit, edited, if_pos hzero]
    by_cases harrives : (sent .replaceSel).arrives = true
    · rw [if_pos harrives]
      exact .inr (.inr ⟨rfl, harrives, rfl, .inl hzero⟩)
    · rw [if_neg harrives]
      have hlost := Delivery.not_ok_of_lost harrives
      exact .inl ⟨rfl, hlost, fun _ => ⟨fun h => h.1 hzero, fun h => absurd h.2 (by simp [hlost])⟩⟩
  · next hne =>
    cases hgetSel : (sent .getSel).ok with
    | false => exact .inl ⟨rfl, rfl, fun _ => ⟨by simp, by simp [hne]⟩⟩
    | true =>
      rw [if_neg (by simp)]
      split
      · next hlt => exact .inl ⟨rfl, rfl, fun hle => absurd hlt (Nat.not_lt.2 hle)⟩
      · have hselect : ((w.setRedraw sent .redrawOff false).edit sent .setSel
            (·.setSel (w.control.selectionEnd - backspaceCount) w.control.selectionEnd)).control =
              if (sent .setSel).arrives then
                marked (w.control.before ++ w.control.selected) w.control.after backspaceCount
              else w.control := by
          rw [control_edit, control_setRedraw, setSel_marked]
        cases hsetSel : (sent .setSel).ok with
        | false =>
          rw [if_pos (by simp)]
          dsimp only
          rw [control_redrawAgain, hselect]
          split
          · next harrives => exact .inr (.inl ⟨rfl, rfl, ⟨hne, rfl, harrives⟩, by simp [hne]⟩)
          · next hlost => exact .inl ⟨rfl, rfl, fun _ => ⟨fun h => hlost h.2.2, by simp [hne]⟩⟩
        | true =>
          have harrives := Delivery.arrives_of_ok hsetSel
          rw [if_neg (by simp)]
          dsimp only
          rw [control_redrawAgain, control_edit, hselect, if_pos harrives]
          by_cases hreplace : (sent .replaceSel).arrives = true
          · rw [if_pos hreplace, edited, if_neg hne]
            exact .inr (.inr ⟨rfl, hreplace, rfl, .inr ⟨rfl, rfl⟩⟩)
          · rw [if_neg hreplace]
            have hlost := Delivery.not_ok_of_lost hreplace
            exact .inr (.inl ⟨rfl, hlost, ⟨hne, rfl, harrives⟩, by simp [hlost]⟩)

/-- Redrawing is on again, unless the message that suppressed it came late or the one that puts it on
    is lost. -/
lemma redraw_replaceEdit (hredraw : w.redraw = true) (hoff : sent .redrawOff ≠ .late)
    (hon : (sent .redrawOn).arrives = true) :
    (w.replaceEdit sent backspaceCount text).1.redraw = true := by
  have hagain : ∀ {w' : EditWindow α}, w'.redraw = (w.setRedraw sent .redrawOff false).redraw →
      (w'.redrawAgain sent).redraw = true := by
    intro w' hw'
    unfold redrawAgain setRedraw
    rw [hon]
    cases hsent : sent .redrawOff with
    | answered => rfl
    | lost =>
      rw [setRedraw, hsent] at hw'
      exact hw'.trans hredraw
    | late => exact absurd hsent hoff
  unfold replaceEdit
  dsimp only
  split
  · exact redraw_edit.trans hredraw
  · split
    · exact hredraw
    · split
      · exact hredraw
      · split
        · exact hagain redraw_edit
        · exact hagain (redraw_edit.trans redraw_edit)

/-- Through messages a replacement happens whole or not at all, and when it is said to have happened it
has. Redrawing is on again, unless the message that suppressed it came late or the one that puts it on
is lost. -/
theorem replaceEdit_whole (sent : EditMessage → Delivery) (w : EditWindow α) {backspaceCount : Nat}
    (text : List α) (hcount : backspaceCount < 2 ^ 32) :
    let r := w.replaceEdit sent backspaceCount text
    (r.1.control = w.control.edited backspaceCount text ∨ SameText w.control r.1.control) ∧
      (r.2 = true → r.1.control = w.control.edited backspaceCount text) ∧
      (w.redraw = true → sent .redrawOff ≠ .late → (sent .redrawOn).arrives = true →
        r.1.redraw = true) := by
  have hcontrol := @replaceEdit_control α sent w backspaceCount text hcount
  dsimp only at hcontrol ⊢
  refine ⟨?_, fun hok => ?_, redraw_replaceEdit⟩
  · obtain ⟨h, -⟩ | ⟨h, -⟩ | ⟨h, -⟩ := hcontrol
    · exact .inr ⟨by rw [h], by rw [h]⟩
    · exact .inr (h ▸ sameText_marked)
    · exact .inl h
  · obtain ⟨-, h, -⟩ | ⟨-, h, -⟩ | ⟨h, -⟩ := hcontrol
    · exact absurd (h.symm.trans hok) Bool.false_ne_true
    · exact absurd (h.symm.trans hok) Bool.false_ne_true
    · exact h

/-- The messages of a try whose replacement is lost. -/
def losesReplaceSel (message : EditMessage) : Delivery :=
  if message = .replaceSel then .lost else .answered

/-- The message with the text is lost. -/
theorem replaceEdit_whole_lost :
    let w : EditWindow UInt16 := { control := { before := [0x61, 0x62] } }
    let r := w.replaceEdit losesReplaceSel 1 [0xE1]
    r.2 = false ∧ (r.1.control = w.control.edited 1 [0xE1] ∨ SameText w.control r.1.control) :=
  ⟨rfl, (@replaceEdit_whole UInt16 losesReplaceSel { control := { before := [0x61, 0x62] } } 1 [0xE1]
    (by decide)).1⟩

end Whole

section Tries

/-- The try falls back to keys. -/
def Types (forced : Bool) (t : EditTry) : Bool :=
  match t.resolvedClass with
  | none => true
  | some compatible => !(forced || compatible)

/-- Whether the units are selected when it comes to keys: some try has selected them, none has replaced
    them. -/
def overDeletes (forced : Bool) (backspaceCount : Nat) : Bool → List EditTry → Bool
  | selected, [] => selected
  | selected, t :: ts =>
    if Types forced t then selected
    else if Replaces t.sent backspaceCount then false
    else overDeletes forced backspaceCount (selected || Selects t.sent backspaceCount) ts

/-- The units that the keys delete. -/
def deletedByKeys (backspaceCount : Nat) (selected : Bool) : Nat :=
  if selected then 2 * backspaceCount - 1 else backspaceCount

variable [WideUnit α] {typed : Nat → List α} {forced selected : Bool}
  {w : EditWindow α} {t : EditTry} {ts : List EditTry} {backspaceCount : Nat}
  {before after text : List α}

/-- A control whose last units are selected, or none. -/
def Stands (w : EditWindow α) (before after : List α) (backspaceCount : Nat) (selected : Bool) : Prop :=
  w.control = marked before after (if selected then backspaceCount else 0) ∧
    (selected = true → backspaceCount ≠ 0)

omit [WideUnit α] in
/-- Nothing is edited yet. -/
lemma Stands.text_eq (h : w.Stands before after backspaceCount selected) :
    w.control.before ++ w.control.selected = before ∧ w.control.after = after ∧
      w.control.selectionEnd = before.length := by
  rw [h.1, selectionEnd_marked]
  exact ⟨rdrop_append_rtake, rfl, rfl⟩

/-- The keys. -/
lemma type_stands (h : w.Stands before after backspaceCount selected)
    (hle : backspaceCount ≤ before.length) (hshort : backspaceCount + text.length ≤ 126) :
    (w.type typed backspaceCount text).1.control =
        { before := before.rdrop (deletedByKeys backspaceCount selected) ++ text, after } ∧
      (w.type typed backspaceCount text).2 = true := by
  have hfits := OutputDispatcher.fits_of_short SendInputInjector.plain hshort
  refine ⟨?_, congrArg Prod.snd (SendInputInjector.plain.Replace_sent hfits)⟩
  show w.control.landAll typed (SendInputInjector.plain.Replace backspaceCount text).1 = _
  rw [h.1]
  cases hselected : selected with
  | true => exact landAll_marked (h.2 hselected) hle hfits
  | false =>
    simp only [deletedByKeys, Bool.false_eq_true, if_false]
    rw [marked_zero, landAll_caret, SendInputInjector.Replace_of_fits _ typed hfits]

omit [WideUnit α] in
/-- The edit is still the same. -/
lemma Stands.edited_eq (h : w.Stands before after backspaceCount selected) :
    w.control.edited backspaceCount text =
      { before := before.rdrop backspaceCount ++ text, after } := by
  obtain ⟨hbefore, hafter, -⟩ := h.text_eq
  rw [edited, hbefore, hafter]
  split
  · next hzero =>
    have hselected : selected = false := Bool.eq_false_iff.2 fun hselected => h.2 hselected hzero
    rw [h.1, hselected, hzero]
    rfl
  · rfl

/-- One try: it types, or replaces, or leaves the text with the units selected or as they were. -/
lemma Replace_stands (h : w.Stands before after backspaceCount selected)
    (hle : backspaceCount ≤ before.length) (hshort : backspaceCount + text.length ≤ 126)
    (hlate : t.sent .replaceSel ≠ .late) (hsome : ¬(backspaceCount = 0 ∧ text = [])) :
    let r := w.Replace typed forced t backspaceCount text
    if Types forced t then
      r.1.control = { before := before.rdrop (deletedByKeys backspaceCount selected) ++ text, after } ∧
        r.2 = true
    else if Replaces t.sent backspaceCount then
      r.1.control = { before := before.rdrop backspaceCount ++ text, after } ∧ r.2 = true
    else
      r.1.Stands before after backspaceCount (selected || Selects t.sent backspaceCount) ∧
        r.2 = false := by
  obtain ⟨hbefore, hafter, hend⟩ := h.text_eq
  dsimp only
  rw [Replace, if_neg hsome]
  cases hclass : t.resolvedClass with
  | none =>
    have htypes : Types forced t = true := by rw [Types, hclass]
    rw [if_pos htypes]
    exact type_stands h hle hshort
  | some compatible =>
    by_cases hmessages : forced = true ∨ compatible = true
    · have htypes : ¬Types forced t = true := by
        rw [Types, hclass]
        simpa [imp_iff_not_or] using hmessages
      have hcontrol := @replaceEdit_control α t.sent w backspaceCount text (by omega)
      dsimp only at hcontrol ⊢
      rw [hbefore, hafter, hend] at hcontrol
      rw [if_neg htypes, if_pos hmessages]
      obtain ⟨hsame, hfalse, hnot⟩ | ⟨hmarked, hfalse, hselects, hnot⟩ |
        ⟨hedited, harrives, hok, hfirst⟩ := hcontrol
      · obtain ⟨hselects, hreplaces⟩ := hnot hle
        rw [if_neg hreplaces, decide_eq_false hselects, Bool.or_false]
        exact ⟨⟨hsame.trans h.1, h.2⟩, hfalse⟩
      · rw [if_neg hnot, decide_eq_true hselects, Bool.or_true]
        exact ⟨⟨hmarked, fun _ => hselects.1⟩, hfalse⟩
      · have hanswered := Delivery.ok_of_arrives harrives hlate
        rw [if_pos ⟨hfirst, hanswered⟩]
        exact ⟨hedited.trans h.edited_eq, hok.trans hanswered⟩
    · have htypes : Types forced t = true := by
        rw [Types, hclass]
        simpa using hmessages
      dsimp only
      rw [if_pos htypes, if_neg hmessages]
      exact type_stands h hle hshort

/-- The tries, by induction: what a failed try leaves is where the next one starts. -/
lemma retryReplace_stands (h : w.Stands before after backspaceCount selected)
    (hle : backspaceCount ≤ before.length) (hshort : backspaceCount + text.length ≤ 126)
    (hlate : ∀ t ∈ ts, t.sent .replaceSel ≠ .late) (hsome : ¬(backspaceCount = 0 ∧ text = [])) :
    let r := retryReplace typed forced backspaceCount text w ts
    let still := overDeletes forced backspaceCount selected ts
    (r.2 = true → r.1.control =
        { before := before.rdrop (deletedByKeys backspaceCount still) ++ text, after }) ∧
      (r.2 = false → r.1.Stands before after backspaceCount still) := by
  induction ts generalizing w selected with
  | nil => exact ⟨nofun, fun _ => h⟩
  | cons t ts ih =>
    obtain ⟨hlate, hrest⟩ := List.forall_mem_cons.1 hlate
    have htry := @Replace_stands α _ typed forced selected w t backspaceCount before after text h hle
      hshort hlate hsome
    dsimp only at htry
    simp only [retryReplace, overDeletes]
    split at htry
    · next htypes =>
      rw [if_pos htypes]
      simp only [htry.2, if_true]
      exact ⟨fun _ => htry.1, nofun⟩
    · next htypes =>
      rw [if_neg htypes]
      split at htry
      · next hreplaces =>
        rw [if_pos hreplaces]
        simp only [htry.2, if_true]
        exact ⟨fun _ => htry.1, nofun⟩
      · next hreplaces =>
        rw [if_neg hreplaces]
        simp only [htry.2, Bool.false_eq_true, if_false]
        exact ih htry.1 hrest

end Tries

/-- The synchronous channel edits the text once. Only when keys are typed over units that a try has
selected and none has replaced, they delete more: the first backspace deletes the selection, and the
others the units before it. -/
theorem replaceSync_text [WideUnit α] (typed : Nat → List α) (forced isEditCompatible : Bool)
    (tries : Nat → EditTry) (before after text : List α) {backspaceCount : Nat}
    (hle : backspaceCount ≤ before.length) (hshort : backspaceCount + text.length ≤ 126)
    (hlate : ∀ i, (tries i).sent .replaceSel ≠ .late) :
    (replaceSync typed forced isEditCompatible tries { control := { before, after } } backspaceCount
        text).control =
      { before := before.rdrop (deletedByKeys backspaceCount (isEditCompatible &&
          overDeletes forced backspaceCount false ((List.range 31).map tries))) ++ text, after } := by
  have hstart : Stands { control := { before, after } } before after backspaceCount false :=
    ⟨marked_zero.symm, nofun⟩
  unfold replaceSync
  cases isEditCompatible with
  | false => exact (type_stands hstart hle hshort).1
  | true =>
    by_cases hsome : backspaceCount = 0 ∧ text = []
    · -- nothing to do is done at the first try
      obtain ⟨rfl, rfl⟩ := hsome
      have hnothing : ∀ selected, deletedByKeys 0 selected = 0 := by decide
      rw [hnothing, List.rdrop_zero, List.append_nil]
      rfl
    have hlate' : ∀ t ∈ (List.range 31).map tries, t.sent .replaceSel ≠ .late := by
      intro t ht
      obtain ⟨i, -, rfl⟩ := List.mem_map.1 ht
      exact hlate i
    obtain ⟨hdone, hfailed⟩ := @retryReplace_stands α _ typed forced false _ _ backspaceCount before
      after text hstart hle hshort hlate' hsome
    dsimp only
    rw [if_pos rfl, Bool.true_and]
    split
    · next hok => exact hdone hok
    · next hok => exact (type_stands (hfailed (Bool.eq_false_iff.2 hok)) hle hshort).1

/-- Two units are to go and three do. -/
theorem replaceSync_text_lost :
    (@replaceSync UInt16 _ (fun _ => []) false true (fun _ => { sent := losesReplaceSel })
        { control := { before := [0x61, 0x62, 0x63, 0x64] } } 2 [0x78]).control =
      { before := [0x61, 0x78] } :=
  (@replaceSync_text UInt16 _ (fun _ => []) false true (fun _ => { sent := losesReplaceSel })
    [0x61, 0x62, 0x63, 0x64] [] [0x78] 2 (by decide) (by decide) fun _ => by decide).trans rfl

end EditWindow

end NextKey
