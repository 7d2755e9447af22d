import Mathlib.Data.List.DropRight
import NextKey.Lib.Machine
import NextKey.Macro.Case

/-!
# The word on screen in a legacy encoding

Model of `ReplaceComposition` in `app/system/HookEngine.cpp` for every code table. The edit is found on
Unicode characters and made in units: with a legacy table the number of units to erase is summed up
from a vector of widths that is kept beside the previous composition.
-/

namespace NextKey

open CodeTableConverter

/-- The fields of `HookEngine` that `ReplaceComposition` keeps. -/
structure EncodedWord where
  previousComposition : WString := []
  previousEncodedWidths : List Nat := []
  deriving DecidableEq

/-- What is asked of the dispatcher, by `ReplaceRaw`, `ReplaceUnicode` or `SendBackspaces`. -/
structure Edit where
  bsCount : Nat
  text : WString
  reinjectVk : Option Nat
  deriving DecidableEq

/-- The edit made on what stands before the caret. -/
def Edit.apply (edit : Edit) (screen : WString) : WString := screen.rdrop edit.bsCount ++ edit.text

/-- `std::vector::resize`: cut short, or filled up with zeros -/
def resize (size : Nat) (widths : List Nat) : List Nat :=
  widths.take size ++ List.replicate (size - widths.length) 0

/-- The loop over `commonLen` in `ReplaceComposition`. -/
def commonUnits : WString → WString → Nat
  | a :: as, b :: bs => if a = b then commonUnits as bs + 1 else 0
  | [], _ | _, [] => 0

/-- C++ `EncodedChar::count` -/
def unitCount (table : CodeTable) (ch : UInt16) : Nat := (ConvertChar ch table).units.length

/-- The units of a text in a code table. -/
def encodeText (table : CodeTable) (text : WString) : WString :=
  text.flatMap fun ch => (ConvertChar ch table).units

namespace EncodedWord

/-- C++ `ReplaceComposition`: what is sent, and the fields afterwards. -/
def ReplaceComposition (hasTarget : Bool) (table : CodeTable) (word : EncodedWord) (newText : WString)
    (reinjectVk : Option Nat) : Option Edit × EncodedWord :=
  if ¬hasTarget then (none, { word with previousComposition := newText })
  else
    let commonLen := commonUnits word.previousComposition newText
    if table ≠ .Unicode then
      let backspaceCount := (word.previousEncodedWidths.drop commonLen).sum
      let encodedToSend := encodeText table (newText.drop commonLen)
      let newWidths := (newText.drop commonLen).map (unitCount table)
      (if backspaceCount > 0 ∨ encodedToSend ≠ [] then some ⟨backspaceCount, encodedToSend, none⟩
        else none,
        { previousComposition := newText
          previousEncodedWidths := resize commonLen word.previousEncodedWidths ++ newWidths })
    else
      (some ⟨word.previousComposition.length - commonLen, newText.drop commonLen, reinjectVk⟩,
        { word with previousComposition := newText })

end EncodedWord

/-- The common units are in both. -/
lemma commonUnits_le (a b : WString) : commonUnits a b ≤ a.length ∧ commonUnits a b ≤ b.length := by
  induction a generalizing b with
  | nil => exact ⟨Nat.le_refl 0, Nat.zero_le _⟩
  | cons x as ih =>
    cases b with
    | nil => exact ⟨Nat.zero_le _, Nat.le_refl 0⟩
    | cons y bs =>
      unfold commonUnits
      split
      · exact ⟨Nat.succ_le_succ (ih bs).1, Nat.succ_le_succ (ih bs).2⟩
      · exact ⟨Nat.zero_le _, Nat.zero_le _⟩

/-- Up to there the two are equal. -/
lemma take_commonUnits (a b : WString) : a.take (commonUnits a b) = b.take (commonUnits a b) := by
  induction a generalizing b with
  | nil => rfl
  | cons x as ih =>
    cases b with
    | nil => rfl
    | cons y bs =>
      unfold commonUnits
      split
      · next heq => rw [List.take_succ_cons, List.take_succ_cons, heq, ih bs]
      · rfl

/-- Nothing is sent, or an edit. -/
def applyEdit (edit : Option Edit) (screen : WString) : WString :=
  edit.elim screen fun edit => edit.apply screen

/-- An edit that erases nothing and writes nothing need not be sent. -/
lemma applyEdit_ite {p : Prop} [Decidable p] {edit : Edit} {screen : WString}
    (h : ¬p → edit.bsCount = 0 ∧ edit.text = []) :
    applyEdit (if p then some edit else none) screen = edit.apply screen := by
  split
  · rfl
  · next hp =>
    obtain ⟨hbs, htext⟩ := h hp
    rw [Edit.apply, hbs, htext, List.rdrop_zero, List.append_nil]
    rfl

/-- A text is encoded part by part. -/
lemma encodeText_append (table : CodeTable) (a b : WString) :
    encodeText table (a ++ b) = encodeText table a ++ encodeText table b := List.flatMap_append

/-- The length of the code. -/
lemma length_encodeText (table : CodeTable) (text : WString) :
    (encodeText table text).length = (text.map (unitCount table)).sum := List.length_flatMap

/-- In Unicode the code is the text. -/
lemma encodeText_Unicode (text : WString) : encodeText .Unicode text = text := by
  simp [encodeText]

/-- Erasing the units behind the common prefix and writing the rest anew. -/
lemma edit_encodeText (table : CodeTable) (previous newText : WString) :
    (encodeText table previous).rdrop
        (encodeText table (previous.drop (commonUnits previous newText))).length ++
      encodeText table (newText.drop (commonUnits previous newText)) = encodeText table newText := by
  have hsplit : encodeText table previous =
      encodeText table (previous.take (commonUnits previous newText)) ++
        encodeText table (previous.drop (commonUnits previous newText)) := by
    rw [← encodeText_append, List.take_append_drop]
  rw [hsplit, List.rdrop_append_length, take_commonUnits, ← encodeText_append, List.take_append_drop]

/-- The fields describe the word on screen, written in one code table. -/
structure Shows (table : CodeTable) (word : EncodedWord) (screen : WString) : Prop where
  screen : screen = encodeText table word.previousComposition
  widths : table ≠ .Unicode →
    word.previousEncodedWidths = word.previousComposition.map (unitCount table)

/-- The counts of a shorter text. -/
lemma resize_map (f : UInt16 → Nat) (text : WString) {size : Nat} (h : size ≤ text.length) :
    resize size (text.map f) = (text.take size).map f := by
  rw [resize, List.length_map, Nat.sub_eq_zero_of_le h, List.replicate_zero, List.append_nil,
    List.map_take]

/-- One replacement. -/
lemma Shows.replace {table word screen} (h : Shows table word screen) (newText : WString)
    (reinjectVk : Option Nat) :
    Shows table (word.ReplaceComposition true table newText reinjectVk).2
      (applyEdit (word.ReplaceComposition true table newText reinjectVk).1 screen) ∧
      (word.ReplaceComposition true table newText reinjectVk).2.previousComposition = newText := by
  have hle := (commonUnits_le word.previousComposition newText).1
  unfold EncodedWord.ReplaceComposition
  rw [if_neg (by simp)]
  dsimp only
  by_cases htable : table = .Unicode
  · subst htable
    rw [if_neg (by simp)]
    refine ⟨⟨?_, fun hne => absurd rfl hne⟩, rfl⟩
    show screen.rdrop _ ++ _ = _
    have hedit := edit_encodeText .Unicode word.previousComposition newText
    rw [h.screen]
    simp only [encodeText_Unicode, List.length_drop] at hedit ⊢
    exact hedit
  · rw [if_pos htable]
    refine ⟨⟨?_, fun _ => ?_⟩, rfl⟩
    · rw [applyEdit_ite (by simp +contextual), Edit.apply, h.screen, h.widths htable, ← List.map_drop,
        ← length_encodeText]
      exact edit_encodeText table word.previousComposition newText
    · show resize _ _ ++ _ = newText.map (unitCount table)
      rw [h.widths htable, resize_map _ _ hle, take_commonUnits, ← List.map_append,
        List.take_append_drop]

/-- A call of `ReplaceComposition` with a composition, and a key to inject again. -/
def replaceStep (table : CodeTable) (st : EncodedWord × WString) (call : WString × Option Nat) :
    EncodedWord × WString :=
  let (edit, word) := st.1.ReplaceComposition true table call.1 call.2
  (word, applyEdit edit st.2)

/-- Every call shows the text. -/
lemma shows_run (table : CodeTable) (calls : List (WString × Option Nat)) {st : EncodedWord × WString}
    (h : Shows table st.1 st.2) :
    Shows table (Machine.run (replaceStep table) st calls).1
      (Machine.run (replaceStep table) st calls).2 :=
  @Machine.run_invariant _ _ (replaceStep table)
    (fun st : EncodedWord × WString => Shows table st.1 st.2) _ _ h fun h => (h.replace _ _).1

/-- After every call the screen shows the last composition in the code table, and the widths are the
    unit counts of its characters. -/
theorem ReplaceComposition_run (table : CodeTable) (calls : List (WString × Option Nat))
    (composition : WString) (reinjectVk : Option Nat) :
    (Machine.run (replaceStep table) ({}, []) (calls ++ [(composition, reinjectVk)])).2 =
        composition.flatMap (fun ch => (ConvertChar ch table).units) ∧
      (table ≠ .Unicode →
        (Machine.run (replaceStep table) ({}, [])
            (calls ++ [(composition, reinjectVk)])).1.previousEncodedWidths =
          composition.map fun ch => (ConvertChar ch table).units.length) := by
  have hstart : Shows table ({} : EncodedWord) [] := ⟨rfl, fun _ => rfl⟩
  obtain ⟨hshows, hlast⟩ :=
    (@shows_run table calls ({}, []) hstart).replace composition reinjectVk
  rw [Machine.run_append]
  constructor
  · refine hshows.screen.trans ?_
    rw [hlast]
    rfl
  · intro htable
    refine (hshows.widths htable).trans ?_
    rw [hlast]
    rfl

/-- A word in VNI Windows. -/
theorem ReplaceComposition_run_vni :
    (Machine.run (replaceStep .VNIWindows) ({}, [])
        [([0x64, 0x69], none), ([0x111, 0x1ECB], none)]).2 = [0xF1, 0xF2] ∧
      (Machine.run (replaceStep .VNIWindows) ({}, [])
        [([0x64, 0x69], none), ([0x111, 0x1ECB], none)]).1.previousEncodedWidths = [1, 1] := by
  obtain ⟨hscreen, hwidths⟩ :=
    ReplaceComposition_run .VNIWindows [([0x64, 0x69], none)] [0x111, 0x1ECB] none
  exact ⟨hscreen.trans (by decide +kernel), (hwidths (by decide)).trans (by decide +kernel)⟩

end NextKey
