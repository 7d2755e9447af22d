import NextKey.Convert.QuickConvert

/-!
# Sequential conversion cycles through the original

Each press in the same selection shows the next option, applied to the original text, and after the last
option the original itself. The text that a press leaves has the hash that was stored for it, so a
conversion that changes nothing, or two options with one result, do not start the cycle again.
-/

namespace NextKey.QuickConvert

open CodeTableConverter

/-- A text that is selected in a window, and the converter. -/
structure Selected where
  converter : QuickConvert
  text : WText

section Cycle

variable [WideChars] (orders : MapOrders) (hash : WText → BitVec 64)

/-- A press that copies the selected text; what it pastes is selected afterwards. -/
def Selected.press (w : Selected) (p : HotkeyPress) : Selected :=
  let (q, result) := Execute orders hash w.converter { p with copied := w.text }
  ⟨q, result.pasted.getD w.text⟩

/-- The presses one after the other. -/
def Selected.run (w : Selected) (presses : List HotkeyPress) : Selected :=
  presses.foldl (Selected.press orders hash) w

/-- What slot `i` of the cycle shows of a text: the options in their order, then the text itself. -/
def slot (config : ConvertConfig) (text : WText) (i : Nat) : WText :=
  ((GetEnabledOptions config)[i]?).elim text (ApplyConversion orders config text)

end Cycle

/-- A press finds the text selected in a window, where another press found it as far as the control
    tells. -/
structure FindsSelection (first p : HotkeyPress) : Prop where
  window : p.window = first.window
  selected : p.anchor.hasControl = true → p.anchor.valid = true
  start : p.anchor.valid = true → first.anchor.valid = true → p.anchor.start = first.anchor.start

/-- A press comes within the timeout after another. -/
def WithinTimeout (last p : HotkeyPress) : Prop := p.selectionTick - last.now ≤ SEQUENTIAL_TIMEOUT_MS

instance (last p : HotkeyPress) : Decidable (WithinTimeout last p) := inferInstanceAs (Decidable (_ ≤ _))

/-- The position after the last option is `-1`, the original text. -/
def indexOf (n i : Nat) : Int := if i = n then -1 else i

/-- The position advances along the slots. -/
lemma indexOf_advance {n i : Nat} (hi : i < n + 1) (hn : 0 < n) :
    (if indexOf n i + 1 ≥ (n : Int) then -1 else indexOf n i + 1) = indexOf n ((i + 1) % (n + 1)) := by
  unfold indexOf
  by_cases hlast : i = n
  · subst hlast
    rw [Nat.mod_self, if_pos rfl, if_neg (by omega), if_neg (by omega)]
    rfl
  · rw [if_neg hlast, Nat.mod_eq_of_lt (by omega)]
    by_cases hend : i + 1 = n
    · rw [if_pos (by omega), if_pos hend]
    · rw [if_neg (by omega), if_neg hend]
      norm_cast

section Presses

variable [WideChars] {orders : MapOrders} {hash : WText → BitVec 64} {config : ConvertConfig}
  {text : WText} {w : Selected} {first last p : HotkeyPress}

/-- No slot is empty. -/
lemma slot_ne_nil (h : text ≠ []) (i : Nat) : slot orders config text i ≠ [] := by
  unfold slot
  cases (GetEnabledOptions config)[i]? with
  | none => exact h
  | some option => exact ApplyConversion_ne_nil orders config h option

/-- At the position of a slot the cycle shows the slot. -/
lemma shown_indexOf {s : SequentialState} {i : Nat}
    (hindex : s.currentIndex = indexOf (GetEnabledOptions config).length i) :
    (shown orders config s).1 = slot orders config s.originText i := by
  unfold shown slot
  rw [hindex, indexOf]
  by_cases hlast : i = (GetEnabledOptions config).length
  · rw [if_pos hlast, if_pos (by omega), hlast, List.getElem?_eq_none le_rfl]
    rfl
  · rw [if_neg hlast, if_neg (by omega), Int.toNat_natCast]
    cases (GetEnabledOptions config)[i]? <;> rfl

omit [WideChars] in
/-- The end of `Execute` leaves the result as the selected text, and of the state it changes the length of
    the paste alone. -/
lemma deliver_spec (q : QuickConvert) (hpaste : q.config.autoPaste = true) (p : HotkeyPress)
    (text result : WText) (toast : Option String) (recovery : Bool) :
    (deliver q p text result toast recovery).2.pasted.getD text = result ∧
      ∃ length, (deliver q p text result toast recovery).1 =
        { q with seqState.lastPastedLength := length } := by
  unfold deliver
  by_cases hsame : result = text
  · simp only [if_pos hsame]
    refine ⟨?_, q.seqState.lastPastedLength, rfl⟩
    unfold restoreSavedClipboardIfSafe
    split <;> exact hsame.symm
  · simp only [if_neg hsame, if_pos hpaste]
    refine ⟨rfl, ?_⟩
    split
    · exact ⟨_, rfl⟩
    · exact ⟨q.seqState.lastPastedLength, rfl⟩

/-- A press in sequential mode shows what the cycle has come to and stores its hash. -/
lemma Selected.press_spec (orders : MapOrders) (hash : WText → BitVec 64)
    (hseq : w.converter.config.sequential = true)
    (hpaste : w.converter.config.autoPaste = true)
    (henabled : GetEnabledOptions w.converter.config ≠ []) (htext : w.text ≠ [])
    (hselected : p.anchor.hasControl = true → p.anchor.valid = true) :
    let s := advance hash w.converter p w.text false
    let result := (shown orders w.converter.config s).1
    (w.press orders hash p).text = result ∧
      ∃ length, (w.press orders hash p).converter =
        { w.converter with seqState := { s with
            contentHash := hash result
            lastPastedLength := length } } := by
  intro s result
  have hclip : clipText { p with copied := w.text } = w.text := by
    apply if_neg
    simpa using hselected
  have hpress : Execute orders hash w.converter { p with copied := w.text } =
      deliver { w.converter with seqState := { s with contentHash := hash result } }
        { p with copied := w.text } w.text result
        (some (shown orders w.converter.config s).2) false := by
    unfold Execute
    rw [hclip, if_neg (by simpa using htext), convert, if_neg (by simpa using henabled), hseq, hpaste]
    rfl
  unfold Selected.press
  rw [hpress]
  obtain ⟨hresult, length, hstate⟩ := deliver_spec
    { w.converter with seqState := { s with contentHash := hash result } } hpaste
    { p with copied := w.text } w.text result (some (shown orders w.converter.config s).2) false
  exact ⟨hresult, length, hstate⟩

omit [WideChars] in
/-- A new selection starts the cycle at the first option. -/
lemma advance_of_new {q : QuickConvert} (h : IsNewSelection hash q.seqState text p = true) :
    advance hash q p text false =
      { q.seqState with
        originText := text
        anchor := p.anchor
        window := p.window
        currentIndex := 0
        contentHash := hash text
        lastConvertTime := p.now } := by
  simp only [advance, h, Bool.not_false, Bool.true_and, if_true]

omit [WideChars] in
/-- In the same selection the cycle goes on. -/
lemma advance_of_same {q : QuickConvert} (h : IsNewSelection hash q.seqState text p = false) :
    advance hash q p text false =
      { q.seqState with
        currentIndex :=
          if q.seqState.currentIndex + 1 ≥ (GetEnabledOptions q.config).length then -1
          else q.seqState.currentIndex + 1
        lastConvertTime := p.now } := by
  simp only [advance, h, Bool.and_false, Bool.false_eq_true, if_false]

/-- What holds in the cycle after a press that showed slot `i`. -/
structure InCycle (orders : MapOrders) (hash : WText → BitVec 64) (config : ConvertConfig)
    (origin : WText) (first last : HotkeyPress) (i : Nat) (w : Selected) : Prop where
  sameConfig : w.converter.config = config
  originText : w.converter.seqState.originText = origin
  anchor : w.converter.seqState.anchor = first.anchor
  window : w.converter.seqState.window = first.window
  index : w.converter.seqState.currentIndex = indexOf (GetEnabledOptions config).length i
  time : w.converter.seqState.lastConvertTime = last.now
  contentHash : w.converter.seqState.contentHash = hash w.text
  shows : w.text = slot orders config origin i

/-- From the reset state the first press starts a cycle. -/
lemma InCycle.start (orders : MapOrders) (hash : WText → BitVec 64) (hreset : w.converter.seqState = {})
    (hseq : w.converter.config.sequential = true) (hpaste : w.converter.config.autoPaste = true)
    (henabled : GetEnabledOptions w.converter.config ≠ []) (htext : w.text ≠ [])
    (hselected : first.anchor.hasControl = true → first.anchor.valid = true)
    (hwindow : first.window ≠ 0) :
    InCycle orders hash w.converter.config w.text first first 0 (w.press orders hash first) := by
  -- The reset state has no window, so whatever the clock says the selection is new.
  have hnew : IsNewSelection hash w.converter.seqState w.text first = true := by
    have hmoved : first.window ≠ w.converter.seqState.window := by
      rw [hreset]
      exact hwindow
    unfold IsNewSelection
    rw [if_pos hmoved, ite_self]
  have hzero : (0 : Int) = indexOf (GetEnabledOptions w.converter.config).length 0 :=
    (if_neg (List.length_pos_iff.2 henabled).ne).symm
  have hspec := Selected.press_spec orders hash hseq hpaste henabled htext hselected
  rw [advance_of_new hnew] at hspec
  obtain ⟨hshown, length, hstate⟩ := hspec
  have hslot := hshown.trans (shown_indexOf hzero)
  constructor
  case shows => exact hslot
  case contentHash => rw [hstate, hshown]
  all_goals rw [hstate]
  case index => exact hzero

/-- The text that the last press left, in the same place and in time, is no new selection. -/
lemma InCycle.not_new {origin : WText} {i : Nat}
    (h : InCycle orders hash config origin first last i w) (hfinds : FindsSelection first p)
    (htime : WithinTimeout last p) : IsNewSelection hash w.converter.seqState w.text p = false := by
  have hnot : ¬ p.selectionTick - last.now > SEQUENTIAL_TIMEOUT_MS := BitVec.not_lt.2 htime
  have hanchor :
      ¬ (p.anchor.valid && first.anchor.valid && p.anchor.start != first.anchor.start) = true := by
    intro hmoved
    simp only [Bool.and_eq_true, bne_iff_ne] at hmoved
    exact hmoved.2 (hfinds.start hmoved.1.1 hmoved.1.2)
  unfold IsNewSelection
  rw [h.time, if_neg hnot, h.window, if_neg (not_not.2 hfinds.window), h.anchor, if_neg hanchor,
    h.contentHash, if_pos rfl, ite_self]

/-- A press within the timeout goes on to the next slot, whatever the last one made of the text. -/
lemma InCycle.press {origin : WText} {i : Nat} (h : InCycle orders hash config origin first last i w)
    (hi : i < (GetEnabledOptions config).length + 1)
    (hseq : config.sequential = true) (hpaste : config.autoPaste = true)
    (henabled : GetEnabledOptions config ≠ []) (horigin : origin ≠ [])
    (hfinds : FindsSelection first p) (htime : WithinTimeout last p) :
    InCycle orders hash config origin first p ((i + 1) % ((GetEnabledOptions config).length + 1))
      (w.press orders hash p) := by
  have htext : w.text ≠ [] := h.shows ▸ slot_ne_nil horigin i
  obtain ⟨hconfig, horig, hanch, hwin, hindex, -, -, -⟩ := id h
  subst hconfig
  have hspec := Selected.press_spec orders hash hseq hpaste henabled htext hfinds.selected
  rw [advance_of_same (h.not_new hfinds htime), hindex,
    indexOf_advance hi (List.length_pos_iff.2 henabled)] at hspec
  obtain ⟨hshown, length, hstate⟩ := hspec
  have hslot := hshown.trans (shown_indexOf rfl)
  constructor
  case shows => rwa [horig] at hslot
  case contentHash => rw [hstate, hshown]
  all_goals rw [hstate]
  case originText => exact horig
  case anchor => exact hanch
  case window => exact hwin

/-- The presses after the first one, one slot after the other. -/
lemma InCycle.run {origin : WText} (hseq : config.sequential = true) (hpaste : config.autoPaste = true)
    (henabled : GetEnabledOptions config ≠ []) (horigin : origin ≠ []) (rest : List HotkeyPress)
    (hfinds : ∀ p ∈ rest, FindsSelection first p) (htime : (last :: rest).IsChain WithinTimeout) {i : Nat}
    (hi : i < (GetEnabledOptions config).length + 1)
    (h : InCycle orders hash config origin first last i w) :
    (w.run orders hash rest).text =
      slot orders config origin ((i + rest.length) % ((GetEnabledOptions config).length + 1)) := by
  induction rest generalizing last w i with
  | nil =>
    rw [List.length_nil, Nat.add_zero, Nat.mod_eq_of_lt hi]
    exact h.shows
  | cons p rest ih =>
    obtain ⟨hp, hrest⟩ := List.isChain_cons_cons.1 htime
    have hnext := h.press hi hseq hpaste henabled horigin (hfinds p (.head _)) hp
    have hrun := ih (fun r hr => hfinds r (.tail _ hr)) hrest (Nat.mod_lt _ (Nat.succ_pos _)) hnext
    rw [Nat.mod_add_mod] at hrun
    rw [List.length_cons, ← Nat.add_assoc, Nat.add_right_comm]
    exact hrun

end Presses

/-- From the reset state, in sequential mode with some options enabled, presses in one selection and each
    within the timeout after the one before show the slots of the cycle in turn: press `k + 1` shows slot
    `k` modulo their number, applied to the original text. -/
theorem run_cycles [WideChars] (orders : MapOrders) (hash : WText → BitVec 64) (w : Selected)
    (hreset : w.converter.seqState = {}) (hseq : w.converter.config.sequential = true)
    (hpaste : w.converter.config.autoPaste = true)
    (henabled : GetEnabledOptions w.converter.config ≠ []) (htext : w.text ≠ [])
    (first : HotkeyPress) (rest : List HotkeyPress) (hwindow : first.window ≠ 0)
    (hfinds : ∀ p ∈ first :: rest, FindsSelection first p)
    (htime : (first :: rest).IsChain WithinTimeout) :
    (w.run orders hash (first :: rest)).text =
      slot orders w.converter.config w.text
        (rest.length % ((GetEnabledOptions w.converter.config).length + 1)) := by
  have hselected := (hfinds first (.head _)).selected
  have hstart := InCycle.start orders hash hreset hseq hpaste henabled htext hselected hwindow
  have hrun := hstart.run hseq hpaste henabled htext rest (fun p hp => hfinds p (.tail _ hp)) htime
    (Nat.succ_pos _)
  rwa [Nat.zero_add] at hrun

section Ascii

attribute [local instance] WideChars.ascii

/-- The hash of strings in the Microsoft library. -/
def fnv1a (text : WText) : BitVec 64 :=
  text.foldl
    (fun h ch =>
      let low := (h ^^^ BitVec.ofNat 64 (ch.toNat % 0x100)) * 1099511628211
      (low ^^^ BitVec.ofNat 64 (ch.toNat / 0x100)) * 1099511628211)
    14695981039346656037

/-- A press in one edit control at a time. -/
def pressAt (now : BitVec 32) : HotkeyPress where
  window := 0x10A2C
  anchor := { start := 3, stop := 6, valid := true, hasControl := true }
  savedClipboard := []
  copied := []
  touched := false
  cycleTick := now
  now := now
  selectionTick := now + 1

/-- Capitals, and letters without marks. -/
theorem run_cycles_upper_bare :
    (Selected.run .written fnv1a
        ⟨{ config := { allCaps := true, removeMark := true, autoPaste := true, sequential := true } },
          [0x1EA5, 0x6D]⟩
        (pressAt 1000 :: [1500, 2100, 2600].map pressAt)).text = [0x1EA4, 0x4D] :=
  (run_cycles .written fnv1a _ rfl rfl rfl (by decide) (by decide) _ _ (by decide)
    (by
      intro p hp
      obtain ⟨now, -, rfl⟩ := List.mem_map.1 (show p ∈ [1000, 1500, 2100, 2600].map pressAt from hp)
      exact ⟨rfl, fun _ => rfl, fun _ _ => rfl⟩)
    (.cons_cons (by decide) (.cons_cons (by decide) (.cons_cons (by decide) (.singleton _))))).trans
    (by decide +kernel)

end Ascii

end NextKey.QuickConvert
