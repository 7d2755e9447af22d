import NextKey.Hook.KeyDown
import NextKey.Tsf.EngineController

/-!
# Auto-capitalization

The state machine of `core/AutoCapStateTransition.h` over keystrokes and the backward scan of the
text in `core/AutoCapDecision.h`: two ways to say whether the next letter starts a sentence. The
keys are those of the US layout, each with the character it types.
-/

namespace NextKey

/-- A space or a tab. -/
def isBlank (c : Char) : Bool := c == ' ' || c == '\t'

/-- Keys of consecutive codes, with Shift or without. -/
def keyRow (first : Nat) (shift : Bool) (typed : List Char) : List (Nat × Bool × Char) :=
  (List.range typed.length).zipWith (fun i c => (first + i, shift, c)) typed

/-- What the keys of the US layout type. -/
def usLayout : List (Nat × Bool × Char) :=
  [(VK_RETURN, false, '\n'), (VK_RETURN, true, '\n'), (VK_SPACE, false, ' '), (VK_SPACE, true, ' '),
    (VK_TAB, false, '\t')] ++
  keyRow 0x41 false ((List.range 26).map fun i => Char.ofNat (0x61 + i)) ++
  keyRow 0x41 true ((List.range 26).map fun i => Char.ofNat (0x41 + i)) ++
  keyRow 0x30 false ['0', '1', '2', '3', '4', '5', '6', '7', '8', '9'] ++
  keyRow 0x30 true [')', '!', '@', '#', '$', '%', '^', '&', '*', '('] ++
  keyRow 0xBA false [';', '=', ',', '-', '.', '/', '\x60'] ++
  keyRow 0xBA true [':', '+', '<', '_', '>', '?', '~'] ++
  keyRow 0xDB false ['[', '\\', ']', '\x27'] ++
  keyRow 0xDB true ['\x7b', '|', '\x7d', '\x22'] ++
  [(0xE2, false, '\\'), (0xE2, true, '|')] ++
  keyRow 0x60 false ['0', '1', '2', '3', '4', '5', '6', '7', '8', '9', '*', '+'] ++
  keyRow 0x6D false ['-', '.', '/'] ++
  [(0x6A, true, '*'), (0x6B, true, '+'), (0x6D, true, '-'), (0x6F, true, '/')]

/-- A key that types a character. -/
structure TypedKey where
  vkCode : Nat
  shift : Bool
  ch : Char
  types : (vkCode, shift, ch) ∈ usLayout

/-- A letter typed in `readyToCapitalize` consumes the state, as `autoCapitalize` has it for the first
letter of a word. -/
def consumeCap : AutoCapState → AutoCapState
  | .readyToCapitalize => .idle
  | .idle => .idle
  | .afterPunct => .afterPunct

/-- A key without Ctrl, Alt and Win: the transition, and the letter behind it. -/
def pressCap (current : AutoCapState) (key : TypedKey) : AutoCapState :=
  let next := ComputeAutoCapStateTransition current key.vkCode key.shift
  if 0x41 ≤ key.vkCode ∧ key.vkCode ≤ 0x5A then consumeCap next else next

/-- The state after some keys. -/
def capState (keys : List TypedKey) : AutoCapState := keys.foldl pressCap .idle

/-- The text they type. -/
def typedText (keys : List TypedKey) : List Char := keys.map TypedKey.ch

/-- The state machine and the text agree on whether the next letter is capitalized. -/
def CapAgrees (keys : List TypedKey) : Prop :=
  capState keys = .readyToCapitalize ↔ ClassifyCapTrigger (typedText keys) ≠ .none

/-- Space or Tab. -/
def TypedKey.blank (key : TypedKey) : Bool := isBlank key.ch

/-- What may follow a key up to the end: behind Enter, the period key, `?` and `!` no Tab; behind the
    period of the number pad nothing; behind `>` nothing, or a Tab among what follows. -/
def mayFollow (key : TypedKey) (blanks : List TypedKey) : Prop :=
  if key.vkCode = VK_RETURN ∨ key.vkCode = VK_OEM_PERIOD ∧ !key.shift ∨
      key.vkCode = VK_OEM_2 ∧ key.shift ∨ key.vkCode = 0x31 ∧ key.shift then
    ∀ b ∈ blanks, b.vkCode ≠ VK_TAB
  else if key.vkCode = 0x6E then blanks = []
  else if key.vkCode = VK_OEM_PERIOD then blanks = [] ∨ ∃ b ∈ blanks, b.vkCode = VK_TAB
  else True

/-- The last key that is not Space or Tab allows what follows it. -/
def EndAllowed (keys : List TypedKey) : Prop :=
  ∀ key ∈ (keys.reverse.dropWhile TypedKey.blank).head?,
    mayFollow key (keys.reverse.takeWhile TypedKey.blank)

/-- What the keys of the layout are, by code and by character. -/
lemma usLayout_facts : ∀ e ∈ usLayout,
    (isBlank e.2.2 = true ↔ e.1 = VK_SPACE ∨ e.1 = VK_TAB) ∧
      (e.2.2 = '\n' ↔ e.1 = VK_RETURN) ∧ e.2.2 ≠ '\r' ∧
      (e.2.2 = '.' ↔ e.1 = VK_OEM_PERIOD ∧ e.2.1 = false ∨ e.1 = 0x6E) ∧
      (e.2.2 = '?' ↔ e.1 = VK_OEM_2 ∧ e.2.1 = true) ∧
      (e.2.2 = '!' ↔ e.1 = 0x31 ∧ e.2.1 = true) := by
  decide +kernel

/-- The blanks are the space and the tab. -/
lemma TypedKey.blank_iff (key : TypedKey) :
    key.blank = true ↔ key.vkCode = VK_SPACE ∨ key.vkCode = VK_TAB :=
  (usLayout_facts _ key.types).1

/-- Behind any key but Space and Tab the state is that key's own. -/
lemma pressCap_solid {key : TypedKey} (h : key.blank = false) (current : AutoCapState) :
    pressCap current key =
      if key.vkCode = VK_OEM_PERIOD ∨ key.vkCode = VK_OEM_2 ∧ key.shift ∨
          key.vkCode = 0x31 ∧ key.shift then .afterPunct
      else if key.vkCode = VK_RETURN then .readyToCapitalize
      else .idle := by
  have hspace : key.vkCode ≠ VK_SPACE := by
    intro hspace
    rw [key.blank_iff.2 (.inl hspace)] at h
    cases h
  unfold pressCap ComputeAutoCapStateTransition
  by_cases hletter : 0x41 ≤ key.vkCode ∧ key.vkCode ≤ 0x5A
  · -- a letter is neither punctuation nor Enter, and consumes the state
    have hpunct : ¬(key.vkCode = VK_OEM_PERIOD ∨ key.vkCode = VK_OEM_2 ∧ key.shift ∨
        key.vkCode = 0x31 ∧ key.shift) := by
      simp only [VK_OEM_PERIOD, VK_OEM_2]
      omega
    have hreturn : key.vkCode ≠ VK_RETURN := by
      simp only [VK_RETURN]
      omega
    rw [if_pos hletter, if_neg hpunct, if_neg hreturn]
    simp only [isLetterVk, hpunct, hspace, hreturn, hletter, decide_true, and_self, true_and, false_and,
      if_false]
    cases current <;> rfl
  · rw [if_neg hletter]
    simp only [isLetterVk, hspace, hletter, decide_false, Bool.false_eq_true, false_and, if_false]

/-- Space and Tab. -/
lemma pressCap_blank {key : TypedKey} (h : key.blank = true) (current : AutoCapState) :
    pressCap current key =
      if key.vkCode = VK_TAB ∨ current = .idle then .idle else .readyToCapitalize := by
  unfold pressCap ComputeAutoCapStateTransition
  obtain hspace | htab := key.blank_iff.1 h
  · cases current <;> simp [hspace, VK_SPACE, VK_TAB, VK_RETURN, VK_OEM_PERIOD, VK_OEM_2]
  · simp [htab, isLetterVk, VK_SPACE, VK_TAB, VK_RETURN, VK_OEM_PERIOD, VK_OEM_2]

/-- A run of Space and Tab ends ready when it started ready, or behind punctuation with at least one
    key, and has no Tab. -/
lemma foldl_blanks {blanks : List TypedKey} (h : ∀ b ∈ blanks, b.blank = true)
    (current : AutoCapState) :
    blanks.foldl pressCap current = .readyToCapitalize ↔
      (current = .readyToCapitalize ∨ current = .afterPunct ∧ blanks ≠ []) ∧
        ∀ b ∈ blanks, b.vkCode ≠ VK_TAB := by
  induction blanks generalizing current with
  | nil => simp
  | cons b blanks ih =>
    rw [List.foldl_cons, ih (fun b hb => h b (.tail _ hb)), pressCap_blank (h b (.head _))]
    by_cases htab : b.vkCode = VK_TAB
    · simp [htab]
    · cases current <;> simp [htab]

/-- What the text says, by the last key that is not Space or Tab. -/
lemma classify_typedText {keys rest : List TypedKey} {key : TypedKey}
    (hdrop : keys.reverse.dropWhile TypedKey.blank = key :: rest) :
    ClassifyCapTrigger (typedText keys) ≠ .none ↔
      key.vkCode = VK_RETURN ∨
        ((key.vkCode = VK_OEM_PERIOD ∧ key.shift = false ∨ key.vkCode = 0x6E) ∨
          key.vkCode = VK_OEM_2 ∧ key.shift = true ∨ key.vkCode = 0x31 ∧ key.shift = true) ∧
        keys.reverse.takeWhile TypedKey.blank ≠ [] := by
  obtain ⟨-, hreturn, hcr, hperiod, hquestion, hbang⟩ := usLayout_facts _ key.types
  have htext : (typedText keys).rdropWhile isBlank = (key.ch :: rest.map TypedKey.ch).reverse := by
    rw [typedText, List.rdropWhile, ← List.map_reverse, List.dropWhile_map]
    exact congrArg (fun text => (List.map TypedKey.ch text).reverse) hdrop
  -- the scan moved when the run ends with Space or Tab
  have hskipped : decide (((key.ch :: rest.map TypedKey.ch).reverse).length < (typedText keys).length)
      = true ↔ keys.reverse.takeWhile TypedKey.blank ≠ [] := by
    have hlength := congrArg List.length
      (List.takeWhile_append_dropWhile (p := TypedKey.blank) (l := keys.reverse))
    rw [hdrop, List.length_append, List.length_reverse] at hlength
    rw [decide_eq_true_eq, typedText, List.length_reverse, List.length_map, ← List.map_cons,
      List.length_map, ← hlength, ← List.length_pos_iff]
    omega
  simp only at hreturn hcr hperiod hquestion hbang
  unfold ClassifyCapTrigger
  rw [show (fun c => c == ' ' || c == '\t') = isBlank from rfl, htext]
  simp only [List.getLast?_reverse, List.head?_cons, ne_eq, hskipped, hreturn, hcr, hperiod, hquestion,
    hbang, or_false]
  split
  · next hkey => simp [hkey]
  · next hkey =>
    split
    · next hend => simpa [hkey] using hend
    · next hend => simpa [hkey] using hend

/-- At the end of a run with an Enter in it, the two agree exactly when the last key that is not Space
    or Tab allows what follows it. -/
theorem capAgrees_iff (keys : List TypedKey) (henter : ∃ key ∈ keys, key.vkCode = VK_RETURN) :
    CapAgrees keys ↔ EndAllowed keys := by
  have hblanks : ∀ b ∈ (keys.reverse.takeWhile TypedKey.blank).reverse, b.blank = true :=
    fun b hb => List.mem_takeWhile_imp (List.mem_reverse.1 hb)
  cases hdrop : keys.reverse.dropWhile TypedKey.blank with
  | nil =>
    -- Enter is not a blank
    obtain ⟨key, hkey, hreturn⟩ := henter
    have hblank := List.dropWhile_eq_nil_iff.1 hdrop key (List.mem_reverse.2 hkey)
    rw [key.blank_iff, hreturn] at hblank
    exact absurd hblank (by decide)
  | cons key rest =>
    have hsolid : key.blank = false := by
      have hhead := List.head_dropWhile_not TypedKey.blank (by rw [hdrop]; exact List.cons_ne_nil _ _)
      simpa only [hdrop, List.head_cons] using hhead
    have hstate : capState keys = (keys.reverse.takeWhile TypedKey.blank).reverse.foldl pressCap
        (pressCap (rest.reverse.foldl pressCap .idle) key) := by
      have hkeys : keys = rest.reverse ++ key :: (keys.reverse.takeWhile TypedKey.blank).reverse := by
        rw [← List.reverse_inj]
        simp only [List.reverse_append, List.reverse_cons, List.reverse_reverse, List.append_assoc,
          List.singleton_append]
        rw [← hdrop, List.takeWhile_append_dropWhile]
      conv_lhs => rw [hkeys, capState, List.foldl_append, List.foldl_cons]
    unfold CapAgrees EndAllowed
    rw [hstate, foldl_blanks hblanks, pressCap_solid hsolid, classify_typedText hdrop, hdrop]
    simp only [List.head?_cons, Option.mem_some_iff, forall_eq', List.mem_reverse, ne_eq,
      List.reverse_eq_nil_iff, mayFollow]
    generalize keys.reverse.takeWhile TypedKey.blank = blanks
    have htab : (∃ b, b ∈ blanks ∧ b.vkCode = VK_TAB) ↔ ¬∀ b, b ∈ blanks → ¬b.vkCode = VK_TAB := by
      simp
    rw [htab]
    have hnil : blanks = [] → ∀ b, b ∈ blanks → ¬b.vkCode = VK_TAB := by
      rintro rfl b hb
      cases hb
    generalize (∀ b, b ∈ blanks → ¬b.vkCode = VK_TAB) = noTab at hnil ⊢
    -- the keys that leave the machine ready or behind punctuation, then those that only the text knows
    by_cases hreturn : key.vkCode = VK_RETURN
    · simp [hreturn, VK_RETURN, VK_OEM_PERIOD, VK_OEM_2]
    · by_cases hperiod : key.vkCode = VK_OEM_PERIOD
      · cases key.shift <;> simp [hperiod, VK_RETURN, VK_OEM_PERIOD, VK_OEM_2] <;> tauto
      · by_cases hpunct : key.vkCode = VK_OEM_2 ∧ key.shift ∨ key.vkCode = 0x31 ∧ key.shift
        · simp [hreturn, hperiod, hpunct]
          tauto
        · by_cases hpad : key.vkCode = 0x6E
          · simp [hpad, VK_RETURN, VK_OEM_PERIOD, VK_OEM_2]
          · simp [hreturn, hperiod, hpunct, hpad]

/-- Enter, `e`, `.`, Space. -/
def sentenceEnd : List TypedKey :=
  [⟨0x0D, false, '\n', by decide⟩, ⟨0x45, false, 'e', by decide⟩, ⟨0xBE, false, '.', by decide⟩,
    ⟨0x20, false, ' ', by decide⟩]

/-- Behind the end of a sentence. -/
theorem capAgrees_sentenceEnd : CapAgrees sentenceEnd := by
  refine (capAgrees_iff sentenceEnd ⟨_, .head _, rfl⟩).2 ?_
  intro key hkey
  obtain rfl := Option.some.inj (show some ⟨0xBE, false, '.', by decide⟩ = some key from hkey)
  rw [mayFollow, if_pos (by decide)]
  intro b hb
  obtain rfl := List.mem_singleton.1 (show b ∈ [⟨0x20, false, ' ', by decide⟩] from hb)
  decide

/-- Enter, `>`, Space: the state machine takes the key for a period. -/
def quoted : List TypedKey :=
  [⟨0x0D, false, '\n', by decide⟩, ⟨0xBE, true, '>', by decide⟩, ⟨0x20, false, ' ', by decide⟩]

/-- It is ready to capitalize, and the text says no. -/
theorem not_capAgrees_quoted :
    ¬∀ keys : List TypedKey, (∃ key ∈ keys, key.vkCode = VK_RETURN) → CapAgrees keys := by
  intro h
  have hready : capState quoted = .readyToCapitalize := by decide
  have htext : ClassifyCapTrigger (typedText quoted) = .none := by decide
  exact (h quoted ⟨_, .head _, rfl⟩).1 hready htext

end NextKey
