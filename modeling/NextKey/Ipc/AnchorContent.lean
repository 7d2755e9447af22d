import Mathlib.Data.List.DropRight
import Mathlib.Data.List.GetD
import NextKey.Ipc.ContextAnchor
import NextKey.Tsf.EngineController

/-!
# The content of the context anchor

Model of `DeriveAnchorFromPreceding` in `core/ipc/SharedState.h`: the text before the caret, in UTF-16
units, is scanned backward for the word that ends at the caret and classified for
auto-capitalization. `ClassifyCapTrigger` is a template, which the text service uses on characters and
the anchor on units.
-/

namespace NextKey

/-- C++ `ClassifyCapTrigger<uint16_t>` -/
def ClassifyCapTrigger16 (buf : List (BitVec 16)) : CapTrigger :=
  let text := buf.rdropWhile fun c => c == 0x20 || c == 0x09
  let skippedWhitespace := decide (text.length < buf.length)
  match text.getLast? with
  | none => .docStart
  | some c =>
    if c = 0x0A ∨ c = 0x0D then .lineStart
    else if (c = 0x2E ∨ c = 0x3F ∨ c = 0x21) ∧ skippedWhitespace then .sentenceEnd
    else .none

/-- A space, a tab or the end of a line. -/
def isSpaceUnit (c : BitVec 16) : Bool := c == 0x20 || c == 0x09 || c == 0x0A || c == 0x0D

/-- The loop over `wordBegin`, from a position backward. -/
def wordBeginFrom (preceding : List (BitVec 16)) : Nat → Nat
  | 0 => 0
  | n + 1 => if isSpaceUnit (preceding.getD n 0) then n + 1 else wordBeginFrom preceding n

/-- The flags of a trigger. -/
def HookContextAnchor.setTrigger (out : HookContextAnchor) : CapTrigger → HookContextAnchor
  | .docStart => { out with isSentenceStart := 1, isLineStart := 1 }
  | .lineStart => { out with isSentenceStart := 0, isLineStart := 1 }
  | .sentenceEnd => { out with isSentenceStart := 1, isLineStart := 0 }
  | .none => { out with isSentenceStart := 0, isLineStart := 0 }

/-- The word before the caret is copied, or its last sixteen characters. -/
def HookContextAnchor.setSyllable (out : HookContextAnchor) (preceding : List (BitVec 16)) :
    HookContextAnchor :=
  let wordEnd := preceding.length
  let wordBegin := wordBeginFrom preceding wordEnd
  let wordLen := wordEnd - wordBegin
  let (wordBegin, wordLen) := if wordLen > 16 then (wordEnd - 16, 16) else (wordBegin, wordLen)
  { out with
    currentSyllable := .ofFn fun k =>
      if k.val < wordLen then preceding.getD (wordBegin + k.val) 0 else out.currentSyllable.get k
    syllableLen := .ofNat 8 wordLen }

/-- C++ `DeriveAnchorFromPreceding`; without a buffer there is no text -/
def DeriveAnchorFromPreceding (preceding : List (BitVec 16)) (out : HookContextAnchor) :
    HookContextAnchor :=
  let out := { out with
    isSentenceStart := 1
    isLineStart := 1
    isWordStart := 1
    syllableLen := 0
    currentSyllable := .replicate 16 0 }
  match preceding.getLast? with
  | none => out
  | some last =>
    let out := { out with isWordStart := if isSpaceUnit last then 1 else 0 }
    let out := out.setTrigger (ClassifyCapTrigger16 preceding)
    if out.isWordStart ≠ 0 then out else out.setSyllable preceding

/-- The units of a text in the basic plane. -/
def units (text : List Char) : List (BitVec 16) := text.map fun c => .ofNat 16 c.toNat

/-- A character of the basic plane is told by its unit. -/
lemma unit_eq_iff {c d : Char} (hc : c.toNat < 2 ^ 16) (hd : d.toNat < 2 ^ 16) :
    BitVec.ofNat 16 c.toNat = BitVec.ofNat 16 d.toNat ↔ c = d := by
  constructor
  · intro h
    have hnat := congrArg BitVec.toNat h
    rw [BitVec.toNat_ofNat, BitVec.toNat_ofNat, Nat.mod_eq_of_lt hc, Nat.mod_eq_of_lt hd] at hnat
    exact Char.toNat_inj.1 hnat
  · intro h
    rw [h]

/-- Units are equal when their characters are. -/
lemma unit_beq {c d : Char} (hc : c.toNat < 2 ^ 16) (hd : d.toNat < 2 ^ 16) :
    (BitVec.ofNat 16 c.toNat == BitVec.ofNat 16 d.toNat) = (c == d) := by
  rw [Bool.eq_iff_iff, beq_iff_eq, beq_iff_eq, unit_eq_iff hc hd]

/-- Units are dropped at the end as characters are. -/
lemma rdropWhile_units {text : List Char} (h : ∀ c ∈ text, c.toNat < 2 ^ 16) :
    ((units text).rdropWhile fun c => c == 0x20 || c == 0x09) =
      units (text.rdropWhile fun c => c == ' ' || c == '\t') := by
  induction text using List.reverseRecOn with
  | nil => rfl
  | append_singleton text c ih =>
    obtain ⟨htext, hc⟩ := List.forall_mem_append.1 h
    have hlt : c.toNat < 2 ^ 16 := hc c List.mem_cons_self
    have hblank : (BitVec.ofNat 16 c.toNat == 0x20 || BitVec.ofNat 16 c.toNat == 0x09) =
        (c == ' ' || c == '\t') :=
      congrArg₂ _ (@unit_beq c ' ' hlt (by decide)) (@unit_beq c '\t' hlt (by decide))
    have happend : units (text ++ [c]) = units text ++ [BitVec.ofNat 16 c.toNat] := List.map_append
    rw [happend, List.rdropWhile_concat, List.rdropWhile_concat, hblank, ih htext]
    split
    · rfl
    · exact happend.symm

/-- Both instances classify a text alike. -/
lemma ClassifyCapTrigger16_units {text : List Char} (h : ∀ c ∈ text, c.toNat < 2 ^ 16) :
    ClassifyCapTrigger16 (units text) = ClassifyCapTrigger text := by
  have hmem : ∀ c ∈ text.rdropWhile fun c => c == ' ' || c == '\t', c.toNat < 2 ^ 16 :=
    fun c hc => h c ((List.rdropWhile_prefix _ _).subset hc)
  unfold ClassifyCapTrigger16 ClassifyCapTrigger
  rw [rdropWhile_units h]
  generalize (text.rdropWhile fun c => c == ' ' || c == '\t') = rest at hmem
  have hlast : (units rest).getLast? = rest.getLast?.map fun c => BitVec.ofNat 16 c.toNat :=
    List.getLast?_map
  have hlength : ∀ text : List Char, (units text).length = text.length := fun _ => List.length_map _
  dsimp only
  rw [hlast, hlength, hlength]
  cases hc : rest.getLast? with
  | none => rfl
  | some c =>
    have hlt : c.toNat < 2 ^ 16 := hmem c (List.mem_of_getLast? hc)
    have hunit : ∀ d : Char, d.toNat < 2 ^ 16 →
        (BitVec.ofNat 16 c.toNat = BitVec.ofNat 16 d.toNat ↔ c = d) := fun d hd => unit_eq_iff hlt hd
    show (if BitVec.ofNat 16 c.toNat = BitVec.ofNat 16 '\n'.toNat ∨
        BitVec.ofNat 16 c.toNat = BitVec.ofNat 16 '\r'.toNat then CapTrigger.lineStart
      else if (BitVec.ofNat 16 c.toNat = BitVec.ofNat 16 '.'.toNat ∨
          BitVec.ofNat 16 c.toNat = BitVec.ofNat 16 '?'.toNat ∨
          BitVec.ofNat 16 c.toNat = BitVec.ofNat 16 '!'.toNat) ∧
        decide (rest.length < text.length) then .sentenceEnd else .none) = _
    simp only [hunit '\n' (by decide), hunit '\r' (by decide), hunit '.' (by decide),
      hunit '?' (by decide), hunit '!' (by decide)]

/-- The characters behind the last space. -/
def wordBeforeCaret (preceding : List (BitVec 16)) : List (BitVec 16) :=
  preceding.rtakeWhile fun c => !isSpaceUnit c

/-- The backward scan stops where the word begins. -/
lemma wordBeginFrom_eq {preceding : List (BitVec 16)} {n : Nat} (hn : n ≤ preceding.length) :
    wordBeginFrom preceding n = n - (wordBeforeCaret (preceding.take n)).length := by
  induction n with
  | zero => rfl
  | succ n ih =>
    have hlt : n < preceding.length := hn
    have htake : preceding.take (n + 1) = preceding.take n ++ [preceding.getD n 0] := by
      rw [List.take_succ_eq_append_getElem hlt, ← List.getElem_eq_getD 0]
    rw [wordBeginFrom, htake, wordBeforeCaret, List.rtakeWhile_concat]
    cases hspace : isSpaceUnit (preceding.getD n 0) with
    | true => simp
    | false =>
      -- one more character of the word: the induction hypothesis is about a shorter one
      have hle : (wordBeforeCaret (preceding.take n)).length ≤ n :=
        (List.rtakeWhile_suffix _ _).length_le.trans (List.length_take_le _ _)
      rw [if_neg Bool.false_ne_true, ih hlt.le, Bool.not_false, if_pos rfl, List.length_append,
        List.length_singleton]
      show n - _ = n + 1 - ((wordBeforeCaret (preceding.take n)).length + 1)
      omega

/-- The last characters of the word are those of the text. -/
lemma getD_word {preceding : List (BitVec 16)} {n k : Nat}
    (hn : n ≤ (wordBeforeCaret preceding).length) :
    preceding.getD (preceding.length - n + k) 0 = ((wordBeforeCaret preceding).rtake n).getD k 0 := by
  obtain ⟨front, hfront⟩ : wordBeforeCaret preceding <:+ preceding := List.rtakeWhile_suffix _ _
  generalize wordBeforeCaret preceding = word at hn hfront
  subst hfront
  rw [List.rtake, List.length_append, List.getD_eq_getElem?_getD, List.getD_eq_getElem?_getD,
    List.getElem?_drop, List.getElem?_append_right (by omega)]
  congr 2
  omega

/-- What is stored of the word. -/
def storedWord (word : List (BitVec 16)) : Vector (BitVec 16) 16 :=
  .ofFn fun k => (word.rtake 16).getD k.val 0

/-- The length of the last units. -/
lemma length_rtake {word : List (BitVec 16)} {n : Nat} : (word.rtake n).length = min n word.length := by
  rw [List.rtake, List.length_drop]
  omega

/-- What is stored is read back up to its length. -/
lemma syllable_storedWord {word : List (BitVec 16)} :
    (storedWord word).toList.take (min 16 word.length) = word.rtake 16 := by
  refine List.ext_getElem ?_ fun k hk hk' => ?_
  · rw [List.length_take, length_rtake, Vector.length_toList]
    omega
  · rw [List.getElem_take, Vector.getElem_toList]
    exact (Vector.getElem_ofFn _).trans (List.getD_eq_getElem _ _ hk')

/-- No more than all can be taken. -/
lemma rtake_min {word : List (BitVec 16)} {n : Nat} :
    word.rtake (min n word.length) = word.rtake n := by
  rw [List.rtake, List.rtake]
  congr 1
  omega

/-- What the trigger sets. -/
lemma setTrigger_eq {out : HookContextAnchor} {trigger : CapTrigger} : out.setTrigger trigger =
    { out with
      isSentenceStart := if trigger = .docStart ∨ trigger = .sentenceEnd then 1 else 0
      isLineStart := if trigger = .docStart ∨ trigger = .lineStart then 1 else 0 } := by
  cases trigger <;> rfl

/-- What the syllable sets. -/
lemma setSyllable_eq {out : HookContextAnchor} {preceding : List (BitVec 16)}
    (hout : out.currentSyllable = .replicate 16 0) : out.setSyllable preceding =
      { out with
        syllableLen := .ofNat 8 (min 16 (wordBeforeCaret preceding).length)
        currentSyllable := storedWord (wordBeforeCaret preceding) } := by
  have hle : (wordBeforeCaret preceding).length ≤ preceding.length :=
    (List.rtakeWhile_suffix _ _).length_le
  have hbegin := wordBeginFrom_eq (Nat.le_refl preceding.length)
  rw [List.take_length] at hbegin
  -- both branches copy the last `min 16 n` characters
  have hrange : (if preceding.length - wordBeginFrom preceding preceding.length > 16 then
      (preceding.length - 16, 16) else (wordBeginFrom preceding preceding.length,
        preceding.length - wordBeginFrom preceding preceding.length)) =
      (preceding.length - min 16 (wordBeforeCaret preceding).length,
        min 16 (wordBeforeCaret preceding).length) := by
    rw [hbegin]
    split
    · rw [Nat.min_eq_left (by omega)]
    · rw [Nat.min_eq_right (by omega), Nat.sub_sub_self hle]
  have hcopy : (Vector.ofFn fun k : Fin 16 => if k.val < min 16 (wordBeforeCaret preceding).length then
      preceding.getD (preceding.length - min 16 (wordBeforeCaret preceding).length + k.val) 0
        else out.currentSyllable.get k) = storedWord (wordBeforeCaret preceding) := by
    refine congrArg Vector.ofFn (funext fun k => ?_)
    split
    · rw [getD_word (Nat.min_le_right _ _), rtake_min]
    · next hk =>
      rw [hout, List.getD_eq_default]
      · exact Vector.getElem_replicate k.isLt
      · rw [length_rtake]
        omega
  unfold HookContextAnchor.setSyllable
  dsimp only
  rw [hrange]
  dsimp only
  rw [hcopy]

/-- The anchor, field by field. -/
lemma DeriveAnchorFromPreceding_eq (preceding : List (BitVec 16)) (out : HookContextAnchor) :
    DeriveAnchorFromPreceding preceding out =
      { out.setTrigger (ClassifyCapTrigger16 preceding) with
        isWordStart := if wordBeforeCaret preceding = [] then 1 else 0
        syllableLen := .ofNat 8 (min 16 (wordBeforeCaret preceding).length)
        currentSyllable := storedWord (wordBeforeCaret preceding) } := by
  have hnone : storedWord [] = .replicate 16 0 := by decide
  unfold DeriveAnchorFromPreceding
  simp only [setTrigger_eq]
  cases hlast : preceding.getLast? with
  | none =>
    obtain rfl := List.getLast?_eq_none_iff.1 hlast
    have hword : wordBeforeCaret [] = [] := rfl
    rw [hword, hnone]
    rfl
  | some last =>
    obtain ⟨front, hfront⟩ := List.getLast?_eq_some_iff.1 hlast
    have hconcat := @List.rtakeWhile_concat _ (fun c => !isSpaceUnit c) front last
    rw [← hfront] at hconcat
    dsimp only
    cases hspace : isSpaceUnit last with
    | true =>
      have hword : wordBeforeCaret preceding = [] := by
        rw [wordBeforeCaret, hconcat, hspace]
        rfl
      rw [hword, hnone]
      rfl
    | false =>
      have hword : wordBeforeCaret preceding ≠ [] := by
        rw [wordBeforeCaret, hconcat, hspace]
        simp
      rw [if_neg hword, if_neg Bool.false_ne_true, if_neg (not_not.2 rfl), setSyllable_eq rfl]

/-- What a reader takes for the syllable. -/
def HookContextAnchor.syllable (a : HookContextAnchor) : List (BitVec 16) :=
  a.currentSyllable.toList.take a.syllableLen.toNat

/-- The syllable is the end of the word before the caret, all of it or sixteen characters, and the flags
    are those of the trigger. -/
theorem anchor_of_preceding (preceding : List (BitVec 16)) (out : HookContextAnchor) :
    let a := DeriveAnchorFromPreceding preceding out
    let trigger := ClassifyCapTrigger16 preceding
    a.syllable = (wordBeforeCaret preceding).rtake 16 ∧
      a.syllableLen.toNat = min 16 (wordBeforeCaret preceding).length ∧
      (∀ k : Fin 16, (wordBeforeCaret preceding).length ≤ k → a.currentSyllable.get k = 0) ∧
      a.isSentenceStart = (if trigger = .docStart ∨ trigger = .sentenceEnd then 1 else 0) ∧
      a.isLineStart = (if trigger = .docStart ∨ trigger = .lineStart then 1 else 0) := by
  intro a trigger
  have ha : a = _ := DeriveAnchorFromPreceding_eq preceding out
  have hlen : a.syllableLen.toNat = min 16 (wordBeforeCaret preceding).length := by
    rw [ha, BitVec.toNat_ofNat]
    omega
  have hstored : a.currentSyllable = storedWord (wordBeforeCaret preceding) := by rw [ha]
  refine ⟨?_, hlen, fun k hk => ?_, ?_, ?_⟩
  · rw [HookContextAnchor.syllable, hlen, hstored, syllable_storedWord]
  · show a.currentSyllable[k.val] = 0
    rw [hstored]
    simp [storedWord, length_rtake, hk]
  · rw [ha, setTrigger_eq]
  · rw [ha, setTrigger_eq]

end NextKey
