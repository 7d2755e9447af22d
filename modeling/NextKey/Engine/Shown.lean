import NextKey.Engine.Effects

/-!
# States that show

The bases of a typed word are ASCII characters, and a state with such a base shows as one character: its
letter with the marks, or an unmarked key as itself. So the text of a buffer is as long as the buffer.
The edits of the handlers keep the bases.
-/

namespace NextKey

/-- An ASCII character other than NUL. -/
def AsciiKey (c : Char) : Prop := 0 < c.toNat ∧ c.toNat < 128

instance (c : Char) : Decidable (AsciiKey c) := inferInstanceAs (Decidable (_ ∧ _))

/-- What holds of the characters below 128 holds of an ASCII key. -/
lemma AsciiKey.forall {P : Char → Prop} (h : ∀ n : Fin 128, AsciiKey (Char.ofNat n) → P (Char.ofNat n))
    {c : Char} (hc : AsciiKey c) : P c := by
  have hof : Char.ofNat c.toNat = c := Char.ofNat_toNat c
  have hP := h ⟨c.toNat, hc.2⟩
  rw [hof] at hP
  exact hP hc

/-- The lower case of an ASCII key is one. -/
lemma AsciiKey.toLower {c : Char} (hc : AsciiKey c) : AsciiKey c.toLower :=
  AsciiKey.forall (P := fun c => AsciiKey c.toLower) (by decide +kernel) hc

/-- The upper case of an ASCII key is one. -/
lemma AsciiKey.toUpper {c : Char} (hc : AsciiKey c) : AsciiKey c.toUpper :=
  AsciiKey.forall (P := fun c => AsciiKey c.toUpper) (by decide +kernel) hc

/-- An ASCII key is no NUL. -/
lemma AsciiKey.ne_nul {c : Char} (hc : AsciiKey c) : c ≠ '\x00' := by
  rintro rfl
  exact absurd hc.1 (Nat.lt_irrefl 0)

/-- The letters `toUpperVietnamese` has a case for, and the ASCII ones. -/
def Shown (c : Char) : Prop :=
  AsciiKey c ∨ 0xE0 ≤ c.toNat ∧ c.toNat ≤ 0xF6 ∨ 0xF8 ≤ c.toNat ∧ c.toNat ≤ 0xFE ∨ c = 'ă' ∨ c = 'đ' ∨
    c = 'ĩ' ∨ c = 'ũ' ∨ c = 'ơ' ∨ c = 'ư' ∨ 0x1EA0 ≤ c.toNat ∧ c.toNat ≤ 0x1EF9

instance (c : Char) : Decidable (Shown c) := inferInstanceAs (Decidable (_ ∨ _))

/-- What is shown is no NUL. -/
lemma Shown.ne_nul {c : Char} (hc : Shown c) : c ≠ '\x00' := by
  rintro rfl
  revert hc
  decide

/-- A positive code below the surrogates is no NUL. -/
lemma ofNat_ne_nul {n : Nat} (hpos : 0 < n) (hlt : n < 0xD800) : Char.ofNat n ≠ '\x00' := by
  intro h
  have hn : (Char.ofNat n).toNat = n := by
    rw [Char.ofNat, dif_pos (.inl hlt)]
    rfl
  rw [h] at hn
  exact absurd hn (by show 0 ≠ n; omega)

/-- Either way no NUL. -/
lemma ite_ne_nul {p : Prop} [Decidable p] {a b : Char} (ha : p → a ≠ '\x00') (hb : ¬p → b ≠ '\x00') :
    (if p then a else b) ≠ '\x00' := by
  split
  · next h => exact ha h
  · next h => exact hb h

/-- The untoned and toned vowels are shown. -/
lemma shown_vowels : (kToneBase ++ kTonedVowel.flatten).all (fun c => decide (Shown c)) = true := by
  decide +kernel

/-- An entry of a list, or the default. -/
lemma getD_mem_or {α : Type*} (l : List α) (i : Nat) (d : α) : l.getD i d ∈ l ∨ l.getD i d = d := by
  rw [List.getD_eq_getElem?_getD]
  cases h : l[i]? with
  | none => exact .inr rfl
  | some a => exact .inl (List.mem_of_getElem? h)

/-- A vowel that takes a tone is shown. -/
lemma shown_toned {c : Char} (hc : Shown c) (ti si : Nat) :
    Shown ((kTonedVowel.getD ti []).getD si c) := by
  rcases getD_mem_or (kTonedVowel.getD ti []) si c with h | h
  · have hmem : (kTonedVowel.getD ti []).getD si c ∈ kToneBase ++ kTonedVowel.flatten := by
      rcases getD_mem_or kTonedVowel ti [] with hrow | hrow
      · exact List.mem_append_right _ (List.mem_flatten_of_mem hrow h)
      · rw [hrow] at h
        cases h
    exact of_decide_eq_true (List.all_eq_true.mp shown_vowels _ hmem)
  · rw [h]
    exact hc

/-- A vowel with a modifier is shown. -/
lemma shown_modified {base : Char} (mod : Modifier) (hbase : AsciiKey base) :
    Shown ((modifiedVowel base mod).getD base) := by
  unfold modifiedVowel
  split
  · decide
  · decide
  · decide
  · decide
  · decide
  · decide
  · exact .inl hbase

/-- Without a mark there is no modified vowel. -/
lemma modifiedVowel_none (base : Char) : modifiedVowel base .none = none := by
  unfold modifiedVowel
  split <;> first | rfl | contradiction

section Locale
variable [WideLocale]

/-- `towlower` keeps ASCII keys. -/
lemma AsciiKey.towlower {c : Char} (hc : AsciiKey c) : AsciiKey (towlower c) := by
  rw [WideLocale.towlower_ascii c hc.2]
  exact hc.toLower

/-- `towupper` keeps ASCII keys. -/
lemma AsciiKey.towupper {c : Char} (hc : AsciiKey c) : AsciiKey (towupper c) := by
  rw [WideLocale.towupper_ascii c hc.2]
  exact hc.toUpper

/-- An ASCII character becomes an ASCII character in upper case. -/
lemma toUpperVietnamese_ascii {c : Char} (hc : AsciiKey c) : toUpperVietnamese c = c.toUpper := by
  have hlt := hc.2
  have hne (d : Char) (hd : 128 ≤ d.toNat) : c ≠ d := by
    rintro rfl
    omega
  unfold toUpperVietnamese
  rw [if_neg (by omega), if_neg (by omega), if_neg (hne _ (by decide)), if_neg (hne _ (by decide)),
    if_neg (hne _ (by decide)), if_neg (hne _ (by decide)), if_neg (hne _ (by decide)),
    if_neg (hne _ (by decide)), if_neg (by omega)]
  exact WideLocale.towupper_ascii c hlt

/-- The upper case of what is shown is no NUL. -/
lemma Shown.toUpperVietnamese_ne_nul {c : Char} (hc : Shown c) : toUpperVietnamese c ≠ '\x00' := by
  by_cases hascii : AsciiKey c
  · rw [toUpperVietnamese_ascii hascii]
    exact hascii.toUpper.ne_nul
  have hshown := hc.resolve_left hascii
  unfold toUpperVietnamese
  dsimp only
  refine ite_ne_nul (fun h => ?_) fun hlatin => ?_
  · exact ofNat_ne_nul (by omega) (by omega)
  refine ite_ne_nul (fun h => ?_) fun hlatin' => ?_
  · exact ofNat_ne_nul (by omega) (by omega)
  refine ite_ne_nul (fun _ => by decide) fun hbreve => ?_
  refine ite_ne_nul (fun _ => by decide) fun hstroke => ?_
  refine ite_ne_nul (fun _ => by decide) fun htildeI => ?_
  refine ite_ne_nul (fun _ => by decide) fun htildeU => ?_
  refine ite_ne_nul (fun _ => by decide) fun hhornO => ?_
  refine ite_ne_nul (fun _ => by decide) fun hhornU => ?_
  refine ite_ne_nul (fun h => ?_) fun hext => ?_
  · refine ite_ne_nul (fun _ => ?_) fun _ => hc.ne_nul
    exact ofNat_ne_nul (by omega) (by omega)
  · -- no shown character is left
    tauto

omit [WideLocale] in
/-- The tone step of `compose`. -/
lemma Shown.withTone {c : Char} (h : Shown c) (tone : Tone) :
    Shown (match toneBaseIndex c, toneIndex tone with
      | some ti, some si => (kTonedVowel.getD ti []).getD si c
      | _, _ => c) := by
  split
  · exact shown_toned h _ _
  · exact h

/-- A state with an ASCII base shows as a character. -/
lemma compose_ne_nul {s : CharState} (hs : AsciiKey s.base) : compose s ≠ '\x00' := by
  have hempty : s.isEmpty = false := beq_eq_false_iff_ne.mpr hs.ne_nul
  unfold compose
  rw [hempty, if_neg Bool.false_ne_true]
  split
  · split
    · decide
    · decide
  · have hmodified : Shown (if s.isVowel then
        (modifiedVowel s.base s.mod).getD s.base else s.base) := by
      split
      · exact shown_modified s.mod hs
      · exact .inl hs
    generalize (if s.isVowel then (modifiedVowel s.base s.mod).getD s.base else s.base) = c at hmodified
    dsimp only
    split
    · exact (hmodified.withTone s.tone).toUpperVietnamese_ne_nul
    · exact (hmodified.withTone s.tone).ne_nul

/-- An unmarked ASCII state shows as its base, in its case. -/
lemma compose_plain {s : CharState} (hs : AsciiKey s.base) (hmod : s.mod = .none)
    (htone : s.tone = .none) :
    compose s = if s.isUpper then s.base.toUpper else s.base := by
  have hempty : s.isEmpty = false := beq_eq_false_iff_ne.mpr hs.ne_nul
  have hstroke : ¬(s.isD ∧ s.mod = .stroke) := by
    rw [hmod]
    rintro ⟨-, h⟩
    cases h
  unfold compose
  rw [hempty, if_neg Bool.false_ne_true, if_neg hstroke, hmod, htone, modifiedVowel_none,
    Option.getD_none, ite_self]
  have huntoned : toneIndex .none = none := rfl
  simp [huntoned, toUpperVietnamese_ascii hs]

end Locale

/-- The same base letters. -/
def SameBases (states states' : List CharState) : Prop := states'.map (·.base) = states.map (·.base)

namespace SameBases

variable {s₁ s₂ s₃ states : List CharState} {i : Nat}

/-- Nothing has changed. -/
lemma refl : SameBases states states := rfl

/-- One after the other. -/
lemma trans (h : SameBases s₁ s₂) (h' : SameBases s₂ s₃) : SameBases s₁ s₃ := Eq.trans h' h

/-- Either way. -/
lemma ite {p : Prop} [Decidable p] (h₁ : SameBases states s₁) (h₂ : SameBases states s₂) :
    SameBases states (if p then s₁ else s₂) := by
  split
  · exact h₁
  · exact h₂

/-- The same bases are equally many. -/
lemma length_eq (h : SameBases s₁ s₂) : s₂.length = s₁.length := by
  simpa using congrArg List.length h

/-- A change of a letter that keeps its base. -/
lemma modify {f : CharState → CharState} (h : ∀ s, (f s).base = s.base) :
    SameBases states (states.modify i f) := List.map_modify_of_forall h

/-- A mark keeps the bases. -/
lemma setMod {mod} : SameBases states (setMod states i mod) := modify fun _ => rfl

/-- Taking off a horn keeps the bases. -/
lemma undoHornU : SameBases states (undoHornU states i) := by
  unfold NextKey.undoHornU
  exact ite setMod refl

/-- Clearing a circumflex keeps the bases. -/
lemma clearCircumflex {idx} : SameBases states (clearCircumflex states idx) := by
  unfold NextKey.clearCircumflex
  split
  · exact ite setMod refl
  · exact refl

/-- Moving the tone with its key keeps the bases. -/
lemma moveTone {src dst} : SameBases states (moveTone states src dst) := by
  unfold NextKey.moveTone
  refine .trans ?_ (modify ?_)
  · exact modify fun _ => rfl
  · exact fun _ => rfl

/-- Moving the tone alone keeps the bases. -/
lemma moveToneOnly {src dst} : SameBases states (moveToneOnly states src dst) := by
  unfold NextKey.moveToneOnly
  refine .trans ?_ (modify ?_)
  · exact modify fun _ => rfl
  · exact fun _ => rfl

/-- The relocation to the horn keeps the bases. -/
lemma relocateToneToHornVowel : SameBases states (relocateToneToHornVowel states) := by
  simp only [NextKey.relocateToneToHornVowel]
  split
  · exact ite moveToneOnly refl
  · exact refl

variable [WideLocale] {cfg : TypingConfig}

/-- The relocation to the target keeps the bases. -/
lemma relocateToneToTarget : SameBases states (relocateToneToTarget cfg states) := by
  unfold NextKey.relocateToneToTarget
  split
  · exact refl
  · split
    · exact refl
    · exact ite refl (ite refl (ite refl moveTone))

/-- The completion of `ươ` at an index keeps the bases. -/
lemma autoUOAt : SameBases states (autoUOAt cfg states i) := by
  simp only [NextKey.autoUOAt]
  have hhorn (p : Prop) [Decidable p] :
      SameBases states (if p then NextKey.setMod states i .horn else states) :=
    ite setMod refl
  exact ite refl (ite ((hhorn _).trans (setMod.trans relocateToneToTarget)) (hhorn _))

/-- The completion of `ươ` keeps the bases. -/
lemma applyAutoUO : SameBases states (applyAutoUO cfg states) := by
  unfold NextKey.applyAutoUO
  generalize (List.range (states.length - 2)).drop (states.length - 4) = positions
  induction positions generalizing states with
  | nil => exact refl
  | cons i positions ih => exact autoUOAt.trans ih

end SameBases

/-- Every base is an ASCII character. -/
def AsciiBases (states : List CharState) : Prop := ∀ s ∈ states, AsciiKey s.base

namespace AsciiBases

variable {states states' : List CharState}

/-- The empty buffer has ASCII bases. -/
lemma nil : AsciiBases [] := fun _ h => absurd h List.not_mem_nil

/-- The same bases are ASCII. -/
lemma same (h : AsciiBases states) (hs : SameBases states states') : AsciiBases states' := by
  intro s hmem
  have hbase : s.base ∈ states.map (·.base) := by
    rw [← hs]
    exact List.mem_map_of_mem hmem
  obtain ⟨t, ht, heq⟩ := List.mem_map.mp hbase
  rw [← heq]
  exact h t ht

/-- A letter with an ASCII base is appended. -/
lemma append (h : AsciiBases states) {s : CharState} (hs : AsciiKey s.base) :
    AsciiBases (states ++ [s]) := by
  intro t hmem
  rcases List.mem_append.mp hmem with hmem | hmem
  · exact h t hmem
  · rw [List.mem_singleton.mp hmem]
    exact hs

/-- A change of a letter that keeps its base. -/
lemma modify (h : AsciiBases states) {i} {f : CharState → CharState}
    (hf : ∀ s, AsciiKey s.base → AsciiKey (f s).base) : AsciiBases (states.modify i f) := by
  intro s hmem
  rcases List.mem_modify hmem with hmem | ⟨t, ht, rfl⟩
  · exact h s hmem
  · exact hf t (h t (List.mem_of_getElem? ht))

/-- Some of the letters. -/
lemma subset (h : AsciiBases states) (hsub : states' ⊆ states) : AsciiBases states' :=
  fun s hmem => h s (hsub hmem)

/-- Each state shows as one character. -/
lemma length_composeAll [WideLocale] (h : AsciiBases states) :
    (composeAll states).length = states.length := by
  have hall : (states.map compose).filter (· ≠ '\x00') = states.map compose := by
    rw [List.filter_eq_self]
    intro c hc
    obtain ⟨s, hs, rfl⟩ := List.mem_map.mp hc
    exact decide_eq_true (compose_ne_nul (h s hs))
  rw [composeAll, hall, List.length_map]

end AsciiBases

end NextKey
