import NextKey.Engine.Shown

/-!
# The automatic `ươ`

What `ApplyAutoUO` and `RelocateToneToTarget` do to a buffer. A round of the first completes a pair
`uo` of which one vowel alone has the horn, and every other round changes nothing; the pairs do not
overlap, so which modifiers a whole scan sets is read off the buffer it starts with. The second moves a
tone with its key or changes nothing.
-/

namespace NextKey

variable {states states' : List CharState} {i j : Nat} {mod : Modifier}

/-- What two buffers have in common is read alike at every index. -/
lemma charAt_congr {β : Type*} {g : CharState → β} (h : states'.map g = states.map g) :
    g (charAt states' i) = g (charAt states i) := by
  have hread : ∀ l : List CharState, g (charAt l i) = (l.map g).getD i (g {}) := by
    intro l
    rw [charAt, List.getD_eq_getElem?_getD, List.getD_eq_getElem?_getD, List.getElem?_map]
    cases l[i]? <;> rfl
  rw [hread, hread, h]

/-- The same bases at an index. -/
lemma SameBases.charAt (h : SameBases states states') :
    (charAt states' i).base = (charAt states i).base := charAt_congr h

/-- An earlier letter of a longer buffer. -/
lemma charAt_append {s : CharState} (hi : i < states.length) :
    charAt (states ++ [s]) i = charAt states i := by
  rw [charAt, charAt, List.getD_eq_getElem?_getD, List.getD_eq_getElem?_getD,
    List.getElem?_append_left hi]

/-- The last letter. -/
lemma charAt_concat {s : CharState} : charAt (states ++ [s]) states.length = s := by
  rw [charAt, List.getD_eq_getElem?_getD, List.getElem?_concat_length]
  rfl

/-- A state with a letter is in the buffer. -/
lemma lt_length_of_base {c : Char} (h : (charAt states i).base = c) (hc : c ≠ '\x00') :
    i < states.length := by
  by_contra hout
  rw [charAt_of_length_le (Nat.le_of_not_lt hout)] at h
  exact hc h.symm

/-- What a state is but for its tone and its keystrokes. -/
def CharState.body (s : CharState) : Char × Modifier × Bool × Bool :=
  (s.base, s.mod, s.isUpper, s.synthetic)

/-- The same states but for their tones and their keystrokes. -/
def SameBodies (states states' : List CharState) : Prop :=
  states'.map CharState.body = states.map CharState.body

namespace SameBodies

variable {s₁ s₂ s₃ : List CharState}

/-- One after the other. -/
lemma trans (h : SameBodies s₁ s₂) (h' : SameBodies s₂ s₃) : SameBodies s₁ s₃ := Eq.trans h' h

/-- A change of a letter that keeps its body. -/
lemma modify {f : CharState → CharState} (h : ∀ s, (f s).body = s.body) :
    SameBodies states (states.modify i f) := List.map_modify_of_forall h

/-- The erasing of a key keeps the bodies. -/
lemma eraseConsumedRaw {st : EngineState} {idx : Nat} :
    SameBodies st.states (st.eraseConsumedRaw idx).states := by
  unfold EngineState.eraseConsumedRaw
  split
  · rfl
  · show (st.states.map (CharState.eraseRaw idx)).map CharState.body = _
    rw [List.map_map]
    rfl

/-- The same bodies are equally many. -/
lemma length_eq (h : SameBodies states states') : states'.length = states.length := by
  simpa using congrArg List.length h

/-- The same bodies have the same bases. -/
lemma bases (h : SameBodies states states') : SameBases states states' := by
  have hbase := congrArg (List.map (·.1)) h
  rw [List.map_map, List.map_map] at hbase
  exact hbase

/-- The same bodies have the same marks. -/
lemma charAt_mod (h : SameBodies states states') :
    (NextKey.charAt states' i).mod = (NextKey.charAt states i).mod :=
  congrArg (·.2.1) (charAt_congr h)

/-- Moving the tone with its key keeps the bodies. -/
lemma moveTone {src dst : Nat} : SameBodies states (moveTone states src dst) :=
  (modify (by intro _; rfl)).trans (modify (by intro _; rfl))

end SameBodies

section Locale
variable [WideLocale] {cfg : TypingConfig}

/-- `RelocateToneToTarget` is about to move a tone. -/
def movesTone (cfg : TypingConfig) (states : List CharState) : Bool :=
  match findTonedVowelIndex states, findToneTarget cfg.modernOrtho states with
  | some src, some dst =>
    decide (dst ≠ src) && !hasConsonantBetween states src dst &&
      !isToneRelocBlockedByP4 states dst cfg.modernOrtho
  | _, _ => false

/-- Where no tone moves, nothing changes. -/
lemma relocateToneToTarget_eq_self (h : movesTone cfg states = false) :
    relocateToneToTarget cfg states = states := by
  unfold movesTone at h
  unfold relocateToneToTarget
  cases hsrc : findTonedVowelIndex states with
  | none => rfl
  | some src =>
    cases hdst : findToneTarget cfg.modernOrtho states with
    | none => rfl
    | some dst =>
      rw [hsrc, hdst] at h
      dsimp only at h ⊢
      split
      · rfl
      · next hne =>
        split
        · rfl
        · next hbetween =>
          split
          · rfl
          · next hblocked =>
            rw [decide_eq_true hne, Bool.eq_false_iff.2 hbetween, Bool.eq_false_iff.2 hblocked] at h
            cases h

/-- A tone that is moved goes from the first toned vowel to the target. -/
lemma relocateToneToTarget_eq_moveTone (h : movesTone cfg states = true) :
    ∃ src dst, findTonedVowelIndex states = some src ∧
      findToneTarget cfg.modernOrtho states = some dst ∧ dst ≠ src ∧
      relocateToneToTarget cfg states = moveTone states src dst := by
  unfold movesTone at h
  unfold relocateToneToTarget
  cases hsrc : findTonedVowelIndex states with
  | none =>
    rw [hsrc] at h
    cases h
  | some src =>
    cases hdst : findToneTarget cfg.modernOrtho states with
    | none =>
      rw [hsrc, hdst] at h
      cases h
    | some dst =>
      rw [hsrc, hdst] at h
      dsimp only at h ⊢
      rw [Bool.and_eq_true, Bool.and_eq_true, decide_eq_true_eq, Bool.not_eq_true',
        Bool.not_eq_true'] at h
      obtain ⟨⟨hne, hbetween⟩, hblocked⟩ := h
      refine ⟨src, dst, rfl, rfl, hne, ?_⟩
      rw [if_neg hne, hbetween, if_neg Bool.false_ne_true, hblocked, if_neg Bool.false_ne_true]

/-- The relocation keeps the bodies. -/
lemma SameBodies.relocateToneToTarget :
    SameBodies states (relocateToneToTarget cfg states) := by
  cases hmoves : movesTone cfg states with
  | false =>
    rw [relocateToneToTarget_eq_self hmoves]
    rfl
  | true =>
    obtain ⟨src, dst, -, -, -, heq⟩ := relocateToneToTarget_eq_moveTone hmoves
    rw [heq]
    exact .moveTone

/-- A pair `uo` outside the onset `qu`, of which one vowel alone has the horn. -/
def HalfHorned (states : List CharState) (i : Nat) : Prop :=
  isQUGlide states i = false ∧ (charAt states i).base = 'u' ∧ (charAt states (i + 1)).base = 'o' ∧
    ((charAt states i).mod = .none ∧ (charAt states (i + 1)).mod = .horn ∨
      (charAt states i).mod = .horn ∧ (charAt states (i + 1)).mod = .none)

instance HalfHorned.decidable : Decidable (HalfHorned states i) :=
  inferInstanceAs (Decidable (_ ∧ _ ∧ _ ∧ _))

omit [WideLocale] in
/-- A half pair stands in the buffer. -/
lemma HalfHorned.lt (h : HalfHorned states i) : i + 1 < states.length :=
  lt_length_of_base h.2.2.1 (by decide)

omit [WideLocale] in
/-- The vowels of two such pairs are not the same. -/
lemma HalfHorned.disjoint (h : HalfHorned states i) (h' : HalfHorned states j) (hne : j ≠ i) :
    j ≠ i + 1 ∧ j + 1 ≠ i := by
  refine ⟨?_, ?_⟩
  · rintro rfl
    exact absurd (h.2.2.1.symm.trans h'.2.1) (by decide)
  · rintro rfl
    exact absurd (h'.2.2.1.symm.trans h.2.1) (by decide)

omit [WideLocale] in
/-- A half-horned pair in front of the last state. -/
lemma HalfHorned.of_append {s : CharState} (h : HalfHorned (states ++ [s]) i)
    (hi : i + 1 < states.length) : HalfHorned states i := by
  obtain ⟨hglide, hu, ho, hmods⟩ := h
  unfold isQUGlide at hglide
  rw [charAt_append (by omega)] at hu
  rw [charAt_append hi] at ho
  rw [charAt_append (by omega), charAt_append hi] at hmods
  rw [charAt_append (by omega), charAt_append (by omega)] at hglide
  exact ⟨hglide, hu, ho, hmods⟩

/-- Where no half pair is, nothing is completed. -/
lemma autoUOAt_eq_self (h : ¬HalfHorned states i) : autoUOAt cfg states i = states := by
  unfold autoUOAt
  split
  · rfl
  · next hglide =>
    have hopen : ¬((charAt states i).base = 'u' ∧ (charAt states i).mod = .none ∧
        (charAt states (i + 1)).base = 'o' ∧ (charAt states (i + 1)).mod = .horn) := by
      rintro ⟨hu, hnone, ho, hhorn⟩
      exact h ⟨Bool.eq_false_iff.2 hglide, hu, ho, .inl ⟨hnone, hhorn⟩⟩
    have hclose : ¬((charAt states i).base = 'u' ∧ (charAt states i).mod = .horn ∧
        (charAt states (i + 1)).base = 'o' ∧ (charAt states (i + 1)).mod = .none) := by
      rintro ⟨hu, hhorn, ho, hnone⟩
      exact h ⟨Bool.eq_false_iff.2 hglide, hu, ho, .inr ⟨hhorn, hnone⟩⟩
    dsimp only
    rw [if_neg hopen, if_neg hclose]

/-- The two ways a round completes a pair. -/
lemma HalfHorned.autoUOAt (h : HalfHorned states i) :
    (charAt states i).mod = .none ∧ autoUOAt cfg states i = setMod states i .horn ∨
      (charAt states (i + 1)).mod = .none ∧
        autoUOAt cfg states i = relocateToneToTarget cfg (setMod states (i + 1) .horn) := by
  have hlt := h.lt
  obtain ⟨hglide, hu, ho, hmods⟩ := h
  unfold NextKey.autoUOAt
  rw [hglide, if_neg Bool.false_ne_true]
  dsimp only
  obtain ⟨hnone, hhorn⟩ | ⟨hhorn, hnone⟩ := hmods
  · refine .inl ⟨hnone, ?_⟩
    have hopen : (charAt states i).base = 'u' ∧ (charAt states i).mod = .none ∧
        (charAt states (i + 1)).base = 'o' ∧ (charAt states (i + 1)).mod = .horn :=
      ⟨hu, hnone, ho, hhorn⟩
    rw [if_pos hopen]
    refine if_neg ?_
    rintro ⟨-, -, -, hopen⟩
    rw [mod_setMod (by omega), if_neg (by omega), hhorn] at hopen
    cases hopen
  · refine .inr ⟨hnone, ?_⟩
    have hopen : ¬((charAt states i).base = 'u' ∧ (charAt states i).mod = .none ∧
        (charAt states (i + 1)).base = 'o' ∧ (charAt states (i + 1)).mod = .horn) := by
      rintro ⟨-, hnone', -⟩
      rw [hhorn] at hnone'
      cases hnone'
    rw [if_neg hopen, if_pos ⟨hu, hhorn, ho, hnone⟩]

/-- The modifiers behind a round. -/
lemma mod_autoUOAt : (charAt (autoUOAt cfg states i) j).mod =
    if HalfHorned states i ∧ (j = i ∨ j = i + 1) then .horn else (charAt states j).mod := by
  by_cases h : HalfHorned states i
  · have hlt := h.lt
    obtain ⟨-, -, -, hmods⟩ := id h
    rcases @HalfHorned.autoUOAt states i _ cfg h with ⟨hnone, heq⟩ | ⟨hnone, heq⟩
    · -- the horn of the `u`
      have hhorn : (charAt states (i + 1)).mod = .horn := by
        rcases hmods with hmods | hmods
        · exact hmods.2
        · rw [hmods.1] at hnone
          cases hnone
      rw [heq, mod_setMod (by omega)]
      grind
    · -- the horn of the `o`
      have hhorn : (charAt states i).mod = .horn := by
        rcases hmods with hmods | hmods
        · rw [hmods.2] at hnone
          cases hnone
        · exact hmods.1
      rw [heq, SameBodies.relocateToneToTarget.charAt_mod, mod_setMod (by omega)]
      grind
  · rw [autoUOAt_eq_self h, if_neg fun hpair => h hpair.1]

/-- A round leaves the pairs to complete as they are, but for its own. -/
lemma halfHorned_autoUOAt :
    HalfHorned (autoUOAt cfg states i) j ↔ HalfHorned states j ∧ j ≠ i := by
  have hbase : ∀ {k}, (charAt (autoUOAt cfg states i) k).base = (charAt states k).base :=
    SameBases.charAt .autoUOAt
  have hglide : isQUGlide (autoUOAt cfg states i) j = isQUGlide states j := by
    unfold isQUGlide
    rw [hbase, hbase]
  by_cases hi : HalfHorned states i
  · by_cases hji : j = i
    · subst hji
      refine iff_of_false ?_ fun h => h.2 rfl
      rintro ⟨-, -, -, hmods⟩
      rw [mod_autoUOAt, mod_autoUOAt, if_pos ⟨hi, .inl rfl⟩, if_pos ⟨hi, .inr rfl⟩] at hmods
      rcases hmods with ⟨hnone, -⟩ | ⟨-, hnone⟩
      · cases hnone
      · cases hnone
    · have hkept : ∀ {k}, k ≠ i → k ≠ i + 1 →
          (charAt (autoUOAt cfg states i) k).mod = (charAt states k).mod := by
        intro k hk hk'
        rw [mod_autoUOAt, if_neg]
        rintro ⟨-, hpair⟩
        exact hpair.elim hk hk'
      unfold HalfHorned
      rw [hglide, hbase, hbase]
      refine ⟨?_, ?_⟩
      · rintro ⟨hg, hu, ho, hmods⟩
        have hne : j ≠ i + 1 := by
          rintro rfl
          exact absurd (hi.2.2.1.symm.trans hu) (by decide)
        have hne' : j + 1 ≠ i := by
          rintro rfl
          exact absurd (ho.symm.trans hi.2.1) (by decide)
        rw [hkept hji hne, hkept hne' (by omega)] at hmods
        exact ⟨⟨hg, hu, ho, hmods⟩, hji⟩
      · rintro ⟨h, -⟩
        obtain ⟨hne, hne'⟩ := hi.disjoint h hji
        obtain ⟨hg, hu, ho, hmods⟩ := h
        rw [hkept hji hne, hkept hne' (by omega)]
        exact ⟨hg, hu, ho, hmods⟩
  · rw [autoUOAt_eq_self hi]
    refine (and_iff_left_of_imp ?_).symm
    rintro h rfl
    exact hi h

/-- The positions `ApplyAutoUO` scans. -/
def autoUOPositions (n : Nat) : List Nat := (List.range (n - 2)).drop (n - 4)

omit [WideLocale] in
/-- Where `ươ` is looked for. -/
lemma mem_autoUOPositions {n : Nat} : i ∈ autoUOPositions n ↔ n - 4 ≤ i ∧ i + 2 < n := by
  unfold autoUOPositions
  rw [List.mem_drop_iff_getElem]
  constructor
  · rintro ⟨k, hk, rfl⟩
    rw [List.length_range] at hk
    rw [List.getElem_range]
    omega
  · rintro ⟨hge, hlt⟩
    refine ⟨i - (n - 4), ?_, ?_⟩
    · rw [List.length_range]
      omega
    · rw [List.getElem_range]
      omega

/-- A round at one of the positions completes the pair of a vowel. -/
def completedAt (states : List CharState) (positions : List Nat) (j : Nat) : Bool :=
  positions.any fun i => decide (HalfHorned states i ∧ (j = i ∨ j = i + 1))

/-- The marks after the completion at some places. -/
lemma mod_foldl_autoUOAt {positions : List Nat} :
    (charAt (positions.foldl (autoUOAt cfg) states) j).mod =
      if completedAt states positions j then .horn else (charAt states j).mod := by
  induction positions generalizing states with
  | nil => rfl
  | cons i positions ih =>
    rw [List.foldl_cons, ih, mod_autoUOAt]
    have hrest : completedAt (autoUOAt cfg states i) positions j = true →
        completedAt states (i :: positions) j = true := by
      intro h
      obtain ⟨k, hk, hpair⟩ := List.any_eq_true.1 h
      rw [decide_eq_true_eq, halfHorned_autoUOAt] at hpair
      exact List.any_eq_true.2 ⟨k, List.mem_cons_of_mem _ hk, decide_eq_true ⟨hpair.1.1, hpair.2⟩⟩
    by_cases hround : HalfHorned states i ∧ (j = i ∨ j = i + 1)
    · have hfirst : completedAt states (i :: positions) j = true :=
        List.any_eq_true.2 ⟨i, List.mem_cons_self, decide_eq_true hround⟩
      rw [if_pos hround, ite_self, if_pos hfirst]
    · rw [if_neg hround]
      by_cases hlater : completedAt (autoUOAt cfg states i) positions j = true
      · rw [if_pos hlater, if_pos (hrest hlater)]
      · rw [if_neg hlater, if_neg]
        intro h
        obtain ⟨k, hk, hpair⟩ := List.any_eq_true.1 h
        rw [decide_eq_true_eq] at hpair
        obtain rfl | hk := List.mem_cons.1 hk
        · exact hround hpair
        · have hne : k ≠ i := by
            rintro rfl
            exact hround hpair
          refine hlater (List.any_eq_true.2 ⟨k, hk, decide_eq_true ⟨?_, hpair.2⟩⟩)
          exact halfHorned_autoUOAt.2 ⟨hpair.1, hne⟩

/-- The modifiers behind a scan. -/
lemma mod_applyAutoUO : (charAt (applyAutoUO cfg states) j).mod =
    if completedAt states (autoUOPositions states.length) j then .horn else (charAt states j).mod :=
  mod_foldl_autoUOAt

/-- A scan that meets no pair to complete changes nothing. -/
lemma applyAutoUO_eq_self (h : ∀ i ∈ autoUOPositions states.length, ¬HalfHorned states i) :
    applyAutoUO cfg states = states := by
  have hscan : ∀ {positions : List Nat}, (∀ i ∈ positions, ¬HalfHorned states i) →
      positions.foldl (autoUOAt cfg) states = states := by
    intro positions hpositions
    induction positions with
    | nil => rfl
    | cons i positions ih =>
      rw [List.foldl_cons, autoUOAt_eq_self (hpositions i List.mem_cons_self)]
      exact ih fun k hk => hpositions k (List.mem_cons_of_mem _ hk)
  exact hscan h

end Locale

end NextKey
