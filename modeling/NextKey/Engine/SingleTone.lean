import NextKey.Engine.Effects

/-!
# At most one tone

How the number of toned states changes: reworks, literals, erased keystrokes and `Backspace` never
raise it, and a tone key raises it only when `FindToneTarget` returns a vowel other than the one that
carries the tone. `ProcessTone` writes the new tone without clearing the old one, so in that case two
tones stand in the buffer.
-/

namespace NextKey

/-- Number of states with a tone. -/
def toneCount (states : List CharState) : Nat := states.countP (·.hasTone)

/-- At most one state has a tone. -/
def SingleTone (states : List CharState) : Prop := toneCount states ≤ 1

/-- The count is read off the tones alone. -/
lemma toneCount_eq {states} : toneCount states = (states.map (·.tone)).countP (· != .none) := by
  rw [toneCount, List.countP_map]
  rfl

/-- The tones after one letter has changed. -/
lemma toneCount_modify {states i} {f : CharState → CharState} (hi : i < states.length) :
    toneCount (states.modify i f) = (toneCount states - if (charAt states i).hasTone then 1 else 0) +
      if (f (charAt states i)).hasTone then 1 else 0 := by
  have hget : charAt states i = states[i] := by simp [charAt, hi]
  rw [toneCount, List.countP_modify hi, hget]
  rfl

/-- The same stamps have as many tones. -/
lemma SameStamps.toneCount_eq {states states'} (h : SameStamps states states') :
    toneCount states' = toneCount states := by
  have htones : ∀ l : List CharState, l.map (·.tone) = (l.map CharState.stamp).map (·.2.1) := by
    intro l
    rw [List.map_map]
    rfl
  rw [NextKey.toneCount_eq, NextKey.toneCount_eq, htones, htones, h]

/-- Moving a tone overwrites the tone of the destination at worst. -/
lemma toneCount_move_le {states src dst} {f g : CharState → CharState} (hs : src < states.length)
    (hd : dst < states.length) (hne : dst ≠ src) (ht : (charAt states src).hasTone)
    (hg : ∀ s, (g s).hasTone = false) :
    toneCount ((states.modify dst f).modify src g) ≤ toneCount states := by
  have hsrc : states[src].hasTone := by simpa [charAt, hs] using ht
  exact List.countP_move_le hs hd hne (fun _ => hsrc) hg

/-- Reworks do not raise the number of tones. -/
lemma Reworks.toneCount_le {states states'} (h : Reworks states states') :
    toneCount states' ≤ toneCount states := by
  induction h with
  | marks h => exact h.toneCount_eq.le
  | move hs hd hne ht => exact toneCount_move_le hs hd hne ht fun _ => rfl
  | clear hi =>
    rw [clearTone, toneCount_modify hi]
    simp [CharState.hasTone]
  | trans _ _ ih₁ ih₂ => exact ih₂.trans ih₁

/-- Without the last letter there are no more. -/
lemma toneCount_dropLast_le {states} : toneCount states.dropLast ≤ toneCount states :=
  (List.dropLast_sublist states).countP_le

/-- Nor after the preparation of an effect. -/
lemma Prep.toneCount_le {raw states raw' states'} (h : Prep raw states raw' states') :
    toneCount states' ≤ toneCount states := by
  have erase : ∀ {mid k}, toneCount (mid.map (CharState.eraseRaw k)) = toneCount mid := by
    intro mid k
    rw [toneCount, List.countP_map]
    rfl
  cases h with
  | rework h => exact h.toneCount_le
  | drop => exact toneCount_dropLast_le
  | erase h =>
    rw [erase]
    obtain h | rfl := h
    · exact h.toneCount_le
    · exact toneCount_dropLast_le

/-- Moving the tone to the horned vowel does not raise the number of tones. -/
lemma toneCount_relocateToneToHornVowel_le {states} :
    toneCount (relocateToneToHornVowel states) ≤ toneCount states := by
  simp only [relocateToneToHornVowel]
  split
  · next h t hh ht =>
    split
    · next hmove =>
      obtain ⟨hlt, -⟩ := lastIdx?_eq_some hh
      obtain ⟨hlt', hp⟩ := lastIdx?_eq_some ht
      rw [Bool.and_eq_true] at hp
      exact toneCount_move_le hlt' hlt hmove.1 hp.2 fun _ => rfl
    · rfl
  · rfl

/-- No other state has a tone. -/
def NoOtherTone (states : List CharState) (i : Nat) : Prop :=
  ∀ j < states.length, j ≠ i → (charAt states j).hasTone = false

instance {states i} : Decidable (NoOtherTone states i) :=
  inferInstanceAs (Decidable (∀ j < states.length, j ≠ i → (charAt states j).hasTone = false))

/-- A buffer without another tone has at most one once a tone is applied. -/
lemma toneCount_applyTone_le {states i tone idx} (hi : i < states.length)
    (h : NoOtherTone states i) : toneCount (applyTone states i tone idx) ≤ 1 := by
  -- clearing the tone at `i` leaves none
  have hzero : toneCount (clearTone states i) = 0 := by
    refine List.countP_eq_zero.2 fun s hs => ?_
    obtain ⟨j, hj, rfl⟩ := List.getElem_of_mem hs
    have hget : (clearTone states i)[j] = charAt (clearTone states i) j := by simp [charAt, hj]
    have hj' : j < states.length := by simpa [clearTone] using hj
    rw [hget, clearTone, charAt_modify hi]
    split
    · simp [CharState.hasTone]
    · next hne => simp [h j hj' (Ne.symm hne)]
  rw [clearTone, toneCount_modify hi] at hzero
  rw [applyTone, toneCount_modify hi]
  have hone : ∀ b : Bool, (if b then 1 else 0) ≤ 1 := fun b => by cases b <;> decide
  exact Nat.add_le_add (Nat.le_zero.2 (Nat.eq_zero_of_add_eq_zero_right hzero)) (hone _)

section Locale
variable [WideLocale] {cfg : TypingConfig} {st : EngineState}

/-- A key whose tone meets no other one keeps the buffer single-toned. -/
lemma Effect.singleTone {tone? strands raw states raw' states'}
    (h : Effect tone? strands raw states raw' states')
    (ht : ∀ a, tone? = some a → NoOtherTone states a.1) (hs : SingleTone states) :
    SingleTone states' := by
  induction h with
  | consumed h => exact h.toneCount_le.trans hs
  | literal h hfresh =>
    have hle := h.toneCount_le.trans hs
    simp only [SingleTone, toneCount, List.countP_append] at hle ⊢
    simpa [CharState.hasTone, hfresh.1] using hle
  | toned h hi => exact toneCount_applyTone_le hi (ht _ h)
  | stranded _ h =>
    refine toneCount_relocateToneToHornVowel_le.trans ?_
    rw [h.toneCount_eq]
    exact hs
  | rework _ hr ih => exact hr.toneCount_le.trans ih

/-- The tone of the next key goes to the vowel that already has one, if any. -/
def ToneMeetsNoOther (cfg : TypingConfig) (st : EngineState) : EngineEvent → Prop
  | .push c => ∀ a ∈ st.toneOfKey cfg c, NoOtherTone st.states a.1
  | .back => True

instance {event} : Decidable (ToneMeetsNoOther cfg st event) :=
  match event with
  | .push c => inferInstanceAs (Decidable (∀ a ∈ st.toneOfKey cfg c, NoOtherTone st.states a.1))
  | .back => inferInstanceAs (Decidable True)

/-- One event keeps the buffer single-toned. -/
lemma singleTone_step {event} (hq : cfg.QuickOff) (hm : cfg.inputMethod ≠ .userDefined)
    (hp : st.Plain) (hs : SingleTone st.states) (hok : ToneMeetsNoOther cfg st event) :
    (st.step cfg event).Plain ∧ SingleTone (st.step cfg event).states := by
  cases event with
  | push c =>
    refine ⟨hp.pushChar hq hm, ?_⟩
    exact (EngineState.pushChar_effect hq hm hp).effect.singleTone (fun a ha => hok a ha) hs
  | back =>
    refine ⟨hp.backspace, ?_⟩
    by_cases hne : st.states = []
    · simpa [EngineState.step, EngineState.backspace, hne] using hs
    · simp only [EngineState.step, hp.backspace_eq hne]
      exact toneCount_dropLast_le.trans hs

/-- A run of the engine in which no accepted tone meets another one reaches single-toned buffers
    only. -/
theorem singleTone_run {events} (hq : cfg.QuickOff) (hm : cfg.inputMethod ≠ .userDefined)
    (h : Machine.Guarded (EngineState.step cfg) (ToneMeetsNoOther cfg) {} events) :
    SingleTone (EngineState.run cfg {} events).states := by
  have start : EngineState.Plain {} ∧ SingleTone (EngineState.states {}) :=
    ⟨⟨rfl, rfl⟩, Nat.zero_le _⟩
  have preserved : ∀ {st : EngineState} {event}, st.Plain ∧ SingleTone st.states →
      ToneMeetsNoOther cfg st event →
      (st.step cfg event).Plain ∧ SingleTone (st.step cfg event).states :=
    fun hinv hok => singleTone_step hq hm hinv.1 hinv.2 hok
  exact (h.invariant start preserved).2

/-- With the default configuration, a run in which no accepted tone meets another one has at most one
    tone in every state it reaches. -/
theorem default_run_singleTone {events reached} (hreached : reached <+: events)
    (h : Machine.Guarded (EngineState.step {}) (ToneMeetsNoOther {}) {} events) :
    SingleTone (EngineState.run {} {} reached).states := by
  obtain ⟨rest, rfl⟩ := hreached
  exact singleTone_run ⟨rfl, rfl, rfl⟩ (by decide) h.left

end Locale

section Ascii
attribute [local instance] WideLocale.ascii

/-- Typing `vieets` and taking the last letter back meets the condition. -/
theorem default_run_singleTone_viet :
    SingleTone (EngineState.run {} {}
      [.push 'v', .push 'i', .push 'e', .push 'e', .push 't', .push 's', .back]).states :=
  default_run_singleTone (List.prefix_refl _) (by decide +kernel)

/-- Typing `ises` puts a tone on both vowels: `íé`. -/
theorem default_run_two_tones :
    ¬SingleTone (EngineState.run {} {} [.push 'i', .push 's', .push 'e', .push 's']).states := by
  unfold SingleTone
  decide +kernel

end Ascii

end NextKey
