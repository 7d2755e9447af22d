import Mathlib.Data.List.Nodup
import NextKey.Engine.Effects

/-!
# Raw indices

The indices the states carry into `rawInput_`. `RawIndices` is what the indices are for: the raw input
is made of keystrokes of the run, the letters are ordered and in range, and the key index of a tone
points to the keystroke that applied it. `RawOk` is the inductive invariant behind it: every raw entry
has at most one owner. It is stated over entries of any type, and the runs carry keystrokes together
with the state they met. Two steps break it. `Backspace` trims the raw input to the removed state, and
with it the key of a tone that was typed later and stays; `RelocateToneToHornVowel` moves a tone and
leaves its key index behind.
-/

namespace NextKey

section Entries
variable {τ : Type} {P : τ → Tone → Prop}

/-- A state has a tone key exactly when it has a tone, and its entry is one that gives that tone. -/
def ToneKeyed (P : τ → Tone → Prop) (raw : List τ) (s : CharState) : Prop :=
  match s.toneRawIdx with
  | none => s.tone = .none
  | some k => s.tone ≠ .none ∧ ∃ entry ∈ raw[k]?, P entry s.tone

/-- Letters are ordered and in range, tones have their keys, and no raw entry has two owners. -/
structure RawOk (P : τ → Tone → Prop) (raw : List τ) (states : List CharState) : Prop where
  sorted : (states.map (·.rawIdx)).Pairwise (· < ·)
  bound : ∀ s ∈ states, s.rawIdx < raw.length
  keyed : ∀ s ∈ states, ToneKeyed P raw s
  nodup : (owners states).Nodup

/-- An empty buffer has no indices. -/
lemma RawOk.nil {raw} : RawOk P raw [] :=
  ⟨.nil, fun _ h => absurd h List.not_mem_nil, fun _ h => absurd h List.not_mem_nil, .nil⟩

/-- The key of a tone stays the same key when the raw input grows or is cut behind it. -/
lemma ToneKeyed.of_getElem? {raw raw' s} (h : ToneKeyed P raw s)
    (hraw : ∀ k, s.toneRawIdx = some k → raw'[k]? = raw[k]?) : ToneKeyed P raw' s := by
  unfold ToneKeyed at h ⊢
  split
  · next hk => rwa [hk] at h
  · next k hk =>
    rw [hk] at h
    rwa [hraw k hk]

/-- A tone key is in range. -/
lemma ToneKeyed.lt {raw s k} (h : ToneKeyed P raw s) (hk : s.toneRawIdx = some k) :
    k < raw.length := by
  simp only [ToneKeyed, hk] at h
  obtain ⟨-, entry, hentry, -⟩ := h
  exact (List.getElem?_eq_some_iff.1 hentry).1

/-- Owned entries are in range. -/
lemma RawOk.owners_lt {raw states k} (h : RawOk P raw states) (hk : k ∈ owners states) :
    k < raw.length := by
  rw [owners, List.mem_append, List.mem_map, List.mem_filterMap] at hk
  obtain ⟨s, hs, rfl⟩ | ⟨s, hs, hk⟩ := hk
  · exact h.bound s hs
  · exact (h.keyed s hs).lt hk

/-- The invariant reads the stamps alone. -/
lemma RawOk.sameStamps {raw states states'} (h : RawOk P raw states)
    (hs : SameStamps states states') : RawOk P raw states' := by
  have raws : ∀ l : List CharState, l.map (·.rawIdx) = (l.map CharState.stamp).map (·.1) := by
    intro l
    rw [List.map_map]
    rfl
  have keys : ∀ l : List CharState,
      l.filterMap (·.toneRawIdx) = (l.map CharState.stamp).filterMap (·.2.2) := by
    intro l
    rw [List.filterMap_map]
    rfl
  have member : ∀ s' ∈ states', ∃ s ∈ states, s.stamp = s'.stamp := by
    intro s' hs'
    have : s'.stamp ∈ states'.map CharState.stamp := List.mem_map_of_mem hs'
    rw [hs] at this
    exact List.mem_map.1 this
  refine ⟨?_, ?_, ?_, ?_⟩
  · rw [raws, hs, ← raws]
    exact h.sorted
  · intro s' hs'
    obtain ⟨s, hmem, he⟩ := member s' hs'
    have hidx : s.rawIdx = s'.rawIdx := congrArg (·.1) he
    exact hidx ▸ h.bound s hmem
  · intro s' hs'
    obtain ⟨s, hmem, he⟩ := member s' hs'
    have htone : s.tone = s'.tone := congrArg (·.2.1) he
    have hkey : s.toneRawIdx = s'.toneRawIdx := congrArg (·.2.2) he
    have := h.keyed s hmem
    rwa [ToneKeyed, htone, hkey] at this
  · rw [owners, raws, keys, hs, ← raws, ← keys]
    exact h.nodup

/-- Multiplicity of an index among the owners. -/
lemma count_owners {states k} :
    (owners states).count k =
      (states.map (·.rawIdx)).count k + states.countP (·.toneRawIdx == some k) := by
  rw [owners, List.count_append, List.count_filterMap]

/-- An invariant buffer whose updates keep the letters and add no owner is still invariant. -/
lemma RawOk.of_update {raw states states'} (h : RawOk P raw states)
    (hraw : states'.map (·.rawIdx) = states.map (·.rawIdx))
    (hkeyed : ∀ s ∈ states', ToneKeyed P raw s)
    (hcount : ∀ k, states'.countP (·.toneRawIdx == some k) ≤
      states.countP (·.toneRawIdx == some k)) : RawOk P raw states' := by
  refine ⟨hraw ▸ h.sorted, ?_, hkeyed, ?_⟩
  · intro s' hs'
    have : s'.rawIdx ∈ states'.map (·.rawIdx) := List.mem_map_of_mem hs'
    rw [hraw] at this
    obtain ⟨s, hs, he⟩ := List.mem_map.1 this
    exact he ▸ h.bound s hs
  · rw [List.nodup_iff_count]
    intro k
    have := List.nodup_iff_count.1 h.nodup k
    rw [count_owners] at this ⊢
    rw [hraw]
    exact (Nat.add_le_add_left (hcount k) _).trans this

/-- Moving a tone with its key keeps the invariant. -/
lemma RawOk.move {raw states src dst} (h : RawOk P raw states) (hs : src < states.length)
    (hd : dst < states.length) (hne : dst ≠ src) : RawOk P raw (moveTone states src dst) := by
  have hget : charAt states src = states[src] := by simp [charAt, hs]
  have hsrc := h.keyed _ (List.getElem_mem hs)
  refine h.of_update ?_ ?_ fun k => ?_
  · exact (List.map_modify_of_forall (by intro _; rfl)).trans
      (List.map_modify_of_forall (by intro _; rfl))
  · intro s hmem
    obtain hmem | ⟨t, -, rfl⟩ := List.mem_modify hmem
    · obtain hmem | ⟨t, -, rfl⟩ := List.mem_modify hmem
      · exact h.keyed s hmem
      · rw [hget]
        exact hsrc
    · rfl
  · rw [moveTone, hget]
    exact List.countP_move_le hs hd hne (fun h => h) fun _ => rfl

/-- Clearing a tone keeps the invariant. -/
lemma RawOk.clear {raw states i} (h : RawOk P raw states) (hi : i < states.length) :
    RawOk P raw (clearTone states i) := by
  refine h.of_update ?_ ?_ fun k => ?_
  · exact List.map_modify_of_forall fun _ => rfl
  · intro s hmem
    obtain hmem | ⟨t, -, rfl⟩ := List.mem_modify hmem
    · exact h.keyed s hmem
    · rfl
  · rw [clearTone, List.countP_modify hi]
    simp

/-- What is reworked keeps its indices. -/
lemma RawOk.reworks {raw states states'} (h : RawOk P raw states) (hr : Reworks states states') :
    RawOk P raw states' := by
  induction hr with
  | marks hs => exact h.sameStamps hs
  | move hs hd hne => exact h.move hs hd hne
  | clear hi => exact h.clear hi
  | trans _ _ ih₁ ih₂ => exact ih₂ (ih₁ h)

/-- Removing states keeps the invariant. -/
lemma RawOk.sublist {raw states states'} (h : RawOk P raw states) (hs : states'.Sublist states) :
    RawOk P raw states' :=
  ⟨h.sorted.sublist (hs.map _), fun s hmem => h.bound s (hs.subset hmem),
    fun s hmem => h.keyed s (hs.subset hmem),
    h.nodup.sublist ((hs.map _).append (hs.filterMap _))⟩

/-- The raw input may grow. -/
lemma RawOk.append {raw states c} (h : RawOk P raw states) : RawOk P (raw ++ [c]) states := by
  refine ⟨h.sorted, fun s hs => ?_, fun s hs => ?_, h.nodup⟩
  · have := h.bound s hs
    simp only [List.length_append, List.length_singleton]
    omega
  · refine (h.keyed s hs).of_getElem? fun k hk => ?_
    exact List.getElem?_append_left ((h.keyed s hs).lt hk)

/-- The shift of the other indices is injective and keeps their order. -/
lemma shiftIdx_lt {k i j} (hi : i ≠ k) (hj : j ≠ k) (h : i < j) : shiftIdx k i < shiftIdx k j := by
  unfold shiftIdx
  split <;> split <;> omega

/-- A shifted index points to the entry it pointed to. -/
lemma getElem?_eraseIdx_shiftIdx {α} {l : List α} {k j} (hj : j ≠ k) :
    (l.eraseIdx k)[shiftIdx k j]? = l[j]? := by
  rw [List.getElem?_eraseIdx]
  unfold shiftIdx
  split
  · rw [if_neg (by omega), Nat.sub_add_cancel (by omega)]
  · rw [if_pos (by omega)]

/-- Erasing an entry nobody owns: the indices behind it shift along. -/
lemma RawOk.erase {raw states k} (h : RawOk P raw states) (hk : k ∉ owners states) :
    RawOk P (raw.eraseIdx k) (states.map (CharState.eraseRaw k)) := by
  have hraw : ∀ s ∈ states, s.rawIdx ≠ k := by
    intro s hs he
    exact hk (List.mem_append_left _ (List.mem_map.2 ⟨s, hs, he⟩))
  have htone : ∀ s ∈ states, s.toneRawIdx ≠ some k := by
    intro s hs he
    exact hk (List.mem_append_right _ (List.mem_filterMap.2 ⟨s, hs, he⟩))
  have howners : owners (states.map (CharState.eraseRaw k)) = (owners states).map (shiftIdx k) := by
    simp [owners, CharState.eraseRaw, List.filterMap_map, Function.comp_def, List.map_filterMap]
  refine ⟨?_, ?_, ?_, ?_⟩
  · have := h.sorted
    rw [List.pairwise_map] at this
    rw [List.map_map, List.pairwise_map]
    exact this.imp_of_mem fun hs ht hlt => shiftIdx_lt (hraw _ hs) (hraw _ ht) hlt
  · intro s' hs'
    obtain ⟨s, hs, rfl⟩ := List.mem_map.1 hs'
    have hlt := h.bound s hs
    have hne := hraw s hs
    simp only [CharState.eraseRaw, shiftIdx, List.length_eraseIdx]
    split <;> split <;> omega
  · intro s' hs'
    obtain ⟨s, hs, rfl⟩ := List.mem_map.1 hs'
    have hkeyed := h.keyed s hs
    simp only [ToneKeyed, CharState.eraseRaw] at hkeyed ⊢
    cases hkey : s.toneRawIdx with
    | none => simpa [hkey] using hkeyed
    | some j =>
      have hne : j ≠ k := fun he => htone s hs (he ▸ hkey)
      simpa [hkey, getElem?_eraseIdx_shiftIdx hne] using hkeyed
  · rw [howners]
    refine h.nodup.map_on fun i hi j hj he => ?_
    have hik : i ≠ k := fun h => hk (h ▸ hi)
    have hjk : j ≠ k := fun h => hk (h ▸ hj)
    rcases Nat.lt_trichotomy i j with hlt | heq | hlt
    · exact absurd he (shiftIdx_lt hik hjk hlt).ne
    · exact heq
    · exact absurd he (shiftIdx_lt hjk hik hlt).ne'

/-- What precedes the literal leaves an invariant buffer in front of the current key. -/
lemma RawOk.prep {key : τ → Char} {raw₀ c states raw' mid} (h : RawOk P raw₀ states)
    (hp : Prep (raw₀.map key ++ [c]) states raw' mid) :
    ∃ raw, raw.Sublist raw₀ ∧ raw' = raw.map key ++ [c] ∧ RawOk P raw mid := by
  cases hp with
  | rework hr => exact ⟨raw₀, .refl _, rfl, h.reworks hr⟩
  | drop => exact ⟨raw₀, .refl _, rfl, h.sublist (List.dropLast_sublist states)⟩
  | @erase k mid hmid hlt hsub =>
    obtain ⟨l, hperm, hsub⟩ := hsub
    have hk : k < raw₀.length := h.owners_lt (hsub.subset (hperm.mem_iff.2 List.mem_cons_self))
    have hnot : k ∉ owners mid :=
      (List.nodup_cons.1 (hperm.nodup_iff.1 (h.nodup.sublist hsub))).1
    refine ⟨raw₀.eraseIdx k, List.eraseIdx_sublist _ _, ?_, RawOk.erase ?_ hnot⟩
    · rw [List.eraseIdx_append_of_lt_length (by simpa using hk), List.eraseIdx_map]
    · obtain hr | rfl := hmid
      · exact h.reworks hr
      · exact h.sublist (List.dropLast_sublist states)

/-- The literal of the current key owns the last raw entry. -/
lemma RawOk.literal {raw c states s} (h : RawOk P raw states) (htone : s.tone = .none)
    (hkey : s.toneRawIdx = none) (hlast : s.rawIdx = raw.length) :
    RawOk P (raw ++ [c]) (states ++ [s]) := by
  have hbig := h.append (c := c)
  have hnew : raw.length ∉ owners states := fun hmem => (h.owners_lt hmem).ne rfl
  refine ⟨?_, ?_, ?_, ?_⟩
  · rw [List.map_append, List.pairwise_append]
    refine ⟨h.sorted, List.pairwise_singleton _ _, fun i hi j hj => ?_⟩
    obtain ⟨t, ht, rfl⟩ := List.mem_map.1 hi
    rw [List.map_singleton, List.mem_singleton] at hj
    rw [hj, hlast]
    exact h.bound t ht
  · intro t ht
    obtain ht | ht := List.mem_append.1 ht
    · exact hbig.bound t ht
    · rw [List.mem_singleton.1 ht, hlast]
      simp
  · intro t ht
    obtain ht | ht := List.mem_append.1 ht
    · exact hbig.keyed t ht
    · rw [List.mem_singleton.1 ht]
      simpa [ToneKeyed, hkey] using htone
  · have hperm : (owners (states ++ [s])).Perm (raw.length :: owners states) := by
      simp only [owners, List.map_append, List.filterMap_append, List.map_singleton, hlast,
        List.filterMap_cons, hkey, List.filterMap_nil, List.append_nil, List.append_assoc,
        List.singleton_append]
      exact List.perm_middle
    exact hperm.nodup_iff.2 (List.nodup_cons.2 ⟨hnew, h.nodup⟩)

/-- A tone applied by the current key owns the last raw entry. -/
lemma RawOk.applyTone {raw c states i tone} (h : RawOk P raw states) (hi : i < states.length)
    (hne : tone ≠ .none) (hc : P c tone) :
    RawOk P (raw ++ [c]) (NextKey.applyTone states i tone raw.length) := by
  have hbig := h.append (c := c)
  have hraw : (NextKey.applyTone states i tone raw.length).map (·.rawIdx) =
      states.map (·.rawIdx) := List.map_modify_of_forall (by intro _; rfl)
  have hnew : ∀ k, raw.length ≤ k → (owners states).count k = 0 := by
    intro k hk
    exact List.count_eq_zero.2 fun hmem => absurd (h.owners_lt hmem) (by omega)
  refine ⟨hraw ▸ h.sorted, ?_, ?_, ?_⟩
  · intro s hs
    have : s.rawIdx ∈ (NextKey.applyTone states i tone raw.length).map (·.rawIdx) :=
      List.mem_map_of_mem hs
    rw [hraw] at this
    obtain ⟨t, ht, he⟩ := List.mem_map.1 this
    exact he ▸ hbig.bound t ht
  · intro s hs
    obtain hs | ⟨t, -, rfl⟩ := List.mem_modify hs
    · exact hbig.keyed s hs
    · exact ⟨hne, c, by simp, hc⟩
  · rw [List.nodup_iff_count]
    intro k
    have hle := List.nodup_iff_count.1 h.nodup k
    rw [count_owners, hraw, NextKey.applyTone, List.countP_modify hi]
    by_cases hk : k = raw.length
    · have hzero := hnew k hk.ge
      rw [count_owners] at hzero
      split <;> split <;> omega
    · have hdst : (some raw.length == some k) = false := by simpa using fun h => hk h.symm
      rw [count_owners] at hle
      simp only [hdst, Bool.false_eq_true, if_false]
      omega

end Entries

section Locale
variable [WideLocale] {cfg : TypingConfig} {st : EngineState}

/-- A key that moves no tone without its key keeps the invariant. -/
lemma Effect.rawOk {τ : Type} {P : τ → Tone → Prop} {key : τ → Char} {tone? strands raw} {entry : τ}
    {states raw' states'}
    (h : Effect tone? strands ((raw ++ [entry]).map key) states raw' states')
    (hok : RawOk P raw states) (hs : ¬strands)
    (ht : ∀ a, tone? = some a → a.2 ≠ .none ∧ P entry a.2) :
    ∃ raw₁, raw₁.Sublist (raw ++ [entry]) ∧ raw' = raw₁.map key ∧ RawOk P raw₁ states' := by
  rw [List.map_append, List.map_singleton] at h
  induction h with
  | consumed hr => exact ⟨raw ++ [entry], .refl _, by simp, (hok.reworks hr).append⟩
  | literal hp hfresh =>
    obtain ⟨raw₀, hsub, rfl, hmid⟩ := hok.prep hp
    obtain ⟨htone, hkey, hidx⟩ := hfresh
    exact ⟨raw₀ ++ [entry], hsub.append_right _, by simp,
      hmid.literal htone hkey (by simpa using hidx)⟩
  | @toned i tone htone hi hne =>
    obtain ⟨hnone, hkey⟩ := ht _ htone
    have := hok.applyTone (c := entry) hi hnone hkey
    exact ⟨raw ++ [entry], .refl _, by simp, by simpa using this⟩
  | stranded h => exact absurd h hs
  | rework _ hr ih =>
    obtain ⟨raw₁, hsub, hraw, hok⟩ := ih
    exact ⟨raw₁, hsub, hraw, hok.reworks hr⟩

/-- A keystroke of a run: the state it met and the key. -/
abbrev Keystroke := EngineState × Char

/-- The keystrokes of a run, in order. -/
def keystrokes (cfg : TypingConfig) : EngineState → List EngineEvent → List Keystroke
  | _, [] => []
  | st, .push c :: events => (st, c) :: keystrokes cfg (st.pushChar cfg c) events
  | st, .back :: events => keystrokes cfg (st.backspace cfg) events

/-- The keystroke applied the tone when it was pressed. -/
def Keystroke.Applied (cfg : TypingConfig) (press : Keystroke) (tone : Tone) : Prop :=
  ∃ i, press.1.toneOfKey cfg press.2 = some (i, tone)

/-- The raw indices of a state, against the keystrokes so far: the raw input is made of keystrokes,
    the letters are non-decreasing and in range, and a state has a tone key exactly when it has a
    tone, which is then the keystroke that applied it. -/
def RawIndices (cfg : TypingConfig) (presses : List Keystroke) (st : EngineState) : Prop :=
  (st.states.map (·.rawIdx)).Pairwise (· ≤ ·) ∧
    (∀ s ∈ st.states, s.rawIdx < st.rawInput.length) ∧
    ∃ raw : List Keystroke, raw.Sublist presses ∧ st.rawInput = raw.map (·.2) ∧
      ∀ s ∈ st.states, ToneKeyed (Keystroke.Applied cfg) raw s

/-- A tone the engine applies is not the absent one. -/
lemma EngineState.toneOfKey_ne_none {c a} (h : st.toneOfKey cfg c = some a) : a.2 ≠ .none := by
  simp only [toneOfKey, appliedTone] at h
  split at h
  · cases h
  · next hgates =>
    rw [not_or, not_or, not_or] at hgates
    obtain ⟨i, -, rfl⟩ := Option.map_eq_some_iff.1 h
    exact hgates.2.2.1

/-- No step of the run drops the key of a tone that stays: a key does not move a tone without its
    key, and `Backspace` removes no state that is older than such a key. -/
def KeepsToneKeys (cfg : TypingConfig) (st : EngineState) : EngineEvent → Prop
  | .push c => st.keyMovesToneAlone cfg c = false
  | .back => ∀ s ∈ st.states.dropLast, ∀ k ∈ s.toneRawIdx, ∀ last ∈ st.states.getLast?,
      k < last.rawIdx

instance {event} : Decidable (KeepsToneKeys cfg st event) :=
  match event with
  | .push c => inferInstanceAs (Decidable (st.keyMovesToneAlone cfg c = false))
  | .back => inferInstanceAs (Decidable (∀ s ∈ st.states.dropLast, ∀ k ∈ s.toneRawIdx,
      ∀ last ∈ st.states.getLast?, k < last.rawIdx))

/-- `Backspace` keeps the invariant when the keys of the remaining tones are older. -/
lemma RawOk.popChar {τ : Type} {P : τ → Tone → Prop} {raw : List τ} (h : RawOk P raw st.states)
    (hok : KeepsToneKeys cfg st .back) :
    RawOk P (raw.take (charAt st.states (st.states.length - 1)).rawIdx) st.states.dropLast := by
  rcases List.eq_nil_or_concat st.states with hnil | ⟨init, last, hcat⟩
  · rw [hnil, List.dropLast_nil]
    exact .nil
  rw [List.concat_eq_append] at hcat
  have hlast : charAt st.states (st.states.length - 1) = last := by simp [charAt, hcat]
  have hinit : RawOk P raw init := h.sublist (hcat ▸ List.sublist_append_left _ _)
  have hbound := h.bound last (by simp [hcat])
  have hlen : (raw.take last.rawIdx).length = last.rawIdx := by
    rw [List.length_take]
    omega
  rw [hlast, hcat, List.dropLast_concat]
  refine ⟨hinit.sorted, ?_, ?_, hinit.nodup⟩
  · -- the letters before the removed state have smaller indices
    intro s hs
    have hsorted := h.sorted
    rw [hcat, List.map_append, List.pairwise_append] at hsorted
    rw [hlen]
    exact hsorted.2.2 _ (List.mem_map_of_mem hs) _ (by simp)
  · intro s hs
    refine (hinit.keyed s hs).of_getElem? fun k hk => ?_
    have hlt : k < last.rawIdx :=
      hok s (by rwa [hcat, List.dropLast_concat]) k hk last (by simp [hcat])
    rw [List.getElem?_take, if_pos hlt]

/-- The invariant of a run against the keystrokes so far. -/
def RunOk (cfg : TypingConfig) (presses : List Keystroke) (st : EngineState) : Prop :=
  st.Plain ∧ ∃ raw : List Keystroke, raw.Sublist presses ∧ st.rawInput = raw.map (·.2) ∧
    RawOk (Keystroke.Applied cfg) raw st.states

/-- In a run that is in order the indices are. -/
lemma RunOk.rawIndices {presses} (h : RunOk cfg presses st) : RawIndices cfg presses st := by
  obtain ⟨-, raw, hsub, hraw, hok⟩ := h
  refine ⟨hok.sorted.imp Nat.le_of_lt, ?_, raw, hsub, hraw, hok.keyed⟩
  rw [hraw, List.length_map]
  exact hok.bound

/-- A key keeps the invariant unless it moves a tone without its key. -/
lemma RunOk.push {presses c} (hq : cfg.QuickOff) (hm : cfg.inputMethod ≠ .userDefined)
    (h : RunOk cfg presses st) (hok : KeepsToneKeys cfg st (.push c)) :
    RunOk cfg (presses ++ [(st, c)]) (st.pushChar cfg c) := by
  obtain ⟨hp, raw, hsub, hraw, hrawOk⟩ := h
  refine ⟨hp.pushChar hq hm, ?_⟩
  have he := (EngineState.pushChar_effect (c := c) hq hm hp).effect
  have hpress : (st.press c).rawInput = (raw ++ [(st, c)]).map (·.2) := by
    simp [EngineState.press, hraw]
  rw [hpress] at he
  have hstrands : ¬(st.keyMovesToneAlone cfg c = true) := by
    rw [Bool.not_eq_true]
    exact hok
  obtain ⟨raw₁, hsub₁, hraw₁, hok₁⟩ := he.rawOk hrawOk hstrands fun a ha =>
    ⟨EngineState.toneOfKey_ne_none ha, a.1, ha⟩
  exact ⟨raw₁, hsub₁.trans (hsub.append_right _), hraw₁, hok₁⟩

/-- `Backspace` keeps the invariant unless it drops the key of a tone that stays. -/
lemma RunOk.back {presses} (h : RunOk cfg presses st) (hok : KeepsToneKeys cfg st .back) :
    RunOk cfg presses (st.backspace cfg) := by
  obtain ⟨hp, raw, hsub, hraw, hrawOk⟩ := h
  refine ⟨hp.backspace, ?_⟩
  by_cases hne : st.states = []
  · have hst : st.backspace cfg = st := by simp [EngineState.backspace, hne]
    rw [hst]
    exact ⟨raw, hsub, hraw, hrawOk⟩
  · rw [hp.backspace_eq hne]
    refine ⟨_, (List.take_sublist _ raw).trans hsub, ?_, hrawOk.popChar hok⟩
    simp [EngineState.popChar, EngineState.recalcBias, EngineState.updateSpellState, hraw]

/-- A run that drops no tone key keeps the invariant. -/
lemma RunOk.run {presses events} (hq : cfg.QuickOff) (hm : cfg.inputMethod ≠ .userDefined)
    (h : RunOk cfg presses st)
    (hok : Machine.Guarded (EngineState.step cfg) (KeepsToneKeys cfg) st events) :
    RunOk cfg (presses ++ keystrokes cfg st events) (EngineState.run cfg st events) := by
  induction events generalizing st presses with
  | nil => simpa [keystrokes] using h
  | cons event events ih =>
    cases event with
    | push c => simpa [keystrokes, EngineState.step] using ih (h.push hq hm hok.1) hok.2
    | back => simpa [keystrokes, EngineState.step] using ih (h.back hok.1) hok.2

/-- Outside the user-defined input method and without quick consonants, every state reached by a run
    that drops no tone key has consistent raw indices. -/
theorem run_rawIndices {events reached} (hq : cfg.QuickOff) (hm : cfg.inputMethod ≠ .userDefined)
    (hreached : reached <+: events)
    (h : Machine.Guarded (EngineState.step cfg) (KeepsToneKeys cfg) {} events) :
    RawIndices cfg (keystrokes cfg {} reached) (EngineState.run cfg {} reached) := by
  obtain ⟨rest, rfl⟩ := hreached
  have hstart : RunOk cfg [] {} := ⟨⟨rfl, rfl⟩, [], .refl _, rfl, .nil⟩
  simpa using (hstart.run hq hm h.left).rawIndices

/-- A tone key index out of range breaks the raw indices. -/
lemma not_rawIndices_of_dangling {presses s k} (hs : s ∈ st.states) (hk : s.toneRawIdx = some k)
    (hlen : st.rawInput.length ≤ k) : ¬RawIndices cfg presses st := by
  rintro ⟨-, -, raw, -, hraw, hkeyed⟩
  have hlt := (hkeyed s hs).lt hk
  rw [hraw, List.length_map] at hlen
  omega

end Locale

section Ascii
attribute [local instance] WideLocale.ascii

/-- Typing `luas`, its escape, and taking the last letter back meets the condition. -/
theorem run_rawIndices_lua :
    RawIndices {} (keystrokes {} {} [.push 'l', .push 'u', .push 'a', .push 's', .push 's', .back])
      (EngineState.run {} {} [.push 'l', .push 'u', .push 'a', .push 's', .push 's', .back]) :=
  run_rawIndices ⟨rfl, rfl, rfl⟩ (by decide) (List.prefix_refl _) (by decide +kernel)

/-- Typing `ans` and taking the `n` back leaves the tone of `á` with a key past the raw input. -/
theorem rawIndices_fail_after_back :
    ¬RawIndices {} (keystrokes {} {} [.push 'a', .push 'n', .push 's', .back])
      (EngineState.run {} {} [.push 'a', .push 'n', .push 's', .back]) :=
  not_rawIndices_of_dangling
    (s := { base := 'a', tone := .acute, rawIdx := 0, toneRawIdx := some 2 })
    (by decide +kernel) rfl (by decide +kernel)

end Ascii

end NextKey
