import Mathlib.Data.List.Sections
import NextKey.Engine.Prefixes
import NextKey.Engine.Untoned

/-!
# Completions of a prefix

`ValidPrefix` says that more keys could make the buffer a syllable: letters at its end, modifiers on
its plain vowels and `d`, another tone or place of the tone. Some buffers with this verdict have no
completion. `TryModifiedVowels` only asks whether a modified nucleus may end in a consonant, not in
the consonant that is there, so `uac` counts as a prefix although `uâ` does not take `c`; and it
modifies a vowel that already carries a stroke. `completable` asks both questions.
-/

namespace NextKey.Phonology

/-- A state of a completion: a plain vowel or `d` may gain a modifier, and the tone is free. -/
def Remarks (s t : CharState) : Prop :=
  untone t = { untone s with mod := t.mod } ∧
    (t.mod = s.mod ∨ s.mod = .none ∧ (s.isVowel ∨ s.isD))

/-- `t` completes `s`: modifiers are added, the tone is changed or moved, and letters are appended. -/
def Completion (s t : List CharState) : Prop :=
  ∃ kept appended, t = kept ++ appended ∧ List.Forall₂ Remarks s kept ∧
    t.countP (·.hasTone) = s.countP (·.hasTone)

/-- The slots a vowel may still fill. -/
def slotChoices (s : CharState) : List VowelSlot :=
  match baseIndex s.base with
  | some b =>
    if s.mod = .none then [⟨b, .none⟩, ⟨b, .circ⟩, ⟨b, .brev⟩, ⟨b, .horn⟩] else [⟨b, modOrdinal s.mod⟩]
  | none => []

/-- The keys a run of vowels may still have, with modifiers added to plain vowels. -/
def reachableKeys (vowels : List CharState) : List VowelKey := (vowels.map slotChoices).sections

/-- The finals a consonant or two may still become. -/
def reachableFinals (final : List CharState) : List Final :=
  allFinals.filter fun f => (final.map (·.base)).isPrefixOf f.letters

/-- A nucleus the vowels may become takes a final the consonants may become. -/
def completes (vowels final : List CharState) : Bool :=
  (reachableKeys vowels).any fun key =>
    match findVowel key with
    | some entry => final.isEmpty || entry.canEnd && (reachableFinals final).any (allowsFinal key)
    | none => false

/-- A decomposition of the buffer completes; a buffer without vowels and `qu` always do. -/
def completable (states : List CharState) (allowZwjf : Bool) : Bool :=
  states.all (fun s => !s.isVowel) || bareQu states ||
    (onsetLengths states allowZwjf).any fun n =>
      completes ((states.drop n).takeWhile (·.isVowel)) ((states.drop n).dropWhile (·.isVowel))

section Extend
variable {states states' : List CharState} {allowZwjf : Bool}

/-- A buffer that goes on with the letters of an open one opens in the same place. -/
lemma Opens.extend (h : Opens states allowZwjf)
    (hb : states.map (·.base) <+: states'.map (·.base)) :
    Opens states' allowZwjf ∧
      parseInitialConsonant states' allowZwjf = parseInitialConsonant states allowZwjf := by
  obtain ⟨onset, v, tail, rfl, hv, ho, hparse⟩ := h.exists_onset
  obtain ⟨rest, hrest⟩ := hb
  obtain ⟨kept, appended, rfl, hkept, -⟩ := List.map_eq_append_iff.1 hrest.symm
  obtain ⟨onset', tail', rfl, honset, htail⟩ := List.map_eq_append_iff.1 (hkept.trans List.map_append)
  obtain ⟨v', tail', rfl, hv', -⟩ := List.map_eq_cons_iff.1 htail
  have ho' : isValidConsonantPrefix onset' allowZwjf := by rwa [isValidConsonantPrefix_congr honset]
  have hv'' : v'.isVowel := by rwa [isVowel_congr hv']
  rw [List.append_assoc, List.cons_append]
  refine ⟨?_, ?_⟩
  · rw [opens_append_iff ho hv] at h
    rw [opens_append_iff ho' hv'', initialVowelClash_congr honset hv', h]
  · rw [parseInitialConsonant_append ho' hv'', parseInitialConsonant_append ho hv]
    simpa using congrArg List.length honset

/-- A longer buffer glides too. -/
lemma gliding_extend (h : gliding states) (hb : states.map (·.base) <+: states'.map (·.base)) :
    gliding states' := by
  obtain ⟨s0, s1, s2, rest, rfl, hg, hv⟩ := exists_of_gliding h
  obtain ⟨rest', hrest⟩ := hb
  obtain ⟨t0, _, rfl, h0, hrest⟩ := List.map_eq_cons_iff.1 hrest.symm
  obtain ⟨t1, _, rfl, h1, hrest⟩ := List.map_eq_cons_iff.1 hrest
  obtain ⟨t2, _, rfl, h2, -⟩ := List.map_eq_cons_iff.1 hrest
  have hv' : t2.isVowel := by rwa [isVowel_congr h2]
  simpa [gliding, h0, h1, hv'] using hg

/-- The decompositions of a buffer are decompositions of an extended one. -/
lemma mem_onsetLengths_extend {n} (h : Opens states allowZwjf)
    (hb : states.map (·.base) <+: states'.map (·.base)) (hn : n ∈ onsetLengths states allowZwjf) :
    n ∈ onsetLengths states' allowZwjf := by
  simp only [onsetLengths, (h.extend hb).2, List.mem_cons] at hn ⊢
  refine hn.imp_right fun hn => ?_
  split at hn
  · next hg => rwa [if_pos (gliding_extend hg hb)]
  · cases hn

end Extend

/-- Other marks, the same base. -/
lemma Remarks.base_eq {s t : CharState} (h : Remarks s t) : t.base = s.base := by
  simpa [untone] using congrArg CharState.base h.1

/-- Other marks, the same bases. -/
lemma map_base_of_remarks {states kept : List CharState} (h : List.Forall₂ Remarks states kept) :
    kept.map (·.base) = states.map (·.base) := by
  induction h with
  | nil => rfl
  | cons hr _ ih => rw [List.map_cons, List.map_cons, hr.base_eq, ih]

/-- The slot of a completed vowel is one of the choices. -/
lemma Remarks.mem_slotChoices {s t : CharState} {slot} (h : Remarks s t)
    (hslot : vowelSlot? t = some slot) : slot ∈ slotChoices s := by
  obtain ⟨hbase, hmod⟩ := vowelSlot?_eq_some.1 hslot
  rw [h.base_eq] at hbase
  have hidx := baseIndex_eq_some.2 hbase
  obtain ⟨b, m⟩ := slot
  simp only at hmod
  simp only [slotChoices, hidx]
  obtain hm | ⟨hm, -⟩ := h.2
  · split
    · next hn =>
      rw [hm, hn] at hmod
      cases hmod
      simp [modOrdinal]
    · rw [← hmod, hm]
      simp
  · rw [if_pos hm]
    cases m <;> simp

/-- The key of completed vowels can be reached. -/
lemma mem_reachableKeys {vowels kept : List CharState} {key} (h : List.Forall₂ Remarks vowels kept)
    (hkey : vowelKey? kept = some key) : key ∈ reachableKeys vowels := by
  obtain ⟨-, hslots⟩ := vowelKey?_eq_some.1 hkey
  clear hkey
  rw [reachableKeys, List.mem_sections]
  induction h generalizing key with
  | nil =>
    cases hslots
    exact .nil
  | cons hr _ ih =>
    obtain _ | ⟨hslot, hslots⟩ := hslots
    exact .cons (hr.mem_slotChoices hslot) (ih hslots)

/-- A final that goes on with the letters of `final`. -/
lemma mem_reachableFinals {final : List CharState} {f : Final} :
    f ∈ reachableFinals final ↔ final.map (·.base) <+: f.letters := by
  rw [reachableFinals, List.mem_filter, List.isPrefixOf_iff_prefix]
  exact and_iff_right mem_allFinals

/-- The rest of a buffer whose completion is accepted completes. -/
lemma completes_of_accepts {rest kept appended nucleus final vowels coda : List CharState} {tone}
    (hr : List.Forall₂ Remarks rest kept) (hrest : rest ≠ []) (hs : Split rest vowels coda)
    (hsplit : Split (kept ++ appended) nucleus final) (ha : Accepts tone nucleus final) :
      completes vowels coda = true := by
  obtain ⟨kv, hkv⟩ : ∃ kv, kv = kept.take vowels.length := ⟨_, rfl⟩
  obtain ⟨kc, hkc⟩ : ∃ kc, kc = kept.drop vowels.length := ⟨_, rfl⟩
  have hrv : List.Forall₂ Remarks vowels kv := by
    have := List.forall₂_take vowels.length hr
    rwa [hs.eq, List.take_left, ← hkv] at this
  have hrc : List.Forall₂ Remarks coda kc := by
    have := List.forall₂_drop vowels.length hr
    rwa [hs.eq, List.drop_left, ← hkc] at this
  have hkept : kept = kv ++ kc := by rw [hkv, hkc, List.take_append_drop]
  have hvowels : ∀ v ∈ kv, v.isVowel := by
    intro v hv
    have hmem : v.base ∈ kv.map (·.base) := List.mem_map_of_mem hv
    rw [map_base_of_remarks hrv] at hmem
    obtain ⟨w, hw, hwb⟩ := List.mem_map.1 hmem
    rw [isVowel_congr hwb.symm]
    exact hs.vowels w hw
  have reached : ∀ {key entry}, vowelKey? kv = some key → findVowel key = some entry →
      (coda = [] ∨ entry.canEnd ∧ ∃ f ∈ reachableFinals coda, allowsFinal key f) →
      completes vowels coda = true := by
    intro key entry hkey hentry hfinal
    refine List.any_eq_true.2 ⟨key, mem_reachableKeys hrv hkey, ?_⟩
    simp only [hentry, Bool.or_eq_true, List.isEmpty_iff, Bool.and_eq_true, List.any_eq_true]
    exact hfinal
  by_cases hcoda : coda = []
  · -- the vowels in front of the appended ones are a nucleus
    obtain rfl : kc = [] := by
      rw [hcoda] at hrc
      exact List.forall₂_nil_left_iff.1 hrc
    have hlen : 1 ≤ kv.length := by
      rw [← hrv.length_eq]
      by_contra hn
      have hnil : vowels = [] := List.length_eq_zero_iff.1 (by omega)
      exact hrest (by rw [hs.eq, hcoda, hnil]; rfl)
    have htake : nucleus.take kv.length = kv := by
      rw [← hsplit.takeWhile_eq, hkept, List.append_nil, List.takeWhile_append_of_pos hvowels,
        List.take_left]
    obtain ⟨key, entry, hkey, hentry, -⟩ := @Accepts.take_nucleus tone tone _ _ _ ha hlen
    rw [htake] at hkey
    exact reached hkey hentry (.inl hcoda)
  · -- the coda keeps its place, so the nucleus is the run of vowels
    have hsplit' : Split (kept ++ appended) kv (kc ++ appended) := by
      refine ⟨by rw [hkept, List.append_assoc], hvowels, fun f hf => ?_⟩
      rcases hrc with _ | ⟨hr₁, hrc⟩
      · exact absurd rfl hcoda
      · rename_i c f' _ _
        obtain rfl : f' = f := by simpa using hf
        rw [isVowel_congr hr₁.base_eq]
        exact hs.stop c rfl
    have hnucleus : nucleus = kv := hsplit.takeWhile_eq.symm.trans hsplit'.takeWhile_eq
    have hfinal' : final = kc ++ appended := hsplit.dropWhile_eq.symm.trans hsplit'.dropWhile_eq
    obtain ⟨key, entry, hkey, hentry, hnil | ⟨hend, f, hf, hallow, -⟩⟩ := ha
    · rw [hfinal', List.append_eq_nil_iff] at hnil
      rw [hnil.1] at hrc
      exact absurd (List.forall₂_nil_right_iff.1 hrc) hcoda
    · rw [hnucleus] at hkey
      refine reached hkey hentry (.inr ⟨hend, f, mem_reachableFinals.2 ?_, hallow⟩)
      rw [← hf, hfinal', List.map_append, map_base_of_remarks hrc]
      exact List.prefix_append _ _

section Complete
variable {states : List CharState} {allowZwjf : Bool}

/-- The letters `gi` alone are a syllable or impossible. -/
lemma validateImpl_gi_ne_validPrefix {s0 s1 : CharState} (h0 : s0.base = 'g') (h1 : s1.base = 'i')
    (ho : Opens [s0, s1] allowZwjf) : validateImpl [s0, s1] allowZwjf ≠ .validPrefix := by
  by_cases hm : modOrdinal s1.mod = .none
  · have hvalid := (validateImpl_of_opens ho).1.2
      ⟨by simp [bareQu, h0], 1, mem_onsetLengths_gi h0 h1, validateDecomposition_gi h1 hm⟩
    simp [hvalid]
  · simp [validateImpl_modifiedGi h0 h1 hm ho]

/-- A buffer with a vowel opens unless it is impossible. -/
lemma opens_of_ne_invalid (h : validateImpl states allowZwjf ≠ .invalid)
    (hvowel : ¬states.all fun s => !s.isVowel) : Opens states allowZwjf := by
  by_contra hn
  rw [validateImpl_of_not_opens hn] at h
  split at h
  · next ho => exact hvowel (List.all_eq_true.2 fun s hs => by simp [isVowel_of_mem_onset ho s hs])
  · exact h rfl

/-- A buffer without a vowel is a consonant prefix unless it is impossible. -/
lemma consonants_of_ne_invalid (h : validateImpl states allowZwjf ≠ .invalid)
    (hconsonants : states.all fun s => !s.isVowel) : isValidConsonantPrefix states allowZwjf := by
  have hclosed : ¬Opens states allowZwjf := by
    intro ho
    obtain ⟨onset, v, tail, rfl, hv, -⟩ := ho.exists_onset
    simp [hv] at hconsonants
  rw [validateImpl_of_not_opens hclosed] at h
  by_contra ho
  simp [ho] at h

/-- A buffer with a completion is completable. -/
lemma completable_of_completion {states' : List CharState}
    (h : validateImpl states allowZwjf = .validPrefix) (hc : Completion states states')
    (hvalid : validateImpl states' allowZwjf = .valid) : completable states allowZwjf = true := by
  simp only [completable, Bool.or_eq_true]
  by_cases hconsonants : states.all fun s => !s.isVowel
  · exact .inl (.inl hconsonants)
  have hopen : Opens states allowZwjf := opens_of_ne_invalid (by simp [h]) hconsonants
  obtain ⟨kept, appended, rfl, hr, -⟩ := hc
  have hbase := map_base_of_remarks hr
  have hlen := hr.length_eq
  have hprefix : states.map (·.base) <+: (kept ++ appended).map (·.base) :=
    ⟨appended.map (·.base), by rw [← hbase, List.map_append]⟩
  obtain ⟨-, hparse⟩ := hopen.extend hprefix
  obtain ⟨hopen', -, n, hn, hdec⟩ := validateImpl_eq_valid.1 hvalid
  -- a decomposition of the completion that starts in the buffer completes one of the buffer
  have found : n ∈ onsetLengths states allowZwjf → n < states.length →
      (onsetLengths states allowZwjf).any fun n =>
        completes ((states.drop n).takeWhile (·.isVowel)) ((states.drop n).dropWhile (·.isVowel)) := by
    intro hmem hlt
    refine List.any_eq_true.2 ⟨n, hmem, ?_⟩
    have hdrop : (kept ++ appended).drop n = kept.drop n ++ appended := by
      rw [List.drop_append_of_le_length (by omega)]
    have hsplit := @split_takeWhile ((kept ++ appended).drop n)
    have ha := (validateDecomposition_eq_valid hsplit).1 hdec
    exact completes_of_accepts (List.forall₂_drop n hr) (by simpa using hlt) split_takeWhile
      (hdrop ▸ hsplit) (hdrop ▸ ha)
  simp only [onsetLengths, hparse, List.mem_cons] at hn
  obtain rfl | hn := hn
  · exact .inr (found (List.mem_cons_self) hopen.lt)
  · split at hn
    · next hg =>
      obtain rfl : n = 2 := by simpa using hn
      obtain ⟨t0, t1, t2, rest, heq, hb, hv⟩ := exists_of_gliding hg
      have hlt := hopen.lt
      rw [← hparse, heq, parseInitialConsonant_glide hb] at hlt
      rw [heq] at hprefix
      rcases states with _ | ⟨s0, _ | ⟨s1, _ | ⟨s2, states⟩⟩⟩
      · simp at hlt
      · simp at hlt
      · -- `gi` is never a prefix, and `qu` always completes
        simp only [List.map_cons, List.map_nil, List.cons_prefix_cons, List.nil_prefix,
          and_true] at hprefix
        rw [← hprefix.1, ← hprefix.2] at hb
        obtain ⟨h0, h1⟩ | ⟨h0, h1⟩ := hb
        · exact absurd h (validateImpl_gi_ne_validPrefix h0 h1 hopen)
        · exact .inl (.inr (by simp [bareQu, h0, h1]))
      · simp only [List.map_cons, List.cons_prefix_cons] at hprefix
        obtain ⟨h0, h1, h2, -⟩ := hprefix
        have hglide : gliding (s0 :: s1 :: s2 :: states) := by
          have hv' : s2.isVowel := by rwa [isVowel_congr h2]
          simpa [gliding, h0, h1, hv'] using hb
        refine .inr (found ?_ (by simp))
        simp [onsetLengths, hglide]
    · cases hn

end Complete

/-- A buffer with one tone, on a modified vowel if there is one. -/
lemma checkToneModInvariant_single {front back : List CharState} {x : CharState}
    (hf : ∀ s ∈ front, s.hasTone = false) (hb : ∀ s ∈ back, s.hasTone = false)
    (hx : (front ++ x :: back).any (fun s => s.isVowel && s.hasModifier) → x.hasModifier) :
    checkToneModInvariant (front ++ x :: back) := by
  have none : ∀ {l : List CharState}, (∀ s ∈ l, s.hasTone = false) →
      (l.filter (·.isVowel)).filter (·.hasTone) = [] := by
    intro l hl
    rw [List.filter_eq_nil_iff]
    intro s hs
    simp [hl s (List.mem_of_mem_filter hs)]
  have htoned : ((front ++ x :: back).filter (·.isVowel)).filter (·.hasTone) =
      ([x].filter (·.isVowel)).filter (·.hasTone) := by
    rw [List.filter_append, List.filter_append, none hf, ← List.singleton_append, List.filter_append,
      List.filter_append, none hb]
    simp
  simp only [checkToneModInvariant, htoned]
  by_cases hxt : x.isVowel ∧ x.hasTone
  · simp only [List.filter_cons, hxt, if_true, List.filter_nil, Bool.not_eq_true',
      Bool.and_eq_false_imp, List.any_filter]
    intro hany
    simp [hx hany]
  · have hnone : ([x].filter (·.isVowel)).filter (·.hasTone) = [] := by
      simpa [List.filter_cons] using hxt
    rw [hnone]

/-- A tone can be put where the validator wants it. -/
lemma exists_toned {states : List CharState} (hvowel : ∃ v ∈ states, v.isVowel)
    (hcount : states.countP (·.hasTone) ≤ 1) : ∃ toned : List CharState,
    toned.map untone = states.map untone ∧
      toned.countP (·.hasTone) = states.countP (·.hasTone) ∧
      checkToneModInvariant toned ∧ stopTone (getTone toned) := by
  by_cases hzero : states.countP (·.hasTone) = 0
  · have hnone : ∀ s ∈ states, s.hasTone = false := by simpa [List.countP_eq_zero] using hzero
    have htoned : (states.filter (·.isVowel)).filter (·.hasTone) = [] := by
      rw [List.filter_eq_nil_iff]
      intro s hs
      simp [hnone s (List.mem_of_mem_filter hs)]
    refine ⟨states, rfl, rfl, by simp [checkToneModInvariant, htoned], ?_⟩
    have hfind : states.find? (·.hasTone) = none := by simpa using hnone
    simp [getTone, hfind, stopTone]
  · -- the vowel that takes the tone: a modified one if there is any
    obtain ⟨x, hx, hmod⟩ : ∃ x ∈ states.map untone,
        (states.map untone).any (fun s => s.isVowel && s.hasModifier) → x.hasModifier := by
      by_cases hany : (states.map untone).any fun s => s.isVowel && s.hasModifier
      · obtain ⟨x, hx, hp⟩ := List.any_eq_true.1 hany
        rw [Bool.and_eq_true] at hp
        exact ⟨x, hx, fun _ => hp.2⟩
      · obtain ⟨v, hv, -⟩ := hvowel
        exact ⟨untone v, List.mem_map_of_mem hv, fun h => absurd h hany⟩
    have huntoned : ∀ s ∈ states.map untone, s.hasTone = false ∧ untone s = s := by
      intro s hs
      obtain ⟨t, -, rfl⟩ := List.mem_map.1 hs
      exact ⟨rfl, rfl⟩
    obtain ⟨front, back, heq⟩ := List.append_of_mem hx
    rw [heq] at huntoned hmod
    have hfront : ∀ s ∈ front, s.hasTone = false ∧ untone s = s := fun s hs => huntoned s (by simp [hs])
    have hback : ∀ s ∈ back, s.hasTone = false ∧ untone s = s := fun s hs => huntoned s (by simp [hs])
    have hself := (huntoned x (by simp)).2
    have hcf : front.countP (·.hasTone) = 0 := by
      rw [List.countP_eq_zero]
      intro s hs
      simp [(hfront s hs).1]
    have hcb : back.countP (·.hasTone) = 0 := by
      rw [List.countP_eq_zero]
      intro s hs
      simp [(hback s hs).1]
    refine ⟨front ++ { x with tone := .acute } :: back, ?_, ?_, ?_, ?_⟩
    · rw [heq, List.map_append, List.map_cons, List.map_congr_left fun s hs => (hfront s hs).2,
        List.map_congr_left fun s hs => (hback s hs).2, List.map_id', List.map_id', ← hself]
      rfl
    · rw [List.countP_append, List.countP_cons_of_pos (by rfl), hcf, hcb]
      omega
    · refine checkToneModInvariant_single (fun s hs => (hfront s hs).1) (fun s hs => (hback s hs).1)
        fun hany => hmod ?_
      simpa [CharState.isVowel, CharState.hasModifier] using hany
    · have hfind : (front ++ { x with tone := .acute } :: back).find? (·.hasTone) =
          some { x with tone := .acute } := by
        rw [List.find?_append, List.find?_eq_none.2 fun s hs => by simp [(hfront s hs).1]]
        simp [CharState.hasTone]
      simp only [getTone, hfind]
      decide

/-- The modifier of a slot. -/
def SlotMod.modifier : SlotMod → Modifier
  | .none => .none
  | .circ => .circumflex
  | .brev => .breve
  | .horn => .horn

/-- A vowel can be completed to each of its choices. -/
lemma exists_remarks {v : CharState} {slot} (hv : v.isVowel) (h : slot ∈ slotChoices v) :
    ∃ w, Remarks v w ∧ w.tone = v.tone ∧ vowelSlot? w = some slot := by
  simp only [slotChoices] at h
  split at h
  · next b hb =>
    have hbase := baseIndex_eq_some.1 hb
    split at h
    · next hm =>
      refine ⟨{ v with mod := slot.mod.modifier }, ⟨rfl, .inr ⟨hm, .inl hv⟩⟩, rfl, ?_⟩
      have hmod : ∀ m : SlotMod, modOrdinal m.modifier = m := by
        intro m
        cases m <;> rfl
      have hslot : slot.base = b := by
        simp only [List.mem_cons, List.not_mem_nil, or_false] at h
        obtain rfl | rfl | rfl | rfl := h <;> rfl
      rw [vowelSlot?_eq_some]
      exact ⟨by rw [hslot]; exact hbase, hmod _⟩
    · refine ⟨v, ⟨rfl, .inl rfl⟩, rfl, ?_⟩
      obtain rfl : slot = ⟨b, modOrdinal v.mod⟩ := by simpa using h
      exact vowelSlot?_eq_some.2 ⟨hbase, rfl⟩
  · cases h

/-- A run of vowels can be completed to each of its keys. -/
lemma exists_remarks_of_reachable {vowels : List CharState} {key}
    (hv : ∀ v ∈ vowels, v.isVowel) (h : key ∈ reachableKeys vowels) :
    ∃ kept, List.Forall₂ Remarks vowels kept ∧ kept.map (·.tone) = vowels.map (·.tone) ∧
      kept.map vowelSlot? = key.map some := by
  rw [reachableKeys, List.mem_sections] at h
  induction vowels generalizing key with
  | nil =>
    cases h
    exact ⟨[], .nil, rfl, rfl⟩
  | cons v vowels ih =>
    obtain _ | ⟨hslot, h⟩ := h
    obtain ⟨w, hw, htone, hws⟩ := exists_remarks (hv v (by simp)) hslot
    obtain ⟨kept, hk, htones, hslots⟩ := ih (fun u hu => hv u (by simp [hu])) h
    exact ⟨w :: kept, .cons hw hk, by simp [htone, htones], by simp [hws, hslots]⟩

/-- What a buffer becomes when its decomposition is completed, before the tone is placed. -/
lemma exists_completed {states : List CharState} {n}
    (h : completes ((states.drop n).takeWhile (·.isVowel)) ((states.drop n).dropWhile (·.isVowel))) :
    ∃ kept appended nucleus final key entry, List.Forall₂ Remarks states kept ∧
      (kept ++ appended).countP (·.hasTone) = states.countP (·.hasTone) ∧
      Split ((kept ++ appended).drop n) nucleus final ∧ nucleus.map vowelSlot? = key.map some ∧
      findVowel key = some entry ∧ (final = [] ∨ entry.canEnd ∧ ∃ f : Final,
        final.map (·.base) = f.letters ∧ allowsFinal key f) := by
  obtain ⟨vowels, hvowels⟩ : ∃ V, V = (states.drop n).takeWhile (·.isVowel) := ⟨_, rfl⟩
  obtain ⟨coda, hcoda⟩ : ∃ C, C = (states.drop n).dropWhile (·.isVowel) := ⟨_, rfl⟩
  have hs : Split (states.drop n) vowels coda := hvowels ▸ hcoda ▸ split_takeWhile
  rw [← hvowels, ← hcoda] at h
  obtain ⟨key, hkey, hc⟩ := List.any_eq_true.1 h
  split at hc
  · next entry hentry =>
    simp only [Bool.or_eq_true, List.isEmpty_iff, Bool.and_eq_true, List.any_eq_true] at hc
    obtain ⟨kv, hkv, htones, hslots⟩ := exists_remarks_of_reachable hs.vowels hkey
    -- the letters that complete the final
    obtain ⟨letters, hletters⟩ : ∃ letters : List Char, coda = [] ∧ letters = [] ∨
        coda ≠ [] ∧ entry.canEnd ∧ ∃ f : Final, coda.map (·.base) ++ letters = f.letters ∧
          allowsFinal key f := by
      by_cases hnil : coda = []
      · exact ⟨[], .inl ⟨hnil, rfl⟩⟩
      · obtain hc | ⟨hend, f, hf, hallow⟩ := hc
        · exact absurd hc hnil
        · obtain ⟨letters, hl⟩ := mem_reachableFinals.1 hf
          exact ⟨letters, .inr ⟨hnil, hend, f, hl, hallow⟩⟩
    have hself : ∀ l : List CharState, List.Forall₂ Remarks l l := fun l =>
      List.forall₂_same.2 fun _ _ => ⟨rfl, .inl rfl⟩
    have hstates : states = states.take n ++ (vowels ++ coda) := by
      rw [← hs.eq, List.take_append_drop]
    have hn : (states.take n).length = n := by
      rw [List.length_take]
      have hpos : vowels ≠ [] := by
        rintro rfl
        have : key = [] := by simpa [reachableKeys] using hkey
        rw [this] at hentry
        cases hentry
      have hne : states.drop n ≠ [] := by
        rw [hs.eq]
        simp [hpos]
      have : n < states.length := by simpa using hne
      omega
    refine ⟨states.take n ++ (kv ++ coda), letters.map fun c => { base := c }, kv,
      coda ++ letters.map fun c => { base := c }, key, entry, ?_, ?_, ?_, hslots, hentry, ?_⟩
    · conv_lhs => rw [hstates]
      exact List.rel_append (hself _) (List.rel_append hkv (hself _))
    · have hcount : kv.countP (·.hasTone) = vowels.countP (·.hasTone) := by
        have hp : ∀ l : List CharState,
            l.countP (·.hasTone) = (l.map (·.tone)).countP (· != .none) := by
          intro l
          rw [List.countP_map]
          rfl
        rw [hp, hp, htones]
      have happended : (letters.map fun c => ({ base := c } : CharState)).countP (·.hasTone) = 0 := by
        rw [List.countP_eq_zero]
        intro s hs
        obtain ⟨c, -, rfl⟩ := List.mem_map.1 hs
        simp [CharState.hasTone]
      conv_rhs => rw [hstates]
      simp only [List.countP_append, hcount, happended]
      omega
    · refine ⟨?_, ?_, ?_⟩
      · rw [List.append_assoc, List.append_assoc, List.drop_left' hn]
      · intro w hw
        have hmem : w.base ∈ kv.map (·.base) := List.mem_map_of_mem hw
        rw [map_base_of_remarks hkv] at hmem
        obtain ⟨v, hv, hvb⟩ := List.mem_map.1 hmem
        rw [isVowel_congr hvb.symm]
        exact hs.vowels v hv
      · intro f hf
        obtain ⟨rfl, rfl⟩ | ⟨hne, -⟩ := hletters
        · simp at hf
        · rw [List.head?_append_of_ne_nil _ hne] at hf
          exact hs.stop f hf
    · obtain ⟨rfl, rfl⟩ | ⟨-, hend, f, hf, hallow⟩ := hletters
      · exact .inl rfl
      · refine .inr ⟨hend, f, ?_, hallow⟩
        rw [← hf, List.map_append, List.map_map]
        simp [Function.comp_def]
  · cases hc

section Build
variable {states : List CharState} {allowZwjf : Bool}

/-- Moving the tone leaves a completion a completion. -/
lemma remarks_congr {kept kept' : List CharState} (hr : List.Forall₂ Remarks states kept)
    (h : kept'.map untone = kept.map untone) : List.Forall₂ Remarks states kept' := by
  induction hr generalizing kept' with
  | nil =>
    obtain rfl : kept' = [] := by simpa using h
    exact .nil
  | cons hs _ ih =>
    obtain ⟨t', kept', rfl, ht, hk⟩ := List.map_eq_cons_iff.1 h
    refine .cons ?_ (ih hk)
    have hmod := mod_eq_of_untone ht
    obtain ⟨h₁, h₂⟩ := hs
    refine ⟨?_, ?_⟩
    · rw [ht, h₁, hmod]
    · rw [hmod]
      exact h₂

/-- The bare `qu`, from its letters. -/
lemma bareQu_eq_true : ∀ {states : List CharState}, bareQu states = true ↔
    ∃ s0 s1, states = [s0, s1] ∧ s0.base = 'q' ∧ s1.base = 'u'
  | [] => by simp [bareQu]
  | [_] => by simp [bareQu]
  | [_, _] => by simp [bareQu]
  | _ :: _ :: _ :: _ => by simp [bareQu]

/-- A completed decomposition gives a completion of the buffer. -/
lemma exists_completion_of_completes {n} (hopen : Opens states allowZwjf)
    (hqu : bareQu states = false) (hn : n ∈ onsetLengths states allowZwjf)
    (hc : completes ((states.drop n).takeWhile (·.isVowel)) ((states.drop n).dropWhile (·.isVowel)))
    (hcount : states.countP (·.hasTone) ≤ 1) :
    ∃ t, Completion states t ∧ validateSyllableState t allowZwjf = .valid := by
  obtain ⟨kept, appended, nucleus, final, key, entry, hr, htones, hsplit, hslots, hentry, hfinal⟩ :=
    exists_completed hc
  have hlen := hr.length_eq
  have hvowel : ∃ v ∈ kept ++ appended, v.isVowel := by
    have hne : nucleus ≠ [] := by
      rintro rfl
      obtain rfl : key = [] := by simpa using hslots.symm
      cases hentry
    obtain ⟨v, vs, rfl⟩ := List.exists_cons_of_ne_nil hne
    refine ⟨v, List.mem_of_mem_drop (i := n) ?_, hsplit.vowels v (by simp)⟩
    rw [hsplit.eq]
    simp
  obtain ⟨t, hmap, htcount, hcheck, hstop⟩ := exists_toned hvowel (htones ▸ hcount)
  have hbase : t.map (·.base) = (kept ++ appended).map (·.base) :=
    map_congr_untone (·.base) (fun _ => rfl) hmap
  have hprefix : states.map (·.base) <+: t.map (·.base) := by
    rw [hbase, List.map_append, map_base_of_remarks hr]
    exact List.prefix_append _ _
  have hopen' := (hopen.extend hprefix).1
  -- the completion, with its tone placed
  refine ⟨t, ⟨t.take states.length, t.drop states.length, (List.take_append_drop _ _).symm, ?_,
    htcount.trans htones⟩, ?_⟩
  · refine remarks_congr hr ?_
    rw [List.map_take, hmap, ← List.map_take, List.take_left' hlen.symm]
  · refine validateSyllableState_eq_valid.2 ⟨validateImpl_eq_valid.2 ⟨hopen', ?_, n, ?_, ?_⟩, hcheck⟩
    · -- a completion with the letters `qu` alone completes `qu`
      by_contra hb
      rw [Bool.not_eq_false, bareQu_eq_true] at hb
      obtain ⟨t0, t1, rfl, h0, h1⟩ := hb
      have hlt := hopen.lt
      rw [← (hopen.extend hprefix).2, parseInitialConsonant_glide (.inr ⟨h0, h1⟩)] at hlt
      have hwhole := hprefix.eq_of_length_le (by
        simp only [List.length_map, List.length_cons, List.length_nil]
        omega)
      obtain ⟨s0, _, rfl, hs0, hrest⟩ := List.map_eq_cons_iff.1 hwhole
      obtain ⟨s1, _, rfl, hs1, hnil⟩ := List.map_eq_cons_iff.1 hrest
      obtain rfl := List.map_eq_nil_iff.1 hnil
      simp [bareQu, hs0, hs1, h0, h1] at hqu
    · exact mem_onsetLengths_extend hopen hprefix hn
    · have hdrop : (t.drop n).map untone = ((kept ++ appended).drop n).map untone := by
        rw [List.map_drop, hmap, ← List.map_drop]
      obtain ⟨nucleus', final', hsplit', hn', hf'⟩ := hsplit.congr hdrop
      have hslots' : nucleus'.map vowelSlot? = key.map some := by
        rw [map_congr_untone vowelSlot? (fun _ => rfl) hn', hslots]
      have hfinal' : final'.map (·.base) = final.map (·.base) :=
        map_congr_untone (·.base) (fun _ => rfl) hf'
      have hlength : 1 ≤ key.length ∧ key.length ≤ 3 := by
        obtain ⟨hmem, rfl⟩ := findVowel_eq_some hentry
        exact (by decide : ∀ e ∈ kVowelTable, 1 ≤ e.key.length ∧ e.key.length ≤ 3) entry hmem
      have hnlen : nucleus'.length = key.length := by simpa using congrArg List.length hslots'
      refine (validateDecomposition_eq_valid hsplit').2
        ⟨key, entry, vowelKey?_eq_some_iff_map.2 ⟨by omega, hslots'⟩, hentry, ?_⟩
      obtain rfl | ⟨hend, f, hf, hallow⟩ := hfinal
      · exact .inl (by simpa using hfinal')
      · exact .inr ⟨hend, f, hfinal'.trans hf, hallow, fun _ => hstop⟩

/-- A plain state for a letter. -/
def letterState (c : Char) : CharState := { base := c }

/-- Every consonant prefix agrees with one of the vowels `a`, `e` and `u`. -/
lemma exists_vowels (ho : isValidConsonantPrefix states allowZwjf) :
    ∃ vowels ∈ [['a'], ['e'], ['u', 'a']], Opens (states ++ vowels.map letterState) allowZwjf ∧
      bareQu (states ++ vowels.map letterState) = false := by
  have opens : ∀ {v vs}, isVowelBase v →
      initialVowelClash (states ++ (v :: vs).map letterState) states.length = false →
      Opens (states ++ (v :: vs).map letterState) allowZwjf :=
    fun {v _} hv hclash => (opens_append_iff (v := letterState v) ho hv).2 hclash
  rcases states with _ | ⟨s0, _ | ⟨s1, _ | ⟨s2, _ | ⟨s3, rest⟩⟩⟩⟩
  · exact ⟨['a'], by simp, opens rfl rfl, rfl⟩
  · by_cases hk : s0.base = 'k'
    · refine ⟨['e'], by simp, opens rfl ?_, ?_⟩
      · simp [initialVowelClash, charAt, letterState, isFrontBaseVowel, hk]
      · simp [bareQu, letterState]
    · by_cases hq : s0.base = 'q'
      · refine ⟨['u', 'a'], by simp, opens rfl ?_, rfl⟩
        simp [initialVowelClash, charAt, letterState, isFrontBaseVowel, hq]
      · refine ⟨['a'], by simp, opens rfl ?_, ?_⟩
        · simp [initialVowelClash, charAt, letterState, isFrontBaseVowel, hk, hq]
        · simp [bareQu, letterState]
  · by_cases hgh : s0.base = 'g' ∧ s1.base = 'h'
    · refine ⟨['e'], by simp, opens rfl ?_, rfl⟩
      simp [initialVowelClash, charAt, letterState, isFrontBaseVowel]
    · refine ⟨['a'], by simp, opens rfl ?_, rfl⟩
      simpa [initialVowelClash, charAt, letterState, isFrontBaseVowel] using hgh
  · refine ⟨['e'], by simp, opens rfl ?_, rfl⟩
    simp [initialVowelClash, charAt, letterState, isFrontBaseVowel]
  · simp [isValidConsonantPrefix] at ho

/-- Appending letters without a tone completes a buffer. -/
lemma completion_append {letters : List Char} :
    Completion states (states ++ letters.map letterState) := by
  refine ⟨states, letters.map letterState, rfl, List.forall₂_same.2 fun _ _ => ⟨rfl, .inl rfl⟩, ?_⟩
  have hzero : (letters.map letterState).countP (·.hasTone) = 0 := by
    rw [List.countP_eq_zero]
    intro s hs
    obtain ⟨c, -, rfl⟩ := List.mem_map.1 hs
    simp [CharState.hasTone, letterState]
  rw [List.countP_append, hzero]
  rfl

/-- Appending plain letters keeps the tone on a modified vowel. -/
lemma checkToneModInvariant_append {letters : List Char} (h : checkToneModInvariant states) :
    checkToneModInvariant (states ++ letters.map letterState) := by
  have hplain : ∀ s ∈ letters.map letterState, s.hasTone = false ∧ s.hasModifier = false := by
    intro s hs
    obtain ⟨c, -, rfl⟩ := List.mem_map.1 hs
    exact ⟨rfl, rfl⟩
  have htoned : ((letters.map letterState).filter (·.isVowel)).filter (·.hasTone) = [] := by
    rw [List.filter_eq_nil_iff]
    intro s hs
    simp [(hplain s (List.mem_of_mem_filter hs)).1]
  have hmod : ((letters.map letterState).filter (·.isVowel)).any (·.hasModifier) = false := by
    rw [List.any_eq_false]
    intro s hs
    simp [(hplain s (List.mem_of_mem_filter hs)).2]
  simpa only [checkToneModInvariant, List.filter_append, htoned, List.append_nil, List.any_append, hmod,
    Bool.or_false] using h

/-- A consonant prefix has a completion. -/
lemma exists_completion_of_consonants (ho : isValidConsonantPrefix states allowZwjf) :
    ∃ t, Completion states t ∧ validateSyllableState t allowZwjf = .valid := by
  obtain ⟨vowels, hmem, hopen, hqu⟩ := exists_vowels ho
  have htable : ∀ vowels ∈ [['a'], ['e'], ['u', 'a']], vowels.all isVowelBase ∧ vowels ≠ [] ∧
      ∃ key entry, vowelKey? (vowels.map letterState) = some key ∧ findVowel key = some entry := by
    simp only [List.mem_cons, List.not_mem_nil, or_false]
    rintro _ (rfl | rfl | rfl)
    · exact ⟨rfl, by simp, [Slot.a], _, rfl, rfl⟩
    · exact ⟨rfl, by simp, [Slot.e], _, rfl, rfl⟩
    · exact ⟨rfl, by simp, [Slot.u, Slot.a], _, rfl, rfl⟩
  obtain ⟨hall, hne, key, entry, hkey, hentry⟩ := htable vowels hmem
  refine ⟨states ++ vowels.map letterState, completion_append, ?_⟩
  have hvowels : ∀ v ∈ vowels.map letterState, v.isVowel := by
    intro v hv
    obtain ⟨c, hc, rfl⟩ := List.mem_map.1 hv
    exact List.all_eq_true.1 hall c hc
  refine validateSyllableState_eq_valid.2
    ⟨validateImpl_eq_valid.2 ⟨hopen, hqu, states.length, ?_, ?_⟩, ?_⟩
  · obtain ⟨c, cs, rfl⟩ := List.exists_cons_of_ne_nil hne
    rw [List.map_cons, onsetLengths, parseInitialConsonant_append ho (hvowels _ (by simp))]
    exact List.mem_cons_self
  · have hsplit : Split ((states ++ vowels.map letterState).drop states.length)
        (vowels.map letterState) [] := ⟨by simp, hvowels, by simp⟩
    exact (validateDecomposition_eq_valid hsplit).2 ⟨key, entry, hkey, hentry, .inl rfl⟩
  · refine checkToneModInvariant_append ?_
    have hnone : states.filter (·.isVowel) = [] := by
      rw [List.filter_eq_nil_iff]
      intro s hs
      simp [isVowel_of_mem_onset ho s hs]
    simp [checkToneModInvariant, hnone]

/-- `qu` has a completion. -/
lemma exists_completion_of_bareQu (hopen : Opens states allowZwjf) (hqu : bareQu states)
    (htone : checkToneModInvariant states) :
    ∃ t, Completion states t ∧ validateSyllableState t allowZwjf = .valid := by
  obtain ⟨s0, s1, rfl, h0, h1⟩ := bareQu_eq_true.1 hqu
  refine ⟨[s0, s1] ++ ['a'].map letterState, completion_append, ?_⟩
  have hprefix : [s0, s1].map (·.base) <+: ([s0, s1] ++ ['a'].map letterState).map (·.base) := by simp
  refine validateSyllableState_eq_valid.2 ⟨validateImpl_eq_valid.2
    ⟨(hopen.extend hprefix).1, rfl, 2, ?_, ?_⟩, checkToneModInvariant_append htone⟩
  · simp [onsetLengths, gliding, h0, h1, letterState, CharState.isVowel, isVowelBase]
  · have hsplit : Split (([s0, s1] ++ ['a'].map letterState).drop 2) [letterState 'a'] [] :=
      ⟨rfl, by simp [letterState, CharState.isVowel, isVowelBase], by simp⟩
    exact (validateDecomposition_eq_valid hsplit).2 ⟨[Slot.a], _, rfl, rfl, .inl rfl⟩

end Build

/-- Soundness of `ValidPrefix`: a buffer with at most one tone that counts as a prefix can be completed
    exactly when one of its decompositions completes. -/
theorem validPrefix_completable_iff {states : List CharState} {allowZwjf}
    (h : validateSyllableState states allowZwjf = .validPrefix)
    (hcount : states.countP (·.hasTone) ≤ 1) :
    (∃ t, Completion states t ∧ validateSyllableState t allowZwjf = .valid) ↔
      completable states allowZwjf := by
  have himpl : validateImpl states allowZwjf = .validPrefix ∧ checkToneModInvariant states := by
    simp only [validateSyllableState] at h
    split at h
    · cases h
    · next hn =>
      refine ⟨h, ?_⟩
      by_contra hcheck
      exact hn ⟨by simp [h], hcheck⟩
  constructor
  · rintro ⟨t, hc, ht⟩
    exact completable_of_completion himpl.1 hc (validateSyllableState_eq_valid.1 ht).1
  · intro hc
    simp only [completable, Bool.or_eq_true] at hc
    by_cases hconsonants : states.all fun s => !s.isVowel
    · exact exists_completion_of_consonants (consonants_of_ne_invalid (by simp [himpl.1]) hconsonants)
    · have hopen : Opens states allowZwjf := opens_of_ne_invalid (by simp [himpl.1]) hconsonants
      by_cases hqu : bareQu states
      · exact exists_completion_of_bareQu hopen hqu himpl.2
      · obtain (hc | hc) | hc := hc
        · exact absurd hc hconsonants
        · exact absurd hc hqu
        · obtain ⟨n, hn, hc⟩ := List.any_eq_true.1 hc
          exact exists_completion_of_completes hopen (by simpa using hqu) hn hc hcount

/-- `nghie` can be completed. -/
theorem validPrefix_completable_nghie :
    ∃ t, Completion [{ base := 'n' }, { base := 'g' }, { base := 'h' }, { base := 'i' },
      { base := 'e' }] t ∧
      validateSyllableState t false = .valid :=
  (validPrefix_completable_iff (by decide) (by decide)).2 (by decide +kernel)

/-- `tuac` counts as a prefix, and no syllable completes it. -/
theorem validPrefix_tuac :
    ¬(validateSyllableState [{ base := 't' }, { base := 'u' }, { base := 'a' }, { base := 'c' }] false =
        .validPrefix →
      ∃ t, Completion [{ base := 't' }, { base := 'u' }, { base := 'a' }, { base := 'c' }] t ∧
        validateSyllableState t false = .valid) := by
  intro h
  obtain ⟨t, hc, ht⟩ := h (by decide)
  have himpl : validateImpl t false = .valid := (validateSyllableState_eq_valid.1 ht).1
  have hcompletable := completable_of_completion (by decide) hc himpl
  revert hcompletable
  decide +kernel

end NextKey.Phonology
