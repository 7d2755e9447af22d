import Mathlib.Data.List.Induction
import NextKey.Engine.FittingMarks
import NextKey.Engine.ToneTarget
import NextKey.Engine.ToneVerdict

/-!
# Where the tone goes

`FindToneTarget` of a buffer of any length: there is a target just when there is a vowel outside the
onset clusters, and the target is one. Of the first sixteen of them the last one with a horn is the
target, and without a horn the first one with a circumflex or a breve. The index that
`ComputeTonePosition` returns counts the vowels that it was given, and stands for the state they were
read from.
-/

namespace NextKey

section Scans
variable {α : Type*} {l : List α} {q : Nat → Bool} {p : α → Bool}

/-- A backward scan finds the last element. -/
lemma getElem?_lastIdx? (hq : ∀ k a, l[k]? = some a → q k = p a) :
    (lastIdx? l.length q).bind (l[·]?) = (l.filter p).getLast? := by
  induction l using List.reverseRecOn with
  | nil => rfl
  | append_singleton l a ih =>
    have ih := ih fun k b hk =>
      hq k b ((List.getElem?_append_left (List.getElem?_eq_some_iff.1 hk).1).trans hk)
    have ha : q l.length = p a := hq l.length a List.getElem?_concat_length
    rw [List.length_append, List.length_singleton, lastIdx?_succ, List.filter_append, ha]
    cases hp : p a with
    | true =>
      rw [if_pos rfl, Option.bind_some, List.getElem?_concat_length, List.filter_cons_of_pos hp,
        List.filter_nil, List.getLast?_concat]
    | false =>
      rw [if_neg Bool.false_ne_true, List.filter_cons_of_neg (by simp [hp]), List.filter_nil,
        List.append_nil, ← ih]
      cases hlast : lastIdx? l.length q with
      | none => rfl
      | some k => exact List.getElem?_append_left (lastIdx?_eq_some hlast).1

/-- A forward scan finds the first element. -/
lemma getElem?_firstIdx? (hq : ∀ k a, l[k]? = some a → q k = p a) :
    (firstIdx? l.length q).bind (l[·]?) = (l.filter p).head? := by
  induction l using List.reverseRecOn with
  | nil => rfl
  | append_singleton l a ih =>
    have ih := ih fun k b hk =>
      hq k b ((List.getElem?_append_left (List.getElem?_eq_some_iff.1 hk).1).trans hk)
    have ha : q l.length = p a := hq l.length a List.getElem?_concat_length
    rw [List.length_append, List.length_singleton, firstIdx?_succ, List.filter_append,
      List.head?_append, ← ih, ha]
    cases hfirst : firstIdx? l.length q with
    | some k =>
      have hk := (firstIdx?_eq_some hfirst).1
      rw [Option.some_or, Option.bind_some, Option.bind_some, List.getElem?_append_left hk,
        List.getElem?_eq_getElem hk, Option.some_or]
    | none =>
      rw [Option.none_or, Option.bind_none, Option.none_or]
      cases hp : p a with
      | true =>
        rw [if_pos rfl, Option.bind_some, List.getElem?_concat_length, List.filter_cons_of_pos hp]
        rfl
      | false =>
        rw [if_neg Bool.false_ne_true, List.filter_cons_of_neg (by simp [hp])]
        rfl

end Scans

/-- A vowel outside the onset clusters. -/
def nucleusVowel (states : List CharState) (i : Nat) : Bool :=
  (charAt states i).isVowel && !isClusterConsonant states i

/-- The first sixteen of them. -/
def firstVowels (states : List CharState) : List Nat :=
  ((List.range states.length).filter (nucleusVowel states)).take kVowelCap

/-- The placement of a tone on `target`, where `mark` is what the vowels are marked with. -/
structure Placed (states : List CharState) (mark : Nat → Modifier) (target : Option Nat) : Prop where
  none_iff : target = none ↔ ∀ i < states.length, nucleusVowel states i = false
  nucleus : ∀ i, target = some i → i < states.length ∧ nucleusVowel states i = true
  horn : ∀ i, ((firstVowels states).filter fun k => mark k == .horn).getLast? = some i → target = some i
  other : ((firstVowels states).filter fun k => mark k == .horn) = [] → ∀ i,
    ((firstVowels states).filter fun k => mark k == .circumflex || mark k == .breve).head? = some i →
      target = some i

/-- The diphthong rules stay within the vowels. -/
lemma diphthongPosition_lt {bases : List Char} (h : bases ≠ []) {hasCoda modernOrtho : Bool} :
    diphthongPosition bases hasCoda modernOrtho < bases.length := by
  have hpos := List.length_pos_of_ne_nil h
  unfold diphthongPosition
  dsimp only
  split
  · omega
  · split
    · omega
    · split
      · omega
      · next hcount _ _ =>
        -- the pair that the rules look at
        have hpair : ∀ shifted : Bool, (shifted = true → 3 ≤ bases.length) →
            (if shifted then bases.length - 3 else bases.length - 2) + 1 < bases.length := by
          intro shifted hshifted
          split
          · next h =>
            have := hshifted h
            omega
          · omega
        have hshifted := hpair (decide (3 ≤ bases.length) && diphthongRule modernOrtho
          (bases.getD (bases.length - 3) '\x00') (bases.getD (bases.length - 2) '\x00') != .noRule)
          fun h => of_decide_eq_true (Bool.and_eq_true_iff.1 h).1
        generalize (decide (3 ≤ bases.length) && diphthongRule modernOrtho
          (bases.getD (bases.length - 3) '\x00') (bases.getD (bases.length - 2) '\x00') != .noRule) =
            shifted at hshifted ⊢
        generalize (if shifted = true then bases.length - 3 else bases.length - 2) = firstPos
          at hshifted ⊢
        split
        · split
          · omega
          · split <;> omega
        · omega
        · omega
        · omega

/-- The mark that a vowel shows. -/
def shownMark (states : List CharState) (i : Nat) : Modifier := (rendered (charAt states i)).2

/-- The first vowels are of the nucleus. -/
lemma mem_firstVowels {states : List CharState} {i} (h : i ∈ firstVowels states) :
    i < states.length ∧ nucleusVowel states i = true := by
  obtain ⟨hrange, hvowel⟩ := List.mem_filter.1 (List.mem_of_mem_take h)
  exact ⟨List.mem_range.1 hrange, hvowel⟩

/-- There are none where there is no nucleus. -/
lemma firstVowels_eq_nil {states : List CharState} :
    firstVowels states = [] ↔ ∀ i < states.length, nucleusVowel states i = false := by
  rw [firstVowels, List.take_eq_nil_iff, or_iff_right (by decide), List.filter_eq_nil_iff]
  constructor
  · intro h i hi
    exact Bool.eq_false_iff.2 (h i (List.mem_range.2 hi))
  · intro h i hi
    rw [h i (List.mem_range.1 hi)]
    decide

section Locale
variable [WideLocale] {modernOrtho : Bool} {states : List CharState}

/-- The scan finds the first vowels. -/
lemma toneVowelIdxs_eq_firstVowels : toneVowelIdxs states = firstVowels states := toneVowelIdxs_eq

/-- The index of `ComputeTonePosition` is that of the vowel it was read from. -/
lemma findToneTarget_eq (hne : firstVowels states ≠ []) : ∃ coda,
    findToneTarget modernOrtho states =
      (computeTonePosition ((firstVowels states).map fun i =>
        compose { charAt states i with tone := .none, isUpper := false }) coda modernOrtho).bind
          ((firstVowels states)[·]?) := by
  obtain ⟨last, hlast⟩ := Option.isSome_iff_exists.1 (List.getLast?_isSome.2 hne)
  unfold findToneTarget
  dsimp only
  rw [toneVowelIdxs_eq_firstVowels, hlast]
  dsimp only
  generalize (List.filter _ _).take kVowelCap = coda
  refine ⟨coda, ?_⟩
  generalize computeTonePosition _ coda modernOrtho = position
  cases position with
  | none => rfl
  | some q => rfl

/-- The target: the last vowel with a horn, or the first with a circumflex or a breve, or any. -/
lemma findToneTarget_firstVowels (hne : firstVowels states ≠ []) :
    ∃ i ∈ firstVowels states, findToneTarget modernOrtho states =
      (((firstVowels states).filter fun k => shownMark states k == .horn).getLast?.or
        ((firstVowels states).filter fun k =>
          shownMark states k == .circumflex || shownMark states k == .breve).head?).or (some i) := by
  obtain ⟨coda, htarget⟩ := @findToneTarget_eq _ modernOrtho states hne
  rw [htarget]
  have hvowel : ∀ k ∈ firstVowels states, (charAt states k).isVowel := fun k hk =>
    (Bool.and_eq_true_iff.1 (mem_firstVowels hk).2).1
  have hlen : (firstVowels states).length ≤ kVowelCap := List.length_take_le _ _
  have hvowels := decompose_vowels hlen hvowel
  unfold computeTonePosition
  dsimp only
  rw [hvowels]
  generalize firstVowels states = idxs at hne ⊢
  have hmark : ∀ k i, idxs[k]? = some i →
      ((idxs.map fun k => rendered (charAt states k)).getD k ('\x00', .none)).2 =
        shownMark states i := by
    intro k i hk
    rw [List.getD_eq_getElem?_getD, List.getElem?_map, hk]
    rfl
  have hhorn := getElem?_lastIdx? (l := idxs)
    (q := fun k => ((idxs.map fun k => rendered (charAt states k)).getD k ('\x00', .none)).2 == .horn)
    (p := fun k => shownMark states k == .horn) fun k i hk => by rw [hmark k i hk]
  have hother := getElem?_firstIdx? (l := idxs)
    (q := fun k =>
      ((idxs.map fun k => rendered (charAt states k)).getD k ('\x00', .none)).2 == .circumflex ||
        ((idxs.map fun k => rendered (charAt states k)).getD k ('\x00', .none)).2 == .breve)
    (p := fun k => shownMark states k == .circumflex || shownMark states k == .breve) fun k i hk => by
      rw [hmark k i hk]
  rw [if_neg (by rwa [List.map_eq_nil_iff]), List.length_map, ← hhorn, ← hother]
  have hbases : (idxs.map fun k => rendered (charAt states k)).map (·.1) ≠ [] := by
    simpa using hne
  have hposition := @diphthongPosition_lt _ hbases (!coda.isEmpty) modernOrtho
  generalize diphthongPosition ((idxs.map fun k => rendered (charAt states k)).map (·.1))
    (!coda.isEmpty) modernOrtho = position at hposition
  rw [List.length_map, List.length_map] at hposition
  refine ⟨idxs[position], List.getElem_mem hposition, ?_⟩
  cases hlast : lastIdx? idxs.length fun k =>
      ((idxs.map fun k => rendered (charAt states k)).getD k ('\x00', .none)).2 == .horn with
  | some k =>
    have hk := (lastIdx?_eq_some hlast).1
    simp only [Option.bind_some, List.getElem?_eq_getElem hk, Option.some_or]
  | none =>
    simp only [Option.bind_none, Option.none_or]
    cases hfirst : firstIdx? idxs.length fun k =>
        ((idxs.map fun k => rendered (charAt states k)).getD k ('\x00', .none)).2 == .circumflex ||
          ((idxs.map fun k => rendered (charAt states k)).getD k ('\x00', .none)).2 == .breve with
    | some k =>
      have hk := (firstIdx?_eq_some hfirst).1
      simp only [Option.bind_some, List.getElem?_eq_getElem hk, Option.some_or]
    | none =>
      simp only [Option.bind_none, Option.none_or, Option.bind_some, List.getElem?_eq_getElem hposition]

/-- The placement by the marks that are shown. -/
lemma placed_shown : Placed states (shownMark states) (findToneTarget modernOrtho states) where
  none_iff := by
    rw [← firstVowels_eq_nil]
    constructor
    · intro hnone
      by_contra hne
      obtain ⟨i, -, heq⟩ := @findToneTarget_firstVowels _ modernOrtho states hne
      rw [hnone] at heq
      simp at heq
    · intro hnil
      unfold findToneTarget
      rw [toneVowelIdxs_eq_firstVowels, hnil]
      rfl
  nucleus i h := by
    obtain ⟨hlt, hvowel, hcluster⟩ := findToneTarget_eq_some h
    exact ⟨hlt, by rw [nucleusVowel, hvowel, hcluster]; rfl⟩
  horn i h := by
    have hne : firstVowels states ≠ [] := by
      intro hnil
      rw [hnil] at h
      cases h
    obtain ⟨j, -, heq⟩ := @findToneTarget_firstVowels _ modernOrtho states hne
    rw [heq, h]
    rfl
  other hnil i h := by
    have hne : firstVowels states ≠ [] := by
      intro hnil
      rw [hnil] at h
      cases h
    obtain ⟨j, -, heq⟩ := @findToneTarget_firstVowels _ modernOrtho states hne
    rw [heq, hnil, h]
    rfl

omit [WideLocale] in
/-- Where the vowels have fitting marks, their marks are shown. -/
lemma shownMark_eq (h : FittingMarks states) {i} (hi : i ∈ firstVowels states) :
    shownMark states i = (charAt states i).mod := by
  obtain ⟨hlt, hvowel⟩ := mem_firstVowels hi
  have hv : (charAt states i).isVowel = true := (Bool.and_eq_true_iff.1 hvowel).1
  have hlegal := h (charAt states i) (Phonology.charAt_mem hlt) hv
  rw [shownMark, rendered]
  split
  · rfl
  · next hnone => exact (hlegal.resolve_right hnone).symm

/-- The placement by the modifiers. -/
lemma FittingMarks.placed (h : FittingMarks states) :
    Placed states (fun i => (charAt states i).mod) (findToneTarget modernOrtho states) := by
  have hcongr : ∀ p : Modifier → Bool, ((firstVowels states).filter fun k => p (charAt states k).mod) =
      (firstVowels states).filter fun k => p (shownMark states k) := fun p =>
    List.filter_congr fun k hk => by rw [shownMark_eq h hk]
  obtain ⟨hnone, hnucleus, hhorn, hother⟩ := @placed_shown _ modernOrtho states
  refine ⟨hnone, hnucleus, ?_, ?_⟩
  · rw [hcongr (· == .horn)]
    exact hhorn
  · rw [hcongr (· == .horn), hcongr fun m => m == .circumflex || m == .breve]
    exact hother

/-- In any buffer the tone is placed by the marks that the vowels show, and in every buffer that the
    engine reaches these are their modifiers. -/
theorem findToneTarget_placed (modernOrtho : Bool) :
    (∀ states, Placed states (shownMark states) (findToneTarget modernOrtho states)) ∧
    ∀ st : EngineState, st.Reachable →
      Placed st.states (fun i => (charAt st.states i).mod) (findToneTarget modernOrtho st.states) :=
  ⟨fun _ => placed_shown, fun _ h => h.fittingMarks.placed⟩

end Locale

end NextKey
