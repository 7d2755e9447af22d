import NextKey.Engine.State
import NextKey.Engine.Syllable

/-!
# The verdict without the tone

The validator reads the tone in two places: a stop final refuses grave, hook and tilde, and
`CheckToneModInvariant` wants the tone on a modified vowel. Everything else is decided by letters and
modifiers, so buffers that only differ in their tones have the same onsets, nuclei and finals.
-/

namespace NextKey.Phonology

/-- A state without its tone and the key of the tone. -/
def untone (s : CharState) : CharState := { s with tone := .none, toneRawIdx := none }

/-- What does not look at the tones is the same. -/
lemma map_congr_untone {β : Type} {l l' : List CharState} (g : CharState → β)
    (hg : ∀ s, g (untone s) = g s) (h : l'.map untone = l.map untone) : l'.map g = l.map g := by
  have hcomp : ∀ l : List CharState, l.map g = (l.map untone).map g := by
    intro l
    rw [List.map_map]
    exact List.map_congr_left fun s _ => (hg s).symm
  rw [hcomp, hcomp l, h]

/-- The bases do not look at the tones. -/
lemma base_eq_of_untone {s t : CharState} (h : untone s = untone t) : s.base = t.base := by
  simpa [untone] using congrArg CharState.base h

/-- Nor do the marks. -/
lemma mod_eq_of_untone {s t : CharState} (h : untone s = untone t) : s.mod = t.mod := by
  simpa [untone] using congrArg CharState.mod h

/-- Moving the tone does not move the nucleus. -/
lemma Split.congr {rest rest' nucleus final : List CharState} (hs : Split rest nucleus final)
    (h : rest'.map untone = rest.map untone) : ∃ nucleus' final', Split rest' nucleus' final' ∧
      nucleus'.map untone = nucleus.map untone ∧ final'.map untone = final.map untone := by
  rw [hs.eq] at h
  obtain ⟨nucleus', final', rfl, hn, hf⟩ := List.map_eq_append_iff.1 (h.trans List.map_append)
  refine ⟨nucleus', final', ⟨rfl, ?_, ?_⟩, hn, hf⟩
  · intro v hv
    have hmem : v.isVowel ∈ nucleus'.map (·.isVowel) := List.mem_map_of_mem hv
    rw [map_congr_untone (·.isVowel) (fun _ => rfl) hn] at hmem
    obtain ⟨w, hw, hwv⟩ := List.mem_map.1 hmem
    rw [← hwv]
    exact hs.vowels w hw
  · intro f hfm
    rcases final' with _ | ⟨f', final'⟩
    · simp at hfm
    · obtain rfl : f' = f := by simpa using hfm
      obtain ⟨g, rest, hg, hgf, -⟩ := List.map_eq_cons_iff.1 hf.symm
      rw [isVowel_congr (base_eq_of_untone hgf.symm)]
      exact hs.stop g (by rw [hg]; rfl)

end NextKey.Phonology
