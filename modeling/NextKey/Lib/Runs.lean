import Mathlib.Data.List.Basic
import Mathlib.Data.List.TakeWhile
import Mathlib.Tactic.Lemma
import Mathlib.Tactic.TypeStar

/-!
# Runs of a list

Two maximal runs of the elements that satisfy a predicate, with a gap of other elements between them, and
how a scan from the left comes to them: elements in front of the first run are skipped, and past that run
and the gap behind it the same question is asked of what is left.
-/

variable {α : Type*} {p : α → Bool} {a : α} {l run first gap second : List α}

/-- Two maximal runs of `p`, with nothing but other elements between them. -/
structure Flanked (p : α → Bool) (l first gap second : List α) : Prop where
  first_ne_nil : first ≠ []
  gap_ne_nil : gap ≠ []
  second_ne_nil : second ≠ []
  first_run : ∀ a ∈ first, p a = true
  gap_run : ∀ a ∈ gap, p a = false
  second_run : ∀ a ∈ second, p a = true
  /-- Neither run goes on to the other side. -/
  maximal : ∃ before after, l = before ++ (first ++ (gap ++ (second ++ after))) ∧
    (∀ a ∈ before.getLast?, p a = false) ∧ ∀ a ∈ after.head?, p a = false

namespace List

/-- A run ends where an element fails the predicate. -/
lemma takeWhile_append_of_head (hrun : ∀ a ∈ run, p a = true) (hl : ∀ a ∈ l.head?, p a = false) :
    (run ++ l).takeWhile p = run := by
  rw [takeWhile_append_of_pos hrun]
  cases l with
  | nil => exact append_nil run
  | cons a l => rw [takeWhile_cons_of_neg (by simp [hl a rfl]), append_nil]

/-- A run is dropped whole. -/
lemma dropWhile_append_of_head (hrun : ∀ a ∈ run, p a = true) (hl : ∀ a ∈ l.head?, p a = false) :
    (run ++ l).dropWhile p = l := by
  rw [dropWhile_append_of_pos hrun]
  cases l with
  | nil => rfl
  | cons a l => rw [dropWhile_cons_of_neg (by simp [hl a rfl])]

/-- What a run leaves starts with an element that fails the predicate. -/
lemma eq_false_of_mem_head?_dropWhile (ha : a ∈ (l.dropWhile p).head?) : p a = false := by
  have hhead := head?_dropWhile_not p l
  rw [Option.mem_def.1 ha] at hhead
  exact hhead

/-- Of a run the last element satisfies the predicate. -/
lemma exists_getLast?_of_run (hne : run ≠ []) (hrun : ∀ a ∈ run, p a = true) :
    ∃ a ∈ run.getLast?, p a = true :=
  ⟨run.getLast hne, getLast?_eq_some_getLast hne, hrun _ (getLast_mem hne)⟩

end List

namespace Flanked

/-- Nothing is flanked. -/
lemma not_nil : ¬Flanked p [] first gap second := by
  intro h
  obtain ⟨before, after, heq, -⟩ := h.maximal
  obtain ⟨-, hrest⟩ := List.append_eq_nil_iff.1 heq.symm
  exact h.first_ne_nil (List.append_eq_nil_iff.1 hrest).1

/-- The gap does not start with an element of the run in front of it. -/
lemma head_gap (h : Flanked p l first gap second) {rest : List α} :
    ∀ a ∈ (gap ++ rest).head?, p a = false := by
  intro a ha
  obtain ⟨b, gap', rfl⟩ := List.exists_cons_of_ne_nil h.gap_ne_nil
  cases ha
  exact h.gap_run _ (.head _)

/-- An element that belongs to no run is skipped. -/
lemma cons_iff (ha : p a = false) :
    Flanked p (a :: l) first gap second ↔ Flanked p l first gap second := by
  constructor
  · intro h
    obtain ⟨before, after, heq, hbefore, hafter⟩ := h.maximal
    cases before with
    | nil =>
      -- the first run cannot start with it
      obtain ⟨b, rest, rfl⟩ := List.exists_cons_of_ne_nil h.first_ne_nil
      cases heq
      have hb := h.first_run a (.head _)
      rw [ha] at hb
      cases hb
    | cons b before =>
      obtain ⟨rfl, rfl⟩ := List.cons.inj heq
      refine { h with maximal := ⟨before, after, rfl, fun c hc => hbefore c ?_, hafter⟩ }
      cases before with
      | nil => cases hc
      | cons d before => rwa [List.getLast?_cons_cons]
  · intro h
    obtain ⟨before, after, rfl, hbefore, hafter⟩ := h.maximal
    refine { h with maximal := ⟨a :: before, after, rfl, fun c hc => ?_, hafter⟩ }
    cases before with
    | nil =>
      cases hc
      exact ha
    | cons d before => exact hbefore c (by rwa [List.getLast?_cons_cons] at hc)

/-- What is skipped does not matter. -/
lemma append_iff {skip : List α} (hskip : ∀ a ∈ skip, p a = false) :
    Flanked p (skip ++ l) first gap second ↔ Flanked p l first gap second := by
  induction skip with
  | nil => exact Iff.rfl
  | cons a skip ih =>
    rw [List.cons_append, cons_iff (hskip a (.head _)), ih fun b hb => hskip b (.tail _ hb)]

/-- A run at the start with the gap and the run behind it. -/
lemma of_start (hne : run ≠ []) (hrun : ∀ a ∈ run, p a = true) (hl : ∀ a ∈ l.head?, p a = false)
    (hnext : l.dropWhile (!p ·) ≠ []) :
    Flanked p (run ++ l) run (l.takeWhile (!p ·)) ((l.dropWhile (!p ·)).takeWhile p) where
  first_ne_nil := hne
  gap_ne_nil := by
    cases l with
    | nil => exact (hnext rfl).elim
    | cons a l =>
      rw [List.takeWhile_cons_of_pos (by simp [hl a rfl])]
      exact List.cons_ne_nil _ _
  second_ne_nil := by
    obtain ⟨a, next, hcons⟩ := List.exists_cons_of_ne_nil hnext
    have ha : (!p a) = false :=
      @List.eq_false_of_mem_head?_dropWhile _ (!p ·) _ l (by rw [hcons]; rfl)
    rw [hcons, List.takeWhile_cons_of_pos (by simpa using ha)]
    exact List.cons_ne_nil _ _
  first_run := hrun
  gap_run a ha := by simpa using List.mem_takeWhile_imp ha
  second_run _ ha := List.mem_takeWhile_imp ha
  maximal := by
    refine ⟨[], (l.dropWhile (!p ·)).dropWhile p, ?_, ?_, ?_⟩
    · rw [List.takeWhile_append_dropWhile, List.takeWhile_append_dropWhile, List.nil_append]
    · intro a ha
      cases ha
    · intro a ha
      exact List.eq_false_of_mem_head?_dropWhile ha

/-- Two runs of which the first is at the start are the ones a scan meets. -/
lemma start_eq (h : Flanked p (run ++ l) first gap second) (hrun : ∀ a ∈ run, p a = true)
    (hl : ∀ a ∈ l.head?, p a = false) {after : List α}
    (heq : run ++ l = first ++ (gap ++ (second ++ after))) :
    first = run ∧ gap = l.takeWhile (!p ·) ∧ l.dropWhile (!p ·) ≠ [] := by
  have hfirst : first = run := by
    rw [← List.takeWhile_append_of_head hrun hl, heq,
      List.takeWhile_append_of_head h.first_run h.head_gap]
  have hl' : l = gap ++ (second ++ after) := by
    rw [← List.dropWhile_append_of_head hrun hl, heq,
      List.dropWhile_append_of_head h.first_run h.head_gap]
  obtain ⟨b, second', hsecond⟩ := List.exists_cons_of_ne_nil h.second_ne_nil
  have hb : p b = true := h.second_run b (hsecond ▸ .head _)
  have hgap : ∀ a ∈ gap, (!p a) = true := fun a ha => by rw [h.gap_run a ha]; rfl
  have hhead : ∀ a ∈ (second ++ after).head?, (!p a) = false := by
    intro a ha
    rw [hsecond] at ha
    cases ha
    rw [hb]
    rfl
  refine ⟨hfirst, ?_, ?_⟩
  · rw [hl', List.takeWhile_append_of_head hgap hhead]
  · rw [hl', List.dropWhile_append_of_head hgap hhead, hsecond]
    exact List.cons_ne_nil _ _

/-- Two runs in a list that starts with a run start with it or stand behind it. -/
lemma behind_run (h : Flanked p (run ++ l) first gap second) (hne : run ≠ [])
    (hrun : ∀ a ∈ run, p a = true) (hl : ∀ a ∈ l.head?, p a = false) :
    (first = run ∧ gap = l.takeWhile (!p ·) ∧ l.dropWhile (!p ·) ≠ []) ∨
      Flanked p l first gap second := by
  obtain ⟨before, after, heq, hbefore, hafter⟩ := h.maximal
  by_cases hstart : before = []
  · rw [hstart, List.nil_append] at heq
    exact .inl (h.start_eq hrun hl heq)
  · -- the elements in front do not end within the run
    have houtside : ∀ {rest}, run ≠ before ++ rest := by
      rintro rest rfl
      obtain ⟨a, ha, hpa⟩ := List.exists_getLast?_of_run hstart fun a ha =>
        hrun a (List.mem_append_left rest ha)
      rw [hbefore a ha] at hpa
      cases hpa
    rcases List.append_eq_append_iff.1 heq with ⟨between, rfl, rfl⟩ | ⟨rest, hrest, -⟩
    · have hbetween : between ≠ [] := by
        rintro rfl
        exact @houtside [] (by rw [List.append_nil, List.append_nil])
      rw [List.getLast?_append_of_ne_nil _ hbetween] at hbefore
      exact .inr { h with maximal := ⟨between, after, rfl, hbefore, hafter⟩ }
    · exact (houtside hrest).elim

/-- A run in front of two others keeps them apart from it. -/
lemma append_run (h : Flanked p l first gap second) (hl : ∀ a ∈ l.head?, p a = false) :
    Flanked p (run ++ l) first gap second := by
  obtain ⟨before, after, rfl, hbefore, hafter⟩ := h.maximal
  refine { h with maximal := ⟨run ++ before, after, (List.append_assoc ..).symm, ?_, hafter⟩ }
  have hstart : before ≠ [] := by
    rintro rfl
    obtain ⟨b, rest, hfirst⟩ := List.exists_cons_of_ne_nil h.first_ne_nil
    have hb := h.first_run b (hfirst ▸ .head _)
    rw [hl b (by rw [hfirst]; rfl)] at hb
    cases hb
  rwa [List.getLast?_append_of_ne_nil _ hstart]

/-- Past a run and its gap less of the list is left. -/
lemma length_lt {tail : List α} (htail : tail = (l.dropWhile (!p ·)).dropWhile p)
    (hnext : tail.dropWhile (!p ·) ≠ []) : (tail.dropWhile (!p ·)).length < l.length := by
  have hle : tail.length ≤ l.length := by
    rw [htail]
    exact ((List.dropWhile_suffix _).trans (List.dropWhile_suffix _)).length_le
  cases htl : tail with
  | nil =>
    rw [htl] at hnext
    exact (hnext rfl).elim
  | cons a tail' =>
    have ha : p a = false :=
      List.eq_false_of_mem_head?_dropWhile (l := l.dropWhile (!p ·)) (by rw [← htail, htl]; rfl)
    rw [htl, List.length_cons] at hle
    rw [List.dropWhile_cons_of_pos (by simp [ha])]
    exact Nat.lt_of_le_of_lt (List.dropWhile_suffix _).length_le hle

/-- One round of a scan for two runs of which the first and the gap satisfy `P`: it drops what is in front
    of a run, looks at the run and its gap, and goes on behind them. -/
lemma exists_iff {P : List α → List α → Prop} {rest tail next : List α}
    (hrest : rest = l.dropWhile (!p ·)) (htail : tail = rest.dropWhile p)
    (hnext : next = tail.dropWhile (!p ·)) :
    (∃ first gap second, Flanked p l first gap second ∧ P first gap) ↔
      next ≠ [] ∧ (P (rest.takeWhile p) (tail.takeWhile (!p ·)) ∨
        ∃ first gap second, Flanked p next first gap second ∧ P first gap) := by
  have hskip : ∀ {l first gap second}, Flanked p l first gap second ↔
      Flanked p (l.dropWhile (!p ·)) first gap second := by
    intro l first gap second
    have hsplit := @append_iff _ p (l.dropWhile (!p ·)) first gap second (l.takeWhile (!p ·))
      fun a ha => by simpa using List.mem_takeWhile_imp ha
    rwa [List.takeWhile_append_dropWhile] at hsplit
  have hsplit : rest.takeWhile p ++ tail = rest := by rw [htail, List.takeWhile_append_dropWhile]
  -- what is left behind the skipped elements is nothing or starts with a run
  have hstart : rest ≠ [] → rest.takeWhile p ≠ [] := by
    intro hne
    obtain ⟨a, rest', hcons⟩ := List.exists_cons_of_ne_nil hne
    have ha : (!p a) = false :=
      @List.eq_false_of_mem_head?_dropWhile _ (!p ·) _ l (by rw [← hrest, hcons]; rfl)
    rw [hcons, List.takeWhile_cons_of_pos (by simpa using ha)]
    exact List.cons_ne_nil _ _
  have hrun : ∀ a ∈ rest.takeWhile p, p a = true := fun a ha => List.mem_takeWhile_imp ha
  have hl : ∀ a ∈ tail.head?, p a = false := by
    intro a ha
    rw [htail] at ha
    exact List.eq_false_of_mem_head?_dropWhile ha
  constructor
  · rintro ⟨first, gap, second, h, hP⟩
    rw [hskip, ← hrest] at h
    have hne : rest ≠ [] := fun hnil => not_nil (hnil ▸ h)
    rw [← hsplit] at h
    rcases h.behind_run (hstart hne) hrun hl with ⟨rfl, rfl, hnext'⟩ | h
    · exact ⟨hnext ▸ hnext', .inl hP⟩
    · rw [hskip, ← hnext] at h
      exact ⟨fun hnil => not_nil (hnil ▸ h), .inr ⟨first, gap, second, h, hP⟩⟩
  · rintro ⟨hne, hP | ⟨first, gap, second, h, hP⟩⟩
    · have hne' : rest ≠ [] := by
        rintro rfl
        rw [hnext, htail] at hne
        exact hne rfl
      refine ⟨rest.takeWhile p, tail.takeWhile (!p ·), next.takeWhile p, ?_, hP⟩
      have h := of_start (hstart hne') hrun hl (hnext ▸ hne)
      rwa [hsplit, hrest, ← hskip, ← hrest, ← hnext] at h
    · refine ⟨first, gap, second, ?_, hP⟩
      rw [hskip, ← hrest, ← hsplit]
      refine append_run ?_ hl
      rwa [hskip, ← hnext]

end Flanked
