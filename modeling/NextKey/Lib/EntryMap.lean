import Mathlib.Data.List.Basic
import Mathlib.Data.List.Induction
import Mathlib.Data.List.Perm.Basic
import Mathlib.Data.List.Nodup
import Mathlib.Logic.Function.Basic
import Mathlib.Order.Lattice
import Mathlib.Tactic.Lemma
import Mathlib.Tactic.TypeStar

/-!
# Maps built by assignment

A map is what it has under each key. Entries assigned one after the other make a map; when their keys are
distinct, it does not matter in which order.
-/

variable {κ β : Type*} [DecidableEq κ]

/-- What a map has under each key. -/
abbrev EntryMap (κ β : Type*) := κ → Option β

namespace EntryMap

/-- The map that assigning these entries to an empty one leaves. -/
def ofEntries (entries : List (κ × β)) : EntryMap κ β :=
  entries.foldl (fun data entry => Function.update data entry.1 (some entry.2)) fun _ => none

variable {entries entries' : List (κ × β)} {entry : κ × β}

/-- Of distinct keys a map has its entries. -/
lemma ofEntries_eq_some (h : (entries.map (·.1)).Nodup) :
    ofEntries entries entry.1 = some entry.2 ↔ entry ∈ entries := by
  induction entries using List.reverseRecOn with
  | nil => exact iff_of_false nofun List.not_mem_nil
  | append_singleton entries last ih =>
    rw [List.map_append, List.nodup_append] at h
    obtain ⟨hentries, -, hdistinct⟩ := h
    have hnew : ∀ e ∈ entries, e.1 ≠ last.1 := fun e he =>
      hdistinct e.1 (List.mem_map_of_mem he) last.1 (List.mem_singleton_self _)
    unfold ofEntries at ih ⊢
    rw [List.foldl_append, List.foldl_cons, List.foldl_nil, List.mem_append, List.mem_singleton]
    by_cases hkey : entry.1 = last.1
    · have hold : entry ∉ entries := fun he => hnew entry he hkey
      rw [hkey, Function.update_self, Option.some.injEq, or_iff_right hold]
      exact ⟨fun hvalue => Prod.ext hkey hvalue.symm, fun heq => by rw [heq]⟩
    · rw [Function.update_of_ne hkey, ih hentries]
      refine (or_iff_left ?_).symm
      rintro rfl
      exact hkey rfl

/-- A key without an entry. -/
lemma ofEntries_eq_none (h : (entries.map (·.1)).Nodup) {key : κ} :
    ofEntries entries key = none ↔ key ∉ entries.map (·.1) := by
  rw [Option.eq_none_iff_forall_ne_some]
  constructor
  · intro hnone hmem
    obtain ⟨e, he, rfl⟩ := List.mem_map.1 hmem
    exact hnone e.2 ((ofEntries_eq_some h).2 he)
  · intro hmem value hvalue
    have he := (@ofEntries_eq_some _ _ _ entries (key, value) h).1 hvalue
    exact hmem (List.mem_map_of_mem he)

/-- The order in which distinct keys are assigned does not matter. -/
lemma ofEntries_perm (hperm : entries.Perm entries') (h : (entries.map (·.1)).Nodup) :
    ofEntries entries = ofEntries entries' := by
  have h' : (entries'.map (·.1)).Nodup := (hperm.map _).nodup_iff.1 h
  funext key
  apply Option.ext
  intro value
  have hiff := (@ofEntries_eq_some _ _ _ entries (key, value) h).trans
    (hperm.mem_iff.trans (@ofEntries_eq_some _ _ _ entries' (key, value) h').symm)
  exact hiff

end EntryMap

/-- Of an ascending list the first ones are those with few below them. -/
lemma List.take_eq_filter_of_ascending {α ι : Type*} [LinearOrder ι] {f : α → ι} {l : List α}
    (h : l.Pairwise (f · < f ·)) (n : Nat) :
    l.take n = l.filter fun a => decide (l.countP (fun b => decide (f b < f a)) < n) := by
  induction l generalizing n with
  | nil => rw [List.take_nil, List.filter_nil]
  | cons a l ih =>
    obtain ⟨ha, hl⟩ := List.pairwise_cons.1 h
    have hfirst : (a :: l).countP (fun b => decide (f b < f a)) = 0 := by
      rw [List.countP_eq_zero]
      intro b hb
      obtain rfl | hb := List.mem_cons.1 hb
      · simp
      · simpa using le_of_lt (ha b hb)
    cases n with
    | zero => simp
    | succ n =>
      have hrest : ∀ b ∈ l, (a :: l).countP (fun c => decide (f c < f b)) =
          l.countP (fun c => decide (f c < f b)) + 1 := fun b hb =>
        List.countP_cons_of_pos (by simpa using ha b hb)
      rw [List.take_succ_cons, ih hl n, List.filter_cons_of_pos (by simp [hfirst])]
      refine congrArg (a :: ·) (List.filter_congr fun b hb => ?_)
      rw [hrest b hb]
      simp
