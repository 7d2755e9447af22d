import Mathlib.Data.List.Induction
import Mathlib.Data.List.Nodup
import Mathlib.Logic.Function.Basic
import Mathlib.Tactic.Lemma

/-!
# Codes of one or two units

A text is encoded symbol by symbol, each symbol as one unit or as two, with nothing in between, and is
read back by trying two units first. Reading gives the text back when no single unit is followed by a
unit that would complete a pair. The tables for reading are the inverse of the table for writing,
filled in some order; where several symbols have one code a preferred one is kept.
-/

/-- A code of one unit or two. -/
structure PairCode (υ : Type*) where
  first : υ
  second : Option υ

namespace PairCode

variable {υ σ : Type*}

/-- The units in their order. -/
def units (c : PairCode υ) : List υ := c.first :: c.second.toList

/-- Reading back, pairs first. -/
def decode (pair : υ → υ → Option σ) (single : υ → σ) : List υ → List σ
  | [] => []
  | [u] => [single u]
  | u :: v :: rest =>
    match pair u v with
    | some a => a :: decode pair single rest
    | none => single u :: decode pair single (v :: rest)

variable {pair : υ → υ → Option σ} {single : υ → σ}

/-- A pair is read first. -/
lemma decode_of_pair {u v a} {rest : List υ} (h : pair u v = some a) :
    decode pair single (u :: v :: rest) = a :: decode pair single rest := by
  rw [decode, h]

/-- A single unit is read as such when what follows does not complete a pair. -/
lemma decode_of_single {u} {rest : List υ} (h : ∀ v ∈ rest.head?, pair u v = none) :
    decode pair single (u :: rest) = single u :: decode pair single rest := by
  cases rest with
  | nil => simp [decode]
  | cons v rest => rw [decode, h v rfl]

/-- What is read of a text is not nothing. -/
lemma decode_ne_nil {text : List υ} (h : text ≠ []) : decode pair single text ≠ [] := by
  cases text with
  | nil => exact absurd rfl h
  | cons u rest =>
    cases rest with
    | nil => simp [decode]
    | cons v rest =>
      rw [decode]
      split <;> exact List.cons_ne_nil _ _

/-- A unit that completes no pair starts a symbol: what is in front of it is read by itself. -/
lemma decode_append {front rest : List υ} (h : ∀ v ∈ rest.head?, ∀ u, pair u v = none) :
    decode pair single (front ++ rest) = decode pair single front ++ decode pair single rest := by
  induction front using decode.induct pair with
  | case1 => rfl
  | case2 u =>
    show decode pair single (u :: rest) = [single u] ++ _
    rw [decode_of_single fun v hv => h v hv u]
    rfl
  | case3 u v front a ha ih =>
    rw [List.cons_append, List.cons_append, decode_of_pair ha, decode_of_pair ha, ih]
    rfl
  | case4 u v front hnone ih =>
    rw [List.cons_append, decode_of_single, decode_of_single, ih]
    · rfl
    · simpa using hnone
    · simpa using hnone

/-- A text of blocks none of which starts with a unit that completes a pair is read block by block. -/
lemma decode_flatMap {α : Type*} {block : α → List υ} {l : List α}
    (h : ∀ a ∈ l, ∀ v ∈ (block a).head?, ∀ u, pair u v = none) :
    decode pair single (l.flatMap block) = l.flatMap fun a => decode pair single (block a) := by
  induction l with
  | nil => rfl
  | cons a l ih =>
    rw [List.flatMap_cons, List.flatMap_cons, decode_append, ih fun b hb => h b (.tail _ hb)]
    intro v hv
    rw [List.head?_flatMap] at hv
    obtain ⟨b, hb, hbv⟩ := List.exists_of_findSome?_eq_some hv
    exact h b (.tail _ hb) v hbv

/-- The code of a symbol can be read back in front of the code of any other symbol of a text. -/
def Readable (pair : υ → υ → Option σ) (single : υ → σ) (code : σ → PairCode υ) (text : List σ)
    (a : σ) : Prop :=
  match (code a).second with
  | some v => pair (code a).first v = some a
  | none => single (code a).first = a ∧ ∀ b ∈ text, pair (code a).first (code b).first = none

/-- What is readable before a text is so before a longer one. -/
lemma Readable.mono {code : σ → PairCode υ} {text text' : List σ} {a}
    (h : Readable pair single code text a) (hsub : ∀ b ∈ text', b ∈ text) :
    Readable pair single code text' a := by
  unfold Readable at *
  cases hs : (code a).second with
  | some v => simpa only [hs] using h
  | none =>
    rw [hs] at h
    exact ⟨h.1, fun b hb => h.2 b (hsub b hb)⟩

/-- The first unit of an encoded text is the first unit of the code of its first symbol. -/
lemma head?_flatMap_units (code : σ → PairCode υ) (text : List σ) :
    (text.flatMap fun a => (code a).units).head? = text.head?.map fun a => (code a).first := by
  cases text with
  | nil => rfl
  | cons a text => simp [units]

/-- Reading gives the text back. -/
theorem decode_flatMap_units (code : σ → PairCode υ) (text : List σ)
    (h : ∀ a ∈ text, Readable pair single code text a) :
    decode pair single (text.flatMap fun a => (code a).units) = text := by
  induction text with
  | nil => rfl
  | cons a text ih =>
    have hrest := ih fun b hb => (h b (.tail _ hb)).mono fun c hc => .tail _ hc
    have ha := h a (.head _)
    unfold Readable at ha
    rw [List.flatMap_cons]
    cases hs : (code a).second with
    | some v =>
      rw [hs] at ha
      rw [show (code a).units = [(code a).first, v] by simp [units, hs], List.cons_append,
        List.cons_append, List.nil_append, decode_of_pair ha, hrest]
    | none =>
      rw [hs] at ha
      obtain ⟨hsingle, hnext⟩ := ha
      rw [show (code a).units = [(code a).first] by simp [units, hs], List.cons_append,
        List.nil_append, decode_of_single, hsingle, hrest]
      intro v hv
      rw [head?_flatMap_units] at hv
      obtain ⟨b, hb, rfl⟩ := Option.map_eq_some_iff.1 hv
      exact hnext b (.tail _ (List.mem_of_mem_head? hb))

end PairCode

namespace List

variable {α β : Type*} {f g : α → List β} {l : List α}

/-- Two texts written symbol by symbol, each symbol with as many units in one as in the other, are
    equal only when every symbol is written the same. -/
lemma flatMap_inj_iff_of_length (hlen : ∀ a ∈ l, (f a).length = (g a).length) :
    l.flatMap f = l.flatMap g ↔ ∀ a ∈ l, f a = g a := by
  induction l with
  | nil => simp
  | cons a l ih =>
    have hrest := ih fun b hb => hlen b (.tail _ hb)
    rw [flatMap_cons, flatMap_cons, forall_mem_cons, ← hrest]
    constructor
    · intro h
      exact append_inj h (hlen a (.head _))
    · rintro ⟨ha, htext⟩
      rw [ha, htext]

/-- A code is no shorter than its text. -/
lemma length_le_length_flatMap (hne : ∀ a ∈ l, f a ≠ []) : l.length ≤ (l.flatMap f).length := by
  induction l with
  | nil => exact Nat.zero_le _
  | cons a l ih =>
    have hrest := ih fun b hb => hne b (.tail _ hb)
    have ha := length_pos_iff.2 (hne a (.head _))
    rw [flatMap_cons, length_append, length_cons]
    omega

/-- What every symbol adds at least one unit to is a symbol for a symbol only when each adds one. -/
lemma flatMap_eq_map_iff {h : α → β} (hne : ∀ a ∈ l, f a ≠ []) :
    l.flatMap f = l.map h ↔ ∀ a ∈ l, f a = [h a] := by
  constructor
  · induction l with
    | nil => simp
    | cons a l ih =>
      intro heq
      obtain ⟨b, bs, hb⟩ := exists_cons_of_ne_nil (hne a (.head _))
      have hrest := fun c hc => hne c (.tail _ hc)
      rw [flatMap_cons, hb, map_cons, cons_append, cons.injEq] at heq
      obtain ⟨rfl, htail⟩ := heq
      -- The rest alone is as long as the symbols that are left.
      have hlen := length_le_length_flatMap hrest
      have hbs : bs = [] := by
        have := congrArg length htail
        simp only [length_append, length_map] at this
        exact length_eq_zero_iff.1 (by omega)
      subst hbs
      rw [forall_mem_cons]
      exact ⟨hb, ih hrest htail⟩
  · intro heq
    rw [flatMap_congr heq, ← map_eq_flatMap]

end List

section Inverse

variable {κ ν : Type*}

/-- A value is filed under its key unless there is one already; one that is preferred replaces one
    that is not. -/
def filePreferred [DecidableEq κ] (prefer : ν → Bool) (rev : κ → Option ν) (key : κ) (v : ν) :
    κ → Option ν :=
  match rev key with
  | none => Function.update rev key (some v)
  | some w => if prefer v && !prefer w then Function.update rev key (some v) else rev

/-- What a table holds after some entries have been filed: under each key one of the values filed
    there, and a preferred one if there was one. -/
structure Filed (prefer : ν → Bool) (entries : List (κ × ν)) (rev : κ → Option ν) : Prop where
  mem : ∀ k v, rev k = some v → (k, v) ∈ entries
  some_of_mem : ∀ k v, (k, v) ∈ entries → ∃ w, rev k = some w ∧ (prefer v = true → prefer w = true)

/-- Nothing is filed. -/
lemma Filed.nil (prefer : ν → Bool) : Filed prefer ([] : List (κ × ν)) fun _ => none where
  mem := by simp
  some_of_mem := by simp

section Snoc

variable {prefer : ν → Bool} {entries : List (κ × ν)} {rev : κ → Option ν} {key : κ} {v : ν}

/-- One more entry, passed over for a value that is there already. -/
lemma Filed.skip (h : Filed prefer entries rev) {old : ν} (hold : rev key = some old)
    (hpref : prefer v = true → prefer old = true) : Filed prefer (entries ++ [(key, v)]) rev := by
  constructor
  · intro k w hk
    exact List.mem_append_left _ (h.mem k w hk)
  · intro k w hkw
    rcases List.mem_append.1 hkw with hkw | hkw
    · exact h.some_of_mem k w hkw
    · simp only [List.mem_singleton, Prod.mk.injEq] at hkw
      obtain ⟨rfl, rfl⟩ := hkw
      exact ⟨old, hold, hpref⟩

variable [DecidableEq κ]

/-- One more entry, filed in the place of a value that is not preferred to it. -/
lemma Filed.update (h : Filed prefer entries rev)
    (hkeep : ∀ w, rev key = some w → prefer w = true → prefer v = true) :
    Filed prefer (entries ++ [(key, v)]) (Function.update rev key (some v)) := by
  constructor
  · intro k w hk
    by_cases hkk : k = key
    · subst hkk
      simp at hk
      simp [hk]
    · rw [Function.update_of_ne hkk] at hk
      exact List.mem_append_left _ (h.mem k w hk)
  · intro k w hkw
    by_cases hkk : k = key
    · subst hkk
      refine ⟨v, Function.update_self .., fun hw => ?_⟩
      rcases List.mem_append.1 hkw with hkw | hkw
      · obtain ⟨old, hold, hpref⟩ := h.some_of_mem k w hkw
        exact hkeep old hold (hpref hw)
      · simp only [List.mem_singleton, Prod.mk.injEq, true_and] at hkw
        exact hkw ▸ hw
    · rw [Function.update_of_ne hkk]
      exact h.some_of_mem k w (by simpa [hkk] using hkw)

/-- One more entry. -/
lemma Filed.snoc (h : Filed prefer entries rev) (key : κ) (v : ν) :
    Filed prefer (entries ++ [(key, v)]) (filePreferred prefer rev key v) := by
  unfold filePreferred
  cases hold : rev key with
  | none =>
    apply h.update
    intro w hw
    simp [hold] at hw
  | some old =>
    show Filed prefer _ (if prefer v && !prefer old then _ else _)
    split
    · next hpref =>
      simp only [Bool.and_eq_true] at hpref
      exact h.update fun _ _ _ => hpref.1
    · next hpref =>
      apply h.skip hold
      intro hv
      simpa [hv] using hpref

end Snoc

/-- A table filled by a loop over some records, each of which files one entry or none. -/
lemma Filed.foldl [DecidableEq κ] {ε : Type*} {prefer : ν → Bool} (entry : ε → Option (κ × ν))
    (step : (κ → Option ν) → ε → κ → Option ν) (records : List ε)
    (hstep : ∀ rev e, step rev e = (entry e).elim rev fun kv => filePreferred prefer rev kv.1 kv.2) :
    Filed prefer (records.filterMap entry) (records.foldl step fun _ => none) := by
  induction records using List.reverseRecOn with
  | nil => exact .nil prefer
  | append_singleton records e ih =>
    rw [List.foldl_append, List.foldl_cons, List.foldl_nil, hstep, List.filterMap_append]
    cases he : entry e with
    | none => simpa [he] using ih
    | some kv => simpa [he] using ih.snoc kv.1 kv.2

/-- What is known of a table does not depend on the order of the entries. -/
lemma Filed.perm {prefer : ν → Bool} {entries entries' : List (κ × ν)} {rev}
    (h : Filed prefer entries rev) (hperm : entries.Perm entries') : Filed prefer entries' rev where
  mem k v hk := hperm.mem_iff.1 (h.mem k v hk)
  some_of_mem k v hkv := h.some_of_mem k v (hperm.mem_iff.2 hkv)

/-- Nothing is filed under a key that no entry has. -/
lemma Filed.eq_none {prefer : ν → Bool} {entries : List (κ × ν)} {rev} (h : Filed prefer entries rev)
    {key} (hkey : ∀ v, (key, v) ∉ entries) : rev key = none := by
  cases hr : rev key with
  | none => rfl
  | some v => exact absurd (h.mem key v hr) (hkey v)

/-- Where no two entries have one key, the table holds what the list of entries does. -/
lemma Filed.eq_lookup [DecidableEq κ] {prefer : ν → Bool} {entries : List (κ × ν)} {rev}
    (h : Filed prefer entries rev) (hnodup : (entries.map Prod.fst).Nodup) (key : κ) :
    rev key = entries.lookup key := by
  cases hlook : entries.lookup key with
  | none =>
    apply h.eq_none
    intro v hv
    have := List.lookup_eq_none_iff.1 hlook _ hv
    simp at this
  | some v =>
    obtain ⟨l₁, l₂, hsplit, -⟩ := List.lookup_eq_some_iff.1 hlook
    obtain ⟨w, hw, -⟩ := h.some_of_mem key v (by simp [hsplit])
    have hmem : (key, v) ∈ entries := by simp [hsplit]
    have hsame := List.inj_on_of_nodup_map hnodup (h.mem key w hw) hmem rfl
    rw [hw, (Prod.mk.inj hsame).2]

/-- What is filed does not depend on the order when the entries under a key are one value, or one of
    them alone is preferred. -/
lemma Filed.eq_some {prefer : ν → Bool} {entries : List (κ × ν)} {rev} (h : Filed prefer entries rev)
    {key v} (hmem : (key, v) ∈ entries)
    (hall : ∀ w, (key, w) ∈ entries → w = v ∨ prefer v = true ∧ prefer w = false) :
    rev key = some v := by
  obtain ⟨w, hw, hpref⟩ := h.some_of_mem key v hmem
  obtain rfl | ⟨hv, hnot⟩ := hall w (h.mem key w hw)
  · exact hw
  · simp [hpref hv] at hnot

end Inverse
