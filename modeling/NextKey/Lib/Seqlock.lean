import Mathlib.Algebra.Group.Nat.Defs
import Mathlib.Logic.Function.Basic
import Mathlib.Tactic.Lemma
import NextKey.Lib.Machine

/-!
# Sequence locks

Writers and readers share a record of fields through a generation counter. A writer adds one to the
counter, stores the fields one after another and adds one again, so the counter is odd while it
writes. A reader loads the counter, and again if it is odd, copies the fields one after another, loads
the counter a second time and accepts its copy if the counter is the same. Every load, store and
addition is a step of its own, and the steps of all threads interleave in any order.

The counter is a machine word. As long as it does not wrap around and no call to write begins while
another is under way, an accepted copy is the record of one call that is over (`reads_of_alone`).
-/

namespace Seqlock

variable {ι : Type} {α : ι → Type} {β ω ρ : Type} {w : Nat}

/-- A record: a value for each field. -/
abbrev Record (α : ι → Type) := (i : ι) → α i

/-- Where a writer stands; `value` is what the call was given. -/
inductive Writer (ι β : Type) where
  | idle
  | storing (value : β) (rest : List ι)

/-- Whether a writer is between two calls. -/
def Writer.isIdle : Writer ι β → Bool
  | .idle => true
  | .storing _ _ => false

/-- Where a reader stands; `out` is its copy so far. -/
inductive Reader (α : ι → Type) (w : Nat) where
  | idle
  | loading (retry : Nat) (out : Record α)
  | copying (retry : Nat) (start : BitVec w) (out : Record α) (rest : List ι)

/-- Shared memory, threads, and the calls that are over. -/
structure State (α : ι → Type) (β ω ρ : Type) (w : Nat) where
  generation : BitVec w
  data : Record α
  writers : ω → Writer ι β
  readers : ρ → Reader α w
  /-- The calls to write that have begun. -/
  calls : Nat
  /-- What the finished calls to write were given, the last one first. -/
  completed : List β
  /-- The accepted copies with the counter they were read at. -/
  reads : List (BitVec w × Record α)

/-- A thread begins a call or takes its next step. -/
inductive Event (α : ι → Type) (β ω ρ : Type) where
  | write (t : ω) (value : β)
  | writerStep (t : ω)
  | read (t : ρ) (out : Record α)
  | readerStep (t : ρ)

/-- The state before any call. -/
def init (generation : BitVec w) (data : Record α) : State α β ω ρ w :=
  { generation, data, writers := fun _ => .idle, readers := fun _ => .idle, calls := 0, completed := []
    reads := [] }

/-- A writer is under way. -/
def odd (generation : BitVec w) : Bool := generation &&& 1#w != 0#w

section Step
variable [DecidableEq ι] [DecidableEq ω] [DecidableEq ρ]
  (fields : β → Record α) (order : List ι) (retries : Nat)

/-- One step of a writer that is under way. -/
def stepWriter (s : State α β ω ρ w) (t : ω) : State α β ω ρ w :=
  match s.writers t with
  | .idle => s
  | .storing v (i :: rest) =>
    { s with
      data := Function.update s.data i (fields v i)
      writers := Function.update s.writers t (.storing v rest) }
  | .storing v [] =>
    { s with
      generation := s.generation + 1#w
      writers := Function.update s.writers t .idle
      completed := v :: s.completed }

/-- One step of a reader that is under way. -/
def stepReader (s : State α β ω ρ w) (t : ρ) : State α β ω ρ w :=
  match s.readers t with
  | .idle => s
  | .loading k out =>
    if retries ≤ k then { s with readers := Function.update s.readers t .idle }
    else if odd s.generation then
      { s with readers := Function.update s.readers t (.loading (k + 1) out) }
    else { s with readers := Function.update s.readers t (.copying k s.generation out order) }
  | .copying k start out (i :: rest) =>
    { s with readers :=
      Function.update s.readers t (.copying k start (Function.update out i (s.data i)) rest) }
  | .copying k start out [] =>
    if start = s.generation then
      { s with readers := Function.update s.readers t .idle, reads := (start, out) :: s.reads }
    else { s with readers := Function.update s.readers t (.loading (k + 1) out) }

/-- One event; a thread that is not where the event expects it leaves the state alone. -/
def step (s : State α β ω ρ w) : Event α β ω ρ → State α β ω ρ w
  | .write t v =>
    match s.writers t with
    | .idle =>
      { s with
        generation := s.generation + 1#w
        writers := Function.update s.writers t (.storing v order)
        calls := s.calls + 1 }
    | .storing _ _ => s
  | .writerStep t => stepWriter fields s t
  | .read t out =>
    match s.readers t with
    | .idle => { s with readers := Function.update s.readers t (.loading 0 out) }
    | _ => s
  | .readerStep t => stepReader order retries s t

end Step

/-- A call to write begins only when no other is under way. -/
def Alone (s : State α β ω ρ w) : Event α β ω ρ → Prop
  | .write t _ => (s.writers t).isIdle → ∀ t', (s.writers t').isIdle
  | _ => True

/-- The counter has room for the additions of one more call. -/
def HasRoom (s : State α β ω ρ w) : Event α β ω ρ → Prop
  | .write _ _ => 2 * (s.calls + 1) < 2 ^ w
  | _ => True

/-- Whether an event begins a call to write. -/
def Event.isWrite : Event α β ω ρ → Bool
  | .write _ _ => true
  | _ => false

/-- An odd counter. -/
lemma odd_iff {g : BitVec w} (hw : 0 < w) : odd g ↔ g.toNat % 2 = 1 := by
  have hone : (1#w).toNat = 1 := by
    rw [BitVec.toNat_ofNat, Nat.mod_eq_of_lt (Nat.one_lt_two_pow (by omega))]
  rw [odd, bne_iff_ne, ne_eq, ← BitVec.toNat_inj, BitVec.toNat_and, hone, Nat.and_one_is_mod,
    BitVec.toNat_ofNat, Nat.zero_mod]
  omega

/-- The counter after `n` additions. -/
def counter (g : BitVec w) (n : Nat) : BitVec w := g + BitVec.ofNat w n

/-- The counter at the start. -/
lemma counter_zero {g : BitVec w} : counter g 0 = g := by simp [counter]

/-- The counter after one more step. -/
lemma counter_succ {g : BitVec w} {n} : counter g n + 1#w = counter g (n + 1) := by
  rw [counter, counter, BitVec.add_assoc, ← BitVec.ofNat_add]

/-- Without a wrap-around the counter tells the number of additions. -/
lemma counter_injective {g : BitVec w} {m n} (hm : m < 2 ^ w) (hn : n < 2 ^ w)
    (h : counter g m = counter g n) : m = n := by
  have h' := congrArg BitVec.toNat ((BitVec.add_right_inj g).1 h)
  rwa [BitVec.toNat_ofNat, BitVec.toNat_ofNat, Nat.mod_eq_of_lt hm, Nat.mod_eq_of_lt hn] at h'

/-- The parity of the counter is the parity of the number of additions. -/
lemma odd_counter {g : BitVec w} {n} (hw : 0 < w) (hg : odd g = false) :
    odd (counter g n) ↔ n % 2 = 1 := by
  have heven : g.toNat % 2 = 0 := by
    have hno := (odd_iff hw).not.1 (by simpa using hg)
    omega
  have hdvd : 2 ∣ 2 ^ w := Nat.pow_dvd_pow 2 hw
  rw [odd_iff hw, counter, BitVec.toNat_add, BitVec.toNat_ofNat, Nat.add_mod_mod,
    Nat.mod_mod_of_dvd _ hdvd]
  omega

/-- The record at rest: that of the last finished call, or the first one. -/
def latest (fields : β → Record α) (first : Record α) : List β → Record α
  | [] => first
  | v :: _ => fields v

/-- What holds while the calls to write do not overlap. With `n` finished calls the counter is `2 * n`
    at rest and `2 * n + 1` under a writer; `g` and `first` are the counter and the record before the
    first call. -/
structure Inv (fields : β → Record α) (g : BitVec w) (first : Record α) (s : State α β ω ρ w) :
    Prop where
  room : 2 * s.calls < 2 ^ w
  atRest : (∀ t, (s.writers t).isIdle) → s.calls = s.completed.length ∧
    s.generation = counter g (2 * s.completed.length) ∧ s.data = latest fields first s.completed
  writing : ∀ t v rest, s.writers t = .storing v rest → s.calls = s.completed.length + 1 ∧
    s.generation = counter g (2 * s.completed.length + 1) ∧
      (∀ i, i ∉ rest → s.data i = fields v i) ∧ ∀ t', t' ≠ t → (s.writers t').isIdle
  /-- A copy begun at the present counter agrees with the record so far. -/
  copying : ∀ t k start out rest, s.readers t = .copying k start out rest →
    ∃ m ≤ s.completed.length, start = counter g (2 * m) ∧
      (m = s.completed.length → (∀ t, (s.writers t).isIdle) → ∀ i, i ∉ rest → out i = s.data i)
  reads : ∀ r ∈ s.reads, r.2 = first ∨ ∃ v ∈ s.completed, r.2 = fields v

section Invariant
variable {fields : β → Record α} {g : BitVec w} {first : Record α} {s : State α β ω ρ w}

/-- At the start. -/
lemma Inv.start : Inv fields g first (init g first : State α β ω ρ w) where
  room := Nat.two_pow_pos w
  atRest _ := ⟨rfl, by simp [init, counter_zero], rfl⟩
  writing t v rest h := by cases h
  copying t k start out rest h := by cases h
  reads r h := by cases h

/-- Either no writer is under way or one is. -/
lemma idle_or_storing (s : State α β ω ρ w) :
    (∀ t, (s.writers t).isIdle) ∨ ∃ t v rest, s.writers t = .storing v rest := by
  by_cases h : ∀ t, (s.writers t).isIdle
  · exact .inl h
  · obtain ⟨t, ht⟩ := not_forall.1 h
    cases hs : s.writers t with
    | idle => simp [hs, Writer.isIdle] at ht
    | storing v rest => exact .inr ⟨t, v, rest, hs⟩

/-- An even counter means that no writer is under way. -/
lemma Inv.idle_of_even (h : Inv fields g first s) (hw : 0 < w) (hg : odd g = false)
    (heven : odd s.generation = false) : ∀ t, (s.writers t).isIdle := by
  obtain hrest | ⟨t, v, rest, hs⟩ := idle_or_storing s
  · exact hrest
  · obtain ⟨-, hgen, -⟩ := h.writing t v rest hs
    have hodd : odd s.generation := by
      rw [hgen, odd_counter hw hg]
      omega
    rw [heven] at hodd
    cases hodd

/-- A copy whose counter did not move is the record at rest. -/
lemma Inv.copy_eq {t k start out} (h : Inv fields g first s)
    (hs : s.readers t = .copying k start out []) (hgen : start = s.generation) :
    out = latest fields first s.completed := by
  obtain ⟨m, hm, hstart, hagree⟩ := h.copying t k start out [] hs
  obtain hrest | ⟨t', v, rest, hw⟩ := idle_or_storing s
  · obtain ⟨hcalls, hgen', hdata⟩ := h.atRest hrest
    have hroom := h.room
    have hmn : 2 * m = 2 * s.completed.length :=
      counter_injective (by omega) (by omega) (hstart.symm.trans (hgen.trans hgen'))
    rw [← hdata]
    funext i
    exact hagree (by omega) hrest i (by simp)
  · -- under a writer the counter is odd
    obtain ⟨hcalls, hgen', -⟩ := h.writing t' v rest hw
    have hroom := h.room
    have hmn : 2 * m = 2 * s.completed.length + 1 :=
      counter_injective (by omega) (by omega) (hstart.symm.trans (hgen.trans hgen'))
    omega

variable [DecidableEq ι] [DecidableEq ω] [DecidableEq ρ] {order : List ι} {retries : Nat}

/-- A call to write begins. -/
lemma Inv.write {t v} (h : Inv fields g first s) (hall : ∀ i, i ∈ order)
    (ok : Alone s (.write t v)) (hroom : HasRoom s (.write t v)) :
    Inv fields g first (step fields order retries s (.write t v)) := by
  simp only [step]
  split
  · next hidle =>
    have hrest := ok (by rw [hidle]; rfl)
    obtain ⟨hcalls, hgen, -⟩ := h.atRest hrest
    have hbusy : ¬∀ t', ((Function.update s.writers t (.storing v order)) t').isIdle := by
      intro hn
      simpa [Writer.isIdle] using hn t
    refine ⟨hroom, fun hn => absurd hn hbusy, ?_, ?_, h.reads⟩
    · intro t' v' rest' ht'
      dsimp only at ht' ⊢
      by_cases htt : t' = t
      · subst htt
        obtain ⟨rfl, rfl⟩ : v = v' ∧ order = rest' := by simpa using ht'
        refine ⟨by rw [hcalls], by rw [hgen, counter_succ], fun i hi => absurd (hall i) hi, ?_⟩
        intro t'' hne
        simpa [Function.update_of_ne hne] using hrest t''
      · rw [Function.update_of_ne htt] at ht'
        have := hrest t'
        rw [ht'] at this
        cases this
    · intro t' k start out rest' ht'
      obtain ⟨m, hm, hstart, -⟩ := h.copying t' k start out rest' ht'
      exact ⟨m, hm, hstart, fun _ hn => absurd hn hbusy⟩
  · exact h

omit [DecidableEq ρ] in
/-- A writer takes a step. -/
lemma Inv.stepWriter {t} (h : Inv fields g first s) :
    Inv fields g first (stepWriter fields s t) := by
  simp only [Seqlock.stepWriter]
  split
  · exact h
  · next v i rest hs =>
    obtain ⟨hcalls, hgen, hdata, hothers⟩ := h.writing t v (i :: rest) hs
    have hbusy : ¬∀ t', ((Function.update s.writers t (.storing v rest)) t').isIdle := by
      intro hn
      simpa [Writer.isIdle] using hn t
    refine ⟨h.room, fun hn => absurd hn hbusy, ?_, ?_, h.reads⟩
    · intro t' v' rest' ht'
      dsimp only at ht' ⊢
      by_cases htt : t' = t
      · subst htt
        obtain ⟨rfl, rfl⟩ : v = v' ∧ rest = rest' := by simpa using ht'
        refine ⟨hcalls, hgen, ?_, ?_⟩
        · intro j hj
          by_cases hji : j = i
          · subst hji
            simp
          · rw [Function.update_of_ne hji]
            exact hdata j (by simp [hji, hj])
        · intro t'' hne
          simpa [Function.update_of_ne hne] using hothers t'' hne
      · rw [Function.update_of_ne htt] at ht'
        have := hothers t' htt
        rw [ht'] at this
        cases this
    · intro t' k start out rest' ht'
      obtain ⟨m, hm, hstart, -⟩ := h.copying t' k start out rest' ht'
      exact ⟨m, hm, hstart, fun _ hn => absurd hn hbusy⟩
  · next v hs =>
    obtain ⟨hcalls, hgen, hdata, hothers⟩ := h.writing t v [] hs
    have hrest : ∀ t', ((Function.update s.writers t .idle) t').isIdle := by
      intro t'
      by_cases htt : t' = t
      · subst htt
        simp [Writer.isIdle]
      · simpa [Function.update_of_ne htt] using hothers t' htt
    refine ⟨h.room, ?_, ?_, ?_, ?_⟩
    · intro _
      refine ⟨hcalls, by rw [hgen, counter_succ, List.length_cons]; rfl, ?_⟩
      funext i
      exact hdata i (by simp)
    · intro t' v' rest' ht'
      have := hrest t'
      dsimp only at ht'
      rw [ht'] at this
      cases this
    · intro t' k start out rest' ht'
      obtain ⟨m, hm, hstart, -⟩ := h.copying t' k start out rest' ht'
      refine ⟨m, by rw [List.length_cons]; omega, hstart, ?_⟩
      intro hc
      rw [List.length_cons] at hc
      omega
    · intro r hr
      obtain hf | ⟨v', hv', hr'⟩ := h.reads r hr
      · exact .inl hf
      · exact .inr ⟨v', List.mem_cons_of_mem v hv', hr'⟩

omit [DecidableEq ι] [DecidableEq ω] in
/-- A reader moves on, to a copy that agrees with the record if it is one. -/
lemma Inv.setReader {t phase} (h : Inv fields g first s)
    (hphase : ∀ k start out rest, phase = .copying k start out rest →
      ∃ m ≤ s.completed.length, start = counter g (2 * m) ∧
        (m = s.completed.length → (∀ t, (s.writers t).isIdle) → ∀ i, i ∉ rest → out i = s.data i)) :
    Inv fields g first { s with readers := Function.update s.readers t phase } := by
  refine ⟨h.room, h.atRest, h.writing, ?_, h.reads⟩
  intro t' k start out rest ht'
  dsimp only at ht'
  by_cases htt : t' = t
  · subst htt
    exact hphase k start out rest (by simpa using ht')
  · rw [Function.update_of_ne htt] at ht'
    exact h.copying t' k start out rest ht'

omit [DecidableEq ω] in
/-- A reader takes a step. -/
lemma Inv.stepReader {t} (h : Inv fields g first s) (hw : 0 < w) (hg : odd g = false)
    (hall : ∀ i, i ∈ order) : Inv fields g first (stepReader order retries s t) := by
  simp only [Seqlock.stepReader]
  split
  · exact h
  · split
    · exact h.setReader nofun
    · split
      · exact h.setReader nofun
      · next heven =>
        have hrest := h.idle_of_even hw hg (by simpa using heven)
        refine h.setReader ?_
        rintro k start out rest ⟨rfl, rfl, rfl, rfl⟩
        exact ⟨_, Nat.le_refl _, (h.atRest hrest).2.1, fun _ _ i hi => absurd (hall i) hi⟩
  · next k start out i rest hs =>
    obtain ⟨m, hm, hstart, hagree⟩ := h.copying t k start out (i :: rest) hs
    refine h.setReader ?_
    rintro k' start' out' rest' ⟨rfl, rfl, rfl, rfl⟩
    refine ⟨m, hm, hstart, fun hlast hrest j hj => ?_⟩
    by_cases hji : j = i
    · subst hji
      simp
    · rw [Function.update_of_ne hji]
      exact hagree hlast hrest j (by simp [hji, hj])
  · next k start out hs =>
    split
    · next hgen =>
      have hout := h.copy_eq hs hgen
      have hidle : Inv fields g first { s with readers := Function.update s.readers t .idle } :=
        h.setReader nofun
      refine ⟨hidle.room, hidle.atRest, hidle.writing, hidle.copying, ?_⟩
      intro r hr
      obtain rfl | hr := List.mem_cons.1 hr
      · simp only [hout]
        cases hc : s.completed with
        | nil => exact .inl rfl
        | cons v vs => exact .inr ⟨v, by simp, rfl⟩
      · exact h.reads r hr
    · exact h.setReader nofun

/-- Every event keeps the invariant. -/
lemma Inv.step {e} (h : Inv fields g first s) (hw : 0 < w) (hg : odd g = false)
    (hall : ∀ i, i ∈ order) (ok : Alone s e ∧ HasRoom s e) :
    Inv fields g first (step fields order retries s e) := by
  cases e with
  | write t v => exact h.write hall ok.1 ok.2
  | writerStep t => exact h.stepWriter
  | read t out =>
    simp only [Seqlock.step]
    split
    · exact h.setReader nofun
    · exact h
  | readerStep t => exact h.stepReader hw hg hall

/-- A step begins one call at most. -/
lemma calls_step {e} : (Seqlock.step fields order retries s e).calls ≤
    s.calls + if e.isWrite then 1 else 0 := by
  cases e with
  | write t v =>
    simp only [Seqlock.step]
    split <;> simp [Event.isWrite]
  | writerStep t =>
    simp only [Seqlock.step, Seqlock.stepWriter]
    split <;> exact Nat.le_add_right _ _
  | read t out =>
    simp only [Seqlock.step]
    split <;> exact Nat.le_add_right _ _
  | readerStep t =>
    simp only [Seqlock.step, Seqlock.stepReader]
    repeat' split
    all_goals exact Nat.le_add_right _ _

/-- The counter has room for fewer calls than half of its range. -/
lemma guarded_hasRoom {events : List (Event α β ω ρ)}
    (hroom : 2 * (s.calls + events.countP (·.isWrite)) < 2 ^ w)
    (h : Machine.Guarded (Seqlock.step fields order retries) Alone s events) :
    Machine.Guarded (Seqlock.step fields order retries) (fun s e => Alone s e ∧ HasRoom s e) s
      events := by
  induction events generalizing s with
  | nil => trivial
  | cons e events ih =>
    rw [List.countP_cons] at hroom
    refine ⟨⟨h.1, ?_⟩, ih ?_ h.2⟩
    · cases e with
      | write t v =>
        simp only [Event.isWrite, if_true] at hroom
        simp only [HasRoom]
        omega
      | writerStep t => trivial
      | read t out => trivial
      | readerStep t => trivial
    · have hstep : (Seqlock.step fields order retries s e).calls ≤
          s.calls + if e.isWrite then 1 else 0 := calls_step
      omega

/-- While the calls to write do not overlap and the counter does not wrap around, every accepted copy
    is the first record or that of one finished call. -/
theorem reads_of_alone {events : List (Event α β ω ρ)} (hw : 0 < w) (hg : odd g = false)
    (hall : ∀ i, i ∈ order) (hroom : 2 * events.countP (·.isWrite) < 2 ^ w)
    (h : Machine.Guarded (Seqlock.step fields order retries) Alone (init g first) events) :
    ∀ r ∈ (Machine.run (Seqlock.step fields order retries)
      (init g first : State α β ω ρ w) events).reads,
      r.2 = first ∨
        ∃ v ∈ (Machine.run (Seqlock.step fields order retries) (init g first) events).completed,
          r.2 = fields v := by
  have hguard := guarded_hasRoom (by rwa [init, Nat.zero_add]) h
  have hinv := hguard.invariant Inv.start fun hinv ok => Inv.step hinv hw hg hall ok
  exact hinv.reads

/-- The calls of a single writer do not overlap. -/
lemma guarded_of_subsingleton [Subsingleton ω] {events : List (Event α β ω ρ)} :
    Machine.Guarded (Seqlock.step fields order retries) Alone s events := by
  induction events generalizing s with
  | nil => trivial
  | cons e events ih =>
    refine ⟨?_, ih⟩
    cases e with
    | write t v =>
      intro hidle t'
      rwa [Subsingleton.elim t' t]
    | writerStep t => trivial
    | read t out => trivial
    | readerStep t => trivial

end Invariant

end Seqlock
