import NextKey.Ipc.SharedStateManager

/-!
# The epoch under several writers

`Write` loads the epoch, stores the next odd value, copies its state and stores the even value after.
No lock keeps two processes apart, so a process can load the odd value of another and leave an odd
epoch behind, on which every later `Read` fails. As long as each `Write` loads an even epoch, the
epoch is even whenever no `Write` is under way, and a `Read` then returns what was written
(`read_of_loadsEven`).
-/

namespace NextKey

/-- The parity of a word changes when one is added. -/
lemma odd_add_one {g : BitVec 32} : Seqlock.odd (g + 1) = !Seqlock.odd g := by
  have hg := Seqlock.odd_iff (g := g) (by decide)
  have hg' := Seqlock.odd_iff (g := g + 1) (by decide)
  have hadd : (g + 1).toNat = (g.toNat + 1) % 2 ^ 32 := by simp [BitVec.toNat_add]
  rw [hadd] at hg'
  cases h : Seqlock.odd g <;> cases h' : Seqlock.odd (g + 1) <;> simp_all <;> omega

namespace Call

/-- `Write` is under way. -/
def isWriting : Call → Bool
  | .writeLoad _ | .writeMark _ _ | .writeCopy _ _ _ => true
  | _ => false

/-- `Write` has stored the odd epoch and not yet the even one. -/
def isCopying : Call → Bool
  | .writeCopy _ _ _ => true
  | _ => false

/-- `Write` will store a field. -/
def WillStore (f : SharedField) : Call → Prop
  | .writeLoad _ | .writeMark _ _ => True
  | .writeCopy _ _ rest => f ∈ rest
  | _ => False

/-- A call that stores nothing in shared memory. -/
def isQuiet : Call → Bool
  | .writeLoad _ | .writeMark _ _ | .writeCopy _ _ _ | .flagMagic _ | .flagApply _ => false
  | _ => true

/-- A call of `Write` marks with an odd value and was given one of the passed states; no flag
    operation is under way. -/
def Sound (passed : List SharedState) : Call → Prop
  | .writeLoad state => state ∈ passed
  | .writeMark state seq | .writeCopy state seq _ => state ∈ passed ∧ Seqlock.odd seq
  | .flagMagic _ | .flagApply _ => False
  | _ => True

/-- One more state was passed. -/
lemma Sound.cons {passed state} {c : Call} (h : c.Sound passed) : c.Sound (state :: passed) := by
  cases c with
  | writeLoad => exact List.mem_cons_of_mem _ h
  | writeMark => exact ⟨List.mem_cons_of_mem _ h.1, h.2⟩
  | writeCopy => exact ⟨List.mem_cons_of_mem _ h.1, h.2⟩
  | _ => exact h

end Call

/-- An event that begins neither a `Write` nor a flag operation. -/
def SharedEvent.isQuiet {π : Type} : SharedEvent π → Bool
  | .Write _ _ | .flag _ _ => false
  | _ => true

section
variable {π : Type}

/-- No flag operation begins, and `Write` is given valid states, as its callers see to. -/
def WritesValid (_ : Shared π) : SharedEvent π → Prop
  | .Write _ state => state.IsValid
  | .flag _ _ => False
  | _ => True

/-- `Write` loads the epoch only when it is even. -/
def LoadsEven (s : Shared π) : SharedEvent π → Prop
  | .step p => ∀ state, s.call p = .writeLoad state → Seqlock.odd (s.mem .epoch) = false
  | _ => True

/-- What holds while every `Write` loads an even epoch. -/
structure EpochInv (first : SharedState) (s : Shared π) : Prop where
  sound : ∀ p, (s.call p).Sound s.passed
  even : (∀ p, (s.call p).isCopying = false) → Seqlock.odd (s.mem .epoch) = false
  valid : ∀ state ∈ s.passed, state.IsValid
  source : ∀ f ≠ .epoch, (∃ state ∈ s.passed, s.mem f = state f) ∨
    s.mem f = first f ∧ (s.passed = [] ∨ ∃ p, (s.call p).WillStore f)

/-- At the start. -/
lemma EpochInv.start {first} (heven : Seqlock.odd (first .epoch) = false) :
    EpochInv first (Shared.init first : Shared π) where
  sound p := trivial
  even _ := heven
  valid _ h := by cases h
  source f _ := .inr ⟨rfl, .inl rfl⟩

variable [DecidableEq π] {first : SharedState} {s : Shared π} {p : π}

/-- A process moves on and shared memory stays. -/
lemma EpochInv.move {t : Shared π} {c} (h : EpochInv first s) (hmem : t.mem = s.mem)
    (hpassed : t.passed = s.passed) (hcall : t.call = Function.update s.call p c)
    (hsound : c.Sound s.passed) (hcopying : c.isCopying = (s.call p).isCopying)
    (hwill : ∀ f, (s.call p).WillStore f → c.WillStore f) : EpochInv first t where
  sound q := by
    rw [hpassed, hcall]
    by_cases hqp : q = p
    · subst hqp
      simpa using hsound
    · simpa [Function.update_of_ne hqp] using h.sound q
  even hall := by
    rw [hmem]
    apply h.even
    intro q
    have hq := hall q
    rw [hcall] at hq
    by_cases hqp : q = p
    · subst hqp
      rw [← hcopying]
      simpa using hq
    · simpa [Function.update_of_ne hqp] using hq
  valid := by
    rw [hpassed]
    exact h.valid
  source f hf := by
    rw [hpassed, hmem, hcall]
    obtain hstored | ⟨hfirst, hnil | ⟨q, hq⟩⟩ := h.source f hf
    · exact .inl hstored
    · exact .inr ⟨hfirst, .inl hnil⟩
    · refine .inr ⟨hfirst, .inr ⟨q, ?_⟩⟩
      by_cases hqp : q = p
      · subst hqp
        simpa using hwill f hq
      · simpa [Function.update_of_ne hqp] using hq

/-- A process moves on in a call that stores nothing. -/
lemma EpochInv.quiet {t : Shared π} {c} (h : EpochInv first s) (hmem : t.mem = s.mem)
    (hpassed : t.passed = s.passed) (hcall : t.call = Function.update s.call p c)
    (hs : (s.call p).isQuiet) (hc : c.isQuiet) : EpochInv first t := by
  apply h.move hmem hpassed hcall
  · cases c <;> trivial
  · revert hs hc
    cases s.call p <;> cases c <;> simp [Call.isQuiet, Call.isCopying]
  · intro f
    revert hs
    cases s.call p <;> simp [Call.isQuiet, Call.WillStore]

/-- `Write` stores a field. -/
lemma EpochInv.storeField {state seq f rest} (h : EpochInv first s)
    (hs : s.call p = .writeCopy state seq (f :: rest)) :
    EpochInv first ((s.store f (state f)).goto p (.writeCopy state seq rest)) := by
  have hsound := h.sound p
  rw [hs] at hsound
  refine ⟨?_, ?_, h.valid, ?_⟩
  · intro q
    by_cases hqp : q = p
    · subst hqp
      simpa [Shared.goto, Shared.store, Call.Sound] using hsound
    · simpa [Shared.goto, Shared.store, Function.update_of_ne hqp] using h.sound q
  · intro hall
    have hp := hall p
    simp [Shared.goto, Call.isCopying] at hp
  · intro f' hf'
    by_cases hff : f' = f
    · subst hff
      exact .inl ⟨state, hsound.1, by simp [Shared.goto, Shared.store]⟩
    · simp only [Shared.goto, Shared.store, Function.update_of_ne hff]
      obtain hstored | ⟨hfirst, hnil | ⟨q, hq⟩⟩ := h.source f' hf'
      · exact .inl hstored
      · exact .inr ⟨hfirst, .inl hnil⟩
      · refine .inr ⟨hfirst, .inr ⟨q, ?_⟩⟩
        by_cases hqp : q = p
        · subst hqp
          rw [hs] at hq
          simpa [Call.WillStore, hff] using hq
        · rwa [Function.update_of_ne hqp]

/-- `Write` stores an epoch: the odd one before its copy or the even one after it. -/
lemma EpochInv.storeEpoch {v c} (h : EpochInv first s) (hsound : c.Sound s.passed)
    (heven : c.isCopying = true ∨ Seqlock.odd v = false)
    (hwill : ∀ f ≠ .epoch, (s.call p).WillStore f → c.WillStore f) :
    EpochInv first ((s.store .epoch v).goto p c) := by
  refine ⟨?_, ?_, h.valid, ?_⟩
  · intro q
    by_cases hqp : q = p
    · subst hqp
      simpa [Shared.goto, Shared.store] using hsound
    · simpa [Shared.goto, Shared.store, Function.update_of_ne hqp] using h.sound q
  · intro hall
    have hp := hall p
    simp only [Shared.goto, Function.update_self] at hp
    obtain hc | hv := heven
    · rw [hc] at hp
      cases hp
    · simpa [Shared.goto, Shared.store] using hv
  · intro f hf
    simp only [Shared.goto, Shared.store, Function.update_of_ne hf]
    obtain hstored | ⟨hfirst, hnil | ⟨q, hq⟩⟩ := h.source f hf
    · exact .inl hstored
    · exact .inr ⟨hfirst, .inl hnil⟩
    · refine .inr ⟨hfirst, .inr ⟨q, ?_⟩⟩
      by_cases hqp : q = p
      · subst hqp
        simpa using hwill f hf hq
      · rwa [Function.update_of_ne hqp]

/-- A process takes a step in its call. -/
lemma EpochInv.stepCall (h : EpochInv first s) (ok : LoadsEven s (.step p)) :
    EpochInv first (s.stepCall p) := by
  have hsound := h.sound p
  cases hs : s.call p with
  | idle => simpa [Shared.stepCall, hs] using h
  | readMagic =>
    simp only [Shared.stepCall, hs]
    split
    · exact h.quiet rfl rfl rfl (by rw [hs]; rfl) rfl
    · exact h.quiet rfl rfl rfl (by rw [hs]; rfl) rfl
  | readEpoch i state =>
    simp only [Shared.stepCall, hs]
    exact h.quiet rfl rfl rfl (by rw [hs]; rfl) rfl
  | readCopy i before state rest =>
    cases rest with
    | cons f rest =>
      simp only [Shared.stepCall, hs]
      exact h.quiet rfl rfl rfl (by rw [hs]; rfl) rfl
    | nil =>
      simp only [Shared.stepCall, hs]
      split
      · exact h.quiet rfl rfl rfl (by rw [hs]; rfl) rfl
      · split
        · exact h.quiet rfl rfl rfl (by rw [hs]; rfl) rfl
        · exact h.quiet rfl rfl rfl (by rw [hs]; rfl) rfl
  | writeLoad state =>
    have heven := ok state hs
    rw [hs] at hsound
    simp only [Shared.stepCall, hs]
    have hodd : Seqlock.odd (s.mem .epoch + 1) = true := by rw [odd_add_one, heven]; rfl
    exact h.move rfl rfl rfl ⟨hsound, hodd⟩ (by rw [hs]; rfl) (by simp [Call.WillStore])
  | writeMark state seq =>
    rw [hs] at hsound
    simp only [Shared.stepCall, hs]
    exact h.storeEpoch hsound (.inl rfl) fun f hf _ => mem_writeOrder.2 hf
  | writeCopy state seq rest =>
    cases rest with
    | cons f rest =>
      simp only [Shared.stepCall, hs]
      exact h.storeField hs
    | nil =>
      rw [hs] at hsound
      simp only [Shared.stepCall, hs]
      have heven : Seqlock.odd (seq + 1) = false := by rw [odd_add_one, hsound.2]; rfl
      exact h.storeEpoch trivial (.inr heven) (by simp [hs, Call.WillStore])
  | epochMagic =>
    simp only [Shared.stepCall, hs]
    split
    · exact h.quiet rfl rfl rfl (by rw [hs]; rfl) rfl
    · exact h.quiet rfl rfl rfl (by rw [hs]; rfl) rfl
  | epochLoad =>
    simp only [Shared.stepCall, hs]
    exact h.quiet rfl rfl rfl (by rw [hs]; rfl) rfl
  | flagMagic op =>
    rw [hs] at hsound
    exact hsound.elim
  | flagApply op =>
    rw [hs] at hsound
    exact hsound.elim

/-- A process begins a call that stores nothing. -/
lemma EpochInv.begin {c} (h : EpochInv first s) (hc : c.isQuiet) : EpochInv first (s.start p c) := by
  simp only [Shared.start]
  split
  · next hs => exact h.quiet rfl rfl rfl (by rw [hs]; rfl) hc
  · exact h

/-- A process calls `Write`. -/
lemma EpochInv.beginWrite {state} (h : EpochInv first s) (hvalid : state.IsValid)
    (hs : s.call p = .idle) :
    EpochInv first { s.goto p (.writeLoad state) with passed := state :: s.passed } := by
  refine ⟨?_, ?_, ?_, ?_⟩
  · intro q
    by_cases hqp : q = p
    · subst hqp
      simp [Shared.goto, Call.Sound]
    · simpa [Shared.goto, Function.update_of_ne hqp] using (h.sound q).cons
  · intro hall
    apply h.even
    intro q
    by_cases hqp : q = p
    · subst hqp
      rw [hs]
      rfl
    · simpa [Shared.goto, Function.update_of_ne hqp] using hall q
  · exact List.forall_mem_cons.2 ⟨hvalid, h.valid⟩
  · intro f hf
    obtain ⟨state', hmem, hstate⟩ | ⟨hfirst, -⟩ := h.source f hf
    · exact .inl ⟨state', List.mem_cons_of_mem _ hmem, hstate⟩
    · exact .inr ⟨hfirst, .inr ⟨p, by simp [Shared.goto, Call.WillStore]⟩⟩

/-- Every event keeps the invariant. -/
lemma EpochInv.step {e} (h : EpochInv first s) (ok : WritesValid s e ∧ LoadsEven s e) :
    EpochInv first (s.step e) := by
  cases e with
  | Read p => exact h.begin rfl
  | Write p state =>
    simp only [Shared.step]
    split
    · next hs => exact h.beginWrite ok.1 hs
    · exact h
  | ReadEpoch p => exact h.begin rfl
  | flag p op => exact ok.1.elim
  | step p => exact h.stepCall ok.2

/-- Two states are the same to one process. -/
structure SameFor (p : π) (s t : Shared π) : Prop where
  mem : s.mem = t.mem
  call : s.call p = t.call p
  result : s.result p = t.result p

/-- A process does the same in states that are the same to it. -/
lemma SameFor.step {t : Shared π} {e} (h : SameFor p s t) (he : e.process = p) :
    SameFor p (s.step e) (t.step e) := by
  obtain ⟨hmem, hcall, hresult⟩ := h
  subst he
  cases e with
  | step p =>
    simp only [SharedEvent.process] at hcall hresult
    simp only [Shared.step, Shared.stepCall, hcall, hmem, SharedEvent.process]
    split
    all_goals
      repeat' split
      all_goals constructor <;>
        simp [Shared.goto, Shared.finish, Shared.copyField, Shared.store, Shared.applyFlag, *]
  | _ =>
    simp only [SharedEvent.process] at hcall hresult
    simp only [Shared.step, Shared.start, hcall, SharedEvent.process]
    split <;> constructor <;> simp [Shared.goto, *]

/-- A call that stores nothing moves on and may return a state. -/
lemma start_of_quiet {c : Call} (hs : (s.call p).isQuiet) (hc : c.isQuiet) :
    (s.start p c).mem = s.mem ∧ ∃ c' state, c'.isQuiet ∧
      (s.start p c).call = Function.update s.call p c' ∧
        (s.start p c).result = Function.update s.result p state := by
  simp only [Shared.start]
  split
  · exact ⟨rfl, c, s.result p, hc, rfl, (Function.update_eq_self p s.result).symm⟩
  · exact ⟨rfl, s.call p, s.result p, hs, (Function.update_eq_self p s.call).symm,
      (Function.update_eq_self p s.result).symm⟩

/-- A call that stores nothing leaves shared memory and the other processes alone. -/
lemma step_of_quiet {e : SharedEvent π} (hs : (s.call e.process).isQuiet) (he : e.isQuiet) :
    (s.step e).mem = s.mem ∧ ∃ c state, c.isQuiet ∧
      (s.step e).call = Function.update s.call e.process c ∧
        (s.step e).result = Function.update s.result e.process state := by
  cases e with
  | Read p => exact start_of_quiet hs rfl
  | Write p state => cases he
  | ReadEpoch p => exact start_of_quiet hs rfl
  | flag p op => cases he
  | step p =>
    simp only [SharedEvent.process] at hs ⊢
    have hresult := (Function.update_eq_self p s.result).symm
    simp only [Shared.step, Shared.stepCall]
    split
    · exact ⟨rfl, s.call p, s.result p, hs, (Function.update_eq_self p s.call).symm, hresult⟩
    · split
      · exact ⟨rfl, _, s.result p, rfl, rfl, hresult⟩
      · exact ⟨rfl, _, _, rfl, rfl, rfl⟩
    · exact ⟨rfl, _, s.result p, rfl, rfl, hresult⟩
    · exact ⟨rfl, _, s.result p, rfl, rfl, hresult⟩
    · split
      · exact ⟨rfl, _, _, rfl, rfl, rfl⟩
      · split
        · exact ⟨rfl, _, s.result p, rfl, rfl, hresult⟩
        · exact ⟨rfl, _, _, rfl, rfl, rfl⟩
    · next h => simp [h, Call.isQuiet] at hs
    · next h => simp [h, Call.isQuiet] at hs
    · next h => simp [h, Call.isQuiet] at hs
    · next h => simp [h, Call.isQuiet] at hs
    · split
      · exact ⟨rfl, _, s.result p, rfl, rfl, hresult⟩
      · exact ⟨rfl, _, s.result p, rfl, rfl, hresult⟩
    · exact ⟨rfl, _, s.result p, rfl, rfl, hresult⟩
    · next h => simp [h, Call.isQuiet] at hs
    · next h => simp [h, Call.isQuiet] at hs

/-- While nothing is written, what a process does depends on its own events alone. -/
lemma SameFor.run {t : Shared π} {events : List (SharedEvent π)} (h : SameFor p s t)
    (hs : ∀ q, (s.call q).isQuiet) (hevents : ∀ e ∈ events, e.isQuiet) :
    SameFor p (Machine.run Shared.step s events)
      (Machine.run Shared.step t (events.filter fun e => e.process = p)) := by
  induction events generalizing s t with
  | nil => exact h
  | cons e events ih =>
    obtain ⟨he, hevents'⟩ := List.forall_mem_cons.1 hevents
    obtain ⟨hmem, c, state, hc, hcall, hresult⟩ := step_of_quiet (hs e.process) he
    have hs' : ∀ q, ((s.step e).call q).isQuiet := by
      intro q
      rw [hcall]
      by_cases hq : q = e.process
      · rwa [hq, Function.update_self]
      · rw [Function.update_of_ne hq]
        exact hs q
    by_cases hp : e.process = p
    · rw [List.filter_cons_of_pos (by simpa using hp)]
      exact ih (h.step hp) hs' hevents'
    · rw [List.filter_cons_of_neg (by simpa using hp)]
      refine ih ⟨hmem.trans h.mem, ?_, ?_⟩ hs' hevents'
      · rw [hcall, Function.update_of_ne (Ne.symm hp), h.call]
      · rw [hresult, Function.update_of_ne (Ne.symm hp), h.result]

/-- `Read` returns the shared record when it is valid, the epoch is even and nothing is written. -/
lemma read_of_quiet {events : List (SharedEvent π)} (hidle : s.call p = .idle)
    (hs : ∀ q, (s.call q).isQuiet) (hvalid : s.mem.IsValid)
    (heven : Seqlock.odd (s.mem .epoch) = false) (hevents : ∀ e ∈ events, e.isQuiet)
    (hread : (events.filter fun e => e.process = p) = readCall p) :
    (Machine.run Shared.step s events).result p = s.mem := by
  have hsame : SameFor p s s := ⟨rfl, rfl, rfl⟩
  have hrun := (hsame.run hs hevents).result
  rw [hread, Shared.run_readCall hidle hvalid.1 heven] at hrun
  simpa using hrun

omit [DecidableEq π] in
/-- Between two calls of `Write` shared memory holds a valid state. -/
lemma EpochInv.isValid (h : EpochInv first s) (hfirst : first.IsValid) : s.mem.IsValid := by
  have hfield : ∀ f ≠ .epoch, ∃ state : SharedState, state.IsValid ∧ s.mem f = state f := by
    intro f hf
    obtain ⟨state, hmem, hstate⟩ | ⟨hstate, -⟩ := h.source f hf
    · exact ⟨state, h.valid state hmem, hstate⟩
    · exact ⟨first, hfirst, hstate⟩
  obtain ⟨a, ha, hmagic⟩ := hfield .magic (by decide)
  obtain ⟨b, hb, hversion⟩ := hfield .structVersion (by decide)
  obtain ⟨c, hc, hsize⟩ := hfield .structSize (by decide)
  refine ⟨?_, ?_, ?_⟩
  · rw [hmagic]
    exact ha.1
  · rw [hversion]
    exact hb.2.1
  · rw [hsize]
    exact hc.2.2

/-- While every `Write` loads an even epoch, the epoch is even whenever no `Write` is under way. A
    `Read` then succeeds, and each field but the epoch is one that was passed to a `Write`, if there
    was any. -/
theorem read_of_loadsEven {events reading : List (SharedEvent π)} (hfirst : first.IsValid)
    (heven : Seqlock.odd (first .epoch) = false)
    (h : Machine.Guarded Shared.step (fun s e => WritesValid s e ∧ LoadsEven s e) (Shared.init first)
      events)
    (hdone : ∀ q, ((sharedRun first events).call q).isWriting = false)
    (hidle : (sharedRun first events).call p = .idle) (hreading : ∀ e ∈ reading, e.isQuiet)
    (hread : (reading.filter fun e => e.process = p) = readCall p) :
    Seqlock.odd ((sharedRun first events).mem .epoch) = false ∧
      ((sharedRun first (events ++ reading)).result p).IsValid ∧
        ∀ f ≠ .epoch,
          (∃ state ∈ (sharedRun first events).passed,
            (sharedRun first (events ++ reading)).result p f = state f) ∨
          (sharedRun first events).passed = [] ∧
            (sharedRun first (events ++ reading)).result p f = first f := by
  have hinv : EpochInv first (sharedRun first events : Shared π) :=
    h.invariant (EpochInv.start heven) fun hinv ok => hinv.step ok
  have hrest : ∀ q, ((sharedRun first events).call q).isCopying = false ∧
      ((sharedRun first events).call q).isQuiet ∧
        ∀ f, ¬((sharedRun first events).call q).WillStore f := by
    intro q
    have hsound := hinv.sound q
    have hq := hdone q
    revert hsound hq
    cases (sharedRun first events).call q <;>
      simp [Call.Sound, Call.isWriting, Call.isCopying, Call.isQuiet, Call.WillStore]
  have hmem := hinv.even fun q => (hrest q).1
  have hvalid := hinv.isValid hfirst
  have hresult : (sharedRun first (events ++ reading)).result p = (sharedRun first events).mem := by
    have hquiet := read_of_quiet hidle (fun q => (hrest q).2.1) hvalid hmem hreading hread
    rwa [sharedRun, Machine.run_append]
  refine ⟨hmem, by rwa [hresult], ?_⟩
  intro f hf
  rw [hresult]
  obtain hstored | ⟨hf', hnil | ⟨q, hq⟩⟩ := hinv.source f hf
  · exact .inl hstored
  · exact .inr ⟨hnil, hf'⟩
  · exact absurd hq ((hrest q).2.2 f)

/-- `Write` without interruption is allowed when the epoch is even. -/
lemma guarded_evenWrite {state} (hs : s.call p = .idle) (heven : Seqlock.odd (s.mem .epoch) = false)
    (hvalid : state.IsValid) :
    Machine.Guarded Shared.step (fun s e => WritesValid s e ∧ LoadsEven s e) s
      (writeCall p state) := by
  apply Shared.guarded_writeCall hs ⟨hvalid, trivial⟩
  · intro t _ hmem
    refine ⟨trivial, fun _ _ => ?_⟩
    rw [hmem]
    exact heven
  · intro t seq ht
    exact ⟨trivial, by simp [LoadsEven, ht]⟩
  · intro t seq rest ht _
    exact ⟨trivial, by simp [LoadsEven, ht]⟩

end

/-- What the second of two processes writes. -/
def secondState : SharedState := Function.update SharedState.InitDefaults .configGeneration 1

/-- Two processes write one after the other. -/
def writesInTurn : List (SharedEvent Bool) :=
  writeCall false .InitDefaults ++ writeCall true secondState

/-- Writes in turn meet the guard. -/
lemma guarded_writesInTurn : Machine.Guarded Shared.step (fun s e => WritesValid s e ∧ LoadsEven s e)
    (Shared.init .InitDefaults) writesInTurn := by
  rw [writesInTurn, Machine.guarded_append, Shared.run_writeCall rfl]
  refine ⟨guarded_evenWrite rfl rfl (by decide), guarded_evenWrite rfl ?_ (by decide)⟩
  simp only [Function.update_self]
  rfl

/-- After them nobody is in a call. -/
lemma call_writesInTurn (q : Bool) : (sharedRun .InitDefaults writesInTurn).call q = .idle := by
  rw [sharedRun, writesInTurn, Machine.run_append, Shared.run_writeCall (p := false) rfl,
    Shared.run_writeCall rfl]
  rfl

/-- After two calls of `Write` in turn the epoch is even and a `Read` returns what was passed. -/
theorem read_of_loadsEven_inTurn :
    Seqlock.odd ((sharedRun .InitDefaults writesInTurn).mem .epoch) = false ∧
      ((sharedRun .InitDefaults (writesInTurn ++ readCall false)).result false).IsValid ∧
        ∀ f ≠ .epoch,
          (∃ state ∈ (sharedRun .InitDefaults writesInTurn).passed,
            (sharedRun .InitDefaults (writesInTurn ++ readCall false)).result false f = state f) ∨
          (sharedRun .InitDefaults writesInTurn).passed = [] ∧
            (sharedRun .InitDefaults (writesInTurn ++ readCall false)).result false f =
              SharedState.InitDefaults f := by
  apply read_of_loadsEven (by decide) rfl guarded_writesInTurn
  · intro q
    rw [call_writesInTurn]
    rfl
  · exact call_writesInTurn false
  · intro e he
    obtain rfl | rfl := mem_readCall he <;> rfl
  · apply List.filter_eq_self.2
    intro e he
    obtain rfl | rfl := mem_readCall he <;> rfl

/-- Two processes write; the second loads the epoch after the first made it odd. -/
def writesOverlapping : List (SharedEvent Bool) :=
  writeBegin false .InitDefaults ++ writeBegin true secondState ++ writeEnd false ++ writeEnd true

/-- The first call is past its mark and the second past its own, which is even. -/
def overlapped : Shared Bool :=
  { (Shared.init .InitDefaults : Shared Bool) with
    mem := Function.update SharedState.InitDefaults .epoch 2
    call := fun p => cond p (.writeCopy secondState 2 writeOrder)
      (.writeCopy .InitDefaults 1 writeOrder)
    passed := [secondState, .InitDefaults] }

/-- Two overlapping calls of `Write` leave the epoch odd. -/
lemma run_writesOverlapping : (sharedRun .InitDefaults writesOverlapping).mem .epoch = 3#32 ∧
    ∀ q, (sharedRun .InitDefaults writesOverlapping).call q = .idle := by
  have hoverlapped : Machine.run Shared.step (Shared.init .InitDefaults)
      (writeBegin false .InitDefaults ++ writeBegin true secondState) = overlapped := by
    rw [Machine.run_append, Shared.run_writeBegin (p := false) rfl, Shared.run_writeBegin rfl]
    simp only [Shared.goto, Shared.store, Function.update_idem, Function.update_self]
    rw [overlapped]
    congr 1
    funext q
    cases q <;> rfl
  rw [sharedRun, writesOverlapping, Machine.run_append, Machine.run_append, hoverlapped,
    Shared.run_writeEnd (s := overlapped) (p := false) rfl, Shared.run_writeEnd (p := true) rfl]
  refine ⟨?_, fun q => ?_⟩
  · simp only [Function.update_self]
    rfl
  · cases q <;> rfl

/-- The epoch can be odd when no `Write` is under way. -/
theorem epoch_odd_at_rest : ¬∀ events : List (SharedEvent Bool),
    Machine.Guarded Shared.step WritesValid (Shared.init .InitDefaults) events →
    (∀ q, ((sharedRun .InitDefaults events).call q).isWriting = false) →
    Seqlock.odd ((sharedRun .InitDefaults events).mem .epoch) = false := by
  intro h
  have hodd := h writesOverlapping ?_ ?_
  · rw [run_writesOverlapping.1] at hodd
    revert hodd
    decide
  · apply Machine.guarded_of_forall
    intro e he s
    have hcases : e = .Write false .InitDefaults ∨ e = .Write true secondState ∨ e = .step false ∨
        e = .step true := by
      simp only [writesOverlapping, writeBegin, writeEnd, List.mem_cons, List.mem_append,
        List.mem_replicate, List.not_mem_nil] at he
      tauto
    obtain rfl | rfl | rfl | rfl := hcases
    · exact (by decide : SharedState.InitDefaults.IsValid)
    · exact (by decide : secondState.IsValid)
    · trivial
    · trivial
  · intro q
    rw [run_writesOverlapping.2]
    rfl

end NextKey
