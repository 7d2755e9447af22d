import Mathlib.Data.List.Basic
import NextKey.Ipc.SharedStateManager

/-!
# Flag updates

`ToggleFlag` and `SetOrClearFlag` change the shared flags word in one interlocked step, and `Write`
stores the flags it was given, which its caller copied earlier with `Read`. A flag operation between
the two is lost. As long as `Write` stores flags only if none took effect since its caller copied them,
the flags word is that of the flag operations alone, on every bit the callers of `Write` leave as they
read it (`flags_of_fresh`).
-/

namespace NextKey

/-- The flags word after flag operations. -/
def applyAll (ops : List FlagOp) (flags : BitVec 32) : BitVec 32 :=
  ops.foldl (fun w op => op.apply w) flags

/-- One more operation. -/
lemma applyAll_concat {ops op flags} :
    applyAll (ops ++ [op]) flags = op.apply (applyAll ops flags) := by
  simp [applyAll]

/-- A flag operation treats each bit on its own. -/
lemma FlagOp.apply_and {op : FlagOp} {a b mask : BitVec 32} (h : a &&& mask = b &&& mask) :
    op.apply a &&& mask = op.apply b &&& mask := by
  have hbit : ∀ i, (mask.getLsbD i = true → a.getLsbD i = b.getLsbD i) := by
    intro i hi
    have hi' := congrArg (·.getLsbD i) h
    simpa [hi] using hi'
  apply BitVec.eq_of_getLsbD_eq
  intro i _
  cases hm : mask.getLsbD i with
  | false => simp [hm]
  | true =>
    have hab := hbit i hm
    cases op with
    | ToggleFlag flagBit => simp [apply, hm, hab]
    | SetOrClearFlag flagBit set =>
      cases set with
      | true => simp [apply, hm, hab]
      | false => simp [apply, hm, hab]

section
variable {π : Type}

/-- `Write` is given what the last `Read` returned, changed outside of the masked flags. -/
def ReadModifyWrite (mask : BitVec 32) (s : Shared π) : SharedEvent π → Prop
  | .Write p state => (s.result p).IsValid ∧ state .flags &&& mask = s.result p .flags &&& mask
  | _ => True

/-- `Write` stores the flags only if no flag operation took effect since its caller copied them. -/
def FlagsFresh (s : Shared π) : SharedEvent π → Prop
  | .step p => ∀ state seq rest, s.call p = .writeCopy state seq (.flags :: rest) → s.stale p = false
  | _ => True

/-- Whether a process that copied the flags word last still agrees with it. -/
def Call.FlagsAgree (mask flags : BitVec 32) (result : SharedState) : Call → Prop
  | .readMagic | .readEpoch _ _ => True
  | .readCopy _ _ state rest => .flags ∉ rest → state .flags &&& mask = flags &&& mask
  | _ => result.IsValid → result .flags &&& mask = flags &&& mask

/-- What `Write` will store as flags is what its caller read. -/
def Call.FlagsRead (mask : BitVec 32) (result : SharedState) : Call → Prop
  | .writeLoad state | .writeMark state _ | .writeCopy state _ _ =>
    result.IsValid ∧ state .flags &&& mask = result .flags &&& mask
  | _ => True

/-- What holds while every stored flags word is fresh. -/
structure FlagsInv (mask : BitVec 32) (first : SharedState) (s : Shared π) : Prop where
  flags : s.mem .flags &&& mask = applyAll s.applied (first .flags) &&& mask
  agree : ∀ p, s.stale p = false → (s.call p).FlagsAgree mask (s.mem .flags) (s.result p)
  read : ∀ p, (s.call p).FlagsRead mask (s.result p)

/-- At the start. -/
lemma FlagsInv.start {mask first} : FlagsInv mask first (Shared.init first : Shared π) where
  flags := rfl
  agree p _ := by
    intro hvalid
    have hzero : ¬SharedState.zero.IsValid := by decide
    exact absurd hvalid hzero
  read p := trivial

variable [DecidableEq π] {mask : BitVec 32} {first : SharedState} {s : Shared π} {p : π}

/-- A process moves on and the flags word keeps its masked bits. -/
lemma FlagsInv.move {t : Shared π} (h : FlagsInv mask first s)
    (hcall : ∀ q, q ≠ p → t.call q = s.call q ∧ t.result q = s.result q ∧ t.stale q = s.stale q)
    (hflags : t.mem .flags &&& mask = s.mem .flags &&& mask) (happlied : t.applied = s.applied)
    (hagree : t.stale p = false → (t.call p).FlagsAgree mask (s.mem .flags) (t.result p))
    (hread : (t.call p).FlagsRead mask (t.result p)) : FlagsInv mask first t where
  flags := by rw [hflags, happlied, h.flags]
  agree q hq := by
    have hagree' : (t.call q).FlagsAgree mask (s.mem .flags) (t.result q) := by
      by_cases hqp : q = p
      · subst hqp
        exact hagree hq
      · obtain ⟨hc, hr, hst⟩ := hcall q hqp
        rw [hc, hr]
        exact h.agree q (by rwa [← hst])
    cases hc : t.call q <;> simp_all [Call.FlagsAgree]
  read q := by
    by_cases hqp : q = p
    · subst hqp
      exact hread
    · obtain ⟨hc, hr, -⟩ := hcall q hqp
      rw [hc, hr]
      exact h.read q

/-- A process goes on in its call. -/
lemma FlagsInv.goto {c} (h : FlagsInv mask first s)
    (hagree : s.stale p = false → c.FlagsAgree mask (s.mem .flags) (s.result p))
    (hread : c.FlagsRead mask (s.result p)) : FlagsInv mask first (s.goto p c) := by
  apply h.move (p := p)
  · intro q hq
    exact ⟨Function.update_of_ne hq .., rfl, rfl⟩
  · rfl
  · rfl
  · simpa [Shared.goto] using hagree
  · simpa [Shared.goto] using hread

/-- A call ends. -/
lemma FlagsInv.finish {state} (h : FlagsInv mask first s)
    (hagree : s.stale p = false → state.IsValid → state .flags &&& mask = s.mem .flags &&& mask) :
    FlagsInv mask first (s.finish p state) := by
  apply h.move (p := p)
  · intro q hq
    exact ⟨Function.update_of_ne hq .., Function.update_of_ne hq .., rfl⟩
  · rfl
  · rfl
  · simpa [Shared.finish, Call.FlagsAgree] using hagree
  · simp [Shared.finish, Call.FlagsRead]

omit [DecidableEq π] in
/-- A store that keeps the masked flags. -/
lemma FlagsInv.store {f} {v : BitVec f.width} (h : FlagsInv mask first s)
    (hflags : (s.store f v).mem .flags &&& mask = s.mem .flags &&& mask) :
    FlagsInv mask first (s.store f v) := by
  classical
  by_cases hπ : Nonempty π
  · obtain ⟨p⟩ := hπ
    exact h.move (p := p) (fun q _ => ⟨rfl, rfl, rfl⟩) hflags rfl (h.agree p) (h.read p)
  · exact ⟨by rw [hflags, h.flags]; rfl, fun p => (hπ ⟨p⟩).elim, fun p => (hπ ⟨p⟩).elim⟩

/-- `Read` copies a field. -/
lemma FlagsInv.copyField {i before state f rest} (h : FlagsInv mask first s)
    (hs : s.call p = .readCopy i before state (f :: rest)) :
    FlagsInv mask first (s.copyField p i before state f rest) := by
  apply h.move (p := p)
  · intro q hq
    refine ⟨Function.update_of_ne hq .., rfl, ?_⟩
    simp only [Shared.copyField]
    split
    · exact Function.update_of_ne hq ..
    · rfl
  · rfl
  · rfl
  · simp only [Shared.copyField, Function.update_self, Call.FlagsAgree]
    intro hst hrest
    by_cases hf : f = .flags
    · subst hf
      simp
    · rw [if_neg hf] at hst
      have hagree := h.agree p hst
      rw [hs] at hagree
      rw [Function.update_of_ne (Ne.symm hf)]
      exact hagree (by simp [hrest, Ne.symm hf])
  · simp [Shared.copyField, Call.FlagsRead]

/-- A flag operation takes effect. -/
lemma FlagsInv.applyFlag {op} (h : FlagsInv mask first s) (hs : s.call p = .flagApply op) :
    FlagsInv mask first (s.applyFlag p op) := by
  refine ⟨?_, ?_, ?_⟩
  · simp only [Shared.applyFlag, Shared.store, Function.update_self]
    rw [applyAll_concat]
    exact FlagOp.apply_and h.flags
  · intro q hq
    simp only [Shared.applyFlag] at hq ⊢
    split at hq
    · next hsame =>
      have hagree := h.agree q hq
      simp only [Shared.store, Function.update_self, hsame]
      by_cases hqp : q = p
      · subst hqp
        rw [hs] at hagree
        simpa [Call.FlagsAgree] using hagree
      · rwa [Function.update_of_ne hqp]
    · cases hq
  · intro q
    simp only [Shared.applyFlag, Shared.store]
    by_cases hqp : q = p
    · subst hqp
      simp [Call.FlagsRead]
    · rw [Function.update_of_ne hqp]
      exact h.read q

/-- A process takes a step in its call. -/
lemma FlagsInv.stepCall (h : FlagsInv mask first s) (ok : FlagsFresh s (.step p)) :
    FlagsInv mask first (s.stepCall p) := by
  have hagree := h.agree p
  have hread := h.read p
  have hzero : ¬SharedState.zero.IsValid := by decide
  cases hs : s.call p with
  | idle => simpa [Shared.stepCall, hs] using h
  | readMagic =>
    simp only [Shared.stepCall, hs]
    split
    · exact h.goto (fun _ => trivial) trivial
    · exact h.finish fun _ hvalid => absurd hvalid hzero
  | readEpoch i state =>
    simp only [Shared.stepCall, hs]
    exact h.goto (fun _ hrest => absurd (mem_readOrder .flags) hrest) trivial
  | readCopy i before state rest =>
    cases rest with
    | cons f rest =>
      simp only [Shared.stepCall, hs]
      exact h.copyField hs
    | nil =>
      simp only [Shared.stepCall, hs]
      split
      · apply h.finish
        intro hst _
        have hcopy := hagree hst
        rw [hs] at hcopy
        exact hcopy (by simp)
      · split
        · exact h.goto (fun _ => trivial) trivial
        · exact h.finish fun _ hvalid => absurd hvalid hzero
  | writeLoad state =>
    rw [hs] at hagree hread
    simp only [Shared.stepCall, hs]
    exact h.goto hagree hread
  | writeMark state seq =>
    rw [hs] at hagree hread
    simp only [Shared.stepCall, hs]
    exact (h.store (by simp [Shared.store])).goto hagree hread
  | writeCopy state seq rest =>
    rw [hs] at hagree hread
    cases rest with
    | nil =>
      simp only [Shared.stepCall, hs]
      exact (h.store (by simp [Shared.store])).goto hagree trivial
    | cons f rest =>
      simp only [Shared.stepCall, hs]
      have hkeep : (s.store f (state f)).mem .flags &&& mask = s.mem .flags &&& mask := by
        by_cases hf : f = .flags
        · subst hf
          have hst := ok state seq rest hs
          have hresult := hagree hst hread.1
          simp only [Shared.store, Function.update_self]
          exact hread.2.trans hresult
        · simp [Shared.store, Function.update_of_ne (Ne.symm hf)]
      apply (h.store hkeep).goto
      · intro hst hvalid
        exact (hagree hst hvalid).trans hkeep.symm
      · exact hread
  | epochMagic =>
    rw [hs] at hagree
    simp only [Shared.stepCall, hs]
    split
    · exact h.goto hagree trivial
    · have hidle : FlagsInv mask first (s.goto p .idle) := h.goto hagree trivial
      exact ⟨hidle.flags, hidle.agree, hidle.read⟩
  | epochLoad =>
    rw [hs] at hagree
    simp only [Shared.stepCall, hs]
    have hidle : FlagsInv mask first (s.goto p .idle) := h.goto hagree trivial
    exact ⟨hidle.flags, hidle.agree, hidle.read⟩
  | flagMagic op =>
    rw [hs] at hagree
    simp only [Shared.stepCall, hs]
    split
    · exact h.goto hagree trivial
    · exact h.goto hagree trivial
  | flagApply op =>
    simp only [Shared.stepCall, hs]
    exact h.applyFlag hs

/-- A process begins a call. -/
lemma FlagsInv.begin {c} (h : FlagsInv mask first s)
    (hagree : (Call.idle).FlagsAgree mask (s.mem .flags) (s.result p) →
      c.FlagsAgree mask (s.mem .flags) (s.result p))
    (hread : c.FlagsRead mask (s.result p)) : FlagsInv mask first (s.start p c) := by
  simp only [Shared.start]
  split
  · next hs =>
    have hidle := h.agree p
    rw [hs] at hidle
    exact h.goto (fun hst => hagree (hidle hst)) hread
  · exact h

/-- Every event keeps the invariant. -/
lemma FlagsInv.step {e} (h : FlagsInv mask first s)
    (ok : ReadModifyWrite mask s e ∧ FlagsFresh s e) : FlagsInv mask first (s.step e) := by
  cases e with
  | Read p => exact h.begin (fun _ => trivial) trivial
  | Write p state =>
    simp only [Shared.step]
    split
    · next hs =>
      have hagree := h.agree p
      rw [hs] at hagree
      have hgo : FlagsInv mask first (s.goto p (.writeLoad state)) := h.goto hagree ok.1
      exact ⟨hgo.flags, hgo.agree, hgo.read⟩
    · exact h
  | ReadEpoch p => exact h.begin id trivial
  | flag p op => exact h.begin id trivial
  | step p => exact h.stepCall ok.2

/-- While every `Write` stores flags no flag operation changed since they were read, the flags word is
    that of the flag operations alone, on the bits the callers of `Write` leave as they read them. -/
theorem flags_of_fresh {events : List (SharedEvent π)}
    (h : Machine.Guarded Shared.step (fun s e => ReadModifyWrite mask s e ∧ FlagsFresh s e)
      (Shared.init first) events) :
    (sharedRun first events).mem .flags &&& mask =
      applyAll (sharedRun first events).applied (first .flags) &&& mask :=
  (h.invariant FlagsInv.start fun hinv ok => hinv.step ok).flags

end

/-- A call of `ToggleFlag` without interruption. -/
def toggleCall {π : Type} (p : π) (flagBit : BitVec 32) : List (SharedEvent π) :=
  [.flag p (.ToggleFlag flagBit), .step p, .step p]

section
variable {π : Type} [DecidableEq π] {mask : BitVec 32} {s : Shared π} {p : π}

omit [DecidableEq π] in
/-- A step that does not store the flags is allowed. -/
lemma flagsFresh_step (h : ∀ state seq rest, s.call p ≠ .writeCopy state seq (.flags :: rest)) :
    ReadModifyWrite mask s (.step p) ∧ FlagsFresh s (.step p) :=
  ⟨trivial, fun state seq rest hs => absurd hs (h state seq rest)⟩

/-- `Read` without interruption is allowed. -/
lemma guarded_readCall (hs : s.call p = .idle) (hmagic : s.mem .magic = SharedState.MAGIC_VALUE) :
    Machine.Guarded Shared.step (fun s e => ReadModifyWrite mask s e ∧ FlagsFresh s e) s
      (readCall p) := by
  apply Shared.guarded_readCall hs hmagic ⟨trivial, trivial⟩
  intro t ht
  apply flagsFresh_step
  intro state seq rest hcall
  rw [hcall] at ht
  cases ht

/-- `Write` without interruption is allowed when it keeps the flags of a fresh `Read`. -/
lemma guarded_writeCall {state} (hs : s.call p = .idle) (hst : s.stale p = false)
    (hread : ReadModifyWrite mask s (.Write p state)) :
    Machine.Guarded Shared.step (fun s e => ReadModifyWrite mask s e ∧ FlagsFresh s e) s
      (writeCall p state) := by
  apply Shared.guarded_writeCall hs ⟨hread, trivial⟩
  · intro t ht _
    exact flagsFresh_step (by simp [ht])
  · intro t seq ht
    exact flagsFresh_step (by simp [ht])
  · intro t seq rest ht hstale
    refine ⟨trivial, fun _ _ _ _ => ?_⟩
    rw [hstale]
    exact hst

/-- A toggle without interruption. -/
lemma run_toggleCall {flagBit} (hs : s.call p = .idle)
    (hmagic : s.mem .magic = SharedState.MAGIC_VALUE) :
    Machine.run Shared.step s (toggleCall p flagBit) =
      { s.applyFlag p (.ToggleFlag flagBit) with call := s.call } := by
  have hcall : Function.update s.call p .idle = s.call := by rw [← hs, Function.update_eq_self]
  simp [toggleCall, Shared.step, Shared.start, Shared.stepCall, hs, Shared.goto, hmagic,
    Shared.applyFlag, Shared.store, hcall]

/-- Such a toggle meets the guard. -/
lemma guarded_toggleCall {flagBit} (hs : s.call p = .idle)
    (hmagic : s.mem .magic = SharedState.MAGIC_VALUE) :
    Machine.Guarded Shared.step (fun s e => ReadModifyWrite mask s e ∧ FlagsFresh s e) s
      (toggleCall p flagBit) := by
  refine ⟨⟨trivial, trivial⟩, flagsFresh_step ?_, flagsFresh_step ?_, trivial⟩
  · simp [Shared.step, Shared.start, hs, Shared.goto]
  · simp [Shared.step, Shared.start, Shared.stepCall, hs, Shared.goto, hmagic]

end

/-- What `SignalConfigChange` writes after it read a state of generation 0. -/
def signalled (read : SharedState) : SharedState := Function.update read .configGeneration 1

/-- One process toggles Vietnamese mode, then another reads and writes. -/
def toggleThenWrite : List (SharedEvent Bool) :=
  toggleCall true 1 ++ readCall false ++
    writeCall false (signalled (Function.update SharedState.InitDefaults .flags 2))

/-- A toggle and then a write meet it. -/
lemma guarded_toggleThenWrite : Machine.Guarded Shared.step
    (fun s e => ReadModifyWrite 1 s e ∧ FlagsFresh s e) (Shared.init .InitDefaults)
    toggleThenWrite := by
  have htoggle : Machine.run Shared.step (Shared.init .InitDefaults) (toggleCall true 1) =
      { (Shared.init .InitDefaults : Shared Bool) with
        mem := Function.update SharedState.InitDefaults .flags 2
        applied := [.ToggleFlag 1]
        stale := fun _ => true } := run_toggleCall rfl rfl
  rw [toggleThenWrite, Machine.guarded_append, Machine.guarded_append, Machine.run_append, htoggle,
    Shared.run_readCall rfl rfl rfl]
  refine ⟨⟨guarded_toggleCall rfl rfl, guarded_readCall rfl rfl⟩, guarded_writeCall rfl rfl ?_⟩
  exact ⟨by decide, by decide⟩

/-- The flag toggled before the `Read` is there after the `Write`. -/
theorem flags_of_fresh_toggleThenWrite :
    (sharedRun .InitDefaults toggleThenWrite).mem .flags &&& 1 =
      applyAll (sharedRun .InitDefaults toggleThenWrite).applied
        (SharedState.InitDefaults .flags) &&& 1 :=
  @flags_of_fresh Bool _ 1 .InitDefaults toggleThenWrite guarded_toggleThenWrite

/-- One process reads, another toggles Vietnamese mode, then the first writes. -/
def toggleBeforeWrite : List (SharedEvent Bool) :=
  readCall false ++ toggleCall true 1 ++ writeCall false (signalled SharedState.InitDefaults)

/-- So do they when the write has begun. -/
lemma guarded_toggleBeforeWrite :
    Machine.Guarded Shared.step (ReadModifyWrite 1) (Shared.init .InitDefaults) toggleBeforeWrite := by
  rw [toggleBeforeWrite, Machine.guarded_append, Machine.guarded_append, Machine.run_append,
    Shared.run_readCall rfl rfl rfl, run_toggleCall rfl rfl]
  refine ⟨⟨?_, trivial, trivial, trivial, trivial⟩, ?_⟩
  · exact Shared.guarded_readCall rfl rfl trivial fun _ _ => trivial
  · exact Shared.guarded_writeCall rfl ⟨by decide, by decide⟩ (fun _ _ _ => trivial)
      (fun _ _ _ => trivial) fun _ _ _ _ _ => trivial

/-- The flags are what they were before the toggle. -/
lemma flags_toggleBeforeWrite : (sharedRun .InitDefaults toggleBeforeWrite).mem .flags = 3#32 ∧
    (sharedRun .InitDefaults toggleBeforeWrite).applied = [.ToggleFlag 1] := by
  have hflags : SharedField.flags ∈ writeOrder := mem_writeOrder.2 (by decide)
  rw [sharedRun, toggleBeforeWrite, Machine.run_append, Machine.run_append,
    Shared.run_readCall rfl rfl rfl, run_toggleCall rfl rfl, Shared.run_writeCall rfl]
  simp only [copyFields, hflags, if_true,
    Function.update_of_ne (show SharedField.flags ≠ .epoch by decide)]
  exact ⟨rfl, rfl⟩

/-- A flag toggled between a `Read` and the `Write` after it is lost. -/
theorem flags_lost : ¬∀ events : List (SharedEvent Bool),
    Machine.Guarded Shared.step (ReadModifyWrite 1) (Shared.init .InitDefaults) events →
    (sharedRun .InitDefaults events).mem .flags &&& 1 =
      applyAll (sharedRun .InitDefaults events).applied (SharedState.InitDefaults .flags) &&& 1 := by
  intro h
  have hlost := h _ guarded_toggleBeforeWrite
  rw [flags_toggleBeforeWrite.1, flags_toggleBeforeWrite.2] at hlost
  revert hlost
  decide

end NextKey
