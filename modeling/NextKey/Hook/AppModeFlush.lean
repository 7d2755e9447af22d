import Mathlib.Data.BitVec
import Mathlib.Tactic.Lemma
import NextKey.Lib.Machine

/-!
# The app modes on disk

The modes of the apps live in `appModeMap_`, which the hook thread changes and of which it publishes a
copy. Model of its writers in `app/system/HookEngine.cpp` (the SAVE of `ApplyFocusOnHookThread`, the
toggle of `ApplyToggleVNOnHookThread`, and the map that `ReloadFromToml` loads for
`ApplyConfigOnHookThread` when smart switch is turned on), of `PublishAppModesSnapshot`, and of the
writers of the file: the end of `OnTickPoll` on the worker, three seconds after the last change, and
`FlushSmartSwitchOnStop`. The steps of the threads interleave in any order; a save may fail, and so may
the allocation of a copy.

The worker clears the dirty flag before it takes the copy and sets it again when the save fails, so no
change is left behind: when nothing is under way and nothing is dirty, the file holds every change
(`modes_saved`). Turning smart switch on is the weak point. The map is loaded on the worker and put in
place on the hook thread later: what is not saved when it is loaded and what is changed before it is in
place is undone by it, and who stops the engine in between writes the map of before over the file
(`modes_lost`).
-/

namespace NextKey

/-- C++ `kSmartSwitchDebounceMs` -/
def kSmartSwitchDebounceMs : Nat := 3000

/-- Where the hook thread stands after a change of the map. -/
inductive ModeWrite where
  | idle
  /-- Before the copy is published, of a change or of a map that was loaded. -/
  | publish (change : Bool)
  | mark
  | stamp
  deriving DecidableEq

/-- Where the worker stands in the saving of `OnTickPoll`. -/
inductive ModeFlush (μ : Type) where
  | idle
  | readClock
  | readStamp (now : BitVec 64)
  | clear (now : BitVec 64)
  | snapshot (now : BitVec 64)
  | save (now : BitVec 64) (snap : Option μ)
  | mark (now : BitVec 64)
  | stamp (now : BitVec 64)
  deriving DecidableEq

/-- The map of the modes with its copies. -/
structure AppModeStore (μ : Type) where
  smartSwitch : Bool
  appModeMap : μ
  appModesSnap : Option μ
  appModeDirty : Bool
  lastDirtyTs : BitVec 64
  pendingAppModeMap : Option μ
  disk : μ
  now : BitVec 64
  hook : ModeWrite
  worker : ModeFlush μ
  /-- The modes of the file at the start with every change since. -/
  chosen : μ

/-- What the threads do; `ok` tells whether the allocation or the save succeeds. -/
inductive ModeEvent (μ : Type) where
  /-- The hook thread changes the map. -/
  | change (f : μ → μ)
  | hook (ok : Bool)
  /-- The worker comes to the saving of `OnTickPoll`. -/
  | tick
  | worker (ok : Bool)
  | ReloadFromToml (smartSwitch : Bool)
  | ApplyConfigOnHookThread
  /-- Both threads have ended. -/
  | FlushSmartSwitchOnStop (ok : Bool)
  | elapse (ms : BitVec 64)

namespace AppModeStore

variable {μ : Type}

/-- The start, which loads the file when smart switch is on. -/
def init (smartSwitch : Bool) (empty disk : μ) (now : BitVec 64) : AppModeStore μ where
  smartSwitch := smartSwitch
  appModeMap := if smartSwitch then disk else empty
  appModesSnap := if smartSwitch then some disk else none
  appModeDirty := false
  lastDirtyTs := 0
  pendingAppModeMap := none
  disk := disk
  now := now
  hook := .idle
  worker := .idle
  chosen := disk

/-- The next step of the hook thread after a change. -/
def stepHook (s : AppModeStore μ) (ok : Bool) : AppModeStore μ :=
  match s.hook with
  | .idle => s
  | .publish change =>
    { s with
      appModesSnap := if ok then some s.appModeMap else s.appModesSnap
      hook := if change then .mark else .idle }
  | .mark => { s with appModeDirty := true, hook := .stamp }
  | .stamp => { s with lastDirtyTs := s.now, hook := .idle }

/-- The next step of the worker in `OnTickPoll`. -/
def stepWorker (s : AppModeStore μ) (ok : Bool) : AppModeStore μ :=
  match s.worker with
  | .idle => s
  | .readClock => { s with worker := .readStamp s.now }
  | .readStamp now =>
    { s with
      worker := if kSmartSwitchDebounceMs ≤ (now - s.lastDirtyTs).toNat then .clear now else .idle }
  | .clear now => { s with appModeDirty := false, worker := .snapshot now }
  | .snapshot now => { s with worker := .save now s.appModesSnap }
  | .save _ none => { s with worker := .idle }
  | .save now (some map) =>
    if ok then { s with disk := map, worker := .idle } else { s with worker := .mark now }
  | .mark now => { s with appModeDirty := true, worker := .stamp now }
  | .stamp now => { s with lastDirtyTs := now, worker := .idle }

/-- What a step does; a thread that is under way begins nothing else. -/
def step (s : AppModeStore μ) : ModeEvent μ → AppModeStore μ
  | .change f =>
    match s.hook, s.smartSwitch with
    | .idle, true => { s with appModeMap := f s.appModeMap, hook := .publish true, chosen := f s.chosen }
    | _, _ => s
  | .hook ok => s.stepHook ok
  | .tick =>
    match s.worker, s.appModeDirty with
    | .idle, true => { s with worker := .readClock }
    | _, _ => s
  | .worker ok => s.stepWorker ok
  | .ReloadFromToml smartSwitch =>
    match s.worker with
    | .idle =>
      { s with
        smartSwitch := smartSwitch
        pendingAppModeMap :=
          if !s.smartSwitch && smartSwitch then some s.disk else s.pendingAppModeMap }
    | _ => s
  | .ApplyConfigOnHookThread =>
    match s.hook, s.pendingAppModeMap with
    | .idle, some loaded =>
      { s with appModeMap := loaded, pendingAppModeMap := none, hook := .publish false }
    | _, _ => s
  | .FlushSmartSwitchOnStop ok =>
    match s.hook, s.worker with
    | .idle, .idle =>
      if s.smartSwitch && ok then { s with disk := s.appModeMap, appModeDirty := false } else s
    | _, _ => s
  | .elapse ms => { s with now := s.now + ms }

/-- No change of the map and no save is under way, and nothing waits to be saved. -/
structure AtRest (s : AppModeStore μ) : Prop where
  hook : s.hook = .idle
  worker : s.worker = .idle
  clean : s.appModeDirty = false

/-- Smart switch is turned on when all is saved, while the loaded map waits nothing is changed and the
engine is not stopped, and copies are allocated. -/
def Careful (s : AppModeStore μ) : ModeEvent μ → Prop
  | .ReloadFromToml smartSwitch => s.smartSwitch = false → smartSwitch = true → s.AtRest
  | .change _ => s.pendingAppModeMap = none
  | .FlushSmartSwitchOnStop _ => s.pendingAppModeMap = none
  | .hook ok => ∀ change, s.hook = .publish change → ok = true
  | _ => True

/-- Smart switch has been off since the start, or its first map is not in place yet. -/
structure Fresh (s : AppModeStore μ) : Prop where
  worker : s.worker = .idle
  clean : s.appModeDirty = false
  disk : s.disk = s.chosen
  waiting : s.hook = .idle ∧ (s.smartSwitch = true → s.pendingAppModeMap = some s.chosen) ∨
    s.hook = .publish false ∧ s.appModeMap = s.chosen

/-- A change is on its way to the worker. -/
def Underway (s : AppModeStore μ) : Prop :=
  s.appModeDirty = true ∨ s.hook = .publish true ∨ s.hook = .mark

/-- The worker writes the file. -/
def Saving : ModeFlush μ → Prop
  | .snapshot _ | .save _ _ | .mark _ => True
  | _ => False

/-- The map is in place. -/
structure Live (s : AppModeStore μ) : Prop where
  map : s.appModeMap = s.chosen
  copy : s.appModesSnap.isSome
  published : s.hook ≠ .publish true → s.appModesSnap = some s.chosen
  copied : ∀ now snap, s.worker = .save now snap → snap = some s.chosen ∨ snap.isSome ∧ s.Underway
  saved : ¬Saving s.worker → s.disk = s.chosen ∨ s.Underway

/-- What every careful step preserves. -/
structure FlushInv (s : AppModeStore μ) : Prop where
  pending : ∀ loaded ∈ s.pendingAppModeMap, loaded = s.chosen
  stage : s.Fresh ∨ s.Live

variable {s : AppModeStore μ} {e : ModeEvent μ}

/-- At rest all is saved. -/
lemma FlushInv.saved (h : s.FlushInv) (hrest : s.AtRest) : s.disk = s.chosen := by
  obtain hfresh | hlive := h.stage
  · exact hfresh.disk
  · obtain hdisk | hdirty | hhook | hhook := hlive.saved (by rw [hrest.worker]; exact id)
    · exact hdisk
    · exact absurd (hrest.clean.symm.trans hdirty) nofun
    · exact absurd (hrest.hook.symm.trans hhook) nofun
    · exact absurd (hrest.hook.symm.trans hhook) nofun

/-- At the start. -/
lemma FlushInv.start {smartSwitch : Bool} {empty disk : μ} {now : BitVec 64} :
    (init smartSwitch empty disk now).FlushInv := by
  refine ⟨nofun, ?_⟩
  cases smartSwitch with
  | false => exact .inl ⟨rfl, rfl, rfl, .inl ⟨rfl, nofun⟩⟩
  | true => exact .inr ⟨rfl, rfl, fun _ => rfl, nofun, fun _ => .inl rfl⟩

/-- The first map gets in place. -/
lemma Fresh.step (h : s.Fresh) (hpending : ∀ loaded ∈ s.pendingAppModeMap, loaded = s.chosen)
    (hok : s.Careful e) : (s.step e).Fresh ∨ (s.step e).Live := by
  obtain ⟨hworker, hclean, hdisk, hwaiting⟩ := h
  have hsame : ∀ {t : AppModeStore μ}, t = s → t.Fresh ∨ t.Live := by
    rintro t rfl
    exact .inl ⟨hworker, hclean, hdisk, hwaiting⟩
  cases e with
  | change f =>
    obtain ⟨hhook, hwaits⟩ | ⟨hhook, -⟩ := hwaiting
    · cases hon : s.smartSwitch with
      | false => exact hsame (by simp only [AppModeStore.step, hhook, hon])
      | true =>
        have hnone : s.pendingAppModeMap = none := hok
        exact absurd (hnone.symm.trans (hwaits hon)) nofun
    · exact hsame (by simp only [AppModeStore.step, hhook])
  | hook ok =>
    obtain ⟨hhook, -⟩ | ⟨hhook, hmap⟩ := hwaiting
    · exact hsame (by simp only [AppModeStore.step, stepHook, hhook])
    · obtain rfl : ok = true := hok false hhook
      refine .inr ?_
      simp only [AppModeStore.step, stepHook, hhook, if_true, Bool.false_eq_true, if_false]
      refine ⟨hmap, rfl, fun _ => congrArg some hmap, fun now snap hsave => ?_, fun _ => .inl hdisk⟩
      exact absurd (hworker.symm.trans hsave) nofun
  | tick => exact hsame (by simp only [AppModeStore.step, hworker, hclean])
  | worker ok => exact hsame (by simp only [AppModeStore.step, stepWorker, hworker])
  | ReloadFromToml smartSwitch =>
    refine .inl ?_
    simp only [AppModeStore.step, hworker]
    refine ⟨rfl, hclean, hdisk, hwaiting.imp (fun hwaits => ⟨hwaits.1, fun hon => ?_⟩) id⟩
    obtain rfl : smartSwitch = true := hon
    cases hbefore : s.smartSwitch with
    | false => simp [hdisk]
    | true => simpa using hwaits.2 hbefore
  | ApplyConfigOnHookThread =>
    obtain ⟨hhook, -⟩ | ⟨hhook, -⟩ := hwaiting
    · cases hloaded : s.pendingAppModeMap with
      | none => exact hsame (by simp only [AppModeStore.step, hhook, hloaded])
      | some loaded =>
        refine .inl ?_
        simp only [AppModeStore.step, hhook, hloaded]
        exact ⟨hworker, hclean, hdisk, .inr ⟨rfl, hpending loaded hloaded⟩⟩
    · exact hsame (by simp only [AppModeStore.step, hhook])
  | FlushSmartSwitchOnStop ok =>
    obtain ⟨hhook, hwaits⟩ | ⟨hhook, -⟩ := hwaiting
    · cases hon : s.smartSwitch with
      | false => exact hsame (by simp [AppModeStore.step, hhook, hworker, hon])
      | true =>
        have hnone : s.pendingAppModeMap = none := hok
        exact absurd (hnone.symm.trans (hwaits hon)) nofun
    · exact hsame (by simp only [AppModeStore.step, hhook])
  | elapse ms => exact .inl ⟨hworker, hclean, hdisk, hwaiting⟩

/-- The hook thread goes on. -/
lemma Live.stepHook (h : s.Live) {ok : Bool} (hok : s.Careful (.hook ok)) : (s.stepHook ok).Live := by
  unfold AppModeStore.stepHook
  cases hhook : s.hook with
  | idle => exact h
  | publish change =>
    obtain rfl : ok = true := hok change hhook
    refine ⟨h.map, rfl, fun _ => congrArg some h.map, fun now snap hsave => ?_, fun hsaving => ?_⟩
    · refine (h.copied now snap hsave).imp_right (And.imp_right fun hunderway => ?_)
      obtain hdirty | hpublish | hmark := hunderway
      · exact .inl hdirty
      · obtain rfl := ModeWrite.publish.inj (hhook.symm.trans hpublish)
        exact .inr (.inr rfl)
      · exact absurd (hhook.symm.trans hmark) nofun
    · refine (h.saved hsaving).imp_right fun hunderway => ?_
      obtain hdirty | hpublish | hmark := hunderway
      · exact .inl hdirty
      · obtain rfl := ModeWrite.publish.inj (hhook.symm.trans hpublish)
        exact .inr (.inr rfl)
      · exact absurd (hhook.symm.trans hmark) nofun
  | mark =>
    refine ⟨h.map, h.copy, fun _ => h.published (by simp [hhook]), fun now snap hsave => ?_,
      fun _ => .inr (.inl rfl)⟩
    exact (h.copied now snap hsave).imp_right (And.imp_right fun _ => .inl rfl)
  | stamp =>
    have hunderway : s.Underway → s.appModeDirty = true := by
      rintro (hdirty | hpublish | hmark)
      · exact hdirty
      · exact absurd (hhook.symm.trans hpublish) nofun
      · exact absurd (hhook.symm.trans hmark) nofun
    refine ⟨h.map, h.copy, fun _ => h.published (by simp [hhook]), fun now snap hsave => ?_,
      fun hsaving => ?_⟩
    · exact (h.copied now snap hsave).imp_right (And.imp_right fun hu => .inl (hunderway hu))
    · exact (h.saved hsaving).imp_right fun hu => .inl (hunderway hu)

/-- The worker goes on. -/
lemma Live.stepWorker (h : s.Live) {ok : Bool} : (s.stepWorker ok).Live := by
  unfold AppModeStore.stepWorker
  cases hworker : s.worker with
  | idle => exact h
  | readClock => exact ⟨h.map, h.copy, h.published, nofun, fun _ => h.saved (by rw [hworker]; exact id)⟩
  | readStamp now =>
    have hsaved := h.saved (by rw [hworker]; exact id)
    refine ⟨h.map, h.copy, h.published, fun now' snap hsave => ?_, fun _ => hsaved⟩
    dsimp only at hsave
    split at hsave <;> cases hsave
  | clear now => exact ⟨h.map, h.copy, h.published, nofun, fun hsaving => absurd trivial hsaving⟩
  | snapshot now =>
    refine ⟨h.map, h.copy, h.published, fun now' snap hsave => ?_, fun hsaving => absurd trivial hsaving⟩
    obtain ⟨-, rfl⟩ := ModeFlush.save.inj hsave
    by_cases hpublish : s.hook = .publish true
    · exact .inr ⟨h.copy, .inr (.inl hpublish)⟩
    · exact .inl (h.published hpublish)
  | save now snap =>
    have hcopied := h.copied now snap hworker
    cases snap with
    | none =>
      obtain hnone | ⟨hsome, -⟩ := hcopied
      · cases hnone
      · cases hsome
    | some map =>
      cases ok with
      | false => exact ⟨h.map, h.copy, h.published, nofun, fun hsaving => absurd trivial hsaving⟩
      | true =>
        refine ⟨h.map, h.copy, h.published, nofun, fun _ => ?_⟩
        exact hcopied.imp Option.some.inj And.right
  | mark now =>
    exact ⟨h.map, h.copy, h.published, nofun, fun _ => .inr (.inl rfl)⟩
  | stamp now =>
    have hsaved := h.saved (by rw [hworker]; exact id)
    exact ⟨h.map, h.copy, h.published, nofun, fun _ => hsaved⟩

/-- What every event preserves once the map is in place. -/
lemma Live.step (h : s.Live) (hpending : ∀ loaded ∈ s.pendingAppModeMap, loaded = s.chosen)
    (hok : s.Careful e) : (s.step e).Live := by
  -- what a save that is under way was to write and what is not saved stay covered
  have hcovered : ∀ {t : AppModeStore μ}, t.appModeMap = t.chosen → t.appModesSnap = s.appModesSnap →
      t.worker = s.worker → (t.hook ≠ .publish true → t.appModesSnap = some t.chosen) → t.Underway →
      t.Live := by
    intro t hmap hsnap hworker hpublished hunderway
    refine ⟨hmap, by rw [hsnap]; exact h.copy, hpublished, fun now snap hsave => ?_,
      fun _ => .inr hunderway⟩
    obtain rfl | ⟨hsome, -⟩ := h.copied now snap (hworker.symm.trans hsave)
    · exact .inr ⟨rfl, hunderway⟩
    · exact .inr ⟨hsome, hunderway⟩
  cases e with
  | change f =>
    simp only [AppModeStore.step]
    split
    · refine hcovered (congrArg f h.map) rfl rfl (fun hnot => absurd rfl hnot) (.inr (.inl rfl))
    · exact h
  | hook ok => exact h.stepHook hok
  | tick =>
    simp only [AppModeStore.step]
    split
    · next hworker hdirty => exact ⟨h.map, h.copy, h.published, nofun, fun _ => .inr (.inl hdirty)⟩
    · exact h
  | worker ok => exact h.stepWorker
  | ReloadFromToml smartSwitch =>
    simp only [AppModeStore.step]
    split
    · exact ⟨h.map, h.copy, h.published, h.copied, h.saved⟩
    · exact h
  | ApplyConfigOnHookThread =>
    simp only [AppModeStore.step]
    split
    · next loaded hhook hloaded =>
      have hunderway : s.Underway → s.appModeDirty = true := by
        rintro (hdirty | hpublish | hmark)
        · exact hdirty
        · exact absurd (hhook.symm.trans hpublish) nofun
        · exact absurd (hhook.symm.trans hmark) nofun
      refine ⟨hpending loaded hloaded, h.copy, fun _ => h.published (by simp [hhook]),
        fun now snap hsave => ?_, fun hsaving => ?_⟩
      · exact (h.copied now snap hsave).imp_right (And.imp_right fun hu => .inl (hunderway hu))
      · exact (h.saved hsaving).imp_right fun hu => .inl (hunderway hu)
    · exact h
  | FlushSmartSwitchOnStop ok =>
    simp only [AppModeStore.step]
    split
    · next hhook hworker =>
      split
      · refine ⟨h.map, h.copy, h.published, fun now snap hsave => ?_, fun _ => .inl h.map⟩
        exact absurd (hworker.symm.trans hsave) nofun
      · exact h
    · exact h
  | elapse ms => exact ⟨h.map, h.copy, h.published, h.copied, h.saved⟩

/-- What every careful event preserves. -/
lemma FlushInv.step (h : s.FlushInv) (hok : s.Careful e) : (s.step e).FlushInv := by
  have hstage : (s.step e).Fresh ∨ (s.step e).Live := by
    obtain hfresh | hlive := h.stage
    · exact hfresh.step h.pending hok
    · exact .inr (hlive.step h.pending hok)
  refine ⟨?_, hstage⟩
  have hpending := h.pending
  cases e with
  | change f =>
    have hnone : s.pendingAppModeMap = none := hok
    simp only [AppModeStore.step]
    split <;> simp [hnone]
  | hook ok =>
    simp only [AppModeStore.step, AppModeStore.stepHook]
    split <;> exact hpending
  | tick =>
    simp only [AppModeStore.step]
    split <;> exact hpending
  | worker ok =>
    simp only [AppModeStore.step, AppModeStore.stepWorker]
    split <;> first | exact hpending | (split <;> exact hpending)
  | ReloadFromToml smartSwitch =>
    simp only [AppModeStore.step]
    split
    · cases hon : !s.smartSwitch && smartSwitch with
      | false => simpa [hon] using hpending
      | true =>
        rw [Bool.and_eq_true, Bool.not_eq_true'] at hon
        simpa [hon] using h.saved (hok hon.1 hon.2)
    · exact hpending
  | ApplyConfigOnHookThread =>
    simp only [AppModeStore.step]
    split
    · exact nofun
    · exact hpending
  | FlushSmartSwitchOnStop ok =>
    simp only [AppModeStore.step]
    split
    · split <;> exact hpending
    · exact hpending
  | elapse ms => exact hpending

end AppModeStore

open AppModeStore

/-- In a careful run the file holds every change whenever nothing is under way and nothing waits. -/
theorem modes_saved {μ : Type} {smartSwitch : Bool} {empty disk : μ} {now : BitVec 64}
    {events : List (ModeEvent μ)}
    (hcareful : Machine.Guarded step Careful (init smartSwitch empty disk now) events)
    (hrest : (Machine.run step (init smartSwitch empty disk now) events).AtRest) :
    (Machine.run step (init smartSwitch empty disk now) events).disk =
      (Machine.run step (init smartSwitch empty disk now) events).chosen :=
  (hcareful.invariant FlushInv.start fun h hok => h.step hok).saved hrest

/-- A change whose first save fails. -/
def savedTwice : List (ModeEvent (List (String × Bool))) :=
  .change (("chat.exe", false) :: ·) :: .hook true :: .hook true :: .hook true :: .elapse 3000 :: .tick ::
    List.replicate 4 (.worker true) ++ .worker false :: .worker true :: .worker true :: .elapse 3000 ::
      .tick :: List.replicate 5 (.worker true)

/-- The second save gets through. -/
theorem modes_saved_twice :
    (Machine.run step (init true [] [("mail.exe", true)] 0) savedTwice).disk =
      [("chat.exe", false), ("mail.exe", true)] :=
  @modes_saved _ _ _ _ 0 _ (by simp [savedTwice, Machine.Guarded, Careful, init])
    ⟨by decide, by decide, by decide⟩

/-- Smart switch is turned on, and the engine is stopped before the loaded map is in place. -/
theorem modes_lost :
    ¬∀ events : List (ModeEvent (List (String × Bool))),
      (Machine.run step (init false [] [("mail.exe", true)] 0) events).AtRest →
        (Machine.run step (init false [] [("mail.exe", true)] 0) events).disk =
          (Machine.run step (init false [] [("mail.exe", true)] 0) events).chosen := by
  intro h
  have hlost := h [.ReloadFromToml true, .FlushSmartSwitchOnStop true] ⟨rfl, rfl, rfl⟩
  exact absurd hlost (by decide)

end NextKey
