import Mathlib.Algebra.Group.Nat.Defs
import Mathlib.Data.List.Nodup
import NextKey.Hook.HijackDetector

/-!
# Whose keys are injected

Runs of the detector of `app/system/HookHijackDetector.cpp` beside the presses that it guesses at. A
press is seen by the hook, which counts it once at some later moment, or eaten by another hook, and
the polls see every press go down. The history records which press is behind a buffered key and behind
an injected character. A press that is polled before it is counted looks eaten; when its count comes
together with an eaten press, the two cancel out and it stays in the buffer.
-/

namespace NextKey

open HookHijackDetector

/-- A press of a key. -/
structure Press where
  id : Nat
  vk : BitVec 8
  eaten : Bool
  deriving DecidableEq, Repr

/-- A press whose key is buffered, with the modifiers it was polled with. -/
structure BufferedPress where
  press : Press
  mods : BitVec 8
  deriving DecidableEq, Repr

/-- The entry of the buffer. -/
def BufferedPress.key (b : BufferedPress) : PendingKey := ⟨b.press.vk, b.mods⟩

/-- The press, if its key has a character. -/
def BufferedPress.injected? (r : Readings) (b : BufferedPress) : Option Press :=
  (b.key.ghost? r).map fun _ => b.press

/-- The detector, the count of the hook, and what became of the presses. -/
structure History where
  detector : HookHijackDetector := {}
  hookFireCount : BitVec 64 := 0
  presses : Nat := 0
  /-- The presses that the hook has seen and not yet counted. -/
  late : List Nat := []
  /-- How often the hook has counted since the last reading. -/
  fired : Nat := 0
  /-- The presses since the keyboard was read last. -/
  unpolled : List Press := []
  /-- Those of them that the last count included. -/
  stale : List Nat := []
  buffered : List BufferedPress := []
  /-- The characters that were injected. -/
  ghosts : List GhostKey := []
  /-- The presses behind them. -/
  injected : List Press := []

/-- What happens in a run. -/
inductive KeyEvent where
  | press (vk : BitVec 8) (eaten : Bool)
  | bump (id : Nat)
  | poll (r : Readings)
  | setActive (active : Bool)

namespace History

variable (w : History) (r : Readings)

/-- The readings of a poll have the count of the hook. -/
def readings : Readings := { r with readHookFireCount := w.hookFireCount }

/-- The presses behind the keys that went down, in the order of the keys. -/
def seen (stateNow : KeyboardState) : List Press :=
  (keyDowns w.detector.prevState stateNow).filterMap fun vk => w.unpolled.find? fun p => p.vk = vk

/-- The presses behind the keys that a poll buffers. -/
def missed (stateNow : KeyboardState) : List BufferedPress :=
  if w.detector.hookCountDelta w.hookFireCount = 0 then
    ((w.seen stateNow).take kPendingVkCap).map (⟨·, PackMods stateNow⟩)
  else []

/-- The presses behind the buffer once a poll has added its keys. -/
def waiting (stateNow : KeyboardState) : List BufferedPress :=
  w.buffered ++ (w.missed stateNow).take (kPendingVkCap - w.buffered.length)

/-- A poll behind a baseline that reads the keyboard. -/
def pollSight (stateNow : KeyboardState) : History :=
  let result := w.detector.Poll (w.readings r)
  { w with
    detector := result.detector
    fired := 0
    unpolled := []
    stale := []
    buffered := if result.detector.pending.keys = [] then [] else w.waiting stateNow
    ghosts := w.ghosts ++ result.ghosts
    injected := w.injected ++
      if result.requestReinstall then
        (w.waiting stateNow).filterMap (BufferedPress.injected? (w.readings r))
      else [] }

/-- The presses that the hook has counted. -/
def counts : List Nat := (w.unpolled.filter fun p => !p.eaten && decide (p.id ∉ w.late)).map Press.id

/-- A poll that takes the baseline; a keyboard that cannot be read shows its presses later. -/
def pollBaseline : History :=
  { w with
    detector := (w.detector.Poll (w.readings r)).detector
    fired := 0
    unpolled := if r.readKeyboardState.isSome then [] else w.unpolled
    stale := if r.readKeyboardState.isSome then [] else w.counts
    buffered := [] }

/-- A poll. -/
def poll : History :=
  if w.detector.chromiumClassActive = false then w
  else if w.detector.pendingReset = true ∨ w.detector.baselinesValid = false then
    w.pollBaseline r
  else
    match w.detector.sight (w.readings r) with
    | none => w
    | some stateNow => w.pollSight r stateNow

/-- One event. -/
def step (w : History) : KeyEvent → History
  | .press vk eaten =>
    { w with
      presses := w.presses + 1
      late := if eaten then w.late else w.presses :: w.late
      unpolled := w.unpolled ++ [⟨w.presses, vk, eaten⟩] }
  | .bump id =>
    { w with hookFireCount := w.hookFireCount + 1, late := w.late.erase id, fired := w.fired + 1 }
  | .poll r => w.poll r
  | .setActive active => { w with detector := w.detector.SetChromiumClassActive active }

/-- The history after some events. -/
def run (events : List KeyEvent) : History := Machine.run step {} events

/-- The keyboard state that a poll behind a baseline reads. -/
def sight : Option KeyboardState :=
  if w.detector.chromiumClassActive = true ∧ w.detector.pendingReset = false ∧
      w.detector.baselinesValid = true then w.detector.sight (w.readings r)
  else none

/-- The runs: keys are trackable, a press that the hook has seen is counted once, before a poll that
    injects it, the polls see every press go down, and the count of 64 bits does not go round between
    two readings. -/
def Physical (w : History) : KeyEvent → Prop
  | .press vk _ => IsTrackableVk vk = true
  | .bump id => id ∈ w.late ∧ w.fired + 1 < 2 ^ 64
  | .poll r => ∀ stateNow ∈ w.sight r,
      (keyDowns w.detector.prevState stateNow).Perm (w.unpolled.map Press.vk) ∧
      ((w.detector.Poll (w.readings r)).requestReinstall = true →
        ∀ b ∈ w.waiting stateNow, b.press.id ∉ w.late)
  | .setActive _ => True

instance Physical.decidable : ∀ w e, Decidable (Physical w e)
  | _, .press vk _ => inferInstanceAs (Decidable (IsTrackableVk vk = true))
  | w, .bump id => inferInstanceAs (Decidable (id ∈ w.late ∧ w.fired + 1 < 2 ^ 64))
  -- there are too many keyboard states to try them all
  | w, .poll r => @Option.decidableForallMem _ (fun stateNow =>
      (keyDowns w.detector.prevState stateNow).Perm (w.unpolled.map Press.vk) ∧
      ((w.detector.Poll (w.readings r)).requestReinstall = true →
        ∀ b ∈ w.waiting stateNow, b.press.id ∉ w.late)) (fun _ => inferInstance) (w.sight r)
  | _, .setActive _ => inferInstanceAs (Decidable True)

/-- Every injected character belongs to an eaten press, and no press is injected twice. -/
structure NoDoubleTyping : Prop where
  belongs : List.Forall₂ (fun ghost press => press.vk = ghost.vk) w.ghosts w.injected
  eaten : ∀ press ∈ w.injected, press.eaten = true
  once : (w.injected.map Press.id).Nodup

/-- Where a poll sees more presses than the hook has counted, no key is buffered whose press the hook
    has seen; and where it passes the tolerance with nothing counted, it misses no key whose press was
    counted before a baseline that could not read the keyboard. -/
def Unmistaken (w : History) : KeyEvent → Prop
  | .poll r => ∀ stateNow ∈ w.sight r,
      w.detector.hookCountDelta w.hookFireCount < w.detector.thisPollDowns stateNow →
        (∀ b ∈ w.buffered, (b.injected? (w.readings r)).isSome → b.press.eaten = true) ∧
        (w.detector.hookCountDelta w.hookFireCount = 0 →
          kDriftTolerance < w.detector.accumulatedDrift + w.detector.thisPollDowns stateNow →
            ∀ b ∈ (w.missed stateNow).take (kPendingVkCap - w.buffered.length),
              (b.injected? (w.readings r)).isSome → b.press.id ∉ w.stale)
  | _ => True

instance Unmistaken.decidable : ∀ w e, Decidable (Unmistaken w e)
  | _, .press _ _ => inferInstanceAs (Decidable True)
  | _, .bump _ => inferInstanceAs (Decidable True)
  | w, .poll r => @Option.decidableForallMem _ (fun stateNow =>
      w.detector.hookCountDelta w.hookFireCount < w.detector.thisPollDowns stateNow →
        (∀ b ∈ w.buffered, (b.injected? (w.readings r)).isSome → b.press.eaten = true) ∧
        (w.detector.hookCountDelta w.hookFireCount = 0 →
          kDriftTolerance < w.detector.accumulatedDrift + w.detector.thisPollDowns stateNow →
            ∀ b ∈ (w.missed stateNow).take (kPendingVkCap - w.buffered.length),
              (b.injected? (w.readings r)).isSome → b.press.id ∉ w.stale))
      (fun _ => @instDecidableForall _ _ inferInstance inferInstance) (w.sight r)
  | _, .setActive _ => inferInstanceAs (Decidable True)

/-- In every state of a run. -/
def NeverDoubles (events : List KeyEvent) : Prop :=
  ∀ before, before <+: events → (run before).NoDoubleTyping

variable {w r}

/-- The numbers of the presses that the history holds. -/
def ids (w : History) : List Nat :=
  w.injected.map Press.id ++ w.buffered.map (·.press.id) ++ w.unpolled.map Press.id

/-- What is known of the presses between two events. -/
structure Sound (w : History) : Prop where
  settled : w.detector.Settled
  aligned : w.detector.pending.keys = w.buffered.map BufferedPress.key
  counted : w.hookFireCount = w.detector.prevHookFireCount + .ofNat 64 w.fired
  short : w.fired < 2 ^ 64
  /-- The hook has not counted a press yet, or did so after the last reading or before it. -/
  landed : ∀ p ∈ w.unpolled, p.eaten = false → p.id ∈ w.late ∨ 0 < w.fired ∨ p.id ∈ w.stale
  stale : ∀ p ∈ w.unpolled, p.id ∈ w.stale → p.eaten = false
  distinct : w.ids.Nodup
  bound : ∀ id ∈ w.ids ++ w.stale, id < w.presses
  belongs : List.Forall₂ (fun ghost press => press.vk = ghost.vk) w.ghosts w.injected
  eaten : ∀ press ∈ w.injected, press.eaten = true

/-- What is sound is not typed twice. -/
lemma Sound.noDoubleTyping (h : w.Sound) : w.NoDoubleTyping :=
  ⟨h.belongs, h.eaten, (List.nodup_append.1 (List.nodup_append.1 h.distinct).1).1⟩

/-- The rise of the count is how often the hook has counted. -/
lemma Sound.toNat_delta (h : w.Sound) :
    (w.detector.hookCountDelta w.hookFireCount).toNat = w.fired := by
  have hdelta : w.detector.hookCountDelta w.hookFireCount = .ofNat 64 w.fired := by
    rw [hookCountDelta, h.counted]
    bv_omega
  rw [hdelta, BitVec.toNat_ofNat]
  exact Nat.mod_eq_of_lt h.short

/-- What is seen was not polled. -/
lemma mem_seen {stateNow p} (h : p ∈ w.seen stateNow) : p ∈ w.unpolled := by
  obtain ⟨vk, -, hfind⟩ := List.mem_filterMap.1 h
  exact List.mem_of_find?_eq_some hfind

/-- Every key that went down has its press. -/
lemma map_seen {stateNow}
    (hperm : (keyDowns w.detector.prevState stateNow).Perm (w.unpolled.map Press.vk)) :
    (w.seen stateNow).map Press.vk = keyDowns w.detector.prevState stateNow := by
  have hall : ∀ vk ∈ keyDowns w.detector.prevState stateNow, ∃ p ∈ w.unpolled, p.vk = vk :=
    fun vk hvk => List.mem_map.1 (hperm.mem_iff.1 hvk)
  rw [seen]
  generalize keyDowns w.detector.prevState stateNow = vks at hall
  induction vks with
  | nil => rfl
  | cons vk vks ih =>
    obtain ⟨hvk, hvks⟩ := List.forall_mem_cons.1 hall
    obtain ⟨p, hp, hpvk⟩ := hvk
    cases hfind : w.unpolled.find? fun p => p.vk = vk with
    | none => exact absurd hpvk (by simpa using List.find?_eq_none.1 hfind p hp)
    | some q =>
      have hq : q.vk = vk := by simpa using List.find?_some hfind
      simp only [List.filterMap_cons, hfind, List.map_cons, hq, ih hvks]

/-- The presses behind the missed keys. -/
lemma map_missed {stateNow}
    (hperm : (keyDowns w.detector.prevState stateNow).Perm (w.unpolled.map Press.vk)) :
    (w.missed stateNow).map BufferedPress.key = w.detector.missed stateNow w.hookFireCount := by
  rw [missed, HookHijackDetector.missed]
  split
  · rw [← map_seen hperm, ← List.map_take, List.map_map, List.map_map]
    rfl
  · rfl

/-- The presses behind the buffer with the missed keys. -/
lemma Sound.map_waiting (h : w.Sound) {stateNow}
    (hperm : (keyDowns w.detector.prevState stateNow).Perm (w.unpolled.map Press.vk)) :
    (w.waiting stateNow).map BufferedPress.key =
      (w.detector.pending.append (w.detector.missed stateNow w.hookFireCount)).keys := by
  rw [waiting, List.map_append, List.map_take, map_missed hperm, PendingKeys.keys_append, h.aligned,
    List.length_map]

/-- What is missed was not polled. -/
lemma mem_missed {stateNow b} (h : b ∈ w.missed stateNow) : b.press ∈ w.unpolled := by
  rw [missed] at h
  split at h
  · obtain ⟨p, hp, rfl⟩ := List.mem_map.1 h
    exact mem_seen (List.mem_of_mem_take hp)
  · cases h

/-- Without keys that went down nothing is missed. -/
lemma missed_of_le {stateNow}
    (h : ¬w.detector.hookCountDelta w.hookFireCount < w.detector.thisPollDowns stateNow) :
    w.missed stateNow = [] := by
  rw [missed]
  split
  · next hzero =>
    have hlen := toNat_thisPollDowns w.detector stateNow
    have hnil : keyDowns w.detector.prevState stateNow = [] := by
      rw [← List.length_eq_zero_iff, ← hlen]
      rw [hzero] at h
      bv_omega
    rw [seen, hnil]
    rfl
  · rfl

/-- A poll that reads the keyboard is one behind a baseline. -/
lemma observing_of_sight {stateNow} (h : w.sight r = some stateNow) :
    w.detector.Observing ∧ w.detector.sight (w.readings r) = some stateNow := by
  rw [sight] at h
  split at h
  · next hobs => exact ⟨hobs, h⟩
  · cases h

/-- A poll that sees the keys. -/
lemma poll_of_sight {stateNow} (h : w.sight r = some stateNow) : w.poll r = w.pollSight r stateNow := by
  obtain ⟨⟨hopen, hlatch, hvalid⟩, hsight⟩ := observing_of_sight h
  rw [poll, if_neg (by simp [hopen]), if_neg (by simp [hlatch, hvalid]), hsight]

/-- Such a poll accounts and flushes. -/
lemma Poll_eq_flush {stateNow} (h : w.sight r = some stateNow) :
    w.detector.Poll (w.readings r) =
      (w.detector.account stateNow w.hookFireCount).flush (w.readings r) := by
  obtain ⟨hobs, hsight⟩ := observing_of_sight h
  exact Poll_of_sight hobs hsight

/-- Whether a poll passes the tolerance. -/
def Triggers (w : History) (stateNow : KeyboardState) : Prop :=
  w.detector.hookCountDelta w.hookFireCount < w.detector.thisPollDowns stateNow ∧
    kDriftTolerance < w.detector.accumulatedDrift +
      (w.detector.thisPollDowns stateNow - w.detector.hookCountDelta w.hookFireCount)

/-- A poll that passes the tolerance injects what waits. -/
lemma Sound.result_of_triggers (h : w.Sound) {stateNow} (hsight : w.sight r = some stateNow)
    (hperm : (keyDowns w.detector.prevState stateNow).Perm (w.unpolled.map Press.vk))
    (htriggers : w.Triggers stateNow) :
    (w.detector.Poll (w.readings r)).detector.pending.keys = [] ∧
      (w.detector.Poll (w.readings r)).requestReinstall = true ∧
      (w.detector.Poll (w.readings r)).ghosts =
        ((w.waiting stateNow).map BufferedPress.key).filterMap (PendingKey.ghost? (w.readings r)) := by
  rw [Poll_eq_flush hsight, account_of_lt htriggers.1, flush_of_gt htriggers.2, h.map_waiting hperm]
  exact ⟨rfl, rfl, rfl⟩

/-- Any other poll injects nothing; what waits is dropped or stays with what was missed. -/
lemma Sound.result_of_not_triggers (h : w.Sound) {stateNow} (hsight : w.sight r = some stateNow)
    (hperm : (keyDowns w.detector.prevState stateNow).Perm (w.unpolled.map Press.vk))
    (htriggers : ¬w.Triggers stateNow) :
    ((w.detector.Poll (w.readings r)).detector.pending.keys = [] ∨
        (w.detector.Poll (w.readings r)).detector.pending.keys =
          (w.waiting stateNow).map BufferedPress.key) ∧
      (w.detector.Poll (w.readings r)).requestReinstall = false ∧
      (w.detector.Poll (w.readings r)).ghosts = [] := by
  rw [Poll_eq_flush hsight]
  by_cases hlt : w.detector.hookCountDelta w.hookFireCount < w.detector.thisPollDowns stateNow
  · have hle : ¬kDriftTolerance < w.detector.accumulatedDrift + _ := fun hgt => htriggers ⟨hlt, hgt⟩
    rw [account_of_lt hlt, flush_of_le (BitVec.not_lt.1 hle)]
    exact ⟨.inr (h.map_waiting hperm).symm, rfl, rfl⟩
  · have hwaiting : (w.waiting stateNow).map BufferedPress.key = w.detector.pending.keys := by
      rw [waiting, missed_of_le hlt, List.take_nil, List.append_nil, h.aligned]
    by_cases hgt : w.detector.thisPollDowns stateNow < w.detector.hookCountDelta w.hookFireCount
    · have hzero : (0 : BitVec 64) ≤ kDriftTolerance := by decide
      rw [account_of_gt h.settled.drift hgt, flush_of_le hzero]
      exact ⟨.inl rfl, rfl, rfl⟩
    · rw [account_of_eq (by bv_omega), hwaiting,
        flush_of_le (d := w.detector.advance stateNow w.hookFireCount) h.settled.drift]
      exact ⟨.inr rfl, rfl, rfl⟩

/-- A key goes down once. -/
lemma keyDowns_nodup (before now : KeyboardState) : (keyDowns before now).Nodup := by
  refine List.Nodup.filter _ (List.Nodup.map_on ?_ List.nodup_range)
  intro i hi j hj hij
  have hi' := List.mem_range.1 hi
  have hj' := List.mem_range.1 hj
  bv_omega

/-- No two keys that went down have the same press. -/
lemma Sound.nodup_seen (h : w.Sound) {stateNow}
    (hperm : (keyDowns w.detector.prevState stateNow).Perm (w.unpolled.map Press.vk)) :
    ((w.seen stateNow).map Press.id).Nodup := by
  have hvks : ((w.seen stateNow).map Press.vk).Nodup := by
    rw [map_seen hperm]
    exact keyDowns_nodup _ _
  have hids : (w.unpolled.map Press.id).Nodup := (List.nodup_append.1 h.distinct).2.1
  refine List.Nodup.map_on ?_ (List.Nodup.of_map _ hvks)
  intro p hp q hq hpq
  exact List.inj_on_of_nodup_map hids (mem_seen hp) (mem_seen hq) hpq

/-- What waits are presses that the history holds, each once. -/
lemma Sound.nodup_waiting (h : w.Sound) {stateNow}
    (hperm : (keyDowns w.detector.prevState stateNow).Perm (w.unpolled.map Press.vk)) :
    (w.injected.map Press.id ++ (w.waiting stateNow).map (·.press.id)).Nodup ∧
      w.injected.map Press.id ++ (w.waiting stateNow).map (·.press.id) ⊆ w.ids := by
  have hmissed : ((w.missed stateNow).map (·.press.id)).Nodup := by
    rw [missed]
    split
    · rw [List.map_map]
      exact (h.nodup_seen hperm).sublist ((List.take_sublist _ _).map Press.id)
    · exact List.nodup_nil
  have hsub : (w.missed stateNow).map (·.press.id) ⊆ w.unpolled.map Press.id := by
    intro id hid
    obtain ⟨b, hb, rfl⟩ := List.mem_map.1 hid
    exact List.mem_map_of_mem (mem_missed hb)
  have htake : (((w.missed stateNow).take (kPendingVkCap - w.buffered.length)).map (·.press.id)).Sublist
      ((w.missed stateNow).map (·.press.id)) := (List.take_sublist _ _).map _
  obtain ⟨hold, -, hdisjoint⟩ := List.nodup_append.1 h.distinct
  rw [waiting, List.map_append, ← List.append_assoc]
  constructor
  · refine List.nodup_append.2 ⟨hold, hmissed.sublist htake, fun a ha b hb => ?_⟩
    exact hdisjoint a ha b (hsub (htake.subset hb))
  · intro id hid
    rcases List.mem_append.1 hid with hid | hid
    · exact List.mem_append_left _ hid
    · exact List.mem_append_right _ (hsub (htake.subset hid))

/-- The injected presses are among those that wait. -/
lemma injected_sublist (r : Readings) (l : List BufferedPress) :
    (l.filterMap (BufferedPress.injected? r)).Sublist (l.map (·.press)) := by
  induction l with
  | nil => exact .slnil
  | cons b l ih =>
    rw [List.filterMap_cons]
    cases hb : b.key.ghost? r with
    | none => simpa [BufferedPress.injected?, hb] using ih.cons b.press
    | some ghost => simpa [BufferedPress.injected?, hb] using ih

/-- Each injected character is that of its press. -/
lemma forall₂_injected (r : Readings) (l : List BufferedPress) :
    List.Forall₂ (fun ghost press => press.vk = ghost.vk)
      ((l.map BufferedPress.key).filterMap (PendingKey.ghost? r))
      (l.filterMap (BufferedPress.injected? r)) := by
  induction l with
  | nil => exact .nil
  | cons b l ih =>
    rw [List.map_cons, List.filterMap_cons, List.filterMap_cons]
    cases hb : b.key.ghost? r with
    | none => simpa [BufferedPress.injected?, hb] using ih
    | some ghost =>
      have hvk : b.press.vk = ghost.vk := by
        rw [PendingKey.ghost?] at hb
        split at hb
        · exact congrArg GhostKey.vk (Option.some.inj hb)
        · cases hb
      simpa [BufferedPress.injected?, hb, hvk] using ih

/-- At the start. -/
lemma sound_nil : Sound {} where
  settled := settled_nil
  aligned := rfl
  counted := rfl
  short := by decide
  landed := nofun
  stale := nofun
  distinct := List.nodup_nil
  bound := nofun
  belongs := .nil
  eaten := nofun

/-- A new press has a new number. -/
lemma Sound.press (h : w.Sound) (vk eaten) : (w.step (.press vk eaten)).Sound := by
  have hids : (w.step (.press vk eaten)).ids = w.ids ++ [w.presses] := by
    simp [ids, step]
  have hbound : ∀ id ∈ w.ids ++ w.stale, id < w.presses + 1 := fun id hid =>
    Nat.lt_succ_of_lt (h.bound id hid)
  refine ⟨h.settled, h.aligned, h.counted, h.short, ?_, ?_, ?_, ?_, h.belongs, h.eaten⟩
  · intro p hp hseen
    rcases List.mem_append.1 hp with hold | hnew
    · refine (h.landed p hold hseen).imp_left fun hlate => ?_
      change p.id ∈ if eaten then w.late else w.presses :: w.late
      split
      · exact hlate
      · exact List.mem_cons_of_mem _ hlate
    · obtain rfl := List.mem_singleton.1 hnew
      change eaten = false at hseen
      subst hseen
      exact .inl (List.mem_cons_self ..)
  · intro p hp hstale
    rcases List.mem_append.1 hp with hold | hnew
    · exact h.stale p hold hstale
    · obtain rfl := List.mem_singleton.1 hnew
      have hlt := h.bound w.presses (List.mem_append_right _ hstale)
      exact absurd hlt (Nat.lt_irrefl _)
  · rw [hids]
    refine List.nodup_append.2 ⟨h.distinct, List.nodup_singleton _, fun a ha b hb => ?_⟩
    obtain rfl := List.mem_singleton.1 hb
    exact Nat.ne_of_lt (h.bound a (List.mem_append_left _ ha))
  · intro id hid
    rw [hids] at hid
    change id < w.presses + 1
    rcases List.mem_append.1 hid with hid | hid
    · rcases List.mem_append.1 hid with hid | hid
      · exact hbound id (List.mem_append_left _ hid)
      · obtain rfl := List.mem_singleton.1 hid
        exact Nat.lt_succ_self _
    · exact hbound id (List.mem_append_right _ hid)

/-- A count lands. -/
lemma Sound.bump (h : w.Sound) {id} (hshort : w.fired + 1 < 2 ^ 64) : (w.step (.bump id)).Sound := by
  refine ⟨h.settled, h.aligned, ?_, hshort, fun p hp hseen => .inr (.inl (Nat.succ_pos _)), h.stale,
    h.distinct, h.bound, h.belongs, h.eaten⟩
  change w.hookFireCount + 1 = w.detector.prevHookFireCount + .ofNat 64 (w.fired + 1)
  rw [h.counted]
  bv_omega

/-- The gate changes. -/
lemma Sound.setActive (h : w.Sound) (active) : (w.step (.setActive active)).Sound :=
  ⟨h.settled.step (.SetChromiumClassActive active), h.aligned, h.counted, h.short, h.landed, h.stale,
    h.distinct, h.bound, h.belongs, h.eaten⟩

/-- What the hook has counted is among the presses since the last reading. -/
lemma counts_subset : w.counts ⊆ w.unpolled.map Press.id := by
  intro id hid
  obtain ⟨p, hp, rfl⟩ := List.mem_map.1 hid
  exact List.mem_map_of_mem (List.mem_of_mem_filter hp)

/-- The poll that takes the baseline. -/
lemma Sound.pollBaseline (h : w.Sound) (htakes : w.detector.TakesBaseline) :
    (w.pollBaseline r).Sound := by
  have hdetector : (w.pollBaseline r).detector =
      w.detector.consumeReset.EstablishBaselines (w.readings r) := by
    rw [History.pollBaseline, Poll_of_takesBaseline htakes]
  have hids : (w.pollBaseline r).ids.Sublist w.ids := by
    refine List.Sublist.append (List.Sublist.append (List.Sublist.refl _) (List.nil_sublist _)) ?_
    change ((if r.readKeyboardState.isSome then [] else w.unpolled).map Press.id).Sublist _
    split
    · exact List.nil_sublist _
    · exact List.Sublist.refl _
  refine ⟨h.settled.Poll _, by rw [hdetector]; rfl, by rw [hdetector]; exact (BitVec.add_zero _).symm,
    Nat.two_pow_pos _, ?_, ?_, h.distinct.sublist hids, ?_, h.belongs, h.eaten⟩
  · intro p hp hseen
    change p ∈ if r.readKeyboardState.isSome then [] else w.unpolled at hp
    change p.id ∈ w.late ∨ 0 < 0 ∨ p.id ∈ if r.readKeyboardState.isSome then [] else w.counts
    split at hp
    · cases hp
    · next hread =>
      by_cases hlate : p.id ∈ w.late
      · exact .inl hlate
      · rw [if_neg hread]
        exact .inr (.inr (List.mem_map_of_mem (List.mem_filter.2 ⟨hp, by simp [hseen, hlate]⟩)))
  · intro p hp hstale
    change p ∈ if r.readKeyboardState.isSome then [] else w.unpolled at hp
    change p.id ∈ if r.readKeyboardState.isSome then [] else w.counts at hstale
    split at hp
    · cases hp
    · next hread =>
      rw [if_neg hread] at hstale
      obtain ⟨q, hq, hid⟩ := List.mem_map.1 hstale
      obtain ⟨hmem, hq⟩ := List.mem_filter.1 hq
      have hnodup : (w.unpolled.map Press.id).Nodup := (List.nodup_append.1 h.distinct).2.1
      obtain rfl := List.inj_on_of_nodup_map hnodup hmem hp hid
      simpa using (Bool.and_eq_true_iff.1 hq).1
  · intro id hid
    rcases List.mem_append.1 hid with hid | hid
    · exact h.bound id (List.mem_append_left _ (hids.subset hid))
    · change id ∈ if r.readKeyboardState.isSome then [] else w.counts at hid
      split at hid
      · cases hid
      · exact h.bound id (List.mem_append_left _ (List.mem_append_right _ (counts_subset hid)))

/-- Without a count since the last reading nothing was counted. -/
lemma delta_of_missed {stateNow b} (h : b ∈ w.missed stateNow) :
    w.detector.hookCountDelta w.hookFireCount = 0 := by
  rw [missed] at h
  split at h
  · next hzero => exact hzero
  · cases h

/-- What a poll injects was eaten, where nothing is mistaken. -/
lemma Sound.eaten_waiting (h : w.Sound) {stateNow} (hsight : w.sight r = some stateNow)
    (hphys : Physical w (.poll r)) (hun : Unmistaken w (.poll r)) (htriggers : w.Triggers stateNow) :
    ∀ b ∈ w.waiting stateNow, (b.injected? (w.readings r)).isSome → b.press.eaten = true := by
  obtain ⟨hperm, hlate⟩ := hphys stateNow hsight
  obtain ⟨hbuffered, hfresh⟩ := hun stateNow hsight htriggers.1
  have hinjects := (h.result_of_triggers hsight hperm htriggers).2.1
  intro b hb hchar
  rcases List.mem_append.1 hb with hold | hnew
  · exact hbuffered b hold hchar
  · have hmissed := List.mem_of_mem_take hnew
    have hzero := delta_of_missed hmissed
    have hfired : w.fired = 0 := by
      rw [← h.toNat_delta, hzero]
      rfl
    have hdrift :
        kDriftTolerance < w.detector.accumulatedDrift + w.detector.thisPollDowns stateNow := by
      have hgt := htriggers.2
      rw [hzero] at hgt
      simpa using hgt
    by_contra hseen
    rcases h.landed b.press (mem_missed hmissed) (Bool.eq_false_iff.2 hseen) with hl | hf | hs
    · exact hlate hinjects b hb hl
    · omega
    · exact hfresh hzero hdrift b hnew hchar hs

/-- What a poll that passes the tolerance leaves. -/
lemma Sound.pollSight_of_triggers (h : w.Sound) {stateNow} (hsight : w.sight r = some stateNow)
    (hperm : (keyDowns w.detector.prevState stateNow).Perm (w.unpolled.map Press.vk))
    (htriggers : w.Triggers stateNow) :
    (w.pollSight r stateNow).buffered = [] ∧
      (w.pollSight r stateNow).ghosts = w.ghosts ++
        ((w.waiting stateNow).map BufferedPress.key).filterMap (PendingKey.ghost? (w.readings r)) ∧
      (w.pollSight r stateNow).injected = w.injected ++
        (w.waiting stateNow).filterMap (BufferedPress.injected? (w.readings r)) := by
  obtain ⟨hpending, hinjects, hghosts⟩ := h.result_of_triggers hsight hperm htriggers
  exact ⟨if_pos hpending, congrArg (w.ghosts ++ ·) hghosts,
    congrArg (w.injected ++ ·) (if_pos hinjects)⟩

/-- What any other poll that reads the keyboard leaves. -/
lemma Sound.pollSight_of_not_triggers (h : w.Sound) {stateNow} (hsight : w.sight r = some stateNow)
    (hperm : (keyDowns w.detector.prevState stateNow).Perm (w.unpolled.map Press.vk))
    (htriggers : ¬w.Triggers stateNow) :
    ((w.pollSight r stateNow).buffered = [] ∨
        (w.pollSight r stateNow).buffered = w.waiting stateNow) ∧
      (w.pollSight r stateNow).ghosts = w.ghosts ∧ (w.pollSight r stateNow).injected = w.injected := by
  obtain ⟨-, hquiet, hghosts⟩ := h.result_of_not_triggers hsight hperm htriggers
  refine ⟨?_, ?_, ?_⟩
  · change (if _ then [] else w.waiting stateNow) = [] ∨ (if _ then [] else w.waiting stateNow) = _
    split
    · exact .inl rfl
    · exact .inr rfl
  · exact (congrArg (w.ghosts ++ ·) hghosts).trans (List.append_nil _)
  · refine (congrArg (w.injected ++ ·) (if_neg ?_)).trans (List.append_nil _)
    simp [hquiet]

/-- After a poll the history holds presses that it held before, each once. -/
lemma Sound.ids_pollSight (h : w.Sound) {stateNow} (hsight : w.sight r = some stateNow)
    (hperm : (keyDowns w.detector.prevState stateNow).Perm (w.unpolled.map Press.vk)) :
    (w.pollSight r stateNow).ids.Sublist
      (w.injected.map Press.id ++ (w.waiting stateNow).map (·.press.id)) := by
  have hunpolled : (w.pollSight r stateNow).unpolled = [] := rfl
  rw [ids, hunpolled, List.map_nil, List.append_nil]
  by_cases htriggers : w.Triggers stateNow
  · obtain ⟨hbuffered, -, hinjected⟩ := h.pollSight_of_triggers hsight hperm htriggers
    rw [hbuffered, hinjected, List.map_nil, List.append_nil, List.map_append]
    refine List.Sublist.append (List.Sublist.refl _) ?_
    have hsub := (injected_sublist (w.readings r) (w.waiting stateNow)).map Press.id
    rwa [List.map_map] at hsub
  · obtain ⟨hbuffered, -, hinjected⟩ := h.pollSight_of_not_triggers hsight hperm htriggers
    rw [hinjected]
    refine List.Sublist.append (List.Sublist.refl _) ?_
    rcases hbuffered with hnil | hall
    · rw [hnil]
      exact List.nil_sublist _
    · rw [hall]

/-- The buffer keeps its presses. -/
lemma Sound.aligned_pollSight (h : w.Sound) {stateNow} (hsight : w.sight r = some stateNow)
    (hperm : (keyDowns w.detector.prevState stateNow).Perm (w.unpolled.map Press.vk)) :
    (w.pollSight r stateNow).detector.pending.keys =
      (w.pollSight r stateNow).buffered.map BufferedPress.key := by
  change (w.detector.Poll (w.readings r)).detector.pending.keys =
    (if (w.detector.Poll (w.readings r)).detector.pending.keys = [] then []
      else w.waiting stateNow).map _
  split
  · next hnil => exact hnil
  · next hsome =>
    by_cases htriggers : w.Triggers stateNow
    · exact absurd (h.result_of_triggers hsight hperm htriggers).1 hsome
    · exact (h.result_of_not_triggers hsight hperm htriggers).1.resolve_left hsome

/-- A poll that reads the keyboard. -/
lemma Sound.pollSight (h : w.Sound) {stateNow} (hsight : w.sight r = some stateNow)
    (hphys : Physical w (.poll r)) (hun : Unmistaken w (.poll r)) : (w.pollSight r stateNow).Sound := by
  obtain ⟨hperm, -⟩ := hphys stateNow hsight
  obtain ⟨hnodup, hsub⟩ := h.nodup_waiting hperm
  have hids := h.ids_pollSight hsight hperm
  have hcount : (w.pollSight r stateNow).detector.prevHookFireCount = w.hookFireCount := by
    change (w.detector.Poll (w.readings r)).detector.prevHookFireCount = _
    rw [Poll_eq_flush hsight, flush_count, account_count]
  have hnone : w.hookFireCount =
      (w.detector.Poll (w.readings r)).detector.prevHookFireCount + BitVec.ofNat 64 0 := by
    exact hcount.symm.trans (BitVec.add_zero _).symm
  refine ⟨h.settled.Poll _, h.aligned_pollSight hsight hperm, hnone, Nat.two_pow_pos _, nofun, nofun,
    hnodup.sublist hids, fun id hid => ?_, ?_, ?_⟩
  · rcases List.mem_append.1 hid with hid | hid
    · exact h.bound id (List.mem_append_left _ (hsub (hids.subset hid)))
    · cases hid
  · by_cases htriggers : w.Triggers stateNow
    · obtain ⟨-, hghosts, hinjected⟩ := h.pollSight_of_triggers hsight hperm htriggers
      rw [hghosts, hinjected]
      exact List.rel_append h.belongs (forall₂_injected _ _)
    · obtain ⟨-, hghosts, hinjected⟩ := h.pollSight_of_not_triggers hsight hperm htriggers
      rw [hghosts, hinjected]
      exact h.belongs
  · by_cases htriggers : w.Triggers stateNow
    · rw [(h.pollSight_of_triggers hsight hperm htriggers).2.2]
      intro press hpress
      rcases List.mem_append.1 hpress with hold | hnew
      · exact h.eaten press hold
      · obtain ⟨b, hb, hinj⟩ := List.mem_filterMap.1 hnew
        have hchar : (b.injected? (w.readings r)).isSome := Option.isSome_of_eq_some hinj
        have heaten := h.eaten_waiting hsight hphys hun htriggers b hb hchar
        obtain ⟨ghost, -, rfl⟩ := Option.map_eq_some_iff.1 hinj
        exact heaten
    · rw [(h.pollSight_of_not_triggers hsight hperm htriggers).2.2]
      exact h.eaten

/-- What a poll comes to. -/
lemma poll_cases (w : History) (r) :
    (w.detector.TakesBaseline ∧ w.poll r = w.pollBaseline r) ∨ w.poll r = w ∨
      ∃ stateNow, w.sight r = some stateNow ∧ w.poll r = w.pollSight r stateNow := by
  rcases gate_cases w.detector with hclosed | htakes | hobs
  · exact .inr (.inl (by rw [poll, if_pos hclosed]))
  · refine .inl ⟨htakes, ?_⟩
    rw [poll, if_neg (by simp [htakes.1]), if_pos htakes.2]
  · cases hsight : w.sight r with
    | none =>
      have hblind : w.detector.sight (w.readings r) = none := (if_pos hobs).symm.trans hsight
      refine .inr (.inl ?_)
      rw [poll, if_neg (by simp [hobs.1]), if_neg (by simp [hobs.2.1, hobs.2.2]), hblind]
    | some stateNow => exact .inr (.inr ⟨stateNow, rfl, poll_of_sight hsight⟩)

/-- Where nothing is mistaken, an event keeps what is known. -/
lemma Sound.step (h : w.Sound) {e} (hphys : Physical w e) (hun : Unmistaken w e) :
    (w.step e).Sound := by
  cases e with
  | press vk eaten => exact h.press vk eaten
  | bump id => exact h.bump hphys.2
  | poll r =>
    change (w.poll r).Sound
    rcases poll_cases w r with ⟨htakes, hpoll⟩ | hpoll | ⟨stateNow, hsight, hpoll⟩
    · rw [hpoll]
      exact h.pollBaseline htakes
    · rwa [hpoll]
    · rw [hpoll]
      exact h.pollSight hsight hphys hun
  | setActive active => exact h.setActive active

/-- A key that waits without a count makes the poll pass the tolerance. -/
lemma Sound.triggers_of_buffered (h : w.Sound) {stateNow b} (hb : b ∈ w.buffered)
    (hlt : w.detector.hookCountDelta w.hookFireCount < w.detector.thisPollDowns stateNow) :
    w.Triggers stateNow := by
  refine ⟨hlt, ?_⟩
  have hlen : w.detector.pending.keys.length ≤ w.detector.accumulatedDrift.toNat := h.settled.covered
  have hone : w.detector.accumulatedDrift ≤ 1 := h.settled.drift
  have hpos : 0 < w.detector.pending.keys.length := by
    rw [h.aligned, List.length_map]
    exact List.length_pos_of_mem hb
  have hle := length_keyDowns_le w.detector.prevState stateNow
  have hdowns := toNat_thisPollDowns w.detector stateNow
  change 1 < _
  bv_omega

/-- A mistake is an injection of a press that the hook has seen. -/
lemma Sound.mistaken (h : w.Sound) {e} (hphys : Physical w e) (hmis : ¬Unmistaken w e) :
    ¬(w.step e).NoDoubleTyping := by
  cases e with
  | press => exact absurd trivial hmis
  | bump => exact absurd trivial hmis
  | setActive => exact absurd trivial hmis
  | poll r =>
    -- some key that waits has a character and a press that was seen, and the poll injects it
    have hwrong : ∃ stateNow, w.sight r = some stateNow ∧ w.Triggers stateNow ∧
        ∃ b ∈ w.waiting stateNow, (b.injected? (w.readings r)).isSome ∧ b.press.eaten = false := by
      by_contra hnone
      refine hmis fun stateNow hsight hlt =>
        ⟨fun b hb hchar => ?_, fun hzero hdrift b hb hchar hstale => ?_⟩
      · by_contra hseen
        exact hnone ⟨stateNow, hsight, h.triggers_of_buffered hb hlt, b, List.mem_append_left _ hb,
          hchar, Bool.eq_false_iff.2 hseen⟩
      · have htriggers : w.Triggers stateNow := ⟨hlt, by simpa [hzero] using hdrift⟩
        exact hnone ⟨stateNow, hsight, htriggers, b, List.mem_append_right _ hb, hchar,
          h.stale b.press (mem_missed (List.mem_of_mem_take hb)) hstale⟩
    obtain ⟨stateNow, hsight, htriggers, b, hb, hchar, hseen⟩ := hwrong
    intro hno
    have heaten : ∀ press ∈ (w.poll r).injected, press.eaten = true := hno.eaten
    rw [poll_of_sight hsight,
      (h.pollSight_of_triggers hsight (hphys stateNow hsight).1 htriggers).2.2] at heaten
    obtain ⟨press, hpress⟩ := Option.isSome_iff_exists.1 hchar
    have hmem := heaten press (List.mem_append_right _ (List.mem_filterMap.2 ⟨b, hb, hpress⟩))
    obtain ⟨ghost, -, rfl⟩ := Option.map_eq_some_iff.1 hpress
    exact absurd (hseen.symm.trans hmem) (by decide)

/-- A run never injects a press that the hook has seen, nor a press twice, just when nothing is mistaken
    on its way. -/
theorem neverDoubles_iff (events : List KeyEvent) (hphys : Machine.Guarded step Physical {} events) :
    NeverDoubles events ↔ Machine.Guarded step Unmistaken {} events :=
  Machine.forall_prefix_iff_guarded sound_nil hphys Sound.noDoubleTyping
    (fun h hphys hun => h.step hphys hun) (fun h hphys hmis => h.mistaken hphys hmis)

/-- A poll that finds these keys down, on a keyboard whose keys have characters. -/
def pollWith (down : List (BitVec 8)) : KeyEvent :=
  .poll
    { readKeyboardState := some fun vk => if vk ∈ down then 0x80 else 0
      readHookFireCount := 0
      nowMs := 0
      translateVkToChar := fun vk _ => .ofNat vk.toNat }

/-- Two keys in a row are eaten. -/
def eatenKeys : List KeyEvent :=
  [.setActive true, pollWith [], .press 0x41 true, pollWith [0x41], .press 0x53 true,
    pollWith [0x41, 0x53]]

/-- Both are injected, and nothing is typed twice. -/
theorem neverDoubles_eatenKeys :
    NeverDoubles eatenKeys ∧ (run eatenKeys).ghosts = [⟨0x41, 0x41⟩, ⟨0x53, 0x53⟩] :=
  ⟨(neverDoubles_iff eatenKeys (by decide +kernel)).2 (by decide +kernel), by decide +kernel⟩

/-- A key is polled before it is counted; its count comes with a key that is eaten, and another key is
    eaten. -/
def lateCount : List KeyEvent :=
  [.setActive true, pollWith [], .press 0x53 false, pollWith [0x53], .bump 0, .press 0x45 true,
    pollWith [0x53, 0x45], .press 0x46 true, pollWith [0x53, 0x45, 0x46]]

/-- The key that was seen is injected. -/
theorem not_noDoubleTyping_lateCount :
    ¬∀ events, Machine.Guarded step Physical {} events → (run events).NoDoubleTyping := by
  intro h
  have heaten := (h lateCount (by decide +kernel)).eaten
  have hseen : (⟨0, 0x53, false⟩ : Press) ∈ (run lateCount).injected := by decide +kernel
  exact absurd (heaten _ hseen) (by decide)

end History

end NextKey
