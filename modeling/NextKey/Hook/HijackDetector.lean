import Mathlib.Data.List.Induction
import NextKey.Lib.Machine

/-!
# The detector of a hijacked hook

Model of `app/system/HookHijackDetector.cpp`. While a Chromium app is in front, polls compare the keys
that went down since the last poll with the rise of the count that the keyboard hook keeps. Keys that
the hook did not count make up the drift; when it passes the tolerance, the keys that were buffered are
injected and the hook is installed anew. What the callbacks answer is an input of a poll.
-/

namespace NextKey

/-- C++ `kReinstallCooldownMs` -/
def kReinstallCooldownMs : BitVec 32 := 150

/-- C++ `kDriftTolerance` -/
def kDriftTolerance : BitVec 64 := 1

/-- C++ `kPendingVkCap` -/
def kPendingVkCap : Nat := 16

def kVkBack : BitVec 8 := 0x08
def kVkSpace : BitVec 8 := 0x20
def kVkOem1 : BitVec 8 := 0xBA
def kVkOem8 : BitVec 8 := 0xDF
def kVkShift : BitVec 8 := 0x10
def kVkControl : BitVec 8 := 0x11
def kVkMenu : BitVec 8 := 0x12
def kVkCapital : BitVec 8 := 0x14

/-- C++ `IsTrackableVk` -/
def IsTrackableVk (vk : BitVec 8) : Bool :=
  decide (0x41 ≤ vk ∧ vk ≤ 0x5A) || decide (0x30 ≤ vk ∧ vk ≤ 0x39) || decide (vk = kVkSpace) ||
    decide (vk = kVkBack) || decide (kVkOem1 ≤ vk ∧ vk ≤ kVkOem8)

/-- C++ `IsKeyDownByte` -/
def IsKeyDownByte (b : BitVec 8) : Bool := decide (b &&& 0x80 ≠ 0)

/-- The 256 bytes of `GetKeyboardState`. -/
abbrev KeyboardState := BitVec 8 → BitVec 8

/-- C++ `PackMods` -/
def PackMods (state : KeyboardState) : BitVec 8 :=
  (if IsKeyDownByte (state kVkShift) then 0x01 else 0) |||
    (if state kVkCapital &&& 0x01 ≠ 0 then 0x02 else 0) |||
    (if IsKeyDownByte (state kVkControl) then 0x04 else 0) |||
    (if IsKeyDownByte (state kVkMenu) then 0x08 else 0)

/-- The state of the modifiers that is rebuilt for a key. -/
def unpackMods (mods : BitVec 8) : KeyboardState := fun vk =>
  if vk = kVkShift ∧ mods &&& 0x01 ≠ 0 then 0x80
  else if vk = kVkCapital ∧ mods &&& 0x02 ≠ 0 then 0x01
  else if vk = kVkControl ∧ mods &&& 0x04 ≠ 0 then 0x80
  else if vk = kVkMenu ∧ mods &&& 0x08 ≠ 0 then 0x80
  else 0

/-- An entry of `pendingVks_` and `pendingMods_`. -/
structure PendingKey where
  vk : BitVec 8
  mods : BitVec 8
  deriving DecidableEq, Repr

/-- The first `pendingVkCount_` entries. -/
structure PendingKeys where
  keys : List PendingKey
  room : keys.length ≤ kPendingVkCap

/-- No key waits. -/
def PendingKeys.empty : PendingKeys := ⟨[], Nat.zero_le kPendingVkCap⟩

/-- The keys are buffered as long as there is room. -/
def PendingKeys.append (pending : PendingKeys) (keys : List PendingKey) : PendingKeys where
  keys := pending.keys ++ keys.take (kPendingVkCap - pending.keys.length)
  room := by
    have := pending.room
    rw [List.length_append, List.length_take]
    omega

/-- Keys are appended while there is room. -/
lemma PendingKeys.keys_append (pending : PendingKeys) (keys : List PendingKey) :
    (pending.append keys).keys =
      pending.keys ++ keys.take (kPendingVkCap - pending.keys.length) := rfl

/-- What the callbacks and the clock answer during a poll. -/
structure Readings where
  /-- `none` when the read fails -/
  readKeyboardState : Option KeyboardState
  readHookFireCount : BitVec 64
  nowMs : BitVec 32
  translateVkToChar : BitVec 8 → KeyboardState → UInt16

/-- A character that is injected, with the key that it comes from. -/
structure GhostKey where
  vk : BitVec 8
  ch : UInt16
  deriving DecidableEq, Repr

/-- The character of a buffered key, if it has one. -/
def PendingKey.ghost? (r : Readings) (key : PendingKey) : Option GhostKey :=
  let ch := r.translateVkToChar key.vk (unpackMods key.mods)
  if ch ≠ 0 then some ⟨key.vk, ch⟩ else none

/-- The keys that went down between two states, in the order of their codes. -/
def keyDowns (before now : KeyboardState) : List (BitVec 8) :=
  ((List.range 256).map (BitVec.ofNat 8)).filter fun vk =>
    IsTrackableVk vk && !IsKeyDownByte (before vk) && IsKeyDownByte (now vk)

/-- C++ `HookHijackDetector` -/
structure HookHijackDetector where
  chromiumClassActive : Bool := false
  pendingReset : Bool := false
  prevState : KeyboardState := fun _ => 0
  pending : PendingKeys := .empty
  prevHookFireCount : BitVec 64 := 0
  accumulatedDrift : BitVec 64 := 0
  lastReinstallTickMs : BitVec 32 := 0
  baselinesValid : Bool := false

/-- What a poll leaves, injects and requests. -/
structure PollResult where
  detector : HookHijackDetector
  ghosts : List GhostKey := []
  requestReinstall : Bool := false

namespace HookHijackDetector

variable (d : HookHijackDetector)

/-- C++ `SetChromiumClassActive` -/
def SetChromiumClassActive (active : Bool) : HookHijackDetector :=
  { d with
    chromiumClassActive := active
    pendingReset := d.pendingReset || (d.chromiumClassActive != active && !active) }

/-- C++ `Reset` -/
def Reset : HookHijackDetector :=
  { d with baselinesValid := false, accumulatedDrift := 0, pending := .empty }

/-- C++ `EstablishBaselines` -/
def EstablishBaselines (r : Readings) : HookHijackDetector :=
  { d with
    prevState := r.readKeyboardState.getD fun _ => 0
    prevHookFireCount := r.readHookFireCount
    accumulatedDrift := 0
    pending := .empty
    lastReinstallTickMs := 0
    baselinesValid := true }

/-- The reset that a gate change left is made up for. -/
def consumeReset : HookHijackDetector :=
  if d.pendingReset then { d.Reset with pendingReset := false } else d

/-- The time after a reinstall in which nothing is compared. -/
def inCooldown (r : Readings) : Bool :=
  decide (d.lastReinstallTickMs ≠ 0 ∧ r.nowMs - d.lastReinstallTickMs < kReinstallCooldownMs)

/-- The rise of the count since the last reading. -/
def hookCountDelta (hookCountNow : BitVec 64) : BitVec 64 := hookCountNow - d.prevHookFireCount

/-- The number of keys that went down. -/
def thisPollDowns (stateNow : KeyboardState) : BitVec 64 :=
  .ofNat 64 (keyDowns d.prevState stateNow).length

/-- The keys to buffer: all of them when the hook counted none, and none otherwise. -/
def missed (stateNow : KeyboardState) (hookCountNow : BitVec 64) : List PendingKey :=
  if d.hookCountDelta hookCountNow = 0 then
    ((keyDowns d.prevState stateNow).take kPendingVkCap).map (⟨·, PackMods stateNow⟩)
  else []

/-- The readings are kept for the next poll. -/
def advance (stateNow : KeyboardState) (hookCountNow : BitVec 64) : HookHijackDetector :=
  { d with prevState := stateNow, prevHookFireCount := hookCountNow }

/-- The hook is behind the poll. -/
def fallBehind (newDrift : BitVec 64) (keys : List PendingKey) : HookHijackDetector :=
  { d with accumulatedDrift := d.accumulatedDrift + newDrift, pending := d.pending.append keys }

/-- The hook is ahead of the poll. -/
def catchUp (overshoot : BitVec 64) : HookHijackDetector :=
  if overshoot < d.accumulatedDrift then
    { d with accumulatedDrift := d.accumulatedDrift - overshoot }
  else { d with accumulatedDrift := 0, pending := .empty }

/-- The keys and the count are compared. -/
def account (stateNow : KeyboardState) (hookCountNow : BitVec 64) : HookHijackDetector :=
  let downs := d.thisPollDowns stateNow
  let delta := d.hookCountDelta hookCountNow
  let next := d.advance stateNow hookCountNow
  if delta < downs then next.fallBehind (downs - delta) (d.missed stateNow hookCountNow)
  else if downs < delta then next.catchUp (delta - downs)
  else next

/-- Past the tolerance the buffered keys are injected. -/
def flush (r : Readings) : PollResult :=
  if d.accumulatedDrift ≤ kDriftTolerance then { detector := d }
  else
    { detector := { d with lastReinstallTickMs := r.nowMs, accumulatedDrift := 0, pending := .empty }
      ghosts := d.pending.keys.filterMap (PendingKey.ghost? r)
      requestReinstall := true }

/-- A poll behind the gate. -/
def pollOpen (r : Readings) : PollResult :=
  if d.baselinesValid = false then { detector := d.EstablishBaselines r }
  else if d.inCooldown r then { detector := d }
  else
    match r.readKeyboardState with
    | none => { detector := d }
    | some stateNow => (d.account stateNow r.readHookFireCount).flush r

/-- C++ `Poll` -/
def Poll (r : Readings) : PollResult :=
  if d.chromiumClassActive = false then { detector := d } else d.consumeReset.pollOpen r

/-- The calls that the detector gets. -/
inductive Call where
  | Poll (r : Readings)
  | SetChromiumClassActive (active : Bool)
  | Reset

/-- One call. -/
def step (d : HookHijackDetector) : Call → HookHijackDetector
  | .Poll r => (d.Poll r).detector
  | .SetChromiumClassActive active => d.SetChromiumClassActive active
  | .Reset => d.Reset

/-- The detector after some calls. -/
def run (calls : List Call) : HookHijackDetector := Machine.run step {} calls

/-- A poll now takes a new baseline. -/
def TakesBaseline : Prop :=
  d.chromiumClassActive = true ∧ (d.pendingReset = true ∨ d.baselinesValid = false)

/-- A poll now goes on from a baseline of the session. -/
def Observing : Prop :=
  d.chromiumClassActive = true ∧ d.pendingReset = false ∧ d.baselinesValid = true

/-- The state that a poll behind a baseline compares, if it comes to that. -/
def sight (r : Readings) : Option KeyboardState :=
  if d.inCooldown r then none else r.readKeyboardState

/-- The keys that a poll behind a baseline sees go down. -/
def observed (r : Readings) : List (BitVec 8) := (d.sight r).elim [] (keyDowns d.prevState)

variable {d}

/-- No more keys go down than there are. -/
lemma length_keyDowns_le (before now : KeyboardState) : (keyDowns before now).length ≤ 256 := by
  have hle := List.length_filter_le (fun vk => IsTrackableVk vk && !IsKeyDownByte (before vk) &&
    IsKeyDownByte (now vk)) ((List.range 256).map (BitVec.ofNat 8))
  rwa [List.length_map, List.length_range] at hle

/-- The detector is off, takes its baseline or observes. -/
lemma gate_cases (d : HookHijackDetector) :
    d.chromiumClassActive = false ∨ d.TakesBaseline ∨ d.Observing := by
  unfold TakesBaseline Observing
  cases d.chromiumClassActive <;> cases d.pendingReset <;> cases d.baselinesValid <;> simp

/-- Behind a closed gate a poll does nothing. -/
lemma Poll_of_closed (h : d.chromiumClassActive = false) (r) : d.Poll r = { detector := d } := by
  rw [Poll, if_pos h]

/-- The first poll of a session takes the baseline. -/
lemma Poll_of_takesBaseline (h : d.TakesBaseline) (r) :
    d.Poll r = { detector := d.consumeReset.EstablishBaselines r } := by
  have hinvalid : d.consumeReset.baselinesValid = false := by
    rw [consumeReset]
    split
    · rfl
    · next hreset => exact h.2.resolve_left hreset
  rw [Poll, if_neg (by simp [h.1]), pollOpen, if_pos hinvalid]

/-- The other polls go on from the baseline. -/
lemma Poll_of_observing (h : d.Observing) (r) : d.Poll r = d.pollOpen r := by
  have hreset : d.consumeReset = d := by rw [consumeReset, if_neg (by simp [h.2.1])]
  rw [Poll, if_neg (by simp [h.1]), hreset]

/-- A reading that shows nothing changes nothing. -/
lemma Poll_of_blind (h : d.Observing) {r} (hsight : d.sight r = none) :
    d.Poll r = { detector := d } := by
  rw [Poll_of_observing h, pollOpen, if_neg (by simp [h.2.2])]
  rw [sight] at hsight
  split
  · rfl
  · next hcool =>
    rw [if_neg hcool] at hsight
    rw [hsight]

/-- A reading that shows the keys is accounted for and flushed. -/
lemma Poll_of_sight (h : d.Observing) {r stateNow} (hsight : d.sight r = some stateNow) :
    d.Poll r = (d.account stateNow r.readHookFireCount).flush r := by
  rw [Poll_of_observing h, pollOpen, if_neg (by simp [h.2.2])]
  rw [sight] at hsight
  split
  · next hcool =>
    rw [if_pos hcool] at hsight
    cases hsight
  · next hcool =>
    rw [if_neg hcool] at hsight
    rw [hsight]

/-- As many keys are buffered as the drift says, or fewer. -/
def Covered (d : HookHijackDetector) : Prop := d.pending.keys.length ≤ d.accumulatedDrift.toNat

/-- What holds between two calls. -/
structure Settled (d : HookHijackDetector) : Prop where
  drift : d.accumulatedDrift ≤ kDriftTolerance
  covered : d.Covered
  /-- Behind a closed gate the next session starts from a new baseline. -/
  latched : d.chromiumClassActive = false → d.pendingReset = true ∨ d.baselinesValid = false

/-- Appending adds no more than the keys. -/
lemma PendingKeys.length_append_le (pending : PendingKeys) (keys : List PendingKey) :
    (pending.append keys).keys.length ≤ pending.keys.length + keys.length := by
  rw [PendingKeys.keys_append, List.length_append, List.length_take]
  omega

/-- The counter of the keys does not wrap. -/
lemma toNat_thisPollDowns (d : HookHijackDetector) (stateNow) :
    (d.thisPollDowns stateNow).toNat = (keyDowns d.prevState stateNow).length := by
  have hle := length_keyDowns_le d.prevState stateNow
  rw [thisPollDowns, BitVec.toNat_ofNat]
  exact Nat.mod_eq_of_lt (by omega)

/-- When keys are buffered, the hook counted none of those that went down. -/
lemma length_missed_le (d : HookHijackDetector) (stateNow hookCountNow) :
    (d.missed stateNow hookCountNow).length ≤
      (d.thisPollDowns stateNow - d.hookCountDelta hookCountNow).toNat := by
  have hdowns := toNat_thisPollDowns d stateNow
  rw [missed]
  split
  · next hzero =>
    have hall : d.thisPollDowns stateNow - 0 = d.thisPollDowns stateNow := BitVec.sub_zero _
    rw [hzero, hall, hdowns, List.length_map, List.length_take]
    exact Nat.min_le_right _ _
  · exact Nat.zero_le _

/-- Where the hook is behind, the drift grows by what it missed. -/
lemma account_of_lt {d : HookHijackDetector} {stateNow hookCountNow}
    (h : d.hookCountDelta hookCountNow < d.thisPollDowns stateNow) :
    d.account stateNow hookCountNow =
      (d.advance stateNow hookCountNow).fallBehind
        (d.thisPollDowns stateNow - d.hookCountDelta hookCountNow)
        (d.missed stateNow hookCountNow) := by
  rw [account]
  exact if_pos h

/-- Where the hook is ahead, nothing stays of a drift within the tolerance. -/
lemma account_of_gt {d : HookHijackDetector} {stateNow hookCountNow}
    (hdrift : d.accumulatedDrift ≤ kDriftTolerance)
    (h : d.thisPollDowns stateNow < d.hookCountDelta hookCountNow) :
    d.account stateNow hookCountNow =
      { d.advance stateNow hookCountNow with accumulatedDrift := 0, pending := .empty } := by
  have hge : ¬d.hookCountDelta hookCountNow < d.thisPollDowns stateNow := by bv_omega
  -- the hook is ahead by one key at least, and the drift is no more than that
  have hone : d.accumulatedDrift ≤ 1 := hdrift
  have hcatch :
      ¬d.hookCountDelta hookCountNow - d.thisPollDowns stateNow < d.accumulatedDrift := by bv_omega
  rw [account]
  exact (if_neg hge).trans ((if_pos h).trans (if_neg hcatch))

/-- Where the hook counted as much as was polled, nothing changes but the readings. -/
lemma account_of_eq {d : HookHijackDetector} {stateNow hookCountNow}
    (h : d.hookCountDelta hookCountNow = d.thisPollDowns stateNow) :
    d.account stateNow hookCountNow = d.advance stateNow hookCountNow := by
  have hirrefl : ¬d.thisPollDowns stateNow < d.thisPollDowns stateNow := by bv_omega
  rw [account]
  simp only [h, if_neg hirrefl]

/-- Falling behind adds to the drift. -/
lemma toNat_fallBehind {d : HookHijackDetector} {stateNow hookCountNow keys}
    (hdrift : d.accumulatedDrift ≤ kDriftTolerance)
    (h : d.hookCountDelta hookCountNow < d.thisPollDowns stateNow) :
    ((d.advance stateNow hookCountNow).fallBehind
        (d.thisPollDowns stateNow - d.hookCountDelta hookCountNow) keys).accumulatedDrift.toNat =
      d.accumulatedDrift.toNat + (d.thisPollDowns stateNow - d.hookCountDelta hookCountNow).toNat := by
  have hle := length_keyDowns_le d.prevState stateNow
  have hdowns := toNat_thisPollDowns d stateNow
  have hone : d.accumulatedDrift ≤ 1 := hdrift
  change (d.accumulatedDrift + (d.thisPollDowns stateNow - d.hookCountDelta hookCountNow)).toNat = _
  bv_omega

/-- The comparison keeps the buffer covered. -/
lemma Settled.account (h : d.Settled) (stateNow hookCountNow) :
    (d.account stateNow hookCountNow).Covered := by
  have hcovered : d.pending.keys.length ≤ d.accumulatedDrift.toNat := h.covered
  by_cases hlt : d.hookCountDelta hookCountNow < d.thisPollDowns stateNow
  · rw [account_of_lt hlt, Covered, toNat_fallBehind h.drift hlt]
    have hmissed := length_missed_le d stateNow hookCountNow
    have hlen := PendingKeys.length_append_le d.pending (d.missed stateNow hookCountNow)
    change (d.pending.append _).keys.length ≤ _
    omega
  · by_cases hgt : d.thisPollDowns stateNow < d.hookCountDelta hookCountNow
    · rw [account_of_gt h.drift hgt]
      exact Nat.zero_le _
    · rw [account_of_eq (by bv_omega)]
      exact hcovered

/-- The accounting leaves the gate. -/
lemma account_gate (d : HookHijackDetector) (stateNow hookCountNow) :
    (d.account stateNow hookCountNow).chromiumClassActive = d.chromiumClassActive := by
  rw [account]
  split_ifs
  · rfl
  · rw [catchUp]
    split_ifs <;> rfl
  · rfl

/-- Within the tolerance nothing is injected. -/
lemma flush_of_le {d : HookHijackDetector} (h : d.accumulatedDrift ≤ kDriftTolerance) (r) :
    d.flush r = { detector := d } := if_pos h

/-- Past the tolerance the buffer is injected. -/
lemma flush_of_gt {d : HookHijackDetector} (h : kDriftTolerance < d.accumulatedDrift) (r) :
    d.flush r =
      { detector := { d with lastReinstallTickMs := r.nowMs, accumulatedDrift := 0, pending := .empty }
        ghosts := d.pending.keys.filterMap (PendingKey.ghost? r)
        requestReinstall := true } := if_neg (BitVec.not_le.2 h)

/-- So does the flush. -/
lemma flush_gate (d : HookHijackDetector) (r) :
    (d.flush r).detector.chromiumClassActive = d.chromiumClassActive := by
  rw [flush]
  split_ifs <;> rfl

/-- The accounting remembers the count of the hook. -/
lemma account_count (d : HookHijackDetector) (stateNow hookCountNow) :
    (d.account stateNow hookCountNow).prevHookFireCount = hookCountNow := by
  rw [account]
  split_ifs
  · rfl
  · rw [catchUp]
    split_ifs <;> rfl
  · rfl

/-- The flush leaves it. -/
lemma flush_count (d : HookHijackDetector) (r) :
    (d.flush r).detector.prevHookFireCount = d.prevHookFireCount := by
  rw [flush]
  split_ifs <;> rfl

/-- A poll leaves little drift. -/
lemma Settled.flush {d : HookHijackDetector} (hcovered : d.Covered)
    (hopen : d.chromiumClassActive = true) (r) : (d.flush r).detector.Settled := by
  refine ⟨?_, ?_, fun hclosed => ?_⟩
  · rw [HookHijackDetector.flush]
    split
    · next hdrift => exact hdrift
    · exact (by decide : (0 : BitVec 64) ≤ kDriftTolerance)
  · rw [HookHijackDetector.flush]
    split
    · exact hcovered
    · exact Nat.zero_le _
  · rw [flush_gate, hopen] at hclosed
    exact absurd hclosed (by decide)

/-- Every poll keeps the drift within the tolerance. -/
lemma Settled.Poll (h : d.Settled) (r) : (d.Poll r).detector.Settled := by
  rcases gate_cases d with hclosed | htakes | hobs
  · rwa [Poll_of_closed hclosed]
  · rw [Poll_of_takesBaseline htakes]
    refine ⟨(by decide : (0 : BitVec 64) ≤ kDriftTolerance), Nat.zero_le _, fun hclosed => ?_⟩
    have hgate : d.consumeReset.chromiumClassActive = true := by
      rw [consumeReset]
      split
      · exact htakes.1
      · exact htakes.1
    exact absurd (hgate.symm.trans hclosed) (by decide)
  · cases hsight : d.sight r with
    | none => rwa [Poll_of_blind hobs hsight]
    | some stateNow =>
      rw [Poll_of_sight hobs hsight]
      exact Settled.flush (h.account _ _) ((account_gate _ _ _).trans hobs.1) r

/-- Every call keeps it. -/
lemma Settled.step (h : d.Settled) (call : Call) : (HookHijackDetector.step d call).Settled := by
  cases call with
  | Poll r => exact h.Poll r
  | SetChromiumClassActive active =>
    refine ⟨h.drift, h.covered, fun hclosed => ?_⟩
    change active = false at hclosed
    subst hclosed
    -- an open gate that closes latches the reset, a closed one has it latched
    change (d.pendingReset || (d.chromiumClassActive != false && !false)) = true ∨
      d.baselinesValid = false
    cases hgate : d.chromiumClassActive with
    | true => exact .inl (by simp)
    | false => exact (h.latched hgate).imp_left fun hreset => by simp [hreset]
  | Reset => exact ⟨(by decide : (0 : BitVec 64) ≤ kDriftTolerance), Nat.zero_le _, fun _ => .inr rfl⟩

/-- At the start all is settled. -/
lemma settled_nil : Settled {} := ⟨by decide, Nat.zero_le _, fun _ => .inr rfl⟩

/-- In every state reached the drift is within the tolerance. -/
lemma settled_run (calls : List Call) : (run calls).Settled :=
  Machine.run_invariant settled_nil fun h => h.step _

/-- A key that the comparison buffers went down. -/
lemma mem_pending_account (h : d.Settled) {stateNow hookCountNow key}
    (hkey : key ∈ (d.account stateNow hookCountNow).pending.keys) :
    key ∈ d.pending.keys ∨ key.vk ∈ keyDowns d.prevState stateNow := by
  by_cases hlt : d.hookCountDelta hookCountNow < d.thisPollDowns stateNow
  · rw [account_of_lt hlt] at hkey
    change key ∈ d.pending.keys ++ _ at hkey
    refine (List.mem_append.1 hkey).imp_right fun hnew => ?_
    have hmissed := List.mem_of_mem_take hnew
    rw [missed] at hmissed
    split at hmissed
    · obtain ⟨vk, hvk, rfl⟩ := List.mem_map.1 hmissed
      exact List.mem_of_mem_take hvk
    · cases hmissed
  · by_cases hgt : d.thisPollDowns stateNow < d.hookCountDelta hookCountNow
    · rw [account_of_gt h.drift hgt] at hkey
      cases hkey
    · rw [account_of_eq (by bv_omega)] at hkey
      exact .inl hkey

/-- What is pending after a flush was pending before. -/
lemma mem_pending_flush {r key} (h : key ∈ (d.flush r).detector.pending.keys) :
    key ∈ d.pending.keys := by
  rw [flush] at h
  split at h
  · exact h
  · cases h

/-- An injected character is that of a key that waits. -/
lemma mem_ghosts_flush {r ghost} (h : ghost ∈ (d.flush r).ghosts) :
    ∃ key ∈ d.pending.keys, key.vk = ghost.vk := by
  rw [flush] at h
  split at h
  · cases h
  · obtain ⟨key, hkey, hghost⟩ := List.mem_filterMap.1 h
    refine ⟨key, hkey, ?_⟩
    rw [PendingKey.ghost?] at hghost
    split at hghost
    · exact congrArg GhostKey.vk (Option.some.inj hghost)
    · cases hghost

/-- A key that waits after a poll waited before it or was seen by it. -/
lemma mem_pending_Poll (hset : d.Settled) (h : d.Observing) {r key}
    (hkey : key ∈ (d.Poll r).detector.pending.keys) : key ∈ d.pending.keys ∨ key.vk ∈ d.observed r := by
  cases hsight : d.sight r with
  | none =>
    rw [Poll_of_blind h hsight] at hkey
    exact .inl hkey
  | some stateNow =>
    rw [Poll_of_sight h hsight] at hkey
    rw [observed, hsight]
    exact mem_pending_account hset (mem_pending_flush hkey)

/-- An injected key waited before the poll or was seen by it. -/
lemma mem_ghosts_Poll (hset : d.Settled) {r ghost} (hghost : ghost ∈ (d.Poll r).ghosts) :
    d.Observing ∧ ((∃ key ∈ d.pending.keys, key.vk = ghost.vk) ∨ ghost.vk ∈ d.observed r) := by
  rcases gate_cases d with hclosed | htakes | hobs
  · rw [Poll_of_closed hclosed] at hghost
    cases hghost
  · rw [Poll_of_takesBaseline htakes] at hghost
    cases hghost
  · cases hsight : d.sight r with
    | none =>
      rw [Poll_of_blind hobs hsight] at hghost
      cases hghost
    | some stateNow =>
      rw [Poll_of_sight hobs hsight] at hghost
      obtain ⟨key, hkey, hvk⟩ := mem_ghosts_flush hghost
      rw [observed, hsight]
      exact ⟨hobs, (mem_pending_account hset hkey).imp (fun hold => ⟨key, hold, hvk⟩)
        fun hnew => hvk ▸ hnew⟩

/-- After `before` a poll took the baseline of a session, which goes on through `rest`. -/
structure SessionFrom (before : List Call) (b : Readings) (rest : List Call) : Prop where
  takesBaseline : (run before).TakesBaseline
  observing : Machine.Guarded step (fun d _ => d.Observing) (run (before ++ [.Poll b])) rest

/-- A poll of `rest` saw the key go down. -/
def SeenIn (before : List Call) (b : Readings) (rest : List Call) (vk : BitVec 8) : Prop :=
  ∃ between o after, rest = between ++ .Poll o :: after ∧
    vk ∈ (run (before ++ .Poll b :: between)).observed o

/-- A run in two parts. -/
lemma run_append (calls more : List Call) : run (calls ++ more) = Machine.run step (run calls) more :=
  Machine.run_append

/-- The last call of a run. -/
lemma run_concat (calls : List Call) (call : Call) : run (calls ++ [call]) = step (run calls) call :=
  run_append calls [call]

/-- A session goes on with a call that it meets open. -/
lemma SessionFrom.concat {before b rest} (h : SessionFrom before b rest)
    (hobs : (run (before ++ .Poll b :: rest)).Observing) (call : Call) :
    SessionFrom before b (rest ++ [call]) := by
  refine ⟨h.takesBaseline, Machine.guarded_append.2 ⟨h.observing, ?_, trivial⟩⟩
  rwa [← run_append, List.append_assoc]

/-- What was seen stays seen. -/
lemma SeenIn.concat {before b rest vk} (h : SeenIn before b rest vk) (call : Call) :
    SeenIn before b (rest ++ [call]) vk := by
  obtain ⟨between, o, after, rfl, hvk⟩ := h
  exact ⟨between, o, after ++ [call], by simp, hvk⟩

/-- What the last poll has seen. -/
lemma seenIn_last {before b rest r vk} (h : vk ∈ (run (before ++ .Poll b :: rest)).observed r) :
    SeenIn before b (rest ++ [.Poll r]) vk := ⟨rest, r, [], rfl, h⟩

/-- Between its polls a session goes on only where the gate stays open. -/
lemma observing_of_gate (hset : d.Settled) {active} (h : (d.SetChromiumClassActive active).Observing) :
    d.Observing := by
  obtain ⟨-, hlatch, hvalid⟩ := h
  have hreset : d.pendingReset = false := (Bool.or_eq_false_iff.1 hlatch).1
  have hvalid' : d.baselinesValid = true := hvalid
  refine ⟨?_, hreset, hvalid'⟩
  by_contra hgate
  rcases hset.latched (Bool.eq_false_iff.2 hgate) with hlatched | hinvalid
  · exact absurd (hreset.symm.trans hlatched) (by decide)
  · exact absurd (hvalid'.symm.trans hinvalid) (by decide)

/-- In a session every key that waits was seen since its baseline. -/
lemma session_of_observing (calls : List Call) (h : (run calls).Observing) :
    ∃ before b rest, calls = before ++ .Poll b :: rest ∧ SessionFrom before b rest ∧
      ∀ key ∈ (run calls).pending.keys, SeenIn before b rest key.vk := by
  induction calls using List.reverseRecOn with
  | nil => exact absurd h.1 (by decide)
  | append_singleton calls call ih =>
    have hset := settled_run calls
    rw [run_concat] at h ⊢
    cases call with
    | Poll r =>
      rcases gate_cases (run calls) with hclosed | htakes | hobs
      · have hopen := h.1
        rw [step, Poll_of_closed hclosed, hclosed] at hopen
        exact absurd hopen (by decide)
      · -- the poll takes the baseline of a new session
        refine ⟨calls, r, [], rfl, ⟨htakes, trivial⟩, ?_⟩
        rw [step, Poll_of_takesBaseline htakes]
        nofun
      · obtain ⟨before, b, rest, rfl, hsession, hseen⟩ := ih hobs
        refine ⟨before, b, rest ++ [.Poll r], by simp, hsession.concat hobs _, fun key hkey => ?_⟩
        rcases mem_pending_Poll hset hobs hkey with hold | hnew
        · exact (hseen key hold).concat _
        · exact seenIn_last hnew
    | SetChromiumClassActive active =>
      -- the gate was open before: a gate that opens has a reset pending
      have hobs : (run calls).Observing := observing_of_gate hset h
      obtain ⟨before, b, rest, rfl, hsession, hseen⟩ := ih hobs
      exact ⟨before, b, rest ++ [.SetChromiumClassActive active], by simp, hsession.concat hobs _,
        fun key hkey => (hseen key hkey).concat _⟩
    | Reset => exact absurd h.2.2 (by simp [step, HookHijackDetector.Reset])

/-- After any calls a poll leaves a drift of at most one and no more keys waiting than that, it injects
    nothing behind a closed gate, and what it injects was seen to go down since the baseline of the same
    session. -/
theorem drift_accounting (calls : List Call) (r : Readings) :
    (((run calls).Poll r).detector.accumulatedDrift ≤ 1 ∧
      ((run calls).Poll r).detector.pending.keys.length ≤
        ((run calls).Poll r).detector.accumulatedDrift.toNat) ∧
    ((run calls).chromiumClassActive = false → ((run calls).Poll r).ghosts = []) ∧
    ∀ ghost ∈ ((run calls).Poll r).ghosts, ∃ before b rest,
      calls ++ [.Poll r] = before ++ .Poll b :: rest ∧ SessionFrom before b rest ∧
        SeenIn before b rest ghost.vk := by
  have hset := settled_run calls
  refine ⟨⟨(hset.Poll r).drift, (hset.Poll r).covered⟩,
    fun hclosed => by rw [Poll_of_closed hclosed], ?_⟩
  intro ghost hghost
  obtain ⟨hobs, hfrom⟩ := mem_ghosts_Poll hset hghost
  obtain ⟨before, b, rest, rfl, hsession, hseen⟩ := session_of_observing calls hobs
  refine ⟨before, b, rest ++ [.Poll r], by simp, hsession.concat hobs _, ?_⟩
  rcases hfrom with ⟨key, hkey, hvk⟩ | hnow
  · exact hvk ▸ (hseen key hkey).concat _
  · exact seenIn_last hnow

end HookHijackDetector

end NextKey
