import Mathlib.Data.Finset.Card
import Mathlib.Data.List.Dedup
import NextKey.Lib.Lists
import NextKey.Lib.Machine
import NextKey.Macro.Case

/-!
# The shared table of smart switch

Model of `core/SmartSwitchState.h` and of `SetAppMode` and `GetAppMode` of
`core/SmartSwitchManager.cpp`, on a table that is mapped and starts empty. An app is known by the
hash of its name in lower case. The table has room for 64 apps, and an app that comes when it is full
is not stored.
-/

namespace NextKey

/-- C++ `FnvHash`, of a string that ends at its first NUL -/
def FnvHash [WideCtype] (str : WString) : BitVec 32 :=
  (str.takeWhile (· ≠ 0)).foldl
    (fun hash c => (hash ^^^ .ofNat 32 (WideCtype.towlower c).toNat) * 16777619#32) 2166136261#32

/-- C++ `SMART_SWITCH_MAX_ENTRIES` -/
def SMART_SWITCH_MAX_ENTRIES : Nat := 64

/-- C++ `SmartSwitchEntry` -/
structure SmartSwitchEntry where
  hash : BitVec 32 := 0
  vietnamese : BitVec 8 := 0
  deriving DecidableEq, Repr

/-- C++ `SmartSwitchState`, as `InitDefaults` leaves it -/
structure SmartSwitchState where
  epoch : BitVec 32 := 0
  count : Nat := 0
  entries : List SmartSwitchEntry := List.replicate SMART_SWITCH_MAX_ENTRIES {}
  size : entries.length = SMART_SWITCH_MAX_ENTRIES := by rfl

namespace SmartSwitchState

variable (p : SmartSwitchState)

/-- The entries that a scan goes through. -/
def live : List SmartSwitchEntry := p.entries.take p.count

/-- The scan for a hash. -/
def find (hash : BitVec 32) : Option Nat := p.live.findIdx? fun e => e.hash = hash

/-- The byte of a mode. -/
def modeByte (vietnamese : Bool) : BitVec 8 := if vietnamese then 1 else 0

section Names
variable [WideCtype]

/-- C++ `SetAppMode` -/
def SetAppMode (exeName : WString) (vietnamese : Bool) : SmartSwitchState :=
  let hash := FnvHash exeName
  match p.find hash with
  | some i =>
    { epoch := p.epoch + 1
      count := p.count
      entries := p.entries.modify i fun e => { e with vietnamese := modeByte vietnamese }
      size := by rw [List.length_modify, p.size] }
  | none =>
    if p.count < SMART_SWITCH_MAX_ENTRIES then
      { epoch := p.epoch + 1
        count := p.count + 1
        entries := p.entries.set p.count ⟨hash, modeByte vietnamese⟩
        size := by rw [List.length_set, p.size] }
    else p

/-- C++ `GetAppMode` -/
def GetAppMode (exeName : WString) : Option Bool :=
  (p.live.find? fun e => e.hash = FnvHash exeName).map fun e => e.vietnamese != 0

/-- A call of `SetAppMode`. -/
def step (p : SmartSwitchState) (call : WString × Bool) : SmartSwitchState := p.SetAppMode call.1 call.2

/-- The table after some calls. -/
def run (calls : List (WString × Bool)) : SmartSwitchState := Machine.run step p calls

end Names

end SmartSwitchState

section Names
variable [WideCtype] (calls : List (WString × Bool)) (hash : BitVec 32)

/-- The hash of the app of a call. -/
def callHash (call : WString × Bool) : BitVec 32 := FnvHash call.1

/-- The hashes of the apps, each once. -/
def distinctHashes : Finset (BitVec 32) := (calls.map callHash).toFinset

/-- The hashes of the apps in the order of their first calls. -/
def firstHashes : List (BitVec 32) := (calls.map callHash).reverse.dedup.reverse

/-- The hashes that find room. -/
def admitted : List (BitVec 32) := (firstHashes calls).take SMART_SWITCH_MAX_ENTRIES

/-- The mode that was set last under a hash. -/
def lastMode : Option Bool := (calls.reverse.find? fun call => callHash call = hash).map Prod.snd

/-- The entry that the calls leave for a hash. -/
def lastEntry : SmartSwitchEntry :=
  ⟨hash, SmartSwitchState.modeByte ((lastMode calls hash).getD false)⟩

variable {calls hash}

/-- The hashes are those of the calls. -/
lemma mem_firstHashes : hash ∈ firstHashes calls ↔ hash ∈ calls.map callHash := by
  rw [firstHashes, List.mem_reverse, List.mem_dedup, List.mem_reverse]

/-- Each stands there once. -/
lemma nodup_firstHashes : (firstHashes calls).Nodup :=
  List.nodup_reverse.2 (List.nodup_dedup _)

/-- As many as there are different ones. -/
lemma length_firstHashes : (firstHashes calls).length = (distinctHashes calls).card := by
  rw [firstHashes, List.length_reverse, distinctHashes, ← List.toFinset_reverse, List.card_toFinset]

/-- No hash is admitted twice. -/
lemma nodup_admitted : (admitted calls).Nodup := nodup_firstHashes.sublist (List.take_sublist _ _)

/-- At most 64 are admitted. -/
lemma length_admitted :
    (admitted calls).length = min SMART_SWITCH_MAX_ENTRIES (distinctHashes calls).card := by
  rw [admitted, List.length_take, length_firstHashes]

/-- With room for all, every app is admitted. -/
lemma mem_admitted_of_card (h : (distinctHashes calls).card ≤ SMART_SWITCH_MAX_ENTRIES) :
    hash ∈ admitted calls ↔ hash ∈ calls.map callHash := by
  rw [admitted, List.take_of_length_le (by rw [length_firstHashes]; exact h), mem_firstHashes]

/-- A mode was set for a hash just when there was a call for it. -/
lemma isSome_lastMode : (lastMode calls hash).isSome ↔ hash ∈ calls.map callHash := by
  rw [lastMode, Option.isSome_map, List.find?_isSome]
  simp [eq_comm]

variable {call : WString × Bool}

/-- The hashes after one more call. -/
lemma firstHashes_append :
    firstHashes (calls ++ [call]) =
      if callHash call ∈ firstHashes calls then firstHashes calls
      else firstHashes calls ++ [callHash call] := by
  have hmem : callHash call ∈ firstHashes calls ↔ callHash call ∈ (calls.map callHash).reverse := by
    rw [mem_firstHashes, List.mem_reverse]
  simp only [hmem]
  rw [firstHashes, List.map_append, List.map_singleton, List.reverse_append, List.reverse_singleton,
    List.singleton_append]
  split
  · next h =>
    rw [List.dedup_cons_of_mem h]
    rfl
  · next h =>
    rw [List.dedup_cons_of_notMem h, List.reverse_cons]
    rfl

/-- The mode after one more call. -/
lemma lastMode_append :
    lastMode (calls ++ [call]) hash =
      if callHash call = hash then some call.2 else lastMode calls hash := by
  rw [lastMode, List.reverse_append, List.reverse_singleton, List.singleton_append, List.find?_cons]
  split
  · next h => rw [if_pos (of_decide_eq_true h), Option.map_some]
  · next h =>
    rw [if_neg (of_decide_eq_false h)]
    rfl

/-- A call for a hash that is admitted admits nothing. -/
lemma admitted_append_of_mem (h : callHash call ∈ firstHashes calls) :
    admitted (calls ++ [call]) = admitted calls := by
  rw [admitted, firstHashes_append, if_pos h]
  rfl

/-- A call for a new hash admits it when there is room. -/
lemma admitted_append_of_lt (h : callHash call ∉ firstHashes calls)
    (hlt : (admitted calls).length < SMART_SWITCH_MAX_ENTRIES) :
    admitted (calls ++ [call]) = admitted calls ++ [callHash call] := by
  have hfirst : (firstHashes calls).length < SMART_SWITCH_MAX_ENTRIES := by
    rw [admitted, List.length_take] at hlt
    omega
  rw [admitted, admitted, firstHashes_append, if_neg h, List.take_of_length_le hfirst.le,
    List.take_of_length_le]
  rw [List.length_append, List.length_singleton]
  omega

/-- A full table admits nothing. -/
lemma admitted_append_of_le (hle : SMART_SWITCH_MAX_ENTRIES ≤ (admitted calls).length) :
    admitted (calls ++ [call]) = admitted calls := by
  have hfirst : SMART_SWITCH_MAX_ENTRIES ≤ (firstHashes calls).length := by
    rw [admitted, List.length_take] at hle
    omega
  rw [admitted, admitted, firstHashes_append]
  split
  · rfl
  · exact List.take_append_of_le_length hfirst

/-- Where the table has room, what was called for was admitted. -/
lemma not_mem_firstHashes (h : hash ∉ admitted calls)
    (hlt : (admitted calls).length < SMART_SWITCH_MAX_ENTRIES) : hash ∉ firstHashes calls := by
  have hfirst : (firstHashes calls).length < SMART_SWITCH_MAX_ENTRIES := by
    rw [admitted, List.length_take] at hlt
    omega
  rwa [admitted, List.take_of_length_le hfirst.le] at h

/-- A call leaves the entries of other hashes. -/
lemma lastEntry_append_of_ne (h : hash ≠ callHash call) :
    lastEntry (calls ++ [call]) hash = lastEntry calls hash := by
  rw [lastEntry, lastMode_append, if_neg h.symm]
  rfl

/-- The entry of the call that came last. -/
lemma lastEntry_append_self :
    lastEntry (calls ++ [call]) (callHash call) =
      ⟨callHash call, SmartSwitchState.modeByte call.2⟩ := by
  rw [lastEntry, lastMode_append, if_pos rfl]
  rfl

end Names

namespace SmartSwitchState

variable [WideCtype] {p : SmartSwitchState} {calls : List (WString × Bool)}

/-- The live entries are those of the admitted apps, with the modes that were set last. -/
structure Stores (p : SmartSwitchState) (calls : List (WString × Bool)) : Prop where
  count : p.count = (admitted calls).length
  live : p.live = (admitted calls).map (lastEntry calls)

/-- The hashes that are stored. -/
lemma Stores.hashes (h : p.Stores calls) : p.live.map SmartSwitchEntry.hash = admitted calls := by
  rw [h.live, List.map_map]
  exact List.map_id _

/-- The fresh table. -/
lemma stores_nil : Stores {} [] := ⟨rfl, rfl⟩

/-- A scan that finds nothing. -/
lemma Stores.find_none (h : p.Stores calls) {hash} (hfind : p.find hash = none) :
    hash ∉ admitted calls := by
  rw [← h.hashes]
  intro hmem
  obtain ⟨e, he, rfl⟩ := List.mem_map.1 hmem
  simpa using List.findIdx?_eq_none_iff.1 hfind e he

/-- A scan that finds an entry finds the only one of its hash. -/
lemma Stores.find_some (h : p.Stores calls) {hash i} (hfind : p.find hash = some i) :
    hash ∈ admitted calls ∧ ∀ j k, (admitted calls)[j]? = some k → (i = j ↔ k = hash) := by
  obtain ⟨hi, hat, -⟩ := List.findIdx?_eq_some_iff_getElem.1 hfind
  have hget : (admitted calls)[i]? = some hash := by
    rw [← h.hashes, List.getElem?_map, List.getElem?_eq_getElem hi]
    exact congrArg some (of_decide_eq_true hat)
  refine ⟨List.mem_of_getElem? hget, fun j k hk => ?_⟩
  constructor
  · rintro rfl
    exact Option.some.inj (hk.symm.trans hget)
  · rintro rfl
    have hi' := (List.getElem?_eq_some_iff.1 hget).1
    exact (List.getElem?_inj hi' nodup_admitted).1 (hget.trans hk.symm)

/-- Setting the mode of an app that has an entry. -/
lemma Stores.set_found (h : p.Stores calls) {call : WString × Bool} {i}
    (hfind : p.find (callHash call) = some i) :
    (p.SetAppMode call.1 call.2).Stores (calls ++ [call]) := by
  obtain ⟨hmem, hat⟩ := h.find_some hfind
  have hset : p.SetAppMode call.1 call.2 =
      { epoch := p.epoch + 1
        count := p.count
        entries := p.entries.modify i fun e => { e with vietnamese := modeByte call.2 }
        size := by rw [List.length_modify, p.size] } := by
    rw [SetAppMode]
    simp only [show p.find (FnvHash call.1) = some i from hfind]
  have hadmitted := admitted_append_of_mem (List.mem_of_mem_take hmem)
  rw [hset]
  refine ⟨by rw [hadmitted]; exact h.count, ?_⟩
  change (p.entries.modify i _).take p.count = _
  rw [hadmitted, List.take_modify, show p.entries.take p.count = _ from h.live]
  refine List.ext_getElem? fun j => ?_
  rw [List.getElem?_modify, List.getElem?_map, List.getElem?_map]
  cases hj : (admitted calls)[j]? with
  | none => simp
  | some k =>
    have hk := hat j k hj
    simp only [Option.map_some, Option.map_eq_map, Option.some.injEq]
    split
    · next hij =>
      rw [hk.1 hij, lastEntry_append_self]
      rfl
    · next hij =>
      exact (lastEntry_append_of_ne fun hkh => hij (hk.2 hkh)).symm

/-- Setting the mode of an app that has no entry. -/
lemma Stores.set_new (h : p.Stores calls) {call : WString × Bool}
    (hfind : p.find (callHash call) = none) :
    (p.SetAppMode call.1 call.2).Stores (calls ++ [call]) := by
  have hnot := h.find_none hfind
  have hset : p.SetAppMode call.1 call.2 =
      if p.count < SMART_SWITCH_MAX_ENTRIES then
        { epoch := p.epoch + 1
          count := p.count + 1
          entries := p.entries.set p.count ⟨callHash call, modeByte call.2⟩
          size := by rw [List.length_set, p.size] }
      else p := by
    rw [SetAppMode]
    simp only [show p.find (FnvHash call.1) = none from hfind]
    rfl
  -- the entries of the others stay as they are
  have hothers : (admitted calls).map (lastEntry (calls ++ [call])) =
      (admitted calls).map (lastEntry calls) :=
    List.map_congr_left fun k hk => lastEntry_append_of_ne (ne_of_mem_of_not_mem hk hnot)
  rw [hset]
  split
  · next hlt =>
    have hadmitted := admitted_append_of_lt (not_mem_firstHashes hnot (h.count ▸ hlt)) (h.count ▸ hlt)
    refine ⟨?_, ?_⟩
    · rw [hadmitted, List.length_append, List.length_singleton, ← h.count]
    · rw [hadmitted, List.map_append, hothers, ← h.live, List.map_singleton, lastEntry_append_self]
      have hroom : p.count < p.entries.length := p.size ▸ hlt
      have hat : p.count - (p.entries.take p.count).length = 0 := by
        rw [List.length_take]
        omega
      change (p.entries.set p.count _).take (p.count + 1) = _
      rw [List.take_set, List.take_succ_eq_append_getElem hroom,
        List.set_append_right _ _ (List.length_take_le _ _), hat]
      rfl
  · next hge =>
    have hadmitted : admitted (calls ++ [call]) = admitted calls :=
      admitted_append_of_le (h.count ▸ Nat.le_of_not_lt hge)
    exact ⟨by rw [hadmitted]; exact h.count, by rw [hadmitted, hothers]; exact h.live⟩

/-- A call of `SetAppMode` is stored. -/
lemma Stores.step (h : p.Stores calls) (call : WString × Bool) :
    (SmartSwitchState.step p call).Stores (calls ++ [call]) := by
  cases hfind : p.find (callHash call) with
  | some i => exact h.set_found hfind
  | none => exact h.set_new hfind

/-- Calls of `SetAppMode` are stored. -/
lemma Stores.run (h : p.Stores calls) (more : List (WString × Bool)) :
    (SmartSwitchState.run p more).Stores (calls ++ more) := by
  induction more generalizing p calls with
  | nil => rwa [List.append_nil]
  | cons call more ih =>
    have hmore := ih (h.step call)
    rwa [List.append_assoc, List.singleton_append] at hmore

/-- What a scan over the admitted hashes finds. -/
lemma find?_admitted {hash : BitVec 32} :
    (admitted calls).find? (fun k => k = hash) = if hash ∈ admitted calls then some hash else none := by
  cases hfind : (admitted calls).find? (fun k => k = hash) with
  | none =>
    rw [if_neg fun hmem => by simpa using List.find?_eq_none.1 hfind hash hmem]
  | some k =>
    have hk : k = hash := by simpa using List.find?_some hfind
    rw [if_pos (hk ▸ List.mem_of_find?_eq_some hfind), hk]

omit [WideCtype] in
/-- A mode is read as it was stored. -/
lemma modeByte_bne (vietnamese : Bool) : (modeByte vietnamese != 0) = vietnamese := by
  cases vietnamese <;> rfl

/-- What `GetAppMode` finds. -/
lemma Stores.GetAppMode (h : p.Stores calls) (exeName : WString) :
    p.GetAppMode exeName =
      if FnvHash exeName ∈ admitted calls then lastMode calls (FnvHash exeName) else none := by
  have hscan : p.live.find? (fun e => e.hash = FnvHash exeName) =
      ((admitted calls).find? fun k => k = FnvHash exeName).map (lastEntry calls) := by
    rw [h.live, List.find?_map]
    rfl
  rw [SmartSwitchState.GetAppMode, hscan, find?_admitted]
  split
  · next hmem =>
    have hcalled := mem_firstHashes.1 (List.mem_of_mem_take hmem)
    obtain ⟨mode, hmode⟩ := Option.isSome_iff_exists.1 (isSome_lastMode.2 hcalled)
    rw [hmode, Option.map_some, Option.map_some, lastEntry, hmode, Option.getD_some, modeByte_bne]
  · rfl

end SmartSwitchState

section Runs
variable [WideCtype] (calls : List (WString × Bool))

/-- After any calls the stored hashes differ, as many as the apps or 64 of them; the apps that came
    first have the modes that were set last, and the others have none. -/
theorem appModes_run :
    ((SmartSwitchState.run {} calls).live.map SmartSwitchEntry.hash).Nodup ∧
      (SmartSwitchState.run {} calls).count = min SMART_SWITCH_MAX_ENTRIES (distinctHashes calls).card ∧
      (∀ exeName, (SmartSwitchState.run {} calls).GetAppMode exeName =
        if FnvHash exeName ∈ admitted calls then lastMode calls (FnvHash exeName) else none) ∧
      ((distinctHashes calls).card ≤ SMART_SWITCH_MAX_ENTRIES →
        ∀ exeName, (SmartSwitchState.run {} calls).GetAppMode exeName =
          lastMode calls (FnvHash exeName)) := by
  have hstores : (SmartSwitchState.run {} calls).Stores calls := SmartSwitchState.stores_nil.run calls
  refine ⟨hstores.hashes ▸ nodup_admitted, hstores.count.trans length_admitted, hstores.GetAppMode, ?_⟩
  intro hroom exeName
  rw [hstores.GetAppMode]
  split
  · rfl
  · next hnot =>
    rw [mem_admitted_of_card hroom, ← isSome_lastMode] at hnot
    exact (Option.not_isSome_iff_eq_none.1 hnot).symm

end Runs

section Ascii
attribute [local instance] WideCtype.ascii

/-- 64 apps. -/
def manyApps : List (WString × Bool) := (List.range 64).map fun i => ([.ofNat (0x80 + i)], true)

/-- With more than 64 apps the one that was set last may not be there. -/
theorem not_appModes_recent :
    ¬∀ (calls : List (WString × Bool)) (call : WString × Bool),
      SMART_SWITCH_MAX_ENTRIES < (distinctHashes (calls ++ [call])).card →
        (SmartSwitchState.run {} (calls ++ [call])).GetAppMode call.1 = some call.2 := by
  intro h
  have hmany : SMART_SWITCH_MAX_ENTRIES < (distinctHashes (manyApps ++ [([0x7A], true)])).card := by
    decide +kernel
  have hlast := h manyApps ([0x7A], true) hmany
  revert hlast
  decide +kernel

end Ascii

end NextKey
