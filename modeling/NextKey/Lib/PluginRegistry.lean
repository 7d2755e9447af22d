import Mathlib.Data.List.Nodup
import Mathlib.Data.List.Sort
import Mathlib.Tactic.Lemma
import Mathlib.Tactic.TypeStar

/-!
# Registries of plugins

A registry keeps its plugins in buckets, each sorted by priority when a plugin is registered. An input
is offered to the plugins of one bucket in turn, until one of them has it; those that need a gate that
is raised are passed over.

Plugins of different priorities stand in their bucket in one order, however they were registered
(`registerAll_eq`), and gates raise one mask in any order (`raised_perm`).
-/

namespace PluginRegistry

variable {ι κ σ γ : Type*}

/-- What a plugin says about an input. -/
inductive Result where
  | pass
  | handled
  | veto
  deriving DecidableEq, Repr

/-- A plugin for inputs `κ` of a component with states `σ`. -/
structure Plugin (ι κ σ : Type*) where
  bucket : ι
  priority : ℤ
  /-- The gates that keep the plugin out when they are raised. -/
  requires : BitVec 32
  act : κ → σ → σ × Result

/-- The plugins of each bucket. -/
abbrev Registry (ι κ σ : Type*) := ι → List (Plugin ι κ σ)

variable [DecidableEq ι]

/-- A plugin joins its bucket, which is then sorted by priority, stably. -/
def Registry.register (reg : Registry ι κ σ) (p : Plugin ι κ σ) : Registry ι κ σ :=
  Function.update reg p.bucket ((reg p.bucket ++ [p]).mergeSort fun a b => a.priority ≤ b.priority)

/-- The registry after a list of registrations. -/
def registerAll (plugins : List (Plugin ι κ σ)) : Registry ι κ σ :=
  plugins.foldl Registry.register fun _ => []

variable {reg : Registry ι κ σ} {p : Plugin ι κ σ} {plugins target : List (Plugin ι κ σ)} {b : ι}

/-- The new plugin joins its bucket. -/
lemma register_perm : (reg.register p b).Perm (reg b ++ [p].filter (·.bucket = b)) := by
  by_cases hb : p.bucket = b
  · have hp : [p].filter (·.bucket = b) = [p] := by simp [hb]
    rw [Registry.register, hb, Function.update_self, hp]
    exact List.mergeSort_perm _ _
  · have hp : [p].filter (·.bucket = b) = [] := by simp [hb]
    rw [Registry.register, Function.update_of_ne (Ne.symm hb), hp, List.append_nil]

/-- A bucket is sorted by priority. -/
def Sorted (reg : Registry ι κ σ) : Prop :=
  ∀ b, (reg b).Pairwise fun p q => p.priority ≤ q.priority

/-- The buckets stay sorted. -/
lemma Sorted.register (h : Sorted reg) : Sorted (reg.register p) := by
  intro b
  by_cases hb : b = p.bucket
  · subst hb
    rw [Registry.register, Function.update_self]
    refine (List.pairwise_mergeSort ?_ ?_ _).imp of_decide_eq_true
    · exact fun p q r hpq hqr =>
        decide_eq_true ((of_decide_eq_true hpq).trans (of_decide_eq_true hqr))
    · exact fun p q => by simpa using le_total p.priority q.priority
  · rw [Registry.register, Function.update_of_ne hb]
    exact h b

/-- After all registrations they are sorted. -/
lemma foldl_register (h : Sorted reg) :
    Sorted (plugins.foldl Registry.register reg) ∧
      (plugins.foldl Registry.register reg b).Perm (reg b ++ plugins.filter (·.bucket = b)) := by
  induction plugins generalizing reg with
  | nil => exact ⟨h, by simp⟩
  | cons p plugins ih =>
    obtain ⟨hsorted, hperm⟩ := ih h.register
    refine ⟨hsorted, hperm.trans ?_⟩
    have hhead : (p :: plugins).filter (·.bucket = b) =
        [p].filter (·.bucket = b) ++ plugins.filter (·.bucket = b) :=
      List.filter_append [p] plugins
    rw [hhead, ← List.append_assoc]
    exact register_perm.append_right _

/-- Plugins of different priorities stand in their bucket in order of priority. -/
theorem registerAll_eq (hperm : (plugins.filter (·.bucket = b)).Perm target)
    (hsorted : target.Pairwise fun p q => p.priority < q.priority) :
    registerAll plugins b = target := by
  obtain ⟨hbucket, hplugins⟩ :=
    @foldl_register ι κ σ _ (fun _ => []) plugins b fun _ => List.Pairwise.nil
  have htarget : (registerAll plugins b).Perm target := hplugins.trans hperm
  have hdistinct : (target.map (·.priority)).Nodup := List.pairwise_map.2 (hsorted.imp ne_of_lt)
  refine htarget.eq_of_pairwise (fun p q hp hq hpq hqp => ?_) (hbucket b) (hsorted.imp le_of_lt)
  exact List.inj_on_of_nodup_map hdistinct (htarget.mem_iff.1 hp) hq (le_antisymm hpq hqp)

/-- A gate: its bit, and whether it is raised for an input. -/
structure Gate (κ σ : Type*) where
  mask : BitVec 32
  isRaised : κ → σ → Bool

/-- The gates that are raised, as one mask. -/
def raised (gates : List (Gate κ σ)) (k : κ) (s : σ) : BitVec 32 :=
  gates.foldl (fun mask gate => if gate.isRaised k s then mask ||| gate.mask else mask) 0

omit [DecidableEq ι] in
/-- The order of the gates does not matter. -/
theorem raised_perm {gates gates' : List (Gate κ σ)} (h : gates.Perm gates') (k : κ) (s : σ) :
    raised gates k s = raised gates' k s := by
  refine h.foldl_eq' (fun g _ g' _ mask => ?_) 0
  split <;> split <;> first | rfl | rw [BitVec.or_assoc, BitVec.or_assoc, BitVec.or_comm g.mask]

/-- The plugins in turn, without those that a raised gate keeps out, until one has the input. -/
def dispatch (mask : BitVec 32) (k : κ) : List (Plugin ι κ σ) → σ → σ × Result
  | [], s => (s, .pass)
  | p :: plugins, s =>
    if p.requires &&& mask ≠ 0 then dispatch mask k plugins s
    else if (p.act k s).2 = .pass then dispatch mask k plugins (p.act k s).1
    else p.act k s

section Dispatch

omit [DecidableEq ι]

variable {mask : BitVec 32} {k : κ} {s : σ}

/-- Without plugins the key is passed. -/
@[simp] lemma dispatch_nil : dispatch mask k ([] : List (Plugin ι κ σ)) s = (s, .pass) := rfl

/-- A plugin that a raised gate keeps out. -/
lemma dispatch_of_gated (h : p.requires &&& mask ≠ 0) :
    dispatch mask k (p :: plugins) s = dispatch mask k plugins s := if_pos h

/-- A plugin that is let in and leaves the input to the next ones. -/
lemma dispatch_of_pass {s' : σ} (h : p.requires &&& mask = 0) (hact : p.act k s = (s', .pass)) :
    dispatch mask k (p :: plugins) s = dispatch mask k plugins s' := by
  rw [dispatch, if_neg (not_not.2 h), if_pos (congrArg Prod.snd hact), hact]

/-- A plugin that is let in and has the input. -/
lemma dispatch_of_stop {s' : σ} {result : Result} (h : p.requires &&& mask = 0)
    (hact : p.act k s = (s', result)) (hresult : result ≠ .pass) :
    dispatch mask k (p :: plugins) s = (s', result) := by
  have hne : (p.act k s).2 ≠ .pass := by rwa [hact]
  rw [dispatch, if_neg (not_not.2 h), if_neg hne, hact]

end Dispatch

end PluginRegistry
