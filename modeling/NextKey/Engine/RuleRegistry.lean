import NextKey.Lib.PluginRegistry
import NextKey.Engine.Typing

/-!
# Engine rules

Model of the rules of the typing engine and of `PushChar` as it goes through their registry:
`ToneRule`, `ModifierRule`, `QuickStartConsonantRule`, `QuickEndConsonantRule` and
`EngineRuleRegistry` under `core/engine/rule/`, and the two dispatches of `TypingEngine::PushChar`. A
rule reads the buffer through the references of its context, so it sees what the rules before it have
left; the gates are read once, before the first rule of the phase.

The rules, registered in any order, do what the engine of `NextKey.Engine.Typing` does in a fixed one
(`pushThroughRules_eq`).
-/

namespace NextKey

open PluginRegistry (Plugin Registry registerAll)

/-- C++ `Pipeline::GateId` -/
inductive GateId where
  | englishBias
  | spellCheck
  | toneEscape
  deriving DecidableEq, Repr

/-- C++ `GateMaskFor` -/
def gateMaskFor : GateId → BitVec 32
  | .englishBias => 1#32 <<< 0
  | .spellCheck => 1#32 <<< 1
  | .toneEscape => 1#32 <<< 2

/-- C++ `EngineRule::Phase` -/
inductive RulePhase where
  | preClassify
  | postClassify
  deriving DecidableEq, Repr

/-- C++ `EngineRuleContext`, without the references to the buffer. -/
structure EngineRuleContext where
  keyChar : Char
  lower : Char
  isUpper : Bool
  /-- `none` before the classification. -/
  action : TypingAction
  spellCheckDisabled : Bool
  escapeActive : Bool
  bias : LanguageBias
  config : TypingConfig

/-- C++ `IEngineRule` -/
abbrev EngineRule := Plugin RulePhase EngineRuleContext EngineState

/-- C++ `EngineRuleRegistry` -/
abbrev EngineRuleRegistry := Registry RulePhase EngineRuleContext EngineState

/-- C++ `EngineRuleRegistry::EvaluateGates` -/
def EngineRuleContext.evaluateGates (ctx : EngineRuleContext) : BitVec 32 :=
  let english := if ctx.bias = .hardEnglish ∧ ¬ctx.config.allowEnglishBypass then
    gateMaskFor .englishBias else 0
  let spell := if ctx.spellCheckDisabled ∧ ctx.config.spellCheckEnabled ∧
    ¬ctx.config.allowEnglishBypass then gateMaskFor .spellCheck else 0
  let escape := if ctx.escapeActive then gateMaskFor .toneEscape else 0
  english ||| spell ||| escape

/-- C++ `EngineRuleRegistry::DispatchAtPhase` -/
def dispatchAtPhase (reg : EngineRuleRegistry) (phase : RulePhase) (ctx : EngineRuleContext)
    (st : EngineState) : EngineState × PluginRegistry.Result :=
  PluginRegistry.dispatch ctx.evaluateGates ctx (reg phase) st

/-- A rule that consumes a key vetoes it. -/
def vetoIf (result : EngineState × Bool) : EngineState × PluginRegistry.Result :=
  (result.1, if result.2 then .veto else .pass)

variable [WideLocale]

/-- C++ `ToneRule` -/
def toneEngineRule : EngineRule where
  bucket := .postClassify
  priority := 10
  requires := gateMaskFor .toneEscape
  act ctx st :=
    if ctx.action.isTone then
      vetoIf (st.handleToneFsm ctx.config ctx.action ctx.keyChar ctx.lower ctx.isUpper)
    else (st, .pass)

/-- C++ `ModifierRule` -/
def modifierEngineRule : EngineRule where
  bucket := .postClassify
  priority := 20
  requires := 0
  act ctx st :=
    if ctx.action.isTelexModifier ∨ ctx.action.isVniModifier ∨ ctx.action.isUserDefinedOnly then
      vetoIf (st.handleModifierAction ctx.config ctx.action ctx.keyChar ctx.lower)
    else (st, .pass)

/-- C++ `QuickStartConsonantRule` -/
def quickStartConsonantEngineRule : EngineRule where
  bucket := .preClassify
  priority := 5
  requires := 0
  act ctx st := vetoIf (st.handleQuickStartConsonant ctx.config ctx.keyChar ctx.lower ctx.isUpper)

/-- C++ `TypingEngine::HandleQuickEndConsonant` itself, which leaves the guards to its rule. -/
def EngineState.expandQuickEnd (cfg : TypingConfig) (st : EngineState) (lower : Char) :
    EngineState × Bool :=
  match quickEndPair lower with
  | some (first, second) => (((st.processKey first).processKey second).updateSpellState cfg, true)
  | none => (st, false)

/-- C++ `QuickEndConsonantRule` -/
def quickEndConsonantEngineRule : EngineRule where
  bucket := .postClassify
  priority := 30
  requires := 0
  act ctx st :=
    if ¬ctx.config.quickEndConsonant then (st, .pass)
    else if st.states = [] ∨ ¬(charAt st.states (st.states.length - 1)).isVowel then (st, .pass)
    else if ctx.lower ≠ 'g' ∧ ctx.lower ≠ 'h' ∧ ctx.lower ≠ 'k' then (st, .pass)
    else vetoIf (st.expandQuickEnd ctx.config ctx.lower)

/-- The rules that the constructor of `TypingEngine` registers. -/
def engineRules : List EngineRule :=
  [toneEngineRule, modifierEngineRule, quickStartConsonantEngineRule, quickEndConsonantEngineRule]

namespace EngineState

variable {cfg : TypingConfig} {st : EngineState} {ctx : EngineRuleContext}

/-- The end of `PushChar`: a key that no rule has consumed is a regular character. -/
def afterRules (ctx : EngineRuleContext) (result : EngineState × PluginRegistry.Result) : EngineState :=
  if result.2 = .veto then result.1
  else (result.1.processChar ctx.lower ctx.isUpper).finalizeRegularChar ctx.config

/-- C++ `TypingEngine::PushChar`, through the registry -/
def pushThroughRules (reg : EngineRuleRegistry) (cfg : TypingConfig) (st : EngineState)
    (keyChar : Char) : EngineState :=
  let lower := towlower keyChar
  let isUpper := iswupper keyChar
  let st := st.press keyChar
  let ruleCtx : EngineRuleContext :=
    { keyChar, lower, isUpper, action := .none, spellCheckDisabled := st.spellCheckDisabled
      escapeActive := st.escape ≠ .none, bias := st.engProt.bias, config := cfg }
  let early := dispatchAtPhase reg .preClassify ruleCtx st
  if early.2 = .veto then early.1
  else
    let st := early.1
    let postCtx : EngineRuleContext :=
      { ruleCtx with
        action := classify cfg st keyChar lower
        spellCheckDisabled := st.spellCheckDisabled
        escapeActive := st.escape ≠ .none
        bias := st.engProt.bias }
    afterRules postCtx (dispatchAtPhase reg .postClassify postCtx st)

omit [WideLocale] in
/-- A rule passes what it has not consumed. -/
@[simp] lemma vetoIf_eq_pass {result : EngineState × Bool} :
    (vetoIf result).2 = .pass ↔ result.2 = false := by
  cases h : result.2 <;> simp [vetoIf, h]

omit [WideLocale] in
/-- The one gate that a rule asks for. -/
lemma toneEscape_raised :
    gateMaskFor .toneEscape &&& ctx.evaluateGates = 0 ↔ ctx.escapeActive = false := by
  unfold EngineRuleContext.evaluateGates
  cases ctx.escapeActive <;> dsimp only <;> split <;> split <;> decide

/-- A key that no modifier rule is for. -/
lemma handleModifierAction_of_not {action : TypingAction} {c lower : Char}
    (h : ¬(action.isTelexModifier ∨ action.isVniModifier ∨ action.isUserDefinedOnly)) :
    handleModifierAction cfg st action c lower = (st, false) := by
  obtain ⟨htelex, hvni, huser⟩ := not_or.1 h |>.imp_right not_or.1
  simp [handleModifierAction, htelex, hvni, huser]

/-- What the rule of the marks does. -/
lemma modifierRule_act :
    modifierEngineRule.act ctx st =
      vetoIf (st.handleModifierAction ctx.config ctx.action ctx.keyChar ctx.lower) := by
  by_cases h : ctx.action.isTelexModifier ∨ ctx.action.isVniModifier ∨ ctx.action.isUserDefinedOnly
  · exact if_pos h
  · rw [handleModifierAction_of_not h]
    exact if_neg h

/-- What the rule of the quick ends does. -/
lemma quickEndConsonantRule_act :
    quickEndConsonantEngineRule.act ctx st =
      match st.handleQuickEndConsonant ctx.config ctx.lower with
      | some st' => (st', .veto)
      | none => (st, .pass) := by
  obtain hnil | ⟨states, last, hsnoc⟩ := st.states.eq_nil_or_concat
  · simp [quickEndConsonantEngineRule, handleQuickEndConsonant, hnil]
  · have hlast : charAt st.states (st.states.length - 1) = last := by simp [charAt, hsnoc]
    have hget : st.states.getLast? = some last := by simp [hsnoc]
    have hne : st.states ≠ [] := by simp [hsnoc]
    have hact : quickEndConsonantEngineRule.act ctx st =
        if ctx.config.quickEndConsonant ∧ last.isVowel ∧
          (ctx.lower = 'g' ∨ ctx.lower = 'h' ∨ ctx.lower = 'k') then
          vetoIf (st.expandQuickEnd ctx.config ctx.lower)
        else (st, .pass) := by
      simp only [quickEndConsonantEngineRule, hlast, hne, false_or]
      grind
    rw [hact]
    unfold handleQuickEndConsonant expandQuickEnd quickEndPair
    rw [hget]
    split <;> grind [vetoIf]

/-- The order in which a phase goes through its rules. -/
def rulesAt : RulePhase → List EngineRule
  | .preClassify => [quickStartConsonantEngineRule]
  | .postClassify => [toneEngineRule, modifierEngineRule, quickEndConsonantEngineRule]

/-- The rules stand in the order of their priorities, in whatever order they are registered. -/
lemma registerAll_engineRules {rules : List EngineRule} (h : rules.Perm engineRules)
    (phase : RulePhase) : registerAll rules phase = rulesAt phase := by
  refine PluginRegistry.registerAll_eq ((h.filter _).trans (.of_eq ?_)) ?_
  · cases phase <;> rfl
  · cases phase <;> simp [rulesAt, toneEngineRule, modifierEngineRule, quickEndConsonantEngineRule]

omit [WideLocale] in
/-- A rule that is let in and consumes the key or not. -/
lemma dispatch_vetoIf {mask : BitVec 32} {rule : EngineRule} {rules : List EngineRule}
    {result : EngineState × Bool} (hopen : rule.requires &&& mask = 0)
    (hact : rule.act ctx st = vetoIf result) :
    PluginRegistry.dispatch mask ctx (rule :: rules) st =
      if result.2 then (result.1, .veto) else PluginRegistry.dispatch mask ctx rules result.1 := by
  cases h : result.2 with
  | true => exact PluginRegistry.dispatch_of_stop hopen (hact.trans (by rw [vetoIf, h]; rfl)) nofun
  | false => exact PluginRegistry.dispatch_of_pass hopen (hact.trans (by rw [vetoIf, h]; rfl))

/-- The phase of the quick starts. -/
lemma dispatch_quickStartConsonantEngineRule {mask : BitVec 32} :
    PluginRegistry.dispatch mask ctx [quickStartConsonantEngineRule] st =
      vetoIf (st.handleQuickStartConsonant ctx.config ctx.keyChar ctx.lower ctx.isUpper) := by
  rw [dispatch_vetoIf BitVec.zero_and rfl, PluginRegistry.dispatch_nil]
  cases h : (st.handleQuickStartConsonant ctx.config ctx.keyChar ctx.lower ctx.isUpper).2 <;>
    simp [vetoIf, h]

/-- The tone rule is kept out while an escape is active. -/
lemma dispatch_toneEngineRule {rules : List EngineRule} :
    PluginRegistry.dispatch ctx.evaluateGates ctx (toneEngineRule :: rules) st =
      let result := if ctx.escapeActive = false ∧ ctx.action.isTone then
        st.handleToneFsm ctx.config ctx.action ctx.keyChar ctx.lower ctx.isUpper else (st, false)
      if result.2 then (result.1, .veto)
      else PluginRegistry.dispatch ctx.evaluateGates ctx rules result.1 := by
  by_cases hescape : ctx.escapeActive = false
  · refine dispatch_vetoIf (toneEscape_raised.2 hescape) ?_
    by_cases htone : ctx.action.isTone
    · rw [if_pos ⟨hescape, htone⟩]
      exact if_pos htone
    · rw [if_neg fun h => htone h.2]
      exact if_neg htone
  · have hout : ¬(ctx.escapeActive = false ∧ ctx.action.isTone) := fun h => hescape h.1
    rw [PluginRegistry.dispatch_of_gated (toneEscape_raised.not.2 hescape), if_neg hout]
    rfl

/-- The phase of the marks. -/
lemma dispatch_modifierEngineRule {mask : BitVec 32} {rules : List EngineRule} :
    PluginRegistry.dispatch mask ctx (modifierEngineRule :: rules) st =
      let result := st.handleModifierAction ctx.config ctx.action ctx.keyChar ctx.lower
      if result.2 then (result.1, .veto) else PluginRegistry.dispatch mask ctx rules result.1 :=
  dispatch_vetoIf BitVec.zero_and modifierRule_act

/-- The phase of the quick ends. -/
lemma dispatch_quickEndConsonantEngineRule {mask : BitVec 32} :
    afterRules ctx (PluginRegistry.dispatch mask ctx [quickEndConsonantEngineRule] st) =
      match st.handleQuickEndConsonant ctx.config ctx.lower with
      | some st' => st'
      | none => (st.processChar ctx.lower ctx.isUpper).finalizeRegularChar ctx.config := by
  have hact := @quickEndConsonantRule_act _ st ctx
  cases hend : st.handleQuickEndConsonant ctx.config ctx.lower with
  | none =>
    rw [hend] at hact
    rw [PluginRegistry.dispatch_of_pass BitVec.zero_and hact]
    rfl
  | some st' =>
    rw [hend] at hact
    rw [PluginRegistry.dispatch_of_stop BitVec.zero_and hact nofun]
    rfl

/-- What follows the rules, when one has consumed the key or none. -/
lemma afterRules_ite {result : EngineState × Bool} {rest : EngineState × PluginRegistry.Result} :
    afterRules ctx (if result.2 then (result.1, .veto) else rest) =
      if result.2 then result.1 else afterRules ctx rest := by
  split <;> rfl

/-- The second phase does what the engine does after the classification. -/
lemma dispatch_postClassify (hescape : ctx.escapeActive = decide (st.escape ≠ .none)) :
    afterRules ctx (dispatchAtPhase (fun phase => rulesAt phase) .postClassify ctx st) =
      dispatch ctx.config st ctx.action ctx.keyChar ctx.lower ctx.isUpper := by
  have hgate : ctx.escapeActive = false ↔ st.escape = .none := by
    rw [hescape, decide_eq_false_iff_not, not_not]
  rw [dispatchAtPhase, rulesAt, dispatch_toneEngineRule, dispatch]
  simp only [hgate]
  rw [afterRules_ite]
  refine ite_congr rfl (fun _ => rfl) fun _ => ?_
  rw [dispatch_modifierEngineRule]
  dsimp only
  rw [afterRules_ite]
  refine ite_congr rfl (fun _ => rfl) fun _ => ?_
  exact dispatch_quickEndConsonantEngineRule

/-- The keys go through the rules as they go through the engine, in whatever order the rules are
    registered. -/
theorem pushThroughRules_eq {rules : List EngineRule} (h : rules.Perm engineRules) (keyChar : Char) :
    pushThroughRules (registerAll rules) cfg st keyChar = st.pushChar cfg keyChar := by
  have hreg : registerAll rules = fun phase => rulesAt phase :=
    funext fun phase => registerAll_engineRules h phase
  unfold pushThroughRules pushChar
  rw [hreg]
  have hpre : ∀ ctx : EngineRuleContext, ∀ st : EngineState,
      dispatchAtPhase (fun phase => rulesAt phase) .preClassify ctx st =
        vetoIf (st.handleQuickStartConsonant ctx.config ctx.keyChar ctx.lower ctx.isUpper) :=
    fun ctx st => dispatch_quickStartConsonantEngineRule
  dsimp only
  rw [hpre]
  cases hveto : (handleQuickStartConsonant cfg (st.press keyChar) keyChar (towlower keyChar)
    (iswupper keyChar)).2 with
  | true => exact if_pos (by rw [vetoIf, hveto]; rfl)
  | false =>
    rw [if_neg (by rw [vetoIf, hveto]; nofun)]
    exact dispatch_postClassify rfl

omit [WideLocale] in
/-- The rules, registered the other way round. -/
theorem pushThroughRules_reverse :
    letI := WideLocale.ascii
    pushThroughRules (registerAll engineRules.reverse) {} {} 's' = pushChar {} {} 's' :=
  letI := WideLocale.ascii
  pushThroughRules_eq (List.reverse_perm engineRules) 's'

end EngineState

end NextKey
