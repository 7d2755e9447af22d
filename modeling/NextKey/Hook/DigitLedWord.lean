import NextKey.Engine.Config
import NextKey.Hook.VirtualKeys

/-!
# Digit-led words

Model of `core/DigitLedWordDecision.h`: a word that begins with a digit is left to the application,
also by the methods in which digits are tone and modifier keys. The keyboard hook and the text
service ask it.
-/

namespace NextKey

/-- C++ `DigitLedDecision` -/
inductive DigitLedDecision where
  | proceed
  | arm
  | bypass
  | reset
  deriving DecidableEq, Repr

/-- C++ `IsDigitLedBoundary` -/
def IsDigitLedBoundary (vk : Nat) : Bool :=
  [VK_SPACE, VK_RETURN, VK_TAB, VK_ESCAPE, VK_BACK, VK_DELETE, VK_HOME, VK_END, VK_PRIOR,
    VK_NEXT].contains vk || decide (VK_LEFT ≤ vk ∧ vk ≤ VK_DOWN)

/-- The input methods in which digits are tone and modifier keys. -/
def InputMethod.hasDigitKeys : InputMethod → Bool
  | .vni | .combined | .userDefined => true
  | .telex | .simpleTelex => false

/-- C++ `DecideDigitLed` -/
def DecideDigitLed (vk : Nat) (shift engineEmpty : Bool) (method : InputMethod)
    (currentlyArmed : Bool) : DigitLedDecision :=
  if currentlyArmed then if IsDigitLedBoundary vk then .reset else .bypass
  else if shift then .proceed
  else if ¬engineEmpty then .proceed
  else if ¬isDigitVk vk then .proceed
  else if ¬method.hasDigitKeys then .proceed
  else .arm

end NextKey
