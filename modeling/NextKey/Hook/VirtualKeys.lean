/-!
# Virtual keys

The `VK_*` codes that the keyboard hook, the injectors and the text service compare with.
-/

namespace NextKey

def VK_BACK : Nat := 0x08
def VK_TAB : Nat := 0x09
def VK_RETURN : Nat := 0x0D
def VK_ESCAPE : Nat := 0x1B
def VK_SPACE : Nat := 0x20
def VK_PRIOR : Nat := 0x21
def VK_NEXT : Nat := 0x22
def VK_END : Nat := 0x23
def VK_HOME : Nat := 0x24
def VK_LEFT : Nat := 0x25
def VK_DOWN : Nat := 0x28
def VK_DELETE : Nat := 0x2E

/-- `vk >= 0x41 && vk <= 0x5A` -/
def isLetterVk (vk : Nat) : Bool := decide (0x41 ≤ vk ∧ vk ≤ 0x5A)

/-- `vk >= 0x30 && vk <= 0x39` -/
def isDigitVk (vk : Nat) : Bool := decide (0x30 ≤ vk ∧ vk ≤ 0x39)

end NextKey
