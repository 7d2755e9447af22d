import NextKey.Engine.CharState

/-!
# Phonology data

Model of `core/engine/VietnamesePhonologyData.h` and of the vowel nucleus table of
`core/engine/PhonotacticsValidator.cpp`.

The source packs a vowel as `(base << 2) | mod` into one byte and a nucleus of one to three vowels
into a 32-bit key whose top byte is the length. The packing is injective, so a key is modelled by
the list of its slots: `Key1`, `Key2` and `Key3` are lists of length one, two and three. The bitmask
of allowed finals is the list of its bits.
-/

namespace NextKey.Phonology

/-- Base vowels (C++ `kA` .. `kY`). -/
inductive VowelBase where
  | a
  | e
  | i
  | o
  | u
  | y
  deriving DecidableEq, Repr

/-- Modifier ordinals of a vowel slot (C++ `kNone` .. `kHorn`). -/
inductive SlotMod where
  | none
  | circ
  | brev
  | horn
  deriving DecidableEq, Repr

/-- One vowel of a nucleus (C++ `VowelSlot`). -/
structure VowelSlot where
  base : VowelBase
  mod : SlotMod
  deriving DecidableEq, Repr

/-- A packed nucleus (C++ `Key1`, `Key2`, `Key3`). -/
abbrev VowelKey := List VowelSlot

/-- C++ `BaseIndex`; `none` is `kInvalidBaseIndex`. -/
def baseIndex : Char → Option VowelBase
  | 'a' => some .a
  | 'e' => some .e
  | 'i' => some .i
  | 'o' => some .o
  | 'u' => some .u
  | 'y' => some .y
  | _ => none

/-- Modifier ordinal; a stroke on a vowel counts as none (C++ `ModOrdinal`). -/
def modOrdinal : Modifier → SlotMod
  | .none => .none
  | .circumflex => .circ
  | .breve => .brev
  | .horn => .horn
  | .stroke => .none

/-- Front vowels of the c/k, g/gh and ng/ngh agreement (C++ `IsFrontBaseVowel`). -/
def isFrontBaseVowel (base : Char) : Bool := base == 'e' || base == 'i' || base == 'y'

/-- Final consonants (C++ `F_c` .. `F_t`). -/
inductive Final where
  | c
  | ch
  | k
  | m
  | n
  | ng
  | nh
  | p
  | t
  deriving DecidableEq, Repr

/-- C++ `F_ALL`. -/
def allFinals : List Final := [.c, .ch, .k, .m, .n, .ng, .nh, .p, .t]

/-- C++ `F_NO_CH_NH`. -/
def noChNhFinals : List Final := [.c, .k, .m, .n, .ng, .p, .t]

/-! Names of the twelve slots the tables use. -/
namespace Slot

abbrev a : VowelSlot := ⟨.a, .none⟩
abbrev aHat : VowelSlot := ⟨.a, .circ⟩
abbrev aBreve : VowelSlot := ⟨.a, .brev⟩
abbrev e : VowelSlot := ⟨.e, .none⟩
abbrev eHat : VowelSlot := ⟨.e, .circ⟩
abbrev i : VowelSlot := ⟨.i, .none⟩
abbrev o : VowelSlot := ⟨.o, .none⟩
abbrev oHat : VowelSlot := ⟨.o, .circ⟩
abbrev oHorn : VowelSlot := ⟨.o, .horn⟩
abbrev u : VowelSlot := ⟨.u, .none⟩
abbrev uHorn : VowelSlot := ⟨.u, .horn⟩
abbrev y : VowelSlot := ⟨.y, .none⟩

end Slot

open Slot in
/-- Allowed finals for each nucleus (C++ `kVCPairRules`). -/
def kVCPairRules : List (VowelKey × List Final) :=
  [ ([a], allFinals), ([aHat], noChNhFinals), ([aBreve], noChNhFinals), ([e], allFinals),
    ([eHat], [.c, .ch, .m, .n, .nh, .p, .t]),
    ([i], [.c, .ch, .k, .m, .n, .nh, .p, .t]),
    ([o], noChNhFinals), ([oHat], noChNhFinals), ([oHorn], [.m, .n, .p, .t]),
    ([u], noChNhFinals), ([uHorn], noChNhFinals),
    ([y], [.t]),
    ([i, eHat], [.c, .m, .n, .ng, .p, .t]),
    ([o, a], allFinals),
    ([o, aBreve], [.c, .n, .ng, .t]),
    ([o, e], [.m, .n, .ng, .t]),
    ([o, o], [.c, .ng]),
    ([u, aHat], [.n, .ng, .t]),
    ([u, eHat], [.ch, .n, .nh]),
    ([u, oHat], [.c, .m, .n, .ng, .p, .t]),
    ([u, oHorn], [.c, .m, .n, .ng, .p, .t]),
    ([u, y], [.ch, .n, .nh, .t]),
    ([uHorn, oHorn], [.c, .m, .n, .ng, .p, .t]),
    ([y, eHat], [.c, .m, .n, .ng, .p, .t]),
    ([u, y, eHat], [.n, .t]) ]

/-- Allowed finals of a nucleus; empty when the table has no entry for it
    (C++ `GetAllowedFinals`). -/
def getAllowedFinals (vowelKey : VowelKey) : List Final :=
  match kVCPairRules.find? (·.1 == vowelKey) with
  | some rule => rule.2
  | none => []

/-- A nucleus and whether a final consonant may follow it (C++ `VowelEntry`). -/
structure VowelEntry where
  key : VowelKey
  canEnd : Bool
  deriving DecidableEq, Repr

open Slot in
/-- The vowel nuclei (C++ `kVowelTable`). -/
def kVowelTable : List VowelEntry :=
  [ ⟨[a], true⟩, ⟨[aHat], true⟩, ⟨[aBreve], true⟩, ⟨[e], true⟩, ⟨[eHat], true⟩, ⟨[i], true⟩,
    ⟨[o], true⟩,
    ⟨[oHat], true⟩, ⟨[oHorn], true⟩, ⟨[u], true⟩, ⟨[uHorn], true⟩, ⟨[y], true⟩,
    -- double vowels without end consonant
    ⟨[a, i], false⟩, ⟨[a, o], false⟩, ⟨[a, u], false⟩, ⟨[a, y], false⟩, ⟨[aHat, u], false⟩,
    ⟨[aHat, y], false⟩, ⟨[e, o], false⟩, ⟨[eHat, u], false⟩, ⟨[i, a], false⟩, ⟨[i, u], false⟩,
    ⟨[o, a], true⟩, ⟨[o, i], false⟩, ⟨[oHat, i], false⟩, ⟨[oHorn, i], false⟩, ⟨[u, a], false⟩,
    ⟨[u, i], false⟩, ⟨[uHorn, a], false⟩, ⟨[uHorn, i], false⟩, ⟨[uHorn, u], false⟩,
    -- double vowels with end consonant
    ⟨[i, eHat], true⟩, ⟨[o, aBreve], true⟩, ⟨[o, e], true⟩, ⟨[o, o], true⟩, ⟨[u, aHat], true⟩,
    ⟨[u, eHat], true⟩, ⟨[u, oHat], true⟩, ⟨[u, oHorn], true⟩, ⟨[u, y], true⟩, ⟨[uHorn, oHorn], true⟩,
    ⟨[y, eHat], true⟩,
    -- triple vowels
    ⟨[i, eHat, u], false⟩, ⟨[o, a, i], false⟩, ⟨[o, a, y], false⟩, ⟨[o, e, o], false⟩,
    ⟨[u, aHat, y], false⟩, ⟨[u, oHat, i], false⟩, ⟨[u, y, a], false⟩, ⟨[u, y, u], false⟩,
    ⟨[uHorn, oHorn, i], false⟩, ⟨[uHorn, oHorn, u], false⟩, ⟨[u, y, eHat], true⟩,
      ⟨[y, eHat, u], false⟩ ]

/-- C++ `FindVowel`. -/
def findVowel (key : VowelKey) : Option VowelEntry := kVowelTable.find? (·.key == key)

/-- Whether a key of one or two slots starts a longer entry of the table: a 1-slot key is compared
    with the first slot of every longer entry, a 2-slot key with the first two of the 3-slot entries
    (C++ `IsVowelPrefix`). -/
def isVowelPrefix (key : VowelKey) : Bool :=
  match key with
  | [s] => kVowelTable.any fun entry => 2 ≤ entry.key.length && entry.key.head? == some s
  | [s, t] => kVowelTable.any fun entry => entry.key.length == 3 && entry.key.take 2 == [s, t]
  | _ => false

end NextKey.Phonology
