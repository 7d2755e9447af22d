import NextKey.Lib.Quoted
import NextKey.Macro.Case

/-!
# Paths in PowerShell commands

Model of `EscapePowerShellSingleQuote` of `app/system/UpdateSecurity.cpp`, which doubles every U+0027 of
a path or a user name that goes between single quotes into a command, and of how PowerShell reads a
single-quoted literal: to it the typographic quotes U+2018 to U+201B are single quotes as well, and the
escaper leaves them as they are.
-/

namespace NextKey

/-- C++ `EscapePowerShellSingleQuote` -/
def EscapePowerShellSingleQuote (input : WString) : WString :=
  input.foldl (fun result ch =>
    let result := result ++ [ch]
    if ch = 0x27 then result ++ [0x27] else result) []

/-- The literal that is built from a text. -/
def singleQuoted (text : WString) : WString := [0x27] ++ EscapePowerShellSingleQuote text ++ [0x27]

/-- The typographic single quotes. -/
def typographicQuotes : List UInt16 := [0x2018, 0x2019, 0x201A, 0x201B]

/-- A single quote to PowerShell. -/
def isSingleQuote (ch : UInt16) : Bool := ch == 0x27 || typographicQuotes.contains ch

/-- What PowerShell reads from a command that starts with a single quote: the value of the literal, and
    what is behind it. -/
def readLiteral : WString → Option (WString × WString)
  | [] => none
  | ch :: rest => if isSingleQuote ch then Quoted.read isSingleQuote rest else none

/-- PowerShell reads exactly one literal, and the text is its value. -/
def ReadsAs (input text : WString) : Prop := readLiteral input = some (text, [])

instance (input text : WString) : Decidable (ReadsAs input text) :=
  inferInstanceAs (Decidable (_ = _))

/-- The escaping as doubling. -/
lemma escapePowerShellSingleQuote_eq (input : WString) :
    EscapePowerShellSingleQuote input = Quoted.escape (· == 0x27) input := by
  have hfold : ∀ result : WString,
      input.foldl (fun result ch =>
        let result := result ++ [ch]
        if ch = 0x27 then result ++ [0x27] else result) result =
          result ++ Quoted.escape (· == 0x27) input := by
    induction input with
    | nil => exact fun result => (List.append_nil result).symm
    | cons ch input ih =>
      intro result
      rw [List.foldl_cons, ih, Quoted.escape_cons]
      by_cases hch : ch = 0x27
      · simp [hch]
      · simp [hch]
  exact hfold []

/-- An escaped text is read as one literal of its value just when it has no typographic quote. -/
theorem readsAs_singleQuoted_iff (text : WString) :
    ReadsAs (singleQuoted text) text ↔ ∀ ch ∈ text, ch ∉ typographicQuotes := by
  have hquote : ∀ ch : UInt16, (ch == 0x27) = true → isSingleQuote ch = true := by
    intro ch hch
    rw [isSingleQuote, hch, Bool.true_or]
  have hread : ReadsAs (singleQuoted text) text ↔
      Quoted.read isSingleQuote (Quoted.escape (· == 0x27) text ++ [0x27]) = some (text, []) := by
    rw [← escapePowerShellSingleQuote_eq]
    exact Iff.rfl
  rw [hread, Quoted.read_escape_iff hquote rfl]
  refine forall₂_congr fun ch _ => ?_
  constructor
  · intro hdoubled hmem
    have hch := eq_of_beq (hdoubled (by rw [isSingleQuote, List.contains_iff_mem.2 hmem, Bool.or_true]))
    subst hch
    exact absurd hmem (by decide)
  · intro hmem hch
    rw [isSingleQuote, Bool.or_eq_true] at hch
    exact hch.resolve_right fun h => hmem (List.contains_iff_mem.1 h)

/-- The quote in "O’Brien" ends the literal, and the rest of the name is read as a command. -/
theorem not_readsAs_typographic : ¬∀ text : WString, ReadsAs (singleQuoted text) text :=
  fun h => absurd (h [0x4F, 0x2019, 0x42, 0x72, 0x69, 0x65, 0x6E]) (by decide)

end NextKey
