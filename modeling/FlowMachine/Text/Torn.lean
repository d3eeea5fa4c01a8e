import FlowMachine.Text.Quoted

/-!
# Texts with lone surrogates

A text in memory may hold a surrogate that stands on its own, which is no character and has no bytes
in UTF-8. Turning such a text into bytes fails, and the flaw tells the first run of code points that
the encoding has no bytes for.
-/
namespace FlowMachine.Text

/-- A text in memory: characters, and lone surrogates, each with the characters that follow it. -/
structure Torn where
  front : String
  tears : List (Fin 0x800 × String) := []
deriving DecidableEq, Repr

/-- The code point of a surrogate. -/
def surrogate (n : Fin 0x800) : Nat := 0xD800 + n.val

/-- A code point by its number. -/
def spelledCode (n : Nat) : String :=
  String.ofList <| '\\' ::
    if n < 0x100 then 'x' :: hexDigits 2 n
    else if n < 0x10000 then 'u' :: hexDigits 4 n
    else 'U' :: hexDigits 8 n

/-- The first run of code points that an encoding has no bytes for: where it starts, its first code
point, how many more there are, and why. -/
structure EncodeFlaw where
  encoding : String
  position : Nat
  first : Nat
  more : Nat
  reason : String
deriving DecidableEq, Repr

namespace EncodeFlaw

def message (f : EncodeFlaw) : String :=
  if f.more == 0 then
    s!"'{f.encoding}' codec can't encode character '{spelledCode f.first}' in position " ++
      s!"{f.position}: " ++ f.reason
  else
    s!"'{f.encoding}' codec can't encode characters in position " ++
      s!"{f.position}-{f.position + f.more}: {f.reason}"

end EncodeFlaw

namespace Torn

/-- How many surrogates follow at once. -/
def surrogatesAfter : String → List (Fin 0x800 × String) → Nat
  | "", (_, next) :: rest => surrogatesAfter next rest + 1
  | _, _ => 0

/-- The bytes of a text in UTF-8. -/
def encode (t : Torn) : Except EncodeFlaw ByteArray :=
  match t.tears with
  | [] => .ok t.front.toUTF8
  | (n, next) :: rest => .error
    { encoding := "utf-8"
      position := t.front.length
      first := surrogate n
      more := surrogatesAfter next rest
      reason := "surrogates not allowed" }

/-- A text has bytes exactly when it has no lone surrogate. -/
theorem encode_eq_ok_iff {t : Torn} {bytes : ByteArray} :
    t.encode = .ok bytes ↔ t.tears = [] ∧ bytes = t.front.toUTF8 := by
  unfold encode
  rcases t.tears with _ | ⟨⟨n, next⟩, rest⟩
  · simp [eq_comm]
  · simp

end Torn

end FlowMachine.Text
