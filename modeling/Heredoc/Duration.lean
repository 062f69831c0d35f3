/-!
# Durations

Spans of whole milliseconds and how they are shown.
-/

namespace Heredoc

/-- The digits of a fraction of a second without trailing zeros. -/
def fractionDigits (milliseconds : Nat) : List Char :=
  let digits := (Nat.toDigits 10 (1000 + milliseconds)).drop 1
  (digits.reverse.dropWhile (· == '0')).reverse

/-- A span as text: in seconds from one second on, else in milliseconds, and zero in
nanoseconds. -/
def durationText (milliseconds : Nat) : String :=
  if milliseconds = 0 then "0ns"
  else if milliseconds < 1000 then toString milliseconds ++ "ms"
  else
    let seconds := toString (milliseconds / 1000)
    let fraction := fractionDigits (milliseconds % 1000)
    if fraction.isEmpty then seconds ++ "s"
    else seconds ++ "." ++ String.ofList fraction ++ "s"

end Heredoc
