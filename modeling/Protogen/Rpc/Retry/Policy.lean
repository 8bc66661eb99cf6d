import Protogen.Rpc.Status

set_option autoImplicit false

namespace Protogen

namespace Time

def fractionOfThousand (n : Nat) : List Char :=
  let padded := (Nat.toDigits 10 (1000 + n)).drop 1
  (padded.reverse.dropWhile (· == '0')).reverse

def durationText (milliseconds : Nat) : String :=
  if milliseconds = 0 then "0ns"
  else if milliseconds < 1000 then toString milliseconds ++ "ms"
  else
    match fractionOfThousand (milliseconds % 1000) with
    | [] => toString (milliseconds / 1000) ++ "s"
    | digits => toString (milliseconds / 1000) ++ "." ++ String.ofList digits ++ "s"

end Time

namespace Rpc.Retry

structure Policy where
  -- The time before a connection is made anew, in milliseconds.
  delay : Nat := 3000
  /-- The codes of failures that may pass. -/
  transient : List Code := [
    .unknown, .deadlineExceeded, .resourceExhausted, .failedPrecondition, .aborted, .internal,
    .unavailable, .dataLoss]

namespace Policy

def isTransient (p : Policy) (c : Code) : Bool :=
  p.transient.contains c

def text (p : Policy) (observed : Bool) : String :=
  "RetryPolicy \x7b delay: " ++ Time.durationText p.delay ++
    ", transient: [" ++ String.intercalate ", " (p.transient.map (·.name)) ++
    "], observed: " ++ (if observed then "true" else "false") ++ " \x7d"

end Policy

end Rpc.Retry

end Protogen
