import Mathlib.Data.List.DropRight
import WhatsAppMcp.Lib.Calendar
import WhatsAppMcp.Bridge.Values

/-!
# The text of an instant

`Time.MarshalJSON` of an instant in UTC: the layout `RFC3339Nano`, in which the
fraction loses the zeros at its end, and the point with them.
-/

namespace WhatsAppMcp.Bridge.Notify

open Calendar (Date ofDays padded)

/-- The days from the first day of the year 1 to the Unix epoch. -/
def epochDays : Int := 719162

/-- The nanoseconds of a second. -/
def nanosOf (t : Int) : Nat := (t % 1000000000).toNat

/-- The seconds of a day. -/
def secondsOf (t : Int) : Nat := (t / 1000000000 % 86400).toNat

/-- The date of an instant. -/
def dateOf (t : Int) : Date := ofDays (t / 1000000000 / 86400 + epochDays)

/-- `2006-01-02`. -/
def dateText (d : Date) : List Char :=
  padded 4 d.year.toNat ++ '-' :: padded 2 d.month ++ '-' :: padded 2 d.day

/-- `15:04:05`. -/
def clockText (seconds : Nat) : List Char :=
  padded 2 (seconds / 3600) ++ ':' :: padded 2 (seconds / 60 % 60) ++ ':' :: padded 2 (seconds % 60)

/-- `.999999999`. -/
def fractionText (nanos : Nat) : List Char :=
  match (padded 9 nanos).rdropWhile (· = '0') with
  | [] => []
  | digits => '.' :: digits

/-- `Time.MarshalJSON`, without the quotes. -/
def marshalTime (t : Int) : String :=
  String.ofList (dateText (dateOf t) ++ 'T' :: clockText (secondsOf t) ++ fractionText (nanosOf t) ++ ['Z'])

example : marshalTime 0 = "1970-01-01T00:00:00Z" := by decide +kernel

example : marshalTime 1709210096120003000 = "2024-02-29T12:34:56.120003Z" := by decide +kernel

end WhatsAppMcp.Bridge.Notify
