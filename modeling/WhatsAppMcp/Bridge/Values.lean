import Mathlib.Algebra.Ring.Int.Defs
import Mathlib.Algebra.Ring.Nat
import Mathlib.Data.List.Basic
import Mathlib.Tactic.Common

/-!
# Values of the bridge

The value types that the Go packages of the bridge share: instants, durations
and the identities of chats and participants.

An instant (`time.Time`, in UTC) is the number of nanoseconds since the Unix
epoch, and a duration is a number of nanoseconds: both are an `Int`.  Go rounds
an instant down and a duration towards zero, and each function below says which.
-/

namespace WhatsAppMcp.Bridge

/-! ## Instants and durations -/

def millisecond : Int := 1000000

def hour : Int := 3600 * 1000000000

def day : Int := 24 * hour

/-- `7*24*time.Hour`, the greatest age of a notification. -/
def week : Int := 7 * day

/-- The zero `time.Time`: the first instant of the year 1. -/
def zeroTime : Int := -62135596800 * 1000000000

/-- `Time.Truncate(time.Microsecond)`, which rounds down; a `TIMESTAMPTZ` column
rounds an instant the same way. -/
def truncateMicrosecond (t : Int) : Int := t - t % 1000

/-- `Duration.Milliseconds`, which rounds towards zero. -/
def milliseconds (d : Int) : Int := Int.tdiv d millisecond

/-- The instants a `TIMESTAMPTZ` column can hold, from 4713 BC to 294276 AD. -/
def timestamptz (t : Int) : Bool :=
  -210866803200 * 1000000000 ≤ t && t < 9224318016000 * 1000000000

/-! ## Identities -/

/-- `^\d+@(…)$` for a list of servers.  Both Go and PostgreSQL anchor the
pattern at the two ends of the text. -/
def matchesJid (servers : List String) (text : String) : Bool :=
  text.toList.head?.any Char.isDigit &&
    servers.any fun server => text.toList.dropWhile Char.isDigit == '@' :: server.toList

/-- `^\d+@g\.us$`. -/
def isGroupJid (text : String) : Bool := matchesJid ["g.us"] text

/-- `^\d+@(s\.whatsapp\.net|lid)$`. -/
def isPrivateJid (text : String) : Bool := matchesJid ["s.whatsapp.net", "lid"] text

/-- `^\d+@(s\.whatsapp\.net|lid|bot|hosted|hosted\.lid)$`. -/
def isParticipantJid (text : String) : Bool :=
  matchesJid ["s.whatsapp.net", "lid", "bot", "hosted", "hosted.lid"] text

/-- `^\d+@(s\.whatsapp\.net|g\.us|lid)$`. -/
def isChatJid (text : String) : Bool := matchesJid ["s.whatsapp.net", "g.us", "lid"] text

theorem matchesJid_mono {servers servers' : List String} (hsub : servers ⊆ servers')
    {text : String} (h : matchesJid servers text = true) : matchesJid servers' text = true := by
  simp only [matchesJid, Bool.and_eq_true, List.any_eq_true] at h ⊢
  obtain ⟨hdigit, server, hserver, hrest⟩ := h
  exact ⟨hdigit, server, hsub hserver, hrest⟩

theorem isChatJid_of_group {text : String} (h : isGroupJid text = true) : isChatJid text = true :=
  matchesJid_mono (by simp) h

theorem isChatJid_of_private {text : String} (h : isPrivateJid text = true) :
    isChatJid text = true :=
  matchesJid_mono (by simp) h

/-- `^[0-9a-f]{32}$`. -/
def isOpaqueId (text : String) : Bool :=
  text.toList.length = 32 &&
    text.toList.all fun c => c.isDigit || ('a' ≤ c && c ≤ 'f')

end WhatsAppMcp.Bridge
