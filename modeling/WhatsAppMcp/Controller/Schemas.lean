import WhatsAppMcp.Bridge.Values
import WhatsAppMcp.Controller.Domain

/-!
# Schemas and the admission policy

The checks of `domain.ts` on the texts that reach the controller from outside,
and the chats that the policy admits.  The patterns of identities are those of
the bridge, with a bound on the length.
-/

namespace WhatsAppMcp.Controller

/-- `GroupJidSchema`. -/
def groupJidSchema (text : String) : Bool := Bridge.isGroupJid text && text.length ≤ 128

/-- `PrivateJidSchema`. -/
def privateJidSchema (text : String) : Bool := Bridge.isPrivateJid text && text.length ≤ 128

/-- `ParticipantJidSchema`. -/
def participantJidSchema (text : String) : Bool := Bridge.isParticipantJid text && text.length ≤ 128

/-- `ChatJidSchema`. -/
def chatJidSchema (text : String) : Bool := groupJidSchema text || privateJidSchema text

/-- `MessageIdSchema`. -/
def messageIdSchema (text : String) : Bool := 1 ≤ text.length && text.length ≤ 512

/-- One place of a pattern: a digit, or one of these characters. -/
inductive Place where
  | digit
  | among (chars : List Char)

def Place.admits : Place → Char → Bool
  | .digit, c => c.isDigit
  | .among chars, c => chars.contains c

/-- The rest of the text after these places. -/
def afterPlaces : List Place → List Char → Option (List Char)
  | [], rest => some rest
  | place :: places, c :: rest => if place.admits c then afterPlaces places rest else none
  | _ :: _, [] => none

/-- The places of `\d{4}-\d{2}-\d{2}T\d{2}:\d{2}:\d{2}`. -/
def dateTimePlaces : List Place :=
  [.digit, .digit, .digit, .digit, .among ['-'], .digit, .digit, .among ['-'], .digit, .digit,
    .among ['T'], .digit, .digit, .among [':'], .digit, .digit, .among [':'], .digit, .digit]

/-- The rest of the text after `(\.\d{1,9})?`. -/
def afterFraction : List Char → List Char
  | '.' :: rest =>
    let digits := rest.takeWhile Char.isDigit
    if 1 ≤ digits.length ∧ digits.length ≤ 9 then rest.dropWhile Char.isDigit else '.' :: rest
  | rest => rest

/-- `TimestampSchema`. -/
def timestampSchema (text : String) : Bool :=
  text.length ≤ 40 &&
    match (afterPlaces dateTimePlaces text.toList).map afterFraction with
    | none => false
    | some zone => zone = ['Z'] ||
        afterPlaces [.among ['+', '-'], .digit, .digit, .among [':'], .digit, .digit] zone = some []

/-- `Number.MAX_SAFE_INTEGER`. -/
def maxSafeInteger : Nat := 2 ^ 53 - 1

/-- `FenceSchema`. -/
def fenceSchema (fence : Fence) : Bool :=
  Bridge.isOpaqueId fence.owner && fence.epoch.length ≤ 32 &&
    (fence.epoch.toList.head?.any fun c => c.isDigit && c ≠ '0') &&
    fence.epoch.toList.all Char.isDigit && fence.expiresAtMs ≤ maxSafeInteger

/-- `MutationToolSchema`. -/
def mutationToolSchema (tool : String) : Bool :=
  ["send_message", "send_group_message", "send_auto_message", "send_media", "send_reaction",
    "edit_message", "revoke_message"].contains tool

/-- `MutationAttemptSchema`. -/
def mutationAttemptSchema (a : MutationState) : Bool :=
  Bridge.isOpaqueId a.attemptId && Bridge.isOpaqueId a.eventId && chatJidSchema a.canonicalChatId &&
    1 ≤ a.toolCallId.length && a.toolCallId.length ≤ 512 && mutationToolSchema a.tool &&
    chatJidSchema a.destination && timestampSchema a.startedAt && fenceSchema a.ownership.app &&
    fenceSchema a.ownership.chat && a.status = .attempting && a.shaped

/-- `AdmissionPolicy`. -/
structure AdmissionPolicy where
  groups : List String
  operatorJids : List String

/-- `configuredChats`: the groups and the first operator, each once. -/
def AdmissionPolicy.configuredChats (policy : AdmissionPolicy) : List String :=
  (policy.groups ++ policy.operatorJids.head?.toList).eraseDups

end WhatsAppMcp.Controller
