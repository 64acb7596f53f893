import WhatsAppMcp.Lib.Table
import WhatsAppMcp.Bridge.Values

/-!
# The chats table

The statements of `bridge/store/chats.go` that write a row of `chats`:
`UpsertChat`, `IncrementUnread` and `MarkChatRead`.

Each of them writes the columns of one row and leaves the other rows alone
(`lookup_upsertChat`, `lookup_incrementUnread`, `lookup_markChatRead`).
-/

namespace WhatsAppMcp.Bridge.Store

/-- `ChatRow`, a row of `chats`. -/
structure ChatRow where
  jid : String
  name : String
  isGroup : Bool
  unreadCount : Nat
  lastMsgTime : Int
  lastPreview : String
  deriving DecidableEq, Repr

/-- The table `chats`. -/
abbrev Chats := Table ChatRow String (·.jid)

namespace Chats

variable {t : Chats} {row : ChatRow} {jid other : String}

/-- `UpsertChat`: the row is inserted, or replaces the one of its chat. -/
def upsertChat (t : Chats) (row : ChatRow) : Chats :=
  let excluded := { row with lastMsgTime := truncateMicrosecond row.lastMsgTime }
  match t.insert excluded with
  | some inserted => inserted
  | none => t.update (fun r => r.jid = row.jid) (fun r => { excluded with jid := r.jid }) fun _ => rfl

/-- `IncrementUnread`. -/
def incrementUnread (t : Chats) (chatJid : String) : Chats :=
  t.update (fun r => r.jid = chatJid) (fun r => { r with unreadCount := r.unreadCount + 1 })
    fun _ => rfl

/-- `MarkChatRead`. -/
def markChatRead (t : Chats) (jid : String) : Chats :=
  t.update (fun r => r.jid = jid) (fun r => { r with unreadCount := 0 }) fun _ => rfl

/-! ## What the statements write -/

theorem lookup_upsertChat : (t.upsertChat row).lookup jid =
    if jid = row.jid then some { row with lastMsgTime := truncateMicrosecond row.lastMsgTime }
    else t.lookup jid := by
  unfold upsertChat
  simp only
  split
  · next inserted h => exact Table.lookup_insert h
  · next h =>
    obtain ⟨old, hold⟩ := Table.insert_eq_none.mp h
    have hkey : old.jid = row.jid := Table.lookup_key hold
    rw [Table.lookup_update_key fun r => (rfl : _ = decide (r.jid = row.jid))]
    split
    · next hjid =>
      have hrow : t.lookup jid = some old := hjid ▸ hold
      simp [hrow, hkey]
    · rfl

theorem lookup_incrementUnread : (t.incrementUnread other).lookup jid =
    if jid = other then (t.lookup jid).map fun r => { r with unreadCount := r.unreadCount + 1 }
    else t.lookup jid :=
  Table.lookup_update_key fun _ => rfl

theorem lookup_markChatRead : (t.markChatRead other).lookup jid =
    if jid = other then (t.lookup jid).map fun r => { r with unreadCount := 0 }
    else t.lookup jid :=
  Table.lookup_update_key fun _ => rfl

/-- `unread_count` of a chat; a chat without a row has nothing unread. -/
def unread (t : Chats) (jid : String) : Nat := ((t.lookup jid).map (·.unreadCount)).getD 0

/-- An upsert stores the count that it carries. -/
theorem unread_upsertChat : (t.upsertChat row).unread jid =
    if jid = row.jid then row.unreadCount else t.unread jid := by
  unfold unread
  rw [lookup_upsertChat]
  split <;> rfl

theorem unread_incrementUnread_of_ne (h : jid ≠ other) :
    (t.incrementUnread other).unread jid = t.unread jid := by
  unfold unread
  rw [lookup_incrementUnread, if_neg h]

theorem unread_markChatRead : (t.markChatRead other).unread jid =
    if jid = other then 0 else t.unread jid := by
  unfold unread
  rw [lookup_markChatRead]
  split
  · cases t.lookup jid <;> rfl
  · rfl

/-- What a chat shows of its last message. -/
def shown (t : Chats) (jid : String) : Option (Int × String) :=
  (t.lookup jid).map fun r => (r.lastMsgTime, r.lastPreview)

/-- An upsert stores the time and the preview that it carries. -/
theorem shown_upsertChat : (t.upsertChat row).shown jid =
    if jid = row.jid then some (truncateMicrosecond row.lastMsgTime, row.lastPreview)
    else t.shown jid := by
  unfold shown
  rw [lookup_upsertChat]
  split <;> rfl

@[simp] theorem shown_incrementUnread : (t.incrementUnread other).shown jid = t.shown jid := by
  unfold shown
  rw [lookup_incrementUnread]
  split
  · cases t.lookup jid <;> rfl
  · rfl

@[simp] theorem shown_markChatRead : (t.markChatRead other).shown jid = t.shown jid := by
  unfold shown
  rw [lookup_markChatRead]
  split
  · cases t.lookup jid <;> rfl
  · rfl

end Chats

end WhatsAppMcp.Bridge.Store
